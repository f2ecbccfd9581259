import Colloquy.Proofs.Session.Store
import Mathlib.Data.Finmap

set_option autoImplicit false

/-!
The store as a finite map from keys to states. A key without a slot and one whose slot holds nothing
are both missing from the map; there are no slots in it. Every operation is answered as the map
answers it. Only a request for the slot itself can tell one slot from another, and it tells that a
key keeps its slot until it is removed.
-/

namespace Colloquy

/-- The states under keys. -/
abbrev Sessions (σ : Type) := Finmap fun _ : Key => SessionState σ

namespace Store

variable {σ : Type}

inductive Operation (σ : Type) where
  | put (key : Key) (state : SessionState σ)
  | state (key : Key)
  | contains (key : Key)
  | remove (key : Key)
  | slot (key : Key)
  | take (key : Key)
  | advance (key : Key) (lastValue : Option Value)
  | keys
  | count

inductive Answer (σ : Type) where
  | state (state? : Option (SessionState σ))
  | contains (isThere : Bool)
  /-- Keys in no order, each as often as it is listed. -/
  | keys (keys : Multiset Key)
  | count (count : Nat)

/-- Carries out an operation. The answer to a request for a slot is what the slot holds. -/
def apply (store : Store σ) : Operation σ → Except Poisoned (Answer σ) × Store σ
  | .put key state => ((store.put key state).1.map .state, (store.put key state).2)
  | .state key => ((store.state? key).map .state, store)
  | .contains key => ((store.contains key).map .contains, store)
  | .remove key => ((store.remove key).1.map .state, (store.remove key).2)
  | .slot key => ((store.slot key).1.read.map .state, (store.slot key).2)
  | .take key => ((store.take key).1.map .state, (store.take key).2)
  | .advance key lastValue =>
    ((store.advance key lastValue).1.map .state, (store.advance key lastValue).2)
  | .keys => (store.keys.map fun keys => .keys keys, store)
  | .count => (.ok (.count store.count), store)

/-- The answers to operations in their order. -/
def answers : Store σ → List (Operation σ) → List (Except Poisoned (Answer σ))
  | _, [] => []
  | store, operation :: operations =>
    (store.apply operation).1 :: answers (store.apply operation).2 operations

/-- The store that operations lead to. -/
def after (store : Store σ) (operations : List (Operation σ)) : Store σ :=
  operations.foldl (fun store operation => (store.apply operation).2) store

end Store

namespace Sessions

variable {σ : Type}

/-- Advances the state under a key, if there is one. -/
def advance (sessions : Sessions σ) (key : Key) (lastValue : Option Value) : Sessions σ :=
  match sessions.lookup key with
  | none => sessions
  | some state => sessions.insert key (state.advance lastValue)

/-- What a map answers to an operation, and what becomes of it. -/
def apply (sessions : Sessions σ) : Store.Operation σ → Store.Answer σ × Sessions σ
  | .put key state => (.state (sessions.lookup key), sessions.insert key state)
  | .state key | .slot key => (.state (sessions.lookup key), sessions)
  | .contains key => (.contains (sessions.lookup key).isSome, sessions)
  | .remove key | .take key => (.state (sessions.lookup key), sessions.erase key)
  | .advance key lastValue =>
    (.state ((sessions.lookup key).map (SessionState.advance · lastValue)),
      sessions.advance key lastValue)
  | .keys => (.keys sessions.keys.val, sessions)
  | .count => (.count sessions.keys.card, sessions)

def answers : Sessions σ → List (Store.Operation σ) → List (Store.Answer σ)
  | _, [] => []
  | sessions, operation :: operations =>
    (sessions.apply operation).1 :: answers (sessions.apply operation).2 operations

theorem lookup_insert_eq_ite (sessions : Sessions σ) (key other : Key) (state : SessionState σ) :
    (sessions.insert key state).lookup other =
      if other = key then some state else sessions.lookup other := by
  by_cases isKey : other = key
  · rw [if_pos isKey, isKey, Finmap.lookup_insert]
  · rw [if_neg isKey, Finmap.lookup_insert_of_ne sessions isKey]

theorem lookup_erase_eq_ite (sessions : Sessions σ) (key other : Key) :
    (sessions.erase key).lookup other = if other = key then none else sessions.lookup other := by
  by_cases isKey : other = key
  · rw [if_pos isKey, isKey, Finmap.lookup_erase]
  · rw [if_neg isKey, Finmap.lookup_erase_ne isKey]

theorem lookup_advance (sessions : Sessions σ) (key other : Key) (lastValue : Option Value) :
    (sessions.advance key lastValue).lookup other =
      if other = key then (sessions.lookup key).map (SessionState.advance · lastValue)
      else sessions.lookup other := by
  rw [advance]
  cases found : sessions.lookup key with
  | none =>
    by_cases isKey : other = key
    · rw [if_pos isKey, isKey, found]
      rfl
    · rw [if_neg isKey]
  | some state => exact lookup_insert_eq_ite sessions key other _

end Sessions

namespace Store

variable {σ : Type} {store : Store σ}

theorem mapM_eq_ok {α β : Type} {f : α → Except Poisoned β} {g : α → β} {items : List α}
    (succeeds : ∀ item ∈ items, f item = .ok (g item)) : items.mapM f = .ok (items.map g) := by
  induction items with
  | nil => rfl
  | cons item items inductionHypothesis =>
    rw [List.mapM_cons, succeeds item List.mem_cons_self,
      inductionHypothesis fun other later => succeeds other (List.mem_cons_of_mem _ later)]
    rfl

/-- The keys that are listed are those with a state, each one once. -/
theorem Reachable.keys_ok (reachable : store.Reachable) {state? : Key → Option (SessionState σ)}
    (held : ∀ key, store.state? key = .ok (state? key)) :
    ∃ keys, store.keys = .ok keys ∧ keys.Nodup ∧ ∀ key, key ∈ keys ↔ (state? key).isSome := by
  have read : ∀ entry ∈ store.slots, entry.2.read = .ok (state? entry.1) := by
    intro entry membership
    have found : store.find? entry.1 = some entry.2 :=
      lookup_of_mem_of_nodup reachable.nodup membership
    rw [← held, Store.state?, found]
  have entries : store.slots.mapM (fun entry => do
      let state? ← entry.2.read
      return (entry.1, state?.isSome)) =
        .ok (store.slots.map fun entry => (entry.1, (state? entry.1).isSome)) := by
    apply mapM_eq_ok
    intro entry membership
    rw [read entry membership]
    rfl
  have listed : store.keys =
      .ok ((store.slots.map Prod.fst).filter fun key => (state? key).isSome) := by
    rw [keys, entries, List.filter_map]
    change Except.ok _ = Except.ok _
    rw [List.filter_map, List.map_map]
    rfl
  refine ⟨_, listed, reachable.nodup.filter _, fun key => ?_⟩
  rw [List.mem_filter, and_iff_right_of_imp]
  intro isThere
  -- A key without a slot has no state.
  by_contra missing
  have notFound : store.find? key = none := by
    rw [find?, List.lookup_eq_none_iff]
    intro entry membership
    simp only [bne_iff_ne, ne_eq]
    rintro rfl
    exact missing (List.mem_map_of_mem membership)
  have absent := held key
  rw [Store.state?, notFound] at absent
  rw [← Except.ok.inj absent] at isThere
  cases isThere

/-- Under every key the store has what the map has. -/
structure Represents (store : Store σ) (sessions : Sessions σ) : Prop where
  reachable : store.Reachable
  state : ∀ key, store.state? key = .ok (sessions.lookup key)

namespace Represents

variable {sessions : Sessions σ} (represents : store.Represents sessions)
include represents

theorem slot (key : Key) : (store.slot key).2.Represents sessions := by
  refine ⟨represents.reachable.slot key, fun other => ?_⟩
  rw [state?_slot, represents.state]

theorem erase (key : Key) : (store.erase key).Represents (sessions.erase key) := by
  refine ⟨represents.reachable.erase key, fun other => ?_⟩
  rw [state?_erase, sessions.lookup_erase_eq_ite, represents.state, apply_ite Except.ok]

/-- What is left in the slot of a key is what the map then has under it. -/
theorem modify {α : Type} (key : Key) (change : SlotContent σ → α × SlotContent σ) {answer : α}
    {left? : Option (SessionState σ)} {later : Sessions σ}
    (changes : change (.holding (sessions.lookup key)) = (answer, .holding left?))
    (lookup : ∀ other, later.lookup other = if other = key then left? else sessions.lookup other) :
    (store.modify key change).1 = answer ∧ (store.modify key change).2.Represents later := by
  rw [← content_of_state? (represents.state key)] at changes
  refine ⟨congrArg Prod.fst changes, represents.reachable.modify key change, fun other => ?_⟩
  rw [state?_modify change (congrArg Prod.snd changes), lookup, represents.state,
    apply_ite Except.ok]

theorem keys : ∃ keys, store.keys = .ok keys ∧ (keys : Multiset Key) = sessions.keys.val := by
  obtain ⟨keys, listed, nodup, members⟩ := represents.reachable.keys_ok represents.state
  refine ⟨keys, listed, ?_⟩
  rw [Multiset.Nodup.ext (Multiset.coe_nodup.mpr nodup) sessions.keys.nodup]
  intro key
  rw [Multiset.mem_coe, members, Finmap.lookup_isSome, Finset.mem_val, Finmap.mem_keys]

/-- The store answers an operation as the map does, and goes on to have what the map has. -/
theorem apply (operation : Operation σ) :
    (store.apply operation).1 = .ok (sessions.apply operation).1 ∧
      (store.apply operation).2.Represents (sessions.apply operation).2 := by
  cases operation with
  | state key =>
    rw [Store.apply, represents.state]
    exact ⟨rfl, represents⟩
  | contains key =>
    rw [Store.apply, Store.contains, represents.state]
    exact ⟨rfl, represents⟩
  | slot key =>
    rw [Store.apply, Slot.read, content_of_state? (represents.state key)]
    exact ⟨rfl, represents.slot key⟩
  | remove key =>
    rw [Store.apply, Store.remove, represents.state]
    exact ⟨rfl, represents.erase key⟩
  | put key state =>
    obtain ⟨answer, later⟩ :=
      represents.modify key (replace state) rfl (sessions.lookup_insert_eq_ite key · state)
    rw [Store.apply, represents.reachable.put_eq, answer]
    exact ⟨rfl, later⟩
  | take key =>
    obtain ⟨answer, later⟩ := represents.modify key (refill id fun _ => none) rfl
      (sessions.lookup_erase_eq_ite key)
    rw [Store.apply, represents.reachable.take_eq_modify, answer]
    exact ⟨rfl, later⟩
  | advance key lastValue =>
    let advanced : Option (SessionState σ) → _ := Option.map (SessionState.advance · lastValue)
    obtain ⟨answer, later⟩ := represents.modify key (refill advanced advanced) rfl
      (sessions.lookup_advance key · lastValue)
    rw [Store.apply, represents.reachable.advance_eq_modify, answer]
    exact ⟨rfl, later⟩
  | keys =>
    obtain ⟨keys, listed, same⟩ := represents.keys
    rw [Store.apply, listed, Sessions.apply, ← same]
    exact ⟨rfl, represents⟩
  | count =>
    obtain ⟨keys, listed, same⟩ := represents.keys
    rw [Store.apply, Store.count, listed, Sessions.apply, Finset.card, ← same]
    exact ⟨rfl, represents⟩

theorem answers (operations : List (Operation σ)) :
    store.answers operations = (sessions.answers operations).map .ok := by
  induction operations generalizing store sessions with
  | nil => rfl
  | cons operation operations inductionHypothesis =>
    obtain ⟨answer, later⟩ := represents.apply operation
    rw [Store.answers, answer, inductionHypothesis later, Sessions.answers, List.map_cons]

end Represents

theorem represents_empty : (empty : Store σ).Represents ∅ :=
  ⟨.empty, fun key => by rw [Finmap.lookup_empty]; rfl⟩

section

variable (reachable : store.Reachable) {number : Nat} {owner? : Option Key}
  (owns : store.Owns number owner?)
include reachable

theorem Reachable.apply (operation : Operation σ) : (store.apply operation).2.Reachable := by
  cases operation with
  | put key state => exact reachable.put key state
  | state | contains | keys | count => exact reachable
  | remove key => exact reachable.remove key
  | slot key => exact reachable.slot key
  | take key => exact reachable.take key
  | advance key lastValue => exact reachable.advance key lastValue

theorem Reachable.after (operations : List (Operation σ)) : (store.after operations).Reachable := by
  induction operations generalizing store with
  | nil => exact reachable
  | cons operation operations inductionHypothesis =>
    exact inductionHypothesis (reachable.apply operation)

include owns

/-- A slot stays with its key but for the removal of that key. -/
theorem Owns.apply (operation : Operation σ) :
    ∃ later?, (store.apply operation).2.Owns number later? ∧
      ∀ key, later? = some key ↔ owner? = some key ∧ .remove key ≠ operation := by
  cases operation with
  | state | contains | keys | count => exact ⟨owner?, owns, by simp⟩
  | slot opened => exact ⟨owner?, owns.slot opened, by simp⟩
  | remove removed =>
    refine ⟨_, owns.erase removed, fun key => ?_⟩
    simp [Option.filter_eq_some_iff]
  | put filled state =>
    refine ⟨owner?, ?_, by simp⟩
    rw [Store.apply, reachable.put_eq]
    exact owns.modify filled _
  | take filled =>
    refine ⟨owner?, ?_, by simp⟩
    rw [Store.apply, reachable.take_eq_modify]
    exact owns.modify filled _
  | advance filled lastValue =>
    refine ⟨owner?, ?_, by simp⟩
    rw [Store.apply, reachable.advance_eq_modify]
    exact owns.modify filled _

theorem Owns.after (operations : List (Operation σ)) :
    ∃ later?, (store.after operations).Owns number later? ∧
      ∀ key, later? = some key ↔ owner? = some key ∧ .remove key ∉ operations := by
  induction operations generalizing store owner? with
  | nil => exact ⟨owner?, owns, by simp⟩
  | cons operation operations inductionHypothesis =>
    obtain ⟨next?, nextOwns, next⟩ := owns.apply reachable operation
    obtain ⟨later?, laterOwns, later⟩ := inductionHypothesis (reachable.apply operation) nextOwns
    refine ⟨later?, laterOwns, fun key => ?_⟩
    rw [later, next, List.mem_cons, not_or, and_assoc]

end

/-- Two requests for slots give one slot if and only if they are for one key, which is not removed
between them. -/
theorem Reachable.sameSlot_iff (reachable : store.Reachable) (first second : Key)
    (between : List (Operation σ)) :
    (store.slot first).1.number =
        ((store.after (.slot first :: between)).slot second).1.number ↔
      first = second ∧ .remove first ∉ between := by
  have owns := (reachable.slot first).owns (find?_slot store first)
  obtain ⟨owner?, laterOwns, owner⟩ := owns.after (reachable.slot first) between
  have slotOwner := (laterOwns.slot second).owner second
  rw [find?_slot, Option.map_some, Option.some_inj, owner] at slotOwner
  rw [eq_comm]
  refine slotOwner.trans ?_
  rw [Option.some_inj]
  constructor
  · rintro ⟨rfl, kept⟩
    exact ⟨rfl, kept⟩
  · rintro ⟨rfl, kept⟩
    exact ⟨rfl, kept⟩

/-- A store answers operations of any number as a finite map from keys to states does, in which
there are no slots; and requests for slots give the same slot exactly where they are for the same key
and it was not removed between them. -/
theorem answers_eq_finiteMap (operations : List (Operation σ)) :
    answers .empty operations = (Sessions.answers ∅ operations).map .ok ∧
    ∀ (before between : List (Operation σ)) (first second : Key),
      ((after .empty before).slot first).1.number =
          ((after .empty (before ++ .slot first :: between)).slot second).1.number ↔
        first = second ∧ .remove first ∉ between := by
  refine ⟨represents_empty.answers operations, fun before between first second => ?_⟩
  have split : after (.empty : Store σ) (before ++ .slot first :: between) =
      (after .empty before).after (.slot first :: between) := List.foldl_append
  rw [split]
  exact (Reachable.empty.after before).sameSlot_iff first second between

end Store

end Colloquy
