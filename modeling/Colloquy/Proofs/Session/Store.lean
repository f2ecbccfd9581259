import Colloquy.Proofs.Entries
import Colloquy.Session.Store

set_option autoImplicit false

/-!
What the answers of a store depend on. No two slots of a store that comes about belong to one key,
so a slot that gets back what was taken out of it is as it was. A slot that holds nothing shows in no
answer, so it makes no difference that one is made where a key is first used. A slot keeps its number,
which no other slot has, not even once the slot is removed.
-/

namespace Colloquy.Store

variable {σ : Type}

/-- The stores that come about: slots are made, filled in any way, and removed. -/
inductive Reachable : Store σ → Prop
  | empty : Reachable .empty
  | slot {store : Store σ} (key : Key) : Reachable store → Reachable (store.slot key).2
  | fill {store : Store σ} (key : Key) (content : SlotContent σ) :
      Reachable store → Reachable (store.fill key content)
  | erase {store : Store σ} (key : Key) : Reachable store → Reachable (store.erase key)

theorem fill_slots_keys (store : Store σ) (key : Key) (content : SlotContent σ) :
    (store.fill key content).slots.map Prod.fst = store.slots.map Prod.fst := by
  rw [fill, List.map_map]
  apply List.map_congr_left
  intro entry _
  by_cases isKey : entry.1 = key
  · simp [isKey]
  · simp [isKey]

theorem Reachable.nodup {store : Store σ} (reachable : store.Reachable) :
    (store.slots.map Prod.fst).Nodup := by
  induction reachable with
  | empty => exact List.nodup_nil
  | @slot store key _ inductionHypothesis =>
    rw [Store.slot]
    split
    · exact inductionHypothesis
    case h_2 missing =>
      rw [List.map_cons, List.nodup_cons]
      refine ⟨?_, inductionHypothesis⟩
      rintro membership
      obtain ⟨entry, isEntry, rfl⟩ := List.mem_map.mp membership
      simpa using List.lookup_eq_none_iff.mp missing entry isEntry
  | fill key content _ inductionHypothesis =>
    rw [fill_slots_keys]
    exact inductionHypothesis
  | erase key _ inductionHypothesis =>
    exact inductionHypothesis.sublist (List.filter_sublist.map _)

section

variable (store : Store σ) (key : Key)

theorem fill_fill (first second : SlotContent σ) :
    (store.fill key first).fill key second = store.fill key second := by
  simp only [fill, List.map_map, Store.mk.injEq, and_true]
  apply List.map_congr_left
  intro entry _
  by_cases isKey : entry.1 = key
  · simp [isKey]
  · simp [isKey]

theorem slot_of_found {slot : Slot σ} (found : store.find? key = some slot) :
    store.slot key = (slot, store) := by
  rw [Store.slot, found]

theorem slot_of_missing (missing : store.find? key = none) :
    store.slot key = (⟨store.nextNumber, .holding none⟩,
      ⟨(key, ⟨store.nextNumber, .holding none⟩) :: store.slots, store.nextNumber + 1⟩) := by
  rw [Store.slot, missing]

theorem find?_slot : (store.slot key).2.find? key = some (store.slot key).1 := by
  rw [slot]
  split
  case h_1 found => exact found
  · rw [find?, lookup_cons_eq_ite, if_pos rfl]

theorem find?_slot_of_ne {other : Key} (differs : other ≠ key) :
    (store.slot key).2.find? other = store.find? other := by
  rw [slot]
  split
  · rfl
  · rw [find?, lookup_cons_eq_ite, if_neg differs, find?]

theorem find?_fill (content : SlotContent σ) (other : Key) :
    (store.fill key content).find? other =
      if other = key then (store.find? key).map fun slot => ⟨slot.number, content⟩
      else store.find? other := by
  rw [find?, find?, find?, fill]
  induction store.slots with
  | nil => simp
  | cons entry rest inductionHypothesis =>
    obtain ⟨first, slot⟩ := entry
    by_cases isKey : first = key
    · subst isKey
      by_cases isFirst : other = first
      · simp [isFirst]
      · simpa [lookup_cons_eq_ite, isFirst] using inductionHypothesis
    · have isOther : key ≠ first := Ne.symm isKey
      rw [List.map_cons, if_neg isKey, lookup_cons_eq_ite, lookup_cons_eq_ite, lookup_cons_eq_ite,
        inductionHypothesis, if_neg isOther]
      by_cases isFirst : other = first
      · simp [isFirst, isKey]
      · simp [isFirst]

theorem find?_erase (other : Key) :
    (store.erase key).find? other = if other = key then none else store.find? other :=
  lookup_filter_ne store.slots key other

theorem take_eq :
    store.take key =
      match (store.slot key).1.content with
      | .poisoned => (.error .poisoned, (store.slot key).2)
      | .holding taken => (.ok taken, (store.slot key).2.fill key (.holding none)) := by
  rw [take, access]
  rcases store.slot key with ⟨⟨number, _ | _⟩, after⟩ <;> rfl

/-- A slot that has just been made shows in no answer. -/
theorem state?_slot (other : Key) : (store.slot key).2.state? other = store.state? other := by
  rw [slot]
  split
  · rfl
  case h_2 missing =>
    rw [state?, state?, find?, lookup_cons_eq_ite]
    by_cases isKey : other = key
    · rw [isKey, missing, if_pos rfl]
      rfl
    · rw [if_neg isKey]
      rfl

theorem keys_slot : (store.slot key).2.keys = store.keys := by
  rw [slot]
  split
  · rfl
  · rw [keys, keys, List.mapM_cons]
    cases store.slots.mapM fun entry => do
      let state? ← entry.2.read
      return (entry.1, state?.isSome) <;> rfl

end

variable {store : Store σ} {key : Key}

theorem fill_content (distinct : (store.slots.map Prod.fst).Nodup) {slot : Slot σ}
    (found : store.find? key = some slot) : store.fill key slot.content = store := by
  have same : ∀ entry ∈ store.slots,
      (if entry.1 = key then (key, ⟨entry.2.number, slot.content⟩) else entry) = entry := by
    intro entry membership
    by_cases isKey : entry.1 = key
    · have isSlot := lookup_of_mem_of_nodup distinct membership
      rw [isKey] at isSlot
      cases found.symm.trans isSlot
      rw [if_pos isKey, ← isKey]
    · rw [if_neg isKey]
  rw [fill, List.map_congr_left same, List.map_id']

theorem slot_of_take_error {e : Poisoned} {after : Store σ}
    (takes : store.take key = (.error e, after)) : after = (store.slot key).2 := by
  rw [take_eq] at takes
  split at takes <;> cases takes
  rfl

/-- What was taken out of a slot can be put back. -/
theorem Reachable.fill_taken (reachable : store.Reachable) {taken : Option (SessionState σ)}
    {after : Store σ} (takes : store.take key = (.ok taken, after)) :
    after.fill key (.holding taken) = (store.slot key).2 := by
  rw [take_eq] at takes
  split at takes
  · cases takes
  case h_2 content =>
    cases takes
    rw [fill_fill, ← content]
    exact fill_content (reachable.slot key).nodup (find?_slot store key)

/-! Operations that work on what the slot of a key holds. -/

/-- Opens the slot of a key, and changes what it holds. -/
def modify {α : Type} (store : Store σ) (key : Key) (change : SlotContent σ → α × SlotContent σ) :
    α × Store σ :=
  let changed := change (store.slot key).1.content
  (changed.1, (store.slot key).2.fill key changed.2)

section

variable {α : Type} (store : Store σ) (key : Key) (change : SlotContent σ → α × SlotContent σ)

theorem Reachable.modify {store : Store σ} (reachable : store.Reachable) :
    (store.modify key change).2.Reachable :=
  (reachable.slot key).fill key _

theorem find?_modify_of_ne {other : Key} (differs : other ≠ key) :
    (store.modify key change).2.find? other = store.find? other := by
  rw [modify, find?_fill, if_neg differs, find?_slot_of_ne store key differs]

theorem nextNumber_le_slot : store.nextNumber ≤ (store.slot key).2.nextNumber := by
  rw [slot]
  split
  · exact Nat.le_refl _
  · exact Nat.le_succ _

theorem nextNumber_le_modify : store.nextNumber ≤ (store.modify key change).2.nextNumber :=
  nextNumber_le_slot store key

/-- What is stored in the place of what a slot holds. -/
def replace (state : SessionState σ) :
    SlotContent σ → Except Poisoned (Option (SessionState σ)) × SlotContent σ
  | .poisoned => (.error .poisoned, .poisoned)
  | .holding replaced => (.ok replaced, .holding (some state))

/-- An answer by what a slot holds, and what the slot is filled with. A poisoned slot stays so. -/
def refill (answer left : Option (SessionState σ) → Option (SessionState σ)) :
    SlotContent σ → Except Poisoned (Option (SessionState σ)) × SlotContent σ
  | .poisoned => (.error .poisoned, .poisoned)
  | .holding state? => (.ok (answer state?), .holding (left state?))

end

section

variable (reachable : store.Reachable) (key : Key)
include reachable

theorem Reachable.refill_eq (answer left : Option (SessionState σ) → Option (SessionState σ)) :
    (match store.access key with
      | (.error e, opened) => (.error e, opened)
      | (.ok state?, opened) => (.ok (answer state?), opened.fill key (.holding (left state?)))) =
      store.modify key (refill answer left) := by
  have unchanged := fill_content (reachable.slot key).nodup (find?_slot store key)
  rw [access, Store.modify]
  generalize store.slot key = opened at unchanged
  obtain ⟨⟨number, _ | _⟩, opened⟩ := opened
  · rfl
  · dsimp only at unchanged
    simp only [Slot.read, refill, unchanged]

theorem Reachable.take_eq_modify :
    store.take key = store.modify key (refill id fun _ => none) :=
  reachable.refill_eq key id fun _ => none

theorem Reachable.advance_eq_modify (lastValue : Option Value) :
    store.advance key lastValue =
      store.modify key (refill (Option.map (SessionState.advance · lastValue))
        (Option.map (SessionState.advance · lastValue))) :=
  reachable.refill_eq key (Option.map (SessionState.advance · lastValue)) _

theorem Reachable.put_eq (state : SessionState σ) :
    store.put key state = store.modify key (replace state) := by
  have isRefill : replace state = refill id fun _ => some state := by
    funext content
    cases content <;> rfl
  rw [isRefill]
  exact reachable.refill_eq key id fun _ => some state

theorem Reachable.take : (store.take key).2.Reachable := by
  rw [reachable.take_eq_modify]
  exact reachable.modify key _

theorem Reachable.put (state : SessionState σ) : (store.put key state).2.Reachable := by
  rw [reachable.put_eq]
  exact reachable.modify key _

theorem Reachable.advance (lastValue : Option Value) :
    (store.advance key lastValue).2.Reachable := by
  rw [reachable.advance_eq_modify]
  exact reachable.modify key _

theorem Reachable.remove : (store.remove key).2.Reachable :=
  reachable.erase key

end

/-! The states under the keys of a store. -/

theorem content_of_state? {state? : Option (SessionState σ)} (held : store.state? key = .ok state?) :
    (store.slot key).1.content = .holding state? := by
  rw [Store.state?] at held
  cases found : store.find? key with
  | none =>
    rw [found] at held
    cases held
    rw [slot_of_missing store key found]
  | some slot =>
    obtain ⟨number, content⟩ := slot
    rw [found] at held
    rw [slot_of_found store key found]
    cases content with
    | poisoned => cases held
    | holding => cases held; rfl

theorem state?_modify {α : Type} (change : SlotContent σ → α × SlotContent σ)
    {state? : Option (SessionState σ)}
    (left : (change (store.slot key).1.content).2 = .holding state?) (other : Key) :
    (store.modify key change).2.state? other =
      if other = key then .ok state? else store.state? other := by
  by_cases isKey : other = key
  · rw [if_pos isKey, isKey, Store.state?, modify, left, find?_fill, if_pos rfl, find?_slot]
    rfl
  · rw [if_neg isKey, Store.state?, find?_modify_of_ne store key change isKey, Store.state?]

theorem state?_erase (other : Key) :
    (store.erase key).state? other = if other = key then .ok none else store.state? other := by
  rw [Store.state?, find?_erase]
  by_cases isKey : other = key
  · rw [if_pos isKey, if_pos isKey]
  · rw [if_neg isKey, if_neg isKey, Store.state?]

/-! The numbers of slots. -/

/-- The number has been given out, and the slot that has it is that of the key; without a key, no slot
has it any more. -/
structure Owns (store : Store σ) (number : Nat) (owner? : Option Key) : Prop where
  issued : number < store.nextNumber
  owner : ∀ key, (store.find? key).map Slot.number = some number ↔ owner? = some key

section

variable {number : Nat} {owner? : Option Key}

theorem Owns.slot (owns : store.Owns number owner?) (key : Key) :
    (store.slot key).2.Owns number owner? := by
  cases found : store.find? key with
  | some slot =>
    rw [slot_of_found store key found]
    exact owns
  | none =>
    rw [slot_of_missing store key found]
    refine ⟨Nat.lt_succ_of_lt owns.issued, fun other => ?_⟩
    rw [find?, lookup_cons_eq_ite, ← owns.owner, find?]
    by_cases isKey : other = key
    · have missing : store.slots.lookup key = none := found
      simp [isKey, missing, Nat.ne_of_gt owns.issued]
    · rw [if_neg isKey]

theorem Owns.fill (owns : store.Owns number owner?) (key : Key) (content : SlotContent σ) :
    (store.fill key content).Owns number owner? where
  issued := owns.issued
  owner other := by
    rw [find?_fill, ← owns.owner]
    by_cases isKey : other = key
    · simp [isKey, Function.comp_def]
    · rw [if_neg isKey]

/-- With its slot removed, a number has no owner. -/
theorem Owns.erase (owns : store.Owns number owner?) (key : Key) :
    (store.erase key).Owns number (owner?.filter (· ≠ key)) where
  issued := owns.issued
  owner other := by
    rw [find?_erase, Option.filter_eq_some_iff, ← owns.owner]
    by_cases isKey : other = key
    · simp [isKey]
    · simp [isKey]

theorem Owns.modify (owns : store.Owns number owner?) {α : Type} (key : Key)
    (change : SlotContent σ → α × SlotContent σ) :
    (store.modify key change).2.Owns number owner? :=
  (owns.slot key).fill key _

end

/-- A slot has a number that was given out before, and no other slot has it. -/
theorem Reachable.owns (reachable : store.Reachable) {key : Key} {slot : Slot σ}
    (found : store.find? key = some slot) : store.Owns slot.number (some key) := by
  induction reachable generalizing key slot with
  | empty => cases found
  | @slot store opened reachable inductionHypothesis =>
    cases isThere : store.find? opened with
    | some other =>
      rw [slot_of_found store opened isThere] at found ⊢
      exact inductionHypothesis found
    | none =>
      by_cases isOpened : key = opened
      · subst isOpened
        rw [slot_of_missing store key isThere] at found ⊢
        rw [find?, lookup_cons_eq_ite, if_pos rfl] at found
        cases found
        refine ⟨Nat.lt_succ_self _, fun other => ?_⟩
        rw [find?, lookup_cons_eq_ite]
        by_cases isKey : other = key
        · simp [isKey]
        · -- The number is new, so no other slot has it.
          have unused : (store.find? other).map Slot.number ≠ some store.nextNumber := by
            rintro isNumber
            obtain ⟨old, isOld, sameNumber⟩ := Option.map_eq_some_iff.mp isNumber
            exact Nat.ne_of_lt (inductionHypothesis isOld).issued sameNumber
          rw [if_neg isKey]
          constructor
          · exact fun isNumber => absurd isNumber unused
          · exact fun same => absurd (Option.some.inj same).symm isKey
      · rw [find?_slot_of_ne store opened isOpened] at found
        exact (inductionHypothesis found).slot opened
  | @fill store filled content _ inductionHypothesis =>
    rw [find?_fill] at found
    split at found
    case isTrue isFilled =>
      obtain ⟨before, isBefore, rfl⟩ := Option.map_eq_some_iff.mp found
      exact isFilled ▸ (inductionHypothesis isBefore).fill filled content
    · exact (inductionHypothesis found).fill filled content
  | @erase store erased _ inductionHypothesis =>
    rw [find?_erase] at found
    split at found
    · cases found
    case isFalse isOther =>
      have owns := (inductionHypothesis found).erase erased
      rwa [Option.filter_some_pos (by simpa using isOther)] at owns

end Colloquy.Store
