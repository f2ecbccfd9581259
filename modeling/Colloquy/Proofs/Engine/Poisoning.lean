import Colloquy.Proofs.Engine.Isolation
import Colloquy.Proofs.Engine.Lineage
import Colloquy.Proofs.Session.FiniteMap

set_option autoImplicit false

/-!
What an execution that breaks off does to the list of keys. It poisons the slot of its key, and the
slot stays so until the key is removed, whatever else is done. As long as there is such a slot, no key
is listed and none is counted, although the sessions under the other keys are still there.
-/

namespace Colloquy

namespace Store

variable {σ : Type} {store : Store σ}

/-- The key has a poisoned slot. -/
def PoisonedAt (store : Store σ) (key : Key) : Prop :=
  store.state? key = .error .poisoned

theorem not_poisonedAt_empty (key : Key) : ¬(empty : Store σ).PoisonedAt key :=
  nofun

theorem poisonedAt_iff_content (key : Key) :
    store.PoisonedAt key ↔ (store.slot key).1.content = .poisoned := by
  rw [PoisonedAt, ← state?_slot store key, Store.state?, find?_slot]
  rcases (store.slot key).1 with ⟨number, _ | _⟩ <;> simp [Slot.read]

theorem poisonedAt_congr {later : Store σ} {key : Key} (same : later.find? key = store.find? key) :
    later.PoisonedAt key ↔ store.PoisonedAt key := by
  rw [PoisonedAt, PoisonedAt, Store.state?, Store.state?, same]

/-! The keys that are listed. -/

theorem mapM_eq_error {α β : Type} {f : α → Except Poisoned β} {items : List α} {item : α}
    (membership : item ∈ items) (fails : f item = .error .poisoned) :
    items.mapM f = .error .poisoned := by
  induction items with
  | nil => cases membership
  | cons first items inductionHypothesis =>
    rw [List.mapM_cons]
    rcases List.mem_cons.mp membership with rfl | later
    · rw [fails]
      rfl
    · rw [inductionHypothesis later]
      rcases f first with ⟨⟩ | value <;> rfl

theorem keys_of_poisonedAt {key : Key} (poisoned : store.PoisonedAt key) :
    store.keys = .error .poisoned := by
  rw [PoisonedAt, Store.state?] at poisoned
  cases found : store.find? key with
  | none =>
    rw [found] at poisoned
    cases poisoned
  | some slot =>
    rw [found] at poisoned
    have unreadable : slot.read = .error .poisoned := poisoned
    have membership : (key, slot) ∈ store.slots := by
      obtain ⟨before, behind, isSplit, -⟩ := List.lookup_eq_some_iff.mp found
      simp [isSplit]
    have fails : (do
        let state? ← slot.read
        return (key, state?.isSome)) = Except.error Poisoned.poisoned := by
      rw [unreadable]
      rfl
    rw [keys, mapM_eq_error membership fails]
    rfl

theorem count_of_poisonedAt {key : Key} (poisoned : store.PoisonedAt key) : store.count = 0 := by
  rw [count, keys_of_poisonedAt poisoned]

/-- The keys can be listed: those with a state, each one once. -/
def ListsKeys (store : Store σ) : Prop :=
  ∃ keys, store.keys = .ok keys ∧ keys.Nodup ∧ (∀ key, key ∈ keys ↔ store.contains key = .ok true) ∧
    store.count = keys.length

theorem Reachable.listsKeys_iff (reachable : store.Reachable) :
    store.ListsKeys ↔ ∀ key, ¬store.PoisonedAt key := by
  constructor
  · rintro ⟨keys, listed, -⟩ key poisoned
    rw [keys_of_poisonedAt poisoned] at listed
    cases listed
  · intro sound
    have held (key : Key) : ∃ state?, store.state? key = .ok state? := by
      cases answer : store.state? key with
      | ok state? => exact ⟨state?, rfl⟩
      | error e => exact (sound key answer).elim
    choose state? isState using held
    obtain ⟨keys, listed, nodup, members⟩ := reachable.keys_ok isState
    refine ⟨keys, listed, nodup, fun key => ?_, ?_⟩
    · rw [members, contains, isState]
      exact ⟨fun isThere => congrArg Except.ok isThere, Except.ok.inj⟩
    · rw [count, listed]

/-! Which slots are poisoned after a change. -/

/-- What becomes of the poisoned slots: one more may be poisoned, and one may be removed. -/
structure Marks (store later : Store σ) (broken? removed? : Option Key) : Prop where
  reachable : later.Reachable
  poisoned : ∀ key, later.PoisonedAt key ↔
    broken? = some key ∨ store.PoisonedAt key ∧ removed? ≠ some key

namespace Marks

theorem refl (reachable : store.Reachable) : Marks store store none none :=
  ⟨reachable, fun key => by simp⟩

theorem trans {middle later : Store σ} {broken? removed? : Option Key}
    (first : Marks store middle none removed?) (second : Marks middle later broken? none) :
    Marks store later broken? removed? := by
  refine ⟨second.reachable, fun key => ?_⟩
  rw [second.poisoned, first.poisoned]
  simp

theorem slot (reachable : store.Reachable) (key : Key) :
    Marks store (store.slot key).2 none none := by
  refine ⟨reachable.slot key, fun other => ?_⟩
  rw [PoisonedAt, state?_slot]
  simp [PoisonedAt]

theorem erase (reachable : store.Reachable) (key : Key) :
    Marks store (store.erase key) none (some key) := by
  refine ⟨reachable.erase key, fun other => ?_⟩
  rw [PoisonedAt, state?_erase]
  by_cases isKey : other = key
  · simp [isKey]
  · simp [isKey, Ne.symm isKey, PoisonedAt]

theorem modify (reachable : store.Reachable) {α : Type} (key : Key)
    (change : SlotContent σ → α × SlotContent σ) {broken? : Option Key}
    (left : (change (store.slot key).1.content).2 = .poisoned ↔
      broken? = some key ∨ (store.slot key).1.content = .poisoned)
    (noOther : ∀ other, broken? = some other → other = key) :
    Marks store (store.modify key change).2 broken? none := by
  refine ⟨reachable.modify key change, fun other => ?_⟩
  by_cases isKey : other = key
  · subst isKey
    have opened : ((store.modify other change).2.slot other).1.content =
        (change (store.slot other).1.content).2 := by
      have found : (store.modify other change).2.find? other =
          some ⟨(store.slot other).1.number, (change (store.slot other).1.content).2⟩ := by
        rw [Store.modify, find?_fill, if_pos rfl, find?_slot]
        rfl
      rw [slot_of_found _ _ found]
    rw [poisonedAt_iff_content, opened, left, ← poisonedAt_iff_content]
    simp
  · have notBroken : broken? ≠ some other := fun isBroken => isKey (noOther other isBroken)
    rw [poisonedAt_congr (find?_modify_of_ne store key change isKey)]
    simp [notBroken]

theorem refill (reachable : store.Reachable) (key : Key)
    (answer left : Option (SessionState σ) → Option (SessionState σ)) :
    Marks store (store.modify key (Store.refill answer left)).2 none none := by
  refine modify reachable key _ ?_ nofun
  cases (store.slot key).1.content <;> simp [Store.refill]

theorem put (reachable : store.Reachable) (key : Key) (state : SessionState σ) :
    Marks store (store.put key state).2 none none := by
  rw [reachable.put_eq]
  refine modify reachable key _ ?_ nofun
  cases (store.slot key).1.content <;> simp [replace]

end Marks

end Store

/-- The key of an execution, if it broke off. -/
def Completion.brokenKey? {φ : Type} (key : Key) : Completion φ → Option Key
  | .brokeOff => some key
  | .returned _ => none

theorem Completion.eq_of_brokenKey? {φ : Type} {completion : Completion φ} {key other : Key}
    (broke : completion.brokenKey? key = some other) : other = key := by
  cases completion <;> cases broke
  rfl

/-- The key of a prompt, if its last submission broke off. -/
def Prompt.Ending.brokenKey? (key : Key) : Ending → Option Key
  | .brokeOff => some key
  | _ => none

namespace Engine

variable {σ υ φ : Type}

section

variable (engine : Engine σ υ φ) (text : String) (host : Host)

theorem startIn_holding (resumes : Bool) (state? : Option (SessionState σ)) :
    ∃ left?, (engine.startIn host resumes (.holding state?)).2 = .holding left? := by
  rw [startIn]
  split
  · exact ⟨none, rfl⟩
  · exact ⟨state?, rfl⟩

theorem prepareIn_holding (resumes : Bool) (state? : Option (SessionState σ)) :
    ∃ left?, (engine.prepareIn text host resumes (.holding state?)).2 = .holding left? := by
  obtain ⟨left?, isLeft⟩ := engine.startIn_holding host resumes state?
  rw [prepareIn]
  generalize engine.startIn host resumes (.holding state?) = started at isLeft ⊢
  rcases started with ⟨_ | ⟨state, resumed⟩, left⟩
  · exact ⟨left?, isLeft⟩
  · dsimp only
    cases engine.backend.compile state.session text with
    | ok compiled => exact ⟨left?, isLeft⟩
    | error diagnostics =>
      cases resumed with
      | true => exact ⟨some state, rfl⟩
      | false => exact ⟨left?, isLeft⟩

theorem finishIn_poisoned_iff (key : Key) (prepared : Prepared σ υ)
    (emission? : Option (Except ArtifactFailure ArtifactPaths)) :
    (engine.finishIn key prepared emission?).2 = .poisoned ↔
      (engine.finishIn key prepared emission?).1.brokenKey? key = some key := by
  rw [finishIn]
  rcases engine.backend.execute prepared.state.session prepared.compiled with ⟨session, _ | _ | _⟩ <;>
    simp [Completion.brokenKey?]

/-- A slot is left poisoned if the execution breaks off in it, or if it was poisoned before. -/
theorem submitIn_poisoned_iff (key? : Option Key)
    (emission? : υ → Option (Except ArtifactFailure ArtifactPaths)) (content : SlotContent σ) :
    (engine.submitIn text host key? emission? content).2 = .poisoned ↔
      (engine.submitIn text host key? emission? content).1.brokenKey? (slotKey key?) =
        some (slotKey key?) ∨ content = .poisoned := by
  cases content with
  | poisoned => simp [submitIn, prepareIn, startIn]
  | holding state? =>
    obtain ⟨left?, isLeft⟩ := engine.prepareIn_holding text host key?.isSome state?
    rw [submitIn]
    generalize engine.prepareIn text host key?.isSome (.holding state?) = prepared at isLeft ⊢
    rcases prepared with ⟨_ | prepared, left⟩
    · obtain rfl : left = _ := isLeft
      simp [Completion.brokenKey?]
    · simpa using engine.finishIn_poisoned_iff (slotKey key?) prepared (emission? prepared.compiled)

end

variable (engine : Engine σ υ φ) {store : Store σ} (reachable : store.Reachable)
include reachable

theorem marks_submitIn (text : String) (host : Host) (key? : Option Key)
    (emission? : υ → Option (Except ArtifactFailure ArtifactPaths)) :
    Store.Marks store (store.modify (slotKey key?) (engine.submitIn text host key? emission?)).2
      ((store.modify (slotKey key?) (engine.submitIn text host key? emission?)).1.brokenKey?
        (slotKey key?)) none :=
  .modify reachable _ _ (engine.submitIn_poisoned_iff text host key? emission? _)
    fun _ => Completion.eq_of_brokenKey?

theorem marks_executeCode (text : String) (host : Host) (key? : Option Key) :
    Store.Marks store (engine.executeCode store text host key?).2
      ((engine.executeCode store text host key?).1.brokenKey? (slotKey key?)) none := by
  rw [engine.executeCode_eq_modify text host key? reachable]
  exact engine.marks_submitIn reachable text host key? _

theorem marks_submit {State : Type} [FileSystem (StateM State)] (source : Source) (host : Host)
    (key? : Option Key) (files : State) :
    Store.Marks store (engine.submit (m := StateM State) store source host key? files).1.2
      ((engine.submit (m := StateM State) store source host key? files).1.1.brokenKey?
        (slotKey key?)) none := by
  cases readable : source.text? files with
  | none =>
    obtain ⟨path, message, unchanged⟩ := engine.submit_of_unreadable host key? readable
    rw [unchanged]
    exact .refl reachable
  | some text =>
    obtain ⟨emission?, modified⟩ := engine.submit_eq_modify host key? reachable readable
    rw [modified]
    exact engine.marks_submitIn reachable text host key? emission?

theorem marks_runLines (settings : Prompt.Settings) (lines : List (List UInt8)) :
    Store.Marks store (Prompt.runLines engine settings store lines).store
      ((Prompt.runLines engine settings store lines).ending.brokenKey? settings.key) none := by
  induction lines generalizing store with
  | nil => exact .refl reachable
  | cons line lines inductionHypothesis =>
    rw [Prompt.runLines, Prompt.turn]
    cases Text.Utf8.decode? line with
    | none => exact .refl reachable
    | some input =>
      dsimp only
      cases Command.parse input with
      | quit => exact .refl reachable
      | empty | listVariables | unknown => exact inductionHypothesis reachable
      | submit code =>
        have executed :=
          engine.marks_executeCode reachable code settings.host (some settings.key)
        rw [Prompt.reply]
        generalize engine.executeCode store code settings.host (some settings.key) = completed
          at executed ⊢
        obtain ⟨result | _, later⟩ := completed
        · exact executed.trans (inductionHypothesis executed.reachable)
        · exact executed

omit reachable

/-! Runs of operations on an engine and on its store. -/

/-- Something that is done with an engine, or with its store alone. -/
inductive Act (σ State : Type) where
  | engine (operation : Operation State)
  | store (operation : Store.Operation σ)

variable {State : Type}

/-- The key whose slot an act removes. -/
def Act.removedKey? : Act σ State → Option Key
  | .engine (.remove key) | .engine (.move key _) | .store (.remove key) => some key
  | _ => none

variable [FileSystem (StateM State)]

/-- The key of the execution that breaks off in an act. -/
def brokenKey? (store : Store σ) : Act σ State → Option Key
  | .engine (.submit source host key? files) =>
    (engine.submit (m := StateM State) store source host key? files).1.1.brokenKey? (slotKey key?)
  | .engine (.prompt settings input) =>
    (Prompt.run engine settings store input).ending.brokenKey? settings.key
  | _ => none

/-- The store after an act. -/
def perform (store : Store σ) : Act σ State → Store σ
  | .engine operation => engine.apply store operation
  | .store operation => (store.apply operation).2

def performAll (store : Store σ) (acts : List (Act σ State)) : Store σ :=
  acts.foldl engine.perform store

/-- An execution under the key broke off, and the key was not removed since. -/
def BrokenSince (store : Store σ) (acts : List (Act σ State)) (key : Key) : Prop :=
  ∃ before act later, acts = before ++ act :: later ∧
    engine.brokenKey? (engine.performAll store before) act = some key ∧
    ∀ next ∈ later, next.removedKey? ≠ some key

include reachable

theorem marks_perform (act : Act σ State) :
    Store.Marks store (engine.perform store act) (engine.brokenKey? store act) act.removedKey? := by
  cases act with
  | engine operation =>
    cases operation with
    | submit source host key? files => exact engine.marks_submit reachable source host key? files
    | prompt settings input => exact engine.marks_runLines reachable settings _
    | listVariables => exact .refl reachable
    | slot key => exact .slot reachable key
    | remove key => exact .erase reachable key
    | put host key =>
      rw [perform, apply]
      cases engine.freshState host with
      | error e => exact .refl reachable
      | ok state => exact .put reachable key state
    | move source target =>
      have erased := Store.Marks.erase reachable source
      rw [perform, apply, Store.remove]
      rcases store.state? source with _ | _ | state
      · exact erased
      · exact erased
      · exact erased.trans (.put erased.reachable target state)
  | store operation =>
    cases operation with
    | state | contains | keys | count => exact .refl reachable
    | slot key => exact .slot reachable key
    | remove key => exact .erase reachable key
    | put key state => exact .put reachable key state
    | take key =>
      rw [perform, Store.apply, reachable.take_eq_modify]
      exact .refill reachable key _ _
    | advance key lastValue =>
      rw [perform, Store.apply, reachable.advance_eq_modify]
      exact .refill reachable key _ _

theorem reachable_performAll (acts : List (Act σ State)) :
    (engine.performAll store acts).Reachable := by
  induction acts generalizing store with
  | nil => exact reachable
  | cons act acts inductionHypothesis =>
    exact inductionHypothesis (engine.marks_perform reachable act).reachable

/-- A slot is poisoned after a run if an execution broke off in it, or if it was poisoned before, and
its key was not removed since. -/
theorem poisonedAt_performAll (acts : List (Act σ State)) (key : Key) :
    (engine.performAll store acts).PoisonedAt key ↔
      engine.BrokenSince store acts key ∨
        store.PoisonedAt key ∧ ∀ act ∈ acts, act.removedKey? ≠ some key := by
  induction acts generalizing store with
  | nil => simp [performAll, BrokenSince]
  | cons act acts inductionHypothesis =>
    have marks := engine.marks_perform reachable act
    change (engine.performAll (engine.perform store act) acts).PoisonedAt key ↔ _
    rw [inductionHypothesis marks.reachable, marks.poisoned, List.forall_mem_cons]
    -- A slot that the first act poisons is one that was poisoned before the others.
    constructor
    · rintro (⟨before, other, later, rfl, broke, kept⟩ | ⟨broke | ⟨poisoned, notRemoved⟩, kept⟩)
      · exact .inl ⟨act :: before, other, later, rfl, broke, kept⟩
      · exact .inl ⟨[], act, acts, rfl, broke, kept⟩
      · exact .inr ⟨poisoned, notRemoved, kept⟩
    · rintro (⟨before, other, later, split, broke, kept⟩ | ⟨poisoned, notRemoved, kept⟩)
      · rcases before with _ | ⟨first, before⟩
        · obtain ⟨rfl, rfl⟩ := List.cons.inj split
          exact .inr ⟨.inl broke, kept⟩
        · obtain ⟨rfl, rfl⟩ := List.cons.inj split
          exact .inl ⟨before, other, later, rfl, broke, kept⟩
      · exact .inr ⟨.inr ⟨poisoned, notRemoved⟩, kept⟩

omit reachable

/-- After any run, the keys can be listed and counted if and only if every key under which an
execution broke off was removed since; else no key is listed, and none is counted. -/
theorem listsKeys_iff_not_brokenSince (acts : List (Act σ State)) :
    ((engine.performAll .empty acts).ListsKeys ↔ ∀ key, ¬engine.BrokenSince .empty acts key) ∧
    ((∃ key, engine.BrokenSince .empty acts key) →
      (engine.performAll .empty acts).keys = .error .poisoned ∧
        (engine.performAll .empty acts).count = 0) := by
  have poisoned_iff (key : Key) : (engine.performAll .empty acts).PoisonedAt key ↔
      engine.BrokenSince .empty acts key := by
    rw [engine.poisonedAt_performAll .empty]
    simp [Store.not_poisonedAt_empty]
  constructor
  · rw [(engine.reachable_performAll .empty acts).listsKeys_iff]
    exact forall_congr' fun key => not_congr (poisoned_iff key)
  · rintro ⟨key, broken⟩
    have poisoned := (poisoned_iff key).mpr broken
    exact ⟨Store.keys_of_poisonedAt poisoned, Store.count_of_poisonedAt poisoned⟩

/-- An execution that breaks off under one key, with a session under another one. -/
def brokenBeside : List (Act Nat Memory) :=
  let submit (text key : String) : Act Nat Memory :=
    .engine (.submit (.code text) ⟨[], []⟩ (some ⟨key⟩) ⟨.text, [], [], []⟩)
  [submit "" "a", submit "break off" "b"]

theorem broken_key_hides_another :
    ((Engine.mk counting none).performAll .empty brokenBeside).contains ⟨"a"⟩ = .ok true ∧
      ((Engine.mk counting none).performAll .empty brokenBeside).count = 0 ∧
      ¬((Engine.mk counting none).performAll .empty brokenBeside).ListsKeys := by
  refine ⟨by decide +kernel, by decide +kernel, ?_⟩
  have fails : ((Engine.mk counting none).performAll .empty brokenBeside).keys =
      .error .poisoned := by
    decide +kernel
  rintro ⟨keys, listed, -⟩
  rw [fails] at listed
  cases listed

theorem removed_key_hides_none :
    let acts := brokenBeside ++ [.store (.remove ⟨"b"⟩)]
    ((Engine.mk counting none).performAll .empty acts).keys = .ok [⟨"a"⟩] ∧
      ((Engine.mk counting none).performAll .empty acts).ListsKeys := by
  intro acts
  obtain ⟨lists_iff, hidden⟩ := listsKeys_iff_not_brokenSince (Engine.mk counting none) acts
  have listed : ((Engine.mk counting none).performAll .empty acts).keys = .ok [⟨"a"⟩] := by
    decide +kernel
  refine ⟨listed, lists_iff.mpr fun key broken => ?_⟩
  rw [(hidden ⟨key, broken⟩).1] at listed
  cases listed

end Engine

end Colloquy
