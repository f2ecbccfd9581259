import Colloquy.Proofs.Engine.Slots
import Mathlib.Logic.Relator
import Mathlib.Data.List.Forall2

set_option autoImplicit false

/-!
Sessions do not notice each other. Of a series of steps, each on one key, those on a given key are
answered as if there were no others, also where an execution breaks off and poisons its slot.

Slots are numbered across all keys, so the numbers of a key's slots do depend on the steps on other
keys. What does not depend on them is which answers give the same slot.
-/

namespace Colloquy

namespace Engine

variable {σ υ φ : Type}

/-- A step on one key. -/
inductive Step where
  | execute (text : String) (host : Host) (key? : Option Key)
  | listVariables (key : Key)
  | state (key : Key)
  | contains (key : Key)
  | slot (key : Key)
  /-- Stores a new session. -/
  | put (host : Host) (key : Key)
  | remove (key : Key)

def Step.key : Step → Key
  | .execute _ _ key? => slotKey key?
  | .listVariables key | .state key | .contains key | .slot key | .put _ key | .remove key => key

inductive Answer (σ φ : Type) where
  | completion (completion : Completion φ)
  | variables (names : List String)
  /-- A state that is there, or was. -/
  | state (state? : Except Poisoned (Option (SessionState σ)))
  | contains (isThere : Except Poisoned Bool)
  | slot (slot : Slot σ)
  | noSession (message : String)

/-- Takes a step. -/
def step (engine : Engine σ υ φ) (store : Store σ) : Step → Answer σ φ × Store σ
  | .execute text host key? =>
    let (completion, store) := engine.executeCode store text host key?
    (.completion completion, store)
  | .listVariables key => (.variables (engine.listVariables store key), store)
  | .state key => (.state (store.state? key), store)
  | .contains key => (.contains (store.contains key), store)
  | .slot key =>
    let (slot, store) := store.slot key
    (.slot slot, store)
  | .put host key =>
    match engine.backend.create host with
    | .error message => (.noSession message, store)
    | .ok session =>
      let (replaced, store) := store.put key (.ofSession session)
      (.state replaced, store)
  | .remove key =>
    let (removed, store) := store.remove key
    (.state removed, store)

/-- Takes steps one after the other, and gives each one with its answer. -/
def trace (engine : Engine σ υ φ) : Store σ → List Step → List (Step × Answer σ φ)
  | _, [] => []
  | store, step :: steps =>
    (step, (engine.step store step).1) :: engine.trace (engine.step store step).2 steps

/-- The same content under numbers that are paired. -/
def SameSlot (pairing : Nat → Nat → Prop) (first second : Slot σ) : Prop :=
  pairing first.number second.number ∧ first.content = second.content

/-- The same answer, up to the numbers of slots. -/
def Answer.Same (pairing : Nat → Nat → Prop) : Answer σ φ → Answer σ φ → Prop
  | .slot first, .slot second => SameSlot pairing first second
  | first, second => first = second

theorem Answer.Same.mono {pairing larger : Nat → Nat → Prop}
    (grows : ∀ ⦃first second⦄, pairing first second → larger first second)
    {first second : Answer σ φ} (same : first.Same pairing second) : first.Same larger second := by
  unfold Same at same ⊢
  split
  · exact ⟨grows same.1, same.2⟩
  case h_2 notBoth =>
    split at same
    · exact (notBoth _ _ rfl rfl).elim
    · exact same

/-- In both stores the key has the same slot, or none. The numbers that are paired have been given out
in both, so that new ones can be paired too. -/
structure Alike (key : Key) (pairing : Nat → Nat → Prop) (full alone : Store σ) : Prop where
  unique : Relator.BiUnique pairing
  fullBound : ∀ ⦃first second⦄, pairing first second → first < full.nextNumber
  aloneBound : ∀ ⦃first second⦄, pairing first second → second < alone.nextNumber
  slots : Option.Rel (SameSlot pairing) (full.find? key) (alone.find? key)

/-- One store is like itself, with every number that was given out paired with itself. -/
theorem Alike.refl {store : Store σ} (reachable : store.Reachable) (key : Key) :
    Alike key (fun first second => first = second ∧ first < store.nextNumber) store store where
  unique := ⟨fun _ _ _ first second => first.1.trans second.1.symm,
    fun _ _ _ first second => first.1.symm.trans second.1⟩
  fullBound _ _ paired := paired.2
  aloneBound _ _ paired := paired.1 ▸ paired.2
  slots := by
    cases found : store.find? key with
    | none => exact .none
    | some slot => exact .some ⟨⟨rfl, (reachable.owns found).issued⟩, rfl⟩

/-- Two numbers that are not paired yet can be paired with each other. -/
theorem biUnique_insert {pairing : Nat → Nat → Prop} (unique : Relator.BiUnique pairing)
    {first second : Nat} (firstNew : ∀ other, ¬pairing first other)
    (secondNew : ∀ other, ¬pairing other second) :
    Relator.BiUnique fun left right => pairing left right ∨ left = first ∧ right = second := by
  constructor
  · rintro left other right (paired | ⟨rfl, rfl⟩) (otherPaired | ⟨rfl, rightNew⟩)
    · exact unique.1 paired otherPaired
    · exact (secondNew left (rightNew ▸ paired)).elim
    · exact (secondNew other otherPaired).elim
    · rfl
  · rintro left right other (paired | ⟨rfl, rfl⟩) (otherPaired | ⟨leftNew, rfl⟩)
    · exact unique.2 paired otherPaired
    · exact (firstNew right (leftNew ▸ paired)).elim
    · exact (firstNew other otherPaired).elim
    · rfl

section

variable {key : Key} {pairing : Nat → Nat → Prop} {full alone : Store σ}

/-- What happens to other keys makes no difference. -/
theorem Alike.frame (alike : Alike key pairing full alone) {later : Store σ}
    (same : later.find? key = full.find? key) (noLess : full.nextNumber ≤ later.nextNumber) :
    Alike key pairing later alone where
  unique := alike.unique
  fullBound _ _ paired := Nat.lt_of_lt_of_le (alike.fullBound paired) noLess
  aloneBound := alike.aloneBound
  slots := by
    rw [same]
    exact alike.slots

/-- The slots that are opened in both stores are the same; where they are made, their numbers get
paired. -/
theorem Alike.slot (alike : Alike key pairing full alone) :
    ∃ larger : Nat → Nat → Prop, (∀ ⦃first second⦄, pairing first second → larger first second) ∧
      Alike key larger (full.slot key).2 (alone.slot key).2 ∧
      SameSlot larger (full.slot key).1 (alone.slot key).1 := by
  have slots := alike.slots
  cases fullFound : full.find? key with
  | some first =>
    obtain ⟨second, aloneFound, same⟩ : ∃ second, alone.find? key = some second ∧
        SameSlot pairing first second := by
      rw [fullFound] at slots
      generalize alone.find? key = aloneSlot? at slots
      cases slots with
      | some same => exact ⟨_, rfl, same⟩
    rw [full.slot_of_found key fullFound, alone.slot_of_found key aloneFound]
    exact ⟨pairing, fun _ _ paired => paired, alike, same⟩
  | none =>
    have aloneFound : alone.find? key = none := by
      rw [fullFound] at slots
      generalize alone.find? key = aloneSlot? at slots
      cases slots
      rfl
    rw [full.slot_of_missing key fullFound, alone.slot_of_missing key aloneFound]
    have same : SameSlot
        (fun left right => pairing left right ∨ left = full.nextNumber ∧ right = alone.nextNumber)
        (⟨full.nextNumber, .holding none⟩ : Slot σ) ⟨alone.nextNumber, .holding none⟩ :=
      ⟨.inr ⟨rfl, rfl⟩, rfl⟩
    refine ⟨_, fun _ _ => .inl, ⟨?_, ?_, ?_, ?_⟩, same⟩
    · apply biUnique_insert alike.unique
      · exact fun _ paired => Nat.lt_irrefl _ (alike.fullBound paired)
      · exact fun _ paired => Nat.lt_irrefl _ (alike.aloneBound paired)
    · rintro first second (paired | ⟨rfl, rfl⟩)
      · exact Nat.lt_succ_of_lt (alike.fullBound paired)
      · exact Nat.lt_succ_self _
    · rintro first second (paired | ⟨rfl, rfl⟩)
      · exact Nat.lt_succ_of_lt (alike.aloneBound paired)
      · exact Nat.lt_succ_self _
    · rw [Store.find?, Store.find?, lookup_cons_eq_ite, lookup_cons_eq_ite, if_pos rfl, if_pos rfl]
      exact .some same

theorem Alike.fill (alike : Alike key pairing full alone) (content : SlotContent σ) :
    Alike key pairing (full.fill key content) (alone.fill key content) where
  unique := alike.unique
  fullBound := alike.fullBound
  aloneBound := alike.aloneBound
  slots := by
    have slots := alike.slots
    rw [Store.find?_fill, Store.find?_fill, if_pos rfl, if_pos rfl]
    generalize full.find? key = fullSlot?, alone.find? key = aloneSlot? at slots
    cases slots with
    | none => exact .none
    | some same => exact .some ⟨same.1, rfl⟩

theorem Alike.erase (alike : Alike key pairing full alone) :
    Alike key pairing (full.erase key) (alone.erase key) where
  unique := alike.unique
  fullBound := alike.fullBound
  aloneBound := alike.aloneBound
  slots := by
    rw [Store.find?_erase, Store.find?_erase, if_pos rfl, if_pos rfl]
    exact .none

theorem Alike.modify (alike : Alike key pairing full alone) {α : Type}
    (change : SlotContent σ → α × SlotContent σ) :
    ∃ larger : Nat → Nat → Prop, (∀ ⦃first second⦄, pairing first second → larger first second) ∧
      Alike key larger (full.modify key change).2 (alone.modify key change).2 ∧
      (full.modify key change).1 = (alone.modify key change).1 := by
  obtain ⟨larger, grows, opened, -, content⟩ := alike.slot
  refine ⟨larger, grows, ?_, ?_⟩
  · rw [Store.modify, Store.modify, content]
    exact opened.fill _
  · rw [Store.modify, Store.modify, content]

theorem Alike.state? (alike : Alike key pairing full alone) : full.state? key = alone.state? key := by
  have slots := alike.slots
  rw [Store.state?, Store.state?]
  generalize full.find? key = fullSlot?, alone.find? key = aloneSlot? at slots
  cases slots with
  | none => rfl
  | some same =>
    dsimp only
    rw [Slot.read, Slot.read, same.2]

end

section

variable (engine : Engine σ υ φ) {store : Store σ}

theorem step_reachable (reachable : store.Reachable) (step : Step) :
    (engine.step store step).2.Reachable := by
  cases step with
  | execute text host key? => exact engine.executeCode_reachable host key? reachable text
  | listVariables | state | contains => exact reachable
  | slot key => exact reachable.slot key
  | put host key =>
    rw [Engine.step]
    cases engine.backend.create host with
    | error message => exact reachable
    | ok session => exact reachable.put key _
  | remove key => exact reachable.remove key

/-- A step leaves the slots of other keys alone. -/
theorem step_frame (reachable : store.Reachable) {step : Step} {key : Key}
    (differs : key ≠ step.key) :
    (engine.step store step).2.find? key = store.find? key ∧
      store.nextNumber ≤ (engine.step store step).2.nextNumber := by
  cases step with
  | execute text host key? =>
    rw [Engine.step, executeCode_eq_modify _ _ _ _ reachable]
    exact ⟨store.find?_modify_of_ne _ _ differs, store.nextNumber_le_modify _ _⟩
  | listVariables | state | contains => exact ⟨rfl, Nat.le_refl _⟩
  | slot other => exact ⟨store.find?_slot_of_ne other differs, store.nextNumber_le_slot other⟩
  | put host other =>
    rw [Engine.step]
    cases engine.backend.create host with
    | error message => exact ⟨rfl, Nat.le_refl _⟩
    | ok session =>
      dsimp only
      rw [reachable.put_eq]
      exact ⟨store.find?_modify_of_ne _ _ differs, store.nextNumber_le_modify _ _⟩
  | remove other =>
    have isOther : key ≠ other := differs
    refine ⟨?_, Nat.le_refl _⟩
    change (store.erase other).find? key = _
    rw [Store.find?_erase, if_neg isOther]

/-- A step on the key is answered alike in both stores. -/
theorem Alike.step {pairing : Nat → Nat → Prop} {full alone : Store σ} {step : Step}
    (alike : Alike step.key pairing full alone) (fullReachable : full.Reachable)
    (aloneReachable : alone.Reachable) :
    ∃ larger : Nat → Nat → Prop, (∀ ⦃first second⦄, pairing first second → larger first second) ∧
      Alike step.key larger (engine.step full step).2 (engine.step alone step).2 ∧
      (engine.step full step).1.Same larger (engine.step alone step).1 := by
  have kept : ∀ ⦃first second⦄, pairing first second → pairing first second :=
    fun _ _ paired => paired
  cases step with
  | execute text host key? =>
    obtain ⟨larger, grows, later, same⟩ :=
      alike.modify (engine.submitIn text host key? fun _ => none)
    rw [Engine.step, Engine.step, executeCode_eq_modify _ _ _ _ fullReachable,
      executeCode_eq_modify _ _ _ _ aloneReachable]
    exact ⟨larger, grows, later, congrArg Answer.completion same⟩
  | listVariables key =>
    have same : full.state? key = alone.state? key := alike.state?
    refine ⟨pairing, kept, alike, congrArg Answer.variables ?_⟩
    rw [Engine.listVariables, same, Engine.listVariables]
  | state key => exact ⟨pairing, kept, alike, congrArg Answer.state alike.state?⟩
  | contains key =>
    have same : full.state? key = alone.state? key := alike.state?
    refine ⟨pairing, kept, alike, congrArg Answer.contains ?_⟩
    rw [Store.contains, same, Store.contains]
  | slot key => exact alike.slot
  | put host key =>
    rw [Engine.step, Engine.step]
    cases engine.backend.create host with
    | error message => exact ⟨pairing, kept, alike, rfl⟩
    | ok session =>
      obtain ⟨larger, grows, later, same⟩ := alike.modify (Store.replace (.ofSession session))
      dsimp only
      rw [fullReachable.put_eq, aloneReachable.put_eq]
      exact ⟨larger, grows, later, congrArg Answer.state same⟩
  | remove key => exact ⟨pairing, kept, alike.erase, congrArg Answer.state alike.state?⟩

/-- Steps on the key are answered alike, whatever steps on other keys come between them. -/
theorem Alike.trace {key : Key} {pairing : Nat → Nat → Prop} {full alone : Store σ}
    (alike : Alike key pairing full alone) (fullReachable : full.Reachable)
    (aloneReachable : alone.Reachable) (steps : List Step) :
    ∃ larger : Nat → Nat → Prop, (∀ ⦃first second⦄, pairing first second → larger first second) ∧
      Relator.BiUnique larger ∧
      List.Forall₂ (Answer.Same larger)
        (((engine.trace full steps).filter fun entry => entry.1.key = key).map Prod.snd)
        ((engine.trace alone (steps.filter fun step => step.key = key)).map Prod.snd) := by
  induction steps generalizing pairing full alone with
  | nil => exact ⟨pairing, fun _ _ paired => paired, alike.unique, .nil⟩
  | cons step steps inductionHypothesis =>
    have fullLater := engine.step_reachable fullReachable step
    by_cases isKey : step.key = key
    · subst isKey
      obtain ⟨larger, grows, later, same⟩ := alike.step engine fullReachable aloneReachable
      obtain ⟨largest, growsOn, unique, others⟩ :=
        inductionHypothesis later fullLater (engine.step_reachable aloneReachable step)
      refine ⟨largest, fun _ _ paired => growsOn (grows paired), unique, ?_⟩
      rw [Engine.trace, List.filter_cons_of_pos (by simp), List.filter_cons_of_pos (by simp),
        Engine.trace]
      exact .cons (same.mono growsOn) others
    · obtain ⟨find, noLess⟩ := engine.step_frame fullReachable (Ne.symm isKey)
      obtain ⟨larger, grows, unique, others⟩ :=
        inductionHypothesis (alike.frame find noLess) fullLater aloneReachable
      refine ⟨larger, grows, unique, ?_⟩
      rw [Engine.trace, List.filter_cons_of_neg (by simpa using isKey),
        List.filter_cons_of_neg (by simpa using isKey)]
      exact others

/-- The steps on a key are answered as in the run of these steps alone, and give the same slot where
they give the same slot there. -/
theorem answers_isolated (reachable : store.Reachable) (key : Key) (steps : List Step) :
    ∃ pairing : Nat → Nat → Prop, Relator.BiUnique pairing ∧
      List.Forall₂ (Answer.Same pairing)
        (((engine.trace store steps).filter fun entry => entry.1.key = key).map Prod.snd)
        ((engine.trace store (steps.filter fun step => step.key = key)).map Prod.snd) := by
  obtain ⟨pairing, -, isolated⟩ :=
    (Alike.refl reachable key).trace engine reachable reachable steps
  exact ⟨pairing, isolated⟩

end

/-- A backend that counts its submissions, and breaks off where it is told to. -/
def counting : Backend Nat String Empty where
  create _ := .ok 0
  compile _ text := .ok text
  execute count text :=
    if text = "break off" then (count, .crash) else (count + 1, .value (.int (.ofNat count)))
  declared _ := []
  warnings _ := []
  emit _ := .ok ⟨[], []⟩
  describe fault := nomatch fault

/-- Steps on two keys, one of whose slots is poisoned, found to be so, removed and made again. -/
def interleaved : List Step :=
  [.execute "" ⟨[], []⟩ (some ⟨"a"⟩), .slot ⟨"b"⟩, .execute "break off" ⟨[], []⟩ (some ⟨"a"⟩),
    .put ⟨[], []⟩ ⟨"b"⟩, .execute "" ⟨[], []⟩ (some ⟨"a"⟩), .slot ⟨"a"⟩,
    .execute "" ⟨[], []⟩ (some ⟨"b"⟩), .remove ⟨"a"⟩, .slot ⟨"a"⟩, .slot ⟨"b"⟩]

theorem interleaved_isolated :
    (((Engine.mk counting none).trace .empty interleaved).map fun entry =>
      entry.2 matches .completion .brokeOff | .completion (.returned (.error .lockPoisoned))) =
        [false, false, true, false, true, false, false, false, false, false] ∧
    ∃ pairing : Nat → Nat → Prop, Relator.BiUnique pairing ∧
      List.Forall₂ (Answer.Same pairing)
        ((((Engine.mk counting none).trace .empty interleaved).filter fun entry =>
          entry.1.key = ⟨"b"⟩).map Prod.snd)
        (((Engine.mk counting none).trace .empty
          (interleaved.filter fun step => step.key = ⟨"b"⟩)).map Prod.snd) :=
  ⟨by decide +kernel, answers_isolated _ .empty ⟨"b"⟩ interleaved⟩

end Engine

end Colloquy
