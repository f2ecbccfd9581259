import Colloquy.Engine.Basic
import Colloquy.Proofs.Files.ReadOnly
import Colloquy.Proofs.Session.Store

set_option autoImplicit false

/-!
Submissions that do not run. A submission under a key takes the state of the key out of its slot
before its text is compiled. Whatever refuses it, the state is back in its slot in the end: no answer
of the store tells that there was a submission, and no file was written.
-/

namespace Colloquy

/-- The errors of a submission that did not run. -/
def ScriptError.isRefusal {φ : Type} : ScriptError φ → Bool
  | .compilation _ | .preprocess _ _ | .backend _ | .lockPoisoned => true
  | .execution _ _ | .artifactWrite _ _ | .task _ | .files _ => false

def Completion.isRefusal {φ : Type} : Completion φ → Bool
  | .returned (.error e) => e.isRefusal
  | .returned (.ok _) | .brokeOff => false

inductive Source where
  | script (path : Path)
  | code (text : String)

namespace Engine

variable {σ υ φ : Type}

/-- Executes what is submitted. -/
def submit {m : Type → Type} [Monad m] [FileSystem m] (engine : Engine σ υ φ) (store : Store σ)
    (source : Source) (host : Host) (key? : Option Key) : m (Completion φ × Store σ) :=
  match source with
  | .script path => engine.execute store path host key?
  | .code text => pure (engine.executeCode store text host key?)

/-- No question to the stores tells them apart. -/
structure SameAnswers (engine : Engine σ υ φ) (before after : Store σ) : Prop where
  state : ∀ key, after.state? key = before.state? key
  contains : ∀ key, after.contains key = before.contains key
  listVariables : ∀ key, engine.listVariables after key = engine.listVariables before key
  keys : after.keys = before.keys
  count : after.count = before.count

section

variable (engine : Engine σ υ φ) (store : Store σ) (host : Host) (key? : Option Key)

theorem SameAnswers.refl : engine.SameAnswers store store :=
  ⟨fun _ => rfl, fun _ => rfl, fun _ => rfl, rfl, rfl⟩

/-- A slot that is made where a key is first used shows in no answer. -/
theorem sameAnswers_slot (key : Key) : engine.SameAnswers store (store.slot key).2 where
  state := store.state?_slot key
  contains other := by rw [Store.contains, store.state?_slot, Store.contains]
  listVariables other := by
    rw [Engine.listVariables, store.state?_slot, Engine.listVariables]
  keys := store.keys_slot key
  count := by rw [Store.count, store.keys_slot, Store.count]

variable {store}

theorem freshState_ne_resumed (state : SessionState σ) :
    (engine.freshState host).map (fun state => (state, false)) ≠ .ok (state, true) := by
  cases engine.freshState host <;> nofun

/-- A state that a submission goes on with can be put back; in all other cases nothing is missing. -/
theorem start_cases (reachable : store.Reachable) :
    (∃ state, (engine.start store host key?).1 = .ok (state, true) ∧
      (engine.start store host key?).2.fill (slotKey key?) (.holding (some state)) =
        (store.slot (slotKey key?)).2) ∨
    ((∀ state, (engine.start store host key?).1 ≠ .ok (state, true)) ∧
      (engine.start store host key?).2 = (store.slot (slotKey key?)).2) := by
  unfold start
  split
  case h_1 takes => exact .inr ⟨nofun, Store.slot_of_take_error takes⟩
  case h_2 takes => exact .inl ⟨_, rfl, reachable.fill_taken takes⟩
  case h_3 takes => exact .inr ⟨engine.freshState_ne_resumed host, reachable.fill_taken takes⟩

theorem prepare_error_store (reachable : store.Reachable) {text : String} {e : ScriptError φ}
    (refused : (engine.prepare store text host key?).1 = .error e) :
    (engine.prepare store text host key?).2 = (store.slot (slotKey key?)).2 := by
  have startCases := engine.start_cases host key? reachable
  unfold prepare at refused ⊢
  generalize engine.start store host key? = started at startCases refused ⊢
  rcases started with ⟨_ | ⟨state, resumed⟩, after⟩
  · obtain ⟨state, impossible, -⟩ | ⟨-, same⟩ := startCases
    · cases impossible
    · exact same
  · dsimp only at refused ⊢
    split at refused
    · cases refused
    · obtain ⟨_, ⟨⟩, restored⟩ | ⟨notResumed, same⟩ := startCases
      · exact restored
      · cases resumed with
        | true => exact absurd rfl (notResumed state)
        | false => exact same

/-- Whatever refuses a text, the answers of the store are as they were. -/
theorem prepare_error_sameAnswers (reachable : store.Reachable) {text : String} {e : ScriptError φ}
    {after : Store σ} (refused : engine.prepare store text host key? = (.error e, after)) :
    engine.SameAnswers store after := by
  have isSlot := engine.prepare_error_store host key? reachable (congrArg Prod.fst refused)
  rw [refused] at isSlot
  cases isSlot
  exact engine.sameAnswers_slot store _

theorem finish_isRefusal (key : Key) (prepared : Prepared σ υ)
    (emission? : Option (Except ArtifactFailure ArtifactPaths)) :
    (engine.finish store key prepared emission?).1.isRefusal = false := by
  unfold finish
  rcases engine.backend.execute prepared.state.session prepared.compiled with ⟨session, value | _ | _⟩
  · rcases emission? with _ | _ | _ <;> rfl
  · rfl
  · rfl

end

section

variable (engine : Engine σ υ φ) {store : Store σ} (host : Host) (key? : Option Key)

theorem start_reachable (reachable : store.Reachable) :
    (engine.start store host key?).2.Reachable := by
  have taken (result : Except Poisoned (Option (SessionState σ))) (after : Store σ)
      (takes : store.take (slotKey key?) = (result, after)) : after.Reachable := by
    have afterTake := reachable.take (slotKey key?)
    rwa [takes] at afterTake
  unfold start
  split
  case h_1 takes => exact taken _ _ takes
  case h_2 takes => exact taken _ _ takes
  case h_3 takes => exact (taken _ _ takes).fill _ _

theorem prepare_reachable (reachable : store.Reachable) (text : String) :
    (engine.prepare store text host key?).2.Reachable := by
  have started := engine.start_reachable host key? reachable
  unfold prepare
  generalize engine.start store host key? = start at started
  rcases start with ⟨_ | ⟨state, resumed⟩, after⟩
  · exact started
  · dsimp only
    split
    · exact started
    · cases resumed with
      | true => exact started.fill _ _
      | false => exact started

theorem finish_reachable (reachable : store.Reachable) (key : Key) (prepared : Prepared σ υ)
    (emission? : Option (Except ArtifactFailure ArtifactPaths)) :
    (engine.finish store key prepared emission?).2.Reachable := by
  unfold finish
  rcases engine.backend.execute prepared.state.session prepared.compiled with ⟨session, _ | _ | _⟩ <;>
    exact reachable.fill _ _

theorem executeCode_reachable (reachable : store.Reachable) (text : String) :
    (engine.executeCode store text host key?).2.Reachable := by
  have prepared := engine.prepare_reachable host key? reachable text
  unfold executeCode
  generalize engine.prepare store text host key? = preparation at prepared
  rcases preparation with ⟨_ | ready, after⟩
  · exact prepared
  · exact engine.finish_reachable prepared _ _ _

variable {State : Type} [FileSystem (StateM State)]

variable (store) in
theorem execute_run (script : Path) (files : State) :
    engine.execute (m := StateM State) store script host key? files =
      let located := FileSystem.workingDirectory (m := StateM State) script files
      match expandScript (m := StateM State) script located.2 with
      | (.error e, later) => ((.returned (.error (.preprocess e.path e.message)), store), later)
      | (.ok expansion, later) =>
        match engine.prepare store expansion.code host key? with
        | (.error e, after) => ((.returned (.error e), after), later)
        | (.ok prepared, after) =>
          let emission :=
            engine.emitArtifacts (m := StateM State) located.1 script prepared.compiled later
          (engine.finish after (slotKey key?) prepared emission.1, emission.2) := by
  rw [execute, run_bind, run_bind]
  dsimp only
  generalize FileSystem.workingDirectory (m := StateM State) script files = located
  rcases expandScript (m := StateM State) script located.2 with ⟨_ | expansion, later⟩
  · rfl
  · dsimp only
    rcases engine.prepare store expansion.code host key? with ⟨_ | prepared, after⟩ <;> rfl

/-- Every submission leads from a store that comes about to another one. -/
theorem submit_reachable (reachable : store.Reachable) (source : Source) (files : State) :
    (engine.submit (m := StateM State) store source host key? files).1.2.Reachable := by
  cases source with
  | code text => exact engine.executeCode_reachable host key? reachable text
  | script path =>
    change (engine.execute (m := StateM State) store path host key? files).1.2.Reachable
    rw [execute_run]
    dsimp only
    generalize FileSystem.workingDirectory (m := StateM State) path files = located
    rcases expandScript (m := StateM State) path located.2 with ⟨_ | expansion, later⟩
    · exact reachable
    · have prepared := engine.prepare_reachable host key? reachable expansion.code
      dsimp only
      generalize engine.prepare store expansion.code host key? = preparation at prepared
      rcases preparation with ⟨_ | ready, after⟩
      · exact prepared
      · exact engine.finish_reachable prepared _ _ _

/-- A submission that is refused, by a file that it needs, by the backend, by its text or by its
slot, leaves every answer of the store as it was. On whatever file system, it made no calls but
reads. -/
theorem refused_submission_unnoticed (reachable : store.Reachable) (source : Source) (files : State)
    (refused : (engine.submit (m := StateM State) store source host key? files).1.1.isRefusal) :
    engine.SameAnswers store (engine.submit (m := StateM State) store source host key? files).1.2 ∧
      ReadsOnly files (engine.submit (m := StateM State) store source host key? files).2 := by
  cases source with
  | code text =>
    change (engine.executeCode store text host key?).1.isRefusal at refused
    refine ⟨?_, .refl⟩
    change engine.SameAnswers store (engine.executeCode store text host key?).2
    unfold executeCode at refused ⊢
    rcases preparation : engine.prepare store text host key? with ⟨e | prepared, after⟩
    · exact engine.prepare_error_sameAnswers host key? reachable preparation
    · rw [preparation, finish_isRefusal] at refused
      cases refused
  | script path =>
    have asked : ReadsOnly files (FileSystem.workingDirectory (m := StateM State) path files).2 :=
      .single (.directory path files)
    change (engine.execute (m := StateM State) store path host key? files).1.1.isRefusal at refused
    change engine.SameAnswers store
        (engine.execute (m := StateM State) store path host key? files).1.2 ∧
      ReadsOnly files (engine.execute (m := StateM State) store path host key? files).2
    rw [execute_run] at refused ⊢
    dsimp only at refused ⊢
    generalize FileSystem.workingDirectory (m := StateM State) path files = located at asked refused ⊢
    have expanded := asked.trans (isReader_expandScript path located.2)
    generalize expandScript (m := StateM State) path located.2 = expansion at expanded refused ⊢
    rcases expansion with ⟨e | expansion, later⟩
    · exact ⟨.refl engine store, expanded⟩
    · dsimp only at refused ⊢
      rcases preparation : engine.prepare store expansion.code host key? with ⟨e | prepared, after⟩
      · exact ⟨engine.prepare_error_sameAnswers host key? reachable preparation, expanded⟩
      · rw [preparation] at refused
        dsimp only at refused
        rw [finish_isRefusal] at refused
        cases refused

end

/-- A calculator that leaves artifacts. -/
def calculator : Engine Calc.Session Calc.Compiled Calc.Fault :=
  ⟨Calc.backend, some .standard⟩

/-- A script that uses a name that is not declared. -/
def undeclaredName : Memory :=
  ⟨.text, [(.ofString "main.csx", Text.Utf8.encode "var x = y;")], [], []⟩

/-- The store of the calculator after a first submission under a key. -/
def declared : Store Calc.Session :=
  (calculator.submit (m := StateM Memory) .empty (.code "var x = 1;") ⟨[], []⟩ (some ⟨"work"⟩)
    undeclaredName).1.2

theorem undeclaredName_unnoticed :
    declared.contains ⟨"work"⟩ = .ok true ∧
    (calculator.submit (m := StateM Memory) declared (.script (.ofString "main.csx")) ⟨[], []⟩
      (some ⟨"work"⟩) undeclaredName).1.1.isRefusal ∧
    calculator.SameAnswers declared
      (calculator.submit (m := StateM Memory) declared (.script (.ofString "main.csx")) ⟨[], []⟩
        (some ⟨"work"⟩) undeclaredName).1.2 ∧
    ReadsOnly undeclaredName
      (calculator.submit (m := StateM Memory) declared (.script (.ofString "main.csx")) ⟨[], []⟩
        (some ⟨"work"⟩) undeclaredName).2 := by
  have reachable : declared.Reachable :=
    calculator.submit_reachable ⟨[], []⟩ (some ⟨"work"⟩) .empty (.code "var x = 1;") undeclaredName
  have refused : (calculator.submit (m := StateM Memory) declared (.script (.ofString "main.csx"))
      ⟨[], []⟩ (some ⟨"work"⟩) undeclaredName).1.1.isRefusal = true := by
    decide +kernel
  exact ⟨by decide +kernel, refused,
    calculator.refused_submission_unnoticed ⟨[], []⟩ (some ⟨"work"⟩) reachable _ _ refused⟩

end Engine

end Colloquy
