import Colloquy.Proofs.Engine.Emission
import Colloquy.Proofs.Engine.Refusal

set_option autoImplicit false

/-!
Executions that leave artifacts, compared with the same executions without them. The artifacts are
written between the compilation of a text and its run, which depends neither on them nor on whether
they could be written: only the result says what became of them.
-/

namespace Colloquy.Engine

variable {σ υ φ : Type}

/-- The same engine, which leaves no artifacts. -/
def plain (engine : Engine σ υ φ) : Engine σ υ φ :=
  { engine with layout? := none }

/-- The same engine, which leaves artifacts. -/
def debugging (engine : Engine σ υ φ) (layout : Layout) : Engine σ υ φ :=
  { engine with layout? := some layout }

section

variable (engine : Engine σ υ φ) (layout : Layout) (store : Store σ) (script : Path) (host : Host)
  (key? : Option Key) (memory : Memory)

/-- The script can be expanded, and its text compiles. -/
def Compiles (prepared : Prepared σ υ) : Prop :=
  ∃ expansion, (expandScript (m := StateM Memory) script memory).1 = .ok expansion ∧
    (engine.prepare store expansion.code host key?).1 = .ok prepared

/-- The artifacts of the script are written with this outcome, once its text has compiled. -/
def Emits (outcome : Except ArtifactFailure ArtifactPaths) : Prop :=
  ∃ prepared, engine.Compiles store script host key? memory prepared ∧
    (Artifact.emit (m := StateM Memory) layout (memory.rules.workingDirectory script) script
      (engine.backend.emit prepared.compiled)
      (expandScript (m := StateM Memory) script memory).2).1 = outcome

/-- How an execution without artifacts and one with them end. -/
def Accompanies (plain debug : Completion φ) : Prop :=
  let paths := layout.paths (memory.rules.workingDirectory script) script
  match plain with
  | .returned (.ok report) =>
    report.artifacts = none ∧
      (engine.Emits layout store script host key? memory (.ok paths) ∧
        debug = .returned (.ok { report with artifacts := some paths }) ∨
      ∃ failure, engine.Emits layout store script host key? memory (.error failure) ∧
        debug = .returned (.error (.artifactWrite failure report)))
  | .returned (.error (.execution fault artifact)) =>
    artifact = none ∧
      (engine.Emits layout store script host key? memory (.ok paths) ∧
        debug = .returned (.error (.execution fault none)) ∨
      ∃ failure, engine.Emits layout store script host key? memory (.error failure) ∧
        debug = .returned (.error (.execution fault (some failure))))
  | other => debug = other

variable {engine layout store script host key? memory}

/-- What refuses a submission refuses it in both executions. -/
theorem accompanies_refusal {e : ScriptError φ} (refusal : e.isRefusal) :
    engine.Accompanies layout store script host key? memory (.returned (.error e))
      (.returned (.error e)) := by
  cases e with
  | execution fault artifact => cases refusal
  | _ => rfl

/-- A submission that runs comes to the same, and the result says what became of its artifacts. -/
theorem accompanies_finish {prepared : Prepared σ υ} {outcome : Except ArtifactFailure ArtifactPaths}
    (compiles : engine.Compiles store script host key? memory prepared)
    (isOutcome : (Artifact.emit (m := StateM Memory) layout
      (memory.rules.workingDirectory script) script (engine.backend.emit prepared.compiled)
      (expandScript (m := StateM Memory) script memory).2).1 = outcome)
    (after : Store σ) (key : Key) :
    engine.Accompanies layout store script host key? memory
      (engine.finish after key prepared none).1
      (engine.finish after key prepared (some outcome)).1 := by
  have emits : engine.Emits layout store script host key? memory outcome :=
    ⟨prepared, compiles, isOutcome⟩
  unfold finish
  cases outcome with
  | ok written =>
    cases Artifact.emit_ok isOutcome
    rcases engine.backend.execute prepared.state.session prepared.compiled with
      ⟨session, value | fault | _⟩
    · exact ⟨rfl, .inl ⟨emits, rfl⟩⟩
    · exact ⟨rfl, .inl ⟨emits, rfl⟩⟩
    · rfl
  | error failure =>
    rcases engine.backend.execute prepared.state.session prepared.compiled with
      ⟨session, value | fault | _⟩
    · exact ⟨rfl, .inr ⟨failure, emits, rfl⟩⟩
    · exact ⟨rfl, .inr ⟨failure, emits, rfl⟩⟩
    · rfl

theorem finish_store (after : Store σ) (key : Key) (prepared : Prepared σ υ)
    (emission? : Option (Except ArtifactFailure ArtifactPaths)) :
    (engine.finish after key prepared emission?).2 = (engine.finish after key prepared none).2 := by
  unfold finish
  rcases engine.backend.execute prepared.state.session prepared.compiled with
    ⟨session, _ | _ | _⟩ <;> rfl

theorem start_isRefusal {e : ScriptError φ} (refused : (engine.start store host key?).1 = .error e) :
    e.isRefusal := by
  unfold start at refused
  split at refused
  · cases refused
    rfl
  · cases refused
  · unfold freshState at refused
    split at refused <;> cases refused
    rfl

theorem prepare_isRefusal {text : String} {e : ScriptError φ}
    (refused : (engine.prepare store text host key?).1 = .error e) : e.isRefusal := by
  unfold prepare at refused
  rcases started : engine.start store host key? with ⟨_ | ⟨state, resumed⟩, after⟩
  · rw [started] at refused
    cases refused
    exact start_isRefusal (congrArg Prod.fst started)
  · rw [started] at refused
    dsimp only at refused
    split at refused <;> cases refused
    rfl

/-- Both executions are refused in the same way, or both run what was compiled. -/
theorem execute_cases (engine : Engine σ υ φ) (layout : Layout) (store : Store σ) (script : Path)
    (host : Host) (key? : Option Key) (memory : Memory) :
    let expanded := (expandScript (m := StateM Memory) script memory).2
    let plainRun := engine.plain.execute (m := StateM Memory) store script host key? memory
    let debugRun :=
      (engine.debugging layout).execute (m := StateM Memory) store script host key? memory
    (∃ e after, e.isRefusal ∧ plainRun = ((.returned (.error e), after), expanded) ∧
      debugRun = plainRun) ∨
    ∃ prepared after emission, engine.Compiles store script host key? memory prepared ∧
      Artifact.emit (m := StateM Memory) layout (memory.rules.workingDirectory script) script
        (engine.backend.emit prepared.compiled) expanded = emission ∧
      plainRun = (engine.finish after (slotKey key?) prepared none, expanded) ∧
      debugRun = (engine.finish after (slotKey key?) prepared (some emission.1), emission.2) := by
  dsimp only
  rw [execute_run, execute_run, Memory.workingDirectory_run]
  dsimp only
  rcases expands : expandScript (m := StateM Memory) script memory with ⟨e | expansion, expanded⟩
  · exact .inl ⟨_, store, rfl, rfl, rfl⟩
  · have plainPrepare : engine.plain.prepare store expansion.code host key? =
        engine.prepare store expansion.code host key? := rfl
    have debugPrepare : (engine.debugging layout).prepare store expansion.code host key? =
        engine.prepare store expansion.code host key? := rfl
    dsimp only
    rw [plainPrepare, debugPrepare]
    rcases prepares : engine.prepare store expansion.code host key? with ⟨e | prepared, after⟩
    · exact .inl ⟨e, after, prepare_isRefusal (congrArg Prod.fst prepares), rfl, rfl⟩
    · refine .inr ⟨prepared, after, _, ⟨expansion, ?_, ?_⟩, rfl, rfl, rfl⟩
      · rw [expands]
      · rw [prepares]

variable (engine layout store script host key? memory)

/-- Calls other than reads are made for a text that has compiled only, and of these each file of the
pair is created once at most. -/
theorem debugging_calls :
    let paths := layout.paths (memory.rules.workingDirectory script) script
    ∃ made, ((engine.debugging layout).execute (m := StateM Memory) store script host key? memory).2.log =
        made ++ memory.log ∧
      ((∃ call ∈ made, call.operation ≠ .readText) →
        ∃ prepared, engine.Compiles store script host key? memory prepared) ∧
      made.reverse.filter Artifact.isCreation <+:
        [⟨.createFile, paths.code⟩, ⟨.createFile, paths.symbols⟩] := by
  intro paths
  obtain ⟨reads, allReads, isExpanded⟩ :=
    ReadsOnly.memory (isReader_expandScript script memory)
  have noCreation : reads.reverse.filter Artifact.isCreation = [] := by
    rw [List.filter_eq_nil_iff]
    intro call membership
    simp [Artifact.isCreation, allReads call (List.mem_reverse.mp membership)]
  rcases engine.execute_cases layout store script host key? memory with
    ⟨e, after, -, plainRun, debugRun⟩ | ⟨prepared, after, emission, compiles, rfl, -, debugRun⟩
  · refine ⟨reads, ?_, ?_, ?_⟩
    · rw [debugRun, plainRun, isExpanded]
    · rintro ⟨call, membership, notRead⟩
      exact absurd (allReads call membership) notRead
    · rw [noCreation]
      exact List.nil_prefix
  · obtain ⟨emitted, log, creations⟩ := Artifact.emit_creations layout
      (memory.rules.workingDirectory script) script (engine.backend.emit prepared.compiled)
      (expandScript (m := StateM Memory) script memory).2
    refine ⟨emitted ++ reads, ?_, fun _ => ⟨prepared, compiles⟩, ?_⟩
    · rw [debugRun, log, isExpanded, List.append_assoc]
    · rw [List.reverse_append, List.filter_append, noCreation]
      exact creations

end

/-- Artifacts do not influence an execution. The store is the same with them and without them, and
so is the result but for what became of the artifacts. Files are written only once the text has
compiled, each one of the pair is created once at most, and nothing is written for a text that is no
script. -/
theorem artifacts_keep_execution (engine : Engine σ υ φ) (layout : Layout) (store : Store σ)
    (script : Path) (host : Host) (key? : Option Key) (memory : Memory) :
    let paths := layout.paths (memory.rules.workingDirectory script) script
    let plainRun := engine.plain.execute (m := StateM Memory) store script host key? memory
    let debugRun :=
      (engine.debugging layout).execute (m := StateM Memory) store script host key? memory
    debugRun.1.2 = plainRun.1.2 ∧
    engine.Accompanies layout store script host key? memory plainRun.1.1 debugRun.1.1 ∧
    (∃ made, debugRun.2.log = made ++ memory.log ∧
      ((∃ call ∈ made, call.operation ≠ .readText) →
        ∃ prepared, engine.Compiles store script host key? memory prepared) ∧
      made.reverse.filter Artifact.isCreation <+:
        [⟨.createFile, paths.code⟩, ⟨.createFile, paths.symbols⟩]) ∧
    ∀ text, (engine.debugging layout).submit (m := StateM Memory) store (.code text) host key? memory =
      (engine.plain.executeCode store text host key?, memory) := by
  intro paths plainRun debugRun
  have calls := engine.debugging_calls layout store script host key? memory
  rcases engine.execute_cases layout store script host key? memory with
    ⟨e, after, refusal, plainIs, debugIs⟩ |
      ⟨prepared, after, emission, compiles, isEmission, plainIs, debugIs⟩
  · refine ⟨congrArg (·.1.2) debugIs, ?_, calls, fun _ => rfl⟩
    have completions : debugRun.1.1 = plainRun.1.1 := congrArg (·.1.1) debugIs
    have plainCompletion : plainRun.1.1 = .returned (.error e) := congrArg (·.1.1) plainIs
    rw [completions, plainCompletion]
    exact accompanies_refusal refusal
  · have plainOutcome : plainRun.1 = engine.finish after (slotKey key?) prepared none :=
      congrArg Prod.fst plainIs
    have debugOutcome : debugRun.1 = engine.finish after (slotKey key?) prepared (some emission.1) :=
      congrArg Prod.fst debugIs
    rw [plainOutcome, debugOutcome]
    refine ⟨finish_store after _ prepared _, ?_, calls, fun _ => rfl⟩
    exact accompanies_finish compiles (congrArg Prod.fst isEmission) after _

end Colloquy.Engine
