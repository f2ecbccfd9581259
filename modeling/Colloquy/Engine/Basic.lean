import Colloquy.Engine.Artifact
import Colloquy.Files.Include
import Colloquy.Session.Store

/-!
Executions of scripts and of source texts in the sessions of a store.

An execution under a key goes on with the session that the key has. One without a key starts a new
session, which takes the place of the session under the default key.
-/

set_option autoImplicit false

namespace Colloquy

/-- What an execution that completes reports. The time that it took is left out. -/
structure Report where
  value : Value
  diagnostics : List Diagnostic
  session : Key
  /-- Whether the session was there before. -/
  resumed : Bool
  artifacts : Option ArtifactPaths

def Report.hasValue (report : Report) : Bool :=
  !report.value.isUnit

def Report.hasWarnings (report : Report) : Bool :=
  !report.diagnostics.isEmpty

inductive ScriptError (φ : Type) where
  | compilation (diagnostics : List Diagnostic)
  /-- The submission ran and faulted; its artifacts may have failed before that. -/
  | execution (fault : φ) (artifact : Option ArtifactFailure)
  /-- The submission completed, but its artifacts were not written. -/
  | artifactWrite (failure : ArtifactFailure) (report : Report)
  | preprocess (path : Path) (message : String)
  | backend (message : String)
  | task (message : String)
  | files (failure : Failure)
  | lockPoisoned

def ScriptError.message {φ : Type} (describe : φ → String) : ScriptError φ → String
  | .compilation diagnostics =>
    "compilation failed: " ++ String.intercalate "; " (diagnostics.map Diagnostic.render)
  | .execution fault artifact =>
    "execution fault: " ++ describe fault ++
      (match artifact with
      | none => ""
      | some failure => " (also " ++ failure.message ++ ")")
  | .artifactWrite failure _ => failure.message
  | .preprocess path message => "failed to process " ++ path.display ++ ": " ++ message
  | .backend message => "backend error: " ++ message
  | .task message => "execution task failed: " ++ message
  | .files failure => "I/O error: " ++ failure.message
  | .lockPoisoned => "internal lock poisoned"

/-- How an execution ends: it returns, or breaks off with its backend. -/
inductive Completion (φ : Type) where
  | returned (result : Except (ScriptError φ) Report)
  | brokeOff

/-- The result of an execution in a task of its own, which fails where the execution breaks off. -/
def Completion.inTask {φ : Type} : Completion φ → Except (ScriptError φ) Report
  | .returned result => result
  | .brokeOff => .error (.task "task panicked")

structure Engine (σ υ φ : Type) where
  backend : Backend σ υ φ
  /-- Where the artifacts of scripts go, if they are written. -/
  layout? : Option Layout

namespace Engine

variable {σ υ φ : Type}

/-- A submission that is ready to run. -/
structure Prepared (σ υ : Type) where
  state : SessionState σ
  resumed : Bool
  compiled : υ

def slotKey (key? : Option Key) : Key :=
  key?.getD .default

/-- A state of a new session. -/
def freshState (engine : Engine σ υ φ) (host : Host) : Except (ScriptError φ) (SessionState σ) :=
  match engine.backend.create host with
  | .ok session => .ok (.ofSession session)
  | .error message => .error (.backend message)

/-- The state a submission runs in. If a key is given and has a state, that state is taken out of
its slot. Else a new one is made, and the slot keeps what it holds. The second part of the result
says whether the state was there before. -/
def start (engine : Engine σ υ φ) (store : Store σ) (host : Host) (key? : Option Key) :
    Except (ScriptError φ) (SessionState σ × Bool) × Store σ :=
  match key?, store.take (slotKey key?) with
  | _, (.error .poisoned, store) => (.error .lockPoisoned, store)
  | some _, (.ok (some state), store) => (.ok (state, true), store)
  | _, (.ok previous, store) =>
    ((engine.freshState host).map fun state => (state, false),
      store.fill (slotKey key?) (.holding previous))

/-- Compiles a text against the state it runs in. Where the text is refused, a state that was taken
out of its slot is put back. -/
def prepare (engine : Engine σ υ φ) (store : Store σ) (text : String) (host : Host)
    (key? : Option Key) : Except (ScriptError φ) (Prepared σ υ) × Store σ :=
  match engine.start store host key? with
  | (.error e, store) => (.error e, store)
  | (.ok (state, resumed), store) =>
    match engine.backend.compile state.session text with
    | .ok compiled => (.ok ⟨state, resumed, compiled⟩, store)
    | .error diagnostics =>
      (.error (.compilation diagnostics),
        if resumed then store.fill (slotKey key?) (.holding (some state)) else store)

/-- The result of a submission that ran, given what became of its artifacts. -/
def conclude (engine : Engine σ υ φ) (key : Key) (prepared : Prepared σ υ)
    (emission? : Option (Except ArtifactFailure ArtifactPaths)) :
    Except φ Value → Except (ScriptError φ) Report
  | .error fault =>
    .error (.execution fault
      (match emission? with
      | some (.error failure) => some failure
      | _ => none))
  | .ok value =>
    let report : Report :=
      ⟨value, engine.backend.warnings prepared.compiled, key, prepared.resumed, none⟩
    match emission? with
    | none => .ok report
    | some (.ok paths) => .ok { report with artifacts := some paths }
    | some (.error failure) => .error (.artifactWrite failure report)

/-- Runs a prepared submission and stores the state after it, whether it faulted or not. -/
def finish (engine : Engine σ υ φ) (store : Store σ) (key : Key) (prepared : Prepared σ υ)
    (emission? : Option (Except ArtifactFailure ArtifactPaths)) : Completion φ × Store σ :=
  let (session, outcome) := engine.backend.execute prepared.state.session prepared.compiled
  let ran : SessionState σ := { prepared.state with session }
  match outcome with
  | .crash => (.brokeOff, store.fill key .poisoned)
  | .fault fault =>
    (.returned (engine.conclude key prepared emission? (.error fault)),
      store.fill key (.holding (some (ran.advance none))))
  | .value value =>
    (.returned (engine.conclude key prepared emission? (.ok value)),
      store.fill key (.holding (some (ran.advance (some value)))))

/-- Executes a source text. -/
def executeCode (engine : Engine σ υ φ) (store : Store σ) (text : String) (host : Host)
    (key? : Option Key) : Completion φ × Store σ :=
  match engine.prepare store text host key? with
  | (.error e, store) => (.returned (.error e), store)
  | (.ok prepared, store) => engine.finish store (slotKey key?) prepared none

section

variable {m : Type → Type} [Monad m] [FileSystem m]

def emitArtifacts (engine : Engine σ υ φ) (working script : Path) (compiled : υ) :
    m (Option (Except ArtifactFailure ArtifactPaths)) :=
  match engine.layout? with
  | none => pure none
  | some layout => do
    let streams := engine.backend.emit compiled
    let emission ← Artifact.emit layout working script streams
    return some emission

/-- Executes a script file, whose artifacts are written before it runs. -/
def execute (engine : Engine σ υ φ) (store : Store σ) (script : Path) (host : Host)
    (key? : Option Key) : m (Completion φ × Store σ) := do
  let working ← FileSystem.workingDirectory script
  match ← expandScript script with
  | .error e => return (.returned (.error (.preprocess e.path e.message)), store)
  | .ok expansion =>
    match engine.prepare store expansion.code host key? with
    | (.error e, store) => return (.returned (.error e), store)
    | (.ok prepared, store) =>
      let emission? ← engine.emitArtifacts working script prepared.compiled
      return engine.finish store (slotKey key?) prepared emission?

end

/-- The variables of a session, each one once in the order of first declaration. -/
def listVariables (engine : Engine σ υ φ) (store : Store σ) (key : Key) : List String :=
  match store.state? key with
  | .ok (some state) =>
    firstOfKey id ((engine.backend.declared state.session).map Variable.render)
  | _ => []

end Engine

end Colloquy
