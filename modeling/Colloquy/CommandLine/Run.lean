import Colloquy.CommandLine.Config
import Colloquy.CommandLine.Help
import Colloquy.Engine.Prompt

/-!
A run of the program. It executes the scripts of the command line one after another in one session,
and lists the variables of that session at the end; without scripts it is a prompt.
-/

set_option autoImplicit false

namespace Colloquy.CommandLine

/-- What a run leaves behind on its two streams, and its exit code. -/
structure Exit where
  code : Nat
  output : String
  errors : String
  deriving DecidableEq, Repr

abbrev CalcEngine := Engine Calc.Session Calc.Compiled Calc.Fault

/-- What is left to do once the command line and the configuration are read. -/
structure Job where
  engine : CalcEngine
  key : Key
  scripts : List Path
  host : Host

/-- What became of one script: its session goes on, with text for both streams, or the run ends. -/
inductive ScriptOutcome where
  | proceed (output errors : String)
  | fail (errors : String)

def scriptReport (script : Path) (warning : String) (report : Report) : ScriptOutcome :=
  .proceed (if report.hasValue then report.value.display ++ "\n" else "")
    (warning ++ Prompt.showLines (report.diagnostics.map fun d => script.display ++ d.render))

/-- A script whose artifacts were not written counts as executed. -/
def scriptOutcome (describe : Calc.Fault → String) (script : Path) :
    Except (ScriptError Calc.Fault) Report → ScriptOutcome
  | .ok report => scriptReport script "" report
  | .error (.artifactWrite failure report) =>
    let warning :=
      "warning: failed to write " ++ failure.path.display ++ ": " ++ failure.failure.message ++ "\n"
    scriptReport script warning report
  | .error e => .fail (script.display ++ ": " ++ e.message describe ++ "\n")

def Exit.after (output errors : String) (exit : Exit) : Exit :=
  { exit with output := output ++ exit.output, errors := errors ++ exit.errors }

section

variable {m : Type → Type} [Monad m] [FileSystem m]

/-- Executes scripts in order, up to the first one that fails. -/
def runScripts (job : Job) (store : Store Calc.Session) : List Path → m Exit
  | [] =>
    pure ⟨0, Prompt.showLines (job.engine.listVariables store job.key), ""⟩
  | script :: rest => do
    let (completion, store) ← job.engine.execute store script job.host (some job.key)
    match scriptOutcome job.engine.backend.describe script completion.inTask with
    | .fail errors => pure ⟨1, "", errors⟩
    | .proceed output errors => do
      let exit ← runScripts job store rest
      pure (exit.after output errors)

def prompt (job : Job) : Prompt.Settings :=
  ⟨job.key, job.host⟩

/-- The exit of a prompt that has ended; what it said has been shown. -/
def promptExit (ending : Prompt.Ending) : Exit :=
  match ending.failure? with
  | none => ⟨0, "", ""⟩
  | some failure => ⟨1, "", "error: " ++ failure.message ++ "\n"⟩

def runPrompt (job : Job) (input : List UInt8) : Exit :=
  let transcript := Prompt.run job.engine (prompt job) .empty input
  (promptExit transcript.ending).after transcript.output ""

/-- Reads the command line and the configuration. The run may end with that. -/
def start (argv : List Argument) (environment : EnvironmentVariables) : m (Except Exit Job) := do
  match Options.parse argv with
  | .error e =>
    return .error ⟨2, "",
      "error: " ++ e.message ++ "\nRun '" ++ programName ++ " --help' for usage.\n"⟩
  | .ok options =>
    if options.help then return .error ⟨0, helpText, ""⟩
    else if options.version then return .error ⟨0, versionText, ""⟩
    else
      match ← Config.load environment options with
      | .error e => return .error ⟨2, "", "error: " ++ e.message ++ "\n"⟩
      | .ok config =>
        return .ok {
          engine := ⟨Calc.backend, config.layout?⟩
          key := config.key?.getD Key.Supply.initial.generate.1
          scripts := options.scripts
          host := .ofPacks options.scriptArgs [] }

/-- A whole run on an input that is known beforehand. -/
def run (argv : List Argument) (environment : EnvironmentVariables) (input : List UInt8) :
    m Exit := do
  match ← start argv environment with
  | .error exit => return exit
  | .ok job =>
    if job.scripts.isEmpty then return runPrompt job input
    else runScripts job .empty job.scripts

end

end Colloquy.CommandLine
