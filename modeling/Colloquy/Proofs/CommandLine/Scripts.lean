import Colloquy.CommandLine.Run
import Colloquy.Proofs.Engine.Lineage
import Colloquy.Proofs.Files.Reads

set_option autoImplicit false

/-!
A run with scripts is a series of executions. They all take place under one key and are given the
arguments after `--`, and each one starts with the sessions and the files that those before it have
left. The run goes on for as long as there are reports; it ends with the variables of the session,
or with the first script there is no report on.
-/

namespace Colloquy

theorem exists_of_map_eq_ok {ε α β : Type} {result : Except ε α} {f : α → β} {image : β}
    (mapped : result.map f = .ok image) : ∃ a, result = .ok a ∧ f a = image := by
  cases result with
  | error e => cases mapped
  | ok a =>
    cases mapped
    exact ⟨a, rfl, rfl⟩

namespace Options

theorem setFlag_scriptArgs (options : Options) (flag : Flag) :
    (options.setFlag flag).scriptArgs = options.scriptArgs := by
  cases flag <;> rfl

theorem assign_scriptArgs {options later : Options} {setting : Setting} {value : Argument}
    (assigned : options.assign setting value = .ok later) :
    later.scriptArgs = options.scriptArgs := by
  unfold assign at assigned
  split at assigned
  · cases assigned
  · cases setting with
    | session =>
      dsimp only at assigned
      split at assigned <;> cases assigned
      rfl
    | config | logLevel =>
      cases assigned
      rfl

theorem readCluster_scriptArgs {options later : Options} {last : Option Char}
    {pieces : List Text.Utf8.Piece} {owed : Option (Setting × Char)}
    (read : readCluster options last pieces = .ok (later, owed)) :
    later.scriptArgs = options.scriptArgs := by
  fun_induction readCluster options last pieces with
  | case1 | case6 =>
    cases read
    rfl
  | case2 | case3 | case4 => cases read
  | case5 options last c rest _ flag _ inductionHypothesis =>
    rw [inductionHypothesis read, setFlag_scriptArgs]
  | case7 options last c rest _ setting _ _ =>
    obtain ⟨next, assigned, isLater⟩ := exists_of_map_eq_ok read
    cases isLater
    exact assign_scriptArgs assigned

/-- The options that an argument has been read to. -/
def Pending.options : Pending → Options
  | .done options | .value options _ _ => options

theorem readArgument_scriptArgs {options : Options} {argument : Argument} {pending : Pending}
    (read : readArgument options argument = .ok pending) :
    pending.options.scriptArgs = options.scriptArgs := by
  unfold readArgument at read
  split at read
  · cases read
    rfl
  · dsimp only at read
    split at read
    · cases read
    · cases read
      exact setFlag_scriptArgs _ _
    · cases read
    · obtain ⟨next, assigned, isPending⟩ := exists_of_map_eq_ok read
      cases isPending
      exact assign_scriptArgs assigned
    · cases read
      rfl
  · split at read
    · cases read
    case _ clustered =>
      cases read
      exact readCluster_scriptArgs clustered
    case _ clustered =>
      cases read
      exact readCluster_scriptArgs clustered

theorem readAll_scriptArgs {options later : Options} {arguments : List Argument}
    (read : readAll options arguments = .ok later) : later.scriptArgs = options.scriptArgs := by
  fun_induction readAll options arguments with
  | case1 =>
    cases read
    rfl
  | case2 | case4 | case5 => cases read
  | case3 options argument rest next isRead inductionHypothesis =>
    rw [inductionHypothesis read]
    exact readArgument_scriptArgs isRead
  | case6 options argument next setting option isRead value rest later assigned
    inductionHypothesis =>
    rw [inductionHypothesis read, assign_scriptArgs assigned]
    exact readArgument_scriptArgs isRead

/-- What comes after the first separator. -/
def behindSeparator (argv : List Argument) : List Argument :=
  (argv.tail.dropWhile (· ≠ separator)).tail

theorem drop_takeWhile_length {α : Type} (p : α → Bool) (items : List α) :
    items.drop (items.takeWhile p).length = items.dropWhile p := by
  have isAll := List.takeWhile_append_dropWhile (p := p) (l := items)
  have dropped := congrArg (List.drop (items.takeWhile p).length) isAll
  rw [List.drop_left] at dropped
  exact dropped.symm

theorem mapM_scriptArgument {arguments : List Argument} {texts : List String}
    (read : arguments.mapM scriptArgument = .ok texts) :
    arguments.mapM Text.Utf8.decode? = some texts := by
  induction arguments generalizing texts with
  | nil =>
    cases read
    rfl
  | cons argument rest inductionHypothesis =>
    rw [List.mapM_cons, scriptArgument] at read
    rw [List.mapM_cons]
    cases isText : Text.Utf8.decode? argument with
    | none =>
      rw [isText] at read
      cases read
    | some text =>
      rw [isText] at read
      cases isRest : rest.mapM scriptArgument with
      | error e =>
        rw [isRest] at read
        cases read
      | ok others =>
        rw [isRest] at read
        cases read
        rw [inductionHypothesis isRest]
        rfl

theorem parse_scriptArgs {argv : List Argument} {options : Options}
    (parsed : parse argv = .ok options) :
    (behindSeparator argv).mapM Text.Utf8.decode? = some options.scriptArgs := by
  have behind : argv.tail.drop ((argv.tail.takeWhile (· ≠ separator)).length + 1) =
      behindSeparator argv := by
    rw [← List.tail_drop, drop_takeWhile_length, behindSeparator]
  rw [parse, behind] at parsed
  cases isRead : (behindSeparator argv).mapM scriptArgument with
  | error e =>
    rw [isRead] at parsed
    cases parsed
  | ok texts =>
    rw [isRead] at parsed
    rw [mapM_scriptArgument isRead, readAll_scriptArgs parsed]

end Options

namespace CommandLine

open Engine (report?)
open Prompt (showLines)

section

variable {State : Type} [FileSystem (StateM State)]

/-- The sessions and the files that a script is executed with. -/
structure Stage (State : Type) where
  store : Store Calc.Session
  files : State

/-- Executes a script: its result, and the sessions and files after it. -/
def Job.execute (job : Job) (stage : Stage State) (script : Path) :
    Except (ScriptError Calc.Fault) Report × Stage State :=
  let ((completion, store), files) :=
    job.engine.execute (m := StateM State) stage.store script job.host (some job.key) stage.files
  (completion.inTask, ⟨store, files⟩)

/-- The results of scripts that are executed one after another. -/
def Job.results (job : Job) (stage : Stage State) :
    List Path → List (Except (ScriptError Calc.Fault) Report)
  | [] => []
  | script :: rest => (job.execute stage script).1 :: job.results (job.execute stage script).2 rest

/-- The sessions and the files after scripts are executed one after another. -/
def Job.after (job : Job) (stage : Stage State) (scripts : List Path) : Stage State :=
  scripts.foldl (fun stage script => (job.execute stage script).2) stage

/-- The texts of the reported values that are not unit. -/
def valueLines (results : List (Except (ScriptError Calc.Fault) Report)) : List String :=
  ((results.filterMap report?).filter Report.hasValue).map fun report => report.value.display

/-- There is a report on every script. -/
def AllReported (results : List (Except (ScriptError Calc.Fault) Report)) : Prop :=
  ∀ result ∈ results, (report? result).isSome

/-- Runs scripts: what the run ends with, and the files after it. -/
def Job.run (job : Job) (stage : Stage State) (scripts : List Path) : Exit × State :=
  runScripts (m := StateM State) job stage.store scripts stage.files

theorem showLines_append (front back : List String) :
    showLines (front ++ back) = showLines front ++ showLines back := by
  rw [showLines, List.map_append, String.join_append, showLines, showLines]

theorem valueLines_cons (result : Except (ScriptError Calc.Fault) Report)
    (results : List (Except (ScriptError Calc.Fault) Report)) :
    valueLines (result :: results) = valueLines [result] ++ valueLines results := by
  rw [valueLines, ← List.singleton_append, List.filterMap_append, List.filter_append,
    List.map_append, valueLines, valueLines]

/-- A run goes on after a script if there is a report on it, and shows its value. -/
theorem scriptOutcome_of_report (describe : Calc.Fault → String) (script : Path)
    {result : Except (ScriptError Calc.Fault) Report} (reported : (report? result).isSome) :
    ∃ errors, scriptOutcome describe script result =
      .proceed (showLines (valueLines [result])) errors := by
  have shown (report : Report) :
      (if report.hasValue then report.value.display ++ "\n" else "") =
        showLines (([report].filter Report.hasValue).map fun report => report.value.display) := by
    by_cases hasValue : report.hasValue <;> simp [hasValue, showLines]
  rcases result with e | report
  · cases e with
    | artifactWrite failure report =>
      rw [scriptOutcome, scriptReport, shown]
      exact ⟨_, rfl⟩
    | _ => cases reported
  · rw [scriptOutcome, scriptReport, shown]
    exact ⟨_, rfl⟩

theorem scriptOutcome_of_no_report (describe : Calc.Fault → String) (script : Path)
    {result : Except (ScriptError Calc.Fault) Report} (unreported : report? result = none) :
    ∃ errors, scriptOutcome describe script result = .fail errors := by
  rcases result with e | report
  · cases e with
    | artifactWrite failure report => cases unreported
    | _ => exact ⟨_, rfl⟩
  · cases unreported

variable (job : Job) (stage : Stage State)

theorem Job.run_cons (script : Path) (rest : List Path) :
    job.run stage (script :: rest) =
      match scriptOutcome job.engine.backend.describe script (job.execute stage script).1 with
      | .fail errors => (⟨1, "", errors⟩, (job.execute stage script).2.files)
      | .proceed output errors =>
        ((job.run (job.execute stage script).2 rest).1.after output errors,
          (job.run (job.execute stage script).2 rest).2) := by
  rw [Job.run, runScripts, run_bind]
  -- The match is on what the engine gives; folded to `Job.execute`, it is that of the statement.
  change (match scriptOutcome job.engine.backend.describe script (job.execute stage script).1 with
    | .fail errors => _
    | .proceed output errors => _ : StateM State Exit) _ = _
  cases scriptOutcome job.engine.backend.describe script (job.execute stage script).1 <;> rfl

theorem Job.run_of_no_report {script : Path}
    (unreported : report? (job.execute stage script).1 = none) (rest : List Path) :
    ∃ errors, job.run stage (script :: rest) =
      (⟨1, "", errors⟩, (job.execute stage script).2.files) := by
  obtain ⟨errors, outcome⟩ :=
    scriptOutcome_of_no_report job.engine.backend.describe script unreported
  rw [Job.run_cons, outcome]
  exact ⟨errors, rfl⟩

/-- A run through scripts that are all reported on shows their values, and goes on with the scripts
after them. -/
theorem Job.run_append {front : List Path} (reported : AllReported (job.results stage front))
    (rest : List Path) :
    ∃ errors, job.run stage (front ++ rest) =
      ((job.run (job.after stage front) rest).1.after
        (showLines (valueLines (job.results stage front))) errors,
        (job.run (job.after stage front) rest).2) := by
  -- What is said on the error stream grows with each script, so it is left open in the statement.
  induction front generalizing stage with
  | nil => exact ⟨"", by simp [Job.after, Job.results, valueLines, showLines, Exit.after]⟩
  | cons script front inductionHypothesis =>
    rw [Job.results, AllReported, List.forall_mem_cons] at reported
    obtain ⟨first, outcome⟩ :=
      scriptOutcome_of_report job.engine.backend.describe script reported.1
    obtain ⟨later, goesOn⟩ := inductionHypothesis (job.execute stage script).2 reported.2
    refine ⟨first ++ later, ?_⟩
    rw [List.cons_append, Job.run_cons, outcome]
    dsimp only
    rw [goesOn, Job.results, valueLines_cons _ (job.results _ front), showLines_append]
    simp only [Exit.after, String.append_assoc]
    rfl

/-- Either all scripts are reported on, or there is a first one that is not. -/
theorem Job.reported_or_first_failure (scripts : List Path) :
    AllReported (job.results stage scripts) ∨
      ∃ front script back, scripts = front ++ script :: back ∧
        AllReported (job.results stage front) ∧
        report? (job.execute (job.after stage front) script).1 = none := by
  induction scripts generalizing stage with
  | nil => exact .inl nofun
  | cons script rest inductionHypothesis =>
    cases reported : report? (job.execute stage script).1 with
    | none => exact .inr ⟨[], script, rest, rfl, nofun, reported⟩
    | some report =>
      have isReported : (report? (job.execute stage script).1).isSome := by rw [reported]; rfl
      obtain all | ⟨front, failing, back, isRest, before, unreported⟩ :=
        inductionHypothesis (job.execute stage script).2
      · exact .inl (List.forall_mem_cons.mpr ⟨isReported, all⟩)
      · exact .inr ⟨script :: front, failing, back, congrArg _ isRest,
          List.forall_mem_cons.mpr ⟨isReported, before⟩, unreported⟩

theorem Job.results_append (front back : List Path) :
    job.results stage (front ++ back) =
      job.results stage front ++ job.results (job.after stage front) back := by
  induction front generalizing stage with
  | nil => rfl
  | cons script front inductionHypothesis =>
    rw [List.cons_append, Job.results, inductionHypothesis, Job.results]
    rfl

theorem Job.not_allReported {front back : List Path} {script : Path}
    (unreported : report? (job.execute (job.after stage front) script).1 = none) :
    ¬AllReported (job.results stage (front ++ script :: back)) := by
  intro all
  rw [Job.results_append, Job.results] at all
  have isReported := all _ (List.mem_append_right _ List.mem_cons_self)
  rw [unreported] at isReported
  cases isReported

/-- The job of a run, once its options and its configuration are read. -/
def Job.ofConfig (options : Options) (config : Config) : Job where
  engine := ⟨Calc.backend, config.layout?⟩
  key := config.key?.getD Key.Supply.initial.generate.1
  scripts := options.scripts
  host := .ofPacks options.scriptArgs []

theorem run_eq_job {argv : List Argument} {options : Options} {environment : EnvironmentVariables}
    {config : Config} {files later : State} (input : List UInt8)
    (parsed : Options.parse argv = .ok options) (noHelp : options.help = false)
    (noVersion : options.version = false) (someScript : options.scripts ≠ [])
    (loaded : Config.load (m := StateM State) environment options files = (.ok config, later)) :
    run (m := StateM State) argv environment input files =
      (Job.ofConfig options config).run ⟨.empty, later⟩ options.scripts := by
  have started : start (m := StateM State) argv environment files =
      (.ok (Job.ofConfig options config), later) := by
    rw [start, parsed]
    dsimp only
    rw [noHelp, noVersion, if_neg Bool.false_ne_true, if_neg Bool.false_ne_true, run_bind, loaded]
    rfl
  have isNonempty : ¬(Job.ofConfig options config).scripts.isEmpty := by
    rw [List.isEmpty_iff]
    exact someScript
  rw [run, run_bind, started]
  dsimp only
  rw [if_neg isNonempty]
  rfl

/-- A run with scripts is a series of executions under one key, the configured one or else a
generated one, with the arguments after `--`. It ends with code 0 if and only if there is a report
on every script, that is, each one completes, whether its artifacts are written or not. The run has
then shown the values, each on a line, and the variables of the session. Otherwise it ends with code
1 at the first script without a report. It has shown the values of the scripts before that one, and
leaves the files as that one did, so none is read after it. -/
theorem run_eq_executions {argv : List Argument} {options : Options}
    {environment : EnvironmentVariables} {config : Config} {files later : State}
    (input : List UInt8)
    (parsed : Options.parse argv = .ok options) (noHelp : options.help = false)
    (noVersion : options.version = false) (someScript : options.scripts ≠ [])
    (loaded : Config.load (m := StateM State) environment options files = (.ok config, later)) :
    let job := Job.ofConfig options config
    let stage : Stage State := ⟨.empty, later⟩
    let exit := (run (m := StateM State) argv environment input files).1
    let left := (run (m := StateM State) argv environment input files).2
    (Options.behindSeparator argv).mapM Text.Utf8.decode? = some job.host.args ∧
      (exit.code = 0 ↔ AllReported (job.results stage options.scripts)) ∧
      (exit.code = 0 →
        exit.output = showLines (valueLines (job.results stage options.scripts) ++
            job.engine.listVariables (job.after stage options.scripts).store job.key) ∧
          left = (job.after stage options.scripts).files) ∧
      (exit.code ≠ 0 →
        exit.code = 1 ∧
          ∃ front script back, options.scripts = front ++ script :: back ∧
            AllReported (job.results stage front) ∧
            report? (job.execute (job.after stage front) script).1 = none ∧
            exit.output = showLines (valueLines (job.results stage front)) ∧
            left = (job.after stage (front ++ [script])).files) := by
  intro job stage exit left
  have arguments := Options.parse_scriptArgs parsed
  have isJob : run (m := StateM State) argv environment input files =
      job.run stage options.scripts :=
    run_eq_job input parsed noHelp noVersion someScript loaded
  obtain all | ⟨front, script, back, isFront, before, unreported⟩ :=
    job.reported_or_first_failure stage options.scripts
  · obtain ⟨errors, isRun⟩ := job.run_append stage all []
    rw [List.append_nil] at isRun
    dsimp only [exit, left]
    rw [isJob, isRun]
    refine ⟨arguments, iff_of_true rfl all, fun _ => ⟨?_, rfl⟩, fun fails => (fails rfl).elim⟩
    rw [showLines_append]
    rfl
  · obtain ⟨earlier, isRun⟩ := job.run_append stage before (script :: back)
    obtain ⟨errors, stops⟩ := job.run_of_no_report _ unreported back
    dsimp only [exit, left]
    rw [isJob, isFront, isRun, stops]
    refine ⟨arguments, iff_of_false Nat.one_ne_zero (job.not_allReported stage unreported), nofun,
      fun _ => ⟨rfl, front, script, back, rfl, before, unreported, String.append_empty, ?_⟩⟩
    rw [Job.after, Job.after, List.foldl_append]
    rfl

end

/-- Three scripts, of which the second one does not compile. The artifacts have no place to go. -/
def brokenSeries : Memory where
  rules := .text
  files := [
    (.ofString "run.json", Text.Utf8.encode "\x7b\"session\":\x7b\"key\":\"work\"\x7d\x7d"),
    (.ofString "a", Text.Utf8.encode "var x=argc()\nx"),
    (.ofString "b", Text.Utf8.encode "x+z"),
    (.ofString "c", Text.Utf8.encode "x")]
  failing := [⟨.createDirectory, .ofString "./bin"⟩]
  log := []

def seriesArguments : List Argument :=
  ["colloquy", "-c", "run.json", "a", "--debug", "b", "c", "--", "7"].map Text.Utf8.encode

def seriesOptions : Options :=
  ⟨["a", "b", "c"].map .ofString, ["7"], true, none, some (.ofString "run.json"), none, false,
    false⟩

theorem seriesOptions_loaded :
    ∃ later, Config.load (m := StateM Memory) ⟨none, none, none⟩ seriesOptions brokenSeries =
      (.ok ⟨true, .standard, some "work", "info"⟩, later) := by
  have accepted : (Config.load (m := StateM Memory) ⟨none, none, none⟩ seriesOptions
      brokenSeries).1.toOption = some ⟨true, .standard, some "work", "info"⟩ := by
    decide +kernel
  generalize Config.load (m := StateM Memory) ⟨none, none, none⟩ seriesOptions brokenSeries =
    loaded at accepted ⊢
  obtain ⟨e | config, later⟩ := loaded
  · cases accepted
  · exact ⟨later, by rw [Option.some.inj accepted]⟩

def brokenRun : Exit × Memory :=
  run (m := StateM Memory) seriesArguments ⟨none, none, none⟩ [] brokenSeries

theorem brokenSeries_stopped :
    brokenRun.1.code = 1 ∧ brokenRun.1.output = "1\n" ∧
      brokenRun.2.log.head? = some ⟨.readText, .ofString "b"⟩ := by
  have parsed : Options.parse seriesArguments = .ok seriesOptions := by rfl
  obtain ⟨later, loaded⟩ := seriesOptions_loaded
  have ended : brokenRun.1.code ≠ 0 ∧ brokenRun.1.output = "1\n" ∧
      brokenRun.2.log.head? = some ⟨.readText, .ofString "b"⟩ := by
    decide +kernel
  obtain ⟨-, -, -, otherwise⟩ := run_eq_executions [] parsed rfl rfl nofun loaded
  exact ⟨(otherwise ended.1).1, ended.2⟩

end CommandLine

end Colloquy
