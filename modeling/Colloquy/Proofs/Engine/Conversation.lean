import Colloquy.Engine.Prompt
import Colloquy.Proofs.Engine.Refusal

set_option autoImplicit false

/-!
A prompt is a series of submissions. Its lines count up to the first one that quits or is no text;
those that are submissions are executed one after another, and no other line does anything to the
store. What is shown for a line depends on the store that the submissions before it have led to.
-/

namespace Colloquy

variable {σ υ φ : Type}

/-- No run of the backend breaks off. -/
def Backend.Returns (backend : Backend σ υ φ) : Prop :=
  ∀ session compiled later, backend.execute session compiled ≠ (later, .crash)

theorem Calc.backend_returns : Calc.backend.Returns := by
  intro session compiled later breaksOff
  rcases ran : session.execute compiled with ⟨reached, fault | value⟩ <;>
    simp [Calc.backend, ran] at breaksOff

theorem Engine.finish_ne_brokeOff {engine : Engine σ υ φ} (returns : engine.backend.Returns)
    (store : Store σ) (key : Key) (prepared : Prepared σ υ)
    (emission? : Option (Except ArtifactFailure ArtifactPaths)) :
    (engine.finish store key prepared emission?).1 ≠ .brokeOff := by
  unfold Engine.finish
  rcases ran : engine.backend.execute prepared.state.session prepared.compiled with
    ⟨later, value | fault | _⟩
  · simp
  · simp
  · exact (returns _ _ _ ran).elim

theorem Engine.executeCode_ne_brokeOff {engine : Engine σ υ φ} (returns : engine.backend.Returns)
    (store : Store σ) (text : String) (host : Host) (key? : Option Key) :
    (engine.executeCode store text host key?).1 ≠ .brokeOff := by
  unfold Engine.executeCode
  split
  · simp
  · exact finish_ne_brokeOff returns _ _ _ _

namespace Prompt

/-- What a line asks for, if it is a text. -/
def command? (line : List UInt8) : Option Command :=
  (Text.Utf8.decode? line).map Command.parse

/-- The prompt goes on after this line. -/
def goesOn (line : List UInt8) : Bool :=
  match command? line with
  | none | some .quit => false
  | some _ => true

/-- The commands of the lines up to the one that ends the prompt. -/
def commands (lines : List (List UInt8)) : List Command :=
  (lines.takeWhile goesOn).filterMap command?

/-- The line that ends the prompt is no text. -/
def endsUnreadable (lines : List (List UInt8)) : Bool :=
  (lines.dropWhile goesOn).head?.any fun line => (Text.Utf8.decode? line).isNone

/-- The texts that are submitted. -/
def submissions (commands : List Command) : List String :=
  commands.filterMap fun
    | .submit code => some code
    | _ => none

/-- The store after texts were submitted one after another. -/
def submitAll (engine : Engine σ υ φ) (settings : Settings) (store : Store σ)
    (texts : List String) : Store σ :=
  texts.foldl
    (fun store text => (engine.executeCode store text settings.host (some settings.key)).2) store

/-- The lines that are shown for a command. -/
def response (engine : Engine σ υ φ) (settings : Settings) (store : Store σ) :
    Command → List String
  | .empty | .quit => []
  | .listVariables => engine.listVariables store settings.key
  | .unknown command => ["unknown command: " ++ command]
  | .submit code =>
    match (engine.executeCode store code settings.host (some settings.key)).1 with
    | .returned (.ok report) =>
      report.diagnostics.map Diagnostic.render ++
        if report.value.isUnit then [] else [report.value.display]
    | .returned (.error (.compilation diagnostics)) => diagnostics.map Diagnostic.render
    | .returned (.error e) => ["error: " ++ e.message engine.backend.describe]
    | .brokeOff => []

/-- What is shown for commands in a row: for each one a response by the store as it then is, and the
mark. -/
def responses (engine : Engine σ υ φ) (settings : Settings) (store : Store σ)
    (commands : List Command) : List String :=
  commands.mapIdx fun index command =>
    showLines (response engine settings
      (submitAll engine settings store (submissions (commands.take index))) command) ++ mark

section

variable {line : List UInt8} (rest : List (List UInt8))

theorem commands_of_stop (stops : goesOn line = false) : commands (line :: rest) = [] := by
  rw [commands, List.takeWhile_cons_of_neg (by simp [stops]), List.filterMap_nil]

theorem endsUnreadable_of_stop (stops : goesOn line = false) :
    endsUnreadable (line :: rest) = (Text.Utf8.decode? line).isNone := by
  rw [endsUnreadable, List.dropWhile_cons_of_neg (by simp [stops]), List.head?_cons,
    Option.any_some]

/-- Of what comes after a line that ends the prompt, nothing counts. -/
theorem commands_append_stop (front : List (List UInt8)) (stops : goesOn line = false) :
    commands (front ++ line :: rest) = commands (front ++ [line]) := by
  have stopsHere (behind : List (List UInt8)) : (line :: behind).takeWhile goesOn = [] :=
    List.takeWhile_cons_of_neg (by simp [stops])
  rw [commands, commands, List.takeWhile_append, List.takeWhile_append, stopsHere, stopsHere]

theorem endsUnreadable_append_stop (front : List (List UInt8)) (stops : goesOn line = false) :
    endsUnreadable (front ++ line :: rest) = endsUnreadable (front ++ [line]) := by
  have stopsHere (behind : List (List UInt8)) :
      (line :: behind).dropWhile goesOn = line :: behind :=
    List.dropWhile_cons_of_neg (by simp [stops])
  rw [endsUnreadable, endsUnreadable, List.dropWhile_append, List.dropWhile_append, stopsHere,
    stopsHere]
  split
  · rfl
  case isFalse remains =>
    obtain ⟨first, others, isFirst⟩ := List.exists_cons_of_ne_nil
      (mt List.isEmpty_iff.mpr remains)
    rw [isFirst]
    rfl

theorem commands_of_goesOn (goes : goesOn line) {command : Command}
    (isCommand : command? line = some command) :
    commands (line :: rest) = command :: commands rest := by
  rw [commands, List.takeWhile_cons_of_pos goes, List.filterMap_cons_some isCommand, commands]

theorem endsUnreadable_of_goesOn (goes : goesOn line) :
    endsUnreadable (line :: rest) = endsUnreadable rest := by
  rw [endsUnreadable, List.dropWhile_cons_of_pos goes, endsUnreadable]

end

section

variable {engine : Engine σ υ φ} (settings : Settings)

/-- The store after a single command. -/
def storeAfter (engine : Engine σ υ φ) (settings : Settings) (store : Store σ)
    (command : Command) : Store σ :=
  submitAll engine settings store (submissions [command])

theorem submitAll_cons (store : Store σ) (command : Command) (commands : List Command) :
    submitAll engine settings store (submissions (command :: commands)) =
      submitAll engine settings (storeAfter engine settings store command)
        (submissions commands) := by
  cases command <;> rfl

theorem responses_cons (store : Store σ) (command : Command) (commands : List Command) :
    responses engine settings store (command :: commands) =
      (showLines (response engine settings store command) ++ mark) ::
        responses engine settings (storeAfter engine settings store command) commands := by
  rw [responses, List.mapIdx_cons]
  simp only [List.take_succ_cons, submitAll_cons]
  rfl

theorem showResult_eq {result : Except (ScriptError φ) Report} {store : Store σ} {code : String}
    (executed : (engine.executeCode store code settings.host (some settings.key)).1 =
      .returned result) :
    showResult engine.backend.describe result =
      showLines (response engine settings store (.submit code)) := by
  rw [response, executed]
  rcases result with e | report
  · cases e <;> rfl
  · rw [showResult, Report.hasValue]
    by_cases isUnit : report.value.isUnit <;> simp [isUnit]

variable (returns : engine.backend.Returns)
include returns

/-- A command that does not end the prompt is replied to; only a submission changes the store. -/
theorem reply_eq (store : Store σ) {command : Command} (notQuit : command ≠ .quit) :
    reply engine settings store command =
      .text (showLines (response engine settings store command))
        (storeAfter engine settings store command) := by
  cases command with
  | quit => exact (notQuit rfl).elim
  | empty | listVariables | unknown => rfl
  | submit code =>
    have returned := Engine.executeCode_ne_brokeOff returns store code settings.host
      (some settings.key)
    rw [reply]
    rcases executed : engine.executeCode store code settings.host (some settings.key) with
      ⟨result | _, later⟩
    · have isLater : storeAfter engine settings store (.submit code) = later :=
        congrArg Prod.snd executed
      rw [isLater, ← showResult_eq settings (congrArg Prod.fst executed)]
    · exact (returned (congrArg Prod.fst executed)).elim

theorem runLines_eq_submissions (store : Store σ) (lines : List (List UInt8)) :
    runLines engine settings store lines =
      { output := String.join (responses engine settings store (commands lines)) ++
          if endsUnreadable lines then "" else "\n"
        ending := if endsUnreadable lines then .unreadable else .finished
        store := submitAll engine settings store (submissions (commands lines)) } := by
  -- A line is no text, or quits, or is replied to; only after the last kind do others count.
  induction lines generalizing store with
  | nil => rfl
  | cons line rest inductionHypothesis =>
    cases isText : Text.Utf8.decode? line with
    | none =>
      have stops : goesOn line = false := by simp [goesOn, command?, isText]
      rw [runLines, turn, isText, commands_of_stop rest stops, endsUnreadable_of_stop rest stops,
        isText]
      rfl
    | some text =>
      have isCommand : command? line = some (Command.parse text) := by rw [command?, isText]; rfl
      rw [runLines, turn, isText]
      dsimp only
      by_cases isQuit : Command.parse text = .quit
      · have stops : goesOn line = false := by simp [goesOn, isCommand, isQuit]
        rw [isQuit, commands_of_stop rest stops, endsUnreadable_of_stop rest stops, isText]
        rfl
      · have goes : goesOn line := by
          rw [goesOn, isCommand]
          cases parsed : Command.parse text with
          | quit => exact (isQuit parsed).elim
          | submit | listVariables | empty | unknown => rfl
        rw [reply_eq settings returns store isQuit, commands_of_goesOn rest goes isCommand,
          endsUnreadable_of_goesOn rest goes, responses_cons, submitAll_cons, String.join_cons,
          String.append_assoc]
        dsimp only
        rw [inductionHypothesis]
        rfl

/-- A prompt is the series of its submissions. The store it leaves is that after the submissions of
the lines up to the one that ends it. It shows the mark, for each of these lines what the line gives
in the store at that point and the mark again, and at the end a line break; there is none, and the
failure is returned, where the line that ended it is no text. Lines after that one make no
difference. -/
theorem run_eq_submissions (store : Store σ) (input : List UInt8) :
    run engine settings store input =
        { output := mark ++ String.join
              (responses engine settings store (commands (inputLines input))) ++
            if endsUnreadable (inputLines input) then "" else "\n"
          ending := if endsUnreadable (inputLines input) then .unreadable else .finished
          store := submitAll engine settings store (submissions (commands (inputLines input))) } ∧
      (run engine settings store input).ending.failure? =
        (if endsUnreadable (inputLines input) then some ⟨"stream did not contain valid UTF-8"⟩
        else none) ∧
      ∀ front line rest, inputLines input = front ++ line :: rest → goesOn line = false →
        run engine settings store input =
          (runLines engine settings store (front ++ [line])).after mark := by
  have isRun := runLines_eq_submissions settings returns store (inputLines input)
  refine ⟨?_, ?_, ?_⟩
  · rw [run, isRun, Transcript.after, String.append_assoc]
  · rw [run, isRun, Transcript.after]
    cases endsUnreadable (inputLines input) <;> rfl
  · intro front line rest isInput stops
    rw [run, isRun, runLines_eq_submissions settings returns, isInput,
      commands_append_stop rest front stops, endsUnreadable_append_stop rest front stops]

end

/-- Lines of every kind, of which the last two come after the prompt has ended. -/
def mixedLines : List UInt8 :=
  Text.Utf8.encode "var x = 7\n\n:vars\ny\nx / 0\n :list\nx * 6\r\n" ++ [0xFF, 0x0A] ++
    Text.Utf8.encode "var z = 1\n:quit"

theorem mixedLines_submitted :
    (run Engine.calculator ⟨⟨"work"⟩, ⟨[], []⟩⟩ .empty mixedLines).output =
      "> > > int x\n> (1,1): error: the name `y` does not exist in the current context\n" ++
        "> error: execution fault: (1,3): division by zero\n> unknown command: :list\n> 42\n> " ∧
    (run Engine.calculator ⟨⟨"work"⟩, ⟨[], []⟩⟩ .empty mixedLines).ending.failure? =
      some ⟨"stream did not contain valid UTF-8"⟩ ∧
    (run Engine.calculator ⟨⟨"work"⟩, ⟨[], []⟩⟩ .empty mixedLines).store =
      submitAll Engine.calculator ⟨⟨"work"⟩, ⟨[], []⟩⟩ .empty
        ["var x = 7", "y", "x / 0", "x * 6"] := by
  have returns : Engine.calculator.backend.Returns := Calc.backend_returns
  obtain ⟨isRun, -⟩ := run_eq_submissions ⟨⟨"work"⟩, ⟨[], []⟩⟩ returns .empty mixedLines
  have texts : submissions (commands (inputLines mixedLines)) =
      ["var x = 7", "y", "x / 0", "x * 6"] := by
    decide +kernel
  rw [isRun, texts]
  refine ⟨by decide +kernel, by decide +kernel, ?_⟩
  dsimp only

end Prompt

end Colloquy
