import Colloquy.Engine.Basic

/-!
The prompt: each line of input is a submission to one session, or a command that starts with a
colon.
-/

set_option autoImplicit false

namespace Colloquy

inductive Command where
  | submit (code : String)
  | listVariables
  | quit
  | empty
  | unknown (command : String)
  deriving DecidableEq, Repr

def Command.parse (line : String) : Command :=
  match String.ofList (Text.trim line.toList) with
  | "" => .empty
  | ":vars" => .listVariables
  | ":quit" => .quit
  | ":q" => .quit
  | text => if text.toList.head? = some ':' then .unknown text else .submit text

namespace Prompt

variable {σ υ φ : Type}

/-- The session that a prompt submits to, and what new sessions are given. -/
structure Settings where
  key : Key
  host : Host

def mark : String := "> "

def showLines (lines : List String) : String :=
  String.join (lines.map (· ++ "\n"))

/-- What is shown for the result of a submission. -/
def showResult (describe : φ → String) : Except (ScriptError φ) Report → String
  | .ok report =>
    showLines (report.diagnostics.map Diagnostic.render ++
      if report.hasValue then [report.value.display] else [])
  | .error (.compilation diagnostics) => showLines (diagnostics.map Diagnostic.render)
  | .error e => showLines ["error: " ++ e.message describe]

/-- How a prompt goes on after a line. -/
inductive Reply (σ : Type) where
  | text (output : String) (store : Store σ)
  | quit
  /-- The submission broke off, and the prompt with it. -/
  | brokeOff (store : Store σ)

def reply (engine : Engine σ υ φ) (settings : Settings) (store : Store σ) : Command → Reply σ
  | .quit => .quit
  | .empty => .text "" store
  | .listVariables => .text (showLines (engine.listVariables store settings.key)) store
  | .unknown command => .text (showLines ["unknown command: " ++ command]) store
  | .submit code =>
    match engine.executeCode store code settings.host (some settings.key) with
    | (.brokeOff, store) => .brokeOff store
    | (.returned result, store) => .text (showResult engine.backend.describe result) store

inductive Ending where
  | finished
  /-- A line of the input is no text. -/
  | unreadable
  | brokeOff
  deriving DecidableEq, Repr

def Ending.failure? : Ending → Option Failure
  | .unreadable => some ⟨"stream did not contain valid UTF-8"⟩
  | _ => none

/-- What a line of input leads to: output after which the prompt goes on, or its end. -/
inductive Turn (σ : Type) where
  | next (output : String) (store : Store σ)
  | stop (output : String) (ending : Ending) (store : Store σ)

/-- Takes a line of input. Each reply is followed by the mark, and a regular end by a line break. -/
def turn (engine : Engine σ υ φ) (settings : Settings) (store : Store σ) (line : List UInt8) :
    Turn σ :=
  match Text.Utf8.decode? line with
  | none => .stop "" .unreadable store
  | some text =>
    match reply engine settings store (Command.parse text) with
    | .quit => .stop "\n" .finished store
    | .brokeOff store => .stop "" .brokeOff store
    | .text output store => .next (output ++ mark) store

structure Transcript (σ : Type) where
  output : String
  ending : Ending
  store : Store σ

def Transcript.after {σ : Type} (output : String) (transcript : Transcript σ) : Transcript σ :=
  { transcript with output := output ++ transcript.output }

def runLines (engine : Engine σ υ φ) (settings : Settings) :
    Store σ → List (List UInt8) → Transcript σ
  | store, [] => ⟨"\n", .finished, store⟩
  | store, line :: rest =>
    match turn engine settings store line with
    | .stop output ending store => ⟨output, ending, store⟩
    | .next output store => (runLines engine settings store rest).after output

def inputLines (input : List UInt8) : List (List UInt8) :=
  Text.divideLines 0x0A 0x0D input

def run (engine : Engine σ υ φ) (settings : Settings) (store : Store σ) (input : List UInt8) :
    Transcript σ :=
  (runLines engine settings store (inputLines input)).after mark

end Prompt

end Colloquy
