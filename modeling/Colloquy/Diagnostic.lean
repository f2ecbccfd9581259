import Colloquy.Json.Writer

/-!
Positions in a source text, and the messages a compiler reports at them.
-/

set_option autoImplicit false

namespace Colloquy

/-- A line and a column, both counted from one. -/
structure Position where
  line : Nat
  column : Nat
  deriving DecidableEq, Repr

def showNat (n : Nat) : String :=
  String.ofList (Decimal.natDigits n)

def Position.render (pos : Position) : String :=
  "(" ++ showNat pos.line ++ "," ++ showNat pos.column ++ ")"

inductive Severity where
  | error
  | warning
  deriving DecidableEq, Repr

def Severity.name : Severity → String
  | .error => "error"
  | .warning => "warning"

structure Diagnostic where
  severity : Severity
  position : Position
  message : String
  deriving DecidableEq, Repr

namespace Diagnostic

def error (position : Position) (message : String) : Diagnostic :=
  ⟨.error, position, message⟩

def warning (position : Position) (message : String) : Diagnostic :=
  ⟨.warning, position, message⟩

def isError (d : Diagnostic) : Bool :=
  d.severity = .error

def render (d : Diagnostic) : String :=
  d.position.render ++ ": " ++ d.severity.name ++ ": " ++ d.message

def toJson (d : Diagnostic) : Json :=
  .object [
    ("severity", .string d.severity.name),
    ("line", .int d.position.line),
    ("column", .int d.position.column),
    ("message", .string d.message)]

end Diagnostic

end Colloquy
