import Colloquy.Calc.Image

/-!
What the engine asks of a language. A backend creates sessions, compiles submissions against them,
and runs what it compiled; the engine itself never looks into a source text.
-/

set_option autoImplicit false

namespace Colloquy

/-- A variable of a session, as its language names its type. -/
structure Variable where
  name : String
  typeName : String
  deriving DecidableEq, Repr

def Variable.render (v : Variable) : String :=
  v.typeName ++ " " ++ v.name

def Variable.toJson (v : Variable) : Json :=
  .object [("name", .string v.name), ("type_name", .string v.typeName)]

/-- How the run of a submission ends. -/
inductive Outcome (φ : Type) where
  | value (value : Value)
  | fault (fault : φ)
  /-- The backend itself breaks off. -/
  | crash

/-- The image and the symbols of a compiled submission. -/
structure Streams where
  code : List UInt8
  symbols : List UInt8

/-- A language with sessions `σ`, compiled submissions `υ` and faults `φ`. -/
structure Backend (σ υ φ : Type) where
  /-- A new session, or why there is none. -/
  create : Host → Except String σ
  compile : σ → String → Except (List Diagnostic) υ
  /-- Runs a submission. What it did before a fault stays in the session. -/
  execute : σ → υ → σ × Outcome φ
  /-- The variables of a session in the order of their declarations, repetitions included. -/
  declared : σ → List Variable
  warnings : υ → List Diagnostic
  emit : υ → Except Failure Streams
  describe : φ → String

namespace Calc

def Compiled.streams (compiled : Compiled) : Except Failure Streams :=
  match compiled.emit .unlimited .unlimited with
  | (code, symbols, .ok ()) => .ok ⟨code.content, symbols.content⟩
  | (_, _, .error failure) => .error failure

def Session.declared (session : Session) : List Variable :=
  session.bindings.map fun binding => ⟨binding.name, binding.kind.name⟩

def backend : Backend Session Compiled Fault where
  create host := .ok (Session.ofHost host)
  compile := Session.compile
  execute session compiled :=
    match session.execute compiled with
    | (session, .ok value) => (session, .value value)
    | (session, .error fault) => (session, .fault fault)
  declared := Session.declared
  warnings := Compiled.warnings
  emit := Compiled.streams
  describe := Fault.message

end Calc

end Colloquy
