import Colloquy.Diagnostic
import Colloquy.Json.Decoder
import Colloquy.Value

/-!
Values and diagnostics out of JSON. A value is an object with the members `type` and `value` in any
order, or a list of the two; a diagnostic is an object of its four fields, or a list of them.
-/

set_option autoImplicit false

namespace Colloquy

namespace Value

open Json

inductive Tag where
  | unit
  | bool
  | int
  | double
  | string
  deriving DecidableEq, Repr

def tags : List (String × Tag) :=
  [("unit", .unit), ("bool", .bool), ("int", .int), ("double", .double), ("string", .string)]

/-- Reads the content of a value whose tag is known. -/
def content : Tag → Node → Except ReadError Value
  | .unit, node => (Decode.null node).map fun _ => .unit
  | .bool, node => (Decode.bool node).map .bool
  | .int, node => (Decode.int64 node).map .int
  | .double, node => (Decode.double node).map .double
  | .string, node => (Decode.string node).map .string

/-- The value of a content that was read before its tag. -/
def keptContent : Tag → Kept → Except ReadError Value
  | .unit, .atom .null => .ok .unit
  | .bool, .atom (.bool b) => .ok (.bool b)
  | .int, .atom (.int n) =>
    match Integer.ofInt? n with
    | some i => .ok (.int i)
    | none => .error .mismatch
  | .double, .atom atom =>
    match Decode.doubleOf? atom with
    | some x => .ok (.double x)
    | none => .error .mismatch
  | .string, .string text => .ok (.string text)
  | _, _ => .error .mismatch

/-- What has been read of a value's object. -/
inductive Progress where
  | start
  | tagged (tag : Tag)
  | kept (content : Kept)
  | done (value : Value)

def advance (progress : Progress) (name : String) (node : Node) : Except ReadError Progress :=
  match name, progress with
  | "type", .start => (Decode.word tags node).map .tagged
  | "type", .kept content => do
    let tag ← Decode.word tags node
    (keptContent tag content).map .done
  | "type", _ => .error .mismatch
  | "value", .start => (node.keep (nestingLimit - 1)).map .kept
  | "value", .tagged tag => (content tag node).map .done
  | "value", _ => .error .mismatch
  | _, progress => do
    node.pass
    return progress

/-- Only `unit` may be without a content. -/
def Progress.finish : Progress → Except ReadError Value
  | .done value => .ok value
  | .tagged .unit => .ok .unit
  | _ => .error .mismatch

/-- In a list the tag is given as a string; as a member it may be given as any word. -/
def decode : Node → Except ReadError Value
  | .object members break? => do
    let progress ← Decode.members advance .start members break?
    progress.finish
  | .list [] break? => Decode.required break?
  | .list [tag] break? => do
    let _ ← Decode.plainWord tags tag
    Decode.required break?
  | .list (tag :: node :: rest) break? => do
    let tag ← Decode.plainWord tags tag
    let value ← content tag node
    Decode.noMore rest break?
    return value
  | node => node.mismatch

def ofJson? (text : String) : Except ReadError Value :=
  Json.read decode text

end Value

namespace Diagnostic

open Json

def severities : List (String × Severity) :=
  [("error", .error), ("warning", .warning)]

structure Fields where
  severity : Option Severity
  line : Option Nat
  column : Option Nat
  message : Option String

def field (fields : Fields) (name : String) (node : Node) : Except ReadError Fields :=
  match name with
  | "severity" => do
    return { fields with
      severity := ← Decode.once fields.severity (Decode.word severities node) }
  | "line" => do
    return { fields with line := ← Decode.once fields.line (Decode.nat node) }
  | "column" => do
    return { fields with column := ← Decode.once fields.column (Decode.nat node) }
  | "message" => do
    return { fields with message := ← Decode.once fields.message (Decode.string node) }
  | _ => do
    node.pass
    return fields

def Fields.finish : Fields → Except ReadError Diagnostic
  | ⟨some severity, some line, some column, some message⟩ =>
    .ok ⟨severity, ⟨line, column⟩, message⟩
  | _ => .error .mismatch

/-- The fields of a diagnostic given as a list. -/
def items (items : List Node) (break? : Option ReadError) : Except ReadError Diagnostic :=
  match items with
  | [] => Decode.required break?
  | severity :: items => do
    let severity ← Decode.word severities severity
    match items with
    | [] => Decode.required break?
    | line :: items => do
      let line ← Decode.nat line
      match items with
      | [] => Decode.required break?
      | column :: items => do
        let column ← Decode.nat column
        match items with
        | [] => Decode.required break?
        | message :: items => do
          let message ← Decode.string message
          Decode.noMore items break?
          return ⟨severity, ⟨line, column⟩, message⟩

def decode : Node → Except ReadError Diagnostic
  | .object members break? => do
    let fields ← Decode.members field ⟨none, none, none, none⟩ members break?
    fields.finish
  | .list nodes break? => items nodes break?
  | node => node.mismatch

def ofJson? (text : String) : Except ReadError Diagnostic :=
  Json.read decode text

end Diagnostic

end Colloquy
