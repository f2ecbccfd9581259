import Colloquy.Calc.Session
import Colloquy.Sink

/-!
The two documents that describe a compiled submission to a debugger: its image, with the program and
all positions, and its symbols, with the declared variables.
-/

set_option autoImplicit false

namespace Colloquy

def Position.toJson (pos : Position) : Json :=
  .object [("line", .int pos.line), ("column", .int pos.column)]

namespace Calc

def UnaryOp.tag : UnaryOp → String
  | .neg => "neg"
  | .not => "not"

def BinaryOp.tag : BinaryOp → String
  | .add => "add"
  | .sub => "sub"
  | .mul => "mul"
  | .div => "div"
  | .rem => "rem"
  | .eq => "eq"
  | .ne => "ne"
  | .lt => "lt"
  | .le => "le"
  | .gt => "gt"
  | .ge => "ge"

mutual

def Expr.toJson : Expr → Json
  | .literal value => .object [("kind", .string "literal"), ("value", value.toJson)]
  | .name text pos =>
    .object [("kind", .string "name"), ("name", .string text), ("pos", pos.toJson)]
  | .unary op operand pos =>
    .object [("kind", .string "unary"), ("op", .string op.tag), ("operand", operand.toJson),
      ("pos", pos.toJson)]
  | .binary op left right pos =>
    .object [("kind", .string "binary"), ("op", .string op.tag), ("lhs", left.toJson),
      ("rhs", right.toJson), ("pos", pos.toJson)]
  | .call function args pos =>
    .object [("kind", .string "call"), ("function", .string function),
      ("args", .list (Expr.listToJson args)), ("pos", pos.toJson)]

def Expr.listToJson : List Expr → List Json
  | [] => []
  | arg :: args => arg.toJson :: Expr.listToJson args

end

def Statement.toJson : Statement → Json
  | .declare name kind? init pos =>
    .object [("kind", .string "declare"), ("name", .string name),
      ("annotation", match kind? with
        | none => .null
        | some kind => .string kind.name),
      ("init", init.toJson), ("pos", pos.toJson)]
  | .expr e terminated pos =>
    .object [("kind", .string "expr"), ("expr", e.toJson), ("terminated", .bool terminated),
      ("pos", pos.toJson)]

def Symbol.toJson (symbol : Symbol) : Json :=
  .object [("name", .string symbol.name), ("type", .string symbol.kind.name),
    ("line", .int symbol.pos.line), ("column", .int symbol.pos.column)]

namespace Compiled

def program (compiled : Compiled) : List Statement :=
  compiled.statements.map Prod.fst

def image (compiled : Compiled) : String :=
  (Json.object [("format", .string "calc-image/1"),
    ("statements", .list (compiled.program.map Statement.toJson))]).pretty

def symbolTable (compiled : Compiled) : String :=
  (Json.object [("format", .string "calc-symbols/1"),
    ("symbols", .list (compiled.symbols.map Symbol.toJson))]).pretty

/-- Writes the image and the symbols to two streams, and flushes both once both are written. -/
def emit (compiled : Compiled) (code symbols : Sink) : Sink × Sink × Except Failure Unit :=
  match code.write (Text.Utf8.encode compiled.image) with
  | (code, .error failure) => (code, symbols, .error failure)
  | (code, .ok ()) =>
    match symbols.write (Text.Utf8.encode compiled.symbolTable) with
    | (symbols, .error failure) => (code, symbols, .error failure)
    | (symbols, .ok ()) => (code.flush, symbols.flush, .ok ())

end Compiled

end Calc

end Colloquy
