import Colloquy.Calc.Expr

/-!
The tokens of the language.
-/

set_option autoImplicit false

namespace Colloquy.Calc

inductive Token where
  | int (value : Int64)
  | double (value : Float)
  | string (text : String)
  | name (text : String)
  | operator (op : BinaryOp)
  | bang
  | assign
  | leftParen
  | rightParen
  | comma
  | semicolon
  | newline
  | eof

/-- How a message refers to a token. -/
def Token.describe : Token → String
  | .int n => Value.showInt n
  | .double x => Value.showDouble x
  | .string _ => "string literal"
  | .name text => "`" ++ text ++ "`"
  | .operator op => "`" ++ op.symbol ++ "`"
  | .bang => "`!`"
  | .assign => "`=`"
  | .leftParen => "`(`"
  | .rightParen => "`)`"
  | .comma => "`,`"
  | .semicolon => "`;`"
  | .newline => "end of line"
  | .eof => "end of input"

/-- Whether a token ends a statement. -/
def Token.isStop : Token → Bool
  | .semicolon | .newline | .eof => true
  | _ => false

/-- A token and the position of its first character. -/
structure Lexeme where
  token : Token
  pos : Position

end Colloquy.Calc
