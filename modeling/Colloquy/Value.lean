import Colloquy.Json.Writer
import Colloquy.Text.Quoted

/-!
The values that submissions produce and that hosts hand to scripts.
-/

set_option autoImplicit false

namespace Colloquy

/-- The kinds of values. `void` is the kind of `Value.unit`, which no variable is declared with. -/
inductive Kind where
  | int
  | double
  | string
  | bool
  | void
  deriving DecidableEq, Repr

def Kind.name : Kind → String
  | .int => "int"
  | .double => "double"
  | .string => "string"
  | .bool => "bool"
  | .void => "void"

def Kind.isNumeric : Kind → Bool
  | .int | .double => true
  | _ => false

/-- Equality is that of the parts, so a NaN differs from itself and the two zeros are equal. -/
inductive Value where
  | unit
  | bool (value : Bool)
  | int (value : Int64)
  | double (value : Float)
  | string (text : String)
  deriving BEq, Inhabited

namespace Value

def kind : Value → Kind
  | .unit => .void
  | .bool _ => .bool
  | .int _ => .int
  | .double _ => .double
  | .string _ => .string

def isUnit : Value → Bool
  | .unit => true
  | _ => false

/-- Doubles are shown without an exponent, and without a decimal place where none is needed. -/
def numberFormat : Decimal.Format where
  tie := .up
  positional _ := true
  wholePlace := false
  nan := "NaN"
  infinite negative := if negative then "-inf" else "inf"

def showInt (n : Int64) : String :=
  String.ofList (Decimal.intDigits n.toInt)

def showDouble (x : Float) : String :=
  numberFormat.render x

/-- The text shown for a value: nothing for `unit`, and strings between quotation marks. -/
def display : Value → String
  | .unit => ""
  | .bool true => "true"
  | .bool false => "false"
  | .int n => showInt n
  | .double x => showDouble x
  | .string text => Text.quoted text

/-- The text a value contributes to a concatenation: strings stand for themselves. -/
def text : Value → String
  | .string text => text
  | value => value.display

/-- The name a value's variant goes by in JSON. -/
def tag : Value → String
  | .unit => "unit"
  | .bool _ => "bool"
  | .int _ => "int"
  | .double _ => "double"
  | .string _ => "string"

def toJson (value : Value) : Json :=
  .object (("type", .string value.tag) ::
    match value with
    | .unit => []
    | .bool b => [("value", .bool b)]
    | .int n => [("value", .int n.toInt)]
    | .double x => [("value", .double x)]
    | .string text => [("value", .string text)])

end Value

end Colloquy
