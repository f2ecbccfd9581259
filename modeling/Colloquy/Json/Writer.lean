import Colloquy.Decimal.Format

/-!
JSON documents and their two written forms: on one line without blanks, and indented.
-/

set_option autoImplicit false

namespace Colloquy

inductive Json where
  | null
  | bool (value : Bool)
  | int (value : Int)
  | double (value : Float)
  | string (text : String)
  | list (items : List Json)
  | object (members : List (String × Json))

namespace Json

/-- Whole numbers keep a decimal place, powers of ten from `10 ^ 16` and below `10 ^ -5` are written
with an exponent, and a number that JSON cannot express is written as null. -/
def numberFormat : Decimal.Format where
  tie := .even
  positional e := -5 ≤ e && e ≤ 15
  wholePlace := true
  nan := "null"
  infinite _ := "null"

def hexDigit (n : Nat) : Char :=
  if n < 10 then Char.ofNat (48 + n) else Char.ofNat (87 + n)

/-- Quotation marks, backslashes and the controls below the space are escaped, nothing else is. -/
def escapeChar (c : Char) : List Char :=
  if c = '"' then ['\\', '"']
  else if c = '\\' then ['\\', '\\']
  else if c = '\n' then ['\\', 'n']
  else if c = '\r' then ['\\', 'r']
  else if c = '\t' then ['\\', 't']
  else if c = '\x08' then ['\\', 'b']
  else if c = '\x0c' then ['\\', 'f']
  else if c.toNat < 0x20 then
    ['\\', 'u', '0', '0', hexDigit (c.toNat / 16), hexDigit (c.toNat % 16)]
  else [c]

def quote (text : String) : List Char :=
  '"' :: text.toList.flatMap escapeChar ++ ['"']

mutual

def compactChars : Json → List Char
  | .null => ['n', 'u', 'l', 'l']
  | .bool true => ['t', 'r', 'u', 'e']
  | .bool false => ['f', 'a', 'l', 's', 'e']
  | .int n => Decimal.intDigits n
  | .double x => (numberFormat.render x).toList
  | .string text => quote text
  | .list items => '[' :: compactItems items ++ [']']
  | .object members => '\x7b' :: compactMembers members ++ ['\x7d']

def compactItems : List Json → List Char
  | [] => []
  | [item] => compactChars item
  | item :: rest => compactChars item ++ ',' :: compactItems rest

def compactMembers : List (String × Json) → List Char
  | [] => []
  | [(name, value)] => quote name ++ ':' :: compactChars value
  | (name, value) :: rest => quote name ++ ':' :: compactChars value ++ ',' :: compactMembers rest

end

def compact (document : Json) : String :=
  String.ofList document.compactChars

/-- A line break and the indentation of a level. -/
def lineAt (level : Nat) : List Char :=
  '\n' :: List.replicate (2 * level) ' '

mutual

def prettyChars (level : Nat) : Json → List Char
  | .null => ['n', 'u', 'l', 'l']
  | .bool true => ['t', 'r', 'u', 'e']
  | .bool false => ['f', 'a', 'l', 's', 'e']
  | .int n => Decimal.intDigits n
  | .double x => (numberFormat.render x).toList
  | .string text => quote text
  | .list [] => ['[', ']']
  | .list (item :: rest) =>
    '[' :: lineAt (level + 1) ++ prettyChars (level + 1) item ++ prettyItems (level + 1) rest ++
      lineAt level ++ [']']
  | .object [] => ['\x7b', '\x7d']
  | .object ((name, value) :: rest) =>
    '\x7b' :: lineAt (level + 1) ++ quote name ++ [':', ' '] ++ prettyChars (level + 1) value ++
      prettyMembers (level + 1) rest ++ lineAt level ++ ['\x7d']

/-- The items after the first one, each after a comma on a line of its own. -/
def prettyItems (level : Nat) : List Json → List Char
  | [] => []
  | item :: rest => ',' :: lineAt level ++ prettyChars level item ++ prettyItems level rest

def prettyMembers (level : Nat) : List (String × Json) → List Char
  | [] => []
  | (name, value) :: rest =>
    ',' :: lineAt level ++ quote name ++ [':', ' '] ++ prettyChars level value ++
      prettyMembers level rest

end

def pretty (document : Json) : String :=
  String.ofList (document.prettyChars 0)

end Json

end Colloquy
