import Colloquy.Decimal.Shortest

/-!
The text of a double: its shortest digits laid out by a `Format`.
-/

set_option autoImplicit false

namespace Colloquy.Decimal

structure Format where
  tie : Tie
  /-- Whether a number whose first digit stands for `10 ^ e` is written without an exponent. -/
  positional : Int → Bool
  /-- Whether a whole number is written with a decimal place. -/
  wholePlace : Bool
  nan : String
  infinite : Bool → String

def natDigits (n : Nat) : List Char :=
  Nat.toDigits 10 n

def intDigits (n : Int) : List Char :=
  match n with
  | .ofNat n => natDigits n
  | .negSucc n => '-' :: natDigits (n + 1)

/-- Positional notation: zeros fill up to the point on either side. -/
def positionalDigits (wholePlace : Bool) (s : Scientific) : List Char :=
  let digits := natDigits s.digits
  let point : Int := digits.length + s.exponent
  if point ≤ 0 then ['0', '.'] ++ List.replicate (-point).toNat '0' ++ digits
  else if (digits.length : Int) ≤ point then
    digits ++ List.replicate s.exponent.toNat '0' ++ (if wholePlace then ['.', '0'] else [])
  else digits.take point.toNat ++ ['.'] ++ digits.drop point.toNat

/-- One digit before the point, and an exponent with its sign. -/
def exponentialDigits (s : Scientific) : List Char :=
  let digits := natDigits s.digits
  let power : Int := digits.length + s.exponent - 1
  let lead :=
    match digits with
    | [] => []
    | [d] => [d]
    | d :: rest => d :: '.' :: rest
  lead ++ ['e'] ++ (if 0 ≤ power then ['+'] else []) ++ intDigits power

def Format.digits (format : Format) (size : Dyadic) : List Char :=
  if size.mantissa = 0 then (if format.wholePlace then ['0', '.', '0'] else ['0'])
  else
    let s := shortest format.tie size
    let power : Int := (natDigits s.digits).length + s.exponent - 1
    if format.positional power then positionalDigits format.wholePlace s
    else exponentialDigits s

def Format.render (format : Format) (x : Float) : String :=
  match unpack x with
  | .nan => format.nan
  | .infinite negative => format.infinite negative
  | .finite negative size =>
    String.ofList ((if negative then ['-'] else []) ++ format.digits size)

end Colloquy.Decimal
