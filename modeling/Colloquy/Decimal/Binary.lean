/-!
Double precision numbers as exact binary fractions: taking one apart, the double nearest to a
ratio, and the remainder of a division.
-/

set_option autoImplicit false

namespace Colloquy.Decimal

/-- `base ^ n`. -/
def power (base n : Nat) : Nat :=
  Nat.pow base n

/-- The bit of the sign, as a number. -/
def signBit : Nat := 0x8000000000000000

/-- The least mantissa that fills all its bits, and the number of values of the fraction field. -/
def fullMantissa : Nat := 0x10000000000000

/-- The absolute value `mantissa * 2 ^ exponent` of a finite number. -/
structure Dyadic where
  mantissa : Nat
  exponent : Int
  deriving DecidableEq

inductive Unpacked where
  | nan
  | infinite (negative : Bool)
  | finite (negative : Bool) (size : Dyadic)
  deriving DecidableEq

/-- The binary fraction that the bits of a double stand for. -/
def unpack (x : Float) : Unpacked :=
  let bits := x.toBits.toNat
  let negative := decide (signBit ≤ bits)
  let exponent : Nat := bits / fullMantissa % 2048
  let fraction := bits % fullMantissa
  if exponent = 2047 then
    if fraction = 0 then .infinite negative else .nan
  else if exponent = 0 then .finite negative ⟨fraction, -1074⟩
  else .finite negative ⟨fullMantissa + fraction, (exponent : Int) - 1075⟩

def infiniteBits : Nat := 0x7FF0000000000000

/-- The bits of the double nearest to `num / den`, a half going to the even neighbour. In the units
of the last place the rounded quotient is below `2 ^ 53`, or equal to it; added to the exponent
field it then carries into the next exponent by itself. -/
def nearestBits (num den : Nat) : Nat :=
  if num = 0 then 0
  else
    let estimate : Int := (num.log2 : Int) - (den.log2 : Int) - 52
    let quotient (exponent : Int) : Nat × Nat × Nat :=
      let n := num * power 2 (-exponent).toNat
      let d := den * power 2 exponent.toNat
      (n / d, n % d, d)
    let fits : Int := if (quotient estimate).1 < fullMantissa then estimate - 1 else estimate
    let exponent : Int := max fits (-1074)
    let (whole, rest, unit) := quotient exponent
    let up := 2 * rest > unit || (2 * rest = unit && whole % 2 = 1)
    min infiniteBits ((exponent + 1074).toNat * fullMantissa + (if up then whole + 1 else whole))

def pack (negative : Bool) (num den : Nat) : Float :=
  Float.ofBits (UInt64.ofNat (nearestBits num den + if negative then signBit else 0))

/-- The double nearest to `digits * 10 ^ exponent`. -/
def nearest (negative : Bool) (digits : Nat) (exponent : Int) : Float :=
  pack negative (digits * power 10 exponent.toNat) (power 10 (-exponent).toNat)

def notANumber : Float :=
  Float.ofBits 0x7FF8000000000000

/-- The remainder of `x` by `y` with the sign of `x`, which a double always holds exactly. -/
def remainder (x y : Float) : Float :=
  match unpack x, unpack y with
  | .finite negative a, .finite _ b =>
    if b.mantissa = 0 then notANumber
    else
      let exponent := min a.exponent b.exponent
      let rest := (a.mantissa * power 2 (a.exponent - exponent).toNat) %
        (b.mantissa * power 2 (b.exponent - exponent).toNat)
      pack negative (rest * power 2 exponent.toNat) (power 2 (-exponent).toNat)
  | .finite _ _, .infinite _ => x
  | _, _ => notANumber

end Colloquy.Decimal
