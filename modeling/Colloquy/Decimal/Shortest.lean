import Colloquy.Decimal.Binary

/-!
The shortest decimal that reads back as a given double. On the grid of decimals with a fixed number
of digits the only candidates are the two neighbours of the exact value, so it is enough to test
these on grids of growing fineness.
-/

set_option autoImplicit false

namespace Colloquy.Decimal

/-- The decimal `digits * 10 ^ exponent`. -/
structure Scientific where
  digits : Nat
  exponent : Int
  deriving DecidableEq

/-- Where a value halfway between two candidates goes. -/
inductive Tie where
  | up
  | even

def digitCount (n : Nat) : Nat :=
  if n = 0 then 0 else (Nat.toDigits 10 n).length

/-- The `e` with `10 ^ e ≤ num / den < 10 ^ (e + 1)`. -/
def magnitude (num den : Nat) : Int :=
  if den ≤ num then (digitCount (num / den) : Int) - 1
  else -(digitCount ((den + num - 1) / num - 1) : Int)

/-- The numbers that round to `size`, as quarters of its last place: they reach half way to each
neighbour, and the neighbour below a power of two is only half as far. -/
structure Interval where
  low : Nat
  high : Nat
  closed : Bool

def interval (size : Dyadic) : Interval where
  low := if size.mantissa = fullMantissa && size.exponent > -1074 then 4 * size.mantissa - 1
    else 4 * size.mantissa - 2
  high := 4 * size.mantissa + 2
  closed := size.mantissa % 2 = 0

def Interval.contains (i : Interval) (factor value : Nat) : Bool :=
  if i.closed then i.low * factor ≤ value && value ≤ i.high * factor
  else i.low * factor < value && value < i.high * factor

def stripZeros (fuel : Nat) (s : Scientific) : Scientific :=
  match fuel with
  | 0 => s
  | fuel + 1 =>
    if s.digits % 10 = 0 && s.digits != 0 then stripZeros fuel ⟨s.digits / 10, s.exponent + 1⟩
    else s

/-- The candidate on the grid of multiples of `10 ^ unit`, if one rounds to `size`. -/
def candidate? (tie : Tie) (size : Dyadic) (unit : Int) : Option Nat :=
  let factor := power 2 size.exponent.toNat * power 10 (-unit).toNat
  let scale := 4 * power 2 (-size.exponent).toNat * power 10 unit.toNat
  let value := 4 * size.mantissa * factor
  let below := value / scale
  let rest := value % scale
  let range := interval size
  match range.contains factor (below * scale), range.contains factor ((below + 1) * scale) with
  | true, false => some below
  | false, true => some (below + 1)
  | false, false => none
  | true, true =>
    if 2 * rest < scale then some below
    else if scale < 2 * rest then some (below + 1)
    else match tie with
      | .up => some (below + 1)
      | .even => some (if below % 2 = 0 then below else below + 1)

/-- The shortest decimal that rounds to `size`, of the shortest ones the nearest. Seventeen digits
always suffice. -/
def shortest (tie : Tie) (size : Dyadic) : Scientific :=
  let top := magnitude (size.mantissa * power 2 size.exponent.toNat)
    (power 2 (-size.exponent).toNat)
  let attempt (count : Nat) : Option Scientific :=
    let unit := top - count
    (candidate? tie size unit).map fun digits => stripZeros 18 ⟨digits, unit⟩
  ((List.range 17).findSome? attempt).getD ⟨0, 0⟩

end Colloquy.Decimal
