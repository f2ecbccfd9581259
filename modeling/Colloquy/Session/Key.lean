/-!
The keys that name sessions.
-/

set_option autoImplicit false

namespace Colloquy

structure Key where
  text : String
  deriving DecidableEq, Repr

namespace Key

/-- The key of executions that name no session. -/
def default : Key :=
  ⟨"default"⟩

def isDefault (key : Key) : Bool :=
  key = default

def pad (width : Nat) (digits : List Char) : List Char :=
  List.replicate (width - digits.length) '0' ++ digits

/-- The key generated for a number: at least eight hexadecimal digits. -/
def generated (n : UInt64) : Key :=
  ⟨String.ofList ("sess-".toList ++ pad 8 (Nat.toDigits 16 n.toNat))⟩

/-- The source of generated keys, which counts them and starts over after the last number. -/
structure Supply where
  next : UInt64

def Supply.initial : Supply :=
  ⟨1⟩

def Supply.generate (supply : Supply) : Key × Supply :=
  (generated supply.next, ⟨supply.next + 1⟩)

/-- So many keys in a row. -/
def Supply.generateMany : Nat → Supply → List Key
  | 0, _ => []
  | n + 1, supply => supply.generate.1 :: generateMany n supply.generate.2

end Key

end Colloquy
