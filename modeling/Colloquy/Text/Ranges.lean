/-!
Sets of characters given by inclusive ranges of code points.
-/

set_option autoImplicit false

namespace Colloquy.Text

/-- Inclusive ranges of code points, in ascending order. -/
abbrev Ranges := List (Nat × Nat)

def Ranges.contains (ranges : Ranges) (c : Char) : Bool :=
  ranges.any fun range => range.1 ≤ c.toNat && c.toNat ≤ range.2

end Colloquy.Text
