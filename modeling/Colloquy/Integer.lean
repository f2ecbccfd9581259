/-!
The integers of scripts, which have 64 bits.
-/

set_option autoImplicit false

namespace Colloquy.Integer

def least : Int := -0x8000000000000000

def greatest : Int := 0x7FFFFFFFFFFFFFFF

/-- An unbounded integer as an integer of scripts, if it is in range. -/
def ofInt? (n : Int) : Option Int64 :=
  if least ≤ n ∧ n ≤ greatest then some (Int64.ofInt n) else none

theorem toInt_of_ofInt?_eq_some {n : Int} {i : Int64} (h : ofInt? n = some i) : i.toInt = n := by
  unfold ofInt? at h
  split at h
  case isTrue range =>
    obtain ⟨low, high⟩ := range
    cases h
    apply Int64.toInt_ofInt_of_le
    · simpa [least] using low
    · simp only [greatest] at high
      omega
  case isFalse => cases h

theorem ofInt?_toInt (n : Int64) : ofInt? n.toInt = some n := by
  have low := n.le_toInt
  have high := n.toInt_lt
  rw [ofInt?, if_pos, Int64.ofInt_toInt]
  simp only [least, greatest]
  omega

end Colloquy.Integer
