import Colloquy.Session.Key
import Mathlib.Data.List.Nodup

set_option autoImplicit false

/-!
Generated keys are told apart by their numbers. A key can be read back: the zeros in front of its
digits add nothing to their value, whether the digits need them or are more than eight already. So a
key comes back only when the numbers have started over.
-/

namespace Colloquy.Key

/-- The value of a hexadecimal digit in lower case. -/
def hexValue (c : Char) : Nat :=
  if c.isDigit then c.toNat - '0'.toNat else c.toNat - 'a'.toNat + 10

/-- The number that hexadecimal digits stand for. -/
def hexNumber (digits : List Char) : Nat :=
  digits.foldl (fun n c => 16 * n + hexValue c) 0

theorem hexValue_digitChar {n : Nat} (isDigit : n < 16) : hexValue n.digitChar = n := by
  have all : ∀ n < 16, hexValue n.digitChar = n := by decide
  exact all n isDigit

theorem hexNumber_toDigits (n : Nat) : hexNumber (Nat.toDigits 16 n) = n := by
  induction n using Nat.strongRecOn with
  | ind n inductionHypothesis =>
    rw [Nat.toDigits_eq_if (by decide)]
    split
    case isTrue oneDigit => simp [hexNumber, hexValue_digitChar oneDigit]
    case isFalse moreDigits =>
      have front := inductionHypothesis (n / 16) (by omega)
      have last := hexValue_digitChar (Nat.mod_lt n (by decide : 0 < 16))
      rw [hexNumber] at front
      rw [hexNumber, List.foldl_append, front, List.foldl_cons, List.foldl_nil, last]
      exact Nat.div_add_mod n 16

theorem hexNumber_pad (width : Nat) (digits : List Char) :
    hexNumber (pad width digits) = hexNumber digits := by
  have zeros (count : Nat) : hexNumber (List.replicate count '0') = 0 := by
    induction count with
    | zero => rfl
    | succ count inductionHypothesis => exact inductionHypothesis
  have noValue := zeros (width - digits.length)
  rw [hexNumber] at noValue
  rw [pad, hexNumber, List.foldl_append, noValue, hexNumber]

/-- Padded short numbers and long ones never coincide. -/
theorem generated_injective : Function.Injective generated := by
  intro n m same
  have digits : pad 8 (Nat.toDigits 16 n.toNat) = pad 8 (Nat.toDigits 16 m.toNat) :=
    List.append_cancel_left (String.ofList_injective (congrArg Key.text same))
  apply UInt64.toNat_inj.mp
  calc n.toNat = hexNumber (pad 8 (Nat.toDigits 16 n.toNat)) := by
        rw [hexNumber_pad, hexNumber_toDigits]
    _ = hexNumber (pad 8 (Nat.toDigits 16 m.toNat)) := by rw [digits]
    _ = m.toNat := by rw [hexNumber_pad, hexNumber_toDigits]

theorem generated_ne_default (n : UInt64) : generated n ≠ default := by
  intro same
  have text : "sess-".toList ++ pad 8 (Nat.toDigits 16 n.toNat) = "default".toList := by
    calc _ = (generated n).text.toList := String.toList_ofList.symm
      _ = default.text.toList := by rw [same]
  cases (List.cons.inj text).1

namespace Supply

/-- The keys in a row are those of consecutive numbers. -/
theorem generateMany_eq_map (count : Nat) (supply : Supply) :
    generateMany count supply =
      (List.range count).map fun i => generated (supply.next + UInt64.ofNat i) := by
  induction count generalizing supply with
  | zero => rfl
  | succ count inductionHypothesis =>
    rw [generateMany, inductionHypothesis, List.range_succ_eq_map, List.map_cons, List.map_map]
    refine congrArg₂ List.cons ?_ (List.map_congr_left fun i _ => ?_)
    · exact congrArg generated (UInt64.add_zero supply.next).symm
    · have oneMore : UInt64.ofNat (i + 1) = 1 + UInt64.ofNat i := by
        rw [Nat.add_comm, UInt64.ofNat_add]
        rfl
      change generated (supply.next + 1 + UInt64.ofNat i) =
        generated (supply.next + UInt64.ofNat (i + 1))
      rw [oneMore, UInt64.add_assoc]

theorem ofNat_injective_below {i j : Nat} (small : i < UInt64.size) (smallToo : j < UInt64.size)
    (same : UInt64.ofNat i = UInt64.ofNat j) : i = j := by
  have numbers := congrArg UInt64.toNat same
  rwa [UInt64.toNat_ofNat_of_lt' small, UInt64.toNat_ofNat_of_lt' smallToo] at numbers

/-- Keys in a row are pairwise different exactly as long as there are not more of them than numbers,
from whatever number they start. None of them is the default key. -/
theorem generateMany_unique (count : Nat) (supply : Supply) :
    (generateMany count supply).length = count ∧
    ((generateMany count supply).Nodup ↔ count ≤ UInt64.size) ∧
    Key.default ∉ generateMany count supply := by
  rw [generateMany_eq_map]
  refine ⟨by simp, ⟨?_, ?_⟩, ?_⟩
  · intro different
    by_contra many
    -- The number to start from has come round again.
    have again : generated (supply.next + UInt64.ofNat 0) =
        generated (supply.next + UInt64.ofNat UInt64.size) := rfl
    have first : 0 ∈ List.range count := List.mem_range.mpr (by omega)
    have later : UInt64.size ∈ List.range count := List.mem_range.mpr (by omega)
    cases List.inj_on_of_nodup_map different first later again
  · intro few
    refine List.Nodup.map_on ?_ List.nodup_range
    intro i early j earlyToo same
    have sums := generated_injective same
    exact ofNat_injective_below (Nat.lt_of_lt_of_le (List.mem_range.mp early) few)
      (Nat.lt_of_lt_of_le (List.mem_range.mp earlyToo) few) ((UInt64.add_right_inj _).mp sums)
  · simp [generated_ne_default]

end Supply

end Colloquy.Key
