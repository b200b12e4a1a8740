import RlxFw.Prelude
import Mathlib.Tactic.IntervalCases

/-!
# Words as two bytes

A word of sixteen bits, put as its high byte and its low byte and read back from them.
-/

namespace RlxFw.BytePairs

theorem high_of_pair (a b : UInt8) :
    ((a.toUInt16 <<< 8 ||| b.toUInt16) >>> 8).toUInt8 = a := by
  apply UInt8.eq_of_toBitVec_eq
  ext i hi
  simp
  grind

theorem low_of_pair (a b : UInt8) :
    ((a.toUInt16 <<< 8 ||| b.toUInt16) &&& 0xFF).toUInt8 = b := by
  apply UInt8.eq_of_toBitVec_eq
  ext i hi
  simp
  interval_cases i <;> simp

theorem toNat_of_pair (a b : UInt8) :
    (a.toUInt16 <<< 8 ||| b.toUInt16).toNat = a.toNat * 2 ^ 8 + b.toNat := by
  have high := a.toNat_lt
  have low := b.toNat_lt
  rw [UInt16.toNat_or, UInt16.toNat_shiftLeft, UInt8.toNat_toUInt16, UInt8.toNat_toUInt16,
    Nat.mod_eq_of_lt (by simp [Nat.shiftLeft_eq]; omega),
    show (8 : UInt16).toNat % 16 = 8 from rfl, ← Nat.shiftLeft_add_eq_or_of_lt low,
    Nat.shiftLeft_eq]

theorem toNat_high (v : UInt16) : (v >>> 8).toUInt8.toNat = v.toNat / 2 ^ 8 := by
  have less := v.toNat_lt
  rw [UInt16.toNat_toUInt8, UInt16.toNat_shiftRight, show (8 : UInt16).toNat % 16 = 8 from rfl,
    Nat.shiftRight_eq_div_pow]
  omega

theorem toNat_low (v : UInt16) : (v &&& 0xFF).toUInt8.toNat = v.toNat % 2 ^ 8 := by
  rw [UInt16.toNat_toUInt8, UInt16.toNat_and, show (0xFF : UInt16).toNat = 2 ^ 8 - 1 from rfl,
    Nat.and_two_pow_sub_one_eq_mod, Nat.mod_mod]

/-- The bytes of a word make the word. -/
theorem pair_of_put (v : UInt16) :
    (v >>> 8).toUInt8.toUInt16 <<< 8 ||| (v &&& 0xFF).toUInt8.toUInt16 = v := by
  apply UInt16.toNat_inj.mp
  rw [toNat_of_pair, toNat_high, toNat_low]
  omega

end RlxFw.BytePairs
