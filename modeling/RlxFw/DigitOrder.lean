import RlxFw.Prelude
import Mathlib.Data.Nat.Digits.Lemmas

/-!
# The order of numbers by their digits

Numbers are written with their low digit first, and as many digits each.  The first digit from
the top that differs decides which of two numbers is the smaller.
-/

namespace RlxFw.DigitOrder

/-- A low digit decides where the digits above it are the same. -/
theorem compare_ofDigits_cons {b v v' : Nat} (small : v < b) (small' : v' < b)
    (above above' : List Nat) :
    compare (Nat.ofDigits b (v :: above)) (Nat.ofDigits b (v' :: above')) =
      (compare (Nat.ofDigits b above) (Nat.ofDigits b above')).then (compare v v') := by
  have lower {v v' n n' : Nat} (small : v < b) (less : n < n') : v + b * n < v' + b * n' := by
    calc
      v + b * n < b + b * n := Nat.add_lt_add_right small _
      _ = b * (n + 1) := by rw [Nat.mul_succ, Nat.add_comm]
      _ ≤ b * n' := Nat.mul_le_mul_left b less
      _ ≤ v' + b * n' := Nat.le_add_left _ _
  have self (n : Nat) : compare n n = .eq := compare_eq_iff_eq.mpr rfl
  rw [Nat.ofDigits_cons, Nat.ofDigits_cons]
  generalize Nat.ofDigits b above = n
  generalize Nat.ofDigits b above' = n'
  rcases lt_trichotomy n n' with less | rfl | more
  · rw [compare_lt_iff_lt.mpr less]
    exact compare_lt_iff_lt.mpr (lower small less)
  · rw [self]
    change _ = compare v v'
    rcases lt_trichotomy v v' with less | rfl | more
    · rw [compare_lt_iff_lt.mpr less]
      exact compare_lt_iff_lt.mpr (Nat.add_lt_add_right less _)
    · rw [self, self]
    · rw [compare_gt_iff_gt.mpr more]
      exact compare_gt_iff_gt.mpr (Nat.add_lt_add_right more _)
  · rw [compare_gt_iff_gt.mpr more]
    exact compare_gt_iff_gt.mpr (lower small' more)

/-! ## Bytes -/

/-- The number that bytes write. -/
def value (s : List UInt8) : Nat := Nat.ofDigits 256 (s.map UInt8.toNat)

/-- A number in `count` bytes. -/
def bytes (count v : Nat) : List UInt8 := (Nat.digitsAppend 256 count v).map UInt8.ofNat

theorem compare_value_cons (b b' : UInt8) (above above' : List UInt8) :
    compare (value (b :: above)) (value (b' :: above')) =
      (compare (value above) (value above')).then (compare b.toNat b'.toNat) :=
  compare_ofDigits_cons b.toNat_lt b'.toNat_lt _ _

theorem value_inj {s s' : List UInt8} (same : s.length = s'.length)
    (valueEq : value s = value s') : s = s' := by
  have small (t : List UInt8) : ∀ digit ∈ t.map UInt8.toNat, digit < 256 := by
    intro digit member
    obtain ⟨b, -, rfl⟩ := List.mem_map.mp member
    exact b.toNat_lt
  have digits : s.map UInt8.toNat = s'.map UInt8.toNat :=
    Nat.ofDigits_inj_of_len_eq (by decide) (by simpa using same) (small s) (small s') valueEq
  exact List.map_injective_iff.mpr (fun _ _ => UInt8.toNat_inj.mp) digits

theorem length_bytes {count v : Nat} (fits : v < 256 ^ count) : (bytes count v).length = count := by
  rw [bytes, List.length_map, Nat.length_digitsAppend (by decide) _ fits]

theorem value_bytes (count v : Nat) : value (bytes count v) = v := by
  have kept : ((Nat.digitsAppend 256 count v).map UInt8.ofNat).map UInt8.toNat =
      Nat.digitsAppend 256 count v := by
    rw [List.map_map]
    refine (List.map_congr_left fun digit member => ?_).trans (List.map_id _)
    have small := Nat.lt_of_mem_digitsAppend (by decide) count digit member
    exact UInt8.toNat_ofNat_of_lt' small
  rw [value, bytes, kept, Nat.digitsAppend, Nat.ofDigits_append_replicate_zero,
    Nat.ofDigits_digits]

end RlxFw.DigitOrder
