import RlxFw.Prelude
import Mathlib.Data.Nat.Bitwise
import Mathlib.Tactic.Linarith

/-!
# Masks that are prefixes

A mask of a network is a run of ones over `host` zeros.  Under such a mask an
address is cut down to a multiple of `2 ^ host`, so that a subnet is an interval
and what is between two of its addresses is in it.
-/

namespace RlxFw.Netmask

/-- The mask leaves `host` bits to the hosts. -/
structure IsMask (m : UInt32) (host : Nat) : Prop where
  host_le : host ≤ 32
  hosts : (~~~m).toNat = 2 ^ host - 1

/-- The first address of the subnet of `a`. -/
def net (a m : UInt32) : UInt32 := a &&& m

/-- The last address of the subnet of `a`. -/
def bcast (a m : UInt32) : UInt32 := a &&& m ||| ~~~m

/-- An address that a host may have on the subnet of `a`. -/
structure IsHost (a m x : UInt32) : Prop where
  inside : x &&& m = a &&& m
  ne_net : x ≠ net a m
  ne_bcast : x ≠ bcast a m

/-- The test by which the low ones of a word are told. -/
theorem exists_isMask {m : UInt32} (filled : ~~~m &&& (~~~m + 1) = 0) :
    ∃ host, IsMask m host := by
  have small : (~~~m).toNat < 2 ^ 32 := (~~~m).toNat_lt
  rcases Nat.lt_or_ge ((~~~m).toNat + 1) (2 ^ 32) with fits | whole
  · have next : (~~~m + 1).toNat = (~~~m).toNat + 1 := by
      rw [UInt32.toNat_add, Nat.mod_eq_of_lt (by simpa using fits)]
      rfl
    have zero : ((~~~m).toNat + 1) &&& ((~~~m).toNat + 1 - 1) = 0 := by
      rw [← next, Nat.and_comm, next, Nat.add_sub_cancel, ← next,
        ← UInt32.toNat_and, filled]
      rfl
    obtain ⟨host, power⟩ :=
      (Nat.and_sub_one_eq_zero_iff_isPowerOfTwo (Nat.succ_ne_zero _)).mp zero
    refine ⟨host, ?_, by omega⟩
    by_contra wide
    have grows : 2 ^ 32 ≤ 2 ^ host := Nat.pow_le_pow_right (by omega) (by omega)
    omega
  · exact ⟨32, le_refl _, by omega⟩

section Masked

variable {m : UInt32} {host : Nat}

theorem IsMask.toNat_and (mask : IsMask m host) (a : UInt32) :
    (a &&& m).toNat = a.toNat / 2 ^ host * 2 ^ host := by
  have bit (i : Nat) : m.toNat.testBit i = (decide (i < 32) && decide (host ≤ i)) := by
    have flipped : (~~~m).toNat.testBit i = decide (i < host) := by
      rw [mask.hosts, Nat.testBit_two_pow_sub_one]
    rw [← UInt32.toNat_toBitVec, BitVec.testBit_toNat] at flipped ⊢
    rw [UInt32.toBitVec_not, BitVec.getLsbD_not] at flipped
    by_cases inside : i < 32
    · simp only [inside, decide_true, Bool.true_and] at flipped ⊢
      rw [← Bool.not_not (m.toBitVec.getLsbD i), flipped, ← decide_not]
      simp
    · simp [inside, BitVec.getLsbD_of_ge m.toBitVec i (by omega)]
  apply Nat.eq_of_testBit_eq
  intro i
  rw [UInt32.toNat_and, Nat.testBit_and, bit, Nat.testBit_mul_two_pow,
    Nat.testBit_div_two_pow]
  by_cases low : host ≤ i
  · by_cases inside : i < 32
    · simp [low, inside]
    · have gone : a.toNat.testBit i = false :=
        Nat.testBit_lt_two_pow (lt_of_lt_of_le a.toNat_lt
          (Nat.pow_le_pow_right (by omega) (by omega)))
      simp [low, inside, gone]
  · simp [low]

theorem IsMask.toNat_bcast (mask : IsMask m host) (a : UInt32) :
    (bcast a m).toNat = (net a m).toNat + (2 ^ host - 1) := by
  have fits : 2 ^ host - 1 < 2 ^ host := Nat.sub_one_lt (Nat.two_pow_pos host).ne'
  unfold bcast net
  rw [UInt32.toNat_or, mask.hosts, mask.toNat_and, Nat.mul_comm,
    Nat.two_pow_add_eq_or_of_lt fits]

/-- What is between two addresses of a subnet is in it. -/
theorem IsMask.and_of_between (mask : IsMask m host) {first last x : UInt32}
    (same : first &&& m = last &&& m) (low : first ≤ x) (high : x ≤ last) :
    x &&& m = first &&& m := by
  have ends : first.toNat / 2 ^ host = last.toNat / 2 ^ host := by
    have heads := congrArg UInt32.toNat same
    rw [mask.toNat_and, mask.toNat_and] at heads
    exact Nat.eq_of_mul_eq_mul_right (Nat.two_pow_pos host) heads
  have above : first.toNat / 2 ^ host ≤ x.toNat / 2 ^ host :=
    Nat.div_le_div_right (UInt32.le_iff_toNat_le.mp low)
  have below : x.toNat / 2 ^ host ≤ last.toNat / 2 ^ host :=
    Nat.div_le_div_right (UInt32.le_iff_toNat_le.mp high)
  apply UInt32.toNat_inj.mp
  rw [mask.toNat_and, mask.toNat_and, show x.toNat / 2 ^ host = first.toNat / 2 ^ host
    by omega]

theorem IsMask.net_le (mask : IsMask m host) (a : UInt32) : net a m ≤ a := by
  rw [UInt32.le_iff_toNat_le, net, mask.toNat_and]
  exact Nat.div_mul_le_self _ _

theorem IsMask.le_bcast (mask : IsMask m host) (a : UInt32) : a ≤ bcast a m := by
  have split := Nat.div_add_mod' a.toNat (2 ^ host)
  have rest := Nat.mod_lt a.toNat (Nat.two_pow_pos host)
  rw [UInt32.le_iff_toNat_le, mask.toNat_bcast, net, mask.toNat_and]
  omega

/-- Two hosts of a subnet have only hosts between them. -/
theorem IsMask.isHost_of_between (mask : IsMask m host) {a first last x : UInt32}
    (lower : IsHost a m first) (upper : IsHost a m last) (low : first ≤ x)
    (high : x ≤ last) : IsHost a m x := by
  have inside : x &&& m = a &&& m :=
    (mask.and_of_between (lower.inside.trans upper.inside.symm) low high).trans
      lower.inside
  have netLe : net a m ≤ first := by
    have below := mask.net_le first
    rwa [net, lower.inside] at below
  have leBcast : last ≤ bcast a m := by
    have above := mask.le_bcast last
    rwa [bcast, upper.inside] at above
  refine ⟨inside, ?_, ?_⟩
  · rintro rfl
    exact lower.ne_net (UInt32.le_antisymm low netLe)
  · rintro rfl
    exact upper.ne_bcast (UInt32.le_antisymm leBcast high)

end Masked

end RlxFw.Netmask
