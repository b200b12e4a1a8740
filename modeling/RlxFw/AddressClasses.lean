import RlxFw.NetUtil
import RlxFw.Netmask
import RlxFw.Schema

/-!
# Addresses and masks, told twice

The configuration store and the network code each have a test for a unicast address
and a length for a mask.  The lengths are one function; the tests differ on the
addresses that begin with a zero octet.
-/

namespace RlxFw.Netmask

/-- A word of `p` ones over zeros. -/
def prefixMask (p : Nat) : UInt32 := UInt32.ofNat (2 ^ 32 - 2 ^ (32 - p))

theorem IsMask.eq_prefixMask {m : UInt32} {host : Nat} (mask : IsMask m host) :
    m = prefixMask (32 - host) := by
  have hosts := mask.hosts
  have positive := Nat.two_pow_pos host
  have fits : 2 ^ host ≤ 2 ^ 32 := Nat.pow_le_pow_right (by decide) mask.host_le
  have small := m.toNat_lt
  rw [UInt32.toNat_not] at hosts
  apply UInt32.toNat_inj.mp
  unfold prefixMask
  rw [UInt32.toNat_ofNat', Nat.sub_sub_self mask.host_le, Nat.mod_eq_of_lt (by omega)]
  change 2 ^ 32 - 1 - m.toNat = _ at hosts
  omega

end RlxFw.Netmask

namespace RlxFw.Net

open Netmask (IsMask prefixMask)

/-! ## The length that the network code counts -/

/-- The ones that were counted, `steps` bits being left. -/
theorem leadingOnes_spec (mask : UInt32) (steps : Nat) :
    ∀ (bit : UInt32) (p : Nat), (∀ j, steps = j + 1 → bit.toNat = 2 ^ j) →
      steps ≤ 32 → ∃ n, n ≤ steps ∧ leadingOnes mask steps bit p = p + n ∧
        ∀ i, steps - n ≤ i → i < steps → mask.toNat.testBit i = true := by
  induction steps with
  | zero =>
      intro bit p _ _
      exact ⟨0, le_refl _, rfl, fun i _ lt => absurd lt (Nat.not_lt_zero i)⟩
  | succ steps ih =>
      intro bit p isBit fits
      have one : bit.toNat = 2 ^ steps := isBit steps rfl
      have tested : mask &&& bit ≠ 0 ↔ mask.toNat.testBit steps = true := by
        rw [ne_eq, ← UInt32.toNat_inj, UInt32.toNat_and, one, Nat.and_two_pow]
        cases mask.toNat.testBit steps <;> simp
      unfold leadingOnes
      split
      · next set =>
        have next (j : Nat) (left : steps = j + 1) :
            (bit >>> 1).toNat = 2 ^ j := by
          rw [UInt32.toNat_shiftRight, one, left, Nat.shiftRight_eq_div_pow]
          change 2 ^ (j + 1) / 2 ^ 1 = 2 ^ j
          rw [pow_succ, pow_one, Nat.mul_div_cancel _ (by decide)]
        obtain ⟨n, le, counted, ones⟩ := ih (bit >>> 1) (p + 1) next (by omega)
        refine ⟨n + 1, by omega, by omega, fun i low high => ?_⟩
        rcases Nat.lt_succ_iff_lt_or_eq.mp high with lower | rfl
        · exact ones i (by omega) lower
        · exact tested.mp set
      · exact ⟨0, Nat.zero_le _, rfl, fun i low high => absurd low (by omega)⟩

/-- The bits that a word has below the ones that were counted. -/
theorem testBit_below {mask : UInt32} {p : Nat} (le : p < 32)
    (zeros : mask &&& (0xFFFFFFFF >>> UInt32.ofNat p) = 0) (i : Nat) (low : i < 32 - p) :
    mask.toNat.testBit i = false := by
  have amount : (UInt32.ofNat p).toNat % 32 = p := by
    rw [UInt32.toNat_ofNat']
    omega
  have bits := congrArg (fun x : UInt32 => x.toNat.testBit i) zeros
  simp only [UInt32.toNat_and, UInt32.toNat_shiftRight, amount, Nat.testBit_and,
    Nat.testBit_shiftRight] at bits
  have full : (0xFFFFFFFF : UInt32).toNat.testBit (p + i) = true := by
    change (2 ^ 32 - 1).testBit (p + i) = true
    rw [Nat.testBit_two_pow_sub_one]
    simp only [decide_eq_true_eq]
    omega
  rw [full, Bool.and_true] at bits
  simpa using bits

/-- A mask that has a length is that many ones over zeros. -/
theorem isMask_of_nuMaskPrefix {mask : UInt32} {p : Nat} (read : nuMaskPrefix mask = .ok p) :
    p ≤ 32 ∧ IsMask mask (32 - p) := by
  obtain ⟨p, le, counted, ones⟩ := leadingOnes_spec mask 32 0x80000000 0
    (fun j left => by cases left; rfl) (le_refl _)
  rw [Nat.zero_add] at counted
  unfold nuMaskPrefix at read
  rw [counted] at read
  dsimp only at read
  split at read
  · cases read
  next zeros =>
  cases read
  refine ⟨le, Nat.sub_le _ _, ?_⟩
  have zero (i : Nat) (low : i < 32 - p) : mask.toNat.testBit i = false := by
    apply testBit_below (by omega) _ i low
    by_contra holed
    exact zeros ⟨by omega, holed⟩
  apply Nat.eq_of_testBit_eq
  intro i
  rw [Nat.testBit_two_pow_sub_one, ← UInt32.toNat_toBitVec, BitVec.testBit_toNat,
    UInt32.toBitVec_not, BitVec.getLsbD_not, ← BitVec.testBit_toNat,
    UInt32.toNat_toBitVec]
  by_cases inside : i < 32
  · by_cases host : i < 32 - p
    · simp [inside, host, zero i host]
    · simp [inside, host, ones i (by omega) inside]
  · have outside : ¬ i < 32 - p := by omega
    simp [inside, outside]

theorem nuMaskPrefix_prefixMask : ∀ p ≤ 32, nuMaskPrefix (prefixMask p) = .ok p := by
  decide

theorem nuMaskPrefix_eq_ok {m : UInt32} {p : Nat} :
    nuMaskPrefix m = .ok p ↔ p ≤ 32 ∧ m = prefixMask p := by
  constructor
  · intro read
    obtain ⟨le, mask⟩ := isMask_of_nuMaskPrefix read
    have isPrefix := mask.eq_prefixMask
    rw [Nat.sub_sub_self le] at isPrefix
    exact ⟨le, isPrefix⟩
  · rintro ⟨le, rfl⟩
    exact nuMaskPrefix_prefixMask p le

/-- The top octet of a word. -/
theorem toNat_shiftRight_24 (a : UInt32) : (a >>> 24).toNat = a.toNat / 2 ^ 24 := by
  rw [UInt32.toNat_shiftRight, Nat.shiftRight_eq_div_pow]
  rfl

theorem nuIsUnicast_eq_true {a : UInt32} :
    nuIsUnicast a = true ↔
      a.toNat ≠ 0 ∧ a.toNat / 2 ^ 24 ≠ 127 ∧ a.toNat / 2 ^ 24 < 224 := by
  have nibble : (a >>> 28).toNat = a.toNat / 2 ^ 28 := by
    rw [UInt32.toNat_shiftRight, Nat.shiftRight_eq_div_pow]
    rfl
  have zero : a = 0 ↔ a.toNat = 0 := UInt32.toNat_inj.symm
  have ones : a = 0xFFFFFFFF ↔ a.toNat = 0xFFFFFFFF := UInt32.toNat_inj.symm
  have loopback : a >>> 24 = 127 ↔ a.toNat / 2 ^ 24 = 127 := by
    rw [← toNat_shiftRight_24]
    exact UInt32.toNat_inj.symm
  have below : a >>> 28 < 0xE ↔ a.toNat / 2 ^ 28 < 14 := by
    rw [← nibble]
    exact UInt32.lt_iff_toNat_lt
  unfold nuIsUnicast
  simp only [ne_eq, zero, ones, loopback, below, Bool.and_eq_true, decide_eq_true_eq]
  omega

end RlxFw.Net

namespace RlxFw.CfgStore

open Netmask (IsMask prefixMask)
open Net (nuIsUnicast nuMaskPrefix)

/-! ## The length that the store counts -/

theorem exists_isMask_of_contiguous {m : UInt32} (contiguous : maskIsContiguous m = true) :
    ∃ host, IsMask m host := by
  apply Netmask.exists_isMask
  unfold maskIsContiguous at contiguous
  dsimp only at contiguous
  split at contiguous
  · next full =>
    rw [full]
    rfl
  · simpa using contiguous

theorem maskPrefixLen_prefixMask : ∀ p ≤ 32, maskPrefixLen (prefixMask p) = some p := by
  decide

theorem maskPrefixLen_eq_some {m : UInt32} {p : Nat} :
    maskPrefixLen m = some p ↔ p ≤ 32 ∧ m = prefixMask p := by
  constructor
  · intro read
    have contiguous : maskIsContiguous m = true := by
      by_contra holed
      unfold maskPrefixLen at read
      rw [if_neg holed] at read
      cases read
    obtain ⟨host, mask⟩ := exists_isMask_of_contiguous contiguous
    have len := maskPrefixLen_prefixMask (32 - host) (Nat.sub_le _ _)
    rw [← mask.eq_prefixMask, read] at len
    obtain rfl := Option.some.inj len
    exact ⟨Nat.sub_le _ _, mask.eq_prefixMask⟩
  · rintro ⟨le, rfl⟩
    exact maskPrefixLen_prefixMask p le

/-- The two lengths are one function. -/
theorem maskPrefixLen_eq (m : UInt32) : maskPrefixLen m = (nuMaskPrefix m).toOption := by
  ext p
  rw [maskPrefixLen_eq_some, ← Net.nuMaskPrefix_eq_ok]
  cases nuMaskPrefix m <;> simp [Except.toOption]

/-! ## The store's unicast addresses -/

theorem ipv4IsUnicast_eq_true {a : UInt32} :
    ipv4IsUnicast a = true ↔
      a.toNat / 2 ^ 24 ≠ 0 ∧ a.toNat / 2 ^ 24 ≠ 127 ∧ a.toNat / 2 ^ 24 < 224 := by
  have octet : ((a >>> 24) &&& 0xFF).toNat = a.toNat / 2 ^ 24 := by
    have small := a.toNat_lt
    rw [UInt32.toNat_and, Net.toNat_shiftRight_24]
    change a.toNat / 2 ^ 24 &&& (2 ^ 8 - 1) = _
    rw [Nat.and_two_pow_sub_one_eq_mod, Nat.mod_eq_of_lt (by omega)]
  have zero : a = 0 ↔ a.toNat = 0 := UInt32.toNat_inj.symm
  have first (n : UInt32) : (a >>> 24) &&& 0xFF = n ↔ a.toNat / 2 ^ 24 = n.toNat := by
    rw [← octet]
    exact UInt32.toNat_inj.symm
  have above : (a >>> 24) &&& 0xFF ≥ 224 ↔ a.toNat / 2 ^ 24 ≥ 224 := by
    rw [← octet]
    exact UInt32.le_iff_toNat_le
  unfold ipv4IsUnicast
  simp only [zero, first, above]
  change _ ↔ _
  split
  · next none =>
    simp [none]
  · split
    · next refused =>
      simp only [Bool.false_eq_true, false_iff]
      change _ = 0 ∨ _ = 127 ∨ _ at refused
      omega
    · next passed =>
      simp only [true_iff]
      change ¬ (_ = 0 ∨ _ = 127 ∨ _) at passed
      omega

/-- The store refuses what the network code refuses, and the addresses of the network
zero besides. -/
theorem ipv4IsUnicast_eq (a : UInt32) :
    ipv4IsUnicast a = (nuIsUnicast a && decide (a >>> 24 ≠ 0)) := by
  have octet : a >>> 24 = 0 ↔ a.toNat / 2 ^ 24 = 0 := by
    rw [← Net.toNat_shiftRight_24]
    exact UInt32.toNat_inj.symm
  rw [Bool.eq_iff_iff, ipv4IsUnicast_eq_true, Bool.and_eq_true, Net.nuIsUnicast_eq_true,
    decide_eq_true_eq, ne_eq (a >>> 24), octet]
  omega

/-! ## The two classifications -/

/-- How the store and the network code class a 32-bit word. -/
structure ClassedAlike (w : UInt32) : Prop where
  unicast : ipv4IsUnicast w = (nuIsUnicast w && decide (w >>> 24 ≠ 0))
  refused : maskPrefixLen w = none ↔ nuMaskPrefix w = .error .mask
  length (p : Nat) : maskPrefixLen w = some p ↔ nuMaskPrefix w = .ok p
  leading (p : Nat) : maskPrefixLen w = some p ↔ p ≤ 32 ∧ w = prefixMask p

/-- The masks are classed alike, and the addresses outside the network zero. -/
theorem classedAlike (w : UInt32) : ClassedAlike w where
  unicast := ipv4IsUnicast_eq w
  refused := by
    rw [maskPrefixLen_eq]
    unfold nuMaskPrefix
    dsimp only
    split <;> simp [Except.toOption]
  length p := by
    rw [maskPrefixLen_eq_some, Net.nuMaskPrefix_eq_ok]
  leading _ := maskPrefixLen_eq_some

/-- `0.1.1.1` may be leased, and may not be stored. -/
theorem unicast_differs : ¬ ∀ a, ipv4IsUnicast a = nuIsUnicast a := by
  intro same
  have one := same 0x00010101
  revert one
  decide

end RlxFw.CfgStore
