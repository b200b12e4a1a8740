import RlxFw.WrPolicy

/-!
# The write policy in words

`rtl819x-spi-wrpolicy.h` on its `u32`s, wrapping as they do, for any arm whatever.
It decides as the policy over the natural numbers does.
-/

namespace RlxFw.WrPolicyWords

open WrPolicy (Reason)

/-- `RLXFW_SPI_WR_CHIP`. -/
def chip : UInt32 := 0x00400000
/-- `RLXFW_SPI_WR_PAGE`. -/
def page : UInt32 := 0x100
/-- `RLXFW_SPI_WR_NEVER_LO`. -/
def neverLo : UInt32 := 0x00000000
/-- `RLXFW_SPI_WR_NEVER_HI`. -/
def neverHi : UInt32 := 0x00008000

/-- `struct rlxfw_spi_wr_arm`. -/
structure Arm where
  armed : Bool
  lo : UInt32
  hi : UInt32
  budget : UInt32

/-- `rlxfw_spi_wr_overlaps_never`. -/
def overlapsNever (lo hi : UInt32) : Bool :=
  decide (lo < neverHi) && decide (hi > neverLo)

/-- `rlxfw_spi_wr_in_chip`. -/
def inChip (addr len : UInt32) : Bool :=
  if len = 0 then false
  else if addr ≥ chip then false
  else decide (len ≤ chip - addr)

/-- `rlxfw_spi_wr_chk_arm_state`. -/
def chkArmState (a : Arm) (lo hi : UInt32) : Reason :=
  if ¬ a.armed then .unarmed
  else if lo < a.lo ∨ hi > a.hi then .outside
  else if a.budget < hi - lo then .budget
  else .ok

/-- `rlxfw_spi_wr_chk_prog`. -/
def chkProg (a : Arm) (addr len : UInt32) : Reason :=
  if ¬ inChip addr len then
    if addr < neverHi then .forbidden else .range
  else if overlapsNever addr (addr + len) then .forbidden
  else if len > page then .badLen
  else if (addr &&& (page - 1)) + len > page then .pageCross
  else chkArmState a addr (addr + len)

/-- `rlxfw_spi_wr_chk_erase`. -/
def chkErase (a : Arm) (addr len grain mtdErasesize : UInt32) : Reason :=
  if grain = 0 ∨ grain &&& (grain - 1) ≠ 0 ∨ grain < page ∨ grain > chip then .geom
  else if grain ≠ mtdErasesize then .geom
  else
    let blkLo := addr &&& ~~~(grain - 1)
    if ¬ inChip blkLo len then
      if blkLo < neverHi then .forbidden else .range
    else
      let blkHi := blkLo + len
      if overlapsNever blkLo blkHi then .forbidden
      else if addr ≠ blkLo then .misaligned
      else if len &&& (grain - 1) ≠ 0 then .badLen
      else chkArmState a blkLo blkHi

/-! ## As natural numbers -/

/-- The arm as natural numbers. -/
def Arm.toNat (a : Arm) : WrPolicy.Arm where
  armed := a.armed
  lo := a.lo.toNat
  hi := a.hi.toNat
  budget := a.budget.toNat

theorem overlapsNever_toNat {lo hi : UInt32} :
    overlapsNever lo hi = WrPolicy.overlapsNever lo.toNat hi.toNat := by
  simp [overlapsNever, WrPolicy.overlapsNever, UInt32.lt_iff_toNat_lt]
  rfl

theorem inChip_toNat {addr len : UInt32} :
    inChip addr len = WrPolicy.inChip addr.toNat len.toNat := by
  unfold inChip WrPolicy.inChip
  have zero : len = 0 ↔ len.toNat = 0 := UInt32.toNat_inj.symm
  have past : addr ≥ chip ↔ addr.toNat ≥ WrPolicy.chip := UInt32.le_iff_toNat_le
  simp only [zero, past]
  split_ifs with none_ outside
  · rfl
  · rfl
  · have room : (chip - addr).toNat = WrPolicy.chip - addr.toNat := by
      apply UInt32.toNat_sub_of_le
      rw [UInt32.le_iff_toNat_le]
      exact (Nat.lt_of_not_le outside).le
    simp [UInt32.le_iff_toNat_le, room]

/-- Inside the chip, the end of a range does not wrap. -/
theorem toNat_add_of_inChip {addr len : UInt32} (inside : inChip addr len = true) :
    (addr + len).toNat = addr.toNat + len.toNat := by
  rw [inChip_toNat, WrPolicy.inChip_eq_true_iff] at inside
  have small : WrPolicy.chip < 2 ^ 32 := by decide
  rw [UInt32.toNat_add]
  exact Nat.mod_eq_of_lt (by omega)

theorem chkArmState_toNat {a : Arm} {lo len : UInt32}
    (whole : (lo + len).toNat = lo.toNat + len.toNat) :
    chkArmState a lo (lo + len) =
      WrPolicy.chkArmState a.toNat lo.toNat (lo.toNat + len.toNat) := by
  have span : lo + len - lo = len := by
    rw [UInt32.add_comm, UInt32.add_sub_cancel]
  unfold chkArmState WrPolicy.chkArmState
  rw [span, Nat.add_sub_cancel_left]
  simp only [UInt32.lt_iff_toNat_lt, gt_iff_lt, whole]
  rfl

theorem chkProg_toNat (a : Arm) (addr len : UInt32) :
    chkProg a addr len = WrPolicy.chkProg a.toNat addr.toNat len.toNat := by
  have low : addr < neverHi ↔ addr.toNat < WrPolicy.neverHi := UInt32.lt_iff_toNat_lt
  unfold chkProg WrPolicy.chkProg
  rw [← inChip_toNat]
  cases inside : inChip addr len with
  | false => simp [low]
  | true =>
      have whole := toNat_add_of_inChip inside
      have long : len > page ↔ len.toNat > WrPolicy.page := UInt32.lt_iff_toNat_lt
      rw [overlapsNever_toNat, whole, chkArmState_toNat whole]
      by_cases clear : WrPolicy.overlapsNever addr.toNat (addr.toNat + len.toNat) = true
      · simp [clear]
      by_cases tooLong : len > page
      · simp [clear, tooLong, long.mp tooLong]
      have cross : (addr &&& (page - 1)) + len > page ↔
          (addr.toNat &&& (WrPolicy.page - 1)) + len.toNat > WrPolicy.page := by
        have masked : (addr &&& (page - 1)).toNat = addr.toNat &&& (WrPolicy.page - 1) := rfl
        have below : addr.toNat &&& (WrPolicy.page - 1) ≤ WrPolicy.page - 1 := Nat.and_le_right
        have short : ¬ len.toNat > WrPolicy.page := mt long.mpr tooLong
        have sum : ((addr &&& (page - 1)) + len).toNat =
            (addr.toNat &&& (WrPolicy.page - 1)) + len.toNat := by
          rw [UInt32.toNat_add, masked]
          unfold WrPolicy.page at *
          exact Nat.mod_eq_of_lt (by omega)
        rw [← sum]
        exact UInt32.lt_iff_toNat_lt
      simp [clear, long, cross]

/-- Masking the low bits off is taking them away. -/
theorem toNat_and_not (addr mask : UInt32) :
    (addr &&& ~~~mask).toNat = addr.toNat - (addr.toNat &&& mask.toNat) := by
  have parts : (addr &&& ~~~mask) + (addr &&& mask) = addr := by
    apply UInt32.toBitVec_inj.mp
    have apart : (addr.toBitVec &&& ~~~mask.toBitVec) &&& (addr.toBitVec &&& mask.toBitVec) =
        0#32 := by
      ext i
      simp only [BitVec.getElem_and, BitVec.getElem_not, BitVec.getElem_zero]
      cases addr.toBitVec[i] <;> cases mask.toBitVec[i] <;> rfl
    have sum := BitVec.add_eq_or_of_and_eq_zero _ _ apart
    refine sum.trans ?_
    ext i
    simp only [BitVec.getElem_or, BitVec.getElem_and, BitVec.getElem_not]
    cases addr.toBitVec[i] <;> cases mask.toBitVec[i] <;> rfl
  have least : addr &&& mask ≤ addr := by
    rw [UInt32.le_iff_toNat_le, UInt32.toNat_and]
    exact Nat.and_le_left
  have masked : addr &&& ~~~mask = addr - (addr &&& mask) := by
    have cancel := UInt32.add_sub_cancel (addr &&& ~~~mask) (addr &&& mask)
    rw [parts] at cancel
    exact cancel.symm
  rw [masked, UInt32.toNat_sub_of_le _ _ least, UInt32.toNat_and]

theorem toNat_sub_one {grain : UInt32} (some : grain ≠ 0) :
    (grain - 1).toNat = grain.toNat - 1 := by
  apply UInt32.toNat_sub_of_le
  rw [UInt32.le_iff_toNat_le]
  exact Nat.one_le_iff_ne_zero.mpr fun zero => some (UInt32.toNat_inj.mp zero)

theorem chkErase_toNat (a : Arm) (addr len grain mtdErasesize : UInt32) :
    chkErase a addr len grain mtdErasesize =
      WrPolicy.chkErase a.toNat addr.toNat len.toNat grain.toNat mtdErasesize.toNat := by
  unfold chkErase WrPolicy.chkErase
  by_cases zero : grain = 0
  · simp [zero]
  have mask := toNat_sub_one zero
  have power : grain &&& (grain - 1) ≠ 0 ↔ grain.toNat &&& (grain.toNat - 1) ≠ 0 := by
    rw [← mask, ← UInt32.toNat_and]
    exact not_congr UInt32.toNat_inj.symm
  have empty : grain = 0 ↔ grain.toNat = 0 := UInt32.toNat_inj.symm
  have small : grain < page ↔ grain.toNat < WrPolicy.page := UInt32.lt_iff_toNat_lt
  have large : grain > chip ↔ grain.toNat > WrPolicy.chip := UInt32.lt_iff_toNat_lt
  have other : grain ≠ mtdErasesize ↔ grain.toNat ≠ mtdErasesize.toNat :=
    not_congr UInt32.toNat_inj.symm
  have block : (addr &&& ~~~(grain - 1)).toNat =
      addr.toNat - (addr.toNat &&& (grain.toNat - 1)) := by
    rw [toNat_and_not, mask]
  have moved : addr ≠ addr &&& ~~~(grain - 1) ↔
      addr.toNat ≠ addr.toNat - (addr.toNat &&& (grain.toNat - 1)) := by
    rw [← block]
    exact not_congr UInt32.toNat_inj.symm
  have broken : len &&& (grain - 1) ≠ 0 ↔ len.toNat &&& (grain.toNat - 1) ≠ 0 := by
    rw [← mask, ← UInt32.toNat_and]
    exact not_congr UInt32.toNat_inj.symm
  have low : addr &&& ~~~(grain - 1) < neverHi ↔
      addr.toNat - (addr.toNat &&& (grain.toNat - 1)) < WrPolicy.neverHi := by
    rw [← block]
    exact UInt32.lt_iff_toNat_lt
  simp only [empty, power, small, large, other]
  split
  · rfl
  split
  · rfl
  rw [← block] at low moved ⊢
  rw [← inChip_toNat]
  cases inside : inChip (addr &&& ~~~(grain - 1)) len with
  | false => simp [low]
  | true =>
      have whole := toNat_add_of_inChip inside
      rw [overlapsNever_toNat, chkArmState_toNat whole, whole]
      simp [moved, broken]

/-! ## What the policy lets through -/

/-- A range that the policy lets through under an arm. -/
structure Sound (a : Arm) (addr len : UInt32) : Prop where
  nonempty : 0 < len.toNat
  unwrapped : (addr + len).toNat = addr.toNat + len.toNat
  inChip : addr.toNat + len.toNat ≤ WrPolicy.chip
  armed : a.armed = true
  lower : a.lo.toNat ≤ addr.toNat
  upper : addr.toNat + len.toNat ≤ a.hi.toNat
  clear : WrPolicy.neverHi ≤ addr.toNat
  budget : len.toNat ≤ a.budget.toNat

/-- The write policy is sound for any arm and any words. -/
structure PolicySound : Prop where
  prog : ∀ (a : Arm) (addr len : UInt32), chkProg a addr len = .ok →
    Sound a addr len ∧
      addr.toNat / WrPolicy.page = (addr.toNat + len.toNat - 1) / WrPolicy.page
  erase : ∀ (a : Arm) (addr len grain mtdErasesize : UInt32),
    chkErase a addr len grain mtdErasesize = .ok →
    Sound a addr len ∧ addr.toNat % grain.toNat = 0 ∧
      (addr.toNat + len.toNat) % grain.toNat = 0
  /-- A request that touches the forbidden range, by wrapping even, is refused. -/
  touching : ∀ (a : Arm) (addr len grain mtdErasesize : UInt32),
    (∃ i < len.toNat, (addr.toNat + i) % 2 ^ 32 < WrPolicy.neverHi) →
    chkProg a addr len ≠ .ok ∧ chkErase a addr len grain mtdErasesize ≠ .ok
  /-- One that begins there is refused for that, whatever the arm. -/
  forbiddenProg : ∀ (a : Arm) (addr len : UInt32), addr.toNat < WrPolicy.neverHi →
    0 < len.toNat → chkProg a addr len = .forbidden
  forbiddenErase : ∀ (a : Arm) (addr len grain mtdErasesize : UInt32),
    addr.toNat < WrPolicy.neverHi → 0 < len.toNat →
    chkErase a addr len grain mtdErasesize = .forbidden ∨
      chkErase a addr len grain mtdErasesize = .geom

theorem unwrapped {addr len : UInt32} (inside : addr.toNat + len.toNat ≤ WrPolicy.chip) :
    (addr + len).toNat = addr.toNat + len.toNat := by
  have small : WrPolicy.chip < 2 ^ 32 := by decide
  rw [UInt32.toNat_add]
  exact Nat.mod_eq_of_lt (by omega)

theorem overlapsNever_of_low {addr len : Nat} (low : addr < WrPolicy.neverHi)
    (some : 0 < len) : WrPolicy.overlapsNever addr (addr + len) = true := by
  simp [WrPolicy.overlapsNever, low, WrPolicy.neverLo]
  omega

/-- An erase that passes is of whole blocks of its grain. -/
theorem chkErase_ok {a : WrPolicy.Arm} {addr len grain mtdErasesize : Nat}
    (accepted : WrPolicy.chkErase a addr len grain mtdErasesize = .ok) :
    addr % grain = 0 ∧ len % grain = 0 ∧ WrPolicy.inChip addr len = true ∧
      WrPolicy.overlapsNever addr (addr + len) ≠ true ∧
      WrPolicy.chkArmState a addr (addr + len) = .ok := by
  unfold WrPolicy.chkErase at accepted
  split at accepted
  · cases accepted
  next sane =>
  split at accepted
  · cases accepted
  dsimp only at accepted
  split at accepted
  · split at accepted <;> cases accepted
  next inside =>
  split at accepted
  · cases accepted
  next clear =>
  split at accepted
  · cases accepted
  next aligned =>
  split at accepted
  · cases accepted
  next whole =>
  rw [← not_not.mp aligned] at inside clear accepted
  simp only [not_or, not_not] at sane
  obtain ⟨exponent, isPower⟩ :=
    (Nat.and_sub_one_eq_zero_iff_isPowerOfTwo sane.1).mp sane.2.1
  have masked (x : Nat) : x &&& (grain - 1) = x % grain := by
    rw [isPower]
    exact Nat.and_two_pow_sub_one_eq_mod x exponent
  have start := not_not.mp aligned
  rw [masked] at start whole
  have below := Nat.mod_le addr grain
  exact ⟨by omega, not_not.mp whole, not_not.mp inside, clear, accepted⟩

theorem prog_sound {a : Arm} {addr len : UInt32} (accepted : chkProg a addr len = .ok) :
    Sound a addr len ∧
      addr.toNat / WrPolicy.page = (addr.toNat + len.toNat - 1) / WrPolicy.page := by
  rw [chkProg_toNat, WrPolicy.chkProg_eq_ok_iff] at accepted
  obtain ⟨some, inside, clear, onePage, armed, lower, upper, budget⟩ := accepted
  refine ⟨⟨some, unwrapped inside, inside, armed, lower, upper, clear, budget⟩, ?_⟩
  unfold WrPolicy.page at onePage ⊢
  omega

theorem erase_sound {a : Arm} {addr len grain mtdErasesize : UInt32}
    (accepted : chkErase a addr len grain mtdErasesize = .ok) :
    Sound a addr len ∧ addr.toNat % grain.toNat = 0 ∧
      (addr.toNat + len.toNat) % grain.toNat = 0 := by
  rw [chkErase_toNat] at accepted
  obtain ⟨aligned, whole, inside, clear, state⟩ := chkErase_ok accepted
  rw [WrPolicy.inChip_eq_true_iff] at inside
  rw [WrPolicy.chkArmState_eq_ok_iff, Nat.add_sub_cancel_left] at state
  obtain ⟨some, inside⟩ := inside
  obtain ⟨armed, lower, upper, budget⟩ := state
  have high : WrPolicy.neverHi ≤ addr.toNat :=
    Nat.le_of_not_lt fun low => clear (overlapsNever_of_low low some)
  refine ⟨⟨some, unwrapped inside, inside, armed, lower, upper, high, budget⟩, aligned, ?_⟩
  rw [Nat.add_mod, aligned, whole]
  rfl

/-- No byte of a range that is let through is in the forbidden range. -/
theorem Sound.untouched {a : Arm} {addr len : UInt32} (sound : Sound a addr len) :
    ¬ ∃ i < len.toNat, (addr.toNat + i) % 2 ^ 32 < WrPolicy.neverHi := by
  rintro ⟨i, below, low⟩
  have inside := sound.inChip
  have small : WrPolicy.chip < 2 ^ 32 := by decide
  rw [Nat.mod_eq_of_lt (by omega)] at low
  have clear := sound.clear
  omega

theorem policy_sound : PolicySound where
  prog _ _ _ := prog_sound
  erase _ _ _ _ _ := erase_sound
  touching _ _ _ _ _ touches :=
    ⟨fun accepted => (prog_sound accepted).1.untouched touches,
      fun accepted => (erase_sound accepted).1.untouched touches⟩
  forbiddenProg a addr len low some := by
    rw [chkProg_toNat]
    unfold WrPolicy.chkProg
    by_cases inside : WrPolicy.inChip addr.toNat len.toNat = true
    · rw [if_neg (not_not.mpr inside), if_pos (overlapsNever_of_low low some)]
    · rw [if_pos inside, if_pos low]
  forbiddenErase a addr len grain mtdErasesize low some := by
    have block : addr.toNat - (addr.toNat &&& (grain.toNat - 1)) < WrPolicy.neverHi :=
      (Nat.sub_le _ _).trans_lt low
    rw [chkErase_toNat]
    unfold WrPolicy.chkErase
    split
    · exact Or.inr rfl
    split
    · exact Or.inr rfl
    left
    by_cases inside : WrPolicy.inChip (addr.toNat - (addr.toNat &&& (grain.toNat - 1)))
        len.toNat = true
    · rw [if_neg (not_not.mpr inside), if_pos (overlapsNever_of_low block some)]
    · rw [if_pos inside, if_pos block]

end RlxFw.WrPolicyWords
