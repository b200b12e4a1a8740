import RlxFw.Prelude
import Mathlib.Order.Interval.Set.Basic
import Mathlib.Data.Nat.Bitwise

/-!
# The SPI write policy

`rtl819x-spi-wrpolicy.h`: what an arm permits, and the checks that stand before
every erase and every program.  A `u32` is a natural number; every sum below is
taken after the check that keeps it inside the chip.
-/

namespace RlxFw.WrPolicy

/-- `RLXFW_SPI_WR_CHIP`. -/
def chip : Nat := 0x00400000
/-- `RLXFW_SPI_WR_ERASE_GRAIN`. -/
def eraseGrain : Nat := 0x00001000
/-- `RLXFW_SPI_WR_PAGE`. -/
def page : Nat := 0x100
/-- `RLXFW_SPI_WR_NEVER_LO`. -/
def neverLo : Nat := 0x00000000
/-- `RLXFW_SPI_WR_NEVER_HI`. -/
def neverHi : Nat := 0x00008000

/-- `RLXFW_SPI_WR_OK` and the refusals. -/
inductive Reason where
  | ok
  | forbidden
  | range
  | unarmed
  | outside
  | budget
  | misaligned
  | badLen
  | pageCross
  | geom
deriving DecidableEq, Repr

/-- `struct rlxfw_spi_wr_arm`. -/
structure Arm where
  armed : Bool
  lo : Nat
  hi : Nat
  budget : Nat
deriving DecidableEq, Repr

/-- `rlxfw_spi_wr_overlaps_never`. -/
def overlapsNever (lo hi : Nat) : Bool :=
  decide (lo < neverHi) && decide (hi > neverLo)

/-- `rlxfw_spi_wr_in_chip`. -/
def inChip (addr len : Nat) : Bool :=
  if len = 0 then false
  else if addr ≥ chip then false
  else decide (len ≤ chip - addr)

/-- `rlxfw_spi_wr_chk_arm_state`. -/
def chkArmState (a : Arm) (lo hi : Nat) : Reason :=
  if ¬ a.armed then .unarmed
  else if lo < a.lo ∨ hi > a.hi then .outside
  else if a.budget < hi - lo then .budget
  else .ok

/-- `rlxfw_spi_wr_chk_prog`. -/
def chkProg (a : Arm) (addr len : Nat) : Reason :=
  if ¬ inChip addr len then
    if addr < neverHi then .forbidden else .range
  else if overlapsNever addr (addr + len) then .forbidden
  else if len > page then .badLen
  else if (addr &&& (page - 1)) + len > page then .pageCross
  else chkArmState a addr (addr + len)

/-- `rlxfw_spi_wr_chk_erase`. -/
def chkErase (a : Arm) (addr len grain mtdErasesize : Nat) : Reason :=
  if grain = 0 ∨ grain &&& (grain - 1) ≠ 0 ∨ grain < page ∨ grain > chip then
    .geom
  else if grain ≠ mtdErasesize then .geom
  else
    let blkLo := addr - (addr &&& (grain - 1))
    if ¬ inChip blkLo len then
      if blkLo < neverHi then .forbidden else .range
    else
      let blkHi := blkLo + len
      if overlapsNever blkLo blkHi then .forbidden
      else if addr ≠ blkLo then .misaligned
      else if len &&& (grain - 1) ≠ 0 then .badLen
      else chkArmState a blkLo blkHi

/-- `rlxfw_spi_wr_chk_arm`. -/
def chkArm (lo hi budget : Nat) : Reason :=
  if hi ≤ lo then .range
  else if hi > chip then .range
  else if budget = 0 ∨ budget > hi - lo then .budget
  else if overlapsNever lo hi then .forbidden
  else .ok

theorem chkArmState_eq_ok_iff (a : Arm) (lo hi : Nat) :
    chkArmState a lo hi = .ok ↔
      a.armed = true ∧ a.lo ≤ lo ∧ hi ≤ a.hi ∧ hi - lo ≤ a.budget := by
  unfold chkArmState
  split_ifs <;> simp_all <;> omega

theorem inChip_eq_true_iff (addr len : Nat) :
    inChip addr len = true ↔ 0 < len ∧ addr + len ≤ chip := by
  unfold inChip chip
  split_ifs <;> simp <;> omega

/-- A program the policy accepts is one page's bytes at most, inside the armed
window, the budget and the chip, clear of the forbidden range. -/
theorem chkProg_eq_ok_iff (a : Arm) (addr len : Nat) :
    chkProg a addr len = .ok ↔
      0 < len ∧ addr + len ≤ chip ∧ neverHi ≤ addr ∧
        addr % page + len ≤ page ∧
        a.armed = true ∧ a.lo ≤ addr ∧ addr + len ≤ a.hi ∧
        len ≤ a.budget := by
  have masked : addr &&& (page - 1) = addr % page :=
    Nat.and_two_pow_sub_one_eq_mod addr 8
  have clear : overlapsNever addr (addr + len) = true ↔
      addr < neverHi ∧ 0 < addr + len := by
    simp [overlapsNever, neverLo]
  have inside := inChip_eq_true_iff addr len
  have state := chkArmState_eq_ok_iff a addr (addr + len)
  have span : addr + len - addr = len := Nat.add_sub_cancel_left addr len
  rw [span] at state
  unfold chkProg
  rw [masked]
  split_ifs <;> simp_all <;> omega

/-- An erase at the driver's grain that the policy accepts is whole grains, in
the same bounds. -/
theorem chkErase_eq_ok_iff (a : Arm) (addr len : Nat) :
    chkErase a addr len eraseGrain eraseGrain = .ok ↔
      0 < len ∧ addr + len ≤ chip ∧ neverHi ≤ addr ∧
        addr % eraseGrain = 0 ∧ len % eraseGrain = 0 ∧
        a.armed = true ∧ a.lo ≤ addr ∧ addr + len ≤ a.hi ∧
        len ≤ a.budget := by
  have masked (x : Nat) : x &&& (eraseGrain - 1) = x % eraseGrain :=
    Nat.and_two_pow_sub_one_eq_mod x 12
  have geometry : ¬ (eraseGrain = 0 ∨ eraseGrain &&& (eraseGrain - 1) ≠ 0 ∨
      eraseGrain < page ∨ eraseGrain > chip) := by
    decide
  have aligned : addr = addr - addr % eraseGrain ↔ addr % eraseGrain = 0 := by
    have := Nat.mod_le addr eraseGrain
    omega
  unfold chkErase
  rw [if_neg geometry, if_neg (by simp)]
  simp only [masked]
  by_cases grained : addr % eraseGrain = 0
  · have clear : overlapsNever addr (addr + len) = true ↔
        addr < neverHi ∧ 0 < addr + len := by
      simp [overlapsNever, neverLo]
    have inside := inChip_eq_true_iff addr len
    have state := chkArmState_eq_ok_iff a addr (addr + len)
    have span : addr + len - addr = len := Nat.add_sub_cancel_left addr len
    rw [span] at state
    rw [grained, Nat.sub_zero]
    split_ifs <;> simp_all
    omega
  · have moved : addr ≠ addr - addr % eraseGrain :=
      fun same => grained (aligned.mp same)
    split_ifs <;> simp_all

end RlxFw.WrPolicy
