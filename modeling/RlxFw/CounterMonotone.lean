import Mathlib.Data.List.Forall2
import RlxFw.Container
import RlxFw.Counter
import RlxFw.NorFlash

/-!
# The counter does not go back

Clearing bits of the bitmap, which is all that programming without an erase can do,
never lowers the counter, so a container refused as a rollback stays refused.
-/

namespace RlxFw.Counter

open Container (Env SignatureCheck rlxuVerify)
open NorFlash (Op)

/-! ## Bits that are cleared -/

/-- No bit of a bitmap is set that was not set before. -/
def Cleared (before after : List UInt8) : Prop :=
  List.Forall₂ (fun was is => is &&& was = is) before after

theorem count_le_of_forall₂ {before after : List Bool}
    (cleared : List.Forall₂ (fun was is => is ≤ was) before after) :
    before.count false ≤ after.count false := by
  induction cleared with
  | nil => exact le_refl _
  | @cons was is before after bit _ ih =>
      cases is with
      | false =>
          cases was <;> simp only [List.count_cons_self, List.count_cons, beq_iff_eq] <;> simp
            <;> omega
      | true =>
          have kept : was = true := bit rfl
          subst kept
          simpa using ih

theorem byteBits_cleared {was is : UInt8} (cleared : is &&& was = is) :
    List.Forall₂ (fun was is => is ≤ was) (byteBits was) (byteBits is) := by
  unfold byteBits
  rw [List.forall₂_map_left_iff, List.forall₂_map_right_iff, List.forall₂_same]
  intro b _ set
  have both := congrArg (fun byte : UInt8 => byte.toNat.testBit (7 - b)) cleared
  simp only [UInt8.toNat_and, Nat.testBit_and] at both
  rw [set] at both
  exact (Bool.and_eq_true_iff.mp both).2

theorem bitmapBits_cleared {before after : List UInt8} (cleared : Cleared before after) :
    List.Forall₂ (fun was is => is ≤ was) (bitmapBits before) (bitmapBits after) := by
  unfold bitmapBits
  induction cleared with
  | nil => exact List.Forall₂.nil
  | cons byte _ ih =>
      rw [List.flatMap_cons, List.flatMap_cons]
      exact List.rel_append (byteBits_cleared byte) ih

theorem counter_le_of_cleared {before after : List UInt8} (cleared : Cleared before after) :
    (rlxuCounterFromBitmap before).1 ≤ (rlxuCounterFromBitmap after).1 := by
  rw [rlxuCounterFromBitmap_fst, rlxuCounterFromBitmap_fst]
  exact count_le_of_forall₂ (bitmapBits_cleared cleared)

/-- Bits in order are their leading zeros, and then ones. -/
theorem leading_eq_count {bits : List Bool} (order : bits.Pairwise (· ≤ ·)) :
    (bits.takeWhile (!·)).length = bits.count false := by
  induction bits with
  | nil => rfl
  | cons bit bits ih =>
      obtain ⟨first, rest⟩ := List.pairwise_cons.mp order
      cases bit with
      | false => simpa using ih rest
      | true =>
          have ones : bits.count false = 0 := by
            rw [List.count_eq_zero]
            intro zero
            exact absurd (first false zero) (by decide)
          simp [ones]

/-- Programs clear bits, wherever on the part they go. -/
theorem cleared_run {blockSize : Nat} {ops : List Op} {chip : ByteMap}
    (programs : ∀ op ∈ ops, ∃ address length source, op = .program address length source)
    (base : Nat) (count : Nat) :
    Cleared (chip.slice base count) ((NorFlash.run blockSize ops chip).slice base count) := by
  have byte (offset : Nat) :
      NorFlash.run blockSize ops chip offset &&& chip offset =
        NorFlash.run blockSize ops chip offset := by
    induction ops using List.reverseRecOn with
    | nil => simp
    | append_singleton ops op ih =>
        have before := ih fun other member => programs other (List.mem_append_left _ member)
        obtain ⟨address, length, source, rfl⟩ := programs op (by simp)
        rw [NorFlash.run_snoc]
        unfold Op.apply
        dsimp only
        split
        · rw [UInt8.and_assoc, UInt8.and_comm _ (chip offset), ← UInt8.and_assoc, before]
        · exact before
  unfold Cleared ByteMap.slice
  rw [List.forall₂_map_left_iff, List.forall₂_map_right_iff, List.forall₂_same]
  exact fun i _ => byte _

/-! ## A rollback stays one -/

open Container (Rlxu Reason Stage verifyTrusted)

theorem guard_of_rollback {r next next' : Rlxu} {stage : Stage} {fault : Option Reason}
    (refused : (r.guard stage fault next).reason = .rollback)
    (same : next.reason = .rollback → next' = next) :
    r.guard stage fault next' = r.guard stage fault next := by
  cases fault with
  | none => exact same refused
  | some reason => rfl

/-- A higher counter changes nothing of a verdict that is a rollback. -/
theorem rlxuVerify_of_rollback {ed25519 : SignatureCheck} {c : ByteMap} {avail : Nat}
    {e : Env} {counter : Nat} (higher : e.counter ≤ counter)
    (refused : (rlxuVerify ed25519 c avail e).reason = .rollback) :
    rlxuVerify ed25519 c avail { e with counter := counter } =
      rlxuVerify ed25519 c avail e := by
  have trusted {r : Rlxu} (refused : (verifyTrusted ed25519 c e r).reason = .rollback) :
      verifyTrusted ed25519 c { e with counter := counter } r =
        verifyTrusted ed25519 c e r := by
    unfold verifyTrusted at refused ⊢
    dsimp only at refused ⊢
    split
    · rfl
    next signed =>
      rw [if_neg signed] at refused
      split
      · rfl
      next hashed =>
        rw [if_neg hashed] at refused
        split at refused
        next old =>
          rw [if_pos old, if_pos (lt_of_lt_of_le old higher)]
        · cases refused
  unfold rlxuVerify at refused ⊢
  split
  · rfl
  next long =>
    rw [if_neg long] at refused
    exact guard_of_rollback refused fun refused =>
      guard_of_rollback refused fun refused =>
      guard_of_rollback refused fun refused =>
      guard_of_rollback refused trusted

/-- The anti-rollback counter is a count that only grows. -/
structure MonotoneCount : Prop where
  total : ∀ bm : List UInt8, bm.length = ctrBytes →
    (rlxuCounterFromBitmap bm).1 = (bitmapBits bm).count false
  /-- A bitmap that is well formed is counted by its leading zeros. -/
  leading : ∀ bm : List UInt8, bm.length = ctrBytes → (rlxuCounterFromBitmap bm).2 = false →
    (rlxuCounterFromBitmap bm).1 = ((bitmapBits bm).takeWhile (!·)).length
  wellFormed : ∀ bm : List UInt8, bm.length = ctrBytes →
    ((rlxuCounterFromBitmap bm).2 = false ↔ (bitmapBits bm).Pairwise (· ≤ ·))
  cleared : ∀ before after : List UInt8, before.length = ctrBytes → Cleared before after →
    (rlxuCounterFromBitmap before).1 ≤ (rlxuCounterFromBitmap after).1
  /-- Programs without an erase clear bits of the bitmap, and set none. -/
  programmed : ∀ (blockSize : Nat) (ops : List Op) (chip : ByteMap) (base : Nat),
    (∀ op ∈ ops, ∃ address length source, op = .program address length source) →
    Cleared (chip.slice base ctrBytes) ((NorFlash.run blockSize ops chip).slice base ctrBytes)
  /-- A container that was refused as a rollback stays refused. -/
  rollback : ∀ (ed25519 : SignatureCheck) (c : ByteMap) (avail : Nat) (e : Env)
    (before after : List UInt8), before.length = ctrBytes → Cleared before after →
    (rlxuVerify ed25519 c avail
      { e with counter := (rlxuCounterFromBitmap before).1 }).reason = .rollback →
    (rlxuVerify ed25519 c avail
      { e with counter := (rlxuCounterFromBitmap after).1 }).reason = .rollback

theorem monotone_count : MonotoneCount where
  total bm _ := rlxuCounterFromBitmap_fst bm
  leading bm _ whole := by
    rw [rlxuCounterFromBitmap_fst]
    exact (leading_eq_count ((rlxuCounterFromBitmap_snd bm).mp whole)).symm
  wellFormed bm _ := rlxuCounterFromBitmap_snd bm
  cleared _ _ _ cleared := counter_le_of_cleared cleared
  programmed _ _ _ base programs := cleared_run programs base ctrBytes
  rollback ed25519 c avail e before after _ cleared refused := by
    have higher := counter_le_of_cleared cleared
    have same := rlxuVerify_of_rollback
      (e := { e with counter := (rlxuCounterFromBitmap before).1 }) higher refused
    rw [same]
    exact refused

end RlxFw.Counter
