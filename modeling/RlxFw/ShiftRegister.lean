import RlxFw.Prelude
import Mathlib.Data.List.GetD
import Mathlib.Logic.Function.Iterate
import Mathlib.Tactic.ByContra

/-!
# Reflected shift registers

A register of `w` bits that takes a bit in at its low end, moves down, and adds its polynomial
when the bit that fell out was set.  Where the polynomial has its high bit, no step forgets
anything, and `w` steps remember the bits that were taken in.
-/

namespace RlxFw.ShiftRegister

variable {w : Nat}

/-- One step. -/
def step (poly c : BitVec w) : BitVec w :=
  if c.getLsbD 0 then (c >>> 1) ^^^ poly else c >>> 1

/-- A bit at the low end. -/
def low (w : Nat) (bit : Bool) : BitVec w := if bit then 1#w else 0#w

/-- One step that takes a bit in. -/
def feed (poly c : BitVec w) (bit : Bool) : BitVec w := step poly (c ^^^ low w bit)

/-- The register after a string of bits. -/
def run (poly c : BitVec w) (bits : List Bool) : BitVec w := bits.foldl (feed poly) c

@[simp]
theorem run_nil (poly c : BitVec w) : run poly c [] = c := rfl

@[simp]
theorem run_cons (poly c : BitVec w) (bit : Bool) (bits : List Bool) :
    run poly c (bit :: bits) = run poly (feed poly c bit) bits := rfl

theorem run_append (poly c : BitVec w) (bits bits' : List Bool) :
    run poly c (bits ++ bits') = run poly (run poly c bits) bits' :=
  List.foldl_append

theorem getLsbD_low (bit : Bool) (i : Nat) :
    (low w bit).getLsbD i = (decide (i = 0 ∧ 0 < w) && bit) := by
  cases bit
  · simp [low]
  · simp [low, BitVec.getLsbD_one, Bool.and_comm, Nat.pos_iff_ne_zero]

/-- The bits of a register after a step. -/
theorem getLsbD_step (poly c : BitVec w) (i : Nat) :
    (step poly c).getLsbD i = (c.getLsbD (1 + i) ^^ (c.getLsbD 0 && poly.getLsbD i)) := by
  unfold step
  by_cases falls : c.getLsbD 0 = true
  · rw [if_pos falls, BitVec.getLsbD_xor, BitVec.getLsbD_ushiftRight, falls, Bool.true_and]
  · rw [if_neg falls, BitVec.getLsbD_ushiftRight, Bool.not_eq_true _ |>.mp falls,
      Bool.false_and, Bool.xor_false]

/-- A step adds. -/
theorem step_xor (poly c d : BitVec w) :
    step poly (c ^^^ d) = step poly c ^^^ step poly d := by
  apply BitVec.eq_of_getLsbD_eq
  intro i _
  simp only [getLsbD_step, BitVec.getLsbD_xor]
  cases c.getLsbD 0 <;> cases d.getLsbD 0 <;> cases poly.getLsbD i <;> simp

theorem feed_xor (poly c d : BitVec w) (bit bit' : Bool) :
    feed poly c bit ^^^ feed poly d bit' = feed poly (c ^^^ d) (bit ^^ bit') := by
  unfold feed
  rw [← step_xor]
  congr 1
  apply BitVec.eq_of_getLsbD_eq
  intro i _
  simp only [BitVec.getLsbD_xor, getLsbD_low]
  cases decide (i = 0 ∧ 0 < w) <;> cases bit <;> cases bit' <;> simp

/-- A word added at once is its bits taken in one a step. -/
theorem iterate_step_xor (poly : BitVec w) (n : Nat) (c v : BitVec w)
    (small : ∀ i, n ≤ i → v.getLsbD i = false) :
    (step poly)^[n] (c ^^^ v) = run poly c ((List.range n).map v.getLsbD) := by
  induction n generalizing c v with
  | zero =>
      have zero : v = 0#w := by
        apply BitVec.eq_of_getLsbD_eq
        intro i _
        rw [small i (Nat.zero_le i), BitVec.getLsbD_zero]
      simp [zero]
  | succ n ih =>
      have first : step poly (c ^^^ v) = feed poly c (v.getLsbD 0) ^^^ (v >>> 1) := by
        apply BitVec.eq_of_getLsbD_eq
        intro i inside
        simp only [feed, getLsbD_step, BitVec.getLsbD_xor, getLsbD_low, BitVec.getLsbD_ushiftRight]
        rw [decide_eq_true (show True ∧ 0 < w from ⟨trivial, by omega⟩),
          decide_eq_false (show ¬ (1 + i = 0 ∧ 0 < w) by omega)]
        cases c.getLsbD 0 <;> cases v.getLsbD 0 <;> cases poly.getLsbD i <;> simp
      rw [Function.iterate_succ_apply, first, ih]
      · rw [List.range_succ_eq_map, List.map_cons, List.map_map, run_cons]
        congr 2
        funext i
        simp [Nat.add_comm]
      · intro i least
        rw [BitVec.getLsbD_ushiftRight]
        exact small (1 + i) (by omega)

section HighBit

variable {poly : BitVec w} (high : poly.msb = true)

include high

/-- The high bit of a step is the bit that fell out. -/
theorem msb_step (c : BitVec w) : (step poly c).getLsbD (w - 1) = c.getLsbD 0 := by
  have top : poly.getLsbD (w - 1) = true := by
    rw [← BitVec.msb_eq_getLsbD_last]
    exact high
  rw [getLsbD_step, top, BitVec.getLsbD_of_ge c (1 + (w - 1)) (by omega), Bool.false_xor,
    Bool.and_true]

/-- Registers that run together differed by the bits that they took in. -/
theorem xor_of_run_eq {bits bits' : List Bool} (same : bits.length = bits'.length)
    (short : bits.length ≤ w) {c d : BitVec w} (together : run poly c bits = run poly d bits')
    (i : Nat) (inside : i < w) :
    (c ^^^ d).getLsbD i = (bits.getD i false ^^ bits'.getD i false) := by
  induction bits generalizing bits' c d i with
  | nil =>
      cases List.eq_nil_of_length_eq_zero same.symm
      have equal : c = d := together
      simp [equal]
  | cons bit bits ih =>
      cases bits' with
      | nil => cases same
      | cons bit' bits' =>
          rw [List.length_cons] at short
          have same' : bits.length = bits'.length := Nat.succ.inj same
          have after := ih same' (by omega) together
          rw [feed_xor, feed] at after
          -- The bits run out before the high end, so nothing fell out on the way.
          have stays : ((c ^^^ d) ^^^ low w (bit ^^ bit')).getLsbD 0 = false := by
            rw [← msb_step high, after (w - 1) (by omega), List.getD_eq_default _ _ (by omega),
              List.getD_eq_default _ _ (by omega), Bool.xor_false]
          cases i with
          | zero =>
              rw [BitVec.getLsbD_xor, getLsbD_low, decide_eq_true ⟨rfl, inside⟩, Bool.true_and]
                at stays
              exact bne_eq_false_iff_eq.mp stays
          | succ i =>
              have moved := after i (by omega)
              rw [getLsbD_step, stays, Bool.false_and, Bool.xor_false, BitVec.getLsbD_xor,
                getLsbD_low, decide_eq_false (by omega), Bool.false_and, Bool.xor_false,
                Nat.add_comm] at moved
              simpa using moved

/-- No step forgets where it came from. -/
theorem run_left_injective (bits : List Bool) {c d : BitVec w}
    (together : run poly c bits = run poly d bits) : c = d := by
  induction bits generalizing c d with
  | nil => exact together
  | cons bit bits ih =>
      have first : run poly c [bit] = run poly d [bit] := ih together
      apply BitVec.eq_of_getLsbD_eq
      intro i inside
      have differ := xor_of_run_eq high rfl (show [bit].length ≤ w by simp; omega) first i inside
      rw [Bool.xor_self, BitVec.getLsbD_xor] at differ
      simpa using differ

/-- No register forgets its last `w` bits. -/
theorem run_right_injective {bits bits' : List Bool} (same : bits.length = bits'.length)
    (short : bits.length ≤ w) (c : BitVec w)
    (together : run poly c bits = run poly c bits') : bits = bits' := by
  apply List.ext_getElem same
  intro i inside inside'
  have differ := xor_of_run_eq high same short together i (by omega)
  rw [BitVec.xor_self, BitVec.getLsbD_zero, List.getD_eq_getElem _ _ inside,
    List.getD_eq_getElem _ _ inside'] at differ
  exact bne_eq_false_iff_eq.mp differ.symm

/-- Strings that differ, and only in a window of `w` bits, are told apart. -/
theorem run_ne_of_window {bits bits' : List Bool} (same : bits.length = bits'.length)
    (differ : bits ≠ bits') (start : Nat)
    (window : ∀ n, bits[n]? ≠ bits'[n]? → start ≤ n ∧ n < start + w) (c : BitVec w) :
    run poly c bits ≠ run poly c bits' := by
  have alike (n : Nat) (outside : n < start ∨ start + w ≤ n) : bits[n]? = bits'[n]? := by
    by_contra apart
    have inside := window n apart
    omega
  have front : bits.take start = bits'.take start := by
    apply List.ext_getElem?
    intro n
    rw [List.getElem?_take, List.getElem?_take]
    by_cases early : n < start
    · rw [if_pos early, if_pos early, alike n (.inl early)]
    · rw [if_neg early, if_neg early]
  have back : (bits.drop start).drop w = (bits'.drop start).drop w := by
    apply List.ext_getElem?
    intro n
    rw [List.drop_drop, List.drop_drop, List.getElem?_drop, List.getElem?_drop]
    exact alike _ (.inr (by omega))
  intro together
  apply differ
  rw [← List.take_append_drop start bits, ← List.take_append_drop start bits',
    ← List.take_append_drop w (bits.drop start), ← List.take_append_drop w (bits'.drop start),
    front, back] at together ⊢
  simp only [run_append] at together
  have middle := run_right_injective high (by simp [same])
    (List.length_take_le w (bits.drop start)) _ (run_left_injective high _ together)
  rw [middle]

end HighBit

end RlxFw.ShiftRegister
