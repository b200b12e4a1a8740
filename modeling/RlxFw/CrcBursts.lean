import RlxFw.Crc32
import RlxFw.ShiftRegister

/-!
# What the checksum tells apart

The checksum of a string in two calls, and of two strings that differ in a window of 32 bits.
Bits stand in the order in which the checksum takes them: a byte's low bit first.
-/

namespace RlxFw.Crc32

open ShiftRegister (step run)

/-- The reflected polynomial. -/
def poly : BitVec 32 := 0xEDB88320#32

/-- Bit `n` of a string, a byte's low bit first. -/
def bitOf (s : List UInt8) (n : Nat) : Bool := (s.getD (n / 8) 0).toBitVec.getLsbD (n % 8)

/-- All bits of a string. -/
def bitsOf (s : List UInt8) : List Bool := (List.range (8 * s.length)).map (bitOf s)

/-- The bits of a byte. -/
def byteBits (b : UInt8) : List Bool := (List.range 8).map b.toBitVec.getLsbD

theorem bitsOf_cons (b : UInt8) (s : List UInt8) :
    bitsOf (b :: s) = byteBits b ++ bitsOf s := by
  have count : 8 * (b :: s).length = 8 + 8 * s.length := by
    rw [List.length_cons]
    omega
  rw [bitsOf, count, List.range_add, List.map_append, List.map_map]
  refine congrArg₂ (· ++ ·) ?_ ?_
  · apply List.map_congr_left
    intro n member
    have small : n < 8 := List.mem_range.mp member
    rw [bitOf, Nat.div_eq_of_lt small, Nat.mod_eq_of_lt small]
    rfl
  · apply List.map_congr_left
    intro n _
    have index : (8 + n) / 8 = n / 8 + 1 := by omega
    rw [Function.comp_apply, bitOf, bitOf, index, Nat.add_mod_left, List.getD_cons_succ]

/-! ## The loop as a register -/

theorem and_one_eq (c : UInt32) :
    c &&& 1 = if c.toBitVec.getLsbD 0 then 1 else 0 := by
  apply UInt32.eq_of_toBitVec_eq
  rw [UInt32.toBitVec_and]
  change c.toBitVec &&& 1#32 = _
  rw [BitVec.and_one_eq_setWidth_ofBool_getLsbD]
  cases c.toBitVec.getLsbD 0 <;> rfl

/-- The mask takes the polynomial when a bit fell out. -/
theorem bitStep_toBitVec (c : UInt32) : (bitStep c).toBitVec = step poly c.toBitVec := by
  unfold bitStep step
  rw [and_one_eq, UInt32.toBitVec_xor, UInt32.toBitVec_and]
  cases c.toBitVec.getLsbD 0
  · exact BitVec.xor_zero
  · rfl

theorem foldl_bitStep_toBitVec (n : Nat) (c : UInt32) :
    ((List.range n).foldl (fun c _ => bitStep c) c).toBitVec = (step poly)^[n] c.toBitVec := by
  induction n with
  | zero => rfl
  | succ n ih =>
      rw [List.range_succ, List.foldl_append, Function.iterate_succ_apply', ← ih]
      exact bitStep_toBitVec _

/-- A byte added at once is its bits taken in one a step. -/
theorem byteStep_toBitVec (c : UInt32) (b : UInt8) :
    (byteStep c b).toBitVec = run poly c.toBitVec (byteBits b) := by
  have bits : b.toUInt32.toBitVec.getLsbD = b.toBitVec.getLsbD := by
    funext n
    rw [UInt8.toBitVec_toUInt32, BitVec.getLsbD_setWidth]
    by_cases inside : n < 32
    · rw [decide_eq_true inside, Bool.true_and]
    · rw [BitVec.getLsbD_of_ge b.toBitVec n (by omega), Bool.and_false]
  unfold byteStep byteBits
  rw [foldl_bitStep_toBitVec, UInt32.toBitVec_xor, ShiftRegister.iterate_step_xor]
  · rw [bits]
  · intro n least
    rw [bits, BitVec.getLsbD_of_ge b.toBitVec n least]

/-- The loop over a string. -/
theorem foldl_byteStep_toBitVec (c : UInt32) (s : List UInt8) :
    (s.foldl byteStep c).toBitVec = run poly c.toBitVec (bitsOf s) := by
  induction s generalizing c with
  | nil => rfl
  | cons b s ih =>
      rw [List.foldl_cons, ih, byteStep_toBitVec, bitsOf_cons, ShiftRegister.run_append]

/-! ## Two calls, two strings -/

theorem crc32Ieee_append (crc : UInt32) (a b : List UInt8) :
    crc32Ieee (crc32Ieee crc a) b = crc32Ieee crc (a ++ b) := by
  unfold crc32Ieee
  rw [UInt32.xor_assoc, UInt32.xor_self, UInt32.xor_zero, List.foldl_append]

theorem bitsOf_length (s : List UInt8) : (bitsOf s).length = 8 * s.length := by
  simp [bitsOf]

/-- Strings are told apart by their bits. -/
theorem bitsOf_injective {s s' : List UInt8} (same : s.length = s'.length)
    (bits : bitsOf s = bitsOf s') : s = s' := by
  induction s generalizing s' with
  | nil => exact (List.eq_nil_of_length_eq_zero same.symm).symm
  | cons b s ih =>
      cases s' with
      | nil => cases same
      | cons b' s' =>
          rw [bitsOf_cons, bitsOf_cons] at bits
          obtain ⟨first, rest⟩ := List.append_inj bits rfl
          rw [ih (Nat.succ.inj same) rest]
          congr 1
          apply UInt8.eq_of_toBitVec_eq
          apply BitVec.eq_of_getLsbD_eq
          intro i inside
          exact List.map_inj_left.mp first i (List.mem_range.mpr inside)

/-- The checksum of any strings, in pieces and after a burst. -/
structure Detects : Prop where
  /-- A string in two calls. -/
  incremental : ∀ a b : List UInt8, crc32Ieee (crc32Ieee 0 a) b = crc32Ieee 0 (a ++ b)
  /-- A change that is confined to 32 consecutive bits. -/
  burst : ∀ (s s' : List UInt8) (start : Nat), s'.length = s.length → s' ≠ s →
    (∀ n, bitOf s' n ≠ bitOf s n → start ≤ n ∧ n < start + 32) →
    ∀ seed, crc32Ieee seed s' ≠ crc32Ieee seed s

/-- The record checksum is incremental and tells short bursts. -/
theorem detects : Detects where
  incremental := crc32Ieee_append 0
  burst s s' start same differ window seed together := by
    have bits : bitsOf s' ≠ bitsOf s := fun bits => differ (bitsOf_injective same bits)
    have inWindow (n : Nat) (apart : (bitsOf s')[n]? ≠ (bitsOf s)[n]?) :
        start ≤ n ∧ n < start + 32 := by
      apply window n
      intro equal
      apply apart
      simp only [bitsOf, List.getElem?_map, same]
      by_cases inside : n < 8 * s.length
      · rw [List.getElem?_range inside, Option.map_some, Option.map_some, equal]
      · rw [List.getElem?_eq_none (by simpa using inside)]
        rfl
    have length : (bitsOf s').length = (bitsOf s).length := by
      rw [bitsOf_length, bitsOf_length, same]
    apply ShiftRegister.run_ne_of_window (show poly.msb = true by decide) length bits start inWindow
      (seed ^^^ 0xFFFFFFFF).toBitVec
    rw [← foldl_byteStep_toBitVec, ← foldl_byteStep_toBitVec]
    exact congrArg UInt32.toBitVec (UInt32.xor_left_inj _ |>.mp together)

-- With a byte's high bit first these bits would lie in a window of 31.
example : crc32Ieee 0 [0x0A, 0x1E, 0xE9, 0xD5, 0xE0] = crc32Ieee 0 [0, 0, 0, 0, 0] := by
  decide

end RlxFw.Crc32
