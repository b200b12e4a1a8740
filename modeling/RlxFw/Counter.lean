import RlxFw.ByteMap

/-!
# The anti-rollback counter

`rlxu_counter_from_bitmap` of `src/rlxboot/container.c`: the counter is the
number of zero bits at the start of a 512-byte bitmap, most significant bit
first.
-/

namespace RlxFw.Counter

/-- `RLXU_CTR_BYTES`. -/
def ctrBytes : Nat := 512

/-- `RLXU_CTR_BITS`. -/
def ctrBits : Nat := 4096

/-- The locals of `rlxu_counter_from_bitmap`. -/
structure Scan where
  lead : Nat
  total : Nat
  seenOne : Bool
  bad : Bool
deriving DecidableEq, Repr

/-- The body of the inner loop, on one bit. -/
def Scan.step (s : Scan) (bit : Bool) : Scan :=
  if bit then { s with seenOne := true }
  else if s.seenOne then { s with total := s.total + 1, bad := true }
  else { s with total := s.total + 1, lead := s.lead + 1 }

/-- A byte's bits, most significant first. -/
def byteBits (byte : UInt8) : List Bool :=
  (List.range 8).map fun b => byte.toNat.testBit (7 - b)

/-- The bits of a bitmap in the order they are read. -/
def bitmapBits (bm : List UInt8) : List Bool :=
  bm.flatMap byteBits

/-- `rlxu_counter_from_bitmap`: the counter, and whether the bitmap is
malformed. -/
def rlxuCounterFromBitmap (bm : List UInt8) : Nat × Bool :=
  let s := (bitmapBits bm).foldl Scan.step
    { lead := 0, total := 0, seenOne := false, bad := false }
  (if s.bad then s.total else s.lead, s.bad)

/-- What the locals say of the bits read so far.  Bits are in order when no
zero follows a one. -/
structure Scan.Reads (bits : List Bool) (s : Scan) : Prop where
  total : s.total = bits.count false
  seen : s.seenOne = false ↔ ∀ bit ∈ bits, bit = false
  lead : s.bad = false → s.lead = s.total
  order : s.bad = false ↔ bits.Pairwise (· ≤ ·)

theorem Scan.Reads.step {bits : List Bool} {s : Scan} (reads : s.Reads bits)
    (bit : Bool) :
    (s.step bit).Reads (bits ++ [bit]) := by
  have pairwise : (bits ++ [bit]).Pairwise (· ≤ ·) ↔
      bits.Pairwise (· ≤ ·) ∧ ∀ earlier ∈ bits, earlier ≤ bit := by
    simp [List.pairwise_append]
  obtain ⟨total, seen, lead, order⟩ := reads
  cases bit with
  | true =>
      refine ⟨by simpa [Scan.step] using total, by simp [Scan.step],
        by simpa [Scan.step] using lead, ?_⟩
      rw [pairwise]
      simpa [Scan.step, Bool.le_true] using order
  | false =>
      have allZero : (∀ earlier ∈ bits, earlier ≤ false) ↔
          s.seenOne = false := by
        have atMost : ∀ bit : Bool, bit ≤ false ↔ bit = false := by decide
        simp only [seen, atMost]
      rw [← order, allZero] at pairwise
      cases known : s.seenOne with
      | true =>
          have someOne : ¬ ∀ bit ∈ bits, bit = false := by
            rw [← seen, known]
            simp
          refine ⟨by simp [Scan.step, known, total], ?_,
            by simp [Scan.step, known], ?_⟩
          · simpa [Scan.step, known] using someOne
          · rw [pairwise, known]
            simp [Scan.step, known]
      | false =>
          refine ⟨by simp [Scan.step, known, total], ?_, ?_, ?_⟩
          · simpa [Scan.step, known] using seen.mp known
          · simpa [Scan.step, known] using lead
          · rw [pairwise, known]
            simp [Scan.step, known]

theorem scan_reads (bits : List Bool) :
    (bits.foldl Scan.step
      { lead := 0, total := 0, seenOne := false, bad := false }).Reads bits := by
  induction bits using List.reverseRecOn with
  | nil => exact ⟨rfl, by simp, fun _ => rfl, by simp⟩
  | append_singleton bits bit ih =>
      rw [List.foldl_append]
      exact ih.step bit

/-- The counter is the number of zero bits, malformed or not. -/
theorem rlxuCounterFromBitmap_fst (bm : List UInt8) :
    (rlxuCounterFromBitmap bm).1 = (bitmapBits bm).count false := by
  have reads := scan_reads (bitmapBits bm)
  unfold rlxuCounterFromBitmap
  dsimp only
  split_ifs with bad
  · exact reads.total
  · rw [reads.lead (by simpa using bad), reads.total]

/-- A bitmap is well formed when no zero bit follows a one. -/
theorem rlxuCounterFromBitmap_snd (bm : List UInt8) :
    (rlxuCounterFromBitmap bm).2 = false ↔
      (bitmapBits bm).Pairwise (· ≤ ·) :=
  (scan_reads (bitmapBits bm)).order

end RlxFw.Counter
