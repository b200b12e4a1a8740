import RlxFw.SpiContainment

/-!
# Advancing the counter

The programs that take the anti-rollback counter to a new value: what they
leave of the bitmap, whole or cut short anywhere, and what rlxboot then reads.
-/

namespace RlxFw.Install

open NorFlash (Op run StoppedIn)
open Counter (Scan rlxuCounterFromBitmap byteBits bitmapBits)

/-! ## The kernel's decode -/

/-- The body of `rlxfw_spi_inst_ctr_decode`, on bit `b` of a byte. -/
def decodeBit (byte : UInt8) (b : Nat) (s : Scan) : Scan :=
  if (byte.toNat >>> b) &&& 1 = 0 then
    if !s.seenOne then { s with total := s.total + 1, lead := s.lead + 1 }
    else { s with total := s.total + 1, bad := true }
  else { s with seenOne := true }

/-- Its inner loop, over the bits below `b` downwards. -/
def decodeByte (byte : UInt8) : Nat → Scan → Scan
  | 0, s => s
  | b + 1, s => decodeByte byte b (decodeBit byte b s)

/-- Its outer loop, over `count` bytes from byte `i`. -/
def decodeBytes (bm : ByteMap) : Nat → Nat → Scan → Scan
  | _, 0, s => s
  | i, count + 1, s => decodeBytes bm (i + 1) count (decodeByte (bm i) 8 s)

/-- `rlxfw_spi_inst_ctr_decode` as its loops run. -/
def ctrDecodeLoop (bm : ByteMap) : Nat × Bool :=
  let s := decodeBytes bm 0 ctrBytes
    { lead := 0, total := 0, seenOne := false, bad := false }
  (if s.bad then s.total else s.lead, s.bad)

theorem decodeBit_eq_step (byte : UInt8) (b : Nat) (s : Scan) :
    decodeBit byte b s = s.step (byte.toNat.testBit b) := by
  have low : (byte.toNat >>> b) &&& 1 = (byte.toNat.testBit b).toNat := by
    rw [Nat.testBit_eq_decide_div_mod_eq, Nat.and_one_is_mod,
      Nat.shiftRight_eq_div_pow]
    have bit := Nat.mod_two_eq_zero_or_one (byte.toNat / 2 ^ b)
    rcases bit with zero | one
    · simp [zero]
    · simp [one]
  unfold decodeBit Scan.step
  rw [low]
  cases byte.toNat.testBit b <;> cases s.seenOne <;> rfl

theorem decodeByte_eq_foldl (byte : UInt8) (s : Scan) :
    decodeByte byte 8 s = (byteBits byte).foldl Scan.step s := by
  simp only [decodeByte, decodeBit_eq_step]
  rfl

theorem decodeBytes_eq_foldl (bm : ByteMap) (i count : Nat) (s : Scan) :
    decodeBytes bm i count s =
      (bitmapBits (bm.slice i count)).foldl Scan.step s := by
  induction count generalizing i s with
  | zero => rfl
  | succ count ih =>
      have split : bm.slice i (count + 1) = bm i :: bm.slice (i + 1) count := by
        rw [Nat.add_comm count 1, ByteMap.slice_append]
        rfl
      have bits : bitmapBits (bm.slice i (count + 1)) =
          byteBits (bm i) ++ bitmapBits (bm.slice (i + 1) count) := by
        rw [split]
        rfl
      rw [decodeBytes, ih, decodeByte_eq_foldl, bits, List.foldl_append]

/-- The kernel and rlxboot read every bitmap alike. -/
theorem ctrDecodeLoop_eq (bm : ByteMap) :
    ctrDecodeLoop bm = rlxuCounterFromBitmap (bm.slice 0 ctrBytes) := by
  unfold ctrDecodeLoop rlxuCounterFromBitmap
  rw [decodeBytes_eq_foldl]

/-! ## The bits of a bitmap -/

theorem flatMap_byteBits (bm : ByteMap) (count : Nat) :
    (List.range count).flatMap (fun i => byteBits (bm i)) =
      (List.range (8 * count)).map (ctrBit bm) := by
  induction count with
  | zero => rfl
  | succ count ih =>
      have byte : byteBits (bm count) =
          (List.range 8).map fun b => ctrBit bm (8 * count + b) := by
        unfold byteBits
        apply List.map_congr_left
        intro b member
        have small : b < 8 := List.mem_range.mp member
        unfold ctrBit
        rw [show (8 * count + b) / 8 = count by omega,
          show (8 * count + b) % 8 = b by omega]
      rw [List.range_succ, List.flatMap_append, ih, Nat.mul_succ,
        List.range_add, List.map_append, List.map_map]
      simp only [List.flatMap_cons, List.flatMap_nil, List.append_nil, byte]
      rfl

theorem bitmapBits_slice (bm : ByteMap) :
    bitmapBits (bm.slice 0 ctrBytes) = (List.range ctrBits).map (ctrBit bm) := by
  have bytes := flatMap_byteBits bm ctrBytes
  rw [show 8 * ctrBytes = ctrBits from rfl] at bytes
  rw [← bytes, bitmapBits, ByteMap.slice, List.flatMap_map]
  simp only [Nat.zero_add]

/-- The zero bits of a bitmap. -/
def zeros (bm : ByteMap) : Nat :=
  (List.range ctrBits).countP fun b => !ctrBit bm b

theorem ctrDecode_fst (bm : ByteMap) : (ctrDecode bm).1 = zeros bm := by
  unfold ctrDecode zeros
  rw [Counter.rlxuCounterFromBitmap_fst, bitmapBits_slice, List.count,
    List.countP_map]
  apply List.countP_congr
  intro b _
  cases h : ctrBit bm b <;> simp [h]

/-- A bitmap of `n` zeros and then ones reads as `n`, well formed. -/
theorem ctrDecode_of_bits {bm : ByteMap} {n : Nat} (inRange : n ≤ ctrBits)
    (bits : ∀ b < ctrBits, ctrBit bm b = decide (n ≤ b)) :
    ctrDecode bm = (n, false) := by
  have value : (ctrDecode bm).1 = n := by
    rw [ctrDecode_fst, zeros, show ctrBits = n + (ctrBits - n) by omega,
      List.range_add, List.countP_append]
    have below : (List.range n).countP (fun b => !ctrBit bm b) = n := by
      rw [List.countP_eq_length.mpr, List.length_range]
      intro b member
      have small := List.mem_range.mp member
      rw [bits b (by omega)]
      simpa using small
    have above : ((List.range (ctrBits - n)).map (n + ·)).countP
        (fun b => !ctrBit bm b) = 0 := by
      rw [List.countP_eq_zero]
      intro b member
      obtain ⟨index, small, rfl⟩ := List.mem_map.mp member
      have inside := List.mem_range.mp small
      rw [bits _ (by omega)]
      simp
    omega
  have order : (ctrDecode bm).2 = false := by
    unfold ctrDecode
    rw [Counter.rlxuCounterFromBitmap_snd, bitmapBits_slice, List.pairwise_map]
    apply List.pairwise_lt_range.imp_of_mem
    intro i j _ jMem less
    have inside := List.mem_range.mp jMem
    rw [bits i (by omega), bits j inside]
    intro high
    have : n ≤ i := by simpa using high
    exact decide_eq_true (by omega)
  exact Prod.ext value order

/-! ## The walk of the plan -/

theorem ctrNext_of_lt {bm : ByteMap} {n first : Nat} (pending : first < n) :
    ctrNext bm n first =
      if ctrBit bm first then first else ctrNext bm n (first + 1) := by
  unfold ctrNext
  rw [show n - first = (n - (first + 1)) + 1 by omega, List.range'_succ,
    List.find?_cons]
  cases ctrBit bm first <;> rfl

/-- The bits that `rtl819x_spi_ctr_run` programs, from bit `b` up. -/
def ctrWalk (bm : ByteMap) (n b : Nat) : List Nat :=
  if pending : b < n then b :: ctrWalk bm n (ctrNext bm n (b + 1)) else []
termination_by n - b
decreasing_by
  have := ctrNext_ge bm (show b + 1 ≤ n by omega)
  omega

theorem ctrWalk_next (bm : ByteMap) (n first : Nat) :
    ctrWalk bm n (ctrNext bm n first) =
      (List.range' first (n - first)).filter (ctrBit bm) := by
  induction left : n - first generalizing first with
  | zero =>
      have stop : ctrNext bm n first = n := by
        unfold ctrNext
        rw [left]
        rfl
      rw [stop, ctrWalk]
      simp
  | succ count ih =>
      have tail := ih (first + 1) (by omega)
      rw [ctrNext_of_lt (by omega), List.range'_succ, List.filter_cons]
      by_cases one : ctrBit bm first = true
      · rw [if_pos one, if_pos one, ctrWalk, dif_pos (by omega), tail]
      · rw [if_neg one, if_neg one, tail]

/-- The program that clears bit `b`. -/
def ctrProgram (b : Nat) : Op :=
  .program (ctrAddr stateBase b) 1 (ByteMap.ofList [ctrValue b] 0xFF)

/-- The programs that take the bitmap `bm` to `n`, in their order. -/
def ctrPlan (bm : ByteMap) (n : Nat) : List Op :=
  (ctrWalk bm n (ctrNext bm n 0)).map ctrProgram

theorem ctrWalk_zero (bm : ByteMap) (n : Nat) :
    ctrWalk bm n (ctrNext bm n 0) = (List.range n).filter (ctrBit bm) := by
  rw [ctrWalk_next, List.range_eq_range', Nat.sub_zero]

/-! ## What a program leaves -/

/-- The bitmap on the part. -/
def bitmapOf (chip : ByteMap) : ByteMap := fun i => chip (stateBase + i)

theorem ctrValue_testBit (b j : Nat) :
    (ctrValue b).toNat.testBit (7 - j % 8) = decide (b % 8 < j % 8) := by
  have small : 0xFF >>> (b % 8 + 1) < 256 := by
    rw [Nat.shiftRight_eq_div_pow]
    exact lt_of_le_of_lt (Nat.div_le_self _ _) (by decide)
  rw [ctrValue, UInt8.toNat_ofNat_of_lt' small, Nat.testBit_shiftRight,
    show (0xFF : Nat) = 2 ^ 8 - 1 from rfl, Nat.testBit_two_pow_sub_one]
  apply decide_eq_decide.mpr
  omega

/-- A program clears its bit and the earlier bits of its byte, and no other. -/
theorem ctrBit_program (chip : ByteMap) (b j : Nat) :
    ctrBit (bitmapOf ((ctrProgram b).apply WrPolicy.eraseGrain chip)) j =
      (ctrBit (bitmapOf chip) j && !decide (j / 8 = b / 8 ∧ j ≤ b)) := by
  have byte : bitmapOf ((ctrProgram b).apply WrPolicy.eraseGrain chip) (j / 8) =
      if j / 8 = b / 8 then bitmapOf chip (j / 8) &&& ctrValue b
      else bitmapOf chip (j / 8) := by
    unfold bitmapOf ctrProgram ctrAddr
    simp only [Op.apply]
    by_cases same : j / 8 = b / 8
    · rw [if_pos (by omega), if_pos same, same, Nat.sub_self]
      rfl
    · rw [if_neg (by omega), if_neg same]
  unfold ctrBit
  rw [byte]
  by_cases same : j / 8 = b / 8
  · rw [if_pos same, UInt8.toNat_and, Nat.testBit_and, ctrValue_testBit]
    congr 1
    rw [← decide_not]
    apply decide_eq_decide.mpr
    omega
  · simp [same]

/-- From `start`, zeros stay zeros and nothing changes from bit `n` up. -/
structure Advancing (start now : ByteMap) (n : Nat) : Prop where
  cleared : ∀ b, ctrBit now b = true → ctrBit start b = true
  kept : ∀ b, n ≤ b → ctrBit now b = ctrBit start b

theorem Advancing.refl (start : ByteMap) (n : Nat) :
    Advancing start start n :=
  ⟨fun _ one => one, fun _ _ => rfl⟩

/-- A bit after part of a program is the bit before it or the bit after it. -/
theorem ctrBit_of_stopped {op : Op} {chip now : ByteMap}
    (stopped : op.Partial WrPolicy.eraseGrain chip now) (b : Nat) :
    ctrBit (bitmapOf now) b = ctrBit (bitmapOf chip) b ∨
      ctrBit (bitmapOf now) b =
        ctrBit (bitmapOf (op.apply WrPolicy.eraseGrain chip)) b :=
  stopped (stateBase + b / 8) (7 - b % 8)

/-- Any part of one program of the plan keeps the advance. -/
theorem Advancing.stopped {start chip now : ByteMap} {n b : Nat}
    (advancing : Advancing start (bitmapOf chip) n) (below : b < n)
    (stopped : (ctrProgram b).Partial WrPolicy.eraseGrain chip now) :
    Advancing start (bitmapOf now) n := by
  constructor
  · intro j one
    apply advancing.cleared
    rcases ctrBit_of_stopped stopped j with before | after
    · rw [← before]
      exact one
    · rw [after, ctrBit_program, Bool.and_eq_true] at one
      exact one.1
  · intro j high
    rw [← advancing.kept j high]
    rcases ctrBit_of_stopped stopped j with before | after
    · exact before
    · have apart : ¬ (j / 8 = b / 8 ∧ j ≤ b) := by omega
      rw [after, ctrBit_program]
      simp [apart]

theorem Advancing.apply {start chip : ByteMap} {n b : Nat}
    (advancing : Advancing start (bitmapOf chip) n) (below : b < n) :
    Advancing start
      (bitmapOf ((ctrProgram b).apply WrPolicy.eraseGrain chip)) n :=
  advancing.stopped below (Op.stopped_of_eq (Or.inr rfl))

/-- A run of programs of bits below `n` keeps the advance. -/
theorem Advancing.run {start chip : ByteMap} {n : Nat} {walk : List Nat}
    (advancing : Advancing start (bitmapOf chip) n)
    (below : ∀ b ∈ walk, b < n) :
    Advancing start
      (bitmapOf (run WrPolicy.eraseGrain (walk.map ctrProgram) chip)) n := by
  induction walk generalizing chip with
  | nil => exact advancing
  | cons b walk ih =>
      exact ih (advancing.apply (below b List.mem_cons_self))
        fun later member => below later (List.mem_cons_of_mem _ member)

/-- No program sets a bit. -/
theorem ctrBit_of_ctrBit_run {chip : ByteMap} {walk : List Nat} {b : Nat}
    (one : ctrBit
      (bitmapOf (run WrPolicy.eraseGrain (walk.map ctrProgram) chip)) b =
        true) :
    ctrBit (bitmapOf chip) b = true := by
  induction walk generalizing chip with
  | nil => exact one
  | cons first walk ih =>
      have before := ih one
      rw [ctrBit_program, Bool.and_eq_true] at before
      exact before.1

/-- A run that programs a bit leaves it zero. -/
theorem ctrBit_run_of_mem {chip : ByteMap} {walk : List Nat} {b : Nat}
    (member : b ∈ walk) :
    ctrBit (bitmapOf (run WrPolicy.eraseGrain (walk.map ctrProgram) chip)) b =
      false := by
  induction walk generalizing chip with
  | nil => exact absurd member List.not_mem_nil
  | cons first walk ih =>
      by_cases later : b ∈ walk
      · exact ih later
      · have here : b = first :=
          (List.mem_cons.mp member).resolve_right later
        subst here
        have clear := ctrBit_program chip b b
        simp only [le_refl, and_self, decide_true, Bool.not_true,
          Bool.and_false] at clear
        by_contra one
        have still := @ctrBit_of_ctrBit_run _ walk b
          (Bool.not_eq_false _ ▸ one)
        rw [clear] at still
        exact absurd still (by decide)

/-! ## The advance -/

theorem zeros_le_zeros {start now : ByteMap} {n : Nat}
    (advancing : Advancing start now n) : zeros start ≤ zeros now := by
  apply List.countP_mono_left
  intro b _ zero
  rw [Bool.not_eq_true'] at zero ⊢
  by_contra one
  rw [Bool.not_eq_false] at one
  rw [advancing.cleared b one] at zero
  exact absurd zero (by decide)

/-- An accepted bitmap has no zero from `n` up, and its zeros are at most
`n`. -/
theorem ctrCheck_ok {bm : ByteMap} {n nops : Nat}
    (checked : ctrCheck bm n = .ok nops) :
    (ctrDecode bm).1 ≤ n ∧
      (∀ b, n ≤ b → b < ctrBits → ctrBit bm b = true) ∧
      nops = (List.range n).countP (ctrBit bm) := by
  unfold ctrCheck at checked
  split_ifs at checked with low hole
  refine ⟨Nat.le_of_not_lt low, ?_, ?_⟩
  · intro b high inside
    by_contra zero
    apply hole
    rw [List.any_eq_true]
    exact ⟨b, List.mem_range'_1.mpr ⟨high, by omega⟩, by simpa using zero⟩
  · cases checked
    rfl

/-- What an advance to `n` leaves part way through has at most `n` zeros. -/
theorem zeros_le {start now : ByteMap} {n : Nat} (inRange : n ≤ ctrBits)
    (above : ∀ b, n ≤ b → b < ctrBits → ctrBit start b = true)
    (advancing : Advancing start now n) : zeros now ≤ n := by
  have none : ((List.range (ctrBits - n)).map (n + ·)).countP
      (fun b => !ctrBit now b) = 0 := by
    rw [List.countP_eq_zero]
    intro b member
    obtain ⟨index, small, rfl⟩ := List.mem_map.mp member
    have inside := List.mem_range.mp small
    rw [advancing.kept _ (by omega), above _ (by omega) (by omega)]
    decide
  have low : (List.range n).countP (fun b => !ctrBit now b) ≤ n := by
    simpa using List.countP_le_length (l := List.range n)
      (p := fun b => !ctrBit now b)
  rw [zeros, show ctrBits = n + (ctrBits - n) by omega, List.range_add,
    List.countP_append, none]
  omega

/-- Every bit the walk names lies below `n`. -/
theorem ctrWalk_lt {bm : ByteMap} {n b : Nat}
    (member : b ∈ ctrWalk bm n (ctrNext bm n 0)) : b < n := by
  rw [ctrWalk_zero, List.mem_filter] at member
  exact List.mem_range.mp member.1

/-- What is on the part when the plan stops anywhere is an advance. -/
theorem Advancing.of_stoppedIn {chip now : ByteMap} {n count : Nat}
    (stopped : StoppedIn WrPolicy.eraseGrain (ctrPlan (bitmapOf chip) n) count
      chip now) :
    Advancing (bitmapOf chip) (bitmapOf now) n := by
  have done : Advancing (bitmapOf chip) (bitmapOf (NorFlash.run WrPolicy.eraseGrain
      ((ctrPlan (bitmapOf chip) n).take count) chip)) n := by
    unfold ctrPlan
    rw [← List.map_take]
    exact (Advancing.refl _ n).run fun b member =>
      ctrWalk_lt (List.mem_of_mem_take member)
  unfold StoppedIn at stopped
  cases next : (ctrPlan (bitmapOf chip) n)[count]? with
  | none =>
      rw [next] at stopped
      rw [stopped]
      exact done
  | some op =>
      rw [next] at stopped
      obtain ⟨b, member, rfl⟩ :=
        List.mem_map.mp (List.mem_of_getElem? next)
      exact done.stopped (ctrWalk_lt member) stopped

/-- The whole plan leaves zeros below `n` and ones above. -/
theorem ctrBit_ctrPlan {chip : ByteMap} {n b : Nat}
    (above : ∀ b, n ≤ b → b < ctrBits → ctrBit (bitmapOf chip) b = true)
    (inside : b < ctrBits) :
    ctrBit (bitmapOf (run WrPolicy.eraseGrain (ctrPlan (bitmapOf chip) n) chip))
      b = decide (n ≤ b) := by
  have advancing : Advancing (bitmapOf chip) (bitmapOf
      (run WrPolicy.eraseGrain (ctrPlan (bitmapOf chip) n) chip)) n :=
    (Advancing.refl _ n).run fun _ => ctrWalk_lt
  by_cases high : n ≤ b
  · rw [advancing.kept b high, above b high inside]
    simp [high]
  · rw [decide_eq_false high]
    by_cases one : ctrBit (bitmapOf chip) b = true
    · apply ctrBit_run_of_mem
      rw [ctrWalk_zero, List.mem_filter]
      exact ⟨List.mem_range.mpr (by omega), one⟩
    · by_contra set
      exact one (advancing.cleared b (by simpa using set))

/-- The kernel's decode is rlxboot's on every bitmap.  Whatever bitmap is on
the part, an advance to an `n` that the check accepts takes the programs it
counted, leaves a bitmap that reads as `n`, well formed, with the same bits
from `n` up, and a cut anywhere in it leaves one that reads from the old
counter to `n`. -/
theorem counter_advance_exact :
    (∀ bm : ByteMap,
      ctrDecodeLoop bm = rlxuCounterFromBitmap (bm.slice 0 ctrBytes)) ∧
    ∀ (chip : ByteMap) (n nops : Nat), n ≤ ctrBits →
      ctrCheck (bitmapOf chip) n = .ok nops →
        let plan := ctrPlan (bitmapOf chip) n
        let done := bitmapOf (run WrPolicy.eraseGrain plan chip)
        plan.length = nops ∧
        rlxuCounterFromBitmap (done.slice 0 ctrBytes) = (n, false) ∧
        (∀ b, n ≤ b → ctrBit done b = ctrBit (bitmapOf chip) b) ∧
        ∀ count now, StoppedIn WrPolicy.eraseGrain plan count chip now →
          (rlxuCounterFromBitmap ((bitmapOf chip).slice 0 ctrBytes)).1 ≤
              (rlxuCounterFromBitmap ((bitmapOf now).slice 0 ctrBytes)).1 ∧
            (rlxuCounterFromBitmap ((bitmapOf now).slice 0 ctrBytes)).1 ≤
              n := by
  refine ⟨ctrDecodeLoop_eq, ?_⟩
  intro chip n nops inRange checked
  obtain ⟨_, above, counted⟩ := ctrCheck_ok checked
  refine ⟨?_, ?_, ?_, ?_⟩
  · rw [counted, ctrPlan, List.length_map, ctrWalk_zero,
      List.countP_eq_length_filter]
  · exact ctrDecode_of_bits inRange fun b inside => ctrBit_ctrPlan above inside
  · exact ((Advancing.refl _ n).run fun _ => ctrWalk_lt).kept
  · intro count now stopped
    have advancing := Advancing.of_stoppedIn stopped
    have old := ctrDecode_fst (bitmapOf chip)
    have new := ctrDecode_fst (bitmapOf now)
    unfold ctrDecode at old new
    rw [old, new]
    exact ⟨zeros_le_zeros advancing, zeros_le inRange above advancing⟩

/-- An erased part, as the bitmap starts. -/
def erasedChip : ByteMap := fun _ => 0xFF

theorem counter_advance_exact_first :
    (ctrPlan (bitmapOf erasedChip) 1).length = 1 ∧
      rlxuCounterFromBitmap ((bitmapOf (run WrPolicy.eraseGrain
        (ctrPlan (bitmapOf erasedChip) 1) erasedChip)).slice 0 ctrBytes) =
        (1, false) := by
  have accepted : ctrCheck (bitmapOf erasedChip) 1 = .ok 1 := by
    decide +kernel
  have advanced :=
    counter_advance_exact.2 erasedChip 1 1 (by decide) accepted
  exact ⟨advanced.1, advanced.2.1⟩

end RlxFw.Install

/-! ## The driver takes the plan -/

namespace RlxFw.Spi

open NorFlash (Op)
open Install (ctrPlan ctrWalk ctrProgram ctrNext ctrCheck)
open Emission

variable {World : Type} (m : Machine World)

theorem follows_ctrPp (b : Nat) :
    (ctrPp m Install.stateBase (Install.ctrAddr Install.stateBase b)
      (Install.ctrValue b)).Follows [ctrProgram b] := by
  have issued : (ppPage m (Install.ctrAddr Install.stateBase b)
      [Install.ctrValue b]).Follows ([] ++ ([ctrProgram b] ++ ([] ++ []))) :=
    within_claim.follows.bind fun _ => (follows_issue _).bind fun _ =>
      (within_ask _).follows.bind fun t => (within_release t).follows
  exact (within_requirePolicy _).follows.bind fun _ =>
    issued.bind fun _ => within_noteWrite.follows

theorem follows_ctrPrograms (bm : ByteMap) (n b : Nat) :
    (ctrPrograms m bm n b).Follows ((ctrWalk bm n b).map ctrProgram) := by
  induction b using ctrPrograms.induct bm n with
  | case1 b pending ih =>
      rw [ctrPrograms, dif_pos pending, ctrWalk, dif_pos pending]
      exact (follows_ctrPp m b).bind fun _ => ih
  | case2 b finished =>
      rw [ctrPrograms, dif_neg finished, ctrWalk, dif_neg finished]
      exact fun _ => ⟨List.prefix_rfl, fun _ _ => rfl⟩

/-- Nothing issued, or the start of the plan of a bitmap that the check
accepted. -/
def StartsPlan (n : Nat) (issued : List Op) : Prop :=
  issued = [] ∨ ∃ bm nops, ctrCheck bm n = .ok nops ∧ issued <+: ctrPlan bm n

/-- The counter verb issues the plan of the bitmap it read, in order, or the
start of it, and nothing before its check accepts. -/
theorem ctrRun_issues (b : Boot) (rq : Install.Req) (why : Install.Reason)
    (s : State World) :
    StartsPlan rq.ctrN (ctrRun m b rq why s).2.2 := by
  have nothing : StartsPlan rq.ctrN [] := Or.inl rfl
  revert s
  unfold ctrRun
  refine (within_require why).quiet_bind (StartsPlan rq.ctrN) nothing ?_
  intro _ _
  refine (within_require _).quiet_bind (StartsPlan rq.ctrN) nothing ?_
  intro _ _
  refine (within_kmalloc m _).quiet_bind (StartsPlan rq.ctrN) nothing ?_
  intro _ _
  refine (within_readPio m _ _).quiet_bind (StartsPlan rq.ctrN) nothing ?_
  intro bm _
  apply (within_accept (ctrCheck bm rq.ctrN)).quiet_bind (StartsPlan rq.ctrN) nothing
  intro nops checked s
  by_cases same : nops = 0
  · rw [if_pos same]
    exact Or.inl rfl
  · rw [if_neg same]
    refine Or.inr ⟨bm, nops, checked, ?_⟩
    have verified : (readPio m Install.stateBase Install.ctrBytes >>= fun rb =>
        (require (Install.ctrVerify rb rq.ctrN) : Verb World Unit)).Within
        (fun _ => False) fun _ => True :=
      (within_readPio m _ _).bind fun _ _ => (within_require _).anyResult
    have issued := (follows_ctrPrograms m bm rq.ctrN
      (ctrNext bm rq.ctrN 0)).bind fun _ => verified.follows
    rw [List.append_nil] at issued
    exact (issued s).1

end RlxFw.Spi
