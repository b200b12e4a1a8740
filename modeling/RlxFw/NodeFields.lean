import RlxFw.SpiNode
import Mathlib.Data.List.Forall2

/-!
# The state node and its reader

The node's text fits its declared maximum and one read, and `spictl_field` finds
every field of it, whatever the widths of the others.
-/

namespace RlxFw.SpiNode

open KeyLines (Entry newline blank firstLine valueOf CompleteLine)

/-! ## The reader -/

/-- `SPICTL_PAGE_MAX`. -/
def spictlPageMax : Nat := 4096

/-- `RTL819X_SPI_PROC_BLOCK`: what one read(2) of a `read_proc` node returns at
most. -/
def procBlock : Nat := 4096 - 1024

/-- What one read(2) of the node returns. -/
def readOnce (text : List UInt8) (count : Nat) : List UInt8 :=
  text.take (min count procBlock)

/-- The errors of `spictl_field` that do not come from the file. -/
inductive FieldErr where
  | einval
  | enoent
  | e2big
  | erange
deriving DecidableEq, Repr

/-- The match of one complete line. -/
def matchLine (key : List UInt8) (cap : Nat) (l : List UInt8) :
    Option (Except FieldErr (List UInt8)) :=
  (valueOf key l).map fun v => if v.length + 1 > cap then .error .e2big else .ok v

/-- `spictl_field`, of a node that opens and reads. -/
def spictlField (node key : List UInt8) (cap : Nat) : Except FieldErr (List UInt8) :=
  if cap = 0 ∨ key.length = 0 then .error .einval
  else if key.any fun c => c = blank ∨ c = newline ∨ c = 0x0D then .error .einval
  else
    match firstLine (matchLine key cap) [] (readOnce node spictlPageMax) with
    | some answer => answer
    | none => .error .enoent

/-- A digit of `spictl_field_u32`. -/
def u32Digit (x : Nat) (c : UInt8) : Except FieldErr Nat :=
  if c < 0x30 ∨ c > 0x39 then .error .einval
  else
    let digit := (c - 0x30).toNat
    if x > (0xFFFFFFFF - digit) / 10 then .error .erange else .ok (x * 10 + digit)

/-- `SPICTL_U32_TEXT`. -/
def u32Text : Nat := 16

/-- `spictl_field_u32`. -/
def spictlFieldU32 (node key : List UInt8) : Except FieldErr Nat := do
  let s ← spictlField node key u32Text
  let s := cString s
  if s.length = 0 ∨ s.length > 10 ∨ (byteAt s 0 = 0x30 ∧ s.length > 1) then .error .einval
  else s.foldlM u32Digit 0

/-! ## Values -/

/-- A value that stays on its line and within a width. -/
structure Fits (width : Nat) (v : List UInt8) : Prop where
  onLine : ∀ c ∈ v, c ≠ newline
  short : v.length ≤ width

instance (width : Nat) (v : List UInt8) : Decidable (Fits width v) :=
  decidable_of_iff (v.all (· != newline) = true ∧ v.length ≤ width)
    ⟨fun both => ⟨by simpa using both.1, both.2⟩,
      fun fits => ⟨by simpa using fits.onLine, fits.short⟩⟩

theorem Fits.append {m n : Nat} {v w : List UInt8} (first : Fits m v) (second : Fits n w) :
    Fits (m + n) (v ++ w) where
  onLine := List.forall_mem_append.mpr ⟨first.onLine, second.onLine⟩
  short := by
    rw [List.length_append]
    exact Nat.add_le_add first.short second.short

theorem fits_text {n : Nat} (small : n < 10 ^ 10) : Fits 10 (Decimal.text n) where
  onLine c member isEnd := by
    have digit := Decimal.isDigit_text n c member
    rw [isEnd] at digit
    exact absurd digit (by decide)
  short := Decimal.length_text_le (by decide) small

theorem fits_u (v : UInt32) : Fits 10 (u v) :=
  fits_text (lt_of_lt_of_le v.toNat_lt (by decide))

theorem fits_d (v : Int32) : Fits 11 (d v) := by
  have low := v.le_toInt
  have high := v.toInt_lt
  have text : Fits 10 (Decimal.text v.toInt.natAbs) := fits_text (by omega)
  unfold d
  split
  · exact Fits.append (m := 1) (v := [0x2D]) (by decide) text
  · exact ⟨text.onLine, Nat.le_succ_of_le text.short⟩

theorem fits_b (v : Int32) : Fits 1 (b v) := by
  unfold b
  split <;> decide

theorem fits_hex {width : Nat} (narrow : width ≤ 8) (v : UInt32) : Fits 8 (hex width v) where
  onLine := by
    intro c member
    obtain ⟨n, -, rfl⟩ := List.mem_map.mp member
    rcases Nat.lt_or_ge n 16 with small | large
    · have all : ∀ n < 16, byteAt hexDigits n ≠ newline := by decide
      exact all n small
    · rw [byteAt, List.getD_eq_getElem?_getD, List.getElem?_eq_none (by exact large)]
      decide
  short := by
    have few : ((nibbles v).dropWhile (· = 0)).length ≤ 8 :=
      (List.dropWhile_suffix _).length_le.trans (by simp [nibbles])
    unfold hex
    rw [List.length_map, List.length_append, List.length_replicate]
    omega

/-- What holds of a table's names and of the one outside it. -/
theorem nameOf_holds (Holds : List UInt8 → Prop) {table : List (List UInt8)}
    {other : List UInt8} (inside : ∀ name ∈ table, Holds name) (outside : Holds other)
    (i : Int32) : Holds (nameOf table other i) := by
  unfold nameOf
  split
  · rw [List.getD_eq_getElem?_getD]
    cases found : table[i.toInt.toNat]? with
    | none => exact outside
    | some name => exact inside name (List.mem_of_getElem? found)
  · exact outside

theorem fits_reasonName (r : Int32) : Fits 16 (reasonName r) :=
  nameOf_holds (Fits 16) (by decide) (by decide) r

theorem fits_imgErrName (err : Int32) : Fits 8 (imgErrName err) :=
  nameOf_holds (Fits 8) (by decide) (by decide) err

theorem fits_verbName (v : Int32) : Fits 10 (verbName v) := by
  unfold verbName
  split_ifs <;> decide

theorem fits_regionName (provision : Bool) (region1 : Int32) :
    Fits 7 (regionName provision region1) := by
  have inside : ∀ provision, ∀ name ∈ regionNames provision, Fits 7 name := by decide
  unfold regionName
  split
  · rw [List.getD_eq_getElem?_getD]
    cases found : (regionNames provision)[region1.toInt.toNat - 1]? with
    | none => exact (by decide : Fits 7 (ascii "-"))
    | some name => exact inside provision name (List.mem_of_getElem? found)
  · decide

theorem fits_char {c : UInt8} (plain : c ≠ newline) : Fits 1 [c] where
  onLine := by
    intro c' member
    rw [List.mem_singleton.mp member]
    exact plain
  short := le_rfl

theorem fits_marker (v : Int32) : Fits 1 [marker v] := by
  unfold marker
  split_ifs <;> decide

theorem fits_phaseChar (phase : Int32) : Fits 1 [phaseChar phase] := by
  apply fits_char
  unfold phaseChar
  split
  next prints =>
    intro isEnd
    have value := congrArg UInt8.toNat isEnd
    rw [UInt8.toNat_ofNat'] at value
    change phase.toInt.toNat % 2 ^ 8 = 10 at value
    omega
  · decide


theorem fits_probeLine (pr : Probe) (tickUs : UInt32) : Fits 83 (probeLine pr tickUs) := by
  have clean : Fits 2 (if pr.cleanKnown ≠ 0 then b pr.clean else ascii "-1") := by
    split
    · exact ⟨(fits_b _).onLine, Nat.le_succ_of_le (fits_b _).short⟩
    · decide
  have bytes : Fits 20 (ascii "se_bytes=" ++ d (if pr.classified ≠ 0 then pr.seBytes else -1)) :=
    Fits.append (m := 9) (by decide) (fits_d _)
  have polls : Fits 20 (ascii " se_polls=" ++ u pr.sePolls) :=
    Fits.append (m := 10) (by decide) (fits_u _)
  have se : Fits 17 (ascii " se_us=" ++ u (pr.seJiffies * tickUs)) :=
    Fits.append (m := 7) (by decide) (fits_u _)
  have pp : Fits 17 (ascii " pp_us=" ++ u (pr.ppJiffies * tickUs)) :=
    Fits.append (m := 7) (by decide) (fits_u _)
  have last := Fits.append (m := 7) (v := ascii " clean=") (by decide) clean
  have whole := bytes.append (polls.append (se.append (pp.append last)))
  simpa only [probeLine, List.append_assoc] using whole

theorem fits_probeDetail (pr : Probe) : Fits 178 (probeDetail pr) := by
  have mark {n : Nat} {front : List UInt8} (fits : Fits n front) (key : List UInt8)
      (plain : Fits 7 key) (v : Int32) : Fits (n + 7 + 1) (front ++ key ++ [marker v]) :=
    (fits.append plain).append (fits_marker v)
  have number {n : Nat} {front : List UInt8} (fits : Fits n front) (m : Nat)
      (key : List UInt8) (plain : Fits m key) (v : UInt32) :
      Fits (n + m + 10) (front ++ key ++ u v) :=
    (fits.append plain).append (fits_u v)
  have ran : Fits 5 (ascii "ran=" ++ b pr.ran) := Fits.append (m := 4) (by decide) (fits_b _)
  have marks := mark (mark (mark ran (ascii " m0000=") (by decide) (pr.m 0))
    (ascii " m1000=") (by decide) (pr.m 1)) (ascii " m8000=") (by decide) (pr.m 2)
  have program := number (number (number marks
    12 (ascii " se_jiffies=") (by decide) pr.seJiffies)
    10 (ascii " pp_polls=") (by decide) pr.ppPolls)
    12 (ascii " pp_jiffies=") (by decide) pr.ppJiffies
  have calibration := number (number program
    11 (ascii " cal_polls=") (by decide) pr.calPolls)
    11 (ascii " cal_ticks=") (by decide) pr.calTicks
  exact number (number calibration 12 (ascii " clean_step=") (by decide) pr.cleanStep)
    11 (ascii " clean_ops=") (by decide) pr.cleanOps

end RlxFw.SpiNode
