import RlxFw.ByteMap

/-!
# NOR flash

An erase sets an aligned block to `0xFF`; a program clears bits and sets none.
This file gives the two operations, a run of them, and what a run stopped
inside an operation can leave: the bits that operation changes may each have
changed or not.
-/

namespace RlxFw.NorFlash

/-- An operation on the part.  An erase names any address of the block it
clears; a program names where its bytes go and where they come from. -/
inductive Op where
  | erase (address : Nat)
  | program (address length : Nat) (source : ByteMap)

/-- The offsets of the aligned block of `blockSize` bytes holding `address`. -/
def block (blockSize address : Nat) : Set Nat :=
  { offset | offset / blockSize = address / blockSize }

/-- The offsets an operation may change, where an erase clears `blockSize`
bytes. -/
def Op.range (blockSize : Nat) : Op → Set Nat
  | .erase address => block blockSize address
  | .program address length _ => Set.Ico address (address + length)

/-- The part after an operation. -/
def Op.apply (blockSize : Nat) : Op → ByteMap → ByteMap
  | .erase address, flash => fun offset =>
      if offset / blockSize = address / blockSize then 0xFF else flash offset
  | .program address length source, flash => fun offset =>
      if address ≤ offset ∧ offset < address + length then
        flash offset &&& source (offset - address)
      else flash offset

/-- The part after a list of operations. -/
def run (blockSize : Nat) (ops : List Op) (flash : ByteMap) : ByteMap :=
  ops.foldl (fun part op => op.apply blockSize part) flash

/-- Every bit of `now` is the bit of `before` or the bit of `after`. -/
def Between (before after now : UInt8) : Prop :=
  ∀ i, now.toNat.testBit i = before.toNat.testBit i ∨
    now.toNat.testBit i = after.toNat.testBit i

/-- `now` is what an operation stopped part way can leave of `flash`. -/
def Op.Partial (blockSize : Nat) (op : Op) (flash now : ByteMap) : Prop :=
  ∀ offset, Between (flash offset) (op.apply blockSize flash offset)
    (now offset)

/-- `now` is what can be left of `flash` by a run stopped after `count`
operations, inside the next one. -/
def StoppedIn (blockSize : Nat) (ops : List Op) (count : Nat)
    (flash now : ByteMap) : Prop :=
  match ops[count]? with
  | some op => op.Partial blockSize (run blockSize (ops.take count) flash) now
  | none => now = run blockSize (ops.take count) flash

theorem between_self_iff (before now : UInt8) :
    Between before before now ↔ now = before := by
  constructor
  · intro between
    apply UInt8.toNat_inj.mp
    apply Nat.eq_of_testBit_eq
    intro i
    exact (between i).elim id id
  · rintro rfl i
    exact Or.inl rfl

/-- A byte that an operation leaves alone is left alone by any part of it. -/
theorem Op.Partial.eq_of_apply_eq {blockSize : Nat} {op : Op}
    {flash now : ByteMap} (stopped : op.Partial blockSize flash now)
    {offset : Nat} (same : op.apply blockSize flash offset = flash offset) :
    now offset = flash offset := by
  have between := stopped offset
  rw [same] at between
  exact (between_self_iff _ _).mp between

/-- Having done nothing, or everything, is a part of any operation. -/
theorem Op.stopped_of_eq {blockSize : Nat} {op : Op} {flash now : ByteMap}
    (ends : now = flash ∨ now = op.apply blockSize flash) :
    op.Partial blockSize flash now := by
  intro offset i
  rcases ends with rfl | rfl
  · exact Or.inl rfl
  · exact Or.inr rfl

theorem Op.apply_outside {blockSize : Nat} {op : Op} {flash : ByteMap}
    {offset : Nat} (outside : offset ∉ op.range blockSize) :
    op.apply blockSize flash offset = flash offset := by
  cases op with
  | erase address => exact if_neg outside
  | program address length source => exact if_neg outside

@[simp]
theorem run_nil (blockSize : Nat) (flash : ByteMap) :
    run blockSize [] flash = flash := rfl

theorem run_append (blockSize : Nat) (first second : List Op)
    (flash : ByteMap) :
    run blockSize (first ++ second) flash =
      run blockSize second (run blockSize first flash) := by
  simp [run]

theorem run_snoc (blockSize : Nat) (ops : List Op) (op : Op)
    (flash : ByteMap) :
    run blockSize (ops ++ [op]) flash =
      op.apply blockSize (run blockSize ops flash) := by
  simp [run]

/-- A byte outside every operation's range keeps its value through a run. -/
theorem run_outside {blockSize : Nat} {ops : List Op} {flash : ByteMap}
    {offset : Nat} (outside : ∀ op ∈ ops, offset ∉ op.range blockSize) :
    run blockSize ops flash offset = flash offset := by
  induction ops generalizing flash with
  | nil => rfl
  | cons op ops ih =>
      have tailOutside : ∀ other ∈ ops, offset ∉ other.range blockSize :=
        fun other member => outside other (List.mem_cons_of_mem _ member)
      calc
        run blockSize (op :: ops) flash offset =
            run blockSize ops (op.apply blockSize flash) offset := rfl
        _ = op.apply blockSize flash offset := ih tailOutside
        _ = flash offset :=
          Op.apply_outside (outside op List.mem_cons_self)

/-- Erasing a list of addresses clears the blocks they lie in, whatever the
order and however often a block is named. -/
theorem run_erases (blockSize : Nat) (addresses : List Nat) (flash : ByteMap)
    (offset : Nat) :
    run blockSize (addresses.map Op.erase) flash offset =
      if ∃ address ∈ addresses, offset / blockSize = address / blockSize then
        0xFF
      else flash offset := by
  induction addresses generalizing flash with
  | nil => simp
  | cons address addresses ih =>
      change run blockSize (addresses.map Op.erase)
        ((Op.erase address).apply blockSize flash) offset = _
      have headApply : (Op.erase address).apply blockSize flash offset =
          if offset / blockSize = address / blockSize then 0xFF
          else flash offset := rfl
      rw [ih, headApply]
      simp only [List.mem_cons, exists_eq_or_imp]
      by_cases later : ∃ other ∈ addresses,
          offset / blockSize = other / blockSize
      · simp only [later, or_true, if_true]
      · simp only [later, or_false, if_false]

/-- A program of `[start + skip, start + skip + length)` with the bytes of an
image laid out from `start`. -/
def pageOf (start : Nat) (image : ByteMap) (skip length : Nat) : Op :=
  .program (start + skip) length (fun index => image (skip + index))

/-- Programming pages of one image, in any order and however often, ANDs the
image in on the pages and nowhere else. -/
theorem run_pages (blockSize start : Nat) (image : ByteMap)
    (pages : List (Nat × Nat)) (flash : ByteMap) (offset : Nat) :
    run blockSize (pages.map fun page => pageOf start image page.1 page.2)
        flash offset =
      if ∃ page ∈ pages, start + page.1 ≤ offset ∧
          offset < start + page.1 + page.2 then
        flash offset &&& image (offset - start)
      else flash offset := by
  induction pages generalizing flash with
  | nil => simp
  | cons page pages ih =>
      have headApply : (pageOf start image page.1 page.2).apply blockSize
          flash offset =
          if start + page.1 ≤ offset ∧ offset < start + page.1 + page.2 then
            flash offset &&& image (offset - start)
          else flash offset := by
        change (if start + page.1 ≤ offset ∧
            offset < start + page.1 + page.2 then
          flash offset &&& image (page.1 + (offset - (start + page.1)))
          else flash offset) = _
        split
        · rename_i inside
          rw [show page.1 + (offset - (start + page.1)) = offset - start by
            omega]
        · rfl
      change run blockSize (pages.map _)
        ((pageOf start image page.1 page.2).apply blockSize flash) offset = _
      rw [ih, headApply]
      simp only [List.mem_cons, exists_eq_or_imp]
      by_cases later : ∃ other ∈ pages, start + other.1 ≤ offset ∧
          offset < start + other.1 + other.2
      · simp only [later, or_true, if_true]
        by_cases here : start + page.1 ≤ offset ∧
            offset < start + page.1 + page.2
        · simp only [here, and_self, if_true, UInt8.and_assoc, UInt8.and_self]
        · simp only [here, if_false]
      · simp only [later, or_false, if_false]

end RlxFw.NorFlash
