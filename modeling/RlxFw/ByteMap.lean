import RlxFw.Prelude
import Mathlib.Data.List.Range
import Mathlib.Order.Interval.Set.Disjoint

/-!
# Byte-addressed memories

A RAM, a flash part and a staged buffer are all read here as total maps from
an offset to a byte.  This file gives the two operations the development needs
of them: reading a run of bytes as a list and overwriting a run with the bytes
of another map.  Nothing in it depends on a particular device.
-/

namespace RlxFw

/-- A byte at every offset. -/
abbrev ByteMap := Nat → UInt8

namespace ByteMap

/-- The `length` bytes that start at `start`. -/
def slice (memory : ByteMap) (start length : Nat) : List UInt8 :=
  (List.range length).map fun index => memory (start + index)

/-- Overwrite `[start, start + length)` with the first bytes of `source`. -/
def blit (memory : ByteMap) (start length : Nat) (source : ByteMap) : ByteMap :=
  fun offset =>
    if start ≤ offset ∧ offset < start + length then source (offset - start)
    else memory offset

/-- A list laid out from offset zero, with `filler` after it. -/
def ofList (bytes : List UInt8) (filler : UInt8) : ByteMap :=
  fun offset => bytes.getD offset filler

theorem ofList_append_right (front back : List UInt8) (filler : UInt8)
    (index : Nat) :
    ofList (front ++ back) filler (front.length + index) =
      ofList back filler index := by
  unfold ofList
  rw [List.getD_eq_getElem?_getD, List.getElem?_append_right (by omega),
    Nat.add_sub_cancel_left, List.getD_eq_getElem?_getD]

theorem ofList_append_left (front back : List UInt8) (filler : UInt8)
    {index : Nat} (early : index < front.length) :
    ofList (front ++ back) filler index = ofList front filler index := by
  unfold ofList
  rw [List.getD_eq_getElem?_getD, List.getElem?_append_left early,
    List.getD_eq_getElem?_getD]

/-- Two maps hold the same bytes on `[start, start + length)`. -/
def AgreeOn (left right : ByteMap) (start length : Nat) : Prop :=
  ∀ offset, start ≤ offset → offset < start + length →
    left offset = right offset

@[simp]
theorem slice_length (memory : ByteMap) (start length : Nat) :
    (memory.slice start length).length = length := by
  simp [slice]

@[simp]
theorem slice_zero (memory : ByteMap) (start : Nat) :
    memory.slice start 0 = [] := rfl

theorem slice_getElem (memory : ByteMap) (start length index : Nat)
    (inside : index < (memory.slice start length).length) :
    (memory.slice start length)[index] = memory (start + index) := by
  simp [slice]

/-- A run of a list is read back from where it was laid out. -/
theorem slice_ofList (front middle back : List UInt8) (filler : UInt8) :
    (ofList (front ++ (middle ++ back)) filler).slice front.length
      middle.length = middle := by
  apply List.ext_getElem (by simp)
  intro index _ inside
  rw [slice_getElem, ofList_append_right, ofList_append_left _ _ _ inside]
  simp [ofList, inside]

theorem slice_append (memory : ByteMap) (start first second : Nat) :
    memory.slice start (first + second) =
      memory.slice start first ++ memory.slice (start + first) second := by
  simp [slice, List.range_add, Nat.add_assoc]

theorem slice_eq_slice_iff {left right : ByteMap} {start start' length : Nat} :
    left.slice start length = right.slice start' length ↔
      ∀ index < length, left (start + index) = right (start' + index) := by
  simp [slice, List.map_inj_left]

theorem slice_congr {left right : ByteMap} {start length : Nat}
    (agree : AgreeOn left right start length) :
    left.slice start length = right.slice start length := by
  rw [slice_eq_slice_iff]
  intro index inside
  exact agree (start + index) (by omega) (by omega)

theorem AgreeOn.mono {left right : ByteMap} {start start' length length' : Nat}
    (agree : AgreeOn left right start length)
    (lower : start ≤ start') (upper : start' + length' ≤ start + length) :
    AgreeOn left right start' length' := by
  intro offset below above
  exact agree offset (by omega) (by omega)

theorem AgreeOn.symm {left right : ByteMap} {start length : Nat}
    (agree : AgreeOn left right start length) :
    AgreeOn right left start length := by
  intro offset below above
  exact (agree offset below above).symm

theorem AgreeOn.trans {left middle right : ByteMap} {start length : Nat}
    (first : AgreeOn left middle start length)
    (second : AgreeOn middle right start length) :
    AgreeOn left right start length := by
  intro offset below above
  exact (first offset below above).trans (second offset below above)

theorem blit_inside {memory source : ByteMap} {start length offset : Nat}
    (lower : start ≤ offset) (upper : offset < start + length) :
    memory.blit start length source offset = source (offset - start) := by
  simp [blit, lower, upper]

theorem blit_outside {memory source : ByteMap} {start length offset : Nat}
    (outside : offset < start ∨ start + length ≤ offset) :
    memory.blit start length source offset = memory offset := by
  have notInside : ¬ (start ≤ offset ∧ offset < start + length) := by omega
  simp [blit, notInside]

theorem blit_agreeOn_of_disjoint {memory source : ByteMap}
    {start length start' length' : Nat}
    (apart : start' + length' ≤ start ∨ start + length ≤ start') :
    AgreeOn (memory.blit start length source) memory start' length' := by
  intro offset below above
  exact blit_outside (by omega)

theorem slice_blit_self (memory source : ByteMap) (start length : Nat) :
    (memory.blit start length source).slice start length =
      source.slice 0 length := by
  rw [slice_eq_slice_iff]
  intro index inside
  rw [blit_inside (by omega) (by omega)]
  congr 1
  omega

/-- Two adjacent runs copied from adjacent places are one run. -/
theorem blit_append (memory source : ByteMap) (start first second : Nat) :
    (memory.blit start first source).blit (start + first) second
        (fun index => source (first + index)) =
      memory.blit start (first + second) source := by
  funext offset
  by_cases inSecond : start + first ≤ offset ∧ offset < start + first + second
  · rw [blit_inside inSecond.1 inSecond.2, blit_inside (by omega) (by omega)]
    congr 1
    omega
  · rw [blit_outside (by omega)]
    by_cases inFirst : start ≤ offset ∧ offset < start + first
    · rw [blit_inside inFirst.1 inFirst.2, blit_inside inFirst.1 (by omega)]
    · rw [blit_outside (by omega), blit_outside (by omega)]

@[simp]
theorem blit_zero (memory source : ByteMap) (start : Nat) :
    memory.blit start 0 source = memory := by
  funext offset
  exact blit_outside (by omega)

end ByteMap

end RlxFw
