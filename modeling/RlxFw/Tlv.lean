import RlxFw.ByteMap

/-!
# Type, length, value

`src/lib/tlv.c`: a reader that hands out only lengths it has checked, and a
writer that refuses what the reader would.  Ids ascend strictly, on both sides.
-/

namespace RlxFw.Tlv

/-- `TLV_HDR_LEN`. -/
def hdrLen : Nat := 4

/-- The refusals of a reader or a writer. -/
inductive Fault where
  | trunc
  | order
  | space
deriving DecidableEq, Repr

/-- Two bytes, high byte first. -/
def be16 (high low : UInt8) : Nat := high.toNat * 2 ^ 8 + low.toNat

/-- `tlv_get_be16`, at an offset. -/
def getBe16 (p : ByteMap) (off : Nat) : Nat := be16 (p off) (p (off + 1))

/-- `tlv_get_be32`, at an offset. -/
def getBe32 (p : ByteMap) (off : Nat) : Nat :=
  getBe16 p off * 2 ^ 16 + getBe16 p (off + 2)

/-- `tlv_put_be16`. -/
def putBe16 (v : Nat) : List UInt8 :=
  [UInt8.ofNat (v / 2 ^ 8), UInt8.ofNat v]

/-- `tlv_put_be32`. -/
def putBe32 (v : Nat) : List UInt8 :=
  [UInt8.ofNat (v / 2 ^ 24), UInt8.ofNat (v / 2 ^ 16), UInt8.ofNat (v / 2 ^ 8),
    UInt8.ofNat v]

/-- `struct tlv_reader`: the bytes not read yet, and the last id read. -/
structure Reader where
  rest : List UInt8
  last : Option Nat
deriving DecidableEq, Repr

/-- `tlv_reader_init`. -/
def readerInit (buf : List UInt8) : Reader := { rest := buf, last := none }

/-- An id may follow the last one. -/
def ascends (last : Option Nat) (type : Nat) : Bool :=
  last.all fun before => decide (before < type)

/-- What `tlv_next` hands out. -/
structure Item where
  type : Nat
  val : List UInt8
deriving DecidableEq, Repr

/-- `tlv_next`: an item and the reader after it, or the clean end. -/
def next (r : Reader) : Except Fault (Option (Item × Reader)) :=
  match r.rest with
  | [] => .ok none
  | t1 :: t0 :: l1 :: l0 :: body =>
      if be16 l1 l0 > body.length then .error .trunc
      else if ¬ ascends r.last (be16 t1 t0) then .error .order
      else
        .ok (some
          ({ type := be16 t1 t0, val := body.take (be16 l1 l0) },
            { rest := body.drop (be16 l1 l0), last := some (be16 t1 t0) }))
  | _ => .error .trunc

/-- A reader that handed out an item has fewer bytes left. -/
theorem next_rest_lt {r r' : Reader} {item : Item}
    (got : next r = .ok (some (item, r'))) :
    r'.rest.length < r.rest.length := by
  unfold next at got
  split at got
  · cases got
  · rename_i t1 t0 l1 l0 body rest
    split at got
    · cases got
    · split at got
      · cases got
      · cases got
        simp [rest]
        omega
  · cases got

/-- `struct tlv_writer`: the bytes written, the room, and the last id. -/
structure Writer where
  buf : List UInt8
  cap : Nat
  last : Option Nat
deriving DecidableEq, Repr

/-- `tlv_writer_init`. -/
def writerInit (cap : Nat) : Writer := { buf := [], cap := cap, last := none }

/-- The bytes of one item. -/
def itemBytes (type : Nat) (val : List UInt8) : List UInt8 :=
  putBe16 type ++ putBe16 val.length ++ val

/-- `tlv_write`. -/
def write (w : Writer) (type : Nat) (val : List UInt8) :
    Except Fault Writer :=
  if ¬ ascends w.last type then .error .order
  else
    let room := w.cap - w.buf.length
    if room < hdrLen ∨ val.length > room - hdrLen then .error .space
    else
      .ok { w with
        buf := w.buf ++ itemBytes type val
        last := some type }

/-- What a write that succeeded did. -/
theorem write_eq_ok {w w' : Writer} {type : Nat} {val : List UInt8}
    (written : write w type val = .ok w') :
    ascends w.last type = true ∧ w.buf.length + (hdrLen + val.length) ≤ w.cap ∧
      w' = { w with buf := w.buf ++ itemBytes type val, last := some type } := by
  unfold write at written
  split at written
  · cases written
  · rename_i ascending
    simp only at written
    split at written
    · cases written
    · cases written
      exact ⟨by simpa using ascending, by unfold hdrLen at *; omega, rfl⟩

theorem write_of_room {w : Writer} {type : Nat} {val : List UInt8}
    (ascending : ascends w.last type = true)
    (room : w.buf.length + (hdrLen + val.length) ≤ w.cap) :
    write w type val =
      .ok { w with buf := w.buf ++ itemBytes type val, last := some type } := by
  unfold write
  rw [if_neg (by simp [ascending])]
  exact if_neg (by unfold hdrLen at *; omega)

theorem be16_put {v : Nat} (small : v < 2 ^ 16) :
    be16 (UInt8.ofNat (v / 2 ^ 8)) (UInt8.ofNat v) = v := by
  unfold be16
  simp only [UInt8.toNat_ofNat']
  omega

@[simp]
theorem putBe16_length (v : Nat) : (putBe16 v).length = 2 := rfl

@[simp]
theorem putBe32_length (v : Nat) : (putBe32 v).length = 4 := rfl

theorem itemBytes_length (type : Nat) (val : List UInt8) :
    (itemBytes type val).length = hdrLen + val.length := by
  simp [itemBytes, hdrLen]
  omega

theorem getBe16_ofList {v : Nat} (small : v < 2 ^ 16)
    (front tail : List UInt8) (filler : UInt8) :
    getBe16 (ByteMap.ofList (front ++ (putBe16 v ++ tail)) filler)
      front.length = v := by
  have first := ByteMap.ofList_append_right front (putBe16 v ++ tail) filler
  unfold getBe16
  rw [← Nat.add_zero front.length, Nat.add_assoc, first, first]
  exact be16_put small

theorem getBe32_ofList {v : Nat} (small : v < 2 ^ 32)
    (front tail : List UInt8) (filler : UInt8) :
    getBe32 (ByteMap.ofList (front ++ (putBe32 v ++ tail)) filler)
      front.length = v := by
  have first := ByteMap.ofList_append_right front (putBe32 v ++ tail) filler
  unfold getBe32 getBe16
  rw [← Nat.add_zero front.length]
  simp only [Nat.add_assoc]
  rw [first, first, first, first]
  simp [ByteMap.ofList, putBe32, be16]
  omega

/-- A word is read from its own bytes alone. -/
theorem getBe16_congr {p q : ByteMap} {off : Nat}
    (same : ∀ i < 2, p (off + i) = q (off + i)) :
    getBe16 p off = getBe16 q off := by
  have first : p off = q off := same 0 (by omega)
  unfold getBe16
  rw [first, same 1 (by omega)]

theorem getBe32_congr {p q : ByteMap} {off : Nat}
    (same : ∀ i < 4, p (off + i) = q (off + i)) :
    getBe32 p off = getBe32 q off := by
  unfold getBe32
  have high : getBe16 p off = getBe16 q off :=
    getBe16_congr fun i small => same i (by omega)
  have low : getBe16 p (off + 2) = getBe16 q (off + 2) := by
    apply getBe16_congr
    intro i small
    rw [Nat.add_assoc]
    exact same (2 + i) (by omega)
  rw [high, low]

/-- What was written is what is read next. -/
theorem next_itemBytes {last : Option Nat} {type : Nat} {val : List UInt8}
    (tail : List UInt8) (typeSmall : type < 2 ^ 16)
    (valSmall : val.length < 2 ^ 16) (ascending : ascends last type = true) :
    next { rest := itemBytes type val ++ tail, last := last } =
      .ok (some ({ type := type, val := val },
        { rest := tail, last := some type })) := by
  have bytes : itemBytes type val ++ tail =
      UInt8.ofNat (type / 2 ^ 8) :: UInt8.ofNat type ::
        UInt8.ofNat (val.length / 2 ^ 8) :: UInt8.ofNat val.length ::
          (val ++ tail) := by
    simp [itemBytes, putBe16]
  unfold next
  rw [bytes]
  simp only [be16_put typeSmall, be16_put valSmall]
  rw [if_neg (by simp), if_neg (by simp [ascending])]
  simp

theorem putBe16_be16 (high low : UInt8) : putBe16 (be16 high low) = [high, low] := by
  have highLess := high.toNat_lt
  have lowLess := low.toNat_lt
  have front : be16 high low / 2 ^ 8 = high.toNat := by
    unfold be16
    omega
  have back : UInt8.ofNat (be16 high low) = low := by
    apply UInt8.toNat.inj
    rw [UInt8.toNat_ofNat']
    unfold be16
    omega
  rw [putBe16, front, back, UInt8.ofNat_toNat]

/-- Writing what was read gives back the bytes. -/
theorem putBe16_getBe16 (p : ByteMap) (off : Nat) :
    putBe16 (getBe16 p off) = p.slice off 2 :=
  putBe16_be16 _ _

theorem putBe32_eq (v : Nat) : putBe32 v = putBe16 (v / 2 ^ 16) ++ putBe16 v := by
  unfold putBe32 putBe16
  rw [Nat.div_div_eq_div_mul]
  rfl

theorem putBe16_mod (v : Nat) : putBe16 (v % 2 ^ 16) = putBe16 v := by
  have high : UInt8.ofNat (v % 2 ^ 16 / 2 ^ 8) = UInt8.ofNat (v / 2 ^ 8) := by
    apply UInt8.toNat.inj
    rw [UInt8.toNat_ofNat', UInt8.toNat_ofNat']
    omega
  have low : UInt8.ofNat (v % 2 ^ 16) = UInt8.ofNat v := by
    apply UInt8.toNat.inj
    rw [UInt8.toNat_ofNat', UInt8.toNat_ofNat']
    omega
  rw [putBe16, high, low, putBe16]

theorem getBe16_lt (p : ByteMap) (off : Nat) : getBe16 p off < 2 ^ 16 := by
  have high := (p off).toNat_lt
  have low := (p (off + 1)).toNat_lt
  unfold getBe16 be16
  omega

theorem getBe32_lt (p : ByteMap) (off : Nat) : getBe32 p off < 2 ^ 32 := by
  have high := getBe16_lt p off
  have low := getBe16_lt p (off + 2)
  unfold getBe32
  omega

theorem putBe32_getBe32 (p : ByteMap) (off : Nat) :
    putBe32 (getBe32 p off) = p.slice off 4 := by
  have low := getBe16_lt p (off + 2)
  have front : getBe32 p off / 2 ^ 16 = getBe16 p off := by
    unfold getBe32
    omega
  have back : getBe32 p off % 2 ^ 16 = getBe16 p (off + 2) := by
    unfold getBe32
    omega
  rw [putBe32_eq, front, ← putBe16_mod (getBe32 p off), back, putBe16_getBe16,
    putBe16_getBe16]
  exact (p.slice_append off 2 2).symm

/-- An item that was read is the item's bytes, and its id ascends. -/
theorem next_eq_item {r r' : Reader} {item : Item}
    (got : next r = .ok (some (item, r'))) :
    r.rest = itemBytes item.type item.val ++ r'.rest ∧
      ascends r.last item.type = true ∧ r'.last = some item.type := by
  unfold next at got
  split at got
  · cases got
  · rename_i t1 t0 l1 l0 body rest
    split_ifs at got with cut unordered
    cases got
    refine ⟨?_, by simpa using unordered, rfl⟩
    have length : (body.take (be16 l1 l0)).length = be16 l1 l0 :=
      List.length_take_of_le (by omega)
    rw [rest, itemBytes, length, putBe16_be16, putBe16_be16]
    simp
  · cases got

/-- A reader ends where nothing is left. -/
theorem rest_eq_nil_of_next {r : Reader} (ended : next r = .ok none) :
    r.rest = [] := by
  unfold next at ended
  split at ended
  · assumption
  · split_ifs at ended
    cases ended
  · cases ended

theorem ascends_trans {last : Option Nat} {type type' : Nat}
    (first : ascends last type = true) (second : type < type') :
    ascends last type' = true := by
  cases last with
  | none => rfl
  | some before =>
      have less : before < type := by simpa [ascends] using first
      simpa [ascends] using Nat.lt_trans less second

end RlxFw.Tlv
