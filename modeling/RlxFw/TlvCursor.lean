import RlxFw.BoundedMemory
import RlxFw.BytePairs
import RlxFw.Tlv

/-!
# Cursors over type, length, value

The reader and the writer of `src/lib/tlv.c` as they stand in a buffer: `size_t` positions of
32 bits, `uint16_t` ids and lengths, and accesses that fail outside the buffer.  `proto_tlv_get`
of `src/lib/proto.c` reads the same items without an order.
-/

namespace RlxFw.TlvCursor

open Tlv (Fault Item be16 getBe16 putBe16 itemBytes ascends)

/-! ## The two accessors -/

/-- `tlv_get_be16`; `proto_be16` has the same body. -/
def tlvGetBe16 (m : BoundedMemory) (p : Nat) : Option UInt16 :=
  if p + 2 ≤ m.size then
    some ((m.bytes p).toUInt16 <<< 8 ||| (m.bytes (p + 1)).toUInt16)
  else none

/-- `tlv_put_be16`. -/
def tlvPutBe16 (m : BoundedMemory) (p : Nat) (v : UInt16) : Option BoundedMemory :=
  m.write p [(v >>> 8).toUInt8, (v &&& 0xFF).toUInt8]

/-! ## The reader -/

/-- `struct tlv_reader`. -/
structure TlvReader where
  buf : BoundedMemory
  len : UInt32
  pos : UInt32
  last : UInt16
  started : Bool

/-- `tlv_reader_init`. -/
def tlvReaderInit (buf : BoundedMemory) (len : UInt32) : TlvReader :=
  { buf := buf, len := len, pos := 0, last := 0, started := false }

/-- `*type`, `*len` and `*val`, the last as an offset in the buffer. -/
structure Got where
  type : UInt16
  len : UInt16
  val : Nat
deriving DecidableEq, Repr

/-- What `tlv_next` returns: 0 with an item, 1, or a refusal. -/
inductive Ret where
  | item (got : Got)
  | ended
  | refused (fault : Fault)
deriving DecidableEq, Repr

/-- `tlv_next`. -/
def tlvNext (r : TlvReader) : Option (Ret × TlvReader) :=
  if r.pos > r.len then some (.refused .trunc, r)
  else
    let avail := r.len - r.pos
    if avail = 0 then some (.ended, r)
    else if avail < 4 then some (.refused .trunc, r)
    else do
      let t ← tlvGetBe16 r.buf r.pos.toNat
      let l ← tlvGetBe16 r.buf (r.pos.toNat + 2)
      if l.toUInt32 > avail - 4 then some (.refused .trunc, r)
      else if r.started ∧ t ≤ r.last then some (.refused .order, r)
      else
        some (.item { type := t, len := l, val := r.pos.toNat + 4 },
          { r with pos := r.pos + (4 + l.toUInt32), last := t, started := true })

/-- `proto_tlv_get`: what it hands out and the offset after it. -/
def protoTlvGet (buf : BoundedMemory) (n off : UInt32) : Option (Option (Got × UInt32)) :=
  if off > n ∨ n - off < 4 then some none
  else do
    let t ← tlvGetBe16 buf off.toNat
    let l ← tlvGetBe16 buf (off.toNat + 2)
    if n - off - 4 < l.toUInt32 then some none
    else
      some (some ({ type := t, len := l, val := off.toNat + 4 }, off + 4 + l.toUInt32))

/-! ## The writer -/

/-- `struct tlv_writer`. -/
structure TlvWriter where
  buf : BoundedMemory
  cap : UInt32
  pos : UInt32
  last : UInt16
  started : Bool

/-- `tlv_writer_init`. -/
def tlvWriterInit (buf : BoundedMemory) (cap : UInt32) : TlvWriter :=
  { buf := buf, cap := cap, pos := 0, last := 0, started := false }

/-- The bytes that one item puts at a position. -/
def putItem (m : BoundedMemory) (pos : Nat) (type : UInt16) (val : ByteMap) (len : UInt16) :
    Option BoundedMemory := do
  let m ← tlvPutBe16 m pos type
  let m ← tlvPutBe16 m (pos + 2) len
  if len ≠ 0 then m.write (pos + 4) (val.slice 0 len.toNat) else some m

/-- `tlv_write`. -/
def tlvWrite (w : TlvWriter) (type : UInt16) (val : ByteMap) (len : UInt16) :
    Option (Except Fault TlvWriter) :=
  if w.started ∧ type ≤ w.last then some (.error .order)
  else if w.pos > w.cap then some (.error .space)
  else
    let room := w.cap - w.pos
    if room < 4 ∨ len.toUInt32 > room - 4 then some (.error .space)
    else do
      let buf ← putItem w.buf w.pos.toNat type val len
      some (.ok { w with
        buf := buf
        pos := w.pos + (4 + len.toUInt32)
        last := type
        started := true })

/-- `tlv_writer_len`. -/
def tlvWriterLen (w : TlvWriter) : UInt32 := w.pos

/-! ## Sizes that do not wrap -/

section Sizes

variable {n off : UInt32} {l : UInt16}

theorem left_toNat (before : off.toNat ≤ n.toNat) :
    (n - off).toNat = n.toNat - off.toNat :=
  UInt32.toNat_sub_of_le _ _ (UInt32.le_iff_toNat_le.mpr before)

/-- No header is left. -/
theorem left_lt_four_iff (before : off.toNat ≤ n.toNat) :
    n - off < 4 ↔ n.toNat - off.toNat < 4 := by
  rw [UInt32.lt_iff_toNat_lt, left_toNat before]
  rfl

/-- A length runs past what is left behind a header. -/
theorem room_lt_iff (header : off.toNat + 4 ≤ n.toNat) :
    n - off - 4 < l.toUInt32 ↔ n.toNat - off.toNat - 4 < l.toNat := by
  have left := left_toNat (show off.toNat ≤ n.toNat by omega)
  have enough : (4 : UInt32) ≤ n - off := by
    rw [UInt32.le_iff_toNat_le, left]
    change 4 ≤ _
    omega
  rw [UInt32.lt_iff_toNat_lt, UInt32.toNat_sub_of_le _ _ enough, left, UInt16.toNat_toUInt32]
  rfl

/-- The position behind an item that fits. -/
theorem past_toNat (fits : off.toNat + (4 + l.toNat) ≤ n.toNat) :
    (off + (4 + l.toUInt32)).toNat = off.toNat + (4 + l.toNat) := by
  have small := n.toNat_lt
  have four : (4 : UInt32).toNat = 4 := rfl
  rw [UInt32.toNat_add, UInt32.toNat_add, UInt16.toNat_toUInt32]
  omega

end Sizes

/-! ## What is read and written -/

/-- The id before, if any. -/
def lastId (started : Bool) (last : UInt16) : Option Nat :=
  if started then some last.toNat else none

theorem ascends_lastId {started : Bool} {last type : UInt16} :
    ascends (lastId started last) type.toNat = true ↔ ¬ (started = true ∧ type ≤ last) := by
  cases started
  · simp [lastId, ascends]
  · simp [lastId, ascends, UInt16.lt_iff_toNat_lt]

theorem tlvGetBe16_eq {m : BoundedMemory} {p : Nat} (inside : p + 2 ≤ m.size) :
    ∃ v, tlvGetBe16 m p = some v ∧ v.toNat = getBe16 m.bytes p :=
  ⟨_, if_pos inside, BytePairs.toNat_of_pair _ _⟩

/-- `tlv_put_be16` writes the two bytes of the format. -/
theorem tlvPutBe16_eq (m : BoundedMemory) (p : Nat) (v : UInt16) :
    tlvPutBe16 m p v = m.write p (putBe16 v.toNat) := by
  have high : (v >>> 8).toUInt8 = UInt8.ofNat (v.toNat / 2 ^ 8) := by
    apply UInt8.toNat.inj
    have less := v.toNat_lt
    rw [BytePairs.toNat_high, UInt8.toNat_ofNat']
    omega
  have low : (v &&& 0xFF).toUInt8 = UInt8.ofNat v.toNat := by
    apply UInt8.toNat.inj
    rw [BytePairs.toNat_low, UInt8.toNat_ofNat']
  rw [tlvPutBe16, high, low]
  rfl

/-- The item that lies where it was got. -/
def Got.item (bytes : ByteMap) (got : Got) : Item :=
  { type := got.type.toNat, val := bytes.slice got.val got.len.toNat }

/-- A reader whose buffer is as long as it says, and whose position is in it. -/
structure TlvReader.Held (r : TlvReader) : Prop where
  size : r.buf.size = r.len.toNat
  pos : r.pos.toNat ≤ r.len.toNat

/-- The bytes not read yet, and the last id. -/
def TlvReader.abs (r : TlvReader) : Tlv.Reader :=
  { rest := r.buf.bytes.slice r.pos.toNat (r.len.toNat - r.pos.toNat)
    last := lastId r.started r.last }

/-- An item was handed out from where the reader stood. -/
structure Taken (r : TlvReader) (got : Got) (r' : TlvReader) : Prop where
  type : tlvGetBe16 r.buf r.pos.toNat = some got.type
  len : tlvGetBe16 r.buf (r.pos.toNat + 2) = some got.len
  val : got.val = r.pos.toNat + 4
  inside : got.val + got.len.toNat ≤ r.len.toNat
  moved : r'.pos.toNat = got.val + got.len.toNat
  left : r' = { r with pos := r'.pos, last := got.type, started := true }


/-! ## One call of the reader -/

theorem Taken.held {r r' : TlvReader} {got : Got} (held : r.Held) (taken : Taken r got r') :
    r'.Held := by
  rw [taken.left]
  exact ⟨held.size, by rw [taken.moved]; exact taken.inside⟩

theorem Taken.bytes {r r' : TlvReader} {got : Got} (taken : Taken r got r') :
    r'.buf = r.buf ∧ r'.len = r.len := by
  rw [taken.left]
  exact ⟨rfl, rfl⟩

/-- The header that was read is the item's. -/
theorem header_of_reads {m : BoundedMemory} {p : Nat} {t l : UInt16}
    (inside : p + 4 ≤ m.size) (type : tlvGetBe16 m p = some t)
    (len : tlvGetBe16 m (p + 2) = some l) :
    m.bytes.slice p 4 = putBe16 t.toNat ++ putBe16 l.toNat := by
  obtain ⟨t', got, typeEq⟩ := tlvGetBe16_eq (show p + 2 ≤ m.size by omega)
  obtain ⟨l', got', lenEq⟩ := tlvGetBe16_eq (show p + 2 + 2 ≤ m.size by omega)
  cases type.symm.trans got
  cases len.symm.trans got'
  rw [typeEq, lenEq, Tlv.putBe16_getBe16, Tlv.putBe16_getBe16]
  exact m.bytes.slice_append p 2 2

/-- The whole item lies where its header does. -/
theorem Taken.itemBytes {r r' : TlvReader} {got : Got} (held : r.Held)
    (taken : Taken r got r') :
    r.buf.bytes.slice r.pos.toNat (4 + got.len.toNat) =
      itemBytes (got.item r.buf.bytes).type (got.item r.buf.bytes).val := by
  have inside := taken.inside
  have header := header_of_reads (by have := held.size; have := taken.val; omega)
    taken.type taken.len
  rw [ByteMap.slice_append, header, Tlv.itemBytes, Got.item, ByteMap.slice_length, taken.val]

/-- What was read before and what is left make what was left before. -/
theorem Taken.rest {r r' : TlvReader} {got : Got} (held : r.Held) (taken : Taken r got r') :
    r.abs.rest =
      Tlv.itemBytes (got.item r.buf.bytes).type (got.item r.buf.bytes).val ++ r'.abs.rest := by
  have inside := taken.inside
  have val := taken.val
  have moved := taken.moved
  obtain ⟨buf, len⟩ := taken.bytes
  have count : r.len.toNat - r.pos.toNat =
      (4 + got.len.toNat) + (r'.len.toNat - r'.pos.toNat) := by
    rw [len]
    omega
  have place : r.pos.toNat + (4 + got.len.toNat) = r'.pos.toNat := by omega
  rw [TlvReader.abs, TlvReader.abs]
  dsimp only
  rw [count, ByteMap.slice_append, taken.itemBytes held, place, buf]


/-! ## One call of the reader -/

/-- A reader of lists stops at a part of a header. -/
theorem next_partial {rest : List UInt8} {last : Option Nat} (some_ : rest ≠ [])
    (short : rest.length < 4) : Tlv.next { rest := rest, last := last } = .error .trunc := by
  match rest, some_, short with
  | [_], _, _ => rfl
  | [_, _], _, _ => rfl
  | [_, _, _], _, _ => rfl

/-- What a reader of lists does where a header lies in a buffer. -/
theorem next_slice (bytes : ByteMap) (p n : Nat) (last : Option Nat) :
    Tlv.next { rest := bytes.slice p (4 + n), last := last } =
      if getBe16 bytes (p + 2) > n then .error .trunc
      else if ¬ ascends last (getBe16 bytes p) then .error .order
      else
        .ok (some
          ({ type := getBe16 bytes p, val := bytes.slice (p + 4) (getBe16 bytes (p + 2)) },
            { rest := bytes.slice (p + 4 + getBe16 bytes (p + 2)) (n - getBe16 bytes (p + 2))
              last := some (getBe16 bytes p) })) := by
  have header : bytes.slice p (4 + n) = bytes p :: bytes (p + 1) :: bytes (p + 2) ::
      bytes (p + 3) :: bytes.slice (p + 4) n := by
    rw [ByteMap.slice_append]
    rfl
  rw [header]
  change (if getBe16 bytes (p + 2) > (bytes.slice (p + 4) n).length then _ else _) = _
  rw [ByteMap.slice_length]
  by_cases cut : getBe16 bytes (p + 2) > n
  · rw [if_pos cut, if_pos cut]
  · obtain ⟨more, rfl⟩ := Nat.exists_eq_add_of_le (not_lt.mp cut)
    rw [if_neg cut, if_neg cut, Nat.add_sub_cancel_left, ByteMap.slice_append]
    change (if ¬ ascends last (getBe16 bytes p) then _ else
      Except.ok (some (Item.mk (getBe16 bytes p) (List.take (getBe16 bytes (p + 2)) _),
        Tlv.Reader.mk (List.drop (getBe16 bytes (p + 2)) _) (some (getBe16 bytes p))))) = _
    rw [List.take_left' (ByteMap.slice_length _ _ _), List.drop_left' (ByteMap.slice_length _ _ _)]

/-- What `tlv_next` does with a held reader: an item, the clean end or a refusal, each where
the reader of lists has it. -/
theorem tlvNext_cases {r : TlvReader} (held : r.Held) :
    (∃ got r', tlvNext r = some (.item got, r') ∧ Taken r got r' ∧
      ascends r.abs.last got.type.toNat = true ∧
      Tlv.next r.abs = .ok (some (got.item r.buf.bytes, r'.abs))) ∨
    (tlvNext r = some (.ended, r) ∧ r.pos = r.len ∧ Tlv.next r.abs = .ok none) ∨
    (∃ fault, tlvNext r = some (.refused fault, r) ∧ Tlv.next r.abs = .error fault) := by
  have size := held.size
  have before := held.pos
  have availNat := left_toNat before
  unfold tlvNext
  rw [if_neg (by rw [gt_iff_lt, UInt32.lt_iff_toNat_lt]; omega)]
  dsimp only
  by_cases none_ : r.len - r.pos = 0
  · have same : r.len.toNat - r.pos.toNat = 0 := by rw [← availNat, none_]; rfl
    refine .inr (.inl ⟨if_pos none_, ?_, ?_⟩)
    · apply UInt32.toNat_inj.mp
      omega
    · rw [TlvReader.abs, same]
      rfl
  rw [if_neg none_]
  have more : r.len.toNat - r.pos.toNat ≠ 0 := by
    intro zero
    exact none_ (UInt32.toNat_inj.mp (by rw [availNat, zero]; rfl))
  by_cases short : r.len - r.pos < 4
  · have few := (left_lt_four_iff before).mp short
    refine .inr (.inr ⟨.trunc, if_pos short, next_partial ?_ (by simpa using few)⟩)
    exact List.ne_nil_of_length_pos (by rw [ByteMap.slice_length]; omega)
  rw [if_neg short]
  have enough := not_lt.mp (mt (left_lt_four_iff before).mpr short)
  obtain ⟨n, count⟩ := Nat.exists_eq_add_of_le enough
  obtain ⟨t, type, typeNat⟩ := tlvGetBe16_eq (m := r.buf) (p := r.pos.toNat) (by omega)
  obtain ⟨l, len, lenNat⟩ := tlvGetBe16_eq (m := r.buf) (p := r.pos.toNat + 2) (by omega)
  have listed := next_slice r.buf.bytes r.pos.toNat n r.abs.last
  rw [← typeNat, ← lenNat] at listed
  have abs : r.abs =
      { rest := r.buf.bytes.slice r.pos.toNat (4 + n), last := r.abs.last } := by
    rw [← count]
    rfl
  rw [← abs] at listed
  rw [listed, type, len]
  dsimp only [Option.bind_eq_bind, Option.bind_some]
  have wide : l.toUInt32 > r.len - r.pos - 4 ↔ l.toNat > n := by
    rw [gt_iff_lt, room_lt_iff (by omega), count, Nat.add_sub_cancel_left]
  by_cases cut : l.toNat > n
  · exact .inr (.inr ⟨.trunc, if_pos (wide.mpr cut), if_pos cut⟩)
  rw [if_neg (mt wide.mp cut), if_neg cut]
  by_cases unordered : r.started = true ∧ t ≤ r.last
  · refine .inr (.inr ⟨.order, if_pos unordered, if_pos ?_⟩)
    intro ascending
    exact ascends_lastId.mp ascending unordered
  have ascending : ascends r.abs.last t.toNat = true := ascends_lastId.mpr unordered
  have moved : (r.pos + (4 + l.toUInt32)).toNat = r.pos.toNat + 4 + l.toNat := by
    rw [Nat.add_assoc]
    exact past_toNat (n := r.len) (by omega)
  rw [if_neg unordered, if_neg (not_not.mpr ascending)]
  refine .inl ⟨_, _, rfl, ⟨type, len, rfl, ?_, moved, rfl⟩, ascending, ?_⟩
  · dsimp only
    omega
  · rw [TlvReader.abs, Got.item]
    dsimp only
    rw [moved]
    have left : r.len.toNat - (r.pos.toNat + 4 + l.toNat) = n - l.toNat := by omega
    rw [left]
    rfl

/-! ## One call of the writer -/

/-- A writer whose buffer is as long as it says, and whose position is in it. -/
structure TlvWriter.Held (w : TlvWriter) : Prop where
  size : w.buf.size = w.cap.toNat
  pos : w.pos.toNat ≤ w.cap.toNat

/-- The bytes written, the room there was, and the last id. -/
def TlvWriter.abs (w : TlvWriter) : Tlv.Writer :=
  { buf := w.buf.bytes.slice 0 w.pos.toNat
    cap := w.cap.toNat
    last := lastId w.started w.last }

/-- An item that fits is put in its place, and what is before it stays. -/
theorem putItem_eq (m : BoundedMemory) (pos : Nat) (type : UInt16) (val : ByteMap)
    (len : UInt16) (room : pos + (4 + len.toNat) ≤ m.size) :
    ∃ m', putItem m pos type val len = some m' ∧ m'.size = m.size ∧
      m'.bytes.slice 0 pos = m.bytes.slice 0 pos ∧
      m'.bytes.slice pos (4 + len.toNat) = itemBytes type.toNat (val.slice 0 len.toNat) := by
  obtain ⟨m₁, put₁, written₁⟩ := m.exists_write pos (putBe16 type.toNat)
    (by rw [Tlv.putBe16_length]; omega)
  obtain ⟨m₂, put₂, written₂⟩ := m₁.exists_write (pos + 2) (putBe16 len.toNat)
    (by rw [Tlv.putBe16_length, written₁.size]; omega)
  obtain ⟨m₃, put₃, written₃⟩ := m₂.exists_write (pos + 4) (val.slice 0 len.toNat)
    (by rw [ByteMap.slice_length, written₂.size, written₁.size]; omega)
  have first₁ := written₁.here
  have first₂ := written₂.here
  have first₃ := written₃.here
  rw [Tlv.putBe16_length] at first₁ first₂
  rw [ByteMap.slice_length] at first₃
  have header : m₂.bytes.slice pos 4 = putBe16 type.toNat ++ putBe16 len.toNat := by
    rw [show (4 : Nat) = 2 + 2 from rfl, ByteMap.slice_append, first₂,
      written₂.apart (.inl (le_refl _)), first₁]
  have below₁ : m₁.bytes.slice 0 pos = m.bytes.slice 0 pos := written₁.apart (.inl (by omega))
  have below₂ : m₂.bytes.slice 0 pos = m₁.bytes.slice 0 pos := written₂.apart (.inl (by omega))
  have headed : putItem m pos type val len =
      if len ≠ 0 then m₂.write (pos + 4) (val.slice 0 len.toNat) else some m₂ := by
    rw [putItem, tlvPutBe16_eq, put₁]
    dsimp only [Option.bind_eq_bind, Option.bind_some]
    rw [tlvPutBe16_eq, put₂]
    rfl
  by_cases empty : len = 0
  · refine ⟨m₂, headed.trans (if_neg (not_not.mpr empty)), ?_, below₂.trans below₁, ?_⟩
    · rw [written₂.size, written₁.size]
    · subst empty
      simpa [itemBytes] using header
  · refine ⟨m₃, headed.trans ((if_pos empty).trans put₃), ?_, ?_, ?_⟩
    · rw [written₃.size, written₂.size, written₁.size]
    · exact (written₃.apart (.inl (by omega))).trans (below₂.trans below₁)
    · rw [ByteMap.slice_append, first₃, written₃.apart (.inl (le_refl _)), header, itemBytes,
        ByteMap.slice_length]

/-- What `tlv_write` does with a held writer is what the writer of lists does. -/
theorem tlvWrite_refines {w : TlvWriter} (held : w.Held) (type : UInt16) (val : ByteMap)
    (len : UInt16) :
    ∃ result, tlvWrite w type val len = some result ∧
      result.map TlvWriter.abs = Tlv.write w.abs type.toNat (val.slice 0 len.toNat) ∧
      ∀ w', result = .ok w' → w'.Held := by
  have size := held.size
  have before := held.pos
  unfold tlvWrite Tlv.write
  by_cases unordered : w.started = true ∧ type ≤ w.last
  · refine ⟨_, if_pos unordered, ?_, fun _ refused => by cases refused⟩
    rw [if_pos]
    · rfl
    · intro ascending
      exact ascends_lastId.mp ascending unordered
  have ascending : ascends w.abs.last type.toNat = true := ascends_lastId.mpr unordered
  rw [if_neg unordered, if_neg (by rw [gt_iff_lt, UInt32.lt_iff_toNat_lt]; omega),
    if_neg (not_not.mpr ascending)]
  dsimp only
  have written : w.abs.buf.length = w.pos.toNat := ByteMap.slice_length _ _ _
  have cap : w.abs.cap = w.cap.toNat := rfl
  have full : (w.cap - w.pos < 4 ∨ len.toUInt32 > w.cap - w.pos - 4) ↔
      (w.abs.cap - w.abs.buf.length < Tlv.hdrLen ∨
        (val.slice 0 len.toNat).length > w.abs.cap - w.abs.buf.length - Tlv.hdrLen) := by
    rw [written, cap, ByteMap.slice_length, Tlv.hdrLen, left_lt_four_iff before]
    refine or_congr_right' fun header => ?_
    rw [gt_iff_lt, room_lt_iff (by omega)]
  by_cases tooMuch : w.cap - w.pos < 4 ∨ len.toUInt32 > w.cap - w.pos - 4
  · rw [if_pos tooMuch, if_pos (full.mp tooMuch)]
    exact ⟨_, rfl, rfl, fun _ refused => by cases refused⟩
  rw [if_neg tooMuch, if_neg (mt full.mpr tooMuch)]
  have fits := mt full.mpr tooMuch
  rw [written, cap, ByteMap.slice_length, Tlv.hdrLen] at fits
  obtain ⟨m, put, kept, below, here⟩ := putItem_eq w.buf w.pos.toNat type val len (by omega)
  have moved : (w.pos + (4 + len.toUInt32)).toNat = w.pos.toNat + (4 + len.toNat) :=
    past_toNat (n := w.cap) (by omega)
  rw [put]
  refine ⟨_, rfl, ?_, ?_⟩
  · change Except.ok (TlvWriter.abs _) = _
    rw [TlvWriter.abs, TlvWriter.abs]
    dsimp only
    rw [moved, ByteMap.slice_append, Nat.zero_add, below, here]
    rfl
  · rintro w' ⟨⟩
    exact ⟨kept.trans size, by rw [moved]; dsimp only; omega⟩

end RlxFw.TlvCursor
