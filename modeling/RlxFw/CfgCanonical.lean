import RlxFw.CfgRoundTrip
import Mathlib.Data.List.Sort

/-!
# One encoding for each configuration

A record that parses is the one that encoding its configuration gives, byte for
byte: the walk accepts only the present keys, once each and in table order.
-/

namespace RlxFw.CfgStore

open Crc32 (crc32Ieee)
open Tlv (getBe16 getBe32 putBe16 putBe32)

/-- The keys of `is` that are present, and their values. -/
def present (c : Cfg) (is : List (Fin nkeys)) :
    List (Fin nkeys × List UInt8) :=
  is.filterMap fun i => (c.value i).map (Prod.mk i)

/-- The payload bytes of a list of values. -/
def itemsBytes (items : List (Fin nkeys × List UInt8)) : List UInt8 :=
  items.flatMap fun p => Tlv.itemBytes (cfgKeys p.1).id p.2

/-- Keys in table order, each once. -/
def InOrder (items : List (Fin nkeys × List UInt8)) : Prop :=
  items.Pairwise fun p q => p.1 < q.1

theorem mem_present {c : Cfg} {is : List (Fin nkeys)} {i : Fin nkeys}
    {v : List UInt8} : (i, v) ∈ present c is ↔ i ∈ is ∧ c.value i = some v := by
  simp [present]

theorem inOrder_present (c : Cfg) : InOrder (present c (List.finRange nkeys)) := by
  unfold InOrder present
  rw [List.pairwise_filterMap]
  refine (List.pairwise_lt_finRange nkeys).imp ?_
  intro i j less p first q second
  obtain ⟨v, -, rfl⟩ := Option.map_eq_some_iff.mp first
  obtain ⟨w, -, rfl⟩ := Option.map_eq_some_iff.mp second
  exact less

/-- Two lists in order with the same items are the same list. -/
theorem InOrder.eq_of_mem_iff {items items' : List (Fin nkeys × List UInt8)}
    (first : InOrder items) (second : InOrder items')
    (same : ∀ p, p ∈ items ↔ p ∈ items') : items = items' := by
  let before : Fin nkeys × List UInt8 → Fin nkeys × List UInt8 → Prop :=
    fun p q => p.1 < q.1
  have : Std.Irrefl before := ⟨fun p => lt_irrefl p.1⟩
  have : Std.Antisymm before :=
    ⟨fun p q less more => absurd less (lt_asymm more)⟩
  exact List.Pairwise.eq_of_mem_iff first second same

/-! ## What the walk accepts -/

theorem decodeItem_inv {tmp tmp' : Cfg} {item : Tlv.Item}
    (decoded : decodeItem tmp item = .ok tmp') :
    ∃ i, (cfgKeys i).id = item.type ∧
      schemaCheckValue (cfgKeys i) item.val = none ∧ tmp.value i = none ∧
      tmp' = { tmp with value := Function.update tmp.value i (some item.val) } := by
  unfold decodeItem at decoded
  split at decoded
  · cases decoded
  rename_i i found
  split at decoded
  · cases decoded
  split at decoded
  · cases decoded
  rename_i checked
  split at decoded
  · cases decoded
  rename_i blank
  cases decoded
  exact ⟨i, cfgKeys_of_index found, checked, by simpa using blank, rfl⟩

theorem lt_of_id_lt {i j : Fin nkeys}
    (less : (cfgKeys i).id < (cfgKeys j).id) : i < j := by
  rcases lt_trichotomy i j with before | same | after
  · exact before
  · exact absurd less (by rw [same]; exact lt_irrefl _)
  · exact absurd (cfgKeys_ascend j i after) (lt_asymm less)

/-- What a payload that the walk accepts is made of. -/
structure ReadItems (r : Tlv.Reader) (tmp c : Cfg)
    (items : List (Fin nkeys × List UInt8)) : Prop where
  bytes : r.rest = itemsBytes items
  inOrder : InOrder items
  ascending : ∀ p ∈ items, Tlv.ascends r.last (cfgKeys p.1).id = true
  checked : ∀ p ∈ items, schemaCheckValue (cfgKeys p.1) p.2 = none
  values : ∀ i v, c.value i = some v ↔ (i, v) ∈ items ∨ tmp.value i = some v

theorem exists_items_of_walk {r : Tlv.Reader} {tmp c : Cfg}
    (read : walk r tmp = .ok c) : ∃ items, ReadItems r tmp c items := by
  induction r, tmp using walk.induct with
  | case1 r tmp step =>
      rw [walk, step] at read
      cases read
  | case2 r tmp fault _ step =>
      rw [walk, step] at read
      cases fault <;> cases read
  | case3 r tmp step =>
      rw [walk, step] at read
      cases read
      exact ⟨[], Tlv.rest_eq_nil_of_next step, .nil, List.forall_mem_nil _,
        List.forall_mem_nil _, by simp⟩
  | case4 r tmp item r' step fault decoded =>
      rw [walk, step] at read
      simp only [decoded] at read
      cases read
  | case5 r tmp item r' step tmp' decoded ih =>
      rw [walk, step] at read
      simp only [decoded] at read
      obtain ⟨items, later⟩ := ih read
      obtain ⟨i, id, checked, blank, rfl⟩ := decodeItem_inv decoded
      obtain ⟨bytes, ascending, last⟩ := Tlv.next_eq_item step
      have after : ∀ p ∈ items, (cfgKeys i).id < (cfgKeys p.1).id := by
        intro p member
        have ascends := later.ascending p member
        rw [last] at ascends
        rw [id]
        simpa [Tlv.ascends] using ascends
      refine ⟨(i, item.val) :: items, ?_, ?_, ?_, ?_, ?_⟩
      · rw [bytes, later.bytes, ← id]
        rfl
      · exact List.pairwise_cons.mpr
          ⟨fun p member => lt_of_id_lt (after p member), later.inOrder⟩
      · rintro p (_ | ⟨_, member⟩)
        · rw [id]
          exact ascending
        · exact Tlv.ascends_trans (id ▸ ascending) (after p member)
      · rintro p (_ | ⟨_, member⟩)
        · exact checked
        · exact later.checked p member
      · intro j v
        rw [later.values j v]
        by_cases same : j = i
        · subst same
          simp [blank, or_comm, eq_comm]
        · simp [same]

/-! ## What the encoder writes -/

/-- Every present value passes its own check. -/
def Checked (c : Cfg) : Prop :=
  ∀ i v, c.value i = some v → schemaCheckValue (cfgKeys i) v = none

/-- With room for them, the encoder writes the present keys. -/
theorem encodeKeys_eq_present {c : Cfg} (checked : Checked c)
    {is : List (Fin nkeys)} (sorted : is.Pairwise (· < ·)) (w : Tlv.Writer)
    (ascending : ∀ i ∈ is, Tlv.ascends w.last (cfgKeys i).id = true)
    (room : w.buf.length + (itemsBytes (present c is)).length ≤ w.cap) :
    ∃ w', encodeKeys c is w = .ok w' ∧
      w'.buf = w.buf ++ itemsBytes (present c is) := by
  induction is generalizing w with
  | nil => exact ⟨w, rfl, by simp [present, itemsBytes]⟩
  | cons i is ih =>
      obtain ⟨first, sorted⟩ := List.pairwise_cons.mp sorted
      cases value : c.value i with
      | none =>
          have skipped : present c (i :: is) = present c is := by
            simp [present, value]
          rw [skipped] at room ⊢
          obtain ⟨w', encoded, bytes⟩ := ih sorted w
            (fun j member => ascending j (List.mem_cons_of_mem _ member)) room
          refine ⟨w', ?_, bytes⟩
          rw [encodeKeys]
          simp only [value, encoded]
      | some v =>
          have kept : present c (i :: is) = (i, v) :: present c is := by
            simp [present, value]
          have split : itemsBytes (present c (i :: is)) =
              Tlv.itemBytes (cfgKeys i).id v ++ itemsBytes (present c is) := by
            rw [kept]
            rfl
          rw [split, List.length_append, Tlv.itemBytes_length] at room
          have passed := checked i v value
          have written := Tlv.write_of_room (ascending i List.mem_cons_self)
            (show w.buf.length + (Tlv.hdrLen + v.length) ≤ w.cap by omega)
          obtain ⟨w', encoded, bytes⟩ := ih sorted
            { w with
              buf := w.buf ++ Tlv.itemBytes (cfgKeys i).id v
              last := some (cfgKeys i).id }
            (fun j member => by
              simpa [Tlv.ascends] using cfgKeys_ascend i j (first j member))
            (by simp only [List.length_append, Tlv.itemBytes_length]; omega)
          refine ⟨w', ?_, by rw [bytes, split, List.append_assoc]⟩
          rw [encodeKeys]
          simp only [value, passed, written, encoded,
            if_neg (Nat.not_lt.mpr (length_le_of_checked passed))]

theorem itemsBytes_length_le {c : Cfg} (checked : Checked c)
    (is : List (Fin nkeys)) :
    (itemsBytes (present c is)).length ≤ is.length * (Tlv.hdrLen + valMax) := by
  induction is with
  | nil => simp [present, itemsBytes]
  | cons i is ih =>
      rw [List.length_cons, Nat.succ_mul]
      cases value : c.value i with
      | none =>
          have skipped : present c (i :: is) = present c is := by
            simp [present, value]
          rw [skipped]
          exact ih.trans (Nat.le_add_right _ _)
      | some v =>
          have split : itemsBytes (present c (i :: is)) =
              Tlv.itemBytes (cfgKeys i).id v ++ itemsBytes (present c is) := by
            simp [present, value, itemsBytes]
          have short := length_le_of_checked (checked i v value)
          rw [split, List.length_append, Tlv.itemBytes_length]
          omega

/-- With room for them, a record of the present keys is what is encoded. -/
theorem encodeRecord_eq_present {c : Cfg} (checked : Checked c) {seq n : Nat}
    (above : seqMin ≤ seq) (below : seq ≤ seqMax)
    (room : hdrLen + (itemsBytes (present c (List.finRange nkeys))).length ≤ n)
    (fits : (itemsBytes (present c (List.finRange nkeys))).length ≤
      slotSize - hdrLen) :
    encodeRecord c seq n =
      .ok (recordBytes seq (itemsBytes (present c (List.finRange nkeys)))) := by
  unfold encodeRecord
  rw [if_neg (by omega), if_neg (by omega), bind_eq_ok_iff]
  obtain ⟨w, encoded, bytes⟩ := encodeKeys_eq_present checked
    (List.pairwise_lt_finRange nkeys)
    (Tlv.writerInit (min (n - hdrLen) (slotSize - hdrLen)))
    (fun _ _ => rfl) (by
      change 0 + _ ≤ min _ _
      omega)
  exact ⟨w, encoded, by rw [bytes]; rfl⟩

theorem encodeRecord_isOk {c : Cfg} (checked : Checked c) {seq n : Nat}
    (above : seqMin ≤ seq) (below : seq ≤ seqMax) (room : slotSize ≤ n) :
    ∃ record, encodeRecord c seq n = .ok record := by
  have length := itemsBytes_length_le checked (List.finRange nkeys)
  rw [List.length_finRange] at length
  have fits : nkeys * (Tlv.hdrLen + valMax) ≤ slotSize - hdrLen := by decide
  have wide : hdrLen ≤ slotSize := by decide
  exact ⟨_, encodeRecord_eq_present checked above below (by omega) (by omega)⟩

/-! ## Both ways -/

/-- What was encoded parses to it, whatever bytes follow. -/
theorem parseRecord_of_encodeRecord {c : Cfg} {seq n m : Nat}
    {record : List UInt8} {buf : ByteMap} (valid : cfgValidate c = .ok ())
    (encoded : encodeRecord c seq n = .ok record)
    (starts : buf.slice 0 record.length = record) (room : record.length ≤ m) :
    parseRecord buf m = .ok { c with seq := seq, source := 0 } := by
  obtain ⟨payload, encoded⟩ := exists_payload_of_encodeRecord encoded
  have whole : (ByteMap.ofList record fill).slice 0 record.length = record := by
    have same := ByteMap.slice_ofList [] record [] fill
    rwa [List.append_nil, List.nil_append] at same
  have agree := ByteMap.slice_eq_slice_iff.mp (whole.trans starts.symm)
  refine parseRecord_congr (encoded.parse valid) (fun i _ upper => ?_)
    (by rw [encoded.recordLen]; exact room)
  rw [encoded.recordLen] at upper
  simpa using agree i (by omega)

/-- The twenty-four bytes of a header that the parser accepts. -/
theorem slice_header_of_headerFault {buf : ByteMap}
    (header : headerFault buf = none) {payload : List UInt8}
    (length : payload.length = getBe32 buf 12)
    (crc : (crc32Ieee 0 payload).toNat = getBe32 buf 16) :
    headerFront (getBe32 buf 8) payload ++
        putBe32 (crc32Ieee 0 (headerFront (getBe32 buf 8) payload)).toNat =
      buf.slice 0 hdrLen := by
  unfold headerFault at header
  split_ifs at header with badCrc badMagic badFormat badSeq badLen
  have front : headerFront (getBe32 buf 8) payload = buf.slice 0 20 := by
    unfold headerFront
    rw [crc, length, ← not_not.mp badMagic, ← not_not.mp (not_or.mp badFormat).1,
      ← not_not.mp (not_or.mp badFormat).2]
    simp only [Tlv.putBe32_getBe32, Tlv.putBe16_getBe16]
    rw [← ByteMap.slice_append buf 0 4 2, ← ByteMap.slice_append buf 0 6 2,
      ← ByteMap.slice_append buf 0 8 4, ← ByteMap.slice_append buf 0 12 4,
      ← ByteMap.slice_append buf 0 16 4]
  rw [front, not_not.mp badCrc, Tlv.putBe32_getBe32]
  exact (ByteMap.slice_append buf 0 20 4).symm

/-- What parses is what encoding its configuration gives. -/
theorem encodeRecord_of_parseRecord {buf : ByteMap} {n n' : Nat} {c : Cfg}
    (parsed : parseRecord buf n = .ok c) (room : recordLen buf ≤ n') :
    encodeRecord c c.seq n' = .ok (buf.slice 0 (recordLen buf)) := by
  have number := parseRecord_seq parsed
  obtain ⟨-, header, payload⟩ := (parseRecord_eq_ok_iff _ _ _).mp parsed
  obtain ⟨crc, tmp, read, -, rfl⟩ := (payloadRecord_eq_ok_iff _ _).mp payload
  obtain ⟨items, items'⟩ := exists_items_of_walk read
  have seq : tmp.seq = getBe32 buf 8 := walk_seq read
  have same : items = present tmp (List.finRange nkeys) := by
    refine items'.inOrder.eq_of_mem_iff (inOrder_present tmp) fun p => ?_
    rw [← Prod.mk.eta (p := p), mem_present, items'.values]
    simp [cfgDefaults]
  have checked : Checked { tmp with source := 0 } := by
    intro i v value
    exact items'.checked (i, v) (((items'.values i v).mp value).resolve_right fun absent => by cases absent)
  have bytes : itemsBytes (present { tmp with source := 0 } (List.finRange nkeys)) =
      buf.slice hdrLen (getBe32 buf 12) := by
    rw [show present { tmp with source := 0 } (List.finRange nkeys) =
      present tmp (List.finRange nkeys) from rfl, ← same]
    exact items'.bytes.symm
  have length : getBe32 buf 12 ≤ slotSize - hdrLen := by
    unfold headerFault at header
    split_ifs at header
    omega
  rw [encodeRecord_eq_present checked number.1 number.2
    (by rw [bytes, ByteMap.slice_length]; exact room)
    (by rw [bytes, ByteMap.slice_length]; exact length), bytes]
  have front := slice_header_of_headerFault header (ByteMap.slice_length _ _ _) crc
  unfold recordBytes recordLen
  rw [show ({ tmp with source := 0 } : Cfg).seq = getBe32 buf 8 from seq, front,
    ByteMap.slice_append, Nat.zero_add]

/-- The codec is canonical: encoding a valid configuration gives bytes that
parse to it whatever follows them, and a buffer that parses starts with the
bytes that encoding gives. -/
theorem record_codec_canonical :
    (∀ (c : Cfg) (seq : Nat), Checked c → cfgValidate c = .ok () →
      seqMin ≤ seq → seq ≤ seqMax →
      (∀ n, slotSize ≤ n → ∃ record, encodeRecord c seq n = .ok record) ∧
      ∀ n record, encodeRecord c seq n = .ok record →
        ∀ (buf : ByteMap) (m : Nat), buf.slice 0 record.length = record →
          record.length ≤ m →
          parseRecord buf m = .ok { c with seq := seq, source := 0 }) ∧
    ∀ (buf : ByteMap) (n : Nat) (c : Cfg), parseRecord buf n = .ok c →
      ∀ n', recordLen buf ≤ n' →
        encodeRecord c c.seq n' = .ok (buf.slice 0 (recordLen buf)) :=
  ⟨fun _ _ checked valid above below =>
    ⟨fun _ => encodeRecord_isOk checked above below,
      fun _ _ encoded _ _ => parseRecord_of_encodeRecord valid encoded⟩,
    fun _ _ _ parsed _ => encodeRecord_of_parseRecord parsed⟩

/-- The defaults, encoded and parsed. -/
theorem record_codec_canonical_defaults :
    ∃ record, encodeRecord cfgDefaults 1 slotSize = .ok record ∧
      ∀ buf : ByteMap, buf.slice 0 record.length = record →
        parseRecord buf record.length =
          .ok { cfgDefaults with seq := 1, source := 0 } := by
  obtain ⟨always, reads⟩ := record_codec_canonical.1 cfgDefaults 1 nofun
    cfgDefaults_valid (by decide) (by decide)
  obtain ⟨record, encoded⟩ := always slotSize le_rfl
  exact ⟨record, encoded, fun buf starts =>
    reads slotSize record encoded buf _ starts le_rfl⟩

end RlxFw.CfgStore
