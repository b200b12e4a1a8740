import RlxFw.CfgRecord
import Mathlib.Data.List.FinRange

/-!
# A record decodes to what was encoded

The walk over the items that `encodeKeys` wrote sets exactly the keys that the
configuration holds.
-/

namespace RlxFw.CfgStore

open Crc32 (crc32Ieee)
open Tlv (getBe16 getBe32 putBe16 putBe32)

/-- The values of `c` on the keys of `is`, over those of `tmp`. -/
def overlay (c : Cfg) (is : List (Fin nkeys)) (tmp : Cfg) : Cfg :=
  { tmp with value := fun i => if i ∈ is then c.value i else tmp.value i }

theorem overlay_none {c tmp : Cfg} {i : Fin nkeys} {is : List (Fin nkeys)}
    (absent : c.value i = none) (blank : tmp.value i = none) :
    overlay c (i :: is) tmp = overlay c is tmp := by
  unfold overlay
  congr
  funext j
  by_cases same : j = i
  · subst same
    simp [absent, blank]
  · simp [same]

theorem overlay_some {c tmp : Cfg} {i : Fin nkeys} {is : List (Fin nkeys)}
    {v : List UInt8} (present : c.value i = some v) (fresh : i ∉ is) :
    overlay c is { tmp with value := Function.update tmp.value i (some v) } =
      overlay c (i :: is) tmp := by
  unfold overlay
  congr
  funext j
  by_cases same : j = i
  · subst same
    simp [present, fresh]
  · simp [same]

theorem decodeItem_eq_ok {tmp : Cfg} {i : Fin nkeys} {v : List UInt8}
    (checked : schemaCheckValue (cfgKeys i) v = none)
    (blank : tmp.value i = none) :
    decodeItem tmp { type := (cfgKeys i).id, val := v } =
      .ok { tmp with value := Function.update tmp.value i (some v) } := by
  have short := length_le_of_checked checked
  unfold decodeItem
  simp only [cfgIndexById_id, checked, blank, if_neg (Nat.not_lt.mpr short)]
  rfl

theorem walk_nil (last : Option Nat) (tmp : Cfg) :
    walk { rest := [], last := last } tmp = .ok tmp := by
  rw [walk]
  rfl

theorem walk_itemBytes {last : Option Nat} {tmp : Cfg} {i : Fin nkeys}
    {v : List UInt8} (tail : List UInt8)
    (ascending : Tlv.ascends last (cfgKeys i).id = true)
    (checked : schemaCheckValue (cfgKeys i) v = none)
    (blank : tmp.value i = none) :
    walk { rest := Tlv.itemBytes (cfgKeys i).id v ++ tail, last := last } tmp =
      walk { rest := tail, last := some (cfgKeys i).id }
        { tmp with value := Function.update tmp.value i (some v) } := by
  have short : v.length < 2 ^ 16 :=
    Nat.lt_of_le_of_lt (length_le_of_checked checked) (by decide)
  have got := Tlv.next_itemBytes tail (cfgKeys_id_lt i) short ascending
  rw [walk, got]
  simp only [decodeItem_eq_ok checked blank]

/-- What `encodeKeys` appends is what the walk reads back. -/
theorem walk_encodeKeys (c : Cfg) (is : List (Fin nkeys)) (once : is.Nodup)
    {w w' : Tlv.Writer} (encoded : encodeKeys c is w = .ok w')
    (room : w.buf.length ≤ w.cap) :
    ∃ out, w'.buf = w.buf ++ out ∧ w'.buf.length ≤ w.cap ∧
      ∀ tmp : Cfg, (∀ i ∈ is, tmp.value i = none) →
        walk { rest := out, last := w.last } tmp = .ok (overlay c is tmp) := by
  induction is generalizing w with
  | nil =>
      cases encoded
      refine ⟨[], by simp, room, fun tmp _ => ?_⟩
      rw [walk_nil]
      simp [overlay]
  | cons i is ih =>
      obtain ⟨fresh, once⟩ := List.nodup_cons.mp once
      unfold encodeKeys at encoded
      cases value : c.value i with
      | none =>
          simp only [value] at encoded
          obtain ⟨out, bytes, fits, read⟩ := ih once encoded room
          refine ⟨out, bytes, fits, fun tmp blank => ?_⟩
          rw [overlay_none value (blank i List.mem_cons_self)]
          exact read tmp fun j member => blank j (List.mem_cons_of_mem _ member)
      | some v =>
          simp only [value] at encoded
          split at encoded
          · cases encoded
          cases checked : schemaCheckValue (cfgKeys i) v with
          | some rc =>
              simp only [checked] at encoded
              cases encoded
          | none =>
              simp only [checked] at encoded
              cases written : Tlv.write w (cfgKeys i).id v with
              | error fault => cases fault <;> simp [written] at encoded
              | ok w₁ =>
                  simp only [written] at encoded
                  obtain ⟨ascending, fits₁, rfl⟩ := Tlv.write_eq_ok written
                  obtain ⟨out, bytes, fits, read⟩ := ih once encoded (by
                    simpa [Tlv.itemBytes_length] using fits₁)
                  refine ⟨Tlv.itemBytes (cfgKeys i).id v ++ out,
                    by rw [bytes, List.append_assoc], fits,
                    fun tmp blank => ?_⟩
                  rw [walk_itemBytes out ascending checked
                    (blank i List.mem_cons_self), ← overlay_some value fresh]
                  apply read
                  intro j member
                  have other : j ≠ i := fun same => fresh (same ▸ member)
                  simpa [other] using blank j (List.mem_cons_of_mem _ member)

/-! ## The header -/

section Header

variable (seq : Nat) (payload : List UInt8)

theorem headerFront_length : (headerFront seq payload).length = 20 := rfl

theorem recordBytes_length :
    (recordBytes seq payload).length = hdrLen + payload.length := by
  simp [recordBytes, headerFront_length, hdrLen]
  omega

theorem slice_headerFront :
    (ByteMap.ofList (recordBytes seq payload) fill).slice 0 20 =
      headerFront seq payload := by
  have whole := ByteMap.slice_ofList [] (headerFront seq payload)
    (putBe32 (crc32Ieee 0 (headerFront seq payload)).toNat ++ payload) fill
  rwa [List.nil_append, ← List.append_assoc] at whole

theorem slice_payload :
    (ByteMap.ofList (recordBytes seq payload) fill).slice hdrLen
      payload.length = payload := by
  have whole := ByteMap.slice_ofList
    (headerFront seq payload ++
      putBe32 (crc32Ieee 0 (headerFront seq payload)).toNat) payload [] fill
  rwa [List.append_nil] at whole

theorem getBe32_magic :
    getBe32 (ByteMap.ofList (recordBytes seq payload) fill) 0 = cfgMagic :=
  Tlv.getBe32_ofList (by decide) [] _ fill

theorem getBe16_format :
    getBe16 (ByteMap.ofList (recordBytes seq payload) fill) 4 = cfgFormat :=
  Tlv.getBe16_ofList (by decide) (putBe32 cfgMagic) _ fill

theorem getBe16_hdrLen :
    getBe16 (ByteMap.ofList (recordBytes seq payload) fill) 6 = hdrLen :=
  Tlv.getBe16_ofList (by decide) (putBe32 cfgMagic ++ putBe16 cfgFormat) _ fill

theorem getBe32_seq (small : seq < 2 ^ 32) :
    getBe32 (ByteMap.ofList (recordBytes seq payload) fill) 8 = seq :=
  Tlv.getBe32_ofList small
    (putBe32 cfgMagic ++ putBe16 cfgFormat ++ putBe16 hdrLen) _ fill

theorem getBe32_len (small : payload.length < 2 ^ 32) :
    getBe32 (ByteMap.ofList (recordBytes seq payload) fill) 12 =
      payload.length :=
  Tlv.getBe32_ofList small
    (putBe32 cfgMagic ++ putBe16 cfgFormat ++ putBe16 hdrLen ++ putBe32 seq) _
    fill

theorem getBe32_payloadCrc :
    getBe32 (ByteMap.ofList (recordBytes seq payload) fill) 16 =
      (crc32Ieee 0 payload).toNat :=
  Tlv.getBe32_ofList (UInt32.toNat_lt _)
    (putBe32 cfgMagic ++ putBe16 cfgFormat ++ putBe16 hdrLen ++ putBe32 seq ++
      putBe32 payload.length) _ fill

theorem getBe32_headerCrc :
    getBe32 (ByteMap.ofList (recordBytes seq payload) fill) 20 =
      (crc32Ieee 0 (headerFront seq payload)).toNat :=
  Tlv.getBe32_ofList (UInt32.toNat_lt _) (headerFront seq payload) _ fill

end Header

/-- What an encoded record is made of. -/
structure Encoded (c : Cfg) (seq : Nat) (record payload : List UInt8) :
    Prop where
  bytes : record = recordBytes seq payload
  above : seqMin ≤ seq
  below : seq ≤ seqMax
  short : payload.length ≤ slotSize - hdrLen
  read : walk (Tlv.readerInit payload) { cfgDefaults with seq := seq } =
    .ok { c with seq := seq, source := 0 }

theorem exists_payload_of_encodeRecord {c : Cfg} {seq n : Nat}
    {record : List UInt8} (encoded : encodeRecord c seq n = .ok record) :
    ∃ payload, Encoded c seq record payload := by
  unfold encodeRecord at encoded
  split_ifs at encoded with outside small
  obtain ⟨w, keys, bytes⟩ := bind_eq_ok_iff.mp encoded
  obtain ⟨out, buffer, fits, read⟩ :=
    walk_encodeKeys c _ (List.nodup_finRange nkeys) keys (Nat.zero_le _)
  obtain rfl : w.buf = out := buffer
  cases bytes
  have values : overlay c (List.finRange nkeys)
      { cfgDefaults with seq := seq } = { c with seq := seq, source := 0 } := by
    simp [overlay, cfgDefaults]
  have whole := read { cfgDefaults with seq := seq } fun _ _ => rfl
  rw [values] at whole
  exact ⟨w.buf, rfl, by omega, by omega, fits.trans (Nat.min_le_right _ _), whole⟩

section Record

variable {c : Cfg} {seq : Nat} {record payload : List UInt8}

theorem Encoded.small (encoded : Encoded c seq record payload) :
    payload.length < 2 ^ 32 :=
  Nat.lt_of_le_of_lt encoded.short (by decide)

theorem Encoded.recordLen (encoded : Encoded c seq record payload) :
    recordLen (ByteMap.ofList record fill) = record.length := by
  unfold CfgStore.recordLen
  rw [encoded.bytes, getBe32_len _ _ encoded.small, recordBytes_length]

/-- The record of a valid configuration parses to it. -/
theorem Encoded.parse (encoded : Encoded c seq record payload)
    (valid : cfgValidate c = .ok ()) :
    parseRecord (ByteMap.ofList record fill) record.length =
      .ok { c with seq := seq, source := 0 } := by
  have above := encoded.above
  have below := encoded.below
  have short := encoded.short
  have seqSmall : seq < 2 ^ 32 := Nat.lt_of_le_of_lt below (by decide)
  rw [parseRecord_eq_ok_iff]
  refine ⟨le_of_eq encoded.recordLen, ?_, ?_⟩
  · rw [encoded.bytes]
    unfold headerFault
    rw [slice_headerFront, getBe32_headerCrc, getBe32_magic, getBe16_format,
      getBe16_hdrLen, getBe32_seq _ _ seqSmall, getBe32_len _ _ encoded.small,
      if_neg (by simp), if_neg (by simp), if_neg (by simp),
      if_neg (by omega), if_neg (by omega)]
  · rw [encoded.bytes, payloadRecord_eq_ok_iff, getBe32_len _ _ encoded.small,
      slice_payload, getBe32_payloadCrc, getBe32_seq _ _ seqSmall]
    exact ⟨rfl, _, encoded.read, (cfgValidate_congr rfl).trans valid, rfl⟩

end Record

/-- The slot image, and the record it starts with. -/
theorem exists_record_of_slotImage {c : Cfg} {seq : Nat} {img : ByteMap}
    (image : slotImage c seq = .ok img) :
    ∃ record, encodeRecord c seq slotSize = .ok record ∧
      img = ByteMap.ofList record fill := by
  obtain ⟨record, encoded, same⟩ := bind_eq_ok_iff.mp image
  cases same
  exact ⟨record, encoded, rfl⟩

/-- An image holds its whole record, and the record is what was encoded. -/
theorem parseRecord_slotImage {c : Cfg} {seq n : Nat} {img : ByteMap}
    (valid : cfgValidate c = .ok ()) (image : slotImage c seq = .ok img)
    (room : recordLen img ≤ n) :
    parseRecord img n = .ok { c with seq := seq, source := 0 } := by
  obtain ⟨record, encoded, rfl⟩ := exists_record_of_slotImage image
  obtain ⟨payload, encoded⟩ := exists_payload_of_encodeRecord encoded
  exact parseRecord_congr (encoded.parse valid) (fun _ _ _ => rfl) room

theorem recordLen_slotImage_le {c : Cfg} {seq : Nat} {img : ByteMap}
    (image : slotImage c seq = .ok img) : recordLen img ≤ slotSize := by
  obtain ⟨record, encoded, rfl⟩ := exists_record_of_slotImage image
  obtain ⟨payload, encoded⟩ := exists_payload_of_encodeRecord encoded
  have short := encoded.short
  rw [encoded.recordLen, encoded.bytes, recordBytes_length]
  unfold slotSize hdrLen at *
  omega

end RlxFw.CfgStore
