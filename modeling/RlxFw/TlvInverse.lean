import RlxFw.ProtoCodec
import RlxFw.TlvCursor

/-!
# What the writer wrote is what the reader reads

Calls of `tlv_next` again and again over any buffer, calls of `tlv_write` again and again into
any buffer, and calls of `proto_tlv_get` again and again over what `tlv_next` walked to its end.
-/

namespace RlxFw.TlvCursor

open Tlv (Fault Item putBe16 itemBytes ascends ascends_trans)

/-! ## Ids that ascend after one -/

/-- Ids that ascend strictly, all of them after the last one. -/
def AscendAfter (last : Option Nat) (types : List Nat) : Prop :=
  (∀ type ∈ types, ascends last type = true) ∧ types.Pairwise (· < ·)

theorem ascendAfter_nil (last : Option Nat) : AscendAfter last [] :=
  ⟨by simp, List.Pairwise.nil⟩

theorem ascendAfter_cons {last : Option Nat} {type : Nat} {types : List Nat} :
    AscendAfter last (type :: types) ↔
      ascends last type = true ∧ AscendAfter (some type) types := by
  unfold AscendAfter
  rw [List.pairwise_cons]
  constructor
  · rintro ⟨all, less, sorted⟩
    refine ⟨all type (List.mem_cons_self ..), ?_, sorted⟩
    intro later member
    simpa [ascends] using less later member
  · rintro ⟨first, all, sorted⟩
    have less : ∀ later ∈ types, type < later := by
      intro later member
      simpa [ascends] using all later member
    refine ⟨?_, less, sorted⟩
    intro later member
    rcases List.mem_cons.mp member with rfl | among
    · exact first
    · exact ascends_trans first (less later among)

theorem ascendAfter_none {types : List Nat} :
    AscendAfter none types ↔ types.Pairwise (· < ·) := by
  simp [AscendAfter, ascends]

/-! ## Walks -/

/-- What a walk handed out, the refusal it stopped at if any, and the reader then. -/
structure Walked where
  gots : List Got
  stop : Option Fault
  reader : TlvReader

/-- `tlv_next` again and again, for at most so many calls. -/
def walk : Nat → TlvReader → Option Walked
  | 0, _ => none
  | calls + 1, r =>
      match tlvNext r with
      | none => none
      | some (.ended, r) => some { gots := [], stop := none, reader := r }
      | some (.refused fault, r) => some { gots := [], stop := some fault, reader := r }
      | some (.item got, r) =>
          (walk calls r).map fun rest => { rest with gots := got :: rest.gots }

/-- `proto_tlv_get` again and again: what it handed out, and the offset it stopped at. -/
def protoWalk (buf : BoundedMemory) (n : UInt32) : Nat → UInt32 → Option (List Got × UInt32)
  | 0, _ => none
  | calls + 1, off =>
      match protoTlvGet buf n off with
      | none => none
      | some none => some ([], off)
      | some (some (got, off)) =>
          (protoWalk buf n calls off).map fun rest => (got :: rest.1, rest.2)

/-- Items that lie one right behind the other, each behind its header. -/
def Tiles (bytes : ByteMap) : Nat → List Got → Nat → Prop
  | start, [], finish => start = finish
  | start, got :: rest, finish =>
      bytes.slice start 4 = putBe16 got.type.toNat ++ putBe16 got.len.toNat ∧
        got.val = start + 4 ∧ Tiles bytes (got.val + got.len.toNat) rest finish

theorem Tiles.le {bytes : ByteMap} {start finish : Nat} {gots : List Got}
    (tiles : Tiles bytes start gots finish) : start ≤ finish := by
  induction gots generalizing start with
  | nil => exact Nat.le_of_eq tiles
  | cons got rest ih =>
      obtain ⟨-, val, more⟩ := tiles
      have after := ih more
      omega

/-- The values of tiles lie in the tiled run. -/
theorem Tiles.inside {bytes : ByteMap} {start finish : Nat} {gots : List Got}
    (tiles : Tiles bytes start gots finish) {got : Got} (member : got ∈ gots) :
    start + 4 ≤ got.val ∧ got.val + got.len.toNat ≤ finish := by
  induction gots generalizing start with
  | nil => cases member
  | cons first rest ih =>
      obtain ⟨-, val, more⟩ := tiles
      rcases List.mem_cons.mp member with rfl | among
      · exact ⟨Nat.le_of_eq val.symm, more.le⟩
      · obtain ⟨lower, upper⟩ := ih more among
        exact ⟨by omega, upper⟩

/-- The tiled run is the bytes of the items. -/
theorem Tiles.bytes {bytes : ByteMap} {start finish : Nat} {gots : List Got}
    (tiles : Tiles bytes start gots finish) :
    bytes.slice start (finish - start) =
      (gots.map (Got.item bytes)).flatMap fun item => itemBytes item.type item.val := by
  induction gots generalizing start with
  | nil =>
      cases tiles
      simp
  | cons got rest ih =>
      obtain ⟨header, val, more⟩ := tiles
      have after := more.le
      have count : finish - start =
          (4 + got.len.toNat) + (finish - (got.val + got.len.toNat)) := by omega
      have place : start + (4 + got.len.toNat) = got.val + got.len.toNat := by omega
      rw [count, ByteMap.slice_append, place, ih more, ByteMap.slice_append, header, ← val]
      simp [itemBytes, Got.item]

/-- What a walk from a held reader is. -/
structure Walks (r : TlvReader) (walked : Walked) : Prop where
  tiles : Tiles r.buf.bytes r.pos.toNat walked.gots walked.reader.pos.toNat
  within : walked.reader.pos.toNat ≤ r.len.toNat
  ascend : AscendAfter r.abs.last (walked.gots.map fun got => got.type.toNat)
  ended : walked.stop = none → walked.reader.pos = r.len

/-- A walk takes fewer calls than there are bytes left, and reads no byte outside the buffer. -/
theorem exists_walk {r : TlvReader} (held : r.Held) {calls : Nat}
    (enough : r.len.toNat - r.pos.toNat < calls) :
    ∃ walked, walk calls r = some walked ∧ Walks r walked := by
  induction calls generalizing r with
  | zero => omega
  | succ calls ih =>
      rw [walk]
      rcases tlvNext_cases held with ⟨got, r', next, taken, ascending, -⟩ | ⟨next, atEnd, -⟩ |
        ⟨fault, next, -⟩
      · obtain ⟨buf, len⟩ := taken.bytes
        have inside := taken.inside
        have val := taken.val
        have moved := taken.moved
        have fewer : r'.len.toNat - r'.pos.toNat < calls := by
          rw [len]
          omega
        obtain ⟨rest, ran, walks⟩ := ih (taken.held held) fewer
        refine ⟨{ rest with gots := got :: rest.gots }, by rw [next]; simp [ran], ?_⟩
        have tiles := walks.tiles
        rw [buf, moved] at tiles
        have header := header_of_reads (by have := held.size; omega) taken.type taken.len
        refine ⟨⟨header, val, tiles⟩, len ▸ walks.within, ?_, len ▸ walks.ended⟩
        have last : r'.abs.last = some got.type.toNat := by
          rw [taken.left]
          rfl
        exact ascendAfter_cons.mpr ⟨ascending, last ▸ walks.ascend⟩
      · rw [next]
        exact ⟨_, rfl, rfl, held.pos, ascendAfter_nil _, fun _ => atEnd⟩
      · rw [next]
        exact ⟨_, rfl, rfl, held.pos, ascendAfter_nil _, nofun⟩

/-! ## The other reader -/

/-- `proto_tlv_get` stays in the buffer, and is the reader of offsets without a bound. -/
theorem protoTlvGet_refines (bytes : ByteMap) (n off : UInt32) :
    ∃ result, protoTlvGet { size := n.toNat, bytes := bytes } n off = some result ∧
      result.map (fun got => (got.1.item bytes, got.2.toNat)) =
        Proto.protoTlvGetAt bytes n.toNat off.toNat := by
  have short : (off > n ∨ n - off < 4) ↔ (off.toNat > n.toNat ∨ n.toNat - off.toNat < 4) := by
    rw [gt_iff_lt, UInt32.lt_iff_toNat_lt]
    exact or_congr_right' fun before => left_lt_four_iff (not_lt.mp before)
  unfold protoTlvGet Proto.protoTlvGetAt
  by_cases stops : off > n ∨ n - off < 4
  · rw [if_pos stops]
    dsimp only
    rw [if_pos (short.mp stops)]
    exact ⟨_, rfl, rfl⟩
  have room := mt short.mpr stops
  obtain ⟨t, type, typeNat⟩ := tlvGetBe16_eq
    (m := { size := n.toNat, bytes := bytes }) (p := off.toNat) (by dsimp only; omega)
  obtain ⟨l, len, lenNat⟩ := tlvGetBe16_eq
    (m := { size := n.toNat, bytes := bytes }) (p := off.toNat + 2) (by dsimp only; omega)
  have wide : n - off - 4 < l.toUInt32 ↔ n.toNat - off.toNat - 4 < l.toNat :=
    room_lt_iff (by omega)
  rw [if_neg stops, type, len, ← typeNat, ← lenNat]
  dsimp only [Option.bind_eq_bind, Option.bind_some]
  rw [if_neg room]
  by_cases cut : n - off - 4 < l.toUInt32
  · rw [if_pos cut, if_pos (wide.mp cut)]
    exact ⟨_, rfl, rfl⟩
  rw [if_neg cut, if_neg (mt wide.mpr cut)]
  have fits := mt wide.mpr cut
  have moved : (off + 4 + l.toUInt32).toNat = off.toNat + (4 + l.toNat) := by
    rw [UInt32.add_assoc]
    exact past_toNat (n := n) (by omega)
  refine ⟨_, rfl, ?_⟩
  rw [Option.map_some]
  dsimp only
  rw [moved]
  rfl

/-- An item that `tlv_next` handed out is the one `proto_tlv_get` gets there. -/
theorem Taken.protoTlvGet {r r' : TlvReader} {got : Got} (taken : Taken r got r') :
    protoTlvGet r.buf r.len r.pos = some (some (got, r'.pos)) := by
  have inside := taken.inside
  have val := taken.val
  have header : ¬ (r.pos > r.len ∨ r.len - r.pos < 4) := by
    rw [gt_iff_lt, UInt32.lt_iff_toNat_lt, left_lt_four_iff (by omega)]
    omega
  have fits : ¬ r.len - r.pos - 4 < got.len.toUInt32 := by
    rw [room_lt_iff (by omega)]
    omega
  have moved : r.pos + 4 + got.len.toUInt32 = r'.pos := by
    apply UInt32.toNat_inj.mp
    rw [UInt32.add_assoc, past_toNat (n := r.len) (by omega), taken.moved]
    omega
  unfold TlvCursor.protoTlvGet
  rw [if_neg header, taken.type, taken.len]
  dsimp only [Option.bind_eq_bind, Option.bind_some]
  rw [if_neg fits, moved, ← val]

theorem protoTlvGet_end (buf : BoundedMemory) (n : UInt32) :
    protoTlvGet buf n n = some none := by
  refine if_pos (.inr ?_)
  rw [UInt32.sub_self]
  decide

/-- Where `tlv_next` walks to the end, `proto_tlv_get` walks to the end as well. -/
theorem protoWalk_of_walk {r : TlvReader} (held : r.Held) {calls : Nat} {walked : Walked}
    (ran : walk calls r = some walked) (ended : walked.stop = none) :
    protoWalk r.buf r.len calls r.pos = some (walked.gots, r.len) := by
  induction calls generalizing r walked with
  | zero => cases ran
  | succ calls ih =>
      rw [walk] at ran
      rw [protoWalk]
      rcases tlvNext_cases held with ⟨got, r', next, taken, -, -⟩ | ⟨next, atEnd, -⟩ |
        ⟨fault, next, -⟩
      · simp only [next, Option.map_eq_some_iff] at ran
        obtain ⟨rest, after, rfl⟩ := ran
        obtain ⟨buf, len⟩ := taken.bytes
        have more := ih (taken.held held) after ended
        rw [buf, len] at more
        rw [taken.protoTlvGet]
        simp [more]
      · rw [next] at ran
        cases ran
        rw [atEnd, protoTlvGet_end]
      · rw [next] at ran
        cases ran
        cases ended

/-! ## Writing a sequence -/

/-- An id, and a value that a `uint16_t` counts. -/
structure Pair where
  type : UInt16
  val : List UInt8
  small : val.length < 2 ^ 16

/-- The item a pair is. -/
def Pair.item (pair : Pair) : Item := { type := pair.type.toNat, val := pair.val }

/-- `tlv_write` again and again, up to a refusal. -/
def writeAll (w : TlvWriter) : List Pair → Option (Except Fault TlvWriter)
  | [] => some (.ok w)
  | pair :: rest =>
      match tlvWrite w pair.type (ByteMap.ofList pair.val 0) (UInt16.ofNat pair.val.length) with
      | none => none
      | some (.error fault) => some (.error fault)
      | some (.ok w) => writeAll w rest

/-- The bytes of pairs. -/
def pairBytes (pairs : List Pair) : List UInt8 :=
  pairs.flatMap fun pair => itemBytes pair.type.toNat pair.val

theorem pairBytes_cons (pair : Pair) (rest : List Pair) :
    pairBytes (pair :: rest) = itemBytes pair.type.toNat pair.val ++ pairBytes rest := rfl

theorem Pair.slice (pair : Pair) :
    (ByteMap.ofList pair.val 0).slice 0 (UInt16.ofNat pair.val.length).toNat = pair.val := by
  have count : (UInt16.ofNat pair.val.length).toNat = pair.val.length :=
    UInt16.toNat_ofNat_of_lt' pair.small
  rw [count, Proto.slice_ofList_self]

/-- A sequence is accepted when it ascends and fits, and what is written then is its bytes. -/
theorem writeAll_spec {w : TlvWriter} (held : w.Held) (pairs : List Pair) :
    ∃ result, writeAll w pairs = some result ∧
      ((∃ w', result = .ok w') ↔
        AscendAfter w.abs.last (pairs.map fun pair => pair.type.toNat) ∧
          w.pos.toNat + (pairBytes pairs).length ≤ w.cap.toNat) ∧
      ∀ w', result = .ok w' → w'.Held ∧ w'.abs.buf = w.abs.buf ++ pairBytes pairs := by
  induction pairs generalizing w with
  | nil =>
      refine ⟨.ok w, rfl, ⟨fun _ => ⟨ascendAfter_nil _, held.pos⟩, fun _ => ⟨w, rfl⟩⟩, ?_⟩
      rintro w' ⟨⟩
      exact ⟨held, (List.append_nil _).symm⟩
  | cons pair rest ih =>
      obtain ⟨first, wrote, refines, kept⟩ := tlvWrite_refines held pair.type
        (ByteMap.ofList pair.val 0) (UInt16.ofNat pair.val.length)
      have written : w.abs.buf.length = w.pos.toNat := ByteMap.slice_length _ _ _
      have long := Tlv.itemBytes_length pair.type.toNat pair.val
      rw [pair.slice] at refines
      rw [writeAll, wrote]
      rw [pairBytes_cons, List.map_cons, ascendAfter_cons, List.length_append, long]
      cases first with
      | error fault =>
          refine ⟨.error fault, rfl, ⟨by rintro ⟨w', ⟨⟩⟩, ?_⟩, nofun⟩
          rintro ⟨⟨ascending, -⟩, room⟩
          rw [Tlv.write_of_room ascending (by rw [written]; exact le_trans (by omega) room)]
            at refines
          cases refines
      | ok w₁ =>
          obtain ⟨ascending, room, after⟩ := Tlv.write_eq_ok refines.symm
          obtain ⟨result, ran, accepts, holds⟩ := ih (kept w₁ rfl)
          have last : w₁.abs.last = some pair.type.toNat := by rw [after]
          have cap : w₁.cap.toNat = w.cap.toNat := congrArg Tlv.Writer.cap after
          have pos : w₁.pos.toNat = w.pos.toNat + (Tlv.hdrLen + pair.val.length) := by
            have count := congrArg (fun w => w.buf.length) after
            dsimp only at count
            rw [List.length_append, written, long] at count
            exact (ByteMap.slice_length _ _ _).symm.trans count
          refine ⟨result, ran, ?_, ?_⟩
          · rw [accepts, last, cap, pos, and_iff_right ascending, Nat.add_assoc]
          · intro w' isResult
            obtain ⟨held', bytes⟩ := holds w' isResult
            refine ⟨held', ?_⟩
            rw [bytes, after]
            exact List.append_assoc _ _ _

/-- A reader over the bytes of pairs hands out the pairs. -/
theorem walk_pairBytes {r : TlvReader} (held : r.Held) {pairs : List Pair}
    (bytes : r.abs.rest = pairBytes pairs)
    (ascend : AscendAfter r.abs.last (pairs.map fun pair => pair.type.toNat))
    {calls : Nat} (enough : pairs.length < calls) :
    ∃ walked, walk calls r = some walked ∧ walked.stop = none ∧
      walked.gots.map (Got.item r.buf.bytes) = pairs.map Pair.item := by
  induction pairs generalizing r calls with
  | nil =>
      obtain ⟨more, rfl⟩ := Nat.exists_eq_add_of_lt enough
      have listed : Tlv.next r.abs = .ok none := by
        rw [Tlv.next, bytes]
        rfl
      rcases tlvNext_cases held with ⟨got, r', -, -, -, other⟩ | ⟨next, -, -⟩ | ⟨fault, -, other⟩
      · rw [listed] at other
        cases other
      · rw [walk, next]
        exact ⟨_, rfl, rfl, rfl⟩
      · rw [listed] at other
        cases other
  | cons pair rest ih =>
      obtain ⟨calls, rfl⟩ := Nat.exists_eq_add_of_lt enough
      rw [List.map_cons] at ascend
      obtain ⟨ascending, later⟩ := ascendAfter_cons.mp ascend
      have listed : Tlv.next r.abs = .ok (some (pair.item,
          { rest := pairBytes rest, last := some pair.type.toNat })) := by
        have read := Tlv.next_itemBytes (pairBytes rest) pair.type.toNat_lt pair.small ascending
        rwa [← pairBytes_cons, ← bytes] at read
      rcases tlvNext_cases held with ⟨got, r', next, taken, -, other⟩ | ⟨-, -, other⟩ |
        ⟨fault, -, other⟩
      · rw [listed] at other
        injection other with other
        injection other with other
        injection other with item after
        obtain ⟨buf, -⟩ := taken.bytes
        have fewer : rest.length < (pair :: rest).length + calls := by
          rw [List.length_cons]
          omega
        obtain ⟨walked, ran, ended, items⟩ := ih (taken.held held)
          (congrArg Tlv.Reader.rest after).symm (by rw [← after]; exact later) fewer
        refine ⟨{ walked with gots := got :: walked.gots }, ?_, ended, ?_⟩
        · rw [walk, next]
          dsimp only
          rw [ran, Option.map_some]
        · rw [List.map_cons, List.map_cons, ← item, ← items, buf]
      · rw [listed] at other
        cases other
      · rw [listed] at other
        cases other

theorem length_le_pairBytes (pairs : List Pair) : pairs.length ≤ (pairBytes pairs).length := by
  induction pairs with
  | nil => exact le_refl _
  | cons pair rest ih =>
      rw [pairBytes_cons, List.length_append, Tlv.itemBytes_length, Tlv.hdrLen, List.length_cons]
      omega

/-! ## The format -/

/-- A fresh reader of a buffer. -/
def readerOf (bytes : ByteMap) (len : UInt32) : TlvReader :=
  tlvReaderInit { size := len.toNat, bytes := bytes } len

/-- A fresh writer into a buffer. -/
def writerInto (bytes : ByteMap) (cap : UInt32) : TlvWriter :=
  tlvWriterInit { size := cap.toNat, bytes := bytes } cap

theorem readerOf_held (bytes : ByteMap) (len : UInt32) : (readerOf bytes len).Held :=
  ⟨rfl, Nat.zero_le _⟩

theorem writerInto_held (bytes : ByteMap) (cap : UInt32) : (writerInto bytes cap).Held :=
  ⟨rfl, Nat.zero_le _⟩

/-- The writer and the readers agree on one format, and stay in their buffers. -/
structure Inverse : Prop where
  /-- Sequences that ascend and fit are accepted, and no others. -/
  accepts : ∀ (bytes : ByteMap) (cap : UInt32) (pairs : List Pair),
    ∃ result, writeAll (writerInto bytes cap) pairs = some result ∧
      ((∃ w, result = .ok w) ↔
        (pairs.map fun pair => pair.type.toNat).Pairwise (· < ·) ∧
          (pairBytes pairs).length ≤ cap.toNat)
  /-- What was accepted is read back from the written bytes, up to the clean end. -/
  read_back : ∀ (bytes : ByteMap) (cap : UInt32) (pairs : List Pair) (w : TlvWriter),
    writeAll (writerInto bytes cap) pairs = some (.ok w) →
    ∃ walked,
      walk ((tlvWriterLen w).toNat + 1) (readerOf w.buf.bytes (tlvWriterLen w)) = some walked ∧
        walked.stop = none ∧
        walked.gots.map (Got.item w.buf.bytes) = pairs.map Pair.item
  /-- Of any buffer the items tile a prefix, ascend, and have their values inside. -/
  tiles : ∀ (bytes : ByteMap) (len : UInt32),
    ∃ walked, walk (len.toNat + 1) (readerOf bytes len) = some walked ∧
      Tiles bytes 0 walked.gots walked.reader.pos.toNat ∧
      bytes.slice 0 walked.reader.pos.toNat =
        (walked.gots.map (Got.item bytes)).flatMap (fun item => itemBytes item.type item.val) ∧
      walked.reader.pos.toNat ≤ len.toNat ∧
      (walked.gots.map fun got => got.type.toNat).Pairwise (· < ·) ∧
      (∀ got ∈ walked.gots, 4 ≤ got.val ∧ got.val + got.len.toNat ≤ len.toNat) ∧
      (walked.stop = none → walked.reader.pos = len)
  /-- What was walked to the clean end is the same for the other reader. -/
  same_items : ∀ (bytes : ByteMap) (len : UInt32) (calls : Nat) (walked : Walked),
    walk calls (readerOf bytes len) = some walked → walked.stop = none →
    protoWalk { size := len.toNat, bytes := bytes } len calls 0 = some (walked.gots, len)

/-- The writer and the readers of the format are inverse and bounded. -/
theorem writerReaderInverse : Inverse where
  accepts bytes cap pairs := by
    obtain ⟨result, ran, accepts, -⟩ := writeAll_spec (writerInto_held bytes cap) pairs
    refine ⟨result, ran, accepts.trans ?_⟩
    change AscendAfter none _ ∧ 0 + _ ≤ cap.toNat ↔ _
    rw [ascendAfter_none, Nat.zero_add]
  read_back bytes cap pairs w ran := by
    obtain ⟨result, ran', accepts, written⟩ := writeAll_spec (writerInto_held bytes cap) pairs
    cases ran.symm.trans ran'
    obtain ⟨ascend, -⟩ := accepts.mp ⟨w, rfl⟩
    obtain ⟨-, wrote⟩ := written w rfl
    have bytesRead : (readerOf w.buf.bytes w.pos).abs.rest = pairBytes pairs := wrote
    have few : pairs.length < w.pos.toNat + 1 := by
      have least := length_le_pairBytes pairs
      rw [← bytesRead, TlvReader.abs, ByteMap.slice_length] at least
      exact Nat.lt_succ_of_le least
    exact walk_pairBytes (readerOf_held w.buf.bytes w.pos) bytesRead ascend few
  tiles bytes len := by
    obtain ⟨walked, ran, walks⟩ := exists_walk (readerOf_held bytes len)
      (Nat.lt_succ_self len.toNat)
    have tiles : Tiles bytes 0 walked.gots walked.reader.pos.toNat := walks.tiles
    refine ⟨walked, ran, tiles, tiles.bytes, walks.within, ascendAfter_none.mp walks.ascend, ?_,
      walks.ended⟩
    intro got member
    obtain ⟨lower, upper⟩ := tiles.inside member
    exact ⟨by omega, upper.trans walks.within⟩
  same_items bytes len calls walked ran ended :=
    protoWalk_of_walk (readerOf_held bytes len) ran ended

end RlxFw.TlvCursor
