import RlxFw.Crc32
import RlxFw.Schema
import Mathlib.Data.Fintype.Pi

/-!
# The configuration record

`src/lib/cfg.c`: the configuration in memory, its cross-field rules, and the
record that holds it on a medium.  A key that is absent is `none`; a key set to
its default is not.
-/

namespace RlxFw.CfgStore

open Crc32 (crc32Ieee)
open Tlv (getBe16 getBe32 putBe16 putBe32)

/-- `CFG_SLOT_SIZE`. -/
def slotSize : Nat := 4096
/-- `CFG_HDR_LEN`. -/
def hdrLen : Nat := 24
/-- `CFG_MAGIC`. -/
def cfgMagic : Nat := 0x524C5843
/-- `CFG_FORMAT`. -/
def cfgFormat : Nat := 1
/-- `CFG_SEQ_MIN`. -/
def seqMin : Nat := 1
/-- `CFG_SEQ_MAX`. -/
def seqMax : Nat := 0xFFFFFFFE
/-- `CFG_FILL`. -/
def fill : UInt8 := 0xFF

/-- `struct cfg`. -/
structure Cfg where
  seq : Nat
  source : Nat
  value : Fin nkeys → Option (List UInt8)
deriving DecidableEq

/-- `cfg_defaults`: every key absent. -/
def cfgDefaults : Cfg := { seq := 0, source := 0, value := fun _ => none }

/-- `cfg_key_by_id`. -/
def cfgKeyById (id : Nat) : Option Key := (cfgIndexById id).map cfgKeys

/-- `cfg_get`. -/
def cfgGet (c : Cfg) (id : Nat) : Except Fault (List UInt8) :=
  match cfgIndexById id with
  | none => .error ⟨.unknown, id⟩
  | some i =>
      match c.value i with
      | some v => if v.length > valMax then .error ⟨.type, id⟩ else .ok v
      | none =>
          match schemaDefault id with
          | some v => .ok v
          | none => .error ⟨.noent, id⟩

/-- `cfg_set`. -/
def cfgSet (c : Cfg) (id : Nat) (v : List UInt8) : Except Fault Cfg :=
  match cfgIndexById id with
  | none => .error ⟨.unknown, id⟩
  | some i =>
      match schemaCheckValue (cfgKeys i) v with
      | some rc => .error ⟨rc, id⟩
      | none => .ok { c with value := Function.update c.value i (some v) }

/-! ## The cross-field rules -/

/-- `get_u32`. -/
def getU32 (c : Cfg) (id : Nat) : Except Fault UInt32 := do
  let v ← cfgGet c id
  if v.length ≠ 4 then .error ⟨.type, id⟩ else .ok (valueWord v)

/-- `get_u8`. -/
def getU8 (c : Cfg) (id : Nat) : Except Fault UInt8 := do
  let v ← cfgGet c id
  if v.length ≠ 1 then .error ⟨.type, id⟩ else .ok (v.getD 0 0)

/-- A cross-field rule, and the key it blames. -/
def rule (broken : Prop) [Decidable broken] (id : Nat) : Except Fault Unit :=
  if broken then .error ⟨.cross, id⟩ else .ok ()

/-- The rules on the LAN address and the DHCP pool. -/
def lanRules (lan mask first last : UInt32) : Except Fault Unit := do
  let net := lan &&& mask
  let bcast := net ||| ~~~mask
  rule (first > last) idDhcpdStart
  rule (first &&& mask ≠ net) idDhcpdStart
  rule (last &&& mask ≠ net) idDhcpdEnd
  rule (first = net ∨ first = bcast) idDhcpdStart
  rule (last = net ∨ last = bcast) idDhcpdEnd
  rule (lan = net ∨ lan = bcast) idLanIp
  rule (first ≤ lan ∧ lan ≤ last) idLanIp

/-- The rules on a static WAN address. -/
def wanRules (c : Cfg) : Except Fault Unit := do
  let wip ← getU32 c idWanIp
  let wmask ← getU32 c idWanMask
  let wgw ← getU32 c idWanGw
  rule (wip = 0) idWanIp
  rule (wmask = 0) idWanMask
  rule (wgw &&& wmask ≠ wip &&& wmask) idWanGw

/-- `cfg_validate`. -/
def cfgValidate (c : Cfg) : Except Fault Unit := do
  let lan ← getU32 c idLanIp
  let mask ← getU32 c idLanMask
  let first ← getU32 c idDhcpdStart
  let last ← getU32 c idDhcpdEnd
  lanRules lan mask first last
  let wmode ← getU8 c idWanMode
  if wmode = 2 then wanRules c else .ok ()

/-- The rules look at the values alone. -/
theorem cfgValidate_congr {c c' : Cfg} (same : c.value = c'.value) :
    cfgValidate c = cfgValidate c' := by
  cases c
  cases c'
  cases same
  rfl

/-- The defaults keep the rules. -/
theorem cfgDefaults_valid : cfgValidate cfgDefaults = .ok () := by
  decide

/-! ## Decoding -/

/-- One item of a payload into the configuration. -/
def decodeItem (tmp : Cfg) (item : Tlv.Item) : Except Fault Cfg :=
  match cfgIndexById item.type with
  | none => .error ⟨.unknown, item.type⟩
  | some i =>
      if item.val.length > valMax then .error ⟨.type, item.type⟩
      else
        match schemaCheckValue (cfgKeys i) item.val with
        | some rc => .error ⟨rc, item.type⟩
        | none =>
            if (tmp.value i).isSome then .error ⟨.order, item.type⟩
            else
              .ok { tmp with
                value := Function.update tmp.value i (some item.val) }

/-- The TLV walk of `cfg_parse_record`. -/
def walk (r : Tlv.Reader) (tmp : Cfg) : Except Fault Cfg :=
  match _step : Tlv.next r with
  | .error .order => .error ⟨.order, 0⟩
  | .error _ => .error ⟨.tlv, 0⟩
  | .ok none => .ok tmp
  | .ok (some (item, r')) =>
      match decodeItem tmp item with
      | .error fault => .error fault
      | .ok tmp => walk r' tmp
termination_by r.rest.length
decreasing_by exact Tlv.next_rest_lt _step

/-- Steps 2 to 5 of `cfg_parse_record`, as far as the slot decides them. -/
def headerFault (buf : ByteMap) : Option Err :=
  if (crc32Ieee 0 (buf.slice 0 20)).toNat ≠ getBe32 buf 20 then some .crc
  else if getBe32 buf 0 ≠ cfgMagic then some .magic
  else if getBe16 buf 4 ≠ cfgFormat ∨ getBe16 buf 6 ≠ hdrLen then some .format
  else if getBe32 buf 8 < seqMin ∨ getBe32 buf 8 > seqMax then some .seq
  else if getBe32 buf 12 > slotSize - hdrLen then some .len
  else none

/-- Steps 6 to 8: the payload, trusted once its CRC matched. -/
def payloadRecord (buf : ByteMap) : Except Fault Cfg :=
  if (crc32Ieee 0 (buf.slice hdrLen (getBe32 buf 12))).toNat ≠ getBe32 buf 16
  then .error ⟨.crc, 0⟩
  else do
    let tmp ← walk (Tlv.readerInit (buf.slice hdrLen (getBe32 buf 12)))
      { cfgDefaults with seq := getBe32 buf 8 }
    cfgValidate tmp
    .ok { tmp with source := 0 }

/-- `cfg_parse_record`. -/
def parseRecord (buf : ByteMap) (n : Nat) : Except Fault Cfg :=
  if n < hdrLen then .error ⟨.short, 0⟩
  else
    match headerFault buf with
    | some rc => .error ⟨rc, 0⟩
    | none =>
        if getBe32 buf 12 > n - hdrLen then .error ⟨.short, 0⟩
        else payloadRecord buf

/-- A chain of refusals ends well when each link does. -/
theorem bind_eq_ok_iff {ε α β : Type} {first : Except ε α}
    {rest : α → Except ε β} {b : β} :
    first >>= rest = .ok b ↔ ∃ a, first = .ok a ∧ rest a = .ok b := by
  cases first with
  | error fault => exact ⟨nofun, nofun⟩
  | ok a =>
      exact ⟨fun done => ⟨a, rfl, done⟩, fun ⟨_, same, done⟩ => by
        cases same
        exact done⟩

theorem payloadRecord_eq_ok_iff (buf : ByteMap) (c : Cfg) :
    payloadRecord buf = .ok c ↔
      (crc32Ieee 0 (buf.slice hdrLen (getBe32 buf 12))).toNat =
          getBe32 buf 16 ∧
        ∃ tmp, walk (Tlv.readerInit (buf.slice hdrLen (getBe32 buf 12)))
            { cfgDefaults with seq := getBe32 buf 8 } = .ok tmp ∧
          cfgValidate tmp = .ok () ∧ c = { tmp with source := 0 } := by
  unfold payloadRecord
  by_cases crc : (crc32Ieee 0 (buf.slice hdrLen (getBe32 buf 12))).toNat =
      getBe32 buf 16
  · rw [if_neg (not_not.mpr crc), bind_eq_ok_iff]
    simp only [bind_eq_ok_iff, crc, true_and, Except.ok.injEq]
    exact exists_congr fun tmp => and_congr_right fun _ =>
      ⟨fun ⟨_, valid, same⟩ => ⟨valid, same.symm⟩,
        fun ⟨valid, same⟩ => ⟨_, valid, same.symm⟩⟩
  · rw [if_pos crc]
    exact ⟨nofun, fun whole => absurd whole.1 crc⟩

/-- The bytes of a record: its header and its payload. -/
def recordLen (buf : ByteMap) : Nat := hdrLen + getBe32 buf 12

theorem parseRecord_eq_ok_iff (buf : ByteMap) (n : Nat) (c : Cfg) :
    parseRecord buf n = .ok c ↔
      recordLen buf ≤ n ∧ headerFault buf = none ∧ payloadRecord buf = .ok c := by
  unfold parseRecord recordLen
  by_cases short : n < hdrLen
  · rw [if_pos short]
    exact ⟨nofun, fun whole => absurd whole.1 (by omega)⟩
  · rw [if_neg short]
    cases headerFault buf with
    | some rc => exact ⟨nofun, fun whole => nomatch whole.2.1⟩
    | none =>
        by_cases cut : getBe32 buf 12 > n - hdrLen
        · simp only [if_pos cut]
          exact ⟨nofun, fun whole => absurd whole.1 (by omega)⟩
        · simp only [if_neg cut, true_and]
          exact ⟨fun same => ⟨by omega, same⟩, fun whole => whole.2⟩

/-- A record is read from its own bytes alone. -/
theorem parseRecord_congr {buf buf' : ByteMap} {n n' : Nat} {c : Cfg}
    (parsed : parseRecord buf n = .ok c)
    (same : buf.AgreeOn buf' 0 (recordLen buf)) (room : recordLen buf ≤ n') :
    parseRecord buf' n' = .ok c := by
  obtain ⟨-, header, payload⟩ := (parseRecord_eq_ok_iff _ _ _).mp parsed
  have wide : hdrLen ≤ recordLen buf := Nat.le_add_right _ _
  have word (off : Nat) (inside : off + 4 ≤ hdrLen) :
      getBe32 buf off = getBe32 buf' off :=
    Tlv.getBe32_congr fun i small => same _ (Nat.zero_le _) (by omega)
  have half (off : Nat) (inside : off + 2 ≤ hdrLen) :
      getBe16 buf off = getBe16 buf' off :=
    Tlv.getBe16_congr fun i small => same _ (Nat.zero_le _) (by omega)
  have front : buf.slice 0 20 = buf'.slice 0 20 :=
    ByteMap.slice_congr fun off _ upper =>
      same off (Nat.zero_le _) (by unfold hdrLen at wide; omega)
  have body : buf.slice hdrLen (getBe32 buf 12) =
      buf'.slice hdrLen (getBe32 buf 12) :=
    ByteMap.slice_congr fun off _ upper => same off (Nat.zero_le _) (by
      unfold recordLen
      omega)
  have sameLen : recordLen buf' = recordLen buf := by
    unfold recordLen
    rw [word 12 (by decide)]
  rw [parseRecord_eq_ok_iff, sameLen]
  refine ⟨room, ?_, ?_⟩
  · rw [← header]
    unfold headerFault
    rw [front, word 20 (by decide), word 0 (by decide),
      half 4 (by decide), half 6 (by decide),
      word 8 (by decide), word 12 (by decide)]
  · rw [← payload]
    unfold payloadRecord
    rw [body, word 12 (by decide), word 16 (by decide),
      word 8 (by decide)]

theorem decodeItem_seq {tmp c : Cfg} {item : Tlv.Item}
    (decoded : decodeItem tmp item = .ok c) : c.seq = tmp.seq := by
  unfold decodeItem at decoded
  split at decoded
  · cases decoded
  split at decoded
  · cases decoded
  split at decoded
  · cases decoded
  split at decoded
  · cases decoded
  · cases decoded
    rfl

/-- The walk leaves the sequence number alone. -/
theorem walk_seq {r : Tlv.Reader} {tmp c : Cfg} (read : walk r tmp = .ok c) :
    c.seq = tmp.seq := by
  induction r, tmp using walk.induct with
  | case1 r tmp step =>
      rw [walk, step] at read
      cases read
  | case2 r tmp fault _ step =>
      rw [walk, step] at read
      cases fault <;> cases read
  | case3 r tmp step =>
      rw [walk, step] at read
      cases read
      rfl
  | case4 r tmp item r' step fault decoded =>
      rw [walk, step] at read
      simp only [decoded] at read
      cases read
  | case5 r tmp item r' step tmp' decoded ih =>
      rw [walk, step] at read
      simp only [decoded] at read
      exact (ih read).trans (decodeItem_seq decoded)

/-- The number of an accepted record is in range. -/
theorem parseRecord_seq {buf : ByteMap} {n : Nat} {c : Cfg}
    (parsed : parseRecord buf n = .ok c) : seqMin ≤ c.seq ∧ c.seq ≤ seqMax := by
  obtain ⟨-, header, payload⟩ := (parseRecord_eq_ok_iff _ _ _).mp parsed
  obtain ⟨-, tmp, read, -, rfl⟩ := (payloadRecord_eq_ok_iff _ _).mp payload
  have number : tmp.seq = getBe32 buf 8 := walk_seq read
  change seqMin ≤ tmp.seq ∧ tmp.seq ≤ seqMax
  rw [number]
  unfold headerFault at header
  split_ifs at header with crc magic format seq
  omega

/-! ## Encoding -/

/-- The loop of `cfg_encode_record` over the table. -/
def encodeKeys (c : Cfg) : List (Fin nkeys) → Tlv.Writer →
    Except Fault Tlv.Writer
  | [], w => .ok w
  | i :: rest, w =>
      match c.value i with
      | none => encodeKeys c rest w
      | some v =>
          if v.length > valMax then .error ⟨.type, (cfgKeys i).id⟩
          else
            match schemaCheckValue (cfgKeys i) v with
            | some rc => .error ⟨rc, (cfgKeys i).id⟩
            | none =>
                match Tlv.write w (cfgKeys i).id v with
                | .error .space => .error ⟨.space, (cfgKeys i).id⟩
                | .error _ => .error ⟨.order, (cfgKeys i).id⟩
                | .ok w => encodeKeys c rest w

/-- The first twenty bytes of a record's header. -/
def headerFront (seq : Nat) (payload : List UInt8) : List UInt8 :=
  putBe32 cfgMagic ++ putBe16 cfgFormat ++ putBe16 hdrLen ++ putBe32 seq ++
    putBe32 payload.length ++ putBe32 (crc32Ieee 0 payload).toNat

/-- The bytes of a record. -/
def recordBytes (seq : Nat) (payload : List UInt8) : List UInt8 :=
  headerFront seq payload ++
    putBe32 (crc32Ieee 0 (headerFront seq payload)).toNat ++ payload

/-- `cfg_encode_record`. -/
def encodeRecord (c : Cfg) (seq n : Nat) : Except Fault (List UInt8) :=
  if seq < seqMin ∨ seq > seqMax then .error ⟨.seq, 0⟩
  else if n < hdrLen then .error ⟨.space, 0⟩
  else do
    let w ← encodeKeys c (List.finRange nkeys)
      (Tlv.writerInit (min (n - hdrLen) (slotSize - hdrLen)))
    .ok (recordBytes seq w.buf)

/-- `cfg_slot_image`: the record, and fill to the end of the slot. -/
def slotImage (c : Cfg) (seq : Nat) : Except Fault ByteMap := do
  let record ← encodeRecord c seq slotSize
  .ok (ByteMap.ofList record fill)

end RlxFw.CfgStore
