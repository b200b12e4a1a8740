import RlxFw.Ascii
import RlxFw.CfgRecord
import RlxFw.RateLimit
import RlxFw.Session
import RlxFw.Slots

/-!
# The broker's state

The requests and replies of `src/lib/proto.h`, the one update staging and the
record that holds everything mutable, of `src/brokerd/brokerd.h`.
-/

namespace RlxFw.Broker

/-! ## The wire -/

/-- `PROTO_REQ_BODY_MAX`. -/
def reqBodyMax : Nat := 2048
/-- `PROTO_RESP_BODY_MAX`. -/
def respBodyMax : Nat := 4096

/-- `BK_UID_ROOT`. -/
def uidRoot : Nat := 0
/-- `BK_UID_HTTPD`. -/
def uidHttpd : Nat := 100
/-- `BK_UID_DNSFWD`. -/
def uidDnsfwd : Nat := 101

/-- `ST_*`. -/
inductive Status where
  | ok
  | badreq
  | perm
  | auth
  | locked
  | inval
  | io
  | noent
  | busy
  | notsup
  | noentropy
deriving DecidableEq, Repr

/-- What the dispatcher reads of `struct proto_req`. -/
structure Req where
  op : Nat
  session : Token
  csrf : Token
  clientIp : UInt32
  body : List UInt8
deriving DecidableEq, Repr

/-- `struct proto_resp`, without its constants. -/
structure Resp where
  status : Status
  body : List UInt8
deriving DecidableEq, Repr

/-- `rs_status`. -/
def rsStatus (st : Status) : Resp := { status := st, body := [] }

/-- `rs_inval`. -/
def rsInval (key : Nat) : Resp :=
  { status := .inval, body := Tlv.putBe16 key }

/-- `rs_locked`. -/
def rsLocked (secs : Nat) : Resp :=
  { status := .locked, body := Tlv.putBe32 secs }

/-- `proto_tlv_put`, after the bytes of a reply's body so far. -/
def protoTlvPut (body : List UInt8) (type : Nat) (val : List UInt8) :
    Option (List UInt8) :=
  if body.length > respBodyMax ∨
      respBodyMax - body.length < 4 + val.length then none
  else some (body ++ Tlv.itemBytes type val)

/-- `proto_tlv_get`, on the bytes not read yet. -/
def protoTlvGet (rest : List UInt8) :
    Option (Tlv.Item × List UInt8) :=
  let p := ByteMap.ofList rest 0
  let len := Tlv.getBe16 p 2
  if rest.length < 4 then none
  else if rest.length - 4 < len then none
  else
    some ({ type := Tlv.getBe16 p 0, val := (rest.drop 4).take len },
      rest.drop (4 + len))

/-- `proto_be32`, at an offset of a body. -/
def protoBe32 (body : List UInt8) (off : Nat) : Nat :=
  Tlv.getBe32 (ByteMap.ofList body 0) off

/-! ## The staging -/

/-- A firmware slot. -/
inductive SlotName where
  | A
  | B
deriving DecidableEq, Repr

/-- The slot's letter. -/
def SlotName.char : SlotName → UInt8
  | .A => 0x41
  | .B => 0x42

/-- `upd_base`. -/
def SlotName.base : SlotName → Nat
  | .A => Slots.slotAFlash
  | .B => Slots.slotBFlash

/-- `upd_rambuf`. -/
def SlotName.rambuf : SlotName → Nat
  | .A => Slots.slotABuf
  | .B => Slots.slotBBuf

/-- `upd_other`. -/
def SlotName.other : SlotName → SlotName
  | .A => .B
  | .B => .A

/-- `BK_UPD_*`. -/
inductive UpdState where
  | none
  | staging
  | poisoned
  | verified
deriving DecidableEq, Repr

/-- `struct bk_upd`.  `buf` is what the pointer points to, if to anything. -/
structure Upd where
  state : UpdState
  uid : Nat
  tok : Token
  buf : Option ByteMap
  total : Nat
  received : Nat
  last : Nat
  dest : Option SlotName
  version : Nat
  lastResult : List UInt8

/-- A staging that was wiped. -/
def Upd.empty (lastResult : List UInt8) : Upd where
  state := .none
  uid := 0
  tok := .zero
  buf := Option.none
  total := 0
  received := 0
  last := 0
  dest := Option.none
  version := 0
  lastResult := lastResult

/-! ## The broker -/

/-- `struct broker`, without the paths it opens. -/
structure State where
  cfg : CfgStore.Cfg
  sessions : Sessions
  rl : Buckets
  authReady : Bool
  entropyLast : Nat
  kdfBusy : Bool
  pendingReboot : Bool
  pendingUpdate : Bool
  upd : Upd

/-- `bk_init`. -/
def State.init : State where
  cfg := CfgStore.cfgDefaults
  sessions := { table := bkSessDropAll, seq := 0 }
  rl := noBuckets
  authReady := false
  entropyLast := 0
  kdfBusy := false
  pendingReboot := false
  pendingUpdate := false
  upd := .empty []

end RlxFw.Broker
