import RlxFw.Broker

/-!
# The update path

`src/brokerd/update.c`: the three requests that stage a container, the sweep,
and what `UPDATE_END` decides.  What a call reads of the clock, of
`/proc/rlxfw-boot`, of the allocator and of flash is a parameter.
-/

namespace RlxFw.Broker

open Container (bodyOff be32 Env SignatureCheck rlxuVerify formWhole flashNone
  formNone)
open Slots (Verdict choose)

/-- `BK_UPD_IDLE_S`. -/
def updIdleS : Nat := 30
/-- `UPD_SELF_BASE`. -/
def updSelfBase : Nat := 0x81800000
/-- `UPD_SELF_END`. -/
def updSelfEnd : Nat := 0x81900000
/-- `UPD_REASON_MAX`. -/
def updReasonMax : Nat := 32
/-- `BKS_UPDATE_LAST_MAX`. -/
def updateLastMax : Nat := 48
/-- `UPD_T_DEST`. -/
def updTDest : Nat := 0x8101
/-- `UPD_T_VERSION`. -/
def updTVersion : Nat := 0x8102
/-- `UPD_T_REASON`. -/
def updTReason : Nat := 0x8103
/-- `UPD_T_RECEIVED`. -/
def updTReceived : Nat := 0x8104

/-! ## Reasons -/

/-- `rlxu_reason_name`. -/
def rlxuReasonName : Container.Reason → List UInt8
  | .ok => ascii "ok"
  | .short => ascii "short"
  | .magic => ascii "magic"
  | .format => ascii "format"
  | .hdrLen => ascii "header_len"
  | .version => ascii "version"
  | .payloadLen => ascii "payload_len"
  | .flags => ascii "flags"
  | .reserved => ascii "reserved"
  | .loadAddr => ascii "load_addr"
  | .entryAddr => ascii "entry_addr"
  | .dstSelf => ascii "dst_self"
  | .dstBuf => ascii "dst_buf"
  | .dstLoader => ascii "dst_loader"
  | .truncated => ascii "truncated"
  | .sig => ascii "sig"
  | .digest => ascii "digest"
  | .rollback => ascii "rollback"
  | .flashDst => ascii "flash_dst"
  | .flashMatch => ascii "flash_match"
  | .flashForm => ascii "flash_form"

/-- The `R_*` reasons, and the ones of a container. -/
inductive UpdReason where
  | handoff
  | tooBig
  | short
  | busy
  | badlen
  | sequence
  | incomplete
  | ctrBehind
  | handoffMismatch
  | wouldNotBoot
  | trailing
  | nomem
  | io
  | undelivered
  | install
  | container (reason : Container.Reason)
deriving DecidableEq, Repr

/-- The text of a reason. -/
def UpdReason.name : UpdReason → List UInt8
  | .handoff => ascii "handoff"
  | .tooBig => ascii "too_big"
  | .short => ascii "short"
  | .busy => ascii "busy"
  | .badlen => ascii "badlen"
  | .sequence => ascii "sequence"
  | .incomplete => ascii "incomplete"
  | .ctrBehind => ascii "ctr_behind"
  | .handoffMismatch => ascii "handoff_mismatch"
  | .wouldNotBoot => ascii "would_not_boot"
  | .trailing => ascii "trailing"
  | .nomem => ascii "nomem"
  | .io => ascii "io"
  | .undelivered => ascii "undelivered"
  | .install => ascii "install"
  | .container reason => rlxuReasonName reason

/-- A number in decimal. -/
def decimal (n : Nat) : List UInt8 :=
  (Nat.toDigits 10 n).map fun c => UInt8.ofNat c.toNat

/-! ## Helpers -/

/-- `upd_note`. -/
def updNote (bk : State) (text : List UInt8) : State :=
  { bk with upd := { bk.upd with lastResult := text.take updateLastMax } }

/-- `upd_refuse`. -/
def updRefuse (bk : State) (st : Status) (why : UpdReason) : State × Resp :=
  (updNote bk why.name,
    { status := st
      body :=
        (protoTlvPut [] updTReason (why.name.take updReasonMax)).getD [] })

/-- `bk_upd_discard`. -/
def bkUpdDiscard (bk : State) : State :=
  { bk with upd := .empty bk.upd.lastResult }

/-- `upd_end_refuse`. -/
def updEndRefuse (bk : State) (st : Status) (why : UpdReason) : State × Resp :=
  updRefuse (bkUpdDiscard bk) st why

/-- `upd_owner`. -/
def updOwner (u : Upd) (rq : Req) (uid : Nat) : Bool :=
  u.uid == uid && bkCtEq u.tok.bytes rq.session.bytes

/-- `upd_poison`. -/
def updPoison (bk : State) : State :=
  { bk with upd := { bk.upd with buf := none, state := .poisoned } }

/-- The loop of `upd_handoff` over the digits of the version. -/
def handoffDigits : List UInt8 → Nat → Nat → Option (List UInt8 × Nat)
  | [], _, v => some ([], v)
  | c :: rest, i, v =>
      if 0x30 ≤ c ∧ c ≤ 0x39 then
        let d := c.toNat - 0x30
        if i ≥ 10 ∨ v > (0xFFFFFFFF - d) / 10 then none
        else handoffDigits rest (i + 1) (v * 10 + d)
      else some (c :: rest, v)

/-- The slot letter of `/proc/rlxfw-boot`. -/
def slotOfChar (c : UInt8) : Option SlotName :=
  if c = 0x41 then some .A else if c = 0x42 then some .B else none

/-- `upd_handoff`, on what could be read of `/proc/rlxfw-boot`. -/
def updHandoff (boot : Option (List UInt8)) : Option (SlotName × Nat) := do
  let b := (← boot).take 63
  let slot ← slotOfChar (byteAt b 5)
  if b.length < 13 ∨ b.take 5 ≠ ascii "slot " ∨
      (b.drop 6).take 5 ≠ ascii " ver " then none
  else if byteAt b 11 < 0x31 ∨ byteAt b 11 > 0x39 then none
  else do
    let (rest, v) ← handoffDigits (b.drop 11) 0 0
    if byteAt rest 0 ≠ 0x0A ∨ byteAt rest 1 ≠ 0 ∨ v = 0xFFFFFFFF then none
    else some (slot, v)

/-! ## The sweep -/

/-- The clock readings of `bk_upd_sweep`: its own, and the one of the session
lookup. -/
structure SweepTimes where
  now : Nat
  expireAt : Nat
deriving DecidableEq, Repr

/-- `bk_upd_sweep`. -/
def bkUpdSweep (times : SweepTimes) (bk : State) : State :=
  if bk.upd.state ≠ .staging ∧ bk.upd.state ≠ .poisoned then bk
  else if times.now - bk.upd.last ≥ updIdleS then bkUpdDiscard bk
  else if bk.upd.uid = uidHttpd then
    let found := bkSessFind times.expireAt bk.sessions.table bk.upd.tok
    let bk := { bk with sessions := { bk.sessions with table := found.1 } }
    if found.2 = none then bkUpdDiscard bk else bk
  else bk

/-! ## Begin and data -/

/-- What `bk_upd_begin` reads: the sweep's times, the boot text, the memory
`malloc` gives, and the clock. -/
structure BeginWorld where
  sweep : SweepTimes
  boot : Option (List UInt8)
  memory : Option ByteMap
  startedAt : Nat

/-- `bk_upd_begin`, past the sweep and the checks. -/
def updStart (w : BeginWorld) (rq : Req) (uid total : Nat) (run : SlotName)
    (bk : State) : State × Resp :=
  let bk := bkUpdDiscard bk
  match w.memory with
  | none => updRefuse bk .io .nomem
  | some memory =>
      let bk :=
        { bk with
          upd :=
            { bk.upd with
              state := .staging, uid := uid, tok := rq.session
              buf := some memory, total := total, received := 0
              last := w.startedAt, dest := some run.other, version := 0 } }
      match protoTlvPut [] updTDest [run.other.char] with
      | none => updRefuse (bkUpdDiscard bk) .io .io
      | some body => (bk, { status := .ok, body := body })

/-- `bk_upd_begin`. -/
def bkUpdBegin (w : BeginWorld) (rq : Req) (uid : Nat) (bk : State) :
    State × Resp :=
  let bk := bkUpdSweep w.sweep bk
  match updHandoff w.boot with
  | none => updRefuse bk .inval .handoff
  | some (run, _) =>
      let total := protoBe32 rq.body 0
      if rq.body.length ≠ 4 then updRefuse bk .inval .badlen
      else if total > Slots.slotSize then updRefuse bk .inval .tooBig
      else if total < bodyOff then updRefuse bk .inval .short
      else if bk.upd.state = .verified ∨
          bk.upd.state ≠ .none ∧ ¬ updOwner bk.upd rq uid then
        updRefuse bk .busy .busy
      else updStart w rq uid total run bk

/-- What `bk_upd_data` reads of the clock. -/
structure DataWorld where
  sweep : SweepTimes
  takenAt : Nat

/-- `u->total - u->received`, of two `uint32_t`. -/
def Upd.left (u : Upd) : Nat := (u.total + 2 ^ 32 - u.received) % 2 ^ 32

/-- A piece copied into the buffer. -/
def Upd.take (u : Upd) (piece : List UInt8) (now : Nat) : Upd :=
  { u with
    buf := u.buf.map fun buf =>
      buf.blit u.received piece.length (ByteMap.ofList piece 0)
    received := u.received + piece.length
    last := now }

/-- `bk_upd_data`. -/
def bkUpdData (w : DataWorld) (rq : Req) (uid : Nat) (bk : State) :
    State × Resp :=
  let bk := bkUpdSweep w.sweep bk
  if bk.upd.state = .none then updRefuse bk .inval .sequence
  else if ¬ updOwner bk.upd rq uid ∨ bk.upd.state = .verified then
    updRefuse bk .busy .busy
  else if bk.upd.state = .poisoned then updRefuse bk .inval .sequence
  else if rq.body.length < 5 then updRefuse (updPoison bk) .inval .badlen
  else if protoBe32 rq.body 0 ≠ bk.upd.received ∨
      rq.body.length - 4 > bk.upd.left then
    updRefuse (updPoison bk) .inval .sequence
  else
    let bk := { bk with upd := bk.upd.take (rq.body.drop 4) w.takenAt }
    match protoTlvPut [] updTReceived (Tlv.putBe32 bk.upd.received) with
    | none => updRefuse (updPoison bk) .io .io
    | some body => (bk, { status := .ok, body := body })

/-! ## End -/

/-- What `bk_upd_end` reads: the sweep's times, the boot text, the counter's
bitmap, whether `malloc` gives the slot buffer, and the two slots.  A read that
fails is `none`. -/
structure EndWorld where
  sweep : SweepTimes
  boot : Option (List UInt8)
  bitmap : Option ByteMap
  memory : Bool
  slot : SlotName → Option ByteMap

/-- A refusal of `bk_upd_end` past the owner check. -/
abbrev EndFault := Status × UpdReason

/-- `upd_env`. -/
def updEnv (pk : List UInt8) (ctr : Nat) : Env where
  ramBase := Slots.ramBase
  ramEnd := Slots.ramEnd
  selfBase := updSelfBase
  selfEnd := updSelfEnd
  bufBase := 0
  bufLimit := 0
  ldrBase := Slots.ldrBase
  ldrEnd := Slots.ldrEnd
  counter := ctr
  writeAt := flashNone
  writeForm := formNone
  pk := pk

/-- The slot record of `upd_slot`, its bytes read from the snapshot and written
back over it. -/
def snapshotSlot (name : SlotName) : Slots.Slot where
  name := name.char
  flashOff := name.base
  size := Slots.slotSize
  bufAddr := name.rambuf
  src := 0
  buf := 0

/-- `upd_slot`, on the snapshot of a slot. -/
def updSlot (ed25519 : SignatureCheck) (name : SlotName) (snapshot : ByteMap)
    (e : Env) : Verdict :=
  (Slots.slotRun ed25519 snapshot (snapshotSlot name) e snapshot).2

/-- The slot a pick of `rlxb_choose(&sa, &sb)` names. -/
def slotOfPick : Slots.Pick → SlotName
  | .first => .A
  | .second => .B

/-- Steps 3 and 4: the counter, caught up with the version running. -/
def endCounter (w : EndWorld) (ver : Nat) : Except EndFault Nat :=
  match w.bitmap with
  | none => .error (.io, .io)
  | some bm =>
      let ctr :=
        (Counter.rlxuCounterFromBitmap (bm.slice 0 Counter.ctrBytes)).1
      if ctr < ver then .error (.busy, .ctrBehind) else .ok ctr

/-- Step 6: what rlxboot would boot now is what it says it booted. -/
def endChosen (sa sb : Verdict) (run : SlotName) (ver : Nat) :
    Except EndFault Verdict :=
  match choose sa sb with
  | none => .error (.inval, .handoffMismatch)
  | some pick =>
      let chosen := if pick = .first then sa else sb
      if slotOfPick pick ≠ run ∨ chosen.r.version ≠ ver then
        .error (.inval, .handoffMismatch)
      else .ok chosen

/-- Steps 5 and 6: the two slots as rlxboot verifies them, and the one it would
boot. -/
def endRunning (ed25519 : SignatureCheck) (w : EndWorld) (e : Env)
    (run : SlotName) (ver : Nat) : Except EndFault Verdict :=
  if ¬ w.memory then .error (.io, .nomem)
  else
    match w.slot .A, w.slot .B with
    | some a, some b =>
        endChosen (updSlot ed25519 .A a e) (updSlot ed25519 .B b e) run ver
    | _, _ => .error (.io, .io)

/-- The environment of step 8. -/
def destEnv (dest : SlotName) (e : Env) : Env :=
  { e with
    bufBase := dest.rambuf
    bufLimit := dest.rambuf + Slots.slotSize
    writeAt := dest.base
    writeForm := formWhole }

/-- Step 9: rlxboot, given the upload, boots it. -/
def endBoots (dest : SlotName) (up running : Verdict) : Bool :=
  match dest with
  | .A => choose up running == some .first
  | .B => choose running up == some .second

/-- Steps 8 and 9 past the verification: an upload of exactly its own length,
booted from the destination. -/
def endAccept (ur : Container.Rlxu) (total : Nat) (dest : SlotName)
    (running : Verdict) : Except EndFault Nat :=
  if ur.reason ≠ .ok then .error (.inval, .container ur.reason)
  else if bodyOff + ur.payloadLen ≠ total then .error (.inval, .trailing)
  else if ¬ endBoots dest { copied := 0, r := ur } running then
    .error (.inval, .wouldNotBoot)
  else .ok ur.version

/-- Steps 8 and 9. -/
def endUpload (ed25519 : SignatureCheck) (upload : ByteMap) (total : Nat)
    (e : Env) (dest : SlotName) (running : Verdict) : Except EndFault Nat :=
  endAccept (rlxuVerify ed25519 upload total (destEnv dest e)) total dest
    running

/-- Steps 1 to 9 of `bk_upd_end`: the destination and the version, or the
refusal. -/
def endVerdict (ed25519 : SignatureCheck) (pk : List UInt8) (w : EndWorld)
    (u : Upd) (total : Nat) : Except EndFault (SlotName × Nat) :=
  if u.state = .poisoned then .error (.inval, .sequence)
  else if u.received ≠ u.total ∨ total ≠ u.total then
    .error (.inval, .incomplete)
  else
    match updHandoff w.boot, u.buf with
    | none, _ => .error (.inval, .handoff)
    -- a staging holds its buffer, so this is never taken
    | some _, none => .error (.inval, .container .short)
    | some (run, ver), some upload => do
        let ctr ← endCounter w ver
        let running ← endRunning ed25519 w (updEnv pk ctr) run ver
        let version ← endUpload ed25519 upload u.total (updEnv pk ctr)
          run.other running
        pure (run.other, version)

/-- The text of STATUS after an END that answers OK. -/
def okText (dest : SlotName) (version : Nat) : List UInt8 :=
  (ascii "ok " ++ [dest.char] ++ ascii " " ++ decimal version).take
    updateLastMax

/-- The body of END's OK. -/
def endBody (dest : SlotName) (version : Nat) : Option (List UInt8) := do
  let body ← protoTlvPut [] updTDest [dest.char]
  protoTlvPut body updTVersion (Tlv.putBe32 version)

/-- Step 10 of `bk_upd_end`. -/
def updVerified (bk : State) (dest : SlotName) (version : Nat) : State × Resp :=
  let bk :=
    { bk with
      upd :=
        { bk.upd with
          state := .verified, dest := some dest, version := version } }
  match endBody dest version with
  | none => updEndRefuse bk .io .io
  | some body =>
      ({ bk with
          upd := { bk.upd with lastResult := okText dest version }
          pendingUpdate := true },
        { status := .ok, body := body })

/-- `bk_upd_end`. -/
def bkUpdEnd (ed25519 : SignatureCheck) (pk : List UInt8) (w : EndWorld)
    (rq : Req) (uid : Nat) (bk : State) : State × Resp :=
  let bk := bkUpdSweep w.sweep bk
  if bk.upd.state = .none then updRefuse bk .inval .sequence
  else if ¬ updOwner bk.upd rq uid ∨ bk.upd.state = .verified then
    updRefuse bk .busy .busy
  else if rq.body.length ≠ 4 then updEndRefuse bk .inval .badlen
  else
    match endVerdict ed25519 pk w bk.upd (protoBe32 rq.body 0) with
    | .error (st, why) => updEndRefuse bk st why
    | .ok (dest, version) => updVerified bk dest version

/-! ## After the reply -/

/-- `bk_upd_after_reply`, with whether the reply was delivered and whether
`upd_install` returns 0: the state after, and the staging `upd_install` ran on,
if it ran. -/
def bkUpdAfterReply (delivered installed : Bool) (bk : State) :
    State × Option Upd :=
  let bk := { bk with pendingUpdate := false }
  if bk.upd.state ≠ .verified then (bk, none)
  else if ¬ delivered then
    (bkUpdDiscard (updNote bk UpdReason.undelivered.name), none)
  else if ¬ installed then
    (bkUpdDiscard (updNote bk UpdReason.install.name), some bk.upd)
  else (bkUpdDiscard bk, some bk.upd)

end RlxFw.Broker
