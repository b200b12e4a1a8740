import RlxFw.Account
import RlxFw.HttpGate
import RlxFw.Ops

/-!
# The streamed upload

`src/httpd/upload.c`: the body of `POST /api/firmware` is forwarded to the broker
piece by piece.  The peer's socket, `bk_call` and `alarm` are a world outside, and
what was asked of it and what it answered are the operations issued.
-/

namespace RlxFw.Httpd

open Broker (Req Resp Token protoBe32 protoTlvGet updTDest updTVersion updTReason updTReceived
  updReasonMax opUpdateBeginId opUpdateDataId opUpdateEndId)
open Emission (ask stop)
open Json (Writer)

/-- `UPD_DATA_MAX`. -/
def updDataMax : Nat := Broker.reqBodyMax - 4
/-- `HTTP_UPLOAD_ALARM_S`. -/
def httpUploadAlarmS : Nat := 180
/-- `UPLOAD_END_CONNECT_S`. -/
def uploadEndConnectS : Nat := 5
/-- `UPLOAD_END_IO_S`. -/
def uploadEndIoS : Nat := 60
/-- `UPLOAD_END_NEED_S`. -/
def uploadEndNeedS : Nat := uploadEndConnectS + uploadEndIoS + 5

/-! ## The world outside -/

/-- What a `read` of the socket gives: bytes, none at the end of the stream; an
`EAGAIN`; another error. -/
inductive Got where
  | bytes (read : List UInt8)
  | timeout
  | gone
deriving DecidableEq, Repr

/-- The calls that leave the process.  A `read` that was interrupted was made
again, and gives no more than it was asked for. -/
structure Outside (World : Type) where
  read : Nat → World → Got × World
  read_le : ∀ n world bytes, (read n world).1 = .bytes bytes → bytes.length ≤ n
  call : Req → World → Option Resp × World
  alarm : Nat → World → Nat × World
  setTimeouts : Nat → Nat → World → World

/-- A call that was made, with what it answered. -/
inductive UpEvent where
  | read (got : Got)
  | call (q : Req) (reply : Option Resp)
  | alarm (secs left : Nat)
  | setTimeouts (connectS ioS : Nat)
deriving DecidableEq, Repr

/-- How an upload ends early: an answer, or a peer that is gone. -/
inductive Ended where
  | answered (rs : Reply)
  | gone
deriving DecidableEq, Repr

/-- A part of an upload. -/
abbrev Upload (World Value : Type) : Type := Emission World UpEvent Ended Value

/-! ## Requests -/

/-- `unhex16`. -/
def unhex16 (s : List UInt8) : Option Token :=
  ((List.range 16).mapM fun i => do
    let h ← Http.hexdig (byteAt s (i * 2))
    let l ← Http.hexdig (byteAt s (i * 2 + 1))
    pure (h <<< 4 ||| l)).map Token.zero.overwrite

/-- A token of a request: absent, or 32 digits. -/
def tokenOf (s : List UInt8) : Option Token :=
  if byteAt s 0 ≠ 0 then unhex16 s else some .zero

/-- `route_bk_req`. -/
def routeBkReq (clientIp : UInt32) (rq : Http.HttpReq) (rs : Reply) : Except Reply Req :=
  match tokenOf rq.sess with
  | none => .error (rs.err 400 (ascii "session"))
  | some session =>
      match tokenOf rq.hcsrf with
      | none => .error (rs.err 400 (ascii "csrf"))
      | some csrf =>
          .ok { op := 0, session := session, csrf := csrf, clientIp := clientIp, body := [] }

/-! ## Replies -/

theorem protoTlvGet_rest_lt {rest later : List UInt8} {item : Tlv.Item}
    (got : protoTlvGet rest = some (item, later)) : later.length < rest.length := by
  unfold protoTlvGet at got
  dsimp only at got
  split at got
  · cases got
  split at got
  · cases got
  cases got
  rw [List.length_drop]
  omega

/-- `up_tlv`: the value of the first item of a type. -/
def upTlv (rest : List UInt8) (want : Nat) : Option (List UInt8) :=
  match _got : protoTlvGet rest with
  | none => none
  | some (item, later) => if item.type = want then some item.val else upTlv later want
termination_by rest.length
decreasing_by exact protoTlvGet_rest_lt _got

/-- A byte of a reason: `[a-z0-9_]`. -/
def reasonByte (c : UInt8) : Bool :=
  (0x61 ≤ c && c ≤ 0x7A) || (0x30 ≤ c && c ≤ 0x39) || c == 0x5F

/-- `up_reason`. -/
def upReason (br : Resp) : Option (List UInt8) :=
  match upTlv br.body updTReason with
  | none => none
  | some v =>
      if v.length = 0 ∨ updReasonMax < v.length then none
      else if v.all reasonByte then some v else none

/-- The writer's body, or what is answered when it had no room. -/
def Reply.json (rs : Reply) (w : Writer) : Reply :=
  if w.err then rs.err 500 (ascii "toolong")
  else { rs with rsp := { rs.rsp with body := w.buf } }

/-- `up_refused`. -/
def upRefused (rs : Reply) (br : Resp) : Reply :=
  let rs : Reply := { rs with rsp := routeMapStatus rs.rsp br.status [] }
  match upReason br with
  | none => rs
  | some why =>
      rs.json
        ((jsonStr ((Writer.init rspBodyMax).objOpen.bool (ascii "ok") false) (ascii "error")
          (ascii "update")).strn (ascii "reason") why).objClose

/-- The slot and the version of END's reply. -/
def upSlot (br : Resp) : Option (UInt8 × List UInt8) :=
  match upTlv br.body updTDest with
  | some [slot] =>
      if slot ≠ 0x41 ∧ slot ≠ 0x42 then none
      else
        match upTlv br.body updTVersion with
        | some v => if v.length = 4 then some (slot, v) else none
        | none => none
  | _ => none

/-- `up_verdict`. -/
def upVerdict (rs : Reply) (br : Resp) : Reply :=
  match upSlot br with
  | none => rs.err 500 (ascii "broker")
  | some (slot, version) =>
      Reply.json { rs with rsp := { rs.rsp with status := 200 } }
        ((jsonStr ((Writer.init rspBodyMax).objOpen.bool (ascii "ok") true) (ascii "slot")
          [slot]).num (ascii "version") (protoBe32 version 0)).objClose

/-- The bytes that the broker says it holds. -/
def upReceived (br : Resp) : Option Nat :=
  match upTlv br.body updTReceived with
  | some v => if v.length = 4 then some (protoBe32 v 0) else none
  | none => none

/-! ## The upload -/

section Client

variable {World : Type} (out : Outside World)

/-- `up_alarm`. -/
def upAlarm (secs : Nat) : Upload World Nat := ask (out.alarm secs) (.alarm secs)

/-- `bk_set_timeouts`. -/
def bkSetTimeouts (connectS ioS : Nat) : Upload World Unit :=
  ask (fun world => ((), out.setTimeouts connectS ioS world)) fun _ => .setTimeouts connectS ioS

/-- `up_read`.  No socket reads as the end of the stream. -/
def upRead (fd : Int) (n : Nat) : Upload World Got :=
  ask (fun world => if fd < 0 then (.bytes [], world) else out.read n world) .read

/-- `up_call`: the reply when it is OK. -/
def upCall (rs : Reply) (q : Req) : Upload World Resp := do
  match ← ask (out.call q) (.call q) with
  | none => stop (.answered (rs.err 503 (ascii "broker")))
  | some br => if br.status ≠ .ok then stop (.answered (upRefused rs br)) else pure br

/-- The inner loop of `up_stream`: a piece of `want` bytes, of which some are held,
from what was read before and then from the socket; and what was read before and is
left. -/
def fill (rs : Reply) (fd : Int) (want : Nat) (held : List UInt8) :
    List UInt8 → Upload World (List UInt8 × List UInt8)
  | pre =>
      if held.length < want then
        match pre with
        | c :: before =>
            fill rs fd want (held ++ (c :: before).take (want - held.length))
              ((c :: before).drop (want - held.length))
        | [] => do
            match ← upRead out fd (want - held.length) with
            | .bytes [] => stop (.answered (rs.err 400 (ascii "short")))
            | .bytes (c :: read) => fill rs fd want (held ++ c :: read) []
            | .timeout => stop (.answered (rs.err 408 (ascii "timeout")))
            | .gone => stop .gone
      else pure (held, pre)
termination_by want - held.length
decreasing_by all_goals simp only [List.length_append, List.length_take, List.length_cons]; omega

/-- The length of the piece at an offset. -/
def pieceLen (total off : Nat) : Nat := min (total - off) updDataMax

/-- The outer loop of `up_stream`. -/
def sendPieces (rs : Reply) (fd : Int) (q : Req) (total off : Nat) (pre : List UInt8) :
    Upload World Unit :=
  if off < total then do
    let filled ← fill out rs fd (pieceLen total off) [] pre
    let br ← upCall out rs
      { q with op := opUpdateDataId, body := Tlv.putBe32 off ++ filled.1 }
    if upReceived br = some (off + pieceLen total off) then
      sendPieces rs fd q total (off + pieceLen total off) filled.2
    else stop (.answered (rs.err 500 (ascii "broker")))
  else pure ()
termination_by total - off
decreasing_by
  unfold pieceLen updDataMax Broker.reqBodyMax
  omega

/-- What is left of the alarm, which is read by cancelling it and put back. -/
def upLeft : Upload World Nat := do
  let left ← upAlarm out 0
  if left ≠ 0 then
    let _ ← upAlarm out left
    pure left
  else pure left

/-- The end of `up_stream`: END, when its whole deadline is left of the alarm, and the
verdict. -/
def upEnd (rs : Reply) (q : Req) (total : Nat) : Upload World Reply := do
  let left ← upLeft out
  if left < uploadEndNeedS then stop (.answered (rs.err 408 (ascii "timeout")))
  else
    bkSetTimeouts out uploadEndConnectS uploadEndIoS
    let br ← upCall out rs { q with op := opUpdateEndId, body := Tlv.putBe32 total }
    pure (upVerdict rs br)

/-- What `up_stream` does after its gate, with the head of its requests. -/
def upForward (rs : Reply) (fd : Int) (q : Req) (total : Nat) (pre : List UInt8) :
    Upload World Reply := do
  let _ ← upCall out rs { q with op := opUpdateBeginId, body := Tlv.putBe32 total }
  let _ ← upAlarm out httpUploadAlarmS
  sendPieces out rs fd q total 0 (pre.take total)
  upEnd out rs q total

/-- `up_stream`. -/
def upStream (clientIp : UInt32) (fd : Int) (rq : Http.HttpReq) (pre : List UInt8) :
    Upload World Reply :=
  match routeStreamGate rq with
  | (rs, false) => stop (.answered rs)
  | (rs, true) =>
      match routeBkReq clientIp rq rs with
      | .error rs => stop (.answered rs)
      | .ok q => upForward out rs fd q rq.clen pre

/-- `upload_run`: the answer, unless the peer is gone. -/
def uploadRun (clientIp : UInt32) (fd : Int) (rq : Http.HttpReq) (pre : List UInt8)
    (world : World) : Option Reply × World × List UpEvent :=
  let ran := upStream out clientIp fd rq pre world
  match ran.1 with
  | .ok rs => (some rs.nostore, ran.2)
  | .error (.answered rs) => (some rs.nostore, ran.2)
  | .error .gone => (none, ran.2)

end Client

end RlxFw.Httpd
