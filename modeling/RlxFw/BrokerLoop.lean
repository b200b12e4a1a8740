import RlxFw.Dispatch
import RlxFw.ProtoRx
import RlxFw.Reactor
import Mathlib.Data.Fintype.Basic
import Mathlib.Logic.Function.Basic

/-!
# The broker's loop

`src/brokerd/loop.c`: eight connection slots, one request and one reply each.
What the system calls and the clock return is a parameter of every pass; the log
records what became of END's OK.
-/

namespace RlxFw.Broker

open CfgStore (Faults Medium)
open Proto (ProtoRx protoRxInit protoRxFeed)

/-- `BK_MAXCONN`. -/
def bkMaxconn : Nat := 8
/-- `BK_IDLE_S`. -/
def bkIdleS : Nat := 5
/-- `BK_LIFE_S`. -/
def bkLifeS : Nat := 15
/-- `BK_CHUNK`. -/
def bkChunk : Nat := 512
/-- `PROTO_RESP_MAGIC`. -/
def respMagic : Nat := 0x524C5852

/-- The value of a status. -/
def Status.code : Status → UInt8
  | .ok => 0
  | .badreq => 1
  | .perm => 2
  | .auth => 3
  | .locked => 4
  | .inval => 5
  | .io => 6
  | .noent => 7
  | .busy => 8
  | .notsup => 9
  | .noentropy => 10

/-- `proto_encode_resp`, into a buffer of `PROTO_RESP_MAX`. -/
def protoEncodeResp (rs : Resp) : Option (List UInt8) :=
  if respBodyMax < rs.body.length then none
  else
    some (Tlv.putBe32 respMagic ++ [Proto.version, rs.status.code] ++ Tlv.putBe16 0 ++
      Tlv.putBe32 rs.body.length ++ rs.body)

/-- A slot of the table. -/
abbrev SlotIx := Fin bkMaxconn

/-- `struct bk_conn`, of an open connection. -/
structure Conn where
  uid : Nat
  writing : Bool
  rebootAfterWrite : Bool
  installAfterWrite : Bool
  born : Nat
  last : Nat
  rx : ProtoRx
  out : List UInt8
  outoff : Nat

/-- What the log records. -/
inductive LoopEntry where
  /-- END's OK is in a slot, as these bytes, for this staging. -/
  | answered (i : SlotIx) (reply : List UInt8) (staged : Upd)
  /-- Bytes of a slot's reply were written. -/
  | wrote (i : SlotIx) (count : Nat)
  /-- `upd_install` ran on this staging, for this slot. -/
  | installed (i : SlotIx) (staged : Upd)
  /-- The slot of an END's OK ended otherwise, and left this. -/
  | dropped (i : SlotIx) (left : Upd)
  /-- REBOOT's reply was written. -/
  | rebooted (i : SlotIx)

/-- The broker, its table (`none` where `fd < 0`) and the log. -/
structure BkLoop where
  bk : State
  conns : SlotIx → Option Conn
  log : List LoopEntry

/-- A slot's new content. -/
def BkLoop.put (s : BkLoop) (i : SlotIx) (c : Option Conn) : BkLoop :=
  { s with conns := Function.update s.conns i c }

/-- `conn_close`. -/
def connClose (s : BkLoop) (i : SlotIx) : BkLoop := s.put i none

/-- `conn_drop`. -/
def connDrop (s : BkLoop) (i : SlotIx) : BkLoop :=
  match s.conns i with
  | none => s
  | some c =>
      if c.installAfterWrite then
        let bk := (bkUpdAfterReply false false s.bk).1
        connClose { s with bk, log := s.log ++ [.dropped i bk.upd] } i
      else connClose s i

/-- `conn_reply`: the slot, and whether the reply itself is what will be written.
Nothing when not even the bare status could be formed. -/
def connReply (c : Conn) (rs : Resp) : Option (Conn × Bool) :=
  match protoEncodeResp rs with
  | some out => some ({ c with out, outoff := 0, writing := true }, true)
  | none =>
      (protoEncodeResp (rsStatus .io)).map fun out =>
        ({ c with out, outoff := 0, writing := true }, false)

/-- `conn_reply_status`. -/
def connReplyStatus (c : Conn) (st : Status) : Option Conn :=
  (connReply c (rsStatus st)).map Prod.fst

/-- `bk_loop_adopt`: the first free slot, if there is one. -/
def bkLoopAdopt (uid now : Nat) (s : BkLoop) : BkLoop :=
  match (List.finRange bkMaxconn).find? fun j => (s.conns j).isNone with
  | none => s
  | some j =>
      s.put j (some
        { uid, writing := false, rebootAfterWrite := false, installAfterWrite := false
          born := now, last := now, rx := protoRxInit, out := [], outoff := 0 })

/-- What `read` and `write` come to. -/
inductive Io (α : Type) where
  /-- `EINTR` or `EAGAIN`. -/
  | again
  | failed
  | done (result : α)

/-- The bytes of a token. -/
def tokenOf (bytes : List UInt8) : Token :=
  ⟨(bytes ++ List.replicate tokLen 0).take tokLen, by simp [List.length_take]⟩

/-- What the dispatcher reads of a request received. -/
def reqOf (rq : Proto.ProtoReq) : Req where
  op := rq.op.toNat
  session := tokenOf rq.session
  csrf := tokenOf rq.csrf
  clientIp := UInt32.ofNat rq.clientIp
  body := rq.body.slice 0 rq.bodyLen

/-- A receiver that was wiped. -/
def ProtoRx.wiped : ProtoRx := { protoRxInit with want := 0 }

/-- REBOOT's flag moves onto the slot that asked for it. -/
def armReboot (bk : State) (slot : Option Conn) : State × Option Conn :=
  if bk.pendingReboot then
    ({ bk with pendingReboot := false },
      slot.map fun c => { c with rebootAfterWrite := true })
  else (bk, slot)

/-- A complete request is dispatched, and its reply put into the slot. -/
def connDispatch (w : World) (m : Medium) (c : Conn) (i : SlotIx) (s : BkLoop) :
    BkLoop :=
  let h := bkDispatch w (reqOf c.rx.req) c.uid s.bk m
  let reply := connReply c h.rs
  let asIs := reply.any Prod.snd
  let (bk, slot) := armReboot h.bk (reply.map Prod.fst)
  let wipe (c : Conn) := { c with rx := ProtoRx.wiped }
  if bk.pendingUpdate then
    let bk := { bk with pendingUpdate := false }
    let undelivered : BkLoop := { s with bk := (bkUpdAfterReply false false bk).1 }
    match slot with
    | none => undelivered.put i none
    | some c =>
        -- the bytes about to be written must be that OK
        if asIs ∧ h.rs.status = .ok then
          let answered : BkLoop :=
            { s with bk, log := s.log ++ [.answered i c.out bk.upd] }
          answered.put i (some (wipe { c with installAfterWrite := true }))
        else undelivered.put i (some (wipe c))
  else
    let s := { s with bk }
    s.put i (slot.map wipe)

/-- `conn_read`. -/
def connRead (result : Io (List UInt8)) (now : Nat) (w : World) (m : Medium)
    (i : SlotIx) (s : BkLoop) : BkLoop :=
  match s.conns i, result with
  | none, _ => s
  | some _, .again => s
  | some _, .failed => connDrop s i
  | some c, .done data =>
      let data := data.take bkChunk
      -- EOF before a complete request
      if data = [] then connDrop s i
      else
        match protoRxFeed c.rx data with
        | (rx, st, used) =>
            let c := { c with last := now, rx }
            match st with
            | .error _ => s.put i (connReplyStatus c .badreq)
            | .ok .done =>
                if used ≠ data.length then s.put i (connReplyStatus c .badreq)
                else connDispatch w m c i s
            | .ok _ => s.put i (some c)

/-- `conn_write`; `installed` says whether `upd_install` returns 0. -/
def connWrite (result : Io Nat) (now : Nat) (installed : Bool) (i : SlotIx)
    (s : BkLoop) : BkLoop :=
  match s.conns i, result with
  | none, _ => s
  | some _, .again => s
  | some _, .failed => connDrop s i
  | some c, .done count =>
      -- write(2) takes no more than it is given
      let count := min count (c.out.length - c.outoff)
      let c := { c with last := now, outoff := c.outoff + count }
      let s := { s with log := s.log ++ [.wrote i count] }
      if c.out.length ≤ c.outoff then
        let s := connClose s i
        let s :=
          if c.installAfterWrite then
            match bkUpdAfterReply true installed s.bk with
            | (bk, some staged) =>
                { s with bk, log := s.log ++ [.installed i staged] }
            | (bk, none) => { s with bk }
          else s
        -- if reboot(2) comes back, serving goes on
        if c.rebootAfterWrite then { s with log := s.log ++ [.rebooted i] } else s
      else s.put i (some c)

/-- What a pass is given from outside. -/
structure PassWorld where
  /-- `poll` did not fail. -/
  polled : Bool
  now : Nat
  /-- The listener is there, and gave a connection with its credentials. -/
  accepted : Option Nat
  acceptedAt : Nat
  ready : SlotIx → Bool
  read : SlotIx → Io (List UInt8)
  write : SlotIx → Io Nat
  installed : SlotIx → Bool
  world : SlotIx → World
  medium : SlotIx → Medium
  sweep : SweepTimes

/-- A slot that `poll` found ready. -/
def serve (p : PassWorld) (s : BkLoop) (i : SlotIx) : BkLoop :=
  match s.conns i with
  | none => s
  | some c =>
      if c.writing then connWrite (p.write i) p.now (p.installed i) i s
      else connRead (p.read i) p.now (p.world i) (p.medium i) i s

/-- A slot's deadlines. -/
def expire (now : Nat) (s : BkLoop) (i : SlotIx) : BkLoop :=
  match s.conns i with
  | none => s
  | some c =>
      if now - c.last ≥ bkIdleS ∨ now - c.born ≥ bkLifeS then connDrop s i else s

/-- `bk_loop_step`. -/
def bkLoopStep (p : PassWorld) (s : BkLoop) : BkLoop :=
  if ¬ p.polled then s
  else
    let slots := List.finRange bkMaxconn
    -- the listener is polled while a slot is free, the slots that are open now
    let free := slots.any fun i => (s.conns i).isNone
    let open' := slots.filter fun i => (s.conns i).isSome && p.ready i
    let s :=
      match p.accepted with
      | some uid => if free then bkLoopAdopt uid p.acceptedAt s else s
      | none => s
    let s := open'.foldl (serve p) s
    let s := slots.foldl (expire p.now) s
    { s with bk := bkUpdSweep p.sweep s.bk }

/-- `bk_loop_close_all`. -/
def bkLoopCloseAll (s : BkLoop) : BkLoop :=
  (List.finRange bkMaxconn).foldl connDrop s

/-- The calls into the loop. -/
inductive LoopEvent where
  | adopt (uid now : Nat)
  | pass (p : PassWorld)
  | closeAll

/-- The loop, a call a step. -/
def bkLoop : Reactor BkLoop LoopEvent Empty where
  step s e :=
    (match e with
      | .adopt uid now => bkLoopAdopt uid now s
      | .pass p => bkLoopStep p s
      | .closeAll => bkLoopCloseAll s, [])

/-- `main` up to its loop: the load that the log shows, and the entropy read. -/
def bkLoopInit (load : Faults) (m : Medium) (entropy : Option Nat) : BkLoop where
  bk := bkEntropyReady entropy (bkReload load m .init)
  conns _ := none
  log := []

end RlxFw.Broker
