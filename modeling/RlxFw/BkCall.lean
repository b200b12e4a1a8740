import RlxFw.BrokerLoop
import RlxFw.DeliveredInstall
import RlxFw.Pipe
import RlxFw.ProtoCodec

/-!
# A call to the broker

`bk_call` of `src/lib/client.c`, the connection that it opens and the slot of the
broker's loop at the other end.  The two sides and the other slots take turns in any
order, and every read and write comes to any part of what was asked for.
-/

namespace RlxFw.Broker

open CfgStore (Medium)
open Proto (protoRxFeed protoRxInit rxStepper)

/-! ## The caller -/

/-- `PROTO_REQ_MAX`. -/
def reqMax : Nat := Proto.reqHdr + Proto.reqBodyMax

/-- `sizeof(sa.sun_path)`. -/
def sunPath : Nat := 108

/-- What `bk_call` returns where it does not return 0. -/
inductive CallErr where
  | inval
  | msgsize
  | nametoolong
  | timedout
  | pipe
  | proto
  /-- The errno of a call that failed. -/
  | sys
deriving DecidableEq, Repr

/-- `struct bk_req`. -/
structure BkReq where
  op : UInt8
  session : Token
  csrf : Token
  clientIp : UInt32
  body : List UInt8
deriving DecidableEq

/-- `struct bk_resp`. -/
structure BkResp where
  status : UInt8
  body : List UInt8
deriving DecidableEq, Repr

/-- The request as it is encoded. -/
def BkReq.proto (rq : BkReq) : Proto.ProtoReq where
  version := Proto.version
  op := rq.op
  flags := 0
  session := rq.session.bytes
  csrf := rq.csrf.bytes
  clientIp := rq.clientIp.toNat
  bodyLen := rq.body.length
  body := ByteMap.ofList rq.body 0

/-- `bk_call` up to `socket`: the bytes to be written. -/
def bkCallWire (sockPath : List UInt8) (rq : BkReq) : Except CallErr (List UInt8) :=
  if rq.body.length > Proto.reqBodyMax then .error .msgsize
  else if sockPath = [] ∨ sockPath.length ≥ sunPath then .error .nametoolong
  else
    match Proto.protoEncodeReq rq.proto reqMax with
    | .error _ => .error .inval
    | .ok wire => .ok wire

/-- Where a connected `bk_call` stands. -/
inductive Caller where
  /-- In `write_all`, with these bytes left. -/
  | sending (left : List UInt8)
  /-- Past `shutdown`, with these bytes of so many. -/
  | receiving (got : List UInt8) (want : Nat)
  | ended (result : Except CallErr BkResp)

/-- The end of `bk_call`, on a whole response. -/
def bkCallDecode (got : List UInt8) : Except CallErr BkResp :=
  match Proto.protoDecodeResp got with
  | .error _ => .error .proto
  | .ok (rs, _) => .ok { status := rs.status, body := rs.body.slice 0 rs.bodyLen }

/-- The loop of `write_all`. -/
def Caller.toSend (left : List UInt8) : Caller :=
  if left.isEmpty then .receiving [] Proto.respHdr else .sending left

/-- The loop of `bk_call`. -/
def Caller.toReceive (got : List UInt8) (want : Nat) : Caller :=
  if got.length < want then .receiving got want else .ended (bkCallDecode got)

/-- What `write` came to. -/
def Caller.wrote (left : List UInt8) : Io Nat → Caller
  | .again => .sending left
  | .failed => .ended (.error .sys)
  | .done 0 => .ended (.error .pipe)
  | .done count => .toSend (left.drop count)

/-- What `read` came to. -/
def Caller.took (got : List UInt8) (want : Nat) : Io (List UInt8) → Caller
  | .again => .receiving got want
  | .failed => .ended (.error .sys)
  | .done data =>
      let all := got ++ data
      if data.isEmpty then .ended (.error .proto)
      else if all.length = Proto.respHdr ∧ want = Proto.respHdr then
        let blen := protoBe32 all 8
        if blen > respBodyMax then .ended (.error .proto)
        else .toReceive all (Proto.respHdr + blen)
      else .toReceive all want

/-! ## The broker, an action at a time -/

/-- What a pass does, one slot at a time. -/
inductive LoopAct where
  | adopt (uid now : Nat)
  | serve (p : PassWorld) (j : SlotIx)
  | expire (now : Nat) (j : SlotIx)
  | drop (j : SlotIx)
  | sweep (times : SweepTimes)

def BkLoop.act (s : BkLoop) : LoopAct → BkLoop
  | .adopt uid now => bkLoopAdopt uid now s
  | .serve p j => serve p s j
  | .expire now j => expire now s j
  | .drop j => connDrop s j
  | .sweep times => { s with bk := bkUpdSweep times s.bk }

theorem foldl_act (make : SlotIx → LoopAct) (slots : List SlotIx) (s : BkLoop) :
    (slots.map make).foldl BkLoop.act s =
      slots.foldl (fun s j => s.act (make j)) s :=
  List.foldl_map

/-- A pass after `accept`. -/
theorem pass_eq_acts (p : PassWorld) (ready : List SlotIx) (s : BkLoop) :
    ∃ acts : List LoopAct,
      BkLoop.act ((List.finRange bkMaxconn).foldl (expire p.now)
          (ready.foldl (serve p) s)) (.sweep p.sweep) =
        acts.foldl BkLoop.act s := by
  refine ⟨ready.map (.serve p) ++ (List.finRange bkMaxconn).map (.expire p.now) ++
    [.sweep p.sweep], ?_⟩
  rw [List.foldl_append, List.foldl_append, foldl_act, foldl_act]
  rfl

/-- Every call into the loop is a run of actions. -/
theorem step_eq_acts (s : BkLoop) (e : LoopEvent) :
    ∃ acts : List LoopAct, (bkLoop.step s e).1 = acts.foldl BkLoop.act s := by
  cases e with
  | adopt uid now => exact ⟨[.adopt uid now], rfl⟩
  | closeAll =>
      refine ⟨(List.finRange bkMaxconn).map .drop, ?_⟩
      rw [foldl_act]
      rfl
  | pass p =>
      by_cases polled : p.polled = true
      case neg =>
        have idle : bkLoopStep p s = s := by
          unfold bkLoopStep
          rw [if_pos polled]
        exact ⟨[], idle⟩
      unfold bkLoop bkLoopStep
      dsimp only
      rw [if_neg (not_not.mpr polled)]
      cases p.accepted with
      | none => exact pass_eq_acts p _ s
      | some uid =>
          dsimp only
          split
          · obtain ⟨acts, run⟩ := pass_eq_acts p
              ((List.finRange bkMaxconn).filter fun i => (s.conns i).isSome && p.ready i)
              (bkLoopAdopt uid p.acceptedAt s)
            exact ⟨.adopt uid p.acceptedAt :: acts, run⟩
          · exact pass_eq_acts p _ s

/-! ## The connection -/

/-- A dispatch, as `bk_dispatch` was called. -/
structure Served where
  world : World
  before : State
  medium : Medium
  uid : Nat
  rq : Req

/-- What it answered. -/
def Served.rs (e : Served) : Resp := (bkDispatch e.world e.rq e.uid e.before e.medium).rs

/-- The request that a read completes in a slot. -/
def Conn.completes (conn : Conn) (data : List UInt8) : Option Req :=
  match protoRxFeed conn.rx data with
  | (rx, .ok .done, used) => if used = data.length then some (reqOf rx.req) else none
  | _ => none

/-- A caller connected to a slot. -/
structure Channel where
  caller : Caller
  up : Pipe UInt8
  down : Pipe UInt8
  loop : BkLoop
  /-- The slot has not been closed since. -/
  mine : Bool

inductive ChannelEvent where
  /-- The caller's `write` returns. -/
  | write (result : Io Nat)
  /-- The caller's `read` returns, with so much at hand. -/
  | read (result : Io Nat)
  /-- `wait_fd` does not return 0. -/
  | giveUp
  /-- The broker acts; its `read` of this connection finds so much at hand. -/
  | broker (act : LoopAct) (result : Io Nat)

def Io.count : Io Nat → Nat
  | .done count => count
  | _ => 0

/-- A `read` of at most `most`. -/
def readPipe (p : Pipe UInt8) (most : Nat) : Io Nat → Io (List UInt8) × Pipe UInt8
  | .again => (.again, p)
  | .failed => (.failed, p)
  | .done ready =>
      match p.offer most ready with
      | none => (.again, p)
      | some data => (.done data, p.give data.length)

/-- The caller goes on; `shutdown` and `close` end what it writes. -/
def Channel.goOn (c : Channel) (caller : Caller) : Channel :=
  match caller with
  | .sending _ => { c with caller }
  | _ => { c with caller, up := c.up.close }

def Channel.callerWrites (c : Channel) (result : Io Nat) : Channel :=
  match c.caller with
  | .sending left =>
      { c with up := c.up.write (left.take result.count) }.goOn (.wrote left result)
  | _ => c

def Channel.callerReads (c : Channel) (result : Io Nat) : Channel :=
  match c.caller with
  | .receiving got want =>
      let (result, down) := readPipe c.down (want - got.length) result
      { c with down }.goOn (.took got want result)
  | _ => c

def Channel.callerGivesUp (c : Channel) : Channel :=
  match c.caller with
  | .ended _ => c
  | _ => c.goOn (.ended (.error .timedout))

/-- The loop went on; a slot that it closed is this connection's no more. -/
def Channel.settle (c : Channel) (i : SlotIx) (loop : BkLoop) : Channel :=
  if (loop.conns i).isSome then { c with loop }
  else { c with loop, mine := false, down := c.down.close }

/-- The broker serves this connection. -/
def Channel.serveOwn (c : Channel) (i : SlotIx) (p : PassWorld) (result : Io Nat) :
    Channel × List Served :=
  match c.loop.conns i with
  | none => (c, [])
  | some conn =>
      if conn.writing then
        let sent := (conn.out.drop conn.outoff).take (p.write i).count
        ({ c with down := c.down.write sent }.settle i (serve p c.loop i), [])
      else
        let (result, up) := readPipe c.up bkChunk result
        let next := { c with up }.settle i (serve { p with read := fun _ => result } c.loop i)
        match result with
        | .done data =>
            (next, (conn.completes data).toList.map fun rq =>
              { world := p.world i, before := c.loop.bk, medium := p.medium i
                uid := conn.uid, rq })
        | _ => (next, [])

def Channel.brokerActs (c : Channel) (i : SlotIx) (act : LoopAct) (result : Io Nat) :
    Channel × List Served :=
  if c.mine then
    match act with
    | .serve p j =>
        if j = i then c.serveOwn i p result else (c.settle i (serve p c.loop j), [])
    | act => (c.settle i (c.loop.act act), [])
  else ({ c with loop := c.loop.act act }, [])

/-- A call and the loop that answers it in a slot; what it puts out are the dispatches of
this connection. -/
def channel (i : SlotIx) : Reactor Channel ChannelEvent Served where
  step c e :=
    match e with
    | .write result => (c.callerWrites result, [])
    | .read result => (c.callerReads result, [])
    | .giveUp => (c.callerGivesUp, [])
    | .broker act result => c.brokerActs i act result

/-- The connection was accepted into its slot. -/
def Channel.connected (wire : List UInt8) (loop : BkLoop) : Channel where
  caller := .toSend wire
  up := .empty
  down := .empty
  loop := loop
  mine := true

/-! ## The slots are apart -/

section Apart

variable {s : BkLoop} {i j : SlotIx}

theorem conns_put_self (s : BkLoop) (new : Option Conn) : (s.put i new).conns i = new :=
  Function.update_self _ _ _

theorem connDrop_self (s : BkLoop) (i : SlotIx) : (connDrop s i).conns i = none := by
  unfold connDrop
  cases slot : s.conns i with
  | none => exact slot
  | some c =>
      dsimp only
      split <;> exact conns_put_self _ none

theorem connDrop_other (s : BkLoop) (other : i ≠ j) :
    (connDrop s j).conns i = s.conns i := by
  unfold connDrop
  cases s.conns j with
  | none => rfl
  | some c =>
      dsimp only
      split <;> exact Rounds.conns_put_of_ne none other

theorem connDispatch_other (w : World) (m : Medium) (c : Conn) (s : BkLoop)
    (other : i ≠ j) : (connDispatch w m c j s).conns i = s.conns i := by
  unfold connDispatch
  dsimp only
  split
  · split
    · exact Rounds.conns_put_of_ne none other
    · split <;> exact Rounds.conns_put_of_ne _ other
  · exact Rounds.conns_put_of_ne _ other

theorem connRead_other (result : Io (List UInt8)) (now : Nat) (w : World) (m : Medium)
    (s : BkLoop) (other : i ≠ j) : (connRead result now w m j s).conns i = s.conns i := by
  unfold connRead
  cases s.conns j with
  | none => rfl
  | some c =>
      cases result with
      | again => rfl
      | failed => exact connDrop_other s other
      | done data =>
          dsimp only
          split
          · exact connDrop_other s other
          · split
            · exact Rounds.conns_put_of_ne _ other
            · split
              · exact Rounds.conns_put_of_ne _ other
              · exact connDispatch_other w m _ s other
            · exact Rounds.conns_put_of_ne _ other

theorem connWrite_other (result : Io Nat) (now : Nat) (installed : Bool) (s : BkLoop)
    (other : i ≠ j) : (connWrite result now installed j s).conns i = s.conns i := by
  unfold connWrite
  cases s.conns j with
  | none => rfl
  | some c =>
      cases result with
      | again => rfl
      | failed => exact connDrop_other s other
      | done count =>
          dsimp only
          split
          · cases c.rebootAfterWrite
            all_goals
              cases c.installAfterWrite
              · exact Rounds.conns_put_of_ne none other
              · generalize bkUpdAfterReply true installed _ = result
                obtain ⟨bk, staged⟩ := result
                cases staged with
                | none =>
                    simp only [if_true]
                    exact Rounds.conns_put_of_ne none other
                | some staged =>
                    simp only [if_true]
                    exact Rounds.conns_put_of_ne none other
          · exact Rounds.conns_put_of_ne _ other

theorem serve_other (p : PassWorld) (s : BkLoop) (other : i ≠ j) :
    (serve p s j).conns i = s.conns i := by
  unfold serve
  cases s.conns j with
  | none => rfl
  | some c =>
      dsimp only
      split
      · exact connWrite_other _ _ _ s other
      · exact connRead_other _ _ _ _ s other

/-- A new connection goes where none is. -/
theorem bkLoopAdopt_taken (uid now : Nat) {conn : Conn} (slot : s.conns i = some conn) :
    (bkLoopAdopt uid now s).conns i = some conn := by
  unfold bkLoopAdopt
  cases found : (List.finRange bkMaxconn).find? fun j => (s.conns j).isNone with
  | none => exact slot
  | some j =>
      have free := List.find?_some found
      have other : i ≠ j := by
        rintro rfl
        rw [slot] at free
        cases free
      exact (Rounds.conns_put_of_ne _ other).trans slot

/-- Short of serving it, the loop can only close a slot. -/
theorem act_unserved {conn : Conn} (slot : s.conns i = some conn) (act : LoopAct)
    (unserved : ∀ p, act ≠ .serve p i) :
    (s.act act).conns i = some conn ∨ (s.act act).conns i = none := by
  cases act with
  | adopt uid now => exact .inl (bkLoopAdopt_taken uid now slot)
  | sweep times => exact .inl slot
  | serve p j =>
      have other : i ≠ j := by
        rintro rfl
        exact unserved p rfl
      exact .inl ((serve_other p s other).trans slot)
  | drop j =>
      rcases eq_or_ne i j with rfl | other
      · exact .inr (connDrop_self s i)
      · exact .inl ((connDrop_other s other).trans slot)
  | expire now j =>
      unfold BkLoop.act expire
      dsimp only
      cases s.conns j with
      | none => exact .inl slot
      | some c =>
          dsimp only
          split
          · rcases eq_or_ne i j with rfl | other
            · exact .inr (connDrop_self s i)
            · exact .inl ((connDrop_other s other).trans slot)
          · exact .inl slot

end Apart

end RlxFw.Broker
