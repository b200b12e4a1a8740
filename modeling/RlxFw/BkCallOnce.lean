import RlxFw.BkCall

/-!
# A call is answered once

In any interleaving of a call with the loop, the request is dispatched at most once,
as it was asked, and what a call returns is what that dispatch answered.
-/

namespace RlxFw.Broker

open CfgStore (Medium)
open Proto (ProtoRx ProtoReq protoRxFeed protoRxInit protoDecodeReq rxStepper)

/-! ## The request, in pieces -/

/-- The request as the dispatcher is given it. -/
def BkReq.asked (rq : BkReq) : Req where
  op := rq.op.toNat
  session := rq.session
  csrf := rq.csrf
  clientIp := rq.clientIp
  body := rq.body

theorem tokenOf_bytes (token : Token) : tokenOf token.bytes = token := by
  obtain ⟨bytes, length⟩ := token
  simp [tokenOf, ← length]

theorem reqOf_bare (rq : BkReq) : reqOf rq.proto.bare = rq.asked := by
  have body : rq.proto.body.slice 0 rq.proto.bodyLen = rq.body :=
    Proto.slice_ofList_self rq.body
  have again : (ByteMap.ofList rq.body 0).slice 0 rq.body.length = rq.body :=
    Proto.slice_ofList_self rq.body
  simp [reqOf, ProtoReq.bare, BkReq.asked, BkReq.proto, tokenOf_bytes, again]

/-- What a call writes is decoded as its request, to the last byte. -/
theorem decode_wire {path : List UInt8} {rq : BkReq} {wire : List UInt8}
    (asked : bkCallWire path rq = .ok wire) :
    protoDecodeReq wire = .ok (rq.proto.bare, wire.length) := by
  unfold bkCallWire at asked
  split_ifs at asked with long path
  have small : rq.body.length < 2 ^ 32 := lt_of_le_of_lt (not_lt.mp long) (by decide)
  have typed : rq.proto.Typed :=
    ⟨rq.session.length_eq, rq.csrf.length_eq, rq.clientIp.toNat_lt, small⟩
  cases encoded : Proto.protoEncodeReq rq.proto reqMax with
  | error fault =>
      rw [encoded] at asked
      cases asked
  | ok bytes =>
      rw [encoded] at asked
      cases asked
      have decoded := Proto.decode_encode_req typed rfl rfl encoded []
      rwa [List.append_nil] at decoded

theorem sound_run (bytes : List UInt8) :
    (rxStepper.run protoRxInit bytes).1.Sound :=
  rxStepper.run_keeps (fun _ b sound going => (Proto.rxFeed_byte sound going b).1)
    Proto.sound_init bytes

/-- The receiver at the end of a request. -/
theorem run_decoded {wire : List UInt8} {req : ProtoReq}
    (decoded : protoDecodeReq wire = .ok (req, wire.length)) :
    (rxStepper.run protoRxInit wire).2 = wire.length ∧
      (rxStepper.run protoRxInit wire).1.code = .ok .done ∧
      (rxStepper.run protoRxInit wire).1.req = req := by
  have run := Proto.rxFeed_eq_run Proto.sound_init wire
  have code := Proto.protoRxFeed_code protoRxInit wire
  rw [← run]
  unfold Proto.rxFeed
  unfold protoDecodeReq at decoded
  split at decoded
  · cases decoded
  · next rx used fed =>
      cases decoded
      rw [fed] at code ⊢
      exact ⟨rfl, code.symm, rfl⟩
  · cases decoded

/-- A piece of the request is taken whole; the last one completes it. -/
theorem feed_piece {before data rest : List UInt8} {req : ProtoReq}
    (decoded : protoDecodeReq (before ++ data ++ rest) =
      .ok (req, (before ++ data ++ rest).length))
    (going : rxStepper.halted (rxStepper.run protoRxInit before).1 = false) :
    let rx := (rxStepper.run protoRxInit (before ++ data)).1
    protoRxFeed (rxStepper.run protoRxInit before).1 data = (rx, rx.code, data.length) ∧
      (rx.code = .ok .done ∧ rx.req = req ∨ rxStepper.halted rx = false) := by
  obtain ⟨count, code, isReq⟩ := run_decoded decoded
  have fed := Proto.rxFeed_eq_run (sound_run before) data
  have answered := Proto.protoRxFeed_code (rxStepper.run protoRxInit before).1 data
  have cut := rxStepper.run_append protoRxInit before data
  have first := rxStepper.run_taken going
  have whole := rxStepper.run_append protoRxInit (before ++ data) rest
  -- whether it halts or not, the piece was taken
  have taken : (rxStepper.run (rxStepper.run protoRxInit before).1 data).2 = data.length ∧
      (rxStepper.halted (rxStepper.run protoRxInit (before ++ data)).1 = true →
        rxStepper.run protoRxInit (before ++ data ++ rest) =
          rxStepper.run protoRxInit (before ++ data)) := by
    cases halted : rxStepper.halted (rxStepper.run protoRxInit (before ++ data)).1 with
    | false =>
        have all := rxStepper.run_taken halted
        rw [cut, List.length_append] at all
        dsimp only at all
        exact ⟨by omega, fun absurd => by cases absurd⟩
    | true =>
        rw [rxStepper.run_of_halted halted] at whole
        rw [whole] at count
        have most := rxStepper.run_le (rxStepper.run protoRxInit before).1 data
        rw [cut] at count
        simp only [List.length_append, Nat.add_zero] at count
        refine ⟨by omega, fun _ => ?_⟩
        rw [whole]
        rfl
  have fields := Prod.ext_iff.mp fed
  refine ⟨?_, ?_⟩
  · rw [cut]
    refine Prod.ext fields.1 (Prod.ext ?_ (fields.2.trans taken.1))
    exact answered.trans (congrArg ProtoRx.code fields.1)
  · cases halted : rxStepper.halted (rxStepper.run protoRxInit (before ++ data)).1 with
    | false => exact .inr rfl
    | true =>
        rw [← taken.2 halted]
        exact .inl ⟨code, isReq⟩

/-! ## The reply -/

/-- What a caller sees of a reply. -/
def Resp.seen (rs : Resp) : BkResp :=
  if respBodyMax < rs.body.length then { status := Status.io.code, body := [] }
  else { status := rs.status.code, body := rs.body }

/-- The bytes of a slot are its reply, or the bare status in its place. -/
def IsReply (rs : Resp) (out : List UInt8) : Prop :=
  protoEncodeResp rs = some out ∨
    protoEncodeResp rs = none ∧ protoEncodeResp (rsStatus .io) = some out

theorem exists_isReply (rs : Resp) : ∃ out, IsReply rs out := by
  cases encoded : protoEncodeResp rs with
  | some out => exact ⟨out, .inl encoded⟩
  | none => exact ⟨_, .inr ⟨encoded, rfl⟩⟩

/-- A reply as the codec of the library has it. -/
def Resp.proto (rs : Resp) : Proto.ProtoResp where
  version := Proto.version
  status := rs.status.code
  reserved := 0
  bodyLen := rs.body.length
  body := ByteMap.ofList rs.body 0

theorem encodes_alike {rs : Resp} {out : List UInt8} (encoded : protoEncodeResp rs = some out) :
    ¬ respBodyMax < rs.body.length ∧
      Proto.protoEncodeResp rs.proto (Proto.respHdr + rs.body.length) = .ok out := by
  unfold protoEncodeResp at encoded
  split_ifs at encoded with long
  cases encoded
  refine ⟨long, ?_⟩
  unfold Proto.protoEncodeResp
  rw [if_neg (show ¬ rs.proto.bodyLen > respBodyMax from long),
    if_neg (show ¬ Proto.respHdr + rs.body.length < Proto.respHdr + rs.proto.bodyLen from
      Nat.lt_irrefl _)]
  have body : rs.proto.body.slice 0 rs.proto.bodyLen = rs.body :=
    Proto.slice_ofList_self rs.body
  rw [body]
  rfl

theorem bare_proto (rs : Resp) :
    rs.proto.bare.body.slice 0 rs.proto.bare.bodyLen = rs.body := by
  have body : rs.proto.body.slice 0 rs.proto.bodyLen = rs.body :=
    Proto.slice_ofList_self rs.body
  have again : (ByteMap.ofList rs.body 0).slice 0 rs.body.length = rs.body :=
    Proto.slice_ofList_self rs.body
  unfold Proto.ProtoResp.bare
  dsimp only
  rw [body]
  exact again

/-- The beginning of a reply is decoded as that reply, if at all. -/
theorem decode_reply {rs : Resp} {out got : List UInt8} (isReply : IsReply rs out)
    (begun : got <+: out) {seen : BkResp} (decoded : bkCallDecode got = .ok seen) :
    seen = rs.seen := by
  -- the reply that was encoded, whichever of the two it is
  obtain ⟨sent, encoded, same⟩ : ∃ sent : Resp, protoEncodeResp sent = some out ∧
      rs.seen = { status := sent.status.code, body := sent.body } := by
    rcases isReply with encoded | ⟨tooLong, encoded⟩
    · refine ⟨rs, encoded, ?_⟩
      rw [Resp.seen, if_neg (encodes_alike encoded).1]
    · refine ⟨rsStatus .io, encoded, ?_⟩
      rw [Resp.seen, if_pos]
      · rfl
      · unfold protoEncodeResp at tooLong
        by_contra short
        rw [if_neg short] at tooLong
        cases tooLong
  unfold bkCallDecode at decoded
  cases read : Proto.protoDecodeResp got with
  | error fault =>
      rw [read] at decoded
      cases decoded
  | ok result =>
      obtain ⟨read', used⟩ := result
      rw [read] at decoded
      cases decoded
      obtain ⟨more, rfl⟩ := begun
      -- what was read is encoded to where it was read from, and that is decoded again
      have back := Proto.encode_decode_resp read (Nat.le_refl used)
      have fields : read'.version = Proto.version ∧ read'.reserved = 0 := by
        unfold Proto.protoDecodeResp at read
        dsimp only at read
        split_ifs at read with _ _ version
        cases read
        exact ⟨not_not.mp version, rfl⟩
      have twice := Proto.decode_encode_resp fields.1 fields.2 back (got.drop used ++ more)
      have once := @Proto.decode_encode_resp sent.proto rfl rfl _ _ (encodes_alike encoded).2 []
      rw [← List.append_assoc, List.take_append_drop] at twice
      rw [List.append_nil, twice] at once
      have isSent : read'.bare = sent.proto.bare := (Prod.ext_iff.mp (Except.ok.inj once)).1
      have status : read'.status = sent.status.code :=
        congrArg Proto.ProtoResp.status isSent
      have body := bare_proto sent
      rw [← isSent] at body
      have again : read'.bare.body.slice 0 read'.bare.bodyLen =
          read'.body.slice 0 read'.bodyLen := by
        have whole := Proto.slice_ofList_self (read'.body.slice 0 read'.bodyLen)
        rwa [ByteMap.slice_length] at whole
      rw [same, status, ← body, again]

/-! ## The slot -/

variable {s : BkLoop} {i : SlotIx}

/-- The slot holds this reply, with nothing of it written. -/
structure Answers (rs : Resp) (c : Conn) : Prop where
  writing : c.writing = true
  outoff : c.outoff = 0
  out : IsReply rs c.out

theorem connReply_answers {c c' : Conn} {rs : Resp} {asIs : Bool}
    (put : connReply c rs = some (c', asIs)) : Answers rs c' := by
  have written := (connReply_some put).2
  unfold connReply at put
  cases encoded : protoEncodeResp rs with
  | some out =>
      rw [encoded] at put
      cases put
      exact ⟨written.1, written.2.1, .inl encoded⟩
  | none =>
      rw [encoded] at put
      dsimp only at put
      obtain ⟨out, bare, same⟩ := Option.map_eq_some_iff.mp put
      cases same
      exact ⟨written.1, written.2.1, .inr ⟨encoded, bare⟩⟩

theorem connDispatch_slot (w : World) (m : Medium) (c : Conn) (s : BkLoop) :
    (connDispatch w m c i s).conns i = none ∨
      ∃ c', (connDispatch w m c i s).conns i = some c' ∧
        Answers (bkDispatch w (reqOf c.rx.req) c.uid s.bk m).rs c' := by
  unfold connDispatch
  generalize bkDispatch w (reqOf c.rx.req) c.uid s.bk m = h
  dsimp only
  have slots := @armReboot_slot h.bk ((connReply c h.rs).map Prod.fst)
  generalize armReboot h.bk ((connReply c h.rs).map Prod.fst) = armed at slots ⊢
  obtain ⟨bk, slot⟩ := armed
  dsimp only at slots ⊢
  cases slot with
  | none =>
      left
      split
      · exact conns_put_self _ none
      · exact conns_put_self _ none
  | some c' =>
      right
      obtain ⟨c'', isReply, -, writing, out, outoff⟩ := slots rfl
      obtain ⟨⟨c₀, asIs⟩, put, rfl⟩ := Option.map_eq_some_iff.mp isReply
      have answers := connReply_answers put
      have kept : Answers h.rs c' :=
        ⟨writing.trans answers.writing, outoff.trans answers.outoff, out ▸ answers.out⟩
      dsimp only
      split
      · split
        · exact ⟨_, conns_put_self _ _, kept.writing, kept.outoff, kept.out⟩
        · exact ⟨_, conns_put_self _ _, kept.writing, kept.outoff, kept.out⟩
      · exact ⟨_, conns_put_self _ _, kept.writing, kept.outoff, kept.out⟩

/-- A read of a slot that has only part of a request. -/
theorem connRead_slot {conn : Conn} {before data rest : List UInt8} {req : ProtoReq}
    (slot : s.conns i = some conn) (rx : conn.rx = (rxStepper.run protoRxInit before).1)
    (going : rxStepper.halted conn.rx = false)
    (decoded : protoDecodeReq (before ++ data ++ rest) =
      .ok (req, (before ++ data ++ rest).length))
    (short : data.length ≤ bkChunk) (now : Nat) (w : World) (m : Medium) :
    let after := (connRead (.done data) now w m i s).conns i
    conn.completes data = some (reqOf req) ∧
        (after = none ∨
          ∃ c', after = some c' ∧ Answers (bkDispatch w (reqOf req) conn.uid s.bk m).rs c') ∨
      conn.completes data = none ∧
        (after = none ∨
          ∃ c', after = some c' ∧ c'.uid = conn.uid ∧ c'.writing = conn.writing ∧
            c'.rx = (rxStepper.run protoRxInit (before ++ data)).1 ∧
            rxStepper.halted c'.rx = false) := by
  have unfinished {rx' : ProtoRx} (more : rxStepper.halted rx' = false) :
      rx'.state ≠ .done := by
    intro done
    simp [rxStepper, done] at more
  have going' := going
  rw [rx] at going'
  obtain ⟨fed, stands⟩ := feed_piece decoded going'
  rw [← rx] at fed
  have whole : data.take bkChunk = data := List.take_of_length_le short
  unfold connRead Conn.completes
  rw [slot]
  dsimp only
  rw [whole, fed]
  by_cases ended : data = []
  · subst ended
    rw [if_pos rfl, List.append_nil, ← rx, Proto.code_of_going going]
    right
    refine ⟨?_, .inl (connDrop_self s i)⟩
    cases state : conn.rx.state with
    | done => exact absurd state (unfinished going)
    | hdr => rfl
    | body => rfl
    | err => rfl
  rw [if_neg ended]
  dsimp only
  generalize (rxStepper.run protoRxInit (before ++ data)).1 = rx' at stands ⊢
  rcases stands with ⟨code, rfl⟩ | more
  · rw [code]
    dsimp only
    rw [if_pos rfl, if_neg (not_not.mpr rfl)]
    exact .inl ⟨rfl, connDispatch_slot w m { conn with last := now, rx := rx' } s⟩
  · rw [Proto.code_of_going more]
    cases state : rx'.state with
    | done => exact absurd state (unfinished more)
    | hdr => exact .inr ⟨rfl, .inr ⟨_, conns_put_self _ _, rfl, rfl, rfl, more⟩⟩
    | body => exact .inr ⟨rfl, .inr ⟨_, conns_put_self _ _, rfl, rfl, rfl, more⟩⟩
    | err => exact .inr ⟨rfl, .inr ⟨_, conns_put_self _ _, rfl, rfl, rfl, more⟩⟩

/-- A write of a slot goes on with its reply, or closes it. -/
theorem connWrite_slot {conn : Conn} (slot : s.conns i = some conn) (result : Io Nat)
    (now : Nat) (installed : Bool) :
    let after := (connWrite result now installed i s).conns i
    after = none ∨
      ∃ c', after = some c' ∧ c'.writing = conn.writing ∧ c'.out = conn.out ∧
        c'.outoff = conn.outoff + min result.count (conn.out.length - conn.outoff) := by
  unfold connWrite
  rw [slot]
  cases result with
  | again => exact .inr ⟨conn, slot, rfl, rfl, by simp [Io.count]⟩
  | failed => exact .inl (connDrop_self s i)
  | done count =>
      dsimp only
      split
      · left
        cases conn.rebootAfterWrite
        all_goals
          cases conn.installAfterWrite
          · exact conns_put_self _ none
          · generalize bkUpdAfterReply true installed _ = result
            obtain ⟨bk, staged⟩ := result
            cases staged with
            | none =>
                simp only [if_true]
                exact conns_put_self _ none
            | some staged =>
                simp only [if_true]
                exact conns_put_self _ none
      · exact .inr ⟨_, conns_put_self _ _, rfl, rfl, rfl⟩

/-! ## What holds of the two sides -/

/-- Where the caller stands, by what it wrote and what it was given. -/
def Caller.Sound (wire sent got : List UInt8) : Caller → Prop
  | .sending left => sent ++ left = wire ∧ got = []
  | .receiving all _ => sent <+: wire ∧ all = got
  | .ended result => sent <+: wire ∧ ∀ rs, result = .ok rs → bkCallDecode got = .ok rs

/-- The one dispatch of a request, with the part of its reply that was written. -/
structure Served.Replied (e : Served) (uid : Nat) (rq : Req) (out written : List UInt8) :
    Prop where
  uid : e.uid = uid
  asked : e.rq = rq
  reply : IsReply e.rs out
  written : written <+: out

/-- Where the slot stands, by what it read and what it wrote. -/
inductive Conn.Stands (conn : Conn) (uid : Nat) (rq : Req) (got written : List UInt8) :
    List Served → Prop
  | reading (owner : conn.uid = uid) (state : conn.writing = false)
      (rx : conn.rx = (rxStepper.run protoRxInit got).1)
      (going : rxStepper.halted conn.rx = false) (nothing : written = []) :
      Stands conn uid rq got written []
  | replying (e : Served) (state : conn.writing = true)
      (replied : e.Replied uid rq conn.out written)
      (part : written = conn.out.take conn.outoff) : Stands conn uid rq got written [e]

/-- What was dispatched of a connection and written to it, whoever has the slot now. -/
inductive Answered (uid : Nat) (rq : Req) (written : List UInt8) : List Served → Prop
  | nothing (empty : written = []) : Answered uid rq written []
  | once (e : Served) (out : List UInt8) (replied : e.Replied uid rq out written) :
      Answered uid rq written [e]

theorem Conn.Stands.answered {conn : Conn} {uid : Nat} {rq : Req} {got written : List UInt8}
    {served : List Served} (stands : conn.Stands uid rq got written served) :
    Answered uid rq written served := by
  cases stands with
  | reading _ _ _ _ nothing => exact .nothing nothing
  | replying e _ replied _ => exact .once e conn.out replied

/-- What holds of a connection between two events. -/
structure Channel.Sound (i : SlotIx) (uid : Nat) (rq : Req) (wire : List UInt8)
    (served : List Served) (c : Channel) : Prop where
  caller : c.caller.Sound wire c.up.written c.down.received
  answered : Answered uid rq c.down.written served
  slot : c.mine = true → ∃ conn, c.loop.conns i = some conn ∧
    conn.Stands uid rq c.up.received c.down.written served

/-! ## The caller's steps -/

section Caller

variable {wire sent got left : List UInt8}

theorem Caller.Sound.sent_prefix {caller : Caller} (sound : caller.Sound wire sent got) :
    sent <+: wire := by
  cases caller with
  | sending left => exact ⟨left, sound.1⟩
  | receiving all want => exact sound.1
  | ended result => exact sound.1

theorem toSend_sound (parts : sent ++ left = wire) :
    (Caller.toSend left).Sound wire sent [] := by
  unfold Caller.toSend
  split
  · exact ⟨⟨left, parts⟩, rfl⟩
  · exact ⟨parts, rfl⟩

theorem toReceive_sound (began : sent <+: wire) (want : Nat) :
    (Caller.toReceive got want).Sound wire sent got := by
  unfold Caller.toReceive
  split
  · exact ⟨began, rfl⟩
  · exact ⟨began, fun rs ok => ok⟩

theorem failed_sound (began : sent <+: wire) (err : CallErr) :
    (Caller.ended (.error err)).Sound wire sent got :=
  ⟨began, fun _ ok => by cases ok⟩

theorem wrote_sound (parts : sent ++ left = wire) (result : Io Nat) :
    (Caller.wrote left result).Sound wire (sent ++ left.take result.count) [] := by
  have cut : sent ++ left.take result.count ++ left.drop result.count = wire := by
    rw [List.append_assoc, List.take_append_drop, parts]
  cases result with
  | again => exact ⟨by simpa [Io.count] using parts, rfl⟩
  | failed => exact failed_sound ⟨_, cut⟩ .sys
  | done count =>
      cases count with
      | zero => exact failed_sound ⟨_, cut⟩ .pipe
      | succ count => exact toSend_sound cut

theorem took_sound (began : sent <+: wire) (want : Nat) (data : List UInt8) :
    (Caller.took got want (.done data)).Sound wire sent (got ++ data) := by
  unfold Caller.took
  dsimp only
  split
  · exact failed_sound began .proto
  · split
    · split
      · exact failed_sound began .proto
      · exact toReceive_sound began _
    · exact toReceive_sound began _

end Caller

namespace Channel

variable {c : Channel} {uid : Nat} {rq : Req} {wire : List UInt8} {served : List Served}

theorem sound_goOn {caller : Caller}
    (stands : caller.Sound wire c.up.written c.down.received)
    (answered : Answered uid rq c.down.written served)
    (slot : c.mine = true → ∃ conn, c.loop.conns i = some conn ∧
      conn.Stands uid rq c.up.received c.down.written served) :
    (c.goOn caller).Sound i uid rq wire served := by
  unfold Channel.goOn
  cases caller with
  | sending left => exact ⟨stands, answered, slot⟩
  | receiving all want => exact ⟨stands, answered, slot⟩
  | ended result => exact ⟨stands, answered, slot⟩

theorem Sound.callerWrites (sound : c.Sound i uid rq wire served) (result : Io Nat) :
    (c.callerWrites result).Sound i uid rq wire served := by
  have caller := sound.caller
  unfold Channel.callerWrites
  cases stands : c.caller with
  | receiving all want => exact sound
  | ended ended => exact sound
  | sending left =>
      rw [stands] at caller
      refine sound_goOn ?_ sound.answered sound.slot
      have next := wrote_sound caller.1 result
      rw [← caller.2] at next
      simpa using next

/-- A read of a pipe takes what it was given, or nothing. -/
theorem readPipe_cases (p : Pipe UInt8) (most : Nat) (result : Io Nat) :
    (∃ data, readPipe p most result = (.done data, p.give data.length) ∧
        (p.give data.length).received = p.received ++ data ∧ data.length ≤ most) ∨
      readPipe p most result = (.again, p) ∨ readPipe p most result = (.failed, p) := by
  unfold readPipe
  cases result with
  | again => exact .inr (.inl rfl)
  | failed => exact .inr (.inr rfl)
  | done ready =>
      cases offered : p.offer most ready with
      | none => exact .inr (.inl (by simp [offered]))
      | some data =>
          exact .inl ⟨data, by simp [offered], Pipe.received_give offered,
            Pipe.length_offer offered⟩

theorem Sound.callerReads (sound : c.Sound i uid rq wire served) (result : Io Nat) :
    (c.callerReads result).Sound i uid rq wire served := by
  have caller := sound.caller
  unfold Channel.callerReads
  cases stands : c.caller with
  | sending left => exact sound
  | ended ended => exact sound
  | receiving all want =>
      rw [stands] at caller
      obtain ⟨began, isGot⟩ := caller
      dsimp only
      rcases readPipe_cases c.down (want - all.length) result with
        ⟨data, read, got, -⟩ | read | read
      · rw [read]
        have next := @took_sound wire c.up.written all began want data
        refine sound_goOn ?_ ?_ ?_
        · rw [got, ← isGot]
          exact next
        · rw [Pipe.written_give]
          exact sound.answered
        · rw [Pipe.written_give]
          exact sound.slot
      · rw [read]
        exact sound_goOn ⟨began, isGot⟩ sound.answered sound.slot
      · rw [read]
        exact sound_goOn (failed_sound began .sys) sound.answered sound.slot

theorem Sound.callerGivesUp (sound : c.Sound i uid rq wire served) :
    c.callerGivesUp.Sound i uid rq wire served := by
  have gaveUp := @failed_sound wire c.up.written c.down.received sound.caller.sent_prefix .timedout
  unfold Channel.callerGivesUp
  cases c.caller with
  | ended ended => exact sound
  | sending left => exact sound_goOn gaveUp sound.answered sound.slot
  | receiving all want => exact sound_goOn gaveUp sound.answered sound.slot

/-! ## The broker's steps -/

/-- The loop went on, and left the slot as it should be or closed it. -/
theorem sound_settle {loop : BkLoop}
    (caller : c.caller.Sound wire c.up.written c.down.received)
    (answered : Answered uid rq c.down.written served)
    (slot : loop.conns i = none ∨ ∃ conn, loop.conns i = some conn ∧
      conn.Stands uid rq c.up.received c.down.written served) :
    (c.settle i loop).Sound i uid rq wire served := by
  unfold Channel.settle
  rcases slot with gone | ⟨conn, here, stands⟩
  · rw [gone, if_neg (by simp)]
    exact ⟨caller, answered, fun mine => by cases mine⟩
  · rw [here, if_pos (by simp)]
    exact ⟨caller, answered, fun _ => ⟨conn, here, stands⟩⟩

/-- The loop serves no one or another. -/
theorem Sound.unserved (sound : c.Sound i uid rq wire served) (mine : c.mine = true)
    (act : LoopAct) (unserved : ∀ p, act ≠ .serve p i) :
    (c.settle i (c.loop.act act)).Sound i uid rq wire served := by
  obtain ⟨conn, slot, stands⟩ := sound.slot mine
  refine sound_settle sound.caller sound.answered ?_
  rcases act_unserved slot act unserved with same | gone
  · exact .inr ⟨conn, same, stands⟩
  · exact .inl gone

theorem Sound.serveOwn (sound : c.Sound i uid rq wire served) (mine : c.mine = true)
    {req : ProtoReq} (decoded : protoDecodeReq wire = .ok (req, wire.length))
    (asked : reqOf req = rq) (p : PassWorld) (result : Io Nat) :
    (c.serveOwn i p result).1.Sound i uid rq wire
      (served ++ (c.serveOwn i p result).2) := by
  obtain ⟨conn, slot, stands⟩ := sound.slot mine
  unfold Channel.serveOwn
  rw [slot]
  dsimp only
  cases stands with
  | replying e state replied part =>
      rw [if_pos state]
      have writes : serve p c.loop i =
          connWrite (p.write i) p.now (p.installed i) i c.loop := by
        unfold serve
        rw [slot]
        dsimp only
        rw [if_pos state]
      -- the bytes put on the way continue what was written
      have all : c.down.written ++ (conn.out.drop conn.outoff).take (p.write i).count =
          conn.out.take (conn.outoff + (p.write i).count) := by
        rw [part, List.take_add]
      have replied' : e.Replied uid rq conn.out
          (c.down.write ((conn.out.drop conn.outoff).take (p.write i).count)).written := by
        refine ⟨replied.uid, replied.asked, replied.reply, ?_⟩
        rw [Pipe.written_write, all]
        exact List.take_prefix _ _
      rw [writes]
      refine sound_settle sound.caller (.once e conn.out replied') ?_
      rcases connWrite_slot slot (p.write i) p.now (p.installed i) with
        gone | ⟨c', here, writing, out, outoff⟩
      · exact .inl gone
      · refine .inr ⟨c', here, .replying e (writing.trans state) (out ▸ replied') ?_⟩
        rw [Pipe.written_write, all, out, outoff, List.take_eq_take_iff]
        omega
  | reading owner state rx going nothing =>
      rw [if_neg (by simp [state])]
      have reads (got : Io (List UInt8)) :
          serve { p with read := fun _ => got } c.loop i =
            connRead got p.now (p.world i) (p.medium i) i c.loop := by
        unfold serve
        rw [slot]
        dsimp only
        rw [if_neg (by simp [state])]
      rcases readPipe_cases c.up bkChunk result with ⟨data, read, got, short⟩ | read | read
      · rw [read]
        dsimp only
        rw [reads, List.nil_append]
        obtain ⟨rest, isWire⟩ : c.up.received ++ data <+: wire := by
          rw [← got]
          refine List.IsPrefix.trans (Pipe.received_prefix _) ?_
          rw [Pipe.written_give]
          exact sound.caller.sent_prefix
        have caller : c.caller.Sound wire (c.up.give data.length).written
            c.down.received := by
          rw [Pipe.written_give]
          exact sound.caller
        rw [← isWire] at decoded
        rcases connRead_slot slot rx going decoded short p.now (p.world i) (p.medium i) with
          ⟨completes, after⟩ | ⟨partly, after⟩
        · rw [completes]
          have replied (out : List UInt8)
              (isReply : IsReply (bkDispatch (p.world i) (reqOf req) conn.uid c.loop.bk
                (p.medium i)).rs out) :
              Served.Replied ⟨p.world i, c.loop.bk, p.medium i, conn.uid, reqOf req⟩ uid rq
                out c.down.written := by
            refine ⟨owner, asked, isReply, ?_⟩
            rw [nothing]
            exact List.nil_prefix
          rcases after with gone | ⟨c', here, answers⟩
          · obtain ⟨out, isReply⟩ := exists_isReply
              (bkDispatch (p.world i) (reqOf req) conn.uid c.loop.bk (p.medium i)).rs
            exact sound_settle caller (.once _ out (replied out isReply)) (.inl gone)
          · have replied' := replied c'.out answers.out
            refine sound_settle caller (.once _ c'.out replied')
              (.inr ⟨c', here, .replying _ answers.writing replied' ?_⟩)
            rw [answers.outoff, List.take_zero]
            exact nothing
        · rw [partly]
          refine sound_settle caller (.nothing nothing) ?_
          rcases after with gone | ⟨c', here, uids, writing, fed, more⟩
          · exact .inl gone
          · refine .inr ⟨c', here, .reading (uids.trans owner) (writing.trans state) ?_ more
              nothing⟩
            rw [got]
            exact fed
      · rw [read]
        dsimp only
        rw [reads, List.append_nil]
        have same : connRead .again p.now (p.world i) (p.medium i) i c.loop = c.loop := by
          unfold connRead
          rw [slot]
        rw [same]
        exact sound_settle sound.caller sound.answered
          (.inr ⟨conn, slot, .reading owner state rx going nothing⟩)
      · rw [read]
        dsimp only
        rw [reads, List.append_nil]
        have dropped : connRead .failed p.now (p.world i) (p.medium i) i c.loop =
            connDrop c.loop i := by
          unfold connRead
          rw [slot]
        rw [dropped]
        exact sound_settle sound.caller sound.answered (.inl (connDrop_self c.loop i))

theorem Sound.brokerActs (sound : c.Sound i uid rq wire served) {req : ProtoReq}
    (decoded : protoDecodeReq wire = .ok (req, wire.length)) (asked : reqOf req = rq)
    (act : LoopAct) (result : Io Nat) :
    (c.brokerActs i act result).1.Sound i uid rq wire
      (served ++ (c.brokerActs i act result).2) := by
  unfold Channel.brokerActs
  by_cases mine : c.mine = true
  case neg =>
    rw [if_neg mine, List.append_nil]
    exact ⟨sound.caller, sound.answered, fun still => absurd still mine⟩
  rw [if_pos mine]
  cases act with
  | serve p j =>
      dsimp only
      split
      · exact sound.serveOwn mine decoded asked p result
      · next other =>
        rw [List.append_nil]
        refine sound.unserved mine (.serve p j) ?_
        intro p' same
        cases same
        exact other rfl
  | adopt uid now =>
      rw [List.append_nil]
      exact sound.unserved mine _ fun p same => by cases same
  | expire now j =>
      rw [List.append_nil]
      exact sound.unserved mine _ fun p same => by cases same
  | drop j =>
      rw [List.append_nil]
      exact sound.unserved mine _ fun p same => by cases same
  | sweep times =>
      rw [List.append_nil]
      exact sound.unserved mine _ fun p same => by cases same

theorem Sound.step (sound : c.Sound i uid rq wire served) {req : ProtoReq}
    (decoded : protoDecodeReq wire = .ok (req, wire.length)) (asked : reqOf req = rq)
    (e : ChannelEvent) :
    ((channel i).step c e).1.Sound i uid rq wire
      (served ++ ((channel i).step c e).2) := by
  cases e with
  | write result => simpa [channel] using sound.callerWrites result
  | read result => simpa [channel] using sound.callerReads result
  | giveUp => simpa [channel] using sound.callerGivesUp
  | broker act result => exact sound.brokerActs decoded asked act result

end Channel

/-- A connection that was accepted is read from its first byte. -/
theorem adopted_stands {uid now : Nat} {rq : Req} (free : s.conns i = none)
    (adopted : ((bkLoopAdopt uid now s).conns i).isSome) :
    ∃ conn, (bkLoopAdopt uid now s).conns i = some conn ∧
      conn.Stands uid rq [] [] [] := by
  unfold bkLoopAdopt at adopted ⊢
  cases found : (List.finRange bkMaxconn).find? fun j => (s.conns j).isNone with
  | none =>
      rw [found, free] at adopted
      cases adopted
  | some j =>
      rw [found] at adopted
      dsimp only at adopted ⊢
      rcases eq_or_ne i j with rfl | other
      · exact ⟨_, conns_put_self _ _, .reading rfl rfl rfl rfl rfl⟩
      · rw [Rounds.conns_put_of_ne _ other, free] at adopted
        cases adopted

/-! ## The result -/

/-- What a call comes to, by the dispatches of its connection. -/
structure CallAnswered (uid : Nat) (rq : BkReq) (caller : Caller) (served : List Served) :
    Prop where
  atMostOnce : served.length ≤ 1
  /-- The request is the caller's, and its credentials are the connection's. -/
  asAsked : ∀ e ∈ served, e.uid = uid ∧ e.rq = rq.asked
  /-- A call that returns 0 was dispatched, and returns what that answered. -/
  asAnswered : ∀ rs, caller = .ended (.ok rs) → ∃ e, served = [e] ∧ rs = e.rs.seen

/-- However the reads and writes of a call and the actions of the broker in all its slots
fall, and wherever the call gives up: its request is dispatched at most once, byte for
byte as it was asked and under the credentials of its connection, and a call that
returns 0 returns the status and body of that one dispatch. -/
theorem call_answered_once {s : BkLoop} {i : SlotIx} {uid now : Nat} {path : List UInt8}
    {rq : BkReq} {wire : List UInt8} (asked : bkCallWire path rq = .ok wire)
    (free : s.conns i = none) (adopted : ((bkLoopAdopt uid now s).conns i).isSome)
    (events : List ChannelEvent) :
    let run := (channel i).run (.connected wire (bkLoopAdopt uid now s)) events
    CallAnswered uid rq run.1.caller run.2 := by
  have decoded := decode_wire asked
  have fresh : (Channel.connected wire (bkLoopAdopt uid now s)).Sound i uid rq.asked wire [] :=
    ⟨toSend_sound rfl, .nothing rfl, fun _ => adopted_stands free adopted⟩
  have sound := @Reactor.run_history _ _ _ (channel i)
    (fun _ c served => c.Sound i uid rq.asked wire served) _ fresh
    (fun _ c served e sound => sound.step decoded (reqOf_bare rq) e) events
  generalize (channel i).run (.connected wire (bkLoopAdopt uid now s)) events = run at sound
  obtain ⟨c, served⟩ := run
  dsimp only at sound ⊢
  obtain ⟨caller, answered, -⟩ := sound
  generalize isWritten : c.down.written = written at answered
  have began : c.down.received <+: written := isWritten ▸ c.down.received_prefix
  cases answered with
  | nothing empty =>
      refine ⟨Nat.zero_le 1, (fun _ empty => nomatch empty), ?_⟩
      intro rs ended
      rw [ended] at caller
      have decoded := caller.2 rs rfl
      rw [empty, List.prefix_nil] at began
      rw [began] at decoded
      cases decoded
  | once e out replied =>
      refine ⟨Nat.le_refl 1, ?_, ?_⟩
      · intro e' member
        rw [List.mem_singleton.mp member]
        exact ⟨replied.uid, replied.asked⟩
      · intro rs ended
        rw [ended] at caller
        exact ⟨e, rfl, decode_reply replied.reply (began.trans replied.written)
          (caller.2 rs rfl)⟩

/-- A PING. -/
def samplePing : BkReq where
  op := 0x05
  session := .zero
  csrf := .zero
  clientIp := 0xC0A80A64
  body := [0x31]

/-- A broker without connections. -/
def sampleLoop : BkLoop where
  bk := .init
  conns _ := none
  log := []

theorem bkMaxconn_pos : 0 < bkMaxconn := by decide

/-- Its first slot. -/
def firstSlot : SlotIx := ⟨0, bkMaxconn_pos⟩

/-- A call that writes twenty bytes, waits for the rest of its turn and gives up. -/
theorem call_answered_once_sample :
    let wire := Proto.reqHeader samplePing.proto ++ [0x31]
    bkCallWire [0x2F] samplePing = .ok wire ∧
      CallAnswered 100 samplePing
        ((channel firstSlot).run (.connected wire (bkLoopAdopt 100 7 sampleLoop))
          [.write (.done 20), .write .again, .giveUp]).1.caller
        ((channel firstSlot).run (.connected wire (bkLoopAdopt 100 7 sampleLoop))
          [.write (.done 20), .write .again, .giveUp]).2 := by
  have asked : bkCallWire [0x2F] samplePing =
      .ok (Proto.reqHeader samplePing.proto ++ [0x31]) := rfl
  exact ⟨asked, call_answered_once asked rfl rfl _⟩

end RlxFw.Broker
