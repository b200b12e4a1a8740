import RlxFw.Account
import RlxFw.HttpDocuments

/-!
# Every connection's answer

What a connection is answered with is an answer that can be sent, and what the peer reads of it
is that answer's head and its body.
-/

namespace RlxFw.Httpd

open Broker (Req Resp opUpdateBeginId opUpdateDataId opUpdateEndId protoBe32)
open Emission (stop accounts_pure accounts_stop accounts_ask)
open Http (HttpParser HttpReq httpFeed)
open Json (Nested PlainKey Writer)
open MessageHead (Head)

/-! ## An upload -/

/-- A part of an upload that is answered with a document when it stops. -/
def Closes {World Value : Type} (Result : Value → Prop) (upload : Upload World Value) : Prop :=
  upload.Accounts (fun value _ => Result value)
    fun why _ => ∀ rs, why = .answered rs → rs.rsp.Good

section Upload

variable {World Value Value' : Type} {Result : Value → Prop} {Result' : Value' → Prop}
  {rs : Reply} {w : Writer} (out : Outside World)

theorem good_replyErr (retry : rs.rsp.retryAfter < 2 ^ 32) {status : Nat}
    (listed : Listed status) (code : List UInt8) : (rs.err status code).rsp.Good :=
  good_err retry listed code

theorem good_replyJson (filling : Filling w) (listed : Listed rs.rsp.status)
    (retry : rs.rsp.retryAfter < 2 ^ 32) : (rs.json w.objClose).rsp.Good := by
  unfold Reply.json
  by_cases failed : w.objClose.err = true
  · rw [if_pos failed]
    exact good_replyErr retry (by decide) _
  · rw [if_neg failed]
    obtain ⟨document, room⟩ := Writer.Filling.close filling (Bool.eq_false_iff.mpr failed)
    exact ⟨listed, retry, document, room⟩

theorem good_refused (retry : rs.rsp.retryAfter < 2 ^ 32) (br : Resp) :
    (upRefused rs br).rsp.Good := by
  have mapped := good_mapStatus retry br.status []
  have named : PlainKey (ascii "error") ∧ PlainKey (ascii "reason") := by decide
  unfold upRefused
  dsimp only
  cases upReason br with
  | none => exact mapped
  | some why =>
      exact good_replyJson (((Filling.start false).strn named.1 _).strn named.2 why)
        mapped.status mapped.retry

theorem good_verdict (retry : rs.rsp.retryAfter < 2 ^ 32) (br : Resp) :
    (upVerdict rs br).rsp.Good := by
  have named : PlainKey (ascii "slot") ∧ PlainKey (ascii "version") := by decide
  unfold upVerdict
  split
  · exact good_replyErr retry (by decide) _
  next slot version _ =>
    have ok : Listed 200 := by decide
    exact good_replyJson (((Filling.start true).strn named.1 _).num named.2
      (protoBe32_lt version 0)) ok retry

namespace Closes

theorem bind {first : Upload World Value} {next : Value → Upload World Value'}
    (begins : Closes Result first)
    (continues : ∀ value, Result value → Closes Result' (next value)) :
    Closes Result' (first >>= next) :=
  Emission.Accounts.bind begins (fun value _ holds => continues value holds) fun _ _ => id

theorem pure {value : Value} (holds : Result value) :
    Closes Result (Pure.pure value : Upload World Value) :=
  accounts_pure holds

theorem answered (good : rs.rsp.Good) :
    Closes Result (stop (.answered rs) : Upload World Value) := by
  refine accounts_stop ?_
  rintro other ⟨⟩
  exact good

theorem gone : Closes Result (stop .gone : Upload World Value) := accounts_stop nofun

theorem asked (transition : World → Value × World) (report : Value → UpEvent) :
    Closes (fun _ => True) (Emission.ask transition report : Upload World Value) :=
  accounts_ask fun _ => trivial

end Closes

theorem closes_upCall (retry : rs.rsp.retryAfter < 2 ^ 32) (q : Req) :
    Closes (fun _ => True) (upCall out rs q) := by
  refine (Closes.asked _ _).bind fun reply _ => ?_
  cases reply with
  | none => exact Closes.answered (good_replyErr retry (by decide) _)
  | some br =>
      apply Emission.Accounts.ite
      · exact fun _ => Closes.answered (good_refused retry br)
      · exact fun _ => Closes.pure trivial

theorem closes_fill (retry : rs.rsp.retryAfter < 2 ^ 32) (fd : Int) (want : Nat)
    (held pre : List UInt8) : Closes (fun _ => True) (fill out rs fd want held pre) := by
  induction held, pre using fill.induct want with
  | case1 held pre before short c rest isCons ih =>
      subst isCons
      rw [fill.eq_def, if_pos short]
      exact ih
  | case2 held pre before short isNil ih =>
      subst isNil
      rw [fill, if_pos short]
      refine (Closes.asked _ _).bind fun got _ => ?_
      rcases got with (_ | ⟨c, read⟩) | _ | _
      · exact Closes.answered (good_replyErr retry (by decide) _)
      · exact ih c read
      · exact Closes.answered (good_replyErr retry (by decide) _)
      · exact Closes.gone
  | case3 held pre full =>
      rw [fill.eq_def, if_neg full]
      exact Closes.pure trivial

theorem closes_sendPieces (retry : rs.rsp.retryAfter < 2 ^ 32) (fd : Int) (q : Req)
    (total off : Nat) (pre : List UInt8) :
    Closes (fun _ => True) (sendPieces out rs fd q total off pre) := by
  induction off, pre using sendPieces.induct total with
  | case2 off rest done =>
      rw [sendPieces, if_neg done]
      exact Closes.pure trivial
  | case1 off rest more ih =>
      rw [sendPieces, if_pos more]
      refine (closes_fill out retry fd _ _ _).bind fun filled _ => ?_
      refine (closes_upCall out retry _).bind fun br _ => ?_
      apply Emission.Accounts.ite
      · exact fun _ => ih filled
      · exact fun _ => Closes.answered (good_replyErr retry (by decide) _)

theorem closes_upForward (retry : rs.rsp.retryAfter < 2 ^ 32) (fd : Int) (q : Req) (total : Nat)
    (pre : List UInt8) :
    Closes (fun answer : Reply => answer.rsp.Good) (upForward out rs fd q total pre) := by
  refine (closes_upCall out retry _).bind fun _ _ => ?_
  refine (Closes.asked _ _).bind fun _ _ => ?_
  refine (closes_sendPieces out retry fd q total 0 _).bind fun _ _ => ?_
  have left : Closes (fun _ => True) (upLeft out) := by
    refine (Closes.asked _ _).bind fun left _ => ?_
    apply Emission.Accounts.ite
    · exact fun _ => (Closes.asked _ _).bind fun _ _ => Closes.pure trivial
    · exact fun _ => Closes.pure trivial
  refine left.bind fun secs _ => ?_
  apply Emission.Accounts.ite
  · exact fun _ => Closes.answered (good_replyErr retry (by decide) _)
  · intro _
    refine (Closes.asked _ _).bind fun _ _ => ?_
    exact (closes_upCall out retry _).bind fun br _ => Closes.pure (good_verdict retry br)

end Upload

/-! ## The gate -/

theorem Rsp.Good.nostore {rs : Rsp} (good : rs.Good) : Rsp.Good { rs with nostore := true } :=
  ⟨good.status, good.retry, good.document, good.room⟩

/-- What a gate answers: it is written unless the request passes. -/
structure Gated (rs : Reply) (passed : Bool) : Prop where
  retry : rs.rsp.retryAfter < 2 ^ 32
  good : passed = false → rs.rsp.Good

theorem gated_refusal {rs : Reply} (good : rs.rsp.Good) (passed : Bool) : Gated rs passed :=
  ⟨good.retry, fun _ => good⟩

theorem gated_err {rs : Reply} (retry : rs.rsp.retryAfter < 2 ^ 32) {status : Nat}
    (listed : Listed status) (code : List UInt8) (passed : Bool) :
    Gated (rs.err status code).nostore passed :=
  gated_refusal (good_replyErr retry listed code).nostore passed

theorem gated_pass {rs : Reply} (retry : rs.rsp.retryAfter < 2 ^ 32) : Gated rs true :=
  ⟨retry, nofun⟩

theorem gated_gate (rq : HttpReq) (blen : Nat) :
    Gated (routeGate rq .init blen).1 (routeGate rq .init blen).2.isSome := by
  have retry : Reply.init.rsp.retryAfter < 2 ^ 32 := by decide
  unfold routeGate
  rcases lookup rq false routes with ⟨found, _ | r⟩
  · have listed : Listed 405 ∧ Listed 404 := by decide
    cases found
    · exact gated_refusal (@good_replyErr .init retry 404 listed.2 _) false
    · exact gated_refusal (@good_replyErr { Reply.init with allowGetPost := true } retry 405
        listed.1 _) false
  · have kept : (if r.api then Reply.init.nostore else Reply.init).rsp.retryAfter < 2 ^ 32 := by
      split <;> exact retry
    dsimp only
    split
    · exact gated_err kept (by decide) _ _
    split
    · exact gated_err kept (by decide) _ _
    split
    · exact gated_err kept (by decide) _ _
    · exact gated_pass kept

theorem gated_streamGate (rq : HttpReq) :
    Gated (routeStreamGate rq).1 (routeStreamGate rq).2 := by
  have gate := gated_gate rq rq.clen
  unfold routeStreamGate
  generalize routeGate rq .init rq.clen = answer at gate ⊢
  rcases answer with ⟨rs, _ | r⟩
  · exact gate
  · dsimp only
    split
    · exact gated_err gate.retry (by decide) _ _
    · exact gated_pass gate.retry

theorem Written.nostore {rs : HttpRsp} {cookies : Cookies} (written : Written rs cookies) :
    Written { rs with reply := rs.reply.nostore } cookies where
  formed := written.formed
  kept := written.kept
  retry := written.retry
  content := by
    obtain ⟨file, ctype, good⟩ | ⟨size, small, isFile, listed, status⟩ := written.content
    · exact .inl ⟨file, ctype, good.nostore⟩
    · exact .inr ⟨size, small, isFile, listed, status⟩

theorem written_routeAnswer (env : Env) (rq : HttpReq) :
    ∃ cookies, Written (routeAnswer env rq) cookies := by
  have gate := gated_gate rq rq.bodyLen
  unfold routeAnswer
  generalize routeGate rq .init rq.bodyLen = answer at gate ⊢
  rcases answer with ⟨reply, _ | r⟩
  · exact ⟨_, blank_init.json (gate.good rfl)⟩
  · have blank : Blank (HttpRsp.init.json reply) := ⟨gate.retry, rfl, rfl, rfl⟩
    obtain ⟨cookies, written⟩ := blank.handler env r.fn rq
    dsimp only
    split
    · exact ⟨cookies, written.nostore⟩
    · exact ⟨cookies, written⟩

/-! ## A connection -/

theorem good_upload {World : Type} (out : Outside World) (clientIp : UInt32) (fd : Int)
    (rq : HttpReq) (pre : List UInt8) (world : World) {rs : Reply}
    (answered : (uploadRun out clientIp fd rq pre world).1 = some rs) : rs.rsp.Good := by
  have gate := gated_streamGate rq
  have closes : Closes (fun rs : Reply => rs.rsp.Good) (upStream out clientIp fd rq pre) := by
    unfold upStream
    generalize routeStreamGate rq = answer at gate ⊢
    rcases answer with ⟨first, _ | _⟩
    · exact Closes.answered (gate.good rfl)
    · dsimp only
      split
      next bad =>
        unfold routeBkReq at bad
        split at bad
        · cases bad
          exact Closes.answered (good_replyErr gate.retry (by decide) _)
        split at bad <;> cases bad
        exact Closes.answered (good_replyErr gate.retry (by decide) _)
      next => exact closes_upForward out gate.retry fd _ _ pre
  unfold uploadRun at answered
  dsimp only at answered
  split at answered
  next last ended =>
    cases answered
    exact (closes.returned world last ended).nostore
  next last ended =>
    cases answered
    exact (closes.stopped world _ ended last rfl).nostore
  next => cases answered

/-- A connection refused while its request is read is answered with a document. -/
theorem written_hear {ps : HttpParser} (answerable : Answerable ps) (reads : List Got)
    {rs : HttpRsp} (refused : hear ps reads = .refused rs) : Written rs .absent := by
  induction reads generalizing ps with
  | nil => cases refused
  | cons got reads ih =>
      rcases got with (_ | ⟨c, read⟩) | _ | _
      · rw [hear] at refused
        split at refused <;> cases refused
        exact blank_init.err (by decide) _
      · obtain ⟨after, answers⟩ := answerable.feed (c :: read)
        rw [hear] at refused
        rcases fed : httpFeed ps (c :: read) with ⟨ps', rc, used⟩
        rw [fed] at refused after answers
        dsimp only at refused after answers
        subst answers
        split at refused
        next below =>
          cases refused
          have written := blank_init.err (after.listed below) (ascii "request")
          unfold parserRefusal
          dsimp only
          split
          · exact ⟨written.formed, written.kept, written.retry, written.content⟩
          · exact written
        split at refused
        · cases refused
        split at refused
        · cases refused
        · exact ih after refused
      · cases refused
        exact blank_init.err (by decide) _
      · cases refused

theorem written_srvConn {World : Type} (out : Outside World) (env : Env) (fd : Int)
    (reads : List Got) (world : World) {rs : HttpRsp}
    (answered : srvConn out env fd reads world = some rs) :
    ∃ cookies, Written rs cookies := by
  unfold srvConn at answered
  cases heard : hear Http.httpParseInit reads with
  | waiting => simp [heard] at answered
  | gone => simp [heard] at answered
  | refused rs' =>
      rw [heard] at answered
      cases answered
      exact ⟨_, written_hear answerable_init reads heard⟩
  | whole rq =>
      rw [heard] at answered
      cases answered
      exact written_routeAnswer env rq
  | stream rq pre =>
      rw [heard] at answered
      obtain ⟨reply, ran, rfl⟩ := Option.map_eq_some_iff.mp answered
      exact ⟨_, blank_init.json (good_upload out _ fd rq pre world ran)⟩

/-! ## What the peer reads -/

/-- The body that is sent: of a file, what its reads give. -/
def HttpRsp.content (rs : HttpRsp) (reads : List (List UInt8)) : List UInt8 :=
  match rs.file with
  | some size => fileBytes size reads
  | none => rs.reply.rsp.body

theorem length_fileBytes_le (left : Nat) (reads : List (List UInt8)) :
    (fileBytes left reads).length ≤ left := by
  induction reads generalizing left with
  | nil => exact Nat.zero_le _
  | cons read reads ih =>
      rw [fileBytes]
      split
      · exact Nat.zero_le _
      dsimp only
      split
      · exact Nat.zero_le _
      · have later := ih (left - (read.take (min left 2048)).length)
        have short := List.length_take_le (min left 2048) read
        rw [List.length_append]
        omega

/-- A file whose reads give no more than they are asked for is sent up to its size. -/
theorem fileBytes_eq {reads : List (List UInt8)}
    (each : ∀ read ∈ reads, read ≠ [] ∧ read.length ≤ 2048) (left : Nat) :
    fileBytes left reads = reads.flatten.take left := by
  induction reads generalizing left with
  | nil => simp [fileBytes]
  | cons read reads ih =>
      obtain ⟨⟨some_, short⟩, later⟩ := List.forall_mem_cons.mp each
      rw [fileBytes]
      split
      next done => simp [done]
      next more =>
        have got : read.take (min left 2048) = read.take left := by
          rw [Nat.min_comm, ← List.take_take, List.take_take, Nat.min_comm, ← List.take_take,
            List.take_of_length_le short]
        have nonempty : read.take left ≠ [] := by
          intro nothing
          rcases List.take_eq_nil_iff.mp nothing with zero | empty
          · exact more zero
          · exact some_ empty
        dsimp only
        rw [got, if_neg nonempty, ih later, List.flatten_cons, List.take_append]
        congr 2
        rw [List.length_take]
        omega

theorem Written.sendable {rs : HttpRsp} {cookies : Cookies} (written : Written rs cookies) :
    Sendable rs cookies := by
  have ok : Listed 200 := by decide
  obtain ⟨file, ctype, good⟩ | ⟨size, small, file, ctype, status⟩ := written.content
  · have clen : rs.clen = rs.reply.rsp.body.length := by rw [HttpRsp.clen, file, Option.getD_none]
    have room := good.room
    unfold rspBodyMax at room
    exact
      { status := good.status, retry := written.retry, formed := written.formed
        kept := written.kept, ctype := ctype ▸ List.mem_cons_self
        clen := by rw [clen]; omega }
  · have clen : rs.clen = size := by rw [HttpRsp.clen, file, Option.getD_some]
    exact
      { status := status ▸ ok, retry := written.retry, formed := written.formed
        kept := written.kept, ctype := List.mem_cons_of_mem _ ctype
        clen := by rw [clen]; omega }

/-- What a peer makes of an answer that it got whole. -/
structure Delivers (rs : HttpRsp) (cookies : Cookies) (reads : List (List UInt8)) : Prop where
  /-- The bytes that are sent are read back as the head and the body. -/
  head : MessageHead.read ((headOf rs cookies).text ++ rs.content reads) =
    some (headOf rs cookies, rs.content reads)
  reason : (rs.reply.rsp.status, httpReason rs.reply.rsp.status) ∈ reasons
  formed : cookies.Formed
  /-- A document as long as it is announced, or a file of a type that is served. -/
  body : rs.file = none ∧ rs.ctype = jsonType ∧ Nested (rs.content reads) ∧
      rs.clen = (rs.content reads).length ∨
    ∃ size ≤ 262144, rs.file = some size ∧ rs.clen = size ∧ rs.reply.rsp.status = 200 ∧
      rs.ctype ∈ mimeTab.map Prod.snd ∧ (rs.content reads).length ≤ size ∧
      ((∀ read ∈ reads, read ≠ [] ∧ read.length ≤ 2048) →
        rs.content reads = reads.flatten.take size)

theorem reason_listed {status : Nat} (listed : Listed status) :
    (status, httpReason status) ∈ reasons := by
  have all : ∀ status ∈ reasons.map Prod.fst, (status, httpReason status) ∈ reasons := by decide
  exact all status listed

/-- Whatever a connection brings, the broker replies and the files hold, an answer that is sent
is one head with its body behind it: the peer reads back both, the reason belongs to the status,
the length is the body's, and the body is an object of the grammar or the file. -/
theorem connection_answered {World : Type} (out : Outside World) (env : Env) (fd : Int)
    (reads : List Got) (world : World) {rs : HttpRsp}
    (answered : srvConn out env fd reads world = some rs) (file : List (List UInt8)) (room : Nat) :
    ∃ cookies, sendRsp rs file room =
        ((headOf rs cookies).text ++ rs.content file).take room ∧
      Delivers rs cookies file := by
  obtain ⟨cookies, written⟩ := written_srvConn out env fd reads world answered
  have sendable := written.sendable
  refine ⟨cookies, ?_, ?_⟩
  · rw [sendRsp, offered, routeHeaders_eq sendable]
    rfl
  · refine ⟨MessageHead.read_text (headOf_formed sendable) _, reason_listed sendable.status,
      written.formed, ?_⟩
    obtain ⟨isDocument, ctype, good⟩ | ⟨size, small, isFile, ctype, status⟩ := written.content
    · left
      have content : rs.content file = rs.reply.rsp.body := by rw [HttpRsp.content, isDocument]
      have clen : rs.clen = rs.reply.rsp.body.length := by
        rw [HttpRsp.clen, isDocument, Option.getD_none]
      exact ⟨isDocument, ctype, content ▸ good.document, by rw [clen, content]⟩
    · right
      have content : rs.content file = fileBytes size file := by rw [HttpRsp.content, isFile]
      rw [content]
      exact ⟨size, small, isFile, by rw [HttpRsp.clen, isFile, Option.getD_some], status, ctype,
        length_fileBytes_le size file, fun each => fileBytes_eq each size⟩

/-- A server with an index and nothing else. -/
def indexOnly : Env where
  clientIp := 0
  call _ := none
  grant := .ok ()
  stat name :=
    if name = ascii "index.html" then some { regular := true, executable := false, size := 5 }
    else none

/-- An upload that would get nothing. -/
def silent : Outside Unit where
  read _ world := (.gone, world)
  read_le _ _ _ := nofun
  call _ world := (none, world)
  alarm _ world := (0, world)
  setTimeouts _ _ world := world

/-- A request of the index, in two reads. -/
def indexAsked : List Got :=
  [.bytes (ascii "GET / HT"), .bytes (ascii "TP/1.1" ++ [0x0D, 0x0A, 0x0D, 0x0A])]

/-- The index as it is answered. -/
def indexServed : HttpRsp where
  reply :=
    { rsp := { status := 200, retryAfter := 0, nostore := false, body := [] }
      allowGetPost := false }
  ctype := ascii "text/html; charset=utf-8"
  cookies := []
  file := some 5

theorem connection_answered_index :
    srvConn silent indexOnly 0 indexAsked () = some indexServed ∧
      indexServed.content [ascii "he", ascii "llo"] = ascii "hello" ∧
      ∃ cookies, Delivers indexServed cookies [ascii "he", ascii "llo"] := by
  have answered : srvConn silent indexOnly 0 indexAsked () = some indexServed := by decide
  obtain ⟨cookies, -, delivers⟩ :=
    connection_answered silent indexOnly 0 indexAsked () answered [ascii "he", ascii "llo"] 0
  exact ⟨answered, by decide, cookies, delivers⟩

end RlxFw.Httpd
