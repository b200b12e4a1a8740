import RlxFw.ConfigValues
import RlxFw.HttpHandlers
import RlxFw.HttpRefusals
import RlxFw.JsonObjects

/-!
# What every answer is

An answer that is not a file is a document of the grammar with a listed status, whatever the
broker replied and whatever the request was.
-/

namespace RlxFw.Httpd

open Broker (Req Resp Status protoBe16 protoBe32)
open CfgStore (Key cfgKeyById)
open Http (HttpReq)
open Json

/-- The value of a member of an answer. -/
def Inner (val : List UInt8) : Prop := Scalar val ∨ ObjectOf Scalar val

/-- A writer inside the object of an answer. -/
abbrev Filling (w : Writer) : Prop := w.Filling Inner rspBodyMax

/-- An answer that is a document. -/
structure Rsp.Good (rs : Rsp) : Prop where
  status : Listed rs.status
  retry : rs.retryAfter < 2 ^ 32
  document : Nested rs.body
  room : rs.body.length < rspBodyMax

section Documents

variable {rs : Rsp} {w : Writer} {key : List UInt8}

theorem Filling.start (b : Bool) :
    Filling ((Writer.init rspBodyMax).objOpen.bool (ascii "ok") b) :=
  (Writer.Filling.opened Inner rspBodyMax).bool (fun _ => Or.inl) (by decide) b

theorem Filling.strn (filling : Filling w) (plain : PlainKey key) (s : List UInt8) :
    Filling (w.strn key s) :=
  Writer.Filling.strn filling (fun _ => Or.inl) plain s

theorem Filling.num (filling : Filling w) (plain : PlainKey key) {n : Nat}
    (small : n < 2 ^ 32) : Filling (w.num key n) :=
  Writer.Filling.num filling (fun _ => Or.inl) plain small

theorem Filling.refusal (code : List UInt8) : Filling (refusal code) :=
  (Filling.start false).strn (by decide) (cString code)

theorem nested_tooLong : Nested tooLong := by
  have plain : PlainKey (ascii "error") ∧ PlainKey (ascii "toolong") := by decide
  have key := stringText_raw plain.1.raw
  have text := stringText_raw plain.2.raw
  exact Or.inr ⟨ascii "\"error\":\"toolong\"", .one ⟨_, _, _, key, .inl (.str text), rfl⟩, rfl⟩

theorem good_json (filling : Filling w) (listed : Listed rs.status)
    (retry : rs.retryAfter < 2 ^ 32) : (bodyJson rs w.objClose).Good := by
  have fallback : Listed 500 ∧ tooLong.length < rspBodyMax := by decide
  unfold bodyJson
  by_cases failed : w.objClose.err = true
  · rw [if_pos failed]
    exact ⟨fallback.1, retry, nested_tooLong, fallback.2⟩
  · rw [if_neg failed]
    obtain ⟨document, room⟩ := Writer.Filling.close filling (Bool.eq_false_iff.mpr failed)
    exact ⟨listed, retry, document, room⟩

/-- The same behind another status. -/
theorem good_status (filling : Filling w) {status : Nat} (listed : Listed status) {retry : Nat}
    (small : retry < 2 ^ 32) (nostore : Bool) (body : List UInt8) :
    (bodyJson { status := status, retryAfter := retry, nostore := nostore, body := body }
      w.objClose).Good :=
  good_json filling listed small

theorem good_err (retry : rs.retryAfter < 2 ^ 32) {status : Nat} (listed : Listed status)
    (code : List UInt8) : (routeErr rs status code).Good :=
  good_status (Filling.refusal code) listed retry _ _

theorem good_okEmpty (retry : rs.retryAfter < 2 ^ 32) : (okEmpty rs).Good :=
  good_status (Filling.start true) (by decide) retry _ _

/-- Every status of the broker is an answer. -/
theorem good_mapStatus (retry : rs.retryAfter < 2 ^ 32) (status : Status) (body : List UInt8) :
    (routeMapStatus rs status body).Good := by
  cases status with
  | locked =>
      have small : min (if body.length ≥ 4 then protoBe32 body 0 else 60) 3600 < 2 ^ 32 :=
        lt_of_le_of_lt (Nat.min_le_right _ _) (by decide)
      exact good_status ((Filling.refusal _).num (by decide) small) (by decide) small _ _
  | inval =>
      have small : (if body.length ≥ 2 then protoBe16 body 0 else 0) < 2 ^ 32 := by
        have word := protoBe16_lt body 0
        split <;> omega
      exact good_status ((Filling.refusal _).num (by decide) small) (by decide) retry _ _
  | _ => exact good_err retry (by decide) _

theorem good_callBroker (retry : rs.retryAfter < 2 ^ 32) {reply : Option Resp} {answer : Rsp}
    (refused : callBroker rs reply = .error answer) : answer.Good := by
  unfold callBroker at refused
  cases reply with
  | none =>
      cases refused
      exact good_err retry (by decide) _
  | some br =>
      dsimp only at refused
      split at refused <;> cases refused
      exact good_mapStatus retry br.status br.body

/-! ### The configuration -/

theorem filling_writeShown {cap : Nat} (filling : w.Filling Scalar cap) {k : Key}
    (webKey : WebKey k) (v : List UInt8) : (writeShown w k v).Filling Scalar cap := by
  have number (n : Nat) (small : n < 2 ^ 32) := filling.num (fun _ => id) webKey.name small
  have byte := (byteAt v 0).toNat_lt
  unfold writeShown
  split
  · split
    · exact filling.bool (fun _ => id) webKey.name _
    · exact filling
  · split
    · exact number _ (by omega)
    · exact filling
  · split
    · exact number _ (by have := protoBe16_lt v 0; omega)
    · exact filling
  · split
    · exact number _ (protoBe32_lt v 0)
    · exact filling
  · split
    · exact filling.strn (fun _ => id) webKey.name _
    · exact filling
  · split
    · exact filling.strn (fun _ => id) webKey.name _
    · exact filling
  · exact filling

theorem filling_configLoop {cap : Nat} (turns : Nat) (body : List UInt8)
    (filling : w.Filling Scalar cap) : (configLoop turns body w).Filling Scalar cap := by
  induction turns generalizing body w with
  | zero => exact filling
  | succ turns ih =>
      rw [configLoop]
      split
      · exact filling
      dsimp only
      split
      · exact filling
      cases found : cfgKeyById (protoBe16 body 0) with
      | none => exact ih _ filling
      | some k =>
          dsimp only
          split
          next => exact ih _ filling
          next shown =>
            obtain ⟨i, -, rfl⟩ := Option.map_eq_some_iff.mp found
            exact ih _ (filling_writeShown filling (webKey_of_shown shown) _)

theorem good_configGet (retry : rs.retryAfter < 2 ^ 32)
    (get : List UInt8 → Option Resp) : (hConfigGet rs get).Good := by
  unfold hConfigGet
  split
  next refused => exact good_callBroker retry refused
  next body _ =>
    dsimp only
    by_cases failed : (configObject body).err = true
    · rw [if_pos failed]
      exact good_err retry (by decide) _
    · rw [if_neg failed]
      have inner := (filling_configLoop body.length body
        (Writer.Filling.opened Scalar 2048)).close (Bool.eq_false_iff.mpr failed)
      exact good_status (Writer.Filling.raw (Filling.start true) (by decide) (.inr inner.1))
        (by decide) retry _ _

theorem good_marker (retry : rs.retryAfter < 2 ^ 32) (marker : Marker) :
    (marker.answer rs).Good := by
  cases marker <;> exact good_err retry (by decide) _

/-- A refusal that is a document. -/
def Refusal {α : Type} (answer : Except Rsp α) : Prop :=
  ∀ rsp, answer = .error rsp → rsp.Good

theorem refusal_ok {α : Type} (value : α) : Refusal (.ok value) := nofun

theorem refusal_err {α : Type} (retry : rs.retryAfter < 2 ^ 32) {status : Nat}
    (listed : Listed status) (code : List UInt8) :
    Refusal (.error (routeErr rs status code) : Except Rsp α) := by
  rintro rsp ⟨⟩
  exact good_err retry listed code

theorem refusal_setLoop (retry : rs.retryAfter < 2 ^ 32) (o : List Member) (ids : List Nat)
    (tlv : List UInt8) : Refusal (setLoop rs o ids tlv) := by
  induction ids generalizing tlv with
  | nil => exact refusal_ok tlv
  | cons id ids ih =>
      rw [setLoop]
      split
      · exact refusal_err retry (by decide) _
      split
      · exact refusal_err retry (by decide) _
      split
      · exact refusal_err retry (by decide) _
      split
      next marker _ =>
        rintro rsp ⟨⟩
        exact good_marker retry marker
      next => exact ih _

theorem refusal_resolve (retry : rs.retryAfter < 2 ^ 32) (m : Member) :
    Refusal (resolve rs m) := by
  unfold resolve
  split
  · exact refusal_err retry (by decide) _
  split
  · exact refusal_err retry (by decide) _
  · exact refusal_ok _

theorem refusal_mapM {α β : Type} {f : α → Except Rsp β} (each : ∀ a, Refusal (f a))
    (as : List α) : Refusal (as.mapM f) := by
  induction as with
  | nil => exact refusal_ok _
  | cons a as ih =>
      rw [List.mapM_cons]
      intro rsp refused
      cases first : f a with
      | error e =>
          rw [first] at refused
          cases refused
          exact each a rsp first
      | ok b =>
          cases later : as.mapM f with
          | error e =>
              rw [first, later] at refused
              cases refused
              exact ih rsp later
          | ok bs =>
              rw [first, later] at refused
              cases refused

theorem refusal_configSet (retry : rs.retryAfter < 2 ^ 32) (body : List UInt8) :
    Refusal (configSetBody rs body) := by
  unfold configSetBody
  split
  · exact refusal_err retry (by decide) _
  split
  · exact refusal_err retry (by decide) _
  split
  next refused =>
    rintro rsp ⟨⟩
    exact refusal_mapM (refusal_resolve retry) _ _ refused
  next => exact refusal_setLoop retry _ _ _

theorem refusal_password (retry : rs.retryAfter < 2 ^ 32) {grant : Except Nat Unit}
    (small : ∀ secs, grant = .error secs → secs < 2 ^ 32) (body : List UInt8) :
    Refusal (passwordBody rs grant body) := by
  have bodies : Refusal (passwords rs body) := by
    unfold passwords
    split
    · exact refusal_err retry (by decide) _
    split
    · split
      · exact refusal_err retry (by decide) _
      · exact refusal_ok _
    · exact refusal_err retry (by decide) _
  unfold passwordBody
  cases given : passwords rs body with
  | error e =>
      rintro rsp ⟨⟩
      exact bodies _ given
  | ok both =>
      cases grant with
      | error secs =>
          have waits : (if secs = 0 then 1 else secs) < 2 ^ 32 := by
            have := small secs rfl
            split <;> omega
          rintro rsp ⟨⟩
          exact good_status (Filling.refusal _) (by decide) waits _ _
      | ok => exact refusal_ok _

end Documents

/-! ## The handlers -/

/-- An answer that is still to be written. -/
structure Blank (rs : HttpRsp) : Prop where
  retry : rs.reply.rsp.retryAfter < 2 ^ 32
  ctype : rs.ctype = jsonType
  cookies : rs.cookies = []
  file : rs.file = none

/-- A document, or a file that is open. -/
structure Written (rs : HttpRsp) (cookies : Cookies) : Prop where
  formed : cookies.Formed
  kept : rs.cookies = cookies.text
  retry : rs.reply.rsp.retryAfter < 2 ^ 32
  content : rs.file = none ∧ rs.ctype = jsonType ∧ rs.reply.rsp.Good ∨
    ∃ size ≤ 262144, rs.file = some size ∧ rs.ctype ∈ mimeTab.map Prod.snd ∧
      rs.reply.rsp.status = 200

section Handlers

variable {rs : HttpRsp} {cookies : Cookies} {env : Env} {rq : HttpReq}

theorem blank_init : Blank .init := ⟨by decide, rfl, rfl, rfl⟩

/-- An answer in JSON. -/
theorem written_json (formed : cookies.Formed) (kept : rs.cookies = cookies.text) {reply : Reply}
    (good : reply.rsp.Good) : Written (rs.json reply) cookies where
  formed := formed
  kept := kept
  retry := good.retry
  content := .inl ⟨rfl, rfl, good⟩

theorem Blank.json (blank : Blank rs) {reply : Reply} (good : reply.rsp.Good) :
    Written (rs.json reply) .absent :=
  have formed : Cookies.absent.Formed := trivial
  written_json formed blank.cookies good

theorem Blank.err (blank : Blank rs) {status : Nat} (listed : Listed status)
    (code : List UInt8) : Written (rs.err status code) .absent :=
  blank.json (good_err blank.retry listed code)

theorem Blank.done (blank : Blank rs) : Written rs.done .absent :=
  blank.json (good_okEmpty blank.retry)

theorem Blank.document {w : Writer} (blank : Blank rs) (formed : cookies.Formed)
    (filling : Filling w) :
    Written ({ rs with cookies := cookies.text }.document w.objClose) cookies where
  formed := formed
  kept := rfl
  retry := (good_status filling (by decide) blank.retry true _).retry
  content := .inl ⟨blank.file, blank.ctype, good_status filling (by decide) blank.retry true _⟩

theorem Blank.plain {w : Writer} (blank : Blank rs) (filling : Filling w) :
    Written (rs.document w.objClose) .absent := by
  have formed : Cookies.absent.Formed := trivial
  have written := blank.document formed filling
  have same : rs.cookies = Cookies.absent.text := blank.cookies
  rwa [← same] at written

/-- A request whose tokens cannot be read is answered. -/
theorem Blank.untold (blank : Blank rs) {reply : Reply}
    (bad : routeBkReq env.clientIp rq rs.reply = .error reply) :
    Written (rs.json reply) .absent := by
  unfold routeBkReq at bad
  split at bad
  · cases bad
    exact blank.err (by decide) _
  split at bad <;> cases bad
  exact blank.err (by decide) _

/-- A call that is refused is answered. -/
theorem Blank.refused (blank : Blank rs) {op : Nat} {body : List UInt8} {answer : HttpRsp}
    (refused : brokerCall env rs op rq body = .error answer) : Written answer .absent := by
  unfold brokerCall at refused
  split at refused
  next reply bad =>
    cases refused
    exact blank.untold bad
  next =>
    split at refused
    next rsp down =>
      cases refused
      exact blank.json (good_callBroker blank.retry down)
    next => cases refused

theorem written_sendFile (blank : Blank rs) (stat : Option FileStat) {ctype : List UInt8}
    (listed : ctype ∈ mimeTab.map Prod.snd) : Written (sendFile rs stat ctype) .absent := by
  have missing := @Blank.err rs blank 404 (by decide) (ascii "nofile")
  unfold sendFile
  split
  · exact missing
  split
  · exact missing
  split
  · exact missing
  split
  · exact missing
  next inside =>
    refine ⟨trivial, blank.cookies, blank.retry, .inr ⟨_, ?_, rfl, listed, rfl⟩⟩
    omega

theorem written_static (blank : Blank rs) (env : Env) (rq : HttpReq) :
    Written (routeStatic env rq rs) .absent := by
  have missing := @Blank.err rs blank 404 (by decide) (ascii "nofile")
  unfold routeStatic
  dsimp only
  split
  · exact missing
  split
  · exact missing
  cases mime : httpMime (rq.path.drop 8) with
  | none => exact missing
  | some type =>
      obtain ⟨row, found, rfl⟩ := Option.map_eq_some_iff.mp mime
      exact written_sendFile blank _ (List.mem_map_of_mem (List.mem_of_find?_eq_some found))

theorem filling_writeStatus {w : Writer} (filling : Filling w) (type : Nat) (v : List UInt8) :
    Filling (writeStatus w type v) := by
  have word := protoBe32_lt v 0
  have byte := (byteAt v 0).toNat_lt
  unfold writeStatus
  split <;> try exact filling
  all_goals split <;> try exact filling
  · exact filling.num (by decide) word
  · exact filling.num (by decide) word
  · exact filling.num (by decide) word
  · exact filling.num (by decide) (by omega)
  · exact filling.num (by decide) word
  · exact filling.strn (by decide) v
  · exact filling.num (by decide) word
  · exact Writer.Filling.bool filling (fun _ => Or.inl) (by decide) _
  · exact filling.strn (by decide) v

theorem filling_statusLoop (turns : Nat) (body : List UInt8) {w : Writer}
    (filling : Filling w) : Filling (statusLoop turns body w) := by
  induction turns generalizing body w with
  | zero => exact filling
  | succ turns ih =>
      rw [statusLoop]
      split
      · exact filling
      dsimp only
      split
      · exact filling
      · exact ih _ (filling_writeStatus filling _ _)

/-- Both digits of a byte are read back. -/
theorem hexdig_digits (c : UInt8) :
    Http.hexdig (byteAt (ascii "0123456789abcdef") (c >>> 4).toNat) = some (c >>> 4) ∧
      Http.hexdig (byteAt (ascii "0123456789abcdef") (c &&& 0x0F).toNat) = some (c &&& 0x0F) ∧
      (c >>> 4) <<< 4 ||| (c &&& 0x0F) = c := by
  revert c
  apply forall_byte
  decide

theorem token_hex16 (bytes : List UInt8) : Http.Token (hex16 bytes) := by
  constructor
  · simp [hex16, List.length_flatMap]
  · intro c listed
    obtain ⟨i, -, digit⟩ := List.mem_flatMap.mp listed
    obtain ⟨high, low, -⟩ := hexdig_digits (byteAt bytes i)
    rcases List.mem_cons.mp digit with rfl | last
    · rw [high]
      rfl
    · rw [List.mem_singleton.mp last, low]
      rfl

theorem Blank.login (blank : Blank rs) (env : Env) (rq : HttpReq) :
    ∃ cookies, Written (hLogin env rq rs) cookies := by
  have field := @Blank.err rs blank 400 (by decide) (ascii "field")
  unfold hLogin
  split
  next e _ => exact ⟨_, blank.err (by decide) _⟩
  split
  · exact ⟨_, field⟩
  · exact ⟨_, field⟩
  split
  next retry _ =>
    have secs : (if retry.toNat = 0 then 1 else retry.toNat) < 2 ^ 32 := by
      have := retry.toNat_lt
      split <;> omega
    have named : PlainKey (ascii "retry_s") ∧ Listed 429 := by decide
    have good := good_status ((Filling.refusal (ascii "ratelimit")).num named.1 secs) named.2 secs
      true rs.reply.rsp.body
    exact ⟨.absent, trivial, blank.cookies, good.retry, .inl ⟨blank.file, blank.ctype, good⟩⟩
  split
  next refused => exact ⟨_, blank.refused refused⟩
  next body _ =>
    unfold loggedIn
    split
    · exact ⟨_, blank.err (by decide) _⟩
    · have formed : (Cookies.given (hex16 body) (hex16 (body.drop 16))).Formed :=
        ⟨token_hex16 body, token_hex16 _⟩
      have named : PlainKey (ascii "csrf") ∧ PlainKey (ascii "ttl_s") := by decide
      have filling := (Filling.start true).strn named.1 (cString (hex16 (body.drop 16)))
      exact ⟨_, blank.document formed (filling.num named.2 (protoBe32_lt body 32))⟩

theorem Blank.logout (blank : Blank rs) (env : Env) (rq : HttpReq) :
    ∃ cookies, Written (hLogout env rq rs) cookies := by
  unfold hLogout
  split
  next refused => exact ⟨_, blank.refused refused⟩
  next =>
    have formed : Cookies.expired.Formed := trivial
    exact ⟨_, written_json formed rfl (good_okEmpty blank.retry)⟩

theorem Blank.ping (blank : Blank rs) (env : Env) (rq : HttpReq) :
    Written (hPing env rq rs) .absent := by
  unfold hPing
  split
  next refused =>
    unfold pingBody at refused
    split at refused
    · cases refused
      exact blank.err (by decide) _
    split at refused
    · split at refused
      · cases refused
        exact blank.err (by decide) _
      split at refused <;> cases refused
      exact blank.err (by decide) _
    · cases refused
      exact blank.err (by decide) _
  split
  next refused => exact blank.refused refused
  next out _ =>
    have named : PlainKey (ascii "output") := by decide
    exact blank.plain ((Filling.start true).strn named (pingSanitise out 2047))

theorem Blank.checked (blank : Blank rs) (env : Env) (rq : HttpReq) (op : Nat)
    {request : Except Rsp (List UInt8)} (refusal : Refusal request) :
    Written (checkedCall env rq rs op request) .absent := by
  unfold checkedCall
  split
  next rsp => exact blank.json (refusal rsp rfl)
  split
  next refused => exact blank.refused refused
  next => exact blank.done

/-- Every handler answers. -/
theorem Blank.handler (blank : Blank rs) (env : Env) (fn : Handler) (rq : HttpReq) :
    ∃ cookies, Written (handler env fn rq rs) cookies := by
  cases fn with
  | index => exact ⟨_, written_sendFile blank _ (by decide)⟩
  | static => exact ⟨_, written_static blank env rq⟩
  | status =>
      refine ⟨.absent, ?_⟩
      unfold Httpd.handler hStatus
      dsimp only
      split
      next refused => exact blank.refused refused
      next body _ =>
        exact blank.plain (filling_statusLoop body.length body (Filling.start true))
  | login => exact blank.login env rq
  | logout => exact blank.logout env rq
  | configGet =>
      refine ⟨.absent, ?_⟩
      unfold Httpd.handler hConfig
      dsimp only
      split
      next refused => exact blank.untold refused
      next =>
        refine blank.json ?_
        dsimp only
        exact good_configGet blank.retry _
  | configSet =>
      exact ⟨_, blank.checked env rq _ (refusal_configSet blank.retry rq.body)⟩
  | password =>
      refine ⟨_, blank.checked env rq _ (refusal_password blank.retry ?_ rq.body)⟩
      cases env.grant with
      | error secs =>
          rintro told ⟨⟩
          exact secs.toNat_lt
      | ok => nofun
  | ping => exact ⟨_, blank.ping env rq⟩
  | reboot =>
      refine ⟨.absent, ?_⟩
      unfold Httpd.handler hReboot
      dsimp only
      split
      next refused => exact blank.refused refused
      next => exact blank.done
  | firmware =>
      have retry : rs.reply.nostore.rsp.retryAfter < 2 ^ 32 := blank.retry
      have good := @good_err _ retry 500 (by decide) (ascii "stream")
      exact ⟨.absent, blank.json good⟩

end Handlers

end RlxFw.Httpd
