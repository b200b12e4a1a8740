import RlxFw.HttpResponse
import RlxFw.Upload

/-!
# The handlers, and a connection

The handlers of `src/httpd/routes.c` behind their gate, and `srv_conn` of `src/httpd/serve.c`
over what the reads of a connection give.
-/

namespace RlxFw.Httpd

open Broker (Req Resp Token protoBe16 protoBe32 opGetId opSetId opRebootId opStatusId opPingId
  opLoginId opLogoutId opPwsetId updateLastMax)
open Http (HttpReq HttpParser httpFeed httpNameMax)
open Json (Member Value Writer jsonParse jsonGet)

/-! ## The world of a handler -/

/-- What `fstat` tells of a file that was opened. -/
structure FileStat where
  regular : Bool
  executable : Bool
  size : Int
deriving DecidableEq, Repr

/-- `struct route_env`, with what `bk_call` answers and what `open` and `fstat` find. -/
structure Env where
  clientIp : UInt32
  call : Req → Option Resp
  /-- `kdf_grant`: a grant, or the seconds until there is one. -/
  grant : Except UInt32 Unit
  stat : List UInt8 → Option FileStat

/-- `call_broker`: the body of a reply that is OK, or the answer. -/
def brokerCall (env : Env) (rs : HttpRsp) (op : Nat) (rq : HttpReq) (body : List UInt8) :
    Except HttpRsp (List UInt8) :=
  match routeBkReq env.clientIp rq rs.reply with
  | .error reply => .error (rs.json reply)
  | .ok q =>
      match callBroker rs.reply.rsp (env.call { q with op := op, body := body }) with
      | .error rsp => .error (rs.json { rs.reply with rsp := rsp })
      | .ok body => .ok body

/-- `ok_empty`, not to be stored. -/
def HttpRsp.done (rs : HttpRsp) : HttpRsp :=
  rs.json { rs.reply with rsp := okEmpty { rs.reply.rsp with nostore := true } }

/-- An answer of 200 that is not to be stored, its document written. -/
def HttpRsp.document (rs : HttpRsp) (w : Writer) : HttpRsp :=
  let rsp := bodyJson { rs.reply.rsp with status := 200, nostore := true } w
  { rs with reply := { rs.reply with rsp := rsp } }

/-! ## Files -/

/-- `send_file`. -/
def sendFile (rs : HttpRsp) (stat : Option FileStat) (ctype : List UInt8) : HttpRsp :=
  match stat with
  | none => rs.err 404 (ascii "nofile")
  | some st =>
      if ¬ st.regular then rs.err 404 (ascii "nofile")
      else if st.executable then rs.err 404 (ascii "nofile")
      else if st.size < 0 ∨ st.size > 262144 then rs.err 404 (ascii "nofile")
      else
        { rs with
          reply := { rs.reply with rsp := { rs.reply.rsp with status := 200, body := [] } }
          ctype := ctype, file := some st.size.toNat }

/-- `route_static`. -/
def routeStatic (env : Env) (rq : HttpReq) (rs : HttpRsp) : HttpRsp :=
  let name := rq.path.drop 8
  if name.length = 0 ∨ name.length > httpNameMax then rs.err 404 (ascii "nofile")
  else if (0x2F : UInt8) ∈ name then rs.err 404 (ascii "nofile")
  else
    match httpMime name with
    | none => rs.err 404 (ascii "nofile")
    | some type => sendFile rs (env.stat (ascii "static/" ++ name)) type

/-- `h_index`. -/
def hIndex (env : Env) (rs : HttpRsp) : HttpRsp :=
  sendFile rs (env.stat (ascii "index.html")) (ascii "text/html; charset=utf-8")

/-! ## The status -/

/-- `printable`. -/
def printable (v : List UInt8) : Bool := v.all fun c => 0x20 ≤ c && c ≤ 0x7E

/-- The switch of `h_status`. -/
def writeStatus (w : Writer) (type : Nat) (v : List UInt8) : Writer :=
  match type with
  | 0x8001 => if v.length = 4 then w.num (ascii "uptime_s") (protoBe32 v 0) else w
  | 0x8002 => if v.length = 4 then w.num (ascii "load1x100") (protoBe32 v 0) else w
  | 0x8003 => if v.length = 4 then w.num (ascii "memfree_kb") (protoBe32 v 0) else w
  | 0x8004 => if v.length = 1 then w.num (ascii "cfg_source") (byteAt v 0).toNat else w
  | 0x8005 => if v.length = 4 then w.num (ascii "cfg_seq") (protoBe32 v 0) else w
  | 0x8006 => if v.length ≤ 32 then w.strn (ascii "version") v else w
  | 0x8007 => if v.length = 4 then w.num (ascii "entropy_avail") (protoBe32 v 0) else w
  | 0x8008 => if v.length = 1 then w.bool (ascii "auth_ready") (byteAt v 0 ≠ 0) else w
  | 0x8009 =>
      if v.length ≤ updateLastMax ∧ printable v then w.strn (ascii "update_last") v else w
  | _ => w

/-- The loop of `h_status` over the reply's body, which takes four bytes or more each turn. -/
def statusLoop : Nat → List UInt8 → Writer → Writer
  | 0, _, w => w
  | turns + 1, body, w =>
      if body.length < 4 then w
      else
        let l := protoBe16 body 2
        if l > body.length - 4 then w
        else
          statusLoop turns (body.drop (4 + l))
            (writeStatus w (protoBe16 body 0) ((body.drop 4).take l))

/-- `h_status`. -/
def hStatus (env : Env) (rq : HttpReq) (rs : HttpRsp) : HttpRsp :=
  match brokerCall env rs opStatusId rq [] with
  | .error rs => rs
  | .ok body =>
      rs.document
        (statusLoop body.length body
          ((Writer.init rspBodyMax).objOpen.bool (ascii "ok") true)).objClose

/-! ## Login and logout -/

/-- `hex16`. -/
def hex16 (bytes : List UInt8) : List UInt8 :=
  (List.range 16).flatMap fun i =>
    let digit := fun v : UInt8 => byteAt (ascii "0123456789abcdef") v.toNat
    [digit (byteAt bytes i >>> 4), digit (byteAt bytes i &&& 0x0F)]

/-- The end of `h_login`, on the body of the broker's reply. -/
def loggedIn (rs : HttpRsp) (body : List UInt8) : HttpRsp :=
  if body.length < 36 then rs.err 500 (ascii "broker")
  else
    let csrf := hex16 (body.drop 16)
    { rs with cookies := setCookies (some (hex16 body)) (some csrf) }.document
      ((jsonStr ((Writer.init rspBodyMax).objOpen.bool (ascii "ok") true) (ascii "csrf")
        csrf).num (ascii "ttl_s") (protoBe32 body 32)).objClose

/-- The refusal of `h_login` without a grant. -/
def rateLimited (rs : HttpRsp) (retry : UInt32) : HttpRsp :=
  let secs := if retry.toNat = 0 then 1 else retry.toNat
  let rsp := bodyJson { rs.reply.rsp with status := 429, retryAfter := secs, nostore := true }
    ((refusal (ascii "ratelimit")).num (ascii "retry_s") secs).objClose
  { rs with reply := { rs.reply with rsp := rsp } }

/-- `h_login`. -/
def hLogin (env : Env) (rq : HttpReq) (rs : HttpRsp) : HttpRsp :=
  match jsonParse rq.body with
  | .error e => rs.err 400 e.name
  | .ok o =>
      match stringOf (jsonGet o (ascii "password")) with
      | none => rs.err 400 (ascii "field")
      | some [] => rs.err 400 (ascii "field")
      | some (c :: pw) =>
          match env.grant with
          | .error retry => rateLimited rs retry
          | .ok () =>
              match brokerCall env rs opLoginId rq (c :: pw) with
              | .error rs => rs
              | .ok body => loggedIn rs body

/-- `h_logout`. -/
def hLogout (env : Env) (rq : HttpReq) (rs : HttpRsp) : HttpRsp :=
  match brokerCall env rs opLogoutId rq [] with
  | .error rs => rs
  | .ok _ => { rs with cookies := setCookies none none }.done

/-! ## Ping and reboot -/

/-- `ping_sanitise`. -/
def pingSanitise (out : List UInt8) (cap : Nat) : List UInt8 :=
  (out.take cap).map fun c =>
    if c = 0x0A ∨ (0x20 ≤ c ∧ c < 0x7F) then c
    else if c = 0x0D ∨ c = 0x09 then 0x20
    else 0x2E

/-- A member that is there as a number. -/
def numberOf (m : Option Member) : Option Nat :=
  match m with
  | some ⟨_, .num n⟩ => some n
  | _ => none

/-- `h_ping` up to its call: the body of the PING. -/
def pingBody (rs : HttpRsp) (body : List UInt8) : Except HttpRsp (List UInt8) :=
  match jsonParse body with
  | .error e => .error (rs.err 400 e.name)
  | .ok o =>
      match stringOf (jsonGet o (ascii "target")), numberOf (jsonGet o (ascii "count")) with
      | some target, some count =>
          if count < 1 ∨ count > 5 then .error (rs.err 400 (ascii "range"))
          else
            match parseIpv4 target with
            | none => .error (rs.err 400 (ascii "target"))
            | some ip => .ok (ip ++ [UInt8.ofNat count])
      | _, _ => .error (rs.err 400 (ascii "field"))

/-- `h_ping`. -/
def hPing (env : Env) (rq : HttpReq) (rs : HttpRsp) : HttpRsp :=
  match pingBody rs rq.body with
  | .error rs => rs
  | .ok request =>
      match brokerCall env rs opPingId rq request with
      | .error rs => rs
      | .ok out =>
          rs.document
            (((Writer.init rspBodyMax).objOpen.bool (ascii "ok") true).strn (ascii "output")
              (pingSanitise out 2047)).objClose

/-- `h_reboot`. -/
def hReboot (env : Env) (rq : HttpReq) (rs : HttpRsp) : HttpRsp :=
  match brokerCall env rs opRebootId rq [] with
  | .error rs => rs
  | .ok _ => rs.done

/-- `h_firmware`. -/
def hFirmware (rs : HttpRsp) : HttpRsp :=
  { rs with reply := rs.reply.nostore }.err 500 (ascii "stream")

/-! ## The configuration and the password -/

/-- `h_config_get`, its request's tokens read first. -/
def hConfig (env : Env) (rq : HttpReq) (rs : HttpRsp) : HttpRsp :=
  match routeBkReq env.clientIp rq rs.reply with
  | .error reply => rs.json reply
  | .ok q =>
      let rsp := hConfigGet rs.reply.rsp fun ids => env.call { q with op := opGetId, body := ids }
      rs.json { rs.reply with rsp := rsp }

/-- A handler that checks its body, makes one call and says no more than that it is done. -/
def checkedCall (env : Env) (rq : HttpReq) (rs : HttpRsp) (op : Nat)
    (request : Except Rsp (List UInt8)) : HttpRsp :=
  match request with
  | .error rsp => rs.json { rs.reply with rsp := rsp }
  | .ok body =>
      match brokerCall env rs op rq body with
      | .error rs => rs
      | .ok _ => rs.done

/-- `h_config_set`. -/
def hConfigPost (env : Env) (rq : HttpReq) (rs : HttpRsp) : HttpRsp :=
  checkedCall env rq rs opSetId (configSetBody rs.reply.rsp rq.body)

/-- `h_password`. -/
def hPasswordPost (env : Env) (rq : HttpReq) (rs : HttpRsp) : HttpRsp :=
  checkedCall env rq rs opPwsetId
    (passwordBody rs.reply.rsp (env.grant.mapError UInt32.toNat) rq.body)

/-! ## A request -/

/-- The handlers of the table. -/
def handler (env : Env) (fn : Handler) (rq : HttpReq) (rs : HttpRsp) : HttpRsp :=
  match fn with
  | .index => hIndex env rs
  | .static => routeStatic env rq rs
  | .status => hStatus env rq rs
  | .login => hLogin env rq rs
  | .logout => hLogout env rq rs
  | .configGet => hConfig env rq rs
  | .configSet => hConfigPost env rq rs
  | .password => hPasswordPost env rq rs
  | .ping => hPing env rq rs
  | .reboot => hReboot env rq rs
  | .firmware => hFirmware rs

/-- `route_dispatch`. -/
def routeAnswer (env : Env) (rq : HttpReq) : HttpRsp :=
  match routeGate rq .init rq.bodyLen with
  | (reply, none) => HttpRsp.init.json reply
  | (reply, some r) =>
      let rs := handler env r.fn rq (HttpRsp.init.json reply)
      if r.api then { rs with reply := rs.reply.nostore } else rs

/-! ## A connection -/

/-- How the reading of a request ends; a list of reads that ends is a peer still waited for. -/
inductive Heard where
  | waiting
  | gone
  | refused (rs : HttpRsp)
  | whole (rq : HttpReq)
  | stream (rq : HttpReq) (pre : List UInt8)

/-- A refusal by the parser. -/
def parserRefusal (status : Nat) : HttpRsp :=
  let rs := HttpRsp.init.err status (ascii "request")
  if status = 405 then { rs with reply := { rs.reply with allowGetPost := true } } else rs

/-- The loop of `srv_conn` over its reads. -/
def hear (ps : HttpParser) : List Got → Heard
  | [] => .waiting
  | .bytes [] :: _ =>
      -- nothing at all: no answer owed
      if ps.state = .reqline ∧ ps.line = [] then .gone
      else .refused (HttpRsp.init.err 400 (ascii "short"))
  | .timeout :: _ => .refused (HttpRsp.init.err 408 (ascii "timeout"))
  | .gone :: _ => .gone
  | .bytes (c :: read) :: more =>
      match httpFeed ps (c :: read) with
      | (ps', rc, used) =>
          if rc < 0 then .refused (parserRefusal (-rc).toNat)
          else if rc = 2 then .stream ps'.r ((c :: read).drop used)
          else if rc = 1 then .whole ps'.r
          else hear ps' more

/-- `srv_conn`: the answer that it sends, if it sends one. -/
def srvConn {World : Type} (out : Outside World) (env : Env) (fd : Int) (reads : List Got)
    (world : World) : Option HttpRsp :=
  match hear Http.httpParseInit reads with
  | .waiting => none
  | .gone => none
  | .refused rs => some rs
  | .whole rq => some (routeAnswer env rq)
  | .stream rq pre =>
      (uploadRun out env.clientIp fd rq pre world).1.map HttpRsp.init.json

end RlxFw.Httpd
