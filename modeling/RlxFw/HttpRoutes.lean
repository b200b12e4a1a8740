import RlxFw.Json
import RlxFw.Ops
import Mathlib.Data.List.DropRight

/-!
# The configuration and password routes

`h_config_get`, `h_config_set` and `h_password` of `src/httpd/routes.c`, each with the
broker's reply as what it is handed.
-/

namespace RlxFw.Httpd

open Broker (Resp Status protoBe16 protoBe32 reqBodyMax)
open CfgStore (Key cfgKeys cfgKeyById nkeys)
open Json (Member Value Writer jsonParse jsonGet strMax)

/-! ## Addresses as text -/

/-- The digits of an octet: its value, how many, and the rest. -/
def octetDigits : Nat → Nat → List UInt8 → Option (Nat × Nat × List UInt8)
  | v, d, [] => some (v, d, [])
  | v, d, c :: rest =>
      if 0x30 ≤ c ∧ c ≤ 0x39 then
        let v := v * 10 + (c.toNat - 0x30)
        if v > 255 then none
        else if d + 1 > 3 then none
        else octetDigits v (d + 1) rest
      else some (v, d, c :: rest)

/-- An octet of `parse_ipv4`, and what follows it. -/
def octet (s : List UInt8) : Option (UInt8 × List UInt8) :=
  match octetDigits 0 0 s with
  | none => none
  | some (v, d, rest) =>
      if d = 0 then none
      else if d > 1 ∧ byteAt s 0 = 0x30 then none
      else some (UInt8.ofNat v, rest)

/-- The loop of `parse_ipv4`: how many octets are left, those read, and the rest. -/
def parseOctets : Nat → List UInt8 → List UInt8 → Option (List UInt8)
  | 0, out, s => if s = [] then some out else none
  | left + 1, out, s =>
      match (if out = [] then some s else if s.head? = some 0x2E then some s.tail else none) with
      | none => none
      | some s =>
          match octet s with
          | none => none
          | some (b, s) => parseOctets left (out ++ [b]) s

/-- `parse_ipv4`. -/
def parseIpv4 (s : List UInt8) : Option (List UInt8) := parseOctets 4 [] s

/-- An octet of `ip_to_text`. -/
def octetText (x : UInt8) : List UInt8 :=
  if x = 0 then [0x30] else Json.numDigits 3 x.toNat []

/-- `ip_to_text`, whose own buffer of 20 bytes has room for any address. -/
def ipToText (v : List UInt8) (cap : Nat) : List UInt8 :=
  (octetText (byteAt v 0) ++ 0x2E :: octetText (byteAt v 1) ++ 0x2E ::
    octetText (byteAt v 2) ++ 0x2E :: octetText (byteAt v 3)).take (cap - 1)

/-! ## Answers -/

/-- `RSP_BODY_MAX`. -/
def rspBodyMax : Nat := 6144

/-- What the routes fill in of `struct http_rsp`. -/
structure Rsp where
  status : Nat
  retryAfter : Nat
  nostore : Bool
  body : List UInt8
deriving DecidableEq, Repr

/-- `route_rsp_init`. -/
def routeRspInit : Rsp := { status := 500, retryAfter := 0, nostore := false, body := [] }

/-- The body of an answer that had no room. -/
def tooLong : List UInt8 := 0x7B :: ascii "\"error\":\"toolong\"" ++ [0x7D]

/-- `body_json`. -/
def bodyJson (rs : Rsp) (w : Writer) : Rsp :=
  if w.err then { rs with status := 500, body := tooLong } else { rs with body := w.buf }

/-- `json_w_str`. -/
def jsonStr (w : Writer) (key val : List UInt8) : Writer := w.strn key (cString val)

/-- The beginning of a refusal: `ok` is false, and a code. -/
def refusal (code : List UInt8) : Writer :=
  jsonStr ((Writer.init rspBodyMax).objOpen.bool (ascii "ok") false) (ascii "error") code

/-- `route_err`. -/
def routeErr (rs : Rsp) (status : Nat) (code : List UInt8) : Rsp :=
  bodyJson { rs with status := status } (refusal code).objClose

/-- `ok_empty`. -/
def okEmpty (rs : Rsp) : Rsp :=
  bodyJson { rs with status := 200 }
    ((Writer.init rspBodyMax).objOpen.bool (ascii "ok") true).objClose

/-- `route_map_status`. -/
def routeMapStatus (rs : Rsp) (status : Status) (body : List UInt8) : Rsp :=
  match status with
  | .badreq => routeErr rs 400 (ascii "badreq")
  | .perm => routeErr rs 403 (ascii "perm")
  | .auth => routeErr rs 401 (ascii "auth")
  | .locked =>
      let s := min (if body.length ≥ 4 then protoBe32 body 0 else 60) 3600
      bodyJson { rs with status := 429, retryAfter := s }
        ((refusal (ascii "locked")).num (ascii "retry_s") s).objClose
  | .inval =>
      let id := if body.length ≥ 2 then protoBe16 body 0 else 0
      bodyJson { rs with status := 400 }
        ((refusal (ascii "inval")).num (ascii "key") id).objClose
  | .io => routeErr rs 500 (ascii "io")
  | .noent => routeErr rs 404 (ascii "noent")
  | .busy => routeErr rs 503 (ascii "busy")
  | .notsup => routeErr rs 501 (ascii "notsup")
  | .noentropy => routeErr rs 503 (ascii "noentropy")
  | .ok => routeErr rs 500 (ascii "broker")

/-- `call_broker` after its request: the body of a reply that is OK, or the answer. -/
def callBroker (rs : Rsp) (reply : Option Resp) : Except Rsp (List UInt8) :=
  match reply with
  | none => .error (routeErr rs 503 (ascii "broker"))
  | some br =>
      if br.status ≠ .ok then .error (routeMapStatus rs br.status br.body) else .ok br.body

/-! ## Reading the configuration -/

/-- The ids that `h_config_get` asks for. -/
def shownIds : List UInt8 :=
  (List.finRange nkeys).flatMap fun i =>
    if (cfgKeys i).web = .hidden then [] else Tlv.putBe16 (cfgKeys i).id

/-- The switch of `h_config_get`. -/
def writeShown (w : Writer) (k : Key) (v : List UInt8) : Writer :=
  match k.type with
  | .bool => if v.length = 1 then w.bool k.name (byteAt v 0 ≠ 0) else w
  | .enum => if v.length = 1 then w.num k.name (byteAt v 0).toNat else w
  | .u16 => if v.length = 2 then w.num k.name (protoBe16 v 0) else w
  | .u32 => if v.length = 4 then w.num k.name (protoBe32 v 0) else w
  | .ipv4 => if v.length = 4 then jsonStr w k.name (ipToText v 16) else w
  | .str => if v.length ≤ strMax then w.strn k.name v else w
  | .bytes => w

/-- The loop of `h_config_get` over the reply's body, which takes four bytes or more
each turn. -/
def configLoop : Nat → List UInt8 → Writer → Writer
  | 0, _, w => w
  | turns + 1, body, w =>
      if body.length < 4 then w
      else
        let l := protoBe16 body 2
        if l > body.length - 4 then w
        else
          let rest := body.drop (4 + l)
          match cfgKeyById (protoBe16 body 0) with
          | none => configLoop turns rest w
          | some k =>
              if k.web = .hidden then configLoop turns rest w
              else configLoop turns rest (writeShown w k ((body.drop 4).take l))

/-- The `config` object of `h_config_get`, in `scratch`. -/
def configObject (body : List UInt8) : Writer :=
  (configLoop body.length body (Writer.init 2048).objOpen).objClose

/-- `h_config_get`, with what the broker replies to a GET. -/
def hConfigGet (rs : Rsp) (get : List UInt8 → Option Resp) : Rsp :=
  match callBroker rs (get shownIds) with
  | .error rs => rs
  | .ok body =>
      let inner := configObject body
      if inner.err then routeErr rs 500 (ascii "toolong")
      else
        bodyJson { rs with status := 200, nostore := true }
          (((Writer.init rspBodyMax).objOpen.bool (ascii "ok") true).raw (ascii "config")
            inner.buf).objClose

/-! ## Writing the configuration -/

/-- The markers of `member_to_value`. -/
inductive Marker where
  | readonly
  | badtype
  | range
deriving DecidableEq, Repr

/-- The answer to a marker. -/
def Marker.answer (rs : Rsp) : Marker → Rsp
  | .readonly => routeErr rs 403 (ascii "readonly")
  | .badtype => routeErr rs 400 (ascii "badtype")
  | .range => routeErr rs 400 (ascii "range")

/-- `member_to_value`. -/
def memberToValue (m : Value) (k : Key) (cap : Nat) : Except Marker (List UInt8) :=
  if k.web ≠ .rw then .error .readonly
  else
    match k.type with
    | .bool =>
        if cap < 1 then .error .range
        else
          match m with
          | .bool b => .ok [if b then 1 else 0]
          | .num n => if n ≤ 1 then .ok [UInt8.ofNat n] else .error .badtype
          | _ => .error .badtype
    | .enum =>
        if cap < 1 then .error .range
        else
          match m with
          | .num n => if n > k.max then .error .range else .ok [UInt8.ofNat n]
          | _ => .error .badtype
    | .u16 =>
        if cap < 2 then .error .range
        else
          match m with
          | .num n =>
              if n > 65535 ∨ n < k.min ∨ n > k.max then .error .range
              else .ok (Tlv.putBe16 n)
          | _ => .error .badtype
    | .u32 =>
        if cap < 4 then .error .range
        else
          match m with
          | .num n => if n < k.min ∨ n > k.max then .error .range else .ok (Tlv.putBe32 n)
          | _ => .error .badtype
    | .ipv4 =>
        if cap < 4 then .error .range
        else
          match m with
          | .str s =>
              match parseIpv4 s with
              | none => .error .range
              | some v => .ok v
          | _ => .error .badtype
    | .str =>
        match m with
        | .str s =>
            if s.length < k.min ∨ s.length > k.max then .error .range
            else if s.length > cap then .error .range
            else .ok s
        | _ => .error .badtype
    | .bytes => .error .readonly

/-- `cfg_key_by_name`. -/
def cfgKeyByName (name : List UInt8) : Option Key :=
  ((List.finRange nkeys).map cfgKeys).find? fun k => k.name = name

/-- The id of a member's key, when the web may write it. -/
def resolve (rs : Rsp) (m : Member) : Except Rsp Nat :=
  match cfgKeyByName m.key with
  | none => .error (routeErr rs 400 (ascii "badkey"))
  | some k => if k.web ≠ .rw then .error (routeErr rs 403 (ascii "readonly")) else .ok k.id

/-- One turn of the insertion sort: an id goes behind those that are not above it,
counted from the end. -/
def insertId (order : List Nat) (v : Nat) : List Nat :=
  order.rdropWhile (· > v) ++ v :: order.rtakeWhile (· > v)

/-- The loop of `h_config_set` over the sorted ids, with the bytes so far. -/
def setLoop (rs : Rsp) (o : List Member) : List Nat → List UInt8 → Except Rsp (List UInt8)
  | [], tlv => .ok tlv
  | id :: more, tlv =>
      match cfgKeyById id with
      | none => .error (routeErr rs 500 (ascii "table"))
      | some k =>
          match jsonGet o k.name with
          | none => .error (routeErr rs 500 (ascii "table"))
          | some m =>
              if tlv.length + 4 > reqBodyMax then .error (routeErr rs 413 (ascii "toolong"))
              else
                match memberToValue m.value k (reqBodyMax - tlv.length - 4) with
                | .error marker => .error (marker.answer rs)
                | .ok v => setLoop rs o more (tlv ++ Tlv.itemBytes k.id v)

/-- `h_config_set` up to its call: the body of the SET. -/
def configSetBody (rs : Rsp) (body : List UInt8) : Except Rsp (List UInt8) :=
  match jsonParse body with
  | .error e => .error (routeErr rs 400 e.name)
  | .ok o =>
      if o.length = 0 then .error (routeErr rs 400 (ascii "empty"))
      else
        match o.mapM (resolve rs) with
        | .error rs => .error rs
        | .ok ids => setLoop rs o (ids.foldl insertId []) []

/-- `h_config_set`, with what the broker replies to a SET. -/
def hConfigSet (rs : Rsp) (body : List UInt8) (set : List UInt8 → Option Resp) : Rsp :=
  match configSetBody rs body with
  | .error rs => rs
  | .ok tlv =>
      match callBroker rs (set tlv) with
      | .error rs => rs
      | .ok _ => okEmpty { rs with nostore := true }

/-! ## The password -/

/-- A member that is there as a string. -/
def stringOf (m : Option Member) : Option (List UInt8) :=
  match m with
  | some ⟨_, .str s⟩ => some s
  | _ => none

/-- The two passwords of a request, or the answer. -/
def passwords (rs : Rsp) (body : List UInt8) : Except Rsp (List UInt8 × List UInt8) :=
  match jsonParse body with
  | .error e => .error (routeErr rs 400 e.name)
  | .ok o =>
      match stringOf (jsonGet o (ascii "old")), stringOf (jsonGet o (ascii "new")) with
      | some old, some new =>
          if new.length < 8 ∨ new.length > 64 ∨ old.length > 64 then
            .error (routeErr rs 400 (ascii "pwlen"))
          else .ok (old, new)
      | _, _ => .error (routeErr rs 400 (ascii "field"))

/-- The body of the PWSET: each password behind its length. -/
def pwsetRequest (old new : List UInt8) : List UInt8 :=
  UInt8.ofNat old.length :: old ++ UInt8.ofNat new.length :: new

/-- `h_password` up to its call, with the grant, or the seconds until there is one. -/
def passwordBody (rs : Rsp) (grant : Except Nat Unit) (body : List UInt8) :
    Except Rsp (List UInt8) :=
  match passwords rs body with
  | .error rs => .error rs
  | .ok (old, new) =>
      match grant with
      | .error retry =>
          .error
            (routeErr { rs with retryAfter := if retry = 0 then 1 else retry, nostore := true }
              429 (ascii "ratelimit"))
      | .ok () => .ok (pwsetRequest old new)

/-- `h_password`, with what the broker replies to a PWSET. -/
def hPassword (rs : Rsp) (grant : Except Nat Unit) (body : List UInt8)
    (pwset : List UInt8 → Option Resp) : Rsp :=
  match passwordBody rs grant body with
  | .error rs => rs
  | .ok request =>
      match callBroker rs (pwset request) with
      | .error rs => rs
      | .ok _ => okEmpty { rs with nostore := true }

end RlxFw.Httpd
