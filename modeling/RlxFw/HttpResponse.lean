import RlxFw.HttpGate
import RlxFw.JsonText
import RlxFw.MessageHead

/-!
# An answer on the wire

`struct http_rsp`, `set_cookies` and `route_headers` of `src/httpd/routes.c`, the tables of
`src/httpd/http.c` it takes its texts from, and `send_rsp` of `src/httpd/serve.c`.
-/

namespace RlxFw.Httpd

open MessageHead (Field Head crlf linesText Plain)

/-! ## The texts -/

/-- The cases of `http_reason`. -/
def reasons : List (Nat × List UInt8) :=
  [(200, ascii "OK"), (204, ascii "No Content"), (400, ascii "Bad Request"),
    (401, ascii "Unauthorized"), (403, ascii "Forbidden"), (404, ascii "Not Found"),
    (405, ascii "Method Not Allowed"), (408, ascii "Request Timeout"),
    (411, ascii "Length Required"), (413, ascii "Payload Too Large"),
    (414, ascii "URI Too Long"), (429, ascii "Too Many Requests"),
    (431, ascii "Request Header Fields Too Large"), (500, ascii "Internal Server Error"),
    (501, ascii "Not Implemented"), (503, ascii "Service Unavailable"),
    (505, ascii "HTTP Version Not Supported")]

/-- `http_reason`. -/
def httpReason (status : Nat) : List UInt8 :=
  ((reasons.find? fun row => row.1 == status).map Prod.snd).getD (ascii "Error")

/-- `tab` of `http_mime`. -/
def mimeTab : List (List UInt8 × List UInt8) :=
  [(ascii ".html", ascii "text/html; charset=utf-8"),
    (ascii ".css", ascii "text/css; charset=utf-8"),
    (ascii ".js", ascii "application/javascript; charset=utf-8"),
    (ascii ".txt", ascii "text/plain; charset=utf-8"),
    (ascii ".svg", ascii "image/svg+xml"),
    (ascii ".ico", ascii "image/x-icon"),
    (ascii ".png", ascii "image/png")]

/-- `http_mime`. -/
def httpMime (name : List UInt8) : Option (List UInt8) :=
  (mimeTab.find? fun row => decide (row.1.length < name.length) &&
    Http.ciEq (name.drop (name.length - row.1.length)) row.1).map Prod.snd

/-- The type of an answer that is not a file. -/
def jsonType : List UInt8 := ascii "application/json"

/-! ## The answer -/

/-- `struct http_rsp`: `file` is the size of the file that is open, if one is. -/
structure HttpRsp where
  reply : Reply
  ctype : List UInt8
  cookies : List UInt8
  file : Option Nat
deriving DecidableEq, Repr

namespace HttpRsp

/-- `route_rsp_init`. -/
def init : HttpRsp := { reply := .init, ctype := jsonType, cookies := [], file := none }

/-- An answer in JSON. -/
def json (rs : HttpRsp) (reply : Reply) : HttpRsp :=
  { rs with reply := reply, ctype := jsonType, file := none }

/-- `route_err`. -/
def err (rs : HttpRsp) (status : Nat) (code : List UInt8) : HttpRsp :=
  rs.json (rs.reply.err status code)

end HttpRsp

/-- The size of `cookies`. -/
def cookiesCap : Nat := 320

/-- A turn of `set_cookies`: the value, or the expiring form. -/
def cookieLine (isSession : Bool) (val : Option (List UInt8)) : List UInt8 :=
  (if isSession then ascii "Set-Cookie: rlxs=" else ascii "Set-Cookie: rlxc=") ++ val.getD [] ++
    (if isSession then ascii "; Path=/; HttpOnly; SameSite=Strict"
      else ascii "; Path=/; SameSite=Strict") ++
    (if val = none then ascii "; Max-Age=0" else []) ++ crlf

/-- `set_cookies`. -/
def setCookies (sess csrf : Option (List UInt8)) : List UInt8 :=
  let first := cookieLine true sess
  if first.length + 1 > cookiesCap then []
  else
    let both := first ++ cookieLine false csrf
    -- all or nothing
    if both.length + 1 > cookiesCap then [] else both

/-! ## The head -/

/-- `app`; `none` is the mark of an overflow. -/
def app (cap : Nat) (out : Option (List UInt8)) (s : List UInt8) : Option (List UInt8) :=
  match out with
  | none => none
  | some out => if out.length + s.length + 1 > cap then none else some (out ++ s)

/-- What `appnum` hands to `app`. -/
def numText (v : Nat) : List UInt8 := if v = 0 then [0x30] else Json.numDigits 12 v []

/-- The body's length as it is announced. -/
def HttpRsp.clen (rs : HttpRsp) : Nat := rs.file.getD rs.reply.rsp.body.length

/-- The calls of `app` in `route_headers`, in order. -/
def headerCalls (rs : HttpRsp) : List (List UInt8) :=
  [ascii "HTTP/1.1 ", numText rs.reply.rsp.status, ascii " ", httpReason rs.reply.rsp.status, crlf,
    ascii "X-Frame-Options: DENY" ++ crlf,
    ascii "Content-Security-Policy: default-src 'self'" ++ crlf,
    ascii "X-Content-Type-Options: nosniff" ++ crlf,
    ascii "Connection: close" ++ crlf,
    ascii "Content-Type: ", rs.ctype, crlf,
    ascii "Content-Length: ", numText rs.clen, crlf] ++
  (if rs.reply.rsp.nostore then [ascii "Cache-Control: no-store" ++ crlf] else []) ++
  (if rs.reply.rsp.retryAfter > 0 then
    [ascii "Retry-After: ", numText rs.reply.rsp.retryAfter, crlf] else []) ++
  (if rs.reply.allowGetPost then [ascii "Allow: GET, POST" ++ crlf] else []) ++
  (if byteAt rs.cookies 0 ≠ 0 then [rs.cookies] else []) ++ [crlf]

/-- `route_headers`. -/
def routeHeaders (rs : HttpRsp) (cap : Nat) : Option (List UInt8) :=
  (headerCalls rs).foldl (app cap) (some [])

/-- The size of `hdr` in `send_rsp`. -/
def hdrMax : Nat := 1024

/-! ## The fields -/

/-- What `set_cookies` was asked for, if it was. -/
inductive Cookies where
  | absent
  | given (sess csrf : List UInt8)
  | expired
deriving DecidableEq, Repr

/-- The text of the choice. -/
def Cookies.text : Cookies → List UInt8
  | absent => []
  | given sess csrf => setCookies (some sess) (some csrf)
  | expired => setCookies none none

/-- The field that a turn of `set_cookies` writes. -/
def cookieField (isSession : Bool) (val : Option (List UInt8)) : Field where
  name := ascii "Set-Cookie"
  value :=
    (if isSession then ascii "rlxs=" else ascii "rlxc=") ++ val.getD [] ++
      (if isSession then ascii "; Path=/; HttpOnly; SameSite=Strict"
        else ascii "; Path=/; SameSite=Strict") ++
      (if val = none then ascii "; Max-Age=0" else [])

def Cookies.fields : Cookies → List Field
  | absent => []
  | given sess csrf => [cookieField true (some sess), cookieField false (some csrf)]
  | expired => [cookieField true none, cookieField false none]

/-- The head of an answer: the fields of all, what the body is, and what goes for this one. -/
def headOf (rs : HttpRsp) (cookies : Cookies) : Head where
  start := ascii "HTTP/1.1 " ++ Decimal.text rs.reply.rsp.status ++ ascii " " ++
    httpReason rs.reply.rsp.status
  fields :=
    [{ name := ascii "X-Frame-Options", value := ascii "DENY" },
      { name := ascii "Content-Security-Policy", value := ascii "default-src 'self'" },
      { name := ascii "X-Content-Type-Options", value := ascii "nosniff" },
      { name := ascii "Connection", value := ascii "close" },
      { name := ascii "Content-Type", value := rs.ctype },
      { name := ascii "Content-Length", value := Decimal.text rs.clen }] ++
    (if rs.reply.rsp.nostore then
      [{ name := ascii "Cache-Control", value := ascii "no-store" }] else []) ++
    (if rs.reply.rsp.retryAfter > 0 then
      [{ name := ascii "Retry-After", value := Decimal.text rs.reply.rsp.retryAfter }] else []) ++
    (if rs.reply.allowGetPost then
      [{ name := ascii "Allow", value := ascii "GET, POST" }] else []) ++
    cookies.fields

/-- Tokens that may stand in a cookie: 32 digits. -/
def Cookies.Formed : Cookies → Prop
  | given sess csrf => Http.Token sess ∧ Http.Token csrf
  | _ => True

/-- An answer whose head can be sent. -/
structure Sendable (rs : HttpRsp) (cookies : Cookies) : Prop where
  status : rs.reply.rsp.status ∈ reasons.map Prod.fst
  retry : rs.reply.rsp.retryAfter < 2 ^ 32
  ctype : rs.ctype ∈ jsonType :: mimeTab.map Prod.snd
  clen : rs.clen < 2 ^ 32
  formed : cookies.Formed
  kept : rs.cookies = cookies.text

section Fields

variable {rs : HttpRsp} {cookies : Cookies} {val : Option (List UInt8)}

theorem app_fold {cap : Nat} (pieces : List (List UInt8)) {out : List UInt8}
    (room : (out ++ pieces.flatten).length + 1 ≤ cap) :
    pieces.foldl (app cap) (some out) = some (out ++ pieces.flatten) := by
  induction pieces generalizing out with
  | nil => simp
  | cons piece pieces ih =>
      have fits : ¬ out.length + piece.length + 1 > cap := by
        simp only [List.flatten_cons, List.length_append] at room
        omega
      rw [List.foldl_cons, app, if_neg fits, ih (by simpa using room)]
      simp

theorem numText_eq {v : Nat} (small : v < 2 ^ 32) : numText v = Decimal.text v := by
  unfold numText
  split
  next zero =>
    subst zero
    rfl
  next pos =>
    rw [Json.numDigits_eq (Nat.pos_of_ne_zero pos) (by omega), List.append_nil]

theorem length_text_le_ten {v : Nat} (small : v < 2 ^ 32) : (Decimal.text v).length ≤ 10 :=
  Decimal.length_text_le (by decide) (by omega)

theorem plain_text (v : Nat) : Plain (Decimal.text v) := by
  constructor <;> intro listed <;> exact absurd (Decimal.isDigit_text v _ listed) (by decide)

theorem plain_token {v : List UInt8} (token : Http.Token v) : Plain v := by
  constructor <;> intro listed <;> exact absurd (token.2 _ listed) (by decide)

theorem cookieLine_eq (isSession : Bool) (val : Option (List UInt8)) :
    cookieLine isSession val = (cookieField isSession val).line ++ crlf := by
  have names : ascii "Set-Cookie: rlxs=" = ascii "Set-Cookie" ++ (0x3A :: 0x20 :: ascii "rlxs=") ∧
      ascii "Set-Cookie: rlxc=" = ascii "Set-Cookie" ++ (0x3A :: 0x20 :: ascii "rlxc=") := by
    decide
  unfold cookieLine cookieField Field.line
  cases isSession
  · rw [if_neg Bool.false_ne_true, if_neg Bool.false_ne_true, names.2]
    simp
  · rw [if_pos rfl, if_pos rfl, names.1]
    simp

theorem length_cookieLine_le (isSession : Bool) (val : Option (List UInt8)) :
    (cookieLine isSession val).length ≤ 70 + (val.getD []).length := by
  have literals : (ascii "Set-Cookie: rlxs=").length ≤ 17 ∧
      (ascii "Set-Cookie: rlxc=").length ≤ 17 ∧
      (ascii "; Path=/; HttpOnly; SameSite=Strict").length ≤ 35 ∧
      (ascii "; Path=/; SameSite=Strict").length ≤ 35 ∧ (ascii "; Max-Age=0").length ≤ 11 ∧
      crlf.length = 2 := by
    decide
  unfold cookieLine
  simp only [List.length_append]
  split_ifs <;> try rw [List.length_nil]
  all_goals omega

theorem cookieField_formed (isSession : Bool) (token : ∀ v ∈ val, Http.Token v) :
    (cookieField isSession val).Formed := by
  have literals : Plain (ascii "rlxs=") ∧ Plain (ascii "rlxc=") ∧
      Plain (ascii "; Path=/; HttpOnly; SameSite=Strict") ∧
      Plain (ascii "; Path=/; SameSite=Strict") ∧ Plain (ascii "; Max-Age=0") ∧
      Plain [] := by
    decide
  have given : Plain (val.getD []) := by
    cases val with
    | none => exact literals.2.2.2.2.2
    | some v => exact plain_token (token v rfl)
  have name : ascii "Set-Cookie" ≠ [] ∧ (0x3A : UInt8) ∉ ascii "Set-Cookie" ∧
      Plain (ascii "Set-Cookie") := by
    decide
  refine ⟨name.1, name.2.1, name.2.2, ?_, ?_⟩
  · unfold cookieField
    dsimp only
    split_ifs
    · exact ((literals.1.append given).append literals.2.2.1).append literals.2.2.2.2.1
    · exact ((literals.1.append given).append literals.2.2.1).append literals.2.2.2.2.2
    · exact ((literals.2.1.append given).append literals.2.2.2.1).append literals.2.2.2.2.1
    · exact ((literals.2.1.append given).append literals.2.2.2.1).append literals.2.2.2.2.2
  · have first : (cookieField isSession val).value.head? = some 0x72 := by
      cases isSession <;> rfl
    rw [first]
    decide

/-- Both cookies always have room. -/
theorem setCookies_eq {sess csrf : Option (List UInt8)} (first : (sess.getD []).length ≤ 32)
    (second : (csrf.getD []).length ≤ 32) :
    setCookies sess csrf = linesText [cookieField true sess, cookieField false csrf] ∧
      (setCookies sess csrf).length ≤ 204 := by
  have sessionLine := length_cookieLine_le true sess
  have csrfLine := length_cookieLine_le false csrf
  have both : setCookies sess csrf = cookieLine true sess ++ cookieLine false csrf := by
    unfold setCookies cookiesCap
    dsimp only
    rw [if_neg (by omega), if_neg (by rw [List.length_append]; omega)]
  rw [both, List.length_append]
  refine ⟨?_, by omega⟩
  simp [linesText, cookieLine_eq]

theorem Cookies.Formed.text_eq (formed : cookies.Formed) :
    cookies.text = linesText cookies.fields ∧ cookies.text.length ≤ 204 := by
  cases cookies with
  | absent => exact ⟨rfl, Nat.zero_le _⟩
  | given sess csrf => exact setCookies_eq formed.1.1.le formed.2.1.le
  | expired => exact @setCookies_eq none none (by decide) (by decide)

theorem Cookies.Formed.fields (formed : cookies.Formed) : ∀ f ∈ cookies.fields, f.Formed := by
  cases cookies with
  | absent => exact nofun
  | given sess csrf =>
      refine List.forall_mem_cons.mpr ⟨cookieField_formed true ?_,
        List.forall_mem_cons.mpr ⟨cookieField_formed false ?_, nofun⟩⟩
      · rintro v ⟨⟩
        exact formed.1
      · rintro v ⟨⟩
        exact formed.2
  | expired =>
      exact List.forall_mem_cons.mpr ⟨cookieField_formed true nofun,
        List.forall_mem_cons.mpr ⟨cookieField_formed false nofun, nofun⟩⟩

/-- A reason of the table. -/
theorem httpReason_listed {status : Nat} (listed : status ∈ reasons.map Prod.fst) :
    Plain (httpReason status) ∧ (httpReason status).length ≤ 31 ∧ status < 1000 := by
  have all : ∀ status ∈ reasons.map Prod.fst,
      Plain (httpReason status) ∧ (httpReason status).length ≤ 31 ∧ status < 1000 := by
    decide
  exact all status listed

theorem ctype_listed {ctype : List UInt8} (listed : ctype ∈ jsonType :: mimeTab.map Prod.snd) :
    Plain ctype ∧ ctype.length ≤ 40 ∧ ctype.head? ≠ some 0x20 := by
  have all : ∀ ctype ∈ jsonType :: mimeTab.map Prod.snd,
      Plain ctype ∧ ctype.length ≤ 40 ∧ ctype.head? ≠ some 0x20 := by
    decide
  exact all ctype listed

/-- The calls that depend on the answer, in the order of the fields. -/
theorem optional_calls (sendable : Sendable rs cookies) :
    (if rs.reply.rsp.nostore then [ascii "Cache-Control: no-store" ++ crlf] else []).flatten =
        linesText (if rs.reply.rsp.nostore then
          [{ name := ascii "Cache-Control", value := ascii "no-store" }] else []) ∧
      (if rs.reply.rsp.retryAfter > 0 then
          [ascii "Retry-After: ", numText rs.reply.rsp.retryAfter, crlf] else []).flatten =
        linesText (if rs.reply.rsp.retryAfter > 0 then
          [{ name := ascii "Retry-After", value := Decimal.text rs.reply.rsp.retryAfter }]
          else []) ∧
      (if rs.reply.allowGetPost then [ascii "Allow: GET, POST" ++ crlf] else []).flatten =
        linesText (if rs.reply.allowGetPost then
          [{ name := ascii "Allow", value := ascii "GET, POST" }] else []) ∧
      (if byteAt rs.cookies 0 ≠ 0 then [rs.cookies] else []).flatten =
        linesText cookies.fields := by
  have literals : ascii "Cache-Control: no-store" =
        ascii "Cache-Control" ++ (0x3A :: 0x20 :: ascii "no-store") ∧
      ascii "Retry-After: " = ascii "Retry-After" ++ [0x3A, 0x20] ∧
      ascii "Allow: GET, POST" = ascii "Allow" ++ (0x3A :: 0x20 :: ascii "GET, POST") := by
    decide
  refine ⟨?_, ?_, ?_, ?_⟩
  · split
    · rw [literals.1]
      simp [linesText, Field.line]
    · rfl
  · split
    · rw [literals.2.1, numText_eq sendable.retry]
      simp [linesText, Field.line]
    · rfl
  · split
    · rw [literals.2.2]
      simp [linesText, Field.line]
    · rfl
  · rw [sendable.kept, ← sendable.formed.text_eq.1]
    have first : cookies.text = [] ∨ byteAt cookies.text 0 ≠ 0 := by
      rw [sendable.formed.text_eq.1]
      cases cookies with
      | absent => exact Or.inl rfl
      | given sess csrf =>
          refine Or.inr ?_
          change (0x53 : UInt8) ≠ 0
          decide
      | expired =>
          refine Or.inr ?_
          change (0x53 : UInt8) ≠ 0
          decide
    rcases first with none_ | some_
    · rw [none_]
      rfl
    · rw [if_pos some_]
      simp

theorem linesText_append (first second : List Field) :
    linesText (first ++ second) = linesText first ++ linesText second := List.flatMap_append

/-- What `route_headers` writes is the head, with room to spare. -/
theorem headerCalls_flatten (sendable : Sendable rs cookies) :
    (headerCalls rs).flatten = (headOf rs cookies).text ∧
      (headerCalls rs).flatten.length + 1 ≤ hdrMax := by
  obtain ⟨cache, retry, allow, kept⟩ := optional_calls sendable
  obtain ⟨-, shortReason, small⟩ := httpReason_listed sendable.status
  have shortStatus : (Decimal.text rs.reply.rsp.status).length ≤ 10 :=
    length_text_le_ten (by omega)
  have shortType := (ctype_listed sendable.ctype).2.1
  have shortLength := length_text_le_ten sendable.clen
  have shortRetry := length_text_le_ten sendable.retry
  have shortCookies := sendable.formed.text_eq.2
  have fixed : ascii "X-Frame-Options: DENY" ++ crlf = linesText
        [{ name := ascii "X-Frame-Options", value := ascii "DENY" }] ∧
      ascii "Content-Security-Policy: default-src 'self'" ++ crlf = linesText
        [{ name := ascii "Content-Security-Policy", value := ascii "default-src 'self'" }] ∧
      ascii "X-Content-Type-Options: nosniff" ++ crlf = linesText
        [{ name := ascii "X-Content-Type-Options", value := ascii "nosniff" }] ∧
      ascii "Connection: close" ++ crlf = linesText
        [{ name := ascii "Connection", value := ascii "close" }] ∧
      ascii "Content-Type: " = ascii "Content-Type" ++ [0x3A, 0x20] ∧
      ascii "Content-Length: " = ascii "Content-Length" ++ [0x3A, 0x20] := by
    decide
  constructor
  · unfold headerCalls Head.text headOf
    simp only [List.flatten_append, cache, retry, allow, kept, linesText_append,
      numText_eq sendable.clen, numText_eq (v := rs.reply.rsp.status) (by omega),
      fixed.1, fixed.2.1, fixed.2.2.1, fixed.2.2.2.1, fixed.2.2.2.2.1, fixed.2.2.2.2.2]
    simp [linesText, Field.line]
  · have lengths : (ascii "HTTP/1.1 ").length = 9 ∧ (ascii " ").length = 1 ∧
        (ascii "X-Frame-Options: DENY").length ≤ 60 ∧
        (ascii "Content-Security-Policy: default-src 'self'").length ≤ 60 ∧
        (ascii "X-Content-Type-Options: nosniff").length ≤ 60 ∧
        (ascii "Connection: close").length ≤ 60 ∧ (ascii "Content-Type: ").length ≤ 60 ∧
        (ascii "Content-Length: ").length ≤ 60 ∧
        (ascii "Cache-Control: no-store").length ≤ 60 ∧ (ascii "Retry-After: ").length ≤ 60 ∧
        (ascii "Allow: GET, POST").length ≤ 60 ∧ crlf.length = 2 := by
      decide
    have cacheLength : (if rs.reply.rsp.nostore then
        [ascii "Cache-Control: no-store" ++ crlf] else []).flatten.length ≤ 62 := by
      split
      · simp
        omega
      · simp
    have retryLength : (if rs.reply.rsp.retryAfter > 0 then
        [ascii "Retry-After: ", numText rs.reply.rsp.retryAfter, crlf]
        else []).flatten.length ≤ 72 := by
      rw [numText_eq sendable.retry]
      split
      · simp
        omega
      · simp
    have allowLength : (if rs.reply.allowGetPost then
        [ascii "Allow: GET, POST" ++ crlf] else []).flatten.length ≤ 62 := by
      split
      · simp
        omega
      · simp
    have keptLength : (if byteAt rs.cookies 0 ≠ 0 then [rs.cookies] else []).flatten.length ≤
        204 := by
      rw [kept, ← sendable.formed.text_eq.1]
      exact shortCookies
    unfold headerCalls hdrMax
    simp only [List.flatten_append, List.length_append]
    rw [numText_eq sendable.clen, numText_eq (v := rs.reply.rsp.status) (by omega)]
    simp only [List.flatten_cons, List.flatten_nil, List.length_append, List.length_nil]
    omega

theorem headOf_formed (sendable : Sendable rs cookies) : (headOf rs cookies).Formed := by
  obtain ⟨reason, -⟩ := httpReason_listed sendable.status
  obtain ⟨ctype, -, ctypeFirst⟩ := ctype_listed sendable.ctype
  have noBlank : ∀ v, (Decimal.text v).head? ≠ some 0x20 := fun v blank =>
    absurd (Decimal.isDigit_text v _ (List.mem_of_head? blank)) (by decide)
  have number : ∀ (name : List UInt8) (v : Nat), name ≠ [] → (0x3A : UInt8) ∉ name →
      Plain name → Field.Formed { name := name, value := Decimal.text v } :=
    fun name v some_ colon plain => ⟨some_, colon, plain, plain_text v, noBlank v⟩
  have fixed : ∀ f ∈ ([{ name := ascii "X-Frame-Options", value := ascii "DENY" },
      { name := ascii "Content-Security-Policy", value := ascii "default-src 'self'" },
      { name := ascii "X-Content-Type-Options", value := ascii "nosniff" },
      { name := ascii "Connection", value := ascii "close" },
      { name := ascii "Cache-Control", value := ascii "no-store" },
      { name := ascii "Allow", value := ascii "GET, POST" }] : List Field), f.Formed := by
    have all : ∀ f ∈ ([{ name := ascii "X-Frame-Options", value := ascii "DENY" },
      { name := ascii "Content-Security-Policy", value := ascii "default-src 'self'" },
      { name := ascii "X-Content-Type-Options", value := ascii "nosniff" },
      { name := ascii "Connection", value := ascii "close" },
      { name := ascii "Cache-Control", value := ascii "no-store" },
      { name := ascii "Allow", value := ascii "GET, POST" }] : List Field),
      f.name ≠ [] ∧ (0x3A : UInt8) ∉ f.name ∧ Plain f.name ∧ Plain f.value ∧
        f.value.head? ≠ some 0x20 := by
      decide
    exact fun f listed =>
      have ⟨some_, colon, name, value, blank⟩ := all f listed
      ⟨some_, colon, name, value, blank⟩
  constructor
  · exact (((by decide : Plain (ascii "HTTP/1.1 ")).append (plain_text _)).append
      (by decide : Plain (ascii " "))).append reason
  · have names : ascii "Content-Type" ≠ [] ∧ (0x3A : UInt8) ∉ ascii "Content-Type" ∧
        Plain (ascii "Content-Type") := by
      decide
    intro f listed
    unfold headOf at listed
    simp only [List.mem_append, List.mem_cons, List.not_mem_nil, or_false] at listed
    obtain ((((rfl | rfl | rfl | rfl | rfl | rfl) | cache) | retry) | allow) | kept := listed
    · exact fixed _ (by simp)
    · exact fixed _ (by simp)
    · exact fixed _ (by simp)
    · exact fixed _ (by simp)
    · exact ⟨names.1, names.2.1, names.2.2, ctype, ctypeFirst⟩
    · exact number _ _ (by decide) (by decide) (by decide)
    · split_ifs at cache
      · exact List.mem_singleton.mp cache ▸ fixed _ (by simp)
      · cases cache
    · split_ifs at retry
      · exact List.mem_singleton.mp retry ▸ number _ _ (by decide) (by decide) (by decide)
      · cases retry
    · split_ifs at allow
      · exact List.mem_singleton.mp allow ▸ fixed _ (by simp)
      · cases allow
    · exact sendable.formed.fields f kept

theorem routeHeaders_eq (sendable : Sendable rs cookies) :
    routeHeaders rs hdrMax = some (headOf rs cookies).text := by
  obtain ⟨flat, room⟩ := headerCalls_flatten sendable
  unfold routeHeaders
  rw [app_fold _ (by rw [List.nil_append]; exact room), List.nil_append, flat]

end Fields

/-! ## Sending -/

/-- The loop of `send_rsp` over what the reads of the file give. -/
def fileBytes : Nat → List (List UInt8) → List UInt8
  | _, [] => []
  | left, read :: reads =>
      if left = 0 then []
      else
        let got := read.take (min left 2048)
        if got = [] then [] else got ++ fileBytes (left - got.length) reads

/-- What `send_rsp` writes of an answer, to a peer that takes it all. -/
def offered (rs : HttpRsp) (reads : List (List UInt8)) : Option (List UInt8) :=
  match routeHeaders rs hdrMax with
  | none =>
      let e := HttpRsp.init.err 500 (ascii "hdr")
      (routeHeaders e hdrMax).map fun hdr => hdr ++ e.reply.rsp.body
  | some hdr =>
      some (hdr ++ match rs.file with
        | some size => fileBytes size reads
        | none => rs.reply.rsp.body)

/-- `send_rsp`: what the peer gets, that takes so many bytes before a write fails. -/
def sendRsp (rs : HttpRsp) (reads : List (List UInt8)) (room : Nat) : List UInt8 :=
  ((offered rs reads).getD []).take room

end RlxFw.Httpd
