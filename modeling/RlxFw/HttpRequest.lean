import RlxFw.Ascii
import Mathlib.Data.List.DropRight
import Mathlib.Data.List.Infix

/-!
# The request line and the headers

The small parsers of `src/httpd/http.c`: the target's path, the request line, the
cookies and the header lines.  A line is the list of its bytes, CRLF excluded.
-/

namespace RlxFw.Http

/-- `HTTP_REQLINE_MAX`. -/
def httpReqlineMax : Nat := 1024
/-- `HTTP_LINE_MAX`. -/
def httpLineMax : Nat := 1024
/-- `HTTP_HDR_LINES_MAX`. -/
def httpHdrLinesMax : Nat := 32
/-- `HTTP_HDR_BYTES_MAX`. -/
def httpHdrBytesMax : Nat := 4096
/-- `HTTP_BODY_MAX`. -/
def httpBodyMax : Nat := 4096
/-- `HTTP_PATH_MAX`. -/
def httpPathMax : Nat := 128
/-- `HTTP_NAME_MAX`. -/
def httpNameMax : Nat := 64
/-- `HTTP_UPLOAD_PATH`. -/
def httpUploadPath : List UInt8 := ascii "/api/firmware"
/-- `HTTP_UPLOAD_MAX`. -/
def httpUploadMax : Nat := 1179648

/-- `enum http_method`. -/
inductive HttpMethod where
  | none
  | get
  | post
deriving DecidableEq, Repr

/-- `struct http_req`.  A token is empty when it is absent. -/
structure HttpReq where
  method : HttpMethod
  verMinor : Nat
  pathlen : Nat
  /-- What has been written to the path's buffer. -/
  path : List UInt8
  hasClen : Bool
  chunked : Bool
  stream : Bool
  clen : Nat
  sess : List UInt8
  ccsrf : List UInt8
  hcsrf : List UInt8
  isJson : Bool
  bodyLen : Nat
  /-- The body's bytes received so far. -/
  body : List UInt8
deriving DecidableEq, Repr

/-- A refusal, with the status to answer. -/
abbrev Answer (α : Type) := Except Nat α

/-! ## Small helpers -/

/-- The fold of `ci_eq`. -/
def lower (c : UInt8) : UInt8 := if 0x41 ≤ c ∧ c ≤ 0x5A then c + 32 else c

/-- `ci_eq`. -/
def ciEq (a b : List UInt8) : Bool := a.map lower == b.map lower

/-- `hexdig`. -/
def hexdig (c : UInt8) : Option UInt8 :=
  if 0x30 ≤ c ∧ c ≤ 0x39 then some (c - 0x30)
  else if 0x61 ≤ c ∧ c ≤ 0x66 then some (c - 0x61 + 10)
  else if 0x41 ≤ c ∧ c ≤ 0x46 then some (c - 0x41 + 10)
  else none

/-- A space or a tab. -/
def isBlank (c : UInt8) : Bool := c == 0x20 || c == 0x09

/-! ## The path -/

/-- `path_byte_ok`. -/
def pathByteOk (c : UInt8) : Bool :=
  (0x41 ≤ c && c ≤ 0x5A) || (0x61 ≤ c && c ≤ 0x7A) || (0x30 ≤ c && c ≤ 0x39) ||
    c == 0x2F || c == 0x2E || c == 0x5F || c == 0x2D

/-- The variables of `http_decode_path`. -/
structure PathWalk where
  out : List UInt8
  seglen : Nat
  segstart : Nat
  nseg : Nat
deriving DecidableEq, Repr

/-- The segment is `.` or `..`. -/
def PathWalk.dots (w : PathWalk) : Prop :=
  (w.seglen = 1 ∧ byteAt w.out w.segstart = 0x2E) ∨
    (w.seglen = 2 ∧ byteAt w.out w.segstart = 0x2E ∧
      byteAt w.out (w.segstart + 1) = 0x2E)

instance (w : PathWalk) : Decidable w.dots := inferInstanceAs (Decidable (_ ∨ _))

/-- A byte of the path, after the percent is decoded. -/
def PathWalk.put (w : PathWalk) (cap : Nat) (c : UInt8) : PathWalk × Answer Unit :=
  if c = 0x2F then
    if w.seglen = 0 then (w, .error 400)
    else if w.dots then (w, .error 400)
    else if 2 < w.nseg + 1 then ({ w with nseg := w.nseg + 1 }, .error 400)
    else if cap ≤ w.out.length + 1 then
      ({ w with nseg := w.nseg + 1, seglen := 0 }, .error 414)
    else
      ({ out := w.out ++ [0x2F], seglen := 0, segstart := w.out.length + 1,
         nseg := w.nseg + 1 }, .ok ())
  else if cap ≤ w.out.length + 1 then (w, .error 414)
  else
    let w := { w with out := w.out ++ [c], seglen := w.seglen + 1 }
    if httpNameMax < w.seglen then (w, .error 414) else (w, .ok ())

/-- The end of the path: the last segment has no slash after it. -/
def PathWalk.finish (w : PathWalk) : PathWalk × Answer Unit :=
  if w.dots then (w, .error 400)
  else if w.seglen = 0 ∧ 1 < w.out.length then (w, .error 400)
  else if 0 < w.seglen ∧ 2 < w.nseg + 1 then (w, .error 400)
  else if ascii ".." <:+: w.out then (w, .error 400)
  else if ascii "//" <:+: w.out then (w, .error 400)
  else (w, .ok ())

/-- The loop of `http_decode_path`. -/
def decodeFrom (cap : Nat) (w : PathWalk) : List UInt8 → PathWalk × Answer Unit
  | [] => w.finish
  | c :: rest =>
      -- the query is not part of the path
      if c = 0x3F then w.finish
      else if c = 0x25 then
        match rest with
        | h :: l :: rest =>
            match hexdig h, hexdig l with
            | some h, some l =>
                let c := (h <<< 4) ||| l
                if c = 0 then (w, .error 400)
                else if c = 0x2F ∨ c = 0x5C ∨ c = 0x25 then (w, .error 400)
                else if pathByteOk c then
                  match w.put cap c with
                  | (w, .ok ()) => decodeFrom cap w rest
                  | refused => refused
                else (w, .error 400)
            | _, _ => (w, .error 400)
        | _ => (w, .error 400)
      else if pathByteOk c then
        match w.put cap c with
        | (w, .ok ()) => decodeFrom cap w rest
        | refused => refused
      else (w, .error 400)

/-- `http_decode_path`: what was written, and its length or the refusal. -/
def httpDecodePath (target : List UInt8) (cap : Nat) : List UInt8 × Answer Nat :=
  if cap < 2 then ([], .error 500)
  else
    match target with
    | [] => ([], .error 400)
    | c :: rest =>
        if c ≠ 0x2F then ([], .error 400)
        else
          let w := { out := [0x2F], seglen := 0, segstart := 1, nseg := 0 }
          match decodeFrom cap w rest with
          | (w, .ok ()) => (w.out, .ok w.out.length)
          | (w, .error status) => (w.out, .error status)

/-! ## The request line -/

/-- Not a space. -/
def notSpace (c : UInt8) : Bool := c != 0x20

/-- `parse_reqline`. -/
def parseReqline (r : HttpReq) (s : List UInt8) : HttpReq × Answer Unit :=
  let method := s.takeWhile notSpace
  match s.dropWhile notSpace with
  | [] => (r, .error 400)
  | _ :: s =>
  let target := s.takeWhile notSpace
  match s.dropWhile notSpace with
  | [] => (r, .error 400)
  | _ :: version =>
  if version.length ≠ 8 then (r, .error 400)
  else if version.take 7 ≠ ascii "HTTP/1." then
    if version.take 5 = ascii "HTTP/" then (r, .error 505) else (r, .error 400)
  else if byteAt version 7 ≠ 0x30 ∧ byteAt version 7 ≠ 0x31 then (r, .error 505)
  else
    let r := { r with verMinor := if byteAt version 7 = 0x30 then 0 else 1 }
    if method ≠ ascii "GET" ∧ method ≠ ascii "POST" then
      if method.length = 0 then (r, .error 400) else (r, .error 405)
    else
      let r := { r with method := if method = ascii "GET" then .get else .post }
      if target.length = 0 then (r, .error 400)
      else if httpReqlineMax < target.length then (r, .error 414)
      else
        match httpDecodePath target httpPathMax with
        | (path, .error status) => ({ r with path }, .error status)
        | (path, .ok pathlen) =>
            let r := { r with path, pathlen }
            if r.method = .post ∧ r.path = httpUploadPath then
              ({ r with stream := true }, .ok ())
            else (r, .ok ())

/-! ## The headers -/

/-- `take_tok32`. -/
def takeTok32 (val : List UInt8) : List UInt8 :=
  if val.length ≠ 32 then []
  else if val.all fun c => (hexdig c).isSome then val
  else []

/-- What `parse_cookie` skips before a name. -/
def cookieGap (c : UInt8) : Bool := isBlank c || c == 0x3B

/-- A byte of a cookie's name. -/
def cookieName (c : UInt8) : Bool := c != 0x3D && c != 0x3B

/-- A byte of a cookie's value. -/
def cookieValue (c : UInt8) : Bool := c != 0x3B

/-- A cookie that is looked for is kept. -/
def keepCookie (r : HttpReq) (key value : List UInt8) : HttpReq :=
  if key = ascii "rlxs" then { r with sess := takeTok32 value }
  else if key = ascii "rlxc" then { r with ccsrf := takeTok32 value }
  else r

/-- A name, and what comes after it, is shorter than what it is read from. -/
theorem cookie_shorter {v rest : List UInt8} {c d : UInt8} {after : List UInt8}
    (skipped : v.dropWhile cookieGap = c :: rest)
    (named : (c :: rest).dropWhile cookieName = d :: after) :
    after.length < v.length ∧ (d ≠ 0x3D → (d :: after).length < v.length) := by
  have short : (c :: rest).length ≤ v.length :=
    skipped ▸ (List.dropWhile_suffix _).length_le
  have left : (d :: after).length ≤ (c :: rest).length :=
    named ▸ (List.dropWhile_suffix _).length_le
  refine ⟨lt_of_lt_of_le (Nat.lt_succ_self _) (left.trans short), fun other => ?_⟩
  by_cases name : cookieName c = true
  · rw [List.dropWhile_cons_of_pos name] at named
    have less : (d :: after).length ≤ rest.length :=
      named ▸ (List.dropWhile_suffix _).length_le
    exact lt_of_le_of_lt less (lt_of_lt_of_le (Nat.lt_succ_self _) short)
  · -- the name is empty: its first byte ends it, and it is no gap
    rw [List.dropWhile_cons_of_neg name] at named
    cases named
    have gap : ¬ cookieGap c = true := by
      have head := List.head_dropWhile_not cookieGap (l := v) (by simp [skipped])
      simpa [skipped] using head
    simp [cookieName, cookieGap, other] at name gap
    exact absurd name gap.2

/-- `parse_cookie`. -/
def parseCookie (r : HttpReq) (v : List UInt8) : HttpReq :=
  match _skipped : v.dropWhile cookieGap with
  | [] => r
  | c :: rest =>
      let key := (c :: rest).takeWhile cookieName
      match _named : (c :: rest).dropWhile cookieName with
      | [] => r
      | d :: after =>
          if _other : d ≠ 0x3D then parseCookie r (d :: after)
          else
            parseCookie (keepCookie r key (after.takeWhile cookieValue))
              (after.dropWhile cookieValue)
termination_by v.length
decreasing_by
  · exact (cookie_shorter _skipped _named).2 _other
  · exact lt_of_le_of_lt (List.dropWhile_suffix _).length_le
      (cookie_shorter _skipped _named).1

/-- The loop of `parse_u32_strict`. -/
def parseU32From (v : Nat) : List UInt8 → Option Nat
  | [] => some v
  | c :: rest =>
      if c < 0x30 ∨ 0x39 < c then none
      else
        let d := (c - 0x30).toNat
        if 429496729 < v ∨ (v = 429496729 ∧ 5 < d) then none
        else parseU32From (v * 10 + d) rest

/-- `parse_u32_strict`. -/
def parseU32Strict (s : List UInt8) : Option Nat :=
  if s.length = 0 ∨ 10 < s.length then none else parseU32From 0 s

/-- `enum http_state`. -/
inductive HttpState where
  | reqline
  | headers
  | body
  | done
  | err
  | stream
deriving DecidableEq, Repr

/-- `struct http_parser`, with the request that it fills. -/
structure HttpParser where
  state : HttpState
  sawCr : Bool
  nhdr : Nat
  hdrbytes : Nat
  bodygot : Nat
  /-- The status to answer with on refusal. -/
  status : Nat
  seenClen : Bool
  seenTe : Bool
  seenCookie : Bool
  seenCsrf : Bool
  seenCtype : Bool
  line : List UInt8
  r : HttpReq
deriving DecidableEq, Repr

/-- The headers that are read. -/
inductive HeaderName where
  | contentLength
  | transferEncoding
  | cookie
  | csrf
  | contentType
deriving DecidableEq, Repr

/-- The names in `parse_header`. -/
def headerName (name : List UInt8) : Option HeaderName :=
  if ciEq name (ascii "content-length") then some .contentLength
  else if ciEq name (ascii "transfer-encoding") then some .transferEncoding
  else if ciEq name (ascii "cookie") then some .cookie
  else if ciEq name (ascii "x-rlx-csrf") then some .csrf
  else if ciEq name (ascii "content-type") then some .contentType
  else none

/-- The header's `Content-Length`. -/
def contentLength (ps : HttpParser) (value : List UInt8) : HttpParser × Answer Unit :=
  if ps.seenClen then (ps, .error 400)
  else
    let ps := { ps with seenClen := true }
    match parseU32Strict value with
    | none => (ps, .error 400)
    | some v =>
        if (if ps.r.stream then httpUploadMax else httpBodyMax) < v then (ps, .error 413)
        else ({ ps with r := { ps.r with hasClen := true, clen := v } }, .ok ())

/-- `parse_header`. -/
def parseHeader (ps : HttpParser) : HttpParser × Answer Unit :=
  let s := ps.line
  if (s.head?.any isBlank) then (ps, .error 400)
  else
    let name := s.takeWhile fun c => c != 0x3A
    match s.dropWhile fun c => c != 0x3A with
    | [] => (ps, .error 400)
    | _ :: after =>
    if name.length = 0 then (ps, .error 400)
    else
    let value := (after.dropWhile isBlank).rdropWhile isBlank
    -- a name we cannot hold is not ours
    if 64 ≤ name.length then (ps, .ok ())
    else
      match headerName name with
      | some .contentLength => contentLength ps value
      | some .transferEncoding =>
          if ps.seenTe then (ps, .error 400)
          else ({ ps with seenTe := true, r := { ps.r with chunked := true } }, .error 501)
      | some .cookie =>
          if ps.seenCookie then (ps, .error 400)
          else ({ ps with seenCookie := true, r := parseCookie ps.r value }, .ok ())
      | some .csrf =>
          if ps.seenCsrf then (ps, .error 400)
          else
            ({ ps with seenCsrf := true, r := { ps.r with hcsrf := takeTok32 value } },
              .ok ())
      | some .contentType =>
          if ps.seenCtype then (ps, .error 400)
          else
            let ps := { ps with seenCtype := true }
            if value.take 16 = ascii "application/json" then
              ({ ps with r := { ps.r with isJson := true } }, .ok ())
            else (ps, .ok ())
      | none => (ps, .ok ())

/-- `end_of_headers`: what `http_feed` returns, zero to go on. -/
def endOfHeaders (ps : HttpParser) : HttpParser × Answer Nat :=
  let r := ps.r
  if r.chunked then (ps, .error 501)
  else if r.method = .post then
    if ¬ r.hasClen then (ps, .error 411)
    else if r.stream then
      if httpUploadMax < r.clen then (ps, .error 413)
      else ({ ps with state := .stream }, .ok 2)
    else if httpBodyMax < r.clen then (ps, .error 413)
    else if r.clen = 0 then ({ ps with state := .done }, .ok 1)
    else ({ ps with state := .body }, .ok 0)
  else if r.hasClen ∧ r.clen ≠ 0 then (ps, .error 400)
  else ({ ps with state := .done }, .ok 1)

end RlxFw.Http
