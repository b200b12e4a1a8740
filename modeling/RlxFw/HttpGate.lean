import RlxFw.HttpHistory
import RlxFw.HttpRoutes
import Mathlib.Data.List.GetD

/-!
# The gate of the routes

The route table of `src/httpd/routes.c` and the checks every handler runs behind:
`route_gate`, and its two callers, `route_dispatch` for a buffered request and
`route_stream_gate` for the upload.
-/

namespace RlxFw.Httpd

open Http

/-! ## The table -/

/-- The handlers of the table. -/
inductive Handler where
  | index
  | static
  | status
  | login
  | logout
  | configGet
  | configSet
  | password
  | ping
  | reboot
  | firmware
deriving DecidableEq, Repr

/-- `struct route`, with a field for each flag. -/
structure Route where
  path : List UInt8
  /-- `RF_GET`. -/
  get : Bool := false
  /-- `RF_POST`. -/
  post : Bool := false
  /-- `RF_API`. -/
  api : Bool := false
  /-- `RF_SESS`. -/
  sess : Bool := false
  /-- `RF_CSRF`. -/
  csrf : Bool := false
  /-- `RF_PFX`. -/
  pfx : Bool := false
  /-- `RF_STREAM`. -/
  stream : Bool := false
  fn : Handler
deriving DecidableEq, Repr

/-- `routes`. -/
def routes : List Route :=
  [{ path := ascii "/", get := true, fn := .index },
    { path := ascii "/static/", get := true, pfx := true, fn := .static },
    { path := ascii "/api/status", get := true, api := true, fn := .status },
    { path := ascii "/api/login", post := true, api := true, fn := .login },
    { path := ascii "/api/logout", post := true, api := true, sess := true, csrf := true
      fn := .logout },
    { path := ascii "/api/config", get := true, api := true, sess := true
      fn := .configGet },
    { path := ascii "/api/config", post := true, api := true, sess := true, csrf := true
      fn := .configSet },
    { path := ascii "/api/password", post := true, api := true, sess := true, csrf := true
      fn := .password },
    { path := ascii "/api/ping", post := true, api := true, sess := true, csrf := true
      fn := .ping },
    { path := ascii "/api/reboot", post := true, api := true, sess := true, csrf := true
      fn := .reboot },
    { path := httpUploadPath, post := true, api := true, sess := true, csrf := true
      stream := true, fn := .firmware }]

/-- The path is the row's, or begins with it. -/
def Route.matchesPath (row : Route) (path : List UInt8) : Bool :=
  if row.pfx then row.path.isPrefixOf path else path == row.path

/-- The row takes the method; what is no GET is taken for a POST. -/
def Route.allows (row : Route) (method : HttpMethod) : Bool :=
  if method = .get then row.get else row.post

/-! ## The gate -/

/-- What the gate fills in of `struct http_rsp`. -/
structure Reply where
  rsp : Rsp
  allowGetPost : Bool
deriving DecidableEq, Repr

/-- `route_rsp_init`. -/
def Reply.init : Reply := { rsp := routeRspInit, allowGetPost := false }

/-- `route_err`. -/
def Reply.err (rs : Reply) (status : Nat) (code : List UInt8) : Reply :=
  { rs with rsp := routeErr rs.rsp status code }

/-- The answer is not to be stored. -/
def Reply.nostore (rs : Reply) : Reply := { rs with rsp := { rs.rsp with nostore := true } }

/-- `route_ct_eq32`. -/
def routeCtEq32 (a b : List UInt8) : Bool :=
  (List.range 32).foldl (fun acc i => acc ||| (byteAt a i ^^^ byteAt b i)) 0 == 0

/-- The loop of `route_gate` over the table: whether the path was found, and the
first row that takes the method as well. -/
def lookup (rq : HttpReq) (pathFound : Bool) : List Route → Bool × Option Route
  | [] => (pathFound, none)
  | row :: rows =>
      if row.matchesPath rq.path then
        if row.allows rq.method then (true, some row) else lookup rq true rows
      else lookup rq pathFound rows

/-- `route_gate`: the answer so far, and the row when the request passes. -/
def routeGate (rq : HttpReq) (rs : Reply) (blen : Nat) : Reply × Option Route :=
  match lookup rq false routes with
  | (pathFound, none) =>
      if pathFound then ({ rs with allowGetPost := true }.err 405 (ascii "method"), none)
      else (rs.err 404 (ascii "notfound"), none)
  | (_, some r) =>
      let rs := if r.api then rs.nostore else rs
      if r.sess ∧ byteAt rq.sess 0 = 0 then
        ((rs.err 401 (ascii "nosession")).nostore, none)
      else if r.csrf ∧ (byteAt rq.hcsrf 0 = 0 ∨ byteAt rq.ccsrf 0 = 0 ∨
          ¬ routeCtEq32 rq.hcsrf rq.ccsrf) then
        ((rs.err 403 (ascii "csrf")).nostore, none)
      else if r.post ∧ rq.method = .post ∧ r.api ∧ blen = 0 then
        ((rs.err 400 (ascii "nobody")).nostore, none)
      else (rs, some r)

/-- What `route_dispatch` did: the handler's row if one was called, and the
answer. -/
structure Dispatched where
  called : Option Route
  reply : Reply
deriving DecidableEq, Repr

/-- `route_dispatch`, given what the handlers do with a request and an answer. -/
def routeDispatch (handle : Handler → HttpReq → Reply → Reply) (rq : HttpReq) :
    Dispatched :=
  match routeGate rq .init rq.bodyLen with
  | (rs, none) => { called := none, reply := rs }
  | (rs, some r) =>
      let rs := handle r.fn rq rs
      { called := some r, reply := if r.api then rs.nostore else rs }

/-- `route_stream_gate`: the answer, and whether the upload may begin. -/
def routeStreamGate (rq : HttpReq) : Reply × Bool :=
  match routeGate rq .init rq.clen with
  | (rs, none) => (rs, false)
  | (rs, some r) =>
      if r.stream = false ∨ rq.stream = false then
        ((rs.err 500 (ascii "stream")).nostore, false)
      else (rs, true)

/-! ## What passes -/

theorem lookup_eq_find (rq : HttpReq) (pathFound : Bool) (rows : List Route) :
    (lookup rq pathFound rows).2 =
      rows.find? fun row => row.matchesPath rq.path && row.allows rq.method := by
  induction rows generalizing pathFound with
  | nil => rfl
  | cons row rows ih =>
      rw [lookup, List.find?_cons]
      cases row.matchesPath rq.path <;> cases row.allows rq.method <;> simp [ih]

theorem foldl_or_eq_zero (differs : Nat → UInt8) (places : List Nat) (acc : UInt8) :
    places.foldl (fun acc i => acc ||| differs i) acc = 0 ↔
      acc = 0 ∧ ∀ i ∈ places, differs i = 0 := by
  have zero (x y : UInt8) : x ||| y = 0 ↔ x = 0 ∧ y = 0 := by
    rw [← UInt8.toBitVec_inj, ← UInt8.toBitVec_inj (a := x), ← UInt8.toBitVec_inj (a := y)]
    exact BitVec.or_eq_zero_iff
  induction places generalizing acc with
  | nil => simp
  | cons i places ih =>
      rw [List.foldl_cons]
      refine (ih _).trans ?_
      rw [zero, List.forall_mem_cons, and_assoc]

/-- Bytes that are compared all together are compared one by one. -/
theorem routeCtEq32_iff {a b : List UInt8} (first : a.length = 32) (second : b.length = 32) :
    routeCtEq32 a b = true ↔ a = b := by
  unfold routeCtEq32
  rw [beq_iff_eq, foldl_or_eq_zero]
  constructor
  · rintro ⟨-, same⟩
    refine List.ext_getElem (first.trans second.symm) fun i inA inB => ?_
    have here := same i (List.mem_range.mpr (first ▸ inA))
    rw [UInt8.xor_eq_zero_iff, byteAt, byteAt, List.getD_eq_getElem _ _ inA,
      List.getD_eq_getElem _ _ inB] at here
    exact here
  · rintro rfl
    exact ⟨rfl, fun i _ => UInt8.xor_self⟩

/-- What a row's handler runs behind. -/
structure Admitted (rq : HttpReq) (row : Route) : Prop where
  first : (routes.find? fun row => row.matchesPath rq.path && row.allows rq.method) =
    some row
  session : row.sess = true → Token rq.sess
  csrf : row.csrf = true → Token rq.hcsrf ∧ Token rq.ccsrf ∧ rq.hcsrf = rq.ccsrf
  stream : row.stream = true ↔ rq.stream = true

/-- The tokens of a request are absent or well formed. -/
structure TokensFormed (rq : HttpReq) : Prop where
  sess : rq.sess = [] ∨ Token rq.sess
  hcsrf : rq.hcsrf = [] ∨ Token rq.hcsrf
  ccsrf : rq.ccsrf = [] ∨ Token rq.ccsrf

/-- The streaming row is the one of a request that is marked so. -/
theorem stream_iff {rq : HttpReq} (marked : Marked rq) {row : Route}
    (first : (routes.find? fun row => row.matchesPath rq.path && row.allows rq.method) =
      some row) : row.stream = true ↔ rq.stream = true := by
  rw [marked.stream]
  constructor
  · intro stream
    have only : ∀ row ∈ routes, row.stream = true →
        row.path = httpUploadPath ∧ row.pfx = false ∧ row.get = false := by
      decide
    obtain ⟨path, whole, noGet⟩ := only row (List.mem_of_find?_eq_some first) stream
    have found := List.find?_some first
    rw [Bool.and_eq_true, Route.matchesPath, whole, if_neg (by decide), path,
      Route.allows, noGet] at found
    refine ⟨?_, beq_iff_eq.mp found.1⟩
    cases method : rq.method with
    | none => exact absurd method marked.method
    | get =>
        rw [method, if_pos rfl] at found
        exact absurd found.2 (by decide)
    | post => rfl
  · rintro ⟨method, path⟩
    rw [method, path] at first
    have only : (routes.find? fun row => row.matchesPath httpUploadPath &&
        row.allows .post).all Route.stream = true := by
      decide
    rw [first] at only
    exact only

/-- An absent token begins with a NUL, and a token does not. -/
theorem token_of_first {tok : List UInt8} (formed : tok = [] ∨ Token tok)
    (present : byteAt tok 0 ≠ 0) : Token tok := by
  rcases formed with rfl | token
  · exact absurd rfl present
  · exact token

/-- A request that passes went through every check of its row. -/
theorem routeGate_some {rq : HttpReq} (formed : TokensFormed rq) (marked : Marked rq)
    {rs rs' : Reply} {blen : Nat} {row : Route}
    (passed : routeGate rq rs blen = (rs', some row)) : Admitted rq row := by
  have found := lookup_eq_find rq false routes
  unfold routeGate at passed
  split at passed
  · split at passed <;> cases passed
  next r looked =>
  rw [looked] at found
  dsimp only at passed
  split at passed
  · cases passed
  next session =>
  split at passed
  · cases passed
  next csrf =>
  split at passed
  · cases passed
  obtain rfl : r = row := Option.some_inj.mp (congrArg Prod.snd passed)
  refine ⟨found.symm, fun needed => ?_, fun needed => ?_, stream_iff marked found.symm⟩
  · exact token_of_first formed.sess fun absent => session ⟨needed, absent⟩
  · obtain ⟨header, cookie, same⟩ : byteAt rq.hcsrf 0 ≠ 0 ∧ byteAt rq.ccsrf 0 ≠ 0 ∧
        routeCtEq32 rq.hcsrf rq.ccsrf = true := by
      simpa only [needed, true_and, not_or, not_not, ne_eq] using csrf
    have first := token_of_first formed.hcsrf header
    have second := token_of_first formed.ccsrf cookie
    exact ⟨first, second, (routeCtEq32_iff first.1 second.1).mp same⟩

/-! ## Requests as they are parsed -/

/-- The parser after the reads of a connection. -/
def parser (reads : List (List UInt8)) : HttpParser := (httpFeedAll httpParseInit 0 0 reads).1

/-- What the last `http_feed` of the reads returned. -/
def feedCode (reads : List (List UInt8)) : Int := (httpFeedAll httpParseInit 0 0 reads).2.1

/-- The bytes that the parser took of the reads. -/
def taken (reads : List (List UInt8)) : List UInt8 :=
  reads.flatten.take (httpFeedAll httpParseInit 0 0 reads).2.2

theorem parser_eq_run (reads : List (List UInt8)) :
    parser reads = (httpStepper.run httpParseInit reads.flatten).1 ∧
      feedCode reads = (httpStepper.run httpParseInit reads.flatten).1.code ∧
      taken reads =
        reads.flatten.take (httpStepper.run httpParseInit reads.flatten).2 := by
  have all := httpFeedAll_eq_run sound_httpParseInit 0 (rfl : (0 : Int) = _) reads
  rw [Nat.zero_add] at all
  unfold parser feedCode taken
  rw [all]
  exact ⟨rfl, rfl, rfl⟩

/-- The history of the parser after the reads. -/
theorem fed_reads (reads : List (List UInt8)) : Fed (taken reads) (parser reads) := by
  obtain ⟨isRun, -, isTaken⟩ := parser_eq_run reads
  rw [isRun, isTaken]
  exact fed_run reads.flatten

/-- A request is whole when the parser is past its lines. -/
theorem past_of_code {reads : List (List UInt8)} (whole : feedCode reads = 1 ∨ feedCode reads = 2) :
    Past (taken reads) (parser reads) ∧
      (feedCode reads = 2 ↔ (parser reads).state = .stream) := by
  obtain ⟨isRun, isCode, -⟩ := parser_eq_run reads
  rw [← isRun] at isCode
  have fed := fed_reads reads
  rw [isCode] at whole ⊢
  unfold HttpParser.code at whole ⊢
  cases state : (parser reads).state <;> rw [state] at whole <;> dsimp only at whole ⊢
  case done => exact ⟨(fed_past (Or.inr (Or.inl state))).mp fed, by decide, by decide⟩
  case stream => exact ⟨(fed_past (Or.inr (Or.inr state))).mp fed, by decide, by decide⟩
  all_goals omega

/-- The tokens of a request are those of its header lines, one line of each name at
most. -/
structure TokensOf (heads : List (List UInt8)) (rq : HttpReq) : Prop where
  cookieOnce : (heads.filter isCookie).length ≤ 1
  csrfOnce : (heads.filter isCsrf).length ≤ 1
  sess : rq.sess = cookieToken (ascii "rlxs") (soleValue (heads.filter isCookie))
  ccsrf : rq.ccsrf = cookieToken (ascii "rlxc") (soleValue (heads.filter isCookie))
  hcsrf : rq.hcsrf = takeTok32 (soleValue (heads.filter isCsrf))

theorem tokensOf_kept {heads : List (List UInt8)} {ps : HttpParser} (kept : Kept heads ps) :
    TokensOf heads ps.r :=
  ⟨kept.cookieOnce, kept.csrfOnce, kept.sess, kept.ccsrf, kept.hcsrf⟩

theorem TokensOf.formed {heads : List (List UInt8)} {rq : HttpReq}
    (tokens : TokensOf heads rq) : TokensFormed rq where
  sess := tokens.sess ▸ cookieToken_cases _ _
  hcsrf := tokens.hcsrf ▸ takeTok32_cases _
  ccsrf := tokens.ccsrf ▸ cookieToken_cases _ _

/-- A header line that names a token an earlier line named. -/
def Second (heads : List (List UInt8)) (line : List UInt8) : Prop :=
  (isCookie line = true ∧ heads.any isCookie = true) ∨
    (isCsrf line = true ∧ heads.any isCsrf = true)

/-- What the gate promises of a connection's reads. -/
structure ApiGate (handle : Handler → HttpReq → Reply → Reply)
    (reads : List (List UInt8)) : Prop where
  /-- A handler is called behind its row's checks, and never the upload's. -/
  dispatch : feedCode reads = 1 → ∀ row,
    (routeDispatch handle (parser reads).r).called = some row →
      Admitted (parser reads).r row ∧ row.stream = false
  /-- An upload begins behind the checks of the streaming row. -/
  stream : feedCode reads = 2 → (routeStreamGate (parser reads).r).2 = true →
    ∃ row, Admitted (parser reads).r row ∧ row.stream = true
  /-- The tokens are those of the request's header lines. -/
  tokens : feedCode reads = 1 ∨ feedCode reads = 2 → ∃ reqline heads body,
    taken reads = wire reqline heads ++ crlf ++ body ∧ Lines reqline heads ∧
      TokensOf heads (parser reads).r
  /-- A second such line, within the parser's limits, makes it a 400. -/
  second : (parser reads).state = .headers → (parser reads).partLine = [] →
    ∃ reqline heads, reads.flatten = wire reqline heads ∧ Lines reqline heads ∧
      ∀ line rest, Second heads line → LineFits (parser reads) line → Plain line →
        (0 : UInt8) ∉ line →
          feedCode (reads ++ [line ++ (crlf ++ rest)]) = -400

theorem dispatch_called {handle : Handler → HttpReq → Reply → Reply} {rq : HttpReq}
    {row : Route} (called : (routeDispatch handle rq).called = some row) :
    ∃ rs, routeGate rq .init rq.bodyLen = (rs, some row) := by
  unfold routeDispatch at called
  split at called
  · cases called
  next rs r passed =>
  cases called
  exact ⟨rs, passed⟩

theorem stream_passed {rq : HttpReq} (passes : (routeStreamGate rq).2 = true) :
    ∃ rs row, routeGate rq .init rq.clen = (rs, some row) ∧ row.stream = true := by
  unfold routeStreamGate at passes
  split at passes
  · cases passes
  next rs r passed =>
  split at passes
  · cases passes
  next streams =>
  refine ⟨rs, r, passed, ?_⟩
  cases stream : r.stream with
  | false => exact absurd (Or.inl stream) streams
  | true => rfl

/-- The bytes of reads that end inside the lines were all taken. -/
theorem taken_going {reads : List (List UInt8)} (later : (parser reads).state = .headers) :
    taken reads = reads.flatten := by
  obtain ⟨isRun, -, isTaken⟩ := parser_eq_run reads
  have going : httpStepper.halted (httpStepper.run httpParseInit reads.flatten).1 = false := by
    rw [← isRun]
    change (parser reads).halted = false
    simp [HttpParser.halted, later]
  rw [isTaken, httpStepper.run_taken going, List.take_length]

/-- Every request passes the gate before its handler. -/
theorem api_gate (handle : Handler → HttpReq → Reply → Reply) (reads : List (List UInt8)) :
    ApiGate handle reads where
  dispatch := by
    intro whole row called
    obtain ⟨⟨reqline, heads, body, -, -, kept, marked, streams⟩, isStream⟩ :=
      past_of_code (Or.inl whole)
    obtain ⟨rs, passed⟩ := dispatch_called called
    have admitted := routeGate_some (tokensOf_kept kept).formed marked passed
    refine ⟨admitted, Bool.eq_false_iff.mpr fun stream => ?_⟩
    have code := isStream.mpr (streams.mpr (admitted.stream.mp stream))
    rw [whole] at code
    exact absurd code (by decide)
  stream := by
    intro whole passes
    obtain ⟨⟨reqline, heads, body, -, -, kept, marked, -⟩, -⟩ := past_of_code (Or.inr whole)
    obtain ⟨rs, row, passed, stream⟩ := stream_passed passes
    exact ⟨row, routeGate_some (tokensOf_kept kept).formed marked passed, stream⟩
  tokens := by
    intro whole
    obtain ⟨⟨reqline, heads, body, isTaken, lines, kept, -, -⟩, -⟩ := past_of_code whole
    exact ⟨reqline, heads, body, isTaken, lines, tokensOf_kept kept⟩
  second := by
    intro later boundary
    obtain ⟨reqline, heads, isTaken, lines, -, kept, -⟩ :=
      (fed_headers later).mp (fed_reads reads)
    rw [boundary, List.append_nil, taken_going later] at isTaken
    refine ⟨reqline, heads, isTaken, lines, ?_⟩
    intro line rest second fits plain noNul
    obtain ⟨noLine, noCr⟩ := List.append_eq_nil_iff.mp boundary
    have unseen : (parser reads).sawCr = false := by
      cases saw : (parser reads).sawCr with
      | false => rfl
      | true =>
          rw [saw] at noCr
          cases noCr
    obtain ⟨isRun, -, -⟩ := parser_eq_run reads
    obtain ⟨-, isCode, -⟩ := parser_eq_run (reads ++ [line ++ (crlf ++ rest)])
    rw [isCode, List.flatten_append, List.flatten_singleton, httpStepper.run_append,
      ← isRun]
    refine run_second later unseen noLine fits plain noNul ?_ rest
    rw [kept.seenCookie, kept.seenCsrf]
    exact second

end RlxFw.Httpd
