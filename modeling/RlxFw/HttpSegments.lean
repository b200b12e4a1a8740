import RlxFw.HttpRequest
import RlxFw.Segments

/-!
# The request parser

`http_feed` of `src/httpd/http.c`: the request line and the headers byte after
byte, the body by runs, from a stream that arrives in any pieces.
-/

namespace RlxFw.Http

/-- `http_parse_init`. -/
def httpParseInit : HttpParser where
  state := .reqline
  sawCr := false
  nhdr := 0
  hdrbytes := 0
  bodygot := 0
  status := 400
  seenClen := false
  seenTe := false
  seenCookie := false
  seenCsrf := false
  seenCtype := false
  line := []
  r :=
    { method := .none, verMinor := 0, pathlen := 0, path := [], hasClen := false
      chunked := false, stream := false, clen := 0, sess := [], ccsrf := []
      hcsrf := [], isJson := false, bodyLen := 0, body := [] }

/-- Refused: the parser, and what `http_feed` returns. -/
def HttpParser.refuse (ps : HttpParser) (status : Nat) : HttpParser × Option Int :=
  ({ ps with state := .err, status }, some (-status))

/-- A complete line is in the parser. -/
def lineEnd (ps : HttpParser) : HttpParser × Option Int :=
  let ps := { ps with hdrbytes := ps.hdrbytes + (ps.line.length + 2) }
  if ps.state = .reqline then
    match parseReqline ps.r ps.line with
    | (r, .error status) => { ps with r }.refuse status
    | (r, .ok ()) => ({ ps with r, state := .headers, line := [] }, none)
  else if httpHdrBytesMax < ps.hdrbytes then ps.refuse 431
  else if ps.line.length = 0 then
    match endOfHeaders ps with
    | (ps, .error status) => ps.refuse status
    | (ps, .ok 0) => (ps, none)
    | (ps, .ok (rc + 1)) => (ps, some (rc + 1))
  else
    let ps := { ps with nhdr := ps.nhdr + 1 }
    if httpHdrLinesMax < ps.nhdr then ps.refuse 431
    else
      match parseHeader ps with
      | (ps, .error status) => ps.refuse status
      | (ps, .ok ()) => ({ ps with line := [] }, none)

/-- A byte of the request line or of the headers. -/
def lineByte (ps : HttpParser) (c : UInt8) : HttpParser × Option Int :=
  if ps.sawCr then
    let ps := { ps with sawCr := false }
    if c ≠ 0x0A then ps.refuse 400 else lineEnd ps
  else if c = 0x0D then ({ ps with sawCr := true }, none)
  else if c = 0x0A then ps.refuse 400
  else if c = 0 then ps.refuse 400
  else if (if ps.state = .reqline then httpReqlineMax else httpLineMax) ≤
      ps.line.length then
    ps.refuse (if ps.state = .reqline then 414 else 431)
  else if ps.state ≠ .reqline ∧
      httpHdrBytesMax < ps.hdrbytes + ps.line.length + 2 then
    ps.refuse 431
  else ({ ps with line := ps.line ++ [c] }, none)

/-- A run of the body, `i` bytes into the piece. -/
def bodyBytes (ps : HttpParser) (i : Nat) (rest : List UInt8) :
    HttpParser × Int × Nat :=
  let want := ps.r.clen - ps.bodygot
  let take := min rest.length want
  if httpBodyMax < ps.bodygot + take then
    ({ ps with state := .err, status := 413 }, -413, i)
  else
    let ps :=
      { ps with
        bodygot := ps.bodygot + take
        r := { ps.r with body := ps.r.body ++ rest.take take } }
    if ps.bodygot = ps.r.clen then
      ({ ps with state := .done, r := { ps.r with bodyLen := ps.bodygot } }, 1, i + take)
    -- fewer than wanted: the whole piece was taken and the loop ends
    else (ps, 0, i + take)

/-- The loop of `http_feed`, `i` bytes into the piece. -/
def feedFrom (ps : HttpParser) (i : Nat) : List UInt8 → HttpParser × Int × Nat
  | [] => (ps, 0, i)
  | c :: rest =>
      if ps.state = .body then bodyBytes ps i (c :: rest)
      else
        match lineByte ps c with
        | (ps, some rc) => (ps, rc, i + 1)
        | (ps, none) => feedFrom ps (i + 1) rest

/-- `http_feed`: the parser, what it returns and `*used`. -/
def httpFeed (ps : HttpParser) (p : List UInt8) : HttpParser × Int × Nat :=
  match ps.state with
  | .err => (ps, -ps.status, 0)
  | .done => (ps, 1, 0)
  | .stream => (ps, 2, 0)
  | _ => feedFrom ps 0 p

/-- `http_parse_all`: an incomplete request is refused. -/
def httpParseAll (p : List UInt8) : HttpReq × Int :=
  let (ps, rc, _) := httpFeed httpParseInit p
  (ps.r, if rc = 0 then -400 else rc)

/-- A caller that reads piece after piece: the parser, what the last call returned,
and the bytes consumed in all. -/
def httpFeedAll (ps : HttpParser) (rc : Int) (used : Nat) :
    List (List UInt8) → HttpParser × Int × Nat
  | [] => (ps, rc, used)
  | piece :: pieces =>
      httpFeedAll (httpFeed ps piece).1 (httpFeed ps piece).2.1
        (used + (httpFeed ps piece).2.2) pieces

/-! ## The bounds -/

/-- What holds of the parser in every state. -/
structure HttpParser.Sound (ps : HttpParser) : Prop where
  line : ps.line.length ≤ httpLineMax
  stored : ps.r.body.length = ps.bodygot
  declared : ps.bodygot ≤ ps.r.clen
  fits : ps.bodygot ≤ httpBodyMax
  before : ps.state = .reqline ∨ ps.state = .headers → ps.bodygot = 0
  inBody : ps.state = .body → ps.bodygot < ps.r.clen ∧ ps.r.clen ≤ httpBodyMax

/-- The parser takes no more bytes. -/
def HttpParser.halted (ps : HttpParser) : Bool :=
  ps.state == .done || ps.state == .err || ps.state == .stream

/-- What a call answers in a state. -/
def HttpParser.code (ps : HttpParser) : Int :=
  match ps.state with
  | .err => -ps.status
  | .done => 1
  | .stream => 2
  | _ => 0

/-- The parser as a machine that takes byte after byte. -/
def httpStepper : Stepper HttpParser UInt8 where
  halted := HttpParser.halted
  step ps b := (httpFeed ps [b]).1

theorem sound_httpParseInit : httpParseInit.Sound :=
  ⟨Nat.zero_le _, rfl, Nat.zero_le _, Nat.zero_le _, fun _ => rfl, nofun⟩

theorem parseReqline_keeps (r : HttpReq) (s : List UInt8) :
    (parseReqline r s).1.clen = r.clen ∧ (parseReqline r s).1.body = r.body := by
  unfold parseReqline
  dsimp only
  repeat' split
  all_goals exact ⟨rfl, rfl⟩

theorem keepCookie_body (r : HttpReq) (key value : List UInt8) :
    (keepCookie r key value).body = r.body ∧ (keepCookie r key value).clen = r.clen := by
  unfold keepCookie
  split_ifs <;> exact ⟨rfl, rfl⟩

theorem parseCookie_keeps (r : HttpReq) (v : List UInt8) :
    (parseCookie r v).body = r.body ∧ (parseCookie r v).clen = r.clen := by
  fun_induction parseCookie r v with
  | case1 => exact ⟨rfl, rfl⟩
  | case2 => exact ⟨rfl, rfl⟩
  | case3 => assumption
  | case4 r v c rest skipped key d after named other ih =>
      have kept := keepCookie_body r key (after.takeWhile cookieValue)
      exact ⟨ih.1.trans kept.1, ih.2.trans kept.2⟩

theorem contentLength_keeps (ps : HttpParser) (value : List UInt8) :
    (contentLength ps value).1.line = ps.line ∧
      (contentLength ps value).1.state = ps.state ∧
      (contentLength ps value).1.bodygot = ps.bodygot ∧
      (contentLength ps value).1.r.body = ps.r.body := by
  unfold contentLength
  dsimp only
  repeat' split
  all_goals exact ⟨rfl, rfl, rfl, rfl⟩

/-- A header line changes the request's fields and what was seen, no more. -/
theorem parseHeader_keeps (ps : HttpParser) :
    (parseHeader ps).1.line = ps.line ∧ (parseHeader ps).1.state = ps.state ∧
      (parseHeader ps).1.bodygot = ps.bodygot ∧
      (parseHeader ps).1.r.body = ps.r.body := by
  unfold parseHeader
  dsimp only
  split
  · exact ⟨rfl, rfl, rfl, rfl⟩
  split
  · exact ⟨rfl, rfl, rfl, rfl⟩
  split
  · exact ⟨rfl, rfl, rfl, rfl⟩
  split
  · exact ⟨rfl, rfl, rfl, rfl⟩
  cases headerName _ with
  | none => exact ⟨rfl, rfl, rfl, rfl⟩
  | some header =>
      cases header with
      | contentLength => exact contentLength_keeps ps _
      | cookie =>
          dsimp only
          split
          · exact ⟨rfl, rfl, rfl, rfl⟩
          · exact ⟨rfl, rfl, rfl, (parseCookie_keeps ps.r _).1⟩
      | _ =>
          dsimp only
          repeat' split
          all_goals exact ⟨rfl, rfl, rfl, rfl⟩

/-! ## A byte of the lines -/

/-- A byte was taken: the parser goes on, or it has ended and answers as it stands. -/
def Taken (answer : HttpParser × Option Int) : Prop :=
  answer.1.Sound ∧
    match answer.2 with
    | none => answer.1.halted = false
    | some rc => answer.1.halted = true ∧ rc = answer.1.code

section Lines

variable {ps : HttpParser}

theorem taken_refuse (sound : ps.Sound) (status : Nat) : Taken (ps.refuse status) :=
  ⟨⟨sound.line, sound.stored, sound.declared, sound.fits, nofun, nofun⟩, rfl, rfl⟩

/-- The end of the headers leads to a body within its bounds, or to the end. -/
theorem endOfHeaders_cases (ps : HttpParser) :
    (∃ status, endOfHeaders ps = (ps, .error status)) ∨
      endOfHeaders ps = ({ ps with state := .stream }, .ok 2) ∨
      endOfHeaders ps = ({ ps with state := .done }, .ok 1) ∨
      (0 < ps.r.clen ∧ ps.r.clen ≤ httpBodyMax ∧
        endOfHeaders ps = ({ ps with state := .body }, .ok 0)) := by
  unfold endOfHeaders
  dsimp only
  split
  · exact .inl ⟨501, rfl⟩
  split
  · split
    · exact .inl ⟨411, rfl⟩
    split
    · split
      · exact .inl ⟨413, rfl⟩
      · exact .inr (.inl rfl)
    split
    · exact .inl ⟨413, rfl⟩
    · rename_i fits
      split
      · exact .inr (.inr (.inl rfl))
      · rename_i some
        exact .inr (.inr (.inr ⟨Nat.pos_of_ne_zero some, Nat.not_lt.mp fits, rfl⟩))
  · split
    · exact .inl ⟨400, rfl⟩
    · exact .inr (.inr (.inl rfl))

/-- A parser that has not read of the body is sound when its line fits. -/
theorem sound_unread (line : ps.line.length ≤ httpLineMax) (got : ps.bodygot = 0)
    (body : ps.r.body = []) (notBody : ps.state ≠ .body) : ps.Sound where
  line := line
  stored := by rw [body, got, List.length_nil]
  declared := got ▸ Nat.zero_le _
  fits := got ▸ Nat.zero_le _
  before _ := got
  inBody here := absurd here notBody

theorem taken_lineEnd (sound : ps.Sound)
    (inLines : ps.state = .reqline ∨ ps.state = .headers) : Taken (lineEnd ps) := by
  have got : ps.bodygot = 0 := sound.before inLines
  have body : ps.r.body = [] := List.length_eq_zero_iff.mp (sound.stored.trans got)
  have notBody : ps.state ≠ .body := by rcases inLines with first | later <;> simp [*]
  unfold lineEnd
  dsimp only
  rcases inLines with first | later
  · have kept := parseReqline_keeps ps.r ps.line
    rw [if_pos first]
    rcases parsed : parseReqline ps.r ps.line with ⟨r, status | ⟨⟩⟩ <;>
      rw [parsed] at kept
    · refine taken_refuse ?_ status
      exact sound_unread sound.line got (kept.2.trans body) notBody
    · exact ⟨sound_unread (Nat.zero_le _) got (kept.2.trans body) nofun, rfl⟩
  · rw [if_neg (by simp [later])]
    split
    · refine taken_refuse ?_ 431
      exact sound_unread sound.line got body notBody
    split
    · rcases endOfHeaders_cases { ps with hdrbytes := ps.hdrbytes + (ps.line.length + 2) }
        with ⟨status, ends⟩ | ends | ends | ⟨some, fits, ends⟩ <;> rw [ends]
      · refine taken_refuse ?_ status
        exact sound_unread sound.line got body notBody
      · exact ⟨sound_unread sound.line got body nofun, rfl, rfl⟩
      · exact ⟨sound_unread sound.line got body nofun, rfl, rfl⟩
      · refine ⟨⟨sound.line, sound.stored, sound.declared, sound.fits, nofun,
          fun _ => ⟨?_, fits⟩⟩, rfl⟩
        exact lt_of_eq_of_lt got some
    split
    · refine taken_refuse ?_ 431
      exact sound_unread sound.line got body notBody
    · have kept := parseHeader_keeps
        { ps with hdrbytes := ps.hdrbytes + (ps.line.length + 2), nhdr := ps.nhdr + 1 }
      rcases parsed : parseHeader
        { ps with hdrbytes := ps.hdrbytes + (ps.line.length + 2), nhdr := ps.nhdr + 1 }
        with ⟨after, status | ⟨⟩⟩ <;> rw [parsed] at kept <;>
        obtain ⟨line, state, bodygot, kept⟩ := kept
      · exact taken_refuse (sound_unread (line ▸ sound.line) (bodygot.trans got)
          (kept.trans body) (state ▸ notBody)) status
      · refine ⟨sound_unread (Nat.zero_le _) (bodygot.trans got) (kept.trans body)
          (state ▸ notBody), ?_⟩
        have same : after.state = .headers := state.trans later
        simp [HttpParser.halted, same]

theorem taken_lineByte (sound : ps.Sound)
    (inLines : ps.state = .reqline ∨ ps.state = .headers) (c : UInt8) :
    Taken (lineByte ps c) := by
  have going : ps.halted = false := by
    rcases inLines with first | later
    · simp [HttpParser.halted, first]
    · simp [HttpParser.halted, later]
  have cr : ∀ sawCr, ({ ps with sawCr } : HttpParser).Sound := fun _ =>
    ⟨sound.line, sound.stored, sound.declared, sound.fits, sound.before, sound.inBody⟩
  unfold lineByte
  dsimp only
  split
  · split
    · exact taken_refuse (cr false) 400
    · exact taken_lineEnd (cr false) inLines
  split
  · exact ⟨cr true, going⟩
  split
  · exact taken_refuse sound 400
  split
  · exact taken_refuse sound 400
  by_cases full : (if ps.state = .reqline then httpReqlineMax else httpLineMax) ≤
      ps.line.length
  · rw [if_pos full]
    exact taken_refuse sound _
  rw [if_neg full]
  split
  · exact taken_refuse sound 431
  · refine ⟨⟨?_, sound.stored, sound.declared, sound.fits, sound.before, sound.inBody⟩,
      going⟩
    have same : (if ps.state = .reqline then httpReqlineMax else httpLineMax) =
        httpLineMax := ite_self _
    rw [same] at full
    rw [List.length_append]
    exact Nat.not_le.mp full

end Lines

/-! ## A run of the body -/

section Body

variable {ps : HttpParser}

/-- Bytes of the body are stored. -/
def HttpParser.store (ps : HttpParser) (bytes : List UInt8) : HttpParser :=
  { ps with
    bodygot := ps.bodygot + bytes.length
    r := { ps.r with body := ps.r.body ++ bytes } }

@[simp]
theorem HttpParser.store_nil (ps : HttpParser) : ps.store [] = ps := by
  simp [store]

theorem HttpParser.store_cons (ps : HttpParser) (b : UInt8) (bs : List UInt8) :
    ps.store (b :: bs) = (ps.store [b]).store bs := by
  simp [store, Nat.add_assoc, Nat.add_comm 1]

/-- The body is complete. -/
def HttpParser.complete (ps : HttpParser) : HttpParser :=
  { ps with state := .done, r := { ps.r with bodyLen := ps.bodygot } }

/-- A run that does not complete the body is stored whole. -/
theorem bodyBytes_short (sound : ps.Sound) (inBody : ps.state = .body) (i : Nat)
    {rest : List UInt8} (short : ps.bodygot + rest.length < ps.r.clen) :
    bodyBytes ps i rest = (ps.store rest, 0, i + rest.length) := by
  have fits := (sound.inBody inBody).2
  have all : min rest.length (ps.r.clen - ps.bodygot) = rest.length := by omega
  unfold bodyBytes
  dsimp only
  rw [all, if_neg (by omega), if_neg (by omega), List.take_length]
  rfl

/-- A run that completes the body is stored up to its end. -/
theorem bodyBytes_long (sound : ps.Sound) (inBody : ps.state = .body) (i : Nat)
    {rest : List UInt8} (long : ps.r.clen ≤ ps.bodygot + rest.length) :
    bodyBytes ps i rest =
      ((ps.store (rest.take (ps.r.clen - ps.bodygot))).complete, 1,
        i + (ps.r.clen - ps.bodygot)) := by
  obtain ⟨more, fits⟩ := sound.inBody inBody
  have all : min rest.length (ps.r.clen - ps.bodygot) = ps.r.clen - ps.bodygot := by
    omega
  have length : (rest.take (ps.r.clen - ps.bodygot)).length = ps.r.clen - ps.bodygot := by
    rw [List.length_take]
    omega
  unfold bodyBytes HttpParser.complete HttpParser.store
  dsimp only
  rw [all, if_neg (by omega), if_pos (by omega), length]

theorem sound_store (sound : ps.Sound) (inBody : ps.state = .body) {bytes : List UInt8}
    (short : ps.bodygot + bytes.length < ps.r.clen) : (ps.store bytes).Sound where
  line := sound.line
  stored := by
    show (ps.r.body ++ bytes).length = ps.bodygot + bytes.length
    rw [List.length_append, sound.stored]
  declared := short.le
  fits := short.le.trans (sound.inBody inBody).2
  before lines := by
    have body : (ps.store bytes).state = .body := inBody
    simp [body] at lines
  inBody _ := ⟨short, (sound.inBody inBody).2⟩

theorem sound_complete (sound : ps.Sound) (inBody : ps.state = .body) {bytes : List UInt8}
    (whole : ps.bodygot + bytes.length = ps.r.clen) :
    (ps.store bytes).complete.Sound where
  line := sound.line
  stored := by
    show (ps.r.body ++ bytes).length = ps.bodygot + bytes.length
    rw [List.length_append, sound.stored]
  declared := whole.le
  fits := whole.le.trans (sound.inBody inBody).2
  before := nofun
  inBody := nofun

theorem httpFeed_body (inBody : ps.state = .body) (b : UInt8) (bs : List UInt8) :
    httpFeed ps (b :: bs) = bodyBytes ps 0 (b :: bs) := by
  unfold httpFeed
  rw [inBody]
  simp only [feedFrom, inBody, if_true]

/-- A run of the body is its bytes, one after the other. -/
theorem bodyBytes_eq_run (sound : ps.Sound) (inBody : ps.state = .body) (i : Nat)
    (rest : List UInt8) :
    bodyBytes ps i rest =
      ((httpStepper.run ps rest).1, (httpStepper.run ps rest).1.code,
        i + (httpStepper.run ps rest).2) := by
  induction rest generalizing ps i with
  | nil =>
      have more : ps.bodygot + ([] : List UInt8).length < ps.r.clen :=
        (sound.inBody inBody).1
      rw [bodyBytes_short sound inBody i more]
      simp [HttpParser.code, inBody]
  | cons b bs ih =>
      have going : httpStepper.halted ps = false := by
        simp [httpStepper, HttpParser.halted, inBody]
      have step : httpStepper.step ps b = (bodyBytes ps 0 [b]).1 := by
        rw [← httpFeed_body inBody]
        rfl
      have more := (sound.inBody inBody).1
      rw [httpStepper.run_cons going, step]
      by_cases last : ps.bodygot + 1 = ps.r.clen
      · have one : ps.r.clen - ps.bodygot = 1 := by omega
        rw [bodyBytes_long sound inBody i (by simp; omega),
          bodyBytes_long sound inBody 0 (by simp; omega), one]
        have halted : httpStepper.halted (ps.store [b]).complete = true := rfl
        simp only [List.take_succ_cons, List.take_zero, httpStepper.run_of_halted halted]
        rfl
      · have stored : ps.bodygot + [b].length < ps.r.clen := by simp; omega
        rw [bodyBytes_short sound inBody 0 stored]
        have next := ih (sound_store sound inBody stored) inBody (i + 1)
        have storedSound := sound_store sound inBody stored
        rw [Nat.add_comm _ 1, ← Nat.add_assoc, ← next]
        by_cases short : ps.bodygot + (b :: bs).length < ps.r.clen
        · have rest : (ps.store [b]).bodygot + bs.length < (ps.store [b]).r.clen := by
            simp only [HttpParser.store, List.length_cons, List.length_nil] at short ⊢
            omega
          rw [bodyBytes_short sound inBody i short,
            bodyBytes_short storedSound inBody _ rest, ps.store_cons, List.length_cons,
            Nat.add_assoc, Nat.add_comm 1]
        · have rest : (ps.store [b]).r.clen ≤ (ps.store [b]).bodygot + bs.length := by
            simp only [HttpParser.store, List.length_cons, List.length_nil] at short ⊢
            omega
          have left : ps.r.clen - ps.bodygot =
              (ps.store [b]).r.clen - (ps.store [b]).bodygot + 1 := by
            simp only [HttpParser.store, List.length_cons, List.length_nil] at stored ⊢
            omega
          rw [bodyBytes_long sound inBody i (Nat.not_lt.mp short),
            bodyBytes_long storedSound inBody _ rest, left, List.take_succ_cons,
            ps.store_cons, Nat.add_assoc, Nat.add_comm 1]

end Body

/-! ## A call, byte by byte -/

section Feed

variable {ps : HttpParser}

/-- A parser that goes on is in its lines or in its body. -/
theorem going_cases (going : ps.halted = false) :
    (ps.state = .reqline ∨ ps.state = .headers) ∨ ps.state = .body := by
  unfold HttpParser.halted at going
  cases state : ps.state <;> simp [state] at going ⊢

theorem code_of_going (going : ps.halted = false) : ps.code = 0 := by
  rcases going_cases going with (first | later) | body
  · simp [HttpParser.code, first]
  · simp [HttpParser.code, later]
  · simp [HttpParser.code, body]

theorem httpFeed_going (going : ps.halted = false) (p : List UInt8) :
    httpFeed ps p = feedFrom ps 0 p := by
  rcases going_cases going with (first | later) | body
  · simp [httpFeed, first]
  · simp [httpFeed, later]
  · simp [httpFeed, body]

theorem httpFeed_halted (halted : ps.halted = true) (p : List UInt8) :
    httpFeed ps p = (ps, ps.code, 0) := by
  unfold HttpParser.halted at halted
  cases state : ps.state <;> simp [state] at halted <;>
    simp [httpFeed, HttpParser.code, state]

theorem step_lines (inLines : ps.state = .reqline ∨ ps.state = .headers) (b : UInt8) :
    httpStepper.step ps b = (lineByte ps b).1 := by
  have going : ps.halted = false := by
    rcases inLines with first | later
    · simp [HttpParser.halted, first]
    · simp [HttpParser.halted, later]
  have notBody : ps.state ≠ .body := by rcases inLines with first | later <;> simp [*]
  show (httpFeed ps [b]).1 = _
  rw [httpFeed_going going, feedFrom, if_neg notBody]
  rcases lineByte ps b with ⟨ps', none | rc⟩
  · rfl
  · rfl

theorem sound_step (sound : ps.Sound) (going : ps.halted = false) (b : UInt8) :
    (httpStepper.step ps b).Sound := by
  rcases going_cases going with inLines | inBody
  · rw [step_lines inLines]
    exact (taken_lineByte sound inLines b).1
  · show (httpFeed ps [b]).1.Sound
    rw [httpFeed_body inBody]
    have more := (sound.inBody inBody).1
    by_cases last : ps.bodygot + [b].length < ps.r.clen
    · rw [bodyBytes_short sound inBody 0 last]
      exact sound_store sound inBody last
    · have whole : ps.r.clen = ps.bodygot + [b].length :=
        Nat.le_antisymm (Nat.not_lt.mp last) more
      have one : ps.r.clen - ps.bodygot = 1 := by
        rw [whole, Nat.add_sub_cancel_left]
        rfl
      rw [bodyBytes_long sound inBody 0 (Nat.not_lt.mp last), one]
      exact sound_complete sound inBody whole.symm

/-- The loop is the run of its bytes, and answers as the parser then stands. -/
theorem feedFrom_eq_run (sound : ps.Sound) (going : ps.halted = false) (i : Nat)
    (p : List UInt8) :
    feedFrom ps i p =
      ((httpStepper.run ps p).1, (httpStepper.run ps p).1.code,
        i + (httpStepper.run ps p).2) := by
  induction p generalizing ps i with
  | nil => simp [feedFrom, code_of_going going]
  | cons c rest ih =>
      rw [feedFrom]
      rcases going_cases going with inLines | inBody
      · have notBody : ps.state ≠ .body := by
          rcases inLines with first | later <;> simp [*]
        have taken := taken_lineByte sound inLines c
        rw [if_neg notBody, httpStepper.run_cons going, step_lines inLines]
        rcases answer : lineByte ps c with ⟨ps', none | rc⟩ <;> rw [answer] at taken
        · dsimp only
          rw [ih taken.1 taken.2, Nat.add_assoc, Nat.add_comm 1]
        · have stays : httpStepper.run ps' rest = (ps', 0) :=
            httpStepper.run_of_halted taken.2.1 rest
          have answers : rc = ps'.code := taken.2.2
          simp [stays, answers]
      · rw [if_pos inBody]
        exact bodyBytes_eq_run sound inBody i (c :: rest)

theorem httpFeed_eq_run (sound : ps.Sound) (p : List UInt8) :
    httpFeed ps p =
      ((httpStepper.run ps p).1, (httpStepper.run ps p).1.code,
        (httpStepper.run ps p).2) := by
  cases going : ps.halted with
  | true => rw [httpFeed_halted going, httpStepper.run_of_halted going]
  | false => rw [httpFeed_going going, feedFrom_eq_run sound going, Nat.zero_add]

end Feed

/-! ## Any segmentation -/

/-- The parser and the bytes consumed. -/
def feedOf (ps : HttpParser) (p : List UInt8) : HttpParser × Nat :=
  ((httpFeed ps p).1, (httpFeed ps p).2.2)

theorem feedOf_eq_run {ps : HttpParser} (sound : ps.Sound) (p : List UInt8) :
    feedOf ps p = httpStepper.run ps p := by
  rw [feedOf, httpFeed_eq_run sound]

/-- Calls on the pieces of a stream: the run of its bytes. -/
theorem httpFeedAll_eq_run {ps : HttpParser} (sound : ps.Sound) {rc : Int} (used : Nat)
    (answers : rc = ps.code) (pieces : List (List UInt8)) :
    httpFeedAll ps rc used pieces =
      ((httpStepper.run ps pieces.flatten).1, (httpStepper.run ps pieces.flatten).1.code,
        used + (httpStepper.run ps pieces.flatten).2) := by
  induction pieces generalizing ps rc used with
  | nil => simp [httpFeedAll, answers]
  | cons piece pieces ih =>
      have next : (httpFeed ps piece).1.Sound := by
        rw [httpFeed_eq_run sound]
        exact httpStepper.run_keeps (fun _ b sound going => sound_step sound going b) sound piece
      have answered : (httpFeed ps piece).2.1 = (httpFeed ps piece).1.code := by
        rw [httpFeed_eq_run sound]
      rw [httpFeedAll, ih next _ answered, httpFeed_eq_run sound, List.flatten_cons,
        httpStepper.run_append, Nat.add_assoc]

/-- Whatever the reads, the parser ends as in one call on the whole stream: the same
answer, status, request and bytes consumed.  In every state the line is within its
buffer, and the body within the declared length and its buffer. -/
theorem http_feed_segmentation (pieces : List (List UInt8)) :
    httpFeedAll httpParseInit 0 0 pieces = httpFeed httpParseInit pieces.flatten ∧
      httpParseAll pieces.flatten =
        ((httpFeedAll httpParseInit 0 0 pieces).1.r,
          if (httpFeedAll httpParseInit 0 0 pieces).2.1 = 0 then -400
          else (httpFeedAll httpParseInit 0 0 pieces).2.1) ∧
      ∀ ps ∈ statesBetween feedOf httpParseInit pieces,
        ps.line.length ≤ httpLineMax ∧ ps.r.body.length = ps.bodygot ∧
          ps.bodygot ≤ ps.r.clen ∧ ps.bodygot ≤ httpBodyMax := by
  have keeps : ∀ (ps : HttpParser) (b : UInt8), ps.Sound →
      httpStepper.halted ps = false → (httpStepper.step ps b).Sound :=
    fun _ b sound going => sound_step sound going b
  have fresh : (0 : Int) = httpParseInit.code := rfl
  have once : httpFeedAll httpParseInit 0 0 pieces =
      httpFeed httpParseInit pieces.flatten := by
    rw [httpFeedAll_eq_run sound_httpParseInit 0 fresh,
      httpFeed_eq_run sound_httpParseInit, Nat.zero_add]
  refine ⟨once, by rw [once]; rfl, fun ps between => ?_⟩
  have sound : ps.Sound := statesBetween_good keeps
    (fun _ piece sound => feedOf_eq_run sound piece) sound_httpParseInit pieces ps between
  exact ⟨sound.line, sound.stored, sound.declared, sound.fits⟩

end RlxFw.Http
