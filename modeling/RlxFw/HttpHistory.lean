import RlxFw.HttpHeaders

/-!
# The lines of a request

The history of the parser: the bytes it has taken are a request line, header
lines and a blank line, and what it keeps of them is what those lines say.
-/

namespace RlxFw.Http

/-- What the parser keeps of the header lines it has read. -/
structure Kept (heads : List (List UInt8)) (ps : HttpParser) : Prop where
  cookieOnce : (heads.filter isCookie).length ≤ 1
  csrfOnce : (heads.filter isCsrf).length ≤ 1
  seenCookie : ps.seenCookie = heads.any isCookie
  seenCsrf : ps.seenCsrf = heads.any isCsrf
  sess : ps.r.sess = cookieToken (ascii "rlxs") (soleValue (heads.filter isCookie))
  ccsrf : ps.r.ccsrf = cookieToken (ascii "rlxc") (soleValue (heads.filter isCookie))
  hcsrf : ps.r.hcsrf = takeTok32 (soleValue (heads.filter isCsrf))

/-- Parsers that have read the same keep the same. -/
theorem Kept.passed {heads : List (List UInt8)} {ps ps' : HttpParser}
    (kept : Kept heads ps) (passed : Passed ps ps') : Kept heads ps' where
  cookieOnce := kept.cookieOnce
  csrfOnce := kept.csrfOnce
  seenCookie := passed.seenCookie.trans kept.seenCookie
  seenCsrf := passed.seenCsrf.trans kept.seenCsrf
  sess := passed.sess.trans kept.sess
  ccsrf := passed.ccsrf.trans kept.ccsrf
  hcsrf := passed.hcsrf.trans kept.hcsrf

theorem filter_eq_nil_of_any {heads : List (List UInt8)} {named : List UInt8 → Bool}
    (none_ : heads.any named = false) : heads.filter named = [] :=
  List.filter_eq_nil_iff.mpr fun line member => List.any_eq_false.mp none_ line member

/-- A header line that is read is kept. -/
theorem Kept.line {heads : List (List UInt8)} {ps ps' : HttpParser}
    (kept : Kept heads ps) (read : LineRead ps ps') : Kept (heads ++ [ps.line]) ps' := by
  cases read with
  | cookie named other unseen =>
      have before := filter_eq_nil_of_any (kept.seenCookie.symm.trans unseen)
      have cookies : (heads ++ [ps.line]).filter isCookie = [ps.line] := by
        rw [List.filter_append, before, List.filter_cons_of_pos named]
        rfl
      have csrfs : (heads ++ [ps.line]).filter isCsrf = heads.filter isCsrf := by
        rw [List.filter_append, List.filter_cons_of_neg (by rw [other]; decide)]
        exact List.append_nil _
      have sess := kept.sess
      have ccsrf := kept.ccsrf
      rw [before] at sess ccsrf
      obtain ⟨token, csrfToken⟩ := parseCookie_tokens sess ccsrf (fieldValue ps.line)
      exact
        { cookieOnce := by rw [cookies]; exact le_rfl
          csrfOnce := by rw [csrfs]; exact kept.csrfOnce
          seenCookie := by simp [named]
          seenCsrf := by simp [other, kept.seenCsrf]
          sess := by rw [cookies]; exact token
          ccsrf := by rw [cookies]; exact csrfToken
          hcsrf := by
            rw [csrfs, ← kept.hcsrf]
            exact (parseCookie_frame ps.r _).2.2.2 }
  | csrf named other unseen =>
      have before := filter_eq_nil_of_any (kept.seenCsrf.symm.trans unseen)
      have csrfs : (heads ++ [ps.line]).filter isCsrf = [ps.line] := by
        rw [List.filter_append, before, List.filter_cons_of_pos named]
        rfl
      have cookies : (heads ++ [ps.line]).filter isCookie = heads.filter isCookie := by
        rw [List.filter_append, List.filter_cons_of_neg (by rw [other]; decide)]
        exact List.append_nil _
      exact
        { cookieOnce := by rw [cookies]; exact kept.cookieOnce
          csrfOnce := by rw [csrfs]; exact le_rfl
          seenCookie := by simp [other, kept.seenCookie]
          seenCsrf := by simp [named]
          sess := by rw [cookies]; exact kept.sess
          ccsrf := by rw [cookies]; exact kept.ccsrf
          hcsrf := by rw [csrfs]; rfl }
  | other notCookie notCsrf _ same =>
      have cookies : (heads ++ [ps.line]).filter isCookie = heads.filter isCookie := by
        rw [List.filter_append, List.filter_cons_of_neg (by rw [notCookie]; decide)]
        exact List.append_nil _
      have csrfs : (heads ++ [ps.line]).filter isCsrf = heads.filter isCsrf := by
        rw [List.filter_append, List.filter_cons_of_neg (by rw [notCsrf]; decide)]
        exact List.append_nil _
      refine Kept.passed ?_ same
      exact
        { cookieOnce := by rw [cookies]; exact kept.cookieOnce
          csrfOnce := by rw [csrfs]; exact kept.csrfOnce
          seenCookie := by simp [notCookie, kept.seenCookie]
          seenCsrf := by simp [notCsrf, kept.seenCsrf]
          sess := by rw [cookies]; exact kept.sess
          ccsrf := by rw [cookies]; exact kept.ccsrf
          hcsrf := by rw [csrfs]; exact kept.hcsrf }

/-! ## The request line -/

/-- A request line was read: a stream is a POST for the upload's path. -/
structure Marked (r : HttpReq) : Prop where
  method : r.method ≠ .none
  stream : r.stream = true ↔ r.method = .post ∧ r.path = httpUploadPath

theorem parseReqline_ok {r r' : HttpReq} {s : List UInt8} (fresh : r.stream = false)
    (read : parseReqline r s = (r', .ok ())) :
    Marked r' ∧ r'.sess = r.sess ∧ r'.ccsrf = r.ccsrf ∧ r'.hcsrf = r.hcsrf := by
  unfold parseReqline at read
  dsimp only at read
  split at read
  · cases read
  split at read
  · cases read
  split at read
  · cases read
  split at read
  · split at read <;> cases read
  split at read
  · cases read
  split at read
  · split at read <;> cases read
  split at read
  · cases read
  split at read
  · cases read
  split at read
  · cases read
  have some_ : (if s.takeWhile notSpace = ascii "GET" then HttpMethod.get
      else HttpMethod.post) ≠ .none := by
    split <;> decide
  generalize (if s.takeWhile notSpace = ascii "GET" then HttpMethod.get
    else HttpMethod.post) = method at read some_
  split at read
  · next upload =>
      cases read
      exact ⟨⟨some_, fun _ => upload, fun _ => rfl⟩, rfl, rfl, rfl⟩
  · next other =>
      cases read
      refine ⟨⟨some_, ?_⟩, rfl, rfl, rfl⟩
      exact ⟨fun stream => absurd stream (by rw [fresh]; decide), fun both => absurd both other⟩

/-! ## The history -/

/-- The end of a line. -/
def crlf : List UInt8 := [0x0D, 0x0A]

/-- A line holds no end of a line. -/
def Plain (line : List UInt8) : Prop := (0x0D : UInt8) ∉ line ∧ (0x0A : UInt8) ∉ line

/-- A request line and header lines, as they are sent. -/
def wire (reqline : List UInt8) (heads : List (List UInt8)) : List UInt8 :=
  reqline ++ crlf ++ heads.flatMap fun line => line ++ crlf

/-- The lines of a request. -/
structure Lines (reqline : List UInt8) (heads : List (List UInt8)) : Prop where
  reqline : Plain reqline
  heads : ∀ line ∈ heads, Plain line ∧ line ≠ []

/-- The part of a line that is read, and its carriage return. -/
def HttpParser.partLine (ps : HttpParser) : List UInt8 :=
  ps.line ++ if ps.sawCr then [0x0D] else []

/-- What the parser is after the bytes it has taken. -/
def Fed (bytes : List UInt8) (ps : HttpParser) : Prop :=
  match ps.state with
  | .reqline =>
      bytes = ps.partLine ∧ Plain ps.line ∧ Kept [] ps ∧ ps.r.stream = false
  | .headers =>
      ∃ reqline heads, bytes = wire reqline heads ++ ps.partLine ∧
        Lines reqline heads ∧ Plain ps.line ∧ Kept heads ps ∧ Marked ps.r
  | .err => True
  | _ =>
      ∃ reqline heads body, bytes = wire reqline heads ++ crlf ++ body ∧
        Lines reqline heads ∧ Kept heads ps ∧ Marked ps.r ∧
          (ps.state = .stream ↔ ps.r.stream = true)

theorem fed_refuse (bytes : List UInt8) (ps : HttpParser) (status : Nat) :
    Fed bytes (ps.refuse status).1 := trivial

theorem fed_init : Fed [] httpParseInit :=
  ⟨rfl, ⟨List.not_mem_nil, List.not_mem_nil⟩,
    ⟨Nat.zero_le _, Nat.zero_le _, rfl, rfl, rfl, rfl, rfl⟩, rfl⟩

theorem wire_snoc (reqline : List UInt8) (heads : List (List UInt8)) (line : List UInt8) :
    wire reqline (heads ++ [line]) = wire reqline heads ++ (line ++ crlf) := by
  simp [wire]

section Step

variable {bytes : List UInt8} {ps : HttpParser}

theorem fed_reqline (first : ps.state = .reqline) :
    Fed bytes ps ↔
      bytes = ps.partLine ∧ Plain ps.line ∧ Kept [] ps ∧ ps.r.stream = false := by
  unfold Fed
  rw [first]

theorem fed_headers (later : ps.state = .headers) :
    Fed bytes ps ↔
      ∃ reqline heads, bytes = wire reqline heads ++ ps.partLine ∧
        Lines reqline heads ∧ Plain ps.line ∧ Kept heads ps ∧ Marked ps.r := by
  unfold Fed
  rw [later]

/-- The lines of a parser that is past them. -/
def Past (bytes : List UInt8) (ps : HttpParser) : Prop :=
  ∃ reqline heads body, bytes = wire reqline heads ++ crlf ++ body ∧
    Lines reqline heads ∧ Kept heads ps ∧ Marked ps.r ∧
      (ps.state = .stream ↔ ps.r.stream = true)

theorem fed_past (past : ps.state = .body ∨ ps.state = .done ∨ ps.state = .stream) :
    Fed bytes ps ↔ Past bytes ps := by
  unfold Fed Past
  rcases past with body | done | stream
  · rw [body]
  · rw [done]
  · rw [stream]

/-- The end of the headers changes the state alone. -/
theorem endOfHeaders_ok {ps' : HttpParser} {rc : Nat}
    (ends : endOfHeaders ps = (ps', .ok rc)) (marked : Marked ps.r) :
    ∃ state, ps' = { ps with state := state } ∧
      (state = .body ∨ state = .done ∨ state = .stream) ∧
      (state = .stream ↔ ps.r.stream = true) := by
  unfold endOfHeaders at ends
  dsimp only at ends
  split at ends
  · cases ends
  split at ends
  · split at ends
    · cases ends
    split at ends
    · next stream =>
        split at ends
        · cases ends
        · cases ends
          exact ⟨.stream, rfl, .inr (.inr rfl), fun _ => stream, fun _ => rfl⟩
    next other =>
    split at ends
    · cases ends
    split at ends
    · cases ends
      exact ⟨.done, rfl, .inr (.inl rfl), nofun, fun stream => absurd stream other⟩
    · cases ends
      exact ⟨.body, rfl, .inl rfl, nofun, fun stream => absurd stream other⟩
  · next notPost =>
      split at ends
      · cases ends
      · cases ends
        exact ⟨.done, rfl, .inr (.inl rfl), nofun,
          fun stream => absurd (marked.stream.mp stream).1 notPost⟩

theorem plain_nil : Plain [] := ⟨List.not_mem_nil, List.not_mem_nil⟩

/-- A line that ends. -/
theorem fed_lineEnd (inLines : ps.state = .reqline ∨ ps.state = .headers)
    (saw : ps.sawCr = true) (fed : Fed bytes ps) :
    Fed (bytes ++ [0x0A]) (lineEnd { ps with sawCr := false }).1 := by
  have ended : ps.partLine ++ [0x0A] = ps.line ++ crlf := by
    rw [HttpParser.partLine, saw, List.append_assoc]
    rfl
  unfold lineEnd
  dsimp only
  rcases inLines with first | later
  · obtain ⟨rfl, plain, kept, fresh⟩ := (fed_reqline first).mp fed
    rw [if_pos first]
    rcases read : parseReqline ps.r ps.line with ⟨r, status | ⟨⟩⟩
    · exact fed_refuse _ _ status
    · obtain ⟨marked, sess, ccsrf, hcsrf⟩ := parseReqline_ok fresh read
      refine (fed_headers rfl).mpr ⟨ps.line, [], ?_, ⟨plain, nofun⟩, plain_nil, ?_, marked⟩
      · rw [ended]
        simp [wire, HttpParser.partLine]
      · exact kept.passed ⟨rfl, rfl, sess, ccsrf, hcsrf⟩
  · obtain ⟨reqline, heads, rfl, lines, plain, kept, marked⟩ := (fed_headers later).mp fed
    rw [if_neg (by rw [later]; decide)]
    split
    · exact fed_refuse _ _ 431
    split
    · next empty =>
        rcases ends : endOfHeaders
            { ps with sawCr := false, hdrbytes := ps.hdrbytes + (ps.line.length + 2) } with
          ⟨after, status | rc⟩
        · exact fed_refuse _ _ status
        · obtain ⟨state, rfl, past, streams⟩ := endOfHeaders_ok ends marked
          have reached : Fed (wire reqline heads ++ ps.partLine ++ [0x0A])
              { ps with
                sawCr := false, hdrbytes := ps.hdrbytes + (ps.line.length + 2)
                state := state } := by
            refine (fed_past past).mpr ⟨reqline, heads, [], ?_, lines,
              kept.passed ⟨rfl, rfl, rfl, rfl, rfl⟩, marked, streams⟩
            rw [List.append_assoc, ended, List.length_eq_zero_iff.mp empty,
              List.append_nil, List.nil_append]
          cases rc <;> exact reached
    next some_ =>
    split
    · exact fed_refuse _ _ 431
    · have frame := parseHeader_frame
        { ps with
          sawCr := false, hdrbytes := ps.hdrbytes + (ps.line.length + 2)
          nhdr := ps.nhdr + 1 }
      have stays := (parseHeader_keeps
        { ps with
          sawCr := false, hdrbytes := ps.hdrbytes + (ps.line.length + 2)
          nhdr := ps.nhdr + 1 }).2.1
      rcases read : parseHeader
        { ps with
          sawCr := false, hdrbytes := ps.hdrbytes + (ps.line.length + 2)
          nhdr := ps.nhdr + 1 } with ⟨after, status | ⟨⟩⟩ <;> rw [read] at frame stays
      · exact fed_refuse _ _ status
      · obtain ⟨method, path, stream, noCr⟩ := frame
        have before : Kept heads
            { ps with
              sawCr := false, hdrbytes := ps.hdrbytes + (ps.line.length + 2)
              nhdr := ps.nhdr + 1 } := kept.passed ⟨rfl, rfl, rfl, rfl, rfl⟩
        have next := before.line (parseHeader_ok read)
        change Fed (wire reqline heads ++ ps.partLine ++ [0x0A]) { after with line := [] }
        refine (fed_headers ?_).mpr ⟨reqline, heads ++ [ps.line], ?_, ?_, plain_nil,
          next.passed ⟨rfl, rfl, rfl, rfl, rfl⟩, ?_⟩
        · exact stays.trans later
        · have none_ : ({ after with line := [] } : HttpParser).partLine = [] := by
            simp only [HttpParser.partLine, List.nil_append]
            rw [show after.sawCr = false from noCr]
            rfl
          rw [none_, List.append_assoc, ended, wire_snoc, List.append_nil]
        · refine ⟨lines.reqline, fun line member => ?_⟩
          rcases List.mem_append.mp member with old | new
          · exact lines.heads line old
          · rw [List.mem_singleton.mp new]
            exact ⟨plain, fun empty => some_ (List.length_eq_zero_iff.mpr empty)⟩
        · exact ⟨method ▸ marked.method, by rw [stream, method, path]; exact marked.stream⟩

/-- A byte of the lines. -/
theorem fed_lineByte (inLines : ps.state = .reqline ∨ ps.state = .headers)
    (fed : Fed bytes ps) (b : UInt8) : Fed (bytes ++ [b]) (lineByte ps b).1 := by
  unfold lineByte
  dsimp only
  split
  · next saw =>
      split
      · exact fed_refuse _ _ 400
      · next feed =>
          rw [not_not.mp feed]
          exact fed_lineEnd inLines saw fed
  next unseen =>
  have noCr : ps.sawCr = false := Bool.eq_false_iff.mpr unseen
  have line : ps.partLine = ps.line := by
    rw [HttpParser.partLine, noCr]
    exact List.append_nil _
  split
  · next cr =>
      have returned : ({ ps with sawCr := true } : HttpParser).partLine =
          ps.partLine ++ [b] := by
        rw [line, cr]
        rfl
      rcases inLines with first | later
      · obtain ⟨rfl, plain, kept, fresh⟩ := (fed_reqline first).mp fed
        refine (fed_reqline ?_).mpr
          ⟨returned.symm, plain, kept.passed ⟨rfl, rfl, rfl, rfl, rfl⟩, fresh⟩
        exact first
      · obtain ⟨reqline, heads, rfl, lines, plain, kept, marked⟩ :=
          (fed_headers later).mp fed
        refine (fed_headers ?_).mpr
          ⟨reqline, heads, by rw [returned, List.append_assoc], lines, plain,
            kept.passed ⟨rfl, rfl, rfl, rfl, rfl⟩, marked⟩
        exact later
  next notCr =>
  split
  · exact fed_refuse _ _ 400
  next notFeed =>
  split
  · exact fed_refuse _ _ 400
  by_cases full : (if ps.state = .reqline then httpReqlineMax else httpLineMax) ≤
      ps.line.length
  · rw [if_pos full]
    exact fed_refuse _ _ _
  rw [if_neg full]
  split
  · exact fed_refuse _ _ 431
  · have longer : ({ ps with line := ps.line ++ [b] } : HttpParser).partLine =
        ps.partLine ++ [b] := by
      rw [line, HttpParser.partLine]
      simp only [noCr]
      exact List.append_nil _
    have stays : Plain ps.line → Plain (ps.line ++ [b]) := fun plain =>
      ⟨by simp [plain.1, Ne.symm notCr], by simp [plain.2, Ne.symm notFeed]⟩
    rcases inLines with first | later
    · obtain ⟨rfl, plain, kept, fresh⟩ := (fed_reqline first).mp fed
      refine (fed_reqline ?_).mpr
        ⟨longer.symm, stays plain, kept.passed ⟨rfl, rfl, rfl, rfl, rfl⟩, fresh⟩
      exact first
    · obtain ⟨reqline, heads, rfl, lines, plain, kept, marked⟩ :=
        (fed_headers later).mp fed
      refine (fed_headers ?_).mpr
        ⟨reqline, heads, by rw [longer, List.append_assoc], lines, stays plain,
          kept.passed ⟨rfl, rfl, rfl, rfl, rfl⟩, marked⟩
      exact later

/-- A byte of the body says nothing of the lines. -/
theorem fed_body (inBody : ps.state = .body) (fed : Fed bytes ps) (b : UInt8) :
    Fed (bytes ++ [b]) (bodyBytes ps 0 [b]).1 := by
  obtain ⟨reqline, heads, body, rfl, lines, kept, marked, streams⟩ :=
    (fed_past (Or.inl inBody)).mp fed
  have notStream : ps.r.stream ≠ true := fun stream => by
    have state := streams.mpr stream
    rw [inBody] at state
    cases state
  have more : wire reqline heads ++ crlf ++ body ++ [b] =
      wire reqline heads ++ crlf ++ (body ++ [b]) := List.append_assoc _ _ _
  unfold bodyBytes
  dsimp only
  split
  · trivial
  split
  · refine (fed_past (Or.inr (Or.inl rfl))).mpr ⟨reqline, heads, body ++ [b], more, lines,
      kept.passed ⟨rfl, rfl, rfl, rfl, rfl⟩, ⟨marked.method, marked.stream⟩, ?_⟩
    exact ⟨nofun, fun stream => absurd stream notStream⟩
  · refine (fed_past ?_).mpr ⟨reqline, heads, body ++ [b], more, lines,
      kept.passed ⟨rfl, rfl, rfl, rfl, rfl⟩, ⟨marked.method, marked.stream⟩, streams⟩
    exact Or.inl inBody

theorem fed_step (going : ps.halted = false) (fed : Fed bytes ps) (b : UInt8) :
    Fed (bytes ++ [b]) (httpStepper.step ps b) := by
  rcases going_cases going with inLines | inBody
  · rw [step_lines inLines]
    exact fed_lineByte inLines fed b
  · show Fed _ (httpFeed ps [b]).1
    rw [httpFeed_body inBody]
    exact fed_body inBody fed b

end Step

/-- The parser after a stream, however it was cut, and the bytes it took. -/
theorem fed_run (stream : List UInt8) :
    Fed (stream.take (httpStepper.run httpParseInit stream).2)
      (httpStepper.run httpParseInit stream).1 := by
  have keeps : ∀ (taken : List UInt8) (ps : HttpParser) (b : UInt8), Fed taken ps →
      httpStepper.halted ps = false → Fed (taken ++ [b]) (httpStepper.step ps b) :=
    fun _ _ b fed going => fed_step going fed b
  have traced := httpStepper.run_traces keeps fed_init stream
  rwa [List.nil_append] at traced

/-! ## A second line of a token -/

/-- A line within the parser's limits, after the lines it has read. -/
structure LineFits (ps : HttpParser) (line : List UInt8) : Prop where
  count : ps.nhdr < httpHdrLinesMax
  length : line.length ≤ httpLineMax
  bytes : ps.hdrbytes + (line.length + 2) ≤ httpHdrBytesMax

section Second

variable {ps : HttpParser}

/-- The bytes of a line are gathered. -/
theorem run_line (later : ps.state = .headers) (noCr : ps.sawCr = false)
    {line : List UInt8} (plain : Plain line) (noNul : (0 : UInt8) ∉ line)
    (length : ps.line.length + line.length ≤ httpLineMax)
    (bytes : ps.hdrbytes + (ps.line.length + line.length + 2) ≤ httpHdrBytesMax)
    (more : List UInt8) :
    (httpStepper.run ps (line ++ more)).1 =
      (httpStepper.run { ps with line := ps.line ++ line } more).1 := by
  induction line generalizing ps with
  | nil => rw [List.nil_append, List.append_nil]
  | cons c line ih =>
      obtain ⟨notCr, plainCr⟩ := not_or.mp (mt List.mem_cons.mpr plain.1)
      obtain ⟨notFeed, plainFeed⟩ := not_or.mp (mt List.mem_cons.mpr plain.2)
      obtain ⟨notNul, noNulRest⟩ := not_or.mp (mt List.mem_cons.mpr noNul)
      rw [List.length_cons] at length bytes
      have notFirst : ps.state ≠ .reqline := by
        rw [later]
        decide
      have going : httpStepper.halted ps = false := by
        change ps.halted = false
        simp [HttpParser.halted, later]
      have step : httpStepper.step ps c = { ps with line := ps.line ++ [c] } := by
        rw [step_lines (Or.inr later), lineByte, noCr, if_neg (by decide),
          if_neg (Ne.symm notCr), if_neg (Ne.symm notFeed), if_neg (Ne.symm notNul),
          if_neg notFirst, if_neg (by omega), if_neg fun long => by omega]
      have rest := @ih { ps with line := ps.line ++ [c] } later noCr ⟨plainCr, plainFeed⟩
        noNulRest (by simp only [List.length_append, List.length_singleton]; omega)
        (by simp only [List.length_append, List.length_singleton]; omega)
      rw [List.cons_append, httpStepper.run_cons going, step, rest]
      simp only [List.append_assoc, List.singleton_append]

/-- A second line of a token is refused when it ends. -/
theorem run_second (later : ps.state = .headers) (noCr : ps.sawCr = false)
    (boundary : ps.line = []) {line : List UInt8} (fits : LineFits ps line)
    (plain : Plain line) (noNul : (0 : UInt8) ∉ line)
    (second : (isCookie line = true ∧ ps.seenCookie = true) ∨
      (isCsrf line = true ∧ ps.seenCsrf = true)) (rest : List UInt8) :
    (httpStepper.run ps (line ++ (crlf ++ rest))).1.code = -400 := by
  have some_ : line.length ≠ 0 := by
    intro empty
    obtain rfl := List.length_eq_zero_iff.mp empty
    rcases second with ⟨named, -⟩ | ⟨named, -⟩ <;> exact absurd named (by decide)
  have gathered := run_line later noCr plain noNul
    (by rw [boundary]; simpa using fits.length)
    (by rw [boundary]; simpa using fits.bytes) (crlf ++ rest)
  rw [boundary, List.nil_append] at gathered
  have going (sawCr : Bool) :
      httpStepper.halted { ps with line := line, sawCr := sawCr } = false := by
    change HttpParser.halted { ps with line := line, sawCr := sawCr } = false
    simp [HttpParser.halted, later]
  have returned : httpStepper.step { ps with line := line } 0x0D =
      { ps with line := line, sawCr := true } := by
    refine (step_lines (Or.inr ?_) _).trans ?_
    · exact later
    · simp [lineByte, noCr]
  have ended : httpStepper.step { ps with line := line, sawCr := true } 0x0A =
      (lineEnd { ps with line := line, sawCr := false }).1 := by
    refine (step_lines (Or.inr ?_) _).trans ?_
    · exact later
    · simp [lineByte]
  have refused : lineEnd { ps with line := line, sawCr := false } =
      HttpParser.refuse (parseHeader
        { ps with
          line := line, sawCr := false, hdrbytes := ps.hdrbytes + (line.length + 2)
          nhdr := ps.nhdr + 1 }).1 400 := by
    have count := fits.count
    have bytes := fits.bytes
    have answer := @parseHeader_second
      { ps with
        line := line, sawCr := false, hdrbytes := ps.hdrbytes + (line.length + 2)
        nhdr := ps.nhdr + 1 } second
    unfold lineEnd
    dsimp only
    rw [if_neg (by rw [later]; decide), if_neg (Nat.not_lt.mpr bytes), if_neg some_,
      if_neg (by omega)]
    rcases read : parseHeader
      { ps with
        line := line, sawCr := false, hdrbytes := ps.hdrbytes + (line.length + 2)
        nhdr := ps.nhdr + 1 } with ⟨after, status | ⟨⟩⟩ <;> rw [read] at answer
    · cases answer
      rfl
    · cases answer
  rw [gathered]
  have first := going ps.sawCr
  change httpStepper.halted { ps with line := line } = false at first
  change (httpStepper.run { ps with line := line } (0x0D :: 0x0A :: rest)).1.code = _
  rw [httpStepper.run_cons first, returned, httpStepper.run_cons (going true), ended,
    refused]
  have halted (after : HttpParser) : httpStepper.halted (after.refuse 400).1 = true := rfl
  rw [httpStepper.run_of_halted (halted _)]
  rfl

end Second

end RlxFw.Http
