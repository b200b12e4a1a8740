import RlxFw.HttpSegments

/-!
# The headers that were read

What a request's tokens are, told on its header lines: the value of the one
`Cookie` line split at its semicolons, and the value of the one `X-Rlx-Csrf`
line.  A history of the parser keeps the two together.
-/

namespace RlxFw.Http

/-! ## Header lines -/

/-- The name of a header line. -/
def fieldName (line : List UInt8) : List UInt8 := line.takeWhile fun c => c != 0x3A

/-- The value of a header line, without the blanks around it. -/
def fieldValue (line : List UInt8) : List UInt8 :=
  (((line.dropWhile fun c => c != 0x3A).drop 1).dropWhile isBlank).rdropWhile isBlank

/-- A line named `Cookie`, in any case. -/
def isCookie (line : List UInt8) : Bool := ciEq (fieldName line) (ascii "cookie")

/-- A line named `X-Rlx-Csrf`, in any case. -/
def isCsrf (line : List UInt8) : Bool := ciEq (fieldName line) (ascii "x-rlx-csrf")

/-- The value of the only line there is. -/
def soleValue : List (List UInt8) → List UInt8
  | [line] => fieldValue line
  | _ => []

/-! ## Cookies -/

/-- What stands between semicolons, with the first piece on top. -/
def pieces : List UInt8 → List UInt8 × List (List UInt8)
  | [] => ([], [])
  | c :: v =>
      if c = 0x3B then ([], (pieces v).1 :: (pieces v).2)
      else (c :: (pieces v).1, (pieces v).2)

/-- The name and the value of a piece that has both. -/
def cookieOf (piece : List UInt8) : Option (List UInt8 × List UInt8) :=
  let trimmed := piece.dropWhile isBlank
  match trimmed.dropWhile fun c => c != 0x3D with
  | [] => none
  | _ :: value => some (trimmed.takeWhile (fun c => c != 0x3D), value)

/-- The cookies of a value. -/
def cookiePairs (v : List UInt8) : List (List UInt8 × List UInt8) :=
  ((pieces v).1 :: (pieces v).2).filterMap cookieOf

/-- The token of a cookie: the last of its name decides. -/
def cookieToken (key : List UInt8) (v : List UInt8) : List UInt8 :=
  match (cookiePairs v).reverse.find? fun pair => pair.1 == key with
  | some pair => takeTok32 pair.2
  | none => []

/-- A token is absent, or 32 hex digits. -/
def Token (tok : List UInt8) : Prop :=
  tok.length = 32 ∧ ∀ c ∈ tok, (hexdig c).isSome = true

theorem takeTok32_cases (val : List UInt8) :
    takeTok32 val = [] ∨ Token (takeTok32 val) := by
  unfold takeTok32
  split
  · exact Or.inl rfl
  next size =>
  split
  · next hex => exact Or.inr ⟨not_not.mp size, List.all_eq_true.mp hex⟩
  · exact Or.inl rfl

theorem cookieToken_cases (key v : List UInt8) :
    cookieToken key v = [] ∨ Token (cookieToken key v) := by
  unfold cookieToken
  split
  · exact takeTok32_cases _
  · exact Or.inl rfl

theorem cookiePairs_gap {c : UInt8} (gap : cookieGap c = true) (v : List UInt8) :
    cookiePairs (c :: v) = cookiePairs v := by
  unfold cookiePairs
  by_cases semicolon : c = 0x3B
  · subst semicolon
    rfl
  · have blank : isBlank c = true := by
      simpa [cookieGap, semicolon] using gap
    rw [pieces, if_neg semicolon, List.filterMap_cons, List.filterMap_cons]
    have same : cookieOf (c :: (pieces v).1) = cookieOf (pieces v).1 := by
      unfold cookieOf
      rw [List.dropWhile_cons_of_pos blank]
    rw [same]

theorem cookiePairs_dropGap (v : List UInt8) :
    cookiePairs (v.dropWhile cookieGap) = cookiePairs v := by
  induction v with
  | nil => rfl
  | cons c v ih =>
      by_cases gap : cookieGap c = true
      · rw [List.dropWhile_cons_of_pos gap, ih, cookiePairs_gap gap]
      · rw [List.dropWhile_cons_of_neg gap]

theorem pieces_append {s : List UInt8} (whole : (0x3B : UInt8) ∉ s) (v : List UInt8) :
    pieces (s ++ v) = (s ++ (pieces v).1, (pieces v).2) := by
  induction s with
  | nil => rfl
  | cons c s ih =>
      obtain ⟨other, rest⟩ := not_or.mp (mt List.mem_cons.mpr whole)
      rw [List.cons_append, pieces, if_neg (Ne.symm other), ih rest]
      rfl

/-- A name without a value is no cookie. -/
theorem cookiePairs_bare {key : List UInt8}
    (plain : ∀ c ∈ key, cookieName c = true) (rest : List UInt8) :
    cookiePairs (key ++ 0x3B :: rest) = cookiePairs (0x3B :: rest) ∧
      cookiePairs key = [] := by
  have whole : (0x3B : UInt8) ∉ key := fun member => absurd (plain _ member) (by decide)
  have noPair : cookieOf key = none := by
    have none_ : (key.dropWhile isBlank).dropWhile (fun c => c != 0x3D) = [] := by
      refine List.dropWhile_eq_nil_iff.mpr fun c member => ?_
      have here := plain c ((List.dropWhile_suffix _).subset member)
      exact (Bool.and_eq_true_iff.mp here).1
    unfold cookieOf
    dsimp only
    rw [none_]
  constructor
  · unfold cookiePairs
    rw [pieces_append whole, pieces, if_pos rfl, List.append_nil, List.filterMap_cons,
      noPair]
    rfl
  · have alone := pieces_append whole []
    rw [List.append_nil] at alone
    unfold cookiePairs
    rw [alone, pieces, List.append_nil, List.filterMap_cons, noPair]
    rfl

/-- A name and a value, up to a semicolon, are a cookie. -/
theorem cookiePairs_pair {key value : List UInt8} {rest : List UInt8}
    (plain : ∀ c ∈ key, cookieName c = true) (begins : ∀ c ∈ key.head?, isBlank c = false)
    (whole : (0x3B : UInt8) ∉ value)
    (ends : rest = [] ∨ ∃ more, rest = 0x3B :: more) :
    cookiePairs (key ++ 0x3D :: (value ++ rest)) = (key, value) :: cookiePairs rest := by
  have last : (pieces rest).1 = [] ∧
      cookiePairs rest = (pieces rest).2.filterMap cookieOf := by
    rcases ends with rfl | ⟨more, rfl⟩
    · exact ⟨rfl, rfl⟩
    · exact ⟨rfl, rfl⟩
  have one : (0x3B : UInt8) ∉ key ++ 0x3D :: value := by
    rw [List.mem_append, List.mem_cons, not_or, not_or]
    exact ⟨fun member => absurd (plain _ member) (by decide), by decide, whole⟩
  have named : ∀ c ∈ key, (c != 0x3D) = true := fun c member =>
    (Bool.and_eq_true_iff.mp (plain c member)).1
  have trimmed : (key ++ 0x3D :: value).dropWhile isBlank = key ++ 0x3D :: value := by
    cases key with
    | nil => rfl
    | cons c key =>
        have first : ¬ isBlank c = true := by
          rw [begins c rfl]
          decide
        rw [List.cons_append, List.dropWhile_cons_of_neg first]
  have found : cookieOf (key ++ 0x3D :: value) = some (key, value) := by
    unfold cookieOf
    dsimp only
    rw [trimmed, List.dropWhile_append_of_pos named, List.takeWhile_append_of_pos named]
    simp
  have split : key ++ 0x3D :: (value ++ rest) = (key ++ 0x3D :: value) ++ rest := by
    rw [List.append_assoc, List.cons_append]
  rw [split, cookiePairs, pieces_append one, last.1, List.append_nil,
    List.filterMap_cons_some found, last.2]

/-- What a name and what follows it are, after the gap. -/
theorem cookie_split {v rest : List UInt8} {c : UInt8}
    (skipped : v.dropWhile cookieGap = c :: rest) :
    (c :: rest).takeWhile cookieName ++ (c :: rest).dropWhile cookieName = c :: rest ∧
      (∀ d ∈ (c :: rest).takeWhile cookieName, cookieName d = true) ∧
      ∀ d ∈ ((c :: rest).takeWhile cookieName).head?, isBlank d = false := by
  refine ⟨List.takeWhile_append_dropWhile, fun d => List.mem_takeWhile_imp, ?_⟩
  intro d head
  have gap := List.head?_dropWhile_not cookieGap v
  rw [skipped] at gap
  have isHead : d = c := by
    by_cases name : cookieName c = true
    · rw [List.takeWhile_cons_of_pos name] at head
      exact (Option.some_inj.mp head).symm
    · rw [List.takeWhile_cons_of_neg name] at head
      cases head
  rw [isHead]
  have noGap : cookieGap c = false := by simpa using gap
  exact (Bool.or_eq_false_iff.mp noGap).1

/-- Cookie after cookie is kept. -/
theorem parseCookie_eq (r : HttpReq) (v : List UInt8) :
    parseCookie r v = (cookiePairs v).foldl (fun r pair => keepCookie r pair.1 pair.2) r := by
  fun_induction parseCookie r v with
  | case1 r v skipped =>
      rw [← cookiePairs_dropGap, skipped]
      rfl
  | case2 r v c rest skipped named =>
      obtain ⟨split, plain, -⟩ := cookie_split skipped
      rw [named, List.append_nil] at split
      rw [← cookiePairs_dropGap, skipped, ← split, (cookiePairs_bare plain []).2]
      rfl
  | case3 r v c rest skipped d after named other ih =>
      obtain ⟨split, plain, -⟩ := cookie_split skipped
      have stop := List.head?_dropWhile_not cookieName (c :: rest)
      rw [named] at stop
      have semicolon : d = 0x3B := by
        have notName : cookieName d = false := by simpa using stop
        simpa [cookieName, other] using notName
      rw [named, semicolon] at split
      rw [ih, ← cookiePairs_dropGap v, skipped, ← split, (cookiePairs_bare plain after).1,
        semicolon]
  | case4 r v c rest skipped key d after named other ih =>
      obtain ⟨split, plain, begins⟩ := cookie_split skipped
      have equals : d = 0x3D := not_not.mp other
      have whole : (0x3B : UInt8) ∉ after.takeWhile cookieValue := fun member =>
        absurd (List.mem_takeWhile_imp member) (by decide)
      have ends : after.dropWhile cookieValue = [] ∨
          ∃ more, after.dropWhile cookieValue = 0x3B :: more := by
        have stop := List.head?_dropWhile_not cookieValue after
        cases shape : after.dropWhile cookieValue with
        | nil => exact Or.inl rfl
        | cons e more =>
            rw [shape] at stop
            have semicolon : e = 0x3B := by simpa [cookieValue] using stop
            exact Or.inr ⟨more, by rw [semicolon]⟩
      have pair := cookiePairs_pair plain begins whole ends
      rw [List.takeWhile_append_dropWhile, ← equals, ← named, split] at pair
      rw [ih, ← cookiePairs_dropGap v, skipped, pair]
      rfl

theorem keepCookie_sess (r : HttpReq) (pair : List UInt8 × List UInt8) :
    (keepCookie r pair.1 pair.2).sess =
      if pair.1 == ascii "rlxs" then takeTok32 pair.2 else r.sess := by
  unfold keepCookie
  by_cases session : pair.1 = ascii "rlxs"
  · rw [if_pos session, if_pos (beq_iff_eq.mpr session)]
  · rw [if_neg session, if_neg (mt beq_iff_eq.mp session)]
    split <;> rfl

theorem keepCookie_ccsrf (r : HttpReq) (pair : List UInt8 × List UInt8) :
    (keepCookie r pair.1 pair.2).ccsrf =
      if pair.1 == ascii "rlxc" then takeTok32 pair.2 else r.ccsrf := by
  unfold keepCookie
  by_cases session : pair.1 = ascii "rlxs"
  · have other : ¬ (pair.1 == ascii "rlxc") = true := by
      rw [session]
      decide
    rw [if_pos session, if_neg other]
  · rw [if_neg session]
    by_cases csrf : pair.1 = ascii "rlxc"
    · rw [if_pos csrf, if_pos (beq_iff_eq.mpr csrf)]
    · rw [if_neg csrf, if_neg (mt beq_iff_eq.mp csrf)]

/-- The last pair of a name decides what a fold over the pairs leaves in a field. -/
theorem foldl_last {State Value : Type} (keep : State → List UInt8 × List UInt8 → State)
    (field : State → Value) (key : List UInt8) (take : List UInt8 → Value)
    (step : ∀ s pair, field (keep s pair) =
      if pair.1 == key then take pair.2 else field s)
    (pairs : List (List UInt8 × List UInt8)) (s : State) :
    field (pairs.foldl keep s) =
      match pairs.reverse.find? fun pair => pair.1 == key with
      | some pair => take pair.2
      | none => field s := by
  induction pairs using List.reverseRecOn with
  | nil => rfl
  | append_singleton pairs pair ih =>
      rw [List.foldl_append, List.foldl_cons, List.foldl_nil, step, ih,
        List.reverse_append, List.reverse_singleton, List.singleton_append,
        List.find?_cons]
      cases pair.1 == key <;> rfl

/-- The tokens of a cookie line are told by its value. -/
theorem parseCookie_tokens {r : HttpReq} (noSess : r.sess = []) (noCsrf : r.ccsrf = [])
    (v : List UInt8) :
    (parseCookie r v).sess = cookieToken (ascii "rlxs") v ∧
      (parseCookie r v).ccsrf = cookieToken (ascii "rlxc") v := by
  rw [parseCookie_eq]
  constructor
  · rw [foldl_last _ HttpReq.sess _ takeTok32 keepCookie_sess, noSess]
    rfl
  · rw [foldl_last _ HttpReq.ccsrf _ takeTok32 keepCookie_ccsrf, noCsrf]
    rfl

/-- Cookies change nothing but the tokens they carry. -/
theorem parseCookie_frame (r : HttpReq) (v : List UInt8) :
    (parseCookie r v).method = r.method ∧ (parseCookie r v).path = r.path ∧
      (parseCookie r v).stream = r.stream ∧ (parseCookie r v).hcsrf = r.hcsrf := by
  fun_induction parseCookie r v with
  | case1 => exact ⟨rfl, rfl, rfl, rfl⟩
  | case2 => exact ⟨rfl, rfl, rfl, rfl⟩
  | case3 => assumption
  | case4 r v c rest skipped key d after named other ih =>
      have kept : (keepCookie r key (after.takeWhile cookieValue)).method = r.method ∧
          (keepCookie r key (after.takeWhile cookieValue)).path = r.path ∧
          (keepCookie r key (after.takeWhile cookieValue)).stream = r.stream ∧
          (keepCookie r key (after.takeWhile cookieValue)).hcsrf = r.hcsrf := by
        unfold keepCookie
        split_ifs <;> exact ⟨rfl, rfl, rfl, rfl⟩
      exact ⟨ih.1.trans kept.1, ih.2.1.trans kept.2.1, ih.2.2.1.trans kept.2.2.1,
        ih.2.2.2.trans kept.2.2.2⟩

/-! ## A header line is read -/

theorem ciEq_unique {name a b : List UInt8} (first : ciEq name a = true)
    (second : ciEq name b = true) : ciEq a b = true := by
  unfold ciEq at first second ⊢
  rw [← beq_iff_eq.mp first, second]

theorem isCookie_iff (line : List UInt8) :
    isCookie line = true ↔ headerName (fieldName line) = some .cookie := by
  unfold headerName isCookie
  constructor
  · intro named
    have other {lit : List UInt8} (differs : ciEq lit (ascii "cookie") = false) :
        ¬ ciEq (fieldName line) lit = true := fun same =>
      absurd (ciEq_unique same named) (by rw [differs]; decide)
    rw [if_neg (other (by decide)), if_neg (other (by decide)), if_pos named]
  · intro named
    repeat' split at named
    all_goals first | cases named; assumption | cases named

theorem isCsrf_iff (line : List UInt8) :
    isCsrf line = true ↔ headerName (fieldName line) = some .csrf := by
  unfold headerName isCsrf
  constructor
  · intro named
    have other {lit : List UInt8} (differs : ciEq lit (ascii "x-rlx-csrf") = false) :
        ¬ ciEq (fieldName line) lit = true := fun same =>
      absurd (ciEq_unique same named) (by rw [differs]; decide)
    rw [if_neg (other (by decide)), if_neg (other (by decide)), if_neg (other (by decide)),
      if_pos named]
  · intro named
    repeat' split at named
    all_goals first | cases named; assumption | cases named

/-- The names that are read are short. -/
theorem ciEq_length {a b : List UInt8} (same : ciEq a b = true) : a.length = b.length := by
  have lengths := congrArg List.length (beq_iff_eq.mp same)
  rwa [List.length_map, List.length_map] at lengths

/-- A line that is no token's leaves the tokens as they were. -/
structure Passed (ps ps' : HttpParser) : Prop where
  seenCookie : ps'.seenCookie = ps.seenCookie
  seenCsrf : ps'.seenCsrf = ps.seenCsrf
  sess : ps'.r.sess = ps.r.sess
  ccsrf : ps'.r.ccsrf = ps.r.ccsrf
  hcsrf : ps'.r.hcsrf = ps.r.hcsrf

/-- What reading a header line leaves. -/
inductive LineRead (ps : HttpParser) : HttpParser → Prop
  | cookie (named : isCookie ps.line = true) (other : isCsrf ps.line = false)
      (unseen : ps.seenCookie = false) :
      LineRead ps
        { ps with seenCookie := true, r := parseCookie ps.r (fieldValue ps.line) }
  | csrf (named : isCsrf ps.line = true) (other : isCookie ps.line = false)
      (unseen : ps.seenCsrf = false) :
      LineRead ps
        { ps with
          seenCsrf := true
          r := { ps.r with hcsrf := takeTok32 (fieldValue ps.line) } }
  | other (notCookie : isCookie ps.line = false) (notCsrf : isCsrf ps.line = false)
      (ps' : HttpParser) (passed : Passed ps ps') : LineRead ps ps'

/-- The request line's fields are not a header's to change. -/
theorem parseHeader_frame (ps : HttpParser) :
    (parseHeader ps).1.r.method = ps.r.method ∧ (parseHeader ps).1.r.path = ps.r.path ∧
      (parseHeader ps).1.r.stream = ps.r.stream ∧ (parseHeader ps).1.sawCr = ps.sawCr := by
  have numbered (value : List UInt8) :
      (contentLength ps value).1.r.method = ps.r.method ∧
        (contentLength ps value).1.r.path = ps.r.path ∧
        (contentLength ps value).1.r.stream = ps.r.stream ∧
        (contentLength ps value).1.sawCr = ps.sawCr := by
    unfold contentLength
    dsimp only
    repeat' split
    all_goals exact ⟨rfl, rfl, rfl, rfl⟩
  unfold parseHeader
  dsimp only
  split
  · exact ⟨rfl, rfl, rfl, rfl⟩
  split
  · exact ⟨rfl, rfl, rfl, rfl⟩
  split
  · exact ⟨rfl, rfl, rfl, rfl⟩
  split
  · exact ⟨rfl, rfl, rfl, rfl⟩
  cases headerName _ with
  | none => exact ⟨rfl, rfl, rfl, rfl⟩
  | some header =>
      cases header with
      | contentLength => exact numbered _
      | cookie =>
          dsimp only
          split
          · exact ⟨rfl, rfl, rfl, rfl⟩
          · have kept := parseCookie_frame ps.r
            exact ⟨(kept _).1, (kept _).2.1, (kept _).2.2.1, rfl⟩
      | _ =>
          dsimp only
          repeat' split
          all_goals exact ⟨rfl, rfl, rfl, rfl⟩

theorem contentLength_passed {ps ps' : HttpParser} {value : List UInt8}
    (read : contentLength ps value = (ps', .ok ())) : Passed ps ps' := by
  unfold contentLength at read
  dsimp only at read
  repeat' split at read
  all_goals cases read
  all_goals exact ⟨rfl, rfl, rfl, rfl, rfl⟩

theorem parseHeader_ok {ps ps' : HttpParser} (read : parseHeader ps = (ps', .ok ())) :
    LineRead ps ps' := by
  have cookie := isCookie_iff ps.line
  have csrf := isCsrf_iff ps.line
  unfold parseHeader at read
  dsimp only at read
  split at read
  · cases read
  split at read
  · cases read
  next colon after shape =>
  split at read
  · cases read
  have value : fieldValue ps.line = (after.dropWhile isBlank).rdropWhile isBlank := by
    rw [fieldValue, shape]
    rfl
  rw [← value] at read
  split at read
  · next long =>
      cases read
      have notCookie : isCookie ps.line = false := by
        refine Bool.eq_false_iff.mpr fun named => ?_
        have short : (fieldName ps.line).length = 6 := ciEq_length named
        exact absurd long (by rw [← fieldName, short]; decide)
      have notCsrf : isCsrf ps.line = false := by
        refine Bool.eq_false_iff.mpr fun named => ?_
        have short : (fieldName ps.line).length = 10 := ciEq_length named
        exact absurd long (by rw [← fieldName, short]; decide)
      exact .other notCookie notCsrf _ ⟨rfl, rfl, rfl, rfl, rfl⟩
  have other {header : Option HeaderName}
      (found : headerName (fieldName ps.line) = header)
      (isOther : header ≠ some .cookie ∧ header ≠ some .csrf)
      (passed : Passed ps ps') : LineRead ps ps' := by
    refine .other (Bool.eq_false_iff.mpr fun named => ?_)
      (Bool.eq_false_iff.mpr fun named => ?_) ps' passed
    · exact isOther.1 (found.symm.trans (cookie.mp named))
    · exact isOther.2 (found.symm.trans (csrf.mp named))
  split at read
  · next found => exact other found (by decide) (contentLength_passed read)
  · next found => split at read <;> cases read
  · next found =>
      split at read
      · cases read
      next unseen =>
      cases read
      refine .cookie (cookie.mpr found) ?_ (Bool.eq_false_iff.mpr unseen)
      exact Bool.eq_false_iff.mpr fun named =>
        absurd (found.symm.trans (csrf.mp named)) (by decide)
  · next found =>
      split at read
      · cases read
      next unseen =>
      cases read
      refine .csrf (csrf.mpr found) ?_ (Bool.eq_false_iff.mpr unseen)
      exact Bool.eq_false_iff.mpr fun named =>
        absurd (found.symm.trans (cookie.mp named)) (by decide)
  · next found =>
      split at read
      · cases read
      split at read
      all_goals cases read
      all_goals exact other found (by decide) ⟨rfl, rfl, rfl, rfl, rfl⟩
  · next found =>
      cases read
      exact other found (by decide) ⟨rfl, rfl, rfl, rfl, rfl⟩

/-- A second line of a token is refused. -/
theorem parseHeader_second {ps : HttpParser}
    (second : (isCookie ps.line = true ∧ ps.seenCookie = true) ∨
      (isCsrf ps.line = true ∧ ps.seenCsrf = true)) :
    (parseHeader ps).2 = .error 400 := by
  unfold parseHeader
  dsimp only
  split
  · rfl
  split
  · rfl
  split
  · rfl
  rcases second with ⟨named, seen⟩ | ⟨named, seen⟩
  · have short : (fieldName ps.line).length = 6 := ciEq_length named
    rw [← fieldName, if_neg (by rw [short]; decide), (isCookie_iff ps.line).mp named]
    dsimp only
    rw [if_pos seen]
  · have short : (fieldName ps.line).length = 10 := ciEq_length named
    rw [← fieldName, if_neg (by rw [short]; decide), (isCsrf_iff ps.line).mp named]
    dsimp only
    rw [if_pos seen]

end RlxFw.Http
