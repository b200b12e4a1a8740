import RlxFw.HttpRequest

/-!
# The decoded path

What `http_decode_path` accepts: at most two segments of plain bytes, none of
them a dot segment, in a text that decodes to itself.
-/

namespace RlxFw.Http

/-! ## Paths of segments -/

/-- A segment of an accepted path. -/
structure GoodSegment (seg : List UInt8) : Prop where
  nonempty : seg ≠ []
  bytes : ∀ c ∈ seg, pathByteOk c = true ∧ c ≠ 0x2F
  notDot : seg ≠ ascii "."
  notDots : seg ≠ ascii ".."
  short : seg.length ≤ httpNameMax

/-- The text of a path, a slash before each segment. -/
def pathOf (segs : List (List UInt8)) : List UInt8 :=
  if segs = [] then [0x2F] else segs.flatMap fun seg => 0x2F :: seg

/-- Slashes after the segments are slashes before them, one place on. -/
theorem slashes_shift (segs : List (List UInt8)) (cur : List UInt8) :
    0x2F :: (segs.flatMap (fun seg => seg ++ [0x2F]) ++ cur) =
      (segs ++ [cur]).flatMap fun seg => 0x2F :: seg := by
  induction segs with
  | nil => simp
  | cons seg segs ih =>
      rw [List.cons_append, List.flatMap_cons, List.flatMap_cons, ← ih]
      simp

/-- What a path accepted within `cap` bytes is. -/
structure DecodedPath (cap : Nat) (out : List UInt8) : Prop where
  begins : out.head? = some 0x2F
  segments : ∃ segs : List (List UInt8),
    segs.length ≤ 2 ∧ (∀ seg ∈ segs, GoodSegment seg) ∧ out = pathOf segs
  noParent : ¬ ascii ".." <:+: out
  noEmpty : ¬ ascii "//" <:+: out
  fits : out.length + 1 ≤ cap

/-! ## The walk -/

/-- The walk a path starts with. -/
def PathWalk.start : PathWalk := { out := [0x2F], seglen := 0, segstart := 1, nseg := 0 }

/-- Bytes put one after the other. -/
def PathWalk.putAll (cap : Nat) : PathWalk → List UInt8 → Option PathWalk
  | w, [] => some w
  | w, c :: rest =>
      match w.put cap c with
      | (w, .ok ()) => putAll cap w rest
      | _ => none

theorem PathWalk.putAll_append (cap : Nat) (w : PathWalk) (s t : List UInt8) :
    w.putAll cap (s ++ t) = (w.putAll cap s).bind fun w => w.putAll cap t := by
  induction s generalizing w with
  | nil => rfl
  | cons c s ih =>
      rw [List.cons_append, putAll, putAll]
      split
      · exact ih _
      · rfl

/-- A walk that has been through whole segments and is in one. -/
structure Walked (cap : Nat) (w : PathWalk) (segs : List (List UInt8))
    (cur : List UInt8) : Prop where
  out : w.out = 0x2F :: (segs.flatMap (fun seg => seg ++ [0x2F]) ++ cur)
  seglen : w.seglen = cur.length
  segstart : w.segstart + cur.length = w.out.length
  nseg : w.nseg = segs.length
  few : segs.length ≤ 2
  good : ∀ seg ∈ segs, GoodSegment seg
  bytes : ∀ c ∈ cur, pathByteOk c = true ∧ c ≠ 0x2F
  short : cur.length ≤ httpNameMax
  fits : w.out.length + 1 ≤ cap
  again : PathWalk.start.putAll cap w.out.tail = some w

theorem walked_start {cap : Nat} (room : 2 ≤ cap) : Walked cap PathWalk.start [] [] where
  out := rfl
  seglen := rfl
  segstart := rfl
  nseg := rfl
  few := by decide
  good := fun seg member => absurd member List.not_mem_nil
  bytes := fun c member => absurd member List.not_mem_nil
  short := by decide
  fits := room
  again := rfl

section Walk

variable {cap : Nat} {w : PathWalk} {segs : List (List UInt8)} {cur : List UInt8}

theorem Walked.dots_iff (walked : Walked cap w segs cur) :
    w.dots ↔ cur = ascii "." ∨ cur = ascii ".." := by
  have start : w.segstart = (0x2F :: segs.flatMap fun seg => seg ++ [0x2F]).length := by
    have length := walked.segstart
    rw [walked.out, ← List.cons_append, List.length_append] at length
    omega
  have read (i : Nat) : byteAt w.out (w.segstart + i) = byteAt cur i := by
    rw [walked.out, ← List.cons_append, start, byteAt, byteAt,
      List.getD_eq_getElem?_getD, List.getElem?_append_right (Nat.le_add_right _ _),
      Nat.add_sub_cancel_left, List.getD_eq_getElem?_getD]
  unfold PathWalk.dots
  rw [walked.seglen, ← Nat.add_zero w.segstart, Nat.add_assoc, read, read]
  constructor
  · rintro (⟨one, dot⟩ | ⟨two, dot, dot'⟩)
    · obtain ⟨c, rfl⟩ := List.length_eq_one_iff.mp one
      exact Or.inl (by rw [show c = 0x2E from dot]; rfl)
    · obtain ⟨c, d, rfl⟩ := List.length_eq_two.mp two
      exact Or.inr (by rw [show c = 0x2E from dot, show d = 0x2E from dot']; rfl)
  · rintro (rfl | rfl)
    · exact Or.inl ⟨rfl, rfl⟩
    · exact Or.inr ⟨rfl, rfl, rfl⟩

/-- A byte that is put keeps the walk a walk. -/
theorem Walked.put (walked : Walked cap w segs cur) {c : UInt8}
    (allowed : pathByteOk c = true) {w' : PathWalk} (put : w.put cap c = (w', .ok ())) :
    ∃ segs' cur', Walked cap w' segs' cur' := by
  have replay : PathWalk.start.putAll cap (w.out.tail ++ [c]) = some w' := by
    rw [PathWalk.putAll_append, walked.again, Option.bind_some, PathWalk.putAll, put]
    rfl
  have tail (d : UInt8) : (w.out ++ [d]).tail = w.out.tail ++ [d] := by
    rw [walked.out]
    rfl
  unfold PathWalk.put at put
  by_cases slash : c = 0x2F
  · subst slash
    rw [if_pos rfl] at put
    split at put
    · cases put
    next some_ =>
    split at put
    · cases put
    next plain =>
    split at put
    · cases put
    next few =>
    split at put
    · cases put
    next room =>
    cases put
    have segment : GoodSegment cur :=
      { nonempty := fun empty => some_ (by rw [walked.seglen, empty]; rfl)
        bytes := walked.bytes
        notDot := fun dot => plain (walked.dots_iff.mpr (Or.inl dot))
        notDots := fun dots => plain (walked.dots_iff.mpr (Or.inr dots))
        short := walked.short }
    exact ⟨segs ++ [cur], [],
      { out := by simp [walked.out, List.flatMap_append]
        seglen := rfl
        segstart := by simp
        nseg := by rw [walked.nseg, List.length_append, List.length_singleton]
        few := by
          rw [walked.nseg] at few
          rw [List.length_append, List.length_singleton]
          exact Nat.not_lt.mp few
        good := by
          intro seg member
          rcases List.mem_append.mp member with before | last
          · exact walked.good seg before
          · rw [List.mem_singleton.mp last]
            exact segment
        bytes := fun c member => absurd member List.not_mem_nil
        short := by decide
        fits := by
          rw [List.length_append, List.length_singleton]
          exact Nat.not_le.mp room
        again := by
          rw [tail]
          exact replay }⟩
  · rw [if_neg slash] at put
    split at put
    · cases put
    next room =>
    dsimp only at put
    split at put
    · cases put
    next short =>
    cases put
    exact ⟨segs, cur ++ [c],
      { out := by simp [walked.out]
        seglen := by rw [walked.seglen, List.length_append, List.length_singleton]
        segstart := by
          rw [List.length_append, List.length_append, ← walked.segstart, Nat.add_assoc]
        nseg := walked.nseg
        few := walked.few
        good := walked.good
        bytes := by
          intro d member
          rcases List.mem_append.mp member with before | last
          · exact walked.bytes d before
          · rw [List.mem_singleton.mp last]
            exact ⟨allowed, slash⟩
        short := by
          rw [walked.seglen] at short
          rw [List.length_append, List.length_singleton]
          exact Nat.not_lt.mp short
        fits := by
          rw [List.length_append, List.length_singleton]
          exact Nat.not_le.mp room
        again := by
          rw [tail]
          exact replay }⟩

/-- A walk that ends well has been walked to its end. -/
theorem Walked.decodeFrom (walked : Walked cap w segs cur) {rest : List UInt8}
    {w' : PathWalk} (decoded : Http.decodeFrom cap w rest = (w', .ok ())) :
    ∃ segs' cur', Walked cap w' segs' cur' ∧ w'.finish = (w', .ok ()) := by
  have ended : ∀ (w : PathWalk), w.finish = (w', .ok ()) → w' = w := by
    intro w finish
    unfold PathWalk.finish at finish
    repeat' split at finish
    all_goals cases finish
    rfl
  fun_induction Http.decodeFrom cap w rest generalizing segs cur
  case case1 | case2 =>
    obtain rfl := ended _ decoded
    exact ⟨segs, cur, walked, decoded⟩
  case case5 allowed _ put _ ih | case10 allowed _ put ih =>
    obtain ⟨segs', cur', next⟩ := walked.put allowed put
    exact ih next decoded
  case case6 refused | case11 refused => exact absurd decoded (refused w')
  all_goals cases decoded

/-- Plain bytes are decoded as they stand. -/
theorem decodeFrom_putAll {bytes : List UInt8} {w' : PathWalk}
    (plain : ∀ c ∈ bytes, pathByteOk c = true) (put : w.putAll cap bytes = some w') :
    Http.decodeFrom cap w bytes = w'.finish := by
  have unencoded : ∀ c : UInt8, pathByteOk c = true → c ≠ 0x3F ∧ c ≠ 0x25 := by
    apply forall_byte
    decide
  induction bytes generalizing w with
  | nil =>
      cases put
      rfl
  | cons c bytes ih =>
      have allowed := plain c List.mem_cons_self
      obtain ⟨notQuery, notPercent⟩ := unencoded c allowed
      rw [PathWalk.putAll] at put
      rw [Http.decodeFrom.eq_def]
      dsimp only
      rw [if_neg notQuery, if_neg notPercent, if_pos allowed]
      rcases step : w.put cap c with ⟨next, _ | ⟨⟩⟩
      · rw [step] at put
        cases put
      · rw [step] at put
        exact ih (fun d member => plain d (List.mem_cons_of_mem c member)) put

/-- The bytes of a walk are plain. -/
theorem Walked.plain (walked : Walked cap w segs cur) :
    ∀ c ∈ w.out.tail, pathByteOk c = true := by
  intro c member
  rw [walked.out, List.tail_cons, List.mem_append, List.mem_flatMap] at member
  rcases member with ⟨seg, whole, inside⟩ | inside
  · rcases List.mem_append.mp inside with here | slash
    · exact ((walked.good seg whole).bytes c here).1
    · rw [List.mem_singleton.mp slash]
      rfl
  · exact (walked.bytes c inside).1

/-- A walk that ends well has been through the segments of a path. -/
theorem Walked.decodedPath (walked : Walked cap w segs cur)
    (finish : w.finish = (w, .ok ())) : DecodedPath cap w.out := by
  unfold PathWalk.finish at finish
  split at finish
  · cases finish
  next plain =>
  split at finish
  · cases finish
  next trailing =>
  split at finish
  · cases finish
  next few =>
  split at finish
  · cases finish
  next noParent =>
  split at finish
  · cases finish
  next noEmpty =>
  refine ⟨by rw [walked.out]; rfl, ?_, noParent, noEmpty, walked.fits⟩
  by_cases empty : cur = []
  · have alone : segs = [] := by
      cases segs with
      | nil => rfl
      | cons seg segs =>
          refine absurd ⟨by rw [walked.seglen, empty]; rfl, ?_⟩ trailing
          rw [walked.out, List.length_cons, List.flatMap_cons, List.length_append,
            List.length_append, List.length_append, List.length_singleton]
          omega
    exact ⟨[], by decide, fun seg member => absurd member List.not_mem_nil,
      by rw [walked.out, empty, alone]; rfl⟩
  · have pos : 0 < cur.length := List.length_pos_iff.mpr empty
    rw [walked.seglen, walked.nseg] at few
    refine ⟨segs ++ [cur], ?_, ?_, ?_⟩
    · rw [List.length_append, List.length_singleton]
      omega
    · intro seg member
      rcases List.mem_append.mp member with before | last
      · exact walked.good seg before
      · rw [List.mem_singleton.mp last]
        exact
          { nonempty := empty
            bytes := walked.bytes
            notDot := fun dot => plain (walked.dots_iff.mpr (Or.inl dot))
            notDots := fun dots => plain (walked.dots_iff.mpr (Or.inr dots))
            short := walked.short }
    · rw [walked.out, slashes_shift, pathOf, if_neg (by simp)]

end Walk

/-! ## The query -/

/-- The mark ends a path wherever it stands, inside an escape as well. -/
theorem decodeFrom_query (cap : Nat) (query : List UInt8) :
    ∀ (bytes : List UInt8) (w : PathWalk),
      decodeFrom cap w (bytes ++ 0x3F :: query) = decodeFrom cap w bytes
  | [], w => by
      rw [List.nil_append, decodeFrom.eq_def, decodeFrom.eq_def cap w []]
      exact if_pos rfl
  | [c], w => by
      have ih := decodeFrom_query cap query []
      have notHex : hexdig 0x3F = none := by decide
      rw [List.cons_append, decodeFrom.eq_def, decodeFrom.eq_def cap w [c]]
      simp only [ih]
      cases query <;> simp only [List.nil_append, notHex]
  | [c, h], w => by
      have ih := decodeFrom_query cap query [h]
      have notHex : hexdig 0x3F = none := by decide
      rw [List.cons_append, decodeFrom.eq_def, decodeFrom.eq_def cap w [c, h]]
      simp only [List.cons_append, List.nil_append] at ih ⊢
      simp only [ih, notHex]
      split_ifs <;> try rfl
      cases hexdig _ <;> rfl
  | c :: h :: l :: rest, w => by
      have ih := decodeFrom_query cap query rest
      have ih' := decodeFrom_query cap query (h :: l :: rest)
      rw [List.cons_append, decodeFrom.eq_def, decodeFrom.eq_def cap w (c :: h :: l :: rest)]
      simp only [List.cons_append] at ih' ⊢
      simp only [ih, ih']

theorem httpDecodePath_query (target query : List UInt8) (cap : Nat) :
    httpDecodePath (target ++ 0x3F :: query) cap = httpDecodePath target cap := by
  cases target with
  | nil => rfl
  | cons c rest =>
      rw [List.cons_append, httpDecodePath, httpDecodePath]
      dsimp only
      rw [decodeFrom_query]

/-! ## Accepted targets -/

/-- The walk behind an accepted target. -/
theorem walked_of_accepted {target out : List UInt8} {cap n : Nat}
    (accepted : httpDecodePath target cap = (out, .ok n)) :
    ∃ w segs cur, Walked cap w segs cur ∧ w.finish = (w, .ok ()) ∧ w.out = out ∧
      out.length = n := by
  unfold httpDecodePath at accepted
  split at accepted
  · cases accepted
  next room =>
  split at accepted
  · cases accepted
  · split at accepted
    · cases accepted
    · dsimp only at accepted
      split at accepted
      · next w decoded =>
          cases accepted
          obtain ⟨segs, cur, walked, finish⟩ :=
            (walked_start (Nat.not_lt.mp room)).decodeFrom decoded
          exact ⟨w, segs, cur, walked, finish, rfl, rfl⟩
      · cases accepted

theorem decode_again {target out : List UInt8} {cap n : Nat}
    (accepted : httpDecodePath target cap = (out, .ok n)) :
    httpDecodePath out cap = (out, .ok n) := by
  obtain ⟨w, segs, cur, walked, finish, rfl, rfl⟩ := walked_of_accepted accepted
  have room : ¬ cap < 2 := by
    have fits := walked.fits
    rw [walked.out, List.length_cons] at fits
    omega
  have begins : w.out = 0x2F :: w.out.tail := by
    rw [walked.out]
    rfl
  have decoded : decodeFrom cap PathWalk.start w.out.tail = (w, .ok ()) :=
    (decodeFrom_putAll walked.plain walked.again).trans finish
  rw [begins, httpDecodePath, if_neg room]
  dsimp only
  rw [if_neg (not_not.mpr rfl)]
  rw [PathWalk.start] at decoded
  rw [decoded, ← begins]

/-- What decoding a target promises when it accepts. -/
structure DecodesSoundly (target : List UInt8) (cap : Nat) (out : List UInt8) (n : Nat) :
    Prop where
  length : out.length = n
  path : DecodedPath cap out
  /-- The query, whatever it is, changes nothing. -/
  query : ∀ path query query' : List UInt8, target = path ++ 0x3F :: query →
    httpDecodePath path cap = (out, .ok n) ∧
      httpDecodePath (path ++ 0x3F :: query') cap = (out, .ok n)
  again : httpDecodePath out cap = (out, .ok n)

/-- Decoding is sound and leaves nothing to decode. -/
theorem decode_path_sound (target : List UInt8) (cap : Nat) (out : List UInt8) (n : Nat)
    (accepted : httpDecodePath target cap = (out, .ok n)) :
    DecodesSoundly target cap out n := by
  obtain ⟨w, segs, cur, walked, finish, isOut, length⟩ := walked_of_accepted accepted
  refine ⟨length, isOut ▸ walked.decodedPath finish, ?_, decode_again accepted⟩
  rintro path query query' rfl
  rw [httpDecodePath_query] at accepted ⊢
  exact ⟨accepted, accepted⟩

theorem decode_path_sound_status : DecodesSoundly (ascii "/api/%73tatus?x=%2e") httpPathMax
    (ascii "/api/status") 11 :=
  decode_path_sound _ _ _ _ (by decide +kernel)

end RlxFw.Http
