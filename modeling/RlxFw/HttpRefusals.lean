import RlxFw.HttpPath
import RlxFw.HttpResponse

/-!
# How the parser refuses

Every status that `http_feed` refuses with has its own reason phrase.
-/

namespace RlxFw.Httpd

open Http

/-- A status of `http_reason`. -/
def Listed (status : Nat) : Prop := status ∈ reasons.map Prod.fst

instance (status : Nat) : Decidable (Listed status) :=
  inferInstanceAs (Decidable (status ∈ reasons.map Prod.fst))

/-- An answer, or a refusal with a listed status. -/
def ListedAnswer {α : Type} (answer : Http.Answer α) : Prop :=
  ∀ status, answer = .error status → Listed status

section Parser

variable {α : Type}

theorem listed_ok (value : α) : ListedAnswer (.ok value : Http.Answer α) := nofun

theorem listed_error {status : Nat} (listed : Listed status) :
    ListedAnswer (.error status : Http.Answer α) := by
  rintro other ⟨⟩
  exact listed

theorem listed_put (w : PathWalk) (cap : Nat) (c : UInt8) : ListedAnswer (w.put cap c).2 := by
  unfold PathWalk.put
  split_ifs
  · exact listed_error (by decide)
  · exact listed_error (by decide)
  · exact listed_error (by decide)
  · exact listed_error (by decide)
  · exact listed_ok ()
  · exact listed_error (by decide)
  · dsimp only
    split_ifs
    · exact listed_error (by decide)
    · exact listed_ok ()

theorem listed_finish (w : PathWalk) : ListedAnswer w.finish.2 := by
  unfold PathWalk.finish
  split_ifs
  · exact listed_error (by decide)
  · exact listed_error (by decide)
  · exact listed_error (by decide)
  · exact listed_error (by decide)
  · exact listed_error (by decide)
  · exact listed_ok ()

theorem listed_decodeFrom (cap : Nat) (w : PathWalk) (target : List UInt8) :
    ListedAnswer (decodeFrom cap w target).2 := by
  have refusal : ListedAnswer (.error 400 : Http.Answer Unit) := listed_error (by decide)
  fun_induction decodeFrom cap w target with
  | case1 => exact listed_finish _
  | case2 => exact listed_finish _
  | case5 => assumption
  | case6 w _ _ h l _ _ _ _ _ c =>
      exact listed_put w cap _
  | case10 => assumption
  | case11 w c => exact listed_put w cap c
  | _ => exact refusal

theorem listed_path (target : List UInt8) : ListedAnswer (httpDecodePath target httpPathMax).2 := by
  have refusal : ListedAnswer (.error 400 : Http.Answer Nat) := listed_error (by decide)
  unfold httpDecodePath
  rw [if_neg (by decide)]
  cases target with
  | nil => exact refusal
  | cons c rest =>
      dsimp only
      split
      · exact refusal
      · have walked := listed_decodeFrom httpPathMax
          { out := [0x2F], seglen := 0, segstart := 1, nseg := 0 } rest
        rcases answer : decodeFrom httpPathMax
          { out := [0x2F], seglen := 0, segstart := 1, nseg := 0 } rest with ⟨w, status | ⟨⟩⟩ <;>
          rw [answer] at walked
        · exact listed_error (walked status rfl)
        · exact listed_ok _

theorem listed_reqline (r : HttpReq) (s : List UInt8) : ListedAnswer (parseReqline r s).2 := by
  have refusal : ListedAnswer (.error 400 : Http.Answer Unit) := listed_error (by decide)
  have version : ListedAnswer (.error 505 : Http.Answer Unit) := listed_error (by decide)
  unfold parseReqline
  dsimp only
  split
  · exact refusal
  split
  · exact refusal
  split
  · exact refusal
  split
  · split
    · exact version
    · exact refusal
  split
  · exact version
  split
  · split
    · exact refusal
    · exact listed_error (by decide)
  generalize (if s.takeWhile notSpace = ascii "GET" then HttpMethod.get
    else HttpMethod.post) = method
  split
  · exact refusal
  split
  · exact listed_error (by decide)
  split
  next status answer => exact listed_error (listed_path _ status (congrArg Prod.snd answer))
  next => split <;> exact listed_ok ()

theorem listed_header (ps : HttpParser) : ListedAnswer (parseHeader ps).2 := by
  have refusal : ListedAnswer (.error 400 : Http.Answer Unit) := listed_error (by decide)
  unfold parseHeader
  dsimp only
  split
  · exact refusal
  split
  · exact refusal
  split
  · exact refusal
  split
  · exact listed_ok ()
  cases headerName _ with
  | none => exact listed_ok ()
  | some header =>
      cases header with
      | contentLength =>
          dsimp only
          unfold contentLength
          dsimp only
          split
          · exact refusal
          cases parseU32Strict _ with
          | none => exact refusal
          | some v =>
              dsimp only
              by_cases long : (if ps.r.stream then httpUploadMax else httpBodyMax) < v
              · rw [if_pos long]
                exact listed_error (by decide)
              · rw [if_neg long]
                exact listed_ok ()
      | transferEncoding =>
          dsimp only
          split
          · exact refusal
          · exact listed_error (by decide)
      | _ =>
          dsimp only
          repeat' split
          all_goals first | exact refusal | exact listed_ok ()

theorem listed_end (ps : HttpParser) : ListedAnswer (endOfHeaders ps).2 := by
  unfold endOfHeaders
  dsimp only
  repeat' split
  all_goals first | exact listed_ok _ | exact listed_error (by decide)

/-- A parser that has refused has a status for it. -/
def Refuses (ps : HttpParser) : Prop := ps.state = .err → Listed ps.status

variable {ps : HttpParser}

theorem refuses_refuse (ps : HttpParser) {status : Nat} (listed : Listed status) :
    Refuses (ps.refuse status).1 := fun _ => listed

theorem refuses_going (going : ps.state ≠ .err) : Refuses ps := fun refused =>
  absurd refused going

theorem refuses_lineEnd (going : ps.state ≠ .err) : Refuses (lineEnd ps).1 := by
  unfold lineEnd
  dsimp only
  split
  · rcases read : parseReqline ps.r ps.line with ⟨r, status | ⟨⟩⟩
    · have listed := listed_reqline ps.r ps.line status (congrArg Prod.snd read)
      exact refuses_refuse _ listed
    · exact refuses_going nofun
  split
  · exact refuses_refuse _ (by decide)
  split
  · have answer := listed_end { ps with hdrbytes := ps.hdrbytes + (ps.line.length + 2) }
    rcases endOfHeaders_cases { ps with hdrbytes := ps.hdrbytes + (ps.line.length + 2) }
      with ⟨status, ends⟩ | ends | ends | ⟨-, -, ends⟩ <;> rw [ends] at answer ⊢
    · exact refuses_refuse _ (answer status rfl)
    · exact refuses_going nofun
    · exact refuses_going nofun
    · exact refuses_going nofun
  split
  · exact refuses_refuse _ (by decide)
  · have answer := listed_header
      { ps with hdrbytes := ps.hdrbytes + (ps.line.length + 2), nhdr := ps.nhdr + 1 }
    have kept := parseHeader_keeps
      { ps with hdrbytes := ps.hdrbytes + (ps.line.length + 2), nhdr := ps.nhdr + 1 }
    rcases parsed : parseHeader
      { ps with hdrbytes := ps.hdrbytes + (ps.line.length + 2), nhdr := ps.nhdr + 1 }
      with ⟨after, status | ⟨⟩⟩ <;> rw [parsed] at answer kept
    · exact refuses_refuse _ (answer status rfl)
    · have same : after.state = ps.state := kept.2.1
      exact refuses_going (same ▸ going)

theorem refuses_lineByte (going : ps.state ≠ .err) (c : UInt8) : Refuses (lineByte ps c).1 := by
  unfold lineByte
  dsimp only
  split
  · split
    · exact refuses_refuse _ (by decide)
    · exact refuses_lineEnd going
  split
  · exact refuses_going going
  split
  · exact refuses_refuse _ (by decide)
  split
  · exact refuses_refuse _ (by decide)
  by_cases full : (if ps.state = .reqline then httpReqlineMax else httpLineMax) ≤ ps.line.length
  · rw [if_pos full]
    refine refuses_refuse _ ?_
    split <;> decide
  rw [if_neg full]
  split
  · exact refuses_refuse _ (by decide)
  · exact refuses_going going

theorem refuses_bodyBytes (ps : HttpParser) (going : ps.state ≠ .err) (i : Nat)
    (rest : List UInt8) : Refuses (bodyBytes ps i rest).1 := by
  unfold bodyBytes
  dsimp only
  have long : Listed 413 := by decide
  split
  · exact fun _ => long
  split
  · exact refuses_going nofun
  · exact refuses_going going

/-- A parser whose refusals can all be answered. -/
structure Answerable (ps : HttpParser) : Prop where
  sound : ps.Sound
  refuses : Refuses ps

theorem answerable_init : Answerable httpParseInit := ⟨sound_httpParseInit, nofun⟩

theorem Answerable.feed (answerable : Answerable ps) (p : List UInt8) :
    Answerable (httpFeed ps p).1 ∧ (httpFeed ps p).2.1 = (httpFeed ps p).1.code := by
  have keeps : ∀ (ps : HttpParser) (b : UInt8), Answerable ps → httpStepper.halted ps = false →
      Answerable (httpStepper.step ps b) := by
    rintro ps b ⟨sound, -⟩ going
    refine ⟨sound_step sound going b, ?_⟩
    rcases going_cases going with inLines | inBody
    · rw [step_lines inLines]
      exact refuses_lineByte (by rcases inLines with first | later <;> simp [*]) b
    · change Refuses (httpFeed ps [b]).1
      rw [httpFeed_body inBody]
      exact refuses_bodyBytes ps (by simp [inBody]) 0 [b]
  rw [httpFeed_eq_run answerable.sound]
  exact ⟨httpStepper.run_keeps keeps answerable p, rfl⟩

/-- A code below zero is a refusal, and tells its status. -/
theorem Answerable.listed (answerable : Answerable ps) (refused : ps.code < 0) :
    Listed (-ps.code).toNat := by
  unfold HttpParser.code at *
  cases state : ps.state <;> simp only [state] at refused ⊢
  case err => simpa using answerable.refuses state
  all_goals omega

end Parser

end RlxFw.Httpd
