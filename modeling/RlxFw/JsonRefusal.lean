import RlxFw.JsonGrammar

/-!
# What a refused object leaves behind

`json_parse` with the object it fills.  A refusal returns with the members that were
counted so far, so that one behind the first member leaves some of them visible.
-/

namespace RlxFw.Json

/-- `struct json_obj` as far as it is counted, with what is returned. -/
structure Filled where
  members : List Member
  rc : Option Err
deriving DecidableEq, Repr

/-- The loop of `json_parse` with the object it fills. -/
def fillMembers : Nat → List Member → List UInt8 → List Member × Except Err (List UInt8)
  | 0, out, _ => (out, .error .many)
  | left + 1, out, s =>
      match jpMember out s with
      | .error e => (out, .error e)
      | .ok (m, s) =>
          match skipWs s with
          | 0x2C :: s => fillMembers left (out ++ [m]) s
          | 0x7D :: s => (out ++ [m], .ok s)
          | _ => (out ++ [m], .error .malformed)

/-- `json_parse` after its opening brace, with the object it fills. -/
def fillObject (s : List UInt8) : List Member × Except Err (List UInt8) :=
  match skipWs s with
  | 0x7D :: s => ([], .ok s)
  | s => fillMembers keysMax [] s

/-- The tail of `json_parse`, behind the closing brace. -/
def fillTail : List Member × Except Err (List UInt8) → Filled
  | (out, .error e) => ⟨out, some e⟩
  | (out, .ok s) => if skipWs s ≠ [] then ⟨out, some .trail⟩ else ⟨out, none⟩

/-- `json_parse` with the object it fills. -/
def jsonFill (p : List UInt8) : Filled :=
  if p.length > docMax then ⟨[], some .big⟩
  else if p.contains 0 then ⟨[], some .nul⟩
  else
    match skipWs p with
    | 0x7B :: s => fillTail (fillObject s)
    | _ => ⟨[], some .malformed⟩

/-! ## The same parser -/

/-- What is returned, with the members where that is success. -/
def Filled.outcome (f : Filled) : Except Err (List Member) :=
  match f.rc with
  | some e => .error e
  | none => .ok f.members

/-- The loop that fills an object is the loop. -/
theorem jpMembers_eq (left : Nat) (out : List Member) (s : List UInt8) :
    jpMembers left out s = (fillMembers left out s).2.map ((fillMembers left out s).1, ·) := by
  induction left generalizing out s with
  | zero => rfl
  | succ left ih =>
      rw [jpMembers, fillMembers]
      rcases jpMember out s with e | ⟨m, after⟩
      · rfl
      · dsimp only
        split <;> simp_all [Except.map]

theorem jpObject_eq (s : List UInt8) :
    jpObject s = (fillObject s).2.map ((fillObject s).1, ·) := by
  unfold jpObject fillObject
  split <;> simp_all [Except.map, jpMembers_eq]

theorem outcome_fillTail (f : List Member × Except Err (List UInt8)) :
    (fillTail f).outcome =
      match f.2.map (f.1, ·) with
      | .error e => .error e
      | .ok (members, s) => if skipWs s ≠ [] then .error .trail else .ok members := by
  rcases f with ⟨out, e | after⟩
  · rfl
  · change (if skipWs after ≠ [] then (⟨out, some .trail⟩ : Filled) else ⟨out, none⟩).outcome =
      if skipWs after ≠ [] then .error .trail else .ok out
    split <;> rfl

/-- The parser that fills an object is the parser. -/
theorem jsonParse_eq (p : List UInt8) : jsonParse p = (jsonFill p).outcome := by
  unfold jsonParse jsonFill
  by_cases big : p.length > docMax
  · rw [if_pos big, if_pos big]
    rfl
  rw [if_neg big, if_neg big]
  by_cases nul : p.contains 0 = true
  · rw [if_pos nul, if_pos nul]
    rfl
  rw [if_neg nul, if_neg nul]
  generalize skipWs p = text
  split
  · rename_i s
    have filled := outcome_fillTail (fillObject s)
    rw [← jpObject_eq] at filled
    exact filled.symm
  · simp_all [Filled.outcome]

/-! ## What is left -/

/-- A complete member stands behind the opening brace. -/
def BeginsMember (p : List UInt8) : Prop :=
  ∃ lead text rest m, Blanks lead ∧ MemberText text m ∧ Ends m.value rest ∧
    p = lead ++ 0x7B :: (text ++ rest)

/-- What was counted stays counted. -/
theorem prefix_fillMembers (left : Nat) (out : List Member) (s : List UInt8) :
    out <+: (fillMembers left out s).1 := by
  induction left generalizing out s with
  | zero => exact List.prefix_refl out
  | succ left ih =>
      rw [fillMembers]
      rcases jpMember out s with e | ⟨m, after⟩
      · exact List.prefix_refl out
      · dsimp only
        split
        · exact (List.prefix_append out [m]).trans (ih _ _)
        · exact List.prefix_append out [m]
        · exact List.prefix_append out [m]

/-- The loop leaves nothing exactly where the first member fails. -/
theorem fillMembers_eq_nil {left : Nat} {s : List UInt8} :
    (fillMembers (left + 1) [] s).1 = [] ↔ ¬ ∃ m rest, jpMember [] s = .ok (m, rest) := by
  rw [fillMembers]
  rcases jpMember [] s with e | ⟨m, after⟩
  · simp
  · have counted : ∀ {out}, [] ++ [m] <+: out → out ≠ [] := by
      rintro out ⟨rest, rfl⟩
      simp
    have some_ : ∃ m' rest, Except.ok (m, after) = (Except.ok (m', rest) :
        Except Err (Member × List UInt8)) := ⟨m, after, rfl⟩
    refine iff_of_false ?_ (not_not_intro some_)
    dsimp only
    split
    · exact counted (prefix_fillMembers _ _ _)
    · exact counted (List.prefix_refl _)
    · exact counted (List.prefix_refl _)

theorem fillObject_eq_nil {s : List UInt8} :
    (fillObject s).1 = [] ↔ ¬ ∃ m rest, jpMember [] s = .ok (m, rest) := by
  unfold fillObject
  split
  · rename_i after isBrace
    refine iff_of_true rfl ?_
    rintro ⟨m, rest, read⟩
    obtain ⟨text, isText, rfl, -⟩ := memberText_of_jpMember read
    obtain ⟨more, isQuote⟩ := isText.skipped rest
    exact absurd (List.cons.inj (isQuote.symm.trans isBrace)).1 (by decide)
  · rw [← jpMember_skipWs]
    exact fillMembers_eq_nil

theorem beginsMember_iff {p : List UInt8} :
    BeginsMember p ↔
      ∃ s, skipWs p = 0x7B :: s ∧ ∃ m rest, jpMember [] s = .ok (m, rest) := by
  constructor
  · rintro ⟨lead, text, rest, m, blanks, isText, ends, rfl⟩
    exact ⟨_, skipWs_cons blanks (by decide), m, rest,
      jpMember_of_memberText isText nofun ends⟩
  · rintro ⟨s, isBrace, m, rest, read⟩
    obtain ⟨text, isText, rfl, ends, -⟩ := memberText_of_jpMember read
    obtain ⟨lead, blanks, isSplit⟩ := exists_skipWs p
    rw [isBrace] at isSplit
    exact ⟨lead, text, rest, m, blanks, isText, ends, isSplit⟩

theorem members_fillTail (f : List Member × Except Err (List UInt8)) :
    (fillTail f).members = f.1 := by
  rcases f with ⟨out, e | after⟩
  · rfl
  · change (if skipWs after ≠ [] then (⟨out, some .trail⟩ : Filled) else ⟨out, none⟩).members = _
    split <;> rfl

theorem members_jsonFill_eq_nil {p : List UInt8} :
    (jsonFill p).members = [] ↔ docMax < p.length ∨ 0 ∈ p ∨ ¬ BeginsMember p := by
  unfold jsonFill
  by_cases big : p.length > docMax
  · rw [if_pos big]
    exact iff_of_true rfl (.inl big)
  rw [if_neg big]
  by_cases nul : p.contains 0 = true
  · rw [if_pos nul]
    exact iff_of_true rfl (.inr (.inl (List.contains_iff_mem.mp nul)))
  rw [if_neg nul]
  have noNul : 0 ∉ p := mt List.contains_iff_mem.mpr nul
  rw [or_iff_right big, or_iff_right noNul, beginsMember_iff]
  split
  · rename_i s isBrace
    rw [members_fillTail, fillObject_eq_nil]
    apply not_congr
    constructor
    · exact fun read => ⟨s, isBrace, read⟩
    · rintro ⟨s', isBrace', read⟩
      obtain rfl := (List.cons.inj (isBrace.symm.trans isBrace')).2
      exact read
  · rename_i noBrace
    refine iff_of_true rfl ?_
    rintro ⟨s, isBrace, -⟩
    exact noBrace s isBrace

theorem rc_jsonFill_eq_none {p : List UInt8} :
    (jsonFill p).rc = none ↔ ∃ members, Document p members := by
  have outcome := jsonParse_eq p
  unfold Filled.outcome at outcome
  constructor
  · intro done
    rw [done] at outcome
    exact ⟨_, document_of_jsonParse outcome⟩
  · rintro ⟨members, document⟩
    rw [document.parse] at outcome
    cases rc : (jsonFill p).rc with
    | none => rfl
    | some e =>
        rw [rc] at outcome
        cases outcome

/-- A refused document leaves no member exactly where it is too long, holds a NUL, or
does not begin with a complete member. -/
theorem refused_leaves_nothing_iff (p : List UInt8) :
    ((jsonFill p).rc ≠ none → (jsonFill p).members.length = 0) ↔
      (∃ members, Document p members) ∨ docMax < p.length ∨ 0 ∈ p ∨ ¬ BeginsMember p := by
  rw [List.length_eq_zero_iff, members_jsonFill_eq_nil, ← rc_jsonFill_eq_none]
  tauto

/-- A document cut behind its first member is refused, and its member can be got. -/
theorem cut_document_leaves_member :
    (jsonFill (ascii "\x7b\"a\":1,")).rc = some .malformed ∧
      (jsonFill (ascii "\x7b\"a\":1,")).members.length = 1 ∧
      jsonGet (jsonFill (ascii "\x7b\"a\":1,")).members (ascii "a") =
        some ⟨ascii "a", .num 1⟩ := by
  decide +kernel

end RlxFw.Json
