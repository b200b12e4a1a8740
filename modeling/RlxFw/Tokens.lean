import RlxFw.Prelude
import Mathlib.Data.List.Basic

/-!
# Tokens between separators

The tokens of a text, and those of a text that is read up to a bound: all but the
last are whole, and the last may be cut where the reading stops.
-/

namespace RlxFw.Tokens

variable {α : Type*} (separates : α → Bool)

/-- The tokens of a text: what lies between separators, but for the empty pieces. -/
def tokens [DecidableEq α] (s : List α) : List (List α) := (s.splitOnP separates).filter (· ≠ [])

/-- The tokens of `s`, as they stand there, that begin within its first `n` elements. -/
def begun [DecidableEq α] (s : List α) (n : Nat) : List (List α) :=
  (tokens separates s).take (tokens separates (s.take n)).length

/-- What a token that is going on has of a text. -/
def front (s : List α) : List α := s.takeWhile fun c => !separates c

/-- A token is going on behind a text. -/
def goesOn : Bool → List α → Bool
  | going, [] => going
  | _, c :: a => goesOn (!separates c) a

/-- The tokens of `a ++ b` that begin in `a`, one `going` on in front of it. -/
def startedIn (b : List α) : Bool → List α → List (List α)
  | _, [] => []
  | going, c :: a =>
      if separates c then startedIn b false a
      else if going then startedIn b true a
      else (c :: front separates (a ++ b)) :: startedIn b true a

variable {separates}

theorem splitOnP_eq (a : List α) :
    ∃ later, a.splitOnP separates = front separates a :: later ∧
      later.filter (· ≠ []) = startedIn separates [] true a := by
  induction a with
  | nil => exact ⟨[], rfl, rfl⟩
  | cons c a ih =>
      obtain ⟨later, pieces, started⟩ := ih
      rw [List.splitOnP_cons_eq_if_modifyHead, pieces]
      by_cases sep : separates c = true
      · refine ⟨front separates a :: later, by simp [sep, front], ?_⟩
        rw [startedIn, if_pos sep]
        cases a with
        | nil => simpa [front, startedIn] using started
        | cons d a =>
            by_cases sep' : separates d = true
            · rw [startedIn, if_pos sep'] at started ⊢
              simpa [front, sep'] using started
            · rw [startedIn, if_neg sep', if_pos rfl] at started
              rw [startedIn, if_neg sep', if_neg Bool.false_ne_true, List.append_nil, ← started]
              simp [front, sep']
      · refine ⟨later, by simp [sep, front], ?_⟩
        rw [startedIn, if_neg sep, if_pos rfl, started]

theorem tokens_eq_startedIn [DecidableEq α] (s : List α) :
    tokens separates s = startedIn separates [] false s := by
  unfold tokens
  cases s with
  | nil => rfl
  | cons c s =>
      obtain ⟨later, pieces, started⟩ := @splitOnP_eq _ separates (c :: s)
      rw [pieces]
      by_cases sep : separates c = true
      · rw [startedIn, if_pos sep] at started ⊢
        simpa [front, sep] using started
      · rw [startedIn, if_neg sep, if_pos rfl] at started
        rw [startedIn, if_neg sep, if_neg Bool.false_ne_true, List.append_nil, ← started]
        simp [front, sep]

theorem startedIn_append (going : Bool) (a b c : List α) :
    startedIn separates c going (a ++ b) =
      startedIn separates (b ++ c) going a ++
        startedIn separates c (goesOn separates going a) b := by
  induction a generalizing going with
  | nil => rfl
  | cons d a ih =>
      rw [List.cons_append, startedIn, startedIn, goesOn]
      by_cases sep : separates d = true
      · rw [if_pos sep, if_pos sep, ih, sep]
        rfl
      · rw [if_neg sep, if_neg sep, ih, (Bool.not_eq_true _).mp sep]
        cases going <;> simp [List.append_assoc]

theorem front_append {a : List α} (b : List α) (none : ∀ c ∈ a, separates c = false) :
    front separates (a ++ b) = a ++ front separates b :=
  List.takeWhile_append_of_pos (by simpa using none)

/-- A token ends with the first separator. -/
theorem front_append_of_separator {a : List α} (b : List α) {c : α} (member : c ∈ a)
    (sep : separates c = true) : front separates (a ++ b) = front separates a := by
  induction a with
  | nil => cases member
  | cons d a ih =>
      by_cases here : separates d = true
      · simp [front, here]
      · rcases List.mem_cons.mp member with rfl | later
        · exact absurd sep here
        · have same := ih later
          unfold front at same ⊢
          simp [here, same]

theorem startedIn_none {a : List α} (b : List α) (none : ∀ c ∈ a, separates c = false) :
    startedIn separates b true a = [] := by
  induction a with
  | nil => rfl
  | cons c a ih =>
      obtain ⟨here, later⟩ := List.forall_mem_cons.mp none
      rw [startedIn, here]
      exact ih later

/-- What lies behind a text adds to the last token begun in it, if to any. -/
theorem startedIn_cases (going : Bool) (a b : List α) :
    startedIn separates b going a = startedIn separates [] going a ∨
      ∃ whole cut t, startedIn separates [] going a = whole ++ [cut] ∧
        startedIn separates b going a = whole ++ [cut ++ t] ∧ t ≠ [] := by
  induction a generalizing going with
  | nil => exact .inl rfl
  | cons c a ih =>
      rw [startedIn, startedIn, List.append_nil]
      by_cases sep : separates c = true
      · rw [if_pos sep, if_pos sep]
        exact ih false
      · rw [if_neg sep, if_neg sep]
        cases going with
        | true => exact ih true
        | false =>
            rw [if_neg Bool.false_ne_true, if_neg Bool.false_ne_true]
            by_cases none : ∀ d ∈ a, separates d = false
            · rw [startedIn_none b none, startedIn_none [] none, front_append b none,
                ← List.append_nil a, front_append [] none, List.append_nil]
              by_cases empty : front separates b = []
              · rw [empty]
                exact .inl rfl
              · exact .inr ⟨[], c :: a, front separates b, by simp [front], rfl, empty⟩
            · push Not at none
              obtain ⟨d, member, isSep⟩ := none
              rw [front_append_of_separator b member (by simpa using isSep)]
              rcases ih true with same | ⟨whole, cut, t, cutEq, wholeEq, more⟩
              · exact .inl (congrArg _ same)
              · exact .inr ⟨(c :: front separates a) :: whole, cut, t, by rw [cutEq]; rfl,
                  by rw [wholeEq]; rfl, more⟩

variable [DecidableEq α]

theorem begun_eq_startedIn (a b : List α) :
    begun separates (a ++ b) a.length = startedIn separates b false a := by
  have same : (startedIn separates b false a).length = (startedIn separates [] false a).length := by
    rcases startedIn_cases false a b with same | ⟨whole, cut, t, cutEq, wholeEq, -⟩
    · rw [same]
    · rw [cutEq, wholeEq, List.length_append, List.length_append]
      rfl
  unfold begun
  rw [List.take_left, tokens_eq_startedIn, tokens_eq_startedIn, startedIn_append,
    List.append_nil, ← same, List.take_left]

/-- The tokens of a text that is read up to a bound are those begun there, but for the
last, which the bound may cut. -/
theorem begun_cases (s : List α) (n : Nat) :
    begun separates s n = tokens separates (s.take n) ∨
      ∃ whole cut t, tokens separates (s.take n) = whole ++ [cut] ∧
        begun separates s n = whole ++ [cut ++ t] ∧ t ≠ [] := by
  rcases Nat.lt_or_ge n s.length with inside | past
  · have begunEq := @begun_eq_startedIn _ separates _ (s.take n) (s.drop n)
    rw [List.take_append_drop, List.length_take_of_le (Nat.le_of_lt inside)] at begunEq
    rw [begunEq, tokens_eq_startedIn]
    exact startedIn_cases false (s.take n) (s.drop n)
  · left
    unfold begun
    rw [List.take_of_length_le past, List.take_length]

end RlxFw.Tokens
