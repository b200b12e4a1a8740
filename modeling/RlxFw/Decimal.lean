import RlxFw.Ascii
import Mathlib.Data.List.Induction
import Mathlib.Data.Nat.Digits.Defs

/-!
# Numbers in decimal

The digits that `%u` writes, as bytes, and what a reader that multiplies by ten
makes of them.
-/

namespace RlxFw.Decimal

/-- `%u`. -/
def text (n : Nat) : List UInt8 :=
  (Nat.toDigits 10 n).map fun c => UInt8.ofNat c.toNat

/-- The byte of a digit. -/
def digit (d : Nat) : UInt8 := UInt8.ofNat (0x30 + d)

/-- A byte that is a digit. -/
def IsDigit (c : UInt8) : Prop := 0x30 ≤ c ∧ c ≤ 0x39

instance (c : UInt8) : Decidable (IsDigit c) :=
  inferInstanceAs (Decidable (_ ∧ _))

/-- What digits come to, after `v`. -/
def value (v : Nat) (digits : List UInt8) : Nat :=
  digits.foldl (fun v c => v * 10 + (c.toNat - 0x30)) v

theorem IsDigit.ne {c other : UInt8} (isDigit : IsDigit c) (apart : ¬ IsDigit other) :
    c ≠ other :=
  fun same => apart (same ▸ isDigit)

theorem digitChar_digit : ∀ d < 10, UInt8.ofNat (Nat.digitChar d).toNat = digit d := by
  decide

theorem isDigit_digit : ∀ d < 10, IsDigit (digit d) := by
  decide

theorem digit_toNat : ∀ d < 10, (digit d).toNat - 0x30 = d := by
  decide

theorem isDigit_value : ∀ c, IsDigit c → c.toNat - 0x30 < 10 ∧
    digit (c.toNat - 0x30) = c ∧ (c ≠ 0x30 → 0 < c.toNat - 0x30) := by
  apply forall_byte
  decide

theorem text_of_lt {n : Nat} (small : n < 10) : text n = [digit n] := by
  unfold text
  rw [Nat.toDigits_of_lt_base small, List.map_singleton, digitChar_digit n small]

theorem text_of_le {n : Nat} (large : 10 ≤ n) :
    text n = text (n / 10) ++ [digit (n % 10)] := by
  unfold text
  rw [Nat.toDigits_of_base_le (by omega) large, List.map_append, List.map_singleton,
    digitChar_digit _ (Nat.mod_lt n (by omega))]

/-- What holds of one digit, and of a number with one more, holds of a text. -/
theorem text_induction (Holds : Nat → List UInt8 → Prop)
    (one : ∀ n < 10, Holds n [digit n])
    (more : ∀ n, 10 ≤ n → Holds (n / 10) (text (n / 10)) →
      Holds n (text (n / 10) ++ [digit (n % 10)])) (n : Nat) : Holds n (text n) := by
  induction n using Nat.strong_induction_on with
  | _ n ih =>
      rcases Nat.lt_or_ge n 10 with small | large
      · rw [text_of_lt small]
        exact one n small
      · rw [text_of_le large]
        exact more n large (ih (n / 10) (by omega))

theorem isDigit_text (n : Nat) : ∀ c ∈ text n, IsDigit c := by
  refine text_induction (fun _ digits => ∀ c ∈ digits, IsDigit c) ?_ ?_ n
  · intro n small c member
    rw [List.mem_singleton.mp member]
    exact isDigit_digit n small
  · intro n _ ih c member
    rcases List.mem_append.mp member with high | low
    · exact ih c high
    · rw [List.mem_singleton.mp low]
      exact isDigit_digit _ (Nat.mod_lt n (by omega))

theorem text_ne_nil (n : Nat) : text n ≠ [] := by
  refine text_induction (fun _ digits => digits ≠ []) ?_ ?_ n
  · intro n _
    exact List.cons_ne_nil _ _
  · intro n _ _
    simp

/-- No zero leads, but for zero itself. -/
theorem head_text {n : Nat} (pos : 0 < n) : ∃ c rest, text n = c :: rest ∧ c ≠ 0x30 := by
  have nonzero : ∀ d < 10, 0 < d → digit d ≠ 0x30 := by decide
  refine text_induction
    (fun n digits => 0 < n → ∃ c rest, digits = c :: rest ∧ c ≠ 0x30) ?_ ?_ n pos
  · intro n small pos
    exact ⟨_, [], rfl, nonzero n small pos⟩
  · intro n large ih _
    obtain ⟨c, rest, isText, lead⟩ := ih (by omega)
    exact ⟨c, rest ++ [digit (n % 10)], by rw [isText]; rfl, lead⟩

theorem value_text (n : Nat) : value 0 (text n) = n := by
  refine text_induction (fun n digits => value 0 digits = n) ?_ ?_ n
  · intro n small
    change 0 * 10 + ((digit n).toNat - 0x30) = n
    rw [digit_toNat n small]
    omega
  · intro n _ ih
    unfold value at ih ⊢
    rw [List.foldl_append, ih, List.foldl_cons, List.foldl_nil,
      digit_toNat _ (Nat.mod_lt n (by omega))]
    exact Nat.div_add_mod' n 10

theorem length_text_le {k : Nat} (pos : 0 < k) {n : Nat} (small : n < 10 ^ k) :
    (text n).length ≤ k := by
  induction k generalizing n with
  | zero => omega
  | succ k ih =>
      rcases Nat.lt_or_ge n 10 with one | large
      · rw [text_of_lt one]
        exact Nat.succ_le_succ (Nat.zero_le k)
      · have less : n / 10 < 10 ^ k := by
          rw [Nat.div_lt_iff_lt_mul (by omega), ← pow_succ]
          exact small
        have kPos : 0 < k := by
          rcases Nat.eq_zero_or_pos k with rfl | kPos
          · omega
          · exact kPos
        rw [text_of_le large, List.length_append]
        exact Nat.succ_le_succ (ih kPos less)

theorem lt_pow_length_text (n : Nat) : n < 10 ^ (text n).length := by
  refine text_induction (fun n digits => n < 10 ^ digits.length) ?_ ?_ n
  · intro n small
    exact small
  · intro n large ih
    rw [List.length_append, List.length_singleton, Nat.pow_succ]
    omega

theorem le_value (v : Nat) (digits : List UInt8) : v ≤ value v digits := by
  induction digits generalizing v with
  | nil => exact le_rfl
  | cons c digits ih => exact Nat.le_trans (by omega) (ih (v * 10 + (c.toNat - 0x30)))

/-- Digits that no zero leads are the text of their value. -/
theorem text_value {c : UInt8} {digits : List UInt8} (lead : c ≠ 0x30)
    (all : ∀ d ∈ c :: digits, IsDigit d) :
    0 < value 0 (c :: digits) ∧ text (value 0 (c :: digits)) = c :: digits := by
  induction digits using List.reverseRecOn with
  | nil =>
      obtain ⟨small, same, pos⟩ := isDigit_value c (all c List.mem_cons_self)
      have one : value 0 [c] = c.toNat - 0x30 := Nat.zero_add _
      rw [one, text_of_lt small, same]
      exact ⟨pos lead, rfl⟩
  | append_singleton digits d ih =>
      obtain ⟨pos, isText⟩ := ih fun e member =>
        all e (by rw [← List.cons_append]; exact List.mem_append_left _ member)
      obtain ⟨small, same, -⟩ := isDigit_value d (all d (by simp))
      have more : value 0 (c :: (digits ++ [d])) =
          value 0 (c :: digits) * 10 + (d.toNat - 0x30) := by
        unfold value
        rw [← List.cons_append, List.foldl_append]
        rfl
      have quotient : (value 0 (c :: digits) * 10 + (d.toNat - 0x30)) / 10 =
          value 0 (c :: digits) := by omega
      have remainder : (value 0 (c :: digits) * 10 + (d.toNat - 0x30)) % 10 =
          d.toNat - 0x30 := by omega
      rw [more, text_of_le (by omega), quotient, remainder, isText, same]
      exact ⟨by omega, List.cons_append⟩

/-- The digits that are the text of their value. -/
theorem text_value_iff {digits : List UInt8} (all : ∀ d ∈ digits, IsDigit d) :
    text (value 0 digits) = digits ↔
      digits ≠ [] ∧ (digits.head? = some 0x30 → digits.length = 1) := by
  cases digits with
  | nil => simp [text_ne_nil]
  | cons c rest =>
      by_cases lead : c = 0x30
      · subst lead
        constructor
        · intro canonical
          refine ⟨List.cons_ne_nil _ _, fun _ => ?_⟩
          rcases Nat.eq_zero_or_pos (value 0 (0x30 :: rest)) with zero | pos
          · rw [zero, text_of_lt (by decide)] at canonical
            rw [← canonical]
            rfl
          · obtain ⟨d, more, isText, notZero⟩ := head_text pos
            rw [isText] at canonical
            exact absurd (List.cons.inj canonical).1 notZero
        · rintro ⟨-, single⟩
          obtain rfl : rest = [] := by simpa using single rfl
          decide
      · have canonical := (text_value lead all).2
        simp [canonical, lead]

theorem length_le_three {n : Nat} : n < 256 → (text n).length ≤ 3 :=
  fun small => length_text_le (by decide) (by omega)

end RlxFw.Decimal
