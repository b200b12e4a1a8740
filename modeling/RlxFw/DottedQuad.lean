import RlxFw.Decimal
import Mathlib.Data.List.Basic

/-!
# Dotted texts

Octets in decimal with dots between them, each in its one spelling, and the reader
that accepts these texts and no others.
-/

namespace RlxFw.DottedQuad

open Decimal (IsDigit value)

/-- Octets, each after a dot. -/
def dotted (octets : List UInt8) : List UInt8 :=
  octets.flatMap fun x => 0x2E :: Decimal.text x.toNat

/-- Octets with dots between them. -/
def text : List UInt8 → List UInt8
  | [] => []
  | x :: octets => Decimal.text x.toNat ++ dotted octets

/-- The digits that lead a text. -/
def digits (s : List UInt8) : List UInt8 := s.takeWhile fun c => decide (IsDigit c)

/-- What follows the digits that lead a text. -/
def after (s : List UInt8) : List UInt8 := s.dropWhile fun c => decide (IsDigit c)

/-- An octet that leads a text in its one spelling, and what follows it. -/
def octet (s : List UInt8) : Option (UInt8 × List UInt8) :=
  if value 0 (digits s) < 256 ∧ Decimal.text (value 0 (digits s)) = digits s then
    some (UInt8.ofNat (value 0 (digits s)), after s)
  else none

/-- So many octets, each after a dot, and nothing else. -/
def more : Nat → List UInt8 → Option (List UInt8)
  | 0, s => if s = [] then some [] else none
  | left + 1, s =>
      if s.head? = some 0x2E then
        (octet s.tail).bind fun found => (more left found.2).map (found.1 :: ·)
      else none

/-- Four octets with dots between them, and nothing else. -/
def read (s : List UInt8) : Option (List UInt8) :=
  (octet s).bind fun found => (more 3 found.2).map (found.1 :: ·)

/-! ## An octet -/

@[simp]
theorem digits_nil : digits [] = [] := rfl

@[simp]
theorem after_nil : after [] = [] := rfl

theorem digits_of_isDigit {c : UInt8} {s : List UInt8} (digit : IsDigit c) :
    digits (c :: s) = c :: digits s ∧ after (c :: s) = after s := by
  simp [digits, after, digit]

theorem digits_of_not_isDigit {c : UInt8} {s : List UInt8} (other : ¬ IsDigit c) :
    digits (c :: s) = [] ∧ after (c :: s) = c :: s := by
  simp [digits, after, other]

theorem head?_of_digits {s : List UInt8} (some_ : digits s ≠ []) :
    (digits s).head? = s.head? := by
  cases s with
  | nil => exact absurd rfl some_
  | cons c s =>
      by_cases digit : IsDigit c
      · rw [(digits_of_isDigit digit).1]
        rfl
      · exact absurd (digits_of_not_isDigit digit).1 some_

theorem digits_append_after (s : List UInt8) : digits s ++ after s = s :=
  List.takeWhile_append_dropWhile

theorem isDigit_digits {s : List UInt8} : ∀ c ∈ digits s, IsDigit c :=
  fun c member => by simpa using List.mem_takeWhile_imp member

theorem not_isDigit_after {s : List UInt8} : ∀ c ∈ (after s).head?, ¬ IsDigit c := by
  intro c isHead digit
  have stops := List.head?_dropWhile_not (fun c => decide (IsDigit c)) s
  unfold after at isHead
  rw [Option.mem_def.mp isHead] at stops
  simp [digit] at stops

/-- Digits end where something else begins. -/
theorem digits_append {front rest : List UInt8} (all : ∀ c ∈ front, IsDigit c)
    (stops : ∀ c ∈ rest.head?, ¬ IsDigit c) :
    digits (front ++ rest) = front ∧ after (front ++ rest) = rest := by
  have none : digits rest = [] ∧ after rest = rest := by
    cases rest with
    | nil => exact ⟨rfl, rfl⟩
    | cons c rest => exact digits_of_not_isDigit (stops c rfl)
  have every : ∀ c ∈ front, decide (IsDigit c) = true :=
    fun c member => decide_eq_true (all c member)
  constructor
  · exact (List.takeWhile_append_of_pos every).trans
      ((congrArg (front ++ ·) none.1).trans (List.append_nil _))
  · exact (List.dropWhile_append_of_pos every).trans none.2

theorem octet_eq_some {s rest : List UInt8} {x : UInt8} :
    octet s = some (x, rest) ↔
      s = Decimal.text x.toNat ++ rest ∧ ∀ c ∈ rest.head?, ¬ IsDigit c := by
  constructor
  · intro found
    unfold octet at found
    split at found
    · next canonical =>
        obtain ⟨rfl, rfl⟩ := Prod.mk.inj (Option.some.inj found)
        rw [UInt8.toNat_ofNat_of_lt' canonical.1, canonical.2]
        exact ⟨(digits_append_after s).symm, not_isDigit_after⟩
    · cases found
  · rintro ⟨rfl, stops⟩
    obtain ⟨front, back⟩ := digits_append (Decimal.isDigit_text x.toNat) stops
    unfold octet
    rw [front, back, Decimal.value_text, if_pos ⟨x.toNat_lt, rfl⟩, UInt8.ofNat_toNat]

/-- What the digits of an octet may not be. -/
def Refused (s : List UInt8) : Prop :=
  digits s = [] ∨ (digits s).head? = some 0x30 ∧ 1 < (digits s).length ∨
    3 < (digits s).length ∨ 255 < value 0 (digits s)

/-- An octet told by the checks that a reader makes of its digits. -/
theorem octet_of_checks {s : List UInt8} (checked : ¬ Refused s) :
    octet s = some (UInt8.ofNat (value 0 (digits s)), after s) := by
  unfold Refused at checked
  push Not at checked
  obtain ⟨some_, lead, -, small⟩ := checked
  refine if_pos ⟨by omega, (Decimal.text_value_iff isDigit_digits).mpr ⟨some_, fun zero => ?_⟩⟩
  have pos := List.length_pos_iff.mpr some_
  have short := lead zero
  omega

theorem octet_eq_none {s : List UInt8} (refused : Refused s) : octet s = none := by
  refine if_neg fun ⟨small, canonical⟩ => ?_
  obtain ⟨some_, lead⟩ := (Decimal.text_value_iff isDigit_digits).mp canonical
  have few := Decimal.length_le_three small
  rw [canonical] at few
  rcases refused with none | ⟨zero, long⟩ | long | large
  · exact some_ none
  · rw [lead zero] at long
    omega
  · omega
  · omega

/-- A zero that a digit follows leads more than one digit. -/
theorem zero_then_digit {s : List UInt8} :
    s.head? = some 0x30 ∧ s.tail.head?.any (fun c => IsDigit c) ↔
      (digits s).head? = some 0x30 ∧ 1 < (digits s).length := by
  match s with
  | [] => simp
  | c :: s =>
      by_cases digit : IsDigit c
      · rw [(digits_of_isDigit digit).1]
        cases s with
        | nil => simp
        | cons d s =>
            by_cases second : IsDigit d
            · simp [(digits_of_isDigit second).1, second]
            · simp [(digits_of_not_isDigit second).1, second]
      · have notZero : c ≠ 0x30 := by
          rintro rfl
          exact digit (by decide)
        simp [(digits_of_not_isDigit digit).1, notZero]

/-! ## The whole text -/

theorem head?_dotted (octets : List UInt8) : ∀ c ∈ (dotted octets).head?, ¬ IsDigit c := by
  cases octets with
  | nil => exact nofun
  | cons x octets =>
      intro c isHead
      obtain rfl : 0x2E = c := Option.some.inj isHead
      decide

theorem octet_dotted (x : UInt8) (octets : List UInt8) :
    octet (Decimal.text x.toNat ++ dotted octets) = some (x, dotted octets) :=
  octet_eq_some.mpr ⟨rfl, head?_dotted octets⟩

theorem more_eq_some {left : Nat} {s octets : List UInt8} :
    more left s = some octets ↔ octets.length = left ∧ s = dotted octets := by
  induction left generalizing s octets with
  | zero =>
      unfold more
      constructor
      · intro ended
        split at ended
        · next empty =>
            obtain rfl := Option.some.inj ended
            exact ⟨rfl, empty⟩
        · cases ended
      · rintro ⟨none, rfl⟩
        rw [List.length_eq_zero_iff.mp none]
        rfl
  | succ left ih =>
      rw [more]
      constructor
      · intro found
        split at found
        · next dot =>
            obtain ⟨⟨x, rest⟩, here, tail⟩ := Option.bind_eq_some_iff.mp found
            obtain ⟨later, isMore, rfl⟩ := Option.map_eq_some_iff.mp tail
            obtain ⟨count, rfl⟩ := ih.mp isMore
            refine ⟨congrArg (· + 1) count, ?_⟩
            rw [List.eq_cons_of_mem_head? dot, (octet_eq_some.mp here).1]
            rfl
        · cases found
      · rintro ⟨count, rfl⟩
        cases octets with
        | nil => cases count
        | cons x octets =>
            have here := octet_dotted x octets
            have tail := ih.mpr ⟨Nat.succ.inj count, rfl⟩
            change (if some 0x2E = some (0x2E : UInt8) then
              (octet (Decimal.text x.toNat ++ dotted octets)).bind _ else none) = _
            rw [if_pos rfl, here, Option.bind_some, tail]
            rfl

/-- The reader accepts the texts of four octets, and gives these octets. -/
theorem read_eq_some {s octets : List UInt8} :
    read s = some octets ↔ octets.length = 4 ∧ s = text octets := by
  unfold read
  constructor
  · intro found
    obtain ⟨⟨x, rest⟩, here, tail⟩ := Option.bind_eq_some_iff.mp found
    obtain ⟨later, isMore, rfl⟩ := Option.map_eq_some_iff.mp tail
    obtain ⟨count, rfl⟩ := more_eq_some.mp isMore
    exact ⟨congrArg (· + 1) count, (octet_eq_some.mp here).1⟩
  · rintro ⟨count, rfl⟩
    cases octets with
    | nil => cases count
    | cons x octets =>
        have tail := more_eq_some.mpr ⟨Nat.succ.inj count, rfl⟩
        rw [text, octet_dotted, Option.bind_some, tail]
        rfl

/-- Four octets have a text of their own. -/
theorem text_injective {first second : List UInt8} (four : first.length = 4)
    (four' : second.length = 4) (same : text first = text second) : first = second := by
  have left := read_eq_some.mpr ⟨four, rfl⟩
  have right := read_eq_some.mpr ⟨four', same⟩
  exact Option.some.inj (left.symm.trans right)

/-- A text is made of digits and dots. -/
theorem digit_or_dot {octets : List UInt8} : ∀ c ∈ text octets, IsDigit c ∨ c = 0x2E := by
  have later (octets : List UInt8) : ∀ c ∈ dotted octets, IsDigit c ∨ c = 0x2E := by
    intro c member
    obtain ⟨x, -, inOctet⟩ := List.mem_flatMap.mp member
    rcases List.mem_cons.mp inOctet with dot | digit
    · exact .inr dot
    · exact .inl (Decimal.isDigit_text _ c digit)
  cases octets with
  | nil => exact nofun
  | cons x octets =>
      intro c member
      rcases List.mem_append.mp member with first | more
      · exact .inl (Decimal.isDigit_text _ c first)
      · exact later octets c more

theorem noNul_text (octets : List UInt8) : (0 : UInt8) ∉ text octets := by
  intro member
  rcases digit_or_dot 0 member with digit | dot
  · exact absurd digit (by decide)
  · exact absurd dot (by decide)

theorem length_dotted_le (octets : List UInt8) :
    (dotted octets).length ≤ 4 * octets.length := by
  induction octets with
  | nil => exact Nat.zero_le _
  | cons x octets ih =>
      have few := Decimal.length_le_three x.toNat_lt
      change (0x2E :: Decimal.text x.toNat ++ dotted octets).length ≤ _
      rw [List.length_append, List.length_cons, List.length_cons]
      omega

theorem length_text_le {octets : List UInt8} (four : octets.length = 4) :
    (text octets).length ≤ 15 := by
  cases octets with
  | nil => cases four
  | cons x octets =>
      have few := Decimal.length_le_three x.toNat_lt
      have rest := length_dotted_le octets
      have three : octets.length = 3 := Nat.succ.inj four
      rw [text, List.length_append]
      omega

end RlxFw.DottedQuad
