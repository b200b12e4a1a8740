import RlxFw.CounterReport
import RlxFw.Decimal
import RlxFw.Handoff

/-!
# The boot handoff, from rlxboot to its readers

rlxboot leaves four words, the kernel checks them and prints a line, the broker
and the counter's helper read it.  Both readers are measured against one form of
the line.
-/

namespace RlxFw.Handoff

open Broker (SlotName updHandoff handoffDigits slotOfChar)
open CtrAdv (BootText ctrParseBoot ctrReadBoot)
open Decimal (IsDigit)

/-! ## The words -/

/-- `RLXB_HANDOFF_CHECK`. -/
def handoffCheck (slot ver : UInt32) : UInt32 := ~~~(magicWord ^^^ slot ^^^ ver)

/-- The words in a0..a3 after `rlxboot_jump_handoff`. -/
def jumpHandoff (slot ver : UInt32) : UInt32 × UInt32 × UInt32 × UInt32 :=
  (magicWord, slot, ver, handoffCheck slot ver)

/-- The kernel accepts the words of a slot and a version, and no others. -/
theorem parse_eq_ok_iff (a0 a1 a2 a3 : UInt32) (v : Valid) :
    parse a0 a1 a2 a3 = .ok v ↔ (a0, a1, a2, a3) = jumpHandoff v.slot v.ver := by
  unfold parse jumpHandoff handoffCheck
  constructor
  · intro accepted
    split_ifs at accepted with magic check slots versions
    cases accepted
    rw [not_not] at magic check
    rw [check, magic]
  · intro words
    simp only [Prod.mk.injEq] at words
    obtain ⟨rfl, rfl, rfl, rfl⟩ := words
    rw [if_neg (by simp), if_neg (by simp), dif_pos v.slot_cases, dif_pos v.ver_bounds]

/-! ## The text -/

/-- `rlxfw_boot_read_proc`, of what was latched. -/
def bootReadProc (latched : Except Fault Valid) : List UInt8 :=
  match latched with
  | .ok v =>
      ascii "slot " ++ [v.slot.toUInt8] ++ ascii " ver " ++ Decimal.text v.ver.toNat ++
        ascii "\n"
  | .error _ => ascii "none\n"

/-- The letter of a slot. -/
def letter : SlotName → UInt8
  | .A => 0x41
  | .B => 0x42

/-- The name of a valid handoff's slot. -/
def Valid.name (v : Valid) : SlotName := if v.slot = slotA then .A else .B

theorem Valid.letter_name (v : Valid) : letter v.name = v.slot.toUInt8 := by
  unfold Valid.name
  rcases v.slot_cases with isA | isB
  · rw [if_pos isA, isA]
    rfl
  · rw [isB]
    rfl

/-- A line that names a slot and a version: no leading zero, at most ten
digits. -/
structure Line (text : List UInt8) (slot : SlotName) (ver : Nat) (digits : List UInt8) :
    Prop where
  form : text = ascii "slot " ++ [letter slot] ++ ascii " ver " ++ digits ++ [0x0A]
  isDigit : ∀ c ∈ digits, IsDigit c
  lead : digits.head? ≠ some 0x30
  some_ : digits ≠ []
  few : digits.length ≤ 10
  value : digits.foldlM Install.decStep 0 = some ver
  bound : ver ≠ 0xFFFFFFFF

/-! ## Digits -/

theorem decStep_digit {v : Nat} : ∀ d < 10, v * 10 + d ≤ 0xFFFFFFFF →
    Install.decStep v (Decimal.digit d) = some (v * 10 + d) := by
  intro d small fits
  have low : ∀ d < 10, ¬ (Decimal.digit d < 0x30 ∨ Decimal.digit d > 0x39) := by decide
  have value : ∀ d < 10, (Decimal.digit d - 0x30).toNat = d := by decide
  unfold Install.decStep
  dsimp only
  rw [if_neg (low d small), value d small, if_neg (by omega)]

/-- The readers' step takes a number's text back to the number. -/
theorem foldlM_decStep_text {n : Nat} (small : n ≤ 0xFFFFFFFF) :
    (Decimal.text n).foldlM Install.decStep 0 = some n := by
  refine Decimal.text_induction
    (fun n digits => n ≤ 0xFFFFFFFF →
      digits.foldlM Install.decStep 0 = some n) ?_ ?_ n small
  · intro n one fits
    have step := decStep_digit (v := 0) n one (by omega)
    rw [Nat.zero_mul, Nat.zero_add] at step
    simp [step]
  · intro n _ ih fits
    have step := decStep_digit (v := n / 10) (n % 10) (Nat.mod_lt n (by omega)) (by omega)
    rw [Nat.div_add_mod'] at step
    rw [List.foldlM_append, ih (by omega)]
    simp [step]

theorem decStep_isSome {v w : Nat} {c : UInt8} (step : Install.decStep v c = some w) :
    IsDigit c := by
  unfold Install.decStep at step
  split at step
  · cases step
  next inside =>
  rw [not_or, UInt8.not_lt, gt_iff_lt, UInt8.not_lt] at inside
  exact inside

/-- What the readers fold over are digits. -/
theorem isDigit_of_foldlM {digits : List UInt8} {v w : Nat}
    (read : digits.foldlM Install.decStep v = some w) : ∀ c ∈ digits, IsDigit c := by
  induction digits generalizing v with
  | nil => simp
  | cons c rest ih =>
      rw [List.foldlM_cons] at read
      obtain ⟨u, first, later⟩ := Option.bind_eq_some_iff.mp read
      intro d member
      rcases List.mem_cons.mp member with rfl | inRest
      · exact decStep_isSome first
      · exact ih later d inRest

/-- A step of the broker's loop is a step of the fold. -/
theorem handoffDigits_cons {c : UInt8} (isDigit : IsDigit c) (rest : List UInt8)
    (i v : Nat) :
    handoffDigits (c :: rest) i v =
      if i ≥ 10 then none
      else (Install.decStep v c).bind fun w => handoffDigits rest (i + 1) w := by
  have value : (c - 0x30).toNat = c.toNat - 0x30 := UInt8.toNat_sub_of_le _ _ isDigit.1
  have inside : ¬ (c < 0x30 ∨ c > 0x39) := by
    rw [not_or, UInt8.not_lt, gt_iff_lt, UInt8.not_lt]
    exact isDigit
  rw [handoffDigits, if_pos (show 0x30 ≤ c ∧ c ≤ 0x39 from isDigit)]
  unfold Install.decStep
  rw [if_neg inside, value]
  dsimp only
  by_cases many : i ≥ 10
  · rw [if_pos (Or.inl many), if_pos many]
  · rw [if_neg many]
    by_cases large : v > (0xFFFFFFFF - (c.toNat - 0x30)) / 10
    · rw [if_pos (Or.inr large), if_pos large]
      rfl
    · rw [if_neg (not_or.mpr ⟨many, large⟩), if_neg large]
      rfl

/-- Digits before something else are folded, at most ten of them. -/
theorem handoffDigits_append {digits : List UInt8} (isDigit : ∀ c ∈ digits, IsDigit c)
    {rest : List UInt8} (ends : ∀ c, rest.head? = some c → ¬ IsDigit c) {i v : Nat}
    (few : i + digits.length ≤ 10) :
    handoffDigits (digits ++ rest) i v =
      (digits.foldlM Install.decStep v).map fun w => (rest, w) := by
  induction digits generalizing i v with
  | nil =>
      cases rest with
      | nil => rfl
      | cons c rest =>
          have plain : ¬ (0x30 ≤ c ∧ c ≤ 0x39) := ends c rfl
          rw [List.nil_append, handoffDigits, if_neg plain]
          rfl
  | cons c digits ih =>
      rw [List.length_cons] at few
      rw [List.cons_append, handoffDigits_cons (isDigit c (List.mem_cons_self ..)),
        if_neg (by omega), List.foldlM_cons]
      cases Install.decStep v c with
      | none => rfl
      | some w =>
          exact ih (fun d member => isDigit d (List.mem_cons_of_mem _ member)) (by omega)

/-- What the broker's loop read. -/
theorem handoffDigits_some {s rest : List UInt8} {i v w : Nat} (start : i ≤ 10)
    (read : handoffDigits s i v = some (rest, w)) :
    ∃ digits, s = digits ++ rest ∧ i + digits.length ≤ 10 ∧
      digits.foldlM Install.decStep v = some w := by
  induction s generalizing i v with
  | nil =>
      cases read
      exact ⟨[], rfl, start, rfl⟩
  | cons c s ih =>
      by_cases isDigit : IsDigit c
      · rw [handoffDigits_cons isDigit] at read
        split at read
        · cases read
        next few =>
        obtain ⟨u, step, later⟩ := Option.bind_eq_some_iff.mp read
        obtain ⟨digits, rfl, count, folded⟩ := ih (by omega) later
        refine ⟨c :: digits, rfl, by rw [List.length_cons]; omega, ?_⟩
        rw [List.foldlM_cons, step]
        exact folded
      · rw [handoffDigits, if_neg (show ¬ (0x30 ≤ c ∧ c ≤ 0x39) from isDigit)] at read
        cases read
        exact ⟨[], rfl, start, rfl⟩

/-! ## The two readers -/

section Readers

variable {text digits : List UInt8} {slot : SlotName} {ver : Nat}

theorem slotOfChar_eq_some_iff {c : UInt8} :
    slotOfChar c = some slot ↔ c = letter slot := by
  unfold slotOfChar
  cases slot with
  | A =>
      split_ifs with isA isB
      · simpa [letter] using isA
      · simp [letter, isA]
      · simp [letter, isA]
  | B =>
      split_ifs with isA isB
      · simp [letter, isA]
      · simpa [letter] using isB
      · simp [letter, isB]

/-- A text cut at the places where both readers look. -/
theorem text_parts (long : 11 ≤ text.length) :
    text = text.take 5 ++ [byteAt text 5] ++ (text.drop 6).take 5 ++ text.drop 11 := by
  have at5 : [byteAt text 5] = (text.drop 5).take 1 := by
    rw [byteAt, List.getD_eq_getElem?_getD, List.getElem?_eq_getElem (by omega),
      List.drop_eq_getElem_cons (by omega)]
    rfl
  have first : text.take 5 ++ (text.drop 5).take 1 = text.take 6 := (List.take_add).symm
  have second : text.take 6 ++ (text.drop 6).take 5 = text.take 11 := (List.take_add).symm
  rw [at5, first, second, List.take_append_drop]

theorem Line.length (line : Line text slot ver digits) :
    text.length = 12 + digits.length := by
  rw [line.form]
  simp [ascii]
  omega

/-- What the readers find at their places of a line. -/
structure Places (text : List UInt8) (slot : SlotName) (digits : List UInt8) : Prop where
  word : text.take 5 = ascii "slot "
  letter : byteAt text 5 = letter slot
  ver : (text.drop 6).take 5 = ascii " ver "
  rest : text.drop 11 = digits ++ [0x0A]

theorem Line.places (line : Line text slot ver digits) : Places text slot digits := by
  have form := line.form
  have front : ascii "slot " ++ [letter slot] ++ ascii " ver " ++ digits ++ [0x0A] =
      0x73 :: 0x6C :: 0x6F :: 0x74 :: 0x20 :: letter slot :: 0x20 :: 0x76 :: 0x65 :: 0x72 ::
        0x20 :: (digits ++ [0x0A]) := rfl
  rw [form, front]
  exact ⟨rfl, rfl, rfl, rfl⟩

theorem Line.byteAt_eleven (line : Line text slot ver digits) :
    0x31 ≤ byteAt text 11 ∧ byteAt text 11 ≤ 0x39 := by
  have isDigit := line.isDigit
  have lead := line.lead
  have at11 : byteAt text 11 = byteAt (text.drop 11) 0 := by
    unfold byteAt
    rw [List.getD_eq_getElem?_getD, List.getD_eq_getElem?_getD, List.getElem?_drop]
  rw [at11, line.places.rest]
  cases isDigits : digits with
  | nil => exact absurd isDigits line.some_
  | cons c rest =>
      obtain ⟨low, high⟩ := isDigit c (isDigits ▸ List.mem_cons_self ..)
      have nonzero : c ≠ 0x30 := by
        rintro rfl
        exact lead (isDigits ▸ rfl)
      change 0x31 ≤ c ∧ c ≤ 0x39
      refine ⟨?_, high⟩
      rw [UInt8.le_iff_toNat_le] at low ⊢
      have apart : c.toNat ≠ 0x30 := fun same => nonzero (UInt8.toNat_inj.mp same)
      change 48 ≤ c.toNat at low
      change 49 ≤ c.toNat
      omega

/-- The broker reads a line. -/
theorem updHandoff_of_line (line : Line text slot ver digits) :
    updHandoff (some text) = some (slot, ver) := by
  have length := line.length
  have few := line.few
  have some_ : 0 < digits.length := List.length_pos_of_ne_nil line.some_
  have places := line.places
  have lead := line.byteAt_eleven
  have whole : text.take 63 = text := List.take_of_length_le (by omega)
  have named : slotOfChar (byteAt text 5) = some slot :=
    slotOfChar_eq_some_iff.mpr places.letter
  have ends (c : UInt8) (head : [(0x0A : UInt8)].head? = some c) : ¬ IsDigit c := by
    cases head
    decide
  have read : handoffDigits (text.drop 11) 0 0 = some ([0x0A], ver) := by
    rw [places.rest, handoffDigits_append line.isDigit ends (by omega), line.value]
    rfl
  have bound := line.bound
  unfold updHandoff
  simp only [Option.bind_eq_bind, Option.bind_some, whole, named]
  rw [if_neg, if_neg, read]
  · simp only [Option.bind_some]
    rw [if_neg]
    rintro (newline | more | top)
    · exact newline rfl
    · exact more rfl
    · exact bound top
  · rw [not_or, UInt8.not_lt, gt_iff_lt, UInt8.not_lt]
    exact lead
  · rintro (short | word | ver_)
    · omega
    · exact word places.word
    · exact ver_ places.ver

theorem byteAt_drop (text : List UInt8) (k i : Nat) : byteAt (text.drop k) i = byteAt text (k + i) := by
  unfold byteAt
  rw [List.getD_eq_getElem?_getD, List.getD_eq_getElem?_getD, List.getElem?_drop]

/-- A text with the right bytes at its places is a line. -/
theorem line_of_places (places : Places text slot digits) (long : 11 ≤ text.length)
    (few : digits.length ≤ 10) (value : digits.foldlM Install.decStep 0 = some ver)
    (lead : byteAt text 11 ≠ 0x30) (some_ : digits ≠ []) (bound : ver ≠ 0xFFFFFFFF) :
    Line text slot ver digits := by
  refine ⟨?_, isDigit_of_foldlM value, ?_, some_, few, value, bound⟩
  · have parts := text_parts long
    rw [places.word, places.letter, places.ver, places.rest] at parts
    rw [parts, List.append_assoc _ digits]
  · intro zero
    cases digits with
    | nil => cases zero
    | cons c rest =>
        cases zero
        have first := byteAt_drop text 11 0
        rw [places.rest] at first
        exact lead first.symm

/-- What the broker reads is a line. -/
theorem line_of_updHandoff (noNul : 0 ∉ text)
    (read : updHandoff (some text) = some (slot, ver)) :
    ∃ digits, Line text slot ver digits := by
  unfold updHandoff at read
  simp only [Option.bind_eq_bind, Option.bind_some] at read
  obtain ⟨name, named, checked⟩ := Option.bind_eq_some_iff.mp read
  split at checked
  · cases checked
  next fixed =>
  split at checked
  · cases checked
  next lead =>
  obtain ⟨⟨rest, v⟩, folded, ended⟩ := Option.bind_eq_some_iff.mp checked
  dsimp only at ended
  split at ended
  · cases ended
  next last =>
  cases ended
  obtain ⟨long, word, isVer⟩ :
      13 ≤ (text.take 63).length ∧ (text.take 63).take 5 = ascii "slot " ∧
        ((text.take 63).drop 6).take 5 = ascii " ver " := by
    rw [not_or, not_or, not_not, not_not] at fixed
    exact ⟨not_lt.mp fixed.1, fixed.2⟩
  rw [not_or, not_or, not_not, not_not] at last
  obtain ⟨newline, final, bound⟩ := last
  obtain ⟨digits, isRest, few, value⟩ := handoffDigits_some (by omega) folded
  -- a text without NUL ends where the reader meets one
  have isEnd : rest = [0x0A] := by
    cases rest with
    | nil => cases newline
    | cons c more =>
        cases more with
        | nil => exact congrArg (fun c => [c]) newline
        | cons d more =>
            have inText : d ∈ text.take 63 :=
              List.mem_of_mem_drop (isRest ▸ List.mem_append_right digits (by simp))
            change d = 0 at final
            exact absurd (final ▸ List.mem_of_mem_take inText) noNul
  have count : (text.take 63).length = 11 + (digits.length + 1) := by
    have lengths := congrArg List.length isRest
    rw [List.length_drop, List.length_append, isEnd, List.length_singleton] at lengths
    omega
  have whole : text.take 63 = text := by
    rw [List.length_take] at count
    exact List.take_of_length_le (by omega)
  rw [whole] at named word isVer lead isRest long
  rw [not_or, UInt8.not_lt, gt_iff_lt, UInt8.not_lt] at lead
  refine ⟨digits, line_of_places
    ⟨word, slotOfChar_eq_some_iff.mp named, isVer, isEnd ▸ isRest⟩ (by omega) (by omega)
    value ?_ ?_ bound⟩
  · intro zero
    rw [zero] at lead
    exact absurd lead.1 (by decide)
  · rintro rfl
    have first := byteAt_drop text 11 0
    rw [isRest, isEnd] at first
    rw [← first] at lead
    exact absurd lead.1 (by decide)

/-- The digits of a line, as the helper cuts them out. -/
theorem cut_digits (text : List UInt8) {k : Nat} (long : text.length = 12 + k) :
    text.drop 11 = (text.take (text.length - 1)).drop 11 ++
      [byteAt text (text.length - 1)] := by
  have parts := List.take_append_drop (text.length - 1) text
  have last : text.drop (text.length - 1) = [byteAt text (text.length - 1)] := by
    rw [byteAt, List.getD_eq_getElem?_getD, List.getElem?_eq_getElem (by omega),
      List.drop_eq_getElem_cons (by omega), List.drop_of_length_le (by omega)]
    rfl
  rw [last] at parts
  calc text.drop 11
      = (text.take (text.length - 1) ++ [byteAt text (text.length - 1)]).drop 11 := by
        rw [parts]
    _ = (text.take (text.length - 1)).drop 11 ++ [byteAt text (text.length - 1)] := by
        rw [List.drop_append_of_le_length]
        rw [List.length_take]
        omega

/-- The helper reads a line. -/
theorem ctrParseBoot_of_line (line : Line text slot ver digits) :
    ctrParseBoot text = .slot (letter slot) ver := by
  have length := line.length
  have few := line.few
  have some_ : 0 < digits.length := List.length_pos_of_ne_nil line.some_
  have places := line.places
  have lead := line.byteAt_eleven
  have cut := cut_digits text length
  rw [places.rest] at cut
  obtain ⟨isDigits, isLast⟩ := List.append_inj' cut rfl
  have isLast' : byteAt text (text.length - 1) = 0x0A := by
    simpa using isLast.symm
  have letters : ∀ slot, letter slot = 0x41 ∨ letter slot = 0x42 := by
    intro slot
    cases slot
    · exact .inl rfl
    · exact .inr rfl
  unfold ctrParseBoot
  rw [if_neg, if_neg, if_neg, ← isDigits, line.value]
  · dsimp only
    rw [if_neg line.bound, places.letter]
  · rintro (word | ⟨notA, notB⟩ | ver_ | newline | zero)
    · exact word places.word
    · rw [places.letter] at notA notB
      exact (letters slot).elim notA notB
    · exact ver_ places.ver
    · exact newline isLast'
    · rw [zero] at lead
      exact absurd lead.1 (by decide)
  · omega
  · intro none
    have lengths := congrArg List.length none
    change text.length = 5 at lengths
    omega

/-- What the helper reads is a line. -/
theorem line_of_ctrParseBoot {c : UInt8} (read : ctrParseBoot text = .slot c ver) :
    ∃ slot digits, c = letter slot ∧ Line text slot ver digits := by
  unfold ctrParseBoot at read
  split at read
  · cases read
  split at read
  · cases read
  next long =>
  split at read
  · cases read
  next fixed =>
  split at read
  · cases read
  next v value =>
  split at read
  · cases read
  next bound =>
  cases read
  rw [not_or, not_or, not_or, not_or, not_not, not_not, not_not] at fixed
  obtain ⟨word, isSlot, isVer, newline, lead⟩ := fixed
  obtain ⟨slot, isLetter⟩ : ∃ slot, byteAt text 5 = letter slot := by
    by_cases isA : byteAt text 5 = 0x41
    · exact ⟨.A, isA⟩
    · by_cases isB : byteAt text 5 = 0x42
      · exact ⟨.B, isB⟩
      · exact absurd ⟨isA, isB⟩ isSlot
  have cut := cut_digits text (k := text.length - 12) (by omega)
  rw [newline] at cut
  have count : ((text.take (text.length - 1)).drop 11).length = text.length - 12 := by
    rw [List.length_drop, List.length_take]
    omega
  exact ⟨slot, _, isLetter, line_of_places ⟨word, isLetter, isVer, cut⟩ (by omega)
    (by omega) value lead (List.ne_nil_of_length_pos (by omega)) bound⟩

end Readers

/-! ## One fact in four programs -/

/-- The line of a valid handoff. -/
theorem line_of_valid (v : Valid) :
    Line (bootReadProc (.ok v)) v.name v.ver.toNat (Decimal.text v.ver.toNat) := by
  have low : 1 ≤ v.ver.toNat := UInt32.le_iff_toNat_le.mp v.ver_bounds.1
  have high : v.ver.toNat ≤ 0xFFFFFFFE := UInt32.le_iff_toNat_le.mp v.ver_bounds.2
  obtain ⟨c, rest, isText, lead⟩ := Decimal.head_text low
  refine ⟨?_, Decimal.isDigit_text _, ?_, Decimal.text_ne_nil _,
    Decimal.length_text_le (by omega) (by omega), foldlM_decStep_text (by omega), by omega⟩
  · rw [Valid.letter_name]
    rfl
  · rw [isText]
    simpa using lead

/-- The slot and the version that the helper found. -/
def found : BootText → Option (SlotName × Nat)
  | .slot c ver => (slotOfChar c).map fun slot => (slot, ver)
  | _ => none

/-- Both readers come to the same on a text without NUL. -/
theorem readers_agree {text : List UInt8} (noNul : 0 ∉ text) :
    updHandoff (some text) = found (ctrParseBoot text) := by
  apply Option.ext
  rintro ⟨slot, ver⟩
  constructor
  · intro read
    obtain ⟨digits, line⟩ := line_of_updHandoff noNul read
    rw [ctrParseBoot_of_line line]
    change (slotOfChar (letter slot)).map _ = _
    rw [slotOfChar_eq_some_iff.mpr rfl]
    rfl
  · intro read
    cases parsed : ctrParseBoot text with
    | none =>
        rw [parsed] at read
        cases read
    | bad =>
        rw [parsed] at read
        cases read
    | unread =>
        rw [parsed] at read
        cases read
    | slot c v =>
        obtain ⟨name, digits, rfl, line⟩ := line_of_ctrParseBoot parsed
        rw [parsed] at read
        change (slotOfChar (letter name)).map _ = _ at read
        rw [slotOfChar_eq_some_iff.mpr rfl] at read
        cases read
        exact updHandoff_of_line line

/-- A single read of 64 bytes is enough for the helper. -/
theorem found_ctrReadBoot (text : List UInt8) :
    found (ctrReadBoot (some text)) = found (ctrParseBoot text) := by
  rcases Nat.lt_or_ge 64 text.length with long | short
  · have refused {b : List UInt8} (large : 22 < b.length) : found (ctrParseBoot b) = none := by
      cases parsed : ctrParseBoot b with
      | slot c v =>
          obtain ⟨name, digits, -, line⟩ := line_of_ctrParseBoot parsed
          have length := line.length
          have few := line.few
          omega
      | _ => rfl
    change found (ctrParseBoot (text.take 64)) = _
    rw [refused (by rw [List.length_take]; omega), refused (by omega)]
  · change found (ctrParseBoot (text.take 64)) = _
    rw [List.take_of_length_le short]

/-- The handoff, from the words of rlxboot to its two readers. -/
structure OneFact : Prop where
  /-- The kernel takes the words of a slot and a version, and no others. -/
  words : ∀ a0 a1 a2 a3 v,
    parse a0 a1 a2 a3 = .ok v ↔ (a0, a1, a2, a3) = jumpHandoff v.slot v.ver
  refused : ∀ a0 a1 a2 a3, (∀ v : Valid, (a0, a1, a2, a3) ≠ jumpHandoff v.slot v.ver) →
    (∃ why, parse a0 a1 a2 a3 = .error why) ∧
      updHandoff (some (bootReadProc (parse a0 a1 a2 a3))) = none ∧
      ctrReadBoot (some (bootReadProc (parse a0 a1 a2 a3))) = .none
  /-- What the node prints of it is read back by both. -/
  read : ∀ v : Valid, letter v.name = v.slot.toUInt8 ∧
    updHandoff (some (bootReadProc (.ok v))) = some (v.name, v.ver.toNat) ∧
    ctrReadBoot (some (bootReadProc (.ok v))) = .slot (letter v.name) v.ver.toNat
  /-- Whatever a text without NUL holds, both read the same of it. -/
  agree : ∀ text, 0 ∉ text → updHandoff (some text) = found (ctrParseBoot text) ∧
    updHandoff (some text) = found (ctrReadBoot (some text))

theorem handoff_is_one_fact : OneFact where
  words := parse_eq_ok_iff
  refused a0 a1 a2 a3 other := by
    cases parsed : parse a0 a1 a2 a3 with
    | ok v => exact absurd ((parse_eq_ok_iff a0 a1 a2 a3 v).mp parsed) (other v)
    | error why => exact ⟨⟨why, rfl⟩, by rfl, by rfl⟩
  read v := by
    have line := line_of_valid v
    have length := line.length
    have few := line.few
    refine ⟨v.letter_name, updHandoff_of_line line, ?_⟩
    change ctrParseBoot ((bootReadProc (.ok v)).take 64) = _
    rw [List.take_of_length_le (by omega)]
    exact ctrParseBoot_of_line line
  agree text noNul := by
    rw [found_ctrReadBoot]
    exact ⟨readers_agree noNul, readers_agree noNul⟩

end RlxFw.Handoff
