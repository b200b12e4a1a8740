import RlxFw.Json

/-!
# The grammar of the web API's objects

The documents that `src/lib/json.h` describes, and that `json_parse` takes exactly
these.  Every part of the reader is told by the texts that it takes.
-/

namespace RlxFw.Json

/-! ## The grammar -/

/-- Bytes that the reader skips. -/
def Blanks (ws : List UInt8) : Prop := ∀ c ∈ ws, isWs c = true

/-- A hexadecimal digit of a value, in either case. -/
def HexDigit (c : UInt8) (v : Nat) : Prop :=
  (ascii "0123456789abcdef")[v]? = some c ∨ (ascii "0123456789ABCDEF")[v]? = some c

/-- What may stand behind a backslash, and for which byte. -/
def escapes : List (UInt8 × UInt8) :=
  [(0x22, 0x22), (0x5C, 0x5C), (0x2F, 0x2F), (0x62, 0x08), (0x66, 0x0C), (0x6E, 0x0A),
    (0x72, 0x0D), (0x74, 0x09)]

/-- The spellings of a byte in a string. -/
inductive Spells : List UInt8 → UInt8 → Prop
  | raw {c : UInt8} (low : 0x20 ≤ c) (high : c < 0x80) (notQuote : c ≠ 0x22)
      (notSlash : c ≠ 0x5C) : Spells [c] c
  | escape {e c : UInt8} (listed : (e, c) ∈ escapes) : Spells [0x5C, e] c
  | unicode {h0 h1 h2 h3 : UInt8} {v0 v1 v2 v3 : Nat} (first : HexDigit h0 v0)
      (second : HexDigit h1 v1) (third : HexDigit h2 v2) (fourth : HexDigit h3 v3)
      (low : 0x20 ≤ v0 * 2 ^ 12 + v1 * 2 ^ 8 + v2 * 2 ^ 4 + v3)
      (high : v0 * 2 ^ 12 + v1 * 2 ^ 8 + v2 * 2 ^ 4 + v3 ≤ 0x7E) :
      Spells [0x5C, 0x75, h0, h1, h2, h3]
        (UInt8.ofNat (v0 * 2 ^ 12 + v1 * 2 ^ 8 + v2 * 2 ^ 4 + v3))

/-- The text of a string, between its quotes. -/
inductive StringText : List UInt8 → List UInt8 → Prop
  | nil : StringText [] []
  | cons {e : List UInt8} {c : UInt8} {text s : List UInt8} (first : Spells e c)
      (later : StringText text s) : StringText (e ++ text) (c :: s)

/-- The text of a string that fits a slot, with its quotes. -/
def QuotedText (text s : List UInt8) : Prop :=
  s.length ≤ strMax ∧ ∃ inner, StringText inner s ∧ text = 0x22 :: (inner ++ [0x22])

/-- The text of a value. -/
inductive ValueText : List UInt8 → Value → Prop
  | str {text s : List UInt8} (quoted : QuotedText text s) : ValueText text (.str s)
  | num {n : Nat} (small : n < 2 ^ 32) : ValueText (Decimal.text n) (.num n)
  | true_ : ValueText (ascii "true") (.bool true)
  | false_ : ValueText (ascii "false") (.bool false)
  | null : ValueText (ascii "null") .null

/-- The text of a member, with blanks before its key and around its colon. -/
inductive MemberText : List UInt8 → Member → Prop
  | mk {front keyText middle inner text : List UInt8} {m : Member}
      (blanks : Blanks front ∧ Blanks middle ∧ Blanks inner) (key : QuotedText keyText m.key)
      (some_ : m.key ≠ []) (value : ValueText text m.value) :
      MemberText (front ++ (keyText ++ (middle ++ 0x3A :: (inner ++ text)))) m

/-- The text of one member or more, with commas between. -/
inductive MembersText : List UInt8 → List Member → Prop
  | last {text back : List UInt8} {m : Member} (member : MemberText text m)
      (blanks : Blanks back) : MembersText (text ++ back) [m]
  | more {text back rest : List UInt8} {m : Member} {ms : List Member}
      (member : MemberText text m) (blanks : Blanks back) (later : MembersText rest ms) :
      MembersText (text ++ (back ++ 0x2C :: rest)) (m :: ms)

/-- What is between the braces. -/
inductive BodyText : List UInt8 → List Member → Prop
  | empty {text : List UInt8} (blanks : Blanks text) : BodyText text []
  | members {text : List UInt8} {ms : List Member} (members : MembersText text ms) :
      BodyText text ms

/-- A document: one flat object within the limits, its keys distinct, with blanks
around it. -/
structure Document (p : List UInt8) (members : List Member) : Prop where
  text : ∃ lead body tail, Blanks lead ∧ BodyText body members ∧ Blanks tail ∧
    p = lead ++ 0x7B :: (body ++ 0x7D :: tail)
  few : members.length ≤ keysMax
  distinct : (members.map Member.key).Nodup
  short : p.length ≤ docMax

/-! ## Blanks -/

theorem isWs_iff {c : UInt8} : isWs c = true ↔ c = 0x20 ∨ c = 0x09 ∨ c = 0x0D ∨ c = 0x0A := by
  simp [isWs, or_assoc]

theorem skipWs_append {ws rest : List UInt8} (blanks : Blanks ws)
    (stops : ∀ c ∈ rest.head?, isWs c = false) : skipWs (ws ++ rest) = rest := by
  unfold skipWs
  rw [List.dropWhile_append_of_pos blanks]
  cases rest with
  | nil => rfl
  | cons c rest =>
      have stop : isWs c = false := stops c rfl
      exact List.dropWhile_cons_of_neg (by simp [stop])

theorem skipWs_cons {ws rest : List UInt8} {c : UInt8} (blanks : Blanks ws)
    (stop : isWs c = false) : skipWs (ws ++ c :: rest) = c :: rest :=
  skipWs_append blanks fun _ isHead => Option.some.inj isHead ▸ stop

theorem exists_skipWs (s : List UInt8) : ∃ ws, Blanks ws ∧ s = ws ++ skipWs s :=
  ⟨s.takeWhile isWs, fun _ => List.mem_takeWhile_imp, (List.takeWhile_append_dropWhile).symm⟩

theorem skipWs_skipWs (s : List UInt8) : skipWs (skipWs s) = skipWs s := by
  induction s with
  | nil => rfl
  | cons c s ih =>
      cases isBlank : isWs c with
      | true => simpa [skipWs, isBlank] using ih
      | false => simp [skipWs, isBlank]

theorem skipWs_eq_nil {s : List UInt8} : skipWs s = [] ↔ Blanks s :=
  List.dropWhile_eq_nil_iff

/-! ## Strings -/

theorem hexval_eq_some {c : UInt8} {v : Nat} : hexval c = some v ↔ HexDigit c v := by
  have values : ∀ v < 16, (ascii "0123456789abcdef")[v]?.bind hexval = some v ∧
      (ascii "0123456789ABCDEF")[v]?.bind hexval = some v := by
    decide
  have between {b d e : Nat} (all : ∀ k ≤ d - b, HexDigit (UInt8.ofNat (b + k)) (k + e))
      (low : b ≤ c.toNat) (high : c.toNat ≤ d) : HexDigit c (c.toNat - b + e) := by
    have shifted := all (c.toNat - b) (Nat.sub_le_sub_right high b)
    rwa [Nat.add_sub_cancel' low, UInt8.ofNat_toNat] at shifted
  constructor
  · intro isValue
    unfold hexval at isValue
    split_ifs at isValue with digit lower upper <;> obtain rfl := Option.some.inj isValue
    · exact between (d := 0x39) (e := 0) (by unfold HexDigit; decide) digit.1 digit.2
    · exact between (d := 0x66) (by unfold HexDigit; decide) lower.1 lower.2
    · exact between (d := 0x46) (by unfold HexDigit; decide) upper.1 upper.2
  · rintro (lower | upper)
    · have value := (values v (List.getElem?_eq_some_iff.mp lower).1).1
      rwa [lower] at value
    · have value := (values v (List.getElem?_eq_some_iff.mp upper).1).2
      rwa [upper] at value

theorem escaped_eq_some {e c : UInt8} : escaped e = some c ↔ (e, c) ∈ escapes := by
  unfold escaped escapes
  split_ifs <;> simp_all [eq_comm]

theorem unicode_eq_some {h0 h1 h2 h3 c : UInt8} :
    unicode h0 h1 h2 h3 = some c ↔ Spells [0x5C, 0x75, h0, h1, h2, h3] c := by
  unfold unicode
  simp only [Option.bind_eq_bind, Option.bind_eq_some_iff, hexval_eq_some]
  constructor
  · rintro ⟨v0, first, v1, second, v2, third, v3, fourth, made⟩
    split at made
    · cases made
    · rename_i inside
      obtain rfl := Option.some.inj made
      exact .unicode first second third fourth (by omega) (by omega)
  · intro spells
    cases spells with
    | unicode first second third fourth low high =>
        refine ⟨_, first, _, second, _, third, _, fourth, ?_⟩
        rw [if_neg (by omega)]

section Strings

variable {cap : Nat} {dst rest : List UInt8}

theorem raw_of_spells {c : UInt8} (low : 0x20 ≤ c) (high : c < 0x80) :
    c ≠ 0 ∧ ¬ c < 0x20 ∧ ¬ c ≥ 0x80 := by
  refine ⟨?_, UInt8.not_lt.mpr low, UInt8.not_le.mpr high⟩
  rintro rfl
  exact absurd low (by decide)

theorem notListed (c : UInt8) : (0x75, c) ∉ escapes := by
  simp [escapes]

theorem stringTail_spells {e : List UInt8} {c : UInt8} (spells : Spells e c)
    (room : dst.length + 1 < cap) :
    stringTail cap dst (e ++ rest) = stringTail cap (dst ++ [c]) rest := by
  have fits : ¬ dst.length + 1 ≥ cap := Nat.not_le.mpr room
  rw [stringTail.eq_def]
  cases spells with
  | raw low high notQuote notSlash =>
      obtain ⟨notNul, notLow, notHigh⟩ := raw_of_spells low high
      dsimp only [List.singleton_append]
      rw [if_neg notQuote, if_neg notNul, if_neg notLow, if_neg notHigh, if_neg notSlash,
        if_neg fits]
  | @escape e c listed =>
      have notU : e ≠ 0x75 := by
        rintro rfl
        exact notListed c listed
      dsimp only [List.cons_append, List.nil_append]
      rw [if_neg (by decide), if_neg (by decide), if_neg (by decide), if_neg (by decide),
        if_pos rfl, if_neg notU, escaped_eq_some.mpr listed]
      dsimp only
      rw [if_neg fits]
  | unicode first second third fourth low high =>
      have read := unicode_eq_some.mpr (.unicode first second third fourth low high)
      dsimp only [List.cons_append, List.nil_append]
      rw [if_neg (by decide), if_neg (by decide), if_neg (by decide), if_neg (by decide),
        if_pos rfl, if_pos rfl, read]
      dsimp only
      rw [if_neg fits]

/-- A string, behind what was read of it, with its closing quote. -/
def ReadsString (cap : Nat) (dst s t rest : List UInt8) : Prop :=
  ∃ text str, StringText text str ∧ s = text ++ 0x22 :: rest ∧ t = dst ++ str ∧ t.length < cap

theorem ReadsString.cons {e s t : List UInt8} {c : UInt8} (spells : Spells e c)
    (later : ReadsString cap (dst ++ [c]) s t rest) : ReadsString cap dst (e ++ s) t rest := by
  obtain ⟨text, str, isText, rfl, rfl, less⟩ := later
  refine ⟨e ++ text, c :: str, .cons spells isText, (List.append_assoc ..).symm, ?_, less⟩
  exact List.append_assoc ..

/-- The loop of `jp_string` takes the texts of strings. -/
theorem stringTail_eq_ok {s t : List UInt8} (room : dst.length < cap) :
    stringTail cap dst s = .ok (t, rest) ↔ ReadsString cap dst s t rest := by
  constructor
  · intro read
    -- the closing quote ends the string, and three turns read a spelling each
    fun_induction stringTail cap dst s with
    | case2 dst s =>
        obtain ⟨rfl, rfl⟩ := Prod.mk.inj (Except.ok.inj read)
        exact ⟨[], [], .nil, rfl, (List.append_nil _).symm, room⟩
    | case9 dst h0 h1 h2 h3 s c isByte fits _ _ _ _ ih =>
        exact .cons (unicode_eq_some.mp isByte)
          (ih (by rw [List.length_append]; exact Nat.not_le.mp fits) read)
    | case13 dst e s _ c isByte fits _ _ _ _ ih =>
        exact .cons (.escape (escaped_eq_some.mp isByte))
          (ih (by rw [List.length_append]; exact Nat.not_le.mp fits) read)
    | case15 dst c s notQuote _ low high notSlash fits ih =>
        exact .cons (.raw (UInt8.not_lt.mp low) (UInt8.not_le.mp high) notQuote notSlash)
          (ih (by rw [List.length_append]; exact Nat.not_le.mp fits) read)
    | _ => cases read
  · rintro ⟨text, str, isText, rfl, rfl, less⟩
    clear room
    induction isText generalizing dst with
    | nil =>
        rw [stringTail.eq_def, List.append_nil]
        rfl
    | @cons e c text str spells later ih =>
        rw [List.length_append, List.length_cons] at less
        rw [List.append_assoc, stringTail_spells spells (by omega), ih, List.append_assoc]
        · rfl
        · rw [List.append_assoc, List.length_append, List.length_append, List.length_singleton]
          omega

theorem jpString_eq_ok {s t : List UInt8} :
    jpString s (strMax + 1) = .ok (t, rest) ↔
      ∃ text, QuotedText text t ∧ s = text ++ rest := by
  constructor
  · intro read
    unfold jpString at read
    split at read
    · rename_i s
      obtain ⟨text, str, isText, rfl, rfl, less⟩ :=
        (stringTail_eq_ok (Nat.succ_pos _)).mp read
      exact ⟨_, ⟨Nat.le_of_lt_succ less, text, isText, rfl⟩, by simp⟩
    · cases read
  · rintro ⟨_, ⟨short, inner, isText, rfl⟩, rfl⟩
    have shape : 0x22 :: (inner ++ [0x22]) ++ rest = 0x22 :: (inner ++ 0x22 :: rest) := by simp
    rw [shape]
    exact (stringTail_eq_ok (Nat.succ_pos _)).mpr
      ⟨inner, t, isText, rfl, rfl, Nat.lt_succ_of_le short⟩

end Strings

/-! ## Numbers and words -/

/-- No number goes on here. -/
def Stops (rest : List UInt8) : Prop :=
  ∀ c ∈ rest.head?, ¬ Decimal.IsDigit c ∧ c ≠ 0x2E ∧ c ≠ 0x65 ∧ c ≠ 0x45

section Numbers

variable {s rest : List UInt8}

/-- The loop of `jp_u32` takes the digits there are, when their number fits. -/
theorem u32Digits_eq_ok {v k n m : Nat} (small : v < 2 ^ 32) :
    u32Digits v k s = .ok (n, m, rest) ↔
      ∃ digits, (∀ c ∈ digits, Decimal.IsDigit c) ∧ s = digits ++ rest ∧
        n = Decimal.value v digits ∧ m = k + digits.length ∧ n < 2 ^ 32 ∧
        ∀ c ∈ rest.head?, ¬ Decimal.IsDigit c := by
  constructor
  · intro read
    fun_induction u32Digits v k s with
    | case1 v k =>
        obtain ⟨rfl, rest⟩ := Prod.mk.inj (Except.ok.inj read)
        obtain ⟨rfl, rfl⟩ := Prod.mk.inj rest
        exact ⟨[], nofun, rfl, rfl, rfl, small, nofun⟩
    | case2 => cases read
    | case3 v k c s isDigit d fits ih =>
        have less : d < 10 := (Decimal.isDigit_value c isDigit).1
        obtain ⟨digits, all, rfl, rfl, rfl, bound, stops⟩ := ih (by omega) read
        refine ⟨c :: digits, ?_, rfl, rfl, ?_, bound, stops⟩
        · exact List.forall_mem_cons.mpr ⟨isDigit, all⟩
        · rw [List.length_cons]
          omega
    | case4 v k c s notDigit =>
        obtain ⟨rfl, rest⟩ := Prod.mk.inj (Except.ok.inj read)
        obtain ⟨rfl, rfl⟩ := Prod.mk.inj rest
        refine ⟨[], nofun, rfl, rfl, rfl, small, fun d isHead => ?_⟩
        obtain rfl := Option.some.inj isHead
        exact notDigit
  · rintro ⟨digits, all, rfl, rfl, rfl, bound, stops⟩
    clear small
    induction digits generalizing v k with
    | nil =>
        cases rest with
        | nil => rfl
        | cons c rest =>
            have stop : ¬ (0x30 ≤ c ∧ c ≤ 0x39) := stops c rfl
            rw [List.nil_append, u32Digits, if_neg stop]
            rfl
    | cons c digits ih =>
        obtain ⟨here, later⟩ := List.forall_mem_cons.mp all
        have isHere : 0x30 ≤ c ∧ c ≤ 0x39 := here
        have value : Decimal.value v (c :: digits) =
            Decimal.value (v * 10 + (c.toNat - 0x30)) digits := rfl
        have least := Decimal.le_value (v * 10 + (c.toNat - 0x30)) digits
        have less := (Decimal.isDigit_value c here).1
        rw [value] at bound
        rw [List.cons_append, u32Digits, if_pos isHere]
        dsimp only
        rw [if_neg (by omega), ih later bound, value, List.length_cons]
        congr 3
        omega

theorem jpU32_eq_ok {n : Nat} :
    jpU32 s = .ok (n, rest) ↔ n < 2 ^ 32 ∧ s = Decimal.text n ++ rest ∧ Stops rest := by
  constructor
  · intro read
    unfold jpU32 at read
    cases s with
    | nil => cases read
    | cons first more =>
        dsimp only at read
        split at read
        · cases read
        split at read
        · cases read
        rename_i v digits after isRead
        obtain ⟨text, all, isText, rfl, rfl, bound, stops⟩ :=
          (u32Digits_eq_ok (by decide)).mp isRead
        rw [Nat.zero_add] at read
        split at read
        · cases read
        rename_i some_
        split at read
        · cases read
        rename_i noZero
        split at read
        · cases read
        rename_i noFraction
        obtain ⟨rfl, rfl⟩ := Prod.mk.inj (Except.ok.inj read)
        obtain ⟨digit, text, rfl⟩ := List.exists_cons_of_ne_nil
          (fun empty => some_ (by rw [empty]; rfl) : text ≠ [])
        obtain ⟨rfl, rfl⟩ := List.cons.inj isText
        have canonical : Decimal.text (Decimal.value 0 (first :: text)) = first :: text := by
          apply (Decimal.text_value_iff all).mpr
          refine ⟨List.cons_ne_nil _ _, fun lead => ?_⟩
          by_contra long
          refine noZero ⟨?_, Option.some.inj lead⟩
          rw [List.length_cons] at long ⊢
          omega
        refine ⟨bound, ?_, fun c isHead => ⟨stops c isHead, ?_⟩⟩
        · rw [canonical]
          rfl
        · rw [Option.mem_def] at isHead
          rw [isHead] at noFraction
          simpa using noFraction
  · rintro ⟨small, rfl, stops⟩
    obtain ⟨first, more, isText⟩ := List.exists_cons_of_ne_nil (Decimal.text_ne_nil n)
    have isDigit : Decimal.IsDigit first :=
      Decimal.isDigit_text n first (by rw [isText]; exact List.mem_cons_self)
    have read : u32Digits 0 0 (Decimal.text n ++ rest) =
        .ok (n, (Decimal.text n).length, rest) :=
      (u32Digits_eq_ok (by decide)).mpr ⟨Decimal.text n, Decimal.isDigit_text n, rfl,
        (Decimal.value_text n).symm, (Nat.zero_add _).symm, small,
        fun c isHead => (stops c isHead).1⟩
    obtain ⟨some_, single⟩ := (Decimal.text_value_iff (Decimal.isDigit_text n)).mp
      (by rw [Decimal.value_text])
    have noSign : ¬ (first = 0x2D ∨ first = 0x2B) := by
      rintro (rfl | rfl) <;> exact absurd isDigit (by decide)
    have noZero : ¬ ((Decimal.text n).length > 1 ∧ first = 0x30) := by
      rintro ⟨long, rfl⟩
      have one := single (by rw [isText]; rfl)
      omega
    have noFraction : ¬ (rest.head? = some 0x2E ∨ rest.head? = some 0x65 ∨
        rest.head? = some 0x45) := by
      rintro (isHead | isHead | isHead)
      · exact (stops _ isHead).2.1 rfl
      · exact (stops _ isHead).2.2.1 rfl
      · exact (stops _ isHead).2.2.2 rfl
    have isHead : Decimal.text n ++ rest = first :: (more ++ rest) := by rw [isText]; rfl
    unfold jpU32
    rw [isHead]
    dsimp only
    rw [if_neg noSign, ← isHead, read]
    dsimp only
    rw [if_neg (mt List.eq_nil_of_length_eq_zero some_), if_neg noZero, if_neg noFraction]

theorem jpLit_eq_ok {word : List UInt8} : jpLit s word = .ok rest ↔ s = word ++ rest := by
  unfold jpLit
  constructor
  · intro read
    split at read
    · cases read
    split at read
    · cases read
    rename_i same
    obtain rfl := Except.ok.inj read
    conv_lhs => rw [← List.take_append_drop word.length s, not_not.mp same]
  · rintro rfl
    rw [if_neg (by simp), if_neg (by simp), List.drop_left]

end Numbers

/-! ## Values -/

section Values

variable {s rest text : List UInt8} {v : Value}

theorem map_eq_ok {ε α β : Type} {f : α → β} {x : Except ε α} {b : β} :
    x.map f = .ok b ↔ ∃ a, x = .ok a ∧ f a = b := by
  cases x <;> simp [Except.map]

/-- A value ends here: a number does not go on. -/
def Ends (v : Value) (rest : List UInt8) : Prop := ∀ n, v = .num n → Stops rest

theorem valueText_of_jpValue (read : jpValue s = .ok (v, rest)) :
    ∃ text, ValueText text v ∧ s = text ++ rest ∧ Ends v rest := by
  unfold jpValue at read
  cases s with
  | nil => cases read
  | cons c more =>
      dsimp only at read
      split at read
      · cases read
      split at read
      · obtain ⟨⟨s, after⟩, isRead, same⟩ := map_eq_ok.mp read
        obtain ⟨rfl, rfl⟩ := Prod.mk.inj same
        obtain ⟨text, quoted, isText⟩ := jpString_eq_ok.mp isRead
        exact ⟨text, .str quoted, isText, nofun⟩
      split at read
      · obtain ⟨after, isRead, same⟩ := map_eq_ok.mp read
        obtain ⟨rfl, rfl⟩ := Prod.mk.inj same
        exact ⟨_, .true_, jpLit_eq_ok.mp isRead, nofun⟩
      split at read
      · obtain ⟨after, isRead, same⟩ := map_eq_ok.mp read
        obtain ⟨rfl, rfl⟩ := Prod.mk.inj same
        exact ⟨_, .false_, jpLit_eq_ok.mp isRead, nofun⟩
      split at read
      · obtain ⟨after, isRead, same⟩ := map_eq_ok.mp read
        obtain ⟨rfl, rfl⟩ := Prod.mk.inj same
        exact ⟨_, .null, jpLit_eq_ok.mp isRead, nofun⟩
      · obtain ⟨⟨n, after⟩, isRead, same⟩ := map_eq_ok.mp read
        obtain ⟨rfl, rfl⟩ := Prod.mk.inj same
        obtain ⟨small, isText, stops⟩ := jpU32_eq_ok.mp isRead
        exact ⟨_, .num small, isText, fun _ _ => stops⟩

theorem jpValue_of_valueText (isText : ValueText text v) (ends : Ends v rest) :
    jpValue (text ++ rest) = .ok (v, rest) := by
  cases isText with
  | @str text s quoted =>
      have read : jpString (text ++ rest) (strMax + 1) = .ok (s, rest) :=
        jpString_eq_ok.mpr ⟨text, quoted, rfl⟩
      obtain ⟨-, inner, -, rfl⟩ := quoted
      change Except.map _ (jpString (0x22 :: (inner ++ [0x22]) ++ rest) (strMax + 1)) = _
      rw [read]
      rfl
  | @num n small =>
      obtain ⟨first, more, isNumber⟩ := List.exists_cons_of_ne_nil (Decimal.text_ne_nil n)
      have isDigit : Decimal.IsDigit first :=
        Decimal.isDigit_text n first (by rw [isNumber]; exact List.mem_cons_self)
      have noOpen : ¬ (first = 0x7B ∨ first = 0x5B) :=
        not_or.mpr ⟨isDigit.ne (by decide), isDigit.ne (by decide)⟩
      have read := jpU32_eq_ok.mpr ⟨small, rfl, ends n rfl⟩
      have isHead : Decimal.text n ++ rest = first :: (more ++ rest) := by rw [isNumber]; rfl
      unfold jpValue
      rw [isHead]
      dsimp only
      rw [if_neg noOpen, if_neg (isDigit.ne (by decide)), if_neg (isDigit.ne (by decide)),
        if_neg (isDigit.ne (by decide)), if_neg (isDigit.ne (by decide)), ← isHead, read]
      rfl
  | true_ =>
      change Except.map _ (jpLit (ascii "true" ++ rest) (ascii "true")) = _
      rw [jpLit_eq_ok.mpr rfl]
      rfl
  | false_ =>
      change Except.map _ (jpLit (ascii "false" ++ rest) (ascii "false")) = _
      rw [jpLit_eq_ok.mpr rfl]
      rfl
  | null =>
      change Except.map _ (jpLit (ascii "null" ++ rest) (ascii "null")) = _
      rw [jpLit_eq_ok.mpr rfl]
      rfl

/-- No value begins with a blank. -/
theorem ValueText.head (isText : ValueText text v) (rest : List UInt8) :
    ∀ c ∈ (text ++ rest).head?, isWs c = false := by
  intro c isHead
  cases isText with
  | str quoted =>
      obtain ⟨-, inner, -, rfl⟩ := quoted
      obtain rfl : 0x22 = c := Option.some.inj isHead
      rfl
  | @num n small =>
      obtain ⟨first, more, isNumber⟩ := List.exists_cons_of_ne_nil (Decimal.text_ne_nil n)
      have isDigit : Decimal.IsDigit first :=
        Decimal.isDigit_text n first (by rw [isNumber]; exact List.mem_cons_self)
      rw [isNumber] at isHead
      obtain rfl := Option.some.inj isHead
      refine Bool.eq_false_iff.mpr fun blank => ?_
      rcases isWs_iff.mp blank with rfl | rfl | rfl | rfl <;> exact absurd isDigit (by decide)
  | true_ =>
      obtain rfl : 0x74 = c := Option.some.inj isHead
      rfl
  | false_ =>
      obtain rfl : 0x66 = c := Option.some.inj isHead
      rfl
  | null =>
      obtain rfl : 0x6E = c := Option.some.inj isHead
      rfl

end Values

/-! ## Members -/

section Members

variable {m : Member} {ms before all : List Member} {s rest text back : List UInt8} {c : UInt8}

/-- A value ends before blanks and a comma or a brace. -/
theorem ends_of_blanks (blanks : Blanks back) (closes : c = 0x2C ∨ c = 0x7D)
    (v : Value) (rest : List UInt8) : Ends v (back ++ c :: rest) := by
  have plain : ∀ c, isWs c = true ∨ c = 0x2C ∨ c = 0x7D →
      ¬ Decimal.IsDigit c ∧ c ≠ 0x2E ∧ c ≠ 0x65 ∧ c ≠ 0x45 := by
    rintro c (blank | rfl | rfl)
    · rcases isWs_iff.mp blank with rfl | rfl | rfl | rfl <;> decide
    · decide
    · decide
  intro _ _ d isHead
  cases back with
  | nil =>
      obtain rfl := Option.some.inj isHead
      exact plain c (.inr closes)
  | cons w back =>
      obtain rfl := Option.some.inj isHead
      exact plain w (.inl (blanks w List.mem_cons_self))

/-- What is read as a member was the text of one, of a new key. -/
theorem memberText_of_jpMember (read : jpMember before s = .ok (m, rest)) :
    ∃ text, MemberText text m ∧ s = text ++ rest ∧ Ends m.value rest ∧
      ∀ b ∈ before, b.key ≠ m.key := by
  obtain ⟨front, isFront, isSplit⟩ := exists_skipWs s
  unfold jpMember at read
  split at read
  · cases read
  rename_i key after isKey
  obtain ⟨keyText, quoted, isQuoted⟩ := jpString_eq_ok.mp isKey
  split at read
  · cases read
  rename_i some_
  split at read
  · cases read
  rename_i unseen
  obtain ⟨middle, isMiddle, isAfter⟩ := exists_skipWs after
  split at read
  · rename_i later isColon
    obtain ⟨⟨v, rest⟩, isValue, same⟩ := map_eq_ok.mp read
    obtain ⟨rfl, rfl⟩ := Prod.mk.inj same
    obtain ⟨inner, isInner, isLater⟩ := exists_skipWs later
    obtain ⟨text, valued, isText, ends⟩ := valueText_of_jpValue isValue
    rw [isText] at isLater
    rw [isColon, isLater] at isAfter
    rw [isQuoted, isAfter] at isSplit
    refine ⟨_, .mk ⟨isFront, isMiddle, isInner⟩ quoted (mt (congrArg List.length) some_) valued,
      ?_, ends, ?_⟩
    · rw [isSplit]
      simp
    · intro b member same
      exact unseen (List.any_eq_true.mpr ⟨b, member, beq_iff_eq.mpr same⟩)
  · cases read

theorem not_isWs_of_quoted {text s : List UInt8} (quoted : QuotedText text s)
    (rest : List UInt8) : ∀ c ∈ (text ++ rest).head?, isWs c = false :=
  (ValueText.str quoted).head rest

theorem jpMember_of_memberText (isText : MemberText text m) (new : ∀ b ∈ before, b.key ≠ m.key)
    (ends : Ends m.value rest) : jpMember before (text ++ rest) = .ok (m, rest) := by
  cases isText with
  | @mk front keyText middle inner text m blanks quoted some_ valued =>
      obtain ⟨isFront, isMiddle, isInner⟩ := blanks
      have unseen : ¬ (before.any fun b => b.key == m.key) = true := by
        intro seen
        obtain ⟨b, member, same⟩ := List.any_eq_true.mp seen
        exact new b member (beq_iff_eq.mp same)
      have shape : front ++ (keyText ++ (middle ++ 0x3A :: (inner ++ text))) ++ rest =
          front ++ (keyText ++ (middle ++ 0x3A :: (inner ++ (text ++ rest)))) := by simp
      unfold jpMember
      rw [shape, skipWs_append isFront (not_isWs_of_quoted quoted _),
        jpString_eq_ok.mpr ⟨keyText, quoted, rfl⟩]
      dsimp only
      rw [if_neg (mt List.eq_nil_of_length_eq_zero some_), if_neg unseen,
        skipWs_cons isMiddle (by decide)]
      change Except.map _ (jpValue (skipWs (inner ++ (text ++ rest)))) = _
      rw [skipWs_append isInner (valued.head rest), jpValue_of_valueText valued ends]
      rfl

end Members

section Loop

variable {ms before all : List Member} {left : Nat} {s rest text : List UInt8}

/-- What the loop reads were the texts of members, new and distinct. -/
theorem membersText_of_jpMembers (distinct : (before.map Member.key).Nodup)
    (read : jpMembers left before s = .ok (all, rest)) :
    ∃ ms text, MembersText text ms ∧ s = text ++ 0x7D :: rest ∧ all = before ++ ms ∧
      ms.length ≤ left ∧ (all.map Member.key).Nodup := by
  induction left generalizing before s with
  | zero => cases read
  | succ left ih =>
      rw [jpMembers] at read
      split at read
      · cases read
      rename_i m after isMember
      obtain ⟨text, isText, rfl, -, new⟩ := memberText_of_jpMember isMember
      have distinct' : ((before ++ [m]).map Member.key).Nodup := by
        rw [List.map_append, List.map_singleton]
        refine List.nodup_append.mpr ⟨distinct, by simp, ?_⟩
        intro key member other isLast same
        obtain ⟨b, inside, rfl⟩ := List.mem_map.mp member
        exact new b inside (same.trans (List.mem_singleton.mp isLast))
      obtain ⟨back, isBack, isAfter⟩ := exists_skipWs after
      split at read
      · rename_i later isComma
        obtain ⟨ms, more, isMore, rfl, rfl, few, distinct⟩ := ih distinct' read
        refine ⟨m :: ms, _, .more isText isBack isMore, ?_, ?_, Nat.succ_le_succ few, distinct⟩
        · rw [isAfter, isComma]
          simp
        · simp
      · rename_i later isBrace
        obtain ⟨rfl, rfl⟩ := Prod.mk.inj (Except.ok.inj read)
        refine ⟨[m], _, .last isText isBack, ?_, rfl, Nat.le_add_left 1 left, distinct'⟩
        rw [isAfter, isBrace]
        simp
      · cases read

/-- Members of distinct keys are new to those before them. -/
theorem new_of_distinct {m : Member}
    (distinct : ((before ++ m :: ms).map Member.key).Nodup) : ∀ b ∈ before, b.key ≠ m.key := by
  intro b member
  rw [List.map_append, List.nodup_append] at distinct
  exact distinct.2.2 _ (List.mem_map_of_mem member) _ List.mem_cons_self

theorem jpMembers_of_membersText (isText : MembersText text ms) (few : ms.length ≤ left)
    (distinct : ((before ++ ms).map Member.key).Nodup) :
    jpMembers left before (text ++ 0x7D :: rest) = .ok (before ++ ms, rest) := by
  induction isText generalizing left before with
  | @last text back m member blanks =>
      obtain ⟨left, rfl⟩ := Nat.exists_eq_succ_of_ne_zero (Nat.ne_of_gt few)
      have read := jpMember_of_memberText member (new_of_distinct distinct)
        (ends_of_blanks blanks (.inr rfl) m.value rest)
      rw [List.append_assoc, jpMembers, read]
      dsimp only
      rw [skipWs_cons blanks (by decide)]
      rfl
  | @more text back later m ms member blanks _ ih =>
      obtain ⟨left, rfl⟩ := Nat.exists_eq_succ_of_ne_zero
        (Nat.ne_of_gt (Nat.lt_of_lt_of_le (Nat.succ_pos _) few))
      have shape : text ++ (back ++ 0x2C :: later) ++ 0x7D :: rest =
          text ++ (back ++ 0x2C :: (later ++ 0x7D :: rest)) := by simp
      have read := jpMember_of_memberText member (new_of_distinct distinct)
        (ends_of_blanks blanks (.inl rfl) m.value (later ++ 0x7D :: rest))
      have again : jpMembers left (before ++ [m]) (later ++ 0x7D :: rest) = _ :=
        ih (Nat.le_of_succ_le_succ few) (by rwa [List.append_assoc, List.singleton_append])
      rw [shape, jpMembers, read]
      dsimp only
      rw [skipWs_cons blanks (by decide)]
      change jpMembers left (before ++ [m]) (later ++ 0x7D :: rest) = _
      rw [again, List.append_assoc, List.singleton_append]

end Loop

/-! ## Documents -/

section Documents

variable {members : List Member} {s rest text p : List UInt8}

theorem jpMember_skipWs (before : List Member) (s : List UInt8) :
    jpMember before (skipWs s) = jpMember before s := by
  rw [jpMember, jpMember, skipWs_skipWs]

theorem jpMembers_skipWs (left : Nat) (before : List Member) (s : List UInt8) :
    jpMembers left before (skipWs s) = jpMembers left before s := by
  cases left with
  | zero => rfl
  | succ left => rw [jpMembers, jpMembers, jpMember_skipWs]

/-- The text of a member begins with a quote, behind blanks. -/
theorem MemberText.skipped {m : Member} (isText : MemberText text m) (rest : List UInt8) :
    ∃ more, skipWs (text ++ rest) = 0x22 :: more := by
  obtain ⟨blanks, quoted, some_, value⟩ := isText
  have stop := not_isWs_of_quoted quoted
  obtain ⟨-, inner, -, rfl⟩ := quoted
  rw [List.append_assoc, List.append_assoc, skipWs_append blanks.1 (stop _)]
  exact ⟨_, rfl⟩

theorem MembersText.skipped (isText : MembersText text members) (rest : List UInt8) :
    ∃ more, skipWs (text ++ rest) = 0x22 :: more := by
  cases isText with
  | last member blanks =>
      rw [List.append_assoc]
      exact member.skipped _
  | more member blanks later =>
      rw [List.append_assoc]
      exact member.skipped _

theorem bodyText_of_jpObject (read : jpObject s = .ok (members, rest)) :
    ∃ text, BodyText text members ∧ s = text ++ 0x7D :: rest ∧ members.length ≤ keysMax ∧
      (members.map Member.key).Nodup := by
  obtain ⟨ws, isBlank, isSplit⟩ := exists_skipWs s
  unfold jpObject at read
  split at read
  · rename_i after isBrace
    obtain ⟨rfl, rfl⟩ := Prod.mk.inj (Except.ok.inj read)
    rw [isBrace] at isSplit
    exact ⟨ws, .empty isBlank, isSplit, Nat.zero_le _, List.nodup_nil⟩
  · rw [jpMembers_skipWs] at read
    obtain ⟨ms, text, isText, rfl, rfl, few, distinct⟩ :=
      membersText_of_jpMembers (show (([] : List Member).map Member.key).Nodup from .nil) read
    exact ⟨text, .members isText, rfl, few, distinct⟩

theorem jpObject_of_bodyText (isText : BodyText text members) (few : members.length ≤ keysMax)
    (distinct : (members.map Member.key).Nodup) :
    jpObject (text ++ 0x7D :: rest) = .ok (members, rest) := by
  unfold jpObject
  cases isText with
  | empty blanks =>
      rw [skipWs_cons blanks (by decide)]
      rfl
  | members isText =>
      have read : jpMembers keysMax [] (text ++ 0x7D :: rest) = .ok ([] ++ members, rest) :=
        jpMembers_of_membersText isText few distinct
      obtain ⟨more, isQuote⟩ := isText.skipped (0x7D :: rest)
      rw [← jpMembers_skipWs, isQuote] at read
      rw [isQuote]
      exact read

theorem Blanks.ne_zero {ws : List UInt8} (blanks : Blanks ws) : ∀ c ∈ ws, c ≠ 0 := by
  rintro c member rfl
  exact absurd (blanks 0 member) (by decide)

theorem HexDigit.ne_zero {c : UInt8} {v : Nat} (isDigit : HexDigit c v) : c ≠ 0 := by
  rintro rfl
  have value := hexval_eq_some.mpr isDigit
  cases value

theorem Spells.ne_zero {e : List UInt8} {c : UInt8} (spells : Spells e c) : ∀ x ∈ e, x ≠ 0 := by
  cases spells with
  | raw low high notQuote notSlash =>
      exact List.forall_mem_singleton.mpr (raw_of_spells low high).1
  | @escape e c listed =>
      have listedNe : ∀ p ∈ escapes, p.1 ≠ 0 := by
        unfold escapes
        simp
      simp only [List.forall_mem_cons]
      exact ⟨by decide, listedNe _ listed, nofun⟩
  | unicode first second third fourth low high =>
      simp only [List.forall_mem_cons]
      exact ⟨by decide, by decide, first.ne_zero, second.ne_zero, third.ne_zero,
        fourth.ne_zero, nofun⟩

theorem StringText.ne_zero {text s : List UInt8} (isText : StringText text s) :
    ∀ c ∈ text, c ≠ 0 := by
  induction isText with
  | nil => exact nofun
  | cons first later ih => exact List.forall_mem_append.mpr ⟨first.ne_zero, ih⟩

theorem QuotedText.ne_zero {text s : List UInt8} (quoted : QuotedText text s) :
    ∀ c ∈ text, c ≠ 0 := by
  obtain ⟨-, inner, isText, rfl⟩ := quoted
  simp only [List.forall_mem_cons, List.forall_mem_append]
  exact ⟨by decide, isText.ne_zero, by decide, nofun⟩

theorem ValueText.ne_zero {v : Value} (isText : ValueText text v) : ∀ c ∈ text, c ≠ 0 := by
  cases isText with
  | str quoted => exact quoted.ne_zero
  | num small =>
      rintro c member rfl
      exact absurd (Decimal.isDigit_text _ 0 member) (by decide)
  | true_ => simp [ascii]
  | false_ => simp [ascii]
  | null => simp [ascii]

theorem MemberText.ne_zero {m : Member} (isText : MemberText text m) : ∀ c ∈ text, c ≠ 0 := by
  obtain ⟨⟨front, middle, inner⟩, key, some_, value⟩ := isText
  simp only [List.forall_mem_cons, List.forall_mem_append]
  exact ⟨front.ne_zero, key.ne_zero, middle.ne_zero, by decide, inner.ne_zero, value.ne_zero⟩

theorem MembersText.ne_zero (isText : MembersText text members) : ∀ c ∈ text, c ≠ 0 := by
  induction isText with
  | last member blanks => exact List.forall_mem_append.mpr ⟨member.ne_zero, blanks.ne_zero⟩
  | more member blanks later ih =>
      simp only [List.forall_mem_cons, List.forall_mem_append]
      exact ⟨member.ne_zero, blanks.ne_zero, by decide, ih⟩

theorem BodyText.ne_zero (isText : BodyText text members) : ∀ c ∈ text, c ≠ 0 := by
  cases isText with
  | empty blanks => exact blanks.ne_zero
  | members isText => exact isText.ne_zero

theorem document_of_jsonParse (read : jsonParse p = .ok members) : Document p members := by
  obtain ⟨lead, isLead, isSplit⟩ := exists_skipWs p
  unfold jsonParse at read
  split at read
  · cases read
  rename_i short
  split at read
  · cases read
  split at read
  · rename_i s isBrace
    split at read
    · cases read
    rename_i found after isObject
    split at read
    · cases read
    rename_i whole
    obtain rfl := Except.ok.inj read
    obtain ⟨body, isText, rfl, few, distinct⟩ := bodyText_of_jpObject isObject
    rw [isBrace] at isSplit
    exact ⟨⟨lead, body, after, isLead, isText, skipWs_eq_nil.mp (not_not.mp whole), isSplit⟩,
      few, distinct, Nat.le_of_not_lt short⟩
  · cases read

theorem Document.parse (document : Document p members) : jsonParse p = .ok members := by
  obtain ⟨⟨lead, body, tail, isLead, isText, isTail, rfl⟩, few, distinct, short⟩ := document
  have noNul : ¬ (lead ++ 0x7B :: (body ++ 0x7D :: tail)).contains 0 = true := by
    intro holds
    have each : ∀ c ∈ lead ++ 0x7B :: (body ++ 0x7D :: tail), c ≠ 0 := by
      simp only [List.forall_mem_cons, List.forall_mem_append]
      exact ⟨isLead.ne_zero, by decide, isText.ne_zero, by decide, isTail.ne_zero⟩
    exact each 0 (List.contains_iff_mem.mp holds) rfl
  unfold jsonParse
  rw [if_neg (Nat.not_lt.mpr short), if_neg noNul, skipWs_cons isLead (by decide)]
  split
  · next s same =>
      obtain ⟨-, rfl⟩ := List.cons.inj same
      rw [jpObject_of_bodyText isText few distinct]
      dsimp only
      rw [if_neg (not_not_intro (skipWs_eq_nil.mpr isTail))]
  · next other => exact absurd rfl (other _)

end Documents

/-- `json_parse` takes exactly the documents, and gives exactly their members. -/
theorem json_parses_documents (p : List UInt8) (members : List Member) :
    jsonParse p = .ok members ↔ Document p members :=
  ⟨document_of_jsonParse, Document.parse⟩

end RlxFw.Json
