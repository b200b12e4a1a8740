import RlxFw.JsonGrammar

/-!
# What the writer writes, the reader reads

The texts of values and members as the writer writes them, with whatever blanks a
client puts between them, and what `json_parse` makes of them.
-/

namespace RlxFw.Json

/-! ## Texts -/

/-- The text of a value as the writer writes it. -/
def valueText : Value → List UInt8
  | .str s => 0x22 :: (s.flatMap fun c => (quoteByte c).getD []) ++ [0x22]
  | .num n => Decimal.text n
  | .bool b => if b then ascii "true" else ascii "false"
  | .null => ascii "null"

/-- A string that the writer writes and that fits a slot of the reader. -/
structure PlainString (s : List UInt8) : Prop where
  short : s.length ≤ strMax
  quoted : ∀ c ∈ s, (quoteByte c).isSome = true

/-- A value that the writer writes and that fits a slot of the reader. -/
def PlainValue : Value → Prop
  | .str s => PlainString s
  | .num n => n < 2 ^ 32
  | .bool _ => True
  | .null => True

/-- A key that is written as it is. -/
structure PlainKey (key : List UInt8) : Prop where
  pos : 0 < key.length
  short : key.length ≤ strMax
  raw : ∀ c ∈ key, quoteByte c = some [c]

theorem spells_of_quoteByte {c : UInt8} {e : List UInt8} (quoted : quoteByte c = some e) :
    Spells e c := by
  unfold quoteByte at quoted
  split_ifs at quoted with marked newline return_ tab refused
  · obtain rfl := Option.some.inj quoted
    rcases marked with rfl | rfl <;> exact .escape (by decide)
  · obtain rfl := Option.some.inj quoted
    subst newline
    exact .escape (by decide)
  · obtain rfl := Option.some.inj quoted
    subst return_
    exact .escape (by decide)
  · obtain rfl := Option.some.inj quoted
    subst tab
    exact .escape (by decide)
  · obtain rfl := Option.some.inj quoted
    obtain ⟨notQuote, notSlash⟩ := not_or.mp marked
    obtain ⟨low, high⟩ := not_or.mp refused
    exact .raw (UInt8.not_lt.mp low)
      (UInt8.lt_of_lt_of_le (UInt8.not_le.mp high) (by decide)) notQuote notSlash

theorem stringText_quoted {s : List UInt8} (quoted : ∀ c ∈ s, (quoteByte c).isSome = true) :
    StringText (s.flatMap fun c => (quoteByte c).getD []) s := by
  induction s with
  | nil => exact .nil
  | cons c s ih =>
      obtain ⟨here, later⟩ := List.forall_mem_cons.mp quoted
      obtain ⟨e, isQuoted⟩ := Option.isSome_iff_exists.mp here
      rw [List.flatMap_cons, isQuoted]
      exact .cons (spells_of_quoteByte isQuoted) (ih later)

theorem PlainString.quotedText {s : List UInt8} (plain : PlainString s) :
    QuotedText (valueText (.str s)) s :=
  ⟨plain.short, _, stringText_quoted plain.quoted, rfl⟩

theorem PlainValue.valueText : ∀ {v : Value}, PlainValue v → ValueText (valueText v) v
  | .str _, plain => .str (PlainString.quotedText plain)
  | .num _, plain => .num plain
  | .bool true, _ => .true_
  | .bool false, _ => .false_
  | .null, _ => .null

theorem PlainKey.string {key : List UInt8} (plain : PlainKey key) : PlainString key where
  short := plain.short
  quoted c member := by rw [plain.raw c member]; rfl

theorem flatMap_quoteByte {s : List UInt8} (raw : ∀ c ∈ s, quoteByte c = some [c]) :
    (s.flatMap fun c => (quoteByte c).getD []) = s := by
  induction s with
  | nil => rfl
  | cons c s ih =>
      obtain ⟨here, later⟩ := List.forall_mem_cons.mp raw
      rw [List.flatMap_cons, here, ih later]
      rfl

/-- A key is written between quotes as it is. -/
theorem PlainKey.valueText {key : List UInt8} (plain : PlainKey key) :
    valueText (.str key) = 0x22 :: key ++ [0x22] := by
  change 0x22 :: (key.flatMap _) ++ [0x22] = _
  rw [flatMap_quoteByte plain.raw]

/-! ## Members -/

/-- A member that the writer writes and the reader has room for. -/
structure PlainMember (m : Member) : Prop where
  key : PlainKey m.key
  value : PlainValue m.value

/-- The blanks of a member: before its key, before and after its colon, and after its
value. -/
structure Spacing where
  front : List UInt8
  middle : List UInt8
  inner : List UInt8
  back : List UInt8
  blanks : Blanks front ∧ Blanks middle ∧ Blanks inner ∧ Blanks back

/-- No blanks at all, as the writer writes. -/
def Spacing.tight : Spacing := ⟨[], [], [], [], nofun, nofun, nofun, nofun⟩

/-- The text of a member. -/
def Spacing.text (sp : Spacing) (m : Member) : List UInt8 :=
  sp.front ++ (valueText (.str m.key) ++ (sp.middle ++
    (0x3A :: (sp.inner ++ (valueText m.value ++ sp.back)))))

/-- What the writer writes of a member is a text of it, but for the blanks behind. -/
theorem Spacing.memberText (sp : Spacing) {m : Member} (plain : PlainMember m) :
    ∃ text, MemberText text m ∧ sp.text m = text ++ sp.back := by
  obtain ⟨front, middle, inner, -⟩ := sp.blanks
  refine ⟨_, .mk ⟨front, middle, inner⟩ plain.key.string.quotedText
    (List.ne_nil_of_length_pos plain.key.pos) plain.value.valueText, ?_⟩
  simp [Spacing.text]

/-- The texts of members, with commas between. -/
def bodyText : List (Spacing × Member) → List UInt8
  | [] => []
  | [p] => p.1.text p.2
  | p :: q :: more => p.1.text p.2 ++ 0x2C :: bodyText (q :: more)

theorem membersText_bodyText {ps : List (Spacing × Member)} (some_ : ps ≠ [])
    (plain : ∀ p ∈ ps, PlainMember p.2) : MembersText (bodyText ps) (ps.map Prod.snd) := by
  induction ps with
  | nil => exact absurd rfl some_
  | cons p ps ih =>
      obtain ⟨here, later⟩ := List.forall_mem_cons.mp plain
      obtain ⟨text, isText, same⟩ := p.1.memberText here
      cases ps with
      | nil =>
          rw [bodyText, same]
          exact .last isText p.1.blanks.2.2.2
      | cons q more =>
          rw [bodyText, same, List.append_assoc]
          exact .more isText p.1.blanks.2.2.2 (ih (List.cons_ne_nil q more) later)

/-! ## Documents -/

/-- A document: an object, with blanks around it. -/
structure Layout where
  lead : List UInt8
  members : List (Spacing × Member)
  tail : List UInt8
  blanks : Blanks lead ∧ Blanks tail

theorem blanks_nil : Blanks [] ∧ Blanks [] :=
  ⟨List.forall_mem_nil _, List.forall_mem_nil _⟩

/-- The text of a document. -/
def Layout.text (d : Layout) : List UInt8 :=
  d.lead ++ 0x7B :: (bodyText d.members ++ 0x7D :: d.tail)

/-- A document within the limits of `json_parse`. -/
structure Layout.Readable (d : Layout) : Prop where
  plain : ∀ p ∈ d.members, PlainMember p.2
  distinct : ((d.members.map Prod.snd).map Member.key).Nodup
  few : d.members.length ≤ keysMax
  short : d.text.length ≤ docMax

theorem Layout.Readable.document {d : Layout} (readable : d.Readable) :
    Document d.text (d.members.map Prod.snd) where
  text := by
    refine ⟨d.lead, bodyText d.members, d.tail, d.blanks.1, ?_, d.blanks.2, rfl⟩
    rcases eq_or_ne d.members [] with none | some_
    · rw [none]
      exact .empty nofun
    · exact .members (membersText_bodyText some_ readable.plain)
  few := by
    rw [List.length_map]
    exact readable.few
  distinct := readable.distinct
  short := readable.short

/-- A document is read back to its members. -/
theorem Layout.Readable.parse {d : Layout} (readable : d.Readable) :
    jsonParse d.text = .ok (d.members.map Prod.snd) :=
  readable.document.parse

/-! ## The writer -/

/-- The digits that `json_w_num` writes are those of the number. -/
theorem numDigits_eq {i v : Nat} (pos : 0 < v) (small : v < 10 ^ i) (d : List UInt8) :
    numDigits i v d = Decimal.text v ++ d := by
  induction i generalizing v d with
  | zero => omega
  | succ i ih =>
      rw [numDigits, if_pos pos]
      rcases Nat.lt_or_ge v 10 with one | large
      · have ends : ∀ j, numDigits j 0 (Decimal.digit v :: d) = Decimal.digit v :: d := by
          intro j
          cases j <;> rfl
        rw [Nat.mod_eq_of_lt one, Nat.div_eq_of_lt one, ends, Decimal.text_of_lt one]
        rfl
      · have less : v / 10 < 10 ^ i := by
          rw [Nat.div_lt_iff_lt_mul (by omega), ← pow_succ]
          exact small
        rw [ih (by omega) less, Decimal.text_of_le large, List.append_assoc]
        rfl

/-- A member by the writer's function for its type. -/
def Writer.member (w : Writer) (m : Member) : Writer :=
  match m.value with
  | .str s => w.strn m.key s
  | .num n => w.num m.key n
  | .bool b => w.bool m.key b
  | .null => w.raw m.key (ascii "null")

/-- A writer that had room: what it holds, and how many members. -/
structure Writer.Holds (w : Writer) (cap : Nat) (text : List UInt8) (n : Nat) : Prop where
  err : w.err = false
  cap : w.cap = cap
  buf : w.buf = text
  nmemb : w.nmemb = n

/-- What goes before a member. -/
def separator (n : Nat) : List UInt8 := if n ≠ 0 then [0x2C] else []

theorem length_separator (n : Nat) : (separator n).length ≤ 1 := by
  unfold separator
  split <;> decide

theorem bodyText_snoc (ps : List (Spacing × Member)) (p : Spacing × Member) :
    bodyText (ps ++ [p]) = bodyText ps ++ (separator ps.length ++ p.1.text p.2) := by
  induction ps with
  | nil => rfl
  | cons q ps ih =>
      cases ps with
      | nil => rfl
      | cons r more =>
          rw [List.cons_append, List.cons_append, bodyText, ← List.cons_append, ih, bodyText]
          simp [separator]

/-! ## Calls of the writer -/

/-- A writer within its buffer, with the NUL behind what it holds. -/
def Writer.Inside (w : Writer) : Prop :=
  w.buf.length + 1 ≤ w.cap ∨ w.cap = 0 ∧ w.buf = [] ∧ w.err = true

/-- What calls make of a writer: they append a text where it can be written and fits, and
fail where not. -/
structure Appends (w w' : Writer) (can : Prop) (text : List UInt8) : Prop where
  cap : w'.cap = w.cap
  inside : w'.Inside
  err : w'.err = false ↔ w.err = false ∧ can ∧ w.buf.length + text.length + 1 ≤ w.cap
  buf : w'.err = false → w'.buf = w.buf ++ text

/-- A value without a byte that the writer refuses. -/
def Representable : Value → Prop
  | .str s => ∀ c ∈ s, (quoteByte c).isSome = true
  | _ => True

theorem PlainValue.representable : ∀ {v : Value}, PlainValue v →
    Representable v ∧ ∀ n, v = .num n → n < 2 ^ 32
  | .str _, plain => ⟨PlainString.quoted plain, nofun⟩
  | .num _, plain => ⟨trivial, fun _ same => Value.num.inj same ▸ plain⟩
  | .bool _, _ => ⟨trivial, nofun⟩
  | .null, _ => ⟨trivial, nofun⟩

section Calls

variable {w w' w'' : Writer} {can can' : Prop} {text text' : List UInt8}

theorem Writer.Inside.room (inside : w.Inside) (fine : w.err = false) :
    w.buf.length + 1 ≤ w.cap := by
  rcases inside with room | ⟨-, -, failed⟩
  · exact room
  · rw [failed] at fine
    cases fine

theorem inside_init (cap : Nat) : (Writer.init cap).Inside := by
  rcases Nat.eq_zero_or_pos cap with rfl | pos
  · exact .inr ⟨rfl, rfl, rfl⟩
  · exact .inl pos

namespace Appends

theorem nothing (inside : w.Inside) : Appends w w True [] where
  cap := rfl
  inside := inside
  err := by simpa using inside.room
  buf _ := (List.append_nil _).symm

theorem refusal (inside : w.Inside) (text : List UInt8) :
    Appends w { w with err := true } False text where
  cap := rfl
  inside := by
    rcases inside with room | ⟨none, empty, -⟩
    · exact .inl room
    · exact .inr ⟨none, empty, rfl⟩
  err := by simp
  buf := nofun

theorem put (inside : w.Inside) (s : List UInt8) : Appends w (w.put s) True s := by
  unfold Writer.put
  by_cases failed : w.err = true
  · rw [if_pos failed]
    exact ⟨rfl, inside, by simp [failed], by simp [failed]⟩
  rw [if_neg failed]
  have fine : w.err = false := Bool.not_eq_true _ ▸ failed
  by_cases full : w.buf.length + s.length + 1 > w.cap
  · rw [if_pos full]
    exact ⟨rfl, (refusal inside s).inside, by simp [Nat.not_le.mpr full], nofun⟩
  · rw [if_neg full]
    refine ⟨rfl, .inl ?_, by simpa [fine] using full, fun _ => rfl⟩
    rw [List.length_append]
    exact Nat.le_of_not_lt full

/-- Calls one behind the other append both texts. -/
theorem trans (first : Appends w w' can text) (second : Appends w' w'' can' text') :
    Appends w w'' (can ∧ can') (text ++ text') where
  cap := second.cap.trans first.cap
  inside := second.inside
  err := by
    -- the second text fits behind the first exactly when both fit together
    rw [second.err, first.err, first.cap, List.length_append]
    constructor
    · rintro ⟨⟨fine, holds, fits⟩, holds', fits'⟩
      rw [first.buf (first.err.mpr ⟨fine, holds, fits⟩), List.length_append] at fits'
      exact ⟨fine, ⟨holds, holds'⟩, by omega⟩
    · rintro ⟨fine, ⟨holds, holds'⟩, fits⟩
      have fits' : w.buf.length + text.length + 1 ≤ w.cap := by omega
      refine ⟨⟨fine, holds, fits'⟩, holds', ?_⟩
      rw [first.buf (first.err.mpr ⟨fine, holds, fits'⟩), List.length_append]
      omega
  buf fine := by
    have before := (second.err.mp fine).1
    rw [second.buf fine, first.buf before, List.append_assoc]

theorem congr (appends : Appends w w' can text) (same : can ↔ can') :
    Appends w w' can' text :=
  propext same ▸ appends

/-- Of calls that can always be made, both can. -/
theorem andThen (first : Appends w w' True text) (second : Appends w' w'' can text') :
    Appends w w'' can (text ++ text') :=
  (first.trans second).congr (iff_of_eq (true_and can))

theorem counted (appends : Appends w w' can text) (n : Nat) :
    Appends w { w' with nmemb := n } can text :=
  ⟨appends.cap, appends.inside, appends.err, appends.buf⟩

theorem key (inside : w.Inside) (key : List UInt8) :
    Appends w (w.key key) True (separator w.nmemb ++ ([0x22] ++ (key ++ [0x22, 0x3A]))) := by
  have first : Appends w (if w.nmemb ≠ 0 then w.put [0x2C] else w) True (separator w.nmemb) := by
    unfold separator
    split
    · exact put inside [0x2C]
    · exact nothing inside
  have counted := first.counted ((if w.nmemb ≠ 0 then w.put [0x2C] else w).nmemb + 1)
  have opened := put counted.inside [0x22]
  have named := put opened.inside key
  exact counted.andThen (opened.andThen (named.andThen (put named.inside [0x22, 0x3A])))

theorem strTail (inside : w.Inside) (s : List UInt8) :
    Appends w (w.strTail s) (∀ c ∈ s, (quoteByte c).isSome = true)
      ((s.flatMap fun c => (quoteByte c).getD []) ++ [0x22]) := by
  induction s generalizing w with
  | nil => exact (put inside [0x22]).congr (by simp)
  | cons c s ih =>
      rw [List.flatMap_cons, Writer.strTail, List.append_assoc]
      cases quoted : quoteByte c with
      | none => exact (refusal inside _).congr (by simp [quoted])
      | some e =>
          have first := put inside e
          exact (first.andThen (ih first.inside)).congr (by simp [quoted])

theorem text_tight {m : Member} (plain : PlainKey m.key) (front : List UInt8) :
    front ++ Spacing.tight.text m =
      front ++ ([0x22] ++ (m.key ++ [0x22, 0x3A])) ++ valueText m.value := by
  unfold Spacing.text
  rw [plain.valueText]
  simp [Spacing.tight]

/-- A member is appended behind a comma when it is not the first. -/
theorem member (inside : w.Inside) {m : Member} (plain : PlainKey m.key)
    (small : ∀ n, m.value = .num n → n < 2 ^ 32) :
    Appends w (w.member m) (Representable m.value)
      (separator w.nmemb ++ Spacing.tight.text m) := by
  rw [text_tight plain]
  obtain ⟨name, value⟩ := m
  have named := key inside name
  cases value with
  | str s =>
      have opened := put named.inside [0x22]
      exact named.andThen (opened.andThen (strTail opened.inside s))
  | num v =>
      have digits : w.num name v = (w.key name).put (Decimal.text v) := by
        have less := small v rfl
        unfold Writer.num
        dsimp only
        split
        next zero => rw [zero]; rfl
        next pos =>
          rw [numDigits_eq (Nat.pos_of_ne_zero pos) (by omega), List.append_nil]
      change Appends w (w.num name v) True _
      rw [digits]
      exact named.andThen (put named.inside (Decimal.text v))
  | bool b => exact named.andThen (put named.inside (valueText (.bool b)))
  | null => exact named.andThen (put named.inside (valueText .null))

end Appends

theorem nmemb_put (w : Writer) (s : List UInt8) : (w.put s).nmemb = w.nmemb := by
  unfold Writer.put
  split_ifs <;> rfl

theorem nmemb_key (w : Writer) (key : List UInt8) : (w.key key).nmemb = w.nmemb + 1 := by
  unfold Writer.key
  simp only [nmemb_put]
  split
  · rw [nmemb_put]
  · rfl

theorem nmemb_strTail (w : Writer) (s : List UInt8) : (w.strTail s).nmemb = w.nmemb := by
  induction s generalizing w with
  | nil => exact nmemb_put w _
  | cons c s ih =>
      rw [Writer.strTail]
      split
      · rfl
      · rw [ih, nmemb_put]

theorem nmemb_member (w : Writer) (m : Member) : (w.member m).nmemb = w.nmemb + 1 := by
  obtain ⟨name, value⟩ := m
  cases value with
  | str s =>
      change (((w.key name).put [0x22]).strTail s).nmemb = _
      rw [nmemb_strTail, nmemb_put, nmemb_key]
  | num v =>
      change (if v = 0 then (w.key name).put [0x30] else
        (w.key name).put (numDigits 12 v [])).nmemb = _
      split <;> rw [nmemb_put, nmemb_key]
  | bool b =>
      change ((w.key name).put _).nmemb = _
      rw [nmemb_put, nmemb_key]
  | null =>
      change ((w.key name).put _).nmemb = _
      rw [nmemb_put, nmemb_key]

end Calls

namespace Writer.Holds

variable {w : Writer} {cap n : Nat} {text : List UInt8}

theorem inside (holds : w.Holds cap text n) (room : text.length + 1 ≤ cap) : w.Inside :=
  .inl (by rw [holds.buf, holds.cap]; exact room)

/-- What calls append, a writer with room for it holds. -/
theorem appended (holds : w.Holds cap text n) {w' : Writer} {can : Prop} {s : List UInt8}
    {n' : Nat} (appends : Appends w w' can s) (made : can)
    (room : text.length + s.length + 1 ≤ cap) (count : w'.nmemb = n') :
    w'.Holds cap (text ++ s) n' := by
  have fine := appends.err.mpr ⟨holds.err, made, by rw [holds.buf, holds.cap]; exact room⟩
  exact ⟨fine, appends.cap.trans holds.cap, by rw [appends.buf fine, holds.buf], count⟩

theorem put (holds : w.Holds cap text n) {s : List UInt8}
    (room : text.length + s.length + 1 ≤ cap) : (w.put s).Holds cap (text ++ s) n :=
  holds.appended (Appends.put (holds.inside (by omega)) s) trivial room
    ((nmemb_put w s).trans holds.nmemb)

theorem key (holds : w.Holds cap text n) (key : List UInt8)
    (room : text.length + key.length + 5 ≤ cap) :
    (w.key key).Holds cap (text ++ separator n ++ [0x22] ++ key ++ [0x22, 0x3A]) (n + 1) := by
  have few := length_separator n
  have appends := Appends.key (holds.inside (by omega)) key
  rw [holds.nmemb] at appends
  have named := holds.appended appends trivial (by simp; omega)
    ((nmemb_key w key).trans (congrArg (· + 1) holds.nmemb))
  simpa only [List.append_assoc] using named

/-- A member is written as its text, behind a comma when it is not the first. -/
theorem member (holds : w.Holds cap text n) {m : Member} (plain : PlainMember m)
    (room : text.length + (Spacing.tight.text m).length + 2 ≤ cap) :
    (w.member m).Holds cap (text ++ (separator n ++ Spacing.tight.text m)) (n + 1) := by
  have few := length_separator n
  obtain ⟨can, small⟩ := plain.value.representable
  have appends := Appends.member (holds.inside (by omega)) plain.key small
  rw [holds.nmemb] at appends
  exact holds.appended appends can (by rw [List.length_append]; omega)
    ((nmemb_member w m).trans (congrArg (· + 1) holds.nmemb))

end Writer.Holds

end RlxFw.Json
