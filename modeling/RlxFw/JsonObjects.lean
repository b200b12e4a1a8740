import RlxFw.JsonRoundTrip

/-!
# What the writer can write at all

Whatever is handed to the writer, what it holds is an object of the grammar, or it has failed:
strings of any length, numbers, booleans, and other objects put in as they are.
-/

namespace RlxFw.Json

/-! ## Objects as text -/

/-- The text of a value that is no object. -/
inductive Scalar : List UInt8 → Prop
  | str {inner s : List UInt8} (text : StringText inner s) : Scalar (0x22 :: (inner ++ [0x22]))
  | num (n : Nat) : Scalar (Decimal.text n)
  | true_ : Scalar (ascii "true")
  | false_ : Scalar (ascii "false")

/-- The text of a member whose value's text is of a kind. -/
def MemberOf (V : List UInt8 → Prop) (text : List UInt8) : Prop :=
  ∃ key name val, StringText key name ∧ V val ∧
    text = [0x22] ++ (key ++ [0x22, 0x3A]) ++ val

/-- One member or more. -/
inductive MembersOf (V : List UInt8 → Prop) : List UInt8 → Prop
  | one {text : List UInt8} (member : MemberOf V text) : MembersOf V text
  | more {front text : List UInt8} (members : MembersOf V front) (member : MemberOf V text) :
      MembersOf V (front ++ 0x2C :: text)

/-- The text of an object without blanks. -/
def ObjectOf (V : List UInt8 → Prop) (text : List UInt8) : Prop :=
  text = [0x7B, 0x7D] ∨ ∃ inner, MembersOf V inner ∧ text = 0x7B :: (inner ++ [0x7D])

/-- An object whose members are scalars or objects of scalars. -/
def Nested (text : List UInt8) : Prop :=
  ObjectOf (fun val => Scalar val ∨ ObjectOf Scalar val) text

/-- A string that stands as it is. -/
theorem stringText_raw {s : List UInt8} (raw : ∀ c ∈ s, quoteByte c = some [c]) :
    StringText s s := by
  have text := stringText_quoted (s := s) fun c listed => by
    rw [raw c listed]
    rfl
  rwa [flatMap_quoteByte raw] at text

theorem scalar_valueText {v : Value} (can : Representable v) (present : v ≠ .null) :
    Scalar (valueText v) := by
  cases v with
  | str s => exact .str (stringText_quoted can)
  | num n => exact .num n
  | bool b =>
      cases b with
      | true => exact .true_
      | false => exact .false_
  | null => exact absurd rfl present

/-! ## A writer inside its object -/

/-- A writer that has opened an object and has room, or has failed. -/
structure Writer.Filling (V : List UInt8 → Prop) (cap : Nat) (w : Writer) : Prop where
  inside : w.Inside
  cap : w.cap = cap
  text : w.err = false → w.nmemb = 0 ∧ w.buf = [0x7B] ∨
    w.nmemb ≠ 0 ∧ ∃ inner, MembersOf V inner ∧ w.buf = 0x7B :: inner

namespace Writer.Filling

variable {V : List UInt8 → Prop} {cap : Nat} {w w' : Writer} {key : List UInt8}

theorem opened (V : List UInt8 → Prop) (cap : Nat) : (Writer.init cap).objOpen.Filling V cap where
  inside := (appends_objOpen cap).inside
  cap := (appends_objOpen cap).cap
  text fine := Or.inl ⟨rfl, (appends_objOpen cap).buf fine⟩

/-- One more member. -/
theorem append (filling : w.Filling V cap) {can : Prop} {text : List UInt8}
    (appends : Appends w w' can (separator w.nmemb ++ text)) (count : w'.nmemb = w.nmemb + 1)
    (member : can → MemberOf V text) : w'.Filling V cap where
  inside := appends.inside
  cap := appends.cap.trans filling.cap
  text fine := by
    obtain ⟨before, made, -⟩ := appends.err.mp fine
    have some_ : w'.nmemb ≠ 0 := by omega
    rw [appends.buf fine]
    refine Or.inr ⟨some_, ?_⟩
    obtain ⟨empty, buf⟩ | ⟨filled, inner, members, buf⟩ := filling.text before
    · exact ⟨text, .one (member made), by rw [buf, empty]; rfl⟩
    · refine ⟨inner ++ 0x2C :: text, .more members (member made), ?_⟩
      rw [buf, separator, if_pos filled]
      simp

theorem member (filling : w.Filling V cap) (scalar : ∀ text, Scalar text → V text) {m : Member}
    (plain : PlainKey m.key) (small : ∀ n, m.value = .num n → n < 2 ^ 32)
    (present : m.value ≠ .null) : (w.member m).Filling V cap := by
  refine filling.append (Appends.member filling.inside plain small) (nmemb_member w m) ?_
  intro can
  exact ⟨m.key, m.key, valueText m.value, stringText_raw plain.raw,
    scalar _ (scalar_valueText can present), Appends.text_tight plain []⟩

theorem strn (filling : w.Filling V cap) (scalar : ∀ text, Scalar text → V text)
    (plain : PlainKey key) (s : List UInt8) : (w.strn key s).Filling V cap :=
  filling.member scalar (m := { key := key, value := .str s }) plain nofun nofun

theorem num (filling : w.Filling V cap) (scalar : ∀ text, Scalar text → V text)
    (plain : PlainKey key) {n : Nat} (small : n < 2 ^ 32) : (w.num key n).Filling V cap :=
  filling.member scalar (m := { key := key, value := .num n }) plain
    (fun _ same => Value.num.inj same ▸ small) nofun

theorem bool (filling : w.Filling V cap) (scalar : ∀ text, Scalar text → V text)
    (plain : PlainKey key) (b : Bool) : (w.bool key b).Filling V cap :=
  filling.member scalar (m := { key := key, value := .bool b }) plain nofun nofun

/-- A value put in as it is. -/
theorem raw (filling : w.Filling V cap) (plain : PlainKey key) {val : List UInt8}
    (isValue : V val) : (w.raw key val).Filling V cap := by
  have named := Appends.key filling.inside key
  have appends := named.andThen (Appends.put named.inside val)
  rw [List.append_assoc] at appends
  refine filling.append appends ?_ fun _ =>
    ⟨key, key, val, stringText_raw plain.raw, isValue, rfl⟩
  change ((w.key key).put val).nmemb = _
  rw [nmemb_put, nmemb_key]

/-- What is there once the object is closed. -/
theorem close (filling : w.Filling V cap) (fine : w.objClose.err = false) :
    ObjectOf V w.objClose.buf ∧ w.objClose.buf.length < cap := by
  have appends := Appends.put filling.inside [0x7D]
  have room := appends.inside.room fine
  rw [appends.cap, filling.cap] at room
  refine ⟨?_, room⟩
  have buf := appends.buf fine
  unfold Writer.objClose
  rw [buf]
  obtain ⟨-, empty⟩ | ⟨-, inner, members, filled⟩ := filling.text (appends.err.mp fine).1
  · exact Or.inl (by rw [empty]; rfl)
  · exact Or.inr ⟨inner, members, by rw [filled]; rfl⟩

end Writer.Filling

/-! ## Documents of small members -/

/-- A document without blanks. -/
def Layout.tight (ms : List Member) : Layout where
  lead := []
  members := ms.map fun m => (Spacing.tight, m)
  tail := []
  blanks := blanks_nil

theorem Layout.tight_members (ms : List Member) :
    (Layout.tight ms).members.map Prod.snd = ms := by
  simp [Layout.tight]

/-- The members behind the brace that opens the document. -/
def tightBody (ms : List Member) : List UInt8 :=
  0x7B :: bodyText (ms.map fun m => (Spacing.tight, m))

theorem Layout.tight_text (ms : List Member) :
    (Layout.tight ms).text = tightBody ms ++ [0x7D] := by
  simp [Layout.text, Layout.tight, tightBody]

theorem tightBody_snoc (ms : List Member) (m : Member) :
    tightBody (ms ++ [m]) = tightBody ms ++ (separator ms.length ++ Spacing.tight.text m) := by
  rw [tightBody, List.map_append, List.map_singleton, bodyText_snoc, List.length_map]
  rfl

theorem length_tightBody_le (ms more : List Member) :
    (tightBody ms).length ≤ (tightBody (ms ++ more)).length := by
  induction more using List.reverseRecOn with
  | nil => rw [List.append_nil]
  | append_singleton more m ih =>
      rw [← List.append_assoc, tightBody_snoc (ms ++ more), List.length_append]
      omega

theorem length_tight_text {m : Member} (plain : PlainKey m.key) :
    (Spacing.tight.text m).length = m.key.length + 3 + (valueText m.value).length := by
  have text := congrArg List.length (Appends.text_tight plain [])
  simp only [List.nil_append, List.length_append, List.length_cons, List.length_nil] at text
  omega

/-- A bound on a document, member by member. -/
theorem length_tightBody_snoc_le (ms : List Member) {m : Member} (plain : PlainKey m.key) :
    (tightBody (ms ++ [m])).length ≤
      (tightBody ms).length + m.key.length + (valueText m.value).length + 4 := by
  have few := length_separator ms.length
  rw [tightBody_snoc, List.length_append, List.length_append, length_tight_text plain]
  omega

section Tight

variable {w : Writer} {cap : Nat} {ms more : List Member}

theorem Writer.Holds.members (holds : w.Holds cap (tightBody ms) ms.length)
    (plain : ∀ m ∈ more, PlainMember m)
    (room : (tightBody (ms ++ more)).length + 2 ≤ cap) :
    (more.foldl Writer.member w).Holds cap (tightBody (ms ++ more)) (ms ++ more).length := by
  induction more generalizing ms w with
  | nil => simpa using holds
  | cons m more ih =>
      obtain ⟨here, later⟩ := List.forall_mem_cons.mp plain
      have next : ms ++ m :: more = (ms ++ [m]) ++ more := by simp
      rw [next] at room ⊢
      have fits := length_tightBody_le (ms ++ [m]) more
      rw [tightBody_snoc, List.length_append, List.length_append] at fits
      have step := holds.member here (by omega)
      rw [← tightBody_snoc] at step
      refine ih ?_ later room
      rwa [List.length_append, List.length_singleton]

/-- Members written one behind the other are the document, where it fits. -/
theorem Writer.document (plain : ∀ m ∈ ms, PlainMember m)
    (room : (tightBody ms).length + 2 ≤ cap) :
    let w := (ms.foldl Writer.member (Writer.init cap).objOpen).objClose
    w.err = false ∧ w.buf = (Layout.tight ms).text := by
  have opened : (Writer.init cap).objOpen.Holds cap (tightBody []) ([] : List Member).length := by
    have init : (Writer.init cap).Holds cap [] 0 := by
      refine ⟨?_, rfl, rfl, rfl⟩
      change (cap == 0) = false
      rw [beq_eq_false_iff_ne]
      omega
    have opened := init.put (s := [0x7B]) (by rw [List.length_nil, List.length_singleton]; omega)
    exact ⟨opened.err, opened.cap, opened.buf, rfl⟩
  have filled := opened.members plain room
  rw [List.nil_append] at filled
  have closed := filled.put (s := [0x7D]) (by rw [List.length_singleton]; omega)
  exact ⟨closed.err, closed.buf.trans (Layout.tight_text ms).symm⟩

/-- The document is read back to its members. -/
theorem parse_tight (plain : ∀ m ∈ ms, PlainMember m) (distinct : (ms.map Member.key).Nodup)
    (few : ms.length ≤ keysMax) (short : (Layout.tight ms).text.length ≤ docMax) :
    jsonParse (Layout.tight ms).text = .ok ms := by
  have readable : (Layout.tight ms).Readable := by
    refine ⟨?_, by rwa [Layout.tight_members], ?_, short⟩
    · intro p listed
      obtain ⟨m, member, rfl⟩ := List.mem_map.mp listed
      exact plain m member
    · rw [Layout.tight, List.length_map]
      exact few
  have parsed := readable.parse
  rwa [Layout.tight_members] at parsed

end Tight

end RlxFw.Json
