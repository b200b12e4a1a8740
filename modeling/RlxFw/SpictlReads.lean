import RlxFw.ByteMap
import RlxFw.NodeAgreement

/-!
# What `spictl.c` reads

A field of a page is what follows its key on the first line that has one; a number
is a field that is a canonical decimal.  A read of the flash passes the guard before
it opens the device, and succeeds with the bytes that were asked for and no others.
-/

namespace RlxFw.KeyLines

section Lines

variable {Value : Type} {f : List UInt8 → Option Value}

/-- The first of a text's complete lines that `f` takes. -/
theorem firstLine_eq_some {text : List UInt8} {r : Value} :
    firstLine f [] text = some r ↔
      ∃ (before : List (List UInt8)) (line after : List UInt8),
        text = before.flatMap (fun l => l ++ [newline]) ++ (line ++ newline :: after) ∧
          (∀ l ∈ before, newline ∉ l ∧ f l = none) ∧ newline ∉ line ∧ f line = some r := by
  have apart {l : List UInt8} (clean : newline ∉ l) : ∀ c ∈ l, c ≠ newline :=
    fun c inside isEnd => clean (isEnd ▸ inside)
  constructor
  · -- the line so far is carried along, and holds no end
    suffices goes : ∀ line : List UInt8, newline ∉ line → firstLine f line text = some r →
        ∃ (before : List (List UInt8)) (line' after : List UInt8),
          line ++ text =
              before.flatMap (fun l => l ++ [newline]) ++ (line' ++ newline :: after) ∧
            (∀ l ∈ before, newline ∉ l ∧ f l = none) ∧ newline ∉ line' ∧
              f line' = some r from
      goes [] List.not_mem_nil
    induction text with
    | nil =>
        intro line _ found
        cases found
    | cons c rest ih =>
        intro line clean found
        unfold firstLine at found
        by_cases isEnd : c = newline
        · subst isEnd
          rw [if_neg (by simp)] at found
          cases taken : f line with
          | some v =>
              rw [taken] at found
              exact ⟨[], line, rest, rfl, by simp, clean, taken.trans found⟩
          | none =>
              rw [taken] at found
              obtain ⟨before, line', after, split, skipped, rest'⟩ :=
                ih [] List.not_mem_nil found
              refine ⟨line :: before, line', after, ?_, ?_, rest'⟩
              · rw [List.nil_append] at split
                rw [split]
                simp
              · exact List.forall_mem_cons.mpr ⟨⟨clean, taken⟩, skipped⟩
        · rw [if_pos isEnd] at found
          have longer : newline ∉ line ++ [c] := by
            simpa [clean] using Ne.symm isEnd
          obtain ⟨before, line', after, split, rest'⟩ := ih (line ++ [c]) longer found
          rw [List.append_assoc] at split
          exact ⟨before, line', after, split, rest'⟩
  · rintro ⟨before, line, after, rfl, skipped, clean, taken⟩
    induction before with
    | nil =>
        rw [List.flatMap_nil, List.nil_append, firstLine_append (apart clean),
          List.nil_append, taken]
        rfl
    | cons l before ih =>
        obtain ⟨⟨whole, none⟩, later⟩ := List.forall_mem_cons.mp skipped
        rw [List.flatMap_cons, List.append_assoc, List.append_assoc, List.singleton_append,
          firstLine_append (apart whole), List.nil_append, none, Option.none_or]
        exact ih later

end Lines

/-- What a line begins with, up to its first blank. -/
def firstToken (line : List UInt8) : List UInt8 := line.takeWhile (· ≠ blank)

/-- The line's first token is the key, and a blank ends it. -/
def HasField (key line : List UInt8) : Prop := firstToken line = key ∧ line ≠ key

instance (key line : List UInt8) : Decidable (HasField key line) :=
  inferInstanceAs (Decidable (_ ∧ _))

theorem valueOf_eq_some {key line v : List UInt8} (plain : blank ∉ key) :
    valueOf key line = some v ↔ HasField key line ∧ v = line.drop (key.length + 1) := by
  have all : ∀ c ∈ key, decide (c ≠ blank) = true := by
    intro c inside
    exact decide_eq_true fun isBlank => plain (isBlank ▸ inside)
  have shape : (line.length > key.length ∧ byteAt line key.length = blank ∧
      line.take key.length = key) ↔ HasField key line := by
    unfold HasField firstToken
    constructor
    · rintro ⟨long, after, front⟩
      have parts := List.take_append_drop key.length line
      rw [front, List.drop_eq_getElem_cons long] at parts
      rw [byteAt, List.getD_eq_getElem?_getD, List.getElem?_eq_getElem long,
        Option.getD_some] at after
      rw [after] at parts
      refine ⟨?_, fun same => ?_⟩
      · rw [← parts, List.takeWhile_append_of_pos all,
          List.takeWhile_cons_of_neg (by simp), List.append_nil]
      · rw [same] at long
        exact Nat.lt_irrefl _ long
    · rintro ⟨token, more⟩
      have parts := List.takeWhile_append_dropWhile (p := fun c => decide (c ≠ blank)) (l := line)
      rw [token] at parts
      cases left : line.dropWhile fun c => decide (c ≠ blank) with
      | nil =>
          rw [left, List.append_nil] at parts
          exact absurd parts.symm more
      | cons c rest =>
          have stops : c = blank := by
            have head := List.head?_dropWhile_not (fun c => decide (c ≠ blank)) line
            rw [left] at head
            simpa using head
          rw [left, stops] at parts
          rw [← parts]
          refine ⟨by simp, ?_, List.take_left' rfl⟩
          rw [byteAt, List.getD_eq_getElem?_getD,
            List.getElem?_append_right (Nat.le_refl _), Nat.sub_self]
          rfl
  unfold valueOf
  by_cases has : HasField key line
  · rw [if_pos (shape.mpr has), Option.some_inj]
    simp [has, eq_comm]
  · rw [if_neg (fun test => has (shape.mp test))]
    simp [has]

/-- What follows a key on the first of a text's complete lines that has its field. -/
def FirstField (text key value : List UInt8) : Prop :=
  ∃ (before : List (List UInt8)) (line after : List UInt8),
    text = before.flatMap (fun l => l ++ [newline]) ++ (line ++ newline :: after) ∧
      (∀ l ∈ before, newline ∉ l ∧ ¬ HasField key l) ∧ newline ∉ line ∧
        HasField key line ∧ value = line.drop (key.length + 1)

theorem firstLine_valueOf {text key v : List UInt8} (plain : blank ∉ key) :
    firstLine (valueOf key) [] text = some v ↔ FirstField text key v := by
  rw [firstLine_eq_some]
  have none (l : List UInt8) : valueOf key l = none ↔ ¬ HasField key l := by
    rw [← not_iff_not, not_not, ← ne_eq, Option.ne_none_iff_exists']
    constructor
    · rintro ⟨v, taken⟩
      exact ((valueOf_eq_some plain).mp taken).1
    · exact fun has => ⟨_, (valueOf_eq_some plain).mpr ⟨has, rfl⟩⟩
  unfold FirstField
  simp only [none, valueOf_eq_some plain]

end RlxFw.KeyLines

namespace RlxFw.SpiNode

open KeyLines (newline blank firstLine valueOf FirstField HasField firstToken)

/-! ## A field of a page -/

/-- `spictl_field`, of the page that its one read returned. -/
def spictlFieldOf (page key : List UInt8) (cap : Nat) : Except FieldErr (List UInt8) :=
  if cap = 0 ∨ key.length = 0 then .error .einval
  else if key.any fun c => c = blank ∨ c = newline ∨ c = 0x0D then .error .einval
  else
    match firstLine (matchLine key cap) [] page with
    | some answer => answer
    | none => .error .enoent

theorem spictlField_eq (node key : List UInt8) (cap : Nat) :
    spictlField node key cap = spictlFieldOf (readOnce node spictlPageMax) key cap := rfl

theorem goodKey_iff {key : List UInt8} :
    GoodKey key ↔ ¬ key.length = 0 ∧
      ¬ (key.any fun c => c = blank ∨ c = newline ∨ c = 0x0D) = true := by
  unfold GoodKey
  simp only [List.any_eq_true, not_exists, not_and, decide_eq_true_eq, not_or, ne_eq]

theorem GoodKey.noBlank {key : List UInt8} (good : GoodKey key) : blank ∉ key :=
  fun inside => (good.2 blank inside).1 rfl

/-- Where the field is cut short, the line is the same. -/
theorem firstLine_matchLine (key : List UInt8) (cap : Nat) (line text : List UInt8) :
    firstLine (matchLine key cap) line text =
      (firstLine (valueOf key) line text).map fun v =>
        if v.length + 1 > cap then .error .e2big else .ok v := by
  induction text generalizing line with
  | nil => rfl
  | cons c rest ih =>
      unfold firstLine
      rw [ih, ih]
      split
      · rfl
      · unfold matchLine
        cases valueOf key line <;> rfl

/-- The answer for a page, of a good key and some room. -/
theorem spictlFieldOf_eq {page key : List UInt8} {cap : Nat} (room : cap ≠ 0)
    (good : GoodKey key) :
    spictlFieldOf page key cap =
      match firstLine (valueOf key) [] page with
      | some v => if v.length < cap then .ok v else .error .e2big
      | none => .error .enoent := by
  obtain ⟨some, none⟩ := goodKey_iff.mp good
  unfold spictlFieldOf
  rw [if_neg (by simp only [not_or]; exact ⟨room, some⟩), if_neg none, firstLine_matchLine]
  cases firstLine (valueOf key) [] page with
  | none => rfl
  | some v =>
      change (if v.length + 1 > cap then _ else _) = _
      by_cases fits : v.length < cap
      · rw [if_neg (by omega)]
        exact (if_pos fits).symm
      · rw [if_pos (by omega)]
        exact (if_neg fits).symm

theorem spictlFieldOf_eq_ok {page key v : List UInt8} {cap : Nat} (good : GoodKey key) :
    spictlFieldOf page key cap = .ok v ↔ FirstField page key v ∧ v.length < cap := by
  rw [← KeyLines.firstLine_valueOf good.noBlank]
  by_cases room : cap = 0
  · subst room
    unfold spictlFieldOf
    rw [if_pos (.inl rfl)]
    simp
  · rw [spictlFieldOf_eq room good]
    cases firstLine (valueOf key) [] page with
    | none => simp
    | some w =>
        dsimp only
        split
        · next fits =>
          constructor
          · intro same
            cases same
            exact ⟨rfl, fits⟩
          · rintro ⟨same, -⟩
            cases same
            rfl
        · next long =>
          constructor
          · intro same
            cases same
          · rintro ⟨same, fits⟩
            cases same
            exact absurd fits long

theorem spictlFieldOf_eq_error {page key : List UInt8} {cap : Nat} (room : cap ≠ 0)
    (good : GoodKey key) :
    (spictlFieldOf page key cap = .error .enoent ↔ ¬ ∃ v, FirstField page key v) ∧
      (spictlFieldOf page key cap = .error .e2big ↔
        ∃ v, FirstField page key v ∧ cap ≤ v.length) := by
  simp only [← KeyLines.firstLine_valueOf good.noBlank]
  rw [spictlFieldOf_eq room good]
  cases firstLine (valueOf key) [] page with
  | none => simp
  | some w =>
      dsimp only
      by_cases fits : w.length < cap
      · rw [if_pos fits]
        simp [fits]
      · rw [if_neg fits]
        simp [Nat.le_of_not_lt fits]

theorem spictlFieldOf_badKey {page key : List UInt8} {cap : Nat} (bad : ¬ GoodKey key) :
    spictlFieldOf page key cap = .error .einval := by
  rw [goodKey_iff, not_and_or, not_not, not_not] at bad
  unfold spictlFieldOf
  by_cases empty : cap = 0 ∨ key.length = 0
  · rw [if_pos empty]
  · rw [if_neg empty, if_pos (bad.resolve_left fun none => empty (.inr none))]

/-! ## A number of a page -/

/-- `spictl_field_u32`, of the page that its one read returned. -/
def spictlFieldU32Of (page key : List UInt8) : Except FieldErr Nat := do
  let s ← spictlFieldOf page key u32Text
  let s := cString s
  if s.length = 0 ∨ s.length > 10 ∨ (byteAt s 0 = 0x30 ∧ s.length > 1) then .error .einval
  else s.foldlM u32Digit 0

/-- A byte that is read is a digit, and what is read does not pass 32 bits. -/
theorem u32Digit_eq_ok {x n : Nat} {c : UInt8} (read : u32Digit x c = .ok n) :
    Decimal.IsDigit c ∧ n = x * 10 + (c.toNat - 0x30) ∧ n ≤ 0xFFFFFFFF := by
  unfold u32Digit at read
  split at read
  · cases read
  next digit =>
  have isDigit : Decimal.IsDigit c := by
    rw [not_or, UInt8.not_lt, gt_iff_lt, UInt8.not_lt] at digit
    exact digit
  have small : c.toNat ≤ 0x39 := UInt8.le_iff_toNat_le.mp isDigit.2
  have value : (c - 0x30).toNat = c.toNat - 0x30 :=
    UInt8.toNat_sub_of_le c 0x30 isDigit.1
  dsimp only at read
  split at read
  · cases read
  next below =>
  cases read
  rw [value] at below ⊢
  exact ⟨isDigit, rfl, by omega⟩

theorem foldlM_u32Digit_eq_ok {digits : List UInt8} {x n : Nat}
    (read : digits.foldlM u32Digit x = .ok n) :
    (∀ c ∈ digits, Decimal.IsDigit c) ∧ n = Decimal.value x digits ∧
      (x ≤ 0xFFFFFFFF → n ≤ 0xFFFFFFFF) := by
  induction digits generalizing x with
  | nil =>
      cases read
      exact ⟨by simp, rfl, id⟩
  | cons c digits ih =>
      rw [List.foldlM_cons] at read
      cases one : u32Digit x c with
      | error e =>
          rw [one] at read
          cases read
      | ok y =>
          rw [one] at read
          obtain ⟨isDigit, next, fits⟩ := u32Digit_eq_ok one
          obtain ⟨rest, value, bound⟩ := ih read
          rw [next] at value
          exact ⟨List.forall_mem_cons.mpr ⟨isDigit, rest⟩, value, fun _ => bound fits⟩

/-- What is read is the text of a number of 32 bits. -/
theorem readU32_eq_ok {s : List UInt8} {n : Nat} :
    (if s.length = 0 ∨ s.length > 10 ∨ (byteAt s 0 = 0x30 ∧ s.length > 1) then
        .error .einval
      else s.foldlM u32Digit 0) = .ok n ↔ s = Decimal.text n ∧ n < 2 ^ 32 := by
  constructor
  · intro read
    split at read
    · cases read
    next form =>
    rw [not_or, not_or] at form
    obtain ⟨all, value, bound⟩ := foldlM_u32Digit_eq_ok read
    have canonical := (Decimal.text_value_iff all).mpr
      ⟨fun none => form.1 (by rw [none]; rfl), fun lead => by
        have first : byteAt s 0 = 0x30 := by
          rw [byteAt, List.getD_eq_getElem?_getD, ← List.head?_eq_getElem?, lead]
          rfl
        have single : ¬ s.length > 1 := fun more => form.2.2 ⟨first, more⟩
        omega⟩
    rw [← value] at canonical
    exact ⟨canonical.symm, Nat.lt_succ_of_le (bound (Nat.zero_le _))⟩
  · rintro ⟨rfl, small⟩
    rw [if_neg, foldlM_u32Digit_text (Nat.le_of_lt_succ small)]
    rintro (empty | long | ⟨lead, more⟩)
    · exact Decimal.text_ne_nil n (List.eq_nil_of_length_eq_zero empty)
    · have few : (Decimal.text n).length ≤ 10 :=
        Decimal.length_text_le (by decide) (lt_of_lt_of_le small (by decide))
      omega
    · rcases Nat.eq_zero_or_pos n with rfl | pos
      · exact absurd more (by decide)
      · obtain ⟨c, rest, isText, notZero⟩ := Decimal.head_text pos
        rw [isText] at lead
        exact notZero lead

theorem spictlFieldU32Of_eq_ok {page key : List UInt8} {n : Nat} (good : GoodKey key) :
    spictlFieldU32Of page key = .ok n ↔
      ∃ v, FirstField page key v ∧ v.length < u32Text ∧ cString v = Decimal.text n ∧
        n < 2 ^ 32 := by
  constructor
  · intro read
    unfold spictlFieldU32Of at read
    cases found : spictlFieldOf page key u32Text with
    | error e =>
        rw [found] at read
        cases read
    | ok v =>
        rw [found] at read
        obtain ⟨field, fits⟩ := (spictlFieldOf_eq_ok good).mp found
        exact ⟨v, field, fits, readU32_eq_ok.mp read⟩
  · rintro ⟨v, field, fits, number⟩
    unfold spictlFieldU32Of
    rw [(spictlFieldOf_eq_ok good).mpr ⟨field, fits⟩]
    exact readU32_eq_ok.mpr number

/-- With no NUL in the page, a field that is read is the number's text. -/
theorem spictlFieldU32Of_text {page key : List UInt8} {n : Nat} (good : GoodKey key)
    (clean : 0 ∉ page) :
    spictlFieldU32Of page key = .ok n ↔
      FirstField page key (Decimal.text n) ∧ n < 2 ^ 32 := by
  rw [spictlFieldU32Of_eq_ok good]
  constructor
  · rintro ⟨v, field, fits, same, small⟩
    have whole : cString v = v := by
      apply List.takeWhile_eq_self_iff.mpr
      intro c inside
      rw [bne_iff_ne]
      rintro rfl
      obtain ⟨before, line, after, rfl, -, -, -, rfl⟩ := field
      exact clean (List.mem_append_right _ (List.mem_append_left _ (List.mem_of_mem_drop inside)))
    rw [whole] at same
    exact ⟨same ▸ field, small⟩
  · rintro ⟨field, small⟩
    have few : (Decimal.text n).length ≤ 10 :=
      Decimal.length_text_le (by decide) (lt_of_lt_of_le small (by decide))
    exact ⟨_, field, lt_of_le_of_lt few (by decide), cString_text n, small⟩

end RlxFw.SpiNode

namespace RlxFw.Spictl

/-! ## A read of the flash -/

/-- `SPICTL_GUARD_HI`. -/
def spictlGuardHi : UInt32 := 0x00010000

/-- The errors of `spictl_flash_read`. -/
inductive FlashErr where
  | eperm
  | einval
  | eio
  | errno (e : Nat)
deriving DecidableEq, Repr

/-- What a `read` of the device comes to.  It gives no more than it was asked for,
and nothing at the end. -/
inductive FlashGot where
  | interrupted
  | failed (errno : Nat)
  | bytes (count : Nat)
deriving DecidableEq, Repr

/-- The device: its bytes, what `open` and `lseek` fail with, and what its reads come
to in turn. -/
structure FlashDevice where
  holds : ByteMap
  openFails : Option Nat
  seekFails : Option Nat
  reads : List FlashGot

/-- What is done to the device. -/
inductive Touch where
  | opened
  | sought (off : UInt32)
  | read (position count : Nat)
  | closed
deriving DecidableEq, Repr

/-- A run: what it did to the device, what it left at the front of the buffer, and
what it returned, unless a read does not come back. -/
structure FlashRun where
  touches : List Touch
  stored : List UInt8
  result : Option (Except FlashErr Unit)

/-- A run that ends before the device is touched. -/
def FlashRun.refused (e : FlashErr) : FlashRun := ⟨[], [], some (.error e)⟩

/-- A run after one more touch. -/
def FlashRun.after (touch : Touch) (run : FlashRun) : FlashRun :=
  { run with touches := touch :: run.touches }

/-- A run that closes the device when it returns. -/
def FlashRun.closing (run : FlashRun) : FlashRun :=
  if run.result.isSome then { run with touches := run.touches ++ [.closed] } else run

/-- The loop of `spictl_flash_read`, over the reads to come. -/
def readLoop (holds : ByteMap) (len : Nat) :
    List FlashGot → Nat → List UInt8 → FlashRun
  | [], position, stored =>
      if stored.length < len then ⟨[.read position (len - stored.length)], stored, none⟩
      else ⟨[], stored, some (.ok ())⟩
  | got :: reads, position, stored =>
      if stored.length < len then
        let asked := .read position (len - stored.length)
        match got with
        | .interrupted => (readLoop holds len reads position stored).after asked
        | .failed e => ⟨[asked], stored, some (.error (.errno e))⟩
        | .bytes count =>
            let r := min count (len - stored.length)
            if r = 0 then ⟨[asked], stored, some (.error .eio)⟩
            else
              (readLoop holds len reads (position + r)
                (stored ++ holds.slice position r)).after asked
      else ⟨[], stored, some (.ok ())⟩

/-- `spictl_flash_read`; no device is no path to one. -/
def spictlFlashRead (device : Option FlashDevice) (off : UInt32) (hasBuf : Bool)
    (len : Nat) : FlashRun :=
  if off < spictlGuardHi then .refused .eperm
  else if len > (0xFFFFFFFF - off).toNat then .refused .eperm
  else if (off ||| UInt32.ofNat len) &&& 3 ≠ 0 then .refused .einval
  else
    match device with
    | none => .refused .einval
    | some dev =>
        if hasBuf = false ∧ len ≠ 0 then .refused .einval
        else
          match dev.openFails with
          | some e => ⟨[.opened], [], some (.error (.errno e))⟩
          | none =>
              match dev.seekFails with
              | some e => ⟨[.opened, .sought off, .closed], [], some (.error (.errno e))⟩
              | none =>
                  ((readLoop dev.holds len dev.reads off.toNat []).closing.after
                    (.sought off)).after .opened

/-- A read that stays in what was asked of the device. -/
def Touch.Inside (off len : Nat) : Touch → Prop
  | .read position count => off ≤ position ∧ position + count = off + len
  | _ => True

/-- What a run keeps to: its reads are of the rest of what was asked for, the buffer
is not passed, and a run that succeeds stored it all. -/
structure FlashRun.Keeps (run : FlashRun) (holds : ByteMap) (off len : Nat) : Prop where
  inside : ∀ touch ∈ run.touches, touch.Inside off len
  bounded : run.stored.length ≤ len
  whole : run.result = some (.ok ()) → run.stored = holds.slice off len

section Keeps

variable {holds : ByteMap} {off len : Nat} {run : FlashRun}

theorem FlashRun.Keeps.after (keeps : run.Keeps holds off len) (touch : Touch)
    (inside : touch.Inside off len) : (run.after touch).Keeps holds off len where
  inside := List.forall_mem_cons.mpr ⟨inside, keeps.inside⟩
  bounded := keeps.bounded
  whole := keeps.whole

theorem FlashRun.Keeps.closing (keeps : run.Keeps holds off len) :
    run.closing.Keeps holds off len := by
  unfold FlashRun.closing
  split
  · refine ⟨?_, keeps.bounded, keeps.whole⟩
    intro touch member
    rcases List.mem_append.mp member with before | last
    · exact keeps.inside touch before
    · rw [List.mem_singleton.mp last]
      trivial
  · exact keeps

/-- The loop, from a device that stands where the stored bytes end. -/
theorem readLoop_keeps (reads : List FlashGot) (stored : List UInt8) {position : Nat}
    (held : stored = holds.slice off stored.length) (place : position = off + stored.length)
    (bounded : stored.length ≤ len) :
    (readLoop holds len reads position stored).Keeps holds off len := by
  have asked (more : stored.length < len) :
      (Touch.read position (len - stored.length)).Inside off len := by
    subst place
    exact ⟨Nat.le_add_right _ _, by omega⟩
  have full (enough : ¬ stored.length < len) : stored = holds.slice off len := by
    have same : stored.length = len := by omega
    rw [← same]
    exact held
  induction reads generalizing stored position with
  | nil =>
      unfold readLoop
      split
      · next more =>
        refine ⟨?_, bounded, by simp⟩
        simpa using asked more
      · next enough => exact ⟨by simp, bounded, fun _ => full enough⟩
  | cons got reads ih =>
      unfold readLoop
      split
      · next more =>
        cases got with
        | interrupted => exact (ih _ held place bounded asked full).after _ (asked more)
        | failed e =>
            refine ⟨?_, bounded, by simp⟩
            simpa using asked more
        | bytes count =>
            dsimp only
            split
            · refine ⟨?_, bounded, by simp⟩
              simpa using asked more
            · next some =>
              refine FlashRun.Keeps.after ?_ _ (asked more)
              generalize same : min count (len - stored.length) = r
              have within : stored.length + r ≤ len := by omega
              have longer : (stored ++ holds.slice position r).length =
                  stored.length + r := by
                rw [List.length_append, ByteMap.slice_length]
              have next : stored ++ holds.slice position r =
                  holds.slice off (stored ++ holds.slice position r).length := by
                rw [longer, ByteMap.slice_append, ← held, place]
              refine ih _ next (by omega) (by omega) ?_ ?_
              · intro _
                exact ⟨by omega, by omega⟩
              · intro enough
                have all : stored.length + r = len := by omega
                rw [next, longer, all]
      · next enough => exact ⟨by simp, bounded, fun _ => full enough⟩

end Keeps

/-- What `spictl_flash_read` asks for before the device is touched. -/
structure Guarded (off : UInt32) (len : Nat) : Prop where
  floor : 0x10000 ≤ off.toNat
  noWrap : off.toNat + len < 2 ^ 32
  offWords : 4 ∣ off.toNat
  lenWords : 4 ∣ len

theorem guarded_of_checks {off : UInt32} {len : Nat} (floor : ¬ off < spictlGuardHi)
    (noWrap : ¬ len > (0xFFFFFFFF - off).toNat)
    (words : ¬ (off ||| UInt32.ofNat len) &&& 3 ≠ 0) : Guarded off len := by
  have small := off.toNat_lt
  have rest : (0xFFFFFFFF - off).toNat = 0xFFFFFFFF - off.toNat := by
    rw [UInt32.toNat_sub_of_le]
    · rfl
    · rw [UInt32.le_iff_toNat_le]
      exact Nat.le_of_lt_succ small
  rw [rest] at noWrap
  have low : (off.toNat ||| len) % 4 = 0 := by
    have bits := congrArg UInt32.toNat (not_not.mp words)
    rw [UInt32.toNat_and, UInt32.toNat_or, UInt32.toNat_ofNat',
      Nat.mod_eq_of_lt (by omega : len < 2 ^ 32)] at bits
    change (off.toNat ||| len) &&& (2 ^ 2 - 1) = 0 at bits
    rwa [Nat.and_two_pow_sub_one_eq_mod] at bits
  have parts : (off.toNat ||| len) % 4 = off.toNat % 4 ||| len % 4 :=
    Nat.or_mod_two_pow (n := 2)
  rw [parts] at low
  refine ⟨?_, by omega, ?_, ?_⟩
  · rw [UInt32.lt_iff_toNat_lt] at floor
    exact Nat.le_of_not_lt floor
  · have left := Nat.left_le_or (n := off.toNat % 4) (m := len % 4)
    exact Nat.dvd_of_mod_eq_zero (by omega)
  · have right := Nat.right_le_or (n := off.toNat % 4) (m := len % 4)
    exact Nat.dvd_of_mod_eq_zero (by omega)

theorem spictlFlashRead_keeps (device : Option FlashDevice) (off : UInt32) (hasBuf : Bool)
    (len : Nat) :
    (spictlFlashRead device off hasBuf len = .refused .eperm ∨
        spictlFlashRead device off hasBuf len = .refused .einval) ∨
      Guarded off len ∧ ∃ dev, device = some dev ∧
        (spictlFlashRead device off hasBuf len).Keeps dev.holds off.toNat len := by
  unfold spictlFlashRead
  by_cases floor : off < spictlGuardHi
  · exact .inl (.inl (if_pos floor))
  rw [if_neg floor]
  by_cases noWrap : len > (0xFFFFFFFF - off).toNat
  · exact .inl (.inl (if_pos noWrap))
  rw [if_neg noWrap]
  by_cases words : (off ||| UInt32.ofNat len) &&& 3 ≠ 0
  · exact .inl (.inr (if_pos words))
  rw [if_neg words]
  cases device with
  | none => exact .inl (.inr rfl)
  | some dev =>
      dsimp only
      by_cases noRoom : hasBuf = false ∧ len ≠ 0
      · exact .inl (.inr (if_pos noRoom))
      rw [if_neg noRoom]
      refine .inr ⟨guarded_of_checks floor noWrap words, dev, rfl, ?_⟩
      have plain {touches : List Touch} {e : FlashErr}
          (quiet : ∀ touch ∈ touches, touch.Inside off.toNat len) :
          FlashRun.Keeps ⟨touches, [], some (.error e)⟩ dev.holds off.toNat len :=
        ⟨quiet, Nat.zero_le _, by simp⟩
      split
      · exact plain (by simp [Touch.Inside])
      · split
        · exact plain (by simp [Touch.Inside])
        · have loop := readLoop_keeps dev.reads [] (ByteMap.slice_zero dev.holds off.toNat).symm
            (Nat.add_zero _).symm (Nat.zero_le len)
          have sought := loop.closing.after (.sought off) trivial
          exact sought.after _ trivial

example : (spictlFlashRead (some ⟨fun i => UInt8.ofNat i, none, none,
    [.interrupted, .bytes 3, .bytes 9]⟩) 0x10000 true 8).result = some (.ok ()) := rfl

end RlxFw.Spictl

namespace RlxFw.Spictl

open KeyLines (newline FirstField HasField firstToken)
open SpiNode (GoodKey spictlField spictlFieldOf spictlFieldU32Of readOnce spictlPageMax u32Text)

/-! ## What is read -/

/-- A run, of any call on any device. -/
structure ReadsFlash (device : Option FlashDevice) (off : UInt32) (len : Nat)
    (run : FlashRun) : Prop where
  guarded : run.touches ≠ [] → Guarded off len
  inside : ∀ touch ∈ run.touches, touch.Inside off.toNat len
  bounded : run.stored.length ≤ len
  whole : run.result = some (.ok ()) →
    ∃ dev, device = some dev ∧ run.stored = dev.holds.slice off.toNat len

/-- The answers for a page and a key. -/
structure ReadsField (page key : List UInt8) : Prop where
  found (cap : Nat) (v : List UInt8) :
    spictlFieldOf page key cap = .ok v ↔ FirstField page key v ∧ v.length < cap
  absent (cap : Nat) : cap ≠ 0 →
    (spictlFieldOf page key cap = .error .enoent ↔ ¬ ∃ v, FirstField page key v)
  tooLong (cap : Nat) : cap ≠ 0 →
    (spictlFieldOf page key cap = .error .e2big ↔
      ∃ v, FirstField page key v ∧ cap ≤ v.length)
  number (n : Nat) :
    spictlFieldU32Of page key = .ok n ↔
      ∃ v, FirstField page key v ∧ v.length < u32Text ∧ cString v = Decimal.text n ∧
        n < 2 ^ 32
  decimal (n : Nat) : 0 ∉ page →
    (spictlFieldU32Of page key = .ok n ↔
      FirstField page key (Decimal.text n) ∧ n < 2 ^ 32)

/-- What `spictl.c` reads. -/
structure ReadsExactly : Prop where
  flash (device : Option FlashDevice) (off : UInt32) (hasBuf : Bool) (len : Nat) :
    ReadsFlash device off len (spictlFlashRead device off hasBuf len)
  field (page key : List UInt8) : GoodKey key → ReadsField page key
  badKey (page key : List UInt8) (cap : Nat) : ¬ GoodKey key →
    spictlFieldOf page key cap = .error .einval
  node (text key : List UInt8) (cap : Nat) :
    spictlField text key cap = spictlFieldOf (readOnce text spictlPageMax) key cap

theorem readsFlash_refused (device : Option FlashDevice) (off : UInt32) (len : Nat)
    (e : FlashErr) : ReadsFlash device off len (.refused e) :=
  ⟨fun touched => absurd rfl touched, by simp [FlashRun.refused], Nat.zero_le _,
    by simp [FlashRun.refused]⟩

/-- The flash is read behind its guard and whole; a field is the first of its key. -/
theorem readsExactly : ReadsExactly where
  flash device off hasBuf len := by
    rcases spictlFlashRead_keeps device off hasBuf len with
      (refused | refused) | ⟨guarded, dev, isDev, keeps⟩
    · rw [refused]
      exact readsFlash_refused device off len .eperm
    · rw [refused]
      exact readsFlash_refused device off len .einval
    · exact ⟨fun _ => guarded, keeps.inside, keeps.bounded,
        fun ok => ⟨dev, isDev, keeps.whole ok⟩⟩
  field _ _ good :=
    ⟨fun _ _ => SpiNode.spictlFieldOf_eq_ok good,
      fun _ room => (SpiNode.spictlFieldOf_eq_error room good).1,
      fun _ room => (SpiNode.spictlFieldOf_eq_error room good).2,
      fun _ => SpiNode.spictlFieldU32Of_eq_ok good,
      fun _ clean => SpiNode.spictlFieldU32Of_text good clean⟩
  badKey _ _ _ := SpiNode.spictlFieldOf_badKey
  node := SpiNode.spictlField_eq

/-- What follows a key on the first complete line whose first token it is, whether or
not a blank ends the token. -/
def FirstTokenField (text key value : List UInt8) : Prop :=
  ∃ (before : List (List UInt8)) (line after : List UInt8),
    text = before.flatMap (fun l => l ++ [newline]) ++ (line ++ newline :: after) ∧
      (∀ l ∈ before, newline ∉ l ∧ firstToken l ≠ key) ∧ newline ∉ line ∧
        firstToken line = key ∧ value = line.drop (key.length + 1)

/-- A line that is its key alone is passed over. -/
theorem bareKey_passedOver :
    ¬ ∀ page key cap value, GoodKey key → FirstTokenField page key value →
      value.length < cap → spictlFieldOf page key cap = .ok value := by
  intro always
  have alone : spictlFieldOf (ascii "img\n") (ascii "img") 16 = .error .enoent := by decide
  have found := always (ascii "img\n") (ascii "img") 16 [] (by decide)
    ⟨[], ascii "img", [], by decide, by simp, by decide, by decide, by decide⟩ (by decide)
  rw [alone] at found
  cases found

end RlxFw.Spictl
