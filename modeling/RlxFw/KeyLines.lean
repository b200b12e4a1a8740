import RlxFw.Ascii

/-!
# Texts of lines with keys

A text is read line by line, and only lines that end are read.  A line holds a
key, a blank and a value; with no blank in a key and no newline in a value, a key
finds its own line.
-/

namespace RlxFw.KeyLines

/-- The end of a line. -/
def newline : UInt8 := 0x0A

/-- What is between a key and its value. -/
def blank : UInt8 := 0x20

/-- The first complete line that `f` takes, with the line so far. -/
def firstLine {Value : Type} (f : List UInt8 → Option Value) :
    List UInt8 → List UInt8 → Option Value
  | _, [] => none
  | line, c :: rest =>
      if c ≠ newline then firstLine f (line ++ [c]) rest
      else
        match f line with
        | some v => some v
        | none => firstLine f [] rest

section Lines

variable {Value : Type} {f : List UInt8 → Option Value}

theorem firstLine_append {line run : List UInt8} (inside : ∀ c ∈ run, c ≠ newline)
    (rest : List UInt8) :
    firstLine f line (run ++ newline :: rest) =
      (f (line ++ run)).or (firstLine f [] rest) := by
  induction run generalizing line with
  | nil =>
      rw [List.nil_append, List.append_nil, firstLine, if_neg (by simp)]
      cases f line <;> rfl
  | cons c run ih =>
      obtain ⟨here, later⟩ := List.forall_mem_cons.mp inside
      rw [List.cons_append, firstLine, if_pos here, ih later, List.append_assoc]
      rfl

/-- Lines are tried one after the other. -/
theorem firstLine_lines {lines : List (List UInt8)}
    (inside : ∀ line ∈ lines, ∀ c ∈ line, c ≠ newline) :
    firstLine f [] (lines.flatMap fun line => line ++ [newline]) = lines.findSome? f := by
  induction lines with
  | nil => rfl
  | cons line lines ih =>
      obtain ⟨here, later⟩ := List.forall_mem_cons.mp inside
      rw [List.flatMap_cons, List.append_assoc, List.singleton_append,
        firstLine_append here, ih later, List.findSome?_cons, List.nil_append]
      cases f line <;> rfl

end Lines

/-- A key and its value. -/
structure Entry where
  key : List UInt8
  value : List UInt8
deriving DecidableEq, Repr

/-- The line of an entry, without its end. -/
def Entry.line (e : Entry) : List UInt8 := e.key ++ blank :: e.value

/-- Entries, each on a line. -/
def text (entries : List Entry) : List UInt8 :=
  entries.flatMap fun e => e.line ++ [newline]

/-- An entry that its line tells. -/
structure Entry.Plain (e : Entry) : Prop where
  key : ∀ c ∈ e.key, c ≠ blank ∧ c ≠ newline
  value : ∀ c ∈ e.value, c ≠ newline

/-- What follows a key on its line. -/
def valueOf (key line : List UInt8) : Option (List UInt8) :=
  if line.length > key.length ∧ byteAt line key.length = blank ∧
      line.take key.length = key then
    some (line.drop (key.length + 1))
  else none

theorem Entry.Plain.line {e : Entry} (plain : e.Plain) : ∀ c ∈ e.line, c ≠ newline := by
  intro c member
  rcases List.mem_append.mp member with inKey | after
  · exact (plain.key c inKey).2
  · rcases List.mem_cons.mp after with rfl | inValue
    · decide
    · exact plain.value c inValue

theorem valueOf_self (e : Entry) : valueOf e.key e.line = some e.value := by
  unfold valueOf Entry.line
  rw [if_pos]
  · rw [← List.drop_drop, List.drop_left' rfl]
    rfl
  · refine ⟨by simp, ?_, List.take_left' rfl⟩
    rw [byteAt, List.getD_eq_getElem?_getD, List.getElem?_append_right (Nat.le_refl _),
      Nat.sub_self]
    rfl

/-- A key finds no other key's line. -/
theorem valueOf_other {e : Entry} {key : List UInt8} (plain : ∀ c ∈ key, c ≠ blank)
    (own : ∀ c ∈ e.key, c ≠ blank) (other : key ≠ e.key) : valueOf key e.line = none := by
  unfold valueOf
  rw [if_neg]
  rintro ⟨long, after, front⟩
  -- the first blank of the line is where both keys end
  have cut : e.line.takeWhile (· ≠ blank) = e.key := by
    unfold Entry.line
    rw [List.takeWhile_append_of_pos (by simpa using own),
      List.takeWhile_cons_of_neg (by simp), List.append_nil]
  have shape : e.line = key ++ blank :: e.line.drop (key.length + 1) := by
    have parts := List.take_append_drop key.length e.line
    rw [front, List.drop_eq_getElem_cons long] at parts
    rw [byteAt, List.getD_eq_getElem?_getD, List.getElem?_eq_getElem long,
      Option.getD_some] at after
    rw [after] at parts
    exact parts.symm
  have cut' : e.line.takeWhile (· ≠ blank) = key := by
    rw [shape, List.takeWhile_append_of_pos (by simpa using plain),
      List.takeWhile_cons_of_neg (by simp), List.append_nil]
  exact other (cut'.symm.trans cut)

/-- A key of distinct ones finds its value. -/
theorem findSome?_valueOf {entries : List Entry} (plain : ∀ e ∈ entries, e.Plain)
    (distinct : (entries.map Entry.key).Nodup) {e : Entry} (member : e ∈ entries) :
    (entries.map Entry.line).findSome? (valueOf e.key) = some e.value := by
  induction entries with
  | nil => cases member
  | cons first rest ih =>
      rw [List.map_cons, List.nodup_cons] at distinct
      obtain ⟨here, later⟩ := List.forall_mem_cons.mp plain
      rw [List.map_cons, List.findSome?_cons]
      rcases List.mem_cons.mp member with rfl | inRest
      · rw [valueOf_self]
      · have other : e.key ≠ first.key := fun same =>
          distinct.1 (same ▸ List.mem_map_of_mem inRest)
        rw [valueOf_other (fun c inKey => ((later e inRest).key c inKey).1)
          (fun c inKey => (here.key c inKey).1) other]
        exact ih later distinct.2 inRest

/-- A line of a text, whole: after a newline or at the start, and ended. -/
def CompleteLine (t key value : List UInt8) : Prop :=
  ∃ before after, t = before ++ (key ++ blank :: value ++ [newline]) ++ after ∧
    (before = [] ∨ before.getLast? = some newline)

theorem completeLine_text {entries : List Entry} {e : Entry} (member : e ∈ entries) :
    CompleteLine (text entries) e.key e.value := by
  obtain ⟨before, after, rfl⟩ := List.append_of_mem member
  refine ⟨text before, text after, ?_, ?_⟩
  · unfold text
    rw [List.flatMap_append, List.flatMap_cons, ← List.append_assoc]
    rfl
  · rcases List.eq_nil_or_concat before with rfl | ⟨front, last, rfl⟩
    · exact .inl rfl
    · right
      unfold text
      rw [List.concat_eq_append, List.flatMap_append, List.flatMap_singleton,
        ← List.append_assoc, List.getLast?_concat]

/-- How long a text is. -/
theorem length_text (entries : List Entry) :
    (text entries).length =
      (entries.map fun e => e.key.length + e.value.length + 2).sum := by
  unfold text
  rw [List.length_flatMap]
  congr 1
  refine List.map_congr_left fun e _ => ?_
  unfold Entry.line
  simp
  omega

end RlxFw.KeyLines
