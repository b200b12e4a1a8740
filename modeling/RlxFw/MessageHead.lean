import RlxFw.Prelude
import Mathlib.Data.List.Basic

/-!
# The head of a message

A start line and fields, a line each, with an empty line behind them, and a reader that takes
them apart again.  What follows the head is the body, whatever its bytes.
-/

namespace RlxFw.MessageHead

/-- The end of a line. -/
def crlf : List UInt8 := [0x0D, 0x0A]

/-- Bytes that do not end a line. -/
def Plain (line : List UInt8) : Prop := (0x0D : UInt8) ∉ line ∧ (0x0A : UInt8) ∉ line

instance (line : List UInt8) : Decidable (Plain line) := inferInstanceAs (Decidable (_ ∧ _))

/-- A field. -/
structure Field where
  name : List UInt8
  value : List UInt8
deriving DecidableEq, Repr

/-- A field's line. -/
def Field.line (f : Field) : List UInt8 := f.name ++ (0x3A :: 0x20 :: f.value)

/-- A field that its line tells. -/
structure Field.Formed (f : Field) : Prop where
  named : f.name ≠ []
  colon : (0x3A : UInt8) ∉ f.name
  name : Plain f.name
  value : Plain f.value
  blank : f.value.head? ≠ some 0x20

/-- A head. -/
structure Head where
  start : List UInt8
  fields : List Field
deriving DecidableEq, Repr

/-- The lines of fields. -/
def linesText (fields : List Field) : List UInt8 := fields.flatMap fun f => f.line ++ crlf

/-- A head as it is sent. -/
def Head.text (h : Head) : List UInt8 := h.start ++ crlf ++ (linesText h.fields ++ crlf)

structure Head.Formed (h : Head) : Prop where
  start : Plain h.start
  fields : ∀ f ∈ h.fields, f.Formed

/-! ## Reading -/

/-- The first line and what is behind it. -/
def takeLine : List UInt8 → Option (List UInt8 × List UInt8)
  | [] => none
  | 0x0D :: 0x0A :: rest => some ([], rest)
  | c :: rest => (takeLine rest).map fun read => (c :: read.1, read.2)

/-- The field that a line tells. -/
def readField (line : List UInt8) : Option Field :=
  match line.dropWhile fun c => c != 0x3A with
  | [] => none
  | _ :: value =>
      some
        { name := line.takeWhile fun c => c != 0x3A
          value := value.dropWhile fun c => c == 0x20 }

/-- The fields up to the empty line, as many as there may be lines. -/
def readFields : Nat → List UInt8 → Option (List Field × List UInt8)
  | 0, _ => none
  | lines + 1, bytes => do
      let (line, rest) ← takeLine bytes
      if line = [] then pure ([], rest)
      else
        let field ← readField line
        let (fields, body) ← readFields lines rest
        pure (field :: fields, body)

/-- A head and the body behind it. -/
def read (bytes : List UInt8) : Option (Head × List UInt8) := do
  let (start, rest) ← takeLine bytes
  let (fields, body) ← readFields bytes.length rest
  pure ({ start := start, fields := fields }, body)

section RoundTrip

variable {line rest body : List UInt8} {f : Field} {fields : List Field} {h : Head}

theorem Plain.cons {c : UInt8} (plain : Plain (c :: line)) :
    c ≠ 0x0D ∧ c ≠ 0x0A ∧ Plain line := by
  obtain ⟨cr, lf⟩ := plain
  obtain ⟨notCr, cr⟩ := not_or.mp (mt List.mem_cons.mpr cr)
  obtain ⟨notLf, lf⟩ := not_or.mp (mt List.mem_cons.mpr lf)
  exact ⟨fun same => notCr same.symm, fun same => notLf same.symm, cr, lf⟩

theorem Plain.append {more : List UInt8} (first : Plain line) (second : Plain more) :
    Plain (line ++ more) := by
  unfold Plain at *
  simp only [List.mem_append, not_or]
  exact ⟨⟨first.1, second.1⟩, first.2, second.2⟩

theorem takeLine_append (plain : Plain line) (rest : List UInt8) :
    takeLine (line ++ (crlf ++ rest)) = some (line, rest) := by
  induction line with
  | nil => rfl
  | cons c line ih =>
      obtain ⟨notCr, -, later⟩ := plain.cons
      rw [List.cons_append, takeLine, ih later]
      · rfl
      · rintro tail rfl
        exact absurd rfl notCr

theorem Field.Formed.plain (formed : f.Formed) : Plain f.line := by
  have colon : Plain [0x3A, 0x20] := by decide
  exact formed.name.append (colon.append formed.value)

theorem Field.Formed.read (formed : f.Formed) : readField f.line = some f := by
  have before : ∀ c ∈ f.name, (c != 0x3A) = true := fun c listed =>
    bne_iff_ne.mpr fun same => formed.colon (same ▸ listed)
  have value : (0x20 :: f.value).dropWhile (fun c => c == 0x20) = f.value := by
    rw [List.dropWhile_cons_of_pos (by decide)]
    cases value : f.value with
    | nil => rfl
    | cons c more =>
        refine List.dropWhile_cons_of_neg fun isBlank => formed.blank ?_
        rw [value, List.head?_cons, beq_iff_eq.mp isBlank]
  have split : f.line.dropWhile (fun c => c != 0x3A) = 0x3A :: 0x20 :: f.value ∧
      f.line.takeWhile (fun c => c != 0x3A) = f.name := by
    unfold Field.line
    rw [List.dropWhile_append_of_pos before, List.takeWhile_append_of_pos before]
    simp
  unfold readField
  rw [split.1, split.2]
  dsimp only
  rw [value]

theorem Field.line_ne_nil (f : Field) : f.line ≠ [] := by
  unfold Field.line
  simp

theorem readFields_text (formed : ∀ f ∈ fields, f.Formed) (body : List UInt8) {lines : Nat}
    (enough : fields.length < lines) :
    readFields lines (linesText fields ++ (crlf ++ body)) = some (fields, body) := by
  induction fields generalizing lines with
  | nil =>
      cases lines with
      | zero => cases enough
      | succ lines => rfl
  | cons f fields ih =>
      cases lines with
      | zero => cases enough
      | succ lines =>
          obtain ⟨first, later⟩ := List.forall_mem_cons.mp formed
          have text : linesText (f :: fields) ++ (crlf ++ body) =
              f.line ++ (crlf ++ (linesText fields ++ (crlf ++ body))) := by
            simp [linesText]
          rw [text, readFields, takeLine_append first.plain]
          simp only [Option.bind_eq_bind, Option.bind_some, if_neg f.line_ne_nil, first.read,
            ih later (Nat.lt_of_succ_lt_succ enough)]
          rfl

theorem length_fields_le (fields : List Field) : fields.length ≤ (linesText fields).length := by
  induction fields with
  | nil => exact Nat.zero_le _
  | cons f fields ih =>
      have text : linesText (f :: fields) = f.line ++ crlf ++ linesText fields := by
        simp [linesText]
      rw [text, List.length_append, List.length_append, List.length_cons]
      have two : crlf.length = 2 := rfl
      omega

/-- A head is read back as it was, and the body behind it. -/
theorem read_text (formed : h.Formed) (body : List UInt8) :
    read (h.text ++ body) = some (h, body) := by
  have text : h.text ++ body = h.start ++ (crlf ++ (linesText h.fields ++ (crlf ++ body))) := by
    simp [Head.text]
  have few := length_fields_le h.fields
  have enough : h.fields.length < (h.text ++ body).length := by
    rw [text]
    simp only [List.length_append]
    have two : crlf.length = 2 := rfl
    omega
  unfold read
  rw [show takeLine (h.text ++ body) =
      some (h.start, linesText h.fields ++ (crlf ++ body)) from
    text ▸ takeLine_append formed.start _]
  simp only [Option.bind_eq_bind, Option.bind_some, readFields_text formed.fields body enough]
  rfl

end RoundTrip

end RlxFw.MessageHead
