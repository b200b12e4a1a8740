import RlxFw.Prelude
import Mathlib.Data.List.Basic

/-!
# Streams in pieces

A machine that takes its input byte after byte until it halts, and the same
machine fed piece after piece.  A function that takes a piece at once and agrees
with the machine on every piece does not see where a stream is cut.  Nothing
here depends on the states or on what a byte is.
-/

namespace RlxFw

/-- A machine that takes one byte a step, until it halts. -/
structure Stepper (State Byte : Type) where
  halted : State → Bool
  step : State → Byte → State

namespace Stepper

variable {State Byte : Type} (m : Stepper State Byte)

/-- Run on a stream: the state it ends in, and how many bytes it took. -/
def run : State → List Byte → State × Nat
  | s, [] => (s, 0)
  | s, b :: bs =>
      if m.halted s then (s, 0)
      else ((run (m.step s b) bs).1, (run (m.step s b) bs).2 + 1)

@[simp]
theorem run_nil (s : State) : m.run s [] = (s, 0) := rfl

theorem run_of_halted {s : State} (halted : m.halted s = true)
    (bs : List Byte) : m.run s bs = (s, 0) := by
  cases bs with
  | nil => rfl
  | cons b bs => simp [run, halted]

theorem run_cons {s : State} (going : m.halted s = false) (b : Byte)
    (bs : List Byte) :
    m.run s (b :: bs) =
      ((m.run (m.step s b) bs).1, (m.run (m.step s b) bs).2 + 1) := by
  simp [run, going]

/-- A stream may be cut anywhere. -/
theorem run_append (s : State) (first rest : List Byte) :
    m.run s (first ++ rest) =
      ((m.run (m.run s first).1 rest).1,
        (m.run s first).2 + (m.run (m.run s first).1 rest).2) := by
  induction first generalizing s with
  | nil => simp
  | cons b bs ih =>
      cases going : m.halted s with
      | true => simp [run_of_halted m going]
      | false =>
          simp only [List.cons_append, run_cons m going, ih]
          congr 1
          omega

/-- What every step keeps holds after a run. -/
theorem run_keeps {Good : State → Prop}
    (keeps : ∀ s b, Good s → m.halted s = false → Good (m.step s b))
    {s : State} (good : Good s) (bs : List Byte) : Good (m.run s bs).1 := by
  induction bs generalizing s with
  | nil => exact good
  | cons b bs ih =>
      cases going : m.halted s with
      | true => rwa [run_of_halted m going]
      | false =>
          rw [run_cons m going]
          exact ih (keeps s b good going)

/-- What every step keeps of a state and the bytes it has taken holds after a
run. -/
theorem run_traces {Fed : List Byte → State → Prop}
    (keeps : ∀ taken s b, Fed taken s → m.halted s = false →
      Fed (taken ++ [b]) (m.step s b))
    {taken : List Byte} {s : State} (fed : Fed taken s) (bs : List Byte) :
    Fed (taken ++ bs.take (m.run s bs).2) (m.run s bs).1 := by
  induction bs generalizing taken s with
  | nil => simpa using fed
  | cons b bs ih =>
      cases going : m.halted s with
      | true => simpa [run_of_halted m going] using fed
      | false =>
          have rest := ih (keeps taken s b fed going)
          rw [List.append_assoc, List.singleton_append] at rest
          rw [run_cons m going, List.take_succ_cons]
          exact rest

theorem run_le (s : State) (bs : List Byte) : (m.run s bs).2 ≤ bs.length := by
  induction bs generalizing s with
  | nil => exact Nat.le_refl _
  | cons b bs ih =>
      cases going : m.halted s with
      | true => simp [run_of_halted m going]
      | false => simpa [run_cons m going] using ih (m.step s b)

/-- A run that has not halted took everything. -/
theorem run_taken {s : State} {bs : List Byte} (going : m.halted (m.run s bs).1 = false) :
    (m.run s bs).2 = bs.length := by
  induction bs generalizing s with
  | nil => rfl
  | cons b bs ih =>
      cases first : m.halted s with
      | true =>
          rw [run_of_halted m first, first] at going
          cases going
      | false =>
          rw [run_cons m first] at going ⊢
          rw [List.length_cons, ih going]

end Stepper

section Pieces

variable {State Byte : Type} (feed : State → List Byte → State × Nat)

/-- Feed piece after piece: the state, and the bytes taken of all of them. -/
def feedPieces : State → List (List Byte) → State × Nat
  | s, [] => (s, 0)
  | s, piece :: pieces =>
      ((feedPieces (feed s piece).1 pieces).1,
        (feed s piece).2 + (feedPieces (feed s piece).1 pieces).2)

/-- The states between the pieces, the first and the last with them. -/
def statesBetween : State → List (List Byte) → List State
  | s, [] => [s]
  | s, piece :: pieces => s :: statesBetween (feed s piece).1 pieces

variable {feed}

/-- A function that agrees with a stepper on every piece does not see the
cuts. -/
theorem feedPieces_eq_run {m : Stepper State Byte} {Good : State → Prop}
    (keeps : ∀ s b, Good s → m.halted s = false → Good (m.step s b))
    (agrees : ∀ s piece, Good s → feed s piece = m.run s piece)
    {s : State} (good : Good s) (pieces : List (List Byte)) :
    feedPieces feed s pieces = m.run s pieces.flatten := by
  induction pieces generalizing s with
  | nil => rfl
  | cons piece pieces ih =>
      have next : Good (feed s piece).1 := by
        rw [agrees s piece good]
        exact m.run_keeps keeps good piece
      rw [feedPieces, ih next, agrees s piece good, List.flatten_cons,
        m.run_append]

/-- Every piece keeps what every step keeps. -/
theorem statesBetween_good {m : Stepper State Byte} {Good : State → Prop}
    (keeps : ∀ s b, Good s → m.halted s = false → Good (m.step s b))
    (agrees : ∀ s piece, Good s → feed s piece = m.run s piece)
    {s : State} (good : Good s) (pieces : List (List Byte)) :
    ∀ between ∈ statesBetween feed s pieces, Good between := by
  induction pieces generalizing s with
  | nil =>
      intro between member
      rw [List.mem_singleton.mp member]
      exact good
  | cons piece pieces ih =>
      intro between member
      rcases List.mem_cons.mp member with rfl | later
      · exact good
      · refine ih ?_ between later
        rw [agrees s piece good]
        exact m.run_keeps keeps good piece

end Pieces

end RlxFw
