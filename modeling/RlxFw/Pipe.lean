import RlxFw.Prelude
import Mathlib.Data.List.Basic

/-!
# Pipes

One direction of a stream socket: what the reader took, what is on its way, and
whether the writer closed its end.  The reader is given any part of what is on its
way, and an end only after all of it.  Nothing here depends on what is sent.
-/

namespace RlxFw

/-- A stream between two parties. -/
structure Pipe (α : Type*) where
  received : List α
  held : List α
  closed : Bool

namespace Pipe

variable {α : Type*}

def empty : Pipe α := { received := [], held := [], closed := false }

/-- All that was ever written. -/
def written (p : Pipe α) : List α := p.received ++ p.held

def write (p : Pipe α) (items : List α) : Pipe α := { p with held := p.held ++ items }

def close (p : Pipe α) : Pipe α := { p with closed := true }

/-- What a read of at most `most` gives where the system has `ready` of it at hand: an
empty list at the end of the stream, nothing where the reader would wait. -/
def offer (p : Pipe α) (most ready : Nat) : Option (List α) :=
  if p.held.isEmpty then
    if p.closed then some [] else none
  else some (p.held.take (min most (max 1 ready)))

/-- The pipe after that many were read. -/
def give (p : Pipe α) (count : Nat) : Pipe α :=
  { p with received := p.received ++ p.held.take count, held := p.held.drop count }

variable (p : Pipe α)

@[simp]
theorem written_empty : (empty : Pipe α).written = [] := rfl

@[simp]
theorem written_write (items : List α) : (p.write items).written = p.written ++ items := by
  simp [write, written]

@[simp]
theorem received_write (items : List α) : (p.write items).received = p.received := rfl

@[simp]
theorem written_close : p.close.written = p.written := rfl

@[simp]
theorem received_close : p.close.received = p.received := rfl

@[simp]
theorem written_give (count : Nat) : (p.give count).written = p.written := by
  simp [give, written]

theorem received_prefix : p.received <+: p.written := ⟨p.held, rfl⟩

variable {p}

/-- A read takes what it is offered. -/
theorem received_give {most ready : Nat} {items : List α}
    (offered : p.offer most ready = some items) :
    (p.give items.length).received = p.received ++ items := by
  unfold offer at offered
  split at offered
  · split at offered
    · cases offered
      simp [give]
    · cases offered
  · cases offered
    simp only [give, List.length_take]
    rw [← List.take_take, List.take_length]

theorem length_offer {most ready : Nat} {items : List α}
    (offered : p.offer most ready = some items) : items.length ≤ most := by
  unfold offer at offered
  split at offered
  · split at offered
    · cases offered
      exact Nat.zero_le _
    · cases offered
  · cases offered
    simp only [List.length_take]
    omega

end Pipe

end RlxFw
