import RlxFw.Prelude
import Mathlib.Tactic.Common

/-!
# Worlds that keep a trail

A world beside the list of what was done to it.  An operation is judged by what
it appends: the rules follow the operations' own composition.
-/

namespace RlxFw

/-- A world and what was done to it so far. -/
structure Trailed (World Effect : Type*) where
  world : World
  trail : List Effect

namespace Trailed

variable {World Effect : Type*} {Allowed : Effect → Prop}
variable {a b c : Trailed World Effect}

/-- Nothing was done yet. -/
def fresh (w : World) : Trailed World Effect := ⟨w, []⟩

/-- An effect that leaves the world as it now is. -/
def record (s : Trailed World Effect) (w : World) (e : Effect) :
    Trailed World Effect :=
  ⟨w, s.trail ++ [e]⟩

/-- What was done from one to the other is allowed. -/
def Within (Allowed : Effect → Prop) (a b : Trailed World Effect) : Prop :=
  ∃ more, b.trail = a.trail ++ more ∧ ∀ e ∈ more, Allowed e

theorem Within.refl (a : Trailed World Effect) : Within Allowed a a :=
  ⟨[], by simp, by simp⟩

theorem Within.trans (first : Within Allowed a b) (second : Within Allowed b c) :
    Within Allowed a c := by
  obtain ⟨early, isEarly, earlyAllowed⟩ := first
  obtain ⟨late, isLate, lateAllowed⟩ := second
  refine ⟨early ++ late, by rw [isLate, isEarly, List.append_assoc], ?_⟩
  intro e member
  rcases List.mem_append.mp member with inEarly | inLate
  · exact earlyAllowed e inEarly
  · exact lateAllowed e inLate

theorem Within.record (w : World) {e : Effect} (allowed : Allowed e) :
    Within Allowed a (a.record w e) :=
  ⟨[e], rfl, by simpa using allowed⟩

/-- From a fresh world, all that was done is allowed. -/
theorem Within.all {w : World} (within : Within Allowed (fresh w) a) :
    ∀ e ∈ a.trail, Allowed e := by
  obtain ⟨more, appended, allowed⟩ := within
  rw [appended]
  exact allowed

end Trailed

end RlxFw
