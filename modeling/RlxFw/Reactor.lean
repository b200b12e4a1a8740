import RlxFw.Prelude
import Mathlib.Data.List.Induction

/-!
# Reactive systems

A system that answers every event with a new state and with what it puts out,
and its runs.  An invariant may speak of the state alone or of the whole history:
what came in, where the system is, and what went out.
-/

namespace RlxFw

/-- A system that takes an event a step. -/
structure Reactor (State Event Out : Type*) where
  step : State → Event → State × List Out

namespace Reactor

variable {State Event Out : Type*} (m : Reactor State Event Out)

/-- A run: the state it ends in and all that was put out. -/
def run : State → List Event → State × List Out
  | s, [] => (s, [])
  | s, e :: es =>
      ((run (m.step s e).1 es).1, (m.step s e).2 ++ (run (m.step s e).1 es).2)

@[simp]
theorem run_nil (s : State) : m.run s [] = (s, []) := rfl

@[simp]
theorem run_cons (s : State) (e : Event) (es : List Event) :
    m.run s (e :: es) =
      ((m.run (m.step s e).1 es).1,
        (m.step s e).2 ++ (m.run (m.step s e).1 es).2) := rfl

theorem run_append (s : State) (first rest : List Event) :
    m.run s (first ++ rest) =
      ((m.run (m.run s first).1 rest).1,
        (m.run s first).2 ++ (m.run (m.run s first).1 rest).2) := by
  induction first generalizing s with
  | nil => simp
  | cons e es ih => simp [ih]

/-- What every step keeps holds after a run. -/
theorem run_keeps {Good : State → Prop}
    (keeps : ∀ s e, Good s → Good (m.step s e).1)
    {s : State} (good : Good s) (events : List Event) :
    Good (m.run s events).1 := by
  induction events generalizing s with
  | nil => exact good
  | cons e es ih => exact ih (keeps s e good)

/-- Every event of a run meets a condition in the state that it finds. -/
def Always (Meets : State → Event → Prop) : State → List Event → Prop
  | _, [] => True
  | s, e :: es => Meets s e ∧ Always Meets (m.step s e).1 es

/-- What every step keeps under a condition holds after a run that always meets
the condition. -/
theorem run_keeps_of_always {Good : State → Prop} {Meets : State → Event → Prop}
    (keeps : ∀ s e, Good s → Meets s e → Good (m.step s e).1)
    {s : State} (good : Good s) {events : List Event}
    (always : m.Always Meets s events) :
    Good (m.run s events).1 := by
  induction events generalizing s with
  | nil => exact good
  | cons e es ih => exact ih (keeps s e good always.1) always.2

/-- What every step keeps of a history holds of a run's. -/
theorem run_history {Kept : List Event → State → List Out → Prop} {start : State}
    (fresh : Kept [] start [])
    (keeps : ∀ past s out e, Kept past s out →
      Kept (past ++ [e]) (m.step s e).1 (out ++ (m.step s e).2))
    (events : List Event) :
    Kept events (m.run start events).1 (m.run start events).2 := by
  induction events using List.reverseRecOn with
  | nil => exact fresh
  | append_singleton past e ih =>
      rw [run_append]
      simpa using keeps past _ _ e ih

end Reactor

end RlxFw
