import RlxFw.Prelude
import Mathlib.Data.List.Basic

/-!
# Machines with a meter

A machine takes events, and a gauge reads a number off each step.  The total of a gauge
over a run is compared with a counter of the state, or with the total of another gauge
through a potential.
-/

namespace RlxFw

namespace Metered

variable {State Event : Type*} (next : State → Event → State)

/-- The total of a gauge over a run. -/
def total (gauge : State → Event → Nat) : State → List Event → Nat
  | _, [] => 0
  | s, e :: rest => gauge s e + total gauge (next s e) rest

section Rules

variable {next} {gauge cost gain : State → Event → Nat} {s : State}

@[simp]
theorem total_nil (s : State) : total next gauge s [] = 0 := rfl

@[simp]
theorem total_cons (s : State) (e : Event) (rest : List Event) :
    total next gauge s (e :: rest) = gauge s e + total next gauge (next s e) rest := rfl

section Potential

variable {events : List Event} (Inv : State → Prop) (potential : State → Nat)

/-- The gains and what a potential holds pay for the costs, and for what it holds at the
end. -/
theorem total_add_le (rate : Nat) (step : ∀ e ∈ events, ∀ s, Inv s → Inv (next s e))
    (pays : ∀ e ∈ events, ∀ s, Inv s →
      rate * cost s e + potential (next s e) ≤ potential s + gain s e) (start : Inv s) :
    rate * total next cost s events + potential (events.foldl next s) ≤
      potential s + total next gain s events := by
  induction events generalizing s with
  | nil => simp
  | cons e rest ih =>
      have paid := pays e List.mem_cons_self s start
      have later := ih (fun e' member => step e' (List.mem_cons_of_mem _ member))
        (fun e' member => pays e' (List.mem_cons_of_mem _ member))
        (step e List.mem_cons_self s start)
      rw [total_cons, total_cons, Nat.mul_add, List.foldl_cons]
      omega

@[simp]
theorem total_zero (s : State) (events : List Event) : total next (fun _ _ => 0) s events = 0 := by
  induction events generalizing s with
  | nil => rfl
  | cons e rest ih => simp [ih]

/-- Costs that only the potential pays for. -/
theorem total_le_potential (step : ∀ e ∈ events, ∀ s, Inv s → Inv (next s e))
    (pays : ∀ e ∈ events, ∀ s, Inv s → cost s e + potential (next s e) ≤ potential s)
    (start : Inv s) : total next cost s events ≤ potential s := by
  have paid : 1 * total next cost s events + potential (events.foldl next s) ≤
      potential s + total next (fun _ _ => 0) s events :=
    total_add_le Inv potential 1 step (by simpa using pays) start
  rw [total_zero] at paid
  omega

/-- A gauge that reads nothing on a run has no total. -/
theorem total_eq_zero (step : ∀ e ∈ events, ∀ s, Inv s → Inv (next s e))
    (nothing : ∀ e ∈ events, ∀ s, Inv s → gauge s e = 0) (start : Inv s) :
    total next gauge s events = 0 :=
  Nat.le_zero.mp (total_le_potential Inv (fun _ => 0) step
    (fun e member s inv => Nat.le_of_eq (nothing e member s inv)) start)

/-- A counter that every step moves by the gauge counts the total. -/
theorem counter_foldl {counter : State → Nat}
    (step : ∀ e ∈ events, ∀ s, Inv s → Inv (next s e))
    (counts : ∀ e ∈ events, ∀ s, Inv s → counter (next s e) = counter s + gauge s e)
    (start : Inv s) :
    counter (events.foldl next s) = counter s + total next gauge s events := by
  induction events generalizing s with
  | nil => rfl
  | cons e rest ih =>
      have later := ih (fun e' member => step e' (List.mem_cons_of_mem _ member))
        (fun e' member => counts e' (List.mem_cons_of_mem _ member))
        (step e List.mem_cons_self s start)
      rw [List.foldl_cons, later, counts e List.mem_cons_self s start, total_cons, Nat.add_assoc]

end Potential

end Rules

end Metered

end RlxFw
