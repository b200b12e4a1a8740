import RlxFw.Prelude
import Mathlib.Tactic.Common

/-!
# Restart policies

A process that is started again when it ends, judged by what happened to it: how
many times in a row it failed at once, how long it must then wait, and when it is
given up.
-/

namespace RlxFw

/-- What happened to a process, and when. -/
inductive Incident where
  | armed (now : Int)
  | started (now : Int)
  /-- It could not be started. -/
  | unstarted (now : Int)
  | ended (now : Int)
  /-- It was told to stop. -/
  | told
deriving DecidableEq, Repr

/-- How long a healthy run is, how long to wait after so many failures in a row, and
how many of them are too many. -/
structure RestartPolicy where
  healthy : Int
  wait : Nat → Int
  cap : Nat

namespace RestartPolicy

/-! ## Reading a history, the latest incident first -/

/-- When the process was last started. -/
def lastStart : List Incident → Option Int
  | [] => none
  | .started t :: _ => some t
  | _ :: past => lastStart past

/-- When the process last ended or could not be started. -/
def lastFall : List Incident → Option Int
  | [] => none
  | .unstarted t :: _ => some t
  | .ended t :: _ => some t
  | _ :: past => lastFall past

/-- It was told to stop since it was armed. -/
def told : List Incident → Bool
  | [] => false
  | .told :: _ => true
  | .armed _ :: _ => false
  | _ :: past => told past

variable (P : RestartPolicy)

/-- A run that ends now was a healthy one. -/
def Lasted (past : List Incident) (now : Int) : Prop :=
  ∃ t ∈ lastStart past, P.healthy ≤ now - t

instance (past : List Incident) (now : Int) : Decidable (P.Lasted past now) :=
  match start : lastStart past with
  | none => isFalse (by simp [Lasted, start])
  | some t => decidable_of_iff (P.healthy ≤ now - t) (by simp [Lasted, start])

/-- How many times in a row the process failed at once. -/
def streak : List Incident → Nat
  | [] => 0
  | .armed _ :: _ => 0
  | .started _ :: past => streak past
  | .unstarted _ :: past => streak past + 1
  | .told :: past => streak past
  | .ended t :: past =>
      if told past then streak past
      else if P.Lasted past t then 0
      else streak past + 1

/-- The process may be started now. -/
def Permits (past : List Incident) (now : Int) : Prop :=
  told past = false ∧ P.streak past < P.cap ∧
    (0 < P.streak past → ∀ t ∈ lastFall past, t + P.wait (P.streak past) ≤ now)

/-- It was permitted each time that it was started. -/
def Obeys : List Incident → Prop
  | [] => True
  | .started t :: past => P.Permits past t ∧ Obeys past
  | .unstarted t :: past => P.Permits past t ∧ Obeys past
  | _ :: past => Obeys past

instance (past : List Incident) (now : Int) : Decidable (P.Permits past now) :=
  inferInstanceAs (Decidable (_ ∧ _ ∧ (_ → ∀ t ∈ lastFall past, _)))

instance decidableObeys : (past : List Incident) → Decidable (P.Obeys past)
  | [] => isTrue trivial
  | .started t :: past =>
      have := decidableObeys past
      inferInstanceAs (Decidable (P.Permits past t ∧ P.Obeys past))
  | .unstarted t :: past =>
      have := decidableObeys past
      inferInstanceAs (Decidable (P.Permits past t ∧ P.Obeys past))
  | .armed _ :: past => decidableObeys past
  | .ended _ :: past => decidableObeys past
  | .told :: past => decidableObeys past

/-- A healthy run begins the count again. -/
theorem streak_ended_of_lasted {past : List Incident} {now : Int}
    (untold : told past = false) (lasted : P.Lasted past now) :
    P.streak (.ended now :: past) = 0 := by
  simp [streak, untold, lasted]

theorem streak_ended_of_short {past : List Incident} {now : Int}
    (untold : told past = false) (short : ¬ P.Lasted past now) :
    P.streak (.ended now :: past) = P.streak past + 1 := by
  simp [streak, untold, short]

end RestartPolicy

end RlxFw
