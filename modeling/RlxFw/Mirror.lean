import RlxFw.Account

/-!
# Computations that mirror each other

Two computations over one state, of which the second issues what a projection keeps of
the first one's operations.  Both return, related values and at the same state, or both
stop.  The rules follow how computations are composed; nothing here depends on the
operations.
-/

namespace RlxFw.Emission

variable {State Op Op' Stop Stop' Value Value' Next Next' : Type}

/-- The ends of two computations from one state: both return, there and with related
values, or both stop for related reasons. -/
def EndAlike (Why : Stop → Stop' → Prop) (Same : Value → Value' → Prop) :
    Except Stop Value × State → Except Stop' Value' × State → Prop
  | (.ok value, state), (.ok value', state') => Same value value' ∧ state = state'
  | (.error why, _), (.error why', _) => Why why why'
  | _, _ => False

/-- The second computation issues what `shown` keeps of the first one's operations, and
ends alike. -/
structure Mirrors (shown : Op → List Op') (Why : Stop → Stop' → Prop)
    (Same : Value → Value' → Prop) (whole : Emission State Op Stop Value)
    (part : Emission State Op' Stop' Value') : Prop where
  ops : ∀ state, (part state).2.2 = (whole state).2.2.flatMap shown
  ends : ∀ state, EndAlike Why Same ((whole state).1, (whole state).2.1)
    ((part state).1, (part state).2.1)

section Rules

variable {shown : Op → List Op'} {Why : Stop → Stop' → Prop} {Same : Value → Value' → Prop}
  {Same' : Next → Next' → Prop}

theorem mirrors_pure {value : Value} {value' : Value'} (same : Same value value') :
    Mirrors shown Why Same (pure value : Emission State Op Stop Value)
      (pure value' : Emission State Op' Stop' Value') where
  ops _ := rfl
  ends _ := ⟨same, rfl⟩

theorem mirrors_stop {why : Stop} {why' : Stop'} (same : Why why why') :
    Mirrors shown Why Same (stop why : Emission State Op Stop Value)
      (stop why' : Emission State Op' Stop' Value') where
  ops _ := rfl
  ends _ := same

/-- What is asked alike and shown is mirrored. -/
theorem mirrors_ask {transition : State → Value × State} {report : Value → Op}
    {transition' : State → Value' × State} {op : Op'}
    (same : ∀ state, Same (transition state).1 (transition' state).1)
    (later : ∀ state, (transition state).2 = (transition' state).2)
    (visible : ∀ value, shown (report value) = [op]) :
    Mirrors shown Why Same (ask transition report : Emission State Op Stop Value)
      (do issue op; step transition' : Emission State Op' Stop' Value') where
  ops state := by
    change [op] = [report (transition state).1].flatMap shown
    simp [visible]
  ends state := ⟨same state, later state⟩

/-- What is asked alike and not shown is mirrored by a step. -/
theorem mirrors_ask_hidden {transition : State → Value × State} {report : Value → Op}
    {transition' : State → Value' × State}
    (same : ∀ state, Same (transition state).1 (transition' state).1)
    (later : ∀ state, (transition state).2 = (transition' state).2)
    (hidden : ∀ value, shown (report value) = []) :
    Mirrors shown Why Same (ask transition report : Emission State Op Stop Value)
      (step transition' : Emission State Op' Stop' Value') where
  ops state := by
    change [] = [report (transition state).1].flatMap shown
    simp [hidden]
  ends state := ⟨same state, later state⟩

theorem Mirrors.bind {first : Emission State Op Stop Value}
    {first' : Emission State Op' Stop' Value'} {next : Value → Emission State Op Stop Next}
    {next' : Value' → Emission State Op' Stop' Next'}
    (begins : Mirrors shown Why Same first first')
    (continues : ∀ value value', Same value value' →
      Mirrors shown Why Same' (next value) (next' value')) :
    Mirrors shown Why Same' (first >>= next) (first' >>= next') := by
  have both (state : State) :
      (andThen first' next' state).2.2 = (andThen first next state).2.2.flatMap shown ∧
        EndAlike Why Same' ((andThen first next state).1, (andThen first next state).2.1)
          ((andThen first' next' state).1, (andThen first' next' state).2.1) := by
    have ops := begins.ops state
    have ends := begins.ends state
    unfold andThen
    rcases left : first state with ⟨result, later, issued⟩
    rcases right : first' state with ⟨result', later', issued'⟩
    rw [left, right] at ops ends
    cases result with
    | error why =>
        cases result' with
        | error why' => exact ⟨ops, ends⟩
        | ok value' => exact False.elim ends
    | ok value =>
        cases result' with
        | error why' => exact False.elim ends
        | ok value' =>
            obtain ⟨same, rfl⟩ := ends
            have rest := continues value value' same
            refine ⟨?_, rest.ends later⟩
            dsimp only at ops ⊢
            rw [List.flatMap_append, ← ops, ← rest.ops later]
  exact ⟨fun state => (both state).1, fun state => (both state).2⟩

/-- A question that is not shown, answered one way and without an effect, has no
counterpart. -/
theorem Mirrors.hidden {transition : State → Value × State} {report : Value → Op}
    {next : Value → Emission State Op Stop Next} {part : Emission State Op' Stop' Next'}
    {value : Value} (answers : ∀ state, transition state = (value, state))
    (hidden : shown (report value) = [])
    (continues : Mirrors shown Why Same' (next value) part) :
    Mirrors shown Why Same' (ask transition report >>= next) part := by
  have run (state : State) : (ask transition report >>= next) state =
      ((next value state).1, (next value state).2.1, report value :: (next value state).2.2) := by
    change andThen _ _ state = _
    unfold andThen ask
    rw [answers state]
    rfl
  refine ⟨fun state => ?_, fun state => ?_⟩
  · rw [run, continues.ops state]
    simp [hidden]
  · rw [run]
    exact continues.ends state

end Rules

end RlxFw.Emission
