import RlxFw.Emission

/-!
# Contracts of computations

What a computation leaves of its state: from a state that satisfies a
precondition, what holds after it returns a value and what holds after it
stops.  Nothing here depends on the state or on the operations.
-/

namespace RlxFw.Emission

variable {State Op Stop Value Value' : Type}

/-- From a state in `Before`: `After` with the value returned, `Stopped` with
the reason for stopping. -/
def Meets (Before : State → Prop) (computation : Emission State Op Stop Value)
    (After : Value → State → Prop) (Stopped : Stop → State → Prop) : Prop :=
  ∀ state, Before state →
    (∀ value, (computation state).1 = .ok value →
      After value (computation state).2.1) ∧
    ∀ why, (computation state).1 = .error why →
      Stopped why (computation state).2.1

variable {Before : State → Prop} {After : Value → State → Prop}
  {After' : Value' → State → Prop} {Stopped : Stop → State → Prop}

theorem Meets.weaken {computation : Emission State Op Stop Value}
    (meets : Meets Before computation After Stopped)
    {Before' : State → Prop} {Result : Value → State → Prop}
    {Stopped' : Stop → State → Prop}
    (start : ∀ state, Before' state → Before state)
    (finish : ∀ value state, After value state → Result value state)
    (halt : ∀ why state, Stopped why state → Stopped' why state) :
    Meets Before' computation Result Stopped' := by
  intro state before
  obtain ⟨returned, stopped⟩ := meets state (start state before)
  exact ⟨fun value same => finish value _ (returned value same),
    fun why same => halt why _ (stopped why same)⟩

/-- A fact beside the precondition is a hypothesis. -/
theorem meets_of_fact {computation : Emission State Op Stop Value}
    {Fact : Prop}
    (meets : Fact → Meets Before computation After Stopped) :
    Meets (fun state => Before state ∧ Fact) computation After Stopped :=
  fun state ⟨before, fact⟩ => meets fact state before

theorem meets_pure {value : Value} (holds : ∀ state, Before state →
    After value state) :
    Meets Before (pure value : Emission State Op Stop Value) After Stopped := by
  intro state before
  constructor
  · intro returned same
    cases same
    exact holds state before
  · intro why same
    cases same

theorem meets_stop {why : Stop} (holds : ∀ state, Before state →
    Stopped why state) :
    Meets Before (stop why : Emission State Op Stop Value) After Stopped := by
  intro state before
  constructor
  · intro returned same
    cases same
  · intro reason same
    cases same
    exact holds state before

theorem meets_read (project : State → Value) :
    Meets Before (read project : Emission State Op Stop Value)
      (fun value state => Before state ∧ project state = value) Stopped := by
  intro state before
  constructor
  · intro value same
    cases same
    exact ⟨before, rfl⟩
  · intro why same
    cases same

theorem meets_change {update : State → State} {After : State → Prop}
    (holds : ∀ state, Before state → After (update state)) :
    Meets Before (change update : Emission State Op Stop Unit)
      (fun _ => After) Stopped :=
  fun state before => ⟨fun _ _ => holds state before, nofun⟩

theorem meets_step {transition : State → Value × State}
    (holds : ∀ state, Before state →
      After (transition state).1 (transition state).2) :
    Meets Before (step transition : Emission State Op Stop Value) After
      Stopped := by
  intro state before
  constructor
  · intro value same
    cases same
    exact holds state before
  · intro why same
    cases same

theorem Meets.bind {first : Emission State Op Stop Value}
    {next : Value → Emission State Op Stop Value'}
    (begins : Meets Before first After Stopped)
    (continues : ∀ value, Meets (After value) (next value) After' Stopped) :
    Meets Before (first >>= next) After' Stopped := by
  intro state before
  obtain ⟨returned, stopped⟩ := begins state before
  change (∀ value, (andThen first next state).1 = .ok value →
      After' value (andThen first next state).2.1) ∧
    ∀ why, (andThen first next state).1 = .error why →
      Stopped why (andThen first next state).2.1
  unfold andThen
  rcases outcome : first state with ⟨result, later, ops⟩
  rw [outcome] at returned stopped
  cases result with
  | error why =>
      constructor
      · intro value same
        cases same
      · intro reason same
        cases same
        exact stopped why rfl
  | ok value => exact continues value later (returned value rfl)

theorem Meets.attempt {computation : Emission State Op Stop Value}
    (meets : Meets Before computation After Stopped)
    {Stopped' : Stop → State → Prop} :
    Meets Before computation.attempt
      (fun outcome state => (∀ value, outcome = .ok value → After value state) ∧
        ∀ why, outcome = .error why → Stopped why state) Stopped' := by
  intro state before
  constructor
  · intro outcome same
    cases same
    exact meets state before
  · intro why same
    cases same

theorem Meets.ite {condition : Prop} [Decidable condition]
    {yes no : Emission State Op Stop Value}
    (holds : condition → Meets Before yes After Stopped)
    (fails : ¬ condition → Meets Before no After Stopped) :
    Meets Before (if condition then yes else no) After Stopped := by
  split
  · exact holds ‹_›
  · exact fails ‹_›

end RlxFw.Emission
