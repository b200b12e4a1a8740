import RlxFw.Emission

/-!
# What a computation can tell of itself

A computation judged by the operations it issued: those issued when it returns,
with the value, and those issued when it stops, with the reason.  The rules
follow how computations are composed; nothing here depends on the operations.
-/

namespace RlxFw.Emission

variable {State Op Stop Value Value' : Type}

/-- Ask the world outside, and report what it answered. -/
def ask (transition : State → Value × State) (report : Value → Op) :
    Emission State Op Stop Value :=
  fun state =>
    (.ok (transition state).1, (transition state).2, [report (transition state).1])

/-- From every state: `Returned` of the value and the operations of a
computation that returns, `Stopped` of the reason and the operations of one that
stops. -/
structure Accounts (Returned : Value → List Op → Prop)
    (Stopped : Stop → List Op → Prop)
    (computation : Emission State Op Stop Value) : Prop where
  returned : ∀ state value, (computation state).1 = .ok value →
    Returned value (computation state).2.2
  stopped : ∀ state why, (computation state).1 = .error why →
    Stopped why (computation state).2.2

variable {Returned : Value → List Op → Prop} {Returned' : Value' → List Op → Prop}
  {Stopped Stopped' : Stop → List Op → Prop}

theorem Accounts.weaken {computation : Emission State Op Stop Value}
    (accounts : computation.Accounts Returned Stopped)
    {Finished : Value → List Op → Prop}
    (returns : ∀ value ops, Returned value ops → Finished value ops)
    (stops : ∀ why ops, Stopped why ops → Stopped' why ops) :
    computation.Accounts Finished Stopped' where
  returned state value same := returns value _ (accounts.returned state value same)
  stopped state why same := stops why _ (accounts.stopped state why same)

theorem accounts_pure {value : Value} (holds : Returned value []) :
    Accounts Returned Stopped (pure value : Emission State Op Stop Value) where
  returned := by
    intro state returned same
    cases same
    exact holds
  stopped := by
    intro state why same
    cases same

theorem accounts_stop {why : Stop} (holds : Stopped why []) :
    Accounts Returned Stopped (stop why : Emission State Op Stop Value) where
  returned := by
    intro state value same
    cases same
  stopped := by
    intro state reason same
    cases same
    exact holds

theorem accounts_ask {transition : State → Value × State} {report : Value → Op}
    (holds : ∀ state, Returned (transition state).1 [report (transition state).1]) :
    Accounts Returned Stopped (ask transition report : Emission State Op Stop Value) where
  returned := by
    intro state value same
    cases same
    exact holds state
  stopped := by
    intro state why same
    cases same

/-- A continuation accounts for its own operations after the first ones. -/
theorem Accounts.bind {first : Emission State Op Stop Value}
    {next : Value → Emission State Op Stop Value'}
    (begins : first.Accounts Returned Stopped)
    (continues : ∀ value ops, Returned value ops →
      (next value).Accounts (fun last more => Returned' last (ops ++ more))
        fun why more => Stopped' why (ops ++ more))
    (stops : ∀ why ops, Stopped why ops → Stopped' why ops) :
    Accounts Returned' Stopped' (first >>= next) := by
  have apart (state : State) :
      (∀ last, (andThen first next state).1 = .ok last →
        Returned' last (andThen first next state).2.2) ∧
      ∀ why, (andThen first next state).1 = .error why →
        Stopped' why (andThen first next state).2.2 := by
    have returned := begins.returned state
    have stopped := begins.stopped state
    unfold andThen
    rcases outcome : first state with ⟨result, later, ops⟩
    rw [outcome] at returned stopped
    cases result with
    | error why =>
        constructor
        · intro last same
          cases same
        · intro reason same
          cases same
          exact stops why ops (stopped why rfl)
    | ok value =>
        have after := continues value ops (returned value rfl)
        exact ⟨after.returned later, after.stopped later⟩
  exact ⟨fun state => (apart state).1, fun state => (apart state).2⟩

theorem Accounts.ite {condition : Prop} [Decidable condition]
    {yes no : Emission State Op Stop Value}
    (holds : condition → yes.Accounts Returned Stopped)
    (fails : ¬ condition → no.Accounts Returned Stopped) :
    (if condition then yes else no).Accounts Returned Stopped := by
  split
  · exact holds ‹_›
  · exact fails ‹_›

/-- `Accounts` behind the operations issued before: both predicates are of all that
was issued. -/
def AccountsFrom (before : List Op) (Returned : Value → List Op → Prop)
    (Stopped : Stop → List Op → Prop) (computation : Emission State Op Stop Value) : Prop :=
  computation.Accounts (fun value ops => Returned value (before ++ ops))
    fun why ops => Stopped why (before ++ ops)

theorem AccountsFrom.weaken {before : List Op} {computation : Emission State Op Stop Value}
    (accounts : computation.AccountsFrom before Returned Stopped)
    {Finished : Value → List Op → Prop}
    (returns : ∀ value ops, Returned value ops → Finished value ops)
    (stops : ∀ why ops, Stopped why ops → Stopped' why ops) :
    computation.AccountsFrom before Finished Stopped' :=
  Accounts.weaken accounts (fun value ops => returns value (before ++ ops))
    fun why ops => stops why (before ++ ops)

/-- A continuation goes on from all that was issued. -/
theorem AccountsFrom.bind {before : List Op} {first : Emission State Op Stop Value}
    {next : Value → Emission State Op Stop Value'}
    (begins : first.AccountsFrom before Returned Stopped)
    (continues : ∀ value ops, Returned value ops →
      (next value).AccountsFrom ops Returned' Stopped) :
    (first >>= next).AccountsFrom before Returned' Stopped := by
  refine Accounts.bind begins ?_ fun _ _ => id
  intro value ops returned
  have continued := continues value (before ++ ops) returned
  simp only [AccountsFrom, List.append_assoc] at continued
  exact continued

theorem AccountsFrom.ite {before : List Op} {condition : Prop} [Decidable condition]
    {yes no : Emission State Op Stop Value}
    (holds : condition → yes.AccountsFrom before Returned Stopped)
    (fails : ¬ condition → no.AccountsFrom before Returned Stopped) :
    (if condition then yes else no).AccountsFrom before Returned Stopped :=
  Accounts.ite holds fails

theorem accountsFrom_pure {before : List Op} {value : Value} (holds : Returned value before) :
    (pure value : Emission State Op Stop Value).AccountsFrom before Returned Stopped :=
  accounts_pure ((List.append_nil before).symm ▸ holds)

theorem accountsFrom_stop {before : List Op} {why : Stop} (holds : Stopped why before) :
    (stop why : Emission State Op Stop Value).AccountsFrom before Returned Stopped :=
  accounts_stop ((List.append_nil before).symm ▸ holds)

end RlxFw.Emission
