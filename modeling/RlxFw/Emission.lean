import RlxFw.Prelude
import Mathlib.Logic.Basic

/-!
# Computations that issue operations

A computation over a state that may stop early and that issues operations to
the outside as it goes.  `Within` is the rule set for such a computation: the
operations it issues, whether it finishes or stops, and the value it returns
when it finishes.  Nothing here depends on what the operations are.
-/

namespace RlxFw

/-- From a state: a value or the reason for stopping, the state after, and the
operations issued on the way. -/
def Emission (State Op Stop Value : Type) : Type :=
  State → Except Stop Value × State × List Op

namespace Emission

variable {State Op Stop Value Value' : Type}

/-- What a computation does with its continuation. -/
def andThen (first : Emission State Op Stop Value)
    (next : Value → Emission State Op Stop Value') :
    Emission State Op Stop Value' :=
  fun state =>
    match first state with
    | (.error why, state, ops) => (.error why, state, ops)
    | (.ok value, state, ops) =>
        let rest := next value state
        (rest.1, rest.2.1, ops ++ rest.2.2)

instance : Monad (Emission State Op Stop) where
  pure value := fun state => (.ok value, state, [])
  bind := andThen

instance : LawfulMonad (Emission State Op Stop) :=
  LawfulMonad.mk' _
    (by
      intro Value computation
      funext state
      change andThen computation (fun value => pure value) state =
        computation state
      unfold andThen
      rcases computation state with ⟨result, after, ops⟩
      cases result with
      | error why => rfl
      | ok value => exact congrArg (Prod.mk _ <| Prod.mk _ ·) (List.append_nil ops))
    (fun _ _ => rfl)
    (by
      intro Value Value' Value'' first next last
      funext state
      change andThen (andThen first next) last state =
        andThen first (fun value => andThen (next value) last) state
      unfold andThen
      rcases first state with ⟨result, after, ops⟩
      cases result with
      | error why => rfl
      | ok value =>
          dsimp only
          rcases next value after with ⟨result, later, more⟩
          cases result with
          | error why => rfl
          | ok value =>
              exact congrArg (Prod.mk _ <| Prod.mk _ ·) (List.append_assoc ops more _))

/-- Stop, with a reason. -/
def stop (why : Stop) : Emission State Op Stop Value :=
  fun state => (.error why, state, [])

/-- Issue one operation. -/
def issue (op : Op) : Emission State Op Stop Unit :=
  fun state => (.ok (), state, [op])

/-- Read the state. -/
def read (project : State → Value) : Emission State Op Stop Value :=
  fun state => (.ok (project state), state, [])

/-- Change the state. -/
def change (update : State → State) : Emission State Op Stop Unit :=
  fun state => (.ok (), update state, [])

/-- Read the state and change it. -/
def step (transition : State → Value × State) :
    Emission State Op Stop Value :=
  fun state => (.ok (transition state).1, (transition state).2, [])

/-- Run a computation to its end, stopped or not. -/
def attempt (computation : Emission State Op Stop Value) :
    Emission State Op Stop (Except Stop Value) :=
  fun state =>
    (.ok (computation state).1, (computation state).2.1,
      (computation state).2.2)

/-- Run `body` at `first`, `first + 1`, …, `count` times, threading a value. -/
def repeatFrom (body : Nat → Value → Emission State Op Stop Value) :
    Nat → Nat → Value → Emission State Op Stop Value
  | _, 0, value => pure value
  | first, count + 1, value => do
      let next ← body first value
      repeatFrom body (first + 1) count next

/-- A step that only maps a result leaves the state and issues nothing. -/
theorem map_rest (computation : Emission State Op Stop Value)
    (f : Value → Value') (state : State) :
    ((do let value ← computation; pure (f value) :
      Emission State Op Stop Value') state).2 = (computation state).2 := by
  change (andThen computation (fun value => pure (f value)) state).2 = _
  unfold andThen
  rcases computation state with ⟨result, after, ops⟩
  cases result with
  | error why => rfl
  | ok value => exact Prod.ext rfl (List.append_nil ops)

/-- Every operation issued satisfies `Allowed`, and a value returned satisfies
`Result`. -/
def Within (Allowed : Op → Prop) (Result : Value → Prop)
    (computation : Emission State Op Stop Value) : Prop :=
  ∀ state,
    (∀ op ∈ (computation state).2.2, Allowed op) ∧
      ∀ value, (computation state).1 = .ok value → Result value

section Rules

variable {Allowed : Op → Prop} {Result : Value → Prop}
  {Result' : Value' → Prop}

theorem Within.weaken {computation : Emission State Op Stop Value}
    (within : computation.Within Allowed Result)
    {Result' : Value → Prop} (weaker : ∀ value, Result value → Result' value) :
    computation.Within Allowed Result' :=
  fun state => ⟨(within state).1, fun value returned =>
    weaker value ((within state).2 value returned)⟩

theorem Within.mono {computation : Emission State Op Stop Value}
    (within : computation.Within Allowed Result)
    {Allowed' : Op → Prop} (wider : ∀ op, Allowed op → Allowed' op) :
    computation.Within Allowed' Result :=
  fun state => ⟨fun op member => wider op ((within state).1 op member),
    (within state).2⟩

theorem Within.anyResult {computation : Emission State Op Stop Value}
    (within : computation.Within Allowed Result) :
    computation.Within Allowed fun _ => True :=
  within.weaken fun _ _ => trivial

theorem within_pure {value : Value} (holds : Result value) :
    Within Allowed Result
      (pure value : Emission State Op Stop Value) := by
  intro state
  refine ⟨?_, ?_⟩
  · intro op member
    exact absurd member List.not_mem_nil
  · intro returned same
    cases same
    exact holds

theorem within_stop (why : Stop) :
    Within Allowed Result
      (stop why : Emission State Op Stop Value) := by
  intro state
  refine ⟨?_, ?_⟩
  · intro op member
    exact absurd member List.not_mem_nil
  · intro returned same
    cases same

theorem within_issue {op : Op} (allowed : Allowed op) :
    Within Allowed (fun _ => True)
      (issue op : Emission State Op Stop Unit) := by
  intro state
  refine ⟨?_, fun _ _ => trivial⟩
  intro issued member
  rw [List.mem_singleton.mp member]
  exact allowed

theorem within_read (project : State → Value) :
    Within Allowed (fun _ => True)
      (read project : Emission State Op Stop Value) :=
  fun _ => ⟨fun _ member => absurd member List.not_mem_nil, fun _ _ => trivial⟩

theorem within_change (update : State → State) :
    Within Allowed (fun _ => True)
      (change update : Emission State Op Stop Unit) :=
  fun _ => ⟨fun _ member => absurd member List.not_mem_nil, fun _ _ => trivial⟩

theorem within_step (transition : State → Value × State) :
    Within Allowed (fun _ => True)
      (step transition : Emission State Op Stop Value) :=
  fun _ => ⟨fun _ member => absurd member List.not_mem_nil, fun _ _ => trivial⟩

theorem Within.bind {first : Emission State Op Stop Value}
    {next : Value → Emission State Op Stop Value'}
    (begins : first.Within Allowed Result)
    (continues : ∀ value, Result value →
      (next value).Within Allowed Result') :
    Within Allowed Result' (first >>= next) := by
  intro state
  obtain ⟨issued, returned⟩ := begins state
  change (∀ op ∈ (andThen first next state).2.2, Allowed op) ∧
    ∀ value, (andThen first next state).1 = .ok value → Result' value
  unfold andThen
  rcases outcome : first state with ⟨result, after, ops⟩
  rw [outcome] at issued returned
  cases result with
  | error why =>
      refine ⟨issued, ?_⟩
      intro value same
      cases same
  | ok value =>
      obtain ⟨laterIssued, laterReturned⟩ :=
        continues value (returned value rfl) after
      refine ⟨?_, laterReturned⟩
      intro op member
      rcases List.mem_append.mp member with early | late
      · exact issued op early
      · exact laterIssued op late

theorem Within.attempt {computation : Emission State Op Stop Value}
    (within : computation.Within Allowed Result) :
    Within Allowed (fun _ => True) computation.attempt :=
  fun state => ⟨(within state).1, fun _ _ => trivial⟩

theorem Within.ite {condition : Prop} [Decidable condition]
    {yes no : Emission State Op Stop Value}
    (holds : condition → yes.Within Allowed Result)
    (fails : ¬ condition → no.Within Allowed Result) :
    Within Allowed Result (if condition then yes else no) := by
  split
  · exact holds ‹_›
  · exact fails ‹_›

/-- A loop keeps what one turn of it keeps. -/
theorem Within.repeatFrom
    {body : Nat → Value → Emission State Op Stop Value}
    (turn : ∀ index value, Result value →
      (body index value).Within Allowed Result)
    (first count : Nat) {value : Value} (start : Result value) :
    Within Allowed Result (repeatFrom body first count value) := by
  induction count generalizing first value with
  | zero => exact within_pure start
  | succ count ih =>
      exact (turn first value start).bind fun next holds =>
        ih (first + 1) holds

/-- What holds of nothing issued and of what the continuation issues holds
after a computation that issues nothing. -/
theorem Within.quiet_bind {first : Emission State Op Stop Value}
    {next : Value → Emission State Op Stop Value'}
    (quiet : first.Within (fun _ => False) Result) (Issued : List Op → Prop)
    (nothing : Issued [])
    (continues : ∀ value, Result value →
      ∀ state, Issued (next value state).2.2) (state : State) :
    Issued ((first >>= next) state).2.2 := by
  obtain ⟨issued, returned⟩ := quiet state
  have silent := List.eq_nil_iff_forall_not_mem.mpr issued
  change Issued (andThen first next state).2.2
  unfold andThen
  rcases outcome : first state with ⟨result, after, ops⟩
  rw [outcome] at silent returned
  simp only at silent returned
  subst silent
  cases result with
  | error why => exact nothing
  | ok value => exact continues value (returned value rfl) after

end Rules

/-- Issues `plan`, or the start of it when it stops early. -/
def Follows (plan : List Op) (computation : Emission State Op Stop Value) :
    Prop :=
  ∀ state, (computation state).2.2 <+: plan ∧
    ∀ value, (computation state).1 = .ok value → (computation state).2.2 = plan

theorem Within.follows {computation : Emission State Op Stop Value}
    {Result : Value → Prop}
    (quiet : computation.Within (fun _ => False) Result) :
    computation.Follows [] := by
  intro state
  have silent := List.eq_nil_iff_forall_not_mem.mpr (quiet state).1
  rw [silent]
  exact ⟨List.prefix_rfl, fun _ _ => rfl⟩

theorem follows_issue (op : Op) :
    (issue op : Emission State Op Stop Unit).Follows [op] :=
  fun _ => ⟨List.prefix_rfl, fun _ _ => rfl⟩

theorem Follows.bind {first : Emission State Op Stop Value}
    {next : Value → Emission State Op Stop Value'} {before after : List Op}
    (begins : first.Follows before)
    (continues : ∀ value, (next value).Follows after) :
    (first >>= next).Follows (before ++ after) := by
  intro state
  obtain ⟨started, returned⟩ := begins state
  change (andThen first next state).2.2 <+: before ++ after ∧
    ∀ value, (andThen first next state).1 = .ok value →
      (andThen first next state).2.2 = before ++ after
  unfold andThen
  rcases outcome : first state with ⟨result, later, ops⟩
  rw [outcome] at started returned
  cases result with
  | error why =>
      exact ⟨started.trans (List.prefix_append before after), nofun⟩
  | ok value =>
      have all : ops = before := returned value rfl
      subst all
      obtain ⟨rest, finished⟩ := continues value later
      refine ⟨List.prefix_append_right_inj _ |>.mpr rest, ?_⟩
      intro last returnedLast
      exact congrArg (ops ++ ·) (finished last returnedLast)

end Emission

end RlxFw
