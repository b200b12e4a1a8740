import RlxFw.KeysAgreement
import Mathlib.Data.List.Count

/-!
# What the buttons report

From the probe on, over any run of polls, opens and writes to the `/proc` file: presses and
releases take turns, a report needs its level at enough polls in a row, and a level that is
held for one poll more is reported once.
-/

namespace RlxFw.Keys

open Debounce (Touch)

/-- A driver as a probe leaves it that found its buttons. -/
structure Probed where
  calls : ProbeCalls
  buttons : Option (List GpioKeysButton)
  state : State
  probed : rtl819xKeysProbe calls buttons = .ok state

/-- Whether a step is a poll. -/
def Step.isPoll : Step → Bool
  | .poll _ _ => true
  | .flush _ => false
  | .write _ _ => false

/-- The polls of a run. -/
def polls (run : List Step) : Nat := run.countP Step.isPoll

/-- Values in turns. -/
def alternating : Bool → Nat → List Bool
  | _, 0 => []
  | value, n + 1 => value :: alternating (!value) n

theorem alternating_of_isChain {before : Bool} {values : List Bool}
    (chain : (before :: values).IsChain (· ≠ ·)) :
    values = alternating (!before) values.length := by
  induction values generalizing before with
  | nil => rfl
  | cons value rest ih =>
      obtain ⟨other, later⟩ := List.isChain_cons_cons.mp chain
      have isOther : ∀ before value : Bool, before ≠ value → value = !before := by decide
      rw [List.length_cons, alternating, ← isOther before value other, ← ih later]

section Held

variable (strtoul : List UInt8 → Nat × List UInt8)

/-- A step that reads a raw level at a button, or leaves the count of its polls alone: it is
neither an open nor a new interval. -/
def Step.Holds (i : Nat) (raw : Bool) : Step → Prop
  | .poll readings _ => rawOf (readings i).value = raw
  | .flush _ => False
  | .write bytes copied => intervalSet strtoul bytes copied = none

variable {strtoul} {b : GpioKeysButton} {i : Nat} {raw : Bool} {held : List Step}

/-- A level that is held is sampled at every poll. -/
theorem touches_of_holds (holds : ∀ st ∈ held, st.Holds strtoul i raw) :
    touches strtoul b i held = List.replicate (polls held) (.sample (b.pressed raw)) := by
  induction held with
  | nil => rfl
  | cons st rest ih =>
      have now := holds st List.mem_cons_self
      have later := ih fun st member => holds st (List.mem_cons_of_mem _ member)
      unfold touches polls at later ⊢
      cases st with
      | poll readings jiffies =>
          have level : rawOf (readings i).value = raw := now
          rw [List.countP_cons_of_pos rfl, List.replicate_succ, ← later]
          simp [Step.touch, level]
      | flush pins => exact now.elim
      | write bytes copied =>
          have unset : intervalSet strtoul bytes copied = none := now
          rw [List.countP_cons_of_neg (by simp [Step.isPoll]), ← later]
          simp [Step.touch, unset]

/-- Samples at one level are of a level that is held. -/
theorem holds_of_touches
    (samples : ∀ t ∈ touches strtoul b i held, t = .sample (b.pressed raw)) :
    ∀ st ∈ held, st.Holds strtoul i raw := by
  intro st member
  have sample {t : Touch Bool} (isTouch : st.touch strtoul b i = some t) :
      t = .sample (b.pressed raw) :=
    samples t (List.mem_filterMap.mpr ⟨st, member, isTouch⟩)
  cases st with
  | poll readings jiffies =>
      have same := sample rfl
      rw [Touch.sample.injEq] at same
      exact GpioKeysButton.pressed_inj.mp same
  | flush pins => cases sample rfl
  | write bytes copied =>
      change intervalSet strtoul bytes copied = none
      cases set : intervalSet strtoul bytes copied with
      | none => rfl
      | some v =>
          have isTouch : (Step.write bytes copied).touch strtoul b i =
              some (.retune (needFor b.debounceInterval v) (needFor_pos _ _)) := by
            simp [Step.touch, set]
          cases sample isTouch

end Held

section Runs

variable (strtoul : List UInt8 → Nat × List UInt8)

/-- A report of a button is of a raw level that the last polls of the run read, as many in a
row as the button needs, since the level was reached. -/
structure HeldLong (s : State) (before : List Step) (st : Step) (r : Report) (k : Btn)
    (raw : Bool) (earlier held : List Step) : Prop where
  poll : st.isPoll = true
  button : (s.run strtoul before).btns[r.button]? = some k
  code : r.code = k.b.code
  value : r.value = k.b.pressed raw
  whole : before ++ [st] = earlier ++ held
  holds : ∀ st ∈ held, st.Holds strtoul r.button raw
  enough : k.need ≤ polls held
  reached : ∃ k', (s.run strtoul earlier).btns[r.button]? = some k' ∧ k'.rawPrev = raw

/-- The reports of a driver, over every run from a state on. -/
structure ReportsClean (s : State) : Prop where
  /-- A press first, and then in turns. -/
  alternate : ∀ run i, valuesOf i (s.reported strtoul run) =
    alternating true (valuesOf i (s.reported strtoul run)).length
  /-- The polls that a button needs are those of its interval at the time. -/
  need : ∀ run, ∀ k ∈ (s.run strtoul run).btns,
    k.need = needFor k.b.debounceInterval (s.run strtoul run).pollMs
  /-- No report of a level that was not held. -/
  held : ∀ before st r, r ∈ (s.run strtoul before).reports st →
    ∃ k raw earlier held, HeldLong strtoul s before st r k raw earlier held
  /-- One report of a level that is held. -/
  once : ∀ before held i k raw, (s.run strtoul before).btns[i]? = some k →
    k.b.pressed raw ≠ k.state → (∀ st ∈ held, st.Holds strtoul i raw) →
    k.need + 1 ≤ polls held →
    valuesOf i ((s.run strtoul before).reported strtoul held) = [k.b.pressed raw]

variable {strtoul} {s : State}

theorem exists_of_run {i : Nat} {k : Btn} {run : List Step}
    (found : (s.run strtoul run).btns[i]? = some k) : ∃ k₀, s.btns[i]? = some k₀ := by
  induction run generalizing s with
  | nil => exact ⟨k, found⟩
  | cons st rest ih =>
      obtain ⟨k₁, stepped⟩ := ih found
      rw [getElem?_step] at stepped
      obtain ⟨k₀, before, -⟩ := Option.map_eq_some_iff.mp stepped
      exact ⟨k₀, before⟩

theorem Fresh.sound {k : Btn} (fresh : Fresh k) : k.view.Sound where
  stable_le := fresh.unread.le.trans (Nat.zero_le _)
  settled := fun full => absurd k.need_pos (by
    have none : k.view.stable = 0 := fresh.unread
    rw [none] at full
    exact Nat.not_lt.mpr full)

theorem alternate_of_fresh (fresh : ∀ k ∈ s.btns, Fresh k) (run : List Step) (i : Nat) :
    valuesOf i (s.reported strtoul run) =
      alternating true (valuesOf i (s.reported strtoul run)).length := by
  cases found : s.btns[i]? with
  | none =>
      rw [values_unknown strtoul found]
      rfl
  | some k =>
      have released : k.view.settled = false := (fresh k (List.mem_of_getElem? found)).released
      have chain := k.view.isChain_reports (touches strtoul k.b i run)
      rw [← values_reported strtoul found, released] at chain
      exact alternating_of_isChain chain

theorem need_step (needs : ∀ k ∈ s.btns, k.need = needFor k.b.debounceInterval s.pollMs)
    (st : Step) : ∀ k ∈ (s.step strtoul st).btns,
      k.need = needFor k.b.debounceInterval (s.step strtoul st).pollMs := by
  intro k member
  obtain ⟨i, found⟩ := List.mem_iff_getElem?.mp member
  rw [getElem?_step] at found
  obtain ⟨k₀, before, rfl⟩ := Option.map_eq_some_iff.mp found
  have needed := needs k₀ (List.mem_of_getElem? before)
  cases st with
  | poll readings jiffies =>
      change (k₀.poll _).1.need = needFor (k₀.poll _).1.b.debounceInterval s.pollMs
      rw [need_poll, poll_b]
      exact needed
  | flush pins => exact needed
  | write bytes copied =>
      change (k₀.written strtoul bytes copied).need =
        needFor (k₀.written strtoul bytes copied).b.debounceInterval
          (rtl819xKeysWriteProc strtoul bytes copied s).1.pollMs
      rw [(write_eq strtoul bytes copied s).2, written_b]
      unfold Btn.written
      cases intervalSet strtoul bytes copied with
      | none =>
          dsimp only
          split <;> exact needed
      | some v => rfl

theorem need_run (needs : ∀ k ∈ s.btns, k.need = needFor k.b.debounceInterval s.pollMs)
    (run : List Step) : ∀ k ∈ (s.run strtoul run).btns,
      k.need = needFor k.b.debounceInterval (s.run strtoul run).pollMs :=
  List.foldlRecOn
    (motive := fun s : State => ∀ k ∈ s.btns, k.need = needFor k.b.debounceInterval s.pollMs)
    run (State.step strtoul) needs fun _ needs st _ => need_step needs st

theorem held_of_fresh (fresh : ∀ k ∈ s.btns, Fresh k) {before : List Step} {st : Step}
    {r : Report} (member : r ∈ (s.run strtoul before).reports st) :
    ∃ k raw earlier held, HeldLong strtoul s before st r k raw earlier held := by
  cases st with
  | flush pins => simp [State.reports] at member
  | write bytes copied => simp [State.reports] at member
  | poll readings jiffies =>
      obtain ⟨i, k, button, found, code, polled⟩ := mem_pollButtons member
      rw [Nat.zero_add] at button
      subst button
      generalize isRaw : rawOf (readings r.button).value = raw at polled
      obtain ⟨k₀, start⟩ := exists_of_run found
      obtain ⟨k', found', sameB, view⟩ := exists_run strtoul start before
      obtain rfl : k' = k := Option.some_inj.mp (found'.symm.trans found)
      rw [report_poll, sameB, view] at polled
      have unread : k₀.view.stable = 0 := (fresh k₀ (List.mem_of_getElem? start)).unread
      obtain ⟨sampled, -, -⟩ := Debounce.report_eq_some polled
      have value : k₀.b.pressed raw = r.value := Touch.sample.inj sampled
      obtain ⟨earlierT, heldT, whole, samples, reached, enough⟩ :=
        Debounce.held_of_report unread polled
      have last : touches strtoul k₀.b r.button (before ++ [.poll readings jiffies]) =
          touches strtoul k₀.b r.button before ++ [.sample (k₀.b.pressed raw)] := by
        unfold touches
        rw [List.filterMap_append, ← isRaw]
        rfl
      rw [← last] at whole
      obtain ⟨earlier, held, split, isEarlier, isHeld⟩ := List.filterMap_eq_append_iff.mp whole
      have holds : ∀ st ∈ held, st.Holds strtoul r.button raw := by
        apply holds_of_touches (b := k₀.b)
        intro t memberT
        rw [value]
        exact samples t (isHeld ▸ memberT)
      refine ⟨k', raw, earlier, held, rfl, found', code, by rw [sameB, value], split, holds,
        ?_, ?_⟩
      · have count := congrArg List.length (touches_of_holds (b := k₀.b) holds)
        rw [List.length_replicate] at count
        have need : k'.need = k'.view.need := rfl
        rw [need, view, ← count]
        change _ ≤ (held.filterMap _).length
        rw [isHeld]
        exact enough
      · obtain ⟨k₁, found₁, sameB₁, view₁⟩ := exists_run strtoul start earlier
        refine ⟨k₁, found₁, ?_⟩
        have level : k₁.view.level = r.value := by
          rw [view₁, ← reached]
          unfold touches
          rw [isEarlier]
        change k₁.b.pressed k₁.rawPrev = r.value at level
        rw [sameB₁, ← value] at level
        exact GpioKeysButton.pressed_inj.mp level

theorem once_of_fresh (fresh : ∀ k ∈ s.btns, Fresh k) {before held : List Step} {i : Nat}
    {k : Btn} {raw : Bool} (found : (s.run strtoul before).btns[i]? = some k)
    (new : k.b.pressed raw ≠ k.state) (holds : ∀ st ∈ held, st.Holds strtoul i raw)
    (long : k.need + 1 ≤ polls held) :
    valuesOf i ((s.run strtoul before).reported strtoul held) = [k.b.pressed raw] := by
  obtain ⟨k₀, start⟩ := exists_of_run found
  obtain ⟨k', found', -, view⟩ := exists_run strtoul start before
  obtain rfl : k' = k := Option.some_inj.mp (found'.symm.trans found)
  have sound : k'.view.Sound := by
    rw [view]
    exact (fresh k₀ (List.mem_of_getElem? start)).sound.foldl _
  rw [values_reported strtoul found, touches_of_holds holds]
  exact Debounce.reports_held sound new long

end Runs

/-- From every probe that found its buttons the reports are clean. -/
theorem reportsClean (strtoul : List UInt8 → Nat × List UInt8) (d : Probed) :
    ReportsClean strtoul d.state := by
  obtain ⟨fresh, pollMs⟩ := probe_eq_ok d.probed
  refine ⟨fun run i => alternate_of_fresh fresh run i, need_run ?_, ?_, ?_⟩
  · intro k member
    rw [pollMs]
    exact (fresh k member).need
  · intro before st r member
    exact held_of_fresh fresh member
  · intro before held i k raw found new holds long
    exact once_of_fresh fresh found new holds long

end RlxFw.Keys
