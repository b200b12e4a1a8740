import RlxFw.Keys
import RlxFw.Debounce

/-!
# The buttons are debounced

Each button of the driver is a debouncer of the pressed and the released level, of either
polarity, whatever the other buttons and the `/proc` file do meanwhile.
-/

namespace RlxFw.Keys

open Debounce (Touch)

theorem GpioKeysButton.pressed_inj {b : GpioKeysButton} {raw raw' : Bool} :
    b.pressed raw = b.pressed raw' ↔ raw = raw' := by
  unfold pressed
  split <;> simp

/-! ## One button -/

/-- The debouncer that a button is. -/
def Btn.view (k : Btn) : Debounce Bool where
  level := k.b.pressed k.rawPrev
  settled := k.state
  stable := k.stable
  need := k.need
  need_pos := k.need_pos

section Button

variable (k : Btn) (raw : Bool)

@[simp]
theorem count_b : (k.count raw).b = k.b := by
  unfold Btn.count
  split
  · rfl
  · split <;> rfl

@[simp]
theorem poll_b : (k.poll raw).1.b = k.b := by
  unfold Btn.poll
  dsimp only
  split <;> exact count_b k raw

theorem view_count : (k.count raw).view = k.view.count (k.b.pressed raw) := by
  unfold Btn.count
  by_cases edge : raw ≠ k.rawPrev
  · rw [if_pos edge, Debounce.count_edge fun same => edge (k.b.pressed_inj.mp same)]
    rfl
  · have same : k.b.pressed raw = k.view.level := congrArg k.b.pressed (not_not.mp edge)
    rw [if_neg edge]
    by_cases few : k.stable < k.need
    · rw [if_pos few, Debounce.count_more same few]
      rfl
    · rw [if_neg few, Debounce.count_full same few]

theorem count_state : (k.count raw).state = k.state := by
  unfold Btn.count
  split
  · rfl
  · split <;> rfl

theorem count_need : (k.count raw).need = k.need := by
  unfold Btn.count
  split
  · rfl
  · split <;> rfl

/-- When a poll settles a level. -/
theorem settles_iff : (k.count raw).stable ≥ (k.count raw).need ∧
      k.b.pressed raw ≠ (k.count raw).state ↔
    k.view.need ≤ (k.view.count (k.b.pressed raw)).stable ∧
      k.b.pressed raw ≠ k.view.settled := by
  rw [← view_count, count_state, count_need]
  rfl

theorem report_poll : (k.poll raw).2 = k.view.report (.sample (k.b.pressed raw)) := by
  unfold Btn.poll
  dsimp only
  rw [count_b]
  split
  · next settles =>
    obtain ⟨full, new⟩ := (settles_iff k raw).mp settles
    exact (Debounce.report_sample full new).symm
  · next quiet => exact (Debounce.report_sample_none fun settles =>
      quiet ((settles_iff k raw).mpr settles)).symm

theorem view_poll : (k.poll raw).1.view = k.view.step (.sample (k.b.pressed raw)) := by
  have reported := report_poll k raw
  unfold Debounce.step
  dsimp only
  rw [← reported, ← view_count]
  unfold Btn.poll
  dsimp only
  split
  · rfl
  · change (k.count raw).view = { (k.count raw).view with settled := k.state }
    rw [← count_state k raw]
    rfl

end Button

/-! ## One step -/

/-- The values reported of a button. -/
def valuesOf (i : Nat) (reports : List Report) : List Bool :=
  reports.filterMap fun r => if r.button = i then some r.value else none

section Buttons

variable (readings : Nat → Reading) (first : Nat) (log : Log) (btns : List Btn)

theorem getElem?_pollButtons (i : Nat) : (pollButtons readings first log btns).1[i]? =
    btns[i]?.map fun k => (k.poll (rawOf (readings (first + i)).value)).1 := by
  induction btns generalizing first log i with
  | nil => rfl
  | cons k rest ih =>
      cases i with
      | zero => rfl
      | succ i =>
          unfold pollButtons
          rw [List.getElem?_cons_succ, List.getElem?_cons_succ, ih, Nat.add_right_comm,
            Nat.add_assoc]

variable {readings first log btns} in
theorem mem_pollButtons {r : Report} (member : r ∈ (pollButtons readings first log btns).2.2) :
    ∃ i k, r.button = first + i ∧ btns[i]? = some k ∧ r.code = k.b.code ∧
      (k.poll (rawOf (readings r.button).value)).2 = some r.value := by
  induction btns generalizing first log with
  | nil => simp [pollButtons] at member
  | cons k rest ih =>
      unfold pollButtons at member
      rcases List.mem_append.mp member with here | later
      · simp only [Option.mem_toList, Option.map_eq_some_iff] at here
        obtain ⟨pressed, polled, rfl⟩ := here
        exact ⟨0, k, rfl, rfl, rfl, polled⟩
      · obtain ⟨i, k', button, found, code, polled⟩ := ih later
        exact ⟨i + 1, k', by omega, found, code, polled⟩

theorem valuesOf_pollButtons (i : Nat) :
    valuesOf (first + i) (pollButtons readings first log btns).2.2 =
      (btns[i]?.bind fun k => (k.poll (rawOf (readings (first + i)).value)).2).toList := by
  induction btns generalizing first log i with
  | nil => rfl
  | cons k rest ih =>
      unfold pollButtons
      dsimp only
      unfold valuesOf
      rw [List.filterMap_append]
      cases i with
      | zero =>
          have others : (pollButtons readings (first + 1)
              (if rawOf (readings first).value ≠ k.rawPrev then
                log.edge (readings first).jiffies first (rawOf (readings first).value)
              else log) rest).2.2.filterMap
                (fun r => if r.button = first then some r.value else none) = [] := by
            rw [List.filterMap_eq_nil_iff]
            intro r member
            obtain ⟨i, -, button, -⟩ := mem_pollButtons member
            rw [if_neg (by omega)]
          rw [Nat.add_zero, others, List.append_nil]
          cases polled : (k.poll (rawOf (readings first).value)).2 <;> simp [polled]
      | succ i =>
          have own : ((k.poll (rawOf (readings first).value)).2.map fun pressed =>
              (⟨first, k.b.code, pressed⟩ : Report)).toList.filterMap
                (fun r => if r.button = first + (i + 1) then some r.value else none) = [] := by
            cases (k.poll (rawOf (readings first).value)).2 <;> simp
          rw [own, List.nil_append, List.getElem?_cons_succ]
          have place : first + 1 + i = first + (i + 1) := by omega
          have later (log : Log) := ih (first + 1) log i
          rw [place] at later
          exact later _

end Buttons

section Steps

variable (strtoul : List UInt8 → Nat × List UInt8)

/-- The interval that a write sets. -/
def intervalSet (bytes : List UInt8) (copied : Bool) : Option Nat :=
  if copied ∧ (ascii "interval ").isPrefixOf (lineOf bytes) then
    (intervalOf strtoul ((lineOf bytes).drop 9)).toOption
  else none

/-- Whether a write clears the counters. -/
def clears (bytes : List UInt8) (copied : Bool) : Prop := copied ∧ lineOf bytes = ascii "clear"

instance (bytes : List UInt8) (copied : Bool) : Decidable (clears bytes copied) :=
  inferInstanceAs (Decidable (_ ∧ _))

/-- What a write leaves of a button. -/
def Btn.written (k : Btn) (bytes : List UInt8) (copied : Bool) : Btn :=
  match intervalSet strtoul bytes copied with
  | some v => k.retune v
  | none => if clears bytes copied then k.clear else k

/-- What a step leaves of a button. -/
def Btn.after (i : Nat) (k : Btn) : Step → Btn
  | .poll readings _ => (k.poll (rawOf (readings i).value)).1
  | .flush pins => k.flush (rawOf (pins i))
  | .write bytes copied => k.written strtoul bytes copied

/-- A write does to each button what it does to it alone, and sets the interval. -/
theorem write_eq (bytes : List UInt8) (copied : Bool) (s : State) :
    (rtl819xKeysWriteProc strtoul bytes copied s).1.btns =
        s.btns.map (Btn.written strtoul · bytes copied) ∧
      (rtl819xKeysWriteProc strtoul bytes copied s).1.pollMs =
        (intervalSet strtoul bytes copied).getD s.pollMs := by
  unfold rtl819xKeysWriteProc dispatch Btn.written intervalSet clears
  cases copied with
  | false => simp
  | true =>
      simp only [not_true, if_false, true_and]
      generalize lineOf bytes = line
      by_cases interval : (ascii "interval ").isPrefixOf line = true
      · rw [if_pos interval, if_pos interval]
        unfold verbInterval
        cases intervalOf strtoul (line.drop 9) with
        | error e =>
            have other : ¬ line = ascii "clear" := by
              rintro rfl
              exact absurd interval (by decide)
            simp [Except.toOption, other]
        | ok v => simp [Except.toOption]
      · rw [if_neg interval, if_neg interval]
        by_cases clear : line = ascii "clear"
        · simp [clear, verbClear]
        · have shown : (if line = ascii "sample" then verbShow s
              else if line = ascii "irq" then verbShow s else (s, some .einval)).1 = s := by
            split
            · rfl
            · split <;> rfl
          rw [if_neg clear, shown]
          simp [clear]

/-- Every step does to a button what it does to it alone. -/
theorem getElem?_step (s : State) (i : Nat) (st : Step) :
    (s.step strtoul st).btns[i]? = s.btns[i]?.map (Btn.after strtoul i · st) := by
  cases st with
  | poll readings jiffies =>
      have polled := getElem?_pollButtons readings 0 s.log s.btns i
      rw [Nat.zero_add] at polled
      exact polled
  | flush pins => exact List.getElem?_mapIdx
  | write bytes copied =>
      change (rtl819xKeysWriteProc strtoul bytes copied s).1.btns[i]? = _
      rw [(write_eq strtoul bytes copied s).1, List.getElem?_map]
      rfl

/-- What a step is to a button's debouncer. -/
def Step.touch (b : GpioKeysButton) (i : Nat) : Step → Option (Touch Bool)
  | .poll readings _ => some (.sample (b.pressed (rawOf (readings i).value)))
  | .flush pins => some (.reseed (b.pressed (rawOf (pins i))))
  | .write bytes copied => (intervalSet strtoul bytes copied).map fun v =>
      .retune (needFor b.debounceInterval v) (needFor_pos _ _)

theorem written_b (k : Btn) (bytes : List UInt8) (copied : Bool) :
    (k.written strtoul bytes copied).b = k.b := by
  unfold Btn.written
  split
  · rfl
  · split <;> rfl

theorem need_poll (k : Btn) (raw : Bool) : (k.poll raw).1.need = k.need := by
  unfold Btn.poll
  dsimp only
  split <;> exact count_need k raw

theorem after_b (k : Btn) (i : Nat) (st : Step) : (k.after strtoul i st).b = k.b := by
  cases st with
  | poll readings jiffies => exact poll_b k _
  | flush pins => rfl
  | write bytes copied => exact written_b strtoul k bytes copied

/-- A step of the driver is a touch of a button's debouncer, or none. -/
theorem view_after (k : Btn) (i : Nat) (st : Step) :
    (k.after strtoul i st).view = (st.touch strtoul k.b i).elim k.view k.view.step := by
  cases st with
  | poll readings jiffies => exact view_poll k _
  | flush pins => rfl
  | write bytes copied =>
      unfold Step.touch Btn.after Btn.written
      dsimp only
      cases intervalSet strtoul bytes copied with
      | none =>
          dsimp only
          split <;> rfl
      | some v => rfl

theorem values_step (s : State) (i : Nat) (st : Step) :
    valuesOf i (s.reports st) =
      (s.btns[i]?.bind fun k => (st.touch strtoul k.b i).bind k.view.report).toList := by
  cases st with
  | poll readings jiffies =>
      have polled := valuesOf_pollButtons readings 0 s.log s.btns i
      rw [Nat.zero_add] at polled
      refine polled.trans ?_
      congr 2
      funext k
      exact report_poll k _
  | flush pins =>
      cases s.btns[i]? <;> rfl
  | write bytes copied =>
      cases s.btns[i]? with
      | none => rfl
      | some k =>
          cases set : intervalSet strtoul bytes copied <;>
            simp [Step.touch, set, State.reports, valuesOf, Debounce.report]

/-! ## Runs -/

/-- The touches of a button in a run. -/
def touches (b : GpioKeysButton) (i : Nat) (run : List Step) : List (Touch Bool) :=
  run.filterMap (Step.touch strtoul b i)

theorem run_cons (s : State) (st : Step) (rest : List Step) :
    s.run strtoul (st :: rest) = (s.step strtoul st).run strtoul rest := rfl

/-- A run of the driver is, to a button, a run of its debouncer. -/
theorem exists_run {s : State} {i : Nat} {k : Btn} (found : s.btns[i]? = some k)
    (run : List Step) : ∃ k', (s.run strtoul run).btns[i]? = some k' ∧ k'.b = k.b ∧
      k'.view = (touches strtoul k.b i run).foldl Debounce.step k.view := by
  induction run generalizing s k with
  | nil => exact ⟨k, found, rfl, rfl⟩
  | cons st rest ih =>
      have stepped : (s.step strtoul st).btns[i]? = some (k.after strtoul i st) := by
        rw [getElem?_step, found]
        rfl
      obtain ⟨k', found', sameB, view⟩ := ih stepped
      rw [after_b] at sameB view
      refine ⟨k', found', sameB, ?_⟩
      rw [view, view_after]
      unfold touches
      rw [List.filterMap_cons]
      cases st.touch strtoul k.b i <;> rfl

theorem values_reported {s : State} {i : Nat} {k : Btn} (found : s.btns[i]? = some k)
    (run : List Step) : valuesOf i (s.reported strtoul run) =
      k.view.reports (touches strtoul k.b i run) := by
  induction run generalizing s k with
  | nil => rfl
  | cons st rest ih =>
      have stepped : (s.step strtoul st).btns[i]? = some (k.after strtoul i st) := by
        rw [getElem?_step, found]
        rfl
      have later := ih stepped
      rw [after_b, view_after] at later
      have now := values_step strtoul s i st
      rw [found, Option.bind_some] at now
      unfold State.reported valuesOf
      rw [List.filterMap_append]
      change valuesOf i (s.reports st) ++ valuesOf i _ = _
      rw [now, later]
      unfold touches
      rw [List.filterMap_cons]
      cases st.touch strtoul k.b i <;> rfl

theorem values_unknown {s : State} {i : Nat} (unknown : s.btns[i]? = none) (run : List Step) :
    valuesOf i (s.reported strtoul run) = [] := by
  induction run generalizing s with
  | nil => rfl
  | cons st rest ih =>
      have stepped : (s.step strtoul st).btns[i]? = none := by
        rw [getElem?_step, unknown]
        rfl
      have now := values_step strtoul s i st
      rw [unknown] at now
      unfold State.reported valuesOf
      rw [List.filterMap_append]
      change valuesOf i (s.reports st) ++ valuesOf i _ = _
      rw [now, ih stepped]
      rfl

/-! ## As the probe leaves the buttons -/

/-- A button that is released and has counted nothing. -/
structure Fresh (k : Btn) : Prop where
  released : k.state = false
  unread : k.stable = 0
  need : k.need = needFor k.b.debounceInterval keysPollMs
  uncounted : k.nBounce = 0

end Steps

theorem fresh_probeButtons {calls : ProbeCalls} {buttons : List GpioKeysButton} {first : Nat}
    {btns : List Btn} (probed : probeButtons calls first buttons = .ok btns) :
    ∀ k ∈ btns, Fresh k := by
  induction buttons generalizing first btns with
  | nil =>
      obtain rfl : [] = btns := Except.ok.inj probed
      simp
  | cons b rest ih =>
      unfold probeButtons at probed
      repeat' (split at probed; · cases probed)
      cases others : probeButtons calls (first + 1) rest with
      | error e =>
          rw [others] at probed
          cases probed
      | ok btns' =>
          rw [others] at probed
          obtain rfl := Except.ok.inj probed
          intro k member
          rcases List.mem_cons.mp member with rfl | later
          · exact ⟨rfl, rfl, rfl, rfl⟩
          · exact ih others k later

/-- What the probe hands out. -/
theorem probe_eq_ok {calls : ProbeCalls} {buttons : Option (List GpioKeysButton)} {s : State}
    (probed : rtl819xKeysProbe calls buttons = .ok s) :
    (∀ k ∈ s.btns, Fresh k) ∧ s.pollMs = keysPollMs := by
  unfold rtl819xKeysProbe at probed
  cases buttons with
  | none => cases probed
  | some buttons =>
      dsimp only at probed
      split at probed
      · cases probed
      · cases taken : probeButtons calls 0 buttons with
        | error e =>
            rw [taken] at probed
            cases probed
        | ok btns =>
            rw [taken] at probed
            dsimp only at probed
            split at probed
            · cases probed
            · split at probed
              · cases probed
              · obtain rfl := Except.ok.inj probed
                exact ⟨fresh_probeButtons taken, rfl⟩

end RlxFw.Keys
