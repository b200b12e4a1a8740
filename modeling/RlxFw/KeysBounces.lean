import RlxFw.KeysReports

/-!
# What the bounce counter counts

The counter compares the raw level that an edge leaves with the debounced state, which is a
logical one.  It is measured here against the edges that leave a pending level too early.
-/

namespace RlxFw.Keys

/-- An edge leaves a level that was read at fewer polls than needed. -/
def Btn.LeavesEarly (k : Btn) (raw : Bool) : Prop := raw ≠ k.rawPrev ∧ k.stable < k.need

/-- The level that it leaves is not the debounced state: a bounce. -/
def Btn.Bounces (k : Btn) (raw : Bool) : Prop :=
  k.LeavesEarly raw ∧ k.b.pressed k.rawPrev ≠ k.state

instance (k : Btn) (raw : Bool) : Decidable (k.LeavesEarly raw) :=
  inferInstanceAs (Decidable (_ ∧ _))

instance (k : Btn) (raw : Bool) : Decidable (k.Bounces raw) :=
  inferInstanceAs (Decidable (_ ∧ _))

/-! ## One poll -/

section Poll

variable (k : Btn) (raw : Bool)

/-- What the source counts. -/
theorem nBounce_poll : (k.poll raw).1.nBounce =
    if k.LeavesEarly raw ∧ k.rawPrev ≠ k.state then k.nBounce + 1 else k.nBounce := by
  have counted : (k.poll raw).1.nBounce = (k.count raw).nBounce := by
    unfold Btn.poll
    dsimp only
    split <;> rfl
  rw [counted]
  unfold Btn.count
  by_cases edge : raw ≠ k.rawPrev
  · have early : (k.LeavesEarly raw ∧ k.rawPrev ≠ k.state) =
        (k.stable < k.need ∧ k.rawPrev ≠ k.state) := by
      unfold Btn.LeavesEarly
      rw [and_assoc]
      exact propext (and_iff_right edge)
    rw [if_pos edge]
    simp only [early]
  · have late : ¬ (k.LeavesEarly raw ∧ k.rawPrev ≠ k.state) := fun both => edge both.1.1
    rw [if_neg edge, if_neg late]
    split <;> rfl

variable {k raw}

theorem bounces_of_activeHigh (high : k.b.activeLow = false) :
    k.LeavesEarly raw ∧ k.rawPrev ≠ k.state ↔ k.Bounces raw := by
  unfold Btn.Bounces GpioKeysButton.pressed
  simp [high]

/-- An active-low button is counted the wrong way round. -/
theorem bounces_of_activeLow (low : k.b.activeLow = true) (early : k.LeavesEarly raw) :
    k.Bounces raw ↔ ¬ (k.LeavesEarly raw ∧ k.rawPrev ≠ k.state) := by
  unfold Btn.Bounces GpioKeysButton.pressed
  rw [if_pos low]
  have flipped : ∀ level state : Bool, (!level) ≠ state ↔ ¬ level ≠ state := by decide
  simp only [early, true_and, flipped]

end Poll

/-! ## Runs -/

section Runs

variable (strtoul : List UInt8 → Nat × List UInt8) (i : Nat)

/-- The bounces of a button counted on over a step. -/
def State.tally (s : State) (n : Nat) : Step → Nat
  | .poll readings _ =>
      match s.btns[i]? with
      | some k => if k.Bounces (rawOf (readings i).value) then n + 1 else n
      | none => n
  | .flush _ => n
  | .write bytes copied => if clears bytes copied then 0 else n

/-- The bounces of a button counted on over a run. -/
def State.bounces (s : State) (n : Nat) : List Step → Nat
  | [] => n
  | st :: rest => (s.step strtoul st).bounces (s.tally i n st) rest

/-- The counter of a button is right after a run: the bounces since the counters were last
cleared, in an `unsigned long`. -/
def BouncesCounted (s : State) (run : List Step) : Prop :=
  ∀ k, (s.run strtoul run).btns[i]? = some k →
    k.nBounce = UInt32.ofNat (s.bounces strtoul i 0 run)

theorem run_append_singleton (s : State) (run : List Step) (st : Step) :
    s.run strtoul (run ++ [st]) = (s.run strtoul run).step strtoul st := by
  simp [State.run]

theorem bounces_append_singleton (s : State) (n : Nat) (run : List Step) (st : Step) :
    s.bounces strtoul i n (run ++ [st]) =
      (s.run strtoul run).tally i (s.bounces strtoul i n run) st := by
  induction run generalizing s n with
  | nil => rfl
  | cons first rest ih => exact ih _ _

theorem nBounce_written (k : Btn) (bytes : List UInt8) (copied : Bool) :
    (k.written strtoul bytes copied).nBounce = if clears bytes copied then 0 else k.nBounce := by
  unfold Btn.written
  cases set : intervalSet strtoul bytes copied with
  | none =>
      dsimp only
      split <;> rfl
  | some v =>
      have other : ¬ clears bytes copied := by
        rintro ⟨-, line⟩
        have noInterval : ¬ (ascii "interval ").isPrefixOf (ascii "clear") = true := by decide
        unfold intervalSet at set
        rw [line, if_neg fun both => noInterval both.2] at set
        cases set
      dsimp only
      rw [if_neg other]
      rfl

theorem tally_poll {s : State} {k : Btn} (found : s.btns[i]? = some k) (n : Nat)
    (readings : Nat → Reading) (jiffies : UInt32) :
    s.tally i n (.poll readings jiffies) =
      if k.Bounces (rawOf (readings i).value) then n + 1 else n := by
  unfold State.tally
  simp only [found]

variable {strtoul i}

/-- A step that counts as it should keeps the counter right. -/
theorem counted_step {s : State} {n : Nat} {k : Btn} {st : Step} (found : s.btns[i]? = some k)
    (counted : k.nBounce = UInt32.ofNat n)
    (right : ∀ readings jiffies, st = .poll readings jiffies →
      (k.LeavesEarly (rawOf (readings i).value) ∧ k.rawPrev ≠ k.state ↔
        k.Bounces (rawOf (readings i).value))) :
    (k.after strtoul i st).nBounce = UInt32.ofNat (s.tally i n st) := by
  cases st with
  | poll readings jiffies =>
      rw [tally_poll i found]
      unfold Btn.after
      dsimp only
      rw [nBounce_poll]
      simp only [right readings jiffies rfl]
      split
      · rw [counted, UInt32.ofNat_add]
        rfl
      · exact counted
  | flush pins => exact counted
  | write bytes copied =>
      unfold State.tally Btn.after
      dsimp only
      rw [nBounce_written]
      split
      · rfl
      · exact counted

/-- At an early edge of an active-low button the counter and the bounces part. -/
theorem miscounted_poll {s : State} {n : Nat} {k : Btn} {readings : Nat → Reading}
    {jiffies : UInt32} (found : s.btns[i]? = some k) (counted : k.nBounce = UInt32.ofNat n)
    (low : k.b.activeLow = true) (early : k.LeavesEarly (rawOf (readings i).value)) :
    (k.after strtoul i (.poll readings jiffies)).nBounce ≠
      UInt32.ofNat (s.tally i n (.poll readings jiffies)) := by
  have flipped := bounces_of_activeLow low early
  have moves (x : UInt32) : x + 1 ≠ x := by
    intro same
    have zero : x + 1 = x + 0 := same.trans (UInt32.add_zero x).symm
    exact absurd (UInt32.add_right_inj x |>.mp zero) (by decide)
  rw [tally_poll i found]
  unfold Btn.after
  dsimp only
  rw [nBounce_poll]
  by_cases bounced : k.Bounces (rawOf (readings i).value)
  · rw [if_pos bounced, if_neg (flipped.mp bounced), counted, UInt32.ofNat_add]
    exact (moves _).symm
  · rw [if_neg bounced, if_pos (not_not.mp fun quiet => bounced (flipped.mpr quiet)), counted]
    exact moves _

end Runs

/-- The counter of a button is right after every prefix of a run exactly when the button is
active-high, or no edge of the run leaves a level too early. -/
theorem bouncesCounted_iff (strtoul : List UInt8 → Nat × List UInt8) (d : Probed) (i : Nat)
    (run : List Step) :
    (∀ before, before <+: run → BouncesCounted strtoul i d.state before) ↔
      ∀ before readings jiffies k, before ++ [.poll readings jiffies] <+: run →
        (d.state.run strtoul before).btns[i]? = some k → k.b.activeLow = true →
        ¬ k.LeavesEarly (rawOf (readings i).value) := by
  constructor
  · intro counted before readings jiffies k isPrefix found low early
    have start := counted before ((List.prefix_append _ _).trans isPrefix) k found
    have stepped : (d.state.run strtoul (before ++ [.poll readings jiffies])).btns[i]? =
        some (k.after strtoul i (.poll readings jiffies)) := by
      rw [run_append_singleton, getElem?_step, found]
      rfl
    have after := counted _ isPrefix _ stepped
    rw [bounces_append_singleton] at after
    exact miscounted_poll found start low early after
  · intro quiet before isPrefix
    induction before using List.reverseRecOn with
    | nil =>
        intro k found
        exact ((probe_eq_ok d.probed).1 k (List.mem_of_getElem? found)).uncounted
    | append_singleton before st ih =>
        intro k found
        rw [run_append_singleton, getElem?_step] at found
        obtain ⟨k₀, found₀, rfl⟩ := Option.map_eq_some_iff.mp found
        have start := ih ((List.prefix_append _ _).trans isPrefix) k₀ found₀
        rw [bounces_append_singleton]
        refine counted_step found₀ start ?_
        rintro readings jiffies rfl
        cases polarity : k₀.b.activeLow with
        | false => exact bounces_of_activeHigh polarity
        | true =>
            have late := quiet before readings jiffies k₀ isPrefix found₀ polarity
            exact ⟨fun both => absurd both.1 late, fun bounced => absurd bounced.1 late⟩

/-- The reset button of the board. -/
def resetButton : GpioKeysButton where
  code := 0x198
  activeLow := true
  type := evKey
  wakeup := false
  debounceInterval := 100

/-- The board's driver, probed with the button released. -/
def board : Probed where
  calls := ⟨fun _ => 0, fun _ => 0, fun _ => 1, true, 0⟩
  buttons := some [resetButton]
  state :=
    { btns := [.probed resetButton true]
      pollMs := keysPollMs
      pollInterval := keysPollMs
      bootRaw := true
      nOpen := 0
      nPoll := 0
      jFirst := 0
      jLast := 0
      log := .zero }
  probed := rfl

/-- Polls that read a level at every pin. -/
def pollsAt (values : List Int) : List Step :=
  values.map fun value => .poll (fun _ => ⟨value, 0⟩) 0

/-- A press that bounces back after one poll, which the counter does not see. -/
theorem bounce_uncounted :
    ¬ BouncesCounted (fun s => (0, s)) 0 board.state
      (.flush (fun _ => 1) :: pollsAt [1, 1, 0, 1]) := by
  intro counted
  exact absurd (counted _ rfl) (by decide)

end RlxFw.Keys
