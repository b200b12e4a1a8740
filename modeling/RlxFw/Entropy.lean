import RlxFw.Prelude
import Mathlib.Data.Nat.Size
import Mathlib.Data.Int.ModEq
import Mathlib.Tactic.Ring

/-!
# The entropy source's credit policy

`rlxfw_entropy_event` of `drivers/char/rlxfw-entropy.c`, over series of events:
which events it counts as qualifying and what it credits, for a source whose
phase walks at a constant rate.
-/

namespace RlxFw.Entropy

/-- `RLXFW_ENT_SRC_NSRC`. -/
def srcNsrc : UInt32 := 1

/-- `RLXFW_ENT_PER_BIT`. -/
def perBit : Nat := 16

/-- `RLXFW_ENT_NBUCKET`. -/
def nbucket : Nat := 32

/-- The driver's counters and the series so far. -/
structure Ent where
  alive : Bool
  nEvent : UInt32 → Nat
  nBadsrc : Nat
  nEarly : Nat
  nQual : Nat
  nRepeat : Nat
  nClamped : Nat
  bits : Nat
  dist : Nat → Nat
  acc : Nat
  lastPhase : Nat
  lastD1 : Int
  lastD2 : Int
  nseen : Nat
  lastCreditJ : UInt32
  seq : UInt32

/-- The counters as the probe leaves them, which passed. -/
def Ent.probed : Ent where
  alive := true
  nEvent := fun _ => 0
  nBadsrc := 0
  nEarly := 0
  nQual := 0
  nRepeat := 0
  nClamped := 0
  bits := 0
  dist := fun _ => 0
  acc := 0
  lastPhase := 0
  lastD1 := 0
  lastD2 := 0
  nseen := 0
  lastCreditJ := 0
  seq := 0

/-- What goes to `rlxfw_random_add`. -/
structure Mixed where
  phase : Nat
  jiffies : UInt32
  tag : UInt32
  credit : Nat
deriving DecidableEq, Repr

/-- The event counted, and its sample tagged. -/
def Ent.arrive (s : Ent) (src : UInt32) : Ent :=
  { s with
    nEvent := fun i =>
      if i = src ∧ src < srcNsrc then s.nEvent i + 1 else s.nEvent i
    nBadsrc := if src < srcNsrc then s.nBadsrc else s.nBadsrc + 1
    seq := s.seq + 1 }

/-- The first difference of the phases. -/
def Ent.d1 (s : Ent) (phase : Nat) : Int := (phase : Int) - s.lastPhase

/-- The second. -/
def Ent.d2 (s : Ent) (phase : Nat) : Int := s.d1 phase - s.lastD1

/-- The third. -/
def Ent.d3 (s : Ent) (phase : Nat) : Int := s.d2 phase - s.lastD2

/-- The minimum of the three, absolute. -/
def Ent.least (s : Ent) (phase : Nat) : Nat :=
  min (min (s.d1 phase).natAbs (s.d2 phase).natAbs) (s.d3 phase).natAbs

/-- The bucket counted and the differences kept. -/
def Ent.measure (s : Ent) (phase : Nat) : Ent :=
  let b := min (Nat.size (s.least phase)) (nbucket - 1)
  { s with
    lastD1 := s.d1 phase, lastD2 := s.d2 phase
    dist := fun i => if i = b then s.dist i + 1 else s.dist i }

/-- An event that qualifies, and what it credits. -/
def Ent.qualify (s : Ent) (jiffies : UInt32) : Ent × Nat :=
  let s := { s with nQual := s.nQual + 1, acc := s.acc + 1 }
  if s.acc ≥ perBit then
    if jiffies ≠ s.lastCreditJ then
      ({ s with acc := 0, lastCreditJ := jiffies, bits := s.bits + 1 }, 1)
    else ({ s with acc := perBit, nClamped := s.nClamped + 1 }, 0)
  else (s, 0)

/-- What the phase of an event after the warm-up comes to. -/
def Ent.judge (s : Ent) (phase : Nat) (jiffies : UInt32) : Ent × Nat :=
  if s.least phase = 0 then
    ({ s.measure phase with nRepeat := s.nRepeat + 1 }, 0)
  else (s.measure phase).qualify jiffies

/-- `rlxfw_entropy_event`, of a phase of 28 bits. -/
def rlxfwEntropyEvent (src : UInt32) (phase : Nat) (jiffies : UInt32)
    (s : Ent) : Ent × Mixed :=
  let sample (credit : Nat) : Mixed :=
    { phase := phase, jiffies := jiffies
      tag := (src <<< 16) ||| (s.seq &&& 0xFFFF), credit := credit }
  let s := s.arrive src
  if ¬ s.alive then ({ s with nEarly := s.nEarly + 1 }, sample 0)
  else if s.nseen < 3 then
    ({ s with nseen := s.nseen + 1, lastPhase := phase }, sample 0)
  else
    ({ (s.judge phase jiffies).1 with lastPhase := phase },
      sample (s.judge phase jiffies).2)

/-! ## A phase that walks -/

/-- A start phase, a step and the period of the counter that is read. -/
structure Walk where
  start : Nat
  step : Nat
  period : Nat
  period_pos : 0 < period
  period_le : period ≤ 2 ^ 28

/-- The phase that the `n`-th event samples. -/
def Walk.phase (w : Walk) (n : Nat) : Nat :=
  (w.start + n * w.step) % w.period

/-- The driver after the first events of a walk. -/
def Walk.run (w : Walk) (src : UInt32) (jiffies : Nat → UInt32) : Nat → Ent
  | 0 => .probed
  | n + 1 =>
      (rlxfwEntropyEvent src (w.phase n) (jiffies n) (w.run src jiffies n)).1

/-- No event qualified and no bit was credited. -/
def Ent.Uncredited (s : Ent) : Prop := s.nQual = 0 ∧ s.bits = 0

/-- The phase does not move. -/
theorem Walk.phase_still {w : Walk} (still : w.period ∣ w.step) (n : Nat) :
    w.phase n = w.start % w.period := by
  obtain ⟨turns, whole⟩ := still
  unfold Walk.phase
  rw [whole, show w.start + n * (w.period * turns) =
    w.start + w.period * (n * turns) by ring, Nat.add_mul_mod_self_left]

/-- Two phases in a row differ unless the phase does not move. -/
theorem Walk.phase_moves {w : Walk} (moves : ¬ w.period ∣ w.step) (n : Nat) :
    w.phase (n + 1) ≠ w.phase n := by
  intro same
  apply moves
  have congruent : w.start + n * w.step + w.step ≡
      w.start + n * w.step + 0 [MOD w.period] := by
    unfold Walk.phase at same
    rw [show w.start + (n + 1) * w.step = w.start + n * w.step + w.step by
      ring] at same
    exact same
  exact (Nat.modEq_zero_iff_dvd).mp (Nat.ModEq.add_left_cancel' _ congruent)

/-! ## What a series earns -/

@[simp]
theorem measure_nQual (s : Ent) (phase : Nat) :
    (s.measure phase).nQual = s.nQual := rfl

@[simp]
theorem measure_bits (s : Ent) (phase : Nat) :
    (s.measure phase).bits = s.bits := rfl

theorem qualify_nQual (s : Ent) (jiffies : UInt32) :
    (s.qualify jiffies).1.nQual = s.nQual + 1 := by
  unfold Ent.qualify
  dsimp only
  split
  · split <;> rfl
  · rfl

/-- An event never takes a qualifying event back. -/
theorem nQual_le (src : UInt32) (phase : Nat) (jiffies : UInt32) (s : Ent) :
    s.nQual ≤ (rlxfwEntropyEvent src phase jiffies s).1.nQual := by
  unfold rlxfwEntropyEvent
  dsimp only
  split
  · exact le_rfl
  split
  · exact le_rfl
  unfold Ent.judge
  split
  · exact le_rfl
  · change s.nQual ≤ (((s.arrive src).measure phase).qualify jiffies).1.nQual
    rw [qualify_nQual]
    exact Nat.le_succ _

/-- Warming up, with nothing measured yet. -/
structure Warming (s : Ent) : Prop where
  alive : s.alive = true
  lastD1 : s.lastD1 = 0
  lastD2 : s.lastD2 = 0
  nQual : s.nQual = 0
  bits : s.bits = 0

theorem warming_run (w : Walk) (src : UInt32) (jiffies : Nat → UInt32) {n : Nat}
    (early : n ≤ 3) :
    Warming (w.run src jiffies n) ∧ (w.run src jiffies n).nseen = n ∧
      ∀ before, n = before + 1 →
        (w.run src jiffies n).lastPhase = w.phase before := by
  induction n with
  | zero => exact ⟨⟨rfl, rfl, rfl, rfl, rfl⟩, rfl, nofun⟩
  | succ n ih =>
      obtain ⟨⟨alive, d1, d2, nQual, bits⟩, nseen, _⟩ := ih (by omega)
      have event : w.run src jiffies (n + 1) =
          { (w.run src jiffies n).arrive src with
            nseen := n + 1, lastPhase := w.phase n } := by
        rw [Walk.run, rlxfwEntropyEvent]
        dsimp only
        rw [if_neg (by simp [Ent.arrive, alive]), if_pos]
        · simp [Ent.arrive, nseen]
        · simp only [Ent.arrive, nseen]
          omega
      rw [event]
      refine ⟨⟨alive, d1, d2, nQual, bits⟩, rfl, ?_⟩
      rintro before ⟨⟩
      rfl

/-- The first event past the warm-up is measured against differences that the
warm-up did not keep, so it qualifies as soon as the phase moved. -/
theorem qualifies_fourth {w : Walk} (moves : ¬ w.period ∣ w.step) (src : UInt32)
    (jiffies : Nat → UInt32) : (w.run src jiffies 4).nQual = 1 := by
  obtain ⟨⟨alive, lastD1, lastD2, nQual, _⟩, nseen, last⟩ :=
    warming_run w src jiffies (le_refl 3)
  have moved : (w.phase 3 : Int) - w.phase 2 ≠ 0 := by
    intro still
    have same : w.phase 3 = w.phase 2 := by omega
    exact w.phase_moves moves 2 same
  have d1 : (w.run src jiffies 3).d1 (w.phase 3) =
      (w.phase 3 : Int) - w.phase 2 := by
    rw [Ent.d1, last 2 rfl]
  have least : ((w.run src jiffies 3).arrive src).least (w.phase 3) ≠ 0 := by
    change (w.run src jiffies 3).least (w.phase 3) ≠ 0
    unfold Ent.least Ent.d3 Ent.d2
    rw [lastD1, lastD2, d1]
    simp only [sub_zero, min_self]
    exact Int.natAbs_ne_zero.mpr moved
  rw [Walk.run, rlxfwEntropyEvent]
  dsimp only
  rw [if_neg (by simp [Ent.arrive, alive]), if_neg (by simp [Ent.arrive, nseen]),
    Ent.judge, if_neg least]
  change (((w.run src jiffies 3).arrive src).measure (w.phase 3) |>.qualify
    (jiffies 3)).1.nQual = 1
  rw [qualify_nQual]
  change (w.run src jiffies 3).nQual + 1 = 1
  rw [nQual]

/-- A phase that does not move is measured as still. -/
theorem uncredited_still {w : Walk} (still : w.period ∣ w.step) (src : UInt32)
    (jiffies : Nat → UInt32) (n : Nat) :
    (w.run src jiffies n).Uncredited ∧ (w.run src jiffies n).alive = true ∧
      (0 < n → (w.run src jiffies n).lastPhase = w.start % w.period) ∧
      (w.run src jiffies n).nseen = min n 3 := by
  induction n with
  | zero => exact ⟨⟨rfl, rfl⟩, rfl, nofun, rfl⟩
  | succ n ih =>
      obtain ⟨⟨nQual, bits⟩, alive, last, nseen⟩ := ih
      have phase := w.phase_still still n
      rw [Walk.run, rlxfwEntropyEvent]
      dsimp only
      rw [if_neg (by simp [Ent.arrive, alive])]
      by_cases warm : ((w.run src jiffies n).arrive src).nseen < 3
      · have few : (w.run src jiffies n).nseen < 3 := warm
        rw [if_pos warm]
        refine ⟨⟨nQual, bits⟩, alive, fun _ => phase, ?_⟩
        change (w.run src jiffies n).nseen + 1 = _
        omega
      · have many : ¬ (w.run src jiffies n).nseen < 3 := warm
        have least : ((w.run src jiffies n).arrive src).least (w.phase n) = 0 := by
          have d1 : ((w.run src jiffies n).arrive src).d1 (w.phase n) = 0 := by
            change (w.phase n : Int) - (w.run src jiffies n).lastPhase = 0
            rw [phase, last (by omega), sub_self]
          unfold Ent.least
          rw [d1]
          simp
        rw [if_neg warm, Ent.judge, if_pos least]
        refine ⟨⟨nQual, bits⟩, alive, fun _ => phase, ?_⟩
        change (w.run src jiffies n).nseen = _
        omega

/-- A walk earns nothing exactly when it is over before the fourth event or
its phase does not move. -/
theorem constant_walk_uncredited_iff (w : Walk) (src : UInt32)
    (jiffies : Nat → UInt32) (n : Nat) :
    (w.run src jiffies n).Uncredited ↔ n ≤ 3 ∨ w.period ∣ w.step := by
  constructor
  · intro uncredited
    by_contra neither
    push Not at neither
    obtain ⟨late, moves⟩ := neither
    have grows : ∀ more, 1 ≤ (w.run src jiffies (4 + more)).nQual := by
      intro more
      induction more with
      | zero => exact (qualifies_fourth moves src jiffies).ge
      | succ more ih => exact ih.trans (nQual_le _ _ _ _)
    have qualified := grows (n - 4)
    rw [show 4 + (n - 4) = n by omega, uncredited.1] at qualified
    omega
  · rintro (early | still)
    · obtain ⟨warming, _⟩ := warming_run w src jiffies early
      exact ⟨warming.nQual, warming.bits⟩
    · exact (uncredited_still still src jiffies n).1

/-- A phase that takes turns between two values, half a period apart: a
constant step. -/
def halfTurns : Walk where
  start := 0
  step := 2 ^ 27
  period := 2 ^ 28
  period_pos := by decide
  period_le := le_rfl

/-- Its nineteenth event is the sixteenth to qualify, and is credited a bit. -/
theorem constant_walk_credited :
    (halfTurns.run 0 (fun _ => 1) 19).nQual = 16 ∧
      (halfTurns.run 0 (fun _ => 1) 19).bits = 1 ∧
      ¬ (halfTurns.run 0 (fun _ => 1) 19).Uncredited := by
  unfold Ent.Uncredited
  decide

end RlxFw.Entropy
