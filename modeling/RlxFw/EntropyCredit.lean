import RlxFw.Entropy
import RlxFw.Metered

/-!
# What the entropy source may credit

`drivers/char/rlxfw-entropy.c` from its boot on: the probe that brings it to life, and
events in any order.  Its accumulator is the potential that pays for the credits.
-/

namespace RlxFw.Entropy

/-- The driver's state as the kernel loads it. -/
def Ent.booted : Ent := { Ent.probed with alive := false }

/-- What the timer's registers read in the probe, the counter's one read after another,
and the time when it is over. -/
structure Probe where
  tccnr : UInt32
  tc0data : UInt32
  cdbr : UInt32
  tc0cnt : Nat → UInt32
  jiffies : UInt32

/-- The words that the probe keeps for `/proc`. -/
structure ProbeWords where
  tccnr : UInt32
  tc0data : UInt32
  cdbr : UInt32
  reads : Nat
deriving DecidableEq, Repr

/-- `rlxfw_ent_phase`. -/
def rlxfwEntPhase (tc0cnt : UInt32) : UInt32 := tc0cnt >>> 4

/-- The probe's loop from a read on: the first read that differs, or the one past the
last. -/
def probeLoop (tc0cnt : Nat → UInt32) (i : Nat) : Nat → Nat
  | 0 => i
  | left + 1 =>
      if rlxfwEntPhase (tc0cnt i) ≠ rlxfwEntPhase (tc0cnt 0) then i
      else probeLoop tc0cnt (i + 1) left

/-- The registers look like those of the timer. -/
def Probe.LooksRight (p : Probe) : Prop :=
  p.tccnr &&& ((1 : UInt32) <<< 31) ≠ 0 ∧ p.tc0data &&& ((1 : UInt32) <<< 4 - 1) = 0 ∧
    p.tc0data >>> 4 ≠ 0

instance (p : Probe) : Decidable p.LooksRight :=
  inferInstanceAs (Decidable (_ ∧ _ ∧ _))

/-- `rlxfw_entropy_init`. -/
def rlxfwEntropyInit (p : Probe) (s : Ent) : Ent × ProbeWords :=
  let words (reads : Nat) : ProbeWords := ⟨p.tccnr, p.tc0data, p.cdbr, reads⟩
  if p.LooksRight then
    let i := probeLoop p.tc0cnt 1 65536
    if i ≤ 65536 then
      ({ s with
        lastPhase := (rlxfwEntPhase (p.tc0cnt i)).toNat
        lastCreditJ := p.jiffies
        alive := true }, words i)
    else (s, words i)
  else (s, words 0)

/-- What happens to the driver: the probe, or an event with what the counter and the clock
read at it. -/
inductive Happening where
  | probe (p : Probe)
  | event (src tc0cnt jiffies : UInt32)

namespace Happening

/-- The time of it. -/
def jiffies : Happening → UInt32
  | .probe p => p.jiffies
  | .event _ _ jiffies => jiffies

/-- The state it leaves. -/
def after (s : Ent) : Happening → Ent
  | .probe p => (rlxfwEntropyInit p s).1
  | .event src tc0cnt jiffies =>
      (rlxfwEntropyEvent src (rlxfwEntPhase tc0cnt).toNat jiffies s).1

/-- The bits that it hands to `rlxfw_random_add`. -/
def credit (s : Ent) : Happening → Nat
  | .probe _ => 0
  | .event src tc0cnt jiffies =>
      (rlxfwEntropyEvent src (rlxfwEntPhase tc0cnt).toNat jiffies s).2.credit

/-- One for an event past the warm-up whose phase is not regular to the third order. -/
def qualifying (s : Ent) : Happening → Nat
  | .probe _ => 0
  | .event _ tc0cnt _ =>
      if s.alive ∧ ¬ s.nseen < 3 ∧ s.least (rlxfwEntPhase tc0cnt).toNat ≠ 0 then 1 else 0

end Happening

/-- The state after a run. -/
def Ent.runs (s : Ent) (run : List Happening) : Ent := run.foldl Happening.after s

/-- The bits credited in a run. -/
def Ent.credited (s : Ent) (run : List Happening) : Nat :=
  Metered.total Happening.after Happening.credit s run

/-- The events of a run that qualify. -/
def Ent.qualifying (s : Ent) (run : List Happening) : Nat :=
  Metered.total Happening.after Happening.qualifying s run

/-! ## One step -/

/-- What a step may do to the accumulator and the time of the last credit. -/
structure Pays (s : Ent) (jiffies : UInt32) (qualifying : Nat) (s' : Ent) (credit : Nat) :
    Prop where
  held : s'.acc ≤ perBit
  paid : perBit * credit + s'.acc ≤ s.acc + qualifying
  bits : s'.bits = s.bits + credit
  nQual : s'.nQual = s.nQual + qualifying
  once : credit = 0 ∨ credit = 1 ∧ s.lastCreditJ ≠ jiffies
  last : s'.lastCreditJ = s.lastCreditJ ∧ credit = 0 ∨ s'.lastCreditJ = jiffies

theorem pays_qualify (s : Ent) (jiffies : UInt32) :
    Pays s jiffies 1 (s.qualify jiffies).1 (s.qualify jiffies).2 := by
  unfold Ent.qualify
  dsimp only
  split
  · next full =>
    split
    · next later =>
      refine ⟨Nat.zero_le _, ?_, rfl, rfl, .inr ⟨rfl, later.symm⟩, .inr rfl⟩
      change perBit * 1 + 0 ≤ _
      rw [Nat.mul_one]
      exact full
    · refine ⟨le_rfl, ?_, rfl, rfl, .inl rfl, .inl ⟨rfl, rfl⟩⟩
      change perBit * 0 + perBit ≤ _
      rw [Nat.mul_zero, Nat.zero_add]
      exact full
  · next short =>
    have few : s.acc + 1 < perBit := Nat.not_le.mp short
    exact ⟨few.le, by simp, rfl, rfl, .inl rfl, .inl ⟨rfl, rfl⟩⟩

/-- A step that leaves the accumulator, the counts and the credit alone. -/
theorem pays_idle {s s' : Ent} (held : s.acc ≤ perBit) (jiffies : UInt32)
    (acc : s'.acc = s.acc) (bits : s'.bits = s.bits) (nQual : s'.nQual = s.nQual)
    (last : s'.lastCreditJ = s.lastCreditJ ∨ s'.lastCreditJ = jiffies) :
    Pays s jiffies 0 s' 0 where
  held := acc.trans_le held
  paid := by simp [acc]
  bits := bits
  nQual := nQual
  once := .inl rfl
  last := last.imp (fun same => ⟨same, rfl⟩) id

theorem pays_judge {s : Ent} (held : s.acc ≤ perBit) (phase : Nat) (jiffies : UInt32) :
    Pays s jiffies (if s.least phase ≠ 0 then 1 else 0) (s.judge phase jiffies).1
      (s.judge phase jiffies).2 := by
  unfold Ent.judge
  by_cases still : s.least phase = 0
  · rw [if_pos still, if_neg (not_not.mpr still)]
    exact pays_idle held jiffies rfl rfl rfl (.inl rfl)
  · rw [if_neg still, if_pos still]
    obtain ⟨held', paid, bits, nQual, once, last⟩ :=
      pays_qualify (s.measure phase) jiffies
    exact ⟨held', paid, bits, nQual, once, last⟩

theorem pays_event {s : Ent} (held : s.acc ≤ perBit) (src tc0cnt jiffies : UInt32) :
    Pays s jiffies ((Happening.event src tc0cnt jiffies).qualifying s)
      ((Happening.event src tc0cnt jiffies).after s)
      ((Happening.event src tc0cnt jiffies).credit s) := by
  unfold Happening.qualifying Happening.after Happening.credit rlxfwEntropyEvent
  dsimp only
  generalize (rlxfwEntPhase tc0cnt).toNat = phase
  by_cases alive : s.alive = true
  · have arrived : ¬ ¬ (s.arrive src).alive = true := not_not.mpr alive
    rw [if_neg arrived]
    by_cases warm : s.nseen < 3
    · have warming : (s.arrive src).nseen < 3 := warm
      rw [if_pos warming, if_neg (by simp [warm])]
      exact pays_idle held jiffies rfl rfl rfl (.inl rfl)
    · have warmed : ¬ (s.arrive src).nseen < 3 := warm
      rw [if_neg warmed]
      have least : (s.alive = true ∧ ¬ s.nseen < 3 ∧ s.least phase ≠ 0) =
          ((s.arrive src).least phase ≠ 0) :=
        propext ⟨fun all => all.2.2, fun moved => ⟨alive, warm, moved⟩⟩
      simp only [least]
      obtain ⟨held', paid, bits, nQual, once, last⟩ :=
        pays_judge (s := s.arrive src) held phase jiffies
      exact ⟨held', paid, bits, nQual, once, last⟩
  · have dead : ¬ (s.arrive src).alive = true := alive
    rw [if_pos dead, if_neg (by simp [alive])]
    exact pays_idle held jiffies rfl rfl rfl (.inl rfl)

/-- Every step pays for what it credits. -/
theorem pays {s : Ent} (held : s.acc ≤ perBit) (h : Happening) :
    Pays s h.jiffies (h.qualifying s) (h.after s) (h.credit s) := by
  cases h with
  | probe p =>
      unfold Happening.after rlxfwEntropyInit
      dsimp only
      split
      · split
        · exact pays_idle held _ rfl rfl rfl (.inr rfl)
        · exact pays_idle held _ rfl rfl rfl (.inl rfl)
      · exact pays_idle held _ rfl rfl rfl (.inl rfl)
  | event src tc0cnt jiffies => exact pays_event held src tc0cnt jiffies

/-! ## Runs -/

section Runs

variable {s : Ent} {run : List Happening}

theorem acc_le_runs (held : s.acc ≤ perBit) (run : List Happening) :
    (s.runs run).acc ≤ perBit :=
  List.foldlRecOn (motive := fun s => s.acc ≤ perBit) run Happening.after held
    fun _ held h _ => (pays held h).held

theorem acc_booted : Ent.booted.acc ≤ perBit := Nat.zero_le _

theorem acc_le_booted (run : List Happening) : (Ent.booted.runs run).acc ≤ perBit :=
  acc_le_runs acc_booted run

/-- The events that qualify in a run, and what was held before it, pay for its credits. -/
theorem credited_add_le (held : s.acc ≤ perBit) (run : List Happening) :
    perBit * s.credited run + (s.runs run).acc ≤ s.acc + s.qualifying run :=
  Metered.total_add_le (fun s : Ent => s.acc ≤ perBit) Ent.acc perBit
    (fun h _ _ held => (pays held h).held) (fun h _ _ held => (pays held h).paid) held

/-- A credit leaves none to the rest of its jiffy. -/
theorem credited_le_one (held : s.acc ≤ perBit) {jiffies : UInt32}
    (still : ∀ h ∈ run, h.jiffies = jiffies) : s.credited run ≤ 1 := by
  have spent : s.credited run ≤ if s.lastCreditJ = jiffies then 0 else 1 := by
    apply Metered.total_le_potential (fun s : Ent => s.acc ≤ perBit)
      (fun s : Ent => if s.lastCreditJ = jiffies then 0 else 1)
    · exact fun h _ _ held => (pays held h).held
    · intro h member s held
      have pays := pays held h
      rw [still h member] at pays
      rcases pays.last with ⟨same, nothing⟩ | now
      · rw [same, nothing, Nat.zero_add]
      · rw [if_pos now, Nat.add_zero]
        rcases pays.once with nothing | ⟨one, before⟩
        · rw [nothing]
          exact Nat.zero_le _
        · rw [one, if_neg before]
    · exact held
  exact spent.trans (by split <;> simp)

/-- The counters that `/proc` shows. -/
theorem counters_runs (held : s.acc ≤ perBit) (run : List Happening) :
    (s.runs run).bits = s.bits + s.credited run ∧
      (s.runs run).nQual = s.nQual + s.qualifying run := by
  constructor
  · exact Metered.counter_foldl (fun s : Ent => s.acc ≤ perBit)
      (fun h _ _ held => (pays held h).held) (fun h _ _ held => (pays held h).bits) held
  · exact Metered.counter_foldl (fun s : Ent => s.acc ≤ perBit)
      (fun h _ _ held => (pays held h).held) (fun h _ _ held => (pays held h).nQual) held

end Runs

/-! ## The probe -/

/-- The registers look right and the counter was seen to move. -/
def Probe.Passes (p : Probe) : Prop :=
  p.LooksRight ∧
    ∃ i, 1 ≤ i ∧ i ≤ 65536 ∧ rlxfwEntPhase (p.tc0cnt i) ≠ rlxfwEntPhase (p.tc0cnt 0)

/-- Where the loop ends: at the first read that differs, if there is one. -/
theorem probeLoop_le_iff (tc0cnt : Nat → UInt32) (i left : Nat) :
    probeLoop tc0cnt i left < i + left ↔
      ∃ j, i ≤ j ∧ j < i + left ∧ rlxfwEntPhase (tc0cnt j) ≠ rlxfwEntPhase (tc0cnt 0) := by
  induction left generalizing i with
  | zero =>
      unfold probeLoop
      simp only [Nat.add_zero, Nat.lt_irrefl, false_iff]
      rintro ⟨j, from_, before, -⟩
      omega
  | succ left ih =>
      unfold probeLoop
      split
      · next differs => exact ⟨fun _ => ⟨i, le_rfl, by omega, differs⟩, fun _ => by omega⟩
      · next same =>
        rw [show i + (left + 1) = i + 1 + left by omega, ih]
        constructor
        · rintro ⟨j, later, before, differs⟩
          exact ⟨j, by omega, before, differs⟩
        · rintro ⟨j, later, before, differs⟩
          have other : j ≠ i := fun this => same (this ▸ differs)
          exact ⟨j, by omega, before, differs⟩

/-- The probe brings the driver to life when it passes, and else leaves it as it was. -/
theorem alive_rlxfwEntropyInit (p : Probe) (s : Ent) :
    (rlxfwEntropyInit p s).1.alive = true ↔ s.alive = true ∨ p.Passes := by
  have loop := probeLoop_le_iff p.tc0cnt 1 65536
  have moved : (∃ i, 1 ≤ i ∧ i ≤ 65536 ∧
      rlxfwEntPhase (p.tc0cnt i) ≠ rlxfwEntPhase (p.tc0cnt 0)) ↔
        probeLoop p.tc0cnt 1 65536 ≤ 65536 := by
    rw [← Nat.lt_succ_iff, ← Nat.one_add, loop]
    simp only [Nat.one_add, Nat.lt_succ_iff]
  unfold rlxfwEntropyInit Probe.Passes
  rw [moved]
  dsimp only
  split
  · next right =>
    split
    · next early => simp [right, early]
    · next late => simp [late]
  · next wrong => simp [wrong]

theorem alive_qualify (s : Ent) (jiffies : UInt32) :
    (s.qualify jiffies).1.alive = s.alive := by
  unfold Ent.qualify
  dsimp only
  split
  · split <;> rfl
  · rfl

theorem alive_judge (s : Ent) (phase : Nat) (jiffies : UInt32) :
    (s.judge phase jiffies).1.alive = s.alive := by
  unfold Ent.judge
  split
  · rfl
  · exact alive_qualify _ jiffies

theorem alive_event (s : Ent) (src tc0cnt jiffies : UInt32) :
    ((Happening.event src tc0cnt jiffies).after s).alive = s.alive := by
  unfold Happening.after rlxfwEntropyEvent
  dsimp only
  split
  · rfl
  · split
    · rfl
    · exact alive_judge _ _ jiffies

/-- An event before the driver is alive credits nothing. -/
theorem credit_of_dead {s : Ent} (dead : s.alive = false) (h : Happening) :
    h.credit s = 0 := by
  cases h with
  | probe p => rfl
  | event src tc0cnt jiffies =>
      have early : ¬ (s.arrive src).alive = true := by simp [Ent.arrive, dead]
      unfold Happening.credit rlxfwEntropyEvent
      dsimp only
      rw [if_pos early]

/-- Nothing is credited in a run in which no probe passes. -/
theorem credited_unprobed {s : Ent} {run : List Happening} (dead : s.alive = false)
    (unprobed : ∀ p, .probe p ∈ run → ¬ p.Passes) : s.credited run = 0 := by
  apply Metered.total_eq_zero (fun s : Ent => s.alive = false)
  · intro h member s dead
    cases h with
    | probe p =>
        have still : ¬ (rlxfwEntropyInit p s).1.alive = true := by
          rw [alive_rlxfwEntropyInit]
          simp [dead, unprobed p member]
        exact Bool.eq_false_iff.mpr still
    | event src tc0cnt jiffies => exact (alive_event s src tc0cnt jiffies).trans dead
  · exact fun h _ _ dead => credit_of_dead dead h
  · exact dead

/-! ## The bound -/

/-- The credit of the driver from its boot on, over runs of probes and events in any
order. -/
structure CreditBounded : Prop where
  /-- Sixteen qualifying events for a bit. -/
  rate : ∀ run, Ent.booted.credited run ≤ Ent.booted.qualifying run / perBit
  /-- One bit, after any run, while the jiffies stand still. -/
  burst : ∀ before run jiffies, (∀ h ∈ run, h.jiffies = jiffies) →
    (Ent.booted.runs before).credited run ≤ 1
  /-- What any run leaves, a burst in one jiffy with it, is worth one bit to what follows. -/
  banked : ∀ before later, (Ent.booted.runs before).credited later ≤
    1 + (Ent.booted.runs before).qualifying later / perBit
  /-- No bit until a probe has passed. -/
  probed : ∀ run, (∀ p, .probe p ∈ run → ¬ p.Passes) → Ent.booted.credited run = 0
  /-- The driver's own counters count the bits and the qualifying events. -/
  counters : ∀ run, (Ent.booted.runs run).bits = Ent.booted.credited run ∧
    (Ent.booted.runs run).nQual = Ent.booted.qualifying run

/-- The driver credits a bit for sixteen qualifying events at most, and one bit a jiffy. -/
theorem creditBounded : CreditBounded where
  rate run := by
    have paid := credited_add_le acc_booted run
    have none : Ent.booted.acc = 0 := rfl
    rw [Nat.le_div_iff_mul_le (by decide), Nat.mul_comm]
    omega
  burst before run jiffies still := credited_le_one (acc_le_booted before) still
  banked before later := by
    have held := acc_le_booted before
    have paid := credited_add_le held later
    have worth : 0 < perBit := by decide
    rw [Nat.add_comm, ← Nat.add_div_right _ worth, Nat.le_div_iff_mul_le worth, Nat.mul_comm]
    omega
  probed run unprobed := credited_unprobed rfl unprobed
  counters run := by
    obtain ⟨bits, nQual⟩ := counters_runs acc_booted run
    exact ⟨bits.trans (Nat.zero_add _), nQual.trans (Nat.zero_add _)⟩

end RlxFw.Entropy
