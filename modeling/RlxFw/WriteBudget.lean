import RlxFw.Reactor
import RlxFw.SpiContainment

/-!
# The budget of an arm

The two entry points of `rtl819x-spi-write.c`, over any calls and any answers of the
engine: what the engine completed since the arm, against its budget and its window.
-/

namespace RlxFw.Spi

open NorFlash (Op)
open Emission

variable {World Value Value' : Type}

/-! ## An engine that notes what it completed -/

/-- A question that leaves the notes alone. -/
def unnoted {Value : Type} (question : World → Value × World) :
    World × List Op → Value × World × List Op := fun w =>
  ((question w.1).1, (question w.1).2, w.2)

/-- The machine, with the operations its engine completed noted beside its state. -/
def recording (m : Machine World) : Machine (World × List Op) where
  seBlock addr w :=
    ((m.seBlock addr w.1).1, (m.seBlock addr w.1).2,
      if (m.seBlock addr w.1).1.rc = none then w.2 ++ [.erase addr] else w.2)
  ppPage addr bytes w :=
    ((m.ppPage addr bytes w.1).1, (m.ppPage addr bytes w.1).2,
      if (m.ppPage addr bytes w.1).1.rc = none then
        w.2 ++ [.program addr bytes.length (ByteMap.ofList bytes 0xFF)]
      else w.2)
  readPio addr len := unnoted (m.readPio addr len)
  probeCal := unnoted m.probeCal
  alloc size := unnoted (m.alloc size)
  copyFromUser := unnoted m.copyFromUser
  sha256 bytes := unnoted (m.sha256 bytes)
  strtoul := m.strtoul
  inspect what wedged := unnoted (m.inspect what wedged)

/-- The bytes of an operation. -/
def opBytes : Op → Nat
  | .erase _ => WrPolicy.eraseGrain
  | .program _ length _ => length

/-- The bytes of the operations completed. -/
def spent (ops : List Op) : Nat := (ops.map opBytes).sum

@[simp]
theorem spent_append (ops more : List Op) : spent (ops ++ more) = spent ops + spent more := by
  simp [spent]

/-- The calls of the two entry points. -/
inductive WriteCall where
  | page (offset : Int) (bytes : List UInt8)
  | sector (addr len : Nat)

/-- The driver under calls of its two entry points. -/
def writer (m : Machine World) : Reactor (State (World × List Op)) WriteCall Unit where
  step s call :=
    match call with
    | .page offset bytes => ((writePage (recording m) offset bytes s).2.1, [])
    | .sector addr len => ((eraseSector (recording m) addr len s).2.1, [])

/-! ## One transaction -/

/-- What a primitive returns for a transaction. -/
def Transfer.outcome (t : Transfer) : Except Halt Unit :=
  match t.rc with
  | some rc => .error (.engine rc)
  | none => if t.restored then .ok () else .error (.engine .eio)

theorem Transfer.outcome_eq_ok_iff (t : Transfer) :
    t.outcome = .ok () ↔ t.rc = none ∧ t.restored = true := by
  unfold Transfer.outcome
  cases t.rc with
  | none => cases t.restored <;> simp
  | some rc => simp

/-- The driver after a transaction. -/
def State.transferred (s : State World) (done : Transfer × World) : State World where
  driver := { s.driver with wedged := !done.1.restored }
  world := done.2

section Transaction

variable {m : Machine World} {s : State World} {addr : Nat} {bytes : List UInt8}

theorem seBlock_wedged (wedged : s.driver.wedged = true) :
    seBlock m addr s = (.error (.engine .eio), s, []) := by
  simp [seBlock, claim, fromDriver, Emission.read, Bind.bind, andThen, wedged, Emission.stop]

theorem seBlock_free (free : s.driver.wedged = false) :
    seBlock m addr s = ((m.seBlock addr s.world).1.outcome,
      s.transferred (m.seBlock addr s.world), [.erase addr]) := by
  simp [seBlock, claim, fromDriver, Emission.read, Bind.bind, andThen, free, issue, ask,
    Emission.step, release, updateDriver, change, Transfer.outcome, State.transferred, pure]
  cases (m.seBlock addr s.world).1.rc with
  | none => cases (m.seBlock addr s.world).1.restored <;> simp [Emission.stop]
  | some rc => simp [Emission.stop]

theorem ppPage_wedged (wedged : s.driver.wedged = true) :
    ppPage m addr bytes s = (.error (.engine .eio), s, []) := by
  simp [ppPage, claim, fromDriver, Emission.read, Bind.bind, andThen, wedged, Emission.stop]

theorem ppPage_free (free : s.driver.wedged = false) :
    ppPage m addr bytes s = ((m.ppPage addr bytes s.world).1.outcome,
      s.transferred (m.ppPage addr bytes s.world),
      [.program addr bytes.length (ByteMap.ofList bytes 0xFF)]) := by
  simp [ppPage, claim, fromDriver, Emission.read, Bind.bind, andThen, free, issue, ask,
    Emission.step, release, updateDriver, change, Transfer.outcome, State.transferred, pure]
  cases (m.ppPage addr bytes s.world).1.rc with
  | none => cases (m.ppPage addr bytes s.world).1.restored <;> simp [Emission.stop]
  | some rc => simp [Emission.stop]

end Transaction

/-! ## One call -/

theorem andThen_ok {first : Verb World Value} {next : Value → Verb World Value'}
    {s after : State World} {value : Value} {ops : List Op}
    (outcome : first s = (.ok value, after, ops)) :
    ((first >>= next) s).2.1 = (next value after).2.1 := by
  show (andThen first next s).2.1 = _
  simp [andThen, outcome]

theorem andThen_error {first : Verb World Value} {next : Value → Verb World Value'}
    {s after : State World} {why : Halt} {ops : List Op}
    (outcome : first s = (.error why, after, ops)) :
    ((first >>= next) s).2.1 = after := by
  show (andThen first next s).2.1 = _
  simp [andThen, outcome]

/-- What holds since an arm: what was completed lies in its window and within its budget,
and a controller that may be used still has the rest of it. -/
structure Held (lo hi budget : Nat) (s : State (World × List Op)) : Prop where
  inside : ∀ op ∈ s.world.2, op.range WrPolicy.eraseGrain ⊆ Set.Ico lo hi
  spent : spent s.world.2 ≤ budget
  window : s.driver.arm.lo = lo ∧ s.driver.arm.hi = hi
  left : s.driver.wedged = false → s.driver.arm.armed = true →
    Spi.spent s.world.2 + s.driver.arm.budget ≤ budget

section Calls

variable {m : Machine World} {s : State (World × List Op)} {lo hi budget : Nat}

/-- A refusal, or a transaction that notes nothing and leaves the arm as it was. -/
theorem Held.kept (held : Held lo hi budget s) {s' : State (World × List Op)}
    (notes : s'.world.2 = s.world.2) (arm : s'.driver.arm = s.driver.arm)
    (free : s'.driver.wedged = false → s.driver.wedged = false) : Held lo hi budget s' := by
  obtain ⟨inside, few, window, left⟩ := held
  constructor
  · rw [notes]
    exact inside
  · rw [notes]
    exact few
  · rw [arm]
    exact window
  · intro usable armed
    rw [notes, arm]
    exact left (free usable) (arm ▸ armed)

/-- Operations completed under a check that passed. -/
theorem Held.spend (held : Held lo hi budget s) {s' : State (World × List Op)}
    {ops : List Op} {len : Nat} (free : s.driver.wedged = false)
    (armed : s.driver.arm.armed = true) (fits : len ≤ s.driver.arm.budget)
    (notes : s'.world.2 = s.world.2 ++ ops) (few : Spi.spent ops ≤ len)
    (inside : ∀ op ∈ ops, op.range WrPolicy.eraseGrain ⊆ Set.Ico lo hi)
    (window : s'.driver.arm.lo = s.driver.arm.lo ∧ s'.driver.arm.hi = s.driver.arm.hi)
    (charged : s'.driver.wedged = true ∨
      s'.driver.arm.budget = s.driver.arm.budget - len) :
    Held lo hi budget s' := by
  have room := held.left free armed
  constructor
  · rw [notes]
    intro op member
    rcases List.mem_append.mp member with before | now
    · exact held.inside op before
    · exact inside op now
  · rw [notes, spent_append]
    omega
  · rw [window.1, window.2]
    exact held.window
  · intro usable _
    rcases charged with wedged | debited
    · rw [usable] at wedged
      cases wedged
    · rw [notes, spent_append, debited]
      omega

theorem range_program {address length : Nat} {source : ByteMap}
    (lower : lo ≤ address) (upper : address + length ≤ hi) :
    (Op.program address length source).range WrPolicy.eraseGrain ⊆ Set.Ico lo hi := by
  rintro offset ⟨from_, below⟩
  exact ⟨lower.trans from_, lt_of_lt_of_le below upper⟩

theorem range_erase {address : Nat} (aligned : address % WrPolicy.eraseGrain = 0)
    (lower : lo ≤ address) (upper : address + WrPolicy.eraseGrain ≤ hi) :
    (Op.erase address).range WrPolicy.eraseGrain ⊆ Set.Ico lo hi := by
  intro offset inside
  have same : offset / WrPolicy.eraseGrain = address / WrPolicy.eraseGrain := inside
  have start := Nat.div_add_mod address WrPolicy.eraseGrain
  have place := Nat.div_add_mod offset WrPolicy.eraseGrain
  have within := Nat.mod_lt offset (show 0 < WrPolicy.eraseGrain by decide)
  rw [same] at place
  constructor <;> omega

theorem writePage_keeps (held : Held lo hi budget s) (offset : Int) (bytes : List UInt8) :
    Held lo hi budget (writePage (recording m) offset bytes s).2.1 := by
  unfold writePage
  split
  · exact held
  rw [andThen_ok (show fromDriver Driver.arm s = (.ok s.driver.arm, s, []) from rfl)]
  split
  next accepted =>
    obtain ⟨-, -, -, -, armed, lower, upper, fits⟩ :=
      (WrPolicy.chkProg_eq_ok_iff _ _ _).mp accepted
    rw [held.window.1] at lower
    rw [held.window.2] at upper
    cases wedged : s.driver.wedged with
    | true =>
        rw [andThen_error (ppPage_wedged wedged)]
        exact held
    | false =>
        have ran : ppPage (recording m) offset.toNat bytes s = _ := ppPage_free wedged
        have inside : ∀ op ∈ [Op.program offset.toNat bytes.length (ByteMap.ofList bytes 0xFF)],
            op.range WrPolicy.eraseGrain ⊆ Set.Ico lo hi := by
          intro op member
          rw [List.mem_singleton.mp member]
          exact range_program lower upper
        cases rc : (m.ppPage offset.toNat bytes s.world.1).1.rc with
        | some errno =>
            have failed : ((recording m).ppPage offset.toNat bytes s.world).1.outcome =
                .error (.engine errno) := by
              simp [Transfer.outcome, recording, rc]
            rw [failed] at ran
            rw [andThen_error ran]
            refine held.kept ?_ ?_ ?_
            · simp [State.transferred, recording, rc]
            · rfl
            · exact fun _ => wedged
        | none =>
            have noted : ((recording m).ppPage offset.toNat bytes s.world).2.2 =
                s.world.2 ++ [.program offset.toNat bytes.length (ByteMap.ofList bytes 0xFF)] :=
              if_pos rc
            cases restored : (m.ppPage offset.toNat bytes s.world.1).1.restored with
            | false =>
                have failed : ((recording m).ppPage offset.toNat bytes s.world).1.outcome =
                    .error (.engine .eio) := by
                  simp [Transfer.outcome, recording, rc, restored]
                rw [failed] at ran
                rw [andThen_error ran]
                have stuck : (s.transferred ((recording m).ppPage offset.toNat bytes
                    s.world)).driver.wedged = true := congrArg (!·) restored
                exact held.spend wedged armed fits noted (le_refl _) inside ⟨rfl, rfl⟩
                  (Or.inl stuck)
            | true =>
                have passed : ((recording m).ppPage offset.toNat bytes s.world).1.outcome =
                    .ok () := by
                  simp [Transfer.outcome, recording, rc, restored]
                rw [passed] at ran
                rw [andThen_ok ran]
                exact held.spend wedged armed fits noted (le_refl _) inside ⟨rfl, rfl⟩
                  (Or.inr rfl)
  · exact held

/-! ### Sectors -/

/-- One of the sectors of an erase, not its first, fails in the engine, with the
controller left usable. -/
def BreaksOff (m : Machine World) (addr : Nat) : Nat → Nat → World → Prop
  | 0, _, _ => False
  | left + 1, k, w =>
      if (m.seBlock (addr + k * WrPolicy.eraseGrain) w).1.outcome = .ok () then
        BreaksOff m addr left (k + 1) (m.seBlock (addr + k * WrPolicy.eraseGrain) w).2
      else k ≠ 0 ∧ (m.seBlock (addr + k * WrPolicy.eraseGrain) w).1.rc ≠ none ∧
        (m.seBlock (addr + k * WrPolicy.eraseGrain) w).1.restored = true

/-- Sectors from the `k`-th on. -/
def sectors (addr k count : Nat) : List Op :=
  (List.range' k count).map fun index => .erase (addr + index * WrPolicy.eraseGrain)

theorem spent_sectors (addr k count : Nat) :
    Spi.spent (sectors addr k count) = count * WrPolicy.eraseGrain := by
  simp [Spi.spent, sectors, opBytes, Function.comp_def]

/-- How the loop of an erase ends: after all its sectors, or after some of them. -/
structure LoopEnds (addr k count : Nat) (s : State (World × List Op))
    (done : Except Halt Unit × State (World × List Op) × List Op) : Prop where
  notes : ∃ erased ≤ count, done.2.1.world.2 = s.world.2 ++ sectors addr k erased ∧
    (done.1 = .ok () → erased = count) ∧
    (done.1 ≠ .ok () → done.2.1.driver.wedged = false → k + erased = 0)
  arm : done.2.1.driver.arm = s.driver.arm
  free : done.1 = .ok () → done.2.1.driver.wedged = false

theorem eraseLoop_ends {addr : Nat} (count k : Nat) (free : s.driver.wedged = false)
    (steady : ¬ BreaksOff m addr count k s.world.1) :
    LoopEnds addr k count s
      (repeatFrom
        (fun index _ => do
          seBlock (recording m) (addr + index * WrPolicy.eraseGrain)
          noteWrite)
        k count () s) := by
  induction count generalizing k s with
  | zero => exact ⟨⟨0, le_refl 0, by simp [sectors, repeatFrom, pure], fun _ => rfl,
      fun failed => absurd rfl failed⟩, rfl, fun _ => free⟩
  | succ count ih =>
      have ran : seBlock (recording m) (addr + k * WrPolicy.eraseGrain) s = _ :=
        seBlock_free free
      unfold BreaksOff at steady
      have split_ (erased : Nat) : sectors addr k (erased + 1) =
          .erase (addr + k * WrPolicy.eraseGrain) :: sectors addr (k + 1) erased := by
        simp [sectors, List.range'_succ]
      have same : ((recording m).seBlock (addr + k * WrPolicy.eraseGrain) s.world).1.outcome =
          (m.seBlock (addr + k * WrPolicy.eraseGrain) s.world.1).1.outcome := rfl
      cases outcome : (m.seBlock (addr + k * WrPolicy.eraseGrain) s.world.1).1.outcome with
      | ok value =>
          obtain ⟨rc, restored⟩ := (Transfer.outcome_eq_ok_iff _).mp outcome
          rw [if_pos outcome] at steady
          rw [same, outcome] at ran
          have noted : ((recording m).seBlock (addr + k * WrPolicy.eraseGrain) s.world).2.2 =
              s.world.2 ++ [.erase (addr + k * WrPolicy.eraseGrain)] := if_pos rc
          obtain ⟨⟨erased, fewer, notes, whole, first⟩, arm, usable⟩ :=
            ih (k + 1) (s := (noteWrite (s.transferred ((recording m).seBlock
              (addr + k * WrPolicy.eraseGrain) s.world))).2.1)
              (congrArg (!·) restored) steady
          show LoopEnds addr k (count + 1) s
            (andThen (andThen (seBlock (recording m) (addr + k * WrPolicy.eraseGrain))
              fun _ => noteWrite) _ s)
          simp only [andThen, ran]
          refine ⟨⟨erased + 1, Nat.succ_le_succ fewer, ?_, ?_, ?_⟩, arm, usable⟩
          · have before := congrArg (· ++ sectors addr (k + 1) erased) noted
            refine notes.trans (before.trans ?_)
            simp [split_]
          · exact fun passed => congrArg (· + 1) (whole passed)
          · intro failed isUsable
            exact absurd (first failed isUsable) (by omega)
      | error why =>
          have notOk : (m.seBlock (addr + k * WrPolicy.eraseGrain) s.world.1).1.outcome ≠
              .ok () := by
            rw [outcome]
            nofun
          rw [if_neg notOk] at steady
          rw [same, outcome] at ran
          show LoopEnds addr k (count + 1) s
            (andThen (andThen (seBlock (recording m) (addr + k * WrPolicy.eraseGrain))
              fun _ => noteWrite) _ s)
          simp only [andThen, ran]
          cases rc : (m.seBlock (addr + k * WrPolicy.eraseGrain) s.world.1).1.rc with
          | none =>
              have noted : ((recording m).seBlock (addr + k * WrPolicy.eraseGrain)
                  s.world).2.2 = s.world.2 ++ [.erase (addr + k * WrPolicy.eraseGrain)] :=
                if_pos rc
              refine ⟨⟨1, by omega, noted, nofun, ?_⟩, rfl, nofun⟩
              intro _ isUsable
              have restored : (m.seBlock (addr + k * WrPolicy.eraseGrain)
                  s.world.1).1.restored = true := by
                simpa [State.transferred, recording] using isUsable
              exact absurd ((Transfer.outcome_eq_ok_iff _).mpr ⟨rc, restored⟩) notOk
          | some errno =>
              have unnoted : ((recording m).seBlock (addr + k * WrPolicy.eraseGrain)
                  s.world).2.2 = s.world.2 := if_neg (by rw [rc]; nofun)
              refine ⟨⟨0, by omega, ?_, nofun, ?_⟩, rfl, nofun⟩
              · exact unnoted.trans (List.append_nil _).symm
              · intro _ isUsable
                have restored : (m.seBlock (addr + k * WrPolicy.eraseGrain)
                    s.world.1).1.restored = true := by
                  simpa [State.transferred, recording] using isUsable
                by_contra later
                exact steady ⟨by omega, by rw [rc]; nofun, restored⟩

theorem eraseSector_keeps (held : Held lo hi budget s) (addr len : Nat)
    (steady : WrPolicy.chkErase s.driver.arm addr len WrPolicy.eraseGrain
      WrPolicy.eraseGrain = .ok →
      ¬ BreaksOff m addr (len / WrPolicy.eraseGrain) 0 s.world.1) :
    Held lo hi budget (eraseSector (recording m) addr len s).2.1 := by
  unfold eraseSector
  split
  · exact held
  rw [andThen_ok (show fromDriver Driver.arm s = (.ok s.driver.arm, s, []) from rfl)]
  split
  next accepted =>
    obtain ⟨some, -, -, aligned, whole, armed, lower, upper, fits⟩ :=
      (WrPolicy.chkErase_eq_ok_iff _ _ _).mp accepted
    rw [held.window.1] at lower
    rw [held.window.2] at upper
    have grains : len / WrPolicy.eraseGrain * WrPolicy.eraseGrain = len :=
      Nat.div_mul_cancel (Nat.dvd_of_mod_eq_zero whole)
    cases wedged : s.driver.wedged with
    | true =>
        have stuck : repeatFrom
            (fun index (_ : Unit) => do
              seBlock (recording m) (addr + index * WrPolicy.eraseGrain)
              noteWrite)
            0 (len / WrPolicy.eraseGrain) () s = (.error (.engine .eio), s, []) := by
          have positive : len / WrPolicy.eraseGrain ≠ 0 := by
            intro none_
            rw [none_] at grains
            omega
          obtain ⟨count, isCount⟩ := Nat.exists_eq_succ_of_ne_zero positive
          rw [isCount]
          show andThen (andThen (seBlock (recording m) _) fun _ => noteWrite) _ s = _
          simp only [andThen, seBlock_wedged wedged]
        rw [andThen_error stuck]
        exact held
    | false =>
        have ends := eraseLoop_ends (len / WrPolicy.eraseGrain) 0 wedged (steady accepted)
        generalize ran : repeatFrom _ 0 (len / WrPolicy.eraseGrain) () s = done at ends
        obtain ⟨⟨erased, fewer, notes, finished, first⟩, arm, usable⟩ := ends
        obtain ⟨result, after, ops⟩ := done
        have few : Spi.spent (sectors addr 0 erased) ≤ len := by
          rw [spent_sectors, ← grains]
          exact Nat.mul_le_mul_right _ fewer
        have inside : ∀ op ∈ sectors addr 0 erased,
            op.range WrPolicy.eraseGrain ⊆ Set.Ico lo hi := by
          intro op member
          obtain ⟨index, listed, rfl⟩ := List.mem_map.mp member
          have below : index < erased := by simpa using (List.mem_range'_1.mp listed).2
          have room : (index + 1) * WrPolicy.eraseGrain ≤ len :=
            (Nat.mul_le_mul_right _ (below.trans_le fewer)).trans grains.le
          rw [Nat.succ_mul] at room
          apply range_erase
          · rw [Nat.add_mul_mod_self_right]
            exact aligned
          · omega
          · omega
        cases result with
        | ok value =>
            rw [andThen_ok ran]
            have lower' : after.driver.arm.lo = s.driver.arm.lo := congrArg WrPolicy.Arm.lo arm
            have upper' : after.driver.arm.hi = s.driver.arm.hi := congrArg WrPolicy.Arm.hi arm
            have charged : (debit after.driver.arm len).budget = s.driver.arm.budget - len :=
              congrArg (fun arm : WrPolicy.Arm => arm.budget - len) arm
            exact held.spend wedged armed fits notes few inside ⟨lower', upper'⟩
              (Or.inr charged)
        | error why =>
            rw [andThen_error ran]
            cases isUsable : after.driver.wedged with
            | true =>
                exact held.spend wedged armed fits notes few inside
                  ⟨congrArg WrPolicy.Arm.lo arm, congrArg WrPolicy.Arm.hi arm⟩ (Or.inl isUsable)
            | false =>
                have none_ : erased = 0 := by
                  have sum := first nofun isUsable
                  omega
                subst none_
                refine held.kept ?_ arm fun _ => wedged
                exact notes.trans (List.append_nil _)
  · exact held

/-- An erase that the policy accepts does not break off in the engine. -/
def Steady (m : Machine World) (s : State (World × List Op)) : WriteCall → Prop
  | .page _ _ => True
  | .sector addr len =>
      WrPolicy.chkErase s.driver.arm addr len WrPolicy.eraseGrain WrPolicy.eraseGrain = .ok →
        ¬ BreaksOff m addr (len / WrPolicy.eraseGrain) 0 s.world.1

/-- An erase of one sector fails at its first if at all. -/
theorem not_breaksOff_one (m : Machine World) (addr : Nat) (w : World) :
    ¬ BreaksOff m addr 1 0 w := by
  unfold BreaksOff
  split
  · exact id
  · exact fun breaks => breaks.1 rfl

end Calls

/-- In a run none of whose erases breaks off in the engine after its first sector, what was
completed lies in the window of the arm, and is at most its budget. -/
theorem budget_bounds_writes (m : Machine World) (d : Driver) (world : World)
    (calls : List WriteCall)
    (steady : (writer m).Always (Steady m) ⟨d, (world, [])⟩ calls) :
    spent ((writer m).run ⟨d, (world, [])⟩ calls).1.world.2 ≤ d.arm.budget ∧
      ∀ op ∈ ((writer m).run ⟨d, (world, [])⟩ calls).1.world.2,
        op.range WrPolicy.eraseGrain ⊆ Set.Ico d.arm.lo d.arm.hi := by
  have fresh : Held d.arm.lo d.arm.hi d.arm.budget
      (⟨d, (world, [])⟩ : State (World × List Op)) :=
    ⟨by simp, Nat.zero_le _, ⟨rfl, rfl⟩, fun _ _ => (Nat.zero_add _).le⟩
  have held := (writer m).run_keeps_of_always
    (fun s call held steady => by
      cases call with
      | page offset bytes => exact writePage_keeps held offset bytes
      | sector addr len => exact eraseSector_keeps held addr len steady)
    fresh steady
  exact ⟨held.spent, held.inside⟩

/-- An engine that fails at one sector. -/
def flakyMachine : Machine Unit :=
  { erasedMachine with
    seBlock := fun addr _ =>
      ({ rc := if addr = 0x11000 then some .etimedout else none, restored := true }, ()) }

/-- An arm of two sectors. -/
def armedTwo : Driver :=
  { Driver.boot with arm := { armed := true, lo := 0x10000, hi := 0x12000, budget := 0x2000 } }

theorem budget_bounds_writes_flaky :
    spent ((writer flakyMachine).run ⟨armedTwo, ((), [])⟩
        [.sector 0x11000 0x1000, .sector 0x10000 0x1000, .page 0x10000 [0x5A]]).1.world.2 ≤
        armedTwo.arm.budget ∧
      ∀ op ∈ ((writer flakyMachine).run ⟨armedTwo, ((), [])⟩
          [.sector 0x11000 0x1000, .sector 0x10000 0x1000,
            .page 0x10000 [0x5A]]).1.world.2,
        op.range WrPolicy.eraseGrain ⊆ Set.Ico armedTwo.arm.lo armedTwo.arm.hi :=
  budget_bounds_writes flakyMachine armedTwo () _
    ⟨fun _ => not_breaksOff_one _ _ _, fun _ => not_breaksOff_one _ _ _, trivial, trivial⟩

/-- An erase of both sectors that breaks off at the second leaves the budget whole: three of
them erase three sectors under a budget of two. -/
theorem budget_exceeded :
    ¬ spent ((writer flakyMachine).run ⟨armedTwo, ((), [])⟩
        [.sector 0x10000 0x2000, .sector 0x10000 0x2000, .sector 0x10000 0x2000]).1.world.2 ≤
      armedTwo.arm.budget := by
  decide

end RlxFw.Spi
