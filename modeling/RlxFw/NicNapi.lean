import RlxFw.NicRegs
import RlxFw.Reactor

/-!
# The interrupt handler and the poll

`nic_isr` and `nic_poll` of `drivers/net/rtl819x-nic.c`, step by step, beside an
engine that receives frames and completes transmissions at any time.  The handler
clears every status bit it reads, also those of a frame that landed after the
poll's last look at the ring, while the schedule attempt is still refused.
-/

namespace RlxFw.Nic

/-- Where a run of `nic_poll` is. -/
inductive PollPc where
  /-- No poll runs. -/
  | off
  /-- Before the OWN bit is read, with so many frames taken. -/
  | look (done : Nat)
  /-- The slot is the CPU's. -/
  | take (done : Nat)
  /-- The slot was handed back. -/
  | refilled (done : Nat)
  /-- The ring was found empty. -/
  | dry
  /-- `napi_complete` is done. -/
  | completed
  /-- The run-outs are cleared, under the lock. -/
  | cleared
  /-- The mask was read, under the lock. -/
  | masked (m : UInt32)
deriving DecidableEq, Repr

/-- The interface as the two sides of the receive interrupt see it. -/
structure Napi where
  /-- `CPUIISR`. -/
  iisr : UInt32
  /-- `CPUIIMR`. -/
  iimr : UInt32
  /-- `nic_iimr_base`. -/
  iimrBase : UInt32
  /-- `nic_ndev_up`. -/
  up : Bool
  /-- `NAPI_STATE_SCHED`. -/
  sched : Bool
  rxRing : Nat → UInt32
  /-- `nic_rx_idx`. -/
  rxIdx : Nat
  /-- The slot that the engine fills next. -/
  engineIdx : Nat
  pc : PollPc
  /-- The status word that the running handler has read. -/
  isr : Option UInt32

/-- The steps of the engine, of the handler and of the poll. -/
inductive NapiEvent where
  /-- The engine fills its next slot, and sets further status bits. -/
  | receive (status : UInt32)
  /-- The engine completes transmissions, or runs out: status bits. -/
  | latch (status : UInt32)
  | isrEnter
  | isrLeave
  | poll
deriving DecidableEq, Repr

/-- The interrupts of the CPU are on. -/
def PollPc.irqsOn : PollPc → Bool
  | .cleared => false
  | .masked _ => false
  | _ => true

/-- A frame waits at the receive index. -/
def Napi.frameWaits (s : Napi) : Bool := !engineOwns (s.rxRing s.rxIdx)

/-- The engine takes its next slot, where its OWN bit is set. -/
def receive (s : Napi) (status : UInt32) : Napi :=
  if engineOwns (s.rxRing s.engineIdx) then
    { s with
      rxRing := Function.update s.rxRing s.engineIdx
        (s.rxRing s.engineIdx &&& ~~~nicDescOwn)
      engineIdx := (s.engineIdx + 1) % nicRxDesc
      iisr := s.iisr ||| rxDone0 ||| status }
  else s

/-- `nic_isr` reads the status. -/
def nicIsrEnter (s : Napi) : Napi := { s with isr := some s.iisr }

/-- `nic_isr` from its write on: what was read is cleared, and a receive bit of it
schedules the poll unless one is scheduled. -/
def nicIsrLeave (s : Napi) (isr : UInt32) : Napi :=
  let s := { s with iisr := s.iisr &&& ~~~isr, isr := none }
  if s.up ∧ isr &&& nicIpRxWork ≠ 0 then
    if s.sched then s
    else { s with sched := true, iimr := s.iimr &&& ~~~rxEnables }
  else s

/-- `nic_poll`, one step; `ph` are the addresses of the packet headers. -/
def nicPoll (ph : Nat → UInt32) (budget : Nat) (s : Napi) : Napi :=
  match s.pc with
  | .off => if s.sched then { s with pc := .look 0 } else s
  | .look done =>
      if done < budget then
        if engineOwns (s.rxRing s.rxIdx) then { s with pc := .dry }
        else { s with pc := .take done }
      else { s with pc := .off }
  | .take done =>
      { s with
        rxRing := Function.update s.rxRing s.rxIdx
          (ownedWord nicRxDesc (ph s.rxIdx) s.rxIdx)
        pc := .refilled done }
  | .refilled done =>
      { s with rxIdx := (s.rxIdx + 1) % nicRxDesc, pc := .look (done + 1) }
  | .dry => { s with sched := false, pc := .completed }
  | .completed =>
      { s with
        iisr := s.iisr &&& ~~~(nicIePkthdrRunout ||| nicIpMbufRunout)
        pc := .cleared }
  | .cleared => { s with pc := .masked s.iimr }
  | .masked m => { s with iimr := m ||| (s.iimrBase &&& rxEnables), pc := .off }

instance (iisr iimr : UInt32) : Decidable (interruptOwed iisr iimr) :=
  inferInstanceAs (Decidable (_ ≠ _))

/-- The interface, an event a step.  A handler runs when an interrupt is owed and
the CPU takes it; the poll waits for it. -/
def napi (ph : Nat → UInt32) (budget : Nat) : Reactor Napi NapiEvent Empty where
  step s e :=
    (match e with
      | .receive status => receive s status
      | .latch status => { s with iisr := s.iisr ||| status }
      | .isrEnter =>
          if s.isr = none ∧ s.pc.irqsOn ∧ interruptOwed s.iisr s.iimr then nicIsrEnter s
          else s
      | .isrLeave =>
          match s.isr with
          | some isr => nicIsrLeave s isr
          | none => s
      | .poll => if s.isr = none then nicPoll ph budget s else s, [])

/-! ## What is owed to a frame that waits -/

/-- The poll looks at the ring again before it completes. -/
def Napi.lookDue (s : Napi) : Prop := s.sched = true ∧ s.pc ≠ .dry

/-- A frame that waits has its receive bit latched, or a look of the poll ahead. -/
structure Napi.Sound (s : Napi) : Prop where
  up : s.up = true
  /-- A poll that has not completed is scheduled. -/
  polling : s.sched = false → s.pc = .off ∨ s.pc = .completed ∨ s.pc = .cleared ∨
    ∃ m, s.pc = .masked m
  waits : s.frameWaits = true → s.iisr &&& rxDone0 ≠ 0 ∨ s.lookDue

/-- The handler takes no waiting frame's receive bit between the poll's last look
and its completion. -/
def Napi.Spared (s : Napi) (e : NapiEvent) : Prop :=
  e = .isrLeave → s.pc = .dry → s.frameWaits = true →
    s.isr.all (· &&& rxDone0 = 0) = true

/-- A frame that waits with nothing scheduled and reception unmasked has a receive
bit latched, and the interrupt is owed. -/
def Napi.Owing (s : Napi) : Prop :=
  s.sched = false → s.up = true → s.iimr &&& rxDone0 ≠ 0 → s.frameWaits = true →
    s.iisr &&& nicIpRxWork ≠ 0 ∧ interruptOwed s.iisr s.iimr

/-- A device that was opened on a freshly armed ring. -/
structure Napi.Opened (s : Napi) : Prop where
  up : s.up = true
  idle : s.sched = false
  off : s.pc = .off
  armed : ∀ i < nicRxDesc, engineOwns (s.rxRing i) = true
  start : s.rxIdx = 0

variable {ph : Nat → UInt32} {budget : Nat}

theorem receive_sound {s : Napi} (sound : s.Sound) (status : UInt32) :
    (receive s status).Sound := by
  unfold receive
  split
  · refine ⟨sound.up, sound.polling, fun _ => .inl ?_⟩
    rw [rxDone0_latched]
    simp [rxDone0]
  · exact sound

theorem latch_sound {s : Napi} (sound : s.Sound) (status : UInt32) :
    ({ s with iisr := s.iisr ||| status } : Napi).Sound := by
  refine ⟨sound.up, sound.polling, fun waits => ?_⟩
  rcases sound.waits waits with latched | due
  · left
    rw [rxDone0_latched] at latched ⊢
    simp [latched]
  · exact .inr due

/-- Clearing what was read keeps a bit that was not read. -/
theorem cleared_keeps {iisr isr : UInt32} (latched : iisr &&& rxDone0 ≠ 0)
    (unread : isr &&& rxDone0 = 0) : (iisr &&& ~~~isr) &&& rxDone0 ≠ 0 := by
  have low : ¬ isr.toBitVec[3] = true := by
    rw [← rxDone0_latched]
    exact not_not.mpr unread
  rw [rxDone0_latched] at latched ⊢
  simp [latched, low]

/-- A receive bit of ring 0 is work for the poll. -/
theorem rxDone0_is_work {isr : UInt32} (read : isr &&& rxDone0 ≠ 0) :
    isr &&& nicIpRxWork ≠ 0 := by
  rw [rxDone0_latched] at read
  intro none
  have low := congrArg (fun x : UInt32 => x.toBitVec[3]) none
  simp [read, nicIpRxWork, nicIeRxDoneAll] at low

theorem nicIsrLeave_sound {s : Napi} (sound : s.Sound) {isr : UInt32}
    (spared : s.pc = .dry → s.frameWaits = true → isr &&& rxDone0 = 0) :
    (nicIsrLeave s isr).Sound := by
  unfold nicIsrLeave
  by_cases read : isr &&& rxDone0 = 0
  · -- the bit of a frame that waits stays latched
    have kept : s.frameWaits = true →
        (s.iisr &&& ~~~isr) &&& rxDone0 ≠ 0 ∨ s.lookDue := fun waits =>
      (sound.waits waits).imp (cleared_keeps · read) id
    dsimp only
    split
    · split
      · exact ⟨sound.up, sound.polling, kept⟩
      · refine ⟨sound.up, nofun, fun _ => .inr ⟨rfl, fun dry => ?_⟩⟩
        rcases sound.polling (by simpa using ‹¬ s.sched = true›) with h | h | h | ⟨m, h⟩ <;>
          exact absurd (h.symm.trans dry) nofun
    · exact ⟨sound.up, sound.polling, kept⟩
  · dsimp only
    rw [if_pos ⟨sound.up, rxDone0_is_work read⟩]
    split
    · rename_i scheduled
      refine ⟨sound.up, sound.polling, fun waits => .inr ⟨scheduled, fun dry => ?_⟩⟩
      exact read (spared dry waits)
    · rename_i idle
      refine ⟨sound.up, nofun, fun _ => .inr ⟨rfl, fun dry => ?_⟩⟩
      rcases sound.polling (by simpa using idle) with h | h | h | ⟨m, h⟩ <;>
        exact absurd (h.symm.trans dry) nofun

theorem nicPoll_sound {s : Napi} (sound : s.Sound) : (nicPoll ph budget s).Sound := by
  obtain ⟨up, polling, waits⟩ := sound
  have scheduled : ∀ {pc}, s.pc = pc → pc ≠ .off → pc ≠ .completed → pc ≠ .cleared →
      (∀ m, pc ≠ .masked m) → s.sched = true := by
    rintro _ rfl off completed cleared masked
    by_contra idle
    rcases polling (by simpa using idle) with h | h | h | ⟨m, h⟩
    · exact off h
    · exact completed h
    · exact cleared h
    · exact masked m h
  cases at' : s.pc with
  | off =>
      simp only [nicPoll, at']
      split
      · rename_i due
        exact ⟨up, fun idle => absurd (due.symm.trans idle) nofun,
          fun _ => .inr ⟨due, nofun⟩⟩
      · exact ⟨up, polling, waits⟩
  | look done =>
      have due := scheduled at' nofun nofun nofun nofun
      simp only [nicPoll, at']
      split
      · split
        · rename_i owned
          refine ⟨up, fun idle => absurd (due.symm.trans idle) nofun, fun waiting => ?_⟩
          -- the slot was found to be the engine's
          simp [Napi.frameWaits, owned] at waiting
        · exact ⟨up, fun idle => absurd (due.symm.trans idle) nofun,
            fun _ => .inr ⟨due, nofun⟩⟩
      · exact ⟨up, fun _ => .inl rfl, fun _ => .inr ⟨due, nofun⟩⟩
  | take done =>
      have due := scheduled at' nofun nofun nofun nofun
      simp only [nicPoll, at']
      exact ⟨up, fun idle => absurd (due.symm.trans idle) nofun,
        fun _ => .inr ⟨due, nofun⟩⟩
  | refilled done =>
      have due := scheduled at' nofun nofun nofun nofun
      simp only [nicPoll, at']
      exact ⟨up, fun idle => absurd (due.symm.trans idle) nofun,
        fun _ => .inr ⟨due, nofun⟩⟩
  | dry =>
      simp only [nicPoll, at']
      refine ⟨up, fun _ => .inr (.inl rfl), fun waiting => .inl ?_⟩
      exact (waits waiting).resolve_right fun due => due.2 at'
  | completed =>
      simp only [nicPoll, at']
      refine ⟨up, fun _ => .inr (.inr (.inl rfl)), fun waiting => ?_⟩
      rcases waits waiting with latched | due
      · exact .inl (cleared_keeps latched (by decide))
      · exact .inr ⟨due.1, nofun⟩
  | cleared =>
      simp only [nicPoll, at']
      refine ⟨up, fun _ => .inr (.inr (.inr ⟨_, rfl⟩)), fun waiting => ?_⟩
      exact (waits waiting).imp id fun due => ⟨due.1, nofun⟩
  | masked m =>
      simp only [nicPoll, at']
      refine ⟨up, fun _ => .inl rfl, fun waiting => ?_⟩
      exact (waits waiting).imp id fun due => ⟨due.1, nofun⟩

theorem napi_step_sound {s : Napi} {e : NapiEvent} (sound : s.Sound) (spared : s.Spared e) :
    (((napi ph budget).step s e).1).Sound := by
  cases e with
  | receive status => exact receive_sound sound status
  | latch status => exact latch_sound sound status
  | isrEnter =>
      simp only [napi]
      split
      · exact ⟨sound.up, sound.polling, sound.waits⟩
      · exact sound
  | isrLeave =>
      simp only [napi]
      cases running : s.isr with
      | none => exact sound
      | some isr =>
          refine nicIsrLeave_sound sound fun dry waits => ?_
          simpa [running] using spared rfl dry waits
  | poll =>
      simp only [napi]
      split
      · exact nicPoll_sound sound
      · exact sound

theorem Napi.Sound.owing {s : Napi} (sound : s.Sound) : s.Owing := by
  intro idle _ through waits
  have latched := (sound.waits waits).resolve_right fun due =>
    absurd (due.1.symm.trans idle) nofun
  refine ⟨rxDone0_is_work latched, fun none => ?_⟩
  rw [rxDone0_latched] at latched through
  have low := congrArg (fun x : UInt32 => x.toBitVec[3]) none
  simp [latched, through, unmasked, nicIeMbufRunout, nicIpMbufRunout] at low

theorem Napi.Opened.sound {s : Napi} (opened : s.Opened) : s.Sound where
  up := opened.up
  polling _ := .inl opened.off
  waits waiting := by
    have owned := opened.armed s.rxIdx (by rw [opened.start]; decide)
    simp [Napi.frameWaits, owned] at waiting

/-- No frame is stranded in a run whose handlers spare the poll's last look. -/
theorem no_frame_stranded (ph : Nat → UInt32) (budget : Nat) (s : Napi)
    (opened : s.Opened) (events : List NapiEvent)
    (spared : (napi ph budget).Always Napi.Spared s events) :
    ((napi ph budget).run s events).1.Owing :=
  ((napi ph budget).run_keeps_of_always (fun _ _ => napi_step_sound)
    opened.sound spared).owing

/-! ## A completion between the last look and the completion of the poll -/

/-- A handler that has read the bit of a waiting frame after the poll's last look
strands the frame: nothing further from the engine, and the poll ends. -/
theorem taken_bit_strands (s : Napi) (dry : s.pc = .dry) (waits : s.frameWaits = true)
    (scheduled : s.sched = true) (up : s.up = true) (read : s.isr = some s.iisr)
    (base : s.iimrBase &&& rxDone0 ≠ 0) :
    ¬ ((napi ph budget).run s [.isrLeave, .poll, .poll, .poll, .poll]).1.Owing := by
  have none : s.iisr &&& ~~~s.iisr = 0 := by
    apply UInt32.eq_of_toBitVec_eq
    ext i
    simp
  have through : (s.iimr ||| (s.iimrBase &&& rxEnables)) &&& rxDone0 ≠ 0 := by
    rw [rxDone0_latched] at base ⊢
    simp [base, rxEnables, nicIeRxDoneAll]
  intro owing
  simp [napi, read, nicIsrLeave, none, nicPoll, dry, up, scheduled, Napi.Owing] at owing
  exact absurd ((owing through).symm.trans waits) nofun

/-- A device opened with the ladder's mask. -/
def openedNapi : Napi where
  iisr := 0
  iimr := nicIimrLadder
  iimrBase := nicIimrLadder
  up := true
  sched := false
  rxRing i := ownedWord nicRxDesc 0 i
  rxIdx := 0
  engineIdx := 0
  pc := .off
  isr := none

/-- A frame is harvested; as the poll has found the ring empty, a second frame lands
and a transmission completes, whose interrupt is taken before the poll completes. -/
def completionInWindow : List NapiEvent :=
  [.receive 0, .isrEnter, .isrLeave, .poll, .poll, .poll, .poll, .poll,
    .receive 0, .latch nicIeTxDoneAll, .isrEnter, .isrLeave,
    .poll, .poll, .poll, .poll]

theorem openedNapi_opened : openedNapi.Opened where
  up := rfl
  idle := rfl
  off := rfl
  armed i _ := engineOwns_ownedWord _ _ i
  start := rfl

/-- The first frame alone: a run that meets the condition. -/
theorem no_frame_stranded_once :
    ((napi (fun _ => 0) 16).run openedNapi [.receive 0, .isrEnter, .isrLeave]).1.Owing :=
  no_frame_stranded (fun _ => 0) 16 openedNapi openedNapi_opened
    [.receive 0, .isrEnter, .isrLeave]
    ⟨nofun, nofun, fun _ dry => absurd dry (by decide), trivial⟩

instance (s : Napi) : Decidable s.Owing :=
  inferInstanceAs (Decidable (_ → _ → _ → _ → _ ∧ _))

theorem tx_interrupt_strands_frame :
    openedNapi.Opened ∧
      ¬ ((napi (fun _ => 0) 16).run openedNapi completionInWindow).1.Owing := by
  refine ⟨openedNapi_opened, ?_⟩
  decide

end RlxFw.Nic
