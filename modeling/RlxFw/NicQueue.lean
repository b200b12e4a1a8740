import RlxFw.NicMemory
import RlxFw.Reactor

/-!
# The stopped queue and its timer

The stop-queue mode of `nic_xmit`, the wake of `nic_isr` and the stall recovery of
`drivers/net/rtl819x-nic.c`.  `nic_recov_fn` is taken step by step, so that a
handler can run between its steps; the engine retires slots at any time, and its
interrupt may be lost.
-/

namespace RlxFw.Nic

/-- Where a run of `nic_recov_fn` is. -/
inductive RecovPc where
  | off
  /-- The timer has fired. -/
  | entered
  /-- The stall test was passed. -/
  | stalled
  /-- `nic_recov_busy` is set; the engine is turned off next. -/
  | engineOff
  | arm
  | engineOn
  /-- All three calls returned 0. -/
  | wake
deriving DecidableEq, Repr

/-- The queue, its timer, and what the recovery asks of the driver. -/
structure TxQueue where
  mem : Mem
  /-- `nic_tx_idx`. -/
  txIdx : Nat
  /-- `netif_queue_stopped`. -/
  stopped : Bool
  /-- `nic_recov_timer` is pending. -/
  timer : Bool
  /-- `nic_recov_busy`. -/
  recovBusy : Bool
  /-- `nic_engine_on`. -/
  engineOn : Bool
  /-- `nic_armed`. -/
  armed : Bool
  /-- `nic_allocated`. -/
  allocated : Bool
  /-- `nic_unlocked`. -/
  unlocked : Bool
  /-- `nic_ndev_up`. -/
  up : Bool
  /-- `nic_recov_mode`. -/
  recovMode : Bool
  /-- `nic_recov_timer_ready`. -/
  timerReady : Bool
  /-- `nic15_pol.dirty`. -/
  dirty : Bool
  /-- A sweep runs. -/
  sweeping : Bool
  pc : RecovPc

/-- The errors of the recovery's calls. -/
inductive NicErr where
  | eperm
  | enxio
  | ebusy
  | estale
deriving DecidableEq, Repr

variable (L : Layout) (pol : Nic15Pol)

/-- The engine has the slot that is to be filled next. -/
def TxQueue.slotOwned (s : TxQueue) : Bool := engineOwns (s.mem.ring .tx s.txIdx)

/-- The engine retires slots of the transmit ring: their OWN bits are cleared. -/
def retire (slots : List Nat) (s : TxQueue) : TxQueue :=
  { s with
    mem := s.mem.stores
      (slots.map fun i => .ring .tx i (s.mem.ring .tx i &&& ~~~nicDescOwn)) }

/-- `nic_tx_try_wake`. -/
def nicTxTryWake (s : TxQueue) : TxQueue :=
  if ¬ s.up ∨ ¬ s.allocated then s
  else if s.recovBusy then s
  else if ¬ s.stopped then s
  else if s.slotOwned then s
  else
    { s with timer := if s.timerReady then false else s.timer, stopped := false }

/-- `nic_recov_arm`. -/
def nicRecovArm (s : TxQueue) : TxQueue :=
  if ¬ s.recovMode ∨ ¬ s.timerReady then s else { s with timer := true }

/-- `nic_xmit` in the stop-queue mode; the engine retires `meanwhile` between its
two looks at the slot. -/
def nicXmit (data : List UInt8) (meanwhile : List Nat) (s : TxQueue) : TxQueue :=
  if ¬ s.engineOn then s
  else if s.slotOwned then
    let s := retire meanwhile { s with stopped := true }
    if ¬ s.slotOwned then { s with stopped := false } else nicRecovArm s
  else if txMax < data.length then s
  else
    { s with
      mem := s.mem.stores (nicFill L pol s.txIdx data)
      txIdx := (s.txIdx + 1) % nicTxDesc }

/-- `nic15_engine_gate`. -/
def nic15EngineGate (s : TxQueue) : Except NicErr Unit :=
  if s.sweeping then .error .ebusy
  else if s.dirty then .error .estale
  else .ok ()

/-- `nic_do_engine`. -/
def nicDoEngine (on : Bool) (s : TxQueue) : Except NicErr TxQueue :=
  if ¬ s.armed then .error .enxio
  else if ¬ on then
    if ¬ s.unlocked then .error .eperm else .ok { s with engineOn := false }
  else
    match nic15EngineGate s with
    | .error e => .error e
    | .ok () => if ¬ s.unlocked then .error .eperm else .ok { s with engineOn := true }

/-- `nic_do_arm`. -/
def nicArm (s : TxQueue) : Except NicErr TxQueue :=
  if ¬ s.allocated then .error .enxio
  else if s.engineOn then .error .ebusy
  else if ¬ s.unlocked then .error .eperm
  else
    .ok { s with
      mem := s.mem.stores (nicDoArm L), txIdx := 0, armed := true, dirty := false }

/-- A call of the recovery: a refusal ends it. -/
def recovCall (result : Except NicErr TxQueue) (next : RecovPc) (s : TxQueue) :
    TxQueue :=
  match result with
  | .error _ => { s with recovBusy := false, pc := .off }
  | .ok s => { s with pc := next }

/-- `nic_recov_fn`, one step. -/
def nicRecovFn (s : TxQueue) : TxQueue :=
  match s.pc with
  | .off => s
  | .entered =>
      if ¬ s.recovMode then { s with pc := .off }
      else if ¬ s.up ∨ ¬ s.allocated then { s with pc := .off }
      else if ¬ s.stopped ∨ ¬ s.slotOwned then { s with pc := .off }
      else { s with pc := .stalled }
  | .stalled => { s with recovBusy := true, pc := .engineOff }
  | .engineOff => recovCall (nicDoEngine false s) .arm s
  | .arm => recovCall (nicArm L s) .engineOn s
  | .engineOn =>
      let s := recovCall (nicDoEngine true s) .wake s
      { s with recovBusy := false }
  | .wake => { s with stopped := false, pc := .off }

/-- The steps. -/
inductive QueueEvent where
  | xmit (data : List UInt8) (meanwhile : List Nat)
  | retire (slots : List Nat)
  | isr
  | expire
  | recov
  /-- What the verbs leave: the write guard, a sweep, a changed policy. -/
  | verbs (unlocked sweeping dirty : Bool)
deriving DecidableEq, Repr

/-- The queue, an event a step.  Nothing transmits while the timer's function
runs, and the timer fires only when pending. -/
def txQueue : Reactor TxQueue QueueEvent Empty where
  step s e :=
    (match e with
      | .xmit data meanwhile =>
          if s.pc = .off then nicXmit L pol data meanwhile s else s
      | .retire slots => retire slots s
      | .isr => nicTxTryWake s
      | .expire =>
          if s.pc = .off ∧ s.timer then { s with timer := false, pc := .entered } else s
      | .recov => nicRecovFn L s
      | .verbs unlocked sweeping dirty => { s with unlocked, sweeping, dirty }, [])

/-! ## A stopped queue and its timer -/

/-- With no handler running, a stopped queue has its timer pending. -/
def TxQueue.Watched (s : TxQueue) : Prop :=
  s.pc = .off → s.stopped = true → s.timer = true

/-- The recovery finds no freed slot and is refused no call while the queue is
stopped. -/
def TxQueue.Recovers (s : TxQueue) (e : QueueEvent) : Prop :=
  e = .recov → s.stopped = true →
    match s.pc with
    | .entered => s.slotOwned = true
    | .engineOff => s.armed = true ∧ s.unlocked = true
    | .arm => s.allocated = true ∧ s.engineOn = false ∧ s.unlocked = true
    | .engineOn =>
        s.armed = true ∧ s.unlocked = true ∧ s.sweeping = false ∧ s.dirty = false
    | _ => True

/-- The device is up with the recovery enabled, and a running recovery has used its
timer up. -/
structure TxQueue.Live (s : TxQueue) : Prop where
  up : s.up = true
  allocated : s.allocated = true
  recovMode : s.recovMode = true
  timerReady : s.timerReady = true
  spent : s.pc ≠ .off → s.timer = false

variable {L : Layout} {pol : Nic15Pol} {s : TxQueue}

/-- A handler leaves the queue as it is, or wakes it and disarms the timer. -/
theorem nicTxTryWake_cases (live : s.Live) :
    nicTxTryWake s = s ∨ nicTxTryWake s = { s with timer := false, stopped := false } := by
  unfold nicTxTryWake
  rw [live.timerReady]
  repeat' split
  all_goals first
    | exact .inl rfl
    | exact .inr rfl
    | contradiction

theorem nicTxTryWake_keeps (live : s.Live) (watched : s.Watched) :
    (nicTxTryWake s).Live ∧ (nicTxTryWake s).Watched := by
  rcases nicTxTryWake_cases live with same | woken
  · rw [same]
    exact ⟨live, watched⟩
  · rw [woken]
    exact ⟨⟨live.up, live.allocated, live.recovMode, live.timerReady, fun _ => rfl⟩,
      fun _ => nofun⟩

theorem nicXmit_keeps (L : Layout) (pol : Nic15Pol) (live : s.Live)
    (watched : s.Watched) (off : s.pc = .off) (data : List UInt8) (meanwhile : List Nat) :
    (nicXmit L pol data meanwhile s).Live ∧ (nicXmit L pol data meanwhile s).Watched := by
  have idle : ∀ {P : Prop}, s.pc ≠ .off → P := fun run => absurd off run
  unfold nicXmit
  split
  · exact ⟨live, watched⟩
  split
  · dsimp only
    split
    · exact ⟨⟨live.up, live.allocated, live.recovMode, live.timerReady, idle⟩,
        fun _ => nofun⟩
    · -- the stop arms the timer
      have armed : nicRecovArm (retire meanwhile { s with stopped := true }) =
          { retire meanwhile { s with stopped := true } with timer := true } := by
        simp [nicRecovArm, retire, live.recovMode, live.timerReady]
      rw [armed]
      exact ⟨⟨live.up, live.allocated, live.recovMode, live.timerReady, idle⟩,
        fun _ _ => rfl⟩
  split
  · exact ⟨live, watched⟩
  · exact ⟨⟨live.up, live.allocated, live.recovMode, live.timerReady, idle⟩, watched⟩

/-- A step of the recovery that goes on leaves the promise for later. -/
theorem TxQueue.watched_of_running (running : s.pc ≠ .off) : s.Watched :=
  fun off => absurd off running

/-- A recovery that ends with its timer used up keeps the promise for a queue that
runs, and for no other. -/
theorem TxQueue.watched_iff_running_queue (off : s.pc = .off) (spent : s.timer = false) :
    s.Watched ↔ s.stopped = false := by
  simp [TxQueue.Watched, off, spent]

theorem nicDoEngine_ok_iff (on : Bool) :
    (∃ s', nicDoEngine on s = .ok s') ↔
      s.armed = true ∧ s.unlocked = true ∧
        (on = true → s.sweeping = false ∧ s.dirty = false) := by
  cases on <;> cases armed : s.armed <;> cases unlocked : s.unlocked <;>
    cases sweeping : s.sweeping <;> cases dirty : s.dirty <;>
      simp [nicDoEngine, nic15EngineGate, armed, unlocked, sweeping, dirty]

theorem nicArm_ok_iff :
    (∃ s', nicArm L s = .ok s') ↔
      s.allocated = true ∧ s.engineOn = false ∧ s.unlocked = true := by
  cases allocated : s.allocated <;> cases engineOn : s.engineOn <;>
    cases unlocked : s.unlocked <;> simp [nicArm, allocated, engineOn, unlocked]

/-- What the recovery's calls leave alone. -/
structure SameQueue (s s' : TxQueue) : Prop where
  up : s'.up = s.up
  allocated : s'.allocated = s.allocated
  recovMode : s'.recovMode = s.recovMode
  timerReady : s'.timerReady = s.timerReady
  timer : s'.timer = s.timer
  stopped : s'.stopped = s.stopped

theorem nicDoEngine_same (on : Bool) {s' : TxQueue} (ok : nicDoEngine on s = .ok s') :
    SameQueue s s' := by
  unfold nicDoEngine at ok
  repeat' split at ok
  all_goals first
    | contradiction
    | (cases ok; exact ⟨rfl, rfl, rfl, rfl, rfl, rfl⟩)

theorem nicArm_same {s' : TxQueue} (ok : nicArm L s = .ok s') : SameQueue s s' := by
  unfold nicArm at ok
  repeat' split at ok
  all_goals first
    | contradiction
    | (cases ok; exact ⟨rfl, rfl, rfl, rfl, rfl, rfl⟩)

/-- A call of a running recovery keeps the promise exactly when it is granted or
the queue runs. -/
theorem recovCall_keeps (live : s.Live) (running : s.pc ≠ .off)
    {result : Except NicErr TxQueue} (next : RecovPc) (goesOn : next ≠ .off)
    (same : ∀ s', result = .ok s' → SameQueue s s') :
    (recovCall result next s).Live ∧
      ((recovCall result next s).Watched ↔
        (s.stopped = true → ∃ s', result = .ok s')) := by
  have spent := live.spent running
  cases result with
  | error e =>
      refine ⟨⟨live.up, live.allocated, live.recovMode, live.timerReady,
        fun run => absurd rfl run⟩, ?_⟩
      rw [TxQueue.watched_iff_running_queue (by rfl) (by exact spent)]
      simp [recovCall]
  | ok s' =>
      have kept := same s' rfl
      refine ⟨⟨kept.up.trans live.up, kept.allocated.trans live.allocated,
        kept.recovMode.trans live.recovMode, kept.timerReady.trans live.timerReady,
        fun _ => kept.timer.trans spent⟩, ?_⟩
      exact ⟨fun _ _ => ⟨s', rfl⟩, fun _ => TxQueue.watched_of_running goesOn⟩

theorem nicRecovFn_keeps (live : s.Live) (watched : s.Watched) :
    (nicRecovFn L s).Live ∧ ((nicRecovFn L s).Watched ↔ s.Recovers .recov) := by
  cases at' : s.pc with
  | off =>
      simp only [nicRecovFn, at']
      exact ⟨live, fun _ _ _ => by simp [at'], fun _ => watched⟩
  | entered =>
      have spent := live.spent (by rw [at']; nofun)
      have flags : ∀ pc, ({ s with pc := pc } : TxQueue).Live := fun pc =>
        ⟨live.up, live.allocated, live.recovMode, live.timerReady, fun _ => spent⟩
      by_cases stall : s.stopped = true ∧ s.slotOwned = true
      · have goesOn : nicRecovFn L s = { s with pc := .stalled } := by
          simp [nicRecovFn, at', live.recovMode, live.up, live.allocated, stall]
        rw [goesOn]
        exact ⟨flags _, fun _ _ _ => by simp [at', stall.2],
          fun _ => TxQueue.watched_of_running nofun⟩
      · have returns : nicRecovFn L s = { s with pc := .off } := by
          have spurious : s.stopped = false ∨ s.slotOwned = false := by
            by_contra neither
            simp only [not_or, Bool.not_eq_false] at neither
            exact stall neither
          simp [nicRecovFn, at', live.recovMode, live.up, live.allocated, spurious]
        rw [returns]
        refine ⟨flags _, ?_⟩
        rw [TxQueue.watched_iff_running_queue (by rfl) (by exact spent)]
        simp only [TxQueue.Recovers, at']
        constructor
        · exact fun running _ stopped => absurd (running.symm.trans stopped) nofun
        · intro recovers
          by_contra stopped
          rw [Bool.not_eq_false] at stopped
          exact stall ⟨stopped, recovers trivial stopped⟩
  | stalled =>
      have spent := live.spent (by rw [at']; nofun)
      simp only [nicRecovFn, at']
      exact ⟨⟨live.up, live.allocated, live.recovMode, live.timerReady, fun _ => spent⟩,
        fun _ _ _ => by simp [at'], fun _ => TxQueue.watched_of_running nofun⟩
  | engineOff =>
      simp only [nicRecovFn, at']
      have called := recovCall_keeps live (by rw [at']; nofun) .arm nofun
        fun s' => nicDoEngine_same false
      refine ⟨called.1, called.2.trans ?_⟩
      simp [TxQueue.Recovers, at', nicDoEngine_ok_iff]
  | arm =>
      simp only [nicRecovFn, at']
      have called := recovCall_keeps live (by rw [at']; nofun) .engineOn nofun
        fun s' => nicArm_same (L := L)
      refine ⟨called.1, called.2.trans ?_⟩
      simp [TxQueue.Recovers, at', nicArm_ok_iff]
  | engineOn =>
      simp only [nicRecovFn, at']
      have called := recovCall_keeps live (by rw [at']; nofun) .wake nofun
        fun s' => nicDoEngine_same true
      refine ⟨⟨called.1.up, called.1.allocated, called.1.recovMode, called.1.timerReady,
        called.1.spent⟩, Iff.trans ?_ (called.2.trans ?_)⟩
      · rfl
      · simp [TxQueue.Recovers, at', nicDoEngine_ok_iff]
  | wake =>
      have spent := live.spent (by rw [at']; nofun)
      simp only [nicRecovFn, at']
      exact ⟨⟨live.up, live.allocated, live.recovMode, live.timerReady, fun _ => spent⟩,
        fun _ _ _ => by simp [at'], fun _ _ => nofun⟩

/-- One step keeps the promise exactly when it is no recovery that fails it. -/
theorem txQueue_step_keeps (L : Layout) (pol : Nic15Pol) (live : s.Live)
    (watched : s.Watched) (e : QueueEvent) :
    (((txQueue L pol).step s e).1).Live ∧
      ((((txQueue L pol).step s e).1).Watched ↔ s.Recovers e) := by
  have other : e ≠ .recov → ∀ {s' : TxQueue}, s'.Watched → (s'.Watched ↔ s.Recovers e) :=
    fun not _ kept => ⟨fun _ recov => absurd recov not, fun _ => kept⟩
  cases e with
  | xmit data meanwhile =>
      simp only [txQueue]
      split
      · rename_i off
        obtain ⟨kept, promise⟩ := nicXmit_keeps L pol live watched off data meanwhile
        exact ⟨kept, other nofun promise⟩
      · exact ⟨live, other nofun watched⟩
  | retire slots =>
      exact ⟨⟨live.up, live.allocated, live.recovMode, live.timerReady, live.spent⟩,
        other nofun watched⟩
  | isr =>
      obtain ⟨kept, promise⟩ := nicTxTryWake_keeps live watched
      exact ⟨kept, other nofun promise⟩
  | expire =>
      simp only [txQueue]
      split
      · exact ⟨⟨live.up, live.allocated, live.recovMode, live.timerReady, fun _ => rfl⟩,
          other nofun (TxQueue.watched_of_running nofun)⟩
      · exact ⟨live, other nofun watched⟩
  | recov => exact nicRecovFn_keeps live watched
  | verbs unlocked sweeping dirty =>
      exact ⟨⟨live.up, live.allocated, live.recovMode, live.timerReady, live.spent⟩,
        other nofun watched⟩

/-- A device just opened with the recovery enabled. -/
structure TxQueue.Opened (s : TxQueue) : Prop where
  up : s.up = true
  allocated : s.allocated = true
  recovMode : s.recovMode = true
  timerReady : s.timerReady = true
  off : s.pc = .off
  running : s.stopped = false

/-- In a run from an opened device the queue is watched over in every state exactly
when every step of the recovery succeeds or finds the queue running. -/
theorem stopped_queue_watched_iff (L : Layout) (pol : Nic15Pol) (s : TxQueue)
    (opened : s.Opened) (events : List QueueEvent) :
    (txQueue L pol).Always (fun s e => (((txQueue L pol).step s e).1).Watched) s events ↔
      (txQueue L pol).Always TxQueue.Recovers s events := by
  have live : s.Live := ⟨opened.up, opened.allocated, opened.recovMode,
    opened.timerReady, fun run => absurd opened.off run⟩
  have watched : s.Watched := fun _ stopped =>
    absurd (opened.running.symm.trans stopped) nofun
  clear opened
  induction events generalizing s with
  | nil => exact Iff.rfl
  | cons e es ih =>
      obtain ⟨kept, promise⟩ := txQueue_step_keeps L pol live watched e
      constructor
      · rintro ⟨first, rest⟩
        exact ⟨promise.mp first, (ih _ kept first).mp rest⟩
      · rintro ⟨first, rest⟩
        exact ⟨promise.mpr first, (ih _ kept (promise.mpr first)).mpr rest⟩

/-! ## A lost interrupt -/

/-- The rings at the bottom of memory. -/
def lowLayout : Layout where
  base := 0
  aligned := rfl
  fits := by decide

/-- The policy of a boot. -/
def bootPol : Nic15Pol where
  txlen := .vendor
  txoff := 2
  offset := .inr rfl

/-- A device just opened. -/
def openedQueue : TxQueue where
  mem := armedMem lowLayout
  txIdx := 0
  stopped := false
  timer := false
  recovBusy := false
  engineOn := true
  armed := true
  allocated := true
  unlocked := true
  up := true
  recovMode := true
  timerReady := true
  dirty := false
  sweeping := false
  pc := .off

theorem openedQueue_opened : openedQueue.Opened :=
  ⟨rfl, rfl, rfl, rfl, rfl, rfl⟩

/-- Five frames fill the ring and stop the queue; the engine sends them, its
interrupt is lost, and the timer fires. -/
def lostCompletion : List QueueEvent :=
  [.xmit [] [], .xmit [] [], .xmit [] [], .xmit [] [], .xmit [] [],
    .retire [0, 1, 2, 3], .expire, .recov]

instance (s : TxQueue) : Decidable s.Watched :=
  inferInstanceAs (Decidable (_ → _ → _))

theorem timer_abandons_queue :
    openedQueue.Opened ∧
      ¬ ((txQueue lowLayout bootPol).run openedQueue lostCompletion).1.Watched := by
  refine ⟨openedQueue_opened, ?_⟩
  decide

/-- The first stop: a run that meets the condition. -/
theorem stopped_queue_watched_iff_opened :
    (txQueue lowLayout bootPol).Always
        (fun s e => (((txQueue lowLayout bootPol).step s e).1).Watched) openedQueue
        [.xmit [] [], .isr] ↔
      (txQueue lowLayout bootPol).Always TxQueue.Recovers openedQueue [.xmit [] [], .isr] :=
  stopped_queue_watched_iff lowLayout bootPol openedQueue openedQueue_opened
    [.xmit [] [], .isr]

end RlxFw.Nic
