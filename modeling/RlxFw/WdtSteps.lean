import RlxFw.Wdt

/-!
# One step of the watchdog

What each operation does to the part of the state that decides when the hardware is fed,
and the invariant that ties it to the operations before.
-/

namespace RlxFw.Watchdog

/-- The part of the state that decides. -/
structure Core where
  state : WdtState
  hung : Bool
  openFlag : Bool
  expectClose : Bool
  nowayout : Bool
  hwOvsel : Int
  softTimeout : Int
  deadline : UInt32
  timer : Option UInt32

/-- The deadline that is set now. -/
def Core.due (c : Core) (jiffies : UInt32) : UInt32 := jiffies + UInt32.ofInt (c.softTimeout * hz)

namespace Wdt

/-- The part of the driver's state that decides. -/
def core (s : Wdt) : Core where
  state := s.state
  hung := s.hung
  openFlag := s.openFlag
  expectClose := s.expectClose
  nowayout := s.nowayout
  hwOvsel := s.hwOvsel
  softTimeout := s.softTimeout
  deadline := s.deadline
  timer := s.timer

section Quiet

variable (s : Wdt)

@[simp]
theorem core_reject : s.reject.core = s.core := rfl

@[simp]
theorem core_wr (v : UInt32) : (s.wr v).core = s.core := rfl

@[simp]
theorem core_checkForeignLocked (live : UInt32) : (s.checkForeignLocked live).core = s.core := by
  unfold checkForeignLocked
  split <;> rfl

@[simp]
theorem core_kickLocked (live : UInt32) : (s.kickLocked live).core = s.core := by
  unfold kickLocked checkForeignLocked
  split <;> rfl

@[simp]
theorem core_armLocked (ovsel : Int) : (s.armLocked ovsel).core = s.core := rfl

@[simp]
theorem core_stopLocked : s.stopLocked.core = s.core := rfl

@[simp]
theorem core_modTimer (lib : Library) (jiffies : UInt32) : (s.modTimer lib jiffies).core =
    { s.core with timer := some (jiffies + s.kickJiffies lib) } := rfl

theorem kickMs_kickLocked (live : UInt32) : (s.kickLocked live).kickMs = s.kickMs := by
  unfold kickLocked checkForeignLocked
  split <;> rfl

theorem kickJiffies_kickLocked (lib : Library) (live : UInt32) :
    (s.kickLocked live).kickJiffies lib = s.kickJiffies lib := by
  unfold kickJiffies
  rw [kickMs_kickLocked]

/-- A kick writes the shadow with the strobe. -/
theorem wrote_kickLocked (live : UInt32) :
    (s.kickLocked live).wrote = s.wrote ++ [s.shadow ||| wdtclr] := by
  unfold kickLocked checkForeignLocked
  split <;> rfl

end Quiet

section Tick

variable {s : Wdt} (lib : Library) (jiffies live : UInt32)

/-- A tick that feeds the hardware. -/
def feed (s : Wdt) : Wdt := ({ s with timer := none }.kickLocked live).modTimer lib jiffies

/-- A tick that does not. -/
def miss (s : Wdt) : Wdt :=
  { s with timer := none, nMissed := s.nMissed + 1 }.modTimer lib jiffies

theorem tick_bootguard (state : s.state = .bootguard) :
    s.tick lib jiffies live = s.feed lib jiffies live := by
  simp only [tick, feed, state]

theorem tick_before (state : s.state = .user) (before : timeBefore jiffies s.deadline = true) :
    s.tick lib jiffies live = s.feed lib jiffies live := by
  simp only [tick, feed, state, before, if_true]

theorem tick_due (state : s.state = .user) (due : ¬ timeBefore jiffies s.deadline = true) :
    s.tick lib jiffies live = s.miss lib jiffies := by
  simp only [tick, miss, state, due]
  rfl

theorem tick_unarmed (unarmed : ¬ s.Armed) :
    s.tick lib jiffies live = { s with timer := none } := by
  cases state : s.state with
  | bootguard => exact absurd (.inl state) unarmed
  | user => exact absurd (.inr state) unarmed
  | stopped => simp only [tick, state]
  | bite => simp only [tick, state]

theorem core_feed : (s.feed lib jiffies live).core =
    { s.core with timer := some (jiffies + s.kickJiffies lib) } := by
  unfold feed
  rw [core_modTimer, core_kickLocked, kickJiffies_kickLocked]
  rfl

theorem core_miss : (s.miss lib jiffies).core =
    { s.core with timer := some (jiffies + s.kickJiffies lib) } := rfl

/-- A tick sets the timer again in the armed states, and changes nothing else. -/
theorem core_tick (s : Wdt) : (s.tick lib jiffies live).core =
    { s.core with timer := if s.Armed then some (jiffies + s.kickJiffies lib) else none } := by
  by_cases armed : s.Armed
  · rw [if_pos armed]
    rcases armed with guard | user
    · rw [tick_bootguard lib jiffies live guard, core_feed]
    · by_cases before : timeBefore jiffies s.deadline = true
      · rw [tick_before lib jiffies live user before, core_feed]
      · rw [tick_due lib jiffies live user before, core_miss]
  · rw [if_neg armed, tick_unarmed lib jiffies live armed]
    rfl

end Tick

/-- What `enter` does with an armed state: refused for a setting that is not valid. -/
theorem core_enter_armed (lib : Library) {state : WdtState}
    (armed : state = .bootguard ∨ state = .user) (ovsel : Int) (jiffies : UInt32) (s : Wdt) :
    (s.enter lib state ovsel jiffies).1.core =
      (if ovselOk ovsel = none then
        { s.core with
          state
          deadline := if state = .user then s.due jiffies else s.deadline
          timer := some (jiffies + s.kickJiffies lib) }
      else s.core) ∧
    (s.enter lib state ovsel jiffies).2 = ovselOk ovsel := by
  unfold enter
  rw [if_pos armed]
  cases ovselOk ovsel with
  | none =>
      have running : ¬ state = .stopped := by
        rcases armed with rfl | rfl <;> decide
      dsimp only
      rw [if_neg running]
      exact ⟨rfl, rfl⟩
  | some e => exact ⟨rfl, rfl⟩

/-! ## What the operations before come to -/

/-- What sets the deadline: a successful open, a write or a `KEEPALIVE`, a new timeout, an
`ENABLECARD`, or an `ovsel` verb in the user state. -/
inductive Setter where
  | opened
  | pinged
  | timeoutChanged
  | enabled
  | reentered
deriving DecidableEq, Repr

/-- The valid setting in an `ovsel` line. -/
def ovselLine (lib : Library) (line : List UInt8) : Option Int :=
  if (ascii "ovsel ").isPrefixOf line then
    match parseInt lib (line.drop 6) with
    | .ok v => if ovselOk v = none then some v else none
    | .error _ => none
  else none

/-- What a call of `ioctl` sets the deadline by. -/
def ioctlSetter (s : Wdt) : Ioctl → Option Setter
  | .keepalive => some .pinged
  | .setTimeout (some v) _ => if v < 1 ∨ v > 3600 then none else some .timeoutChanged
  | .setOptions (some v) =>
      if v &&& wdiosEnablecard ≠ 0 ∧ ovselOk s.hwOvsel = none then some .enabled else none
  | _ => none

/-- What an operation sets the deadline by. -/
def setter (lib : Library) (s : Wdt) (op : Op) : Option Setter :=
  if s.hung then none
  else
    match op with
    | .opens => if ¬ s.openFlag ∧ ovselOk s.hwOvsel = none then some .opened else none
    | .write data =>
        if s.openFlag ∧ data ≠ [] ∧ (s.nowayout ∨ none ∉ data) then some .pinged else none
    | .ioctl call => if s.openFlag then s.ioctlSetter call else none
    | .verb bytes copied =>
        if copied ∧ s.state = .user ∧ (ovselLine lib (lineOf bytes)).isSome then some .reentered
        else none
    | .tick => none
    | .release => none

/-- Whether a write reads a `V`, up to the first byte that cannot be read. -/
def readsMagic (data : List (Option UInt8)) : Bool :=
  (data.takeWhile Option.isSome).contains (some 0x56)

/-- Whether the last write on the open device read a `V`, after an operation; with or without
the writes of no bytes. -/
def magicSeen (emptyWrites : Bool) (s : Wdt) (seen : Bool) (op : Op) : Bool :=
  if s.hung then seen
  else
    match op with
    | .opens => if s.openFlag then seen else false
    | .write data =>
        if s.openFlag ∧ (emptyWrites ∨ data ≠ []) then readsMagic data else seen
    | _ => seen

/-! ## The invariant -/

/-- The state against the last deadline set, and the last write that read something. -/
structure Tracks (c : Core) (due : Option UInt32) (seen : Bool) : Prop where
  deadline : ∀ t, due = some t → c.deadline = t
  user : c.state = .user → due.isSome
  armed : c.state = .bootguard ∨ c.state = .user → c.timer.isSome
  settled : c.openFlag = true → ovselOk c.hwOvsel = none
  magic : c.openFlag = true → c.nowayout = false → c.expectClose = seen
  hung : c.hung = true → c.state = .bite

section Kept

variable {c : Core} {due : Option UInt32} {seen : Bool}

/-- The deadline set anew. -/
theorem Tracks.ping (tracks : Tracks c due seen) (t : UInt32) :
    Tracks { c with deadline := t } (some t) seen :=
  ⟨fun _ same => Option.some_inj.mp same, fun _ => rfl, tracks.armed, tracks.settled, tracks.magic,
    tracks.hung⟩

/-- The user state entered. -/
theorem Tracks.enterUser (tracks : Tracks c due seen) (alive : c.hung = false) (t x : UInt32) :
    Tracks { c with state := .user, deadline := t, timer := some x } (some t) seen :=
  ⟨fun _ same => Option.some_inj.mp same, fun _ => rfl, fun _ => rfl, tracks.settled, tracks.magic,
    fun hung => by simp [alive] at hung⟩

/-- The boot guard entered. -/
theorem Tracks.enterGuard (tracks : Tracks c due seen) (alive : c.hung = false) (x : UInt32) :
    Tracks { c with state := .bootguard, timer := some x } due seen :=
  ⟨tracks.deadline, by simp, fun _ => rfl, tracks.settled, tracks.magic,
    fun hung => by simp [alive] at hung⟩

/-- The watchdog stopped. -/
theorem Tracks.stop (tracks : Tracks c due seen) (alive : c.hung = false) :
    Tracks { c with state := .stopped, timer := none } due seen :=
  ⟨tracks.deadline, by simp, by simp, tracks.settled, tracks.magic,
    fun hung => by simp [alive] at hung⟩

/-- The timer set again. -/
theorem Tracks.retime (tracks : Tracks c due seen) (timer : Option UInt32)
    (armed : c.state = .bootguard ∨ c.state = .user → timer.isSome) :
    Tracks { c with timer } due seen :=
  ⟨tracks.deadline, tracks.user, armed, tracks.settled, tracks.magic, tracks.hung⟩

end Kept

/-! ## The device -/

section Device

variable {s : Wdt} {due : Option UInt32} {seen : Bool} (lib : Library) (jiffies : UInt32)

theorem core_open_accepted (free : s.openFlag = false) (valid : ovselOk s.hwOvsel = none) :
    (s.rtl819xWdtOpen lib jiffies).1.core =
      { s.core with
        openFlag := true
        expectClose := false
        state := .user
        deadline := s.due jiffies
        timer := some (jiffies + s.kickJiffies lib) } := by
  have entered := core_enter_armed lib (.inr rfl) s.hwOvsel jiffies
    { s with openFlag := true, expectClose := false }
  rw [if_pos valid, if_pos rfl, valid] at entered
  obtain ⟨core, accepted⟩ := entered
  unfold rtl819xWdtOpen
  rw [if_neg (by simp [free])]
  dsimp only
  split
  · next refused => rw [refused] at accepted; cases accepted
  · next done => rw [done] at core; exact core

theorem core_open_refused (free : s.openFlag = false) (invalid : ¬ ovselOk s.hwOvsel = none) :
    (s.rtl819xWdtOpen lib jiffies).1.core = { s.core with expectClose := false } := by
  have entered := core_enter_armed lib (.inr rfl) s.hwOvsel jiffies
    { s with openFlag := true, expectClose := false }
  rw [if_neg invalid] at entered
  obtain ⟨core, refused⟩ := entered
  unfold rtl819xWdtOpen
  rw [if_neg (by simp [free])]
  dsimp only
  split
  · next s' e result =>
    rw [result] at core
    change { s'.core with openFlag := false } = _
    rw [core, ← free]
    rfl
  · next result =>
    rw [result] at refused
    exact absurd refused.symm invalid

theorem tracks_open (tracks : Tracks s.core due seen) (alive : s.hung = false) :
    Tracks (s.rtl819xWdtOpen lib jiffies).1.core
      (if ¬ s.openFlag ∧ ovselOk s.hwOvsel = none then
        some ((s.rtl819xWdtOpen lib jiffies).1.due jiffies) else due)
      (if s.openFlag then seen else false) := by
  by_cases busy : s.openFlag = true
  · have unchanged : s.rtl819xWdtOpen lib jiffies = (s, some .ebusy) := if_pos busy
    rw [unchanged, if_neg (by simp [busy]), if_pos busy]
    exact tracks
  · have free : s.openFlag = false := Bool.eq_false_iff.mpr busy
    rw [if_neg busy]
    by_cases valid : ovselOk s.hwOvsel = none
    · have core := core_open_accepted lib jiffies free valid
      have same : (s.rtl819xWdtOpen lib jiffies).1.due jiffies = s.due jiffies := by
        change (s.rtl819xWdtOpen lib jiffies).1.core.due jiffies = _
        rw [core]
        rfl
      rw [if_pos ⟨busy, valid⟩, same, core]
      have entered := tracks.enterUser alive (s.due jiffies) (jiffies + s.kickJiffies lib)
      exact ⟨entered.deadline, entered.user, entered.armed, fun _ => valid, fun _ _ => rfl,
        entered.hung⟩
    · rw [if_neg fun both => valid both.2, core_open_refused lib jiffies free valid]
      have closed (isOpen : s.openFlag = true) : False := busy isOpen
      exact ⟨tracks.deadline, tracks.user, tracks.armed, fun isOpen => (closed isOpen).elim,
        fun isOpen => (closed isOpen).elim, tracks.hung⟩

theorem scan_eq (expectClose : Bool) (data : List (Option UInt8)) :
    scan expectClose data = (expectClose || readsMagic data, !data.contains none) := by
  induction data generalizing expectClose with
  | nil => simp [scan, readsMagic]
  | cons c rest ih =>
      cases c with
      | none => simp [scan, readsMagic]
      | some c =>
          unfold scan
          rw [ih]
          unfold readsMagic
          by_cases magic : c = 0x56
          · simp [magic]
          · simp [magic, Ne.symm magic]

theorem tracks_write (tracks : Tracks s.core due seen) (data : List (Option UInt8)) :
    Tracks (s.rtl819xWdtWrite data jiffies).1.core
      (if data ≠ [] ∧ (s.nowayout ∨ none ∉ data) then
        some ((s.rtl819xWdtWrite data jiffies).1.due jiffies) else due)
      (if data ≠ [] then readsMagic data else seen) := by
  unfold rtl819xWdtWrite
  by_cases empty : data = []
  · subst empty
    simpa using tracks
  · have some_ : ¬ data.length = 0 := fun none => empty (List.eq_nil_of_length_eq_zero none)
    rw [if_neg some_, if_pos empty]
    by_cases locked : s.nowayout = true
    · rw [if_neg (not_not.mpr locked), if_pos ⟨empty, .inl locked⟩]
      have pinged := tracks.ping (s.due jiffies)
      refine ⟨pinged.deadline, pinged.user, pinged.armed, pinged.settled, fun _ unlocked => ?_,
        pinged.hung⟩
      have both : s.nowayout = false := unlocked
      rw [both] at locked
      cases locked
    · rw [if_pos locked, scan_eq, Bool.false_or]
      dsimp only
      have read : Tracks { s with expectClose := readsMagic data }.core due (readsMagic data) :=
        ⟨tracks.deadline, tracks.user, tracks.armed, tracks.settled, fun _ _ => rfl, tracks.hung⟩
      by_cases fault : none ∈ data
      · rw [if_neg (by simp [fault]), if_neg (by simp [fault, locked])]
        exact read
      · rw [if_pos (by simp [fault]), if_pos ⟨empty, .inr fault⟩]
        exact read.ping _

theorem tracks_enter_user (tracks : Tracks s.core due seen) (alive : s.hung = false)
    (ovsel : Int) : Tracks (s.enter lib .user ovsel jiffies).1.core
      (if ovselOk ovsel = none then some (s.due jiffies) else due) seen := by
  obtain ⟨core, -⟩ := core_enter_armed lib (.inr rfl) ovsel jiffies s
  rw [core]
  by_cases valid : ovselOk ovsel = none
  · rw [if_pos valid, if_pos valid]
    exact tracks.enterUser alive _ _
  · rw [if_neg valid, if_neg valid]
    exact tracks

theorem tracks_enter_guard (tracks : Tracks s.core due seen) (alive : s.hung = false)
    (ovsel : Int) : Tracks (s.enter lib .bootguard ovsel jiffies).1.core due seen := by
  obtain ⟨core, -⟩ := core_enter_armed lib (.inl rfl) ovsel jiffies s
  rw [core]
  split
  · exact tracks.enterGuard alive _
  · exact tracks

theorem tracks_enter_stopped (tracks : Tracks s.core due seen) (alive : s.hung = false)
    (ovsel : Int) : Tracks (s.enter lib .stopped ovsel jiffies).1.core due seen :=
  tracks.stop alive

theorem softTimeout_enter (state : WdtState) (ovsel : Int) (s : Wdt) :
    (s.enter lib state ovsel jiffies).1.softTimeout = s.softTimeout := by
  unfold enter
  split
  · rfl
  · split <;> rfl

theorem core_settle (done : Wdt × Option Errno) : (settle done).1.core = done.1.core := by
  obtain ⟨s, e⟩ := done
  cases e <;> rfl

theorem due_settle (done : Wdt × Option Errno) :
    (settle done).1.due jiffies = done.1.due jiffies := by
  obtain ⟨s, e⟩ := done
  cases e <;> rfl

theorem tracks_setOptions (tracks : Tracks s.core due seen) (alive : s.hung = false)
    (v : UInt32) :
    Tracks (s.setOptions lib v jiffies).1.core
      (if v &&& wdiosEnablecard ≠ 0 ∧ ovselOk s.hwOvsel = none then
        some ((s.setOptions lib v jiffies).1.due jiffies) else due) seen := by
  have disabled : Tracks (s.disableCard lib v jiffies).1.core due seen ∧
      (s.disableCard lib v jiffies).1.hung = false ∧
      (s.disableCard lib v jiffies).1.hwOvsel = s.hwOvsel := by
    unfold disableCard
    split
    · exact ⟨tracks_enter_stopped lib jiffies tracks alive s.ovsel, alive, rfl⟩
    · exact ⟨tracks, alive, rfl⟩
  unfold setOptions
  rw [core_settle, due_settle]
  generalize s.disableCard lib v jiffies = done at disabled
  obtain ⟨tracks', alive', sameOvsel⟩ := disabled
  unfold enableCard
  by_cases enable : v &&& wdiosEnablecard ≠ 0
  · have entered := tracks_enter_user lib jiffies tracks' alive' done.1.hwOvsel
    have due_enter : (done.1.enter lib .user done.1.hwOvsel jiffies).1.due jiffies =
        done.1.due jiffies := by
      unfold Wdt.due
      rw [softTimeout_enter]
    rw [if_pos enable, due_enter, ← sameOvsel]
    simpa [enable] using entered
  · rw [if_neg enable, if_neg fun both => enable both.1]
    exact tracks'

theorem tracks_ioctl (tracks : Tracks s.core due seen) (alive : s.hung = false) (call : Ioctl) :
    Tracks (s.rtl819xWdtIoctl lib call jiffies).1.core
      (if (s.ioctlSetter call).isSome then
        some ((s.rtl819xWdtIoctl lib call jiffies).1.due jiffies) else due) seen := by
  cases call with
  | keepalive => exact tracks.ping _
  | setTimeout v put =>
      cases v with
      | none => exact tracks
      | some v =>
          unfold rtl819xWdtIoctl ioctlSetter
          dsimp only
          split
          · exact tracks
          · exact Tracks.ping (c := { s.core with softTimeout := v })
              ⟨tracks.deadline, tracks.user, tracks.armed, tracks.settled, tracks.magic,
                tracks.hung⟩ _
  | setOptions v =>
      cases v with
      | none => exact tracks
      | some v =>
          have set := tracks_setOptions lib jiffies tracks alive v
          unfold rtl819xWdtIoctl ioctlSetter
          dsimp only
          split
          · next both =>
            rw [if_pos both] at set
            exact set
          · next neither =>
            rw [if_neg neither] at set
            exact set
  | getSupport put => exact tracks
  | getStatus put => exact tracks
  | getBootStatus put => exact tracks
  | getTimeout put => exact tracks
  | getTimeLeft put => exact tracks
  | other => exact tracks

/-- A close after a magic write goes back to the boot guard. -/
theorem core_release_magic (valid : ovselOk s.hwOvsel = none) (magic : s.expectClose = true)
    (unlocked : s.nowayout = false) :
    (s.rtl819xWdtRelease lib jiffies).core =
      { s.core with
        openFlag := false
        expectClose := false
        state := .bootguard
        timer := some (jiffies + s.kickJiffies lib) } := by
  obtain ⟨core, -⟩ := core_enter_armed lib (.inl rfl) s.hwOvsel jiffies s
  rw [if_pos valid] at core
  unfold rtl819xWdtRelease
  rw [if_pos ⟨magic, by simp [unlocked]⟩]
  change { (s.enter lib .bootguard s.hwOvsel jiffies).1.core with
    expectClose := false, openFlag := false } = _
  rw [core]
  rfl

/-- Every other close leaves the rest of the state as it is. -/
theorem release_unclean (unclean : ¬ (s.expectClose = true ∧ ¬ s.nowayout = true)) :
    s.rtl819xWdtRelease lib jiffies =
      { s with
        nUncleanClose := s.nUncleanClose + 1, expectClose := false, openFlag := false } := by
  unfold rtl819xWdtRelease
  rw [if_neg unclean]

theorem tracks_release (tracks : Tracks s.core due seen) (alive : s.hung = false)
    (isOpen : s.openFlag = true) :
    Tracks (s.rtl819xWdtRelease lib jiffies).core due seen := by
  by_cases magic : s.expectClose = true ∧ ¬ s.nowayout = true
  · have guarded := tracks.enterGuard alive (jiffies + s.kickJiffies lib)
    rw [core_release_magic lib jiffies (tracks.settled isOpen) magic.1
      (Bool.eq_false_iff.mpr magic.2)]
    exact ⟨guarded.deadline, guarded.user, guarded.armed, by simp, by simp, guarded.hung⟩
  · rw [release_unclean lib jiffies magic]
    exact ⟨tracks.deadline, tracks.user, tracks.armed, by simp [core], by simp [core],
      tracks.hung⟩

end Device

end Wdt

end RlxFw.Watchdog
