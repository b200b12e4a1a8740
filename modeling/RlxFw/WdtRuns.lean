import RlxFw.WdtSteps

/-!
# The watchdog over its runs

From the driver's start on, over any run of ticks, opens, writes, calls of `ioctl`, closes
and verbs: when a tick feeds the hardware, and what a close leaves.
-/

namespace RlxFw.Watchdog

namespace Wdt

/-! ## The verbs -/

section Verbs

variable {s : Wdt} {due : Option UInt32} {seen : Bool} (lib : Library) (jiffies live : UInt32)

theorem core_verbWedge (s : Wdt) : (s.verbWedge live).1.core = s.core := by
  unfold verbWedge
  split
  · rfl
  · exact core_checkForeignLocked _ live

theorem core_verbRaw (raw : UInt32) (s : Wdt) : (s.verbRaw raw).1.core = s.core := by
  unfold verbRaw
  dsimp only
  split
  · rfl
  · split <;> rfl

theorem tracks_bite (tracks : Tracks s.core due seen) (ovsel : Int) (raw : UInt32)
    (useRaw : Bool) : Tracks (s.verbBite ovsel raw useRaw).1.core due seen := by
  unfold verbBite
  dsimp only
  split
  · exact tracks
  · exact ⟨tracks.deadline, by simp [core, wr], by simp [core, wr], tracks.settled, tracks.magic,
      fun _ => rfl⟩

theorem tracks_kickms (tracks : Tracks s.core due seen) (v : Int) :
    Tracks (s.verbKickms lib jiffies v).1.core due seen := by
  unfold verbKickms
  split
  · exact tracks
  · dsimp only
    split
    · exact tracks.retime _ fun _ => rfl
    · exact tracks

theorem tracks_reenter (tracks : Tracks s.core due seen) (alive : s.hung = false)
    (armed : s.Armed) {v : Int} (valid : ovselOk v = none) :
    Tracks (s.enter lib s.state v jiffies).1.core
      (if s.state = .user then some ((s.enter lib s.state v jiffies).1.due jiffies) else due)
      seen := by
  have same : (s.enter lib s.state v jiffies).1.due jiffies = s.due jiffies := by
    unfold Wdt.due
    rw [softTimeout_enter]
  rw [same]
  rcases armed with guard | user
  · rw [guard, if_neg (by decide)]
    exact tracks_enter_guard lib jiffies tracks alive v
  · have entered := tracks_enter_user lib jiffies tracks alive v
    rw [if_pos valid] at entered
    rw [user, if_pos rfl]
    exact entered

/-- The `ovsel` verb sets the deadline in the user state. -/
theorem tracks_ovsel (tracks : Tracks s.core due seen) (alive : s.hung = false) {v : Int}
    (valid : ovselOk v = none) :
    Tracks (s.verbOvsel lib jiffies v).1.core
      (if s.state = .user then some ((s.verbOvsel lib jiffies v).1.due jiffies) else due)
      seen := by
  have taken : Tracks { s with hwOvsel := v }.core due seen :=
    ⟨tracks.deadline, tracks.user, tracks.armed, fun _ => valid, tracks.magic, tracks.hung⟩
  unfold verbOvsel
  rw [valid]
  dsimp only
  by_cases armed : { s with hwOvsel := v }.Armed
  · have reentered := tracks_reenter lib jiffies taken alive armed valid
    rw [if_pos armed]
    exact reentered
  · have notUser : ¬ s.state = .user := fun user => armed (.inr user)
    rw [if_neg armed, if_neg notUser]
    exact taken

theorem ovsel_invalid {v : Int} {e : Errno} (invalid : ovselOk v = some e) (s : Wdt) :
    s.verbOvsel lib jiffies v = (s, some e) := by
  unfold verbOvsel
  rw [invalid]

theorem tracks_withNumber (tracks : Tracks s.core due seen) (arg : List UInt8)
    {verb : Int → Wdt × Option Errno} (kept : ∀ v, Tracks (verb v).1.core due seen) :
    Tracks (withNumber lib arg s verb).1.core due seen := by
  unfold withNumber
  cases parseInt lib arg with
  | error e => exact tracks
  | ok v => exact kept v

/-- What is taken is a verb or is behind it. -/
theorem verb_cases {Done : Type} {c : Prop} [Decidable c] {verb done : Done}
    {behind : Option Done} (taken : (if c then some verb else behind) = some done) :
    (c ∧ verb = done) ∨ (¬ c ∧ behind = some done) := by
  by_cases met : c
  · rw [if_pos met] at taken
    exact .inl ⟨met, Option.some_inj.mp taken⟩
  · rw [if_neg met] at taken
    exact .inr ⟨met, taken⟩

/-- The lines other than an `ovsel` leave the deadline as it was set. -/
theorem tracks_dispatch (tracks : Tracks s.core due seen) (alive : s.hung = false)
    {line : List UInt8} (other : ¬ (ascii "ovsel ").isPrefixOf line = true)
    {done : Wdt × Option Errno} (taken : s.dispatch lib line jiffies live = some done) :
    Tracks done.1.core due seen := by
  unfold dispatch at taken
  obtain ⟨-, rfl⟩ | ⟨-, taken⟩ := verb_cases taken
  · exact tracks_enter_stopped lib jiffies tracks alive s.ovsel
  obtain ⟨-, rfl⟩ | ⟨-, taken⟩ := verb_cases taken
  · exact tracks_enter_guard lib jiffies tracks alive _
  obtain ⟨-, rfl⟩ | ⟨-, taken⟩ := verb_cases taken
  · dsimp only
    split
    · rw [core_kickLocked]
      exact tracks
    · exact tracks
  rw [if_neg other] at taken
  obtain ⟨-, rfl⟩ | ⟨-, taken⟩ := verb_cases taken
  · exact tracks_withNumber lib tracks _ (tracks_kickms lib jiffies tracks)
  obtain ⟨-, rfl⟩ | ⟨-, taken⟩ := verb_cases taken
  · exact tracks_withNumber lib tracks _ fun v => tracks_bite tracks v 0 false
  obtain ⟨-, rfl⟩ | ⟨-, taken⟩ := verb_cases taken
  · exact tracks_withNumber lib tracks _ fun v => tracks_bite tracks (-1) _ true
  obtain ⟨-, rfl⟩ | ⟨-, taken⟩ := verb_cases taken
  · refine tracks_withNumber lib tracks _ fun v => ?_
    rw [core_verbRaw]
    exact tracks
  obtain ⟨-, rfl⟩ | ⟨-, taken⟩ := verb_cases taken
  · rw [core_verbWedge]
    exact tracks
  obtain ⟨-, rfl⟩ | ⟨-, taken⟩ := verb_cases taken
  · exact tracks
  obtain ⟨-, rfl⟩ | ⟨-, taken⟩ := verb_cases taken
  · exact tracks
  cases taken

theorem dispatch_ovsel {line : List UInt8} (isOvsel : (ascii "ovsel ").isPrefixOf line = true)
    (s : Wdt) : s.dispatch lib line jiffies live =
      some (withNumber lib (line.drop 6) s (s.verbOvsel lib jiffies)) := by
  have other (name : List UInt8) (apart : (ascii "ovsel ").isPrefixOf name = false) :
      ¬ line = name := by
    rintro rfl
    rw [apart] at isOvsel
    cases isOvsel
  unfold dispatch
  rw [if_neg (other (ascii "stop") (by decide)), if_neg (other (ascii "bootguard") (by decide)),
    if_neg (other (ascii "kick") (by decide)), if_pos isOvsel]

/-- What a write to the `/proc` file does, whatever its line is. -/
theorem tracks_writeProc (tracks : Tracks s.core due seen) (alive : s.hung = false)
    (bytes : List UInt8) (copied : Bool) :
    Tracks (s.rtl819xWdtWriteProc lib bytes copied jiffies live).1.core
      (if copied ∧ s.state = .user ∧ (ovselLine lib (lineOf bytes)).isSome then
        some ((s.rtl819xWdtWriteProc lib bytes copied jiffies live).1.due jiffies) else due)
      seen := by
  unfold rtl819xWdtWriteProc
  cases copied with
  | false => simpa using tracks
  | true =>
      simp only [not_true, if_false, true_and]
      generalize lineOf bytes = line
      by_cases isOvsel : (ascii "ovsel ").isPrefixOf line = true
      · rw [dispatch_ovsel lib jiffies live isOvsel]
        unfold ovselLine withNumber
        rw [if_pos isOvsel]
        dsimp only
        rw [core_settle, due_settle]
        cases parseInt lib (line.drop 6) with
        | error e => simpa using tracks
        | ok v =>
            dsimp only
            by_cases valid : ovselOk v = none
            · have set := tracks_ovsel lib jiffies tracks alive valid
              simpa [valid] using set
            · obtain ⟨e, refused⟩ := Option.ne_none_iff_exists'.mp valid
              rw [ovsel_invalid lib jiffies refused]
              simpa [refused] using tracks
      · have noLine : ovselLine lib line = none := if_neg isOvsel
        rw [noLine]
        simp only [Option.isSome_none, Bool.false_eq_true, and_false, if_false]
        split
        · exact tracks
        · next done result =>
          rw [core_settle]
          exact tracks_dispatch lib jiffies live tracks alive isOvsel result

end Verbs

/-! ## Runs -/

section Runs

variable (lib : Library)

/-- The last deadline set, after an event: by the operations that count. -/
def nextDue (counts : Setter → Bool) (s : Wdt) (due : Option UInt32) (e : Event) :
    Option UInt32 :=
  if (s.setter lib e.op).any counts then some ((s.step lib e).due e.jiffies) else due

/-- The last deadline set in a run, by the operations that count. -/
def dueBy (counts : Setter → Bool) (s : Wdt) (due : Option UInt32) : List Event → Option UInt32
  | [] => due
  | e :: rest => (s.step lib e).dueBy counts (s.nextDue lib counts due e) rest

/-- Whether the last write on the open device read a `V`, after a run. -/
def lastMagic (emptyWrites : Bool) (s : Wdt) (seen : Bool) : List Event → Bool
  | [] => seen
  | e :: rest => (s.step lib e).lastMagic emptyWrites (s.magicSeen emptyWrites seen e.op) rest

variable {s : Wdt} {due : Option UInt32} {seen : Bool}

theorem tracks_of_set {c : Core} {t : UInt32} {P : Prop} [Decidable P] (how : Setter)
    (tracks : Tracks c (if P then some t else due) seen) :
    Tracks c (if (if P then some how else none).isSome then some t else due) seen := by
  by_cases set : P
  · simpa [set] using tracks
  · simpa [set] using tracks

/-- What every event keeps. -/
theorem tracks_step (tracks : Tracks s.core due seen) (e : Event) :
    Tracks (s.step lib e).core (s.nextDue lib (fun _ => true) due e)
      (s.magicSeen false seen e.op) := by
  unfold nextDue
  rw [show (s.setter lib e.op).any (fun _ => true) = (s.setter lib e.op).isSome by
    cases s.setter lib e.op <;> rfl]
  obtain ⟨op, jiffies, live⟩ := e
  unfold step setter magicSeen
  by_cases hung : s.hung = true
  · simpa [hung] using tracks
  · have alive : s.hung = false := Bool.eq_false_iff.mpr hung
    simp only [alive, Bool.false_eq_true, if_false]
    cases op with
    | tick =>
        simp only [Option.isSome_none, Bool.false_eq_true, if_false]
        rw [core_tick]
        exact tracks.retime _ fun armed => by
          have isArmed : s.Armed := armed
          rw [if_pos isArmed]
          rfl
    | opens =>
        exact tracks_of_set _ (tracks_open lib jiffies tracks alive)
    | write data =>
        by_cases isOpen : s.openFlag = true
        · simp only [isOpen, if_true, true_and, false_or]
          exact tracks_of_set _ (tracks_write jiffies tracks data)
        · simpa [isOpen] using tracks
    | ioctl call =>
        by_cases isOpen : s.openFlag = true
        · simp only [isOpen, if_true]
          exact tracks_ioctl lib jiffies tracks alive call
        · simpa [isOpen] using tracks
    | release =>
        by_cases isOpen : s.openFlag = true
        · simp only [isOpen, if_true, Option.isSome_none, Bool.false_eq_true, if_false]
          exact tracks_release lib jiffies tracks alive isOpen
        · simpa [isOpen] using tracks
    | verb bytes copied =>
        exact tracks_of_set _ (tracks_writeProc lib jiffies live tracks alive bytes copied)

theorem tracks_run (tracks : Tracks s.core due seen) (run : List Event) :
    Tracks (s.run lib run).core (s.dueBy lib (fun _ => true) due run)
      (s.lastMagic lib false seen run) := by
  induction run generalizing s due seen with
  | nil => exact tracks
  | cons e rest ih => exact ih (tracks_step lib tracks e)

/-- A driver as its start leaves it. -/
theorem tracks_init (p : Params) (probeVal jiffies : UInt32) :
    Tracks (rtl819xWdtInit lib p probeVal jiffies).core none false := by
  have loaded : Tracks (p.loaded probeVal).core none false :=
    ⟨by simp, by simp [core, Params.loaded], by simp [core, Params.loaded],
      by simp [core, Params.loaded], by simp [core, Params.loaded],
      by simp [core, Params.loaded]⟩
  unfold rtl819xWdtInit
  dsimp only
  split
  · exact tracks_enter_guard lib jiffies loaded rfl _
  · exact loaded

/-- A step feeds the hardware: it writes a word with the strobe. -/
def Kicks (s s' : Wdt) : Prop :=
  ∃ words, s'.wrote = s.wrote ++ words ∧ ∃ w ∈ words, w &&& wdtclr ≠ 0

theorem strobe_ne_zero (shadow : UInt32) : (shadow ||| wdtclr) &&& wdtclr ≠ 0 := by
  intro none
  have bit := congrArg (fun w : UInt32 => w.toBitVec.getLsbD 23) none
  simp [wdtclr] at bit

theorem kicks_feed (jiffies live : UInt32) (s : Wdt) : Kicks s (s.feed lib jiffies live) := by
  refine ⟨[s.shadow ||| wdtclr], ?_, _, List.mem_singleton_self _, strobe_ne_zero s.shadow⟩
  exact wrote_kickLocked { s with timer := none } live

theorem not_kicks_miss (jiffies : UInt32) (s : Wdt) : ¬ Kicks s (s.miss lib jiffies) := by
  rintro ⟨words, wrote, w, member, -⟩
  have none : s.wrote ++ [] = s.wrote ++ words := (List.append_nil _).trans wrote
  rw [← List.append_cancel_left none] at member
  cases member

end Runs

/-! ## What the watchdog guards -/

/-- Jiffies that are less than `2^31` apart are in the order of their times. -/
theorem timeBefore_ofNat {now due : Nat} (soon : due < now + 2 ^ 31) (recent : now < due + 2 ^ 31) :
    timeBefore (UInt32.ofNat now) (UInt32.ofNat due) = true ↔ now < due := by
  unfold timeBefore
  rw [decide_eq_true_eq, UInt32.le_iff_toNat_le, UInt32.toNat_sub, UInt32.toNat_ofNat',
    UInt32.toNat_ofNat']
  change 2147483648 ≤ _ ↔ _
  omega

section Guarded

variable (lib : Library)

/-- In the user state a tick feeds the hardware exactly before the last deadline set, in the
order of jiffies. -/
def TicksByDeadline (counts : Setter → Bool) (s₀ : Wdt) : Prop :=
  ∀ run e, (s₀.run lib run).state = .user → e.op = .tick →
    ∃ due, s₀.dueBy lib counts none run = some due ∧
      (Kicks (s₀.run lib run) ((s₀.run lib run).step lib e) ↔ timeBefore e.jiffies due = true)

/-- A close goes back from the user state to the boot guard exactly when it may and the last
write on the open device read a `V`; else it leaves the deadline running. -/
def ClosesByMagic (emptyWrites : Bool) (s₀ : Wdt) : Prop :=
  ∀ run e, (s₀.run lib run).state = .user → (s₀.run lib run).openFlag = true →
    e.op = .release →
    if (s₀.run lib run).nowayout = false ∧ s₀.lastMagic lib emptyWrites false run = true then
      ((s₀.run lib run).step lib e).state = .bootguard
    else
      ((s₀.run lib run).step lib e).state = .user ∧
        ((s₀.run lib run).step lib e).deadline = (s₀.run lib run).deadline ∧
        ((s₀.run lib run).step lib e).timer = (s₀.run lib run).timer ∧
        ((s₀.run lib run).step lib e).wrote = (s₀.run lib run).wrote

/-- The watchdog bites a dead user space, and never a booting one. -/
structure Guarded (s₀ : Wdt) : Prop where
  ticks : TicksByDeadline lib (fun _ => true) s₀
  closes : ClosesByMagic lib false s₀
  /-- In the boot guard every tick feeds the hardware. -/
  guard : ∀ run e, (s₀.run lib run).state = .bootguard → e.op = .tick →
    Kicks (s₀.run lib run) ((s₀.run lib run).step lib e)
  /-- In both armed states the timer is pending, and a tick stays there and sets it again. -/
  rearms : ∀ run, (s₀.run lib run).Armed → (s₀.run lib run).timer.isSome = true ∧
    ∀ e, e.op = .tick →
      ((s₀.run lib run).step lib e).state = (s₀.run lib run).state ∧
        ((s₀.run lib run).step lib e).timer =
          some (e.jiffies + (s₀.run lib run).kickJiffies lib)

variable {lib} {s : Wdt} {due : Option UInt32} {seen : Bool}

theorem step_tick (tracks : Tracks s.core due seen) (armed : s.Armed) {e : Event}
    (isTick : e.op = .tick) : s.step lib e = s.tick lib e.jiffies e.live := by
  have alive : ¬ s.hung = true := by
    intro hung
    have bite : s.state = .bite := tracks.hung hung
    rcases armed with guard | user
    · rw [bite] at guard
      cases guard
    · rw [bite] at user
      cases user
  unfold step
  rw [if_neg alive, isTick]

theorem step_release (tracks : Tracks s.core due seen) (user : s.state = .user)
    (isOpen : s.openFlag = true) {e : Event} (isRelease : e.op = .release) :
    s.step lib e = s.rtl819xWdtRelease lib e.jiffies := by
  have alive : ¬ s.hung = true := by
    intro hung
    have bite : s.state = .bite := tracks.hung hung
    rw [bite] at user
    cases user
  unfold step
  rw [if_neg alive, isRelease]
  exact if_pos isOpen

/-- In the user state a tick feeds the hardware exactly before the deadline. -/
theorem kicks_tick (user : s.state = .user) (jiffies live : UInt32) :
    Kicks s (s.tick lib jiffies live) ↔ timeBefore jiffies s.deadline = true := by
  by_cases before : timeBefore jiffies s.deadline = true
  · rw [tick_before lib jiffies live user before]
    exact iff_of_true (kicks_feed lib jiffies live s) before
  · rw [tick_due lib jiffies live user before]
    exact iff_of_false (not_kicks_miss lib jiffies s) before

/-- From every start, the watchdog guards. -/
theorem guarded (lib : Library) (p : Params) (probeVal jiffies : UInt32) :
    Guarded lib (rtl819xWdtInit lib p probeVal jiffies) := by
  have start := tracks_init lib p probeVal jiffies
  generalize rtl819xWdtInit lib p probeVal jiffies = s₀ at start
  refine ⟨?_, ?_, ?_, ?_⟩
  · intro run e user isTick
    have tracks := tracks_run lib start run
    obtain ⟨due, isDue⟩ := Option.isSome_iff_exists.mp (tracks.user user)
    have deadline : (s₀.run lib run).deadline = due := tracks.deadline due isDue
    refine ⟨due, isDue, ?_⟩
    rw [step_tick tracks (.inr user) isTick, ← deadline]
    exact kicks_tick user e.jiffies e.live
  · intro run e user isOpen isRelease
    have tracks := tracks_run lib start run
    rw [step_release tracks user isOpen isRelease]
    by_cases may : (s₀.run lib run).nowayout = false ∧ s₀.lastMagic lib false false run = true
    · have magic : (s₀.run lib run).expectClose = true :=
        (tracks.magic isOpen may.1).trans may.2
      have closed := core_release_magic lib e.jiffies (tracks.settled isOpen) magic may.1
      rw [if_pos may]
      exact congrArg Core.state closed
    · have unclean : ¬ ((s₀.run lib run).expectClose = true ∧
          ¬ (s₀.run lib run).nowayout = true) := by
        rintro ⟨magic, unlocked⟩
        have unset : (s₀.run lib run).nowayout = false := Bool.eq_false_iff.mpr unlocked
        exact may ⟨unset, (tracks.magic isOpen unset).symm.trans magic⟩
      rw [if_neg may, release_unclean lib e.jiffies unclean]
      exact ⟨user, rfl, rfl, rfl⟩
  · intro run e guard isTick
    rw [step_tick (tracks_run lib start run) (.inl guard) isTick,
      tick_bootguard lib e.jiffies e.live guard]
    exact kicks_feed lib e.jiffies e.live _
  · intro run armed
    have tracks := tracks_run lib start run
    refine ⟨tracks.armed armed, fun e isTick => ?_⟩
    rw [step_tick tracks armed isTick]
    have core := core_tick lib e.jiffies e.live (s₀.run lib run)
    rw [if_pos armed] at core
    exact ⟨congrArg Core.state core, congrArg Core.timer core⟩

/-- Kernel functions for short runs: a jiffy in ten milliseconds, and no number read. -/
def tenMs : Library := ⟨fun ms => UInt32.ofNat ((ms + 9) / 10), fun s => (0, s)⟩

/-- The parameters that the module is built with. -/
def defaults : Params := ⟨9, 250, 60, true, false⟩

/-- The opens, the writes and `KEEPALIVE`s, and the new timeouts alone. -/
def Setter.plain : Setter → Bool
  | .opened => true
  | .pinged => true
  | .timeoutChanged => true
  | .enabled => false
  | .reentered => false

/-- An `ENABLECARD` moves the deadline, and a write of no bytes does not take a `V` back. -/
theorem deadline_moved_and_magic_kept :
    ¬ TicksByDeadline tenMs Setter.plain (rtl819xWdtInit tenMs defaults 0xA5000000 0) ∧
      ¬ ClosesByMagic tenMs true (rtl819xWdtInit tenMs defaults 0xA5000000 0) := by
  constructor
  · intro ticks
    obtain ⟨due, isDue, kicks⟩ := ticks
      [⟨.opens, 0, 0⟩, ⟨.ioctl (.setOptions (some wdiosEnablecard)), 5000, 0⟩]
      ⟨.tick, 6500, 0⟩ (by decide) rfl
    obtain rfl : 6000 = due := Option.some_inj.mp isDue
    have fed := kicks.mp ⟨[10747904], by decide, 10747904, List.mem_singleton_self _, by decide⟩
    exact absurd fed (by decide)
  · intro closes
    have closed := closes
      [⟨.opens, 0, 0⟩, ⟨.write [some 0x56], 10, 0⟩, ⟨.write [], 20, 0⟩]
      ⟨.release, 30, 0⟩ (by decide) (by decide) rfl
    rw [if_neg (by decide)] at closed
    exact absurd closed.1 (by decide)

end Guarded

end Wdt

end RlxFw.Watchdog
