import RlxFw.Ascii

/-!
# The watchdog driver

`drivers/watchdog/rtl819x-wdt.c`: the kernel timer that feeds the hardware, the device file,
and the verbs of the `/proc` file.  The words written to `WDTCNR` are kept in their order.
-/

namespace RlxFw.Watchdog

/-- `enum rtl819x_wdt_state`. -/
inductive WdtState where
  | stopped
  | bootguard
  | user
  | bite
deriving DecidableEq, Repr

/-- What the driver may return. -/
inductive Errno where
  | einval
  | eopnotsupp
  | ebusy
  | efault
  | enotty
  | eperm
deriving DecidableEq, Repr

/-- `HZ`. -/
def hz : Int := 100

/-- `WDTE_STOP`. -/
def wdteStop : UInt32 := 0xA5

/-- `WDTE_RUN`. -/
def wdteRun : UInt32 := 0x00

/-- `WDTCLR`. -/
def wdtclr : UInt32 := (1 : UInt32) <<< 23

/-- `WDTIND`. -/
def wdtind : UInt32 := (1 : UInt32) <<< 20

/-- `OVSEL_B0`. -/
def ovselB0 : UInt32 := (1 : UInt32) <<< 21

/-- `OVSEL_B1`. -/
def ovselB1 : UInt32 := (1 : UInt32) <<< 22

/-- `OVSEL_B3`. -/
def ovselB3 : UInt32 := (1 : UInt32) <<< 18

/-- `WDTCNR_KNOWN_MASK`. -/
def wdtcnrKnownMask : UInt32 :=
  (0xFF : UInt32) <<< 24 ||| wdtclr ||| ovselB0 ||| ovselB1 ||| ovselB3

/-- `WDTCNR_VOLATILE_MASK`. -/
def wdtcnrVolatileMask : UInt32 := wdtclr ||| wdtind

/-- `struct rtl819x_wdt_step`, but for the time that `/proc` shows. -/
structure WdtStep where
  enc : UInt32
  valid : Bool
deriving DecidableEq, Repr

/-- `rtl819x_wdt_steps`. -/
def wdtSteps : List WdtStep :=
  [⟨0, true⟩, ⟨ovselB0, true⟩, ⟨ovselB1, true⟩, ⟨ovselB1 ||| ovselB0, true⟩,
    ⟨0, false⟩, ⟨0, false⟩, ⟨0, false⟩, ⟨0, false⟩,
    ⟨ovselB3, true⟩, ⟨ovselB3 ||| ovselB0, true⟩]

/-- The setting of an `OVSEL`, if it is in the table. -/
def wdtStep (ovsel : Int) : Option WdtStep :=
  if ovsel < 0 then none else wdtSteps[ovsel.toNat]?

/-- `time_before`: the sign of the difference, as a `long`. -/
def timeBefore (a b : UInt32) : Bool := 0x80000000 ≤ a - b

/-- What the driver calls of the kernel's libraries. -/
structure Library where
  msecsToJiffies : Nat → UInt32
  /-- `simple_strtoul` at base 0: the value, and what follows it. -/
  strtoul : List UInt8 → Nat × List UInt8

/-- The driver's state, and the words that it has written to its register. -/
structure Wdt where
  hwOvsel : Int
  kickMs : Int
  softTimeout : Int
  nowayout : Bool
  state : WdtState
  ovsel : Int
  shadow : UInt32
  deadline : UInt32
  timer : Option UInt32
  nHwKick : UInt32
  nUserPing : UInt32
  nArm : UInt32
  nStop : UInt32
  nSettimeout : UInt32
  nStateForeign : UInt32
  nMissed : UInt32
  nBite : UInt32
  nWedge : UInt32
  nReject : UInt32
  nUncleanClose : UInt32
  openFlag : Bool
  expectClose : Bool
  unlocked : Bool
  /-- In the loop that ends a bite. -/
  hung : Bool
  wrote : List UInt32

/-- `rtl819x_wdt_compose`. -/
def rtl819xWdtCompose (running : Bool) (ovsel : Int) (kick : Bool) : UInt32 :=
  let v := (if running then wdteRun else wdteStop) <<< 24
  let v := v ||| ((wdtStep ovsel).map WdtStep.enc).getD 0
  (if kick then v ||| wdtclr else v) &&& wdtcnrKnownMask

namespace Wdt

/-- A refusal counted. -/
def reject (s : Wdt) : Wdt := { s with nReject := s.nReject + 1 }

/-- `rtl819x_wdt_wr`. -/
def wr (v : UInt32) (s : Wdt) : Wdt := { s with wrote := s.wrote ++ [v] }

/-- `rtl819x_wdt_check_foreign_locked`, with the word that the register reads. -/
def checkForeignLocked (live : UInt32) (s : Wdt) : Wdt :=
  if live &&& ~~~wdtcnrVolatileMask ≠ s.shadow &&& ~~~wdtcnrVolatileMask then
    { s with nStateForeign := s.nStateForeign + 1 }
  else s

/-- `rtl819x_wdt_arm_locked`. -/
def armLocked (ovsel : Int) (s : Wdt) : Wdt :=
  let s := { s with shadow := rtl819xWdtCompose true ovsel false, ovsel }
  let s := s.wr (s.shadow ||| wdtclr)
  { s with nArm := s.nArm + 1, nHwKick := s.nHwKick + 1 }

/-- `rtl819x_wdt_stop_locked`. -/
def stopLocked (s : Wdt) : Wdt :=
  let s := { s with shadow := rtl819xWdtCompose false s.ovsel false }
  let s := s.wr s.shadow
  { s with nStop := s.nStop + 1 }

/-- `rtl819x_wdt_kick_locked`. -/
def kickLocked (live : UInt32) (s : Wdt) : Wdt :=
  let s := s.checkForeignLocked live
  let s := s.wr (s.shadow ||| wdtclr)
  { s with nHwKick := s.nHwKick + 1 }

section Timer

variable (lib : Library)

/-- `rtl819x_wdt_kick_jiffies`. -/
def kickJiffies (s : Wdt) : UInt32 :=
  let j := lib.msecsToJiffies (if s.kickMs > 0 then s.kickMs.toNat else 0)
  if j ≠ 0 then j else 1

/-- `mod_timer(&rtl819x_wdt_timer, jiffies + rtl819x_wdt_kick_jiffies())`. -/
def modTimer (jiffies : UInt32) (s : Wdt) : Wdt :=
  { s with timer := some (jiffies + s.kickJiffies lib) }

/-- `rtl819x_wdt_tick`, of a timer that is no longer pending. -/
def tick (jiffies live : UInt32) (s : Wdt) : Wdt :=
  let s := { s with timer := none }
  match s.state with
  | .bootguard => (s.kickLocked live).modTimer lib jiffies
  | .user =>
      if timeBefore jiffies s.deadline then (s.kickLocked live).modTimer lib jiffies
      else { s with nMissed := s.nMissed + 1 }.modTimer lib jiffies
  | .stopped => s
  | .bite => s

/-- `rtl819x_wdt_ovsel_ok`. -/
def ovselOk (ovsel : Int) : Option Errno :=
  match wdtStep ovsel with
  | none => some .einval
  | some step => if step.valid then none else some .eopnotsupp

/-- The deadline that is set now. -/
def due (jiffies : UInt32) (s : Wdt) : UInt32 := jiffies + UInt32.ofInt (s.softTimeout * hz)

/-- `rtl819x_wdt_enter` on the armed states, once the setting is accepted. -/
def arm (state : WdtState) (ovsel : Int) (jiffies : UInt32) (s : Wdt) : Wdt :=
  let s := { s with
    state
    deadline := if state = WdtState.user then s.due jiffies else s.deadline }
  (s.armLocked ovsel).modTimer lib jiffies

/-- `rtl819x_wdt_enter`. -/
def enter (state : WdtState) (ovsel : Int) (jiffies : UInt32) (s : Wdt) : Wdt × Option Errno :=
  match if state = .bootguard ∨ state = .user then ovselOk ovsel else none with
  | some e => (s, some e)
  | none =>
      if state = .stopped then ({ { s with state }.stopLocked with timer := none }, none)
      else (s.arm lib state ovsel jiffies, none)

end Timer

/-- `rtl819x_wdt_ping`. -/
def ping (jiffies : UInt32) (s : Wdt) : Wdt :=
  { s with deadline := s.due jiffies, nUserPing := s.nUserPing + 1 }

/-! ## The device -/

section Device

variable (lib : Library)

/-- `rtl819x_wdt_open`. -/
def rtl819xWdtOpen (jiffies : UInt32) (s : Wdt) : Wdt × Option Errno :=
  if s.openFlag then (s, some .ebusy)
  else
    let s := { s with openFlag := true, expectClose := false }
    match s.enter lib .user s.hwOvsel jiffies with
    | (s, some e) => ({ s with openFlag := false }.reject, some e)
    | (s, none) => (s, none)

/-- `rtl819x_wdt_release`. -/
def rtl819xWdtRelease (jiffies : UInt32) (s : Wdt) : Wdt :=
  let s :=
    if s.expectClose ∧ ¬ s.nowayout then (s.enter lib .bootguard s.hwOvsel jiffies).1
    else { s with nUncleanClose := s.nUncleanClose + 1 }
  { s with expectClose := false, openFlag := false }

/-- The loop of `rtl819x_wdt_write`: whether a `V` was read, and whether every byte was. -/
def scan (expectClose : Bool) : List (Option UInt8) → Bool × Bool
  | [] => (expectClose, true)
  | none :: _ => (expectClose, false)
  | some c :: rest => scan (if c = 0x56 then true else expectClose) rest

/-- `rtl819x_wdt_write`, of bytes some of which may not be readable. -/
def rtl819xWdtWrite (data : List (Option UInt8)) (jiffies : UInt32) (s : Wdt) :
    Wdt × Except Errno Nat :=
  if data.length = 0 then (s, .ok 0)
  else if ¬ s.nowayout then
    let read := scan false data
    let s := { s with expectClose := read.1 }
    if read.2 then (s.ping jiffies, .ok data.length) else (s, .error .efault)
  else (s.ping jiffies, .ok data.length)

/-- A call of `ioctl`: what is read from the caller if it is readable, and whether the answer
can be put there. -/
inductive Ioctl where
  | getSupport (put : Bool)
  | getStatus (put : Bool)
  | getBootStatus (put : Bool)
  | keepalive
  | setTimeout (v : Option Int) (put : Bool)
  | getTimeout (put : Bool)
  | getTimeLeft (put : Bool)
  | setOptions (v : Option UInt32)
  | other
deriving DecidableEq, Repr

/-- `put_user`. -/
def putUser (v : Int) (put : Bool) : Except Errno Int := if put then .ok v else .error .efault

/-- `WDIOS_DISABLECARD`. -/
def wdiosDisablecard : UInt32 := 1

/-- `WDIOS_ENABLECARD`. -/
def wdiosEnablecard : UInt32 := 2

/-- `WDIOS_DISABLECARD` of a `WDIOC_SETOPTIONS`. -/
def disableCard (v jiffies : UInt32) (s : Wdt) : Wdt × Option Errno :=
  if v &&& wdiosDisablecard ≠ 0 then ((s.enter lib .stopped s.ovsel jiffies).1, none)
  else (s, some .einval)

/-- `WDIOS_ENABLECARD` of a `WDIOC_SETOPTIONS`, after the other. -/
def enableCard (v jiffies : UInt32) (done : Wdt × Option Errno) : Wdt × Option Errno :=
  if v &&& wdiosEnablecard ≠ 0 then done.1.enter lib .user done.1.hwOvsel jiffies else done

/-- A refusal counted, if it is one. -/
def settle : Wdt × Option Errno → Wdt × Option Errno
  | (s, some e) => (s.reject, some e)
  | (s, none) => (s, none)

/-- `WDIOC_SETOPTIONS` of `rtl819x_wdt_ioctl`. -/
def setOptions (v jiffies : UInt32) (s : Wdt) : Wdt × Option Errno :=
  settle (enableCard lib v jiffies (s.disableCard lib v jiffies))

/-- `rtl819x_wdt_ioctl`: the errno, or what is put to the caller. -/
def rtl819xWdtIoctl (call : Ioctl) (jiffies : UInt32) (s : Wdt) : Wdt × Except Errno Int :=
  match call with
  | .getSupport put => (s, putUser 0 put)
  | .getStatus put => (s, putUser 0 put)
  | .getBootStatus put => (s, putUser 0 put)
  | .keepalive => (s.ping jiffies, .ok 0)
  | .setTimeout none _ => (s, .error .efault)
  | .setTimeout (some v) put =>
      if v < 1 ∨ v > 3600 then (s.reject, .error .einval)
      else
        let s := { s with softTimeout := v, nSettimeout := s.nSettimeout + 1 }
        (s.ping jiffies, putUser v put)
  | .getTimeout put => (s, putUser s.softTimeout put)
  | .getTimeLeft put =>
      (s, putUser (max 0 ((s.deadline - jiffies).toInt32.toInt.tdiv hz)) put)
  | .setOptions none => (s, .error .efault)
  | .setOptions (some v) =>
      let done := s.setOptions lib v jiffies
      (done.1, done.2.elim (.ok 0) .error)
  | .other => (s.reject, .error .enotty)

end Device

/-! ## The verbs -/

section Verbs

variable (lib : Library)

/-- `rtl819x_wdt_verb_bite`, whose last loop never ends. -/
def verbBite (ovsel : Int) (raw : UInt32) (useRaw : Bool) (s : Wdt) : Wdt × Option Errno :=
  let refusal :=
    if ¬ useRaw then ovselOk ovsel
    else if ¬ s.unlocked then some .eperm
    else if raw >>> 24 &&& 0xFF ≠ wdteRun then some .einval
    else none
  let word := if useRaw then raw else rtl819xWdtCompose true ovsel true
  match refusal with
  | some e => (s, some e)
  | none =>
      let s := { s with
        state := .bite, nBite := s.nBite + 1, shadow := rtl819xWdtCompose false s.ovsel false }
      let s := s.wr s.shadow
      ({ s with shadow := word &&& ~~~wdtclr, hung := true }.wr word, none)

/-- `rtl819x_wdt_verb_wedge`. -/
def verbWedge (live : UInt32) (s : Wdt) : Wdt × Option Errno :=
  if ¬ s.unlocked then (s, some .eperm)
  else
    let s := s.wr (rtl819xWdtCompose false 9 false ^^^ ovselB1)
    let s := { s with nWedge := s.nWedge + 1 }.checkForeignLocked live
    (s.wr s.shadow, none)

/-- `rtl819x_wdt_verb_raw`. -/
def verbRaw (raw : UInt32) (s : Wdt) : Wdt × Option Errno :=
  let e := raw >>> 24 &&& 0xFF
  if ¬ s.unlocked then (s, some .eperm)
  else if e ≠ wdteRun ∧ e ≠ wdteStop then (s, some .einval)
  else ({ s with shadow := raw &&& ~~~wdtclr }.wr raw, none)

/-- `rtl819x_wdt_parse_int`, as a `long`. -/
def parseInt (arg : List UInt8) : Except Errno Int :=
  let parsed := lib.strtoul arg
  if parsed.2 = arg then .error .einval else .ok (BitVec.ofNat 32 parsed.1).toInt

/-- A verb with a number. -/
def withNumber (arg : List UInt8) (s : Wdt) (verb : Int → Wdt × Option Errno) :
    Wdt × Option Errno :=
  match parseInt lib arg with
  | .error e => (s, some e)
  | .ok v => verb v

/-- Whether the state is armed. -/
def Armed (s : Wdt) : Prop := s.state = .bootguard ∨ s.state = .user

instance (s : Wdt) : Decidable s.Armed := inferInstanceAs (Decidable (_ ∨ _))

/-- The `ovsel` verb. -/
def verbOvsel (jiffies : UInt32) (s : Wdt) (v : Int) : Wdt × Option Errno :=
  match ovselOk v with
  | some e => (s, some e)
  | none =>
      let s := { s with hwOvsel := v }
      if s.Armed then s.enter lib s.state v jiffies else (s, none)

/-- The `kickms` verb. -/
def verbKickms (jiffies : UInt32) (s : Wdt) (v : Int) : Wdt × Option Errno :=
  if v < 1 ∨ v > 60000 then (s, some .einval)
  else
    let s := { s with kickMs := v }
    (if s.Armed then s.modTimer lib jiffies else s, none)

/-- The line in what is written: as much as the buffer holds, its last newlines cut, then
up to a NUL. -/
def lineOf (bytes : List UInt8) : List UInt8 :=
  cString ((bytes.take 31).reverse.dropWhile fun c => c == 0x0A || c == 0x0D).reverse

/-- The verbs of `rtl819x_wdt_write_proc`; none for a line that is not one. -/
def dispatch (line : List UInt8) (jiffies live : UInt32) (s : Wdt) :
    Option (Wdt × Option Errno) :=
  if line = ascii "stop" then some (s.enter lib .stopped s.ovsel jiffies)
  else if line = ascii "bootguard" then some (s.enter lib .bootguard s.hwOvsel jiffies)
  else if line = ascii "kick" then
    some (if s.Armed then s.kickLocked live else s.reject, none)
  else if (ascii "ovsel ").isPrefixOf line then
    some (withNumber lib (line.drop 6) s (s.verbOvsel lib jiffies))
  else if (ascii "kickms ").isPrefixOf line then
    some (withNumber lib (line.drop 7) s (s.verbKickms lib jiffies))
  else if (ascii "bite ").isPrefixOf line then
    some (withNumber lib (line.drop 5) s fun v => s.verbBite v 0 false)
  else if (ascii "biteraw ").isPrefixOf line then
    some (withNumber lib (line.drop 8) s fun v => s.verbBite (-1) (UInt32.ofInt v) true)
  else if (ascii "raw ").isPrefixOf line then
    some (withNumber lib (line.drop 4) s fun v => s.verbRaw (UInt32.ofInt v))
  else if line = ascii "wedge" then some (s.verbWedge live)
  else if line = ascii "unlock" then some ({ s with unlocked := true }, none)
  else if line = ascii "lock" then some ({ s with unlocked := false }, none)
  else none

/-- `rtl819x_wdt_write_proc`, with whether `copy_from_user` copies. -/
def rtl819xWdtWriteProc (bytes : List UInt8) (copied : Bool) (jiffies live : UInt32) (s : Wdt) :
    Wdt × Except Errno Nat :=
  if ¬ copied then (s, .error .efault)
  else
    match s.dispatch lib (lineOf bytes) jiffies live with
    | none => (s.reject, .error .einval)
    | some done => ((settle done).1, done.2.elim (.ok bytes.length) .error)

end Verbs

end Wdt

/-! ## Runs -/

/-- The module's parameters. -/
structure Params where
  hwOvsel : Int
  kickMs : Int
  softTimeout : Int
  bootguard : Bool
  nowayout : Bool

/-- The state before `rtl819x_wdt_init`, but for the register's word. -/
def Params.loaded (p : Params) (probeVal : UInt32) : Wdt where
  hwOvsel := p.hwOvsel
  kickMs := p.kickMs
  softTimeout := p.softTimeout
  nowayout := p.nowayout
  state := .stopped
  ovsel := 0
  shadow := probeVal
  deadline := 0
  timer := none
  nHwKick := 0
  nUserPing := 0
  nArm := 0
  nStop := 0
  nSettimeout := 0
  nStateForeign := 0
  nMissed := 0
  nBite := 0
  nWedge := 0
  nReject := 0
  nUncleanClose := 0
  openFlag := false
  expectClose := false
  unlocked := false
  hung := false
  wrote := []

/-- `rtl819x_wdt_init`. -/
def rtl819xWdtInit (lib : Library) (p : Params) (probeVal jiffies : UInt32) : Wdt :=
  let s := p.loaded probeVal
  if p.bootguard then (s.enter lib .bootguard s.hwOvsel jiffies).1 else s

/-- An operation on the driver.  The device's operations but the open need it open. -/
inductive Op where
  | tick
  | opens
  | write (data : List (Option UInt8))
  | ioctl (call : Wdt.Ioctl)
  | release
  | verb (bytes : List UInt8) (copied : Bool)

/-- An operation with its time, and what the register reads at it. -/
structure Event where
  op : Op
  jiffies : UInt32
  live : UInt32

/-- The state after an event. -/
def Wdt.step (lib : Library) (s : Wdt) (e : Event) : Wdt :=
  if s.hung then s
  else
    match e.op with
    | .tick => s.tick lib e.jiffies e.live
    | .opens => (s.rtl819xWdtOpen lib e.jiffies).1
    | .write data => if s.openFlag then (s.rtl819xWdtWrite data e.jiffies).1 else s
    | .ioctl call => if s.openFlag then (s.rtl819xWdtIoctl lib call e.jiffies).1 else s
    | .release => if s.openFlag then s.rtl819xWdtRelease lib e.jiffies else s
    | .verb bytes copied => (s.rtl819xWdtWriteProc lib bytes copied e.jiffies e.live).1

/-- The state after a run. -/
def Wdt.run (lib : Library) (s : Wdt) (run : List Event) : Wdt := run.foldl (Wdt.step lib) s

end RlxFw.Watchdog
