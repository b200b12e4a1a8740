import RlxFw.Ascii

/-!
# The button driver

`drivers/input/keyboard/rtl819x-keys.c`: the probe, the poll, the start of polling at an
open, and the verbs of its `/proc` file.  The pins are what each of them reads.
-/

namespace RlxFw.Keys

/-- What the driver may return; `passed` is a return code of gpiolib or the input core. -/
inductive Errno where
  | einval
  | erange
  | enodev
  | efault
  | enomem
  | eopnotsupp
  | passed (rc : Int)
deriving DecidableEq, Repr

/-- `struct gpio_keys_button`, as far as the driver reads it. -/
structure GpioKeysButton where
  code : Int
  activeLow : Bool
  type : Int
  wakeup : Bool
  debounceInterval : Int
deriving DecidableEq, Repr

/-- Whether a raw level is a pressed button's. -/
def GpioKeysButton.pressed (b : GpioKeysButton) (raw : Bool) : Bool :=
  if b.activeLow then !raw else raw

/-- `RTL819X_KEYS_MAX`. -/
def keysMax : Nat := 4

/-- `RTL819X_KEYS_LOG`. -/
def keysLog : Nat := 32

/-- `RTL819X_KEYS_POLL_MS`. -/
def keysPollMs : Nat := 50

/-- The polls that a debounce interval takes.  The sums stay below `2^32`. -/
def needFor (debounceInterval : Int) (pollMs : Nat) : Nat :=
  let need := if debounceInterval > 0 then (debounceInterval.toNat + pollMs - 1) / pollMs else 1
  if need = 0 then 1 else need

theorem needFor_pos (debounceInterval : Int) (pollMs : Nat) :
    0 < needFor debounceInterval pollMs := by
  unfold needFor
  generalize (if debounceInterval > 0 then _ else 1) = need
  dsimp only
  split
  · exact Nat.one_pos
  · next some => exact Nat.pos_of_ne_zero some

/-- `struct rtl819x_keys_btn`. -/
structure Btn where
  b : GpioKeysButton
  rawPrev : Bool
  state : Bool
  stable : Nat
  need : Nat
  need_pos : 0 < need
  nPress : UInt32
  nRelease : UInt32
  nReport : UInt32
  nEdge : UInt32
  nBounce : UInt32

/-- `struct rtl819x_keys_ev`. -/
structure Ev where
  j : UInt32
  btn : Nat
  raw : Bool
deriving DecidableEq, Repr

/-- The ring of edges. -/
structure Log where
  slots : Nat → Ev
  head : Nat
  nEv : UInt32
  nEvDrop : UInt32

/-- The ring with nothing in it. -/
def Log.zero : Log where
  slots := fun _ => ⟨0, 0, false⟩
  head := 0
  nEv := 0
  nEvDrop := 0

/-- `rtl819x_keys_log_edge`. -/
def Log.edge (log : Log) (jiffies : UInt32) (idx : Nat) (raw : Bool) : Log where
  slots := fun i => if i = log.head then ⟨jiffies, idx, raw⟩ else log.slots i
  head := (log.head + 1) % keysLog
  nEv := log.nEv + 1
  nEvDrop := if log.nEv ≥ UInt32.ofNat keysLog then log.nEvDrop + 1 else log.nEvDrop

/-- The driver's state. -/
structure State where
  btns : List Btn
  pollMs : Nat
  pollInterval : Nat
  bootRaw : Bool
  nOpen : UInt32
  nPoll : UInt32
  jFirst : UInt32
  jLast : UInt32
  log : Log

/-! ## The poll -/

/-- What a poll reads at a button: its pin, and the time. -/
structure Reading where
  value : Int
  jiffies : UInt32

/-- `gpio_get_value(gpio) ? 1 : 0`. -/
def rawOf (value : Int) : Bool := value ≠ 0

/-- A raw level counted. -/
def Btn.count (k : Btn) (raw : Bool) : Btn :=
  if raw ≠ k.rawPrev then
    { k with
      nEdge := k.nEdge + 1
      nBounce :=
        if k.stable < k.need ∧ k.rawPrev ≠ k.state then k.nBounce + 1 else k.nBounce
      rawPrev := raw
      stable := 0 }
  else if k.stable < k.need then { k with stable := k.stable + 1 }
  else k

/-- The button after a raw level, and what is to be reported. -/
def Btn.poll (k : Btn) (raw : Bool) : Btn × Option Bool :=
  let k := k.count raw
  let pressed := k.b.pressed raw
  if k.stable ≥ k.need ∧ pressed ≠ k.state then
    ({ k with
      state := pressed
      nPress := if pressed then k.nPress + 1 else k.nPress
      nRelease := if pressed then k.nRelease else k.nRelease + 1
      nReport := k.nReport + 1 }, some pressed)
  else (k, none)

/-- What `input_report_key` gets, and the button that it is for. -/
structure Report where
  button : Nat
  code : Int
  value : Bool
deriving DecidableEq, Repr

/-- The loop over the buttons. -/
def pollButtons (readings : Nat → Reading) (i : Nat) (log : Log) :
    List Btn → List Btn × Log × List Report
  | [] => ([], log, [])
  | k :: rest =>
      let raw := rawOf (readings i).value
      let log := if raw ≠ k.rawPrev then log.edge (readings i).jiffies i raw else log
      let polled := k.poll raw
      let others := pollButtons readings (i + 1) log rest
      (polled.1 :: others.1, others.2.1,
        (polled.2.map fun pressed => ⟨i, k.b.code, pressed⟩).toList ++ others.2.2)

/-- `rtl819x_keys_poll`. -/
def rtl819xKeysPoll (readings : Nat → Reading) (jiffies : UInt32) (s : State) :
    State × List Report :=
  let polled := pollButtons readings 0 s.log s.btns
  ({ s with
    btns := polled.1
    log := polled.2.1
    jFirst := if s.nPoll = 0 then jiffies else s.jFirst
    jLast := jiffies
    nPoll := s.nPoll + 1
    pollInterval := s.pollMs }, polled.2.2)

/-- The button as polling starts at a raw level. -/
def Btn.flush (k : Btn) (raw : Bool) : Btn := { k with rawPrev := raw, stable := 0 }

/-- `rtl819x_keys_flush`. -/
def rtl819xKeysFlush (pins : Nat → Int) (s : State) : State :=
  { s with
    btns := s.btns.mapIdx fun i k => k.flush (rawOf (pins i))
    nOpen := s.nOpen + 1 }

/-! ## The verbs -/

section Verbs

variable (strtoul : List UInt8 → Nat × List UInt8)

/-- The button under a new interval. -/
def Btn.retune (k : Btn) (v : Nat) : Btn :=
  { k with
    need := needFor k.b.debounceInterval v
    need_pos := needFor_pos _ _
    stable := 0 }

/-- What `rtl819x_keys_verb_interval` makes of its argument. -/
def intervalOf (arg : List UInt8) : Except Errno Nat :=
  let parsed := strtoul arg
  if parsed.2 = arg then .error .einval
  else if parsed.1 < 10 ∨ parsed.1 > 60000 then .error .erange
  else .ok parsed.1

/-- `rtl819x_keys_verb_interval`. -/
def verbInterval (arg : List UInt8) (s : State) : State × Option Errno :=
  match intervalOf strtoul arg with
  | .error e => (s, some e)
  | .ok v => ({ s with pollMs := v, btns := s.btns.map (Btn.retune · v) }, none)

/-- The counters of a button at zero. -/
def Btn.clear (k : Btn) : Btn :=
  { k with nPress := 0, nRelease := 0, nReport := 0, nEdge := 0, nBounce := 0 }

/-- `rtl819x_keys_verb_clear`. -/
def verbClear (s : State) : State × Option Errno :=
  ({ s with nPoll := 0, jFirst := 0, jLast := 0, log := .zero, btns := s.btns.map Btn.clear }, none)

/-- `rtl819x_keys_verb_sample` and `rtl819x_keys_verb_irq`, which print a mark. -/
def verbShow (s : State) : State × Option Errno :=
  (s, if s.btns.length = 0 then some .enodev else none)

/-- The line in what is written: as much as the buffer holds, its last newlines cut, then
up to a NUL. -/
def lineOf (bytes : List UInt8) : List UInt8 :=
  cString ((bytes.take 23).reverse.dropWhile fun c => c == 0x0A || c == 0x0D).reverse

/-- The dispatch of `rtl819x_keys_write_proc`. -/
def dispatch (line : List UInt8) (s : State) : State × Option Errno :=
  if (ascii "interval ").isPrefixOf line then verbInterval strtoul (line.drop 9) s
  else if line = ascii "clear" then verbClear s
  else if line = ascii "sample" then verbShow s
  else if line = ascii "irq" then verbShow s
  else (s, some .einval)

/-- `rtl819x_keys_write_proc`, with whether `copy_from_user` copies. -/
def rtl819xKeysWriteProc (bytes : List UInt8) (copied : Bool) (s : State) :
    State × Except Errno Nat :=
  if ¬ copied then (s, .error .efault)
  else
    let done := dispatch strtoul (lineOf bytes) s
    (done.1, done.2.elim (.ok bytes.length) .error)

end Verbs

/-! ## The probe -/

/-- What the calls of the probe return, and the pins that it reads. -/
structure ProbeCalls where
  gpioRequest : Nat → Int
  gpioDirectionInput : Nat → Int
  pins : Nat → Int
  allocated : Bool
  registered : Int

/-- `EV_KEY`. -/
def evKey : Int := 1

/-- A button of the board taken into the driver. -/
def Btn.probed (b : GpioKeysButton) (raw : Bool) : Btn where
  b := b
  rawPrev := raw
  state := false
  stable := 0
  need := needFor b.debounceInterval keysPollMs
  need_pos := needFor_pos _ _
  nPress := 0
  nRelease := 0
  nReport := 0
  nEdge := 0
  nBounce := 0

/-- The probe's loop over the buttons. -/
def probeButtons (calls : ProbeCalls) (i : Nat) : List GpioKeysButton → Except Errno (List Btn)
  | [] => .ok []
  | b :: rest =>
      if b.wakeup then .error .eopnotsupp
      else if b.type ≠ 0 ∧ b.type ≠ evKey then .error .eopnotsupp
      else if calls.gpioRequest i ≠ 0 then .error (.passed (calls.gpioRequest i))
      else if calls.gpioDirectionInput i ≠ 0 then .error (.passed (calls.gpioDirectionInput i))
      else (probeButtons calls (i + 1) rest).map
        (Btn.probed b (rawOf (calls.pins i)) :: ·)

/-- `rtl819x_keys_probe`, on the platform data if there is any. -/
def rtl819xKeysProbe (calls : ProbeCalls) : Option (List GpioKeysButton) → Except Errno State
  | none => .error .einval
  | some buttons =>
      if buttons.length < 1 ∨ buttons.length > keysMax then .error .einval
      else
        match probeButtons calls 0 buttons with
        | .error e => .error e
        | .ok btns =>
            if ¬ calls.allocated then .error .enomem
            else if calls.registered ≠ 0 then .error (.passed calls.registered)
            else .ok
              { btns
                pollMs := keysPollMs
                pollInterval := keysPollMs
                bootRaw := (btns.map Btn.rawPrev).headD false
                nOpen := 0
                nPoll := 0
                jFirst := 0
                jLast := 0
                log := .zero }

/-! ## Runs -/

/-- What happens to the driver: a poll, an open, or a write to its `/proc` file. -/
inductive Step where
  | poll (readings : Nat → Reading) (jiffies : UInt32)
  | flush (pins : Nat → Int)
  | write (bytes : List UInt8) (copied : Bool)

section Runs

variable (strtoul : List UInt8 → Nat × List UInt8)

/-- The state after a step. -/
def State.step (s : State) : Step → State
  | .poll readings jiffies => (rtl819xKeysPoll readings jiffies s).1
  | .flush pins => rtl819xKeysFlush pins s
  | .write bytes copied => (rtl819xKeysWriteProc strtoul bytes copied s).1

/-- What a step reports. -/
def State.reports (s : State) : Step → List Report
  | .poll readings jiffies => (rtl819xKeysPoll readings jiffies s).2
  | .flush _ => []
  | .write _ _ => []

/-- The state after a run. -/
def State.run (s : State) (run : List Step) : State := run.foldl (State.step strtoul) s

/-- The reports of a run. -/
def State.reported (s : State) : List Step → List Report
  | [] => []
  | step :: rest => s.reports step ++ (s.step strtoul step).reported rest

end Runs

end RlxFw.Keys
