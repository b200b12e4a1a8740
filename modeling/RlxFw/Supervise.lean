import Mathlib.Data.Fintype.Defs
import Mathlib.Logic.Function.Basic
import RlxFw.Trail

/-!
# The supervisor of PID 1

`src/init/supervise.c`, and what `src/init/main.c` does with its table of children.
Each call of the injected layer is recorded with its answer.  A `long` has 32 bits.
-/

namespace RlxFw.Supervise

/-! ## The pure machine -/

/-- `SV_MAX_CHILD`. -/
abbrev maxChild : Nat := 8
/-- `SV_RUNOK_MS`. -/
def runokMs : Int := 10000
/-- `SV_BACKOFF_MS`. -/
def backoffMs : Nat := 250
/-- `SV_BACKOFF_MAX_MS`. -/
def backoffMaxMs : Nat := 16000
/-- `SV_FAIL_MAX`. -/
def failMax : Nat := 8
/-- `SV_TERM_MS`. -/
def termMs : Int := 2000
/-- `SV_TERM_STEP_MS`. -/
def termStepMs : Int := 50

/-- `enum sv_state`. -/
inductive SvState where
  | off
  | absent
  | wait
  | running
  | givenup
  | stopping
deriving DecidableEq, Repr

/-- `struct sv_child`, without what only `spawn` and the console read. -/
structure Child where
  state : SvState
  pid : Int
  starts : Nat
  fails : Nat
  backoffMs : Nat
  dueMs : Int
  startedMs : Int
  exited : Bool
  exitCode : Nat
  signo : Nat
  ranMs : Int
deriving DecidableEq, Repr

/-- `struct sv_set`. -/
structure SvSet where
  c : Fin maxChild → Child
  n : Nat

/-- The result of an addition or a subtraction in a `long`. -/
def long (x : Int) : Int := (x + 2 ^ 31) % 2 ^ 32 - 2 ^ 31

/-- `sv_arm`. -/
def svArm (c : Child) (now : Int) : Child where
  state := .wait
  pid := 0
  starts := c.starts
  fails := 0
  backoffMs := 0
  dueMs := now
  startedMs := 0
  exited := false
  exitCode := 0
  signo := 0
  ranMs := 0

/-- `sv_on_start`. -/
def svOnStart (c : Child) (pid now : Int) : Child :=
  { c with
    pid := pid, state := .running, startedMs := now, starts := (c.starts + 1) % 2 ^ 32 }

/-- The loop of `backoff_for`, over the turns left. -/
def backoffLoop : Nat → Nat → Nat
  | 0, b => if b > backoffMaxMs then backoffMaxMs else b
  | left + 1, b => if b ≥ backoffMaxMs then backoffMaxMs else backoffLoop left (b * 2)

/-- `backoff_for`. -/
def backoffFor (fails : Nat) : Nat :=
  if fails = 0 then 0 else backoffLoop (fails - 1) backoffMs

/-- `count_fast_failure`. -/
def countFastFailure (c : Child) (now : Int) : Child :=
  let c := if c.fails < 0xFFFFFFFF then { c with fails := c.fails + 1 } else c
  if c.fails ≥ failMax then
    { c with state := .givenup, backoffMs := 0, dueMs := 0, pid := 0 }
  else
    { c with
      backoffMs := backoffFor c.fails, dueMs := long (now + backoffFor c.fails)
      state := .wait, pid := 0 }

/-- `WIFEXITED`. -/
def wifexited (wstatus : Nat) : Bool := wstatus % 128 == 0
/-- `WEXITSTATUS`. -/
def wexitstatus (wstatus : Nat) : Nat := wstatus / 256 % 256
/-- `WIFSIGNALED`. -/
def wifsignaled (wstatus : Nat) : Bool := wstatus % 128 != 0 && wstatus % 128 != 127
/-- `WTERMSIG`. -/
def wtermsig (wstatus : Nat) : Nat := wstatus % 128

/-- `sv_on_exit`. -/
def svOnExit (c : Child) (wstatus : Nat) (now : Int) : Child :=
  let c :=
    { c with
      exited := wifexited wstatus
      exitCode := if wifexited wstatus then wexitstatus wstatus else 0
      signo := if wifsignaled wstatus then wtermsig wstatus else 0 }
  if c.state = .stopping then { c with state := .off, pid := 0 }
  else
    let ran := if c.startedMs > 0 then long (now - c.startedMs) else 0
    let ran := if ran < 0 then 0 else ran
    let c := { c with ranMs := ran }
    if ran ≥ runokMs then
      { c with fails := 0, backoffMs := 0, dueMs := now, state := .wait, pid := 0 }
    else countFastFailure c now

/-- `sv_on_spawn_fail`. -/
def svOnSpawnFail (c : Child) (now : Int) : Child :=
  countFastFailure
    { c with exited := false, exitCode := 0, signo := 0, ranMs := 0, startedMs := 0 } now

/-- What `i < s->n && i < SV_MAX_CHILD` runs over. -/
def slots (s : SvSet) : List (Fin maxChild) :=
  (List.finRange maxChild).filter fun i => i.val < s.n

/-- `sv_next_due`. -/
def svNextDue (s : SvSet) (now : Int) : Int :=
  (slots s).foldl
    (fun best i =>
      if (s.c i).state ≠ .wait then best
      else
        let d := long ((s.c i).dueMs - now)
        let d := if d < 0 then 0 else d
        if best < 0 ∨ d < best then d else best)
    (-1)

/-- `sv_due`. -/
def svDue (s : SvSet) (now : Int) (max : Nat) : List (Fin maxChild) :=
  ((slots s).filter fun i => (s.c i).state = .wait ∧ ¬ (s.c i).dueMs > now).take max

/-- `sv_by_pid`. -/
def svByPid (s : SvSet) (pid : Int) : Option (Fin maxChild) :=
  if pid ≤ 0 then none
  else
    (slots s).find? fun i =>
      (s.c i).pid = pid ∧ ((s.c i).state = .running ∨ (s.c i).state = .stopping)

/-! ## The calls -/

/-- The signals that `sv_shutdown` sends. -/
inductive Signal where
  | term
  | kill
deriving DecidableEq, Repr

/-- `enum sv_how`. -/
inductive SvHow where
  | reboot
  | poweroff
  | halt
deriving DecidableEq, Repr

/-- A call of the injected layer, or a child armed, with what is known of it. -/
inductive Call where
  | spawn (i : Fin maxChild) (now pid : Int)
  | reap (now pid : Int)
  | send (i : Fin maxChild) (pid : Int) (sig : Signal)
  | waitMs (ms : Int)
  | doSync
  | doReboot (how : SvHow)
  | armed (i : Fin maxChild) (now : Int)
deriving DecidableEq, Repr

/-- The table of children, and the calls so far. -/
abbrev Sup := Trailed SvSet Call

/-- The table with one child changed. -/
def SvSet.put (s : SvSet) (i : Fin maxChild) (c : Child) : SvSet :=
  { s with c := Function.update s.c i c }

/-- One child of `sv_start_due`, with what `spawn` answers. -/
def startOne (spawn : Fin maxChild → Int) (now : Int) (m : Sup) (i : Fin maxChild) : Sup :=
  let c := m.world.c i
  m.record
    (m.world.put i (if spawn i > 0 then svOnStart c (spawn i) now else svOnSpawnFail c now))
    (.spawn i now (spawn i))

/-- `sv_start_due`. -/
def svStartDue (spawn : Fin maxChild → Int) (now : Int) (m : Sup) : Sup :=
  (svDue m.world now maxChild).foldl (startOne spawn now) m

/-- One exit of `sv_reap_all`. -/
def reapOne (pid : Int) (wstatus : Nat) (now : Int) (m : Sup) : Sup :=
  match svByPid m.world pid with
  | none => m.record m.world (.reap now pid)
  | some i => m.record (m.world.put i (svOnExit (m.world.c i) wstatus now)) (.reap now pid)

/-- `sv_reap_all`, on what `reap` answers. -/
def svReapAll (now : Int) : List (Int × Nat) → Sup → Sup
  | [], m => m
  | (pid, wstatus) :: more, m =>
      if pid ≤ 0 then m else svReapAll now more (reapOne pid wstatus now m)

/-- A reading of the clock, and what `reap` answers after it. -/
structure Round where
  now : Int
  reaped : List (Int × Nat)

/-- What `sv_shutdown` reads: the clock after its SIGTERMs, each turn of its loop, and
what is left after its SIGKILLs. -/
structure ShutdownWorld where
  t0 : Int
  rounds : List Round
  last : Round

/-- A child of the first loop of `sv_shutdown`. -/
def tellOne (m : Sup) (i : Fin maxChild) : Sup :=
  let c := m.world.c i
  if c.state ≠ .running then m
  else m.record (m.world.put i { c with state := .stopping }) (.send i c.pid .term)

/-- How many children are still to exit. -/
def alive (s : SvSet) : Nat := (slots s).countP fun i => (s.c i).state = .stopping

/-- The waiting loop of `sv_shutdown`; it does not end on readings that run out. -/
def awaitStopped (t0 : Int) : List Round → Sup → Option Sup
  | [], _ => none
  | r :: more, m =>
      let m := svReapAll r.now r.reaped m
      if alive m.world = 0 then some m
      else if long (r.now - t0) ≥ termMs then some m
      else awaitStopped t0 more (m.record m.world (.waitMs termStepMs))

/-- A child of the last loop of `sv_shutdown`. -/
def killOne (m : Sup) (i : Fin maxChild) : Sup :=
  let c := m.world.c i
  if c.state ≠ .stopping then m else m.record m.world (.send i c.pid .kill)

/-- `sv_shutdown`. -/
def svShutdown (w : ShutdownWorld) (how : SvHow) (m : Sup) : Option Sup :=
  let m := (slots m.world).foldl tellOne m
  match awaitStopped w.t0 w.rounds m with
  | none => none
  | some m =>
      let m := (slots m.world).foldl killOne m
      let m := svReapAll w.last.now w.last.reaped m
      let m := m.record m.world .doSync
      some (m.record m.world (.doReboot how))

/-! ## The table of `main` -/

/-- What `add_child` finds: a child that is not enabled, one without its binary, or one
that is armed. -/
inductive Added where
  | disabled
  | missing
  | armed (now : Int)

/-- A child after `memset`. -/
def Child.zero : Child where
  state := .off
  pid := 0
  starts := 0
  fails := 0
  backoffMs := 0
  dueMs := 0
  startedMs := 0
  exited := false
  exitCode := 0
  signo := 0
  ranMs := 0

/-- `add_child`. -/
def addChild (m : Sup) (added : Added) : Sup :=
  if room : m.world.n < maxChild then
    let i : Fin maxChild := ⟨m.world.n, room⟩
    let grown (c : Child) : SvSet := { m.world.put i c with n := m.world.n + 1 }
    match added with
    | .disabled => ⟨grown .zero, m.trail⟩
    | .missing => ⟨grown { Child.zero with state := .absent }, m.trail⟩
    | .armed now => m.record (grown (svArm .zero now)) (.armed i now)
  else m

/-- `build_table`, on a table of which nothing is known. -/
def buildTable (c : Fin maxChild → Child) (adds : List Added) : Sup :=
  adds.foldl addChild (Trailed.fresh { c := c, n := 0 })

/-- A child of the loop that a SIGHUP runs. -/
def rearmOne (now : Fin maxChild → Int) (m : Sup) (i : Fin maxChild) : Sup :=
  let c := m.world.c i
  if c.state ≠ .givenup then m
  else m.record (m.world.put i (svArm c (now i))) (.armed i (now i))

/-- What the loop of `main` does with the table. -/
inductive Event where
  | reap (r : Round)
  | start (now : Int) (spawn : Fin maxChild → Int)
  | rearm (now : Fin maxChild → Int)
  | shutdown (w : ShutdownWorld) (how : SvHow)

/-- One pass, when it ends. -/
def step (m : Sup) : Event → Option Sup
  | .reap r => some (svReapAll r.now r.reaped m)
  | .start now spawn => some (svStartDue spawn now m)
  | .rearm now => some ((slots m.world).foldl (rearmOne now) m)
  | .shutdown w how => svShutdown w how m

end RlxFw.Supervise
