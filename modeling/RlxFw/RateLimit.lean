import RlxFw.Prelude
import Mathlib.Data.List.FinRange
import Mathlib.Logic.Function.Basic

/-!
# The login rate limiter

`rl_slot`, `bk_rl_check`, `bk_rl_fail` and `bk_rl_ok` of
`src/brokerd/session.c`, and the order in which `op_login` calls them.  Every
reading of the clock is a parameter of its own.
-/

namespace RlxFw.Broker

/-- `BK_NRL`. -/
abbrev nrl : Nat := 16
/-- `BK_RL_FAILS`. -/
def rlFails : Nat := 5
/-- `BK_RL_LOCK0`. -/
def rlLock0 : Nat := 60
/-- `BK_RL_LOCKCAP`. -/
def rlLockCap : Nat := 3600

/-- `struct bk_rl`. -/
structure Rl where
  used : Bool
  ip : UInt32
  fails : Nat
  lockS : Nat
  lockUntil : Nat
  seen : Nat
deriving DecidableEq, Repr

/-- The table. -/
abbrev Buckets := Fin nrl → Rl

/-- The table after `bk_init`. -/
def noBuckets : Buckets := fun _ =>
  { used := false, ip := 0, fails := 0, lockS := 0, lockUntil := 0, seen := 0 }

/-- The bucket `rl_slot` makes. -/
def freshBucket (ip : UInt32) (now : Nat) : Rl :=
  { used := true, ip, fails := 0, lockS := 0, lockUntil := 0, seen := now }

/-- The bucket of an address. -/
def bucketOf (t : Buckets) (ip : UInt32) : Option (Fin nrl) :=
  (List.finRange nrl).find? fun i => (t i).used && (t i).ip == ip

/-- The unlocked bucket seen longest ago. -/
def victimOf (t : Buckets) (now : Nat) : Option (Fin nrl) :=
  (List.finRange nrl).foldl
    (fun victim i =>
      if (t i).lockUntil > now then victim
      else
        match victim with
        | none => some i
        | some v => if (t i).seen < (t v).seen then some i else some v)
    none

/-- `rl_slot`: find the bucket of an address or make one. -/
def rlSlot (now : Nat) (t : Buckets) (ip : UInt32) :
    Buckets × Option (Fin nrl) :=
  match bucketOf t ip with
  | some i => (t, some i)
  | none =>
      match (List.finRange nrl).find? fun i => !(t i).used with
      | some i => (Function.update t i (freshBucket ip now), some i)
      | none =>
          match victimOf t now with
          | some i => (Function.update t i (freshBucket ip now), some i)
          | none => (t, none)

/-- The shortest time left of a lock, or -1. -/
def shortestLeft (now : Nat) (t : Buckets) : Int :=
  (List.finRange nrl).foldl
    (fun best i =>
      let left : Int := (t i).lockUntil - now
      if left > 0 ∧ (best < 0 ∨ left < best) then left else best)
    (-1)

/-- `bk_rl_check`: `none` to go on, or the seconds a lock has left.  `now` is
its own reading of the clock, `slotAt` the one of `rl_slot`. -/
def bkRlCheck (now slotAt : Nat) (t : Buckets) (ip : UInt32) :
    Buckets × Option Nat :=
  let slot := rlSlot slotAt t ip
  match slot.2 with
  | none =>
      let best := shortestLeft now slot.1
      (slot.1, some (if best > 0 then best.toNat else 1))
  | some i =>
      let e := { slot.1 i with seen := now }
      if e.lockUntil > now then
        (Function.update slot.1 i e, some (e.lockUntil - now))
      else if e.lockUntil ≠ 0 then
        (Function.update slot.1 i { e with lockUntil := 0, fails := 0 }, none)
      else (Function.update slot.1 i e, none)

/-- The length of the lock after one of `lockS` seconds. -/
def nextLock (lockS : Nat) : Nat :=
  if lockS = 0 then rlLock0
  else if lockS < rlLockCap then
    if lockS * 2 > rlLockCap then rlLockCap else lockS * 2
  else lockS

/-- The clock readings of one `bk_rl_fail`. -/
structure FailTimes where
  slotAt : Nat
  seenAt : Nat
  lockAt : Nat
deriving DecidableEq, Repr

/-- `bk_rl_fail`. -/
def bkRlFail (times : FailTimes) (t : Buckets) (ip : UInt32) : Buckets :=
  let slot := rlSlot times.slotAt t ip
  match slot.2 with
  | none => slot.1
  | some i =>
      let e := slot.1 i
      let fails := if e.fails < 255 then e.fails + 1 else e.fails
      if fails < rlFails then
        Function.update slot.1 i { e with seen := times.seenAt, fails := fails }
      else
        let lockS := nextLock e.lockS
        Function.update slot.1 i
          { e with
            seen := times.seenAt, lockS := lockS
            lockUntil := times.lockAt + lockS, fails := 0 }

/-- `bk_rl_ok`. -/
def bkRlOk (slotAt seenAt : Nat) (t : Buckets) (ip : UInt32) : Buckets :=
  let slot := rlSlot slotAt t ip
  match slot.2 with
  | none => slot.1
  | some i =>
      Function.update slot.1 i
        { slot.1 i with fails := 0, lockS := 0, lockUntil := 0, seen := seenAt }

/-! ## The order of `op_login` -/

/-- What `op_login` comes to past the check, for a non-root peer: no hash is
computed, the computation fails, the password is wrong or it is right. -/
inductive Outcome where
  | unhashed
  | failed
  | wrong (times : FailTimes)
  | right (slotAt seenAt : Nat)
deriving DecidableEq, Repr

/-- One `op_login` that reaches the check. -/
structure Attempt where
  ip : UInt32
  now : Nat
  slotAt : Nat
  outcome : Outcome
deriving DecidableEq, Repr

/-- What is left of a login past the check. -/
def Outcome.settle (outcome : Outcome) (t : Buckets) (ip : UInt32) : Buckets :=
  match outcome with
  | .unhashed => t
  | .failed => t
  | .wrong times => bkRlFail times t ip
  | .right slotAt seenAt => bkRlOk slotAt seenAt t ip

/-- Whether a password hash is computed. -/
def Outcome.hashes : Outcome → Bool
  | .unhashed => false
  | _ => true

/-- The table after a login, the wait it reports, and whether it computed a
hash. -/
structure Answer where
  buckets : Buckets
  wait : Option Nat
  hashed : Bool

/-- The rate limiter's part of `op_login`. -/
def Attempt.run (a : Attempt) (t : Buckets) : Answer :=
  let checked := bkRlCheck a.now a.slotAt t a.ip
  match checked.2 with
  | some secs => { buckets := checked.1, wait := some secs, hashed := false }
  | none =>
      { buckets := a.outcome.settle checked.1 a.ip, wait := none
        hashed := a.outcome.hashes }

/-- The table after a run of logins. -/
def runAttempts (attempts : List Attempt) (t : Buckets) : Buckets :=
  attempts.foldl (fun t a => (a.run t).buckets) t

end RlxFw.Broker
