import RlxFw.RateLimit
import Mathlib.Data.List.Induction

/-!
# A lock cannot be escaped

What a run of logins keeps of the rate limiter's table: a locked bucket stays
until its lock ends, whoever else logs in, and the locks of one bucket double.
-/

namespace RlxFw.Broker

/-! ## Finding a bucket -/

theorem bucketOf_eq_some {t : Buckets} {ip : UInt32} {i : Fin nrl}
    (found : bucketOf t ip = some i) :
    (t i).used = true ∧ (t i).ip = ip := by
  have holds := List.find?_some found
  simpa using holds

theorem bucketOf_eq_none {t : Buckets} {ip : UInt32} :
    bucketOf t ip = none ↔ ∀ i, (t i).used = true → (t i).ip ≠ ip := by
  unfold bucketOf
  rw [List.find?_eq_none]
  simp

/-- No two buckets in use are of one address. -/
def Distinct (t : Buckets) : Prop :=
  ∀ i j, (t i).used = true → (t j).used = true → (t i).ip = (t j).ip → i = j

theorem Distinct.bucketOf {t : Buckets} (distinct : Distinct t) {i : Fin nrl}
    (used : (t i).used = true) : bucketOf t (t i).ip = some i := by
  cases found : Broker.bucketOf t (t i).ip with
  | none => exact absurd rfl (bucketOf_eq_none.mp found i used)
  | some j =>
      obtain ⟨usedJ, sameIp⟩ := bucketOf_eq_some found
      rw [distinct j i usedJ used sameIp]

/-- The victim is unlocked, and there is none only when every bucket is
locked. -/
theorem victimOf_fold (t : Buckets) (now : Nat) (l : List (Fin nrl))
    (start : Option (Fin nrl))
    (unlocked : ∀ v, start = some v → (t v).lockUntil ≤ now) :
    let victim := l.foldl
      (fun victim i =>
        if (t i).lockUntil > now then victim
        else
          match victim with
          | none => some i
          | some v => if (t i).seen < (t v).seen then some i else some v)
      start
    (∀ v, victim = some v → (t v).lockUntil ≤ now) ∧
      (victim = none → start = none ∧ ∀ i ∈ l, now < (t i).lockUntil) := by
  induction l generalizing start with
  | nil => exact ⟨unlocked, fun none => ⟨none, nofun⟩⟩
  | cons i l ih =>
      simp only [List.foldl_cons]
      by_cases locked : (t i).lockUntil > now
      · rw [if_pos locked]
        obtain ⟨some', none'⟩ := ih start unlocked
        refine ⟨some', fun none => ?_⟩
        obtain ⟨startNone, rest⟩ := none' none
        exact ⟨startNone, List.forall_mem_cons.mpr ⟨locked, rest⟩⟩
      · rw [if_neg locked]
        have free : (t i).lockUntil ≤ now := Nat.le_of_not_lt locked
        cases start with
        | none =>
            obtain ⟨some', none'⟩ := ih (some i) (by rintro v ⟨⟩; exact free)
            exact ⟨some', fun none => nomatch (none' none).1⟩
        | some v =>
            have either : ∀ w, (if (t i).seen < (t v).seen then some i
                else some v) = some w → (t w).lockUntil ≤ now := by
              intro w chosen
              split_ifs at chosen
              · cases chosen
                exact free
              · cases chosen
                exact unlocked v rfl
            obtain ⟨some', none'⟩ := ih _ either
            refine ⟨some', fun none => ?_⟩
            have absent := (none' none).1
            split_ifs at absent

/-- What `rl_slot` can do: it finds the address's bucket, makes one over a
bucket that is free or not locked, or finds every bucket locked. -/
theorem rlSlot_cases (now : Nat) (t : Buckets) (ip : UInt32) :
    (∃ i, bucketOf t ip = some i ∧ rlSlot now t ip = (t, some i)) ∨
    (∃ i, bucketOf t ip = none ∧
      ((t i).used = true → (t i).lockUntil ≤ now) ∧
      rlSlot now t ip =
        (Function.update t i (freshBucket ip now), some i)) ∨
    (bucketOf t ip = none ∧ (∀ i, now < (t i).lockUntil) ∧
      rlSlot now t ip = (t, none)) := by
  unfold rlSlot
  cases found : bucketOf t ip with
  | some i => exact Or.inl ⟨i, rfl, rfl⟩
  | none =>
      right
      dsimp only
      cases free : (List.finRange nrl).find? fun i => !(t i).used with
      | some i =>
          have unused := List.find?_some free
          simp only [Bool.not_eq_true'] at unused
          exact Or.inl ⟨i, rfl, by simp [unused], rfl⟩
      | none =>
          obtain ⟨some', none'⟩ :=
            victimOf_fold t now (List.finRange nrl) none nofun
          dsimp only
          cases victim : victimOf t now with
          | some v => exact Or.inl ⟨v, rfl, fun _ => some' v victim, rfl⟩
          | none =>
              exact Or.inr ⟨rfl,
                fun i => (none' victim).2 i (List.mem_finRange i), rfl⟩

/-! ## An operation on the bucket of an address -/

/-- `rl_slot`, and then a change to the bucket it gives. -/
def onSlot (now : Nat) (t : Buckets) (ip : UInt32) (f : Rl → Rl) : Buckets :=
  let slot := rlSlot now t ip
  match slot.2 with
  | none => slot.1
  | some i => Function.update slot.1 i (f (slot.1 i))

/-- What `bk_rl_check` does to a bucket. -/
def checkEntry (now : Nat) (e : Rl) : Rl :=
  if e.lockUntil > now then { e with seen := now }
  else if e.lockUntil ≠ 0 then
    { e with seen := now, lockUntil := 0, fails := 0 }
  else { e with seen := now }

/-- What `bk_rl_fail` does to a bucket. -/
def failEntry (times : FailTimes) (e : Rl) : Rl :=
  let fails := if e.fails < 255 then e.fails + 1 else e.fails
  if fails < rlFails then { e with seen := times.seenAt, fails := fails }
  else
    { e with
      seen := times.seenAt, lockS := nextLock e.lockS
      lockUntil := times.lockAt + nextLock e.lockS, fails := 0 }

/-- What `bk_rl_ok` does to a bucket. -/
def okEntry (seenAt : Nat) (e : Rl) : Rl :=
  { e with fails := 0, lockS := 0, lockUntil := 0, seen := seenAt }

theorem bkRlCheck_fst (now slotAt : Nat) (t : Buckets) (ip : UInt32) :
    (bkRlCheck now slotAt t ip).1 = onSlot slotAt t ip (checkEntry now) := by
  unfold bkRlCheck onSlot checkEntry
  dsimp only
  cases (rlSlot slotAt t ip).2 with
  | none => rfl
  | some i => dsimp only; split_ifs <;> rfl

theorem bkRlFail_eq (times : FailTimes) (t : Buckets) (ip : UInt32) :
    bkRlFail times t ip = onSlot times.slotAt t ip (failEntry times) := by
  unfold bkRlFail onSlot failEntry
  dsimp only
  cases (rlSlot times.slotAt t ip).2 with
  | none => rfl
  | some i => dsimp only; split_ifs <;> rfl

theorem bkRlOk_eq (slotAt seenAt : Nat) (t : Buckets) (ip : UInt32) :
    bkRlOk slotAt seenAt t ip = onSlot slotAt t ip (okEntry seenAt) := rfl

/-- A change to a bucket that keeps whose it is. -/
def KeepsOwner (f : Rl → Rl) : Prop :=
  ∀ e, (f e).used = e.used ∧ (f e).ip = e.ip

theorem keepsOwner_checkEntry (now : Nat) : KeepsOwner (checkEntry now) := by
  intro e
  unfold checkEntry
  split_ifs <;> exact ⟨rfl, rfl⟩

theorem keepsOwner_failEntry (times : FailTimes) :
    KeepsOwner (failEntry times) := by
  intro e
  unfold failEntry
  dsimp only
  split_ifs <;> exact ⟨rfl, rfl⟩

theorem keepsOwner_okEntry (seenAt : Nat) : KeepsOwner (okEntry seenAt) :=
  fun _ => ⟨rfl, rfl⟩

section OnSlot

variable {now : Nat} {t : Buckets} {ip : UInt32} {f : Rl → Rl}

/-- What an operation can do: it changes the address's bucket, makes one over
a bucket that is free or not locked and changes that, or finds every bucket
locked. -/
theorem onSlot_cases (now : Nat) (t : Buckets) (ip : UInt32) (f : Rl → Rl) :
    (∃ j, bucketOf t ip = some j ∧
      onSlot now t ip f = Function.update t j (f (t j))) ∨
    (∃ j, bucketOf t ip = none ∧
      ((t j).used = true → (t j).lockUntil ≤ now) ∧
      onSlot now t ip f = Function.update t j (f (freshBucket ip now))) ∨
    (bucketOf t ip = none ∧ onSlot now t ip f = t) := by
  unfold onSlot
  rcases rlSlot_cases now t ip with ⟨j, found, slot⟩ | ⟨j, none, free, slot⟩ |
    ⟨none, -, slot⟩
  · rw [slot]
    exact Or.inl ⟨j, found, rfl⟩
  · rw [slot]
    refine Or.inr (Or.inl ⟨j, none, free, ?_⟩)
    dsimp only
    rw [Function.update_self, Function.update_idem]
  · rw [slot]
    exact Or.inr (Or.inr ⟨none, rfl⟩)

/-- An address that has a bucket has it changed. -/
theorem onSlot_of_bucketOf {i : Fin nrl} (found : bucketOf t ip = some i) :
    onSlot now t ip f = Function.update t i (f (t i)) := by
  unfold onSlot rlSlot
  rw [found]

/-- What holds of a new bucket, and is kept by a change, holds throughout. -/
theorem onSlot_all (Holds : Rl → Prop) (all : ∀ i, Holds (t i))
    (fresh : Holds (freshBucket ip now)) (kept : ∀ e, Holds e → Holds (f e))
    (i : Fin nrl) : Holds (onSlot now t ip f i) := by
  have updated (j : Fin nrl) {e : Rl} (holds : Holds e) :
      Holds (Function.update t j e i) := by
    by_cases here : i = j
    · rwa [here, Function.update_self]
    · rw [Function.update_of_ne here]
      exact all i
  rcases onSlot_cases now t ip f with ⟨j, -, after⟩ | ⟨j, -, -, after⟩ |
    ⟨-, after⟩
  · rw [after]
    exact updated j (kept _ (all j))
  · rw [after]
    exact updated j (kept _ fresh)
  · rw [after]
    exact all i

/-- Another address's locked bucket is left alone. -/
theorem onSlot_locked {i : Fin nrl} (used : (t i).used = true)
    (other : (t i).ip ≠ ip) (locked : now < (t i).lockUntil) :
    onSlot now t ip f i = t i := by
  rcases onSlot_cases now t ip f with ⟨j, found, after⟩ |
    ⟨j, -, free, after⟩ | ⟨-, after⟩
  · have elsewhere : i ≠ j := by
      rintro rfl
      exact other (bucketOf_eq_some found).2
    rw [after, Function.update_of_ne elsewhere]
  · have elsewhere : i ≠ j := by
      rintro rfl
      exact absurd (free used) (Nat.not_le_of_lt locked)
    rw [after, Function.update_of_ne elsewhere]
  · rw [after]

/-- A bucket that is another address's afterwards is untouched. -/
theorem onSlot_other (keeps : KeepsOwner f) {i : Fin nrl}
    (other : (onSlot now t ip f i).ip ≠ ip) : onSlot now t ip f i = t i := by
  rcases onSlot_cases now t ip f with ⟨j, found, after⟩ | ⟨j, -, -, after⟩ |
    ⟨-, after⟩
  · rw [after] at other ⊢
    by_cases here : i = j
    · rw [here, Function.update_self, (keeps _).2] at other
      exact absurd (bucketOf_eq_some found).2 other
    · rw [Function.update_of_ne here]
  · rw [after] at other ⊢
    by_cases here : i = j
    · rw [here, Function.update_self, (keeps _).2] at other
      exact absurd rfl other
    · rw [Function.update_of_ne here]
  · rw [after]

/-- Only one bucket is the address's afterwards. -/
theorem onSlot_own (distinct : Distinct t) {i j : Fin nrl}
    (keeps : KeepsOwner f)
    (usedI : (onSlot now t ip f i).used = true)
    (usedJ : (onSlot now t ip f j).used = true)
    (ownI : (onSlot now t ip f i).ip = ip)
    (ownJ : (onSlot now t ip f j).ip = ip) : i = j := by
  rcases onSlot_cases now t ip f with ⟨k, found, after⟩ |
    ⟨k, none, -, after⟩ | ⟨none, after⟩
  · have owner (i : Fin nrl) : (onSlot now t ip f i).used = (t i).used ∧
        (onSlot now t ip f i).ip = (t i).ip := by
      rw [after]
      by_cases here : i = k
      · rw [here, Function.update_self]
        exact keeps _
      · rw [Function.update_of_ne here]
        exact ⟨rfl, rfl⟩
    rw [(owner i).1] at usedI
    rw [(owner j).1] at usedJ
    rw [(owner i).2] at ownI
    rw [(owner j).2] at ownJ
    exact distinct i j usedI usedJ (ownI.trans ownJ.symm)
  · have made {i : Fin nrl} (used : (onSlot now t ip f i).used = true)
        (own : (onSlot now t ip f i).ip = ip) : i = k := by
      rw [after] at used own
      by_contra elsewhere
      rw [Function.update_of_ne elsewhere] at used own
      exact bucketOf_eq_none.mp none i used own
    exact (made usedI ownI).trans (made usedJ ownJ).symm
  · rw [after] at usedI ownI
    exact absurd ownI (bucketOf_eq_none.mp none i usedI)

theorem Distinct.onSlot (distinct : Distinct t) (keeps : KeepsOwner f) :
    Distinct (onSlot now t ip f) := by
  intro i j usedI usedJ same
  by_cases own : (Broker.onSlot now t ip f i).ip = ip
  · exact onSlot_own distinct keeps usedI usedJ own (same.symm.trans own)
  · have left := onSlot_other keeps own
    have right := onSlot_other keeps (same ▸ own)
    rw [left] at usedI same
    rw [right] at usedJ same
    exact distinct i j usedI usedJ same

end OnSlot

/-! ## Time -/

/-- The readings of the clock past a check lie between two times, in order. -/
def Outcome.Within (start finish : Nat) : Outcome → Prop
  | .unhashed => start ≤ finish
  | .failed => start ≤ finish
  | .wrong times =>
      start ≤ times.slotAt ∧ times.slotAt ≤ times.seenAt ∧
        times.seenAt ≤ times.lockAt ∧ times.lockAt ≤ finish
  | .right slotAt seenAt =>
      start ≤ slotAt ∧ slotAt ≤ seenAt ∧ seenAt ≤ finish

/-- The readings of the clock of a login lie between two times, in order. -/
def Attempt.Within (a : Attempt) (start finish : Nat) : Prop :=
  start ≤ a.now ∧ a.now ≤ a.slotAt ∧ a.outcome.Within a.slotAt finish

/-- The logins of a run read the clock in order, between two times. -/
def Timed : Nat → List Attempt → Nat → Prop
  | start, [], finish => start ≤ finish
  | start, a :: attempts, finish =>
      ∃ mid, a.Within start mid ∧ Timed mid attempts finish

theorem Outcome.Within.le {outcome : Outcome} {start finish : Nat}
    (within : outcome.Within start finish) : start ≤ finish := by
  cases outcome with
  | unhashed => exact within
  | failed => exact within
  | wrong times =>
      obtain ⟨first, second, third, last⟩ := within
      omega
  | right slotAt seenAt =>
      obtain ⟨first, second, last⟩ := within
      omega

theorem Timed.le {start finish : Nat} {attempts : List Attempt}
    (timed : Timed start attempts finish) : start ≤ finish := by
  induction attempts generalizing start with
  | nil => exact timed
  | cons a attempts ih =>
      obtain ⟨mid, ⟨first, second, within⟩, rest⟩ := timed
      have third := within.le
      have last := ih rest
      omega

/-! ## A lock stays -/

/-- Bucket `i` is the address's and locked until `until'`. -/
structure Held (t : Buckets) (i : Fin nrl) (ip : UInt32) (until' : Nat) :
    Prop where
  used : (t i).used = true
  ip : (t i).ip = ip
  lockUntil : (t i).lockUntil = until'

section Lock

variable {t : Buckets} {i : Fin nrl} {ip : UInt32} {until' : Nat}

theorem Held.onSlot (held : Held t i ip until') {now : Nat} {ip' : UInt32}
    {f : Rl → Rl} (other : ip' ≠ ip) (before : now < until') :
    Held (Broker.onSlot now t ip' f) i ip until' := by
  have same : Broker.onSlot now t ip' f i = t i := by
    apply onSlot_locked held.used
    · rw [held.ip]
      exact other.symm
    · rw [held.lockUntil]
      exact before
  exact ⟨same ▸ held.used, same ▸ held.ip, same ▸ held.lockUntil⟩

theorem Held.settle (held : Held t i ip until') {outcome : Outcome}
    {start finish : Nat} {ip' : UInt32} (other : ip' ≠ ip)
    (within : outcome.Within start finish) (before : finish < until') :
    Held (outcome.settle t ip') i ip until' := by
  cases outcome with
  | unhashed => exact held
  | failed => exact held
  | wrong times =>
      obtain ⟨-, second, third, last⟩ := within
      rw [Outcome.settle, bkRlFail_eq]
      exact held.onSlot other (by omega)
  | right slotAt seenAt =>
      obtain ⟨-, second, last⟩ := within
      rw [Outcome.settle, bkRlOk_eq]
      exact held.onSlot other (by omega)

/-- A login from a locked address is told how long the lock has left, and
nothing is computed for it. -/
theorem Held.refused (distinct : Distinct t) (held : Held t i ip until')
    {a : Attempt} (own : a.ip = ip) (before : a.now < until') :
    (a.run t).wait = some (until' - a.now) ∧ (a.run t).hashed = false ∧
      Held (a.run t).buckets i ip until' := by
  have found : bucketOf t a.ip = some i := by
    have mine := distinct.bucketOf held.used
    rwa [held.ip, ← own] at mine
  have locked : (t i).lockUntil > a.now := by
    rw [held.lockUntil]
    exact before
  have checked : bkRlCheck a.now a.slotAt t a.ip =
      (Function.update t i { t i with seen := a.now },
        some (until' - a.now)) := by
    unfold bkRlCheck rlSlot
    rw [found]
    dsimp only
    rw [if_pos locked, held.lockUntil]
  unfold Attempt.run
  rw [checked]
  refine ⟨rfl, rfl, ?_⟩
  constructor
  · simpa using held.used
  · simpa using held.ip
  · simpa using held.lockUntil

theorem Attempt.run_of_locked {a : Attempt} {t : Buckets} {secs : Nat}
    (locked : (bkRlCheck a.now a.slotAt t a.ip).2 = some secs) :
    a.run t =
      { buckets := (bkRlCheck a.now a.slotAt t a.ip).1, wait := some secs
        hashed := false } := by
  simp only [Attempt.run, locked]

theorem Attempt.run_of_passed {a : Attempt} {t : Buckets}
    (passed : (bkRlCheck a.now a.slotAt t a.ip).2 = none) :
    a.run t =
      { buckets := a.outcome.settle (bkRlCheck a.now a.slotAt t a.ip).1 a.ip
        wait := none, hashed := a.outcome.hashes } := by
  simp only [Attempt.run, passed]

/-- Whoever logs in, a lock stays until it ends. -/
theorem Held.run (distinct : Distinct t) (held : Held t i ip until')
    {a : Attempt} {start finish : Nat} (within : a.Within start finish)
    (before : finish < until') : Held (a.run t).buckets i ip until' := by
  obtain ⟨-, second, settled⟩ := within
  have third := settled.le
  by_cases own : a.ip = ip
  · exact (held.refused distinct own (by omega)).2.2
  · have checked : Held (bkRlCheck a.now a.slotAt t a.ip).1 i ip until' := by
      rw [bkRlCheck_fst]
      exact held.onSlot own (by omega)
    cases checkedAs : (bkRlCheck a.now a.slotAt t a.ip).2 with
    | some secs =>
        rw [Attempt.run_of_locked checkedAs]
        exact checked
    | none =>
        rw [Attempt.run_of_passed checkedAs]
        exact checked.settle own settled before

end Lock

/-! ## What every table satisfies -/

/-- No two buckets of one address, and no lock longer than the cap. -/
structure Sound (t : Buckets) (now : Nat) : Prop where
  distinct : Distinct t
  lockS : ∀ i, (t i).lockS ≤ rlLockCap
  lockUntil : ∀ i, (t i).lockUntil ≤ now + rlLockCap

theorem nextLock_le (lockS : Nat) (within : lockS ≤ rlLockCap) :
    nextLock lockS ≤ rlLockCap := by
  have first : rlLock0 ≤ rlLockCap := by decide
  unfold nextLock
  split_ifs <;> omega

theorem Sound.mono {t : Buckets} {now later : Nat} (sound : Sound t now)
    (le : now ≤ later) : Sound t later where
  distinct := sound.distinct
  lockS := sound.lockS
  lockUntil i := by
    have bound := sound.lockUntil i
    omega

/-- An operation that bounds the locks it sets keeps a table sound. -/
theorem Sound.onSlot {t : Buckets} {now slotAt : Nat} {ip : UInt32}
    {f : Rl → Rl} (sound : Sound t now) (keeps : KeepsOwner f)
    (bounds : ∀ e, e.lockS ≤ rlLockCap ∧ e.lockUntil ≤ now + rlLockCap →
      (f e).lockS ≤ rlLockCap ∧ (f e).lockUntil ≤ now + rlLockCap) :
    Sound (Broker.onSlot slotAt t ip f) now := by
  have all : ∀ i, (Broker.onSlot slotAt t ip f i).lockS ≤ rlLockCap ∧
      (Broker.onSlot slotAt t ip f i).lockUntil ≤ now + rlLockCap :=
    onSlot_all
      (fun e => e.lockS ≤ rlLockCap ∧ e.lockUntil ≤ now + rlLockCap)
      (fun i => ⟨sound.lockS i, sound.lockUntil i⟩)
      ⟨Nat.zero_le _, Nat.zero_le _⟩ bounds
  exact ⟨sound.distinct.onSlot keeps, fun i => (all i).1, fun i => (all i).2⟩

theorem Sound.check {t : Buckets} {start : Nat} (sound : Sound t start)
    (now slotAt : Nat) (ip : UInt32) :
    Sound (bkRlCheck now slotAt t ip).1 start := by
  rw [bkRlCheck_fst]
  apply sound.onSlot (keepsOwner_checkEntry now)
  intro e bounds
  unfold checkEntry
  split_ifs
  · exact bounds
  · exact ⟨bounds.1, Nat.zero_le _⟩
  · exact bounds

theorem Sound.settle {t : Buckets} {start finish : Nat} (sound : Sound t start)
    {outcome : Outcome} (within : outcome.Within start finish) (ip : UInt32) :
    Sound (outcome.settle t ip) finish := by
  have later := sound.mono within.le
  cases outcome with
  | unhashed => exact later
  | failed => exact later
  | wrong times =>
      obtain ⟨-, -, -, last⟩ := within
      rw [Outcome.settle, bkRlFail_eq]
      apply later.onSlot (keepsOwner_failEntry times)
      intro e bounds
      have next := nextLock_le e.lockS bounds.1
      unfold failEntry
      dsimp only
      split_ifs
      · exact bounds
      · exact ⟨next, by dsimp only; omega⟩
      · exact bounds
      · exact ⟨next, by dsimp only; omega⟩
  | right slotAt seenAt =>
      rw [Outcome.settle, bkRlOk_eq]
      apply later.onSlot (keepsOwner_okEntry seenAt)
      intro e _
      exact ⟨Nat.zero_le _, Nat.zero_le _⟩

/-- The shortest time left is -1 or the time left of some lock. -/
theorem shortestLeft_cases (now : Nat) (t : Buckets) :
    shortestLeft now t = -1 ∨
      ∃ i, shortestLeft now t = ((t i).lockUntil : Int) - now := by
  unfold shortestLeft
  induction List.finRange nrl using List.reverseRecOn with
  | nil => exact Or.inl rfl
  | append_singleton l i ih =>
      rw [List.foldl_append, List.foldl_cons, List.foldl_nil]
      dsimp only
      split_ifs with shorter
      · exact Or.inr ⟨i, rfl⟩
      · exact ih

theorem rlSlot_fst (now : Nat) (t : Buckets) (ip : UInt32) :
    (rlSlot now t ip).1 = onSlot now t ip id := by
  unfold onSlot
  dsimp only
  cases (rlSlot now t ip).2 with
  | none => rfl
  | some i => exact (Function.update_eq_self i _).symm

/-- Every wait that a check reports is from 1 to 3600 seconds. -/
theorem Sound.wait {t : Buckets} {start now slotAt : Nat} {ip : UInt32}
    (sound : Sound t start) (le : start ≤ now) {secs : Nat}
    (reported : (bkRlCheck now slotAt t ip).2 = some secs) :
    1 ≤ secs ∧ secs ≤ rlLockCap := by
  have slotted : Sound (rlSlot slotAt t ip).1 start := by
    rw [rlSlot_fst]
    exact sound.onSlot (fun _ => ⟨rfl, rfl⟩) fun _ bounds => bounds
  have cap : 1 ≤ rlLockCap := by decide
  unfold bkRlCheck at reported
  dsimp only at reported
  cases slot : (rlSlot slotAt t ip).2 with
  | none =>
      simp only [slot, Option.some.injEq] at reported
      split_ifs at reported with some'
      · rcases shortestLeft_cases now (rlSlot slotAt t ip).1 with
          none | ⟨i, left⟩
        · omega
        · have bound := slotted.lockUntil i
          omega
      · omega
  | some i =>
      simp only [slot] at reported
      split_ifs at reported with locked
      · have bound := slotted.lockUntil i
        cases reported
        omega

theorem Sound.run {t : Buckets} {a : Attempt} {start finish : Nat}
    (sound : Sound t start) (within : a.Within start finish) :
    Sound (a.run t).buckets finish := by
  obtain ⟨first, second, settled⟩ := within
  have third := settled.le
  have checked := sound.check a.now a.slotAt a.ip
  cases checkedAs : (bkRlCheck a.now a.slotAt t a.ip).2 with
  | some secs =>
      rw [Attempt.run_of_locked checkedAs]
      exact checked.mono (by omega)
  | none =>
      rw [Attempt.run_of_passed checkedAs]
      exact (checked.mono (by omega)).settle settled a.ip

theorem Sound.runAttempts {t : Buckets} {start finish : Nat}
    {attempts : List Attempt} (sound : Sound t start)
    (timed : Timed start attempts finish) :
    Sound (runAttempts attempts t) finish := by
  induction attempts generalizing t start with
  | nil => exact sound.mono timed
  | cons a attempts ih =>
      obtain ⟨mid, within, rest⟩ := timed
      exact ih (sound.run within) rest

theorem sound_noBuckets : Sound noBuckets 0 where
  distinct _ _ used := nomatch used
  lockS _ := Nat.zero_le _
  lockUntil _ := Nat.zero_le _

theorem Held.runAttempts {t : Buckets} {i : Fin nrl} {ip : UInt32}
    {until' start finish : Nat} {attempts : List Attempt}
    (sound : Sound t start) (held : Held t i ip until')
    (timed : Timed start attempts finish) (before : finish < until') :
    Held (runAttempts attempts t) i ip until' := by
  induction attempts generalizing t start with
  | nil => exact held
  | cons a attempts ih =>
      obtain ⟨mid, within, rest⟩ := timed
      have later := rest.le
      exact ih (sound.run within)
        (held.run sound.distinct within (by omega)) rest

/-! ## The locks of one bucket double -/

/-- The length of an address's last lock, 0 when it has none to its name. -/
def lockOf (t : Buckets) (ip : UInt32) : Nat :=
  match bucketOf t ip with
  | some i => (t i).lockS
  | none => 0

/-- The length of the lock that a login sets on its own address. -/
def Attempt.locks (a : Attempt) (t : Buckets) : Option Nat :=
  match a.outcome, (a.run t).wait, bucketOf (a.run t).buckets a.ip with
  | .wrong times, none, some i =>
      if ((a.run t).buckets i).lockUntil = 0 then none
      else some (((a.run t).buckets i).lockUntil - times.lockAt)
  | _, _, _ => none

/-- The lengths of the locks that the logins of an address set in a run. -/
def locksOf (ip : UInt32) : List Attempt → Buckets → List Nat
  | [], _ => []
  | a :: attempts, t =>
      (if a.ip = ip then (a.locks t).toList else []) ++
        locksOf ip attempts (a.run t).buckets

/-- Through a run, the address's bucket is not given to another address, and no
login of the address succeeds. -/
def Kept (ip : UInt32) : List Attempt → Buckets → Prop
  | [], _ => True
  | a :: attempts, t =>
      (bucketOf (a.run t).buckets ip = none → bucketOf t ip = none) ∧
      (a.ip = ip → ∀ slotAt seenAt, a.outcome = .right slotAt seenAt →
        (a.run t).wait ≠ none) ∧
      Kept ip attempts (a.run t).buckets

section Doubling

variable {t : Buckets} {ip : UInt32}

theorem lockOf_of_bucketOf {i : Fin nrl} (found : bucketOf t ip = some i) :
    lockOf t ip = (t i).lockS := by
  unfold lockOf
  rw [found]

/-- The bucket that `rl_slot` gives an address is its own, with its last
lock. -/
theorem rlSlot_owned {now : Nat} {i : Fin nrl}
    (given : (rlSlot now t ip).2 = some i) :
    ((rlSlot now t ip).1 i).used = true ∧ ((rlSlot now t ip).1 i).ip = ip ∧
      ((rlSlot now t ip).1 i).lockS = lockOf t ip := by
  rcases rlSlot_cases now t ip with ⟨j, found, slot⟩ | ⟨j, absent, -, slot⟩ |
    ⟨-, -, slot⟩
  · rw [slot] at given ⊢
    cases given
    obtain ⟨used, owner⟩ := bucketOf_eq_some found
    exact ⟨used, owner, (lockOf_of_bucketOf found).symm⟩
  · rw [slot] at given ⊢
    cases given
    dsimp only
    rw [Function.update_self]
    refine ⟨rfl, rfl, ?_⟩
    unfold lockOf
    rw [absent]
    rfl
  · rw [slot] at given
    cases given

/-- A check that finds or makes a bucket leaves it the address's. -/
theorem bkRlCheck_given (distinct : Distinct t) (now : Nat) {slotAt : Nat}
    {i : Fin nrl} (given : (rlSlot slotAt t ip).2 = some i) :
    bucketOf (bkRlCheck now slotAt t ip).1 ip = some i ∧
      (bkRlCheck now slotAt t ip).1 i =
        checkEntry now ((rlSlot slotAt t ip).1 i) := by
  obtain ⟨used, owner, -⟩ := rlSlot_owned given
  have keeps := keepsOwner_checkEntry now ((rlSlot slotAt t ip).1 i)
  have after : Distinct (bkRlCheck now slotAt t ip).1 := by
    rw [bkRlCheck_fst]
    exact distinct.onSlot (keepsOwner_checkEntry now)
  have entry : (bkRlCheck now slotAt t ip).1 i =
      checkEntry now ((rlSlot slotAt t ip).1 i) := by
    rw [bkRlCheck_fst]
    unfold onSlot
    rw [given]
    exact Function.update_self _ _ _
  have here : bucketOf (bkRlCheck now slotAt t ip).1
      ((bkRlCheck now slotAt t ip).1 i).ip = some i :=
    after.bucketOf (by rw [entry, keeps.1, used])
  rw [entry, keeps.2, owner] at here
  exact ⟨here, entry⟩

/-- A check changes no address's last lock of its own. -/
theorem lockOf_check (distinct : Distinct t) (ip : UInt32)
    (now slotAt : Nat) :
    lockOf (bkRlCheck now slotAt t ip).1 ip = lockOf t ip := by
  cases given : (rlSlot slotAt t ip).2 with
  | none =>
      have same : (bkRlCheck now slotAt t ip).1 = t := by
        unfold bkRlCheck
        simp only [given]
        rcases rlSlot_cases slotAt t ip with ⟨j, -, slot⟩ | ⟨j, -, -, slot⟩ |
          ⟨-, -, slot⟩
        · rw [slot]
        · rw [slot] at given
          cases given
        · rw [slot]
      rw [same]
  | some i =>
      obtain ⟨here, entry⟩ := bkRlCheck_given distinct now given
      rw [lockOf_of_bucketOf here, entry, ← (rlSlot_owned given).2.2]
      unfold checkEntry
      split_ifs <;> rfl

/-- A check that lets a login go on leaves its address an unlocked bucket. -/
theorem bkRlCheck_passed (distinct : Distinct t) {now slotAt : Nat}
    (passed : (bkRlCheck now slotAt t ip).2 = none) :
    ∃ i, bucketOf (bkRlCheck now slotAt t ip).1 ip = some i ∧
      ((bkRlCheck now slotAt t ip).1 i).lockUntil = 0 := by
  cases given : (rlSlot slotAt t ip).2 with
  | none =>
      unfold bkRlCheck at passed
      simp only [given] at passed
      cases passed
  | some i =>
      obtain ⟨here, entry⟩ := bkRlCheck_given distinct now given
      refine ⟨i, here, ?_⟩
      have unlocked : ¬ ((rlSlot slotAt t ip).1 i).lockUntil > now := by
        intro locked
        unfold bkRlCheck at passed
        simp only [given] at passed
        rw [if_pos locked] at passed
        cases passed
      rw [entry]
      unfold checkEntry
      rw [if_neg unlocked]
      split_ifs with zero
      · rfl
      · exact not_not.mp zero

/-- A failure on an unlocked bucket leaves it unlocked, or sets its next
lock. -/
theorem bkRlFail_locks {i : Fin nrl} (distinct : Distinct t)
    (found : bucketOf t ip = some i) (unlocked : (t i).lockUntil = 0)
    (times : FailTimes) :
    bucketOf (bkRlFail times t ip) ip = some i ∧
      ((bkRlFail times t ip i).lockUntil = 0 ∧
          (bkRlFail times t ip i).lockS = (t i).lockS ∨
        (bkRlFail times t ip i).lockUntil =
            times.lockAt + nextLock (t i).lockS ∧
          (bkRlFail times t ip i).lockS = nextLock (t i).lockS) := by
  obtain ⟨used, owner⟩ := bucketOf_eq_some found
  have keeps := keepsOwner_failEntry times (t i)
  have after : Distinct (bkRlFail times t ip) := by
    rw [bkRlFail_eq]
    exact distinct.onSlot (keepsOwner_failEntry times)
  have entry : bkRlFail times t ip i = failEntry times (t i) := by
    rw [bkRlFail_eq, onSlot_of_bucketOf found, Function.update_self]
  have here : bucketOf (bkRlFail times t ip) (bkRlFail times t ip i).ip =
      some i := after.bucketOf (by rw [entry, keeps.1, used])
  rw [entry, keeps.2, owner] at here
  refine ⟨here, ?_⟩
  rw [entry]
  unfold failEntry
  dsimp only
  split_ifs
  · exact Or.inl ⟨unlocked, rfl⟩
  · exact Or.inr ⟨rfl, rfl⟩
  · exact Or.inl ⟨unlocked, rfl⟩
  · exact Or.inr ⟨rfl, rfl⟩

theorem nextLock_pos (lockS : Nat) : 0 < nextLock lockS := by
  have first : 0 < rlLock0 := by decide
  have cap : 0 < rlLockCap := by decide
  unfold nextLock
  split_ifs <;> omega

theorem Attempt.locks_wrong {a : Attempt} {times : FailTimes} {i : Fin nrl}
    (outcome : a.outcome = .wrong times) (passed : (a.run t).wait = none)
    (found : bucketOf (a.run t).buckets a.ip = some i) :
    a.locks t =
      if ((a.run t).buckets i).lockUntil = 0 then none
      else some (((a.run t).buckets i).lockUntil - times.lockAt) := by
  simp only [Attempt.locks, outcome, passed, found]

/-- A login of the address that does not succeed sets its next lock or leaves
its last. -/
theorem lockOf_own (distinct : Distinct t) {a : Attempt} (own : a.ip = ip)
    (unsuccessful : ∀ slotAt seenAt, a.outcome = .right slotAt seenAt →
      (a.run t).wait ≠ none) :
    a.locks t = none ∧ lockOf (a.run t).buckets ip = lockOf t ip ∨
      a.locks t = some (nextLock (lockOf t ip)) ∧
        lockOf (a.run t).buckets ip = nextLock (lockOf t ip) := by
  subst own
  have same := lockOf_check distinct a.ip a.now a.slotAt
  cases checkedAs : (bkRlCheck a.now a.slotAt t a.ip).2 with
  | some secs =>
      left
      unfold Attempt.locks
      rw [Attempt.run_of_locked checkedAs]
      refine ⟨?_, same⟩
      cases a.outcome <;> rfl
  | none =>
      obtain ⟨i, found, unlocked⟩ := bkRlCheck_passed distinct checkedAs
      have last := (lockOf_of_bucketOf found).symm.trans same
      have run := Attempt.run_of_passed checkedAs
      cases outcome : a.outcome with
      | right slotAt seenAt =>
          exact absurd (by rw [run]) (unsuccessful slotAt seenAt outcome)
      | unhashed =>
          left
          unfold Attempt.locks
          rw [run, outcome]
          exact ⟨rfl, same⟩
      | failed =>
          left
          unfold Attempt.locks
          rw [run, outcome]
          exact ⟨rfl, same⟩
      | wrong times =>
          have checked : Distinct (bkRlCheck a.now a.slotAt t a.ip).1 := by
            rw [bkRlCheck_fst]
            exact distinct.onSlot (keepsOwner_checkEntry _)
          obtain ⟨here, result⟩ :=
            bkRlFail_locks checked found unlocked times
          have settled : (a.run t).buckets =
              bkRlFail times (bkRlCheck a.now a.slotAt t a.ip).1 a.ip := by
            rw [run, outcome]
            rfl
          rw [last, ← settled] at result
          rw [← settled] at here
          rw [Attempt.locks_wrong outcome (by rw [run]) here,
            lockOf_of_bucketOf here]
          rcases result with ⟨still, kept⟩ | ⟨locked, next⟩
          · exact Or.inl ⟨if_pos still, kept⟩
          · have positive := nextLock_pos (lockOf t a.ip)
            refine Or.inr ⟨?_, next⟩
            rw [if_neg (by omega), locked, Nat.add_sub_cancel_left]

/-- A bucket that is the address's after another's operation was so before. -/
theorem bucketOf_of_onSlot (distinct : Distinct t) {now : Nat}
    {other : UInt32} {f : Rl → Rl} (keeps : KeepsOwner f) (apart : other ≠ ip)
    {i : Fin nrl} (found : bucketOf (onSlot now t other f) ip = some i) :
    bucketOf t ip = some i ∧ onSlot now t other f i = t i := by
  obtain ⟨used, owner⟩ := bucketOf_eq_some found
  have same : onSlot now t other f i = t i :=
    onSlot_other keeps (by rw [owner]; exact apart.symm)
  rw [same] at used owner
  have here := distinct.bucketOf used
  rw [owner] at here
  exact ⟨here, same⟩

theorem bucketOf_of_settle (distinct : Distinct t) {outcome : Outcome}
    {other : UInt32} (apart : other ≠ ip) {i : Fin nrl}
    (found : bucketOf (outcome.settle t other) ip = some i) :
    bucketOf t ip = some i ∧ outcome.settle t other i = t i := by
  cases outcome with
  | unhashed => exact ⟨found, rfl⟩
  | failed => exact ⟨found, rfl⟩
  | wrong times =>
      rw [Outcome.settle, bkRlFail_eq] at found ⊢
      exact bucketOf_of_onSlot distinct (keepsOwner_failEntry times) apart found
  | right slotAt seenAt =>
      rw [Outcome.settle, bkRlOk_eq] at found ⊢
      exact bucketOf_of_onSlot distinct (keepsOwner_okEntry seenAt) apart found

/-- Another's login leaves the last lock of an address whose bucket it leaves. -/
theorem lockOf_other (distinct : Distinct t) {a : Attempt} (apart : a.ip ≠ ip)
    (kept : bucketOf (a.run t).buckets ip = none → bucketOf t ip = none) :
    lockOf (a.run t).buckets ip = lockOf t ip := by
  have checked : Distinct (bkRlCheck a.now a.slotAt t a.ip).1 := by
    rw [bkRlCheck_fst]
    exact distinct.onSlot (keepsOwner_checkEntry _)
  have before {i : Fin nrl}
      (found : bucketOf (bkRlCheck a.now a.slotAt t a.ip).1 ip = some i) :
      bucketOf t ip = some i ∧ (bkRlCheck a.now a.slotAt t a.ip).1 i = t i := by
    rw [bkRlCheck_fst] at found ⊢
    exact bucketOf_of_onSlot distinct (keepsOwner_checkEntry _) apart found
  cases after : bucketOf (a.run t).buckets ip with
  | none =>
      unfold lockOf
      rw [after, kept after]
  | some i =>
      have same : bucketOf t ip = some i ∧ (a.run t).buckets i = t i := by
        cases checkedAs : (bkRlCheck a.now a.slotAt t a.ip).2 with
        | some secs =>
            rw [Attempt.run_of_locked checkedAs] at after ⊢
            exact before after
        | none =>
            rw [Attempt.run_of_passed checkedAs] at after ⊢
            obtain ⟨between, settled⟩ := bucketOf_of_settle checked apart after
            obtain ⟨first, entry⟩ := before between
            exact ⟨first, settled.trans entry⟩
      rw [lockOf_of_bucketOf after, lockOf_of_bucketOf same.1, same.2]

/-- The locks of an address that had none are 60 seconds, then twice the last,
up to 3600. -/
def doubling : Nat → Nat → List Nat
  | _, 0 => []
  | lockS, count + 1 => nextLock lockS :: doubling (nextLock lockS) count

theorem locksOf_eq_doubling {attempts : List Attempt} {start finish : Nat}
    (sound : Sound t start) (timed : Timed start attempts finish)
    (kept : Kept ip attempts t) :
    locksOf ip attempts t =
      doubling (lockOf t ip) (locksOf ip attempts t).length := by
  induction attempts generalizing t start with
  | nil => rfl
  | cons a attempts ih =>
      obtain ⟨mid, within, rest⟩ := timed
      obtain ⟨stays, unsuccessful, later⟩ := kept
      have tail := ih (sound.run within) rest later
      by_cases own : a.ip = ip
      · rw [locksOf, if_pos own]
        rcases lockOf_own sound.distinct own (unsuccessful own) with
          ⟨none, same⟩ | ⟨next, grown⟩
        · rw [none]
          rw [same] at tail
          exact tail
        · rw [next]
          rw [grown] at tail
          simpa [doubling] using tail
      · rw [lockOf_other sound.distinct own stays] at tail
        rw [locksOf, if_neg own]
        exact tail

end Doubling

theorem nextLock_min (k : Nat) :
    nextLock (min (rlLock0 * 2 ^ k) rlLockCap) =
      min (rlLock0 * 2 ^ (k + 1)) rlLockCap := by
  have positive : 0 < 2 ^ k := Nat.two_pow_pos k
  have first : rlLock0 = 60 := rfl
  have cap : rlLockCap = 3600 := rfl
  rw [Nat.pow_succ, first, cap]
  unfold nextLock
  rw [cap]
  generalize 2 ^ k = power at *
  split_ifs <;> omega

theorem doubling_min (k count : Nat) :
    doubling (min (rlLock0 * 2 ^ k) rlLockCap) count =
      (List.range count).map fun j =>
        min (rlLock0 * 2 ^ (k + 1 + j)) rlLockCap := by
  induction count generalizing k with
  | zero => rfl
  | succ count ih =>
      rw [doubling, nextLock_min, ih, List.range_succ_eq_map, List.map_cons,
        List.map_map]
      congr 1
      apply List.map_congr_left
      intro j _
      simp only [Function.comp_apply]
      rw [show k + 1 + 1 + j = k + 1 + (j + 1) by omega]

/-- From no lock: 60, 120, 240 and so on, up to 3600. -/
theorem doubling_zero (count : Nat) :
    doubling 0 count =
      (List.range count).map fun j => min (rlLock0 * 2 ^ j) rlLockCap := by
  cases count with
  | zero => rfl
  | succ count =>
      have first : nextLock 0 = min (rlLock0 * 2 ^ 0) rlLockCap := by decide
      rw [doubling, first, doubling_min, List.range_succ_eq_map, List.map_cons,
        List.map_map]
      congr 1
      apply List.map_congr_left
      intro j _
      simp only [Function.comp_apply]
      rw [show 0 + 1 + j = j + 1 by omega]

/-- From boot, whatever logins have come from whatever addresses: a lock on an
address stays until its time, and until then its logins are told what is left of
it and compute nothing; the locks of an address that keeps its bucket and does
not succeed double from 60 seconds to 3600; and every wait is from 1 to 3600
seconds. -/
theorem lockout_not_escaped {first : List Attempt} {now : Nat}
    (timed : Timed 0 first now) :
    let t := runAttempts first noBuckets
    (∀ i ip until', Held t i ip until' →
      ∀ later finish, Timed now later finish →
        (finish < until' → Held (runAttempts later t) i ip until') ∧
        ∀ a : Attempt, a.ip = ip → finish ≤ a.now → a.now < until' →
          (a.run (runAttempts later t)).wait = some (until' - a.now) ∧
            (a.run (runAttempts later t)).hashed = false) ∧
    (∀ ip later finish, Timed now later finish → lockOf t ip = 0 →
      Kept ip later t →
        locksOf ip later t = (List.range (locksOf ip later t).length).map
          fun j => min (rlLock0 * 2 ^ j) rlLockCap) ∧
    ∀ (a : Attempt) finish, a.Within now finish →
      ∀ secs, (a.run t).wait = some secs → 1 ≤ secs ∧ secs ≤ rlLockCap := by
  have sound := sound_noBuckets.runAttempts timed
  refine ⟨?_, ?_, ?_⟩
  · intro i ip until' held later finish timedLater
    refine ⟨held.runAttempts sound timedLater, ?_⟩
    intro a own started before
    have stays := held.runAttempts sound timedLater (by omega)
    have soundLater := sound.runAttempts timedLater
    obtain ⟨wait, hashed, -⟩ := stays.refused soundLater.distinct own before
    exact ⟨wait, hashed⟩
  · intro ip later finish timedLater none kept
    rw [← doubling_zero, ← none]
    exact locksOf_eq_doubling sound timedLater kept
  · intro a finish within secs reported
    cases checkedAs : (bkRlCheck a.now a.slotAt (runAttempts first noBuckets)
        a.ip).2 with
    | none =>
        rw [Attempt.run_of_passed checkedAs] at reported
        cases reported
    | some left =>
        rw [Attempt.run_of_locked checkedAs] at reported
        cases reported
        exact sound.wait within.1 checkedAs

/-- A wrong password at boot, all at one reading of the clock. -/
def wrongAtBoot : Attempt where
  ip := 7
  now := 0
  slotAt := 0
  outcome := .wrong { slotAt := 0, seenAt := 0, lockAt := 0 }

theorem timed_wrongAtBoot (count : Nat) :
    Timed 0 (List.replicate count wrongAtBoot) 0 := by
  induction count with
  | zero => exact le_rfl
  | succ count ih =>
      refine ⟨0, ⟨le_rfl, le_rfl, ?_⟩, ih⟩
      exact ⟨le_rfl, le_rfl, le_rfl, le_rfl⟩

/-- The table after five wrong passwords. -/
def lockedTable : Buckets :=
  runAttempts (List.replicate 5 wrongAtBoot) noBuckets

/-- A login that reads the clock a second before the lock ends. -/
def lastSecond : Attempt := { wrongAtBoot with now := 59, slotAt := 61 }

/-- Five wrong passwords lock their address for a minute. -/
theorem lockout_not_escaped_minute :
    Held lockedTable 0 7 60 ∧
      (lastSecond.run (runAttempts [] lockedTable)).wait =
        some (60 - lastSecond.now) := by
  have held : Held lockedTable 0 7 60 :=
    ⟨by decide, by decide, by decide⟩
  have stays := (lockout_not_escaped (timed_wrongAtBoot 5)).1 0 7 60 held [] 0
    le_rfl
  exact ⟨held, (stays.2 lastSecond rfl (by decide) (by decide)).1⟩

end RlxFw.Broker
