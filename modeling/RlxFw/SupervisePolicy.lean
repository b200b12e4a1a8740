import Mathlib.Algebra.Order.Ring.Int
import Mathlib.Data.Nat.Cast.Order.Ring
import Mathlib.Tactic.Ring
import RlxFw.RestartPolicy
import RlxFw.Supervise

/-!
# The supervisor keeps its policy

What an onlooker sees of the calls: which processes live, and what happened to each
child.  Over any passes the table agrees with it, and each start was permitted.
-/

namespace RlxFw.Supervise

open RestartPolicy (told streak lastStart lastFall)

/-- The policy of `supervise.h`. -/
def respawn : RestartPolicy where
  healthy := 10000
  wait k := min (250 * 2 ^ (k - 1)) 16000
  cap := 8

/-- A reading of the clock after 0 from which a `long` can still count the longest
wait. -/
def Reading (now : Int) : Prop := 0 < now ∧ now < 2 ^ 31 - 16000

instance (now : Int) : Decidable (Reading now) := inferInstanceAs (Decidable (_ ∧ _))

theorem long_eq {x : Int} (least : -2 ^ 31 ≤ x) (most : x < 2 ^ 31) : long x = x := by
  unfold long
  omega

theorem backoffLoop_eq (left b : Nat) :
    backoffLoop left b = min (b * 2 ^ left) backoffMaxMs := by
  induction left generalizing b with
  | zero =>
      unfold backoffLoop
      split <;> simp <;> omega
  | succ left ih =>
      unfold backoffLoop
      rw [ih, pow_succ]
      have grows : 1 ≤ 2 ^ left := Nat.one_le_two_pow
      have more : b ≤ b * 2 ^ left := Nat.le_mul_of_pos_right b grows
      split
      · rw [min_eq_right (by rw [← mul_assoc]; omega)]
      · rw [mul_right_comm, mul_assoc]

/-- The backoff is the wait of the policy. -/
theorem backoffFor_eq {fails : Nat} (some : 0 < fails) :
    (backoffFor fails : Int) = respawn.wait fails := by
  unfold backoffFor
  rw [if_neg (by omega), backoffLoop_eq]
  simp [respawn, backoffMs, backoffMaxMs]

/-! ## What an onlooker sees -/

/-- The processes that live and the child of each, what happened to each child, whether
each process was a fresh one, and whether the clock stayed in its range. -/
structure Seen where
  live : Int → Option (Fin maxChild)
  past : Fin maxChild → List Incident
  fresh : Bool
  clocked : Bool

namespace Seen

/-- An incident of a child. -/
def add (g : Seen) (i : Fin maxChild) (incident : Incident) : Seen :=
  { g with past := Function.update g.past i (incident :: g.past i) }

/-- A call: a process that starts is a fresh one, and a child ends with its process. -/
def note (g : Seen) : Call → Seen
  | .spawn i now pid =>
      if pid > 0 then
        { g.add i (.started now) with
          live := Function.update g.live pid (some i)
          fresh := g.fresh && (g.live pid).isNone
          clocked := g.clocked && decide (Reading now) }
      else { g.add i (.unstarted now) with clocked := g.clocked && decide (Reading now) }
  | .reap now pid =>
      match g.live pid with
      | none => g
      | some i =>
          { g.add i (.ended now) with
            live := Function.update g.live pid none
            clocked := g.clocked && decide (Reading now) }
  | .send i _ .term => g.add i .told
  | .armed i now =>
      { g.add i (.armed now) with clocked := g.clocked && decide (Reading now) }
  | .send _ _ .kill => g
  | .waitMs _ => g
  | .doSync => g
  | .doReboot _ => g

end Seen

/-- What was seen since before the first call. -/
def seen (m : Sup) : Seen :=
  m.trail.foldl Seen.note
    { live := fun _ => none, past := fun _ => [], fresh := true, clocked := true }

@[simp]
theorem seen_record (m : Sup) (s : SvSet) (call : Call) :
    seen (m.record s call) = (seen m).note call := by
  simp [seen, Trailed.record]

/-! ## A child and its history -/

/-- The child has a process. -/
def Busy (c : Child) : Prop := c.state = .running ∨ c.state = .stopping

/-- What a child holds of what happened to it. -/
def Agrees (c : Child) (past : List Incident) : Prop :=
  c.fails = respawn.streak past ∧
    match c.state with
    | .wait =>
        told past = false ∧ respawn.streak past < 8 ∧ 0 < c.dueMs ∧ c.dueMs < 2 ^ 31 ∧
          (0 < respawn.streak past →
            ∀ t ∈ lastFall past, t + respawn.wait (respawn.streak past) ≤ c.dueMs)
    | .running =>
        told past = false ∧ respawn.streak past < 8 ∧ lastStart past = some c.startedMs ∧
          Reading c.startedMs ∧ 0 < c.pid
    | .stopping => told past = true ∧ respawn.streak past < 8 ∧ 0 < c.pid
    | .givenup => 8 ≤ respawn.streak past
    | .off => respawn.streak past < 8
    | .absent => respawn.streak past < 8

section Child

variable {c : Child} {past : List Incident} {now : Int}

theorem agrees_armed (clocked : Reading now) : Agrees (svArm c now) (.armed now :: past) := by
  obtain ⟨after, before⟩ := clocked
  refine ⟨rfl, rfl, Nat.succ_pos 7, after, ?_, nofun⟩
  show now < 2 ^ 31
  omega

theorem agrees_started {pid : Int} (agrees : Agrees c past) (waits : c.state = .wait)
    (clocked : Reading now) (positive : 0 < pid) : Agrees (svOnStart c pid now) (.started now :: past) := by
  obtain ⟨counted, held⟩ := agrees
  rw [waits] at held
  exact ⟨counted, held.1, held.2.1, rfl, clocked, positive⟩

/-- A start of a child that waits and is due is permitted. -/
theorem permits_of_due (agrees : Agrees c past) (waits : c.state = .wait)
    (due : c.dueMs ≤ now) : respawn.Permits past now := by
  obtain ⟨-, held⟩ := agrees
  rw [waits] at held
  obtain ⟨untold, few, -, -, waited⟩ := held
  exact ⟨untold, few, fun failed t last => (waited failed t last).trans due⟩

/-- A fast failure counts one more, and then either gives up or waits. -/
theorem agrees_countFastFailure (few : c.fails < 8)
    (counted : respawn.streak past = c.fails + 1) (untold : told past = false)
    (fell : lastFall past = some now) (clocked : Reading now) :
    Agrees (countFastFailure c now) past := by
  obtain ⟨after, before⟩ := clocked
  unfold countFastFailure
  rw [if_pos (show c.fails < 0xFFFFFFFF by omega)]
  dsimp only
  split
  next many =>
    refine ⟨counted.symm, ?_⟩
    show 8 ≤ respawn.streak past
    rw [counted]
    exact many
  next left =>
    have isWait : (backoffFor (c.fails + 1) : Int) = respawn.wait (c.fails + 1) :=
      backoffFor_eq (Nat.succ_pos c.fails)
    have bounded : respawn.wait (c.fails + 1) ≤ 16000 := min_le_right _ _
    have positive : 0 ≤ respawn.wait (c.fails + 1) := by
      rw [← isWait]
      omega
    have due : long (now + backoffFor (c.fails + 1)) =
        now + respawn.wait (c.fails + 1) := by
      rw [isWait]
      exact long_eq (by omega) (by omega)
    refine ⟨counted.symm, untold, ?_, ?_, ?_, ?_⟩
    · rw [counted]
      exact Nat.lt_of_not_le left
    · show 0 < long _
      rw [due]
      omega
    · show long _ < 2 ^ 31
      rw [due]
      omega
    · intro _ t last
      rw [fell] at last
      cases last
      show _ ≤ long _
      rw [due, counted]

theorem agrees_unstarted (agrees : Agrees c past) (waits : c.state = .wait)
    (clocked : Reading now) : Agrees (svOnSpawnFail c now) (.unstarted now :: past) := by
  obtain ⟨counted, held⟩ := agrees
  rw [waits] at held
  obtain ⟨untold, few, -⟩ := held
  apply agrees_countFastFailure _ _ _ rfl clocked
  · exact counted ▸ few
  · exact congrArg Nat.succ counted.symm
  · exact untold

/-- The exit of a running child: a long run counts from 0 again. -/
theorem agrees_ended {wstatus : Nat} (agrees : Agrees c past) (runs : c.state = .running)
    (clocked : Reading now) : Agrees (svOnExit c wstatus now) (.ended now :: past) := by
  obtain ⟨counted, held⟩ := agrees
  rw [runs] at held
  obtain ⟨untold, few, start, started, -⟩ := held
  have ran : long (now - c.startedMs) = now - c.startedMs := by
    unfold Reading at clocked started
    exact long_eq (by omega) (by omega)
  have lasted : respawn.Lasted past now ↔ 10000 ≤ now - c.startedMs := by
    simp [RestartPolicy.Lasted, start, respawn]
  have credit : (if now - c.startedMs < 0 then 0 else now - c.startedMs) ≥ runokMs ↔
      respawn.Lasted past now := by
    unfold runokMs
    rw [lasted]
    split <;> omega
  unfold svOnExit
  dsimp only
  rw [if_neg (by rw [runs]; decide), if_pos started.1, ran]
  by_cases healthy : respawn.Lasted past now
  · rw [if_pos (credit.mpr healthy)]
    have again : respawn.streak (.ended now :: past) = 0 :=
      RestartPolicy.streak_ended_of_lasted respawn untold healthy
    obtain ⟨after, before⟩ := clocked
    refine ⟨again.symm, untold, again ▸ Nat.succ_pos 7, after, ?_, ?_⟩
    · show now < 2 ^ 31
      omega
    · rw [again]
      nofun
  · rw [if_neg (mt credit.mp healthy)]
    apply agrees_countFastFailure _ _ _ rfl clocked
    · exact counted ▸ few
    · rw [RestartPolicy.streak_ended_of_short respawn untold healthy]
      exact congrArg Nat.succ counted.symm
    · exact untold

/-- A child that was told to stop is stopped, whatever its exit. -/
theorem agrees_stopped {wstatus : Nat} (agrees : Agrees c past) (stops : c.state = .stopping) :
    Agrees (svOnExit c wstatus now) (.ended now :: past) := by
  obtain ⟨counted, held⟩ := agrees
  rw [stops] at held
  obtain ⟨isTold, few, -⟩ := held
  have same : respawn.streak (.ended now :: past) = respawn.streak past := by
    simp [RestartPolicy.streak, isTold]
  unfold svOnExit
  dsimp only
  rw [if_pos stops]
  exact ⟨counted.trans same.symm, same ▸ few⟩

theorem agrees_told (agrees : Agrees c past) (runs : c.state = .running) :
    Agrees { c with state := .stopping } (.told :: past) := by
  obtain ⟨counted, held⟩ := agrees
  rw [runs] at held
  obtain ⟨-, few, -, -, positive⟩ := held
  exact ⟨counted, rfl, few, positive⟩

theorem countFastFailure_idle (c : Child) (now : Int) : ¬ Busy (countFastFailure c now) := by
  unfold countFastFailure Busy
  generalize (if c.fails < 0xFFFFFFFF then { c with fails := c.fails + 1 } else c) = c
  dsimp only
  split <;> simp

theorem svOnExit_idle (c : Child) (wstatus : Nat) (now : Int) :
    ¬ Busy (svOnExit c wstatus now) := by
  unfold svOnExit
  dsimp only
  split
  · simp [Busy]
  · generalize (if c.startedMs > 0 then long (now - c.startedMs) else 0) = ran
    generalize (if ran < 0 then 0 else ran) = ran
    split
    · simp [Busy]
    · exact countFastFailure_idle _ _

end Child

/-! ## Who owns which process -/

/-- The processes that live are those of the children that have one. -/
def Owned (live : Int → Option (Fin maxChild)) (s : SvSet) : Prop :=
  ∀ p i, live p = some i ↔ i.val < s.n ∧ 0 < p ∧ Busy (s.c i) ∧ (s.c i).pid = p

section Owned

variable {live : Int → Option (Fin maxChild)} {s : SvSet} {i : Fin maxChild} {c : Child}
  {pid : Int}

@[simp]
theorem put_n (s : SvSet) (i : Fin maxChild) (c : Child) : (s.put i c).n = s.n := rfl

@[simp]
theorem put_self (s : SvSet) (i : Fin maxChild) (c : Child) : (s.put i c).c i = c := by
  simp [SvSet.put]

theorem put_other (s : SvSet) {i j : Fin maxChild} (other : j ≠ i) (c : Child) :
    (s.put i c).c j = s.c j := by
  simp [SvSet.put, other]

/-- A child that keeps its process. -/
theorem Owned.keep (owned : Owned live s) (busy : Busy c ↔ Busy (s.c i))
    (same : c.pid = (s.c i).pid) : Owned live (s.put i c) := by
  intro p j
  rw [owned p j]
  by_cases here : j = i
  · subst here
    simp [busy, same]
  · rw [put_other s here, put_n]

/-- A child that had no process and gets none. -/
theorem Owned.still (owned : Owned live s) (before : ¬ Busy (s.c i)) (after : ¬ Busy c) :
    Owned live (s.put i c) := by
  intro p j
  rw [owned p j]
  by_cases here : j = i
  · subst here
    simp [before, after]
  · rw [put_other s here, put_n]

/-- A child that gets a fresh process. -/
theorem Owned.gain (owned : Owned live s) (inTable : i.val < s.n) (before : ¬ Busy (s.c i))
    (fresh : live pid = none) (positive : 0 < pid) (after : Busy c) (isPid : c.pid = pid) :
    Owned (Function.update live pid (some i)) (s.put i c) := by
  intro p j
  by_cases process : p = pid
  · subst process
    rw [Function.update_self]
    constructor
    · rintro ⟨⟩
      simp [inTable, positive, after, isPid]
    · rintro ⟨inside, -, busy, has⟩
      by_cases here : j = i
      · rw [here]
      · rw [put_other s here] at busy has
        have lives := (owned p j).mpr ⟨inside, positive, busy, has⟩
        rw [fresh] at lives
        cases lives
  · rw [Function.update_of_ne process, owned p j]
    by_cases here : j = i
    · subst here
      have differs : ¬ c.pid = p := fun same => process (same.symm.trans isPid)
      simp [before, differs]
    · rw [put_other s here, put_n]

/-- A child whose process ends. -/
theorem Owned.lose (owned : Owned live s) (lived : live pid = some i) (after : ¬ Busy c) :
    Owned (Function.update live pid none) (s.put i c) := by
  have before := (owned pid i).mp lived
  intro p j
  by_cases process : p = pid
  · subst process
    rw [Function.update_self]
    refine ⟨nofun, ?_⟩
    rintro ⟨inside, positive, busy, has⟩
    by_cases here : j = i
    · subst here
      rw [put_self] at busy
      exact absurd busy after
    · rw [put_other s here] at busy has
      have lives := (owned p j).mpr ⟨inside, positive, busy, has⟩
      rw [lived] at lives
      cases lives
      exact absurd rfl here
  · rw [Function.update_of_ne process, owned p j]
    by_cases here : j = i
    · subst here
      have differs : ¬ (s.c j).pid = p := fun same => process (same.symm.trans before.2.2.2)
      simp [after, differs]
    · rw [put_other s here, put_n]

theorem mem_slots {s : SvSet} {i : Fin maxChild} : i ∈ slots s ↔ i.val < s.n := by
  simp [slots]

/-- `sv_by_pid` finds the child whose process it is. -/
theorem Owned.svByPid (owned : Owned live s) (pid : Int) : svByPid s pid = live pid := by
  unfold Supervise.svByPid
  cases lived : live pid with
  | none =>
      split
      · rfl
      next positive =>
        rw [List.find?_eq_none]
        intro j member has
        simp only [decide_eq_true_eq] at has
        have lives := (owned pid j).mpr ⟨mem_slots.mp member, by omega, has.2, has.1⟩
        rw [lived] at lives
        cases lives
  | some i =>
      obtain ⟨inside, positive, busy, has⟩ := (owned pid i).mp lived
      rw [if_neg (by omega)]
      cases found : (slots s).find? _ with
      | none =>
          rw [List.find?_eq_none] at found
          have missed := found i (mem_slots.mpr inside)
          simp only [decide_eq_true_eq] at missed
          exact absurd ⟨has, busy⟩ missed
      | some j =>
          have isJ := List.find?_some found
          simp only [decide_eq_true_eq] at isJ
          have lives := (owned pid j).mpr
            ⟨mem_slots.mp (List.mem_of_find?_eq_some found), positive, isJ.2, isJ.1⟩
          rw [lived] at lives
          exact lives.symm

end Owned

/-! ## Each step of a pass -/

/-- The table agrees with what was seen, and no start went against the policy. -/
structure Consistent (m : Sup) : Prop where
  owned : Owned (seen m).live m.world
  agrees : ∀ i, i.val < m.world.n → Agrees (m.world.c i) ((seen m).past i)
  obeys : ∀ i, respawn.Obeys ((seen m).past i)
  unused : ∀ i, ¬ i.val < m.world.n → (seen m).past i = []

/-- The table is consistent as long as processes were fresh and the clock in range. -/
def Kept (m : Sup) : Prop :=
  (seen m).fresh = true → (seen m).clocked = true → Consistent m

section Steps

variable {m : Sup} {i : Fin maxChild} {c : Child} {call : Call} {incident : Incident}

/-- One child changed, and one incident of it seen. -/
theorem Consistent.put (good : Consistent m) (inTable : i.val < m.world.n)
    (past : ((seen m).note call).past =
      Function.update (seen m).past i (incident :: (seen m).past i))
    (owned : Owned ((seen m).note call).live (m.world.put i c))
    (agrees : Agrees c (incident :: (seen m).past i))
    (obeys : respawn.Obeys (incident :: (seen m).past i)) :
    Consistent (m.record (m.world.put i c) call) := by
  constructor
  · rw [seen_record]
    exact owned
  · intro j inside
    rw [seen_record, past]
    by_cases here : j = i
    · subst here
      rw [Function.update_self]
      exact (put_self m.world j c).symm ▸ agrees
    · rw [Function.update_of_ne here]
      exact (put_other m.world here c).symm ▸ good.agrees j inside
  · intro j
    rw [seen_record, past]
    by_cases here : j = i
    · subst here
      rw [Function.update_self]
      exact obeys
    · rw [Function.update_of_ne here]
      exact good.obeys j
  · intro j outside
    have other : j ≠ i := fun here => outside (here ▸ inTable)
    rw [seen_record, past, Function.update_of_ne other]
    exact good.unused j outside

/-- A call that tells nothing of a child. -/
theorem Kept.quiet (kept : Kept m) (quiet : (seen m).note call = seen m) :
    Kept (m.record m.world call) := by
  intro fresh clocked
  rw [seen_record, quiet] at fresh clocked
  obtain ⟨owned, agrees, obeys, unused⟩ := kept fresh clocked
  constructor <;> rw [seen_record, quiet]
  · exact owned
  · exact agrees
  · exact obeys
  · exact unused

theorem startOne_keeps {spawn : Fin maxChild → Int} {now : Int} (kept : Kept m)
    (inTable : i.val < m.world.n) (waits : (m.world.c i).state = .wait)
    (due : (m.world.c i).dueMs ≤ now) : Kept (startOne spawn now m i) := by
  intro fresh clocked
  have idle : ¬ Busy (m.world.c i) := by simp [Busy, waits]
  unfold startOne at fresh clocked ⊢
  dsimp only at fresh clocked ⊢
  rw [seen_record] at fresh clocked
  by_cases spawned : spawn i > 0
  · rw [if_pos spawned]
    simp only [Seen.note, if_pos spawned, Bool.and_eq_true, decide_eq_true_eq,
      Option.isNone_iff_eq_none] at fresh clocked
    obtain ⟨wasFresh, fresh⟩ := fresh
    obtain ⟨wasClocked, clocked⟩ := clocked
    have good := kept wasFresh wasClocked
    have agrees := good.agrees i inTable
    have permitted := permits_of_due agrees waits due
    refine good.put inTable ?_ ?_ (agrees_started agrees waits clocked spawned)
      ⟨permitted, good.obeys i⟩
    · simp [Seen.note, Seen.add, if_pos spawned]
    · simp only [Seen.note, if_pos spawned]
      exact good.owned.gain inTable idle fresh spawned (Or.inl rfl) rfl
  · rw [if_neg spawned]
    simp only [Seen.note, if_neg spawned, Bool.and_eq_true, decide_eq_true_eq]
      at fresh clocked
    obtain ⟨wasClocked, clocked⟩ := clocked
    have good := kept fresh wasClocked
    have agrees := good.agrees i inTable
    have permitted := permits_of_due agrees waits due
    refine good.put inTable ?_ ?_ (agrees_unstarted agrees waits clocked)
      ⟨permitted, good.obeys i⟩
    · simp [Seen.note, Seen.add, if_neg spawned]
    · simp only [Seen.note, if_neg spawned]
      exact good.owned.still idle (countFastFailure_idle _ _)

/-- What was seen before an exit was no worse. -/
theorem seen_reapOne {pid now : Int} {wstatus : Nat}
    (fresh : (seen (reapOne pid wstatus now m)).fresh = true)
    (clocked : (seen (reapOne pid wstatus now m)).clocked = true) :
    (seen m).fresh = true ∧ (seen m).clocked = true := by
  have noted : seen (reapOne pid wstatus now m) = (seen m).note (.reap now pid) := by
    unfold reapOne
    split <;> exact seen_record _ _ _
  rw [noted] at fresh clocked
  cases lived : (seen m).live pid with
  | none =>
      simp only [Seen.note, lived] at fresh clocked
      exact ⟨fresh, clocked⟩
  | some i =>
      simp only [Seen.note, lived, Bool.and_eq_true] at fresh clocked
      exact ⟨fresh, clocked.1⟩

theorem reapOne_keeps {pid now : Int} {wstatus : Nat} (kept : Kept m) :
    Kept (reapOne pid wstatus now m) := by
  intro fresh clocked
  have wasFresh := (seen_reapOne fresh clocked).1
  have wasClocked := (seen_reapOne fresh clocked).2
  have good := kept wasFresh wasClocked
  unfold reapOne at fresh clocked ⊢
  rw [good.owned.svByPid] at fresh clocked ⊢
  cases lived : (seen m).live pid with
  | none =>
      have quiet : (seen m).note (.reap now pid) = seen m := by simp [Seen.note, lived]
      rw [lived] at fresh clocked
      exact kept.quiet quiet fresh clocked
  | some i =>
      rw [lived] at clocked
      dsimp only at clocked ⊢
      rw [seen_record] at clocked
      simp only [Seen.note, lived, Bool.and_eq_true, decide_eq_true_eq] at clocked
      have clocked := clocked.2
      obtain ⟨inTable, -, busy, -⟩ := (good.owned pid i).mp lived
      have agrees := good.agrees i inTable
      have ended : Agrees (svOnExit (m.world.c i) wstatus now)
          (.ended now :: (seen m).past i) := by
        rcases busy with runs | stops
        · exact agrees_ended agrees runs clocked
        · exact agrees_stopped agrees stops
      refine good.put inTable ?_ ?_ ended (good.obeys i)
      · simp [Seen.note, Seen.add, lived]
      · simp only [Seen.note, lived]
        exact good.owned.lose lived (svOnExit_idle _ _ _)

theorem tellOne_keeps (kept : Kept m) (inTable : i.val < m.world.n) : Kept (tellOne m i) := by
  unfold tellOne
  dsimp only
  split
  · exact kept
  next runs =>
    have runs := not_not.mp runs
    intro fresh clocked
    rw [seen_record] at fresh clocked
    have good := kept fresh clocked
    apply good.put inTable rfl
    · exact good.owned.keep (by simp [Busy, runs]) rfl
    · exact agrees_told (good.agrees i inTable) runs
    · exact good.obeys i

theorem rearmOne_keeps {now : Fin maxChild → Int} (kept : Kept m)
    (inTable : i.val < m.world.n) : Kept (rearmOne now m i) := by
  unfold rearmOne
  dsimp only
  split
  · exact kept
  next gone =>
    have gone := not_not.mp gone
    intro fresh clocked
    rw [seen_record] at fresh clocked
    simp only [Seen.note, Bool.and_eq_true, decide_eq_true_eq] at clocked
    obtain ⟨wasClocked, clocked⟩ := clocked
    have good := kept fresh wasClocked
    apply good.put inTable rfl
    · exact good.owned.still (by simp [Busy, gone]) (by simp [Busy, svArm])
    · exact agrees_armed clocked
    · exact good.obeys i

theorem killOne_keeps (kept : Kept m) : Kept (killOne m i) := by
  unfold killOne
  dsimp only
  split
  · exact kept
  · exact kept.quiet rfl

end Steps

end RlxFw.Supervise
