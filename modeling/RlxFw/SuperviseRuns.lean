import RlxFw.SupervisePolicy

/-!
# Runs of the supervisor

Every pass keeps the table consistent with what was seen, a shutdown starts nothing, and
the next start is due at once exactly when a child is due.
-/

namespace RlxFw.Supervise

open RestartPolicy (told lastStart lastFall)

variable {m : Sup} {i : Fin maxChild}

/-! ## Passes -/

/-- A loop over the table, of steps that keep it. -/
theorem foldl_keeps {f : Sup → Fin maxChild → Sup}
    (sameSize : ∀ m i, (f m i).world.n = m.world.n)
    (keeps : ∀ {m : Sup} {i : Fin maxChild}, Kept m → i.val < m.world.n → Kept (f m i))
    {l : List (Fin maxChild)} (inTable : ∀ i ∈ l, i.val < m.world.n) (kept : Kept m) :
    Kept (l.foldl f m) := by
  induction l generalizing m with
  | nil => exact kept
  | cons i l ih =>
      obtain ⟨inside, others⟩ := List.forall_mem_cons.mp inTable
      apply ih
      · simpa only [sameSize] using others
      · exact keeps kept inside

theorem tellOne_n (m : Sup) (i : Fin maxChild) : (tellOne m i).world.n = m.world.n := by
  unfold tellOne
  dsimp only
  split <;> rfl

theorem rearmOne_n (now : Fin maxChild → Int) (m : Sup) (i : Fin maxChild) :
    (rearmOne now m i).world.n = m.world.n := by
  unfold rearmOne
  dsimp only
  split <;> rfl

theorem killOne_world (m : Sup) (i : Fin maxChild) : (killOne m i).world = m.world := by
  unfold killOne
  dsimp only
  split <;> rfl

/-- The children that were due when the pass began are still due when it comes to them. -/
theorem foldl_startOne_keeps {spawn : Fin maxChild → Int} {now : Int}
    {l : List (Fin maxChild)} (once : l.Nodup)
    (due : ∀ i ∈ l, i.val < m.world.n ∧ (m.world.c i).state = .wait ∧
      (m.world.c i).dueMs ≤ now)
    (kept : Kept m) : Kept (l.foldl (startOne spawn now) m) := by
  induction l generalizing m with
  | nil => exact kept
  | cons i l ih =>
      obtain ⟨first, others⟩ := List.forall_mem_cons.mp due
      obtain ⟨inside, waits, isDue⟩ := first
      obtain ⟨notLater, once⟩ := List.nodup_cons.mp once
      apply ih once
      · intro j member
        have other : j ≠ i := fun here => notLater (here ▸ member)
        have same : (startOne spawn now m i).world.c j = m.world.c j :=
          put_other m.world other _
        rw [same]
        exact others j member
      · exact startOne_keeps kept inside waits isDue

theorem svStartDue_keeps (spawn : Fin maxChild → Int) (now : Int) (kept : Kept m) :
    Kept (svStartDue spawn now m) := by
  apply foldl_startOne_keeps _ _ kept
  · unfold svDue slots
    exact (((List.nodup_finRange _).filter _).filter _).sublist (List.take_sublist _ _)
  · intro i member
    have listed := List.mem_filter.mp (List.mem_of_mem_take member)
    obtain ⟨inside, due⟩ := listed
    simp only [decide_eq_true_eq, gt_iff_lt, not_lt] at due
    exact ⟨mem_slots.mp inside, due⟩

theorem svReapAll_keeps (now : Int) (reaped : List (Int × Nat)) (kept : Kept m) :
    Kept (svReapAll now reaped m) := by
  induction reaped generalizing m with
  | nil => exact kept
  | cons exit more ih =>
      unfold svReapAll
      split
      · exact kept
      · exact ih (reapOne_keeps kept)

theorem awaitStopped_keeps {t0 : Int} {rounds : List Round} {done : Sup} (kept : Kept m)
    (stopped : awaitStopped t0 rounds m = some done) : Kept done := by
  induction rounds generalizing m with
  | nil => cases stopped
  | cons r more ih =>
      have reaped := svReapAll_keeps r.now r.reaped kept
      unfold awaitStopped at stopped
      dsimp only at stopped
      split at stopped
      · cases stopped
        exact reaped
      · split at stopped
        · cases stopped
          exact reaped
        · exact ih (reaped.quiet rfl) stopped

/-- What a shutdown that ends went through. -/
theorem svShutdown_eq_some {w : ShutdownWorld} {how : SvHow} {done : Sup}
    (ended : svShutdown w how m = some done) :
    ∃ stopped killed : Sup,
      awaitStopped w.t0 w.rounds ((slots m.world).foldl tellOne m) = some stopped ∧
      killed = svReapAll w.last.now w.last.reaped
        ((slots stopped.world).foldl killOne stopped) ∧
      done = (killed.record killed.world .doSync).record killed.world (.doReboot how) := by
  unfold svShutdown at ended
  dsimp only at ended
  split at ended
  · cases ended
  next stopped waited =>
    cases ended
    exact ⟨stopped, _, waited, rfl, rfl⟩

theorem svShutdown_keeps {w : ShutdownWorld} {how : SvHow} {done : Sup} (kept : Kept m)
    (ended : svShutdown w how m = some done) : Kept done := by
  obtain ⟨stopped, killed, waited, isKilled, rfl⟩ := svShutdown_eq_some ended
  have telling : Kept ((slots m.world).foldl tellOne m) :=
    foldl_keeps tellOne_n tellOne_keeps (fun _ => mem_slots.mp) kept
  have waiting := awaitStopped_keeps telling waited
  have killing : Kept ((slots stopped.world).foldl killOne stopped) :=
    foldl_keeps (fun m i => by rw [killOne_world]) (fun kept _ => killOne_keeps kept)
      (fun _ => mem_slots.mp) waiting
  have reaped := svReapAll_keeps w.last.now w.last.reaped killing
  rw [← isKilled] at reaped
  have synced : Kept (killed.record killed.world .doSync) := reaped.quiet rfl
  exact synced.quiet rfl

theorem step_keeps {event : Event} {done : Sup} (kept : Kept m)
    (ended : step m event = some done) : Kept done := by
  cases event with
  | reap r =>
      cases ended
      exact svReapAll_keeps r.now r.reaped kept
  | start now spawn =>
      cases ended
      exact svStartDue_keeps spawn now kept
  | rearm now =>
      cases ended
      exact foldl_keeps (rearmOne_n now) rearmOne_keeps (fun _ => mem_slots.mp) kept
  | shutdown w how => exact svShutdown_keeps kept ended

/-! ## The table at first -/

theorem agrees_zero {state : SvState} (never : state = .off ∨ state = .absent) :
    Agrees { Child.zero with state := state } [] := by
  rcases never with rfl | rfl <;> exact ⟨rfl, Nat.succ_pos 7⟩

/-- The table with one more child. -/
def grown (m : Sup) (room : m.world.n < maxChild) (c : Child) : SvSet :=
  { m.world.put ⟨m.world.n, room⟩ c with n := m.world.n + 1 }

/-- A child that is added has no process, and the history it was added with. -/
theorem Consistent.grow {trail : List Call} {past : List Incident} {c : Child}
    (good : Consistent m) (room : m.world.n < maxChild) (idle : ¬ Busy c)
    (agrees : Agrees c past) (obeys : respawn.Obeys past)
    (live : (seen ⟨grown m room c, trail⟩).live = (seen m).live)
    (isPast : (seen ⟨grown m room c, trail⟩).past =
      Function.update (seen m).past ⟨m.world.n, room⟩ past) :
    Consistent ⟨grown m room c, trail⟩ := by
  unfold grown at live isPast ⊢
  constructor
  · rw [live]
    intro p j
    rw [good.owned p j]
    by_cases here : j = ⟨m.world.n, room⟩
    · subst here
      simp [SvSet.put, idle]
    · have apart : j.val ≠ m.world.n := fun same => here (Fin.ext same)
      have size : j.val < m.world.n + 1 ↔ j.val < m.world.n := by omega
      simp [SvSet.put, here, size]
  · intro j inside
    rw [isPast]
    by_cases here : j = ⟨m.world.n, room⟩
    · subst here
      simpa [SvSet.put] using agrees
    · have apart : j.val ≠ m.world.n := fun same => here (Fin.ext same)
      have before : j.val < m.world.n := by
        have after : j.val < m.world.n + 1 := inside
        omega
      simpa [SvSet.put, here] using good.agrees j before
  · intro j
    rw [isPast]
    by_cases here : j = ⟨m.world.n, room⟩
    · subst here
      simpa using obeys
    · simpa [here] using good.obeys j
  · intro j outside
    have after : ¬ j.val < m.world.n + 1 := outside
    have other : j ≠ ⟨m.world.n, room⟩ := by
      rintro rfl
      exact after (Nat.lt_succ_self _)
    rw [isPast, Function.update_of_ne other]
    exact good.unused j (by omega)

theorem addChild_keeps (added : Added) (kept : Kept m) : Kept (addChild m added) := by
  unfold addChild
  split
  next room =>
    have unseen (good : Consistent m) :
        (seen m).past = Function.update (seen m).past ⟨m.world.n, room⟩ [] := by
      rw [← good.unused ⟨m.world.n, room⟩ (lt_irrefl _), Function.update_eq_self]
    cases added with
    | disabled =>
        intro fresh clocked
        have good := kept fresh clocked
        exact good.grow room (by simp [Busy, Child.zero]) (agrees_zero (Or.inl rfl)) trivial
          rfl (unseen good)
    | missing =>
        intro fresh clocked
        have good := kept fresh clocked
        exact good.grow room (by simp [Busy]) (agrees_zero (Or.inr rfl)) trivial
          rfl (unseen good)
    | armed now =>
        intro fresh clocked
        rw [seen_record] at fresh clocked
        simp only [Seen.note, Bool.and_eq_true, decide_eq_true_eq] at clocked
        obtain ⟨wasClocked, clocked⟩ := clocked
        have good := kept fresh wasClocked
        have isPast := good.unused ⟨m.world.n, room⟩ (lt_irrefl _)
        have noted := seen_record m (grown m room (svArm .zero now))
          (.armed ⟨m.world.n, room⟩ now)
        have agrees : Agrees (svArm .zero now) [.armed now] := agrees_armed clocked
        apply good.grow room (by simp [Busy, svArm]) agrees trivial
        · exact (congrArg Seen.live noted).trans rfl
        · refine (congrArg Seen.past noted).trans ?_
          simp [Seen.note, Seen.add, isPast]
  · exact kept

theorem buildTable_keeps (c : Fin maxChild → Child) (adds : List Added) :
    Kept (buildTable c adds) := by
  have from_any {m : Sup} (kept : Kept m) : Kept (adds.foldl addChild m) := by
    induction adds generalizing m with
    | nil => exact kept
    | cons added more ih => exact ih (addChild_keeps added kept)
  apply from_any
  intro _ _
  constructor
  · intro p i
    constructor
    · nofun
    · rintro ⟨inside, -⟩
      exact absurd inside (Nat.not_lt_zero _)
  · intro i inside
    exact absurd inside (Nat.not_lt_zero _)
  · exact fun _ => trivial
  · exact fun _ _ => rfl

/-- Over any passes, the table is consistent with what was seen. -/
theorem run_keeps {c : Fin maxChild → Child} {adds : List Added} {events : List Event}
    (ran : events.foldlM step (buildTable c adds) = some m) : Kept m := by
  have kept := buildTable_keeps c adds
  generalize buildTable c adds = start at ran kept
  induction events generalizing start with
  | nil =>
      cases ran
      exact kept
  | cons event more ih =>
      obtain ⟨next, ended, ran⟩ := Option.bind_eq_some_iff.mp ran
      exact ih next ran (step_keeps kept ended)

/-! ## The next start -/

theorem svNextDue_step {best d : Int} :
    (if best < 0 ∨ (if d < 0 then 0 else d) < best then if d < 0 then 0 else d else best) = 0 ↔
      best = 0 ∨ d ≤ 0 := by
  split_ifs <;> omega

/-- `sv_next_due` is 0 exactly when a child is due. -/
theorem svNextDue_eq_zero_iff (good : Consistent m) {now : Int} (clocked : Reading now) :
    svNextDue m.world now = 0 ↔ svDue m.world now maxChild ≠ [] := by
  have due {i : Fin maxChild} (member : i ∈ slots m.world)
      (waits : (m.world.c i).state = .wait) :
      long ((m.world.c i).dueMs - now) ≤ 0 ↔ ¬ (m.world.c i).dueMs > now := by
    obtain ⟨-, held⟩ := good.agrees i (mem_slots.mp member)
    rw [waits] at held
    obtain ⟨-, -, after, before, -⟩ := held
    unfold Reading at clocked
    rw [long_eq (by omega) (by omega)]
    omega
  have loop (l : List (Fin maxChild)) (inTable : ∀ i ∈ l, i ∈ slots m.world) (best : Int) :
      l.foldl (fun best i =>
          if (m.world.c i).state ≠ .wait then best
          else
            let d := long ((m.world.c i).dueMs - now)
            let d := if d < 0 then 0 else d
            if best < 0 ∨ d < best then d else best) best = 0 ↔
        best = 0 ∨ ∃ i ∈ l, (m.world.c i).state = .wait ∧ ¬ (m.world.c i).dueMs > now := by
    induction l generalizing best with
    | nil => simp
    | cons i l ih =>
        obtain ⟨inside, others⟩ := List.forall_mem_cons.mp inTable
        rw [List.foldl_cons, ih others, List.exists_mem_cons_iff, ← or_assoc]
        apply or_congr_left
        by_cases waits : (m.world.c i).state = .wait
        · rw [if_neg (not_not.mpr waits)]
          dsimp only
          rw [svNextDue_step, due inside waits]
          simp [waits]
        · rw [if_pos waits]
          simp [waits]
  have found : svDue m.world now maxChild ≠ [] ↔
      ∃ i ∈ slots m.world, (m.world.c i).state = .wait ∧ ¬ (m.world.c i).dueMs > now := by
    unfold svDue
    rw [Ne, List.take_eq_nil_iff, List.filter_eq_nil_iff]
    simp
  rw [found]
  exact (loop _ (fun _ member => member) (-1)).trans (by simp)

/-! ## A shutdown -/

/-- The calls of a shutdown before its last two. -/
def Call.Stops : Call → Prop
  | .reap _ _ => True
  | .send _ _ _ => True
  | .waitMs _ => True
  | .spawn _ _ _ => False
  | .doSync => False
  | .doReboot _ => False
  | .armed _ _ => False

open Trailed (Within)

theorem foldl_within {f : Sup → Fin maxChild → Sup}
    (within : ∀ m i, Within Call.Stops m (f m i)) (l : List (Fin maxChild)) (m : Sup) :
    Within Call.Stops m (l.foldl f m) := by
  induction l generalizing m with
  | nil => exact Within.refl m
  | cons i l ih => exact (within m i).trans (ih (f m i))

theorem tellOne_within (m : Sup) (i : Fin maxChild) : Within Call.Stops m (tellOne m i) := by
  unfold tellOne
  dsimp only
  split
  · exact Within.refl m
  · exact Within.record _ trivial

theorem killOne_within (m : Sup) (i : Fin maxChild) : Within Call.Stops m (killOne m i) := by
  unfold killOne
  dsimp only
  split
  · exact Within.refl m
  · exact Within.record _ trivial

theorem svReapAll_within (now : Int) (reaped : List (Int × Nat)) (m : Sup) :
    Within Call.Stops m (svReapAll now reaped m) := by
  induction reaped generalizing m with
  | nil => exact Within.refl m
  | cons exit more ih =>
      unfold svReapAll
      split
      · exact Within.refl m
      · apply Within.trans _ (ih _)
        unfold reapOne
        split <;> exact Within.record _ trivial

theorem awaitStopped_within {t0 : Int} {rounds : List Round} {done : Sup}
    (stopped : awaitStopped t0 rounds m = some done) : Within Call.Stops m done := by
  induction rounds generalizing m with
  | nil => cases stopped
  | cons r more ih =>
      have reaped := svReapAll_within r.now r.reaped m
      unfold awaitStopped at stopped
      dsimp only at stopped
      split at stopped
      · cases stopped
        exact reaped
      · split at stopped
        · cases stopped
          exact reaped
        · exact reaped.trans ((Within.record _ trivial).trans (ih stopped))

/-- A shutdown ends with one `sync` and then one reboot, and starts nothing before. -/
theorem svShutdown_trail {w : ShutdownWorld} {how : SvHow} {done : Sup}
    (ended : svShutdown w how m = some done) :
    ∃ stops, done.trail = m.trail ++ stops ++ [.doSync, .doReboot how] ∧
      ∀ call ∈ stops, call.Stops := by
  obtain ⟨stopped, killed, waited, isKilled, rfl⟩ := svShutdown_eq_some ended
  have telling := foldl_within tellOne_within (slots m.world) m
  have killing := foldl_within killOne_within (slots stopped.world) stopped
  have reaping := svReapAll_within w.last.now w.last.reaped
    ((slots stopped.world).foldl killOne stopped)
  rw [← isKilled] at reaping
  obtain ⟨stops, appended, allowed⟩ :=
    telling.trans ((awaitStopped_within waited).trans (killing.trans reaping))
  refine ⟨stops, ?_, allowed⟩
  simp [Trailed.record, appended]

/-- A child on its way out. -/
def Down (c : Child) : Prop := c.state = .off ∨ c.state = .stopping

theorem svByPid_busy {s : SvSet} {pid : Int} {i : Fin maxChild}
    (found : svByPid s pid = some i) : Busy (s.c i) := by
  unfold svByPid at found
  split at found
  · cases found
  · have has := List.find?_some found
    simp only [decide_eq_true_eq] at has
    exact has.2

theorem reapOne_down {pid now : Int} {wstatus : Nat} (down : Down (m.world.c i)) :
    Down ((reapOne pid wstatus now m).world.c i) := by
  unfold reapOne
  split
  · exact down
  next j found =>
    show Down ((m.world.put j _).c i)
    by_cases here : i = j
    · subst here
      have stops : (m.world.c i).state = .stopping := by
        rcases svByPid_busy found with runs | stops
        · rcases down with isOff | stops
          · rw [isOff] at runs
            cases runs
          · exact stops
        · exact stops
      rw [put_self]
      exact Or.inl (by simp [svOnExit, stops])
    · rw [put_other m.world here]
      exact down

theorem svReapAll_down {now : Int} {reaped : List (Int × Nat)} (down : Down (m.world.c i)) :
    Down ((svReapAll now reaped m).world.c i) := by
  induction reaped generalizing m with
  | nil => exact down
  | cons exit more ih =>
      unfold svReapAll
      split
      · exact down
      · exact ih (reapOne_down down)

theorem awaitStopped_down {t0 : Int} {rounds : List Round} {done : Sup}
    (down : Down (m.world.c i)) (stopped : awaitStopped t0 rounds m = some done) :
    Down (done.world.c i) := by
  induction rounds generalizing m with
  | nil => cases stopped
  | cons r more ih =>
      have reaped : Down ((svReapAll r.now r.reaped m).world.c i) := svReapAll_down down
      unfold awaitStopped at stopped
      dsimp only at stopped
      split at stopped
      · cases stopped
        exact reaped
      · split at stopped
        · cases stopped
          exact reaped
        · apply ih _ stopped
          exact reaped

theorem foldl_tellOne_down {l : List (Fin maxChild)}
    (listed : (m.world.c i).state = .running ∧ i ∈ l ∨ Down (m.world.c i)) :
    Down ((l.foldl tellOne m).world.c i) := by
  induction l generalizing m with
  | nil =>
      rcases listed with ⟨-, member⟩ | down
      · cases member
      · exact down
  | cons j l ih =>
      apply ih
      by_cases here : i = j
      · subst here
        right
        unfold tellOne
        dsimp only
        split
        next still =>
          rcases listed with ⟨runs, -⟩ | down
          · exact absurd runs still
          · exact down
        next =>
          show Down ((m.world.put i _).c i)
          rw [put_self]
          exact Or.inr rfl
      · have same : (tellOne m j).world.c i = m.world.c i := by
          unfold tellOne
          dsimp only
          split
          · rfl
          · exact put_other m.world here _
        rw [same]
        refine listed.imp_left fun running => ⟨running.1, ?_⟩
        exact (List.mem_cons.mp running.2).resolve_left here

theorem foldl_killOne_world (l : List (Fin maxChild)) (m : Sup) :
    (l.foldl killOne m).world = m.world := by
  induction l generalizing m with
  | nil => rfl
  | cons i l ih => rw [List.foldl_cons, ih, killOne_world]

/-- A child that ran at the shutdown is stopped by it, or still on its way out. -/
theorem svShutdown_down {w : ShutdownWorld} {how : SvHow} {done : Sup}
    (inTable : i.val < m.world.n) (runs : (m.world.c i).state = .running)
    (ended : svShutdown w how m = some done) : Down (done.world.c i) := by
  obtain ⟨stopped, killed, waited, isKilled, rfl⟩ := svShutdown_eq_some ended
  have telling : Down (((slots m.world).foldl tellOne m).world.c i) :=
    foldl_tellOne_down (Or.inl ⟨runs, mem_slots.mpr inTable⟩)
  have waiting := awaitStopped_down telling waited
  have killing : Down (((slots stopped.world).foldl killOne stopped).world.c i) := by
    rw [foldl_killOne_world]
    exact waiting
  show Down (killed.world.c i)
  rw [isKilled]
  exact svReapAll_down killing

/-- A shutdown ends once the clock is 2 s past its start. -/
theorem svShutdown_ends {w : ShutdownWorld} (how : SvHow) {r : Round}
    (member : r ∈ w.rounds) (late : termMs ≤ long (r.now - w.t0)) :
    ∃ done, svShutdown w how m = some done := by
  have waits {rounds : List Round} {m : Sup} (member : r ∈ rounds) :
      ∃ stopped, awaitStopped w.t0 rounds m = some stopped := by
    induction rounds generalizing m with
    | nil => cases member
    | cons first more ih =>
        unfold awaitStopped
        dsimp only
        split
        · exact ⟨_, rfl⟩
        · split
          · exact ⟨_, rfl⟩
          next early =>
            apply ih
            rcases List.mem_cons.mp member with rfl | later
            · exact absurd late early
            · exact later
  obtain ⟨stopped, waited⟩ := waits (m := (slots m.world).foldl tellOne m) member
  unfold svShutdown
  dsimp only
  rw [waited]
  exact ⟨_, rfl⟩

/-! ## The supervisor over any run -/

/-- What holds of the supervisor after any passes. -/
structure Supervised (m : Sup) : Prop where
  /-- A child has at most one process. -/
  one : ∀ (p q : Int) (i : Fin maxChild), (seen m).live p = some i →
    (seen m).live q = some i → p = q
  /-- Running children have distinct processes, each of which lives. -/
  distinct : ∀ i j : Fin maxChild, i.val < m.world.n → j.val < m.world.n →
    (m.world.c i).state = .running → (m.world.c j).state = .running →
    (m.world.c i).pid = (m.world.c j).pid → i = j
  lives : ∀ i : Fin maxChild, i.val < m.world.n → (m.world.c i).state = .running →
    (seen m).live (m.world.c i).pid = some i
  /-- No start was early, after the child was given up, or after it was told to stop. -/
  obeys : ∀ i, respawn.Obeys ((seen m).past i)
  /-- The count kept is that of the failures in a row. -/
  counted : ∀ i : Fin maxChild, i.val < m.world.n →
    (m.world.c i).fails = respawn.streak ((seen m).past i)
  givenUp : ∀ i : Fin maxChild, i.val < m.world.n →
    8 ≤ respawn.streak ((seen m).past i) → (m.world.c i).state = .givenup
  due : ∀ now, Reading now →
    (svNextDue m.world now = 0 ↔ svDue m.world now maxChild ≠ [])
  /-- A shutdown starts nothing, and ends in one `sync` and one reboot. -/
  shutdown : ∀ (w : ShutdownWorld) (how : SvHow) (done : Sup),
    svShutdown w how m = some done →
    (∃ stops, done.trail = m.trail ++ stops ++ [.doSync, .doReboot how] ∧
      ∀ call ∈ stops, call.Stops) ∧
    ∀ i : Fin maxChild, i.val < m.world.n → (m.world.c i).state = .running →
      Down (done.world.c i)
  /-- It ends once the clock is 2 s past its start. -/
  ends : ∀ (w : ShutdownWorld) (how : SvHow), (∃ r ∈ w.rounds, termMs ≤ long (r.now - w.t0)) →
    ∃ done, svShutdown w how m = some done

theorem Consistent.lives (good : Consistent m) (inTable : i.val < m.world.n)
    (runs : (m.world.c i).state = .running) :
    (seen m).live (m.world.c i).pid = some i := by
  obtain ⟨-, held⟩ := good.agrees i inTable
  rw [runs] at held
  obtain ⟨-, -, -, -, positive⟩ := held
  exact (good.owned _ i).mpr ⟨inTable, positive, Or.inl runs, rfl⟩

theorem Consistent.givenUp (good : Consistent m) (inTable : i.val < m.world.n)
    (many : 8 ≤ respawn.streak ((seen m).past i)) : (m.world.c i).state = .givenup := by
  obtain ⟨-, held⟩ := good.agrees i inTable
  cases state : (m.world.c i).state <;> rw [state] at held
  case wait => exact absurd held.2.1 (by omega)
  case running => exact absurd held.2.1 (by omega)
  case stopping => exact absurd held.2.1 (by omega)
  case off => exact absurd held (not_lt.mpr many)
  case absent => exact absurd held (not_lt.mpr many)

/-- A child that cannot be started, each time that it is tried. -/
def eightFailures : List Event :=
  (List.range 8).map fun k => .start (20000 * (k + 1)) fun _ => -1

end RlxFw.Supervise
