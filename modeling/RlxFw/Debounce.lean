import RlxFw.Prelude
import Mathlib.Data.List.Chain
import Mathlib.Data.List.Basic

/-!
# Debouncing

A level that is sampled over and over settles when enough samples in a row were alike.
What a run of samples reports are the levels that settled.
-/

namespace RlxFw

/-- The last level, the settled one, and how many samples in a row were at the last. -/
structure Debounce (α : Type*) where
  level : α
  settled : α
  stable : Nat
  need : Nat
  need_pos : 0 < need

namespace Debounce

/-- A sample, a new start at a level, or a new requirement. -/
inductive Touch (α : Type*) where
  | sample (l : α)
  | reseed (l : α)
  | retune (need : Nat) (need_pos : 0 < need)

variable {α : Type*} [DecidableEq α]

/-- A sample counted, or the count begun anew at an edge. -/
def count (s : Debounce α) (l : α) : Debounce α :=
  if l ≠ s.level then { s with level := l, stable := 0 }
  else if s.stable < s.need then { s with stable := s.stable + 1 }
  else s

/-- The level that a touch settles. -/
def report (s : Debounce α) : Touch α → Option α
  | .sample l => if s.need ≤ (s.count l).stable ∧ l ≠ s.settled then some l else none
  | .reseed _ => none
  | .retune _ _ => none

/-- The state after a touch. -/
def step (s : Debounce α) (t : Touch α) : Debounce α :=
  match t with
  | .sample l => { s.count l with settled := (s.report t).getD s.settled }
  | .reseed l => { s with level := l, stable := 0 }
  | .retune need need_pos => { s with need, need_pos, stable := 0 }

/-- The reports of a run. -/
def reports (s : Debounce α) : List (Touch α) → List α
  | [] => []
  | t :: rest => (s.report t).toList ++ (s.step t).reports rest

/-- A level that was sampled often enough is the settled one. -/
structure Sound (s : Debounce α) : Prop where
  stable_le : s.stable ≤ s.need
  settled : s.need ≤ s.stable → s.settled = s.level

section Steps

variable {s : Debounce α} {l : α}

theorem count_edge (edge : l ≠ s.level) : s.count l = { s with level := l, stable := 0 } :=
  if_pos edge

theorem count_more (same : l = s.level) (few : s.stable < s.need) :
    s.count l = { s with stable := s.stable + 1 } := by
  unfold count
  rw [if_neg (not_not.mpr same), if_pos few]

theorem count_full (same : l = s.level) (full : ¬ s.stable < s.need) : s.count l = s := by
  unfold count
  rw [if_neg (not_not.mpr same), if_neg full]

@[simp]
theorem count_need (s : Debounce α) (l : α) : (s.count l).need = s.need := by
  unfold count
  split
  · rfl
  · split <;> rfl

@[simp]
theorem count_level (s : Debounce α) (l : α) : (s.count l).level = l := by
  unfold count
  split
  · rfl
  · next same =>
    have isLevel : s.level = l := (not_not.mp same).symm
    split <;> exact isLevel

theorem report_sample (full : s.need ≤ (s.count l).stable) (new : l ≠ s.settled) :
    s.report (.sample l) = some l :=
  if_pos ⟨full, new⟩

theorem report_sample_none (quiet : ¬ (s.need ≤ (s.count l).stable ∧ l ≠ s.settled)) :
    s.report (.sample l) = none :=
  if_neg quiet

theorem report_eq_some {t : Touch α} (reported : s.report t = some l) :
    t = .sample l ∧ s.need ≤ (s.count l).stable ∧ l ≠ s.settled := by
  cases t with
  | sample l' =>
      unfold report at reported
      dsimp only at reported
      split at reported
      · next settles =>
        obtain rfl := Option.some_inj.mp reported
        exact ⟨rfl, settles⟩
      · cases reported
  | reseed l' => cases reported
  | retune need need_pos => cases reported

/-- A touch settles what it reports, and else leaves the settled level. -/
theorem step_settled (s : Debounce α) (t : Touch α) :
    (s.step t).settled = (s.report t).getD s.settled := by
  cases t <;> rfl

theorem Sound.after (sound : s.Sound) (t : Touch α) : (s.step t).Sound := by
  have pos := s.need_pos
  cases t with
  | sample l =>
      by_cases edge : l ≠ s.level
      · have counted := count_edge edge
        refine ⟨?_, ?_⟩
        · change (s.count l).stable ≤ (s.count l).need
          rw [counted]
          exact Nat.zero_le _
        · change (s.count l).need ≤ (s.count l).stable → _
          rw [counted]
          exact fun full => absurd pos (Nat.not_lt.mpr full)
      · have same : l = s.level := not_not.mp edge
        refine ⟨?_, ?_⟩
        · change (s.count l).stable ≤ (s.count l).need
          by_cases few : s.stable < s.need
          · rw [count_more same few]
            exact few
          · rw [count_full same few]
            exact sound.stable_le
        · change (s.count l).need ≤ (s.count l).stable →
            (s.report (.sample l)).getD s.settled = (s.count l).level
          rw [count_need, count_level]
          intro full
          by_cases new : l ≠ s.settled
          · rw [report_sample full new]
            rfl
          · rw [report_sample_none fun both => new both.2]
            exact (not_not.mp new).symm
  | reseed l => exact ⟨Nat.zero_le _, fun full => absurd pos (Nat.not_lt.mpr full)⟩
  | retune need need_pos =>
      exact ⟨Nat.zero_le _, fun full => absurd need_pos (Nat.not_lt.mpr full)⟩

omit [DecidableEq α] in
/-- A level that is not the settled one was not sampled often enough. -/
theorem Sound.few (sound : s.Sound) (new : s.level ≠ s.settled) : s.stable < s.need := by
  by_contra full
  exact new (sound.settled (Nat.not_lt.mp full)).symm

end Steps

section Runs

variable {s : Debounce α}

theorem Sound.foldl (sound : s.Sound) (run : List (Touch α)) : (run.foldl step s).Sound :=
  List.foldlRecOn run step sound fun _ sound t _ => sound.after t

/-- No level is reported twice in a row, nor the settled one first. -/
theorem isChain_reports (s : Debounce α) (run : List (Touch α)) :
    (s.settled :: s.reports run).IsChain (· ≠ ·) := by
  induction run generalizing s with
  | nil => exact List.isChain_singleton _
  | cons t rest ih =>
      have later := ih (s.step t)
      rw [step_settled] at later
      unfold reports
      cases reported : s.report t with
      | none =>
          rw [reported] at later
          exact later
      | some l =>
          rw [reported] at later
          exact List.isChain_cons_cons.mpr ⟨(report_eq_some reported).2.2.symm, later⟩

/-- What has counted so far: the samples at the end of the run, all at one level since it
was reached. -/
structure Counted (s : Debounce α) (run earlier held : List (Touch α)) : Prop where
  whole : run = earlier ++ held
  samples : ∀ t ∈ held, t = .sample (run.foldl step s).level
  reached : (earlier.foldl step s).level = (run.foldl step s).level
  enough : (run.foldl step s).stable ≤ held.length

/-- A run begins to count anew. -/
theorem counted_nil {s : Debounce α} {run : List (Touch α)}
    (none : (run.foldl step s).stable = 0) : Counted s run run [] :=
  ⟨(List.append_nil _).symm, by simp, rfl, none.le⟩

theorem exists_counted (fresh : s.stable = 0) (run : List (Touch α)) :
    ∃ earlier held, Counted s run earlier held := by
  induction run using List.reverseRecOn with
  | nil => exact ⟨[], [], counted_nil fresh⟩
  | append_singleton run t ih =>
      obtain ⟨earlier, held, whole, samples, reached, enough⟩ := ih
      have after : (run ++ [t]).foldl step s = (run.foldl step s).step t := by simp
      cases t with
      | sample l =>
          by_cases edge : l ≠ (run.foldl step s).level
          · refine ⟨run ++ [.sample l], [], counted_nil ?_⟩
            rw [after]
            change ((run.foldl step s).count l).stable = 0
            rw [count_edge edge]
          · have same : l = (run.foldl step s).level := not_not.mp edge
            have level : ((run ++ [Touch.sample l]).foldl step s).level = l := by
              rw [after]
              exact count_level _ l
            refine ⟨earlier, held ++ [.sample l], ?_, ?_, ?_, ?_⟩
            · rw [whole, List.append_assoc]
            · intro t member
              rw [level]
              rcases List.mem_append.mp member with before | last
              · rw [same]
                exact samples t before
              · exact List.mem_singleton.mp last
            · rw [level, reached, same]
            · rw [after, List.length_append, List.length_singleton]
              change ((run.foldl step s).count l).stable ≤ _
              by_cases few : (run.foldl step s).stable < (run.foldl step s).need
              · rw [count_more same few]
                exact Nat.succ_le_succ enough
              · rw [count_full same few]
                exact Nat.le_succ_of_le enough
      | reseed l =>
          refine ⟨run ++ [.reseed l], [], counted_nil ?_⟩
          rw [after]
          rfl
      | retune need need_pos =>
          refine ⟨run ++ [.retune need need_pos], [], counted_nil ?_⟩
          rw [after]
          rfl

/-- A report ends a run of samples at its level, as many as are needed, since the level
was reached. -/
theorem held_of_report (fresh : s.stable = 0) {run : List (Touch α)} {t : Touch α} {l : α}
    (reported : (run.foldl step s).report t = some l) :
    ∃ earlier held, run ++ [t] = earlier ++ held ∧ (∀ t ∈ held, t = .sample l) ∧
      (earlier.foldl step s).level = l ∧ (run.foldl step s).need ≤ held.length := by
  obtain ⟨rfl, full, -⟩ := report_eq_some reported
  obtain ⟨earlier, held, whole, samples, reached, enough⟩ :=
    exists_counted fresh (run ++ [.sample l])
  have after : (run ++ [Touch.sample l]).foldl step s = (run.foldl step s).step (.sample l) := by
    simp
  have level : ((run ++ [Touch.sample l]).foldl step s).level = l := by
    rw [after]
    exact count_level _ l
  rw [level] at samples reached
  refine ⟨earlier, held, whole, samples, reached, full.trans ?_⟩
  rw [after] at enough
  exact enough

/-- A settled level that is held is not reported again. -/
theorem reports_settled (sound : s.Sound) (level : s.level = s.settled) (n : Nat) :
    s.reports (List.replicate n (.sample s.settled)) = [] := by
  induction n generalizing s with
  | zero => rfl
  | succ n ih =>
      have quiet : s.report (.sample s.settled) = none :=
        report_sample_none fun both => both.2 rfl
      have kept : (s.step (.sample s.settled)).settled = s.settled := by
        rw [step_settled, quiet]
        rfl
      have still : (s.step (.sample s.settled)).level = s.settled := count_level _ _
      have later := ih (sound.after (.sample s.settled)) (still.trans kept.symm)
      rw [kept] at later
      rw [List.replicate_succ, reports, quiet, later]
      rfl

/-- A level reached that is held for the samples it still needs is reported once. -/
theorem reports_pending (sound : s.Sound) (new : s.level ≠ s.settled) {n : Nat}
    (long : s.need ≤ s.stable + n) :
    s.reports (List.replicate n (.sample s.level)) = [s.level] := by
  have few := sound.few new
  induction n generalizing s with
  | zero => exact absurd few (Nat.not_lt.mpr long)
  | succ n ih =>
      have counted := count_more (s := s) rfl few
      have level : (s.step (.sample s.level)).level = s.level := count_level _ _
      have stable : (s.step (.sample s.level)).stable = s.stable + 1 := by
        change (s.count s.level).stable = _
        rw [counted]
      have need : (s.step (.sample s.level)).need = s.need := count_need _ _
      have sound' := sound.after (.sample s.level)
      rw [List.replicate_succ, reports]
      by_cases last : s.need ≤ s.stable + 1
      · have full : s.need ≤ (s.count s.level).stable := by
          rw [counted]
          exact last
        have reported := report_sample full new
        have settled : (s.step (.sample s.level)).settled = s.level := by
          rw [step_settled, reported]
          rfl
        have later := reports_settled sound' (level.trans settled.symm) n
        rw [settled] at later
        rw [reported, later]
        rfl
      · have quiet : s.report (.sample s.level) = none := by
          apply report_sample_none
          rw [counted]
          exact fun both => last both.1
        have settled : (s.step (.sample s.level)).settled = s.settled := by
          rw [step_settled, quiet]
          rfl
        have later := ih sound' (by rw [level, settled]; exact new)
          (by rw [need, stable]; omega) (by rw [need, stable]; omega)
        rw [level] at later
        rw [quiet, later]
        rfl

/-- A level that is not the settled one is reported once when it is held for one sample
more than it needs. -/
theorem reports_held (sound : s.Sound) {l : α} (new : l ≠ s.settled) {n : Nat}
    (long : s.need + 1 ≤ n) : s.reports (List.replicate n (.sample l)) = [l] := by
  by_cases edge : l ≠ s.level
  · obtain ⟨n, rfl⟩ : ∃ m, n = m + 1 := ⟨n - 1, by omega⟩
    have counted := count_edge edge
    have quiet : s.report (.sample l) = none := by
      apply report_sample_none
      rw [counted]
      exact fun both => absurd s.need_pos (Nat.not_lt.mpr both.1)
    have level : (s.step (.sample l)).level = l := count_level _ _
    have settled : (s.step (.sample l)).settled = s.settled := by
      rw [step_settled, quiet]
      rfl
    have need : (s.step (.sample l)).need = s.need := count_need _ _
    have later := reports_pending (sound.after (.sample l))
      (by rw [level, settled]; exact new) (n := n) (by rw [need]; omega)
    rw [level] at later
    rw [List.replicate_succ, reports, quiet, later]
    rfl
  · obtain rfl := not_not.mp edge
    exact reports_pending sound new (by omega)

end Runs

end Debounce

end RlxFw
