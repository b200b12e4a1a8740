import RlxFw.Writers

/-!
# The last writer wins

Whatever the order of the steps of two writers, the record that is left is the
one of the writer that stored last: its own values over the base it loaded.
-/

namespace RlxFw.CfgStore

/-- A writer that reported success. -/
def Phase.isDone : Phase → Bool
  | .done _ => true
  | _ => false

/-- A writer that has not loaded yet. -/
def Phase.isIdle : Phase → Bool
  | .idle => true
  | _ => false

/-- A writer whose base has these values, or that was refused. -/
def Phase.Follows (job : Job) (value : Fin nkeys → Option (List UInt8)) :
    Phase → Prop
  | .idle => False
  | .loaded base _ => base.value = value
  | .edited work _ =>
      ∀ i, work.value i = (finalValue job.items i).or (value i)
  | .done kept => ∀ i, kept.value i = (finalValue job.items i).or (value i)
  | .refused _ => True

section Step

variable {job : Job} {faults : Faults} {m : Medium} {phase : Phase}

theorem storeStep_eq_done {stored : Stored} {kept : Cfg}
    (finished : storeStep stored = .done kept) :
    stored.rc = none ∧ kept = stored.cfg := by
  unfold storeStep at finished
  split at finished
  · cases finished
  · rename_i fine
    cases finished
    exact ⟨fine, rfl⟩

/-- A writer goes on from the base it loaded. -/
theorem Phase.Follows.advance {value : Fin nkeys → Option (List UInt8)}
    (follows : phase.Follows job value) :
    (phase.advance job faults m).1.Follows job value := by
  cases phase with
  | idle => exact follows.elim
  | loaded base fresh =>
      change (editStep job base fresh).Follows job value
      unfold editStep
      cases edit : job.edit base with
      | error why => exact trivial
      | ok work =>
          have same : base.value = value := follows
          intro i
          rw [edits_of_edit edit i, same]
  | edited work fresh =>
      change (storeStep (storeRec faults m work fresh)).Follows job value
      cases after : storeStep (storeRec faults m work fresh) with
      | done kept =>
          obtain ⟨fine, rfl⟩ := storeStep_eq_done after
          obtain ⟨plan, -, -, left⟩ := exists_plan_of_storeRec fine
          intro i
          rw [left]
          exact follows i
      | refused why => exact trivial
      | idle | loaded | edited =>
          unfold storeStep at after
          split at after <;> cases after
  | done kept => exact follows
  | refused why => exact trivial

/-- A writer that becomes done has just stored its record. -/
theorem advance_eq_done {kept : Cfg}
    (finished : (phase.advance job faults m).1 = .done kept)
    (before : phase.isDone = false) :
    ∃ work fresh, phase = .edited work fresh ∧
      (storeRec faults m work fresh).rc = none ∧
      (phase.advance job faults m).2 = (storeRec faults m work fresh).medium ∧
      kept = (storeRec faults m work fresh).cfg := by
  cases phase with
  | idle =>
      change loadStep _ _ = _ at finished
      unfold loadStep at finished
      split at finished <;> cases finished
  | loaded base fresh =>
      change editStep _ _ _ = _ at finished
      unfold editStep at finished
      split at finished <;> cases finished
  | edited work fresh =>
      obtain ⟨fine, left⟩ := storeStep_eq_done finished
      exact ⟨work, fresh, rfl, fine, rfl, left⟩
  | done kept' => cases before
  | refused why => cases finished

/-- No step leads back to where a writer has not loaded. -/
theorem advance_isIdle : (phase.advance job faults m).1.isIdle = false := by
  cases phase with
  | idle =>
      change (loadStep _ _).isIdle = false
      unfold loadStep
      split <;> rfl
  | loaded base fresh =>
      change (editStep _ _ _).isIdle = false
      unfold editStep
      split <;> rfl
  | edited work fresh =>
      change (storeStep _).isIdle = false
      unfold storeStep
      split <;> rfl
  | done kept => rfl
  | refused why => rfl

/-- A writer that is done stays so, and leaves the medium alone. -/
theorem advance_of_isDone (finished : phase.isDone = true) :
    phase.advance job faults m = (phase, m) := by
  cases phase with
  | done kept => rfl
  | idle | loaded | edited | refused => cases finished

end Step

/-! ## A chip -/

/-- The medium is the chip. -/
def OnChip (m : Medium) : Prop := ∃ chip, m = .flash chip

theorem onChip_storeRec {m : Medium} (onChip : OnChip m) (faults : Faults)
    (c : Cfg) (fresh : Bool) : OnChip (storeRec faults m c fresh).medium := by
  obtain ⟨chip, rfl⟩ := onChip
  unfold storeRec
  split
  · exact ⟨chip, rfl⟩
  split
  · exact ⟨chip, rfl⟩
  split
  · exact ⟨chip, rfl⟩
  · unfold commitPlan
    split <;> exact ⟨_, rfl⟩

/-- A chip is not extended, so nothing on it comes back. -/
theorem not_revives_of_onChip {m : Medium} (onChip : OnChip m) : ¬ Revives m := by
  obtain ⟨chip, rfl⟩ := onChip
  rintro ⟨nothing, old, record, -⟩
  have absent := (newestOf_eq_none_iff _).mp nothing 1
  exact absurd (absent.symm.trans record) nofun

/-- A load of a chip that fails no read is the load that meets no fault. -/
theorem loadInfo_of_reads {m : Medium} (onChip : OnChip m) {faults : Faults}
    (reads : faults.read = fun _ => false) :
    loadInfo faults m = loadInfo noFaults m := by
  obtain ⟨chip, rfl⟩ := onChip
  unfold loadInfo
  rw [reads]
  rfl

/-- A load that ends well is the base of every program. -/
theorem base_eq_out {program : Program} {faults : Faults} {m : Medium}
    {base : Cfg} {fresh : Bool} (fine : (loadInfo faults m).rc = none)
    (loaded : program.base (loadInfo faults m) = .ok (base, fresh)) :
    base = (loadInfo faults m).out := by
  have selects := loadInfo_selects fine
  have unselected (nothing : (loadInfo faults m).info.selected = none) :
      (loadInfo faults m).out = cfgDefaults := by
    have absent : newestOf m.slot = none :=
      Option.map_eq_none_iff.mp (selects.selected.symm.trans nothing)
    rw [selects.out, absent]
    rfl
  cases program with
  | brokerSet root =>
      cases loaded
      unfold bkCfgReload
      rw [fine]
      by_cases invalid : (loadInfo faults m).invalid = true
      · have nothing : (loadInfo faults m).info.selected = none := by
          unfold Loaded.invalid at invalid
          simp only [Bool.and_eq_true, Option.isNone_iff_eq_none] at invalid
          exact invalid.1
        rw [unselected nothing]
        exact if_pos (Or.inr invalid)
      · exact if_neg (by simpa using invalid)
  | cfgstoreSet =>
      unfold Program.base loadOrDie at loaded
      simp only [fine] at loaded
      by_cases invalid : (loadInfo faults m).invalid = true
      · rw [if_neg (by simp), if_pos invalid] at loaded
        cases loaded
      · rw [if_neg (by simp), if_neg invalid] at loaded
        cases loaded
        rfl
  | firstpw =>
      unfold Program.base fpBase at loaded
      simp only [fine] at loaded
      cases selected : (loadInfo faults m).info.selected with
      | none =>
          simp only [selected] at loaded
          cases loaded
          exact (unselected selected).symm
      | some s =>
          simp only [selected] at loaded
          rw [if_neg (by simp), if_pos Option.isSome_some] at loaded
          split_ifs at loaded
          cases loaded
          rfl

/-! ## The steps of two writers -/

section Turns

variable {jobs : Bool → Job} {world : World} {t : Turn}

theorem turn_phase_self :
    (world.turn jobs t).phase t.who =
      ((world.phase t.who).advance (jobs t.who) t.faults world.medium).1 :=
  Function.update_self _ _ _

theorem turn_phase_other {w : Bool} (other : w ≠ t.who) :
    (world.turn jobs t).phase w = world.phase w :=
  Function.update_of_ne other _ _

theorem turn_onChip (onChip : OnChip world.medium) :
    OnChip (world.turn jobs t).medium := by
  change OnChip ((world.phase t.who).advance _ _ _).2
  cases world.phase t.who with
  | edited work fresh => exact onChip_storeRec onChip _ _ _
  | idle | loaded | done | refused => exact onChip

/-- A turn of a writer that is done changes nothing. -/
theorem turn_of_isDone (finished : (world.phase t.who).isDone = true) :
    world.turn jobs t = world := by
  unfold World.turn
  rw [advance_of_isDone finished]
  simp

/-- What every turn of a schedule keeps, the schedule keeps. -/
theorem run_keeps (Holds : World → Prop) {turns : List Turn}
    (step : ∀ world, ∀ t ∈ turns, Holds world → Holds (world.turn jobs t))
    (start : Holds world) : Holds (world.run jobs turns) := by
  induction turns generalizing world with
  | nil => exact start
  | cons t rest ih =>
      exact ih (fun world t member => step world t (List.mem_cons_of_mem _ member))
        (step world t List.mem_cons_self start)

/-- A writer that reported success is loaded back. -/
def Settled (w : Bool) (world : World) : Prop :=
  ∀ kept, world.phase w = .done kept → Returns world.medium kept

/-- A writer's own turn settles it. -/
theorem settled_turn_self (onChip : OnChip world.medium)
    (settled : Settled t.who world) : Settled t.who (world.turn jobs t) := by
  cases finished : (world.phase t.who).isDone with
  | true =>
      rw [turn_of_isDone finished]
      exact settled
  | false =>
      intro kept after
      rw [turn_phase_self] at after
      obtain ⟨work, fresh, -, fine, medium, left⟩ := advance_eq_done after finished
      change Returns ((world.phase t.who).advance _ _ _).2 kept
      rw [medium, left]
      exact returns_stored_of_not_revives fine (not_revives_of_onChip onChip)

theorem run_onChip (onChip : OnChip world.medium) (turns : List Turn) :
    OnChip (world.run jobs turns).medium :=
  run_keeps (fun world => OnChip world.medium)
    (fun _ _ _ => turn_onChip) onChip

/-- Once the other writer is done, a writer that stores is loaded back. -/
theorem settled_run_of_other_done (w : Bool) (onChip : OnChip world.medium)
    (other : (world.phase (!w)).isDone = true)
    (early : (world.phase w).isDone = false) (turns : List Turn) :
    Settled w (world.run jobs turns) := by
  refine (run_keeps (fun world => OnChip world.medium ∧
    (world.phase (!w)).isDone = true ∧ Settled w world) ?_
    ⟨onChip, other, ?_⟩).2.2
  · rintro world t - ⟨onChip, other, settled⟩
    by_cases mine : t.who = w
    · subst mine
      refine ⟨turn_onChip onChip, ?_, settled_turn_self onChip settled⟩
      rw [turn_phase_other (by simp)]
      exact other
    · have others : t.who = !w := Bool.eq_not_of_ne mine
      rw [← others] at other
      rw [turn_of_isDone other, ← others]
      exact ⟨onChip, other, settled⟩
  · intro kept finished
    rw [finished] at early
    cases early

/-- Until a writer has loaded, the other one's record is loaded back. -/
theorem settled_run_of_idle (w : Bool) (onChip : OnChip world.medium)
    (settled : Settled (!w) world) (turns : List Turn)
    (idle : ((world.run jobs turns).phase w).isIdle = true) :
    Settled (!w) (world.run jobs turns) := by
  refine (run_keeps (fun world => OnChip world.medium ∧
    ((world.phase w).isIdle = true → Settled (!w) world)) ?_
    ⟨onChip, fun _ => settled⟩).2 idle
  rintro world t - ⟨onChip, settled⟩
  refine ⟨turn_onChip onChip, fun idle => ?_⟩
  by_cases mine : t.who = w
  · rw [← mine, turn_phase_self, advance_isIdle] at idle
    cases idle
  · have others : t.who = !w := Bool.eq_not_of_ne mine
    rw [turn_phase_other (Ne.symm mine)] at idle
    rw [← others] at settled ⊢
    exact settled_turn_self onChip (settled idle)

/-- A writer that loaded goes on from its base, whatever the other does. -/
theorem follows_run {w : Bool} {value : Fin nkeys → Option (List UInt8)}
    (follows : (world.phase w).Follows (jobs w) value) (turns : List Turn) :
    ((world.run jobs turns).phase w).Follows (jobs w) value := by
  refine run_keeps (fun world => (world.phase w).Follows (jobs w) value) ?_
    follows
  intro world t _ follows
  by_cases mine : t.who = w
  · subst mine
    rw [turn_phase_self]
    exact follows.advance
  · rw [turn_phase_other (Ne.symm mine)]
    exact follows

/-- A writer that has loaded has a base. -/
theorem exists_follows_advance {job : Job} {faults : Faults} {m : Medium}
    {phase : Phase} (known : phase.isIdle = true ∨
      ∃ value, phase.Follows job value) :
    ∃ value, (phase.advance job faults m).1.Follows job value := by
  rcases known with idle | ⟨value, follows⟩
  · cases phase with
    | idle =>
        change ∃ value, (loadStep _ _).Follows job value
        unfold loadStep
        split
        · exact ⟨fun _ => none, trivial⟩
        · rename_i base fresh _
          exact ⟨base.value, rfl⟩
    | loaded | edited | done | refused => cases idle
  · exact ⟨value, follows.advance⟩

theorem exists_follows_run {w : Bool} (idle : (world.phase w).isIdle = true)
    (turns : List Turn) :
    ((world.run jobs turns).phase w).isIdle = true ∨
      ∃ value, ((world.run jobs turns).phase w).Follows (jobs w) value := by
  refine run_keeps (fun world => (world.phase w).isIdle = true ∨
    ∃ value, (world.phase w).Follows (jobs w) value) ?_ (Or.inl idle)
  intro world t _ known
  by_cases mine : t.who = w
  · subst mine
    rw [turn_phase_self]
    exact Or.inr (exists_follows_advance known)
  · rw [turn_phase_other (Ne.symm mine)]
    exact known

end Turns

/-! ## The last writer -/

section Schedule

variable (jobs : Bool → Job) (chip : ByteMap)

/-- The world after the first turns of a schedule. -/
abbrev after (turns : List Turn) : World := (World.start chip).run jobs turns

/-- The other writer had stored when this one had not yet. -/
def StoredLast (schedule : List Turn) (w : Bool) : Prop :=
  ∃ first rest, schedule = first ++ rest ∧
    ((after jobs chip first).phase (!w)).isDone = true ∧
    ((after jobs chip first).phase w).isDone = false

/-- The other writer had stored when this one loaded, and none of this one's
reads failed. -/
def LoadedAfter (schedule : List Turn) (w : Bool) : Prop :=
  ∃ first rest, schedule = first ++ rest ∧
    ((after jobs chip first).phase (!w)).isDone = true ∧
    ((after jobs chip first).phase w).isIdle = true ∧
    ∀ t ∈ rest, t.who = w → t.faults.read = fun _ => false

variable {jobs chip}

theorem run_append (world : World) (first rest : List Turn) :
    world.run jobs (first ++ rest) = (world.run jobs first).run jobs rest :=
  List.foldl_append

/-- Of two writers that are done, one was done last. -/
theorem exists_storedLast {schedule : List Turn}
    (both : ∀ w, ((after jobs chip schedule).phase w).isDone = true) :
    ∃ w, StoredLast jobs chip schedule w := by
  induction schedule using List.reverseRecOn with
  | nil => cases both true
  | append_singleton first t ih =>
      by_cases already : ∀ w, ((after jobs chip first).phase w).isDone = true
      · obtain ⟨w, first', rest, split, stored⟩ := ih already
        exact ⟨w, first', rest ++ [t], by rw [split, List.append_assoc], stored⟩
      · obtain ⟨w, early⟩ := not_forall.mp already
        have last : (after jobs chip (first ++ [t])) =
            (after jobs chip first).turn jobs t := run_append _ _ _
        -- The turn that completed the pair was this writer's own.
        have mine : t.who = w := by
          by_contra other
          have done := both w
          rw [last, turn_phase_other (Ne.symm other)] at done
          exact early done
        have other := both (!w)
        rw [last, turn_phase_other (by rw [mine]; simp)] at other
        exact ⟨w, first, [t], rfl, other, by simpa using early⟩

/-- A writer that loads once the other is settled starts from its record. -/
theorem follows_run_of_loadedAfter {world : World} {w : Bool} {kept : Cfg}
    (onChip : OnChip world.medium) (other : world.phase (!w) = .done kept)
    (idle : (world.phase w).isIdle = true) (settled : Settled (!w) world)
    {turns : List Turn}
    (reads : ∀ t ∈ turns, t.who = w → t.faults.read = fun _ => false) :
    ((world.run jobs turns).phase w).isIdle = true ∨
      ((world.run jobs turns).phase w).Follows (jobs w) kept.value := by
  refine (run_keeps (fun world => OnChip world.medium ∧
    world.phase (!w) = .done kept ∧
    (((world.phase w).isIdle = true ∧ Settled (!w) world) ∨
      (world.phase w).Follows (jobs w) kept.value)) ?_
    ⟨onChip, other, Or.inl ⟨idle, settled⟩⟩).2.2.imp_left And.left
  rintro world t member ⟨onChip, other, known⟩
  by_cases mine : t.who = w
  · refine ⟨turn_onChip onChip, ?_, Or.inr ?_⟩
    · rw [turn_phase_other (by rw [mine]; simp)]
      exact other
    · subst mine
      rw [turn_phase_self]
      rcases known with ⟨idle, settled⟩ | follows
      · obtain ⟨fine, out⟩ := settled kept other
        cases phase : world.phase t.who with
        | idle =>
            change (loadStep _ _).Follows _ _
            rw [loadInfo_of_reads onChip (reads t member rfl)]
            unfold loadStep
            split
            · exact trivial
            · rename_i base fresh loaded
              have same := base_eq_out fine loaded
              exact congrArg Cfg.value (same.trans out)
        | loaded | edited | done | refused =>
            rw [phase] at idle
            cases idle
      · exact follows.advance
  · have others : t.who = !w := Bool.eq_not_of_ne mine
    have done : (world.phase t.who).isDone = true := by
      rw [others, other]
      rfl
    rw [turn_of_isDone done]
    exact ⟨onChip, other, known⟩

end Schedule

theorem exists_kept {phase : Phase} (finished : phase.isDone = true) :
    ∃ kept, phase = .done kept := by
  cases phase with
  | done kept => exact ⟨kept, rfl⟩
  | idle | loaded | edited | refused => cases finished

/-- The record that a schedule of two writers leaves, where both reported
success: that of the writer that stored last, with its own values over its base,
and so with the other's when it loaded after the other had stored. -/
theorem last_store_wins (jobs : Bool → Job) (chip : ByteMap)
    (schedule : List Turn)
    (both : ∀ w, ((after jobs chip schedule).phase w).isDone = true) :
    ∃ w kept, StoredLast jobs chip schedule w ∧
      Returns (after jobs chip schedule).medium kept ∧
      (∀ i v, finalValue (jobs w).items i = some v → kept.value i = some v) ∧
      (∀ first rest base fresh, schedule = first ++ rest →
        (after jobs chip first).phase w = .loaded base fresh →
        ∀ i, finalValue (jobs w).items i = none →
          kept.value i = base.value i) ∧
      (LoadedAfter jobs chip schedule w →
        ∀ i v, finalValue (jobs w).items i = none →
          finalValue (jobs (!w)).items i = some v →
          kept.value i = some v) := by
  obtain ⟨w, storedLast⟩ := exists_storedLast both
  obtain ⟨kept, done⟩ := exists_kept (both w)
  have start : OnChip (World.start chip).medium := ⟨chip, rfl⟩
  have follows {first rest : List Turn} {value : Fin nkeys → Option (List UInt8)}
      (split : schedule = first ++ rest)
      (known : ((after jobs chip first).phase w).Follows (jobs w) value) :
      ∀ i, kept.value i = (finalValue (jobs w).items i).or (value i) := by
    have final := follows_run known rest
    rw [← run_append, ← split, done] at final
    exact final
  refine ⟨w, kept, storedLast, ?_, ?_, ?_, ?_⟩
  · obtain ⟨first, rest, split, other, early⟩ := storedLast
    have settled : Settled w ((after jobs chip first).run jobs rest) :=
      settled_run_of_other_done w (run_onChip start first) other early rest
    rw [← run_append, ← split] at settled
    exact settled kept done
  · intro i v mine
    have loaded : ((after jobs chip schedule).phase w).isIdle = true ∨
        ∃ value, ((after jobs chip schedule).phase w).Follows (jobs w) value :=
      exists_follows_run rfl schedule
    rcases loaded with idle | ⟨value, known⟩
    · rw [done] at idle
      cases idle
    · rw [follows (List.append_nil schedule).symm known i, mine]
      rfl
  · intro first rest base fresh split loaded i untouched
    have known : ((after jobs chip first).phase w).Follows (jobs w) base.value := by
      rw [loaded]
      rfl
    rw [follows split known i, untouched]
    rfl
  · rintro ⟨first, rest, split, other, idle, reads⟩ i v untouched theirs
    obtain ⟨kept', done'⟩ := exists_kept other
    have settled : Settled (!w) (after jobs chip first) :=
      settled_run_of_idle w start (fun _ finished => nomatch finished) first idle
    have known :
        (((after jobs chip first).run jobs rest).phase w).isIdle = true ∨
          (((after jobs chip first).run jobs rest).phase w).Follows (jobs w)
            kept'.value :=
      follows_run_of_loadedAfter (run_onChip start first) done' idle settled reads
    rw [← run_append, ← split, done] at known
    have mine : ∀ i, kept.value i =
        (finalValue (jobs w).items i).or (kept'.value i) :=
      known.resolve_left nofun
    have loaded : ((after jobs chip first).phase (!w)).isIdle = true ∨
        ∃ value, ((after jobs chip first).phase (!w)).Follows (jobs (!w)) value :=
      exists_follows_run rfl first
    rw [done'] at loaded
    obtain ⟨value, theirValues⟩ := loaded.resolve_left nofun
    rw [mine i, untouched, theirValues i, theirs]
    rfl

/-! ## An update that is lost -/

/-- A writer that has not tried to store. -/
def Phase.isEarly : Phase → Bool
  | .idle | .loaded _ _ | .edited _ _ => true
  | .done _ | .refused _ => false

theorem isEarly_of_advance {job : Job} {faults : Faults} {m : Medium}
    {phase : Phase} (early : (phase.advance job faults m).1.isEarly = true) :
    phase.isEarly = true ∧ (phase.advance job faults m).2 = m := by
  cases phase with
  | idle => exact ⟨rfl, rfl⟩
  | loaded base fresh => exact ⟨rfl, rfl⟩
  | edited work fresh =>
      change (storeStep _).isEarly = true at early
      unfold storeStep at early
      split at early <;> cases early
  | done kept => cases early
  | refused why => cases early

/-- Until a writer has tried to store, the medium is what it was. -/
theorem run_medium_of_early {jobs : Bool → Job} {world : World}
    {turns : List Turn}
    (early : ∀ w, ((world.run jobs turns).phase w).isEarly = true) :
    (world.run jobs turns).medium = world.medium := by
  refine run_keeps (fun world' => (∀ w, (world'.phase w).isEarly = true) →
    world'.medium = world.medium) ?_ (fun _ => rfl) early
  intro world' t _ kept early
  have mine := early t.who
  rw [turn_phase_self] at mine
  obtain ⟨before, same⟩ := isEarly_of_advance mine
  refine Eq.trans same (kept fun w => ?_)
  by_cases own : w = t.who
  · rw [own]
    exact before
  · have others := early w
    rwa [turn_phase_other own] at others

/-- A writer that edited a configuration which a store takes under this number. -/
def Phase.readyFor (seq : Nat) : Phase → Bool
  | .edited work fresh =>
      !fresh && (cfgValidate work).toBool && (slotImage work seq).toBool
  | _ => false

theorem exists_of_toBool {ε α : Type} {outcome : Except ε α}
    (fine : outcome.toBool = true) : ∃ a, outcome = .ok a := by
  cases outcome with
  | error fault => cases fine
  | ok a => exact ⟨a, rfl⟩

theorem exists_stored_of_readyFor {m : Medium} {phase : Phase} (seq : Nat)
    (storable : m.Storable) (there : ∀ s, (m.slot s).isSome)
    (number : newestSeq (newestOf m.slot) + 1 = seq) (small : seq ≤ seqMax)
    (ready : phase.readyFor seq = true) :
    ∃ work, phase = .edited work false ∧
      (storeRec noFaults m work false).rc = none := by
  cases phase with
  | edited work fresh =>
      simp only [Phase.readyFor, Bool.and_eq_true, Bool.not_eq_true'] at ready
      obtain ⟨⟨rfl, valid⟩, image⟩ := ready
      obtain ⟨⟨⟩, valid⟩ := exists_of_toBool valid
      obtain ⟨img, image⟩ := exists_of_toBool image
      exact ⟨work, rfl, storeRec_noFaults storable valid
        (storePlan_eq_ok (loadInfo_noFaults there) nofun (by omega)
          (by rw [number]; exact image))⟩
  | idle | loaded | done | refused => cases ready

/-- The broker turns NAT on for root; `cfgstore` stops answering pings. -/
def twoJobs : Bool → Job
  | false =>
      { program := .brokerSet true
        items := [{ type := idFwNat, val := [1] }] }
  | true =>
      { program := .cfgstoreSet
        items := [{ type := idFwLanIcmp, val := [0] }] }

/-- A turn that meets no fault. -/
def turnOf (who : Bool) : Turn := { who := who, faults := noFaults }

/-- Both load and both edit. -/
def crossedEdits : List Turn := [false, true, false, true].map turnOf

/-- And both store. -/
def crossed : List Turn := crossedEdits ++ [turnOf false, turnOf true]

/-- A chip whose first slot holds a record that turns NAT off. -/
def setChip : ByteMap := ByteMap.blit (fun _ => 0) (cfBase 0) slotSize
  (ByteMap.ofList cutRecord fill)

/-- The value of the key at an index, as a load that met no fault returns it. -/
def loadedValue (m : Medium) (i : Fin nkeys) : Option (List UInt8) :=
  (loadInfo noFaults m).out.value i

/-- The value of a key in an edited configuration. -/
def Phase.editedValue (i : Fin nkeys) : Phase → Option (List UInt8)
  | .edited work _ => work.value i
  | _ => none

/-- The edits of the two, over one base. -/
abbrev editsWorld : World := after twoJobs setChip crossedEdits

theorem editsWorld_ready :
    (editsWorld.phase false).readyFor 3 = true ∧
      (editsWorld.phase true).readyFor 4 = true ∧
      (editsWorld.phase true).editedValue 12 = some [0] := by
  decide +kernel

theorem setChip_number :
    newestSeq (newestOf (Medium.flash setChip).slot) + 1 = 3 := by
  decide +kernel

/-- The turn of a writer whose store returns 0. -/
theorem turn_of_stored {jobs : Bool → Job} {world : World} {w : Bool}
    {work : Cfg} (phase : world.phase w = .edited work false)
    (stored : (storeRec noFaults world.medium work false).rc = none) :
    world.turn jobs (turnOf w) =
      { medium := (storeRec noFaults world.medium work false).medium
        phase := Function.update world.phase w
          (.done (storeRec noFaults world.medium work false).cfg) } := by
  have step : storeStep (storeRec noFaults world.medium work false) =
      .done (storeRec noFaults world.medium work false).cfg := by
    unfold storeStep
    rw [stored]
  unfold World.turn turnOf
  simp only [phase, Phase.advance, step]

/-- Both stores succeed, and the second record has the base's value where the
first one had the broker's. -/
theorem crossed_lost :
    (∀ w, ((after twoJobs setChip crossed).phase w).isDone = true) ∧
      loadedValue (after twoJobs setChip crossed).medium 12 = some [0] := by
  obtain ⟨readyF, readyT, base⟩ := editsWorld_ready
  have medium : editsWorld.medium = .flash setChip := by
    refine run_medium_of_early fun w => ?_
    have ready : ∃ seq, (editsWorld.phase w).readyFor seq = true := by
      cases w with
      | false => exact ⟨3, readyF⟩
      | true => exact ⟨4, readyT⟩
    obtain ⟨seq, ready⟩ := ready
    change (editsWorld.phase w).isEarly = true
    cases phase : editsWorld.phase w with
    | idle | loaded | edited => rfl
    | done | refused =>
        rw [phase] at ready
        cases ready
  have onChip : OnChip editsWorld.medium := ⟨setChip, medium⟩
  have storable : editsWorld.medium.Storable := by
    rw [medium]
    exact nofun
  obtain ⟨workF, phaseF, storedF⟩ := exists_stored_of_readyFor 3 storable
    (by rw [medium]; exact fun _ => rfl) (by rw [medium]; exact setChip_number)
    (by decide) readyF
  obtain ⟨target, newer, -⟩ := newestOf_stored_of_not_revives storedF
    (not_revives_of_onChip onChip)
  have onChip' := onChip_storeRec onChip noFaults workF false
  have storable' :
      (storeRec noFaults editsWorld.medium workF false).medium.Storable := by
    obtain ⟨chip, same⟩ := onChip'
    rw [same]
    exact nofun
  obtain ⟨workT, phaseT, storedT⟩ := exists_stored_of_readyFor 4 storable'
    (storeRec_there storedF)
    (by
      rw [newer, medium]
      exact congrArg Nat.succ setChip_number) (by decide) readyT
  obtain ⟨fine, out⟩ := returns_stored_of_not_revives storedT
    (not_revives_of_onChip onChip')
  obtain ⟨target', -, left⟩ := newestOf_stored_of_not_revives storedT
    (not_revives_of_onChip onChip')
  have ending : after twoJobs setChip crossed =
      (editsWorld.turn twoJobs (turnOf false)).turn twoJobs (turnOf true) :=
    run_append _ _ _
  have phaseT' : (editsWorld.turn twoJobs (turnOf false)).phase true =
      .edited workT false :=
    (turn_phase_other (by decide)).trans phaseT
  rw [turn_of_stored phaseF storedF] at ending phaseT'
  rw [turn_of_stored phaseT' storedT] at ending
  rw [ending]
  refine ⟨fun w => ?_, ?_⟩
  · cases w <;> rfl
  · change (loadInfo noFaults (storeRec noFaults _ workT false).medium).out.value
      12 = some [0]
    rw [out, left]
    rw [phaseT] at base
    exact base

/-- Two writers of different keys both report success, and the first one's value
is not in the record that is left. -/
theorem crossed_loses_update :
    ¬ ∀ (jobs : Bool → Job) (chip : ByteMap) (schedule : List Turn),
      (∀ i, finalValue (jobs false).items i = none ∨
        finalValue (jobs true).items i = none) →
      (∀ w, ((after jobs chip schedule).phase w).isDone = true) →
      ∀ w i v, finalValue (jobs w).items i = some v →
        loadedValue (after jobs chip schedule).medium i = some v := by
  intro always
  obtain ⟨both, lost⟩ := crossed_lost
  have kept := always twoJobs setChip crossed (by decide) both false 12
    [1] (by decide)
  rw [lost] at kept
  cases kept

/-- Of the crossed pair one stored last, and its record is what is loaded. -/
theorem last_store_wins_crossed :
    ∃ w kept, StoredLast twoJobs setChip crossed w ∧
      Returns (after twoJobs setChip crossed).medium kept := by
  obtain ⟨w, kept, last, returns, -⟩ :=
    last_store_wins twoJobs setChip crossed crossed_lost.1
  exact ⟨w, kept, last, returns⟩

end RlxFw.CfgStore
