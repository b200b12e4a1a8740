import RlxFw.ShownCfg
import RlxFw.StoreLoad

/-!
# Stores that differ in the stored hash

Two stores that differ in the bytes of the stored hash alone load alike, and
an edit of both is stored in both or in neither.
-/

namespace RlxFw.CfgStore

/-! ## Loading -/

/-- Two slots that hold alike records, or none for the same reason. -/
structure SlotsAlike (slot slot' : SlotBytes) : Prop where
  got : slot.got = slot'.got
  record : OutcomesAlike DifferInHash (parseRecord slot.bytes slot.got)
    (parseRecord slot'.bytes slot'.got)

/-- Two media of one shape that differ in the bytes of the stored hash
alone. -/
inductive MediaAlike : Medium → Medium → Prop
  | flash {chip chip' : ByteMap}
      (slots : ∀ s, SlotsAlike (flashSlot chip s) (flashSlot chip' s)) :
      MediaAlike (.flash chip) (.flash chip')
  | absent : MediaAlike (.file .absent) (.file .absent)
  | other : MediaAlike (.file .other) (.file .other)
  | regular {f f' : File} (size : f.size = f'.size)
      (slots : ∀ s, SlotsAlike (f.slot s) (f'.slot s)) :
      MediaAlike (.file (.regular f)) (.file (.regular f'))

theorem slotsAlike_refl (slot : SlotBytes) : SlotsAlike slot slot := by
  refine ⟨rfl, ?_⟩
  cases parseRecord slot.bytes slot.got with
  | error fault => exact rfl
  | ok c => exact differInHash_refl c

theorem mediaAlike_refl (m : Medium) : MediaAlike m m := by
  cases m with
  | flash chip => exact .flash fun _ => slotsAlike_refl _
  | file node =>
      cases node with
      | absent => exact .absent
      | other => exact .other
      | regular f => exact .regular rfl fun _ => slotsAlike_refl _

/-- Two loads that end alike. -/
structure LoadsAlike (loaded loaded' : Loaded) : Prop where
  rc : loaded.rc = loaded'.rc
  info : loaded.info = loaded'.info
  out : DifferInHash loaded.out loaded'.out

/-- Two scans that are alike so far. -/
structure ScansAlike (scan scan' : Scan) : Prop where
  rc : scan.rc = scan'.rc
  best : scan.best = scan'.best
  info : scan.info = scan'.info
  out : DifferInHash scan.out scan'.out

theorem ScansAlike.accept {scan scan' : Scan} (alike : ScansAlike scan scan')
    (s : Fin nslots) {tmp tmp' : Cfg} (apart : DifferInHash tmp tmp') :
    ScansAlike (scan.accept s tmp) (scan'.accept s tmp') := by
  obtain ⟨rc, best, out, info⟩ := scan
  obtain ⟨rc', best', out', info'⟩ := scan'
  obtain ⟨rfl, rfl, rfl, outs⟩ := alike
  obtain ⟨⟨number, source, value⟩, length⟩ := apart
  unfold Scan.accept Scan.setRc
  dsimp only
  rw [number]
  split_ifs
  · exact ⟨rfl, rfl, rfl, ⟨⟨rfl, rfl, value⟩, length⟩⟩
  · exact ⟨rfl, rfl, rfl, outs⟩

theorem ScansAlike.slot {scan scan' : Scan} (alike : ScansAlike scan scan')
    (s : Fin nslots) {slot slot' : SlotBytes}
    (slots : SlotsAlike slot slot') :
    ScansAlike (scan.slot s (some slot)) (scan'.slot s (some slot')) := by
  have counted : ScansAlike
      { scan with info.fileBytes := scan.info.fileBytes + slot.got }
      { scan' with info.fileBytes := scan'.info.fileBytes + slot'.got } := by
    obtain ⟨rc, best, out, info⟩ := scan
    obtain ⟨rc', best', out', info'⟩ := scan'
    obtain ⟨rfl, rfl, rfl, outs⟩ := alike
    rw [slots.got]
    exact ⟨rfl, rfl, rfl, outs⟩
  have noted : ∀ {scan scan' : Scan}, ScansAlike scan scan' → ∀ rc,
      ScansAlike (scan.setRc s rc) (scan'.setRc s rc) := by
    rintro ⟨rc, best, out, info⟩ ⟨rc', best', out', info'⟩
      ⟨rfl, rfl, rfl, outs⟩ verdict
    exact ⟨rfl, rfl, rfl, outs⟩
  unfold Scan.slot
  dsimp only
  by_cases empty : slot.got = 0
  · rw [if_pos empty, if_pos (slots.got ▸ empty)]
    exact noted counted _
  · rw [if_neg empty, if_neg (slots.got ▸ empty)]
    rcases slots.record.cases with
      ⟨fault, one, other⟩ | ⟨tmp, tmp', one, other, apart⟩
    · rw [one, other]
      exact noted counted _
    · rw [one, other]
      exact counted.accept s apart

theorem ScansAlike.failed {scan scan' : Scan} (alike : ScansAlike scan scan')
    (s : Fin nslots) : ScansAlike (scan.slot s none) (scan'.slot s none) := by
  obtain ⟨rc, best, out, info⟩ := scan
  obtain ⟨rc', best', out', info'⟩ := scan'
  obtain ⟨rfl, rfl, rfl, outs⟩ := alike
  exact ⟨rfl, rfl, rfl, outs⟩

/-- Slots that are alike are loaded alike, where the same reads fail. -/
theorem loadSlots_alike {slot slot' : Fin nslots → SlotBytes}
    (slots : ∀ s, SlotsAlike (slot s) (slot' s)) (fails : Fin nslots → Bool) :
    LoadsAlike (loadSlots fun s => if fails s then none else some (slot s))
      (loadSlots fun s => if fails s then none else some (slot' s)) := by
  have turns : ∀ (is : List (Fin nslots)) {scan scan' : Scan},
      ScansAlike scan scan' →
      ScansAlike
        (is.foldl (fun scan s =>
          scan.slot s (if fails s then none else some (slot s))) scan)
        (is.foldl (fun scan s =>
          scan.slot s (if fails s then none else some (slot' s))) scan') := by
    intro is
    induction is with
    | nil => exact fun alike => alike
    | cons s rest ih =>
        intro scan scan' alike
        refine ih ?_
        dsimp only
        split_ifs
        · exact alike.failed s
        · exact alike.slot s (slots s)
  have scanned := turns (List.finRange nslots)
    (show ScansAlike scanInit scanInit from
      ⟨rfl, rfl, rfl, differInHash_refl _⟩)
  change ScansAlike (scanSlots _) (scanSlots _) at scanned
  unfold loadSlots
  dsimp only
  rw [scanned.info, scanned.rc]
  refine ⟨rfl, rfl, ?_⟩
  dsimp only
  split_ifs
  · exact differInHash_refl _
  · exact scanned.out

theorem MediaAlike.load {m m' : Medium} (media : MediaAlike m m')
    (faults : Faults) : LoadsAlike (loadInfo faults m) (loadInfo faults m') := by
  have nothing : ∀ rc, LoadsAlike (loadNothing rc) (loadNothing rc) :=
    fun _ => ⟨rfl, rfl, differInHash_refl _⟩
  cases media with
  | flash slots => exact loadSlots_alike slots faults.read
  | absent =>
      unfold loadInfo
      split_ifs <;> exact nothing _
  | other =>
      unfold loadInfo
      split_ifs <;> exact nothing _
  | regular size slots =>
      unfold loadInfo
      dsimp only
      split_ifs
      · exact nothing _
      · exact loadSlots_alike slots faults.read

/-! ## Storing -/

/-- What is written lands whole. -/
def Lands (faults : Faults) (img : ByteMap) : Prop :=
  img.AgreeOn (faults.landed img) 0 slotSize

/-- Unless it reports that it failed, a write lands whole whatever is written,
or never does. -/
def Oblivious (faults : Faults) : Prop :=
  faults.write = false → ∀ img img', Lands faults img ↔ Lands faults img'

/-- A write to a file of some size meets no fault that it reports. -/
structure FileTakes (faults : Faults) (size : Nat) : Prop where
  stat : faults.stat = false
  truncate : size < fileSize → faults.truncate = false
  write : faults.write = false
  sync : faults.sync = false
  readBack : faults.readBack = false
  close : faults.close = false

/-- A write to a medium meets no fault that it reports. -/
def Takes (faults : Faults) : Medium → Prop
  | .flash _ => faults.write = false ∧ faults.readBack = false
  | .file .absent => faults.openWrite = false ∧ FileTakes faults 0
  | .file .other => False
  | .file (.regular f) => faults.openWrite = false ∧ FileTakes faults f.size

theorem write_of_takes {faults : Faults} {m : Medium} (takes : Takes faults m) :
    faults.write = false := by
  cases m with
  | flash chip => exact takes.1
  | file node =>
      cases node with
      | absent => exact takes.2.write
      | other => exact takes.elim
      | regular f => exact takes.2.write

section Put

variable {faults : Faults} {c : Cfg} {plan : Plan}

/-- The read-back of a planned image asks that it is all there. -/
theorem verified_iff {back : SlotBytes} (valid : cfgValidate c = .ok ())
    (image : slotImage c plan.newseq = .ok plan.img) :
    verified plan back = true ↔
      back.got = slotSize ∧ plan.img.AgreeOn back.bytes 0 slotSize :=
  ⟨verified_spec, fun whole => verified_of_written valid image whole.1 whole.2⟩

theorem putSlotFile_iff (f : File) (valid : cfgValidate c = .ok ())
    (image : slotImage c plan.newseq = .ok plan.img) :
    (putSlotFile faults f plan).2 = true ↔
      FileTakes faults f.size ∧ Lands faults plan.img := by
  have written := f.extended.slot_write_self plan.target
    (faults.landed plan.img)
  have back : verified plan
        ((f.extended.write plan.target (faults.landed plan.img)).slot
          plan.target) = true ↔ Lands faults plan.img := by
    rw [verified_iff valid image]
    exact ⟨fun whole => whole.2.trans written.symm, fun lands =>
      ⟨slot_got_of_whole (fileSize_le_extended f) plan.target,
        lands.trans written⟩⟩
  unfold putSlotFile
  by_cases stat : faults.stat = true
  · rw [if_pos stat]
    exact ⟨nofun, fun takes => by rw [takes.1.stat] at stat; cases stat⟩
  · rw [if_neg stat]
    by_cases cut : f.size < fileSize ∧ faults.truncate = true
    · rw [if_pos cut]
      exact ⟨nofun, fun takes => by
        rw [takes.1.truncate cut.1] at cut
        cases cut.2⟩
    · rw [if_neg cut]
      simp only [Bool.and_eq_true, Bool.not_eq_true', back]
      refine ⟨fun put => ⟨⟨Bool.not_eq_true _ ▸ stat, fun small => ?_,
        put.1.1.1.1, put.1.1.1.2, put.1.1.2, put.2⟩, put.1.2⟩,
        fun takes => ⟨⟨⟨⟨takes.1.write, takes.1.sync⟩, takes.1.readBack⟩,
          takes.2⟩, takes.1.close⟩⟩
      rw [← Bool.not_eq_true]
      exact fun truncate => cut ⟨small, truncate⟩

theorem putSlotFlash_iff (chip : ByteMap) (valid : cfgValidate c = .ok ())
    (image : slotImage c plan.newseq = .ok plan.img) :
    (putSlotFlash faults chip plan).2 = true ↔
      (faults.write = false ∧ faults.readBack = false) ∧
        Lands faults plan.img := by
  have written := flashBytes_write_self chip plan.target
    (faults.landed plan.img)
  have back : verified plan
        (flashSlot (flashWrite chip plan.target (faults.landed plan.img))
          plan.target) = true ↔ Lands faults plan.img := by
    rw [verified_iff valid image]
    refine ⟨fun whole => whole.2.trans written.symm, fun lands => ?_⟩
    have short := recordLen_slotImage_le image
    have parsed := parseRecord_congr (parseRecord_slotImage valid image le_rfl)
      ((lands.trans written).mono le_rfl (by omega)) short
    refine ⟨?_, lands.trans written⟩
    unfold flashSlot
    dsimp only
    rw [not_erased_of_parsed parsed]
    rfl
  unfold putSlotFlash
  simp only [Bool.and_eq_true, Bool.not_eq_true', back]

/-- A planned image is stored when the medium takes it and it lands. -/
theorem putSlot_iff (m : Medium) (valid : cfgValidate c = .ok ())
    (image : slotImage c plan.newseq = .ok plan.img) :
    (putSlot faults m plan).2 = true ↔
      Takes faults m ∧ Lands faults plan.img := by
  unfold putSlot
  cases m with
  | flash chip => exact putSlotFlash_iff chip valid image
  | file node =>
      dsimp only
      by_cases fails : faults.openWrite = true
      · rw [if_pos fails]
        refine ⟨nofun, fun takes => ?_⟩
        cases node with
        | absent => exact absurd fails (takes.1.1 ▸ Bool.false_ne_true)
        | other => exact takes.1.elim
        | regular f => exact absurd fails (takes.1.1 ▸ Bool.false_ne_true)
      · rw [if_neg fails]
        have opens : faults.openWrite = false := Bool.not_eq_true _ ▸ fails
        cases node with
        | absent =>
            refine (putSlotFile_iff emptyFile valid image).trans ?_
            exact ⟨fun put => ⟨⟨opens, put.1⟩, put.2⟩,
              fun takes => ⟨takes.1.2, takes.2⟩⟩
        | other => exact ⟨nofun, fun takes => takes.1.elim⟩
        | regular f =>
            refine (putSlotFile_iff f valid image).trans ?_
            exact ⟨fun put => ⟨⟨opens, put.1⟩, put.2⟩,
              fun takes => ⟨takes.1.2, takes.2⟩⟩

/-- A store that decided what to write returns 0 when that is taken and
lands. -/
theorem storeRec_iff {m : Medium} {fresh : Bool}
    (valid : cfgValidate c = .ok ()) (unlocked : lockFails faults m = false)
    (decided : storePlan c fresh (loadInfo faults m) = .ok plan) :
    (storeRec faults m c fresh).rc = none ↔
      Takes faults m ∧ Lands faults plan.img := by
  rw [← putSlot_iff m valid (planned_of_storePlan valid decided).image]
  unfold storeRec
  rw [valid, decided, unlocked]
  dsimp only
  unfold commitPlan
  by_cases put : (putSlot faults m plan).2 = true
  · rw [if_pos put]
    exact ⟨fun _ => put, fun _ => rfl⟩
  · rw [if_neg put]
    exact ⟨nofun, fun taken => absurd taken put⟩

end Put

/-! ## Both or neither -/

theorem MediaAlike.takes {m m' : Medium} (media : MediaAlike m m')
    (faults : Faults) : Takes faults m ↔ Takes faults m' := by
  cases media with
  | flash slots => exact Iff.rfl
  | absent => exact Iff.rfl
  | other => exact Iff.rfl
  | regular size slots =>
      unfold Takes
      dsimp only
      rw [size]

/-- Two plans for one place, under one number. -/
structure PlansAlike (c c' : Cfg) (plan plan' : Plan) : Prop where
  target : plan.target = plan'.target
  newseq : plan.newseq = plan'.newseq
  image : slotImage c plan.newseq = .ok plan.img
  image' : slotImage c' plan'.newseq = .ok plan'.img

theorem LoadsAlike.storePlan {loaded loaded' : Loaded}
    (loads : LoadsAlike loaded loaded') {c c' : Cfg}
    (apart : DifferInHash c c') (fresh : Bool) :
    OutcomesAlike (PlansAlike c c') (storePlan c fresh loaded)
      (storePlan c' fresh loaded') := by
  unfold CfgStore.storePlan
  rw [loads.rc, loads.info]
  cases loaded'.rc with
  | some rc => exact rfl
  | none =>
      dsimp only
      split_ifs
      · exact rfl
      · exact rfl
      all_goals
        rcases (apart.slotImage (maxSeq loaded'.info + 1)).cases with
          ⟨fault, one, other⟩ | ⟨img, img', one, other, -⟩
        · rw [one, other]
          exact rfl
        · rw [one, other]
          exact ⟨rfl, rfl, one, other⟩

/-- Two records that differ in the stored hash are stored in two stores that do
with one result. -/
theorem storeRec_alike {m m' : Medium} (media : MediaAlike m m')
    {faults : Faults} (oblivious : Oblivious faults) {c c' : Cfg}
    (apart : DifferInHash c c') (fresh : Bool) :
    (storeRec faults m c fresh).rc = (storeRec faults m' c' fresh).rc := by
  have locked : lockFails faults m = lockFails faults m' := by
    cases media <;> rfl
  unfold storeRec
  rw [apart.toSameShown.cfgValidate, locked]
  cases valid : cfgValidate c' with
  | error fault => rfl
  | ok _ =>
      have valid' : cfgValidate c = .ok () :=
        apart.toSameShown.cfgValidate.trans valid
      dsimp only
      split_ifs
      · rfl
      · rcases ((media.load faults).storePlan apart fresh).cases with
          ⟨fault, one, other⟩ | ⟨plan, plan', one, other, plans⟩
        · rw [one, other]
        · rw [one, other]
          have put : (putSlot faults m plan).2 = true ↔
              (putSlot faults m' plan').2 = true := by
            rw [putSlot_iff m valid' plans.image,
              putSlot_iff m' valid plans.image', ← media.takes faults]
            refine and_congr_right fun takes => ?_
            exact oblivious (write_of_takes takes) plan.img plan'.img
          dsimp only
          unfold commitPlan
          by_cases done : (putSlot faults m plan).2 = true
          · rw [if_pos done, if_pos (put.mp done)]
          · rw [if_neg done, if_neg (mt put.mpr done)]

end RlxFw.CfgStore
