import RlxFw.CfgStore

/-!
# What a store writes and the next load returns

A store that finds a record takes the next number and the other slot, so its
record outnumbers what is left.  A store that finds none takes number 1, and
growing the file to two slots can complete a record that had been cut short.
-/

namespace RlxFw.CfgStore

/-- Zero bytes after the end of the file make a record of the second slot, and
its number is greater than the one that a first store takes. -/
def Revives (m : Medium) : Prop :=
  newestOf m.slot = none ∧
    ∃ old, accepted (m.extended.slot 1) = some old ∧ 1 < old.seq

/-- A load that returns 0 and this record. -/
def Returns (m : Medium) (c : Cfg) : Prop :=
  (loadInfo noFaults m).rc = none ∧ (loadInfo noFaults m).out = c

theorem returns_of_newestOf {m : Medium} {s : Fin nslots} {c : Cfg}
    (there : ∀ s, (m.slot s).isSome) (newer : newestOf m.slot = some (s, c)) :
    Returns m (asLoaded s c) := by
  have fine := loadInfo_noFaults there
  refine ⟨fine, ?_⟩
  rw [(loadInfo_selects fine).out, newer]
  rfl

section Stored

variable {faults : Faults} {m : Medium} {c : Cfg} {fresh : Bool}

/-- What a store leaves is the newest record, unless it revived one. -/
theorem newestOf_stored_of_not_revives
    (stored : (storeRec faults m c fresh).rc = none) (kept : ¬ Revives m) :
    ∃ target, newestOf (storeRec faults m c fresh).medium.slot =
        some (target, { c with
          seq := newestSeq (newestOf m.slot) + 1
          source := 0 }) ∧
      (storeRec faults m c fresh).cfg = asLoaded target { c with
        seq := newestSeq (newestOf m.slot) + 1
        source := 0 } := by
  obtain ⟨plan, planned, written, left⟩ := exists_plan_of_storeRec stored
  have record := written.accepted_target planned.valid planned.image
  rw [planned.newseq] at record left
  refine ⟨plan.target, newestOf_eq_some record ?_, left⟩
  intro s other old oldRecord
  rw [written.accepted_other other] at oldRecord
  cases newer : newestOf m.slot with
  | some p =>
      obtain rfl := planned.eq_selected newer other
      have held := accepted_extended (accepted_of_newestOf newer)
      rw [oldRecord] at held
      cases held
      exact Or.inl (Nat.lt_succ_self _)
  | none =>
      have first := planned.target_of_none newer
      have second : s = 1 := Fin.eq_one_of_ne_zero s (first ▸ other)
      subst second
      have small : ¬ 1 < old.seq := fun more => kept ⟨newer, old, oldRecord, more⟩
      change old.seq < 1 ∨ plan.target = 0 ∧ old.seq = 1
      omega

theorem storeRec_there (stored : (storeRec faults m c fresh).rc = none)
    (s : Fin nslots) : ((storeRec faults m c fresh).medium.slot s).isSome := by
  obtain ⟨plan, -, written, -⟩ := exists_plan_of_storeRec stored
  exact written.there s

/-- So the next load returns it. -/
theorem returns_stored_of_not_revives
    (stored : (storeRec faults m c fresh).rc = none) (kept : ¬ Revives m) :
    Returns (storeRec faults m c fresh).medium (storeRec faults m c fresh).cfg := by
  obtain ⟨target, newer, left⟩ := newestOf_stored_of_not_revives stored kept
  rw [left]
  exact returns_of_newestOf (storeRec_there stored) newer

/-- A revived record is loaded in place of what was stored. -/
theorem not_returns_of_revives
    (stored : (storeRec faults m c fresh).rc = none) (revives : Revives m) :
    ¬ Returns (storeRec faults m c fresh).medium
      (storeRec faults m c fresh).cfg := by
  obtain ⟨plan, planned, written, left⟩ := exists_plan_of_storeRec stored
  obtain ⟨nothing, old, oldRecord, more⟩ := revives
  have first := planned.target_of_none nothing
  have number : plan.newseq = 1 := by
    rw [planned.newseq, nothing]
    rfl
  have second : (1 : Fin nslots) ≠ plan.target := by
    rw [first]
    decide
  have kept := (written.accepted_other second).trans oldRecord
  have new := written.accepted_target planned.valid planned.image
  have newer := newestOf_eq_some kept fun s other c' record => by
    have zero : s = 0 :=
      by_contra fun no => other (Fin.eq_one_of_ne_zero s no)
    rw [zero, ← first, new] at record
    cases record
    exact Or.inl (number ▸ more)
  intro returns
  have instead := returns_of_newestOf written.there newer
  have same := returns.2.symm.trans instead.2
  rw [left] at same
  have numbers : plan.newseq = old.seq := congrArg Cfg.seq same
  omega

end Stored

/-! ## A store that meets no fault -/

theorem verified_of_written {c : Cfg} {plan : Plan} {back : SlotBytes}
    (valid : cfgValidate c = .ok ())
    (image : slotImage c plan.newseq = .ok plan.img)
    (got : back.got = slotSize)
    (same : plan.img.AgreeOn back.bytes 0 slotSize) :
    verified plan back = true := by
  have short := recordLen_slotImage_le image
  have record := parseRecord_congr (parseRecord_slotImage valid image le_rfl)
    (same.mono le_rfl (by omega)) short
  unfold verified
  rw [record, got]
  simp only [decide_true, Bool.true_and, Bool.and_true, List.all_eq_true,
    List.mem_range, decide_eq_true_eq]
  exact fun i inside => same i (Nat.zero_le _) (by omega)

theorem putSlotFile_noFaults {c : Cfg} {plan : Plan} (f : File)
    (valid : cfgValidate c = .ok ())
    (image : slotImage c plan.newseq = .ok plan.img) :
    (putSlotFile noFaults f plan).2 = true := by
  have whole : fileSize ≤ (f.extended.write plan.target plan.img).size :=
    fileSize_le_extended f
  have back := verified_of_written valid image
    (slot_got_of_whole whole plan.target)
    (f.extended.slot_write_self plan.target plan.img)
  simpa [putSlotFile, noFaults] using back

/-- A record is not all fill: its magic is not. -/
theorem not_erased_of_parsed {bytes : ByteMap} {n : Nat} {c : Cfg}
    (parsed : parseRecord bytes n = .ok c) : erased bytes slotSize = false := by
  obtain ⟨-, header, -⟩ := (parseRecord_eq_ok_iff _ _ _).mp parsed
  have magic : Tlv.getBe32 bytes 0 = cfgMagic := by
    unfold headerFault at header
    split_ifs at header with crc magic
    exact not_not.mp magic
  rw [← Bool.not_eq_true]
  intro blank
  unfold erased at blank
  simp only [List.all_eq_true, List.mem_range, decide_eq_true_eq] at blank
  have allFill : Tlv.getBe32 bytes 0 = Tlv.getBe32 (fun _ => fill) 0 :=
    Tlv.getBe32_congr fun i small => blank _ (by unfold slotSize; omega)
  rw [magic] at allFill
  exact absurd allFill (by decide)

theorem putSlotFlash_noFaults {c : Cfg} {plan : Plan} (chip : ByteMap)
    (valid : cfgValidate c = .ok ())
    (image : slotImage c plan.newseq = .ok plan.img) :
    (putSlotFlash noFaults chip plan).2 = true := by
  have same := flashBytes_write_self chip plan.target plan.img
  have short := recordLen_slotImage_le image
  have parsed := parseRecord_congr (parseRecord_slotImage valid image le_rfl)
    (same.mono le_rfl (by omega)) short
  have got : (flashSlot (flashWrite chip plan.target plan.img) plan.target).got =
      slotSize := by
    simp [flashSlot, not_erased_of_parsed parsed]
  have back := verified_of_written valid image got same
  simpa [putSlotFlash, noFaults] using back

/-- Where nothing fails, a store that decides what to write writes it. -/
theorem storeRec_noFaults {m : Medium} {c : Cfg} {fresh : Bool} {plan : Plan}
    (storable : m.Storable) (valid : cfgValidate c = .ok ())
    (decided : storePlan c fresh (loadInfo noFaults m) = .ok plan) :
    (storeRec noFaults m c fresh).rc = none := by
  have image := (planned_of_storePlan valid decided).image
  have unlocked : lockFails noFaults m = false := by
    cases m <;> rfl
  have put : (putSlot noFaults m plan).2 = true := by
    cases m with
    | flash chip => simp only [putSlot, putSlotFlash_noFaults chip valid image]
    | file node =>
        cases node with
        | absent => exact putSlotFile_noFaults _ valid image
        | other => exact absurd rfl storable
        | regular f => exact putSlotFile_noFaults f valid image
  unfold storeRec
  simp only [valid, unlocked, decided, commitPlan, put]
  rfl

/-! ## The file backend -/

/-- The next load returns the configuration that was stored, under the number
and the slot that the store left. -/
def LoadsBack (stored : Stored) (c : Cfg) : Prop :=
  Returns stored.medium
    { c with seq := stored.cfg.seq, source := stored.cfg.source }

theorem loadsBack_iff {faults : Faults} {m : Medium} {c : Cfg} {fresh : Bool}
    (stored : (storeRec faults m c fresh).rc = none) :
    LoadsBack (storeRec faults m c fresh) c ↔ ¬ Revives m := by
  obtain ⟨plan, -, -, left⟩ := exists_plan_of_storeRec stored
  have same : { c with
      seq := (storeRec faults m c fresh).cfg.seq
      source := (storeRec faults m c fresh).cfg.source } =
      (storeRec faults m c fresh).cfg := by
    rw [left]
  unfold LoadsBack
  rw [same]
  exact ⟨fun returns revives => not_returns_of_revives stored revives returns,
    returns_stored_of_not_revives stored⟩

/-- After a store to a file that returned 0, the next load returns what was
stored exactly when the store revived no record. -/
theorem load_after_store_iff (faults : Faults) (node : Node) (c : Cfg)
    (fresh : Bool)
    (stored : (storeRec faults (.file node) c fresh).rc = none) :
    LoadsBack (storeRec faults (.file node) c fresh) c ↔
      ¬ Revives (.file node) :=
  loadsBack_iff stored

/-- A record with number 2 that turns one key off. -/
def cutRecord : List UInt8 :=
  [0x52, 0x4C, 0x58, 0x43, 0x00, 0x01, 0x00, 0x18, 0x00, 0x00, 0x00, 0x02,
    0x00, 0x00, 0x00, 0x05, 0x14, 0x34, 0xC9, 0xFE, 0x3D, 0x8A, 0x91, 0x48,
    0x00, 0x50, 0x00, 0x01, 0x00]

/-- A first slot of zeros, then that record without its last byte, a zero. -/
def cutFile : File where
  bytes := fun i => if i < slotSize then 0 else cutRecord.getD (i - slotSize) 0xAA
  size := slotSize + 28

theorem cutFile_holds_none :
    newestOf (Medium.file (.regular cutFile)).slot = none := by
  rw [newestOf_eq_none_iff, Fin.forall_fin_two]
  exact ⟨Option.isNone_iff_eq_none.mp (by decide +kernel),
    Option.isNone_iff_eq_none.mp (by decide +kernel)⟩

theorem cutFile_revives : Revives (.file (.regular cutFile)) := by
  have number : (accepted ((Medium.file (.regular cutFile)).extended.slot 1)).map
      Cfg.seq = some 2 := by
    decide +kernel
  obtain ⟨old, record, second⟩ := Option.map_eq_some_iff.mp number
  exact ⟨cutFile_holds_none, old, record, by omega⟩

theorem slotImage_defaults : ∃ img, slotImage cfgDefaults 1 = .ok img :=
  ⟨_, rfl⟩

theorem storePlan_of_none {m : Medium} {c : Cfg} {img : ByteMap} (fresh : Bool)
    (fine : (loadInfo noFaults m).rc = none) (nothing : newestOf m.slot = none)
    (image : slotImage c 1 = .ok img) :
    ∃ plan, storePlan c fresh (loadInfo noFaults m) = .ok plan := by
  have number : newestSeq (newestOf m.slot) = 0 := by
    rw [nothing]
    rfl
  exact ⟨_, storePlan_eq_ok fine (fun _ => nothing) (by rw [number]; decide)
    (by rw [number]; exact image)⟩

theorem cutFile_stored :
    (storeRec noFaults (.file (.regular cutFile)) cfgDefaults false).rc =
      none := by
  obtain ⟨img, image⟩ := slotImage_defaults
  obtain ⟨plan, decided⟩ := storePlan_of_none false
    (loadInfo_noFaults fun _ => rfl) cutFile_holds_none image
  exact storeRec_noFaults nofun cfgDefaults_valid decided

/-- The defaults stored over that file are not what the next load returns. -/
theorem cutFile_not_loadsBack :
    ¬ ∀ (faults : Faults) (node : Node) (c : Cfg) (fresh : Bool),
      (storeRec faults (.file node) c fresh).rc = none →
        LoadsBack (storeRec faults (.file node) c fresh) c := by
  intro always
  exact (loadsBack_iff cutFile_stored).mp (always _ _ _ _ cutFile_stored)
    cutFile_revives

/-- On a path that names nothing, the defaults are loaded back. -/
theorem load_after_store_iff_absent :
    LoadsBack (storeRec noFaults (.file .absent) cfgDefaults false)
        cfgDefaults ↔
      ¬ Revives (.file .absent) := by
  obtain ⟨img, image⟩ := slotImage_defaults
  obtain ⟨plan, decided⟩ : ∃ plan, storePlan cfgDefaults false
      (loadInfo noFaults (.file .absent)) = .ok plan :=
    storePlan_of_none false rfl rfl image
  exact load_after_store_iff noFaults .absent cfgDefaults false
    (storeRec_noFaults nofun cfgDefaults_valid decided)

end RlxFw.CfgStore
