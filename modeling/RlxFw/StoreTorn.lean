import RlxFw.StoreLoad

/-!
# A store that was cut short

The target is never the slot of the selected record, so however few bytes of
the image arrived, the selected record is still there to load.
-/

namespace RlxFw.CfgStore

/-- The first `k` bytes of an image.  Where they stop lies what was there: the
old bytes in a file, and on the chip whatever the erase had left. -/
def tornImage (img under : ByteMap) (k : Nat) : ByteMap :=
  fun i => if i < k then img i else under i

/-- Every byte that was read is still read, and no fewer are. -/
def SlotBytes.Kept (slot slot' : SlotBytes) : Prop :=
  slot.bytes.AgreeOn slot'.bytes 0 slot.got ∧ slot.got ≤ slot'.got

theorem slot_isSome {m : Medium} {s : Fin nslots} {c : Cfg}
    (record : accepted (m.slot s) = some c) (s' : Fin nslots) :
    (m.slot s').isSome := by
  cases m with
  | flash chip => rfl
  | file node =>
      cases node with
      | absent => cases record
      | other => cases record
      | regular f => rfl

theorem overwrite_isSome {m : Medium} (storable : m.Storable)
    (target s : Fin nslots) (img : ByteMap) :
    ((m.overwrite target img).slot s).isSome := by
  cases m with
  | flash chip => rfl
  | file node =>
      cases node with
      | absent => rfl
      | other => exact absurd rfl storable
      | regular f => rfl

theorem storable_of_accepted {m : Medium} {s : Fin nslots} {c : Cfg}
    (record : accepted (m.slot s) = some c) : m.Storable := by
  rintro rfl
  cases record

/-- The slot that is not written keeps its bytes. -/
theorem kept_of_overwrite {m : Medium} {s target : Fin nslots}
    (there : (m.slot s).isSome) (storable : m.Storable) (other : s ≠ target)
    (img : ByteMap) :
    ∃ before after, m.slot s = some before ∧
      (m.overwrite target img).slot s = some after ∧ before.Kept after := by
  obtain ⟨before, held⟩ := Option.isSome_iff_exists.mp there
  obtain ⟨middle, held', same, more⟩ := extended_slot held
  obtain ⟨middle', after, held'', left, same', got⟩ :=
    overwrite_other storable other img
  obtain rfl : middle = middle' := Option.some.inj (held'.symm.trans held'')
  exact ⟨before, after, held, left,
    same.trans (same'.mono le_rfl (by omega)), by omega⟩

/-- Once the whole record arrived it is in the slot. -/
theorem accepted_of_tornImage {m : Medium} {c : Cfg} {seq k : Nat}
    {img under : ByteMap} (target : Fin nslots) (storable : m.Storable)
    (valid : cfgValidate c = .ok ()) (image : slotImage c seq = .ok img)
    (whole : recordLen img ≤ k) :
    accepted ((m.overwrite target (tornImage img under k)).slot target) =
      some { c with seq := seq, source := 0 } := by
  have short := recordLen_slotImage_le image
  have arrived : img.AgreeOn (tornImage img under k) 0 (recordLen img) :=
    fun i _ upper => (if_pos (by omega)).symm
  have inFile (f : File) : accepted (some
      ((f.extended.write target (tornImage img under k)).slot target)) =
      some { c with seq := seq, source := 0 } := by
    have length : fileSize ≤
        (f.extended.write target (tornImage img under k)).size :=
      fileSize_le_extended f
    refine accepted_of_image valid image (arrived.trans
      ((f.extended.slot_write_self target _).mono le_rfl (by omega))) ?_
    rw [slot_got_of_whole length]
    exact short
  cases m with
  | flash chip =>
      have parsed := parseRecord_congr
        (parseRecord_slotImage valid image le_rfl)
        (arrived.trans
          ((flashBytes_write_self chip target _).mono le_rfl (by omega))) short
      change accepted (some (flashSlot _ target)) = _
      rw [accepted_some_iff]
      unfold flashSlot
      rw [not_erased_of_parsed parsed]
      exact parsed
  | file node =>
      cases node with
      | absent => exact inFile emptyFile
      | other => exact absurd rfl storable
      | regular f => exact inFile f

/-- The medium after the first `k` bytes of a planned write. -/
def tornStore (m : Medium) (plan : Plan) (under : ByteMap) (k : Nat) : Medium :=
  m.overwrite plan.target (tornImage plan.img under k)

/-- What a load may rely on after a write that stopped. -/
structure SafelyTorn (m torn : Medium) (c : Cfg) (plan : Plan) (k : Nat) :
    Prop where
  /-- The other slot keeps its bytes. -/
  kept : ∀ s, s ≠ plan.target → ∃ before after, m.slot s = some before ∧
    torn.slot s = some after ∧ before.Kept after
  /-- A load succeeds. -/
  loads : (loadInfo noFaults torn).rc = none
  /-- It returns what it returned before, unless the torn slot holds a record. -/
  previous : accepted (torn.slot plan.target) = none →
    (loadInfo noFaults torn).out = (loadInfo noFaults m).out
  /-- It returns the new record once that has arrived whole. -/
  arrived : recordLen plan.img ≤ k →
    (loadInfo noFaults torn).out =
      { c with seq := plan.newseq, source := plan.target + 1 }

/-- However few bytes of the image arrived, the store is still good. -/
theorem load_after_torn_store (faults : Faults) (m : Medium) (c : Cfg)
    (fresh : Bool) (plan : Plan) (under : ByteMap) (k : Nat)
    (held : ∃ s old, accepted (m.slot s) = some old)
    (valid : cfgValidate c = .ok ())
    (decided : storePlan c fresh (loadInfo faults m) = .ok plan) :
    SafelyTorn m (tornStore m plan under k) c plan k := by
  let torn := tornStore m plan under k
  obtain ⟨s', old, record⟩ := held
  have storable := storable_of_accepted record
  have planned := planned_of_storePlan valid decided
  obtain ⟨⟨s₀, c₀⟩, newer⟩ : ∃ p, newestOf m.slot = some p := by
    rw [← Option.isSome_iff_exists, Option.isSome_iff_ne_none]
    intro nothing
    rw [newestOf_eq_none_iff] at nothing
    rw [nothing s'] at record
    cases record
  have number : plan.newseq = c₀.seq + 1 := by
    rw [planned.newseq, newer]
    rfl
  -- The one slot besides the target is the selected one, and keeps its record.
  have others : ∀ s, s ≠ plan.target → accepted (torn.slot s) = some c₀ := by
    intro s other
    obtain rfl := planned.eq_selected newer other
    obtain ⟨before, after, there, left, same⟩ :=
      overwrite_other storable other (tornImage plan.img under k)
    have kept := accepted_extended (accepted_of_newestOf newer)
    rw [there] at kept
    exact (congrArg accepted left).trans
      ((accepted_congr same.1 same.2).trans kept)
  have there : ∀ s, (torn.slot s).isSome :=
    fun s => overwrite_isSome storable plan.target s _
  refine ⟨fun s other => kept_of_overwrite (slot_isSome record s) storable other _,
    loadInfo_noFaults there, ?_, ?_⟩
  · intro lost
    have before := returns_of_newestOf (slot_isSome record) newer
    have after := returns_of_newestOf there
      (newestOf_eq_some (others s₀ (planned.selected_ne newer)) (by
        intro s other c' record'
        by_cases same : s = plan.target
        · rw [same, lost] at record'
          cases record'
        · exact absurd (planned.eq_selected newer same) other))
    exact after.2.trans before.2.symm
  · intro whole
    have arrived : accepted (torn.slot plan.target) =
        some { c with seq := plan.newseq, source := 0 } :=
      accepted_of_tornImage plan.target storable valid planned.image whole
    have after := returns_of_newestOf there
      (newestOf_eq_some arrived (by
        intro s other c' record'
        rw [others s other] at record'
        cases record'
        exact Or.inl (number ▸ Nat.lt_succ_self _)))
    exact after.2

/-- A plan over a file whose second slot holds a record: the defaults, whose
record is its header. -/
theorem exists_defaults_plan :
    ∃ plan, storePlan cfgDefaults false
        (loadInfo noFaults (.file (.regular cutFile.extended))) = .ok plan ∧
      recordLen plan.img = 24 := by
  have computed : (storePlan cfgDefaults false
      (loadInfo noFaults (.file (.regular cutFile.extended)))).toOption.map
      (fun plan => recordLen plan.img) = some 24 := by
    decide +kernel
  obtain ⟨plan, decided, length⟩ := Option.map_eq_some_iff.mp computed
  refine ⟨plan, ?_, length⟩
  cases outcome : storePlan cfgDefaults false
      (loadInfo noFaults (.file (.regular cutFile.extended))) with
  | error rc =>
      rw [outcome] at decided
      cases decided
  | ok plan' =>
      rw [outcome] at decided
      cases decided
      rfl

/-- Over that file, with the header arrived. -/
theorem load_after_torn_store_header :
    ∃ plan, recordLen plan.img ≤ 24 ∧
      SafelyTorn (.file (.regular cutFile.extended))
        (tornStore (.file (.regular cutFile.extended)) plan (fun _ => 0) 24)
        cfgDefaults plan 24 := by
  obtain ⟨-, old, record, -⟩ := cutFile_revives
  obtain ⟨plan, decided, length⟩ := exists_defaults_plan
  exact ⟨plan, le_of_eq length, load_after_torn_store noFaults _ cfgDefaults
    false plan (fun _ => 0) 24 ⟨1, old, record⟩ cfgDefaults_valid decided⟩

end RlxFw.CfgStore
