import RlxFw.CfgLoad
import RlxFw.CfgRoundTrip

/-!
# Storing a configuration

`store_rec` and the two backends it writes through.  A store reads both slots,
writes the one that does not hold the selected record, and reads it back.
-/

namespace RlxFw.CfgStore

/-- What a store decided before it wrote: where, under which number, and the
image. -/
structure Plan where
  target : Fin nslots
  newseq : Nat
  img : ByteMap

/-- `maxseq`, over the slots that hold a record. -/
def maxSeq (info : StoreInfo) : Nat :=
  (List.finRange nslots).foldl
    (fun most s =>
      if info.rc s = none ∧ info.seq s > most then info.seq s else most) 0

/-- `store_rec` from its load to its image. -/
def storePlan (c : Cfg) (fresh : Bool) (loaded : Loaded) : Except Err Plan :=
  match loaded.rc with
  | some rc => .error rc
  | none =>
      if fresh ∧ loaded.info.selected.isSome then .error .seq
      else if maxSeq loaded.info ≥ seqMax then .error .seq
      else
        match slotImage c (maxSeq loaded.info + 1) with
        | .error fault => .error fault.rc
        | .ok img =>
            .ok
              { target := if loaded.info.selected = some 0 then 1 else 0
                newseq := maxSeq loaded.info + 1
                img := img }

/-! ## Writing a slot -/

/-- The read-back: the bytes, the parse and the number. -/
def verified (plan : Plan) (back : SlotBytes) : Bool :=
  back.got = slotSize &&
    ((List.range slotSize).all fun i => plan.img i = back.bytes i) &&
    match parseRecord back.bytes slotSize with
    | .ok probe => probe.seq = plan.newseq
    | .error _ => false

/-- A file that `open` just made. -/
def emptyFile : File := { bytes := fun _ => 0, size := 0 }

/-- `ftruncate` to two slots, which adds zeros. -/
def File.extended (f : File) : File :=
  if f.size < fileSize then
    { bytes := fun i => if i < f.size then f.bytes i else 0, size := fileSize }
  else f

/-- A slot of a file of two slots, overwritten. -/
def File.write (f : File) (s : Fin nslots) (img : ByteMap) : File :=
  { f with bytes := f.bytes.blit (fileBase s) slotSize img }

/-- `put_slot_file` once the file is open: the file it leaves, and whether it
returned 0. -/
def putSlotFile (faults : Faults) (f : File) (plan : Plan) : File × Bool :=
  if faults.stat then (f, false)
  else if f.size < fileSize ∧ faults.truncate then (f, false)
  else
    let f' := f.extended.write plan.target (faults.landed plan.img)
    (f', !faults.write && !faults.sync && !faults.readBack &&
      verified plan (f'.slot plan.target) && !faults.close)

/-- A slot's region of the chip, as an install leaves it: the rest of the image
is fill. -/
def flashWrite (chip : ByteMap) (s : Fin nslots) (img : ByteMap) : ByteMap :=
  chip.blit (cfBase s) flashRegion img

/-- `put_slot_flash`. -/
def putSlotFlash (faults : Faults) (chip : ByteMap) (plan : Plan) :
    ByteMap × Bool :=
  let chip' := flashWrite chip plan.target (faults.landed plan.img)
  (chip', !faults.write && !faults.readBack &&
    verified plan (flashSlot chip' plan.target))

/-- The write of either backend. -/
def putSlot (faults : Faults) (m : Medium) (plan : Plan) : Medium × Bool :=
  match m with
  | .flash chip =>
      ((.flash (putSlotFlash faults chip plan).1),
        (putSlotFlash faults chip plan).2)
  | .file node =>
      if faults.openWrite then (m, false)
      else
        match node with
        | .other => (m, false)
        | .absent =>
            (.file (.regular (putSlotFile faults emptyFile plan).1),
              (putSlotFile faults emptyFile plan).2)
        | .regular f =>
            (.file (.regular (putSlotFile faults f plan).1),
              (putSlotFile faults f plan).2)

/-- `cfg_flash_lock`, which only the flash backend takes. -/
def lockFails (faults : Faults) : Medium → Bool
  | .flash _ => faults.lock
  | .file _ => false

/-- What a store leaves: its return, the medium and the caller's record. -/
structure Stored where
  rc : Option Err
  medium : Medium
  cfg : Cfg

/-- The tail of `store_rec`. -/
def commitPlan (faults : Faults) (m : Medium) (c : Cfg) (plan : Plan) :
    Stored :=
  if (putSlot faults m plan).2 then
    { rc := none
      medium := (putSlot faults m plan).1
      cfg := { c with seq := plan.newseq, source := plan.target + 1 } }
  else { rc := some .io, medium := (putSlot faults m plan).1, cfg := c }

/-- `store_rec`: `cfg_store`, and `cfg_store_fresh` when `fresh`. -/
def storeRec (faults : Faults) (m : Medium) (c : Cfg) (fresh : Bool) : Stored :=
  match cfgValidate c with
  | .error fault => { rc := some fault.rc, medium := m, cfg := c }
  | .ok () =>
      if lockFails faults m then { rc := some .io, medium := m, cfg := c }
      else
        match storePlan c fresh (loadInfo faults m) with
        | .error rc => { rc := some rc, medium := m, cfg := c }
        | .ok plan => commitPlan faults m c plan

/-! ## The plan -/

/-- The number of the selected record, or 0. -/
def newestSeq (newer : Option (Fin nslots × Cfg)) : Nat :=
  newer.elim 0 fun p => p.2.seq

theorem maxSeq_eq {read : Fin nslots → Option SlotBytes} {loaded : Loaded}
    (selects : Selects read loaded) :
    maxSeq loaded.info = newestSeq (newestOf read) := by
  have turns : maxSeq loaded.info =
      let first := if loaded.info.rc 0 = none ∧ loaded.info.seq 0 > 0 then
        loaded.info.seq 0 else 0
      if loaded.info.rc 1 = none ∧ loaded.info.seq 1 > first then
        loaded.info.seq 1 else first := rfl
  rw [turns]
  simp only [selects.slotRc, newestOf]
  cases first : accepted (read 0) with
  | none =>
      cases second : accepted (read 1) with
      | none => rfl
      | some c₁ =>
          have number : 0 < c₁.seq := (accepted_seq second).1
          simp [selects.slotSeq 1 c₁ second, number, newestSeq, newest]
  | some c₀ =>
      have number : 0 < c₀.seq := (accepted_seq first).1
      cases second : accepted (read 1) with
      | none => simp [selects.slotSeq 0 c₀ first, number, newestSeq, newest]
      | some c₁ =>
          by_cases later : c₀.seq < c₁.seq <;>
            simp [selects.slotSeq 0 c₀ first, selects.slotSeq 1 c₁ second,
              number, newestSeq, newest, later]

/-- What a store decides, in terms of the records that the slots hold. -/
structure Planned (m : Medium) (c : Cfg) (fresh : Bool) (plan : Plan) :
    Prop where
  valid : cfgValidate c = .ok ()
  place : fresh → newestOf m.slot = none
  newseq : plan.newseq = newestSeq (newestOf m.slot) + 1
  target : plan.target =
    if (newestOf m.slot).map Prod.fst = some 0 then 1 else 0
  image : slotImage c plan.newseq = .ok plan.img

theorem planned_of_storePlan {faults : Faults} {m : Medium} {c : Cfg}
    {fresh : Bool} {plan : Plan} (valid : cfgValidate c = .ok ())
    (decided : storePlan c fresh (loadInfo faults m) = .ok plan) :
    Planned m c fresh plan := by
  unfold storePlan at decided
  cases fine : (loadInfo faults m).rc with
  | some rc =>
      rw [fine] at decided
      cases decided
  | none =>
      have selects := loadInfo_selects fine
      simp only [fine, maxSeq_eq selects, selects.selected] at decided
      split at decided
      · cases decided
      rename_i place
      split at decided
      · cases decided
      cases image : slotImage c (newestSeq (newestOf m.slot) + 1) with
      | error fault =>
          rw [image] at decided
          cases decided
      | ok img =>
          rw [image] at decided
          cases decided
          refine ⟨valid, fun isFresh => ?_, rfl, rfl, image⟩
          cases held : newestOf m.slot with
          | none => rfl
          | some p => exact absurd ⟨isFresh, by rw [held]; rfl⟩ place

/-- A store decides as soon as there is a number left and the image fits. -/
theorem storePlan_eq_ok {faults : Faults} {m : Medium} {c : Cfg} {fresh : Bool}
    {img : ByteMap} (fine : (loadInfo faults m).rc = none)
    (place : fresh → newestOf m.slot = none)
    (left : newestSeq (newestOf m.slot) < seqMax)
    (image : slotImage c (newestSeq (newestOf m.slot) + 1) = .ok img) :
    storePlan c fresh (loadInfo faults m) =
      .ok
        { target := if (newestOf m.slot).map Prod.fst = some 0 then 1 else 0
          newseq := newestSeq (newestOf m.slot) + 1
          img := img } := by
  have selects := loadInfo_selects fine
  unfold storePlan
  simp only [fine, maxSeq_eq selects, selects.selected]
  rw [if_neg, if_neg (by omega), image]
  rintro ⟨isFresh, held⟩
  rw [place isFresh] at held
  cases held

/-! ## The write -/

/-- The medium that a write starts from: a file of two slots, or the chip. -/
def Medium.extended : Medium → Medium
  | .flash chip => .flash chip
  | .file .absent => .file (.regular emptyFile.extended)
  | .file .other => .file .other
  | .file (.regular f) => .file (.regular f.extended)

/-- Two reads got the same bytes. -/
def SlotBytes.Same (slot slot' : SlotBytes) : Prop :=
  slot.bytes.AgreeOn slot'.bytes 0 slot.got ∧ slot'.got = slot.got

/-- A slot of a medium of two slots, overwritten. -/
def Medium.overwrite : Medium → Fin nslots → ByteMap → Medium
  | .flash chip, s, img => .flash (flashWrite chip s img)
  | .file .absent, s, img => .file (.regular (emptyFile.extended.write s img))
  | .file .other, _, _ => .file .other
  | .file (.regular f), s, img => .file (.regular (f.extended.write s img))

/-- What can be stored to: anything but a path to something else. -/
def Medium.Storable (m : Medium) : Prop := m ≠ .file .other

theorem fileSize_le_extended (f : File) : fileSize ≤ f.extended.size := by
  unfold File.extended
  split
  · exact le_rfl
  · omega

theorem fileBase_apart {s s' : Fin nslots} (other : s ≠ s') :
    fileBase s + slotSize ≤ fileBase s' ∨ fileBase s' + slotSize ≤ fileBase s := by
  revert s s'
  decide

theorem cfBase_apart {s s' : Fin nslots} (other : s ≠ s') :
    cfBase s + slotSize ≤ cfBase s' ∨ cfBase s' + flashRegion ≤ cfBase s := by
  revert s s'
  decide

theorem slot_got_of_whole {f : File} (whole : fileSize ≤ f.size)
    (s : Fin nslots) : (f.slot s).got = slotSize := by
  have inside : fileBase s + slotSize ≤ fileSize := by
    revert s
    decide
  exact Nat.min_eq_left (by omega)

/-- A slot of a file keeps its bytes when another is written. -/
theorem File.slot_write_other (f : File) {s target : Fin nslots}
    (other : s ≠ target) (img : ByteMap) :
    (f.slot s).Same ((f.write target img).slot s) := by
  refine ⟨fun i _ upper => ?_, rfl⟩
  have inside : i < slotSize := by
    have short : (f.slot s).got ≤ slotSize := Nat.min_le_left _ _
    omega
  have apart := fileBase_apart other
  have outside : fileBase s + i < fileBase target ∨
      fileBase target + slotSize ≤ fileBase s + i := by omega
  exact (ByteMap.blit_outside outside).symm

theorem File.slot_write_self (f : File) (target : Fin nslots) (img : ByteMap) :
    img.AgreeOn ((f.write target img).slot target).bytes 0 slotSize := by
  intro i _ upper
  have inside : fileBase target + i < fileBase target + slotSize := by omega
  change img i = f.bytes.blit (fileBase target) slotSize img (fileBase target + i)
  rw [ByteMap.blit_inside (Nat.le_add_right _ _) inside, Nat.add_sub_cancel_left]

theorem erased_congr {bytes bytes' : ByteMap} {n : Nat}
    (same : bytes.AgreeOn bytes' 0 n) : erased bytes' n = erased bytes n := by
  unfold erased
  rw [Bool.eq_iff_iff, List.all_eq_true, List.all_eq_true]
  exact forall₂_congr fun i inside => by
    rw [same i (Nat.zero_le _) (by simpa using List.mem_range.mp inside)]

/-- A slot of the chip keeps its bytes when the other is written. -/
theorem flashSlot_write_other (chip : ByteMap) {s target : Fin nslots}
    (other : s ≠ target) (img : ByteMap) :
    (flashSlot chip s).Same (flashSlot (flashWrite chip target img) s) := by
  have apart := cfBase_apart other
  have same : (flashBytes chip s).AgreeOn
      (flashBytes (flashWrite chip target img) s) 0 slotSize := by
    intro i _ upper
    have outside : cfBase s + i < cfBase target ∨
        cfBase target + flashRegion ≤ cfBase s + i := by omega
    exact (ByteMap.blit_outside outside).symm
  unfold flashSlot SlotBytes.Same
  simp only [erased_congr same, and_true]
  exact same.mono le_rfl (by split <;> omega)

theorem flashBytes_write_self (chip : ByteMap) (target : Fin nslots)
    (img : ByteMap) :
    img.AgreeOn (flashBytes (flashWrite chip target img) target) 0 slotSize := by
  intro i _ upper
  have room : slotSize ≤ flashRegion := by decide
  have inside : cfBase target + i < cfBase target + flashRegion := by omega
  change img i = chip.blit (cfBase target) flashRegion img (cfBase target + i)
  rw [ByteMap.blit_inside (Nat.le_add_right _ _) inside, Nat.add_sub_cancel_left]

theorem verified_spec {plan : Plan} {back : SlotBytes}
    (passed : verified plan back = true) :
    back.got = slotSize ∧ plan.img.AgreeOn back.bytes 0 slotSize := by
  unfold verified at passed
  simp only [Bool.and_eq_true, decide_eq_true_eq, List.all_eq_true,
    List.mem_range] at passed
  exact ⟨passed.1.1, fun i _ upper => passed.1.2 i (by omega)⟩

/-- The other slot of an overwritten medium holds what it held. -/
theorem overwrite_other {m : Medium} (storable : m.Storable)
    {s target : Fin nslots} (other : s ≠ target) (img : ByteMap) :
    ∃ before after, m.extended.slot s = some before ∧
      (m.overwrite target img).slot s = some after ∧ before.Same after := by
  cases m with
  | flash chip => exact ⟨_, _, rfl, rfl, flashSlot_write_other chip other img⟩
  | file node =>
      cases node with
      | absent => exact ⟨_, _, rfl, rfl, File.slot_write_other _ other img⟩
      | other => exact absurd rfl storable
      | regular f => exact ⟨_, _, rfl, rfl, File.slot_write_other _ other img⟩

theorem putSlotFile_spec {faults : Faults} {f : File} {plan : Plan}
    (put : (putSlotFile faults f plan).2 = true) :
    (putSlotFile faults f plan).1 =
        f.extended.write plan.target (faults.landed plan.img) ∧
      verified plan ((putSlotFile faults f plan).1.slot plan.target) = true := by
  unfold putSlotFile at put ⊢
  split_ifs at put ⊢
  simp only [Bool.and_eq_true] at put
  exact ⟨rfl, put.1.2⟩

/-- A write that returned 0 overwrote the target slot, and read it back. -/
theorem putSlot_spec {faults : Faults} {m : Medium} {plan : Plan}
    (put : (putSlot faults m plan).2 = true) :
    m.Storable ∧
      (putSlot faults m plan).1 =
        m.overwrite plan.target (faults.landed plan.img) ∧
      ∃ back, (putSlot faults m plan).1.slot plan.target = some back ∧
        verified plan back = true := by
  cases m with
  | flash chip =>
      simp only [putSlot, putSlotFlash, Bool.and_eq_true] at put
      exact ⟨nofun, rfl, _, rfl, put.2⟩
  | file node =>
      unfold putSlot at put ⊢
      split_ifs at put ⊢
      cases node with
      | absent =>
          obtain ⟨same, back⟩ := putSlotFile_spec put
          exact ⟨nofun, congrArg (fun f => Medium.file (.regular f)) same, _, rfl,
            back⟩
      | other => cases put
      | regular f =>
          obtain ⟨same, back⟩ := putSlotFile_spec put
          exact ⟨nofun, congrArg (fun f => Medium.file (.regular f)) same, _, rfl,
            back⟩

/-- The slots after a write that returned 0: the target holds the image, the
other what it held. -/
structure Written (m m' : Medium) (target : Fin nslots) (img : ByteMap) :
    Prop where
  image : ∃ back, m'.slot target = some back ∧ back.got = slotSize ∧
    img.AgreeOn back.bytes 0 slotSize
  others : ∀ s, s ≠ target → ∃ before after, m.extended.slot s = some before ∧
    m'.slot s = some after ∧ before.Same after

theorem written_of_putSlot {faults : Faults} {m : Medium} {plan : Plan}
    (put : (putSlot faults m plan).2 = true) :
    Written m (putSlot faults m plan).1 plan.target plan.img := by
  obtain ⟨storable, overwritten, back, held, passed⟩ := putSlot_spec put
  obtain ⟨got, same⟩ := verified_spec passed
  refine ⟨⟨back, held, got, same⟩, fun s other => ?_⟩
  rw [overwritten]
  exact overwrite_other storable other _

/-! ## A store that returned 0 -/

/-- It planned, and it wrote what it planned. -/
theorem exists_plan_of_storeRec {faults : Faults} {m : Medium} {c : Cfg}
    {fresh : Bool} (stored : (storeRec faults m c fresh).rc = none) :
    ∃ plan, Planned m c fresh plan ∧
      Written m (storeRec faults m c fresh).medium plan.target plan.img ∧
      (storeRec faults m c fresh).cfg =
        { c with seq := plan.newseq, source := plan.target + 1 } := by
  unfold storeRec at stored ⊢
  cases valid : cfgValidate c with
  | error fault =>
      rw [valid] at stored
      cases stored
  | ok done =>
      simp only [valid] at stored ⊢
      split_ifs at stored ⊢
      cases decided : storePlan c fresh (loadInfo faults m) with
      | error rc =>
          rw [decided] at stored
          cases stored
      | ok plan =>
          simp only [decided] at stored ⊢
          unfold commitPlan at stored ⊢
          split_ifs at stored ⊢ with put
          exact ⟨plan, planned_of_storePlan valid decided,
            written_of_putSlot put, rfl⟩

/-- Extending a file keeps the bytes of its slots. -/
theorem extended_slot {m : Medium} {s : Fin nslots} {slot : SlotBytes}
    (held : m.slot s = some slot) :
    ∃ slot', m.extended.slot s = some slot' ∧
      slot.bytes.AgreeOn slot'.bytes 0 slot.got ∧ slot.got ≤ slot'.got := by
  cases m with
  | flash chip =>
      cases held
      exact ⟨_, rfl, fun _ _ _ => rfl, le_rfl⟩
  | file node =>
      cases node with
      | absent => cases held
      | other => cases held
      | regular f =>
          cases held
          refine ⟨_, rfl, fun i _ upper => ?_, ?_⟩
          · have got : (f.slot s).got ≤ f.size - fileBase s := Nat.min_le_right _ _
            change f.bytes (fileBase s + i) = f.extended.bytes (fileBase s + i)
            unfold File.extended
            split_ifs
            · exact (if_pos (by omega)).symm
            · rfl
          · rw [slot_got_of_whole (fileSize_le_extended f)]
            exact Nat.min_le_left _ _

/-- A record stays selectable in an extended file. -/
theorem accepted_extended {m : Medium} {s : Fin nslots} {c : Cfg}
    (record : accepted (m.slot s) = some c) :
    accepted (m.extended.slot s) = some c := by
  cases held : m.slot s with
  | none =>
      rw [held] at record
      cases record
  | some slot =>
      rw [held] at record
      obtain ⟨slot', held', same, more⟩ := extended_slot held
      rw [held']
      exact accepted_mono record same more

/-- The image's record is in every slot that starts with the image. -/
theorem accepted_of_image {c : Cfg} {seq : Nat} {img : ByteMap}
    {back : SlotBytes} (valid : cfgValidate c = .ok ())
    (image : slotImage c seq = .ok img)
    (same : img.AgreeOn back.bytes 0 (recordLen img))
    (room : recordLen img ≤ back.got) :
    accepted (some back) = some { c with seq := seq, source := 0 } := by
  rw [accepted_some_iff]
  exact parseRecord_congr (parseRecord_slotImage valid image le_rfl) same room

/-- The other slot holds what it held, in the extended file. -/
theorem Written.accepted_other {m m' : Medium} {target s : Fin nslots}
    {img : ByteMap} (written : Written m m' target img) (other : s ≠ target) :
    accepted (m'.slot s) = accepted (m.extended.slot s) := by
  obtain ⟨before, after, held, held', same⟩ := written.others s other
  rw [held, held']
  exact accepted_congr same.1 same.2

theorem Written.accepted_target {m m' : Medium} {c : Cfg} {seq : Nat}
    {target : Fin nslots} {img : ByteMap} (valid : cfgValidate c = .ok ())
    (image : slotImage c seq = .ok img) (written : Written m m' target img) :
    accepted (m'.slot target) = some { c with seq := seq, source := 0 } := by
  obtain ⟨back, held, got, same⟩ := written.image
  have short := recordLen_slotImage_le image
  rw [held]
  exact accepted_of_image valid image (same.mono le_rfl (by omega)) (by omega)

theorem Written.there {m m' : Medium} {target : Fin nslots} {img : ByteMap}
    (written : Written m m' target img) (s : Fin nslots) :
    (m'.slot s).isSome := by
  by_cases other : s = target
  · obtain ⟨back, held, -⟩ := written.image
    rw [other, held]
    rfl
  · obtain ⟨-, after, -, held, -⟩ := written.others s other
    rw [held]
    rfl

/-! ## Which record is the newest -/

theorem accepted_of_newestOf {read : Fin nslots → Option SlotBytes}
    {s : Fin nslots} {c : Cfg} (newer : newestOf read = some (s, c)) :
    accepted (read s) = some c := by
  unfold newestOf newest at newer
  split at newer <;> rename_i first second
  · cases newer
  · cases newer
    exact first
  · cases newer
    exact second
  · split at newer
    · cases newer
      exact second
    · cases newer
      exact first

theorem newestOf_eq_none_iff (read : Fin nslots → Option SlotBytes) :
    newestOf read = none ↔ ∀ s, accepted (read s) = none := by
  rw [Fin.forall_fin_two]
  unfold newestOf
  cases accepted (read 0) <;> cases accepted (read 1) <;> simp [newest]
  split <;> simp

/-- A record that outnumbers the other slot's is the newest; a tie goes to the
first slot. -/
theorem newestOf_eq_some {read : Fin nslots → Option SlotBytes}
    {s : Fin nslots} {c : Cfg} (record : accepted (read s) = some c)
    (greater : ∀ s', s' ≠ s → ∀ c' ∈ accepted (read s'),
      c'.seq < c.seq ∨ s = 0 ∧ c'.seq = c.seq) :
    newestOf read = some (s, c) := by
  unfold newestOf
  match s with
  | 0 =>
      rw [record]
      cases second : accepted (read 1) with
      | none => rfl
      | some c₁ =>
          have less := greater 1 (by decide) c₁ second
          exact if_neg (by omega)
  | 1 =>
      rw [record]
      cases first : accepted (read 0) with
      | none => rfl
      | some c₀ =>
          rcases greater 0 (by decide) c₀ first with less | tie
          · exact if_pos less
          · exact absurd tie.1 (by decide)

section Target

variable {m : Medium} {c : Cfg} {fresh : Bool} {plan : Plan}

/-- The slot that is not written is the selected one. -/
theorem Planned.eq_selected (planned : Planned m c fresh plan)
    {s s₀ : Fin nslots} {c₀ : Cfg} (newer : newestOf m.slot = some (s₀, c₀))
    (other : s ≠ plan.target) : s = s₀ := by
  have two : ∀ s s₀ : Fin nslots, s ≠ (if s₀ = 0 then 1 else 0) → s = s₀ := by
    decide
  rw [planned.target, newer] at other
  exact two s s₀ (by simpa using other)

/-- The selected slot is not written. -/
theorem Planned.selected_ne (planned : Planned m c fresh plan)
    {s₀ : Fin nslots} {c₀ : Cfg} (newer : newestOf m.slot = some (s₀, c₀)) :
    s₀ ≠ plan.target := by
  have two : ∀ s₀ : Fin nslots, s₀ ≠ (if s₀ = 0 then 1 else 0) := by decide
  rw [planned.target, newer]
  simpa using two s₀

theorem Planned.target_of_none (planned : Planned m c fresh plan)
    (nothing : newestOf m.slot = none) : plan.target = 0 := by
  rw [planned.target, nothing]
  rfl

end Target

end RlxFw.CfgStore
