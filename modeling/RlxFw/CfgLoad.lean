import RlxFw.CfgRecord

/-!
# Loading a configuration

The two media of a store, how a slot of each is read, and `cfg_load_info`, which
selects the record with the greatest sequence number.
-/

namespace RlxFw.CfgStore

/-- `CFG_NSLOTS`. -/
abbrev nslots : Nat := 2
/-- `CFG_FILE_SIZE`. -/
def fileSize : Nat := nslots * slotSize
/-- `CFG_FLASH_REGION`. -/
def flashRegion : Nat := 0x10000

/-- `cf_base`: `CFG_FLASH_OFF0` or `CFG_FLASH_OFF1`. -/
def cfBase (s : Fin nslots) : Nat := if s = 0 then 0x3C0000 else 0x3D0000

/-- Where a slot starts in a file. -/
def fileBase (s : Fin nslots) : Nat := s * slotSize

/-- The bytes of a regular file. -/
structure File where
  bytes : ByteMap
  size : Nat

/-- What a path names: nothing, something that is no regular file, or a file. -/
inductive Node where
  | absent
  | other
  | regular (file : File)

/-- What a store is kept on, which `cfg_is_flash` tells apart. -/
inductive Medium where
  | file (node : Node)
  | flash (chip : ByteMap)

/-- The calls of a load or a store that fail.  `landed` is what the target slot
holds once it was written, whether or not the write failed. -/
structure Faults where
  openRead : Bool
  read : Fin nslots → Bool
  lock : Bool
  openWrite : Bool
  stat : Bool
  truncate : Bool
  write : Bool
  landed : ByteMap → ByteMap
  sync : Bool
  readBack : Bool
  close : Bool

/-- Nothing fails, and what is written lands. -/
def noFaults : Faults where
  openRead := false
  read := fun _ => false
  lock := false
  openWrite := false
  stat := false
  truncate := false
  write := false
  landed := id
  sync := false
  readBack := false
  close := false

/-! ## Reading a slot -/

/-- The bytes of a slot, and how many of them a read got. -/
structure SlotBytes where
  bytes : ByteMap
  got : Nat

/-- `read_at` on a slot of a file. -/
def File.slot (f : File) (s : Fin nslots) : SlotBytes where
  bytes := fun i => f.bytes (fileBase s + i)
  got := min slotSize (f.size - fileBase s)

/-- The first `n` bytes are all fill. -/
def erased (bytes : ByteMap) (n : Nat) : Bool :=
  (List.range n).all fun i => bytes i = fill

/-- The bytes that `cfg_flash_read_slot` reads. -/
def flashBytes (chip : ByteMap) (s : Fin nslots) : ByteMap :=
  fun i => chip (cfBase s + i)

/-- `cfg_flash_read_slot`: an erased slot reads as nothing. -/
def flashSlot (chip : ByteMap) (s : Fin nslots) : SlotBytes where
  bytes := flashBytes chip s
  got := if erased (flashBytes chip s) slotSize then 0 else slotSize

/-! ## The loader -/

/-- `struct cfg_store_info`. -/
structure StoreInfo where
  fileBytes : Nat
  rc : Fin nslots → Option Err
  seq : Fin nslots → Nat
  selected : Option (Fin nslots)

/-- What the loop of `cfg_load_info` has so far. -/
structure Scan where
  rc : Option Err
  best : Nat
  out : Cfg
  info : StoreInfo

/-- Before the first slot. -/
def scanInit : Scan where
  rc := none
  best := 0
  out := cfgDefaults
  info :=
    { fileBytes := 0
      rc := fun _ => some .short
      seq := fun _ => 0
      selected := none }

/-- A slot's verdict in `info`. -/
def Scan.setRc (scan : Scan) (s : Fin nslots) (rc : Option Err) : Scan :=
  { scan with info.rc := Function.update scan.info.rc s rc }

/-- A record that parsed: noted, and selected when its number is greater. -/
def Scan.accept (scan : Scan) (s : Fin nslots) (tmp : Cfg) : Scan :=
  let noted := { scan.setRc s none with
    info.seq := Function.update scan.info.seq s tmp.seq }
  if tmp.seq > scan.best then
    { noted with
      best := tmp.seq
      out := { tmp with source := s + 1 }
      info.selected := some s }
  else noted

/-- One turn of the loop; `none` is a read that failed. -/
def Scan.slot (scan : Scan) (s : Fin nslots) : Option SlotBytes → Scan
  | none => { scan.setRc s (some .io) with rc := some .io }
  | some slot =>
      let counted := { scan with
        info.fileBytes := scan.info.fileBytes + slot.got }
      if slot.got = 0 then counted.setRc s (some .short)
      else
        match parseRecord slot.bytes slot.got with
        | .error fault => counted.setRc s (some fault.rc)
        | .ok tmp => counted.accept s tmp

/-- Both turns. -/
def scanSlots (read : Fin nslots → Option SlotBytes) : Scan :=
  (List.finRange nslots).foldl (fun scan s => scan.slot s (read s)) scanInit

/-- What `cfg_load_info` hands back. -/
structure Loaded where
  rc : Option Err
  out : Cfg
  info : StoreInfo

/-- `cfg_load_info` from the loop on. -/
def loadSlots (read : Fin nslots → Option SlotBytes) : Loaded :=
  let scan := scanSlots read
  { rc := scan.rc
    out := if scan.info.selected = none ∧ scan.rc = none then cfgDefaults
      else scan.out
    info := scan.info }

/-- `cfg_load_info` before it has read a slot. -/
def loadNothing (rc : Option Err) : Loaded :=
  { rc := rc, out := cfgDefaults, info := scanInit.info }

/-- `cfg_load_info`, and `cfg_load` by its `rc` and `out`. -/
def loadInfo (faults : Faults) : Medium → Loaded
  | .flash chip =>
      loadSlots fun s => if faults.read s then none else some (flashSlot chip s)
  | .file node =>
      if faults.openRead then loadNothing (some .io)
      else
        match node with
        | .absent => loadNothing none
        | .other => loadNothing (some .io)
        | .regular f =>
            loadSlots fun s => if faults.read s then none else some (f.slot s)

/-! ## What is selected -/

/-- The record of a slot, when the slot was read and holds one. -/
def accepted : Option SlotBytes → Option Cfg
  | none => none
  | some slot =>
      if slot.got = 0 then none else (parseRecord slot.bytes slot.got).toOption

/-- The newer of two slots' records, the first on a tie. -/
def newest : Option Cfg → Option Cfg → Option (Fin nslots × Cfg)
  | none, none => none
  | some c, none => some (0, c)
  | none, some c => some (1, c)
  | some c₀, some c₁ => if c₁.seq > c₀.seq then some (1, c₁) else some (0, c₀)

/-- A selected record as the loader returns it. -/
def asLoaded (s : Fin nslots) (c : Cfg) : Cfg := { c with source := s + 1 }

theorem accepted_seq {slot : Option SlotBytes} {c : Cfg}
    (holds : accepted slot = some c) : seqMin ≤ c.seq ∧ c.seq ≤ seqMax := by
  cases slot with
  | none => cases holds
  | some slot =>
      unfold accepted at holds
      simp only at holds
      split at holds
      · cases holds
      · cases parsed : parseRecord slot.bytes slot.got with
        | error fault => simp [parsed, Except.toOption] at holds
        | ok tmp =>
            simp only [parsed, Except.toOption, Option.some.injEq] at holds
            exact holds ▸ parseRecord_seq parsed

theorem accepted_isSome {slot : Option SlotBytes} {c : Cfg}
    (holds : accepted slot = some c) : slot.isSome := by
  cases slot with
  | none => cases holds
  | some slot => rfl

/-- A slot that holds no record leaves its verdict and no more. -/
theorem Scan.slot_of_rejected (scan : Scan) (s : Fin nslots)
    {slot : Option SlotBytes} (rejected : accepted slot = none) :
    ∃ rc ret bytes,
      scan.slot s slot =
        { scan with
          rc := ret
          info.fileBytes := bytes
          info.rc := Function.update scan.info.rc s (some rc) } ∧
      (ret = none ↔ scan.rc = none ∧ slot.isSome) := by
  cases slot with
  | none => exact ⟨.io, some .io, scan.info.fileBytes, rfl, by simp⟩
  | some slot =>
      unfold accepted at rejected
      simp only at rejected
      by_cases empty : slot.got = 0
      · refine ⟨.short, scan.rc, scan.info.fileBytes + slot.got, ?_, by simp⟩
        simp [Scan.slot, Scan.setRc, empty]
      · rw [if_neg empty] at rejected
        cases parsed : parseRecord slot.bytes slot.got with
        | ok tmp => simp [parsed, Except.toOption] at rejected
        | error fault =>
            refine ⟨fault.rc, scan.rc, scan.info.fileBytes + slot.got, ?_,
              by simp⟩
            simp [Scan.slot, Scan.setRc, empty, parsed]

/-- A slot that holds a record is counted and offered. -/
theorem Scan.slot_of_accepted (scan : Scan) (s : Fin nslots)
    {slot : Option SlotBytes} {c : Cfg} (holds : accepted slot = some c) :
    ∃ bytes, scan.slot s slot =
      { scan with info.fileBytes := bytes }.accept s c := by
  cases slot with
  | none => cases holds
  | some slot =>
      refine ⟨scan.info.fileBytes + slot.got, ?_⟩
      unfold accepted at holds
      simp only at holds
      by_cases empty : slot.got = 0
      · rw [if_pos empty] at holds
        cases holds
      · rw [if_neg empty] at holds
        cases parsed : parseRecord slot.bytes slot.got with
        | error fault => simp [parsed, Except.toOption] at holds
        | ok tmp =>
            simp only [parsed, Except.toOption, Option.some.injEq] at holds
            subst holds
            simp [Scan.slot, empty, parsed]

section Turn

variable (scan : Scan) (s : Fin nslots) (slot : Option SlotBytes)

theorem Scan.slot_rc :
    (scan.slot s slot).rc = none ↔ scan.rc = none ∧ slot.isSome := by
  cases record : accepted slot with
  | none =>
      obtain ⟨rc, ret, bytes, turn, fine⟩ := scan.slot_of_rejected s record
      rw [turn]
      exact fine
  | some c =>
      obtain ⟨bytes, turn⟩ := scan.slot_of_accepted s record
      rw [turn]
      have got := accepted_isSome record
      unfold Scan.accept
      split <;> simp [Scan.setRc, got]

/-- A slot's verdict is good when the slot holds a record. -/
theorem Scan.slot_infoRc :
    (scan.slot s slot).info.rc s = none ↔ (accepted slot).isSome := by
  cases record : accepted slot with
  | none =>
      obtain ⟨rc, ret, bytes, turn, -⟩ := scan.slot_of_rejected s record
      simp [turn]
  | some c =>
      obtain ⟨bytes, turn⟩ := scan.slot_of_accepted s record
      rw [turn]
      unfold Scan.accept
      split <;> simp [Scan.setRc]

theorem Scan.slot_infoSeq {c : Cfg} (record : accepted slot = some c) :
    (scan.slot s slot).info.seq s = c.seq := by
  obtain ⟨bytes, turn⟩ := scan.slot_of_accepted s record
  rw [turn]
  unfold Scan.accept
  split <;> simp

/-- The other slot's verdict and number are left alone. -/
theorem Scan.slot_other {s' : Fin nslots} (other : s' ≠ s) :
    (scan.slot s slot).info.rc s' = scan.info.rc s' ∧
      (scan.slot s slot).info.seq s' = scan.info.seq s' := by
  cases record : accepted slot with
  | none =>
      obtain ⟨rc, ret, bytes, turn, -⟩ := scan.slot_of_rejected s record
      simp [turn, other]
  | some c =>
      obtain ⟨bytes, turn⟩ := scan.slot_of_accepted s record
      rw [turn]
      unfold Scan.accept
      split <;> simp [Scan.setRc, other]

/-- The part of a scan that the selection is made on. -/
def Scan.choice : Nat × Cfg × Option (Fin nslots) :=
  (scan.best, scan.out, scan.info.selected)

/-- A record replaces the choice when its number is greater. -/
def offer (s : Fin nslots) (before : Nat × Cfg × Option (Fin nslots)) :
    Option Cfg → Nat × Cfg × Option (Fin nslots)
  | none => before
  | some c => if c.seq > before.1 then (c.seq, asLoaded s c, some s) else before

theorem Scan.slot_choice :
    (scan.slot s slot).choice = offer s scan.choice (accepted slot) := by
  cases record : accepted slot with
  | none =>
      obtain ⟨rc, ret, bytes, turn, -⟩ := scan.slot_of_rejected s record
      rw [turn]
      rfl
  | some c =>
      obtain ⟨bytes, turn⟩ := scan.slot_of_accepted s record
      rw [turn]
      unfold Scan.accept offer Scan.choice
      simp only
      split <;> rfl

end Turn

/-- The records of two slots, the newer one chosen. -/
abbrev newestOf (read : Fin nslots → Option SlotBytes) :
    Option (Fin nslots × Cfg) :=
  newest (accepted (read 0)) (accepted (read 1))

/-- Offering both slots' records chooses the newer. -/
theorem offer_both (read : Fin nslots → Option SlotBytes) :
    (offer 1 (offer 0 scanInit.choice (accepted (read 0)))
        (accepted (read 1))).2 =
      ((newestOf read).elim cfgDefaults fun p => asLoaded p.1 p.2,
        (newestOf read).map Prod.fst) := by
  unfold newestOf
  cases first : accepted (read 0) with
  | none =>
      cases second : accepted (read 1) with
      | none => rfl
      | some c₁ =>
          have number : 0 < c₁.seq := (accepted_seq second).1
          simp [offer, newest, Scan.choice, scanInit, number]
  | some c₀ =>
      have number : 0 < c₀.seq := (accepted_seq first).1
      cases second : accepted (read 1) with
      | none => simp [offer, newest, Scan.choice, scanInit, number]
      | some c₁ =>
          by_cases later : c₀.seq < c₁.seq <;>
            simp [offer, newest, Scan.choice, scanInit, number, later]

/-- What the loader hands back, in terms of the records that the slots hold. -/
structure Selects (read : Fin nslots → Option SlotBytes) (loaded : Loaded) :
    Prop where
  out : loaded.out = (newestOf read).elim cfgDefaults fun p => asLoaded p.1 p.2
  selected : loaded.info.selected = (newestOf read).map Prod.fst
  slotRc : ∀ s, loaded.info.rc s = none ↔ (accepted (read s)).isSome
  slotSeq : ∀ s, ∀ c ∈ accepted (read s), loaded.info.seq s = c.seq

theorem scanSlots_eq (read : Fin nslots → Option SlotBytes) :
    scanSlots read = (scanInit.slot 0 (read 0)).slot 1 (read 1) := rfl

theorem loadSlots_rc (read : Fin nslots → Option SlotBytes) :
    (loadSlots read).rc = none ↔ ∀ s, (read s).isSome := by
  unfold loadSlots
  rw [Fin.forall_fin_two, scanSlots_eq, Scan.slot_rc, Scan.slot_rc]
  simp [scanInit]

theorem loadSlots_selects (read : Fin nslots → Option SlotBytes) :
    Selects read (loadSlots read) := by
  have chosen := offer_both read
  rw [← Scan.slot_choice, ← Scan.slot_choice, ← scanSlots_eq] at chosen
  obtain ⟨out, selected⟩ := Prod.ext_iff.mp chosen
  unfold loadSlots
  refine ⟨?_, selected, ?_, ?_⟩
  · -- With nothing selected the choice is still the defaults.
    simp only
    split
    · rename_i nothing
      have absent : newestOf read = none :=
        Option.map_eq_none_iff.mp (selected.symm.trans nothing.1)
      rw [absent]
      rfl
    · exact out
  · rw [Fin.forall_fin_two, scanSlots_eq]
    exact ⟨by rw [(Scan.slot_other _ _ _ (by decide)).1, Scan.slot_infoRc],
      Scan.slot_infoRc _ _ _⟩
  · rw [Fin.forall_fin_two, scanSlots_eq]
    exact ⟨fun c record => by
      rw [(Scan.slot_other _ _ _ (by decide)).2, Scan.slot_infoSeq _ _ _ record],
      fun c record => Scan.slot_infoSeq _ _ _ record⟩

/-! ## Loading a medium -/

/-- The slots of a medium, as reads that succeed get them. -/
def Medium.slot : Medium → Fin nslots → Option SlotBytes
  | .flash chip, s => some (flashSlot chip s)
  | .file (.regular f), s => some (f.slot s)
  | .file _, _ => none

/-- Nothing was read, and nothing is there. -/
theorem loadNothing_selects (rc : Option Err) :
    Selects (fun _ => none) (loadNothing rc) := by
  refine ⟨rfl, rfl, fun s => ?_, fun s c record => ?_⟩
  · simp [loadNothing, scanInit, accepted]
  · cases record

/-- Where no read failed, the selection is among the slots themselves. -/
theorem selects_of_rc {slots : Fin nslots → SlotBytes}
    {failed : Fin nslots → Bool}
    (fine : (loadSlots fun s =>
      if failed s then none else some (slots s)).rc = none) :
    Selects (fun s => some (slots s))
      (loadSlots fun s => if failed s then none else some (slots s)) := by
  have all : (fun s => if failed s then none else some (slots s)) =
      fun s => some (slots s) := by
    funext s
    have got := (loadSlots_rc _).mp fine s
    cases fails : failed s with
    | false => rfl
    | true =>
        rw [fails] at got
        cases got
  rw [all]
  exact loadSlots_selects _

/-- A load that ends well selects among the slots of its medium. -/
theorem loadInfo_selects {faults : Faults} {m : Medium}
    (fine : (loadInfo faults m).rc = none) :
    Selects m.slot (loadInfo faults m) := by
  cases m with
  | flash chip => exact selects_of_rc fine
  | file node =>
      unfold loadInfo at fine ⊢
      cases closed : faults.openRead with
      | true =>
          rw [closed] at fine
          cases fine
      | false =>
          rw [closed] at fine
          cases node with
          | absent => exact loadNothing_selects none
          | other => cases fine
          | regular f => exact selects_of_rc fine

theorem loadInfo_noFaults {m : Medium} (there : ∀ s, (m.slot s).isSome) :
    (loadInfo noFaults m).rc = none := by
  cases m with
  | flash chip => exact (loadSlots_rc _).mpr there
  | file node =>
      cases node with
      | absent => cases there 0
      | other => cases there 0
      | regular f => exact (loadSlots_rc _).mpr there

/-! ## The same record in other bytes -/

theorem accepted_some_iff (slot : SlotBytes) (c : Cfg) :
    accepted (some slot) = some c ↔ parseRecord slot.bytes slot.got = .ok c := by
  unfold accepted
  simp only
  by_cases empty : slot.got = 0
  · rw [if_pos empty, empty]
    exact ⟨nofun, fun parsed => by cases parsed⟩
  · rw [if_neg empty]
    cases parseRecord slot.bytes slot.got <;> simp [Except.toOption]

/-- A record stays where its bytes stay, however many follow them. -/
theorem accepted_mono {slot slot' : SlotBytes} {c : Cfg}
    (record : accepted (some slot) = some c)
    (same : slot.bytes.AgreeOn slot'.bytes 0 slot.got)
    (more : slot.got ≤ slot'.got) : accepted (some slot') = some c := by
  rw [accepted_some_iff] at record ⊢
  have room := ((parseRecord_eq_ok_iff _ _ _).mp record).1
  exact parseRecord_congr record (same.mono le_rfl (by omega)) (by omega)

theorem accepted_congr {slot slot' : SlotBytes}
    (same : slot.bytes.AgreeOn slot'.bytes 0 slot.got)
    (length : slot'.got = slot.got) :
    accepted (some slot') = accepted (some slot) := by
  ext c
  constructor
  · intro record
    exact accepted_mono record (length ▸ same.symm) (by omega)
  · intro record
    exact accepted_mono record same (by omega)

end RlxFw.CfgStore
