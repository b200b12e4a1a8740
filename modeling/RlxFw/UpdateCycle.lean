import RlxFw.CfgStore
import RlxFw.CounterAdvance
import RlxFw.InstallOrder
import RlxFw.UpdateBoots
import Mathlib.Logic.Relation

/-!
# A router that always boots

Updates, counter advances, configuration writes and power cycles, in any order and
cut anywhere.  What runs is a slot that rlxboot verified; an install goes to the
other slot, and an advance goes no further than the version that runs.
-/

namespace RlxFw.NorFlash

/-- A byte that no operation's range holds is kept by a run stopped anywhere. -/
theorem StoppedIn.outside {blockSize : Nat} {ops : List Op} {count : Nat}
    {flash now : ByteMap} (stopped : StoppedIn blockSize ops count flash now)
    {offset : Nat} (outside : ∀ op ∈ ops, offset ∉ op.range blockSize) :
    now offset = flash offset := by
  have before : run blockSize (ops.take count) flash offset = flash offset :=
    run_outside fun op member => outside op (List.mem_of_mem_take member)
  unfold StoppedIn at stopped
  cases next : ops[count]? with
  | none =>
      rw [next] at stopped
      rw [stopped, before]
  | some op =>
      rw [next] at stopped
      have kept : op.apply blockSize (run blockSize (ops.take count) flash) offset =
          run blockSize (ops.take count) flash offset :=
        Op.apply_outside (outside op (List.mem_of_getElem? next))
      rw [stopped.eq_of_apply_eq kept, before]

end RlxFw.NorFlash

namespace RlxFw.Broker

open Container (Accepted SignatureCheck bodyOff)
open Counter (ctrBytes)
open NorFlash (StoppedIn run)
open Slots (select slotEnv mainEnv)

/-! ## The flash and what runs -/

/-- A slot's range of the flash. -/
def SlotName.range (name : SlotName) : Set Nat :=
  Set.Ico name.base (name.base + Slots.slotSize)

/-- The counter's range of the flash. -/
def ctrRange : Set Nat := Set.Ico Slots.ctrFlash (Slots.ctrFlash + ctrBytes)

/-- The install header's region of a slot. -/
def SlotName.region : SlotName → Install.Region
  | .A => Install.slotaRegion
  | .B => Install.slotbRegion

/-- The counter that a flash holds. -/
@[irreducible]
def flashCounter (flash : ByteMap) : Nat :=
  (Counter.rlxuCounterFromBitmap (flash.slice Slots.ctrFlash ctrBytes)).1

/-- The flash, and the slot and the version that the handoff of this boot names. -/
structure Router where
  flash : ByteMap
  slot : SlotName
  version : Nat

/-- What END reads is this router's: the handoff, the counter and the slots. -/
structure Router.Reads (r : Router) (w : EndWorld) : Prop where
  handoff : updHandoff w.boot = some (r.slot, r.version)
  bitmap : ∀ bitmap, w.bitmap = some bitmap →
    ∀ i < ctrBytes, r.flash (Slots.ctrFlash + i) = bitmap i
  slots : ∀ name snapshot, w.slot name = some snapshot → KeepsSlot r.flash name snapshot

/-- An install that END's OK led to: the upload, for the slot that does not run. -/
structure Router.Install (ed25519 : SignatureCheck) (pk : List UInt8) (r : Router)
    (t : Install.Task) (dest : SlotName) (version : Nat) : Prop where
  answered : ∃ w rq uid bk, r.Reads w ∧
    (bkUpdEnd ed25519 pk w rq uid bk).2.status = .ok ∧
    (bkUpdEnd ed25519 pk w rq uid bk).1.upd = bk.upd.verifiedAs dest version ∧
    bk.upd.buf = some t.image ∧ bk.upd.total = t.len
  region : t.rg = dest.region

section Cycle

variable (ed25519 : SignatureCheck) (pk : List UInt8) (selfEnd : Nat)

/-- What `rlxb_select` finds in a flash. -/
abbrev bootOf (flash ram : ByteMap) : Slots.Selection :=
  select ed25519 flash Slots.slotA Slots.slotB (mainEnv selfEnd flash pk) ram

/-- What can happen to a router.  Power may fail in every write. -/
inductive Router.Step : Router → Router → Prop
  /-- An install, stopped anywhere or run to its end. -/
  | install {r : Router} {t : Install.Task} {dest : SlotName} {version count : Nat}
      {now : ByteMap} (accepted : r.Install ed25519 pk t dest version)
      (stopped : StoppedIn t.opcode (Install.effects t.plan t.image) count r.flash now) :
      Router.Step r { r with flash := now }
  /-- An advance of the counter to the version that runs. -/
  | advance {r : Router} {nops count : Nat} {now : ByteMap}
      (inRange : r.version ≤ Install.ctrBits)
      (checked : Install.ctrCheck (Install.bitmapOf r.flash) r.version = .ok nops)
      (stopped : StoppedIn WrPolicy.eraseGrain
        (Install.ctrPlan (Install.bitmapOf r.flash) r.version) count r.flash now) :
      Router.Step r { r with flash := now }
  /-- A write elsewhere. -/
  | elsewhere {r : Router} {now : ByteMap}
      (slots : ∀ name, ∀ i ∈ SlotName.range name, now i = r.flash i)
      (counter : ∀ i ∈ ctrRange, now i = r.flash i) :
      Router.Step r { r with flash := now }
  /-- A power cycle, into the slot that rlxboot selects. -/
  | boot {r : Router} {ram : ByteMap} {name : SlotName}
      (winner : (bootOf ed25519 pk selfEnd r.flash ram).winner = some name.pick) :
      Router.Step r
        { flash := r.flash, slot := name
          version :=
            ((bootOf ed25519 pk selfEnd r.flash ram).verdict name.pick).r.version }

/-- The slot that runs is one that rlxboot accepts, at the counter that stands. -/
structure Router.Runs (r : Router) : Prop where
  accepted : Accepted ed25519 (Slots.image r.slot.slot r.flash) Slots.slotSize
    (slotEnv r.slot.slot (mainEnv selfEnd r.flash pk))
  version_eq : Container.version (Slots.image r.slot.slot r.flash) = r.version

/-! ## What rlxboot makes of it -/

variable {ed25519 pk selfEnd} {r r' : Router}

/-- A counter no higher than the container's version accepts it as well. -/
theorem accepted_at_counter {c : ByteMap} {avail : Nat} {e : Container.Env}
    (accepted : Accepted ed25519 c avail e) (ctr : Nat) (low : ctr ≤ Container.version c) :
    Accepted ed25519 c avail { e with counter := ctr } := by
  obtain ⟨wellFormed, staged, lands, loads, authentic⟩ := accepted
  exact
    { wellFormed
      staged
      lands := ⟨lands.licensed, lands.declared⟩
      loads :=
        ⟨loads.noWrap, loads.inRam, loads.aligned, loads.entry_mem, loads.entry_aligned,
          loads.apart_self, loads.apart_staging, loads.apart_loader⟩
      authentic := ⟨authentic.signature, authentic.digest, low⟩ }

theorem slot_size (name : SlotName) : name.slot.size = Slots.slotSize := by
  cases name <;> rfl

/-- A slot verifies exactly when rlxboot's environment accepts what it holds. -/
theorem bootOf_verdict_iff (flash ram : ByteMap) (name : SlotName) :
    ((bootOf ed25519 pk selfEnd flash ram).verdict name.pick).r.reason = .ok ↔
      Accepted ed25519 (Slots.image name.slot flash) Slots.slotSize
        (slotEnv name.slot (mainEnv selfEnd flash pk)) := by
  obtain ⟨before, same⟩ :=
    select_verdict_eq ed25519 flash ram (mainEnv selfEnd flash pk) name
  rw [same, Slots.slotRun_ok_iff ed25519 flash name.slot _ before name.slot_holdsHeader
    name.slot_wordSized, slot_size]

theorem bootOf_version {flash ram : ByteMap} {name : SlotName}
    (verified : ((bootOf ed25519 pk selfEnd flash ram).verdict name.pick).r.reason = .ok) :
    ((bootOf ed25519 pk selfEnd flash ram).verdict name.pick).r.version =
      Container.version (Slots.image name.slot flash) := by
  obtain ⟨before, same⟩ :=
    select_verdict_eq ed25519 flash ram (mainEnv selfEnd flash pk) name
  rw [same] at verified ⊢
  exact (Slots.slotRun_record_of_ok name.slot_holdsHeader name.slot_wordSized verified).1

/-- A router that runs a slot finds one to boot, and it verifies. -/
theorem Router.Runs.boots (runs : r.Runs ed25519 pk selfEnd) (ram : ByteMap) :
    ∃ name : SlotName, (bootOf ed25519 pk selfEnd r.flash ram).winner = some name.pick ∧
      ((bootOf ed25519 pk selfEnd r.flash ram).verdict name.pick).r.reason = .ok := by
  have verified := (bootOf_verdict_iff r.flash ram r.slot).mpr runs.accepted
  have chosen := select_winner ed25519 r.flash ram (mainEnv selfEnd r.flash pk) r.slot
  by_cases beats : (bootOf ed25519 pk selfEnd r.flash ram).winner = some r.slot.pick
  · exact ⟨r.slot, beats, verified⟩
  · refine ⟨r.slot.other, ?_⟩
    rw [chosen, SlotName.choose_eq_pick_iff, not_and] at beats
    obtain ⟨other, loses⟩ := Classical.not_imp.mp (beats verified)
    refine ⟨?_, other⟩
    have twice : r.slot.other.other = r.slot := by cases r.slot <;> rfl
    rw [select_winner ed25519 r.flash ram (mainEnv selfEnd r.flash pk) r.slot.other,
      SlotName.choose_eq_pick_iff, twice]
    refine ⟨other, fun _ => ?_⟩
    generalize ((bootOf ed25519 pk selfEnd r.flash ram).verdict r.slot.pick).r.version = v at *
    cases slot : r.slot with
    | A =>
        rw [slot] at loses
        simp only [SlotName.Beats, SlotName.other, not_le] at loses ⊢
        exact loses
    | B =>
        rw [slot] at loses
        simp only [SlotName.Beats, SlotName.other, not_lt] at loses ⊢
        exact loses

/-! ## What a write leaves -/

theorem flashCounter_congr {flash now : ByteMap}
    (same : ∀ i ∈ ctrRange, now i = flash i) : flashCounter now = flashCounter flash := by
  have bits : now.slice Slots.ctrFlash ctrBytes = flash.slice Slots.ctrFlash ctrBytes := by
    rw [ByteMap.slice_eq_slice_iff]
    intro i small
    exact same _ ⟨Nat.le_add_right _ _, Nat.add_lt_add_left small _⟩
  unfold flashCounter
  rw [bits]

theorem slotEnv_counter (s : Slots.Slot) (flash now : ByteMap) :
    slotEnv s (mainEnv selfEnd now pk) =
      { slotEnv s (mainEnv selfEnd flash pk) with counter := flashCounter now } := by
  unfold slotEnv mainEnv flashCounter
  generalize (Counter.rlxuCounterFromBitmap (now.slice Slots.ctrFlash ctrBytes)).1 = ctr
  rfl

/-- What keeps the slot that runs, and a counter no higher than its version, keeps it
running. -/
theorem Router.Runs.kept (runs : r.Runs ed25519 pk selfEnd) {now : ByteMap}
    (slot : ∀ i ∈ r.slot.range, now i = r.flash i) (low : flashCounter now ≤ r.version) :
    Router.Runs ed25519 pk selfEnd { r with flash := now } := by
  obtain ⟨accepted, versionEq⟩ := runs
  have present : bodyOff + Container.payloadLen (Slots.image r.slot.slot r.flash) ≤
      Slots.slotSize := accepted.wellFormed.present
  have agree : ByteMap.AgreeOn (Slots.image r.slot.slot r.flash)
      (Slots.image r.slot.slot now) 0 Slots.slotSize := by
    intro i _ inside
    rw [image_slot, image_slot]
    exact (slot _ ⟨Nat.le_add_right _ _, by omega⟩).symm
  have sameVersion := (Container.fields_congr (agree.mono le_rfl (by decide))).1
  have held := accepted.congr (agree.mono le_rfl (by omega)) present
  have low' : flashCounter now ≤ Container.version (Slots.image r.slot.slot now) := by
    rw [sameVersion, versionEq]
    exact low
  refine ⟨?_, sameVersion.trans versionEq⟩
  rw [slotEnv_counter r.slot.slot r.flash now]
  exact accepted_at_counter held _ low'

/-- What runs is no older than the counter. -/
theorem Router.Runs.current (runs : r.Runs ed25519 pk selfEnd) :
    flashCounter r.flash ≤ r.version := by
  have current := runs.accepted.authentic.current
  rw [runs.version_eq, slotEnv_counter r.slot.slot r.flash r.flash] at current
  dsimp only at current
  exact current

theorem region_base (name : SlotName) : name.region.base = name.base := by
  cases name <;> rfl

theorem region_size (name : SlotName) : name.region.size = Slots.slotSize := by
  cases name <;> rfl

/-- A slot lies apart from the other one and from the counter. -/
theorem range_apart (name : SlotName) {i : Nat} (inside : i ∈ name.range) :
    i ∉ name.other.range ∧ i ∉ ctrRange := by
  unfold SlotName.range ctrRange at *
  simp only [Set.mem_Ico, not_and, not_lt] at *
  cases name with
  | A =>
      simp only [SlotName.base, SlotName.other, Slots.slotAFlash, Slots.slotBFlash,
        Slots.slotSize, Slots.ctrFlash] at *
      omega
  | B =>
      simp only [SlotName.base, SlotName.other, Slots.slotAFlash, Slots.slotBFlash,
        Slots.slotSize, Slots.ctrFlash] at *
      omega

/-- An install reaches no byte outside its slot. -/
theorem install_outside {t : Install.Task} {dest : SlotName} (region : t.rg = dest.region)
    {count : Nat} {flash now : ByteMap}
    (stopped : StoppedIn t.opcode (Install.effects t.plan t.image) count flash now)
    {i : Nat} (outside : i ∉ dest.range) : now i = flash i := by
  apply stopped.outside
  intro op member inside
  obtain ⟨index, within, rfl⟩ := List.mem_map.mp member
  have reached := t.effect_range_subset (List.mem_range.mp within) inside
  rw [region, region_base, region_size] at reached
  exact outside reached

/-- An advance reaches no byte outside the counter. -/
theorem advance_outside {n : Nat} (inRange : n ≤ Install.ctrBits) {count : Nat}
    {flash now : ByteMap}
    (stopped : StoppedIn WrPolicy.eraseGrain
      (Install.ctrPlan (Install.bitmapOf flash) n) count flash now)
    {i : Nat} (outside : i ∉ ctrRange) : now i = flash i := by
  apply stopped.outside
  intro op member inside
  obtain ⟨b, walked, rfl⟩ := List.mem_map.mp member
  have below := Install.ctrWalk_lt walked
  have lower : Install.stateBase + b / 8 ≤ i := inside.1
  have upper : i < Install.stateBase + b / 8 + 1 := inside.2
  unfold Install.ctrBits at inRange
  exact outside ⟨by unfold Slots.ctrFlash; unfold Install.stateBase at lower; omega,
    by unfold Slots.ctrFlash ctrBytes; unfold Install.stateBase at upper; omega⟩

/-- The counter after an advance stopped anywhere. -/
theorem advance_counter {n nops count : Nat} (inRange : n ≤ Install.ctrBits)
    {flash now : ByteMap}
    (checked : Install.ctrCheck (Install.bitmapOf flash) n = .ok nops)
    (stopped : StoppedIn WrPolicy.eraseGrain
      (Install.ctrPlan (Install.bitmapOf flash) n) count flash now) :
    flashCounter flash ≤ flashCounter now ∧ flashCounter now ≤ n := by
  have zeros (chip : ByteMap) : flashCounter chip = Install.zeros (Install.bitmapOf chip) := by
    have bits : (Install.bitmapOf chip).slice 0 ctrBytes =
        chip.slice Slots.ctrFlash ctrBytes := by
      rw [ByteMap.slice_eq_slice_iff]
      intro i _
      rw [Nat.zero_add]
      rfl
    rw [← Install.ctrDecode_fst, Install.ctrDecode]
    unfold flashCounter
    rw [← bits]
    rfl
  obtain ⟨_, above, -⟩ := Install.ctrCheck_ok checked
  have advancing := Install.Advancing.of_stoppedIn stopped
  rw [zeros, zeros]
  exact ⟨Install.zeros_le_zeros advancing, Install.zeros_le inRange above advancing⟩

/-! ## A step -/

/-- The destination is the slot that the handoff does not name. -/
theorem endVerdict_dest {w : EndWorld} {u : Upd} {total : Nat} {dest run : SlotName}
    {version ver : Nat} {upload : ByteMap} (handoff : updHandoff w.boot = some (run, ver))
    (held : u.buf = some upload)
    (verdict : endVerdict ed25519 pk w u total = .ok (dest, version)) : dest = run.other := by
  unfold endVerdict at verdict
  rw [held, handoff] at verdict
  split_ifs at verdict
  obtain ⟨ctr, -, rest⟩ := CfgStore.bind_eq_ok_iff.mp verdict
  obtain ⟨running, -, rest⟩ := CfgStore.bind_eq_ok_iff.mp rest
  obtain ⟨number, -, last⟩ := CfgStore.bind_eq_ok_iff.mp rest
  exact (congrArg Prod.fst (Except.ok.inj last)).symm

/-- What END accepted goes to the slot that does not run. -/
theorem Router.Install.dest_eq {t : Install.Task} {dest : SlotName} {version : Nat}
    (accepted : r.Install ed25519 pk t dest version) : dest = r.slot.other := by
  obtain ⟨w, rq, uid, bk, reads, answered, after, -⟩ := accepted.answered
  obtain ⟨-, -, dest', version', verdict, after', -⟩ := bkUpdEnd_ok ed25519 pk answered
  obtain ⟨-, -, -, _, held⟩ := endVerdict_ok ed25519 pk verdict
  have same : dest = dest' := by
    have both := congrArg Upd.dest (after.symm.trans after')
    exact Option.some.inj both
  have isOther : dest' = r.slot.other := endVerdict_dest reads.handoff held verdict
  exact same.trans isOther

/-- A step keeps a verified slot running, and takes nothing from the counter. -/
theorem Router.Step.keeps (step : Router.Step ed25519 pk selfEnd r r')
    (runs : r.Runs ed25519 pk selfEnd) :
    r'.Runs ed25519 pk selfEnd ∧ flashCounter r.flash ≤ flashCounter r'.flash := by
  cases step with
  | @install t dest version count now accepted stopped =>
      have isOther := accepted.dest_eq
      have kept {i : Nat} (outside : i ∉ dest.range) : now i = r.flash i :=
        install_outside accepted.region stopped outside
      have counter : flashCounter now = flashCounter r.flash :=
        flashCounter_congr fun i inside => kept fun slot => (range_apart dest slot).2 inside
      refine ⟨runs.kept (fun i inside => kept ?_) (counter.le.trans runs.current), counter.ge⟩
      rw [isOther]
      exact (range_apart r.slot inside).1
  | advance inRange checked stopped =>
      obtain ⟨grows, low⟩ := advance_counter inRange checked stopped
      refine ⟨runs.kept (fun i inside => ?_) low, grows⟩
      exact advance_outside inRange stopped (range_apart r.slot inside).2
  | elsewhere slots counter =>
      have same := flashCounter_congr counter
      exact ⟨runs.kept (slots r.slot) (same.le.trans runs.current), same.ge⟩
  | @boot ram name winner =>
      have verified := ((SlotName.choose_eq_pick_iff name _ _).mp
        ((select_winner ed25519 r.flash ram (mainEnv selfEnd r.flash pk) name).symm.trans
          winner)).1
      exact ⟨⟨(bootOf_verdict_iff r.flash ram name).mp verified,
        (bootOf_version verified).symm⟩, le_rfl⟩

theorem runs_of_cycle (runs : r.Runs ed25519 pk selfEnd)
    (cycle : Relation.ReflTransGen (Router.Step ed25519 pk selfEnd) r r') :
    r'.Runs ed25519 pk selfEnd ∧ flashCounter r.flash ≤ flashCounter r'.flash := by
  induction cycle with
  | refl => exact ⟨runs, le_rfl⟩
  | tail _ step ih =>
      obtain ⟨kept, grows⟩ := step.keeps ih.1
      exact ⟨kept, ih.2.trans grows⟩

/-! ## A configuration write -/

theorem cfBase_apart (name : SlotName) (s : Fin CfgStore.nslots) {i : Nat}
    (inside : i ∈ name.range ∨ i ∈ ctrRange) :
    i < CfgStore.cfBase s ∨ CfgStore.cfBase s + CfgStore.flashRegion ≤ i := by
  unfold SlotName.range ctrRange at inside
  simp only [Set.mem_Ico] at inside
  unfold CfgStore.cfBase CfgStore.flashRegion
  cases name <;>
    · simp only [SlotName.base, Slots.slotAFlash, Slots.slotBFlash, Slots.slotSize,
        Slots.ctrFlash] at inside
      split <;> omega

/-- A store of the configuration, whatever of it lands, is a write elsewhere. -/
theorem step_of_store {faults : CfgStore.Faults} {c : CfgStore.Cfg} {fresh : Bool}
    {now : ByteMap}
    (stored : (CfgStore.storeRec faults (.flash r.flash) c fresh).medium = .flash now) :
    Router.Step ed25519 pk selfEnd r { r with flash := now } := by
  have kept (s : Fin CfgStore.nslots) (img : ByteMap) :
      Router.Step ed25519 pk selfEnd r
        { r with flash := CfgStore.flashWrite r.flash s img } := by
    apply Router.Step.elsewhere
    · intro name i inside
      exact ByteMap.blit_outside (cfBase_apart name s (Or.inl inside))
    · intro i inside
      exact ByteMap.blit_outside (cfBase_apart r.slot s (Or.inr inside))
  have unchanged : Router.Step ed25519 pk selfEnd r { r with flash := r.flash } :=
    .elsewhere (fun _ _ _ => rfl) fun _ _ => rfl
  unfold CfgStore.storeRec CfgStore.commitPlan at stored
  split at stored
  · cases stored
    exact unchanged
  split at stored
  · cases stored
    exact unchanged
  split at stored
  · cases stored
    exact unchanged
  split at stored
  · cases stored
    exact kept _ _
  · cases stored
    exact kept _ _

/-! ## An install -/

/-- A slot whose first bytes read erased does not verify. -/
theorem not_verified_of_erased {flash ram : ByteMap} {name : SlotName}
    (erased : ∀ i < 256, flash (name.base + i) = 0xFF) :
    ((bootOf ed25519 pk selfEnd flash ram).verdict name.pick).r.reason ≠ .ok := by
  rw [Ne, bootOf_verdict_iff]
  intro accepted
  have magic := accepted.wellFormed.magic
  unfold Container.be32 at magic
  simp only [image_slot, erased 0 (by decide), erased 1 (by decide), erased 2 (by decide),
    erased 3 (by decide), Nat.zero_add] at magic
  cases magic

theorem winner_of_other_refused {flash ram : ByteMap} {name : SlotName}
    (verified : ((bootOf ed25519 pk selfEnd flash ram).verdict name.pick).r.reason = .ok)
    (refused : ((bootOf ed25519 pk selfEnd flash ram).verdict name.other.pick).r.reason ≠ .ok) :
    (bootOf ed25519 pk selfEnd flash ram).winner = some name.pick := by
  rw [select_winner ed25519 flash ram (mainEnv selfEnd flash pk) name,
    SlotName.choose_eq_pick_iff]
  exact ⟨verified, fun ok => absurd ok refused⟩

section Installing

variable {t : Install.Task} {dest : SlotName} {version : Nat}

/-- Until its last program begins, an install leaves the old slot to be booted. -/
theorem Router.Install.old_boots (accepted : r.Install ed25519 pk t dest version)
    (runs : r.Runs ed25519 pk selfEnd) {count : Nat} (begun : 0 < count)
    (pending : count + 1 < Install.nops t.plan) {now : ByteMap}
    (stopped : StoppedIn t.opcode (Install.effects t.plan t.image) count r.flash now)
    (ram : ByteMap) :
    (bootOf ed25519 pk selfEnd now ram).winner = some r.slot.pick ∧
      ((bootOf ed25519 pk selfEnd now ram).verdict r.slot.pick).r.version = r.version := by
  have step : Router.Step ed25519 pk selfEnd r { r with flash := now } :=
    .install accepted stopped
  have still := (step.keeps runs).1
  have verified := (bootOf_verdict_iff now ram r.slot).mpr still.accepted
  refine ⟨winner_of_other_refused verified (not_verified_of_erased ?_), ?_⟩
  · intro i small
    rw [← accepted.dest_eq, ← region_base, ← accepted.region]
    exact t.first_page_erased_stopped r.flash now begun pending stopped
      ⟨Nat.le_add_right _ _, Nat.add_lt_add_left small _⟩
  · rw [bootOf_version verified]
    exact still.version_eq

/-- An install that ran to its end leaves the upload to be booted. -/
theorem Router.Install.new_boots (accepted : r.Install ed25519 pk t dest version)
    (inside : selfEnd ≤ updSelfEnd) (ram : ByteMap) :
    let done := run t.opcode (Install.effects t.plan t.image) r.flash
    (bootOf ed25519 pk selfEnd done ram).winner = some dest.pick ∧
      ((bootOf ed25519 pk selfEnd done ram).verdict dest.pick).r.version = version := by
  obtain ⟨w, rq, uid, bk, reads, answered, after, held, total⟩ := accepted.answered
  obtain ⟨-, -, dest', version', verdict, after', -⟩ := bkUpdEnd_ok ed25519 pk answered
  have same := after.symm.trans after'
  have sameDest : dest = dest' := Option.some.inj (congrArg Upd.dest same)
  have sameVersion : version = version' := congrArg Upd.version same
  subst sameDest sameVersion
  obtain ⟨upload, bitmap, snapshot, passed⟩ := passed_of_endVerdict verdict
  have isImage : upload = t.image := Option.some.inj (passed.held.symm.trans held)
  subst isImage
  have fits := t.fits
  rw [accepted.region, region_size] at fits
  have written : run t.opcode (Install.effects t.plan t.image) r.flash =
      r.flash.blit dest.base Slots.slotSize (Install.wanted t.image t.len) := by
    rw [t.run_effects, accepted.region, region_base, region_size]
  have outside {i : Nat} (apart : i ∉ dest.range) :
      run t.opcode (Install.effects t.plan t.image) r.flash i = r.flash i := by
    rw [written]
    apply ByteMap.blit_outside
    by_contra other
    exact apart ⟨by omega, by omega⟩
  have slotByte {i : Nat} (small : i < Slots.slotSize) :
      run t.opcode (Install.effects t.plan t.image) r.flash (dest.base + i) =
        Install.wanted t.image t.len i := by
    rw [written, ByteMap.blit_inside (by omega) (by omega), Nat.add_sub_cancel_left]
  have installed : Installed (run t.opcode (Install.effects t.plan t.image) r.flash) dest
      bk.upd.total t.image bitmap := by
    refine ⟨?_, ?_, ?_⟩
    · intro i small
      rw [slotByte (by omega)]
      exact if_pos (by omega)
    · intro i past small
      rw [slotByte small]
      exact if_neg (by omega)
    · intro i small
      rw [outside fun slot => (range_apart dest slot).2
        ⟨Nat.le_add_right _ _, Nat.add_lt_add_left small _⟩]
      exact reads.bitmap bitmap passed.counter i small
  have kept : KeepsSlot (run t.opcode (Install.effects t.plan t.image) r.flash) dest.other
      snapshot := by
    intro i small
    have twice : dest.other.other = dest := by cases dest <;> rfl
    have apart := (range_apart dest.other (i := dest.other.base + i)
      ⟨Nat.le_add_right _ _, by omega⟩).1
    rw [twice] at apart
    rw [outside apart]
    exact reads.slots _ _ passed.other i small
  exact ⟨passed.winner installed kept inside ram,
    (passed.bootsFrom installed inside ram).version_eq⟩

end Installing

/-! ## Any run -/

/-- A router that runs a verified slot finds one to boot after any run of updates, counter
advances, other writes and power cycles, wherever power failed in them; what it boots
verifies, and is no older than any counter the run began with.  An update that END accepts
on the way boots from its slot once it is whole; cut before its header page it leaves the
slot that ran. -/
theorem router_always_boots (runs : r.Runs ed25519 pk selfEnd)
    (cycle : Relation.ReflTransGen (Router.Step ed25519 pk selfEnd) r r') (ram : ByteMap) :
    (∃ name : SlotName, (bootOf ed25519 pk selfEnd r'.flash ram).winner = some name.pick ∧
      ((bootOf ed25519 pk selfEnd r'.flash ram).verdict name.pick).r.reason = .ok ∧
      flashCounter r.flash ≤
        ((bootOf ed25519 pk selfEnd r'.flash ram).verdict name.pick).r.version) ∧
    ∀ t dest version, r'.Install ed25519 pk t dest version →
      (selfEnd ≤ updSelfEnd →
        let done := run t.opcode (Install.effects t.plan t.image) r'.flash
        (bootOf ed25519 pk selfEnd done ram).winner = some dest.pick ∧
          ((bootOf ed25519 pk selfEnd done ram).verdict dest.pick).r.version = version) ∧
      ∀ count now, 0 < count → count + 1 < Install.nops t.plan →
        StoppedIn t.opcode (Install.effects t.plan t.image) count r'.flash now →
        (bootOf ed25519 pk selfEnd now ram).winner = some r'.slot.pick ∧
          ((bootOf ed25519 pk selfEnd now ram).verdict r'.slot.pick).r.version =
            r'.version := by
  obtain ⟨still, grows⟩ := runs_of_cycle runs cycle
  constructor
  · obtain ⟨name, winner, verified⟩ := still.boots ram
    refine ⟨name, winner, verified, ?_⟩
    have next := ((Router.Step.boot (r := r') winner).keeps still).1
    exact grows.trans next.current
  · intro t dest version accepted
    exact ⟨fun inside => accepted.new_boots inside ram,
      fun count now begun pending stopped => accepted.old_boots still begun pending stopped ram⟩

end Cycle

/-- A router that runs version 1 from slot B, its counter at 1. -/
def sampleRouter : Router where
  flash i := if i = Slots.ctrFlash then 0x7F else Slots.flashOf [] Slots.containerB i
  slot := .B
  version := 1

theorem slota_listed : Install.slotaRegion ∈ Install.regions := List.mem_cons_self

/-- Slot A's container, on its way into slot A. -/
def sampleTask : Install.Task where
  rg := Install.slotaRegion
  image := ByteMap.ofList Slots.containerA 0
  len := 164
  opcode := 4096
  listed := slota_listed
  staged := by decide
  fits := by decide
  opcode_cases := Or.inl rfl

theorem sampleRouter_runs : sampleRouter.Runs sampleSigned Slots.devkey updSelfEnd where
  accepted := Container.accepted_of_reason_ok (by decide +kernel)
  version_eq := by decide

theorem sampleRouter_reads : sampleRouter.Reads sampleEnd where
  handoff := by decide
  bitmap := by
    intro bitmap read i small
    cases Option.some.inj read
    by_cases first : i = 0
    · subst first
      rfl
    · have away : Slots.ctrFlash + i ≠ Slots.ctrFlash := by omega
      have past : ¬ Slots.ctrFlash + i < Slots.slotBFlash := by
        unfold Slots.ctrFlash Slots.slotBFlash
        omega
      rw [Function.update_of_ne first]
      change (if Slots.ctrFlash + i = Slots.ctrFlash then (0x7F : UInt8)
        else Slots.flashOf [] Slots.containerB (Slots.ctrFlash + i)) = 0xFF
      rw [if_neg away, Slots.flashOf, if_neg past]
      apply List.getD_eq_default
      change 164 ≤ Slots.ctrFlash + i - Slots.slotBFlash
      unfold Slots.ctrFlash Slots.slotBFlash
      omega
  slots := by
    intro name snapshot read i small
    unfold Slots.slotSize at small
    have away : name.base + i ≠ Slots.ctrFlash := by
      cases name <;>
        · simp only [SlotName.base, Slots.slotAFlash, Slots.slotBFlash, Slots.ctrFlash]
          omega
    change (if name.base + i = Slots.ctrFlash then (0x7F : UInt8)
      else Slots.flashOf [] Slots.containerB (name.base + i)) = snapshot i
    rw [if_neg away]
    unfold Slots.flashOf
    cases name with
    | A =>
        cases Option.some.inj read
        have below : SlotName.A.base + i < Slots.slotBFlash := by
          simp only [SlotName.base, Slots.slotAFlash, Slots.slotBFlash]
          omega
        rw [if_pos below]
        rfl
    | B =>
        cases Option.some.inj read
        have above : ¬ SlotName.B.base + i < Slots.slotBFlash :=
          Nat.not_lt.mpr (Nat.le_add_right _ _)
        rw [if_neg above]
        change Slots.containerB.getD (Slots.slotBFlash + i - Slots.slotBFlash) 0xFF = _
        rw [Nat.add_sub_cancel_left]
        rfl

theorem sampleRouter_install :
    sampleRouter.Install sampleSigned Slots.devkey sampleTask .A 2 where
  answered := by
    obtain ⟨-, -, dest, version, verdict, after, -⟩ := bkUpdEnd_ok _ _ sampleEnd_ok
    obtain ⟨upload, bitmap, snapshot, passed⟩ := passed_of_endVerdict verdict
    have isOther : dest = .A := endVerdict_dest sampleRouter_reads.handoff rfl verdict
    have isImage : sampleTask.image = upload := Option.some.inj passed.held
    have isTwo : version = 2 := by
      rw [passed.version_eq, ← isImage]
      decide
    subst isOther isTwo
    exact ⟨sampleEnd, sampleRequest, uidRoot, sampleStaged, sampleRouter_reads, sampleEnd_ok,
      after, rfl, rfl⟩
  region := rfl

/-- Cut after its third operation the sample update leaves a router that boots, and whole it
boots version 2 from slot A. -/
theorem router_always_boots_sample :
    (∃ name : SlotName,
      (bootOf sampleSigned Slots.devkey updSelfEnd
        (run 4096 ((Install.effects sampleTask.plan sampleTask.image).take 3)
          sampleRouter.flash) fun _ => 0).winner = some name.pick) ∧
      (bootOf sampleSigned Slots.devkey updSelfEnd
        (run 4096 (Install.effects sampleTask.plan sampleTask.image) sampleRouter.flash)
        fun _ => 0).winner = some .first := by
  have third : StoppedIn 4096 (Install.effects sampleTask.plan sampleTask.image) 3
      sampleRouter.flash
      (run 4096 ((Install.effects sampleTask.plan sampleTask.image).take 3)
        sampleRouter.flash) := by
    unfold StoppedIn
    split
    · exact NorFlash.Op.stopped_of_eq (Or.inl rfl)
    · rfl
  have cut := (router_always_boots sampleRouter_runs
    (.single (.install sampleRouter_install third)) fun _ => 0).1
  have whole := (router_always_boots sampleRouter_runs .refl fun _ => 0).2 _ _ _
    sampleRouter_install
  obtain ⟨name, winner, -⟩ := cut
  exact ⟨⟨name, winner⟩, (whole.1 le_rfl).1⟩

end RlxFw.Broker
