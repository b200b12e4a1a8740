import RlxFw.SlotSelection
import RlxFw.UpdateStaging

/-!
# What is accepted boots

An upload that END answers OK for is one that rlxboot, reading it from its slot,
verifies and prefers: the broker's environment is rlxboot's, with a wider range
kept from the payload.
-/

namespace RlxFw.Broker

open Container (Accepted Env SignatureCheck bodyOff rlxuVerify)
open Slots (Selection Pick select slotEnv)

/-! ## A narrower range -/

/-- rlxboot's name for a destination. -/
def SlotName.slot : SlotName → Slots.Slot
  | .A => Slots.slotA
  | .B => Slots.slotB

/-- The pick of `rlxb_select` that names a slot. -/
def SlotName.pick : SlotName → Pick
  | .A => .first
  | .B => .second

/-- The environment with another range kept from the payload. -/
def keeping (e : Env) (start stop : Nat) : Env :=
  { e with selfBase := start, selfEnd := stop }

/-- A container accepted with a range kept from its payload is accepted with a
part of that range kept. -/
theorem accepted_narrowed {ed25519 : SignatureCheck} {c : ByteMap}
    {avail start stop : Nat} {e : Env}
    (accepted : Accepted ed25519 c avail e)
    (inside : Set.Ico start stop ⊆ Set.Ico e.selfBase e.selfEnd) :
    Accepted ed25519 c avail (keeping e start stop) := by
  obtain ⟨wellFormed, staged, lands, loads, authentic⟩ := accepted
  refine ⟨wellFormed, staged, ⟨lands.licensed, lands.declared⟩, ?_,
    ⟨authentic.signature, authentic.digest, authentic.current⟩⟩
  exact ⟨loads.noWrap, loads.inRam, loads.aligned, loads.entry_mem,
    loads.entry_aligned, loads.apart_self.mono_right inside,
    loads.apart_staging, loads.apart_loader⟩

/-- rlxboot's environment for a slot is the broker's, with rlxboot's own image
as the range kept. -/
theorem slotEnv_mainEnv (dest : SlotName) (selfEnd : Nat) (flash : ByteMap)
    (pk : List UInt8) {ctr : Nat}
    (counter : (Counter.rlxuCounterFromBitmap
      (flash.slice Slots.ctrFlash Counter.ctrBytes)).1 = ctr) :
    slotEnv dest.slot (Slots.mainEnv selfEnd flash pk) =
      keeping (destEnv dest (updEnv pk ctr)) updSelfBase selfEnd := by
  unfold Slots.mainEnv
  rw [counter]
  cases dest <;> rfl

/-! ## What END checked -/

/-- The counter a bitmap holds. -/
def counterOf (bitmap : ByteMap) : Nat :=
  (Counter.rlxuCounterFromBitmap (bitmap.slice 0 Counter.ctrBytes)).1

/-- A version in a slot is booted over another version in the other slot. -/
def SlotName.Beats : SlotName → Nat → Nat → Prop
  | .A, version, other => other ≤ version
  | .B, version, other => other < version

/-- `rlxb_choose` on the verdicts of a slot and of the other one. -/
def SlotName.choose (dest : SlotName) (up other : Slots.Verdict) :
    Option Pick :=
  match dest with
  | .A => Slots.choose up other
  | .B => Slots.choose other up

theorem SlotName.choose_eq_pick_iff (dest : SlotName)
    (up other : Slots.Verdict) :
    dest.choose up other = some dest.pick ↔
      up.r.reason = .ok ∧
        (other.r.reason = .ok → dest.Beats up.r.version other.r.version) := by
  cases dest with
  | A => exact Slots.choose_eq_first_iff up other
  | B => exact Slots.choose_eq_second_iff other up

theorem endBoots_iff (dest : SlotName) (up running : Slots.Verdict) :
    endBoots dest up running = true ↔
      dest.choose up running = some dest.pick := by
  cases dest <;> exact beq_iff_eq

/-- The slot that runs, as END found it: it verifies, with a version that the
upload's replaces. -/
structure Replaced (ed25519 : SignatureCheck) (pk : List UInt8) (ctr : Nat)
    (dest : SlotName) (version : Nat) (snapshot : ByteMap) : Prop where
  verified :
    Accepted ed25519 snapshot Slots.slotSize
      (destEnv dest.other (updEnv pk ctr))
  beats : dest.Beats version (Container.version snapshot)

/-- Steps 2 to 9 of END, passed on the bitmap and the snapshots read. -/
structure Passed (ed25519 : SignatureCheck) (pk : List UInt8) (w : EndWorld)
    (u : Upd) (dest : SlotName) (version : Nat) (upload bitmap snapshot :
      ByteMap) : Prop where
  held : u.buf = some upload
  counter : w.bitmap = some bitmap
  other : w.slot dest.other = some snapshot
  accepted :
    Accepted ed25519 upload u.total
      (destEnv dest (updEnv pk (counterOf bitmap)))
  version_eq : version = Container.version upload
  total_eq : bodyOff + Container.payloadLen upload = u.total
  replaced : Replaced ed25519 pk (counterOf bitmap) dest version snapshot

theorem endCounter_ok {w : EndWorld} {ver ctr : Nat}
    (passed : endCounter w ver = .ok ctr) :
    ∃ bitmap, w.bitmap = some bitmap ∧ ctr = counterOf bitmap := by
  unfold endCounter at passed
  cases read : w.bitmap with
  | none =>
      rw [read] at passed
      cases passed
  | some bitmap =>
      rw [read] at passed
      dsimp only at passed
      split_ifs at passed
      exact ⟨bitmap, rfl, (Except.ok.inj passed).symm⟩

theorem endChosen_ok {sa sb running : Slots.Verdict} {run : SlotName}
    {ver : Nat} (passed : endChosen sa sb run ver = .ok running) :
    Slots.choose sa sb = some run.pick ∧
      running = (match run with | .A => sa | .B => sb) := by
  unfold endChosen at passed
  cases chosen : Slots.choose sa sb with
  | none =>
      rw [chosen] at passed
      cases passed
  | some pick =>
      rw [chosen] at passed
      dsimp only at passed
      split_ifs at passed with first other other
      · cases Except.ok.inj passed
        obtain ⟨same, -⟩ := not_or.mp other
        rw [first, not_not] at same
        subst first
        cases same
        exact ⟨rfl, rfl⟩
      · cases Except.ok.inj passed
        obtain ⟨same, -⟩ := not_or.mp other
        rw [not_not] at same
        cases pick with
        | first => exact absurd rfl first
        | second =>
            cases same
            exact ⟨rfl, rfl⟩

/-- The running slot's verdict is the one on its snapshot, and it is OK. -/
theorem endRunning_ok {ed25519 : SignatureCheck} {w : EndWorld} {e : Env}
    {run : SlotName} {ver : Nat} {running : Slots.Verdict}
    (passed : endRunning ed25519 w e run ver = .ok running) :
    ∃ snapshot, w.slot run = some snapshot ∧
      running = updSlot ed25519 run snapshot e ∧
      running.r.reason = .ok := by
  unfold endRunning at passed
  split_ifs at passed
  split at passed
  · rename_i a b readA readB
    obtain ⟨chosen, same⟩ := endChosen_ok passed
    cases run with
    | A =>
        rw [same]
        exact ⟨a, readA, rfl, ((Slots.choose_eq_first_iff _ _).mp chosen).1⟩
    | B =>
        rw [same]
        exact ⟨b, readB, rfl, ((Slots.choose_eq_second_iff _ _).mp chosen).1⟩
  · cases passed

/-- What the upload's own checks come to. -/
theorem endAccept_ok {ed25519 : SignatureCheck} {upload : ByteMap}
    {total version : Nat} {e : Env} {dest : SlotName} {running : Slots.Verdict}
    (passed : endUpload ed25519 upload total e dest running = .ok version) :
    Accepted ed25519 upload total (destEnv dest e) ∧
      version = Container.version upload ∧
      bodyOff + Container.payloadLen upload = total ∧
      (running.r.reason = .ok → dest.Beats version running.r.version) := by
  unfold endUpload endAccept at passed
  split_ifs at passed with refused trailing boots
  rw [not_not] at refused trailing
  have record := Container.rlxuVerify_eq_of_ok refused
  have versionEq : (rlxuVerify ed25519 upload total (destEnv dest e)).version =
      Container.version upload := by
    rw [record]
    rfl
  rw [endBoots_iff, SlotName.choose_eq_pick_iff] at boots
  cases passed
  refine ⟨Container.accepted_of_reason_ok refused, versionEq, ?_, boots.2⟩
  rw [record] at trailing
  exact trailing

theorem replaced_of_updSlot {ed25519 : SignatureCheck} {pk : List UInt8}
    {ctr version : Nat} {dest : SlotName} {snapshot : ByteMap}
    (verified : (updSlot ed25519 dest.other snapshot
      (updEnv pk ctr)).r.reason = .ok)
    (beats : dest.Beats version
      (updSlot ed25519 dest.other snapshot (updEnv pk ctr)).r.version) :
    Replaced ed25519 pk ctr dest version snapshot := by
  have imageEq : Slots.image (snapshotSlot dest.other) snapshot = snapshot := by
    funext offset
    exact congrArg snapshot (Nat.zero_add offset)
  have holdsHeader : bodyOff ≤ Slots.slotSize := by decide
  have wordSized : 4 ∣ Slots.slotSize := by decide
  have record := Slots.slotRun_record_of_ok holdsHeader wordSized verified
  have accepted := (Slots.slotRun_ok_iff ed25519 snapshot
    (snapshotSlot dest.other) (updEnv pk ctr) snapshot holdsHeader
    wordSized).mp verified
  rw [imageEq] at accepted record
  refine ⟨accepted, ?_⟩
  rw [← record.1]
  exact beats

theorem passed_of_endVerdict {ed25519 : SignatureCheck} {pk : List UInt8}
    {w : EndWorld} {u : Upd} {total : Nat} {dest : SlotName} {version : Nat}
    (verdict : endVerdict ed25519 pk w u total = .ok (dest, version)) :
    ∃ upload bitmap snapshot,
      Passed ed25519 pk w u dest version upload bitmap snapshot := by
  obtain ⟨-, -, -, upload, held⟩ := endVerdict_ok ed25519 pk verdict
  unfold endVerdict at verdict
  rw [held] at verdict
  split_ifs at verdict
  cases handoff : updHandoff w.boot with
  | none =>
      rw [handoff] at verdict
      cases verdict
  | some boot =>
      obtain ⟨run, ver⟩ := boot
      rw [handoff] at verdict
      dsimp only at verdict
      cases counter : endCounter w ver with
      | error fault =>
          rw [counter] at verdict
          cases verdict
      | ok ctr =>
          rw [counter] at verdict
          cases chosen : endRunning ed25519 w (updEnv pk ctr) run ver with
          | error fault =>
              simp only [bind, Except.bind, chosen] at verdict
              cases verdict
          | ok running =>
              cases found : endUpload ed25519 upload u.total (updEnv pk ctr)
                  run.other running with
              | error fault =>
                  simp only [bind, Except.bind, chosen, found] at verdict
                  cases verdict
              | ok number =>
                  simp only [bind, Except.bind, chosen, found] at verdict
                  obtain ⟨rfl, rfl⟩ := Prod.mk.inj (Except.ok.inj verdict)
                  obtain ⟨bitmap, read, same⟩ := endCounter_ok counter
                  obtain ⟨accepted, versionEq, totalEq, beats⟩ :=
                    endAccept_ok found
                  obtain ⟨snapshot, slotRead, verdictEq, ok⟩ :=
                    endRunning_ok chosen
                  have twice : run.other.other = run := by cases run <;> rfl
                  rw [verdictEq] at ok beats
                  have beaten := beats ok
                  rw [same] at accepted ok beaten
                  refine ⟨upload, bitmap, snapshot, held, read, ?_, accepted,
                    versionEq, totalEq, ?_⟩
                  · rw [twice]
                    exact slotRead
                  · refine replaced_of_updSlot ?_ ?_
                    · rw [twice]
                      exact ok
                    · rw [twice]
                      exact beaten

/-! ## What rlxboot finds -/

/-- Flash after an install: the upload in its slot with erased bytes after it,
and the counter's bitmap as it was. -/
structure Installed (flash : ByteMap) (dest : SlotName) (total : Nat)
    (upload bitmap : ByteMap) : Prop where
  upload : ∀ i < total, flash (dest.base + i) = upload i
  erased : ∀ i, total ≤ i → i < Slots.slotSize →
    flash (dest.base + i) = 0xFF
  counter : ∀ i < Counter.ctrBytes, flash (Slots.ctrFlash + i) = bitmap i

/-- Flash that holds a slot as a snapshot has it. -/
def KeepsSlot (flash : ByteMap) (name : SlotName) (snapshot : ByteMap) : Prop :=
  ∀ i < Slots.slotSize, flash (name.base + i) = snapshot i

/-- rlxboot verifies a slot with a version, and boots it unless the other slot
verifies with a higher version, or with the same one in slot A. -/
structure BootsFrom (s : Selection) (dest : SlotName) (version : Nat) :
    Prop where
  verified : (s.verdict dest.pick).r.reason = .ok
  version_eq : (s.verdict dest.pick).r.version = version
  winner_iff : s.winner = some dest.pick ↔
    ¬ ((s.verdict dest.other.pick).r.reason = .ok ∧
      (version < (s.verdict dest.other.pick).r.version ∨
        (s.verdict dest.other.pick).r.version = version ∧ dest = .B))

section Selected

variable (ed25519 : SignatureCheck) (flash ram : ByteMap) (e : Env)

theorem SlotName.slot_holdsHeader (name : SlotName) :
    bodyOff ≤ name.slot.size := by
  cases name <;> decide

theorem SlotName.slot_wordSized (name : SlotName) : 4 ∣ name.slot.size := by
  cases name <;> decide

theorem image_slot (name : SlotName) (i : Nat) :
    Slots.image name.slot flash i = flash (name.base + i) := by
  cases name <;> rfl

/-- The verdict on a slot is that of `rlxb_slot_run` on it. -/
theorem select_verdict_eq (name : SlotName) :
    ∃ before,
      (select ed25519 flash Slots.slotA Slots.slotB e ram).verdict name.pick =
        (Slots.slotRun ed25519 flash name.slot e before).2 := by
  cases name
  · exact ⟨ram, rfl⟩
  · exact ⟨(Slots.slotRun ed25519 flash Slots.slotA e ram).1, rfl⟩

theorem select_winner (name : SlotName) :
    (select ed25519 flash Slots.slotA Slots.slotB e ram).winner =
      name.choose
        ((select ed25519 flash Slots.slotA Slots.slotB e ram).verdict
          name.pick)
        ((select ed25519 flash Slots.slotA Slots.slotB e ram).verdict
          name.other.pick) := by
  cases name <;> rfl

/-- A slot that holds an acceptable container verifies with its version. -/
theorem verdict_of_accepted {name : SlotName} {c : ByteMap} {total : Nat}
    (accepted : Accepted ed25519 c total (slotEnv name.slot e))
    (held : ∀ i < bodyOff + Container.payloadLen c,
      flash (name.base + i) = c i) :
    ((select ed25519 flash Slots.slotA Slots.slotB e ram).verdict
        name.pick).r.reason = .ok ∧
      ((select ed25519 flash Slots.slotA Slots.slotB e ram).verdict
        name.pick).r.version = Container.version c := by
  have agree : ByteMap.AgreeOn c (Slots.image name.slot flash) 0
      (bodyOff + Container.payloadLen c) := by
    intro i _ inside
    rw [image_slot, held i (by omega)]
  have inSlot : bodyOff + Container.payloadLen c ≤ name.slot.size :=
    Nat.le_of_add_le_add_left accepted.staged.2
  obtain ⟨before, same⟩ := select_verdict_eq ed25519 flash ram e name
  have verified := (Slots.slotRun_ok_iff ed25519 flash name.slot e before
    name.slot_holdsHeader name.slot_wordSized).mpr
    (accepted.congr agree inSlot)
  rw [same]
  refine ⟨verified, ?_⟩
  rw [(Slots.slotRun_record_of_ok name.slot_holdsHeader name.slot_wordSized
    verified).1]
  exact (Container.fields_congr (agree.mono le_rfl (by omega))).1

/-- A slot that verifies boots as the rule between the two slots says. -/
theorem bootsFrom_of_verdict {dest : SlotName} {version : Nat}
    (verdict :
      ((select ed25519 flash Slots.slotA Slots.slotB e ram).verdict
          dest.pick).r.reason = .ok ∧
        ((select ed25519 flash Slots.slotA Slots.slotB e ram).verdict
          dest.pick).r.version = version) :
    BootsFrom (select ed25519 flash Slots.slotA Slots.slotB e ram) dest
      version := by
  refine ⟨verdict.1, verdict.2, ?_⟩
  rw [select_winner ed25519 flash ram e dest, SlotName.choose_eq_pick_iff,
    verdict.2]
  have rule (other : Nat) : dest.Beats version other ↔
      ¬ (version < other ∨ other = version ∧ dest = .B) := by
    cases dest with
    | A => simp [SlotName.Beats]
    | B =>
        simp only [SlotName.Beats, and_true]
        omega
  rw [rule, not_and]
  exact ⟨fun chosen => chosen.2, fun other => ⟨verdict.1, other⟩⟩

end Selected

section Passed

variable {ed25519 : SignatureCheck} {pk : List UInt8} {w : EndWorld} {u : Upd}
  {dest : SlotName} {version : Nat} {upload bitmap snapshot : ByteMap}
  {flash : ByteMap} {selfEnd : Nat}

/-- What the broker accepts for a slot, rlxboot accepts in it. -/
theorem accepted_for_rlxboot {name : SlotName} {c : ByteMap} {avail : Nat}
    (accepted : Accepted ed25519 c avail
      (destEnv name (updEnv pk (counterOf bitmap))))
    (counter : ∀ i < Counter.ctrBytes, flash (Slots.ctrFlash + i) = bitmap i)
    (inside : selfEnd ≤ updSelfEnd) :
    Accepted ed25519 c avail
      (slotEnv name.slot (Slots.mainEnv selfEnd flash pk)) := by
  have bits : flash.slice Slots.ctrFlash Counter.ctrBytes =
      bitmap.slice 0 Counter.ctrBytes := by
    rw [ByteMap.slice_eq_slice_iff]
    intro i small
    rw [counter i small, Nat.zero_add]
  have counterEq : (Counter.rlxuCounterFromBitmap
      (flash.slice Slots.ctrFlash Counter.ctrBytes)).1 = counterOf bitmap := by
    rw [bits]
    rfl
  rw [slotEnv_mainEnv name selfEnd flash pk counterEq]
  refine accepted_narrowed accepted ?_
  exact Set.Ico_subset_Ico_right inside

theorem Passed.bootsFrom
    (passed : Passed ed25519 pk w u dest version upload bitmap snapshot)
    (installed : Installed flash dest u.total upload bitmap)
    (inside : selfEnd ≤ updSelfEnd) (ram : ByteMap) :
    BootsFrom
      (select ed25519 flash Slots.slotA Slots.slotB
        (Slots.mainEnv selfEnd flash pk) ram) dest version := by
  apply bootsFrom_of_verdict
  rw [passed.version_eq]
  apply verdict_of_accepted
  · exact accepted_for_rlxboot passed.accepted installed.counter inside
  · rw [passed.total_eq]
    exact installed.upload

/-- With the other slot as END read it, the upload's slot is the one booted. -/
theorem Passed.winner
    (passed : Passed ed25519 pk w u dest version upload bitmap snapshot)
    (installed : Installed flash dest u.total upload bitmap)
    (kept : KeepsSlot flash dest.other snapshot)
    (inside : selfEnd ≤ updSelfEnd) (ram : ByteMap) :
    (select ed25519 flash Slots.slotA Slots.slotB
      (Slots.mainEnv selfEnd flash pk) ram).winner = some dest.pick := by
  have boots := passed.bootsFrom installed inside ram
  have accepted := accepted_for_rlxboot passed.replaced.verified
    installed.counter inside
  have small : bodyOff + Container.payloadLen snapshot ≤ Slots.slotSize :=
    passed.replaced.verified.wellFormed.present
  have other := verdict_of_accepted ed25519 flash ram _ accepted
    fun i short => kept i (by omega)
  rw [select_winner ed25519 flash ram _ dest, SlotName.choose_eq_pick_iff,
    boots.version_eq, other.2]
  exact ⟨boots.verified, fun _ => passed.replaced.beats⟩

end Passed

/-- Update acceptance implies bootability: the slot an END that answers OK
names verifies in rlxboot with END's version once the upload is in it, and it
is booted unless the other slot has a better one.  With the other slot as END
read it, it is booted. -/
theorem end_ok_boots (ed25519 : SignatureCheck) (pk : List UInt8)
    (w : EndWorld) (rq : Req) (uid : Nat) (bk : State)
    (answered : (bkUpdEnd ed25519 pk w rq uid bk).2.status = .ok) :
    ∃ dest version upload bitmap snapshot,
      (bkUpdEnd ed25519 pk w rq uid bk).1.upd =
        bk.upd.verifiedAs dest version ∧
      some (bkUpdEnd ed25519 pk w rq uid bk).2.body = endBody dest version ∧
      bk.upd.buf = some upload ∧ w.bitmap = some bitmap ∧
      w.slot dest.other = some snapshot ∧
      ∀ flash selfEnd ram,
        Installed flash dest bk.upd.total upload bitmap →
        selfEnd ≤ updSelfEnd →
        BootsFrom
          (select ed25519 flash Slots.slotA Slots.slotB
            (Slots.mainEnv selfEnd flash pk) ram) dest version ∧
        (KeepsSlot flash dest.other snapshot →
          (select ed25519 flash Slots.slotA Slots.slotB
            (Slots.mainEnv selfEnd flash pk) ram).winner =
              some dest.pick) := by
  obtain ⟨-, -, dest, version, verdict, after, -, body⟩ :=
    bkUpdEnd_ok ed25519 pk answered
  obtain ⟨upload, bitmap, snapshot, passed⟩ := passed_of_endVerdict verdict
  refine ⟨dest, version, upload, bitmap, snapshot, after, body, passed.held,
    passed.counter, passed.other, ?_⟩
  intro flash selfEnd ram installed inside
  exact ⟨passed.bootsFrom installed inside ram,
    fun kept => passed.winner installed kept inside ram⟩

/-- An END in a broker that runs from slot B, version 1. -/
def sampleEnd : EndWorld where
  sweep := { now := 0, expireAt := 0 }
  boot := some (ascii "slot B ver 1\n")
  bitmap := some (Function.update (fun _ => 0xFF) 0 0x7F)
  memory := true
  slot := fun
    | .A => some fun _ => 0xFF
    | .B => some (ByteMap.ofList Slots.containerB 0xFF)

/-- Slot A's container, staged by root. -/
def sampleStaged : State :=
  { State.init with
    upd :=
      { Upd.empty [] with
        state := .staging
        buf := some (ByteMap.ofList Slots.containerA 0)
        total := 164
        received := 164 } }

/-- END for the staged container. -/
def sampleRequest : Req where
  op := 0x22
  session := .zero
  csrf := .zero
  clientIp := 0
  body := [0, 0, 0, 164]

/-- A signature check that knows the two sample containers. -/
def sampleSigned : SignatureCheck :=
  Slots.devSigned [Slots.containerA, Slots.containerB]

theorem sampleEnd_ok :
    (bkUpdEnd sampleSigned Slots.devkey sampleEnd sampleRequest uidRoot
      sampleStaged).2.status = .ok := by
  decide +kernel

/-- What the sample END accepts boots. -/
theorem end_ok_boots_sample :
    ∃ dest version upload bitmap snapshot,
      sampleStaged.upd.buf = some upload ∧ sampleEnd.bitmap = some bitmap ∧
      sampleEnd.slot dest.other = some snapshot ∧
      ∀ flash, Installed flash dest sampleStaged.upd.total upload bitmap →
        KeepsSlot flash dest.other snapshot →
        BootsFrom
            (select sampleSigned flash Slots.slotA Slots.slotB
              (Slots.mainEnv updSelfEnd flash Slots.devkey) fun _ => 0)
            dest version ∧
          (select sampleSigned flash Slots.slotA Slots.slotB
            (Slots.mainEnv updSelfEnd flash Slots.devkey) fun _ => 0).winner =
              some dest.pick := by
  obtain ⟨dest, version, upload, bitmap, snapshot, -, -, held, counter, other,
    boots⟩ := end_ok_boots sampleSigned Slots.devkey sampleEnd sampleRequest
      uidRoot sampleStaged sampleEnd_ok
  refine ⟨dest, version, upload, bitmap, snapshot, held, counter, other, ?_⟩
  intro flash installed kept
  have found := boots flash updSelfEnd (fun _ => 0) installed le_rfl
  exact ⟨found.1, found.2 kept⟩

end RlxFw.Broker
