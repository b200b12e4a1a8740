import RlxFw.CfgCanonical
import RlxFw.CfgStore
import RlxFw.SpiContainment
import RlxFw.Spictl
import RlxFw.UpdateBoots

/-!
# What user space installs, the kernel takes

The two writers of user space, `upd_install` of `src/brokerd/update.c` and
`cfg_flash_write_slot_locked` of `src/lib/cfgflash.c`, against the install
path's own checks of the payload, the lines and the arm.
-/

namespace RlxFw.Spictl

open Broker (SlotName)
open CfgStore (nslots cfBase flashRegion slotSize)
open Emission (step)
open Install (Region chkRlxu chkCfg chkArm)

section Writers

variable {World : Type} (node : Node World)
  (sha256 : List UInt8 → Digest)

/-- The place `upd_install` writes. -/
def slotPlace (dest : SlotName) : Place where
  name := ascii "slot" ++ [dest.char]
  base := dest.base
  size := Slots.slotSize

/-- `upd_install`.  The last verb's failure is only logged. -/
def updInstall (dest : SlotName) (img : List UInt8) : Writer World Unit := do
  let locked ← step node.lock
  if locked then do
    writeRegion node (slotPlace dest) img (sha256 img)
      (288 + (img.length + 255) / 256)
    let _ ← verb node (ascii "img reset")
  else Emission.stop (ascii "lock")

/-- The place `cfg_flash_write_slot_locked` writes. -/
def cfgPlace (s : Fin nslots) : Place where
  name := ascii "cfg" ++ Broker.decimal s.val
  base := cfBase s
  size := flashRegion

/-- `cfg_flash_write_slot_locked`. -/
def cfgFlashWriteSlotLocked (s : Fin nslots) (img : ByteMap) :
    Writer World Unit := do
  writeRegion node (cfgPlace s) (img.slice 0 slotSize)
    (sha256 (img.slice 0 slotSize)) 32
  if ← verb node (ascii "img reset") then pure ()
  else Emission.stop (ascii "img reset (last)")

end Writers

/-! ## The regions -/

/-- The region of the table that a slot is. -/
def slotRegion : SlotName → Region
  | .A => Install.slotaRegion
  | .B => Install.slotbRegion

/-- The region of the table that a slot of the store is. -/
def cfgRegion (s : Fin nslots) : Region :=
  if s = 0 then Install.cfg0Region else Install.cfg1Region

/-- A writer's place is a region of the table. -/
structure Names (place : Place) (rg : Region) : Prop where
  installable : Installable rg
  name : place.name = rg.name
  base : place.base = rg.base
  size : place.size = rg.size

theorem slotPlace_names (dest : SlotName) :
    Names (slotPlace dest) (slotRegion dest) := by
  cases dest
  · exact ⟨⟨by decide, Or.inl rfl⟩, by decide, rfl, rfl⟩
  · exact ⟨⟨by decide, Or.inl rfl⟩, by decide, rfl, rfl⟩

theorem cfgPlace_names (s : Fin nslots) : Names (cfgPlace s) (cfgRegion s) := by
  have all : ∀ s : Fin nslots, cfgRegion s ∈ Install.regions ∧
      (cfgRegion s).kind = .cfg ∧ (cfgPlace s).name = (cfgRegion s).name ∧
      (cfgPlace s).base = (cfgRegion s).base ∧
      (cfgPlace s).size = (cfgRegion s).size := by
    decide
  obtain ⟨member, kind, name, base, size⟩ := all s
  exact ⟨⟨member, Or.inr kind⟩, name, base, size⟩

/-! ## What is sent -/

/-- A line that arms exactly a region. -/
def ArmsFor {World : Type} (m : Spi.Machine World) (rg : Region)
    (line : List UInt8) : Prop :=
  ∀ b s, ∃ after, Spi.dispatch m b line s = (.ok none, after, []) ∧
    chkArm after.driver.arm rg = .ok

/-- What a writer may send for a region and an image: it disarms and resets,
stages the image, arms exactly the region, and asks for the image's digest in
it. -/
inductive Intended {World : Type} (m : Spi.Machine World) (rg : Region)
    (img : List UInt8) (md : Digest) : Sent → Prop
  | disarm : Intended m rg img md (.verb (ascii "disarm"))
  | imgReset : Intended m rg img md (.verb (ascii "img reset"))
  | stage : Intended m rg img md (.stage img)
  | arm (line : List UInt8) (arms : ArmsFor m rg line) :
      Intended m rg img md (.verb line)
  | install (line : List UInt8)
      (parsed : Install.parse line =
        (.ok,
          { Install.emptyReq with
            verb := .install, region := some rg, sha := md.1 })) :
      Intended m rg img md (.verb line)

section Within

open Emission (Within within_issue within_step within_stop within_pure)

variable {World : Type} (node : Node World) {Allowed : Sent → Prop}

theorem within_verb {line : List UInt8} (allowed : Allowed (.verb line)) :
    Within Allowed (fun _ => True) (verb node line) :=
  (within_issue allowed).bind fun _ _ => within_step _

theorem within_expect (reset : Allowed (.verb (ascii "img reset")))
    (at_ : List UInt8) (holds : Bool) :
    Within Allowed (fun _ => True) (expect node at_ holds) := by
  unfold expect abort
  split
  · exact within_pure trivial
  · exact (within_verb node reset).bind fun _ _ => within_stop _

theorem within_number (reset : Allowed (.verb (ascii "img reset")))
    (name : List UInt8) :
    Within Allowed (fun _ => True) (number node name) :=
  (within_step _).bind fun _ _ =>
    (within_expect node reset _ _).bind fun _ _ => within_pure trivial

theorem within_text (reset : Allowed (.verb (ascii "img reset")))
    (name expected : List UInt8) :
    Within Allowed (fun _ => True) (text node name expected) :=
  (within_step _).bind fun _ _ => within_expect node reset _ _

/-- What the shared steps send. -/
theorem within_writeRegion (place : Place) (img : List UInt8) (md : Digest)
    (want : Nat)
    (disarm : Allowed (.verb (ascii "disarm")))
    (reset : Allowed (.verb (ascii "img reset")))
    (staged : Allowed (.stage img))
    (arm : Allowed (.verb (armLine place.base place.size)))
    (install : Allowed (.verb (installLine place.name md))) :
    Within Allowed (fun _ => True) (writeRegion node place img md want) := by
  have expected (at_ : List UInt8) (holds : Bool) :=
    within_expect node reset at_ holds
  have stages : Within Allowed (fun _ => True) (stage node img) :=
    (within_issue staged).bind fun _ _ => within_step _
  unfold writeRegion
  refine (within_verb node disarm).bind fun _ _ => ?_
  refine (expected _ _).bind fun _ _ => ?_
  refine (within_verb node reset).bind fun _ _ => ?_
  refine (expected _ _).bind fun _ _ => ?_
  refine stages.bind fun _ _ => ?_
  refine (expected _ _).bind fun _ _ => ?_
  refine (within_number node reset _).bind fun _ _ => ?_
  refine (expected _ _).bind fun _ _ => ?_
  refine (within_text node reset _ _).bind fun _ _ => ?_
  refine (within_number node reset _).bind fun _ _ => ?_
  refine (within_verb node arm).bind fun _ _ => ?_
  refine (expected _ _).bind fun _ _ => ?_
  refine (within_verb node install).bind fun _ _ => ?_
  refine (expected _ _).bind fun _ _ => ?_
  refine (within_text node reset _ _).bind fun _ _ => ?_
  refine (within_number node reset _).bind fun _ _ => ?_
  refine (expected _ _).bind fun _ _ => ?_
  refine (within_number node reset _).bind fun _ _ => ?_
  refine (expected _ _).bind fun _ _ => ?_
  refine (within_number node reset _).bind fun _ _ => ?_
  exact expected _ _

end Within

section Agreement

variable {World : Type} {m : Spi.Machine World}
  (reads : ReadsHex m.strtoul) {Other : Type} (node : Node Other)

include reads

theorem armsFor_region {rg : Region} (member : rg ∈ Install.regions) :
    ArmsFor m rg (armLine rg.base rg.size) := by
  have small : ∀ rg ∈ Install.regions, rg.base + rg.size < 2 ^ 32 ∧
      WrPolicy.chkArm rg.base (rg.base + rg.size) rg.size = .ok := by
    decide
  obtain ⟨fits, policy⟩ := small rg member
  intro b s
  refine ⟨_, dispatch_armLine reads b fits policy s, ?_⟩
  exact (Install.chkArm_eq_ok_iff _ _).mpr ⟨rfl, rfl, rfl, le_rfl⟩

/-- A writer whose place is a region sends what it intends for the region. -/
theorem writeRegion_intended {place : Place} {rg : Region}
    (names : Names place rg) (img : List UInt8) (md : Digest) (want : Nat) :
    (writeRegion node place img md want).Within (Intended m rg img md)
      fun _ => True := by
  apply within_writeRegion node place img md want .disarm .imgReset .stage
  · rw [names.base, names.size]
    exact .arm _ (armsFor_region reads names.installable.mem)
  · rw [names.name]
    exact .install _ (parse_installLine names.installable md)

theorem updInstall_intended (sha256 : List UInt8 → Digest) (dest : SlotName)
    (img : List UInt8) :
    (updInstall node sha256 dest img).Within
      (Intended m (slotRegion dest) img (sha256 img)) fun _ => True := by
  unfold updInstall
  refine (Emission.within_step _).bind fun locked _ => ?_
  split
  · refine (writeRegion_intended reads node (slotPlace_names dest) img
      (sha256 img) _).bind fun _ _ => ?_
    exact (within_verb node .imgReset).bind fun _ _ =>
      Emission.within_pure trivial
  · exact Emission.within_stop _

theorem cfgFlashWrite_intended (sha256 : List UInt8 → Digest)
    (s : Fin nslots) (img : ByteMap) :
    (cfgFlashWriteSlotLocked node sha256 s img).Within
      (Intended m (cfgRegion s) (img.slice 0 slotSize)
        (sha256 (img.slice 0 slotSize))) fun _ => True := by
  unfold cfgFlashWriteSlotLocked
  refine (writeRegion_intended reads node (cfgPlace_names s) _ _ _).bind
    fun _ _ => ?_
  refine (within_verb node .imgReset).bind fun answered _ => ?_
  split
  · exact Emission.within_pure trivial
  · exact Emission.within_stop _

end Agreement

/-! ## What is staged -/

/-- A container that END accepts for a slot passes the install path's look at
its header. -/
theorem chkRlxu_of_accepted {ed25519 : Container.SignatureCheck}
    {upload : ByteMap} {total : Nat} {dest : SlotName} {e : Container.Env}
    (accepted : Container.Accepted ed25519 upload total
      (Broker.destEnv dest e))
    (whole : Container.bodyOff + Container.payloadLen upload = total) :
    chkRlxu upload total dest.base = .ok := by
  obtain ⟨wellFormed, -, lands, -, -⟩ := accepted
  have declared : dest.base ≠ Container.flashNone := by
    cases dest <;> decide
  obtain ⟨flashAt, form⟩ := lands.declared declared
  have long : 160 + Container.payloadLen upload = total := whole
  have positive := wellFormed.payload_pos
  have small : Container.payloadLen upload ≤ Install.rlxuPayloadMax :=
    wellFormed.payload_le
  have magic : Container.be32 upload 0 = Install.rlxuMagic := wellFormed.magic
  have formEq : Container.be32 upload 68 = Install.rlxuFormWhole := form
  have atEq : Container.be32 upload 64 = dest.base := flashAt
  have bodyOff : Install.rlxuBodyOff = 160 := rfl
  have formatEq : Container.be16 upload 4 = 2 := wellFormed.format
  have hdrEq : Container.be16 upload 6 = 96 := wellFormed.headerLen
  have plen : Container.be32 upload 12 = Container.payloadLen upload := rfl
  unfold Install.chkRlxu
  dsimp only
  rw [if_neg (by omega), if_neg (by omega), if_neg (by omega),
    if_neg (by omega), if_neg (by omega), if_neg (by omega)]

theorem getBe16_eq (p : ByteMap) (off : Nat) :
    Tlv.getBe16 p off = Container.be16 p off := rfl

theorem getBe32_eq (p : ByteMap) (off : Nat) :
    Tlv.getBe32 p off = Container.be32 p off := by
  unfold Tlv.getBe32 Container.be32 Tlv.getBe16 Tlv.be16
  rw [Nat.add_assoc off 2 1]
  omega

/-- A slot image of the store passes the install path's look at its header. -/
theorem chkCfg_of_slotImage {c : CfgStore.Cfg} {seq : Nat} {img : ByteMap}
    (valid : CfgStore.cfgValidate c = .ok ())
    (image : CfgStore.slotImage c seq = .ok img) :
    chkCfg img slotSize = .ok := by
  have parsed := CfgStore.parseRecord_slotImage valid image
    (CfgStore.recordLen_slotImage_le image)
  obtain ⟨-, header, -⟩ := (CfgStore.parseRecord_eq_ok_iff _ _ _).mp parsed
  unfold CfgStore.headerFault at header
  simp only [getBe16_eq, getBe32_eq] at header
  split_ifs at header with crc magic format seqOut len
  have magicEq : Container.be32 img 0 = Install.cfgMagic := not_not.mp magic
  have formatEq : Container.be16 img 4 = 1 := not_not.mp (not_or.mp format).1
  have hdrEq : Container.be16 img 6 = 24 := not_not.mp (not_or.mp format).2
  have above : 1 ≤ Container.be32 img 8 := Nat.le_of_not_lt (not_or.mp seqOut).1
  have below : Container.be32 img 8 ≤ Install.cfgSeqMax :=
    Nat.le_of_not_lt (not_or.mp seqOut).2
  have whole : slotSize = Install.cfgSlot := rfl
  have wide : ¬ slotSize < 4 := by decide
  unfold Install.chkCfg
  dsimp only
  rw [if_neg (by omega), if_neg (by omega), if_neg (by omega),
    if_neg (by omega)]

/-- What user space decides to install, the kernel does not refuse for its
contents.  The upload of an END that answers OK and every slot image of a valid
configuration pass the install path's look at them, and all that their writers
send arms exactly their region and names it with the image's digest. -/
theorem install_not_refused {World : Type} (m : Spi.Machine World)
    (reads : ReadsHex m.strtoul) :
    (∀ (ed25519 : Container.SignatureCheck) (pk : List UInt8)
        (w : Broker.EndWorld) (rq : Broker.Req) (uid : Nat) (bk : Broker.State),
      (Broker.bkUpdEnd ed25519 pk w rq uid bk).2.status = .ok →
      ∃ dest upload,
        (Broker.bkUpdEnd ed25519 pk w rq uid bk).1.upd.dest = some dest ∧
        (Broker.bkUpdEnd ed25519 pk w rq uid bk).1.upd.buf = some upload ∧
        chkRlxu upload bk.upd.total dest.base = .ok ∧
        ∀ {Other : Type} (node : Node Other) (sha256 : List UInt8 → Digest)
          (world : Other),
          ∀ sent ∈ (updInstall node sha256 dest
              (upload.slice 0 bk.upd.total) world).2.2,
            Intended m (slotRegion dest) (upload.slice 0 bk.upd.total)
              (sha256 (upload.slice 0 bk.upd.total)) sent) ∧
    (∀ (c : CfgStore.Cfg) (seq : Nat) (img : ByteMap),
      CfgStore.cfgValidate c = .ok () → CfgStore.slotImage c seq = .ok img →
      chkCfg img slotSize = .ok ∧
      ∀ {Other : Type} (node : Node Other) (sha256 : List UInt8 → Digest)
        (s : Fin nslots) (world : Other),
        ∀ sent ∈ (cfgFlashWriteSlotLocked node sha256 s img world).2.2,
          Intended m (cfgRegion s) (img.slice 0 slotSize)
            (sha256 (img.slice 0 slotSize)) sent) := by
  refine ⟨?_, ?_⟩
  · intro ed25519 pk w rq uid bk answered
    obtain ⟨-, -, dest, version, verdict, after, -, -⟩ :=
      Broker.bkUpdEnd_ok ed25519 pk answered
    obtain ⟨upload, bitmap, snapshot, passed⟩ :=
      Broker.passed_of_endVerdict verdict
    refine ⟨dest, upload, ?_, ?_, ?_, ?_⟩
    · rw [after]
      rfl
    · rw [after]
      exact passed.held
    · exact chkRlxu_of_accepted passed.accepted passed.total_eq
    · intro Other node sha256 world
      exact (updInstall_intended reads node sha256 dest _ world).1
  · intro c seq img valid image
    refine ⟨chkCfg_of_slotImage valid image, ?_⟩
    intro Other node sha256 s world
    exact (cfgFlashWrite_intended reads node sha256 s img world).1

/-- Hexadecimal digits after `0x`, as `simple_strtoul` reads them at base 0. -/
def readHex (s : List UInt8) : Nat × List UInt8 :=
  if (ascii "0x").isPrefixOf s then
    let digits := (s.drop 2).takeWhile fun c => (Install.hexval c).isSome
    (digits.foldl (fun v c => 16 * v + ((Install.hexval c).getD 0).toNat) 0 %
      2 ^ 32, (s.drop 2).drop digits.length)
  else (0, s)

/-- The erased machine, with `readHex`. -/
def hexMachine : Spi.Machine Unit :=
  { Spi.erasedMachine with strtoul := readHex }

theorem hexValue_text (digits : List (Fin 16)) (v : Nat) :
    (hexText digits).foldl
        (fun v c => 16 * v + ((Install.hexval c).getD 0).toNat) v =
      digits.foldl (fun value d => 16 * value + d.val) v := by
  induction digits generalizing v with
  | nil => rfl
  | cons d rest ih =>
      have read := hexval_hx d.isLt
      have value : (UInt8.ofNat d.val).toNat = d.val :=
        Nat.mod_eq_of_lt (Nat.lt_trans d.isLt (by decide))
      change ((hexText rest).foldl _ (16 * v +
        ((Install.hexval (byteAt hx d.val)).getD 0).toNat)) = _
      rw [ih, read, Option.getD_some, value, List.foldl_cons]

theorem readsHex_readHex : ReadsHex readHex := by
  intro digits rest _ small ends
  have isDigit : ∀ c ∈ hexText digits, (Install.hexval c).isSome = true := by
    intro c member
    obtain ⟨d, -, rfl⟩ := List.mem_map.mp member
    rw [hexval_hx d.isLt]
    rfl
  have stops : rest.takeWhile (fun c => (Install.hexval c).isSome) = [] := by
    rcases ends with rfl | blank
    · rfl
    · cases rest with
      | nil => rfl
      | cons c tail =>
          have atBlank : c = 0x20 := blank
          subst atBlank
          rfl
  have named : (ascii "0x").isPrefixOf
      (ascii "0x" ++ (hexText digits ++ rest)) = true :=
    List.isPrefixOf_iff_prefix.mpr (List.prefix_append _ _)
  have dropped : (ascii "0x" ++ (hexText digits ++ rest)).drop 2 =
      hexText digits ++ rest := rfl
  unfold readHex
  rw [if_pos named, dropped]
  dsimp only
  rw [List.takeWhile_append_of_pos isDigit, stops, List.append_nil,
    List.drop_left, hexValue_text]
  exact congrArg (·, rest) (Nat.mod_eq_of_lt small)

/-- The sample upload and the defaults' slot image. -/
theorem install_not_refused_sample :
    (∃ dest upload,
      (Broker.bkUpdEnd Broker.sampleSigned Slots.devkey Broker.sampleEnd
        Broker.sampleRequest Broker.uidRoot Broker.sampleStaged).1.upd.dest =
          some dest ∧
      chkRlxu upload Broker.sampleStaged.upd.total dest.base = .ok) ∧
    ∃ img, CfgStore.slotImage CfgStore.cfgDefaults 1 = .ok img ∧
      chkCfg img slotSize = .ok := by
  obtain ⟨containers, configurations⟩ :=
    install_not_refused hexMachine readsHex_readHex
  obtain ⟨dest, upload, named, -, passes, -⟩ := containers
    Broker.sampleSigned Slots.devkey Broker.sampleEnd Broker.sampleRequest
    Broker.uidRoot Broker.sampleStaged Broker.sampleEnd_ok
  obtain ⟨record, encoded⟩ := CfgStore.encodeRecord_isOk
    (show CfgStore.Checked CfgStore.cfgDefaults from nofun)
    (show CfgStore.seqMin ≤ 1 by decide) (show 1 ≤ CfgStore.seqMax by decide)
    (le_refl slotSize)
  have image : CfgStore.slotImage CfgStore.cfgDefaults 1 =
      .ok (ByteMap.ofList record CfgStore.fill) := by
    unfold CfgStore.slotImage
    rw [encoded]
    rfl
  exact ⟨⟨dest, upload, named, passes⟩, _, image,
    (configurations _ 1 _ CfgStore.cfgDefaults_valid image).1⟩

end RlxFw.Spictl
