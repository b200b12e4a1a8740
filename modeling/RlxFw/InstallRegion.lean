import RlxFw.Ascii
import RlxFw.WrPolicy

/-!
# The install header's regions

`rtl819x-spi-install.h`: the shipped region table, the refusals, the arm an
install asks for, the staging buffer's admission rule, and the fence around the
slot that is running.
-/

namespace RlxFw.Install

/-- `RLXFW_SPI_INST_BLOCK`. -/
def blockSize : Nat := 0x00010000
/-- `RLXFW_SPI_INST_STATE`. -/
def stateBase : Nat := 0x003F0000
/-- `RLXFW_SPI_INST_CTR_BYTES`. -/
def ctrBytes : Nat := 512
/-- `RLXFW_SPI_INST_CTR_BITS`. -/
def ctrBits : Nat := 4096
/-- `RLXFW_SPI_INST_SLOTA_BASE`. -/
def slotaBase : Nat := 0x00070000
/-- `RLXFW_SPI_INST_SLOTA_SIZE`. -/
def slotaSize : Nat := 0x00120000
/-- `RLXFW_SPI_INST_SLOTB_BASE`. -/
def slotbBase : Nat := 0x00190000
/-- `RLXFW_SPI_INST_SLOTB_SIZE`. -/
def slotbSize : Nat := 0x00120000
/-- `RLXFW_SPI_INST_CFG0_BASE`. -/
def cfg0Base : Nat := 0x003C0000
/-- `RLXFW_SPI_INST_CFG0_SIZE`. -/
def cfg0Size : Nat := 0x00010000
/-- `RLXFW_SPI_INST_CFG1_BASE`. -/
def cfg1Base : Nat := 0x003D0000
/-- `RLXFW_SPI_INST_CFG1_SIZE`. -/
def cfg1Size : Nat := 0x00010000
/-- `RLXFW_SPI_INST_PROBE_BASE`. -/
def probeBase : Nat := 0x003E0000
/-- `RLXFW_SPI_INST_PROBE_SIZE`. -/
def probeSize : Nat := 0x00010000
/-- `RLXFW_SPI_INST_IMG_CAP`. -/
def imgCap : Nat := slotaSize

/-- What a region holds. -/
inductive Kind where
  | cr6c
  | erase
  | rlxu
  | probe
  | cfg
deriving DecidableEq, Repr

/-- `struct rlxfw_spi_inst_region`. -/
structure Region where
  name : List UInt8
  base : Nat
  size : Nat
  kind : Kind
deriving DecidableEq, Repr

def slotaRegion : Region :=
  { name := ascii "slotA", base := slotaBase, size := slotaSize, kind := .rlxu }

def slotbRegion : Region :=
  { name := ascii "slotB", base := slotbBase, size := slotbSize, kind := .rlxu }

def cfg0Region : Region :=
  { name := ascii "cfg0", base := cfg0Base, size := cfg0Size, kind := .cfg }

def cfg1Region : Region :=
  { name := ascii "cfg1", base := cfg1Base, size := cfg1Size, kind := .cfg }

def probeRegion : Region :=
  { name := ascii "probe", base := probeBase, size := probeSize, kind := .probe }

/-- `rlxfw_spi_inst_regions`, the table every shipped kernel is built with. -/
def regions : List Region :=
  [slotaRegion, slotbRegion, cfg0Region, cfg1Region, probeRegion]

/-- `RLXFW_SPI_INST_OK` and the refusals. -/
inductive Reason where
  | ok
  | badSyntax
  | region
  | eraseOnly
  | notErasable
  | armRead
  | unarmed
  | armWindow
  | armBudget
  | imgBad
  | imgEmpty
  | imgSize
  | kat
  | hash
  | sha
  | hdrMagic
  | hdrFormat
  | hdrFlashAt
  | hdrForm
  | hdrLen
  | hdrSum
  | policy
  | nomem
  | engine
  | cmp
  | probeOnly
  | probeDirty
  | probeMark
  | probeAnomaly
  | probeUnclean
  | hdrSeq
  | repeatOnlySlot
  | runningSlot
  | ctrAbove
  | ctrHandoff
  | ctrBelow
  | ctrMalformed
  | ctrCmp
deriving DecidableEq, Repr

/-- `rlxfw_spi_inst_chk_arm`: the typed arm names exactly this region. -/
def chkArm (a : WrPolicy.Arm) (rg : Region) : Reason :=
  if ¬ a.armed then .unarmed
  else if a.lo ≠ rg.base ∨ a.hi ≠ rg.base + rg.size then .armWindow
  else if a.budget < rg.size then .armBudget
  else .ok

/-- The staging buffer's latched error. -/
inductive ImgErr where
  | ok
  | overflow
  | fault
  | nomem
  | poisoned
deriving DecidableEq, Repr

/-- `struct rlxfw_spi_inst_img`. -/
structure Img where
  len : Nat
  writes : Nat
  resets : Nat
  err : ImgErr
deriving DecidableEq, Repr

/-- `rlxfw_spi_inst_img_admit`: the verdict on an append, and the latch. -/
def imgAdmit (im : Img) (count : Nat) : ImgErr × Img :=
  if im.err ≠ .ok then (.poisoned, im)
  else if count > imgCap - im.len then (.overflow, { im with err := .overflow })
  else (.ok, im)

/-- `rlxfw_spi_inst_img_reset`. -/
def imgReset (im : Img) : Img :=
  { len := 0, writes := 0, err := .ok, resets := im.resets + 1 }

/-- `rlxfw_spi_inst_chk_img`. -/
def chkImg (im : Img) (rg : Region) : Reason :=
  if im.err ≠ .ok then .imgBad
  else if im.len = 0 then .imgEmpty
  else if im.len > rg.size then .imgSize
  else .ok

/-- `rlxfw_spi_inst_fence`, on the handed-over slot's name, or 0. -/
def fence (rg : Region) (hoSlot : UInt8) : Reason :=
  if rg.kind ≠ .rlxu then .ok
  else if (hoSlot = 0x41 ∧ rg.base = slotaBase) ∨
      (hoSlot = 0x42 ∧ rg.base = slotbBase) then
    .runningSlot
  else .ok

/-- Where a region lies and how it is cut, as the table's assertions have
it. -/
structure Region.WellPlaced (rg : Region) : Prop where
  aboveBarrier : slotaBase ≤ rg.base
  belowState : rg.base + rg.size ≤ stateBase
  base_block : blockSize ∣ rg.base
  size_block : blockSize ∣ rg.size
  size_pos : 0 < rg.size
  size_cap : rg.size ≤ imgCap

theorem wellPlaced_of_mem {rg : Region} (member : rg ∈ regions) :
    rg.WellPlaced := by
  simp only [regions, List.mem_cons, List.not_mem_nil, or_false] at member
  rcases member with rfl | rfl | rfl | rfl | rfl <;>
    exact ⟨by decide, by decide, by decide, by decide, by decide, by decide⟩

theorem chkArm_eq_ok_iff (a : WrPolicy.Arm) (rg : Region) :
    chkArm a rg = .ok ↔
      a.armed = true ∧ a.lo = rg.base ∧ a.hi = rg.base + rg.size ∧
        rg.size ≤ a.budget := by
  unfold chkArm
  split_ifs <;> simp_all
  all_goals omega

end RlxFw.Install
