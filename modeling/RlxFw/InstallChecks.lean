import RlxFw.Container
import RlxFw.Counter
import RlxFw.InstallPlan

/-!
# What the install path decides from bytes

`rtl819x-spi-install.h` on the staged payload, the erase-size probe's marker
pages, the anti-rollback bitmap and the counter's scratch loop.
-/

namespace RlxFw.Install

open Container (be16 be32)

/-! ## The payload's own declaration -/

/-- `RLXFW_SPI_INST_RLXU_MAGIC`. -/
def rlxuMagic : Nat := 0x524C5855
/-- `RLXFW_SPI_INST_RLXU_BODY_OFF`. -/
def rlxuBodyOff : Nat := 160
/-- `RLXFW_SPI_INST_RLXU_FORM_WHOLE`. -/
def rlxuFormWhole : Nat := 0x57484F4C
/-- `RLXFW_SPI_INST_RLXU_PAYLOAD_MAX`. -/
def rlxuPayloadMax : Nat := 0x00300000
/-- `RLXFW_SPI_INST_CR6C_MAGIC`. -/
def cr6cMagic : Nat := 0x63733663
/-- `RLXFW_SPI_INST_CR6C_HDR_LEN`. -/
def cr6cHdrLen : Nat := 16
/-- `RLXFW_SPI_INST_CFG_MAGIC`. -/
def cfgMagic : Nat := 0x524C5843
/-- `RLXFW_SPI_INST_CFG_SLOT`. -/
def cfgSlot : Nat := 4096
/-- `RLXFW_SPI_INST_CFG_SEQ_MAX`. -/
def cfgSeqMax : Nat := 0xFFFFFFFE

/-- `rlxfw_spi_inst_chk_rlxu`. -/
def chkRlxu (img : ByteMap) (len base : Nat) : Reason :=
  if len < 4 ∨ be32 img 0 ≠ rlxuMagic then .hdrMagic
  else if len < rlxuBodyOff then .hdrLen
  else if be16 img 4 ≠ 2 ∨ be16 img 6 ≠ 96 then .hdrFormat
  else if be32 img 64 ≠ base then .hdrFlashAt
  else if be32 img 68 ≠ rlxuFormWhole then .hdrForm
  else
    let plen := be32 img 12
    if plen = 0 ∨ plen > rlxuPayloadMax ∨ plen ≠ len - rlxuBodyOff then .hdrLen
    else .ok

/-- The 16-bit sum over a `cr6c` body. -/
def cr6cSum (img : ByteMap) (len : Nat) : Nat :=
  ((List.range ((len - cr6cHdrLen) / 2)).map fun i =>
    be16 img (cr6cHdrLen + 2 * i)).sum

/-- `rlxfw_spi_inst_chk_cr6c`. -/
def chkCr6c (img : ByteMap) (len base : Nat) : Reason :=
  if len < 4 ∨ be32 img 0 ≠ cr6cMagic then .hdrMagic
  else if len < cr6cHdrLen then .hdrLen
  else if be32 img 8 ≠ base then .hdrFlashAt
  else
    let blen := be32 img 12
    if blen ≠ len - cr6cHdrLen ∨ blen % 2 ≠ 0 then .hdrLen
    else if cr6cSum img len % 0x10000 ≠ 0 then .hdrSum
    else .ok

/-- `rlxfw_spi_inst_chk_cfg`. -/
def chkCfg (img : ByteMap) (len : Nat) : Reason :=
  if len < 4 ∨ be32 img 0 ≠ cfgMagic then .hdrMagic
  else if len ≠ cfgSlot then .hdrLen
  else if be16 img 4 ≠ 1 ∨ be16 img 6 ≠ 24 then .hdrFormat
  else
    let seq := be32 img 8
    if seq = 0 ∨ seq > cfgSeqMax then .hdrSeq else .ok

/-- `rlxfw_spi_inst_chk_payload`. -/
def chkPayload (img : ByteMap) (len : Nat) (rg : Region) : Reason :=
  match rg.kind with
  | .rlxu => chkRlxu img len rg.base
  | .cr6c => chkCr6c img len rg.base
  | .cfg => chkCfg img len
  | .probe => .probeOnly
  | .erase => .eraseOnly

/-- `rlxfw_spi_inst_cmp`, as to whether any byte differs. -/
def cmpSame (got : ByteMap) (off n : Nat) (img : ByteMap) (len : Nat) : Bool :=
  (List.range n).all fun i => got i == wanted img len (off + i)

/-! ## The erase-size probe -/

/-- `rlxfw_spi_inst_probe_off`. -/
def probeOff : List Nat := [0x0000, 0x1000, 0x8000]

/-- `rlxfw_spi_inst_probe_byte`. -/
def probeByte (i : Nat) : UInt8 := UInt8.ofNat (0x41 + i % 26)

/-- `rlxfw_spi_inst_probe_mark`. -/
def probeMark : List UInt8 := (List.range WrPolicy.page).map probeByte

/-- `rlxfw_spi_inst_probe_chk_erased`, as to whether every byte is `0xFF`. -/
def allErased (p : ByteMap) (n : Nat) : Bool :=
  (List.range n).all fun i => p i == 0xFF

/-- `rlxfw_spi_inst_probe_chk_mark`. -/
def probeChkMark (p : ByteMap) : Reason :=
  if (List.range WrPolicy.page).all fun i => p i == probeByte i then .ok
  else .probeMark

/-- What one marker page reads as after the erase. -/
inductive MarkState where
  | erased
  | intact
  | other
deriving DecidableEq, Repr

/-- `rlxfw_spi_inst_probe_state`. -/
def probeState (p : ByteMap) : MarkState :=
  if allErased p WrPolicy.page then .erased
  else if probeChkMark p = .ok then .intact
  else .other

/-- `rlxfw_spi_inst_probe_size`; `none` is the source's -1. -/
def probeSizeOf (m0 m1 m8 : MarkState) : Option Nat :=
  match m0, m1, m8 with
  | .erased, .intact, .intact => some 4096
  | .erased, .erased, .intact => some 32768
  | .erased, .erased, .erased => some 65536
  | .intact, .intact, .intact => some 0
  | _, _, _ => none

/-- `rlxfw_spi_inst_probe_clean_step`. -/
def probeCleanStep (seBytes : Option Nat) : Nat :=
  match seBytes with
  | none => 0x1000
  | some bytes =>
      if bytes = 4096 ∨ bytes = 32768 ∨ bytes = 65536 then bytes else 0

/-- `rlxfw_spi_inst_probe_verdict`. -/
def probeVerdict (seBytes : Option Nat) (clean : Bool) : Reason :=
  if ¬ clean then .probeUnclean
  else if seBytes = none then .probeAnomaly
  else .ok

/-! ## The counter -/

/-- `rlxfw_spi_inst_ctr_decode`, the same reading of a bitmap as rlxboot's. -/
def ctrDecode (bm : ByteMap) : Nat × Bool :=
  Counter.rlxuCounterFromBitmap (bm.slice 0 ctrBytes)

/-- `rlxfw_spi_inst_ctr_bit`. -/
def ctrBit (bm : ByteMap) (b : Nat) : Bool :=
  (bm (b / 8)).toNat.testBit (7 - b % 8)

/-- `rlxfw_spi_inst_ctr_addr`. -/
def ctrAddr (base b : Nat) : Nat := base + b / 8

/-- `rlxfw_spi_inst_ctr_value`. -/
def ctrValue (b : Nat) : UInt8 := UInt8.ofNat (0xFF >>> (b % 8 + 1))

/-- `rlxfw_spi_inst_ctr_tie`. -/
def ctrTie (n : Nat) (hoOk : Bool) (hoVer : Nat) : Reason :=
  if ¬ hoOk ∨ hoVer ≠ n then .ctrHandoff else .ok

/-- `rlxfw_spi_inst_ctr_check`: the refusals on the bitmap as read, and the
programs the advance takes. -/
def ctrCheck (bm : ByteMap) (n : Nat) : Except Reason Nat :=
  if n < (ctrDecode bm).1 then .error .ctrBelow
  else if (List.range' n (ctrBits - n)).any fun b => !ctrBit bm b then
    .error .ctrMalformed
  else .ok ((List.range n).countP (ctrBit bm))

/-- `rlxfw_spi_inst_ctr_next`: the lowest bit of `[first, n)` that reads 1, or
`n`. -/
def ctrNext (bm : ByteMap) (n first : Nat) : Nat :=
  ((List.range' first (n - first)).find? (ctrBit bm)).getD n

theorem ctrNext_ge (bm : ByteMap) {n first : Nat} (within : first ≤ n) :
    first ≤ ctrNext bm n first := by
  unfold ctrNext
  cases found : (List.range' first (n - first)).find? (ctrBit bm) with
  | none => exact within
  | some b => exact (List.mem_range'_1.mp (List.mem_of_find?_eq_some found)).1

/-- `rlxfw_spi_inst_ctr_verify`. -/
def ctrVerify (bm : ByteMap) (n : Nat) : Reason :=
  if (ctrDecode bm).1 ≠ n ∨ (ctrDecode bm).2 then .ctrCmp else .ok

/-! ## The counter's scratch loop -/

/-- `RLXFW_SPI_INST_LOOP_OPS`. -/
def loopOps : Nat := ctrBits + 1

/-- `struct rlxfw_spi_inst_ctrop`. -/
structure CtrOp where
  kind : OpKind
  addr : Nat
  val : UInt8
  pass : Nat
  bit : Nat
deriving DecidableEq, Repr

/-- `rlxfw_spi_inst_loop_nops`. -/
def loopNops (passes : Nat) : Nat := passes * loopOps + 1

/-- `rlxfw_spi_inst_loop_op`. -/
def loopOp (passes i : Nat) : CtrOp :=
  if i ≥ loopNops passes then
    { kind := .fin, addr := 0, val := 0xFF, pass := 0, bit := 0 }
  else
    let j := i % loopOps
    if j = 0 then
      { kind := .erase, addr := probeBase, val := 0xFF, pass := i / loopOps
        bit := 0 }
    else
      { kind := .prog, addr := ctrAddr probeBase (j - 1)
        val := ctrValue (j - 1), pass := i / loopOps, bit := j - 1 }

end RlxFw.Install
