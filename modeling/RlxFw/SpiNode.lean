import RlxFw.Decimal
import RlxFw.KeyLines

/-!
# The state node of the flash driver

What `/proc/rtl819x-spi-inst` prints: one line for the writes, the install block
and the counter's block, each field at whatever width its value has.
-/

namespace RlxFw.SpiNode

open KeyLines (Entry)

/-! ## Conversions -/

/-- `%u` of a `u32`. -/
def u (v : UInt32) : List UInt8 := Decimal.text v.toNat

/-- `%d` of an `int`. -/
def d (v : Int32) : List UInt8 :=
  if v.toInt < 0 then 0x2D :: Decimal.text v.toInt.natAbs else Decimal.text v.toInt.natAbs

/-- `RLXFW_SPI_INST_B`, printed. -/
def b (v : Int32) : List UInt8 := if v ≠ 0 then [0x31] else [0x30]

/-- The digits of `%X`. -/
def hexDigits : List UInt8 := ascii "0123456789ABCDEF"

/-- The eight nibbles of a `u32`, the first the highest. -/
def nibbles (v : UInt32) : List Nat :=
  (List.range 8).map fun i => v.toNat / 16 ^ (7 - i) % 16

/-- `%0<width>X` of a `u32`. -/
def hex (width : Nat) (v : UInt32) : List UInt8 :=
  let digits := (nibbles v).dropWhile (· = 0)
  (List.replicate (width - digits.length) 0 ++ digits).map (byteAt hexDigits)

/-! ## The state -/

/-- `struct rlxfw_spi_inst_res`. -/
structure InstRes where
  ran : Int32
  verb : Int32
  region1 : Int32
  base : UInt32
  size : UInt32
  len : UInt32
  paceMs : UInt32
  reason : Int32
  rc : Int32
  policy : Int32
  armOk : Int32
  shaChecked : Int32
  shaOk : Int32
  hdrChecked : Int32
  hdrOk : Int32
  opsPlanned : UInt32
  opsDone : UInt32
  nSe : UInt32
  nPp : UInt32
  erased : UInt32
  programmed : UInt32
  committed : Int32
  phase : Int32
  cmpRan : Int32
  cmpOk : Int32
  cmpBytes : UInt32
  cmpDiff : UInt32
  cmpFirst : UInt32
  ms : UInt32

/-- `struct rlxfw_spi_inst_st`. -/
structure InstSt where
  attempts : UInt32
  done : UInt32
  refused : UInt32
  failed : UInt32
  r : InstRes

/-- `struct rlxfw_spi_inst_img`. -/
structure Img where
  len : UInt32
  writes : UInt32
  resets : UInt32
  err : Int32

/-- `struct rlxfw_spi_inst_probe`, as far as it is printed. -/
structure Probe where
  ran : Int32
  classified : Int32
  seBytes : Int32
  m : Fin 3 → Int32
  sePolls : UInt32
  seJiffies : UInt32
  ppPolls : UInt32
  ppJiffies : UInt32
  calPolls : UInt32
  calTicks : UInt32
  cleanKnown : Int32
  clean : Int32
  cleanStep : UInt32
  cleanOps : UInt32

/-- `struct rlxfw_spi_inst_ctr_st`. -/
structure CtrState where
  attempts : UInt32
  done : UInt32
  refused : UInt32
  failed : UInt32
  ran : Int32
  reason : Int32
  malformed : Int32
  cur : UInt32
  newv : UInt32
  read : UInt32
  pp : UInt32
  ms : UInt32
  loopRan : Int32
  loopReason : Int32
  loopPasses : UInt32
  loopDone : UInt32
  loopOps : UInt32
  loopMs : UInt32
  scrShows : UInt32
  scrValue : UInt32
  scrRc : Int32
  scrMalformed : Int32
  scrErased : Int32

/-- What the node prints, with the length of a tick. -/
structure State where
  nWrites : UInt32
  inst : InstSt
  img : Img
  probe : Probe
  ctr : CtrState
  tickUs : UInt32

/-! ## Names -/

/-- A name of a table by an `int`, or the one for numbers outside it. -/
def nameOf (table : List (List UInt8)) (other : List UInt8) (i : Int32) : List UInt8 :=
  if 0 ≤ i.toInt then table.getD i.toInt.toNat other else other

/-- `rlxfw_spi_inst_rname`. -/
def rname : List (List UInt8) :=
  [ascii "OK", ascii "SYNTAX", ascii "REGION", ascii "ERASE_ONLY", ascii "NOT_ERASABLE",
    ascii "ARM_READ", ascii "UNARMED", ascii "ARM_WINDOW", ascii "ARM_BUDGET",
    ascii "IMG_BAD", ascii "IMG_EMPTY", ascii "IMG_SIZE", ascii "KAT", ascii "HASH",
    ascii "SHA", ascii "HDR_MAGIC", ascii "HDR_FORMAT", ascii "HDR_FLASH_AT",
    ascii "HDR_FORM", ascii "HDR_LEN", ascii "HDR_SUM", ascii "POLICY", ascii "NOMEM",
    ascii "ENGINE", ascii "CMP", ascii "PROBE_ONLY", ascii "PROBE_DIRTY",
    ascii "PROBE_MARK", ascii "PROBE_ANOMALY", ascii "PROBE_UNCLEAN", ascii "HDR_SEQ",
    ascii "REPEAT_ONLY_SLOT", ascii "RUNNING_SLOT", ascii "CTR_ABOVE",
    ascii "CTR_HANDOFF", ascii "CTR_BELOW", ascii "CTR_MALFORMED", ascii "CTR_CMP"]

/-- `rlxfw_spi_inst_reason_name`. -/
def reasonName (r : Int32) : List UInt8 := nameOf rname (ascii "?") r

/-- `rlxfw_spi_inst_iname`. -/
def iname : List (List UInt8) :=
  [ascii "none", ascii "OVERFLOW", ascii "FAULT", ascii "NOMEM", ascii "POISONED"]

/-- The name of an image's error. -/
def imgErrName (err : Int32) : List UInt8 := nameOf iname (ascii "?") err

/-- `rlxfw_spi_inst_verb_name`. -/
def verbName (v : Int32) : List UInt8 :=
  if v = 1 then ascii "install"
  else if v = 2 then ascii "erase"
  else if v = 3 then ascii "eraseprobe"
  else ascii "-"

/-- The names of `rlxfw_spi_inst_regions`, in a build that provisions or in one
that does not. -/
def regionNames (provision : Bool) : List (List UInt8) :=
  (if provision then [ascii "rlxboot", ascii "rescue", ascii "barrier"] else []) ++
    [ascii "slotA", ascii "slotB", ascii "cfg0", ascii "cfg1", ascii "probe"]

/-- `rlxfw_spi_inst_region_name`. -/
def regionName (provision : Bool) (region1 : Int32) : List UInt8 :=
  if 0 < region1.toInt then
    (regionNames provision).getD (region1.toInt.toNat - 1) (ascii "-")
  else ascii "-"

/-! ## The blocks -/

/-- A line of its own key. -/
def line (key : String) (value : List UInt8) : Entry := ⟨ascii key, value⟩

/-- A marker page's letter. -/
def marker (v : Int32) : UInt8 :=
  if v = 0x45 then 0x45 else if v = 0x49 then 0x49 else if v = 0x4F then 0x4F else 0x2D

/-- The letter of a phase, when it prints. -/
def phaseChar (phase : Int32) : UInt8 :=
  if 32 < phase.toInt ∧ phase.toInt < 127 then UInt8.ofNat phase.toInt.toNat else 0x2D

/-- `RLXFW_SPI_INST_IMG_CAP`. -/
def imgCap : UInt32 := 0x00120000

/-- The value of the `eraseprobe` line. -/
def probeLine (pr : Probe) (tickUs : UInt32) : List UInt8 :=
  ascii "se_bytes=" ++ d (if pr.classified ≠ 0 then pr.seBytes else -1) ++
    ascii " se_polls=" ++ u pr.sePolls ++ ascii " se_us=" ++ u (pr.seJiffies * tickUs) ++
    ascii " pp_us=" ++ u (pr.ppJiffies * tickUs) ++ ascii " clean=" ++
    (if pr.cleanKnown ≠ 0 then b pr.clean else ascii "-1")

/-- The value of the `eraseprobe_detail` line. -/
def probeDetail (pr : Probe) : List UInt8 :=
  ascii "ran=" ++ b pr.ran ++ ascii " m0000=" ++ [marker (pr.m 0)] ++ ascii " m1000=" ++
    [marker (pr.m 1)] ++ ascii " m8000=" ++ [marker (pr.m 2)] ++ ascii " se_jiffies=" ++
    u pr.seJiffies ++ ascii " pp_polls=" ++ u pr.ppPolls ++ ascii " pp_jiffies=" ++
    u pr.ppJiffies ++ ascii " cal_polls=" ++ u pr.calPolls ++ ascii " cal_ticks=" ++
    u pr.calTicks ++ ascii " clean_step=" ++ u pr.cleanStep ++ ascii " clean_ops=" ++
    u pr.cleanOps

/-- `rlxfw_spi_inst_emit`. -/
def emit (provision : Bool) (s : InstSt) (im : Img) (pr : Probe)
    (eraseOpcode eraseStep tickUs : UInt32) : List Entry :=
  let r := s.r
  [line "inst_version" (ascii "rtl819x-spi-install 1.2"),
    line "img_cap" (u imgCap),
    line "img_len" (u im.len),
    line "img_writes" (u im.writes),
    line "img_resets" (u im.resets),
    line "img_err" (imgErrName im.err),
    line "inst_attempts" (u s.attempts),
    line "inst_done" (u s.done),
    line "inst_refused" (u s.refused),
    line "inst_failed" (u s.failed),
    line "inst_ran" (b r.ran),
    line "inst_verb" (verbName r.verb),
    line "inst_region" (regionName provision r.region1),
    line "inst_base" (hex 6 r.base),
    line "inst_size" (u r.size),
    line "inst_len" (u r.len),
    line "inst_paced" (if r.paceMs ≠ 0 then [0x31] else [0x30]),
    line "inst_pace_ms" (u r.paceMs),
    line "inst_reason" (reasonName r.reason),
    line "inst_rc" (d r.rc),
    line "inst_policy" (d r.policy),
    line "inst_arm_ok" (b r.armOk),
    line "inst_sha_checked" (b r.shaChecked),
    line "inst_sha_ok" (b r.shaOk),
    line "inst_hdr_checked" (b r.hdrChecked),
    line "inst_hdr_ok" (b r.hdrOk),
    line "inst_erase_op" (hex 2 eraseOpcode),
    line "inst_erase_step" (u eraseStep),
    line "inst_ops" (u r.opsDone),
    line "inst_ops_planned" (u r.opsPlanned),
    line "inst_n_se" (u r.nSe),
    line "inst_n_pp" (u r.nPp),
    line "inst_erased" (u r.erased),
    line "inst_programmed" (u r.programmed),
    line "inst_committed" (b r.committed),
    line "inst_phase" [phaseChar r.phase],
    line "inst_cmp_ran" (b r.cmpRan),
    line "inst_cmp_ok" (b r.cmpOk),
    line "inst_cmp_bytes" (u r.cmpBytes),
    line "inst_cmp_diff" (u r.cmpDiff),
    line "inst_cmp_first" (d (if r.cmpDiff ≠ 0 then r.cmpFirst.toInt32 else -1)),
    line "inst_ms" (u r.ms),
    line "eraseprobe" (probeLine pr tickUs),
    line "eraseprobe_detail" (probeDetail pr),
    line "inst_truncated" (ascii "0")]

/-- `rlxfw_spi_inst_emit_ctr`. -/
def emitCtr (c : CtrState) : List Entry :=
  [line "ctr_attempts" (u c.attempts),
    line "ctr_done" (u c.done),
    line "ctr_refused" (u c.refused),
    line "ctr_failed" (u c.failed),
    line "ctr_ran" (b c.ran),
    line "ctr_reason" (reasonName c.reason),
    line "ctr_cur" (u c.cur),
    line "ctr_malformed" (b c.malformed),
    line "ctr_new" (u c.newv),
    line "ctr_read" (u c.read),
    line "ctr_pp" (u c.pp),
    line "ctr_ms" (u c.ms),
    line "loop_ran" (b c.loopRan),
    line "loop_reason" (reasonName c.loopReason),
    line "loop_passes" (u c.loopPasses),
    line "loop_done" (u c.loopDone),
    line "loop_ops" (u c.loopOps),
    line "loop_ms" (u c.loopMs),
    line "ctrscratch_shows" (u c.scrShows),
    line "ctrscratch_rc" (d c.scrRc),
    line "ctrscratch_value" (u c.scrValue),
    line "ctrscratch_malformed" (b c.scrMalformed),
    line "ctrscratch_erased" (b c.scrErased),
    line "ctr_truncated" (ascii "0")]

/-- `RLXFW_SPI_INST_PROC_MAX`. -/
def instProcMax : Nat := 1183

/-- `RLXFW_SPI_INST_CTR_PROC_MAX`. -/
def ctrProcMax : Nat := 501

/-- `RLXFW_SPI_INST_NODE_MAX`. -/
def nodeMax : Nat := 20 + instProcMax + ctrProcMax

/-- `RTL819X_SPI_CMD_SE`. -/
def cmdSe : UInt32 := 0x20

/-- `RLXFW_SPI_WR_ERASE_GRAIN`. -/
def eraseGrain : UInt32 := 0x1000

/-- The lines of `rtl819x_spi_inst_node_read_proc`. -/
def nodeLines (provision : Bool) (st : State) : List Entry :=
  line "n_writes" (u st.nWrites) ::
    (emit provision st.inst st.img st.probe cmdSe eraseGrain st.tickUs ++ emitCtr st.ctr)

/-- `rtl819x_spi_inst_node_read_proc`. -/
def nodeReadProc (provision : Bool) (st : State) : List UInt8 :=
  KeyLines.text (nodeLines provision st)

end RlxFw.SpiNode
