import RlxFw.InstallRegion
import RlxFw.NorFlash

/-!
# The write order of an install

`rlxfw_spi_inst_plan_init` and `rlxfw_spi_inst_op`: erase the region upwards,
program pages 1 to `np - 1`, and program page 0 last.  The per-phase arms are
those `rtl819x_spi_inst_run` sets up and charges for every operation.
-/

namespace RlxFw.Install

/-- `struct rlxfw_spi_inst_plan`. -/
structure Plan where
  base : Nat
  size : Nat
  len : Nat
  grain : Nat
  ne : Nat
  np : Nat
deriving DecidableEq, Repr

/-- `rlxfw_spi_inst_plan_init`; a refused plan is an empty one. -/
def planInit (rg : Region) (len grain : Nat) : Except Reason Plan :=
  if grain = 0 ∨ grain &&& (grain - 1) ≠ 0 ∨ grain < WrPolicy.page ∨
      grain > blockSize then
    .error .policy
  else if len > rg.size then .error .imgSize
  else
    .ok { base := rg.base, size := rg.size, len := len, grain := grain
          ne := rg.size / grain
          np := (len + WrPolicy.page - 1) / WrPolicy.page }

/-- `rlxfw_spi_inst_nops`. -/
def nops (pl : Plan) : Nat := pl.ne + pl.np

/-- What an operation of a plan or of the counter's loop is. -/
inductive OpKind where
  | fin
  | erase
  | prog
deriving DecidableEq, Repr

/-- `struct rlxfw_spi_inst_opd`. -/
structure Opd where
  kind : OpKind
  addr : Nat
  len : Nat
  off : Nat
  blk : Nat
  blkEnd : Bool
  commit : Bool
deriving DecidableEq, Repr

/-- The page programmed by program number `j`: 1 to `np - 1`, then 0. -/
def pageIndex (np j : Nat) : Nat := if j + 1 < np then j + 1 else 0

/-- `rlxfw_spi_inst_op`. -/
def planOp (pl : Plan) (i : Nat) : Opd :=
  if i < pl.ne then
    let off := i * pl.grain
    { kind := .erase, addr := pl.base + off, len := pl.grain, off := off
      blk := off / blockSize
      blkEnd := decide ((off + pl.grain) % blockSize = 0)
      commit := false }
  else
    let j := i - pl.ne
    if j ≥ pl.np then
      { kind := .fin, addr := 0, len := 0, off := 0, blk := 0
        blkEnd := false, commit := false }
    else
      let k := pageIndex pl.np j
      let off := k * WrPolicy.page
      { kind := .prog, addr := pl.base + off
        len := min (pl.len - off) WrPolicy.page
        off := off, blk := off / blockSize
        blkEnd := decide (k = 0) || decide (k + 1 = pl.np) ||
          decide ((k + 1) * WrPolicy.page % blockSize = 0)
        commit := decide (k = 0) }

/-- The two arms of an install's phases. -/
structure Arms where
  erase : WrPolicy.Arm
  prog : WrPolicy.Arm
deriving DecidableEq, Repr

/-- `arm_e` and `arm_p` as `rtl819x_spi_inst_run` sets them for a region. -/
def phaseArms (rg : Region) : Arms :=
  let arm : WrPolicy.Arm :=
    { armed := true, lo := rg.base, hi := rg.base + rg.size
      budget := rg.size }
  { erase := arm, prog := arm }

/-- The policy's answer to an operation under the arm of its phase, at the
driver's grain, which is also the `erasesize` of its mtd. -/
def policyCheck (arms : Arms) (op : Opd) : WrPolicy.Reason :=
  match op.kind with
  | .erase =>
      WrPolicy.chkErase arms.erase op.addr op.len WrPolicy.eraseGrain
        WrPolicy.eraseGrain
  | .prog => WrPolicy.chkProg arms.prog op.addr op.len
  | .fin => .ok

/-- The arms after an operation has gone out. -/
def charge (arms : Arms) (op : Opd) : Arms :=
  match op.kind with
  | .erase =>
      { arms with
        erase := { arms.erase with budget := arms.erase.budget - op.len } }
  | .prog =>
      { arms with
        prog := { arms.prog with budget := arms.prog.budget - op.len } }
  | .fin => arms

/-- The arms before operation `i` of a plan. -/
def armsBefore (pl : Plan) (arms : Arms) (i : Nat) : Arms :=
  (List.range i).foldl (fun left j => charge left (planOp pl j)) arms

/-- What an operation does to the part: an erase opcode at its address, or a
page program of the staged bytes at its offset. -/
def effect (image : ByteMap) (op : Opd) : NorFlash.Op :=
  match op.kind with
  | .erase => .erase op.addr
  | .prog => .program op.addr op.len (fun index => image (op.off + index))
  | .fin => .program op.addr 0 image

/-- A plan's operations on the part, in order. -/
def effects (pl : Plan) (image : ByteMap) : List NorFlash.Op :=
  (List.range (nops pl)).map fun i => effect image (planOp pl i)

/-- `rlxfw_spi_inst_cmp`'s expectation: the staged bytes, then `0xFF`. -/
def wanted (image : ByteMap) (len : Nat) : ByteMap :=
  fun off => if off < len then image off else 0xFF

end RlxFw.Install
