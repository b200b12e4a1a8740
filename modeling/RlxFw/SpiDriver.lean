import RlxFw.Emission
import RlxFw.Handoff
import RlxFw.InstallChecks
import RlxFw.InstallParse

/-!
# The SPI driver's verbs

`rtl819x-spi.c` and `rtl819x-spi-write.c` as state and computations.  The
controller, the allocator, the digest engine and user memory are a `Machine`;
the driver's statics are `Driver`; an erase or a program counts as issued when
its transaction starts, whatever becomes of it.
-/

namespace RlxFw.Spi

open Install (Region Req)
open Emission

/-- The errnos the driver answers with. -/
inductive Errno where
  | eperm
  | eio
  | eacces
  | efault
  | ebusy
  | enodata
  | einval
  | efbig
  | enospc
  | enoexec
  | enomem
  | erange
  | eproto
  | ebadmsg
  | eilseq
  | enotempty
  | etimedout
deriving DecidableEq, Repr

/-- `rtl819x_spi_inst_errno`, 0 being `none`. -/
def instErrno : Install.Reason → Option Errno
  | .ok => none
  | .badSyntax | .region | .eraseOnly | .notErasable => some .einval
  | .armRead => some .eproto
  | .unarmed => some .eacces
  | .armWindow => some .eperm
  | .armBudget => some .enospc
  | .imgBad => some .eio
  | .imgEmpty => some .enodata
  | .imgSize => some .efbig
  | .kat => some .eperm
  | .hash => some .eio
  | .sha => some .ebadmsg
  | .hdrMagic | .hdrFormat | .hdrFlashAt | .hdrForm | .hdrLen | .hdrSum =>
      some .enoexec
  | .policy => some .eperm
  | .nomem => some .enomem
  | .engine | .cmp => some .eio
  | .probeOnly => some .einval
  | .probeDirty => some .enotempty
  | .probeMark | .probeAnomaly | .probeUnclean => some .eio
  | .hdrSeq => some .enoexec
  | .repeatOnlySlot => some .einval
  | .runningSlot => some .ebusy
  | .ctrAbove => some .erange
  | .ctrHandoff => some .eperm
  | .ctrBelow => some .erange
  | .ctrMalformed => some .eilseq
  | .ctrCmp => some .eio

/-- `rtl819x_spi_wr_errno`. -/
def wrErrno : WrPolicy.Reason → Option Errno
  | .ok => none
  | .forbidden => some .eperm
  | .range => some .einval
  | .unarmed => some .eacces
  | .outside => some .eperm
  | .budget => some .enospc
  | .misaligned | .badLen | .pageCross => some .einval
  | .geom => some .eproto

/-- What stops a verb: a reason, or a primitive's errno. -/
inductive Halt where
  | reason (why : Install.Reason)
  | engine (rc : Errno)
deriving DecidableEq, Repr

/-- What a verb answers when it stops. -/
def Halt.errno : Halt → Option Errno
  | .reason why => instErrno why
  | .engine rc => some rc

/-- How a transaction ended: its errno, and whether the controller's registers
read back as `rtl819x_spi_release` wrote them. -/
structure Transfer where
  rc : Option Errno
  restored : Bool
deriving DecidableEq, Repr

/-- The verbs that only read. -/
inductive Inspection where
  | probe
  | rdid
  | h601
  | wedge
  | verify (arg : List UInt8)
  | corrupt (arg : List UInt8)
  | map (arg : List UInt8)

/-- What the driver calls outside itself, on a state of its own. -/
structure Machine (World : Type) where
  seBlock : Nat → World → Transfer × World
  ppPage : Nat → List UInt8 → World → Transfer × World
  readPio : Nat → Nat → World → (Transfer × ByteMap) × World
  probeCal : World → Transfer × World
  /-- `kmalloc` and `vmalloc`, as to whether they succeed. -/
  alloc : Nat → World → Bool × World
  /-- `copy_from_user`, as to whether every byte was copied. -/
  copyFromUser : World → Bool × World
  sha256 : List UInt8 → World → Except Errno (List UInt8) × World
  /-- `simple_strtoul` at base 0: the value, and what follows it. -/
  strtoul : List UInt8 → Nat × List UInt8
  /-- A reading verb: its errno, and whether the driver is wedged after. -/
  inspect : Inspection → Bool → World → (Option Errno × Bool) × World

/-- What is settled at boot. -/
structure Boot where
  handoff : Except Handoff.Fault Handoff.Valid
  katRc : Option Errno

/-- `rtl819x_spi_handoff`: the slot, or 0. -/
def Boot.hoSlot (b : Boot) : UInt8 :=
  match b.handoff with
  | .ok valid => valid.slot.toUInt8
  | .error _ => 0

/-- `rtl819x_spi_handoff`'s version, or 0. -/
def Boot.hoVer (b : Boot) : Nat :=
  match b.handoff with
  | .ok valid => valid.ver.toNat
  | .error _ => 0

/-- The driver's statics. -/
structure Driver where
  arm : WrPolicy.Arm
  img : Option ByteMap
  imgSt : Install.Img
  wedged : Bool
  nWrites : Nat

/-- The statics as boot leaves them. -/
def Driver.boot : Driver where
  arm := { armed := false, lo := 0, hi := 0, budget := 0 }
  img := none
  imgSt := { len := 0, writes := 0, resets := 0, err := .ok }
  wedged := false
  nWrites := 0

/-- The driver and the world it runs in. -/
structure State (World : Type) where
  driver : Driver
  world : World

/-- A verb. -/
abbrev Verb (World Value : Type) : Type :=
  Emission (State World) NorFlash.Op Halt Value

variable {World : Type}

/-- Ask the world. -/
def ask {Value : Type} (question : World → Value × World) :
    Verb World Value :=
  step fun s => ((question s.world).1, { s with world := (question s.world).2 })

/-- Read the statics. -/
def fromDriver {Value : Type} (field : Driver → Value) : Verb World Value :=
  read fun s => field s.driver

/-- Write the statics. -/
def updateDriver (update : Driver → Driver) : Verb World Unit :=
  change fun s => { s with driver := update s.driver }

/-- Go on only if a check passed. -/
def require (why : Install.Reason) : Verb World Unit :=
  if why = .ok then pure () else stop (.reason why)

/-- Go on only if the write policy passed. -/
def requirePolicy (why : WrPolicy.Reason) : Verb World Unit :=
  if why = .ok then pure () else stop (.reason .policy)

/-- Take a value that a check may refuse. -/
def accept {Value : Type} (value : Except Install.Reason Value) :
    Verb World Value :=
  match value with
  | .ok value => pure value
  | .error why => stop (.reason why)

/-! ## The primitives -/

/-- `rtl819x_spi_claim`. -/
def claim : Verb World Unit := do
  let wedged ← fromDriver Driver.wedged
  if wedged then stop (.engine .eio) else pure ()

/-- `rtl819x_spi_release`, and the errno its callers return. -/
def release (t : Transfer) : Verb World Unit := do
  updateDriver fun d => { d with wedged := d.wedged || !t.restored }
  match t.rc with
  | some rc => stop (.engine rc)
  | none => if t.restored then pure () else stop (.engine .eio)

/-- `rtl819x_spi_note_write`. -/
def noteWrite : Verb World Unit :=
  updateDriver fun d => { d with nWrites := d.nWrites + 1 }

variable (m : Machine World)

/-- `rtl819x_spi_se_block`. -/
def seBlock (addr : Nat) : Verb World Unit := do
  claim
  issue (.erase addr)
  let t ← ask (m.seBlock addr)
  release t

/-- `rtl819x_spi_pp_page`. -/
def ppPage (addr : Nat) (bytes : List UInt8) : Verb World Unit := do
  claim
  issue (.program addr bytes.length (ByteMap.ofList bytes 0xFF))
  let t ← ask (m.ppPage addr bytes)
  release t

/-- `rtl819x_spi_read_pio`. -/
def readPio (addr len : Nat) : Verb World ByteMap := do
  claim
  let answer ← ask (m.readPio addr len)
  release answer.1
  pure answer.2

/-- `kmalloc`, with `NOMEM` for a failure. -/
def kmalloc (size : Nat) : Verb World Unit := do
  let given ← ask (m.alloc size)
  require (if given then .ok else .nomem)

/-- `RTL819X_SPI_CHUNK`. -/
def chunk : Nat := 4096

/-! ## The erase-size probe -/

/-- `rtl819x_spi_probe_read_ff`. -/
def probeReadFf (base size : Nat) : Verb World Bool :=
  repeatFrom
    (fun index allFf => do
      let buf ← readPio m (base + index * chunk) chunk
      pure (allFf && Install.allErased buf chunk))
    0 ((size + chunk - 1) / chunk) true

/-- A marker page, read back. -/
def markPage (rg : Region) (off : Nat) (arms : Install.Arms) :
    Verb World Install.Arms := do
  requirePolicy (WrPolicy.chkProg arms.prog (rg.base + off) WrPolicy.page)
  ppPage m (rg.base + off) Install.probeMark
  noteWrite
  let buf ← readPio m (rg.base + off) WrPolicy.page
  require (Install.probeChkMark buf)
  pure { arms with
    prog := { arms.prog with budget := arms.prog.budget - WrPolicy.page } }

/-- One erase at the driver's grain, under an arm. -/
def eraseGrain (addr : Nat) (arms : Install.Arms) :
    Verb World Install.Arms := do
  requirePolicy (WrPolicy.chkErase arms.erase addr WrPolicy.eraseGrain
    WrPolicy.eraseGrain WrPolicy.eraseGrain)
  seBlock m addr
  noteWrite
  pure { arms with
    erase :=
      { arms.erase with budget := arms.erase.budget - WrPolicy.eraseGrain } }

/-- `rtl819x_spi_probe`. -/
def probe (rg : Region) : Verb World Unit := do
  kmalloc m chunk
  let before ← probeReadFf m rg.base rg.size
  require (if before then .ok else .probeDirty)
  claim
  let calibrated ← ask m.probeCal
  release calibrated
  -- arm_p, arm_e and arm_c start alike
  let arms ← markPage m rg 0x0000 (Install.phaseArms rg)
  let arms ← markPage m rg 0x1000 arms
  let _ ← markPage m rg 0x8000 arms
  let _ ← eraseGrain m rg.base (Install.phaseArms rg)
  let m0 ← readPio m (rg.base + 0x0000) WrPolicy.page
  let m1 ← readPio m (rg.base + 0x1000) WrPolicy.page
  let m8 ← readPio m (rg.base + 0x8000) WrPolicy.page
  let seBytes := Install.probeSizeOf (Install.probeState m0)
    (Install.probeState m1) (Install.probeState m8)
  let cleanStep := Install.probeCleanStep seBytes
  -- a step of 0 divides to no turn at all
  let _ ← repeatFrom
    (fun index arms => eraseGrain m (rg.base + index * cleanStep) arms)
    0 ((rg.size + cleanStep - 1) / cleanStep) (Install.phaseArms rg)
  let after ← probeReadFf m rg.base rg.size
  require (Install.probeVerdict seBytes after)

/-! ## An install -/

/-- What is checked of the staged bytes before anything is sent. -/
def stagedImage (b : Boot) (rq : Req) (rg : Region) :
    Verb World (ByteMap × Nat) := do
  let imgSt ← fromDriver Driver.imgSt
  require (Install.chkImg imgSt rg)
  let img ← fromDriver Driver.img
  let img ← accept (img.elim (.error .imgEmpty) .ok)
  require (if b.katRc.isSome then .kat else .ok)
  let got ← ask (m.sha256 (img.slice 0 imgSt.len))
  let got ← accept (got.mapError fun _ => .hash)
  require (if got = rq.sha then .ok else .sha)
  require (Install.chkPayload img imgSt.len rg)
  pure (img, imgSt.len)

/-- One operation of the plan: the policy, the primitive, the charge. -/
def runOp (img : ByteMap) (op : Install.Opd) (arms : Install.Arms) :
    Verb World Install.Arms :=
  match op.kind with
  | .erase => do
      requirePolicy (Install.policyCheck arms op)
      seBlock m op.addr
      noteWrite
      pure (Install.charge arms op)
  | .prog => do
      requirePolicy (Install.policyCheck arms op)
      ppPage m op.addr (img.slice op.off op.len)
      noteWrite
      pure (Install.charge arms op)
  | .fin => stop (.reason .policy)

/-- The read-back over the whole region. -/
def readBack (rg : Region) (img : ByteMap) (len : Nat) : Verb World Bool :=
  repeatFrom
    (fun index same => do
      let got ← readPio m (rg.base + index * chunk) chunk
      pure (same && Install.cmpSame got (index * chunk) chunk img len))
    0 ((rg.size + chunk - 1) / chunk) true

/-- One repetition of the plan, its per-phase arms whole. -/
def planRun (rg : Region) (pl : Install.Plan) (img : ByteMap) (len : Nat) :
    Verb World Unit := do
  let _ ← repeatFrom (fun i arms => runOp m img (Install.planOp pl i) arms)
    0 (Install.nops pl) (Install.phaseArms rg)
  let same ← readBack m rg img len
  require (if same then .ok else .cmp)

/-- The part of `rtl819x_spi_inst_run` that `install` and `erase` take. -/
def planRuns (rq : Req) (rg : Region) (img : ByteMap) (len : Nat) :
    Verb World Unit := do
  let pl ← accept (Install.planInit rg len WrPolicy.eraseGrain)
  kmalloc m chunk
  let nrep := if rq.repeats = 0 then 1 else rq.repeats
  repeatFrom (fun _ _ => planRun m rg pl img len) 1 nrep ()

/-- `rtl819x_spi_inst_run`. -/
def instRun (b : Boot) (line : List UInt8) : Verb World Unit := do
  let why := (Install.parse line).1
  let rq := (Install.parse line).2
  require why
  let rg ← accept (rq.region.elim (.error .region) .ok)
  require (Install.fence rg b.hoSlot)
  let arm ← fromDriver Driver.arm
  require (Install.chkArm arm rg)
  match rq.verb with
  | .probe => probe m rg
  | .install => do
      let staged ← stagedImage m b rq rg
      planRuns m rq rg staged.1 staged.2
  | _ => planRuns m rq rg (fun _ => 0xFF) 0

/-! ## The counter and its scratch loop -/

/-- `rtl819x_spi_ctr_pp`. -/
def ctrPp (lo addr : Nat) (val : UInt8) : Verb World Unit := do
  requirePolicy
    (WrPolicy.chkProg
      { armed := true, lo := lo, hi := lo + Install.ctrBytes
        budget := Install.ctrBytes }
      addr 1)
  ppPage m addr [val]
  noteWrite

/-- The programs of `rtl819x_spi_ctr_run`, from bit `b` up. -/
def ctrPrograms (bm : ByteMap) (n b : Nat) : Verb World Unit :=
  if pending : b < n then do
    ctrPp m Install.stateBase (Install.ctrAddr Install.stateBase b)
      (Install.ctrValue b)
    ctrPrograms bm n (Install.ctrNext bm n (b + 1))
  else pure ()
termination_by n - b
decreasing_by
  have := Install.ctrNext_ge bm (show b + 1 ≤ n by omega)
  omega

/-- `rtl819x_spi_ctr_run`. -/
def ctrRun (b : Boot) (rq : Req) (why : Install.Reason) :
    Verb World Unit := do
  require why
  require (Install.ctrTie rq.ctrN (b.hoSlot != 0) b.hoVer)
  kmalloc m (2 * Install.ctrBytes)
  let bm ← readPio m Install.stateBase Install.ctrBytes
  let nops ← accept (Install.ctrCheck bm rq.ctrN)
  if nops = 0 then pure ()
  else do
    ctrPrograms m bm rq.ctrN (Install.ctrNext bm rq.ctrN 0)
    let rb ← readPio m Install.stateBase Install.ctrBytes
    require (Install.ctrVerify rb rq.ctrN)

/-- `rtl819x_spi_loop_show`. -/
def loopShow : Verb World Unit := do
  kmalloc m chunk
  let _ ← readPio m Install.probeBase chunk

/-- One operation of the scratch loop. -/
def loopRunOp (op : Install.CtrOp) : Verb World Unit :=
  match op.kind with
  | .erase => do
      requirePolicy
        (WrPolicy.chkErase
          { armed := true, lo := op.addr
            hi := op.addr + WrPolicy.eraseGrain
            budget := WrPolicy.eraseGrain }
          op.addr WrPolicy.eraseGrain WrPolicy.eraseGrain WrPolicy.eraseGrain)
      seBlock m op.addr
      noteWrite
      let buf ← readPio m op.addr Install.ctrBytes
      require (if Install.allErased buf Install.ctrBytes then .ok
        else .probeUnclean)
  | .prog => do
      ctrPp m Install.probeBase op.addr op.val
      if op.bit + 1 = Install.ctrBits then do
        let buf ← readPio m Install.probeBase Install.ctrBytes
        require (Install.ctrVerify buf Install.ctrBits)
      else pure ()
  | .fin => stop (.reason .policy)

/-- `rtl819x_spi_loop_run`. -/
def loopRun (rq : Req) (why : Install.Reason) : Verb World Unit :=
  if rq.verb = .ctrshow then loopShow m
  else do
    require why
    let rg ← accept (rq.region.elim (.error .region) .ok)
    let arm ← fromDriver Driver.arm
    require (Install.chkArm arm rg)
    kmalloc m chunk
    repeatFrom (fun i _ => loopRunOp m (Install.loopOp rq.loops i)) 0
      (Install.loopNops rq.loops) ()
    let allFf ← probeReadFf m rg.base rg.size
    require (if allFf then .ok else .probeUnclean)

/-! ## The write path's own entry points -/

/-- `rtl819x_spi_wr_do_disarm`. -/
def doDisarm : Verb World Unit :=
  updateDriver fun d =>
    { d with arm := { armed := false, lo := 0, hi := 0, budget := 0 } }

/-- `rtl819x_spi_wr_do_arm`. -/
def doArm (lo hi budget : Nat) : Verb World (Option Errno) :=
  let why := WrPolicy.chkArm lo hi budget
  if why = .ok then do
    updateDriver fun d =>
      { d with arm := { armed := true, lo := lo, hi := hi, budget := budget } }
    pure none
  else pure (wrErrno why)

/-- The arm after `len` accepted bytes: an empty budget disarms. -/
def debit (arm : WrPolicy.Arm) (len : Nat) : WrPolicy.Arm :=
  { arm with
    budget := arm.budget - len
    armed := arm.armed && decide (arm.budget - len ≠ 0) }

/-- `rtl819x_spi_write_page`. -/
def writePage (offset : Int) (bytes : List UInt8) : Verb World (Option Errno) :=
  if offset < 0 ∨ offset ≥ WrPolicy.chip ∨ bytes.length > WrPolicy.chip then
    pure (wrErrno .range)
  else do
    let arm ← fromDriver Driver.arm
    let why := WrPolicy.chkProg arm offset.toNat bytes.length
    if why = .ok then do
      ppPage m offset.toNat bytes
      updateDriver fun d => { d with arm := debit d.arm bytes.length }
      noteWrite
      pure none
    else pure (wrErrno why)

/-- `rtl819x_spi_erase_sector`, on the driver's own mtd. -/
def eraseSector (addr len : Nat) : Verb World (Option Errno) :=
  if addr ≥ WrPolicy.chip ∨ len > WrPolicy.chip then pure (wrErrno .range)
  else do
    let arm ← fromDriver Driver.arm
    let why := WrPolicy.chkErase arm addr len WrPolicy.eraseGrain
      WrPolicy.eraseGrain
    if why = .ok then do
      repeatFrom
        (fun index _ => do
          seBlock m (addr + index * WrPolicy.eraseGrain)
          noteWrite)
        0 (len / WrPolicy.eraseGrain) ()
      updateDriver fun d => { d with arm := debit d.arm len }
      pure none
    else pure (wrErrno why)

/-! ## The verbs -/

/-- `rtl819x_spi_verb_trywrite`: a byte at 0 and a sector at 0. -/
def verbTrywrite : Verb World (Option Errno) := do
  let rcw ← writePage m 0 [0]
  let rce ← eraseSector m 0 WrPolicy.eraseGrain
  let nWrites ← fromDriver Driver.nWrites
  pure (if rcw = rce ∧ rcw = some .eperm ∧ nWrites = 0 then none
    else some .eproto)

/-- Skip blanks. -/
def skipBlanks (s : List UInt8) : List UInt8 :=
  s.dropWhile fun c => c == 0x20 || c == 0x09

/-- One number of `rtl819x_spi_verb_arm`. -/
def armNumber (s : List UInt8) : Option (Nat × List UInt8) :=
  let p := skipBlanks s
  let parsed := m.strtoul p
  if parsed.2 = p then none else some (parsed.1 % 2 ^ 32, parsed.2)

/-- `rtl819x_spi_verb_arm`. -/
def verbArm (arg : List UInt8) : Verb World (Option Errno) :=
  let numbers := do
    let lo ← armNumber m arg
    let hi ← armNumber m lo.2
    let budget ← armNumber m hi.2
    if skipBlanks budget.2 = [] then some (lo.1, hi.1, budget.1) else none
  match numbers with
  | none => pure (some .einval)
  | some (lo, hi, budget) => doArm lo hi budget

/-- The run that `rtl819x_spi_verb_inst` chooses. -/
def instBody (b : Boot) (line : List UInt8) (why : Install.Reason) (rq : Req) :
    Verb World Unit :=
  match rq.verb with
  | .ctr => ctrRun m b rq why
  | .ctrloop => loopRun m rq why
  | .ctrshow => loopRun m rq why
  | _ => instRun m b line

/-- `rtl819x_spi_verb_inst`: whatever the run came to, disarmed after it. -/
def verbInst (b : Boot) (line : List UInt8) : Verb World (Option Errno) := do
  let outcome ← attempt
    (instBody m b line (Install.parse line).1 (Install.parse line).2)
  doDisarm
  pure (match outcome with
    | .ok _ => none
    | .error halt => halt.errno)

/-- `rtl819x_spi_verb_img_reset`. -/
def verbImgReset : Verb World (Option Errno) := do
  updateDriver fun d =>
    { d with img := none, imgSt := Install.imgReset d.imgSt }
  pure none

/-- A verb that only reads. -/
def inspect (what : Inspection) : Verb World (Option Errno) := do
  let wedged ← fromDriver Driver.wedged
  let answer ← ask (m.inspect what wedged)
  updateDriver fun d => { d with wedged := answer.2 }
  pure answer.1

/-- Whether a line reaches `rtl819x_spi_verb_inst`. -/
def reachesInst (line : List UInt8) : Bool :=
  (ascii "install").isPrefixOf line || (ascii "erase").isPrefixOf line ||
    (ascii "ctr").isPrefixOf line

/-- The dispatch of `rtl819x_spi_write_proc`. -/
def dispatch (b : Boot) (line : List UInt8) : Verb World (Option Errno) :=
  if line = ascii "probe" then inspect m .probe
  else if line = ascii "rdid" then inspect m .rdid
  else if line = ascii "h601" then inspect m .h601
  else if line = ascii "wedge" then inspect m .wedge
  else if line = ascii "unwedge" then do
    updateDriver fun d => { d with wedged := false }
    pure none
  else if line = ascii "trywrite" then verbTrywrite m
  else if (ascii "arm ").isPrefixOf line then verbArm m (line.drop 4)
  else if line = ascii "disarm" then do
    doDisarm
    pure none
  else if reachesInst line then verbInst m b line
  else if line = ascii "img reset" then verbImgReset
  else if line = ascii "verify" then inspect m (.verify [])
  else if (ascii "verify ").isPrefixOf line then
    inspect m (.verify (line.drop 7))
  else if (ascii "corrupt ").isPrefixOf line then
    inspect m (.corrupt (line.drop 8))
  else if (ascii "map ").isPrefixOf line then inspect m (.map (line.drop 4))
  else pure (some .einval)

/-- `RLXFW_SPI_INST_LINE_MAX`. -/
def lineMax : Nat := 128

/-- The line in a written buffer: its last newlines cut, then up to a NUL. -/
def lineOf (buffer : List UInt8) : List UInt8 :=
  cString (buffer.reverse.dropWhile fun c => c == 0x0A || c == 0x0D).reverse

/-- `rtl819x_spi_write_proc`. -/
def writeProc (b : Boot) (buffer : List UInt8) :
    Verb World (Except Errno Nat) :=
  if buffer.length ≥ lineMax then pure (.error .einval)
  else do
    let copied ← ask m.copyFromUser
    if copied then do
      let ret ← dispatch m b (lineOf buffer)
      pure (ret.elim (.ok buffer.length) .error)
    else pure (.error .efault)

/-- The staging buffer, `vmalloc`ed at the first append. -/
def imgBuffer : Verb World Bool := do
  let held ← fromDriver Driver.img
  if held.isSome then pure true else ask (m.alloc Install.imgCap)

/-- `rtl819x_spi_img_write_proc`. -/
def imgWriteProc (buffer : List UInt8) : Verb World (Except Errno Nat) := do
  let imgSt ← fromDriver Driver.imgSt
  let admitted := Install.imgAdmit imgSt buffer.length
  updateDriver fun d => { d with imgSt := admitted.2 }
  if admitted.1 = .overflow then pure (.error .efbig)
  else if admitted.1 ≠ .ok then pure (.error .eio)
  else if buffer.length = 0 then pure (.ok 0)
  else do
    let given ← imgBuffer m
    if given then do
      let copied ← ask m.copyFromUser
      if copied then do
        updateDriver fun d =>
          { d with
            img := some ((d.img.getD fun _ => 0).blit d.imgSt.len buffer.length
              (ByteMap.ofList buffer 0))
            imgSt :=
              { d.imgSt with
                len := d.imgSt.len + buffer.length
                writes := d.imgSt.writes + 1 } }
        pure (.ok buffer.length)
      else do
        updateDriver fun d =>
          { d with
            img := some (d.img.getD fun _ => 0)
            imgSt := { d.imgSt with err := .fault } }
        pure (.error .efault)
    else do
      updateDriver fun d => { d with imgSt := { d.imgSt with err := .nomem } }
      pure (.error .enomem)

end RlxFw.Spi
