import RlxFw.SpiDriver

/-!
# Where the driver writes

Every erase and every program passes the policy under an arm whose window the
driver sets itself: the region the line names, or the counter's bitmap.  So
what a line can issue is settled by the line and the handoff alone, and a run
of any lines and appends stays contained whatever came before.
-/

namespace RlxFw.Spi

open Install (Region Arms)
open Emission
open NorFlash (Op)

/-! ## Operations inside a region -/

/-- Whatever an operation can change, under either erase size, lies in the
region. -/
def InRegion (rg : Region) (op : Op) : Prop :=
  ∀ opcode, opcode = 4096 ∨ opcode = 65536 →
    op.range opcode ⊆ Set.Ico rg.base (rg.base + rg.size)

/-- A program of one byte of the counter's bitmap. -/
def InBitmap (op : Op) : Prop :=
  ∃ address source, op = .program address 1 source ∧
    Install.stateBase ≤ address ∧
    address < Install.stateBase + Install.ctrBytes

theorem inRegion_erase {rg : Region} (listed : rg ∈ Install.regions)
    {address : Nat} (lower : rg.base ≤ address)
    (upper : address < rg.base + rg.size) :
    InRegion rg (.erase address) := by
  have placed := Install.wellPlaced_of_mem listed
  have baseAligned := Nat.mod_eq_zero_of_dvd placed.base_block
  have sizeAligned := Nat.mod_eq_zero_of_dvd placed.size_block
  simp only [Install.blockSize] at baseAligned sizeAligned
  rintro opcode (rfl | rfl) offset inside
  · have sameBlock : offset / 4096 = address / 4096 := inside
    rw [Set.mem_Ico]
    omega
  · have sameBlock : offset / 65536 = address / 65536 := inside
    rw [Set.mem_Ico]
    omega

theorem inRegion_program {rg : Region} {address length : Nat}
    {source : ByteMap} (lower : rg.base ≤ address)
    (upper : address + length ≤ rg.base + rg.size) :
    InRegion rg (.program address length source) := by
  intro opcode _ offset inside
  obtain ⟨early, late⟩ : address ≤ offset ∧ offset < address + length := inside
  rw [Set.mem_Ico]
  omega

/-- Both phases' arms open no more than the region. -/
structure Windowed (rg : Region) (arms : Arms) : Prop where
  erase_lo : rg.base ≤ arms.erase.lo
  erase_hi : arms.erase.hi ≤ rg.base + rg.size
  prog_lo : rg.base ≤ arms.prog.lo
  prog_hi : arms.prog.hi ≤ rg.base + rg.size

theorem windowed_phaseArms (rg : Region) :
    Windowed rg (Install.phaseArms rg) :=
  ⟨le_rfl, le_rfl, le_rfl, le_rfl⟩

/-- What is left of a budget does not move a window. -/
theorem Windowed.spend {rg : Region} {arms : Arms}
    (windowed : Windowed rg arms) (eraseBudget progBudget : Nat) :
    Windowed rg
      { erase := { arms.erase with budget := eraseBudget }
        prog := { arms.prog with budget := progBudget } } :=
  ⟨windowed.erase_lo, windowed.erase_hi, windowed.prog_lo, windowed.prog_hi⟩

theorem Windowed.charge {rg : Region} {arms : Arms}
    (windowed : Windowed rg arms) (op : Install.Opd) :
    Windowed rg (Install.charge arms op) := by
  unfold Install.charge
  split
  · exact windowed.spend _ _
  · exact windowed.spend _ _
  · exact windowed

theorem Windowed.inRegion_erase {rg : Region} {arms : Arms}
    (windowed : Windowed rg arms) (listed : rg ∈ Install.regions)
    {address length : Nat}
    (accepted : WrPolicy.chkErase arms.erase address length
      WrPolicy.eraseGrain WrPolicy.eraseGrain = .ok) :
    InRegion rg (.erase address) := by
  obtain ⟨nonempty, -, -, -, -, -, lower, upper, -⟩ :=
    (WrPolicy.chkErase_eq_ok_iff _ _ _).mp accepted
  have windowLower := windowed.erase_lo
  have windowUpper := windowed.erase_hi
  exact Spi.inRegion_erase listed (by omega) (by omega)

theorem Windowed.inRegion_program {rg : Region} {arms : Arms}
    (windowed : Windowed rg arms) {address length : Nat} {source : ByteMap}
    (accepted : WrPolicy.chkProg arms.prog address length = .ok) :
    InRegion rg (.program address length source) := by
  obtain ⟨-, -, -, -, -, lower, upper, -⟩ :=
    (WrPolicy.chkProg_eq_ok_iff _ _ _).mp accepted
  have windowLower := windowed.prog_lo
  have windowUpper := windowed.prog_hi
  exact Spi.inRegion_program (by omega) (by omega)

/-! ## The steps a verb is made of -/

section Steps

variable {World : Type} {Allowed : Op → Prop}

theorem within_ask {Value : Type} (question : World → Value × World) :
    (ask question).Within Allowed fun _ => True :=
  within_step _

theorem within_fromDriver {Value : Type} (field : Driver → Value) :
    (fromDriver field : Verb World Value).Within Allowed fun _ => True :=
  within_read _

theorem within_updateDriver (update : Driver → Driver) :
    (updateDriver update : Verb World Unit).Within Allowed fun _ => True :=
  within_change _

theorem within_require (why : Install.Reason) :
    (require why : Verb World Unit).Within Allowed fun _ => why = .ok :=
  Within.ite (fun passed => within_pure passed) fun _ => within_stop _

theorem within_requirePolicy (why : WrPolicy.Reason) :
    (requirePolicy why : Verb World Unit).Within Allowed fun _ => why = .ok :=
  Within.ite (fun passed => within_pure passed) fun _ => within_stop _

theorem within_accept {Value : Type} (value : Except Install.Reason Value) :
    (accept value : Verb World Value).Within Allowed
      fun accepted => value = .ok accepted := by
  unfold accept
  cases value with
  | error why => exact within_stop _
  | ok value => exact within_pure rfl

theorem within_claim :
    (claim : Verb World Unit).Within Allowed fun _ => True :=
  (within_fromDriver _).bind fun _ _ =>
    Within.ite (fun _ => within_stop _) fun _ => within_pure trivial

theorem within_release (t : Transfer) :
    (release t : Verb World Unit).Within Allowed fun _ => True := by
  refine (within_updateDriver _).bind fun _ _ => ?_
  cases t.rc with
  | some rc => exact within_stop _
  | none =>
      exact Within.ite (fun _ => within_pure trivial) fun _ => within_stop _

variable (m : Machine World)

theorem within_seBlock {address : Nat} (allowed : Allowed (.erase address)) :
    (seBlock m address).Within Allowed fun _ => True :=
  within_claim.bind fun _ _ => (within_issue allowed).bind fun _ _ =>
    (within_ask _).bind fun t _ => within_release t

theorem within_ppPage {address : Nat} {bytes : List UInt8}
    (allowed : ∀ source, Allowed (.program address bytes.length source)) :
    (ppPage m address bytes).Within Allowed fun _ => True :=
  within_claim.bind fun _ _ => (within_issue (allowed _)).bind fun _ _ =>
    (within_ask _).bind fun t _ => within_release t

theorem within_readPio (address length : Nat) :
    (readPio m address length).Within Allowed fun _ => True :=
  within_claim.bind fun _ _ => (within_ask _).bind fun answer _ =>
    (within_release answer.1).bind fun _ _ => within_pure trivial

theorem within_kmalloc (size : Nat) :
    (kmalloc m size).Within Allowed fun _ => True :=
  (within_ask _).bind fun _ _ => (within_require _).anyResult

theorem within_noteWrite :
    (noteWrite : Verb World Unit).Within Allowed fun _ => True :=
  within_updateDriver _

theorem within_probeReadFf (base size : Nat) :
    (probeReadFf m base size).Within Allowed fun _ => True :=
  Within.repeatFrom
    (fun _ _ _ => (within_readPio m _ _).bind fun _ _ => within_pure trivial)
    _ _ trivial

theorem within_stagedImage (b : Boot) (rq : Install.Req) (rg : Region) :
    (stagedImage m b rq rg).Within Allowed fun _ => True :=
  (within_fromDriver _).bind fun _ _ => (within_require _).bind fun _ _ =>
    (within_fromDriver _).bind fun _ _ => (within_accept _).bind fun _ _ =>
      (within_require _).bind fun _ _ => (within_ask _).bind fun _ _ =>
        (within_accept _).bind fun _ _ => (within_require _).bind fun _ _ =>
          (within_require _).bind fun _ _ => within_pure trivial

end Steps

/-! ## A verb that names a region -/

section Region

variable {World : Type} (m : Machine World) {rg : Region}
  (listed : rg ∈ Install.regions)

include listed

theorem within_eraseGrain (address : Nat) {arms : Arms}
    (windowed : Windowed rg arms) :
    (eraseGrain m address arms).Within (InRegion rg) (Windowed rg) :=
  (within_requirePolicy _).bind fun _ accepted =>
    (within_seBlock m (windowed.inRegion_erase listed accepted)).bind
      fun _ _ => within_noteWrite.bind fun _ _ =>
        within_pure (windowed.spend _ _)

theorem within_runOp (img : ByteMap) (op : Install.Opd) {arms : Arms}
    (windowed : Windowed rg arms) :
    (runOp m img op arms).Within (InRegion rg) (Windowed rg) := by
  unfold runOp
  cases kind : op.kind with
  | erase =>
      refine (within_requirePolicy _).bind fun _ accepted => ?_
      rw [Install.policyCheck, kind] at accepted
      exact (within_seBlock m (windowed.inRegion_erase listed accepted)).bind
        fun _ _ => within_noteWrite.bind fun _ _ =>
          within_pure (windowed.charge _)
  | prog =>
      refine (within_requirePolicy _).bind fun _ accepted => ?_
      rw [Install.policyCheck, kind] at accepted
      refine (within_ppPage m fun source => ?_).bind fun _ _ =>
        within_noteWrite.bind fun _ _ => within_pure (windowed.charge _)
      rw [ByteMap.slice_length]
      exact windowed.inRegion_program accepted
  | fin => exact within_stop _

theorem within_planRuns (rq : Install.Req) (img : ByteMap) (len : Nat) :
    (planRuns m rq rg img len).Within (InRegion rg) fun _ => True := by
  have reads : (readBack m rg img len).Within (InRegion rg) fun _ => True :=
    Within.repeatFrom
      (fun _ _ _ => (within_readPio m _ _).bind fun _ _ => within_pure trivial)
      _ _ trivial
  have once (pl : Install.Plan) :
      (planRun m rg pl img len).Within (InRegion rg) fun _ => True :=
    (Within.repeatFrom
        (fun i _ windowed => within_runOp m listed img _ windowed)
        _ _ (windowed_phaseArms rg)).bind fun _ _ =>
      reads.bind fun _ _ => (within_require _).anyResult
  exact (within_accept _).bind fun pl _ => (within_kmalloc m _).bind fun _ _ =>
    Within.repeatFrom (fun _ _ _ => once pl) _ _ trivial

omit listed in
theorem within_markPage (off : Nat) {arms : Arms}
    (windowed : Windowed rg arms) :
    (markPage m rg off arms).Within (InRegion rg) (Windowed rg) := by
  refine (within_requirePolicy _).bind fun _ accepted => ?_
  have pageLength : Install.probeMark.length = WrPolicy.page := by
    simp [Install.probeMark]
  refine (within_ppPage m fun source => ?_).bind fun _ _ =>
    within_noteWrite.bind fun _ _ => (within_readPio m _ _).bind fun _ _ =>
      (within_require _).bind fun _ _ =>
        within_pure (windowed.spend _ _)
  rw [pageLength]
  exact windowed.inRegion_program accepted

theorem within_probe :
    (probe m rg).Within (InRegion rg) fun _ => True := by
  have start := windowed_phaseArms rg
  refine (within_kmalloc m _).bind fun _ _ =>
    (within_probeReadFf m _ _).bind fun _ _ => (within_require _).bind
      fun _ _ => within_claim.bind fun _ _ => (within_ask _).bind fun _ _ =>
        (within_release _).bind fun _ _ => ?_
  refine (within_markPage m _ start).bind fun _ first =>
    (within_markPage m _ first).bind fun _ second =>
      (within_markPage m _ second).bind fun _ _ =>
        (within_eraseGrain m listed _ start).bind fun _ _ => ?_
  refine (within_readPio m _ _).bind fun _ _ => (within_readPio m _ _).bind
    fun _ _ => (within_readPio m _ _).bind fun _ _ => ?_
  exact (Within.repeatFrom
      (fun _ _ windowed => within_eraseGrain m listed _ windowed)
      _ _ start).bind fun _ _ => (within_probeReadFf m _ _).bind fun _ _ =>
    (within_require _).anyResult

end Region

/-! ## The counter and its scratch loop -/

section Counter

variable {World : Type} (m : Machine World)

/-- A one-byte program that the per-operation arm at `lo` lets through. -/
theorem within_ctrPp {Allowed : Op → Prop} {lo : Nat}
    (allowed : ∀ address source, lo ≤ address →
      address < lo + Install.ctrBytes → Allowed (.program address 1 source))
    (address : Nat) (val : UInt8) :
    (ctrPp m lo address val).Within Allowed fun _ => True := by
  refine (within_requirePolicy _).bind fun _ accepted => ?_
  obtain ⟨-, -, -, -, -, lower, upper, -⟩ :=
    (WrPolicy.chkProg_eq_ok_iff _ _ _).mp accepted
  exact (within_ppPage m fun source => allowed address source lower upper).bind
    fun _ _ => within_noteWrite

theorem within_ctrPrograms (bm : ByteMap) (n b : Nat) :
    (ctrPrograms m bm n b).Within InBitmap fun _ => True := by
  induction b using ctrPrograms.induct bm n with
  | case1 b pending ih =>
      rw [ctrPrograms, dif_pos pending]
      exact (within_ctrPp m
          (fun address source lower upper =>
            ⟨address, source, rfl, lower, upper⟩) _ _).bind fun _ _ => ih
  | case2 b finished =>
      rw [ctrPrograms, dif_neg finished]
      exact within_pure trivial

theorem within_ctrRun (b : Boot) (rq : Install.Req) (why : Install.Reason) :
    (ctrRun m b rq why).Within InBitmap fun _ => True := by
  refine (within_require _).bind fun _ _ => (within_require _).bind fun _ _ =>
    (within_kmalloc m _).bind fun _ _ => (within_readPio m _ _).bind
      fun bm _ => (within_accept _).bind fun nops _ => ?_
  refine Within.ite (fun _ => within_pure trivial) fun _ => ?_
  exact (within_ctrPrograms m bm _ _).bind fun _ _ =>
    (within_readPio m _ _).bind fun _ _ => (within_require _).anyResult

theorem probeRegion_listed : Install.probeRegion ∈ Install.regions := by
  decide

/-- The scratch loop's erases are at the probe block's base. -/
theorem loopOp_erase_addr {passes i : Nat}
    (kind : (Install.loopOp passes i).kind = .erase) :
    (Install.loopOp passes i).addr = Install.probeBase := by
  unfold Install.loopOp at kind ⊢
  dsimp only at kind ⊢
  split_ifs at kind ⊢
  trivial

theorem within_loopRunOp (passes i : Nat) :
    (loopRunOp m (Install.loopOp passes i)).Within
      (InRegion Install.probeRegion) fun _ => True := by
  have programs : ∀ address source, Install.probeBase ≤ address →
      address < Install.probeBase + Install.ctrBytes →
      InRegion Install.probeRegion (.program address 1 source) := by
    intro address source lower upper
    have short : Install.ctrBytes ≤ Install.probeRegion.size := by decide
    exact inRegion_program lower
      (le_trans upper (Nat.add_le_add_left short _))
  unfold loopRunOp
  cases kind : (Install.loopOp passes i).kind with
  | erase =>
      refine (within_requirePolicy _).bind fun _ _ =>
        (within_seBlock m ?_).bind fun _ _ => within_noteWrite.bind fun _ _ =>
          (within_readPio m _ _).bind fun _ _ => (within_require _).anyResult
      rw [loopOp_erase_addr kind]
      exact inRegion_erase probeRegion_listed le_rfl (by decide)
  | prog =>
      refine (within_ctrPp m programs _ _).bind fun _ _ => Within.ite
        (fun _ => (within_readPio m _ _).bind fun _ _ =>
          (within_require _).anyResult)
        fun _ => within_pure trivial
  | fin => exact within_stop _

theorem within_loopRun (rq : Install.Req) (why : Install.Reason) :
    (loopRun m rq why).Within (InRegion Install.probeRegion)
      fun _ => True := by
  refine Within.ite (fun _ => ?_) fun _ => ?_
  · exact (within_kmalloc m _).bind fun _ _ =>
      (within_readPio m _ _).bind fun _ _ => within_pure trivial
  · refine (within_require _).bind fun _ _ => (within_accept _).bind
      fun rg _ => (within_fromDriver _).bind fun _ _ =>
        (within_require _).bind fun _ _ => (within_kmalloc m _).bind
          fun _ _ => ?_
    exact (Within.repeatFrom
        (fun i _ _ => within_loopRunOp m _ i) _ _ trivial).bind fun _ _ =>
      (within_probeReadFf m _ _).bind fun _ _ => (within_require _).anyResult

end Counter

/-! ## A line -/

section Line

variable {World : Type} (m : Machine World) (b : Boot)

/-- What a line may issue: operations inside the region it names, which is not
the slot that is running, or the counter's programs. -/
def Allowed (line : List UInt8) (op : Op) : Prop :=
  (∃ rg ∈ Install.regions, (Install.parse line).2.region = some rg ∧
      Install.fence rg b.hoSlot = .ok ∧ InRegion rg op) ∨
    ((Install.parse line).2.verb = .ctr ∧ InBitmap op)

theorem within_instRun (line : List UInt8) :
    (instRun m b line).Within (Allowed b line) fun _ => True := by
  have named := Install.parse_named line
  refine (within_require _).bind fun _ _ => (within_accept _).bind
    fun rg same => (within_require _).bind fun _ fenced =>
      (within_fromDriver _).bind fun _ _ => (within_require _).bind
        fun _ _ => ?_
  have region : (Install.parse line).2.region = some rg := by
    cases found : (Install.parse line).2.region with
    | none =>
        rw [found] at same
        cases same
    | some rg' =>
        rw [found] at same
        cases same
        rfl
  have listed := named.listed rg region
  have inside : ∀ op, InRegion rg op → Allowed b line op :=
    fun op within => Or.inl ⟨rg, listed, region, fenced, within⟩
  split
  · exact (within_probe m listed).mono inside
  · exact Within.bind (within_stagedImage m b _ _) fun staged _ =>
      (within_planRuns m listed _ _ _).mono inside
  · exact (within_planRuns m listed _ _ _).mono inside

theorem within_verbInst (line : List UInt8) :
    (verbInst m b line).Within (Allowed b line) fun _ => True := by
  have named := Install.parse_named line
  suffices body : (instBody m b line (Install.parse line).1
      (Install.parse line).2).Within (Allowed b line) fun _ => True from
    body.attempt.bind fun _ _ =>
      (within_updateDriver _).bind fun _ _ => within_pure trivial
  have scratch (isScratch : (Install.parse line).2.region =
      some Install.probeRegion) :
      (loopRun m (Install.parse line).2 (Install.parse line).1).Within
        (Allowed b line) fun _ => True :=
    (within_loopRun m _ _).mono fun op inside =>
      Or.inl ⟨_, probeRegion_listed, isScratch, rfl, inside⟩
  unfold instBody
  cases verb : (Install.parse line).2.verb with
  | ctr =>
      exact (within_ctrRun m b _ _).mono fun op inside =>
        Or.inr ⟨verb, inside⟩
  | ctrloop => exact scratch (named.scratch (Or.inl verb))
  | ctrshow => exact scratch (named.scratch (Or.inr verb))
  | none => exact within_instRun m b line
  | install => exact within_instRun m b line
  | erase => exact within_instRun m b line
  | probe => exact within_instRun m b line

theorem within_doArm {Allowed : Op → Prop} (lo hi budget : Nat) :
    (doArm lo hi budget : Verb World _).Within Allowed fun _ => True :=
  Within.ite
    (fun _ => (within_updateDriver _).bind fun _ _ => within_pure trivial)
    fun _ => within_pure trivial

theorem within_verbArm {Allowed : Op → Prop} (arg : List UInt8) :
    (verbArm m arg).Within Allowed fun _ => True := by
  unfold verbArm
  dsimp only
  split
  · exact within_pure trivial
  · exact within_doArm _ _ _

theorem within_inspect {Allowed : Op → Prop} (what : Inspection) :
    (inspect m what).Within Allowed fun _ => True :=
  (within_fromDriver _).bind fun _ _ => (within_ask _).bind fun _ _ =>
    (within_updateDriver _).bind fun _ _ => within_pure trivial

/-- Offset 0 is in the forbidden range, whatever the arm. -/
theorem chkProg_zero (arm : WrPolicy.Arm) (length : Nat) :
    WrPolicy.chkProg arm 0 length ≠ .ok := by
  intro accepted
  obtain ⟨-, -, clear, -⟩ := (WrPolicy.chkProg_eq_ok_iff _ _ _).mp accepted
  exact absurd clear (by decide)

theorem chkErase_zero (arm : WrPolicy.Arm) (length : Nat) :
    WrPolicy.chkErase arm 0 length WrPolicy.eraseGrain WrPolicy.eraseGrain ≠
      .ok := by
  intro accepted
  obtain ⟨-, -, clear, -⟩ := (WrPolicy.chkErase_eq_ok_iff _ _ _).mp accepted
  exact absurd clear (by decide)

/-- `trywrite` is refused at both of its entry points. -/
theorem within_verbTrywrite {Allowed : Op → Prop} :
    (verbTrywrite m).Within Allowed fun _ => True := by
  have writes : (writePage m 0 [0]).Within Allowed fun _ => True := by
    refine Within.ite (fun _ => within_pure trivial) fun _ => ?_
    refine (within_fromDriver _).bind fun arm _ => ?_
    exact Within.ite (fun accepted => absurd accepted (chkProg_zero arm _))
      fun _ => within_pure trivial
  have erases :
      (eraseSector m 0 WrPolicy.eraseGrain).Within Allowed fun _ => True := by
    refine Within.ite (fun _ => within_pure trivial) fun _ => ?_
    refine (within_fromDriver _).bind fun arm _ => ?_
    exact Within.ite (fun accepted => absurd accepted (chkErase_zero arm _))
      fun _ => within_pure trivial
  exact writes.bind fun _ _ => erases.bind fun _ _ =>
    (within_fromDriver _).bind fun _ _ => within_pure trivial

/-- Only the install path issues anything. -/
theorem within_dispatch {Allowed : Op → Prop} {line : List UInt8}
    (installs : reachesInst line = true →
      (verbInst m b line).Within Allowed fun _ => True) :
    (dispatch m b line).Within Allowed fun _ => True := by
  have look (what : Inspection) :
      (inspect m what).Within Allowed fun _ => True :=
    within_inspect m what
  have update (change : Driver → Driver) :
      (do updateDriver change; pure none : Verb World (Option Errno)).Within
        Allowed fun _ => True :=
    (within_updateDriver change).bind fun _ _ => within_pure trivial
  exact Within.ite (fun _ => look _) fun _ =>
    Within.ite (fun _ => look _) fun _ =>
    Within.ite (fun _ => look _) fun _ =>
    Within.ite (fun _ => look _) fun _ =>
    Within.ite (fun _ => update _) fun _ =>
    Within.ite (fun _ => within_verbTrywrite m) fun _ =>
    Within.ite (fun _ => within_verbArm m _) fun _ =>
    Within.ite (fun _ => update _) fun _ =>
    Within.ite installs fun _ =>
    Within.ite (fun _ => update _) fun _ =>
    Within.ite (fun _ => look _) fun _ =>
    Within.ite (fun _ => look _) fun _ =>
    Within.ite (fun _ => look _) fun _ =>
    Within.ite (fun _ => look _) fun _ => within_pure trivial

/-- A line that reaches the install path is no other verb's. -/
theorem dispatch_inst {line : List UInt8} (reaches : reachesInst line = true) :
    dispatch m b line = verbInst m b line := by
  have other {lit : List UInt8} (misses : reachesInst lit = false) :
      line ≠ lit := by
    rintro rfl
    rw [reaches] at misses
    cases misses
  have notArm : ¬ (ascii "arm ").isPrefixOf line = true := by
    intro arms
    obtain ⟨rest, rfl⟩ := List.isPrefixOf_iff_prefix.mp arms
    exact absurd reaches (by simp [reachesInst, ascii])
  unfold dispatch
  rw [if_neg (other (by decide)), if_neg (other (by decide)),
    if_neg (other (by decide)), if_neg (other (by decide)),
    if_neg (other (by decide)), if_neg (other (by decide)), if_neg notArm,
    if_neg (other (by decide)), if_pos reaches]

end Line

/-! ## A run of lines and appends -/

section Run

variable {World : Type} (m : Machine World) (b : Boot)

/-- What user space sends the driver: a line, or bytes to stage. -/
inductive Input where
  | line (buffer : List UInt8)
  | append (buffer : List UInt8)

/-- The handler of an input. -/
def handle : Input → Verb World (Except Errno Nat)
  | .line buffer => writeProc m b buffer
  | .append buffer => imgWriteProc m buffer

/-- An input, the state it met, what it issued, and the state it left. -/
structure Turn (World : Type) where
  input : Input
  before : State World
  issued : List Op
  after : State World

/-- One input handled. -/
def turn (input : Input) (s : State World) : Turn World where
  input := input
  before := s
  issued := (handle m b input s).2.2
  after := (handle m b input s).2.1

/-- Inputs handled in order. -/
def turns : List Input → State World → List (Turn World)
  | [], _ => []
  | input :: inputs, s =>
      turn m b input s :: turns inputs (turn m b input s).after

/-- The driver at boot, in some world. -/
def bootState (world : World) : State World :=
  { driver := Driver.boot, world := world }

/-- Whether a turn ran the install path. -/
def Turn.RanInst (t : Turn World) : Prop :=
  ∃ buffer, t.input = .line buffer ∧ buffer.length < lineMax ∧
    (m.copyFromUser t.before.world).1 = true ∧
    reachesInst (lineOf buffer) = true

/-- The region of the slot rlxboot handed over. -/
def Boot.running (b : Boot) : Option Region :=
  match b.handoff with
  | .ok valid =>
      if valid.slot = Handoff.slotA then some Install.slotaRegion
      else some Install.slotbRegion
  | .error _ => none

theorem exists_turn_of_mem {inputs : List Input} {s : State World}
    {t : Turn World} (member : t ∈ turns m b inputs s) :
    ∃ input s', t = turn m b input s' := by
  induction inputs generalizing s with
  | nil => cases member
  | cons input inputs ih =>
      rcases List.mem_cons.mp member with rfl | later
      · exact ⟨input, s, rfl⟩
      · exact ih later

theorem within_imgWriteProc (buffer : List UInt8) :
    (imgWriteProc m buffer).Within (fun _ => False) fun _ => True := by
  have after (update : Driver → Driver) (answer : Except Errno Nat) :
      (do updateDriver update; pure answer : Verb World _).Within
        (fun _ => False) fun _ => True :=
    (within_updateDriver update).bind fun _ _ => within_pure trivial
  have room : (imgBuffer m).Within (fun _ => False) fun _ => True :=
    (within_fromDriver _).bind fun _ _ =>
      Within.ite (fun _ => within_pure trivial) fun _ => within_ask _
  refine (within_fromDriver _).bind fun imgSt _ =>
    (within_updateDriver _).bind fun _ _ =>
      Within.ite (fun _ => within_pure trivial) fun _ =>
        Within.ite (fun _ => within_pure trivial) fun _ =>
          Within.ite (fun _ => within_pure trivial) fun _ =>
            room.bind fun _ _ => Within.ite (fun _ => ?_) fun _ => after _ _
  exact (within_ask _).bind fun _ _ =>
    Within.ite (fun _ => after _ _) fun _ => after _ _

/-- A line that is short enough and copied in is dispatched. -/
theorem writeProc_rest {buffer : List UInt8} {s : State World}
    (short : buffer.length < lineMax)
    (copied : (m.copyFromUser s.world).1 = true) :
    (writeProc m b buffer s).2 =
      (dispatch m b (lineOf buffer)
        { s with world := (m.copyFromUser s.world).2 }).2 := by
  have asked (next : Bool → Verb World (Except Errno Nat)) :
      ((do let answer ← ask m.copyFromUser; next answer : Verb World _) s).2 =
        ((next (m.copyFromUser s.world).1)
          { s with world := (m.copyFromUser s.world).2 }).2 := rfl
  unfold writeProc
  rw [if_neg (Nat.not_le_of_lt short), asked, if_pos copied, map_rest]

/-- A turn that issued anything ran the install path, on a line. -/
theorem ranInst_of_issued {input : Input} {s : State World} {op : Op}
    (issued : op ∈ (turn m b input s).issued) :
    (turn m b input s).RanInst m := by
  cases input with
  | append buffer =>
      exact absurd ((within_imgWriteProc m buffer s).1 op issued) not_false
  | line buffer =>
      have written : op ∈ (writeProc m b buffer s).2.2 := issued
      by_cases short : buffer.length < lineMax
      · cases copied : (m.copyFromUser s.world).1 with
        | false =>
            have asked (next : Bool → Verb World (Except Errno Nat)) :
                ((do let answer ← ask m.copyFromUser; next answer :
                  Verb World _) s).2 =
                ((next (m.copyFromUser s.world).1)
                  { s with world := (m.copyFromUser s.world).2 }).2 := rfl
            unfold writeProc at written
            rw [if_neg (Nat.not_le_of_lt short), asked,
              if_neg (by simp [copied])] at written
            cases written
        | true =>
            refine ⟨buffer, rfl, short, copied, ?_⟩
            rw [writeProc_rest m b short copied] at written
            by_contra misses
            have nothing : (dispatch m b (lineOf buffer)).Within
                (fun _ => False) fun _ => True :=
              within_dispatch m b fun reaches => absurd reaches misses
            exact (nothing _).1 op written
      · unfold writeProc at written
        rw [if_pos (Nat.le_of_not_lt short)] at written
        cases written

/-- The install path leaves the arm off. -/
theorem arm_off_of_ranInst {input : Input} {s : State World}
    (ran : (turn m b input s).RanInst m) :
    (turn m b input s).after.driver.arm.armed = false := by
  obtain ⟨buffer, same, short, copied, reaches⟩ := ran
  have isLine : input = .line buffer := same
  subst isLine
  have copied' : (m.copyFromUser s.world).1 = true := copied
  change (writeProc m b buffer s).2.1.driver.arm.armed = false
  rw [writeProc_rest m b short copied', dispatch_inst m b reaches]
  rfl

theorem allowed_of_issued {buffer : List UInt8} {s : State World} {op : Op}
    (issued : op ∈ (turn m b (.line buffer) s).issued) :
    Allowed b (lineOf buffer) op := by
  obtain ⟨buffer', same, short, copied, reaches⟩ :=
    ranInst_of_issued m b issued
  cases same
  have copied' : (m.copyFromUser s.world).1 = true := copied
  have written : op ∈ (writeProc m b buffer s).2.2 := issued
  rw [writeProc_rest m b short copied', dispatch_inst m b reaches] at written
  exact (within_verbInst m b _ _).1 op written

/-- Where an operation of a line may fall: in the region the line names, or in
the counter's bitmap for `ctr`; no erase below slot A or in the state block;
no other program in the state block; nothing in the slot that is running. -/
structure Contained (b : Boot) (line : List UInt8) (op : Op) : Prop where
  named :
    (∃ rg ∈ Install.regions, (Install.parse line).2.region = some rg ∧
      InRegion rg op) ∨
    ((Install.parse line).2.verb = .ctr ∧ InBitmap op)
  above : ∀ opcode, opcode = 4096 ∨ opcode = 65536 →
    op.range opcode ⊆ Set.Ici 0x070000
  erases : ∀ address, op = .erase address → ∀ opcode,
    opcode = 4096 ∨ opcode = 65536 →
      op.range opcode ⊆ Set.Ico 0x070000 Install.stateBase
  programs : ∀ address length source, op = .program address length source →
    0 < length → Install.stateBase < address + length → InBitmap op
  running : ∀ rg, b.running = some rg → ∀ opcode,
    opcode = 4096 ∨ opcode = 65536 →
      Disjoint (op.range opcode) (Set.Ico rg.base (rg.base + rg.size))

/-- Two regions of the table do not meet. -/
theorem regions_disjoint :
    ∀ left ∈ Install.regions, ∀ right ∈ Install.regions, left ≠ right →
      left.base + left.size ≤ right.base ∨
        right.base + right.size ≤ left.base := by
  decide

/-- The running slot is in the table, and the fence refuses it. -/
theorem running_fenced {b : Boot} {rg : Region}
    (running : b.running = some rg) :
    rg ∈ Install.regions ∧ Install.fence rg b.hoSlot ≠ .ok := by
  unfold Boot.running at running
  unfold Boot.hoSlot
  cases handoff : b.handoff with
  | error why =>
      rw [handoff] at running
      cases running
  | ok valid =>
      rw [handoff] at running
      dsimp only at running ⊢
      rcases valid.slot_cases with slot | slot <;> rw [slot] at running ⊢ <;>
        cases running <;> decide

theorem contained_of_allowed {line : List UInt8} {op : Op}
    (allowed : Allowed b line op) : Contained b line op := by
  rcases allowed with ⟨rg, listed, named, fenced, inside⟩ | ⟨verb, inside⟩
  · have placed := Install.wellPlaced_of_mem listed
    have lower : 0x070000 ≤ rg.base := placed.aboveBarrier
    have upper := placed.belowState
    refine ⟨Or.inl ⟨rg, listed, named, inside⟩, ?_, ?_, ?_, ?_⟩
    · intro opcode cases offset member
      exact le_trans lower (inside opcode cases member).1
    · intro address _ opcode cases offset member
      have within := inside opcode cases member
      exact ⟨le_trans lower within.1, lt_of_lt_of_le within.2 upper⟩
    · rintro address length source rfl nonempty reaches
      have last : address + length - 1 ∈
          (Op.program address length source).range 4096 :=
        ⟨by omega, by omega⟩
      have within := (inside 4096 (Or.inl rfl) last).2
      omega
    · intro running isRunning opcode cases
      obtain ⟨runningListed, refused⟩ := running_fenced isRunning
      have differ : rg ≠ running := by
        rintro rfl
        exact refused fenced
      rw [Set.disjoint_left]
      intro offset member other
      have within := inside opcode cases member
      have bounds := Set.mem_Ico.mp other
      have := Set.mem_Ico.mp within
      rcases regions_disjoint rg listed running runningListed differ with
        apart | apart <;> omega
  · obtain ⟨address, source, rfl, lower, upper⟩ := inside
    have only {opcode offset : Nat}
        (member : offset ∈ (Op.program address 1 source).range opcode) :
        offset = address := by
      obtain ⟨early, late⟩ : address ≤ offset ∧ offset < address + 1 := member
      omega
    refine ⟨Or.inr ⟨verb, address, source, rfl, lower, upper⟩, ?_, ?_, ?_, ?_⟩
    · intro opcode _ offset member
      rw [only member]
      exact le_trans (by decide) lower
    · intro erased same
      cases same
    · intro _ _ _ _ _ _
      exact ⟨address, source, rfl, lower, upper⟩
    · intro running isRunning opcode _
      have below := (Install.wellPlaced_of_mem
        (running_fenced isRunning).1).belowState
      rw [Set.disjoint_left]
      intro offset member other
      have bounds := Set.mem_Ico.mp other
      rw [only member] at bounds
      omega

/-- Over any lines and appends from boot, on any machine and under any handoff,
every erase and every program is contained, and the arm is off after every turn
that ran the install path or issued anything. -/
theorem writes_contained (world : World) (inputs : List Input) :
    ∀ t ∈ turns m b inputs (bootState world),
      (∀ op ∈ t.issued, ∃ buffer, t.input = .line buffer ∧
        Contained b (lineOf buffer) op) ∧
      (t.RanInst m → t.after.driver.arm.armed = false) ∧
      (t.issued ≠ [] → t.after.driver.arm.armed = false) := by
  intro t member
  obtain ⟨input, s, rfl⟩ := exists_turn_of_mem m b member
  refine ⟨?_, arm_off_of_ranInst m b, ?_⟩
  · intro op issued
    have ran := ranInst_of_issued m b issued
    obtain ⟨buffer, same, -⟩ := ran
    have isLine : input = .line buffer := same
    subst isLine
    exact ⟨buffer, rfl, contained_of_allowed b (allowed_of_issued m b issued)⟩
  · intro nonempty
    obtain ⟨op, issued⟩ := List.exists_mem_of_ne_nil _ nonempty
    exact arm_off_of_ranInst m b (ranInst_of_issued m b issued)

end Run

/-! ## One bit of the counter -/

/-- A machine that always succeeds, over an erased part. -/
def erasedMachine : Machine Unit where
  seBlock _ _ := ({ rc := none, restored := true }, ())
  ppPage _ _ _ := ({ rc := none, restored := true }, ())
  readPio _ _ _ := (({ rc := none, restored := true }, fun _ => 0xFF), ())
  probeCal _ := ({ rc := none, restored := true }, ())
  alloc _ _ := (true, ())
  copyFromUser _ := (true, ())
  sha256 _ _ := (.error .eio, ())
  strtoul s := (0, s)
  inspect _ wedged _ := ((none, wedged), ())

/-- Slot A handed over at version 1. -/
def bootedOne : Boot where
  handoff := Handoff.parse 0x524C5848 0x41 1
    (~~~(0x524C5848 ^^^ 0x41 ^^^ 1))
  katRc := none

/-- The address of an operation, and how many bytes it names there. -/
def opSpan : Op → Nat × Nat
  | .erase address => (address, 1)
  | .program address length _ => (address, length)

theorem opSpan_mem_range (op : Op) (nonempty : 0 < (opSpan op).2)
    (opcode : Nat) : (opSpan op).1 ∈ op.range opcode := by
  cases op with
  | erase address => exact rfl
  | program address length source =>
      exact ⟨le_rfl, Nat.lt_add_of_pos_right nonempty⟩

/-- `ctr 1`, right after boot. -/
def advance : Turn Unit :=
  turn erasedMachine bootedOne (.line (ascii "ctr 1")) (bootState ())

theorem advance_issued : advance.issued.map opSpan = [(0x3F0000, 1)] := by
  decide +kernel

theorem exists_advance_op :
    ∃ op ∈ advance.issued, opSpan op = (0x3F0000, 1) := by
  have member : (0x3F0000, 1) ∈ advance.issued.map opSpan := by
    rw [advance_issued]
    exact List.mem_cons_self
  exact List.mem_map.mp member

/-- `ctr` writes the state block, which no region of the table holds. -/
theorem ctr_outside_regions :
    ¬ ∀ t ∈ turns erasedMachine bootedOne [.line (ascii "ctr 1")]
        (bootState ()),
      ∀ op ∈ t.issued, ∃ rg ∈ Install.regions, InRegion rg op := by
  intro contained
  obtain ⟨op, issued, span⟩ := exists_advance_op
  obtain ⟨rg, listed, inside⟩ :=
    contained advance List.mem_cons_self op issued
  have upper := (Install.wellPlaced_of_mem listed).belowState
  have member := opSpan_mem_range op (by rw [span]; exact one_pos) 4096
  have within := (inside 4096 (Or.inl rfl) member).2
  rw [span] at within
  exact absurd (lt_of_lt_of_le within upper) (lt_irrefl _)

/-- That turn's program is contained, and the arm is off after it. -/
theorem writes_contained_advance :
    (∃ op ∈ advance.issued, Contained bootedOne (lineOf (ascii "ctr 1")) op) ∧
      advance.after.driver.arm.armed = false := by
  obtain ⟨op, issued, -⟩ := exists_advance_op
  obtain ⟨contained, -, disarmed⟩ := writes_contained erasedMachine bootedOne ()
    [.line (ascii "ctr 1")] advance List.mem_cons_self
  obtain ⟨buffer, same, inside⟩ := contained op issued
  have isLine : Input.line (ascii "ctr 1") = .line buffer := same
  cases isLine
  exact ⟨⟨op, issued, inside⟩, disarmed (List.ne_nil_of_mem issued)⟩

end RlxFw.Spi
