import RlxFw.Contract
import RlxFw.CounterAdvance

/-!
# The counter's verb and what it records

`rtl819x_spi_ctr_run` with the results that the driver keeps of it beside its
statics, and what one attempt leaves of them and of the bitmap.
-/

namespace RlxFw.Spi

open NorFlash (Op)
open Install (Req ctrDecode ctrCheck ctrVerify ctrTie ctrNext ctrBytes ctrBits
  stateBase bitmapOf)
open Emission

/-! ## The driver with its results -/

/-- `struct rlxfw_spi_inst_ctr_st`, as far as `ctr` writes it. -/
structure CtrSt where
  attempts : UInt32
  done : UInt32
  refused : UInt32
  failed : UInt32
  ran : Bool
  reason : Install.Reason
  malformed : Bool
  cur : Nat
  newv : Nat
  read : Nat
  pp : Nat
deriving DecidableEq, Repr

/-- The driver and its world, with the counter's results. -/
structure Kernel (World : Type) where
  state : State World
  ctr : CtrSt

/-- A call of the driver. -/
abbrev Call (World Value : Type) : Type :=
  Emission (Kernel World) Op Halt Value

/-- The reason that is recorded of a halt. -/
def Halt.why : Halt → Install.Reason
  | .reason why => why
  | .engine _ => .engine

namespace Kernel

variable {World Value Value' : Type}

/-- A verb leaves the counter's results alone. -/
def lift (verb : Verb World Value) : Call World Value :=
  fun k =>
    ((verb k.state).1, { k with state := (verb k.state).2.1 },
      (verb k.state).2.2)

/-- Record something of the counter. -/
def note (update : CtrSt → CtrSt) : Call World Unit :=
  change fun k => { k with ctr := update k.ctr }

variable (m : Machine World)

/-- Steps 1 to 5 of `rtl819x_spi_ctr_run`: the bitmap as read, and the programs
it takes. -/
def ctrChecked (b : Boot) (rq : Req) (why : Install.Reason) :
    Call World (ByteMap × Nat) := do
  lift (require why)
  lift (require (ctrTie rq.ctrN (b.hoSlot != 0) b.hoVer))
  lift (kmalloc m (2 * ctrBytes))
  let bm ← lift (readPio m stateBase ctrBytes)
  note fun c =>
    { c with cur := (ctrDecode bm).1, malformed := (ctrDecode bm).2 }
  let nops ← lift (accept (ctrCheck bm rq.ctrN))
  pure (bm, nops)

/-- Step 6, from bit `b` up. -/
def ctrPrograms (bm : ByteMap) (n b : Nat) : Call World Unit :=
  if pending : b < n then do
    lift (ctrPp m stateBase (Install.ctrAddr stateBase b) (Install.ctrValue b))
    note fun c => { c with pp := c.pp + 1 }
    ctrPrograms bm n (ctrNext bm n (b + 1))
  else pure ()
termination_by n - b
decreasing_by
  have := Install.ctrNext_ge bm (show b + 1 ≤ n by omega)
  omega

/-- Steps 6 and 7: the programs, and the bitmap read back. -/
def ctrAdvanced (rq : Req) (bm : ByteMap) : Call World Unit := do
  ctrPrograms m bm rq.ctrN (ctrNext bm rq.ctrN 0)
  let rb ← lift (readPio m stateBase ctrBytes)
  note fun c => { c with read := (ctrDecode rb).1 }
  lift (require (ctrVerify rb rq.ctrN))

/-- `rtl819x_spi_ctr_run`, recording. -/
def ctrRun (b : Boot) (rq : Req) (why : Install.Reason) : Call World Unit := do
  note fun c =>
    { c with
      attempts := c.attempts + 1, ran := true, malformed := false
      cur := 0, read := 0, pp := 0, newv := rq.ctrN }
  let checked ← attempt (ctrChecked m b rq why)
  match checked with
  | .error halt => do
      note fun c => { c with refused := c.refused + 1, reason := halt.why }
      stop halt
  | .ok (bm, nops) =>
      if nops = 0 then
        note fun c =>
          { c with read := c.cur, done := c.done + 1, reason := .ok }
      else do
        let advanced ← attempt (ctrAdvanced m rq bm)
        match advanced with
        | .error halt => do
            note fun c => { c with failed := c.failed + 1, reason := halt.why }
            stop halt
        | .ok () => note fun c => { c with done := c.done + 1, reason := .ok }

/-- The run that `rtl819x_spi_verb_inst` chooses. -/
def instBody (b : Boot) (line : List UInt8) (why : Install.Reason) (rq : Req) :
    Call World Unit :=
  match rq.verb with
  | .ctr => ctrRun m b rq why
  | _ => lift (Spi.instBody m b line why rq)

/-- `rtl819x_spi_verb_inst`, recording. -/
def verbInst (b : Boot) (line : List UInt8) : Call World (Option Errno) := do
  let outcome ← attempt
    (instBody m b line (Install.parse line).1 (Install.parse line).2)
  lift doDisarm
  pure (match outcome with
    | .ok _ => none
    | .error halt => halt.errno)

/-- The dispatch of `rtl819x_spi_write_proc`, recording. -/
def dispatch (b : Boot) (line : List UInt8) : Call World (Option Errno) :=
  if reachesInst line then verbInst m b line else lift (Spi.dispatch m b line)

/-- `rtl819x_spi_write_proc`, recording. -/
def writeProc (b : Boot) (buffer : List UInt8) :
    Call World (Except Errno Nat) :=
  if buffer.length ≥ lineMax then pure (.error .einval)
  else do
    let copied ← lift (ask m.copyFromUser)
    if copied then do
      let ret ← dispatch m b (lineOf buffer)
      pure (ret.elim (.ok buffer.length) .error)
    else pure (.error .efault)

/-! ## Without the records it is the driver -/

/-- A call that is a verb once the records are forgotten. -/
def Shadows (call : Call World Value) (verb : Verb World Value) : Prop :=
  ∀ k, ((call k).1, (call k).2.1.state, (call k).2.2) = verb k.state

theorem shadows_lift (verb : Verb World Value) : Shadows (lift verb) verb :=
  fun _ => rfl

theorem shadows_pure (value : Value) :
    Shadows (pure value : Call World Value) (pure value) :=
  fun _ => rfl

theorem shadows_stop (halt : Halt) :
    Shadows (stop halt : Call World Value) (stop halt) :=
  fun _ => rfl

theorem Shadows.bind {first : Call World Value} {first' : Verb World Value}
    {next : Value → Call World Value'} {next' : Value → Verb World Value'}
    (begins : Shadows first first')
    (continues : ∀ value, Shadows (next value) (next' value)) :
    Shadows (first >>= next) (first' >>= next') := by
  intro k
  have begun := begins k
  change ((andThen first next k).1, (andThen first next k).2.1.state,
    (andThen first next k).2.2) = andThen first' next' k.state
  unfold andThen
  rw [← begun]
  rcases first k with ⟨result, later, ops⟩
  cases result with
  | error halt => rfl
  | ok value =>
      dsimp only
      rw [← continues value later]

theorem Shadows.attempt {call : Call World Value} {verb : Verb World Value}
    (shadows : Shadows call verb) : Shadows call.attempt verb.attempt := by
  intro k
  have run := shadows k
  change (Except.ok (call k).1, (call k).2.1.state, (call k).2.2) =
    (Except.ok (verb k.state).1, (verb k.state).2.1, (verb k.state).2.2)
  rw [← run]

/-- A record is nothing that the driver does. -/
theorem Shadows.note {update : CtrSt → CtrSt} {next : Unit → Call World Value}
    {verb : Verb World Value} (continues : Shadows (next ()) verb) :
    Shadows (note update >>= next) verb := by
  intro k
  exact continues { k with ctr := update k.ctr }

/-- A stop that is recorded and passed on. -/
theorem Shadows.settle {call : Call World Value} {verb : Verb World Value}
    {next : Except Halt Value → Call World Value'}
    {next' : Value → Verb World Value'}
    (shadows : Shadows call verb)
    (stops : ∀ halt, Shadows (next (.error halt)) (stop halt))
    (goes : ∀ value, Shadows (next (.ok value)) (next' value)) :
    Shadows (call.attempt >>= next) (verb >>= next') := by
  intro k
  have run := shadows k
  change ((andThen call.attempt next k).1,
    (andThen call.attempt next k).2.1.state,
    (andThen call.attempt next k).2.2) = andThen verb next' k.state
  unfold andThen Emission.attempt
  rw [← run]
  rcases call k with ⟨result, later, ops⟩
  cases result with
  | error halt =>
      have halted := stops halt later
      simp only [Prod.mk.injEq, stop] at halted ⊢
      rw [halted.1, halted.2.1, halted.2.2]
      exact ⟨rfl, rfl, List.append_nil ops⟩
  | ok value =>
      dsimp only
      rw [← goes value later]

theorem shadows_ctrChecked (b : Boot) (rq : Req) (why : Install.Reason) :
    Shadows (ctrChecked m b rq why) (do
      require why
      require (ctrTie rq.ctrN (b.hoSlot != 0) b.hoVer)
      kmalloc m (2 * ctrBytes)
      let bm ← readPio m stateBase ctrBytes
      let nops ← accept (ctrCheck bm rq.ctrN)
      pure (bm, nops)) := by
  refine (shadows_lift _).bind fun _ => (shadows_lift _).bind fun _ => ?_
  refine (shadows_lift _).bind fun _ => (shadows_lift _).bind fun bm => ?_
  exact .note ((shadows_lift _).bind fun _ => shadows_pure _)

theorem shadows_ctrPrograms (bm : ByteMap) (n b : Nat) :
    Shadows (ctrPrograms m bm n b) (Spi.ctrPrograms m bm n b) := by
  induction b using ctrPrograms.induct bm n with
  | case1 b pending ih =>
      rw [ctrPrograms, dif_pos pending, Spi.ctrPrograms, dif_pos pending]
      exact (shadows_lift _).bind fun _ => .note ih
  | case2 b finished =>
      rw [ctrPrograms, dif_neg finished, Spi.ctrPrograms, dif_neg finished]
      exact shadows_pure ()

theorem shadows_ctrAdvanced (rq : Req) (bm : ByteMap) :
    Shadows (ctrAdvanced m rq bm) (do
      Spi.ctrPrograms m bm rq.ctrN (ctrNext bm rq.ctrN 0)
      let rb ← readPio m stateBase ctrBytes
      require (ctrVerify rb rq.ctrN)) :=
  (shadows_ctrPrograms m bm rq.ctrN _).bind fun _ =>
    (shadows_lift _).bind fun _ => .note (shadows_lift _)

theorem shadows_ctrRun (b : Boot) (rq : Req) (why : Install.Reason) :
    Shadows (ctrRun m b rq why) (Spi.ctrRun m b rq why) := by
  have split : Spi.ctrRun m b rq why = (do
      require why
      require (ctrTie rq.ctrN (b.hoSlot != 0) b.hoVer)
      kmalloc m (2 * ctrBytes)
      let bm ← readPio m stateBase ctrBytes
      let nops ← accept (ctrCheck bm rq.ctrN)
      pure (bm, nops)) >>= fun checked =>
        if checked.2 = 0 then pure ()
        else (do
          Spi.ctrPrograms m checked.1 rq.ctrN (ctrNext checked.1 rq.ctrN 0)
          let rb ← readPio m stateBase ctrBytes
          require (ctrVerify rb rq.ctrN)) >>= fun _ => pure () := by
    simp only [Spi.ctrRun, bind_assoc, pure_bind, bind_pure_unit]
  rw [split]
  refine .note ((shadows_ctrChecked m b rq why).settle ?_ ?_)
  · intro halt
    exact .note (shadows_stop halt)
  · rintro ⟨bm, nops⟩
    dsimp only
    split
    · exact fun _ => rfl
    · refine (shadows_ctrAdvanced m rq bm).settle ?_ ?_
      · intro halt
        exact .note (shadows_stop halt)
      · intro
        exact fun _ => rfl

theorem shadows_instBody (b : Boot) (line : List UInt8) (why : Install.Reason)
    (rq : Req) :
    Shadows (instBody m b line why rq) (Spi.instBody m b line why rq) := by
  unfold instBody
  split
  · next verb =>
      unfold Spi.instBody
      rw [verb]
      exact shadows_ctrRun m b rq why
  · exact shadows_lift _

theorem shadows_verbInst (b : Boot) (line : List UInt8) :
    Shadows (verbInst m b line) (Spi.verbInst m b line) :=
  (shadows_instBody m b line _ _).attempt.bind fun _ =>
    (shadows_lift doDisarm).bind fun _ => shadows_pure _

theorem shadows_dispatch (b : Boot) (line : List UInt8) :
    Shadows (dispatch m b line) (Spi.dispatch m b line) := by
  unfold dispatch
  split
  · next reaches =>
      rw [dispatch_inst m b reaches]
      exact shadows_verbInst m b line
  · exact shadows_lift _

/-- With its records forgotten, a write is the driver's. -/
theorem shadows_writeProc (b : Boot) (buffer : List UInt8) :
    Shadows (writeProc m b buffer) (Spi.writeProc m b buffer) := by
  unfold writeProc Spi.writeProc
  split
  · exact shadows_pure _
  · refine (shadows_lift _).bind fun copied => ?_
    split
    · exact (shadows_dispatch m b _).bind fun _ => shadows_pure _
    · exact shadows_pure _

end Kernel

/-! ## The flash behind the driver -/

/-- A machine with its flash in view.  What reads, allocates or copies leaves
the flash alone, and a read that succeeds returns what is there. -/
structure FlashPart (World : Type) where
  machine : Machine World
  flash : World → ByteMap
  readPio_flash : ∀ addr len w, flash (machine.readPio addr len w).2 = flash w
  readPio_bytes : ∀ addr len w, (machine.readPio addr len w).1.1.rc = none →
    ∀ i < len, (machine.readPio addr len w).1.2 i = flash w (addr + i)
  alloc_flash : ∀ size w, flash (machine.alloc size w).2 = flash w
  copyFromUser_flash : ∀ w, flash (machine.copyFromUser w).2 = flash w

/-- A part that is nothing but its flash. -/
example : Nonempty (FlashPart ByteMap) :=
  ⟨{ machine :=
      { seBlock := fun addr w =>
          (⟨none, true⟩, NorFlash.Op.apply WrPolicy.eraseGrain (.erase addr) w)
        ppPage := fun addr bytes w =>
          (⟨none, true⟩, NorFlash.Op.apply WrPolicy.eraseGrain
            (.program addr bytes.length (ByteMap.ofList bytes 0xFF)) w)
        readPio := fun addr _ w => ((⟨none, true⟩, fun i => w (addr + i)), w)
        probeCal := fun w => (⟨none, true⟩, w)
        alloc := fun _ w => (true, w)
        copyFromUser := fun w => (true, w)
        sha256 := fun _ w => (.error .eio, w)
        strtoul := fun s => (0, s)
        inspect := fun _ wedged w => ((none, wedged), w) }
     flash := id
     readPio_flash := fun _ _ _ => rfl
     readPio_bytes := fun _ _ _ _ _ _ => rfl
     alloc_flash := fun _ _ => rfl
     copyFromUser_flash := fun _ => rfl }⟩

section Keeps

variable {World Value : Type} (p : FlashPart World)

/-- A verb that leaves the flash alone, and returns only what `Result` allows
of it. -/
def Keeps (verb : Verb World Value) (Result : ByteMap → Value → Prop) : Prop :=
  ∀ chip, Meets (fun s => p.flash s.world = chip) verb
    (fun value s => p.flash s.world = chip ∧ Result chip value)
    (fun _ s => p.flash s.world = chip)

variable {p}

theorem Keeps.bind {Value' : Type} {first : Verb World Value}
    {next : Value → Verb World Value'} {Result : ByteMap → Value → Prop}
    {Result' : ByteMap → Value' → Prop} (begins : Keeps p first Result)
    (continues : ∀ value, Keeps p (next value) fun chip last =>
      Result chip value → Result' chip last) :
    Keeps p (first >>= next) Result' := by
  intro chip
  refine (begins chip).bind fun value => meets_of_fact fun result => ?_
  exact (continues value chip).weaken (fun _ flash => flash)
    (fun _ _ holds => ⟨holds.1, holds.2 result⟩) fun _ _ flash => flash

theorem Keeps.weaken {verb : Verb World Value}
    {Result Result' : ByteMap → Value → Prop} (keeps : Keeps p verb Result)
    (weaker : ∀ chip value, Result chip value → Result' chip value) :
    Keeps p verb Result' :=
  fun chip => (keeps chip).weaken (fun _ flash => flash)
    (fun value _ holds => ⟨holds.1, weaker chip value holds.2⟩)
    fun _ _ flash => flash

theorem keeps_pure {value : Value} {Result : ByteMap → Value → Prop}
    (holds : ∀ chip, Result chip value) :
    Keeps p (pure value) Result :=
  fun chip => meets_pure fun _ flash => ⟨flash, holds chip⟩

theorem keeps_stop (halt : Halt) (Result : ByteMap → Value → Prop) :
    Keeps p (stop halt) Result :=
  fun _ => meets_stop fun _ flash => flash

theorem keeps_require (why : Install.Reason) :
    Keeps p (require why) fun _ _ => why = .ok := by
  intro chip
  apply Meets.ite
  · intro passed
    exact meets_pure fun _ flash => ⟨flash, passed⟩
  · intro _
    exact meets_stop fun _ flash => flash

theorem keeps_accept (value : Except Install.Reason Value) :
    Keeps p (accept value) fun _ taken => value = .ok taken := by
  cases value with
  | ok value => exact keeps_pure fun _ => rfl
  | error why => exact keeps_stop _ _

theorem keeps_ask {question : World → Value × World}
    {Result : ByteMap → Value → Prop}
    (flash : ∀ w, p.flash (question w).2 = p.flash w)
    (answers : ∀ w, Result (p.flash w) (question w).1) :
    Keeps p (ask question) Result := by
  intro chip
  apply meets_step
  rintro s rfl
  exact ⟨flash s.world, answers s.world⟩

theorem keeps_claim : Keeps p claim fun _ _ => True := by
  intro chip
  refine (meets_read _).bind fun wedged => Meets.ite ?_ ?_
  · intro _
    exact meets_stop fun _ holds => holds.1
  · intro _
    exact meets_pure fun _ holds => ⟨holds.1, trivial⟩

theorem keeps_updateDriver (update : Driver → Driver) :
    Keeps p (updateDriver update) fun _ _ => True :=
  fun _ => meets_change fun _ flash => ⟨flash, trivial⟩

theorem keeps_release (t : Transfer) :
    Keeps p (release t) fun _ _ => t.rc = none := by
  refine (keeps_updateDriver _).bind fun _ => ?_
  rcases t with ⟨rc, restored⟩
  cases rc with
  | some rc => exact keeps_stop _ _
  | none =>
      cases restored with
      | false => exact keeps_stop _ _
      | true => exact keeps_pure fun _ _ => rfl

theorem keeps_kmalloc (size : Nat) :
    Keeps p (kmalloc p.machine size) fun _ _ => True := by
  have asked : Keeps p (ask (p.machine.alloc size)) fun _ _ => True :=
    keeps_ask (p.alloc_flash size) fun _ => trivial
  exact asked.bind fun _ => (keeps_require _).weaken fun _ _ _ _ => trivial

/-- A read that succeeds returns what is there. -/
theorem keeps_readPio (addr len : Nat) :
    Keeps p (readPio p.machine addr len) fun chip bytes =>
      ∀ i < len, bytes i = chip (addr + i) := by
  have asked : Keeps p (ask (p.machine.readPio addr len)) fun chip answer =>
      answer.1.rc = none → ∀ i < len, answer.2 i = chip (addr + i) :=
    keeps_ask (p.readPio_flash addr len) (p.readPio_bytes addr len)
  refine keeps_claim.bind fun _ => asked.bind fun answer => ?_
  refine (keeps_release answer.1).bind fun _ => keeps_pure ?_
  intro chip whole read _
  exact read whole

end Keeps

/-! ## What an attempt leaves -/

namespace Kernel

variable {World Value : Type} (p : FlashPart World)

/-- The flash and the counter's results are these. -/
def Holds (chip : ByteMap) (c : CtrSt) (k : Kernel World) : Prop :=
  p.flash k.state.world = chip ∧ k.ctr = c

variable {p}

theorem meets_lift {verb : Verb World Value}
    {Result : ByteMap → Value → Prop} (keeps : Keeps p verb Result)
    (chip : ByteMap) (c : CtrSt) :
    Meets (Holds p chip c) (lift verb)
      (fun value k => Holds p chip c k ∧ Result chip value)
      (fun _ => Holds p chip c) := by
  rintro k ⟨flash, ctr⟩
  obtain ⟨returned, stopped⟩ := keeps chip k.state flash
  constructor
  · intro value same
    obtain ⟨kept, result⟩ := returned value same
    exact ⟨⟨kept, ctr⟩, result⟩
  · intro halt same
    exact ⟨stopped halt same, ctr⟩

/-- A program may leave the flash as it likes, but not the results. -/
theorem meets_lift_ctr (verb : Verb World Value) (Results : CtrSt → Prop) :
    Meets (fun k => Results k.ctr) (lift verb) (fun _ k => Results k.ctr)
      (fun _ k => Results k.ctr) :=
  fun _ results => ⟨fun _ _ => results, fun _ _ => results⟩

theorem meets_note (update : CtrSt → CtrSt) (chip : ByteMap) (c : CtrSt)
    {Stopped : Halt → Kernel World → Prop} :
    Meets (Holds p chip c) (note update) (fun _ => Holds p chip (update c))
      Stopped := by
  apply meets_change
  rintro k ⟨flash, rfl⟩
  exact ⟨flash, rfl⟩

/-- The results, but for what the check reads. -/
def CheckedFrom (c after : CtrSt) : Prop :=
  after = { c with cur := after.cur, malformed := after.malformed }

/-- What passes steps 1 to 5. -/
structure Passes (b : Boot) (rq : Req) (why : Install.Reason) (chip : ByteMap)
    (bm : ByteMap) (nops : Nat) : Prop where
  parsed : why = .ok
  tied : ctrTie rq.ctrN (b.hoSlot != 0) b.hoVer = .ok
  bytes : ∀ i < ctrBytes, bm i = bitmapOf chip i
  checked : ctrCheck bm rq.ctrN = .ok nops

theorem meets_ctrChecked (b : Boot) (rq : Req) (why : Install.Reason)
    (chip : ByteMap) (c : CtrSt) :
    Meets (Holds p chip c) (ctrChecked p.machine b rq why)
      (fun checked k => p.flash k.state.world = chip ∧ CheckedFrom c k.ctr ∧
        Passes b rq why chip checked.1 checked.2)
      (fun _ k => p.flash k.state.world = chip ∧ CheckedFrom c k.ctr) := by
  have early : ∀ (_ : Halt) (k : Kernel World), Holds p chip c k →
      p.flash k.state.world = chip ∧ CheckedFrom c k.ctr := by
    rintro _ k ⟨flash, rfl⟩
    exact ⟨flash, rfl⟩
  have lifted {Value : Type} {verb : Verb World Value}
      {Result : ByteMap → Value → Prop} (keeps : Keeps p verb Result) :=
    (meets_lift keeps chip c).weaken (fun _ holds => holds)
      (fun _ _ holds => holds) early
  refine (lifted (keeps_require why)).bind fun _ =>
    meets_of_fact fun parsed => ?_
  refine (lifted (keeps_require _)).bind fun _ => meets_of_fact fun tied => ?_
  refine (lifted (keeps_kmalloc _)).bind fun _ => meets_of_fact fun _ => ?_
  refine (lifted (keeps_readPio stateBase ctrBytes)).bind fun bm =>
    meets_of_fact fun bytes => ?_
  let read : CtrSt :=
    { c with cur := (ctrDecode bm).1, malformed := (ctrDecode bm).2 }
  have late : ∀ (_ : Halt) (k : Kernel World), Holds p chip read k →
      p.flash k.state.world = chip ∧ CheckedFrom c k.ctr := by
    rintro _ k ⟨flash, same⟩
    refine ⟨flash, ?_⟩
    rw [CheckedFrom, same]
  refine (meets_note _ chip c).bind fun _ => ?_
  refine ((meets_lift (keeps_accept _) chip read).weaken (fun _ holds => holds)
    (fun _ _ holds => holds) late).bind fun nops =>
      meets_of_fact fun checked => ?_
  apply meets_pure
  intro k holds
  obtain ⟨flash, from_⟩ := late (.reason .ok) k holds
  exact ⟨flash, from_, parsed, tied, bytes, checked⟩

/-- The results, but for what the programs and the read-back set. -/
def AdvancedFrom (c after : CtrSt) : Prop :=
  after = { c with pp := after.pp, read := after.read }

theorem meets_ctrPrograms (bm : ByteMap) (n b : Nat) (c : CtrSt) :
    Meets (fun k => AdvancedFrom c k.ctr) (ctrPrograms p.machine bm n b)
      (fun _ k => AdvancedFrom c k.ctr) (fun _ k => AdvancedFrom c k.ctr) := by
  induction b using ctrPrograms.induct bm n with
  | case1 b pending ih =>
      rw [ctrPrograms, dif_pos pending]
      refine (meets_lift_ctr _ (AdvancedFrom c)).bind fun _ =>
        Meets.bind (meets_change ?_) fun _ => ih
      intro k from_
      rw [AdvancedFrom] at from_ ⊢
      rw [from_]
  | case2 b finished =>
      rw [ctrPrograms, dif_neg finished]
      exact meets_pure fun _ from_ => from_

theorem ctrDecode_congr {bm bm' : ByteMap}
    (bytes : ∀ i < ctrBytes, bm i = bm' i) : ctrDecode bm = ctrDecode bm' := by
  have agree : bm.slice 0 ctrBytes = bm'.slice 0 ctrBytes :=
    ByteMap.slice_congr fun i _ inside => bytes i (by omega)
  unfold Install.ctrDecode
  rw [agree]

theorem ctrDecode_of_verify {bm : ByteMap} {n : Nat}
    (verified : ctrVerify bm n = .ok) : ctrDecode bm = (n, false) := by
  unfold Install.ctrVerify at verified
  split_ifs at verified with differs
  push Not at differs
  exact Prod.ext differs.1 (by simpa using differs.2)

/-- A bitmap that takes no program already reads as the value. -/
theorem ctrDecode_of_same {bm : ByteMap} {n : Nat} (inRange : n ≤ ctrBits)
    (checked : ctrCheck bm n = .ok 0) : ctrDecode bm = (n, false) := by
  obtain ⟨_, above, none⟩ := Install.ctrCheck_ok checked
  apply Install.ctrDecode_of_bits inRange
  intro b inside
  by_cases high : n ≤ b
  · rw [above b high inside, decide_eq_true high]
  · rw [decide_eq_false high]
    have zero := List.countP_eq_zero.mp none.symm b
      (List.mem_range.mpr (Nat.lt_of_not_le high))
    simpa using zero

/-- The bitmap on the part reads as `n`, well formed. -/
def ReadsAs (p : FlashPart World) (n : Nat) (k : Kernel World) : Prop :=
  ctrDecode (bitmapOf (p.flash k.state.world)) = (n, false)

theorem meets_ctrAdvanced (rq : Req) (bm : ByteMap) (c : CtrSt) :
    Meets (fun k => k.ctr = c) (ctrAdvanced p.machine rq bm)
      (fun _ k => AdvancedFrom c k.ctr ∧ ReadsAs p rq.ctrN k)
      (fun _ k => AdvancedFrom c k.ctr) := by
  have start : ∀ k : Kernel World, k.ctr = c → AdvancedFrom c k.ctr := by
    rintro k rfl
    rfl
  refine ((meets_ctrPrograms bm rq.ctrN _ c).weaken start
    (fun _ _ from_ => from_) fun _ _ from_ => from_).bind fun _ => ?_
  intro k from_
  have late : ∀ (read : Nat) (_ : Halt) (k' : Kernel World),
      Holds p (p.flash k.state.world) { k.ctr with read := read } k' →
        AdvancedFrom c k'.ctr := by
    rintro read _ k' ⟨_, same⟩
    rw [same]
    rw [AdvancedFrom] at from_ ⊢
    rw [from_]
  have reading : Meets (Holds p (p.flash k.state.world) k.ctr)
      (do
        let rb ← lift (readPio p.machine stateBase ctrBytes)
        note fun c => { c with read := (ctrDecode rb).1 }
        lift (require (ctrVerify rb rq.ctrN)) : Call World Unit)
      (fun _ k' => AdvancedFrom c k'.ctr ∧ ReadsAs p rq.ctrN k')
      (fun _ k' => AdvancedFrom c k'.ctr) := by
    refine ((meets_lift (keeps_readPio stateBase ctrBytes) _ _).weaken
      (fun _ holds => holds) (fun _ _ holds => holds)
      (late k.ctr.read)).bind fun rb => meets_of_fact fun bytes => ?_
    refine (meets_note _ _ _).bind fun _ => ?_
    refine (meets_lift (keeps_require _) _ _).weaken (fun _ holds => holds) ?_
      (late (ctrDecode rb).1)
    rintro _ k' ⟨holds, verified⟩
    refine ⟨late _ (.reason .ok) k' holds, ?_⟩
    have same : ctrDecode rb = ctrDecode (bitmapOf (p.flash k.state.world)) :=
      ctrDecode_congr bytes
    rw [ReadsAs, holds.1, ← same, ctrDecode_of_verify verified]
  exact reading k ⟨rfl, rfl⟩

/-- One attempt more, of `done`, `refused` and `failed` as many more. -/
structure Counted (before after : CtrSt) (done refused failed : UInt32) :
    Prop where
  attempts : after.attempts = before.attempts + 1
  done : after.done = before.done + done
  refused : after.refused = before.refused + refused
  failed : after.failed = before.failed + failed

/-- What one attempt at `n` leaves of the kernel it began in. -/
inductive Attempted (p : FlashPart World) (b : Boot) (n : Nat)
    (before after : Kernel World) : Prop
  | refused (flash : p.flash after.state.world = p.flash before.state.world)
      (counted : Counted before.ctr after.ctr 0 1 0)
  | done (tied : ctrTie n (b.hoSlot != 0) b.hoVer = .ok)
      (reads : ReadsAs p n after) (newv : after.ctr.newv = n)
      (counted : Counted before.ctr after.ctr 1 0 0)
  | failed (counted : Counted before.ctr after.ctr 0 0 1)

/-- Every attempt is refused with the flash as it was, done with the bitmap
reading as its value, or failed; and it is counted as what it is. -/
theorem attempted_ctrRun (b : Boot) (rq : Req) (why : Install.Reason)
    (inRange : why = .ok → rq.ctrN ≤ ctrBits) (k : Kernel World) :
    Attempted p b rq.ctrN k (ctrRun p.machine b rq why k).2.1 := by
  let chip := p.flash k.state.world
  let begun : CtrSt :=
    { k.ctr with
      attempts := k.ctr.attempts + 1, ran := true, malformed := false
      cur := 0, read := 0, pp := 0, newv := rq.ctrN }
  let Ends : Kernel World → Prop := Attempted p b rq.ctrN k
  have same (x : UInt32) : x = x + 0 := (UInt32.add_zero x).symm
  have fails (halt : Halt) {Before : Kernel World → Prop}
      {update : CtrSt → CtrSt}
      (ends : ∀ after, Before after →
        Ends { after with ctr := update after.ctr }) :
      Meets Before (do note update; stop halt : Call World Unit)
        (fun _ => Ends) (fun _ => Ends) :=
    Meets.bind (meets_change ends) fun _ => meets_stop fun _ holds => holds
  have advanced (tied : ctrTie rq.ctrN (b.hoSlot != 0) b.hoVer = .ok)
      {c : CtrSt} (from_ : CheckedFrom begun c) (outcome : Except Halt Unit) :
      Meets
        (fun after =>
          (∀ value, outcome = .ok value →
            AdvancedFrom c after.ctr ∧ ReadsAs p rq.ctrN after) ∧
          ∀ halt, outcome = .error halt → AdvancedFrom c after.ctr)
        (match outcome with
          | .error halt => do
              note fun c => { c with failed := c.failed + 1, reason := halt.why }
              stop halt
          | .ok () => note fun c => { c with done := c.done + 1, reason := .ok } :
          Call World Unit)
        (fun _ => Ends) (fun _ => Ends) := by
    cases outcome with
    | error halt =>
        apply fails
        intro after holds
        refine .failed ?_
        rw [holds.2 halt rfl, from_]
        exact ⟨rfl, same _, same _, rfl⟩
    | ok _ =>
        apply meets_change
        intro after holds
        obtain ⟨later, reads⟩ := holds.1 _ rfl
        refine .done tied reads ?_ ?_
        · rw [later, from_]
        · rw [later, from_]
          exact ⟨rfl, rfl, same _, same _⟩
  have meets : Meets (Holds p chip k.ctr) (ctrRun p.machine b rq why)
      (fun _ => Ends) (fun _ => Ends) := by
    refine (meets_note _ chip k.ctr).bind fun _ => ?_
    refine (meets_ctrChecked b rq why chip begun).attempt.bind fun checked => ?_
    cases checked with
    | error halt =>
        apply fails
        intro after holds
        obtain ⟨flash, from_⟩ := holds.2 halt rfl
        refine .refused flash ?_
        rw [from_]
        exact ⟨rfl, same _, rfl, same _⟩
    | ok checked =>
        rcases checked with ⟨bm, nops⟩
        dsimp only
        apply Meets.ite
        · rintro rfl
          apply meets_change
          intro after holds
          obtain ⟨flash, from_, passes⟩ := holds.1 _ rfl
          refine .done passes.tied ?_ ?_ ?_
          · have reads := ctrDecode_of_same (inRange passes.parsed) passes.checked
            rw [ctrDecode_congr passes.bytes, ← flash] at reads
            exact reads
          · rw [from_]
          · rw [from_]
            exact ⟨rfl, rfl, same _, same _⟩
        · intro _ after holds
          obtain ⟨_, from_, passes⟩ := holds.1 _ rfl
          have advances := (meets_ctrAdvanced rq bm after.ctr).attempt.bind
            (advanced passes.tied from_)
          exact advances after rfl
  obtain ⟨returned, stopped⟩ := meets k ⟨rfl, rfl⟩
  cases outcome : (ctrRun p.machine b rq why k).1 with
  | ok value => exact returned value outcome
  | error halt => exact stopped halt outcome

/-- The flash and the counter's results are as they were. -/
def Same (p : FlashPart World) (before after : Kernel World) : Prop :=
  Holds p (p.flash before.state.world) before.ctr after

theorem Same.trans {first second third : Kernel World}
    (early : Same p first second) (late : Same p second third) :
    Same p first third :=
  ⟨late.1.trans early.1, late.2.trans early.2⟩

theorem Attempted.between {b : Boot} {n : Nat}
    {first before after last : Kernel World}
    (attempted : Attempted p b n before after) (start : Same p first before)
    (finish : Same p after last) : Attempted p b n first last := by
  obtain ⟨flash, ctr⟩ := start
  obtain ⟨flash', ctr'⟩ := finish
  cases attempted with
  | refused kept counted =>
      exact .refused (flash'.trans (kept.trans flash)) (ctr ▸ ctr' ▸ counted)
  | done tied reads newv counted =>
      refine .done tied ?_ (ctr'.symm ▸ newv) (ctr ▸ ctr' ▸ counted)
      rw [ReadsAs, flash']
      exact reads
  | failed counted => exact .failed (ctr ▸ ctr' ▸ counted)

/-- A run of `ctr`, and the disarm after it. -/
theorem attempted_verbInst (b : Boot) {line : List UInt8} {rq : Req}
    {why : Install.Reason} (parsed : Install.parse line = (why, rq))
    (verb : rq.verb = .ctr) (inRange : why = .ok → rq.ctrN ≤ ctrBits)
    (k : Kernel World) :
    Attempted p b rq.ctrN k (verbInst p.machine b line k).2.1 := by
  have attempted := attempted_ctrRun (p := p) b rq why inRange k
  have disarmed : (verbInst p.machine b line k).2.1 =
      (lift (doDisarm : Verb World Unit)
        (ctrRun p.machine b rq why k).2.1).2.1 := by
    unfold verbInst instBody
    rw [parsed]
    simp only [verb]
    rfl
  rw [disarmed]
  exact attempted.between ⟨rfl, rfl⟩ ⟨rfl, rfl⟩

/-- A written `ctr` line is one attempt, or nothing that the counter or the
flash sees. -/
theorem attempted_writeProc (b : Boot) {buffer : List UInt8} {rq : Req}
    {why : Install.Reason} (parsed : Install.parse (lineOf buffer) = (why, rq))
    (reaches : reachesInst (lineOf buffer) = true)
    (verb : rq.verb = .ctr) (inRange : why = .ok → rq.ctrN ≤ ctrBits)
    (k : Kernel World) :
    Same p k (writeProc p.machine b buffer k).2.1 ∨
      Attempted p b rq.ctrN k (writeProc p.machine b buffer k).2.1 := by
  by_cases short : buffer.length ≥ lineMax
  · left
    rw [writeProc, if_pos short]
    exact ⟨rfl, rfl⟩
  · let world := (p.machine.copyFromUser k.state.world).2
    have start : Same p k { k with state := { k.state with world := world } } :=
      ⟨p.copyFromUser_flash k.state.world, rfl⟩
    have asked (next : Bool → Call World (Except Errno Nat)) :
        ((do
          let answer ← lift (ask p.machine.copyFromUser)
          next answer : Call World _) k).2 =
        ((next (p.machine.copyFromUser k.state.world).1)
          { k with state := { k.state with world := world } }).2 := rfl
    rw [writeProc, if_neg short, asked]
    cases (p.machine.copyFromUser k.state.world).1 with
    | false => exact .inl start
    | true =>
        right
        rw [if_pos rfl, map_rest, dispatch, if_pos reaches]
        exact (attempted_verbInst b parsed verb inRange _).between start
          ⟨rfl, rfl⟩

end Kernel

end RlxFw.Spi
