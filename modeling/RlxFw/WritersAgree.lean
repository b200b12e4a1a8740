import RlxFw.FlashWriters
import RlxFw.Mirror

/-!
# The writers, twice

The writers with every answer and deviation send, verb for verb, what the writers that
keep only the order of verbs send, and stop at the same step.  So what is known of those
lines holds of the writers step by step.
-/

namespace RlxFw.FlashWriters

open Broker (SlotName)
open CfgStore (nslots slotSize)
open Emission (Mirrors mirrors_pure mirrors_stop mirrors_ask mirrors_ask_hidden ask stop)
open Spictl (Digest Place Sent Node armLine installLine slotPlace cfgPlace)

/-- What of a call reaches the node as an order. -/
def Asked.orders : Asked → List Sent
  | .verb line _ => [.verb line]
  | .stage bytes _ => [.stage bytes]
  | _ => []

/-- All that a writer orders. -/
def orders (events : List Asked) : List Sent := events.flatMap Asked.orders

theorem beq_toNat (x y : UInt32) : (x == y) = (x.toNat == y.toNat) := by
  rw [Bool.eq_iff_iff, beq_iff_eq, beq_iff_eq, UInt32.toNat_inj]

section Agree

variable {World : Type} (dev : Device World)

/-- A device, by whether its calls answered 0 and what its fields read as. -/
def Device.node : Node World where
  lock world := (decide (0 ≤ (dev.lock world).1), (dev.lock world).2)
  verb line world := ((dev.verb line world).1 == 0, (dev.verb line world).2)
  stage bytes world := ((dev.stage bytes world).1 == 0, (dev.stage bytes world).2)
  fieldU32 name world :=
    ((dev.fieldU32 name world).1.toOption.map UInt32.toNat, (dev.fieldU32 name world).2)
  field name world := ((dev.field name world).1.toOption, (dev.field name world).2)

/-- A writer and its outline: what is ordered, where they stop, and related values. -/
abbrev Alike {Value Value' : Type} (Same : Value → Value' → Prop)
    (whole : Writer World Value) (part : Spictl.Writer World Value') : Prop :=
  Mirrors Asked.orders (fun d at_ => d.step = at_) Same whole part

theorem verb_alike (line : List UInt8) :
    Alike (fun rc ok => ok = (rc == 0)) (spictlVerb dev line) (Spictl.verb dev.node line) :=
  mirrors_ask (fun _ => rfl) (fun _ => rfl) fun _ => rfl

theorem stage_alike (bytes : List UInt8) :
    Alike (fun rc ok => ok = (rc == 0)) (spictlStage dev bytes)
      (Spictl.stage dev.node bytes) :=
  mirrors_ask (fun _ => rfl) (fun _ => rfl) fun _ => rfl

/-- A cleanup returns, and of what it asks one verb is an order. -/
structure Resets (cleanup : Writer World Unit) : Prop where
  returns : ∀ state, (cleanup state).1 = .ok ()
  reset : ∀ state, orders (cleanup state).2.2 = [.verb (ascii "img reset")]

theorem cfCleanup_resets : Resets (cfCleanup dev) where
  returns _ := rfl
  reset _ := rfl

theorem updCleanup_resets (fd : Int) : Resets (updCleanup dev fd) where
  returns _ := rfl
  reset _ := rfl

/-- A part of a writer that gives up at a step, with the cleanup verb for its one
order. -/
structure GivesUp {Value : Type} (at_ : List UInt8) (writer : Writer World Value) : Prop where
  stops : ∀ state, ∃ detail, (writer state).1 = .error { step := at_, detail }
  reset : ∀ state, orders (writer state).2.2 = [.verb (ascii "img reset")]

variable {dev} {cleanup : Writer World Unit} {Value Next Next' : Type} {Same : Next → Next' → Prop}

/-- Giving up mirrors the outline's, whatever was asked since and would have come
next. -/
theorem GivesUp.alike {at_ : List UInt8} {writer : Writer World Next}
    (givesUp : GivesUp at_ writer) (next' : Unit → Spictl.Writer World Next') :
    Alike Same writer (Spictl.abort dev.node at_ >>= next') := by
  refine ⟨fun state => (givesUp.reset state).symm, fun state => ?_⟩
  obtain ⟨detail, stopped⟩ := givesUp.stops state
  rw [stopped]
  rfl

theorem GivesUp.asked {at_ : List UInt8} {next : Value → Writer World Next}
    {transition : World → Value × World} {report : Value → Asked}
    (hidden : ∀ value, (report value).orders = [])
    (givesUp : ∀ value, GivesUp at_ (next value)) :
    GivesUp at_ (ask transition report >>= next) := by
  refine ⟨fun state => (givesUp _).stops _, fun state => ?_⟩
  change List.flatMap Asked.orders (report _ :: _) = _
  rw [List.flatMap_cons, hidden]
  exact (givesUp _).reset _

variable (resets : Resets cleanup)

include resets

theorem abort_givesUp (at_ detail : List UInt8) (next : Value → Writer World Next) :
    GivesUp at_ (abort cleanup at_ detail >>= next) := by
  have run (state : World) : (abort cleanup at_ detail >>= next) state =
      (.error { step := at_, detail := detail }, (cleanup state).2.1,
        (cleanup state).2.2 ++ []) := by
    have returned := resets.returns state
    change Emission.andThen (Emission.andThen _ _) _ state = _
    unfold Emission.andThen
    rcases outcome : cleanup state with ⟨result, later, issued⟩
    rw [outcome] at returned
    cases returned
    rfl
  refine ⟨fun state => ⟨detail, by rw [run]⟩, fun state => ?_⟩
  rw [run, List.append_nil]
  exact resets.reset state

theorem check_then (at_ detail : List UInt8) (holds : Bool) {next : Unit → Writer World Next}
    {next' : Unit → Spictl.Writer World Next'} (continues : Alike Same (next ()) (next' ())) :
    Alike Same (check cleanup at_ detail holds >>= next)
      (Spictl.expect dev.node at_ holds >>= next') := by
  cases holds with
  | false => exact (abort_givesUp resets at_ detail next).alike next'
  | true => exact continues

theorem mustVerb_then (at_ line : List UInt8) {next : Unit → Writer World Next}
    {next' : Unit → Spictl.Writer World Next'} (continues : Alike Same (next ()) (next' ())) :
    Alike Same (mustVerb dev cleanup at_ line >>= next)
      (Spictl.verb dev.node line >>= fun ok => Spictl.expect dev.node at_ ok >>= next') := by
  unfold mustVerb
  rw [bind_assoc]
  apply (verb_alike dev line).bind
  rintro rc ok rfl
  exact check_then resets at_ _ _ continues

theorem mustStage_then (img : List UInt8) {next : Unit → Writer World Next}
    {next' : Unit → Spictl.Writer World Next'} (continues : Alike Same (next ()) (next' ())) :
    Alike Same (mustStage dev cleanup img >>= next)
      (Spictl.stage dev.node img >>= fun ok =>
        Spictl.expect dev.node (ascii "stage") ok >>= next') := by
  unfold mustStage
  rw [bind_assoc]
  apply (stage_alike dev img).bind
  rintro rc ok rfl
  exact check_then resets (ascii "stage") _ _ continues

theorem mustRead_then (name : List UInt8) {next : UInt32 → Writer World Next}
    {next' : Nat → Spictl.Writer World Next'}
    (continues : ∀ x, Alike Same (next x) (next' x.toNat)) :
    Alike Same (mustRead dev cleanup name >>= next)
      (Spictl.number dev.node name >>= next') := by
  unfold mustRead Spictl.number
  simp only [bind_assoc]
  have asked : Alike (fun read read' => read' = read.toOption.map UInt32.toNat)
      (spictlFieldU32 dev name) (Emission.step (dev.node.fieldU32 name)) :=
    mirrors_ask_hidden (fun _ => rfl) (fun _ => rfl) fun _ => rfl
  apply asked.bind
  rintro (rc | x) read' rfl
  · exact (abort_givesUp resets name (errnoText rc) next).alike _
  · exact continues x

theorem mustNumber_then (name : List UInt8) (right : UInt32 → Bool) (right' : Nat → Bool)
    (detail : UInt32 → List UInt8) (agree : ∀ x, right x = right' x.toNat)
    {next : Unit → Writer World Next} {next' : Unit → Spictl.Writer World Next'}
    (continues : Alike Same (next ()) (next' ())) :
    Alike Same (mustNumber dev cleanup name right detail >>= next)
      (Spictl.number dev.node name >>= fun x =>
        Spictl.expect dev.node name (right' x) >>= next') := by
  unfold mustNumber
  rw [bind_assoc]
  apply mustRead_then resets
  intro x
  rw [agree]
  exact check_then resets name _ _ continues

theorem mustText_then (name expected : List UInt8) {next : Unit → Writer World Next}
    {next' : Unit → Spictl.Writer World Next'} (continues : Alike Same (next ()) (next' ())) :
    Alike Same (mustText dev cleanup name expected >>= next)
      (Spictl.text dev.node name expected >>= next') := by
  unfold mustText Spictl.text
  simp only [bind_assoc]
  have asked : Alike (fun read read' => read' = read.toOption)
      (spictlField dev name) (Emission.step (dev.node.field name)) :=
    mirrors_ask_hidden (fun _ => rfl) (fun _ => rfl) fun _ => rfl
  apply asked.bind
  rintro (rc | v) read' rfl
  · exact (abort_givesUp resets name (errnoText rc) next).alike next'
  · exact check_then resets name v (v == expected) continues

/-- The refused install asks for the reason first, which is no order. -/
theorem installVerb_then (place : Place) (md : Digest) {next : Unit → Writer World Next}
    {next' : Unit → Spictl.Writer World Next'} (continues : Alike Same (next ()) (next' ())) :
    Alike Same (installVerb dev cleanup place md >>= next)
      (Spictl.verb dev.node (installLine place.name md) >>= fun ok =>
        Spictl.expect dev.node (ascii "install") ok >>= next') := by
  unfold installVerb
  rw [bind_assoc]
  apply (verb_alike dev _).bind
  rintro rc ok rfl
  by_cases zero : rc = 0
  · subst zero
    exact continues
  · have refused : (rc == 0) = false := by simpa using zero
    rw [if_pos zero, refused, bind_assoc]
    exact (GivesUp.asked (fun _ => rfl) fun reason => abort_givesUp resets (ascii "install")
      (installText rc reason) next).alike next'

/-- The steps that the writers share. -/
theorem writeRegion_then (place : Place) (img : List UInt8) (md : Digest) (want : Nat)
    (digest : ∀ world, dev.sha256 img world = (some md, world))
    {next : Unit → Writer World Next} {next' : Unit → Spictl.Writer World Next'}
    (continues : Alike Same (next ()) (next' ())) :
    Alike Same (writeRegion dev cleanup place img want >>= next)
      (Spictl.writeRegion dev.node place img md want >>= next') := by
  have moved (nw0 nw1 : UInt32) : ((nw1 - nw0).toNat == want) =
      ((nw1.toNat + 2 ^ 32 - nw0.toNat) % 2 ^ 32 == want) := by
    have small := nw0.toNat_lt
    rw [UInt32.toNat_sub]
    congr 2
    omega
  unfold writeRegion stageImage armAndInstall verdict Spictl.writeRegion
  simp only [bind_assoc]
  apply mustVerb_then resets
  apply mustVerb_then resets
  apply mustStage_then resets
  apply mustNumber_then resets (ascii "img_len") _ (fun n => n == img.length) _ fun _ => rfl
  apply mustText_then resets
  apply mustRead_then resets
  intro nw0
  apply mustVerb_then resets
  apply Mirrors.hidden digest rfl
  apply installVerb_then resets
  apply mustText_then resets
  apply mustNumber_then resets (ascii "inst_cmp_ok") _ (fun n => n == 1) _ fun x => beq_toNat x 1
  apply mustNumber_then resets (ascii "inst_cmp_diff") _ (fun n => n == 0) _ fun x => beq_toNat x 0
  apply mustNumber_then resets (ascii "n_writes") _
    (fun n => (n + 2 ^ 32 - nw0.toNat) % 2 ^ 32 == want) _ (moved nw0)
  exact continues

end Agree

/-! ## The two writers -/

section Writers

variable {World : Type} (dev : Device World) {sha : List UInt8 → Digest}
  (digest : ∀ bytes world, dev.sha256 bytes world = (some (sha bytes), world))

include digest

/-- `upd_install` and its outline. -/
theorem updInstall_alike (dest : SlotName) (img : List UInt8) :
    Alike (fun _ _ => True) (updInstall dev dest img)
      (Spictl.updInstall dev.node sha dest img) := by
  have locked : Alike (fun fd ok => ok = decide (0 ≤ fd)) (spictlLock dev)
      (Emission.step dev.node.lock) :=
    mirrors_ask_hidden (fun _ => rfl) (fun _ => rfl) fun _ => rfl
  unfold updInstall Spictl.updInstall
  apply locked.bind
  rintro fd ok rfl
  by_cases held : 0 ≤ fd
  · rw [if_neg (not_lt.mpr held), if_pos (decide_eq_true held)]
    apply writeRegion_then (updCleanup_resets dev fd) _ _ _ _ (digest img)
    apply (verb_alike dev _).bind
    intro _ _ _
    exact mirrors_pure trivial
  · rw [if_pos (not_le.mp held), if_neg (by simpa using held)]
    exact mirrors_stop rfl

/-- `cfg_flash_write_slot_locked` and its outline, at a slot that there is. -/
theorem cfgFlashWriteSlotLocked_alike (s : Fin nslots) (img : ByteMap) :
    Alike (fun _ _ => True) (cfgFlashWriteSlotLocked dev s.val (some img))
      (Spictl.cfgFlashWriteSlotLocked dev.node sha s img) := by
  have there : ¬ ((s.val : Int) ≠ 0 ∧ (s.val : Int) ≠ 1) := by
    have small := s.isLt
    have two : nslots = 2 := rfl
    omega
  have slot : (if (s.val : Int) = 0 then 0 else 1) = s := by
    revert s
    decide
  unfold cfgFlashWriteSlotLocked Spictl.cfgFlashWriteSlotLocked
  dsimp only
  rw [if_neg there, slot]
  apply writeRegion_then (cfCleanup_resets dev) _ _ _ _ (digest _)
  apply (verb_alike dev _).bind
  rintro rc ok rfl
  by_cases zero : rc = 0
  · subst zero
    exact mirrors_pure trivial
  · have refused : (rc == 0) = false := by simpa using zero
    rw [if_pos zero, refused]
    exact mirrors_stop rfl

end Writers

/-! ## What the writers send -/

section Intended

variable {World Driver : Type} {m : Spi.Machine Driver} (reads : Spictl.ReadsHex m.strtoul)
  (dev : Device World) {sha : List UInt8 → Digest}
  (digest : ∀ bytes world, dev.sha256 bytes world = (some (sha bytes), world))

include reads digest

/-- Every order of `upd_install` is one that the driver takes for its slot. -/
theorem updInstall_sends (dest : SlotName) (img : List UInt8) (world : World) :
    ∀ order ∈ orders (updInstall dev dest img world).2.2,
      Spictl.Intended m (Spictl.slotRegion dest) img (sha img) order := by
  have alike := (updInstall_alike dev digest dest img).ops world
  intro order member
  exact (Spictl.updInstall_intended reads dev.node sha dest img world).1 order
    (alike ▸ member)

/-- Every order of `cfg_flash_write_slot_locked` is one that the driver takes for its
slot. -/
theorem cfgFlashWriteSlotLocked_sends (s : Fin nslots) (img : ByteMap) (world : World) :
    ∀ order ∈ orders (cfgFlashWriteSlotLocked dev s.val (some img) world).2.2,
      Spictl.Intended m (Spictl.cfgRegion s) (img.slice 0 slotSize)
        (sha (img.slice 0 slotSize)) order := by
  have alike := (cfgFlashWriteSlotLocked_alike dev digest s img).ops world
  intro order member
  exact (Spictl.cfgFlashWrite_intended reads dev.node sha s img world).1 order
    (alike ▸ member)

end Intended

end RlxFw.FlashWriters
