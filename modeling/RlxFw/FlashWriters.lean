import RlxFw.Account
import RlxFw.InstallAgreement

/-!
# The flash writers, step by step

`cfg_flash_write_slot_locked` of `src/lib/cfgflash.c` and `upd_install` of
`src/brokerd/update.c`, with the flash lock, every answer of the node, and what they say
of a deviation.
-/

namespace RlxFw.FlashWriters

open Broker (SlotName decimal)
open CfgStore (cfBase flashRegion slotSize)
open Emission (ask stop)
open Spictl (Digest Place armLine installLine slotPlace cfgPlace)

/-! ## The node -/

/-- The calls of `spictl.h` and `sha256`, on a world of their own.  A call that fails
answers other than 0, a lock less than 0. -/
structure Device (World : Type) where
  lock : World → Int × World
  unlock : Int → World → World
  verb : List UInt8 → World → Int × World
  stage : List UInt8 → World → Int × World
  fieldU32 : List UInt8 → World → Except Int UInt32 × World
  field : List UInt8 → World → Except Int (List UInt8) × World
  sha256 : List UInt8 → World → Option Digest × World

/-- What a writer asks for. -/
inductive Call where
  | lock
  | unlock (fd : Int)
  | verb (line : List UInt8)
  | stage (bytes : List UInt8)
  | number (name : List UInt8)
  | text (name : List UInt8)
  | digest (bytes : List UInt8)
deriving DecidableEq

/-- What a writer asked for, and the answer. -/
inductive Asked where
  | lock (fd : Int)
  | unlock (fd : Int)
  | verb (line : List UInt8) (rc : Int)
  | stage (bytes : List UInt8) (rc : Int)
  | number (name : List UInt8) (read : Except Int UInt32)
  | text (name : List UInt8) (read : Except Int (List UInt8))
  | digest (bytes : List UInt8) (md : Option Digest)

/-- The call without its answer. -/
def Asked.call : Asked → Call
  | .lock _ => .lock
  | .unlock fd => .unlock fd
  | .verb line _ => .verb line
  | .stage bytes _ => .stage bytes
  | .number name _ => .number name
  | .text name _ => .text name
  | .digest bytes _ => .digest bytes

/-- The step at which a writer gives up, and what it says of it. -/
structure Deviation where
  step : List UInt8
  detail : List UInt8
deriving DecidableEq, Repr

/-- `cfg_flash_why`, in `cf_reason` and its NUL. -/
def Deviation.why (d : Deviation) : List UInt8 := (d.step ++ ascii ": " ++ d.detail).take 191

/-- A writer, or a part of one. -/
abbrev Writer (World Value : Type) : Type := Emission World Asked Deviation Value

/-! ## The texts of a deviation -/

/-- `errno %d`, of what a call answered. -/
def errnoText (rc : Int) : List UInt8 := ascii "errno " ++ decimal rc.natAbs

/-- The staged length is not the image's. -/
def stagedText (ilen : UInt32) (want : Nat) : List UInt8 :=
  decimal ilen.toNat ++ ascii " staged, want " ++ decimal want

/-- The install verb was refused, for the reason in the node. -/
def installText (rc : Int) (reason : Except Int (List UInt8)) : List UInt8 :=
  errnoText rc ++ ascii ", inst_reason " ++
    match reason with
    | .error _ => ascii "?"
    | .ok v => v

/-- The read-back compare found a difference. -/
def differText (x : UInt32) : List UInt8 := decimal x.toNat ++ ascii " bytes differ"

/-- The count of flash operations is not the plan's. -/
def movedText (by_ : UInt32) (want : Nat) : List UInt8 :=
  ascii "moved by " ++ decimal by_.toNat ++ ascii ", want " ++ decimal want

/-- `spictl_lock_why`. -/
def lockWhy (rc : Int) : List UInt8 :=
  if rc = -89 then ascii "flock: ENOSYS, the kernel has no CONFIG_FILE_LOCKING"
  else if rc = -145 then ascii "flock: held by another writer past the timeout"
  else if rc = -13 then ascii "lock file: EACCES (not root?)"
  else ascii "lock: " ++ errnoText rc

/-! ## The writers -/

section Writers

variable {World : Type} (dev : Device World)

/-- `spictl_verb`. -/
def spictlVerb (line : List UInt8) : Writer World Int := ask (dev.verb line) (.verb line)

/-- `spictl_stage`. -/
def spictlStage (bytes : List UInt8) : Writer World Int := ask (dev.stage bytes) (.stage bytes)

/-- `spictl_field_u32`. -/
def spictlFieldU32 (name : List UInt8) : Writer World (Except Int UInt32) :=
  ask (dev.fieldU32 name) (.number name)

/-- `spictl_field`, into a buffer of 32 bytes. -/
def spictlField (name : List UInt8) : Writer World (Except Int (List UInt8)) :=
  ask (dev.field name) (.text name)

/-- `sha256`. -/
def sha256 (bytes : List UInt8) : Writer World (Option Digest) :=
  ask (dev.sha256 bytes) (.digest bytes)

/-- `spictl_lock`. -/
def spictlLock : Writer World Int := ask dev.lock .lock

/-- `spictl_unlock`. -/
def spictlUnlock (fd : Int) : Writer World Unit :=
  ask (fun world => ((), dev.unlock fd world)) fun _ => .unlock fd

/-- What `cf_abort` does beside its line: the one cleanup verb. -/
def cfCleanup : Writer World Unit := do
  let _ ← spictlVerb dev (ascii "img reset")
  pure ()

/-- What `upd_abort` does beside its line: the one cleanup verb, and the lock. -/
def updCleanup (fd : Int) : Writer World Unit := do
  let _ ← spictlVerb dev (ascii "img reset")
  spictlUnlock dev fd

section Steps

variable (cleanup : Writer World Unit)

/-- `cf_abort` and `upd_abort`. -/
def abort {Value : Type} (step detail : List UInt8) : Writer World Value := do
  cleanup
  stop { step := step, detail := detail }

/-- Go on, or give up at a step. -/
def check (step detail : List UInt8) (holds : Bool) : Writer World Unit :=
  if holds then pure () else abort cleanup step detail

/-- A verb that must answer 0. -/
def mustVerb (step line : List UInt8) : Writer World Unit := do
  let rc ← spictlVerb dev line
  check cleanup step (errnoText rc) (rc == 0)

/-- The staging, which must answer 0. -/
def mustStage (img : List UInt8) : Writer World Unit := do
  let rc ← spictlStage dev img
  check cleanup (ascii "stage") (errnoText rc) (rc == 0)

/-- A field that must read as a number. -/
def mustRead (name : List UInt8) : Writer World UInt32 := do
  match ← spictlFieldU32 dev name with
  | .error rc => abort cleanup name (errnoText rc)
  | .ok x => pure x

/-- A field that must read as a number that is right. -/
def mustNumber (name : List UInt8) (right : UInt32 → Bool) (detail : UInt32 → List UInt8) :
    Writer World Unit := do
  let x ← mustRead dev cleanup name
  check cleanup name (detail x) (right x)

/-- A field that must read as a text. -/
def mustText (name expected : List UInt8) : Writer World Unit := do
  match ← spictlField dev name with
  | .error rc => abort cleanup name (errnoText rc)
  | .ok v => check cleanup name v (v == expected)

/-- Steps 2 to 4: the image is staged whole.  The count of flash operations so far. -/
def stageImage (img : List UInt8) : Writer World UInt32 := do
  mustVerb dev cleanup (ascii "disarm") (ascii "disarm")
  mustVerb dev cleanup (ascii "img reset") (ascii "img reset")
  mustStage dev cleanup img
  mustNumber dev cleanup (ascii "img_len") (fun ilen => ilen.toNat == img.length)
    fun ilen => stagedText ilen img.length
  mustText dev cleanup (ascii "img_err") (ascii "none")
  mustRead dev cleanup (ascii "n_writes")

/-- The install verb, and the kernel's reason when it is refused. -/
def installVerb (place : Place) (md : Digest) : Writer World Unit := do
  let rc ← spictlVerb dev (installLine place.name md)
  if rc ≠ 0 then do
    let reason ← spictlField dev (ascii "inst_reason")
    abort cleanup (ascii "install") (installText rc reason)
  else pure ()

/-- Steps 5 and 6: the region exactly is armed, and the image's digest installed in it. -/
def armAndInstall (place : Place) (img : List UInt8) : Writer World Unit := do
  mustVerb dev cleanup (ascii "arm") (armLine place.base place.size)
  match ← sha256 dev img with
  | none => abort cleanup (ascii "sha256") (ascii "the digest failed")
  | some md => installVerb dev cleanup place md

/-- Step 7: the kernel's verdict, and the count of flash operations. -/
def verdict (nw0 : UInt32) (want : Nat) : Writer World Unit := do
  mustText dev cleanup (ascii "inst_reason") (ascii "OK")
  mustNumber dev cleanup (ascii "inst_cmp_ok") (· == 1) fun _ =>
    ascii "the read-back compare did not pass"
  mustNumber dev cleanup (ascii "inst_cmp_diff") (· == 0) differText
  mustNumber dev cleanup (ascii "n_writes") (fun nw1 => (nw1 - nw0).toNat == want) fun nw1 =>
    movedText (nw1 - nw0) want

/-- The steps that the two writers share. -/
def writeRegion (place : Place) (img : List UInt8) (want : Nat) : Writer World Unit := do
  let nw0 ← stageImage dev cleanup img
  armAndInstall dev cleanup place img
  verdict dev cleanup nw0 want

end Steps

/-- `CFG_FLASH_NWRITES`. -/
def cfgFlashNwrites : Nat := 32

/-- `cfg_flash_write_slot_locked`.  Nothing follows the failure of its last verb. -/
def cfgFlashWriteSlotLocked (s : Int) (img : Option ByteMap) : Writer World Unit :=
  match img with
  | none => stop { step := ascii "args", detail := ascii "slot 0 or 1 and an image" }
  | some img =>
      if s ≠ 0 ∧ s ≠ 1 then
        stop { step := ascii "args", detail := ascii "slot 0 or 1 and an image" }
      else do
        writeRegion dev (cfCleanup dev) (cfgPlace (if s = 0 then 0 else 1))
          (img.slice 0 slotSize) cfgFlashNwrites
        let rc ← spictlVerb dev (ascii "img reset")
        if rc ≠ 0 then stop { step := ascii "img reset (last)", detail := errnoText rc }
        else pure ()

/-- `UPD_NW_ERASES` and the pages of an image. -/
def updNwrites (total : Nat) : Nat := 288 + (total + 255) / 256

/-- `upd_install`: the lock that is held, whatever its last verb answered. -/
def updInstall (dest : SlotName) (img : List UInt8) : Writer World Int := do
  let fd ← spictlLock dev
  if fd < 0 then stop { step := ascii "lock", detail := lockWhy fd }
  else do
    writeRegion dev (updCleanup dev fd) (slotPlace dest) img (updNwrites img.length)
    let _ ← spictlVerb dev (ascii "img reset")
    pure fd

end Writers

end RlxFw.FlashWriters
