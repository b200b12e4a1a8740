import RlxFw.LastWriter
import RlxFw.Passwords
import Mathlib.Data.List.DropRight

/-!
# The first password

`src/init/firstpw.c`, the console step of an image without a shell, and what it
calls of `src/lib/kdf.c`.  What the terminal, the reads and the random source return
is given; a list that ends is a call that has not returned.
-/

namespace RlxFw.FirstPassword

open Broker (Source bkRandom)
open CfgStore (Cfg Faults Medium Refusal fpBase fpSet fpHasHash idPwhash loadInfo storeRec)
open Scrypt (Allocator kdfScrypt pwhashMake)

/-! ## The terminal -/

/-- The flags of `c_lflag` that a prompt sets; `rest` is all else of `struct termios`. -/
structure Termios where
  echo : Bool
  echoe : Bool
  echok : Bool
  echonl : Bool
  icanon : Bool
  rest : Nat
deriving DecidableEq

/-- What `tcsetattr` makes of the mode that is and the one that is asked for; nothing
where it fails.  It may succeed with any part of what was asked. -/
abbrev Tcsetattr := Termios → Termios → Option Termios

/-- It does all that it is asked. -/
def Honours (set : Tcsetattr) : Prop := ∀ now asked, set now asked = some asked

/-- What the calls around one prompt come to. -/
structure TtyWorld where
  getattr : Bool
  setOff : Tcsetattr
  readBack : Bool
  /-- `TCSANOW` of the saved mode. -/
  restore : Tcsetattr

def Termios.quiet (mode : Termios) : Termios :=
  { mode with echo := false, echoe := false, echok := false, echonl := false, icanon := true }

/-- `fp_echo_restore`, of a terminal. -/
def echoRestore (w : TtyWorld) (saved mode : Termios) : Termios :=
  (w.restore mode saved).getD mode

/-- `fp_echo_off` past `isatty`, and `echo_off` of `cfgstore`: whether it returns 0, and
the mode then.  The mode that is saved is the one it found. -/
def echoOff (w : TtyWorld) (mode : Termios) : Bool × Termios :=
  if ¬ w.getattr then (false, mode)
  else
    match w.setOff mode mode.quiet with
    | none => (false, echoRestore w mode mode)
    | some now =>
        if ¬ w.readBack ∨ now.echo then (false, echoRestore w mode now) else (true, now)

/-- `fp_echo_off`. -/
def fpEchoOff (tty : Bool) (w : TtyWorld) (mode : Termios) : Bool × Termios :=
  if tty then echoOff w mode else (true, mode)

/-- `fp_echo_restore`. -/
def fpEchoRestore (tty : Bool) (w : TtyWorld) (saved mode : Termios) : Termios :=
  if tty then echoRestore w saved mode else mode

/-! ## A line -/

/-- What one `read` of a byte returns. -/
inductive ReadResult where
  | byte (b : UInt8)
  /-- `EINTR`. -/
  | again
  | gone
deriving DecidableEq

/-- `FP_LINE_OK` with the line, `FP_LINE_EOF` and `FP_LINE_LONG`. -/
inductive LineResult where
  | line (bytes : List UInt8)
  | eof
  | long
deriving DecidableEq

/-- The trailing CRs, stripped. -/
def stripCr (line : List UInt8) : List UInt8 := line.rdropWhile fun b => b == 0x0D

/-- The loop of `fp_read_line`, with what is not read yet. -/
def fpReadLoop (cap : Nat) (buf : List UInt8) (tooLong : Bool) :
    List ReadResult → Option LineResult × List ReadResult
  | [] => (none, [])
  | .again :: rest => fpReadLoop cap buf tooLong rest
  | .gone :: rest => (some .eof, rest)
  | .byte b :: rest =>
      if b = 0x0A then (some (if tooLong then .long else .line (stripCr buf)), rest)
      else if buf.length < cap then fpReadLoop cap (buf ++ [b]) tooLong rest
      else fpReadLoop cap buf true rest

/-- `FP_PW_MIN`. -/
def pwMin : Nat := 8
/-- `FP_PW_MAX`. -/
def pwMax : Nat := 64

/-- `fp_read_line`, as `fp_run` calls it. -/
def fpReadLine (reads : List ReadResult) : Option LineResult × List ReadResult :=
  fpReadLoop pwMax [] false reads

/-! ## The salt -/

/-- The `KDFE_*` of `pwhash_salt`. -/
inductive SaltErr where
  | io
  | entropy
deriving DecidableEq

/-- `KDF_ENTROPY_MIN`. -/
def kdfEntropyMin : Nat := 128

/-- The digits and the space of `kdf_entropy_avail`. -/
def IsSpace (c : UInt8) : Prop := c = 0x20 ∨ c = 0x09 ∨ c = 0x0A ∨ c = 0x0D

instance (c : UInt8) : Decidable (IsSpace c) :=
  inferInstanceAs (Decidable (_ ∨ _))

/-- The loop of `kdf_entropy_avail`; `v` is `none` before the first digit. -/
def entropyLoop : Option Nat → List UInt8 → Except SaltErr Nat
  | none, [] => .error .io
  | some v, [] => .ok v
  | v, c :: rest =>
      if Decimal.IsDigit c then
        if v.getD 0 > 1000000 then .error .io
        else entropyLoop (some (v.getD 0 * 10 + (c.toNat - 0x30))) rest
      else
        match v with
        | some v => .ok v
        | none => if IsSpace c then entropyLoop none rest else .error .io

/-- `kdf_entropy_avail`, on what its `read` gives where the file opens. -/
def kdfEntropyAvail (file : Option (List UInt8)) : Except SaltErr Nat :=
  match file with
  | none => .error .io
  | some bytes => if bytes.isEmpty then .error .io else entropyLoop none (bytes.take 31)

/-- What a call of `pwhash_salt` reads. -/
structure SaltWorld where
  entropyAvail : Option (List UInt8)
  urandom : Source

/-- `pwhash_salt`. -/
def pwhashSalt (w : SaltWorld) : Except SaltErr (List UInt8) :=
  match kdfEntropyAvail w.entropyAvail with
  | .error e => .error e
  | .ok e =>
      if e < kdfEntropyMin then .error .entropy
      else
        let salt := bkRandom w.urandom 16
        if salt.2 then .ok salt.1 else .error .io

/-! ## The step -/

/-- `enum fp_result`. -/
inductive FpResult where
  | setStore
  | setFresh
  | hashed
  | eof
  | tty
  | kdf
  | io
deriving DecidableEq

/-- `FP_OFFER_*`. -/
inductive FpOffer where
  | yes
  | no
  | unreadable
deriving DecidableEq

/-- `fp_offer`. -/
def fpOffer (rc : Option CfgStore.Err) (c : Cfg) : FpOffer :=
  if rc.isSome then .unreadable else if fpHasHash c then .no else .yes

/-- `fp_store`; its load and its write meet faults of their own. -/
def fpStore (load store : Faults) (m : Medium) (blob : List UInt8) : FpResult × Medium :=
  match fpBase (loadInfo load m) with
  | .error .hashed => (.hashed, m)
  | .error _ => (.io, m)
  | .ok (base, fresh) =>
      match fpSet base [{ type := idPwhash, val := blob }] with
      | .error _ => (.io, m)
      | .ok work =>
          let stored := storeRec store m work fresh
          match stored.rc with
          | some _ => (.io, stored.medium)
          | none => (if fresh then .setFresh else .setStore, stored.medium)

/-- One turn of the loop that asks for the password. -/
structure Entry where
  tty : TtyWorld
  reads : List ReadResult

/-- What a turn comes to. -/
inductive Turn where
  | waiting
  | ended (result : FpResult)
  | again
  | got (pw : List UInt8)
deriving DecidableEq

/-- The second entry, which is asked for only after a first that could be one. -/
def fpSecond (r1 : LineResult) (reads : List ReadResult) : Option LineResult :=
  match r1 with
  | .line pw => if pw.length ≥ pwMin then (fpReadLine reads).1 else some (.line [])
  | _ => some (.line [])

/-- The tests on the two entries. -/
def fpJudge (r1 r2 : LineResult) : Turn :=
  match r1, r2 with
  | .eof, _ => .ended .eof
  | _, .eof => .ended .eof
  | .long, _ => .again
  | _, .long => .again
  | .line pw, .line pw2 =>
      if pw.length < pwMin then .again else if pw ≠ pw2 then .again else .got pw

/-- A turn: what it comes to, the mode after it, and the modes in which it read. -/
def fpTurn (tty : Bool) (e : Entry) (mode : Termios) : Turn × Termios × List Termios :=
  let off := fpEchoOff tty e.tty mode
  if ¬ off.1 then (.ended .tty, off.2, [])
  else
    let first := fpReadLine e.reads
    match first.1 with
    | none => (.waiting, off.2, [off.2])
    | some r1 =>
        match fpSecond r1 first.2 with
        | none => (.waiting, off.2, [off.2])
        | some r2 => (fpJudge r1 r2, fpEchoRestore tty e.tty mode off.2, [off.2])

/-- The loop of `fp_run` over its turns. -/
def fpAsk (tty : Bool) : List Entry → Termios → Turn × Termios × List Termios
  | [], mode => (.waiting, mode, [])
  | e :: rest, mode =>
      match fpTurn tty e mode with
      | (.again, mode, read) =>
          let later := fpAsk tty rest mode
          (later.1, later.2.1, read ++ later.2.2)
      | turn => turn

/-- The loop of `fp_run` over the draws of the salt. -/
def fpSalt : List SaltWorld → Option (Except SaltErr (List UInt8))
  | [] => none
  | w :: rest =>
      match pwhashSalt w with
      | .error .entropy => fpSalt rest
      | drawn => some drawn

/-- What `fp_run` meets. -/
structure FpWorld where
  tty : Bool
  entries : List Entry
  salts : List SaltWorld
  malloc : Allocator
  load : Faults
  store : Faults

/-- What it leaves; `result` is `none` while it waits. -/
structure FpRun where
  result : Option FpResult
  mode : Termios
  medium : Medium
  /-- The modes in which it read. -/
  readIn : List Termios

/-- `fp_run` once it has the password. -/
def fpHash (w : FpWorld) (pw : List UInt8) (m : Medium) : Option FpResult × Medium :=
  match fpSalt w.salts with
  | none => (none, m)
  | some (.error _) => (some .kdf, m)
  | some (.ok salt) =>
      match pwhashMake w.malloc pw (UInt8.ofNat Broker.kdfLog2n) (UInt16.ofNat Broker.kdfR)
          (UInt16.ofNat Broker.kdfP) salt with
      | .error _ => (some .kdf, m)
      | .ok blob => ((some (fpStore w.load w.store m blob).1),
          (fpStore w.load w.store m blob).2)

/-- `fp_run`. -/
def fpRun (w : FpWorld) (mode : Termios) (m : Medium) : FpRun :=
  match fpAsk w.tty w.entries mode with
  | (.got pw, mode, readIn) =>
      { result := (fpHash w pw m).1, mode, medium := (fpHash w pw m).2, readIn }
  | (.ended result, mode, readIn) => { result := some result, mode, medium := m, readIn }
  | (_, mode, readIn) => { result := none, mode, medium := m, readIn }

end RlxFw.FirstPassword
