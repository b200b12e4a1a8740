import RlxFw.ContainerSpec
import RlxFw.Counter

/-!
# Booting from slot A or slot B

`src/rlxboot/slots.c` and the slots build of `main.c`: each slot is copied into
a RAM buffer of its own and verified there, the higher version of the verified
slots is chosen, and the winner's payload is copied to its load address.  RAM
and the flash window are byte maps, and a pointer is its address.
-/

namespace RlxFw.Slots

open Container

/-- `RLXB_RAM_BASE`. -/
def ramBase : Nat := 0x80000000
/-- `RLXB_RAM_END`. -/
def ramEnd : Nat := 0x82000000
/-- `RLXB_LDR_BASE`. -/
def ldrBase : Nat := 0x80400000
/-- `RLXB_LDR_END`. -/
def ldrEnd : Nat := 0x80420000
/-- `RLXB_SELF`, where rlxboot is linked. -/
def selfBase : Nat := 0x81800000
/-- `RLXB_CTR_FLASH`. -/
def ctrFlash : Nat := 0x003F0000
/-- `RLXB_SLOT_A_FLASH`. -/
def slotAFlash : Nat := 0x00070000
/-- `RLXB_SLOT_B_FLASH`. -/
def slotBFlash : Nat := 0x00190000
/-- `RLXB_SLOT_SIZE`. -/
def slotSize : Nat := 0x00120000
/-- `RLXB_SLOT_A_BUF`. -/
def slotABuf : Nat := 0x81000000
/-- `RLXB_SLOT_B_BUF`. -/
def slotBBuf : Nat := 0x81200000
/-- `RLXB_HANDOFF_MAGIC`, "RLXH". -/
def handoffMagic : Nat := 0x524C5848

/-- What a caller sets in `struct rlxb_slot`.  `src` is where the slot's first
byte is read from, `buf` the address of its buffer's first byte. -/
structure Slot where
  name : UInt8
  flashOff : Nat
  size : Nat
  bufAddr : Nat
  src : Nat
  buf : Nat
deriving DecidableEq, Repr

/-- What `rlxb_slot_run` leaves in `struct rlxb_slot`; `reason` is that of
`r`. -/
structure Verdict where
  copied : Nat
  r : Rlxu
deriving DecidableEq, Repr

/-- One word of `copy_words`. -/
def copyWord (window : ByteMap) (s : Slot) (w : Nat) (ram : ByteMap) :
    ByteMap :=
  ram.blit (s.buf + 4 * w) 4 fun i => window (s.src + 4 * w + i)

/-- The loop of `copy_words`, over the `count` words from `w` on. -/
def copyWordLoop (window : ByteMap) (s : Slot) : Nat → Nat → ByteMap → ByteMap
  | 0, _, ram => ram
  | count + 1, w, ram =>
      copyWordLoop window s count (w + 1) (copyWord window s w ram)

/-- `copy_words`: RAM after the copy and the byte count now in the buffer. -/
def copyWords (window : ByteMap) (s : Slot) (start stop : Nat)
    (ram : ByteMap) : ByteMap × Nat :=
  let w := start / 4
  let last := min ((stop + 3) / 4) (s.size / 4)
  (copyWordLoop window s (last - w) w ram, 4 * max w last)

/-- The bytes of a slot's buffer. -/
def bufferOf (s : Slot) (ram : ByteMap) : ByteMap := fun i => ram (s.buf + i)

/-- The environment `rlxb_slot_run` verifies under. -/
def slotEnv (s : Slot) (e : Env) : Env :=
  { e with
    bufBase := s.bufAddr
    bufLimit := s.bufAddr + s.size
    writeAt := s.flashOff
    writeForm := formWhole }

/-- How many bytes `rlxb_slot_run` wants once the first 160 are in. -/
def wanted (s : Slot) (copied : Nat) (b : ByteMap) : Nat :=
  if copied ≥ bodyOff ∧ be32 b 0 = magicWord ∧
      be32 b 12 ≤ s.size - bodyOff then
    bodyOff + be32 b 12
  else bodyOff

/-- `rlxb_slot_run`: RAM with the slot's copy in its buffer, and the verdict on
that copy. -/
def slotRun (ed25519 : SignatureCheck) (window : ByteMap) (s : Slot) (e : Env)
    (ram : ByteMap) : ByteMap × Verdict :=
  let (ram1, prefixed) := copyWords window s 0 bodyOff ram
  let want := wanted s prefixed (bufferOf s ram1)
  let (ram2, copied) := copyWords window s prefixed want ram1
  (ram2, { copied := copied,
           r := rlxuVerify ed25519 (bufferOf s ram2) copied (slotEnv s e) })

/-- Which of `rlxb_choose`'s two arguments it returns. -/
inductive Pick where
  | first
  | second
deriving DecidableEq, Repr

/-- `rlxb_choose`. -/
def choose (a b : Verdict) : Option Pick :=
  if a.r.reason = .ok ∧ b.r.reason = .ok then
    if b.r.version > a.r.version then some .second else some .first
  else if a.r.reason = .ok then some .first
  else if b.r.reason = .ok then some .second
  else none

/-- What `rlxb_select` leaves behind.  `ramA` is RAM when `a` was verified,
`ramB` when `b` was, which is also how RAM is left. -/
structure Selection where
  ramA : ByteMap
  a : Verdict
  ramB : ByteMap
  b : Verdict
  winner : Option Pick

/-- The slot a pick names. -/
def pickSlot (a b : Slot) : Pick → Slot
  | .first => a
  | .second => b

/-- The verdict on a pick. -/
def Selection.verdict (s : Selection) : Pick → Verdict
  | .first => s.a
  | .second => s.b

/-- The bytes `rlxu_verify` was given for a pick. -/
def Selection.seen (s : Selection) (a b : Slot) : Pick → ByteMap
  | .first => bufferOf a s.ramA
  | .second => bufferOf b s.ramB

/-- `rlxb_select`. -/
def select (ed25519 : SignatureCheck) (window : ByteMap) (a b : Slot)
    (e : Env) (ram : ByteMap) : Selection :=
  let (ramA, va) := slotRun ed25519 window a e ram
  let (ramB, vb) := slotRun ed25519 window b e ramA
  { ramA := ramA, a := va, ramB := ramB, b := vb, winner := choose va vb }

/-- `rlx_memcpy`, a byte at a time from the lowest. -/
def memcpy : Nat → Nat → Nat → ByteMap → ByteMap
  | 0, _, _, ram => ram
  | n + 1, d, s, ram => memcpy n (d + 1) (s + 1) (Function.update ram d (ram s))

/-- Where a boot jumps, with what in `a0` to `a3`, and RAM at the jump. -/
structure Booted where
  ram : ByteMap
  entry : Nat
  a0 : Nat
  a1 : Nat
  a2 : Nat
  a3 : Nat

/-- `RLXB_HANDOFF_CHECK`. -/
def handoffCheck (slot ver : Nat) : Nat :=
  0xFFFFFFFF - a32 (Nat.xor (Nat.xor handoffMagic slot) ver)

/-- `boot_verified` in the slots build, for a slot's own name. -/
def bootVerified (r : Rlxu) (body : Nat) (slot : UInt8) (ram : ByteMap) :
    Booted :=
  { ram := memcpy r.payloadLen r.loadAddr body ram
    entry := r.entryAddr
    a0 := handoffMagic
    a1 := slot.toNat
    a2 := r.version
    a3 := handoffCheck slot.toNat r.version }

/-- `slot_a` of `main.c`, over a window that starts at the flash's first
byte. -/
def slotA : Slot where
  name := 0x41
  flashOff := slotAFlash
  size := slotSize
  bufAddr := slotABuf
  src := slotAFlash
  buf := slotABuf

/-- `slot_b` of `main.c`. -/
def slotB : Slot where
  name := 0x42
  flashOff := slotBFlash
  size := slotSize
  bufAddr := slotBBuf
  src := slotBFlash
  buf := slotBBuf

/-- The environment `rlxprobe_main` builds in the slots build.  Only the end of
its own image, the counter and the key are not constants. -/
def mainEnv (selfEnd : Nat) (flash : ByteMap) (pk : List UInt8) : Env where
  ramBase := ramBase
  ramEnd := ramEnd
  selfBase := selfBase
  selfEnd := selfEnd
  bufBase := 0
  bufLimit := 0
  ldrBase := ldrBase
  ldrEnd := ldrEnd
  writeAt := flashNone
  writeForm := formNone
  counter :=
    (Counter.rlxuCounterFromBitmap (flash.slice ctrFlash Counter.ctrBytes)).1
  pk := pk

/-- `rlxb_boot_body`: the address of the first payload byte in the buffer. -/
def bootBody (s : Slot) : Nat := s.buf + bodyOff

/-- The end of `rlxprobe_main`: the winner booted out of its buffer, or nothing
booted at all. -/
def bootSelected (a b : Slot) (s : Selection) : Option Booted :=
  s.winner.map fun w =>
    bootVerified (s.verdict w).r (bootBody (pickSlot a b w))
      (pickSlot a b w).name s.ramB

end RlxFw.Slots
