import RlxFw.Sha256b

/-!
# The signed container and its verifier

`src/rlxboot/container.h` and `container.c`: the `RLXU` format 2 header, the
environment a caller supplies, the result record, and `rlxu_verify` with its
steps in the source's order.  A container is a byte map with a count of the
readable bytes.  Ed25519 is the vendored `rlx_ed25519_verify`, taken as a
parameter; SHA-256 is `Sha256b`.
-/

namespace RlxFw.Container

/-- `RLXU_MAGIC`, "RLXU". -/
def magicWord : Nat := 0x524C5855
/-- `RLXU_FORMAT`. -/
def formatTwo : Nat := 2
/-- `RLXU_HDR_LEN`. -/
def hdrLen : Nat := 96
/-- `RLXU_SIG_LEN`. -/
def sigLen : Nat := 64
/-- `RLXU_BODY_OFF`. -/
def bodyOff : Nat := hdrLen + sigLen
/-- `RLXU_PAYLOAD_MAX`, 3 MiB. -/
def payloadMax : Nat := 0x00300000
/-- `RLXU_VER_MIN`. -/
def verMin : Nat := 1
/-- `RLXU_VER_MAX`. -/
def verMax : Nat := 0xFFFFFFFE
/-- `RLXU_FLASH_OFF`. -/
def flashOff : Nat := 64
/-- `RLXU_FORM_OFF`. -/
def formOff : Nat := 68
/-- `RLXU_RESV_OFF`. -/
def resvOff : Nat := 72
/-- `RLXU_RESV_LEN`. -/
def resvLen : Nat := 24
/-- `RLXU_FLASH_NONE`. -/
def flashNone : Nat := 0xFFFFFFFF
/-- `RLXU_FORM_NONE`. -/
def formNone : Nat := 0
/-- `RLXU_FORM_WHOLE`, "WHOL". -/
def formWhole : Nat := 0x57484F4C
/-- `RLXU_FORM_PAYLOAD`, "PAYL". -/
def formPayload : Nat := 0x5041594C
/-- `RLXU_CHIP_SIZE`. -/
def chipSize : Nat := 0x00400000
/-- `RLXU_FLASH_KEEPOUT_END`. -/
def flashKeepoutEnd : Nat := 0x00008000

/-- `A32`: an address is 32 bits. -/
def a32 (x : Nat) : Nat := x % 2 ^ 32

/-- `rlxu_be32`, at offset `p`. -/
def be32 (c : ByteMap) (p : Nat) : Nat :=
  (c p).toNat * 2 ^ 24 + (c (p + 1)).toNat * 2 ^ 16 +
    (c (p + 2)).toNat * 2 ^ 8 + (c (p + 3)).toNat

/-- `rlxu_be16`, at offset `p`. -/
def be16 (c : ByteMap) (p : Nat) : Nat :=
  (c p).toNat * 2 ^ 8 + (c (p + 1)).toNat

/-- `overlaps`: `[a0, a1)` against `[b0, b1)`, an empty range meeting nothing. -/
def overlaps (a0 a1 b0 b1 : Nat) : Bool :=
  if a0 ≥ a1 ∨ b0 ≥ b1 then false else decide (a0 < b1) && decide (b0 < a1)

/-- `ct_eq32`: every pair of bytes is folded in before anything is decided. -/
def ctEq32 (a b : List UInt8) : Bool :=
  (List.zipWith (· ^^^ ·) a b).foldl (· ||| ·) 0 == 0

/-- `RLXU_OK` and the refusals. -/
inductive Reason where
  | ok
  | short
  | magic
  | format
  | hdrLen
  | version
  | payloadLen
  | flags
  | reserved
  | loadAddr
  | entryAddr
  | dstSelf
  | dstBuf
  | dstLoader
  | truncated
  | sig
  | digest
  | rollback
  | flashDst
  | flashMatch
  | flashForm
deriving DecidableEq, Repr

/-- The stages, in the order they run. -/
inductive Stage where
  | hdr
  | bound
  | sig
  | digest
  | ver
deriving DecidableEq, Repr

/-- `struct rlxu_env`. -/
structure Env where
  ramBase : Nat
  ramEnd : Nat
  selfBase : Nat
  selfEnd : Nat
  bufBase : Nat
  bufLimit : Nat
  ldrBase : Nat
  ldrEnd : Nat
  counter : Nat
  writeAt : Nat
  writeForm : Nat
  pk : List UInt8
deriving DecidableEq, Repr

/-- `struct rlxu`.  `digest` is the pointer into the container, as an offset;
`trace` holds the `trace_n` entries in use. -/
structure Rlxu where
  magic : Nat
  version : Nat
  payloadLen : Nat
  loadAddr : Nat
  entryAddr : Nat
  flags : Nat
  recipeId : Nat
  flashAt : Nat
  flashForm : Nat
  flashLen : Nat
  format : Nat
  headerLen : Nat
  digest : Option Nat
  reason : Reason
  stage : Option Stage
  trace : List Stage
  hashed : Nat
  copied : Nat
deriving DecidableEq, Repr

/-- `*r` as `rlxu_verify` initialises it. -/
def Rlxu.initial : Rlxu where
  magic := 0
  version := 0
  payloadLen := 0
  loadAddr := 0
  entryAddr := 0
  flags := 0
  recipeId := 0
  flashAt := 0
  flashForm := 0
  flashLen := 0
  format := 0
  headerLen := 0
  digest := none
  reason := .ok
  stage := none
  trace := []
  hashed := 0
  copied := 0

/-- `trace`: record a stage while the eight entries last. -/
def Rlxu.traced (r : Rlxu) (tag : Stage) : Rlxu :=
  if r.trace.length < 8 then { r with trace := r.trace ++ [tag] } else r

/-- `refuse`. -/
def Rlxu.refuse (r : Rlxu) (stage : Stage) (reason : Reason) : Rlxu :=
  { r with stage := some stage, reason := reason }

/-- Refuse with the fault of a stage when it has one, else go on. -/
def Rlxu.guard (r : Rlxu) (stage : Stage) (fault : Option Reason)
    (next : Rlxu) : Rlxu :=
  match fault with
  | some reason => r.refuse stage reason
  | none => next

/-- The fields step 1 reads. -/
def Rlxu.readMagic (r : Rlxu) (c : ByteMap) : Rlxu :=
  { r with
    magic := be32 c 0
    format := be16 c 4
    headerLen := be16 c 6 }

/-- The fields step 2 reads. -/
def Rlxu.readFields (r : Rlxu) (c : ByteMap) : Rlxu :=
  { r with
    version := be32 c 8
    payloadLen := be32 c 12
    loadAddr := be32 c 16
    entryAddr := be32 c 20
    flags := be32 c 24
    digest := some 28
    recipeId := be32 c 60
    flashAt := be32 c flashOff
    flashForm := be32 c formOff }

/-- Step 1's refusal, if it makes one. -/
def headerFault (r : Rlxu) : Option Reason :=
  if r.magic ≠ magicWord then some .magic
  else if r.format ≠ formatTwo then some .format
  else if r.headerLen ≠ hdrLen then some .hdrLen
  else none

/-- `body` of `rlxu_verify`: the length of the whole container. -/
def Rlxu.body (r : Rlxu) : Nat := bodyOff + r.payloadLen

/-- `buf1` of `rlxu_verify`: where the staged container ends. -/
def Rlxu.buf1 (r : Rlxu) (e : Env) : Nat := a32 (e.bufBase + r.body)

/-- `dst1` of `rlxu_verify`: where the loaded payload ends. -/
def Rlxu.dst1 (r : Rlxu) : Nat := a32 (r.loadAddr + r.payloadLen)

/-- Step 2 up to the flash form: the bounds of the plain fields, and the
container wholly present in its buffer. -/
def fieldFault (c : ByteMap) (avail : Nat) (e : Env) (r : Rlxu) :
    Option Reason :=
  if r.version < verMin ∨ r.version > verMax then some .version
  else if r.payloadLen = 0 ∨ r.payloadLen > payloadMax then some .payloadLen
  else if r.flags ≠ 0 then some .flags
  else if (List.range resvLen).any fun i => c (resvOff + i) ≠ 0 then
    some .reserved
  else if avail < r.body then some .truncated
  else if r.buf1 e < e.bufBase ∨ r.buf1 e > e.bufLimit then some .truncated
  else none

/-- The destination and the form must agree about whether there is one. -/
def formFault (r : Rlxu) : Option Reason :=
  if r.flashAt = flashNone then
    if r.flashForm ≠ formNone then some .flashForm else none
  else if r.flashForm = formWhole then none
  else if r.flashForm = formPayload then none
  else some .flashForm

/-- The record with `flash_len`, how many bytes land. -/
def Rlxu.landed (r : Rlxu) : Rlxu :=
  { r with
    flashLen :=
      if r.flashAt = flashNone then 0
      else if r.flashForm = formWhole then r.body
      else r.payloadLen }

/-- Step 2 from the landing range on: the declared flash destination, the
caller's own, the destination in RAM, the entry, and the three overlaps. -/
def placeFault (e : Env) (r : Rlxu) : Option Reason :=
  if r.flashAt ≠ flashNone ∧
      (r.flashAt ≥ chipSize ∨ a32 (r.flashAt + r.flashLen) > chipSize ∨
        r.flashAt < flashKeepoutEnd) then
    some .flashDst
  else if e.writeAt ≠ flashNone ∧
      (r.flashAt ≠ e.writeAt ∨ r.flashForm ≠ e.writeForm) then
    some .flashMatch
  else if r.dst1 < r.loadAddr then some .loadAddr
  else if r.loadAddr < e.ramBase ∨ r.dst1 > e.ramEnd then some .loadAddr
  else if r.loadAddr % 4 ≠ 0 then some .loadAddr
  else if r.entryAddr < r.loadAddr ∨ r.entryAddr ≥ r.dst1 then
    some .entryAddr
  else if r.entryAddr % 4 ≠ 0 then some .entryAddr
  else if overlaps r.loadAddr r.dst1 e.selfBase e.selfEnd then some .dstSelf
  else if overlaps r.loadAddr r.dst1 e.bufBase (r.buf1 e) then some .dstBuf
  else if overlaps r.loadAddr r.dst1 e.ldrBase e.ldrEnd then some .dstLoader
  else none

/-- A signature check over signature, message and public key. -/
abbrev SignatureCheck := List UInt8 → List UInt8 → List UInt8 → Bool

/-- Steps 3 to 5, on a header whose bounds all hold. -/
def verifyTrusted (ed25519 : SignatureCheck) (c : ByteMap) (e : Env)
    (r : Rlxu) : Rlxu :=
  let r := r.traced .sig
  if ¬ ed25519 (c.slice hdrLen sigLen) (c.slice 0 hdrLen) e.pk then
    r.refuse .sig .sig
  else
    let r := { r.traced .digest with hashed := r.payloadLen }
    if ¬ ctEq32 (Sha256b.sha256b (c.slice bodyOff r.payloadLen))
        (c.slice 28 32) then
      r.refuse .digest .digest
    else
      let r := r.traced .ver
      if r.version < e.counter then r.refuse .ver .rollback
      else { r with stage := some .ver, reason := .ok }

/-- The record once step 1 has read the magic, the format and the length. -/
def headed (c : ByteMap) : Rlxu :=
  (Rlxu.initial.traced .hdr).readMagic c

/-- The record once step 2 has read the remaining fields. -/
def parsed (c : ByteMap) : Rlxu :=
  ((headed c).traced .bound).readFields c

/-- `rlxu_verify`. -/
def rlxuVerify (ed25519 : SignatureCheck) (c : ByteMap) (avail : Nat)
    (e : Env) : Rlxu :=
  if avail < bodyOff then Rlxu.initial.refuse .hdr .short
  else
    (headed c).guard .hdr (headerFault (headed c)) <|
    (parsed c).guard .bound (fieldFault c avail e (parsed c)) <|
    (parsed c).guard .bound (formFault (parsed c)) <|
    (parsed c).landed.guard .bound (placeFault e (parsed c).landed) <|
    verifyTrusted ed25519 c e (parsed c).landed

end RlxFw.Container
