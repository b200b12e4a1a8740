import RlxFw.Ascii
import RlxFw.Sha256Padded
import RlxFw.Tlv

/-!
# The host's container builder

`tools/mkfw2.py` and the part of `tools/flashguard.py` and `tools/flashwin.py`
it asks: the header, the checks in their order, and `build`.  Ed25519 is
`tools/rlxsign.py`, taken as parameters.  The texts a check prints are left out.
-/

namespace RlxFw.Mkfw2

open Tlv (getBe16 getBe32 putBe16 putBe32)

/-- `MAGIC`. -/
def magic : Nat := 0x524C5855
/-- `FORMAT`. -/
def format : Nat := 2
/-- `HEADER_LEN`. -/
def headerLen : Nat := 96
/-- `SIG_LEN`. -/
def sigLen : Nat := 64
/-- `BODY`. -/
def body : Nat := headerLen + sigLen
/-- `MAX_PAYLOAD`. -/
def maxPayload : Nat := 0x00300000
/-- `VERSION_MIN`. -/
def versionMin : Nat := 1
/-- `VERSION_MAX`. -/
def versionMax : Nat := 0xFFFFFFFE
/-- `FLASH_NONE`. -/
def flashNone : Nat := 0xFFFFFFFF
/-- `RESV_OFF`. -/
def resvOff : Nat := 72
/-- `RESV_LEN`. -/
def resvLen : Nat := 24
/-- `FORM_NONE`. -/
def formNone : Nat := 0
/-- `FORM_WHOLE`. -/
def formWhole : Nat := 0x57484F4C
/-- `FORM_PAYLOAD`. -/
def formPayload : Nat := 0x5041594C
/-- `RAM_LO`. -/
def ramLo : Nat := 0x80000000
/-- `RAM_HI`. -/
def ramHi : Nat := 0x82000000
/-- `RLXBOOT_LO`. -/
def rlxbootLo : Nat := 0x81800000
/-- `RLXBOOT_HI`. -/
def rlxbootHi : Nat := 0x81900000
/-- `STAGE_LO`. -/
def stageLo : Nat := 0x81000000
/-- `CHECK_IMAGE_SIGS`. -/
def checkImageSigs : List (List UInt8) := [ascii "cs6c", ascii "cr6c"]
/-- `BURN_SIGS`. -/
def burnSigs : List (List UInt8) :=
  [ascii "boot", ascii "sqsh", ascii "w6cp", ascii "jw6c", ascii "cwmp", ascii "ksap",
    ascii "ALL1", ascii "ALL2"]
/-- `flashguard.CHIP_SIZE`. -/
def chipSize : Nat := 0x00400000
/-- The range of `flashwin.FORBIDDEN`. -/
def h601 : Nat × Nat := (0x006000, 0x008000)
/-- The range of `flashguard.OWN_FORBIDDEN` that no licence opens. -/
def loader : Nat × Nat := (0x000000, 0x006000)

/-! ## The header -/

/-- `struct.pack`'s `I`, which raises on a number outside its range. -/
def packWord (v : Int) : Option (List UInt8) :=
  if 0 ≤ v ∧ v < 2 ^ 32 then some (putBe32 v.toNat) else none

/-- `pack_header`. -/
def packHeader (version : Int) (payloadLen : Nat) (loadAddr entryAddr flags : Int)
    (digest recipeId : List UInt8) (flashAt flashForm : Int) : Option (List UInt8) :=
  if digest.length ≠ 32 then none
  else if recipeId.length ≠ 4 then none
  else do
    let version ← packWord version
    let payloadLen ← packWord payloadLen
    let loadAddr ← packWord loadAddr
    let entryAddr ← packWord entryAddr
    let flags ← packWord flags
    let flashAt ← packWord flashAt
    let flashForm ← packWord flashForm
    let h := putBe32 magic ++ putBe16 format ++ putBe16 headerLen ++ version ++ payloadLen ++
      loadAddr ++ entryAddr ++ flags ++ digest ++ recipeId ++ flashAt ++ flashForm ++
      List.replicate resvLen 0
    if h.length ≠ headerLen then none else some h

/-- What `unpack_header` returns. -/
structure Header where
  magic : Nat
  format : Nat
  headerLen : Nat
  version : Nat
  payloadLen : Nat
  loadAddr : Nat
  entryAddr : Nat
  flags : Nat
  digest : List UInt8
  recipeId : List UInt8
  flashAt : Nat
  flashForm : Nat
  reserved : List UInt8
deriving DecidableEq, Repr

/-- `unpack_header`, of 96 bytes. -/
def unpackHeader (h : List UInt8) : Header where
  magic := getBe32 (ByteMap.ofList h 0) 0
  format := getBe16 (ByteMap.ofList h 0) 4
  headerLen := getBe16 (ByteMap.ofList h 0) 6
  version := getBe32 (ByteMap.ofList h 0) 8
  payloadLen := getBe32 (ByteMap.ofList h 0) 12
  loadAddr := getBe32 (ByteMap.ofList h 0) 16
  entryAddr := getBe32 (ByteMap.ofList h 0) 20
  flags := getBe32 (ByteMap.ofList h 0) 24
  digest := (h.drop 28).take 32
  recipeId := (h.drop 60).take 4
  flashAt := getBe32 (ByteMap.ofList h 0) 64
  flashForm := getBe32 (ByteMap.ofList h 0) 68
  reserved := (h.drop resvOff).take (headerLen - resvOff)

/-! ## The checks -/

/-- `landing_len`. -/
def landingLen (flashAt form payloadLen : Nat) : Option Nat :=
  if flashAt = flashNone then if form = formNone then some 0 else none
  else if form = formWhole then some (body + payloadLen)
  else if form = formPayload then some payloadLen
  else none

/-- A half-open range meets `[at_, stop)`. -/
def meets (at_ stop : Nat) (range : Nat × Nat) : Bool :=
  decide (at_ < range.2) && decide (stop > range.1)

/-- `flashguard.check_unrecoverable` finds nothing. -/
def unrecoverableClear (at_ nbytes : Nat) : Bool :=
  !decide (at_ + nbytes > chipSize) && !meets at_ (at_ + nbytes) h601 &&
    !meets at_ (at_ + nbytes) loader

/-- A row of what `checks` returns. -/
structure Row where
  step : Nat
  name : String
  ok : Bool
deriving DecidableEq, Repr

/-- Rows up to the first that fails. -/
def untilRefused : List Row → List Row
  | [] => []
  | row :: rest => if row.ok then row :: untilRefused rest else [row]

/-- `rlxsign.verify`, over key, message and signature. -/
abbrev HostVerify := List UInt8 → List UInt8 → List UInt8 → Bool

/-- The rows of steps 1 and 2, of a container of at least 160 bytes. -/
def fieldRows (blob : List UInt8) (write : Option (Nat × Option Nat)) : List Row :=
  let f := unpackHeader (blob.take headerLen)
  let stop := f.loadAddr + f.payloadLen
  let nland := landingLen f.flashAt f.flashForm f.payloadLen
  [⟨1, "magic", f.magic = magic⟩,
    ⟨1, "format", f.format = format⟩,
    ⟨1, "header_len", f.headerLen = headerLen⟩,
    ⟨2, "reserved", f.reserved = List.replicate resvLen 0⟩,
    -- no flag is known
    ⟨2, "flags", f.flags = 0⟩,
    ⟨2, "version", versionMin ≤ f.version ∧ f.version ≤ versionMax⟩,
    ⟨2, "payload_len", 0 < f.payloadLen ∧ f.payloadLen ≤ maxPayload⟩,
    ⟨2, "container_len", blob.length = body + f.payloadLen⟩,
    ⟨2, "flash_form", nland.isSome⟩,
    ⟨2, "flash_dst",
      f.flashAt = flashNone ∨ unrecoverableClear f.flashAt (nland.getD 0) = true⟩,
    ⟨2, "flash_match",
      write.all fun w => f.flashAt = w.1 ∧ f.flashForm = w.2.getD formNone⟩,
    ⟨2, "load_addr_in_ram", ramLo ≤ f.loadAddr ∧ stop ≤ ramHi⟩,
    ⟨2, "no_overlap_rlxboot", !meets f.loadAddr stop (rlxbootLo, rlxbootHi)⟩,
    ⟨2, "no_overlap_container", !meets f.loadAddr stop (stageLo, stageLo + blob.length)⟩,
    ⟨2, "entry_in_payload", f.loadAddr ≤ f.entryAddr ∧ f.entryAddr < stop⟩]

/-- The rows of steps 3 to 5. -/
def trustRows (verify : HostVerify) (blob pubkey : List UInt8) (counter : Nat) :
    List Row :=
  let h := blob.take headerLen
  let f := unpackHeader h
  [⟨3, "signature", verify pubkey h ((blob.drop headerLen).take sigLen)⟩,
    ⟨4, "payload_digest",
      Sha256b.sha256 ((blob.drop body).take f.payloadLen) = f.digest⟩,
    ⟨5, "version_vs_counter", counter ≤ f.version⟩]

/-- `checks`.  `write` is `write_at` with `write_form`. -/
def checks (verify : HostVerify) (blob pubkey : List UInt8) (counter : Nat)
    (write : Option (Nat × Option Nat)) : List Row :=
  if blob.length < body then [⟨1, "length", false⟩]
  else untilRefused (fieldRows blob write ++ trustRows verify blob pubkey counter)

/-! ## Build -/

/-- `stock_loader_verdict`: whether the loader recognises the first word. -/
def stockLoaderVerdict (blob : List UInt8) : Bool :=
  checkImageSigs.contains (blob.take 4) || burnSigs.contains (blob.take 4)

/-- `rlxsign`, of the keys it makes from seeds. -/
structure Rlxsign where
  secretToPublic : List UInt8 → List UInt8
  sign : List UInt8 → List UInt8 → List UInt8
  verify : HostVerify

/-- The arguments of `build` up to the recipe. -/
structure Source where
  payload : List UInt8
  version : Int
  loadAddr : Int
  entryAddr : Int
  recipeId : List UInt8
deriving DecidableEq

/-- `build`: the container, or nothing where it raises. -/
def build (sig : Rlxsign) (x : Source) (seed : List UInt8) (flashAt flashForm flags : Int) :
    Option (List UInt8) := do
  let header ← packHeader x.version x.payload.length x.loadAddr x.entryAddr flags
    (Sha256b.sha256 x.payload) x.recipeId flashAt flashForm
  let blob := header ++ sig.sign seed header ++ x.payload
  if (checks sig.verify blob (sig.secretToPublic seed) 0 none).any fun row => !row.ok then none
  else if stockLoaderVerdict blob then none
  else some blob

end RlxFw.Mkfw2
