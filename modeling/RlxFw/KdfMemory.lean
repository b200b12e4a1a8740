import RlxFw.BoundedMemory
import RlxFw.Scrypt
import RlxFw.Sha256

/-!
# The memory of the password hash

`src/lib/kdf.c` on its one buffer: PBKDF2 over HMAC contexts, the block mix between two
halves of a pair, the vector, and the sizes, of which no product or sum may wrap.
-/

namespace RlxFw.Kdf

open BoundedMemory (turns)
open Scrypt (Err xorBytes le32dec salsa20_8 sizeMax peakBytes kdfScryptPeak kdfPeakCap)
open Sha256 (HmacSha256Ctx hmacSha256Init hmacSha256Update hmacSha256Final be32enc)

/-! ## PBKDF2 -/

/-- The inner loop of `kdf_pbkdf2_sha256`, over the iterations left. -/
def pbkdf2Turns (base : HmacSha256Ctx) : Nat → List UInt8 → List UInt8 → List UInt8
  | 0, _, t => t
  | left + 1, u, t =>
      let u := hmacSha256Final (hmacSha256Update base u)
      pbkdf2Turns base left u (xorBytes t u)

/-- The outer loop of `kdf_pbkdf2_sha256`, with `done` bytes put out. -/
def pbkdf2Blocks (base : HmacSha256Ctx) (salt : List UInt8) (iters outlen : Nat) (i : UInt32)
    (done : Nat) : List UInt8 :=
  if done < outlen then
    let h := if salt.length ≠ 0 then hmacSha256Update base salt else base
    let u := hmacSha256Final (hmacSha256Update h (be32enc i))
    let t := pbkdf2Turns base (iters - 1) u u
    let need := if outlen - done > 32 then 32 else outlen - done
    t.take need ++ pbkdf2Blocks base salt iters outlen (i + 1) (done + need)
  else []
termination_by outlen - done
decreasing_by
  split <;> omega

/-- `kdf_pbkdf2_sha256`, of bytes that are there. -/
def kdfPbkdf2Sha256 (pw salt : List UInt8) (iters outlen : Nat) : Except Err (List UInt8) :=
  if outlen = 0 then .error .inval
  else if iters = 0 then .error .inval
  else
    let nblocks := if outlen % 32 ≠ 0 then outlen / 32 + 1 else outlen / 32
    if nblocks > 0xFFFFFFFF then .error .inval
    else .ok (pbkdf2Blocks (hmacSha256Init pw) salt iters outlen 1 0)

/-! ## The block mix -/

/-- The buffer and the block `x` in the loop of `blockmix`. -/
structure Mixing where
  m : BoundedMemory
  x : List UInt8

/-- Where the `i`th output goes. -/
def mixPlace (r i : Nat) : Nat := if i &&& 1 = 0 then i / 2 else r + i / 2

/-- A turn of the loop of `blockmix`. -/
def mixTurn (src dst r i : Nat) (s : Mixing) : Option Mixing := do
  let bi ← s.m.read (src + i * 64) 64
  let x := salsa20_8 (xorBytes s.x bi)
  let m ← s.m.write (dst + mixPlace r i * 64) x
  pure ⟨m, x⟩

/-- `blockmix`, from one place of the buffer to another. -/
def blockmix (m : BoundedMemory) (src dst r : Nat) : Option BoundedMemory := do
  let x ← m.read (src + (2 * r - 1) * 64) 64
  let s ← turns (mixTurn src dst r) (2 * r) ⟨m, x⟩
  pure s.m

/-! ## The vector -/

/-- The buffer and the two working blocks of `romix`. -/
structure Mixed where
  m : BoundedMemory
  p : Nat
  q : Nat

/-- A turn of the first loop of `romix`. -/
def fillTurn (v r i : Nat) (s : Mixed) : Option Mixed := do
  let x ← s.m.read s.p (128 * r)
  let m ← s.m.write (v + i * (128 * r)) x
  let m ← blockmix m s.p s.q r
  pure ⟨m, s.q, s.p⟩

/-- `integerify_mod`. -/
def integerifyMod (m : BoundedMemory) (x r n : Nat) : Option Nat := do
  let last ← m.read (x + (2 * r - 1) * 64) 4
  pure (le32dec last &&& (UInt32.ofNat n - 1)).toNat

/-- A turn of the second loop of `romix`: the index is read before the block changes. -/
def stirTurn (v n r : Nat) (s : Mixed) : Option Mixed := do
  let j ← integerifyMod s.m s.p r n
  let vj ← s.m.read (v + j * (128 * r)) (128 * r)
  let x ← s.m.read s.p (128 * r)
  let m ← s.m.write s.p (xorBytes x vj)
  let m ← blockmix m s.p s.q r
  pure ⟨m, s.q, s.p⟩

/-- `romix`. -/
def romix (m : BoundedMemory) (b n r v xy : Nat) : Option BoundedMemory := do
  let x ← m.read b (128 * r)
  let m ← m.write xy x
  let s ← turns (fillTurn v r) n ⟨m, xy, xy + 128 * r⟩
  let s ← turns (fun _ => stirTurn v n r) n s
  let x ← s.m.read s.p (128 * r)
  s.m.write b x

/-! ## The sizes -/

/-- An operation on sizes that went round. -/
inductive Wrapped where
  | wrapped
deriving DecidableEq, Repr

/-- A product of sizes. -/
def sizeMul (a b : Nat) : Except Wrapped Nat :=
  if a * b ≤ sizeMax then .ok (a * b) else .error .wrapped

/-- A sum of sizes. -/
def sizeAdd (a b : Nat) : Except Wrapped Nat :=
  if a + b ≤ sizeMax then .ok (a + b) else .error .wrapped

/-- A difference of sizes. -/
def sizeSub (a b : Nat) : Except Wrapped Nat :=
  if b ≤ a then .ok (a - b) else .error .wrapped

/-- `peak_bytes`, in sizes that may wrap. -/
def peakBytesSized (n r p : Nat) : Except Wrapped (Option Nat) :=
  if n < 2 ∨ r = 0 ∨ p = 0 then .ok none
  else if n &&& (n - 1) ≠ 0 then .ok none
  else if r < 2 ∧ n ≥ 2 ^ (16 * r) then .ok none
  else if r > sizeMax / 128 then .ok none
  else do
    let blk ← sizeMul 128 r
    if n > sizeMax / blk then return none
    let v ← sizeMul n blk
    if blk > sizeMax / 2 then return none
    let xy ← sizeMul 2 blk
    if p > sizeMax / blk then return none
    let b ← sizeMul p blk
    let room ← sizeSub sizeMax xy
    if v > room then return none
    let total ← sizeAdd v xy
    let room ← sizeSub sizeMax b
    if total > room then return none
    let total ← sizeAdd total b
    return some total

/-! ## The hash -/

/-- A run: what `malloc` was asked for, and what was returned, unless an access was not
inside the buffer. -/
structure ScryptRun where
  asked : Option Nat
  result : Option (Except Err (List UInt8))

/-- The ends of `kdf_scrypt_raw`: the three areas are wiped. -/
def wipeWork (m : BoundedMemory) (n r p : Nat) : Option BoundedMemory := do
  let blk := 128 * r
  let m ← m.write (n * blk) (List.replicate (2 * blk) 0)
  let m ← m.write (n * blk + 2 * blk) (List.replicate (p * blk) 0)
  m.write 0 (List.replicate (n * blk) 0)

/-- `kdf_scrypt_raw` once it has its buffer. -/
def scryptWork (m : BoundedMemory) (pw salt : List UInt8) (n r p outlen : Nat) :
    Option (Except Err (List UInt8)) :=
  let blk := 128 * r
  let blen := p * blk
  let v := 0
  let xy := n * blk
  let b := xy + 2 * blk
  match kdfPbkdf2Sha256 pw salt 1 blen with
  | .error e => do
      let _ ← wipeWork m n r p
      pure (.error e)
  | .ok bytes => do
      let m ← m.write b bytes
      let m ← turns (fun i m => romix m (b + i * blk) n r v xy) p m
      let bytes ← m.read b blen
      let rc := kdfPbkdf2Sha256 pw bytes 1 outlen
      let _ ← wipeWork m n r p
      pure rc

/-- `kdf_scrypt_raw`; a buffer holds anything when it is handed out. -/
def kdfScryptRaw (malloc : Nat → Option ByteMap) (pw salt : List UInt8)
    (n r p outlen : Nat) : ScryptRun :=
  if outlen = 0 then ⟨none, some (.error .inval)⟩
  else if r = 0 ∨ p = 0 then ⟨none, some (.error .inval)⟩
  else if n < 2 ∨ n &&& (n - 1) ≠ 0 then ⟨none, some (.error .inval)⟩
  else if r * p ≥ 2 ^ 30 then ⟨none, some (.error .inval)⟩
  else
    match peakBytes n r p with
    | none => ⟨none, some (.error .inval)⟩
    | some need =>
        match malloc need with
        | none => ⟨some need, some (.error .nomem)⟩
        | some junk => ⟨some need, scryptWork ⟨need, junk⟩ pw salt n r p outlen⟩

/-- `kdf_scrypt`. -/
def kdfScrypt (malloc : Nat → Option ByteMap) (pw salt : List UInt8) (log2n : UInt8)
    (r p : UInt16) : ScryptRun :=
  match kdfScryptPeak log2n.toNat r.toNat p.toNat with
  | none => ⟨none, some (.error .inval)⟩
  | some peak =>
      if peak > kdfPeakCap then ⟨none, some (.error .inval)⟩
      else kdfScryptRaw malloc pw salt (2 ^ log2n.toNat) r.toNat p.toNat 32

end RlxFw.Kdf
