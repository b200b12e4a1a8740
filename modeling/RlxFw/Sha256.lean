import RlxFw.Ascii
import RlxFw.Sha256b

/-!
# The library's SHA-256

`src/lib/sha256.c`: one block, the 64-bit counter, the incremental interface, the
final that pads through it, the one-shot call, and HMAC over two contexts.
-/

namespace RlxFw.Sha256

open Sha256b (Words)

/-- `K256`. -/
def k256 : List UInt32 :=
  [
    0x428a2f98, 0x71374491, 0xb5c0fbcf, 0xe9b5dba5,
    0x3956c25b, 0x59f111f1, 0x923f82a4, 0xab1c5ed5,
    0xd807aa98, 0x12835b01, 0x243185be, 0x550c7dc3,
    0x72be5d74, 0x80deb1fe, 0x9bdc06a7, 0xc19bf174,
    0xe49b69c1, 0xefbe4786, 0x0fc19dc6, 0x240ca1cc,
    0x2de92c6f, 0x4a7484aa, 0x5cb0a9dc, 0x76f988da,
    0x983e5152, 0xa831c66d, 0xb00327c8, 0xbf597fc7,
    0xc6e00bf3, 0xd5a79147, 0x06ca6351, 0x14292967,
    0x27b70a85, 0x2e1b2138, 0x4d2c6dfc, 0x53380d13,
    0x650a7354, 0x766a0abb, 0x81c2c92e, 0x92722c85,
    0xa2bfe8a1, 0xa81a664b, 0xc24b8b70, 0xc76c51a3,
    0xd192e819, 0xd6990624, 0xf40e3585, 0x106aa070,
    0x19a4c116, 0x1e376c08, 0x2748774c, 0x34b0bcb5,
    0x391c0cb3, 0x4ed8aa4a, 0x5b9cca4f, 0x682e6ff3,
    0x748f82ee, 0x78a5636f, 0x84c87814, 0x8cc70208,
    0x90befffa, 0xa4506ceb, 0xbef9a3f7, 0xc67178f2]

/-- `ROTR32`. -/
def rotr32 (x n : UInt32) : UInt32 := (x >>> n) ||| (x <<< (32 - n))

/-- `SHR32`. -/
def shr32 (x n : UInt32) : UInt32 := x >>> n

/-- `CH`. -/
def ch (x y z : UInt32) : UInt32 := (x &&& y) ^^^ (~~~x &&& z)

/-- `MAJ`. -/
def maj (x y z : UInt32) : UInt32 := (x &&& y) ^^^ (x &&& z) ^^^ (y &&& z)

/-- `BSIG0`. -/
def bsig0 (x : UInt32) : UInt32 := rotr32 x 2 ^^^ rotr32 x 13 ^^^ rotr32 x 22

/-- `BSIG1`. -/
def bsig1 (x : UInt32) : UInt32 := rotr32 x 6 ^^^ rotr32 x 11 ^^^ rotr32 x 25

/-- `SSIG0`. -/
def ssig0 (x : UInt32) : UInt32 := rotr32 x 7 ^^^ rotr32 x 18 ^^^ shr32 x 3

/-- `SSIG1`. -/
def ssig1 (x : UInt32) : UInt32 := rotr32 x 17 ^^^ rotr32 x 19 ^^^ shr32 x 10

/-- `be32dec`, of the four bytes at an offset. -/
def be32dec (p : List UInt8) (off : Nat) : UInt32 :=
  ((byteAt p off).toUInt32 <<< 24) ||| ((byteAt p (off + 1)).toUInt32 <<< 16) |||
    ((byteAt p (off + 2)).toUInt32 <<< 8) ||| (byteAt p (off + 3)).toUInt32

/-- `be32enc`. -/
def be32enc (v : UInt32) : List UInt8 :=
  [((v >>> 24) &&& 0xff).toUInt8, ((v >>> 16) &&& 0xff).toUInt8,
    ((v >>> 8) &&& 0xff).toUInt8, (v &&& 0xff).toUInt8]

/-- `be64enc`. -/
def be64enc (v : UInt64) : List UInt8 :=
  be32enc ((v >>> 32) &&& 0xffffffff).toUInt32 ++ be32enc (v &&& 0xffffffff).toUInt32

/-- `w[t]` for `t` past the sixteen words of the block. -/
def nextWord (w : List UInt32) (t : Nat) : UInt32 :=
  ssig1 (w.getD (t - 2) 0) + w.getD (t - 7) 0 + ssig0 (w.getD (t - 15) 0) +
    w.getD (t - 16) 0

/-- The second loop over `w`, for `count` words. -/
def expand : Nat → List UInt32 → List UInt32
  | 0, w => w
  | count + 1, w => expand count (w ++ [nextWord w w.length])

/-- One of the sixty-four rounds. -/
def round (s : Words) (kw : UInt32 × UInt32) : Words :=
  let t1 := s.h + bsig1 s.e + ch s.e s.f s.g + kw.1 + kw.2
  let t2 := bsig0 s.a + maj s.a s.b s.c
  { a := t1 + t2, b := s.a, c := s.b, d := s.c
    e := s.d + t1, f := s.e, g := s.f, h := s.g }

/-- `sha256_block`. -/
def sha256Block (h : Words) (blk : List UInt8) : Words :=
  let w := expand 48 ((List.range 16).map fun t => be32dec blk (4 * t))
  let s := (k256.zip w).foldl round h
  { a := h.a + s.a, b := h.b + s.b, c := h.c + s.c, d := h.d + s.d
    e := h.e + s.e, f := h.f + s.f, g := h.g + s.g, h := h.h + s.h }

/-- `struct sha256_ctx`; `buflen` is the length of `buf`. -/
structure Sha256Ctx where
  h : Words
  nbits : UInt64
  buf : List UInt8
deriving DecidableEq, Repr

/-- `sha256_init`. -/
def sha256Init : Sha256Ctx where
  h :=
    { a := 0x6a09e667, b := 0xbb67ae85, c := 0x3c6ef372, d := 0xa54ff53a
      e := 0x510e527f, f := 0x9b05688c, g := 0x1f83d9ab, h := 0x5be0cd19 }
  nbits := 0
  buf := []

/-- The loop of `sha256_update` over whole blocks, and what it leaves in the buffer. -/
def wholeBlocks (c : Sha256Ctx) (p : List UInt8) : Sha256Ctx :=
  if p.length ≥ 64 then
    wholeBlocks { c with h := sha256Block c.h (p.take 64) } (p.drop 64)
  else if p.length ≠ 0 then { c with buf := p }
  else c
termination_by p.length
decreasing_by
  rw [List.length_drop]
  omega

/-- `sha256_update`. -/
def sha256Update (c : Sha256Ctx) (p : List UInt8) : Sha256Ctx :=
  if p.length = 0 then c
  else
    let c := { c with nbits := c.nbits + UInt64.ofNat p.length * 8 }
    if c.buf.length ≠ 0 then
      let room := 64 - c.buf.length
      let take := if room > p.length then p.length else room
      let buf := c.buf ++ p.take take
      let c :=
        if buf.length = 64 then { c with h := sha256Block c.h buf, buf := [] }
        else { c with buf := buf }
      wholeBlocks c (p.drop take)
    else wholeBlocks c p

/-- What `sha256_final` feeds first: the one bit, and zeros up to the length. -/
def onePad (c : Sha256Ctx) : List UInt8 :=
  let padlen := if c.buf.length < 56 then 56 - c.buf.length else 120 - c.buf.length
  (0x80 :: List.replicate 63 0).take padlen

/-- `sha256_final`; the context is wiped. -/
def sha256Final (c : Sha256Ctx) : List UInt8 :=
  let nbits := c.nbits
  let c := sha256Update c (onePad c)
  let c := sha256Update c (be64enc nbits)
  [c.h.a, c.h.b, c.h.c, c.h.d, c.h.e, c.h.f, c.h.g, c.h.h].flatMap be32enc

/-- `sha256`. -/
def sha256 (p : List UInt8) : List UInt8 := sha256Final (sha256Update sha256Init p)

/-! ## HMAC -/

/-- `struct hmac_sha256_ctx`. -/
structure HmacSha256Ctx where
  inner : Sha256Ctx
  outer : Sha256Ctx
deriving DecidableEq, Repr

/-- `hmac_sha256_init`. -/
def hmacSha256Init (key : List UInt8) : HmacSha256Ctx :=
  let k := if key.length > 64 then sha256 key else key
  let k := k ++ List.replicate (64 - k.length) 0
  { inner := sha256Update sha256Init (k.map (· ^^^ 0x36))
    outer := sha256Update sha256Init (k.map (· ^^^ 0x5C)) }

/-- `hmac_sha256_update`. -/
def hmacSha256Update (c : HmacSha256Ctx) (p : List UInt8) : HmacSha256Ctx :=
  { c with inner := sha256Update c.inner p }

/-- `hmac_sha256_final`. -/
def hmacSha256Final (c : HmacSha256Ctx) : List UInt8 :=
  sha256Final (sha256Update c.outer (sha256Final c.inner))

end RlxFw.Sha256
