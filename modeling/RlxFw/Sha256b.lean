import RlxFw.ByteMap

/-!
# The boot path's SHA-256

`src/rlxboot/sha256b.c`: the round constants, one block, the split bit counter,
the incremental interface and the one-shot call.  A word is a `UInt32`, which
is what `M32` makes of every intermediate of the source.
-/

namespace RlxFw.Sha256b

/-- `K[64]`. -/
def roundConstants : List UInt32 :=
  [
    0x428a2f98, 0x71374491, 0xb5c0fbcf, 0xe9b5dba5,
    0x3956c25b, 0x59f111f1, 0x923f82a4, 0xab1c5ed5,
    0xd807aa98, 0x12835b01, 0x243185be, 0x550c7dc3,
    0x72be5d74, 0x80deb1fe, 0x9bdc06a7, 0xc19bf174,
    0xe49b69c1, 0xefbe4786, 0x0fc19dc6, 0x240ca1cc,
    0x2de92c6f, 0x4a7484aa, 0x5cb0a9dc, 0x76f988da,
    0x983e5152, 0xa831c66d, 0xb00327c8, 0xbf597fc7,
    0xc6e00bf3, 0xd5a79147, 0x06ca6351, 0x14292967,
    0x27b70a85, 0x2e1b2138, 0x4d2c6dfc, 0x53380d13,
    0x650a7354, 0x766a0abb, 0x81c2c92e, 0x92722c85,
    0xa2bfe8a1, 0xa81a664b, 0xc24b8b70, 0xc76c51a3,
    0xd192e819, 0xd6990624, 0xf40e3585, 0x106aa070,
    0x19a4c116, 0x1e376c08, 0x2748774c, 0x34b0bcb5,
    0x391c0cb3, 0x4ed8aa4a, 0x5b9cca4f, 0x682e6ff3,
    0x748f82ee, 0x78a5636f, 0x84c87814, 0x8cc70208,
    0x90befffa, 0xa4506ceb, 0xbef9a3f7, 0xc67178f2]

/-- `ROR(x, n)`. -/
def ror (x n : UInt32) : UInt32 :=
  (x >>> n) ||| (x <<< (32 - n))

/-- The eight chaining words, and the eight working words of one block. -/
structure Words where
  a : UInt32
  b : UInt32
  c : UInt32
  d : UInt32
  e : UInt32
  f : UInt32
  g : UInt32
  h : UInt32
deriving DecidableEq, Repr

/-- The words `w[0]` to `w[15]`: the block read big-endian. -/
def blockWords : List UInt8 → List UInt32
  | b0 :: b1 :: b2 :: b3 :: rest =>
      ((b0.toUInt32 <<< 24) ||| (b1.toUInt32 <<< 16) |||
        (b2.toUInt32 <<< 8) ||| b3.toUInt32) :: blockWords rest
  | _ => []

/-- `w[i]` for `i` past the sixteen input words. -/
def scheduleWord (w : List UInt32) (i : Nat) : UInt32 :=
  let w15 := w.getD (i - 15) 0
  let w2 := w.getD (i - 2) 0
  let s0 := ror w15 7 ^^^ ror w15 18 ^^^ (w15 >>> 3)
  let s1 := ror w2 17 ^^^ ror w2 19 ^^^ (w2 >>> 10)
  w.getD (i - 16) 0 + s0 + w.getD (i - 7) 0 + s1

/-- Append `count` schedule words. -/
def extendSchedule : Nat → List UInt32 → List UInt32
  | 0, w => w
  | count + 1, w => extendSchedule count (w ++ [scheduleWord w w.length])

/-- One of the sixty-four rounds, under its constant and its schedule word. -/
def round (s : Words) (kw : UInt32 × UInt32) : Words :=
  let t1 := s.h + (ror s.e 6 ^^^ ror s.e 11 ^^^ ror s.e 25) +
    ((s.e &&& s.f) ^^^ (~~~s.e &&& s.g)) + kw.1 + kw.2
  let t2 := (ror s.a 2 ^^^ ror s.a 13 ^^^ ror s.a 22) +
    ((s.a &&& s.b) ^^^ (s.a &&& s.c) ^^^ (s.b &&& s.c))
  { a := t1 + t2, b := s.a, c := s.b, d := s.c
    e := s.d + t1, f := s.e, g := s.f, h := s.g }

/-- `block`: fold one 64-byte block into the chaining words. -/
def block (h : Words) (p : List UInt8) : Words :=
  let w := extendSchedule 48 (blockWords p)
  let s := (roundConstants.zip w).foldl round h
  { a := h.a + s.a, b := h.b + s.b, c := h.c + s.c, d := h.d + s.d
    e := h.e + s.e, f := h.f + s.f, g := h.g + s.g, h := h.h + s.h }

/-- `struct sha256b`; `buflen` is the length of `buf`. -/
structure Context where
  h : Words
  nbitsHi : UInt32
  nbitsLo : UInt32
  buf : List UInt8
deriving DecidableEq, Repr

/-- `sha256b_init`. -/
def init : Context where
  h :=
    { a := 0x6a09e667, b := 0xbb67ae85, c := 0x3c6ef372, d := 0xa54ff53a
      e := 0x510e527f, f := 0x9b05688c, g := 0x1f83d9ab, h := 0x5be0cd19 }
  nbitsHi := 0
  nbitsLo := 0
  buf := []

/-- `addbits`: add a byte count to the bit counter kept in two halves. -/
def addbits (c : Context) (nbytes : UInt32) : Context :=
  let lo := nbytes <<< 3
  let hi := nbytes >>> 29
  let nbitsLo := c.nbitsLo + lo
  let carried := if nbitsLo < c.nbitsLo then c.nbitsHi + 1 else c.nbitsHi
  { c with nbitsLo := nbitsLo, nbitsHi := carried + hi }

/-- The loop of `sha256b_update` over whole blocks, with what is left of `p`.
`rounds` bounds the loop; `p.length` rounds always suffice. -/
def blocks : Nat → Words → List UInt8 → Words × List UInt8
  | 0, h, p => (h, p)
  | rounds + 1, h, p =>
      if p.length < 64 then (h, p)
      else blocks rounds (block h (p.take 64)) (p.drop 64)

/-- The tail of `sha256b_update`, entered with nothing held: every whole block
of `p` is folded in and the rest is kept. -/
def feed (c : Context) (p : List UInt8) : Context :=
  let (h, rest) := blocks p.length c.h p
  { c with h := h, buf := c.buf ++ rest }

/-- `sha256b_update`. -/
def update (c : Context) (p : List UInt8) : Context :=
  let c := addbits c (UInt32.ofNat p.length)
  if c.buf.length ≠ 0 then
    let room := 64 - c.buf.length
    let buf := c.buf ++ p.take room
    if buf.length < 64 then { c with buf := buf }
    else feed { c with h := block c.h buf, buf := [] } (p.drop room)
  else feed c p

/-- A word as four bytes, most significant first. -/
def wordBytes (x : UInt32) : List UInt8 :=
  [(x >>> 24).toUInt8, (x >>> 16).toUInt8, (x >>> 8).toUInt8, x.toUInt8]

/-- The one or two blocks `sha256b_final` ends on, in bytes. -/
def paddedLength (c : Context) : Nat :=
  if c.buf.length + 1 ≤ 56 then 64 else 128

/-- `pad` of `sha256b_final`: the held bytes, `0x80`, zeros up to the last eight
bytes, and the bit counter. -/
def pad (c : Context) : List UInt8 :=
  c.buf ++ [0x80] ++
    List.replicate (paddedLength c - 8 - (c.buf.length + 1)) 0 ++
    wordBytes c.nbitsHi ++ wordBytes c.nbitsLo

/-- The eight chaining words as the digest. -/
def digest (h : Words) : List UInt8 :=
  wordBytes h.a ++ wordBytes h.b ++ wordBytes h.c ++ wordBytes h.d ++
    wordBytes h.e ++ wordBytes h.f ++ wordBytes h.g ++ wordBytes h.h

/-- `sha256b_final`. -/
def final (c : Context) : List UInt8 :=
  let h := block c.h ((pad c).take 64)
  if paddedLength c = 128 then digest (block h ((pad c).drop 64))
  else digest h

/-- `sha256b`: the digest of one contiguous run of bytes. -/
def sha256b (p : List UInt8) : List UInt8 :=
  final (update init p)

@[simp]
theorem wordBytes_length (x : UInt32) : (wordBytes x).length = 4 := rfl

@[simp]
theorem digest_length (h : Words) : (digest h).length = 32 := by
  simp [digest]

/-- A digest is 32 bytes. -/
@[simp]
theorem sha256b_length (p : List UInt8) : (sha256b p).length = 32 := by
  unfold sha256b final
  split <;> simp

example : sha256b [0x61, 0x62, 0x63] =
    [0xba, 0x78, 0x16, 0xbf, 0x8f, 0x01, 0xcf, 0xea,
      0x41, 0x41, 0x40, 0xde, 0x5d, 0xae, 0x22, 0x23,
      0xb0, 0x03, 0x61, 0xa3, 0x96, 0x17, 0x7a, 0x9c,
      0xb4, 0x10, 0xff, 0x61, 0xf2, 0x00, 0x15, 0xad] := by
  decide +kernel

end RlxFw.Sha256b
