import RlxFw.Ascii
import RlxFw.BlockHash

/-!
# SHA-512

`src/lib/sha512.c`: a block of 128 bytes over eight words, the padding, and the one-shot call.
-/

namespace RlxFw.Sha512

/-- `dl64`, of the eight bytes at an offset. -/
def dl64 (x : List UInt8) (off : Nat) : UInt64 :=
  (List.range 8).foldl (fun u i => (u <<< 8) ||| (byteAt x (off + i)).toUInt64) 0

/-- `ts64`. -/
def ts64 (u : UInt64) : List UInt8 :=
  (List.range 8).map fun i => (u >>> (8 * (7 - i)).toUInt64).toUInt8

/-- `R`. -/
def rotr (x : UInt64) (c : UInt64) : UInt64 := (x >>> c) ||| (x <<< (64 - c))

/-- `Ch`. -/
def ch (x y z : UInt64) : UInt64 := (x &&& y) ^^^ (~~~x &&& z)

/-- `Maj`. -/
def maj (x y z : UInt64) : UInt64 := (x &&& y) ^^^ (x &&& z) ^^^ (y &&& z)

/-- `Sigma0`. -/
def bigSigma0 (x : UInt64) : UInt64 := rotr x 28 ^^^ rotr x 34 ^^^ rotr x 39

/-- `Sigma1`. -/
def bigSigma1 (x : UInt64) : UInt64 := rotr x 14 ^^^ rotr x 18 ^^^ rotr x 41

/-- `sigma0`. -/
def sigma0 (x : UInt64) : UInt64 := rotr x 1 ^^^ rotr x 8 ^^^ (x >>> 7)

/-- `sigma1`. -/
def sigma1 (x : UInt64) : UInt64 := rotr x 19 ^^^ rotr x 61 ^^^ (x >>> 6)

/-- `K`. -/
def k : List UInt64 :=
  [0x428a2f98d728ae22, 0x7137449123ef65cd, 0xb5c0fbcfec4d3b2f, 0xe9b5dba58189dbbc,
    0x3956c25bf348b538, 0x59f111f1b605d019, 0x923f82a4af194f9b, 0xab1c5ed5da6d8118,
    0xd807aa98a3030242, 0x12835b0145706fbe, 0x243185be4ee4b28c, 0x550c7dc3d5ffb4e2,
    0x72be5d74f27b896f, 0x80deb1fe3b1696b1, 0x9bdc06a725c71235, 0xc19bf174cf692694,
    0xe49b69c19ef14ad2, 0xefbe4786384f25e3, 0x0fc19dc68b8cd5b5, 0x240ca1cc77ac9c65,
    0x2de92c6f592b0275, 0x4a7484aa6ea6e483, 0x5cb0a9dcbd41fbd4, 0x76f988da831153b5,
    0x983e5152ee66dfab, 0xa831c66d2db43210, 0xb00327c898fb213f, 0xbf597fc7beef0ee4,
    0xc6e00bf33da88fc2, 0xd5a79147930aa725, 0x06ca6351e003826f, 0x142929670a0e6e70,
    0x27b70a8546d22ffc, 0x2e1b21385c26c926, 0x4d2c6dfc5ac42aed, 0x53380d139d95b3df,
    0x650a73548baf63de, 0x766a0abb3c77b2a8, 0x81c2c92e47edaee6, 0x92722c851482353b,
    0xa2bfe8a14cf10364, 0xa81a664bbc423001, 0xc24b8b70d0f89791, 0xc76c51a30654be30,
    0xd192e819d6ef5218, 0xd69906245565a910, 0xf40e35855771202a, 0x106aa07032bbd1b8,
    0x19a4c116b8d2d0c8, 0x1e376c085141ab53, 0x2748774cdf8eeb99, 0x34b0bcb5e19b48a8,
    0x391c0cb3c5c95a63, 0x4ed8aa4ae3418acb, 0x5b9cca4f7763e373, 0x682e6ff3d6b2b8a3,
    0x748f82ee5defb2fc, 0x78a5636f43172f60, 0x84c87814a1f0ab72, 0x8cc702081a6439ec,
    0x90befffa23631e28, 0xa4506cebde82bde9, 0xbef9a3f7b2c67915, 0xc67178f2e372532b,
    0xca273eceea26619c, 0xd186b8c721c0c207, 0xeada7dd6cde0eb1e, 0xf57d4f7fee6ed178,
    0x06f067aa72176fba, 0x0a637dc5a2c898a6, 0x113f9804bef90dae, 0x1b710b35131c471b,
    0x28db77f523047d84, 0x32caab7b40c72493, 0x3c9ebe0a15c9bebc, 0x431d67c49c100d4c,
    0x4cc5d4becb3e42b6, 0x597f299cfc657e2a, 0x5fcb6fab3ad6faec, 0x6c44198c4a475817]

/-- The working words `a` and the window `w` of the schedule. -/
structure Working where
  a : Vector UInt64 8
  w : Vector UInt64 16

/-- The sixteen next words of the schedule, each from words before it. -/
def renew (w : Vector UInt64 16) : Vector UInt64 16 :=
  (List.finRange 16).foldl
    (fun w (j : Fin 16) =>
      w.set j (w.get j + (w.get (j + 9) + sigma0 (w.get (j + 1)) + sigma1 (w.get (j + 14))))) w

/-- One of the eighty rounds. -/
def round (s : Working) (i : Nat) : Working :=
  let a := s.a
  let t := a[7] + bigSigma1 a[4] + ch a[4] a[5] a[6] + k.getD i 0 + s.w.get (Fin.ofNat 16 i)
  let b := (a.set 7 (t + bigSigma0 a[0] + maj a[0] a[1] a[2])).set 3 (a[3] + t)
  { a := Vector.ofFn fun j => b.get (j - 1)
    w := if i % 16 = 15 then renew s.w else s.w }

/-- A turn of the loop of `crypto_hashblocks`. -/
def block (z : Vector UInt64 8) (m : List UInt8) : Vector UInt64 8 :=
  let w := Vector.ofFn fun i : Fin 16 => dl64 m (8 * i)
  let s := (List.range 80).foldl round { a := z, w := w }
  Vector.ofFn fun i => s.a.get i + z.get i

/-- `crypto_hashblocks`: the words as bytes, after the whole blocks of a message. -/
def cryptoHashblocks (x m : List UInt8) : List UInt8 :=
  let z := Vector.ofFn fun i : Fin 8 => dl64 x (8 * i)
  (BlockHash.folded block 128 (m.length / 128) z m).toList.flatMap ts64

/-- `iv`. -/
def iv : List UInt8 :=
  [0x6a, 0x09, 0xe6, 0x67, 0xf3, 0xbc, 0xc9, 0x08,
    0xbb, 0x67, 0xae, 0x85, 0x84, 0xca, 0xa7, 0x3b,
    0x3c, 0x6e, 0xf3, 0x72, 0xfe, 0x94, 0xf8, 0x2b,
    0xa5, 0x4f, 0xf5, 0x3a, 0x5f, 0x1d, 0x36, 0xf1,
    0x51, 0x0e, 0x52, 0x7f, 0xad, 0xe6, 0x82, 0xd1,
    0x9b, 0x05, 0x68, 0x8c, 0x2b, 0x3e, 0x6c, 0x1f,
    0x1f, 0x83, 0xd9, 0xab, 0xfb, 0x41, 0xbd, 0x6b,
    0x5b, 0xe0, 0xcd, 0x19, 0x13, 0x7e, 0x21, 0x79]

/-- The one or two blocks that `crypto_hash` ends on, from the last `n` bytes. -/
def tail (m : List UInt8) : List UInt8 :=
  let n := m.length % 128
  let b := UInt64.ofNat m.length
  let size := 256 - 128 * (if n < 112 then 1 else 0)
  let zeros : List UInt8 := List.replicate (size - 9 - (n + 1)) 0
  m.drop (m.length - n) ++ 0x80 :: zeros ++ (b >>> 61).toUInt8 :: ts64 (b <<< 3)

/-- `crypto_hash`. -/
def cryptoHash (m : List UInt8) : List UInt8 :=
  cryptoHashblocks (cryptoHashblocks iv m) (tail m)

end RlxFw.Sha512
