import RlxFw.Fips180

/-!
# scrypt as RFC 7914 has it

HMAC and PBKDF2 over SHA-256, the Salsa20/8 core as rounds of a square of words,
scryptBlockMix, scryptROMix and scrypt, over lists of bytes.
-/

namespace RlxFw.Rfc7914

/-- Two runs of bytes, byte by byte. -/
def xor (a b : List UInt8) : List UInt8 := List.zipWith (· ^^^ ·) a b

theorem length_xor {a b : List UInt8} {n : Nat} (first : a.length = n) (second : b.length = n) :
    (xor a b).length = n := by
  simp [xor, first, second]

/-! ## PBKDF2 -/

/-- HMAC-SHA-256. -/
def hmac (key text : List UInt8) : List UInt8 :=
  let k := if key.length > 64 then Fips180.sha256 key else key
  let k := k ++ List.replicate (64 - k.length) 0
  Fips180.sha256 (k.map (· ^^^ 0x5C) ++ Fips180.sha256 (k.map (· ^^^ 0x36) ++ text))

/-- `U_1`, and each `U` of the one before. -/
def pseudorandom (p s : List UInt8) (i : Nat) : Nat → List UInt8
  | 0 => hmac p (s ++ Fips180.bigEndian 4 i)
  | c + 1 => hmac p (pseudorandom p s i c)

/-- The function `F`: the exclusive or of `U_1` and `c` more. -/
def folds (p s : List UInt8) (i : Nat) : Nat → List UInt8
  | 0 => pseudorandom p s i 0
  | c + 1 => xor (folds p s i c) (pseudorandom p s i (c + 1))

/-- PBKDF2-HMAC-SHA-256. -/
def pbkdf2 (p s : List UInt8) (c dkLen : Nat) : List UInt8 :=
  ((List.range ((dkLen + 31) / 32)).flatMap fun i => folds p s (i + 1) (c - 1)).take dkLen

/-! ## Salsa20/8 -/

/-- The number that bytes come to, least significant first. -/
def ofLittleEndian (bytes : List UInt8) : Nat :=
  bytes.foldr (fun b n => b.toNat + 256 * n) 0

/-- The bytes of a number, least significant first. -/
def littleEndian : Nat → Nat → List UInt8
  | 0, _ => []
  | count + 1, n => UInt8.ofNat n :: littleEndian count (n / 256)

theorem length_littleEndian (count n : Nat) : (littleEndian count n).length = count := by
  induction count generalizing n with
  | zero => rfl
  | succ count ih => rw [littleEndian, List.length_cons, ih]

/-- A word turned left. -/
def rotl (n : Nat) (x : UInt32) : UInt32 := ⟨x.toBitVec.rotateLeft n⟩

/-- The quarterround of four words. -/
def quarterRound (y0 y1 y2 y3 : UInt32) (i : Fin 4) : UInt32 :=
  let z1 := y1 ^^^ rotl 7 (y0 + y3)
  let z2 := y2 ^^^ rotl 9 (z1 + y0)
  let z3 := y3 ^^^ rotl 13 (z2 + z1)
  let z0 := y0 ^^^ rotl 18 (z3 + z2)
  match i with
  | 0 => z0
  | 1 => z1
  | 2 => z2
  | 3 => z3

/-- Sixteen words, row by row. -/
abbrev Square := Vector UInt32 16

/-- The square that has a word at every row and column. -/
def square (f : Fin 4 → Fin 4 → UInt32) : Square :=
  Vector.ofFn fun k => f ⟨k / 4, by omega⟩ ⟨k % 4, by omega⟩

/-- The word of a row and a column. -/
def entry (x : Square) (i j : Fin 4) : UInt32 := x[4 * i.val + j.val]

/-- A quarterround down every column, from the diagonal on. -/
def columnRound (x : Square) : Square := square fun i j =>
  quarterRound (entry x j j) (entry x (j + 1) j) (entry x (j + 2) j) (entry x (j + 3) j) (i - j)

def transpose (x : Square) : Square := square fun i j => entry x j i

/-- A quarterround along every row. -/
def rowRound (x : Square) : Square := transpose (columnRound (transpose x))

/-- A word of a block of 64 bytes. -/
def word (b : List UInt8) (i : Nat) : UInt32 :=
  UInt32.ofNat (ofLittleEndian ((b.drop (4 * i)).take 4))

/-- The Salsa20/8 core. -/
def salsa20_8 (b : List UInt8) : List UInt8 :=
  let x : Square := Vector.ofFn fun k => word b k
  let z := (rowRound ∘ columnRound)^[4] x
  (List.finRange 16).flatMap fun k => littleEndian 4 (z.get k + x.get k).toNat

theorem length_salsa20_8 (b : List UInt8) : (salsa20_8 b).length = 64 := by
  simp [salsa20_8, length_littleEndian]

/-! ## scryptBlockMix -/

/-- A block of 64 bytes. -/
def block (b : List UInt8) (i : Nat) : List UInt8 := (b.drop (64 * i)).take 64

/-- The blocks `Y`. -/
def mixed (b : List UInt8) (r : Nat) : Nat → List UInt8
  | 0 => salsa20_8 (xor (block b (2 * r - 1)) (block b 0))
  | i + 1 => salsa20_8 (xor (mixed b r i) (block b (i + 1)))

theorem length_mixed (b : List UInt8) (r i : Nat) : (mixed b r i).length = 64 := by
  cases i with
  | zero => exact length_salsa20_8 _
  | succ i => exact length_salsa20_8 _

/-- scryptBlockMix: the blocks of even place, and then those of odd place. -/
def blockMix (b : List UInt8) (r : Nat) : List UInt8 :=
  ((List.range r).flatMap fun i => mixed b r (2 * i)) ++
    (List.range r).flatMap fun i => mixed b r (2 * i + 1)

theorem length_blockMix (b : List UInt8) (r : Nat) : (blockMix b r).length = 128 * r := by
  unfold blockMix
  rw [List.length_append, List.length_flatMap, List.length_flatMap]
  simp only [length_mixed, List.map_const', List.length_range, List.sum_replicate_nat]
  omega

/-! ## scryptROMix -/

/-- Integerify: the last block as a number. -/
def integerify (b : List UInt8) (r : Nat) : Nat := ofLittleEndian (block b (2 * r - 1))

/-- The vector `V`; its entry `n` is the `X` after the first loop. -/
def vector (b : List UInt8) (r : Nat) : Nat → List UInt8
  | 0 => b
  | i + 1 => blockMix (vector b r i) r

/-- `X` after turns of the second loop. -/
def stirred (b : List UInt8) (n r : Nat) : Nat → List UInt8
  | 0 => vector b r n
  | t + 1 =>
      let x := stirred b n r t
      blockMix (xor x (vector b r (integerify x r % n))) r

/-- scryptROMix. -/
def roMix (b : List UInt8) (n r : Nat) : List UInt8 := stirred b n r n

/-- scrypt. -/
def scrypt (p s : List UInt8) (n r par dkLen : Nat) : List UInt8 :=
  let b := pbkdf2 p s 1 (par * (128 * r))
  let mixed := (List.range par).flatMap fun i =>
    roMix ((b.drop (i * (128 * r))).take (128 * r)) n r
  pbkdf2 p mixed 1 dkLen

end RlxFw.Rfc7914
