import RlxFw.BlockHash
import Mathlib.Data.List.Range

/-!
# SHA-256 as FIPS 180-4 has it

The six functions, the constants as roots of primes, the message schedule by its
recurrence, the rounds, the padding and the digest, over messages of whole bytes.
-/

namespace RlxFw.Fips180

open BlockHash (folded)

/-! ## Functions -/

/-- `ROTR`. -/
def rotr (n : Nat) (x : UInt32) : UInt32 := ⟨x.toBitVec.rotateRight n⟩

/-- `SHR`. -/
def shr (n : Nat) (x : UInt32) : UInt32 := ⟨x.toBitVec >>> n⟩

def ch (x y z : UInt32) : UInt32 := (x &&& y) ^^^ (~~~x &&& z)

def maj (x y z : UInt32) : UInt32 := (x &&& y) ^^^ (x &&& z) ^^^ (y &&& z)

def bigSigma0 (x : UInt32) : UInt32 := rotr 2 x ^^^ rotr 13 x ^^^ rotr 22 x

def bigSigma1 (x : UInt32) : UInt32 := rotr 6 x ^^^ rotr 11 x ^^^ rotr 25 x

def smallSigma0 (x : UInt32) : UInt32 := rotr 7 x ^^^ rotr 18 x ^^^ shr 3 x

def smallSigma1 (x : UInt32) : UInt32 := rotr 17 x ^^^ rotr 19 x ^^^ shr 10 x

/-! ## Constants -/

/-- The root of a number, bit by bit from bit `b`, with `r` found so far. -/
def rootFrom (k n : Nat) : Nat → Nat → Nat
  | 0, r => r
  | b + 1, r =>
      if (r + 2 ^ b) ^ k ≤ n then rootFrom k n b (r + 2 ^ b) else rootFrom k n b r

/-- The first 32 bits of the fractional part of the `k`th root of a number. -/
def rootWord (k n : Nat) : UInt32 := UInt32.ofNat (rootFrom k (n * 2 ^ (32 * k)) 37 0)

/-- What is found is the root, rounded down. -/
theorem rootFrom_spec {k n b r : Nat} (low : r ^ k ≤ n) (high : n < (r + 2 ^ b) ^ k) :
    rootFrom k n b r ^ k ≤ n ∧ n < (rootFrom k n b r + 1) ^ k := by
  induction b generalizing r with
  | zero => exact ⟨low, high⟩
  | succ b ih =>
      unfold rootFrom
      split
      · next fits =>
        refine ih fits ?_
        rw [Nat.add_assoc, ← Nat.two_mul, ← Nat.pow_succ']
        exact high
      · next large => exact ih low (Nat.lt_of_not_le large)

theorem rootWord_spec {k n : Nat} (positive : 0 < k) (small : n < 2 ^ (5 * k)) :
    ∃ r, rootWord k n = UInt32.ofNat r ∧ r ^ k ≤ n * 2 ^ (32 * k) ∧
      n * 2 ^ (32 * k) < (r + 1) ^ k := by
  have high : n * 2 ^ (32 * k) < (0 + 2 ^ 37) ^ k := by
    rw [Nat.zero_add, ← Nat.pow_mul, show 37 * k = 5 * k + 32 * k by omega, Nat.pow_add]
    exact Nat.mul_lt_mul_of_pos_right small (Nat.two_pow_pos _)
  have low : 0 ^ k ≤ n * 2 ^ (32 * k) := by
    rw [Nat.zero_pow positive]
    exact Nat.zero_le _
  exact ⟨_, rfl, rootFrom_spec low high⟩

/-- The first sixty-four primes. -/
def primes : List Nat :=
  [2, 3, 5, 7, 11, 13, 17, 19, 23, 29, 31, 37, 41, 43, 47, 53, 59, 61, 67, 71, 73, 79, 83,
    89, 97, 101, 103, 107, 109, 113, 127, 131, 137, 139, 149, 151, 157, 163, 167, 173, 179,
    181, 191, 193, 197, 199, 211, 223, 227, 229, 233, 239, 241, 251, 257, 263, 269, 271,
    277, 281, 283, 293, 307, 311]

/-- The words `K`. -/
def constant (t : Nat) : UInt32 := rootWord 3 (primes.getD t 0)

/-- Eight words: a hash value, and the working variables. -/
structure Hash where
  a : UInt32
  b : UInt32
  c : UInt32
  d : UInt32
  e : UInt32
  f : UInt32
  g : UInt32
  h : UInt32
deriving DecidableEq, Repr

/-- The hash value to begin with. -/
def initial : Hash :=
  ⟨rootWord 2 2, rootWord 2 3, rootWord 2 5, rootWord 2 7,
    rootWord 2 11, rootWord 2 13, rootWord 2 17, rootWord 2 19⟩

/-! ## A block -/

/-- The number that bytes come to, most significant first. -/
def ofBigEndian (bytes : List UInt8) : Nat :=
  bytes.foldl (fun n b => n * 256 + b.toNat) 0

/-- The `t`th word of a block. -/
def word (block : List UInt8) (t : Nat) : UInt32 :=
  UInt32.ofNat (ofBigEndian ((block.drop (4 * t)).take 4))

/-- The message schedule `W`. -/
def schedule (block : List UInt8) (t : Nat) : UInt32 :=
  if t < 16 then word block t
  else
    smallSigma1 (schedule block (t - 2)) + schedule block (t - 7) +
      smallSigma0 (schedule block (t - 15)) + schedule block (t - 16)
termination_by t

theorem schedule_of_lt {block : List UInt8} {t : Nat} (early : t < 16) :
    schedule block t = word block t := by
  rw [schedule, if_pos early]

theorem schedule_of_le {block : List UInt8} {t : Nat} (late : 16 ≤ t) :
    schedule block t =
      smallSigma1 (schedule block (t - 2)) + schedule block (t - 7) +
        smallSigma0 (schedule block (t - 15)) + schedule block (t - 16) := by
  rw [schedule, if_neg (Nat.not_lt.mpr late)]

/-- A loop that appends a word made of those before it appends the schedule. -/
theorem schedule_loop {loop : Nat → List UInt32 → List UInt32}
    {next : List UInt32 → Nat → UInt32} (zero : ∀ w, loop 0 w = w)
    (succ : ∀ count w, loop (count + 1) w = loop count (w ++ [next w w.length]))
    (recurs : ∀ w t, next w t =
      smallSigma1 (w.getD (t - 2) 0) + w.getD (t - 7) 0 +
        smallSigma0 (w.getD (t - 15) 0) + w.getD (t - 16) 0)
    (block : List UInt8) {n : Nat} (started : 16 ≤ n) (count : Nat) :
    loop count ((List.range n).map (schedule block)) =
      (List.range (n + count)).map (schedule block) := by
  induction count generalizing n with
  | zero => rw [zero, Nat.add_zero]
  | succ count ih =>
      have before {k : Nat} (positive : 0 < k) :
          ((List.range n).map (schedule block)).getD (n - k) 0 = schedule block (n - k) := by
        rw [List.getD_eq_getElem?_getD, List.getElem?_map,
          List.getElem?_range (by omega)]
        rfl
      have appended : (List.range n).map (schedule block) ++ [schedule block n] =
          (List.range (n + 1)).map (schedule block) := by
        rw [List.range_succ, List.map_append]
        rfl
      rw [succ, List.length_map, List.length_range, recurs, before (by decide),
        before (by decide), before (by decide), before (by decide),
        ← schedule_of_le started, appended, ih (by omega), Nat.add_right_comm, Nat.add_assoc]

/-- What one round makes of the working variables. -/
def round (k w : UInt32) (s : Hash) : Hash :=
  let t1 := s.h + bigSigma1 s.e + ch s.e s.f s.g + k + w
  let t2 := bigSigma0 s.a + maj s.a s.b s.c
  ⟨t1 + t2, s.a, s.b, s.c, s.d + t1, s.e, s.f, s.g⟩

/-- The working variables after `t` rounds. -/
def rounds (block : List UInt8) (start : Hash) : Nat → Hash
  | 0 => start
  | t + 1 => round (constant t) (schedule block t) (rounds block start t)

/-- The rounds as a fold over the constants and the schedule. -/
theorem rounds_eq_foldl (block : List UInt8) (start : Hash) (n : Nat) :
    rounds block start n =
      ((List.range n).map fun t => (constant t, schedule block t)).foldl
        (fun s kw => round kw.1 kw.2 s) start := by
  induction n with
  | zero => rfl
  | succ n ih => simp [rounds, ih, List.range_succ]

/-- The hash value after a block. -/
def hashBlock (start : Hash) (block : List UInt8) : Hash :=
  let s := rounds block start 64
  ⟨s.a + start.a, s.b + start.b, s.c + start.c, s.d + start.d,
    s.e + start.e, s.f + start.f, s.g + start.g, s.h + start.h⟩

/-! ## A message -/

/-- The bytes of a number, most significant first. -/
def bigEndian : Nat → Nat → List UInt8
  | 0, _ => []
  | count + 1, n => bigEndian count (n / 256) ++ [UInt8.ofNat n]

theorem length_bigEndian (count n : Nat) : (bigEndian count n).length = count := by
  induction count generalizing n with
  | zero => rfl
  | succ count ih => rw [bigEndian, List.length_append, ih, List.length_singleton]

theorem bigEndian_add (j k n : Nat) :
    bigEndian (j + k) n = bigEndian j (n / 256 ^ k) ++ bigEndian k n := by
  induction k generalizing n with
  | zero => simp [bigEndian]
  | succ k ih =>
      rw [← Nat.add_assoc, bigEndian, bigEndian, ih, Nat.div_div_eq_div_mul, Nat.pow_succ',
        List.append_assoc]

/-- Only so many bytes of a number are written. -/
theorem bigEndian_mod (count n : Nat) : bigEndian count (n % 256 ^ count) = bigEndian count n := by
  induction count generalizing n with
  | zero => rfl
  | succ count ih =>
      have high : n % 256 ^ (count + 1) / 256 = n / 256 % 256 ^ count := by
        rw [Nat.pow_succ', Nat.mod_mul_right_div_self]
      have low : UInt8.ofNat (n % 256 ^ (count + 1)) = UInt8.ofNat n := by
        apply UInt8.toNat_inj.mp
        rw [UInt8.toNat_ofNat', UInt8.toNat_ofNat']
        exact Nat.mod_mod_of_dvd n ⟨256 ^ count, Nat.pow_succ'⟩
      rw [bigEndian, bigEndian, high, low, ih]

/-- The zero bytes after the one bit of a message of `n` bytes. -/
def zeros (n : Nat) : Nat := (119 - n % 64) % 64

/-- The zeros are the fewest that leave room for the length. -/
theorem zeros_least (n : Nat) :
    (n + 1 + zeros n) % 64 = 56 ∧ ∀ k, (n + 1 + k) % 64 = 56 → zeros n ≤ k := by
  unfold zeros
  refine ⟨by omega, fun k fills => by omega⟩

/-- What is appended to a message of `n` bytes. -/
def padding (n : Nat) : List UInt8 :=
  0x80 :: List.replicate (zeros n) 0 ++ bigEndian 8 (8 * n)

theorem length_padding (n : Nat) : (padding n).length = 9 + zeros n := by
  unfold padding
  rw [List.length_append, List.length_cons, List.length_replicate, length_bigEndian]
  omega

theorem length_padded (m : List UInt8) :
    (m ++ padding m.length).length % 64 = 0 := by
  have fills := (zeros_least m.length).1
  rw [List.length_append, length_padding]
  omega

def digest (s : Hash) : List UInt8 :=
  [s.a, s.b, s.c, s.d, s.e, s.f, s.g, s.h].flatMap fun w => bigEndian 4 w.toNat

/-- SHA-256. -/
def sha256 (m : List UInt8) : List UInt8 :=
  let padded := m ++ padding m.length
  digest (folded hashBlock 64 (padded.length / 64) initial padded)

end RlxFw.Fips180
