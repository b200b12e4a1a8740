import RlxFw.Ascii
import RlxFw.Sha256Padded
import RlxFw.Tlv

/-!
# The password hash

`src/lib/kdf.c`: PBKDF2 over HMAC-SHA-256, scrypt, and the blob of 56 bytes that
holds a hash with its parameters.  A hash context is the message it was fed, and the
allocator is a parameter.
-/

namespace RlxFw.Scrypt

open Sha256b (sha256)

/-- `KDFE_*`, of those that `kdf_scrypt` and the blob return. -/
inductive Err where
  | inval
  | nomem
  | badblob
deriving DecidableEq, Repr

/-! ## PBKDF2 -/

/-- Two runs of bytes, byte by byte. -/
def xorBytes (a b : List UInt8) : List UInt8 := List.zipWith (· ^^^ ·) a b

/-- `hmac_sha256`. -/
def hmacSha256 (key p : List UInt8) : List UInt8 :=
  let k := if key.length > 64 then sha256 key else key
  let k := k ++ List.replicate (64 - k.length) 0
  sha256 (k.map (· ^^^ 0x5C) ++ sha256 (k.map (· ^^^ 0x36) ++ p))

/-- The inner loop of `kdf_pbkdf2_sha256`, over the iterations left. -/
def pbkdf2Turns (pw : List UInt8) : Nat → List UInt8 → List UInt8 → List UInt8
  | 0, _, t => t
  | left + 1, u, t =>
      let u := hmacSha256 pw u
      pbkdf2Turns pw left u (xorBytes t u)

/-- A block of `kdf_pbkdf2_sha256`. -/
def pbkdf2Block (pw salt : List UInt8) (iters i : Nat) : List UInt8 :=
  let u := hmacSha256 pw (salt ++ Tlv.putBe32 i)
  pbkdf2Turns pw (iters - 1) u u

/-- `kdf_pbkdf2_sha256`. -/
def pbkdf2 (pw salt : List UInt8) (iters outlen : Nat) : List UInt8 :=
  ((List.range ((outlen + 31) / 32)).flatMap fun i => pbkdf2Block pw salt iters (i + 1)).take
    outlen

/-! ## scrypt -/

/-- `le32dec`. -/
def le32dec (p : List UInt8) : UInt32 :=
  (byteAt p 0).toUInt32 ||| ((byteAt p 1).toUInt32 <<< 8) |||
    ((byteAt p 2).toUInt32 <<< 16) ||| ((byteAt p 3).toUInt32 <<< 24)

/-- `le32enc`. -/
def le32enc (v : UInt32) : List UInt8 :=
  [v.toUInt8, (v >>> 8).toUInt8, (v >>> 16).toUInt8, (v >>> 24).toUInt8]

/-- `ROTL32`. -/
def rotl32 (x n : UInt32) : UInt32 := (x <<< n) ||| (x >>> (32 - n))

/-- The state of `salsa20_8`. -/
abbrev Words := Fin 16 → UInt32

/-- One assignment of `QR`: a word takes the sum of two others, rotated. -/
def mixWord (x : Words) (dst i j : Fin 16) (n : UInt32) : Words := fun k =>
  if k = dst then x dst ^^^ rotl32 (x i + x j) n else x k

/-- `QR`. -/
def quarterRound (x : Words) (a b c d : Fin 16) : Words :=
  let x := mixWord x b a d 7
  let x := mixWord x c b a 9
  let x := mixWord x d c b 13
  mixWord x a d c 18

/-- A double round of `salsa20_8`: the columns and then the rows. -/
def doubleRound (x : Words) : Words :=
  let x := quarterRound x 0 4 8 12
  let x := quarterRound x 5 9 13 1
  let x := quarterRound x 10 14 2 6
  let x := quarterRound x 15 3 7 11
  let x := quarterRound x 0 1 2 3
  let x := quarterRound x 5 6 7 4
  let x := quarterRound x 10 11 8 9
  quarterRound x 15 12 13 14

/-- `salsa20_8`. -/
def salsa20_8 (b : List UInt8) : List UInt8 :=
  let j : Words := fun i => le32dec (b.drop (4 * i.val))
  let x := doubleRound (doubleRound (doubleRound (doubleRound j)))
  (List.finRange 16).flatMap fun i => le32enc (x i + j i)

/-- A block of 64 bytes. -/
def blockAt (b : List UInt8) (i : Nat) : List UInt8 := (b.drop (64 * i)).take 64

/-- The loop of `blockmix`, with the block before: every output in turn. -/
def mixBlocks : List UInt8 → List (List UInt8) → List (List UInt8)
  | _, [] => []
  | x, bi :: more =>
      let x := salsa20_8 (xorBytes x bi)
      x :: mixBlocks x more

/-- `blockmix`: the outputs of even place, and those of odd place behind them. -/
def blockmix (b : List UInt8) (r : Nat) : List UInt8 :=
  let ys := mixBlocks (blockAt b (2 * r - 1)) ((List.range (2 * r)).map (blockAt b))
  ((List.range r).flatMap fun i => ys.getD (2 * i) []) ++
    (List.range r).flatMap fun i => ys.getD (2 * i + 1) []

/-- `integerify_mod`. -/
def integerifyMod (x : List UInt8) (r n : Nat) : Nat :=
  (le32dec (blockAt x (2 * r - 1)) &&& (UInt32.ofNat n - 1)).toNat

/-- The first loop of `romix`: the blocks it puts in `v`, and the one it ends at. -/
def fillBlocks (r : Nat) : Nat → List UInt8 → List (List UInt8) × List UInt8
  | 0, x => ([], x)
  | left + 1, x =>
      let filled := fillBlocks r left (blockmix x r)
      (x :: filled.1, filled.2)

/-- The second loop of `romix`. -/
def mixFilled (n r : Nat) (v : List (List UInt8)) : Nat → List UInt8 → List UInt8
  | 0, x => x
  | left + 1, x =>
      mixFilled n r v left (blockmix (xorBytes x (v.getD (integerifyMod x r n) [])) r)

/-- `romix`. -/
def romix (b : List UInt8) (n r : Nat) : List UInt8 :=
  let filled := fillBlocks r n b
  mixFilled n r filled.1 n filled.2

/-- The largest `size_t`. -/
def sizeMax : Nat := 2 ^ 32 - 1

/-- `peak_bytes`. -/
def peakBytes (n r p : Nat) : Option Nat :=
  if n < 2 ∨ r = 0 ∨ p = 0 then none
  else if n &&& (n - 1) ≠ 0 then none
  else if r < 2 ∧ n ≥ 2 ^ (16 * r) then none
  else if r > sizeMax / 128 then none
  else if n > sizeMax / (128 * r) then none
  else if 128 * r > sizeMax / 2 then none
  else if p > sizeMax / (128 * r) then none
  else if n * (128 * r) > sizeMax - 2 * (128 * r) then none
  else if n * (128 * r) + 2 * (128 * r) > sizeMax - p * (128 * r) then none
  else some (n * (128 * r) + 2 * (128 * r) + p * (128 * r))

/-- `kdf_scrypt_peak`, 0 being `none`. -/
def kdfScryptPeak (log2n r p : Nat) : Option Nat :=
  if log2n < 1 ∨ log2n > 31 then none else peakBytes (2 ^ log2n) r p

/-- What `malloc` answers to a number of bytes. -/
abbrev Allocator := Nat → Bool

/-- An allocator that always answers. -/
def ample : Allocator := fun _ => true

/-- The computation of `kdf_scrypt_raw` once it has its memory. -/
def scrypt (pw salt : List UInt8) (n r p outlen : Nat) : List UInt8 :=
  let blk := 128 * r
  let b := pbkdf2 pw salt 1 (p * blk)
  let mixed := (List.range p).flatMap fun i => romix ((b.drop (i * blk)).take blk) n r
  pbkdf2 pw mixed 1 outlen

/-- `kdf_scrypt_raw`. -/
def kdfScryptRaw (malloc : Allocator) (pw salt : List UInt8) (n r p outlen : Nat) :
    Except Err (List UInt8) :=
  if outlen = 0 then .error .inval
  else if r = 0 ∨ p = 0 then .error .inval
  else if n < 2 ∨ n &&& (n - 1) ≠ 0 then .error .inval
  else if r * p ≥ 2 ^ 30 then .error .inval
  else
    match peakBytes n r p with
    | none => .error .inval
    | some need => if malloc need then .ok (scrypt pw salt n r p outlen) else .error .nomem

/-- `KDF_PEAK_CAP`. -/
def kdfPeakCap : Nat := 4194304

/-- `kdf_scrypt`. -/
def kdfScrypt (malloc : Allocator) (pw salt : List UInt8) (log2n r p : Nat) :
    Except Err (List UInt8) :=
  match kdfScryptPeak log2n r p with
  | none => .error .inval
  | some peak =>
      if peak > kdfPeakCap then .error .inval
      else kdfScryptRaw malloc pw salt (2 ^ log2n) r p 32

/-! ## The blob -/

/-- `ct_memeq`. -/
def ctMemeq (x y : List UInt8) : Bool :=
  let d : UInt8 := (xorBytes x y).foldl (· ||| ·) 0
  let word : UInt32 := d.toUInt32 - 1
  (word >>> 8) &&& 1 == (1 : UInt32)

/-- `pwhash_params`. -/
def pwhashParams (blob : List UInt8) : Except Err (Nat × Nat × Nat) :=
  if byteAt blob 0 ≠ 1 then .error .badblob
  else if byteAt blob 6 ≠ 0 ∨ byteAt blob 7 ≠ 0 then .error .badblob
  else
    .ok ((byteAt blob 1).toNat, Tlv.be16 (byteAt blob 2) (byteAt blob 3),
      Tlv.be16 (byteAt blob 4) (byteAt blob 5))

/-- `pwhash_make`. -/
def pwhashMake (malloc : Allocator) (pw : List UInt8) (log2n : UInt8) (r p : UInt16)
    (salt : List UInt8) : Except Err (List UInt8) :=
  match kdfScrypt malloc pw salt log2n.toNat r.toNat p.toNat with
  | .error e => .error e
  | .ok key =>
      .ok ([1, log2n] ++ Tlv.putBe16 r.toNat ++ Tlv.putBe16 p.toNat ++ [0, 0] ++ salt ++ key)

/-- `pwhash_verify`: whether the password matches. -/
def pwhashVerify (malloc : Allocator) (blob pw : List UInt8) : Except Err Bool :=
  match pwhashParams blob with
  | .error e => .error e
  | .ok (log2n, r, p) =>
      match kdfScrypt malloc pw ((blob.drop 8).take 16) log2n r p with
      | .error e => .error e
      | .ok key => .ok (ctMemeq key ((blob.drop 24).take 32))

/-! ## Lengths -/

theorem length_hmacSha256 (key p : List UInt8) : (hmacSha256 key p).length = 32 :=
  Sha256b.digest_length _

theorem length_pbkdf2Turns (pw : List UInt8) (left : Nat) {u t : List UInt8}
    (length : t.length = 32) : (pbkdf2Turns pw left u t).length = 32 := by
  induction left generalizing u t with
  | zero => exact length
  | succ left ih =>
      apply ih
      simp [xorBytes, length, length_hmacSha256]

theorem length_pbkdf2 (pw salt : List UInt8) (iters outlen : Nat) :
    (pbkdf2 pw salt iters outlen).length = outlen := by
  have each (i : Nat) : (pbkdf2Block pw salt iters i).length = 32 :=
    length_pbkdf2Turns pw _ (length_hmacSha256 _ _)
  unfold pbkdf2
  rw [List.length_take, List.length_flatMap]
  simp only [each, List.map_const', List.length_range, List.sum_replicate_nat]
  omega

/-- `uint8_t out[32]`. -/
theorem length_kdfScrypt {malloc : Allocator} {pw salt key : List UInt8} {log2n r p : Nat}
    (derived : kdfScrypt malloc pw salt log2n r p = .ok key) : key.length = 32 := by
  unfold kdfScrypt kdfScryptRaw at derived
  split at derived
  · cases derived
  split_ifs at derived
  split at derived
  · cases derived
  split_ifs at derived
  cases derived
  exact length_pbkdf2 _ _ _ _

/-- With memory, a hash comes out as it did before. -/
theorem kdfScrypt_ample {malloc : Allocator} {pw salt key : List UInt8} {log2n r p : Nat}
    (derived : kdfScrypt malloc pw salt log2n r p = .ok key) :
    kdfScrypt ample pw salt log2n r p = .ok key := by
  have raw {n r p : Nat} (done : kdfScryptRaw malloc pw salt n r p 32 = .ok key) :
      kdfScryptRaw ample pw salt n r p 32 = .ok key := by
    unfold kdfScryptRaw at done ⊢
    split at done
    · cases done
    next c1 =>
    split at done
    · cases done
    next c2 =>
    split at done
    · cases done
    next c3 =>
    split at done
    · cases done
    next c4 =>
    rw [if_neg c1, if_neg c2, if_neg c3, if_neg c4]
    cases peak : peakBytes n r p with
    | none =>
        rw [peak] at done
        cases done
    | some need =>
        rw [peak] at done
        dsimp only at done ⊢
        rw [if_pos (show ample need = true from rfl)]
        split at done
        · exact done
        · cases done
  unfold kdfScrypt at derived ⊢
  cases peak : kdfScryptPeak log2n r p with
  | none =>
      rw [peak] at derived
      cases derived
  | some need =>
      rw [peak] at derived
      dsimp only at derived ⊢
      split at derived
      · cases derived
      next fits =>
      rw [if_neg fits]
      exact raw derived

end RlxFw.Scrypt
