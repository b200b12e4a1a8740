import RlxFw.KdfMemory
import RlxFw.ScryptRfc

/-!
# The password hash in its memory

`kdf_scrypt` on its one buffer: every access is inside it, its size is the one that is
promised, and what comes out is the standard's.
-/

namespace RlxFw

open BoundedMemory (turns Written exists_write exists_turns read_eq)

/-! ## PBKDF2 over contexts -/

namespace Sha256

/-- A key of one block. -/
def keyBlock (key : List UInt8) : List UInt8 :=
  let k := if key.length > 64 then Fips180.sha256 key else key
  k ++ List.replicate (64 - k.length) 0

theorem sha256_eq (m : List UInt8) : sha256 m = Fips180.sha256 m :=
  sha256Final_eq (sha256Update_stands sha256Init_stands m)

/-- Where a MAC under a key stands after a text. -/
structure HmacSha256Ctx.Stands (c : HmacSha256Ctx) (key text : List UInt8) : Prop where
  inner : c.inner.Stands ((keyBlock key).map (· ^^^ 0x36) ++ text)
  outer : c.outer.Stands ((keyBlock key).map (· ^^^ 0x5C))

theorem hmacSha256Init_stands (key : List UInt8) : (hmacSha256Init key).Stands key [] := by
  have block : (let k := if key.length > 64 then sha256 key else key
      k ++ List.replicate (64 - k.length) 0) = keyBlock key := by
    rw [sha256_eq]
    rfl
  unfold hmacSha256Init
  dsimp only at block ⊢
  rw [block]
  refine ⟨?_, sha256Update_stands sha256Init_stands _⟩
  rw [List.append_nil]
  exact sha256Update_stands sha256Init_stands _

theorem hmacSha256Update_stands {c : HmacSha256Ctx} {key text : List UInt8}
    (stands : c.Stands key text) (p : List UInt8) :
    (hmacSha256Update c p).Stands key (text ++ p) := by
  refine ⟨?_, stands.outer⟩
  rw [← List.append_assoc]
  exact sha256Update_stands stands.inner p

/-- `hmac_sha256_final` is the standard's MAC. -/
theorem hmacSha256Final_eq {c : HmacSha256Ctx} {key text : List UInt8}
    (stands : c.Stands key text) : hmacSha256Final c = Rfc7914.hmac key text := by
  unfold hmacSha256Final
  rw [sha256Final_eq (sha256Update_stands stands.outer _), sha256Final_eq stands.inner]
  rfl

end Sha256

namespace Kdf

open Sha256 (HmacSha256Ctx hmacSha256Init hmacSha256Update hmacSha256Final be32enc)
open Scrypt (Err xorBytes sizeMax peakBytes kdfScryptPeak kdfPeakCap)

theorem pbkdf2Turns_eq (pw salt : List UInt8) (i left done : Nat) :
    pbkdf2Turns (hmacSha256Init pw) left (Rfc7914.pseudorandom pw salt i done)
        (Rfc7914.folds pw salt i done) =
      Rfc7914.folds pw salt i (done + left) := by
  have next (u : List UInt8) : hmacSha256Final (hmacSha256Update (hmacSha256Init pw) u) =
      Rfc7914.hmac pw u :=
    Sha256.hmacSha256Final_eq
      (Sha256.hmacSha256Update_stands (Sha256.hmacSha256Init_stands pw) u)
  induction left generalizing done with
  | zero => rfl
  | succ left ih =>
      rw [pbkdf2Turns, next, ← Nat.add_assoc, Nat.add_right_comm]
      exact ih (done + 1)

theorem length_folds (pw salt : List UInt8) (i c : Nat) :
    (Rfc7914.folds pw salt i c).length = 32 := by
  have length (key text : List UInt8) : (Rfc7914.hmac key text).length = 32 := by
    rw [← Scrypt.hmacSha256_eq]
    exact Scrypt.length_hmacSha256 key text
  induction c with
  | zero => exact length _ _
  | succ c ih => exact Rfc7914.length_xor ih (length _ _)

/-- A block of the output. -/
theorem pbkdf2Block_eq (pw salt : List UInt8) (iters j : Nat) :
    (let h := if salt.length ≠ 0 then hmacSha256Update (hmacSha256Init pw) salt
      else hmacSha256Init pw
     let u := hmacSha256Final (hmacSha256Update h (be32enc (UInt32.ofNat (j + 1))))
     pbkdf2Turns (hmacSha256Init pw) (iters - 1) u u) =
      Rfc7914.folds pw salt (j + 1) (iters - 1) := by
  have salted : (if salt.length ≠ 0 then hmacSha256Update (hmacSha256Init pw) salt
      else hmacSha256Init pw).Stands pw salt := by
    split
    · exact Sha256.hmacSha256Update_stands (Sha256.hmacSha256Init_stands pw) salt
    · next empty =>
      rw [List.eq_nil_of_length_eq_zero (not_not.mp empty)]
      exact Sha256.hmacSha256Init_stands pw
  have counter : be32enc (UInt32.ofNat (j + 1)) = Fips180.bigEndian 4 (j + 1) := by
    have power : 256 ^ 4 = 2 ^ 32 := by decide
    rw [Sha256.be32enc_eq, UInt32.toNat_ofNat', ← power, Fips180.bigEndian_mod]
  have turns := pbkdf2Turns_eq pw salt (j + 1) (iters - 1) 0
  dsimp only
  rw [Sha256.hmacSha256Final_eq (Sha256.hmacSha256Update_stands salted _), counter]
  rw [Nat.zero_add] at turns
  exact turns

/-- The output from a block on. -/
theorem pbkdf2Blocks_eq (pw salt : List UInt8) (iters outlen left j : Nat)
    (count : (outlen + 31) / 32 = j + left) :
    pbkdf2Blocks (hmacSha256Init pw) salt iters outlen (UInt32.ofNat (j + 1))
        (min (32 * j) outlen) =
      ((List.range' j left).flatMap fun i => Rfc7914.folds pw salt (i + 1) (iters - 1)).take
        (outlen - 32 * j) := by
  induction left generalizing j with
  | zero =>
      rw [pbkdf2Blocks, if_neg (by omega), List.range'_zero, List.flatMap_nil, List.take_nil]
  | succ left ih =>
      have block := pbkdf2Block_eq pw salt iters j
      dsimp only at block
      have next : UInt32.ofNat (j + 1) + 1 = UInt32.ofNat (j + 1 + 1) :=
        (UInt32.ofNat_add (j + 1) 1).symm
      have more : min (32 * j) outlen < outlen := by omega
      rw [pbkdf2Blocks, if_pos more]
      dsimp only
      rw [block, next]
      generalize isNeed : (if outlen - min (32 * j) outlen > 32 then 32
        else outlen - min (32 * j) outlen) = need
      have done : min (32 * j) outlen + need = min (32 * (j + 1)) outlen := by
        split at isNeed <;> omega
      have rest := ih (j + 1) (by omega)
      rw [done, rest, List.range'_succ, List.flatMap_cons, List.take_append, length_folds]
      congr 1
      · rw [List.take_eq_take_iff, length_folds]
        split at isNeed <;> omega

/-- `kdf_pbkdf2_sha256` is the standard's. -/
theorem kdfPbkdf2Sha256_eq (pw salt : List UInt8) {iters outlen : Nat} (some : outlen ≠ 0)
    (turns : iters ≠ 0) (small : outlen < 2 ^ 32) :
    kdfPbkdf2Sha256 pw salt iters outlen = .ok (Rfc7914.pbkdf2 pw salt iters outlen) := by
  have blocks := pbkdf2Blocks_eq pw salt iters outlen ((outlen + 31) / 32) 0 (by omega)
  rw [Nat.mul_zero, Nat.zero_min, Nat.sub_zero, ← List.range_eq_range'] at blocks
  unfold kdfPbkdf2Sha256
  dsimp only
  rw [if_neg some, if_neg turns, if_neg (by split <;> omega)]
  exact congrArg Except.ok blocks

/-! ## The sizes -/

/-- The peak is the sum of the three areas, and a size. -/
theorem peakBytes_eq_some {n r p need : Nat} (peak : peakBytes n r p = some need) :
    2 ≤ n ∧ n &&& (n - 1) = 0 ∧ 0 < r ∧ 0 < p ∧
      need = n * (128 * r) + 2 * (128 * r) + p * (128 * r) ∧ need ≤ sizeMax := by
  unfold peakBytes at peak
  split_ifs at peak with c1 c2 c3 c4 c5 c6 c7 c8 c9
  cases peak
  rw [not_or, not_or] at c1
  have split : p * (128 * r) ≤ sizeMax := by
    rw [Nat.not_lt, Nat.le_div_iff_mul_le (by omega)] at c7
    exact c7
  exact ⟨by omega, not_not.mp c2, by omega, by omega, rfl, by omega⟩

/-- No product, sum or difference of `peak_bytes` wraps. -/
theorem peakBytesSized_eq (n r p : Nat) : peakBytesSized n r p = .ok (peakBytes n r p) := by
  unfold peakBytesSized peakBytes
  split
  · rfl
  next c1 =>
  split
  · rfl
  split
  · rfl
  split
  · rfl
  next c4 =>
  rw [not_or, not_or] at c1
  have blkPos : 0 < 128 * r := by omega
  have blkFits : 128 * r ≤ sizeMax := by
    rw [Nat.not_lt, Nat.le_div_iff_mul_le (by decide)] at c4
    omega
  have blk : sizeMul 128 r = .ok (128 * r) := if_pos blkFits
  rw [blk]
  generalize 128 * r = b at *
  change (if n > sizeMax / b then _ else _) = _
  split
  · rfl
  next c5 =>
  rw [Nat.not_lt, Nat.le_div_iff_mul_le blkPos] at c5
  have v : sizeMul n b = .ok (n * b) := if_pos c5
  rw [v]
  generalize n * b = nb at *
  change (if b > sizeMax / 2 then _ else _) = _
  split
  · rfl
  next c6 =>
  have xy : sizeMul 2 b = .ok (2 * b) := if_pos (by unfold sizeMax at *; omega)
  rw [xy]
  change (if p > sizeMax / b then _ else _) = _
  split
  · rfl
  next c7 =>
  rw [Nat.not_lt, Nat.le_div_iff_mul_le blkPos] at c7
  have blen : sizeMul p b = .ok (p * b) := if_pos c7
  rw [blen]
  generalize p * b = pb at *
  have room : sizeSub sizeMax (2 * b) = .ok (sizeMax - 2 * b) :=
    if_pos (by unfold sizeMax at *; omega)
  change (sizeSub sizeMax (2 * b)).bind _ = _
  rw [room]
  change (if nb > sizeMax - 2 * b then _ else _) = _
  split
  · rfl
  next c8 =>
  have total : sizeAdd nb (2 * b) = .ok (nb + 2 * b) := if_pos (by unfold sizeMax at *; omega)
  rw [total]
  have room' : sizeSub sizeMax pb = .ok (sizeMax - pb) := if_pos c7
  change (sizeSub sizeMax pb).bind _ = _
  rw [room']
  change (if nb + 2 * b > sizeMax - pb then _ else _) = _
  split
  · rfl
  next c9 =>
  have whole : sizeAdd (nb + 2 * b) pb = .ok (nb + 2 * b + pb) :=
    if_pos (by unfold sizeMax at *; omega)
  rw [whole]
  rfl

/-- The number that `kdf_scrypt` makes is a power of two of 32 bits. -/
theorem kdfScryptPeak_eq_some {log2n r p need : Nat}
    (peak : kdfScryptPeak log2n r p = some need) :
    log2n < 32 ∧ peakBytes (2 ^ log2n) r p = some need := by
  unfold kdfScryptPeak at peak
  split at peak
  · cases peak
  · next range => exact ⟨by omega, peak⟩

/-! ## The block mix in the buffer -/

theorem mixPlace_even (r i : Nat) : mixPlace r (2 * i) = i := by
  unfold mixPlace
  rw [Nat.and_one_is_mod, if_pos (by omega)]
  omega

theorem mixPlace_odd (r i : Nat) : mixPlace r (2 * i + 1) = r + i := by
  unfold mixPlace
  rw [Nat.and_one_is_mod, if_neg (by omega)]
  omega

theorem mixPlace_lt {r i : Nat} (inside : i < 2 * r) : mixPlace r i < 2 * r := by
  unfold mixPlace
  split <;> omega

/-- No two outputs go to one place. -/
theorem mixPlace_apart {r i j : Nat} (first : i < 2 * r) (second : j < 2 * r) (apart : i ≠ j) :
    mixPlace r i ≠ mixPlace r j := by
  unfold mixPlace
  rw [Nat.and_one_is_mod, Nat.and_one_is_mod]
  split <;> split <;> omega

/-- What the loop of `blockmix` keeps: the outputs are in their places, and nothing else
has changed. -/
structure MixingInv (m : BoundedMemory) (b : List UInt8) (dst r i : Nat) (s : Mixing) :
    Prop where
  size : s.m.size = m.size
  x : s.x = Scrypt.before b r i
  outputs : ∀ j < i, s.m.bytes.slice (dst + mixPlace r j * 64) 64 = Rfc7914.mixed b r j
  frame (k n : Nat) : k + n ≤ dst ∨ dst + 128 * r ≤ k →
    s.m.bytes.slice k n = m.bytes.slice k n

section BlockMix

variable {m : BoundedMemory} {src dst r : Nat}

theorem mixTurn_inv (inSrc : src + 128 * r ≤ m.size) (inDst : dst + 128 * r ≤ m.size)
    (apart : src + 128 * r ≤ dst ∨ dst + 128 * r ≤ src) {i : Nat} (turn : i < 2 * r)
    {s : Mixing} (inv : MixingInv m (m.bytes.slice src (128 * r)) dst r i s) :
    ∃ s', mixTurn src dst r i s = some s' ∧
      MixingInv m (m.bytes.slice src (128 * r)) dst r (i + 1) s' := by
  have place := mixPlace_lt turn
  have block : s.m.bytes.slice (src + i * 64) 64 =
      Scrypt.blockAt (m.bytes.slice src (128 * r)) i := by
    rw [inv.frame _ _ (by omega), Nat.mul_comm i]
    exact (ByteMap.slice_drop_take m.bytes src (by omega)).symm
  have output := Scrypt.mixed_eq (m.bytes.slice src (128 * r)) r i
  have length := Rfc7914.length_mixed (m.bytes.slice src (128 * r)) r i
  generalize Rfc7914.mixed (m.bytes.slice src (128 * r)) r i = y at output length
  obtain ⟨m', wrote, written⟩ := exists_write s.m (dst + mixPlace r i * 64) y
    (by rw [inv.size, length]; omega)
  refine ⟨⟨m', y⟩, ?_, written.size.trans inv.size, ?_, ?_, ?_⟩
  · have read : s.m.read (src + i * 64) 64 = some (s.m.bytes.slice (src + i * 64) 64) :=
      read_eq (by rw [inv.size]; omega)
    rw [block] at read
    unfold mixTurn
    rw [read, inv.x]
    simp only [Option.bind_eq_bind, Option.bind_some, ← output, wrote, Option.pure_def]
  · rw [output]
    exact (Scrypt.mixed_eq _ _ _).symm
  · intro j before
    rcases Nat.lt_succ_iff_lt_or_eq.mp before with earlier | rfl
    · have other := mixPlace_apart (r := r) (i := j) (j := i) (by omega) turn (by omega)
      rw [written.apart (by omega)]
      exact inv.outputs j earlier
    · have here := written.here
      rw [length] at here
      rw [here, output]
      exact (Scrypt.mixed_eq _ _ _).symm
  · intro k n outside
    rw [written.apart (by omega)]
    exact inv.frame k n outside

/-- `blockmix` puts the standard's mix of one place at the other. -/
theorem exists_blockmix (positive : 0 < r) (inSrc : src + 128 * r ≤ m.size)
    (inDst : dst + 128 * r ≤ m.size)
    (apart : src + 128 * r ≤ dst ∨ dst + 128 * r ≤ src) :
    ∃ m', blockmix m src dst r = some m' ∧
      m.Written dst (Rfc7914.blockMix (m.bytes.slice src (128 * r)) r) m' := by
  have last : m.bytes.slice (src + (2 * r - 1) * 64) 64 =
      Scrypt.before (m.bytes.slice src (128 * r)) r 0 := by
    rw [Nat.mul_comm _ 64]
    exact (ByteMap.slice_drop_take m.bytes src (by omega)).symm
  have start : MixingInv m (m.bytes.slice src (128 * r)) dst r 0
      ⟨m, m.bytes.slice (src + (2 * r - 1) * 64) 64⟩ :=
    ⟨rfl, last, by simp, fun _ _ _ => rfl⟩
  obtain ⟨s, ran, inv⟩ := exists_turns (mixTurn src dst r) (2 * r)
    (MixingInv m (m.bytes.slice src (128 * r)) dst r) start
    fun i turn s inv => mixTurn_inv inSrc inDst apart turn inv
  refine ⟨s.m, ?_, inv.size, ?_, ?_⟩
  · unfold blockmix
    rw [read_eq (by omega)]
    change (turns (mixTurn src dst r) (2 * r) _).bind _ = _
    rw [ran]
    rfl
  · have half : 128 * r = 64 * r + 64 * r := by omega
    have evens : (List.range r).flatMap (fun i => s.m.bytes.slice (dst + 64 * i) 64) =
        (List.range r).flatMap fun i =>
          Rfc7914.mixed (m.bytes.slice src (128 * r)) r (2 * i) := by
      apply List.flatMap_congr
      intro i member
      have small := List.mem_range.mp member
      have output := inv.outputs (2 * i) (by omega)
      rw [mixPlace_even, Nat.mul_comm i] at output
      exact output
    have odds : (List.range r).flatMap (fun i => s.m.bytes.slice (dst + 64 * r + 64 * i) 64) =
        (List.range r).flatMap fun i =>
          Rfc7914.mixed (m.bytes.slice src (128 * r)) r (2 * i + 1) := by
      apply List.flatMap_congr
      intro i member
      have small := List.mem_range.mp member
      have output := inv.outputs (2 * i + 1) (by omega)
      rw [mixPlace_odd, Nat.mul_comm (r + i), Nat.mul_add, ← Nat.add_assoc] at output
      exact output
    have whole : s.m.bytes.slice dst (128 * r) =
        Rfc7914.blockMix (m.bytes.slice src (128 * r)) r := by
      rw [half, ByteMap.slice_append, ByteMap.slice_flatMap, ByteMap.slice_flatMap, evens,
        odds, ← half]
      rfl
    rw [Rfc7914.length_blockMix]
    exact whole
  · intro k n outside
    rw [Rfc7914.length_blockMix] at outside
    exact inv.frame k n outside

end BlockMix

/-! ## The vector in the buffer -/

/-- The areas of `romix`, one after the other. -/
structure Layout (size b n r v xy : Nat) : Prop where
  positive : 0 < r
  vector : v + n * (128 * r) ≤ xy
  pair : xy + 2 * (128 * r) ≤ b
  inside : b + 128 * r ≤ size

/-- What the loops of `romix` keep, with `count` entries of the vector in and `x` in the
working block; nothing behind the pair has changed. -/
structure MixedInv (m : BoundedMemory) (b : List UInt8) (r v xy count : Nat)
    (x : List UInt8) (s : Mixed) : Prop where
  size : s.m.size = m.size
  halves : (s.p = xy ∧ s.q = xy + 128 * r) ∨ (s.p = xy + 128 * r ∧ s.q = xy)
  x : s.m.bytes.slice s.p (128 * r) = x
  entries : ∀ j < count,
    s.m.bytes.slice (v + j * (128 * r)) (128 * r) = Rfc7914.vector b r j
  frame (k n : Nat) : xy + 2 * (128 * r) ≤ k → s.m.bytes.slice k n = m.bytes.slice k n

section RoMix

variable {m : BoundedMemory} {b : List UInt8} {at_ n r v xy count : Nat} {x : List UInt8}
  {s : Mixed}

/-- An entry is before the next one, and before the end of the vector. -/
theorem entry_le {j count : Nat} (before : j < count) (blk : Nat) :
    j * blk + blk ≤ count * blk := by
  rw [← Nat.succ_mul]
  exact Nat.mul_le_mul_right blk before

theorem MixedInv.length (inv : MixedInv m b r v xy count x s) : x.length = 128 * r := by
  rw [← inv.x, ByteMap.slice_length]

/-- The working block written anew. -/
theorem MixedInv.exists_write (layout : Layout m.size at_ n r v xy) (upTo : count ≤ n)
    (inv : MixedInv m b r v xy count x s) {y : List UInt8} (length : y.length = 128 * r) :
    ∃ m', s.m.write s.p y = some m' ∧ MixedInv m b r v xy count y { s with m := m' } := by
  obtain ⟨-, vector, pair, inside⟩ := layout
  have halves := inv.halves
  obtain ⟨m', wrote, written⟩ := BoundedMemory.exists_write s.m s.p y
    (by rw [inv.size, length]; omega)
  have here := written.here
  rw [length] at here
  refine ⟨m', wrote, written.size.trans inv.size, halves, here, ?_, ?_⟩
  · intro j before
    have entry := entry_le before (128 * r)
    have last := Nat.mul_le_mul_right (128 * r) upTo
    rw [written.apart (by omega)]
    exact inv.entries j before
  · intro k n behind
    rw [written.apart (by omega)]
    exact inv.frame k n behind

/-- The block mix into the other block, which is then the working one. -/
theorem MixedInv.exists_blockmix (layout : Layout m.size at_ n r v xy) (upTo : count ≤ n)
    (inv : MixedInv m b r v xy count x s) :
    ∃ m', blockmix s.m s.p s.q r = some m' ∧
      MixedInv m b r v xy count (Rfc7914.blockMix x r) ⟨m', s.q, s.p⟩ := by
  obtain ⟨positive, vector, pair, inside⟩ := layout
  have halves := inv.halves
  have size := inv.size
  have inSrc : s.p + 128 * r ≤ s.m.size := by omega
  have inDst : s.q + 128 * r ≤ s.m.size := by omega
  obtain ⟨m', ran, written⟩ := Kdf.exists_blockmix positive inSrc inDst (by omega)
  have here := written.here
  have frame {k n : Nat} : k + n ≤ s.q ∨ s.q + _ ≤ k →
      m'.bytes.slice k n = s.m.bytes.slice k n := written.apart
  rw [Rfc7914.length_blockMix] at here frame
  rw [inv.x] at here
  refine ⟨m', ran, written.size.trans inv.size, halves.symm.imp And.symm And.symm, here, ?_, ?_⟩
  · intro j before
    have entry := entry_le before (128 * r)
    have last := Nat.mul_le_mul_right (128 * r) upTo
    rw [frame (by omega)]
    exact inv.entries j before
  · intro k n behind
    rw [frame (by omega)]
    exact inv.frame k n behind

/-- The working block is read. -/
theorem MixedInv.read (layout : Layout m.size at_ n r v xy)
    (inv : MixedInv m b r v xy count x s) : s.m.read s.p (128 * r) = some x := by
  obtain ⟨-, -, pair, inside⟩ := layout
  have halves := inv.halves
  rw [read_eq (by rw [inv.size]; omega), inv.x]

/-- A turn of the first loop puts an entry in. -/
theorem fillTurn_inv (layout : Layout m.size at_ n r v xy) {i : Nat} (turn : i < n)
    (inv : MixedInv m b r v xy i (Rfc7914.vector b r i) s) :
    ∃ s', fillTurn v r i s = some s' ∧
      MixedInv m b r v xy (i + 1) (Rfc7914.vector b r (i + 1)) s' := by
  have entry := entry_le turn (128 * r)
  have length := inv.length
  have halves := inv.halves
  have vector := layout.vector
  have pair := layout.pair
  have inside := layout.inside
  obtain ⟨m₁, wrote, written⟩ := BoundedMemory.exists_write s.m
    (v + i * (128 * r)) (Rfc7914.vector b r i) (by rw [inv.size, length]; omega)
  have inv₁ : MixedInv m b r v xy (i + 1) (Rfc7914.vector b r i) { s with m := m₁ } := by
    refine ⟨written.size.trans inv.size, halves, ?_, ?_, ?_⟩
    · change m₁.bytes.slice s.p (128 * r) = _
      rw [written.apart (by omega)]
      exact inv.x
    · intro j before
      rcases Nat.lt_succ_iff_lt_or_eq.mp before with earlier | rfl
      · have first := entry_le earlier (128 * r)
        rw [written.apart (by omega)]
        exact inv.entries j earlier
      · have here := written.here
        rw [length] at here
        exact here
    · intro k n behind
      rw [written.apart (by omega)]
      exact inv.frame k n behind
  obtain ⟨m₂, ran, inv₂⟩ := inv₁.exists_blockmix layout turn
  refine ⟨⟨m₂, s.q, s.p⟩, ?_, inv₂⟩
  unfold fillTurn
  rw [inv.read layout]
  simp only [Option.bind_eq_bind, Option.bind_some, wrote, ran, Option.pure_def]

/-- A turn of the second loop mixes an entry in. -/
theorem stirTurn_inv {k : Nat} (layout : Layout m.size at_ (2 ^ k) r v xy) (small : k < 32)
    {t : Nat} (inv : MixedInv m b r v xy (2 ^ k) (Rfc7914.stirred b (2 ^ k) r t) s) :
    ∃ s', stirTurn v (2 ^ k) r s = some s' ∧
      MixedInv m b r v xy (2 ^ k) (Rfc7914.stirred b (2 ^ k) r (t + 1)) s' := by
  have positive := layout.positive
  have halves := inv.halves
  have vector := layout.vector
  have pair := layout.pair
  have inside := layout.inside
  have length := inv.length
  generalize isX : Rfc7914.stirred b (2 ^ k) r t = x at inv length
  have index : integerifyMod s.m s.p r (2 ^ k) = some (Rfc7914.integerify x r % 2 ^ k) := by
    have head : ((s.m.bytes.slice (s.p + 64 * (2 * r - 1)) 64).drop 0).take 4 =
        s.m.bytes.slice (s.p + 64 * (2 * r - 1) + 0) 4 :=
      ByteMap.slice_drop_take s.m.bytes _ (by decide)
    have four : s.m.bytes.slice (s.p + (2 * r - 1) * 64) 4 =
        (Scrypt.blockAt x (2 * r - 1)).take 4 := by
      unfold Scrypt.blockAt
      rw [← inv.x, Nat.mul_comm _ 64, ByteMap.slice_drop_take _ _ (by omega)]
      exact head.symm
    have word (p : List UInt8) : Scrypt.le32dec (p.take 4) = Scrypt.le32dec p := by
      rw [Scrypt.le32dec_eq, Scrypt.le32dec_eq, List.take_take]
      rfl
    rw [← Scrypt.integerifyMod_eq x r small]
    unfold integerifyMod Scrypt.integerifyMod
    rw [read_eq (by rw [inv.size]; omega), four]
    simp only [Option.bind_eq_bind, Option.bind_some, word, Option.pure_def]
  have jSmall : Rfc7914.integerify x r % 2 ^ k < 2 ^ k := Nat.mod_lt _ (Nat.two_pow_pos k)
  have next : Rfc7914.stirred b (2 ^ k) r (t + 1) =
      Rfc7914.blockMix (Rfc7914.xor x (Rfc7914.vector b r (Rfc7914.integerify x r % 2 ^ k))) r := by
    rw [← isX]
    rfl
  generalize Rfc7914.integerify x r % 2 ^ k = j at index jSmall next
  have entry := entry_le jSmall (128 * r)
  have isEntry := inv.entries j jSmall
  have readEntry : s.m.read (v + j * (128 * r)) (128 * r) = some (Rfc7914.vector b r j) := by
    rw [read_eq (by rw [inv.size]; omega), isEntry]
  have entryLength : (Rfc7914.vector b r j).length = 128 * r := by
    rw [← isEntry, ByteMap.slice_length]
  obtain ⟨m₁, wrote, inv₁⟩ := inv.exists_write layout (le_refl _)
    (Rfc7914.length_xor length entryLength)
  obtain ⟨m₂, ran, inv₂⟩ := inv₁.exists_blockmix layout (le_refl _)
  refine ⟨⟨m₂, s.q, s.p⟩, ?_, by rw [next]; exact inv₂⟩
  rw [← Scrypt.xorBytes_eq] at wrote
  unfold stirTurn
  rw [index]
  simp only [Option.bind_eq_bind, Option.bind_some, readEntry, inv.read layout, wrote, ran,
    Option.pure_def]

/-- `romix` leaves the standard's mix of a block in its place, and the blocks around it as
they were. -/
theorem exists_romix {k : Nat} (layout : Layout m.size at_ (2 ^ k) r v xy) (small : k < 32) :
    ∃ m', romix m at_ (2 ^ k) r v xy = some m' ∧ m'.size = m.size ∧
      m'.bytes.slice at_ (128 * r) =
        Rfc7914.roMix (m.bytes.slice at_ (128 * r)) (2 ^ k) r ∧
      ∀ j c, xy + 2 * (128 * r) ≤ j → j + c ≤ at_ ∨ at_ + 128 * r ≤ j →
        m'.bytes.slice j c = m.bytes.slice j c := by
  have vector := layout.vector
  have pair := layout.pair
  have inside := layout.inside
  have length : (m.bytes.slice at_ (128 * r)).length = 128 * r := ByteMap.slice_length _ _ _
  have readBlock : m.read at_ (128 * r) = some (m.bytes.slice at_ (128 * r)) :=
    read_eq inside
  generalize isB : m.bytes.slice at_ (128 * r) = b at length readBlock
  obtain ⟨m₀, wrote, written⟩ := BoundedMemory.exists_write m xy b
    (by rw [length]; omega)
  have start : MixedInv m b r v xy 0 (Rfc7914.vector b r 0) ⟨m₀, xy, xy + 128 * r⟩ := by
    have here := written.here
    rw [length] at here
    refine ⟨written.size, .inl ⟨rfl, rfl⟩, here, by simp, ?_⟩
    intro k n behind
    exact written.apart (by omega)
  obtain ⟨s₁, filled, inv₁⟩ := exists_turns (fillTurn v r) (2 ^ k)
    (fun i => MixedInv m b r v xy i (Rfc7914.vector b r i)) start
    fun i turn s inv => fillTurn_inv layout turn inv
  obtain ⟨s₂, stirred, inv₂⟩ := exists_turns (fun _ => stirTurn v (2 ^ k) r)
    (2 ^ k) (fun t => MixedInv m b r v xy (2 ^ k) (Rfc7914.stirred b (2 ^ k) r t))
    inv₁ fun t _ s inv => stirTurn_inv layout small inv
  have mixed : (Rfc7914.roMix b (2 ^ k) r).length = 128 * r := inv₂.length
  obtain ⟨m₃, wroteBack, written₃⟩ := BoundedMemory.exists_write s₂.m at_
    (Rfc7914.roMix b (2 ^ k) r) (by rw [inv₂.size, mixed]; exact inside)
  have here := written₃.here
  rw [mixed] at here
  refine ⟨m₃, ?_, written₃.size.trans inv₂.size, here, ?_⟩
  · have readBack : s₂.m.read s₂.p (128 * r) = some (Rfc7914.roMix b (2 ^ k) r) :=
      inv₂.read layout
    unfold romix
    rw [readBlock]
    simp only [Option.bind_eq_bind, Option.bind_some, wrote, filled, stirred, readBack,
      wroteBack]
  · intro j c behind outside
    rw [written₃.apart (by omega)]
    exact inv₂.frame j c behind

end RoMix

/-! ## The hash in the buffer -/

/-- What the loop over the blocks keeps. -/
structure WorkInv (size b r : Nat) (bs : List UInt8) (n p i : Nat) (m : BoundedMemory) :
    Prop where
  size : m.size = size
  blocks : ∀ j < p, m.bytes.slice (b + j * (128 * r)) (128 * r) =
    if j < i then Rfc7914.roMix ((bs.drop (j * (128 * r))).take (128 * r)) n r
    else (bs.drop (j * (128 * r))).take (128 * r)

/-- The loop mixes every block in its place. -/
theorem exists_mixBlocks {m : BoundedMemory} {r p k b : Nat} {bs : List UInt8}
    (positive : 0 < r) (small : k < 32) (place : b = 2 ^ k * (128 * r) + 2 * (128 * r))
    (inside : b + p * (128 * r) ≤ m.size)
    (held : m.bytes.slice b (p * (128 * r)) = bs) :
    ∃ m', turns (fun i m => romix m (b + i * (128 * r)) (2 ^ k) r 0 (2 ^ k * (128 * r))) p m =
        some m' ∧ m'.size = m.size ∧
      m'.bytes.slice b (p * (128 * r)) = (List.range p).flatMap fun i =>
        Rfc7914.roMix ((bs.drop (i * (128 * r))).take (128 * r)) (2 ^ k) r := by
  have start : WorkInv m.size b r bs (2 ^ k) p 0 m := by
    refine ⟨rfl, fun j before => ?_⟩
    have entry := entry_le before (128 * r)
    rw [if_neg (Nat.not_lt_zero j), ← held, ByteMap.slice_drop_take _ _ entry]
  obtain ⟨m', ran, inv⟩ := exists_turns
    (fun i m => romix m (b + i * (128 * r)) (2 ^ k) r 0 (2 ^ k * (128 * r)))
    p (WorkInv m.size b r bs (2 ^ k) p) start (by
      intro i turn s inv
      have entry := entry_le turn (128 * r)
      have layout : Layout s.size (b + i * (128 * r)) (2 ^ k) r 0 (2 ^ k * (128 * r)) :=
        ⟨positive, by omega, by omega, by rw [inv.size]; omega⟩
      obtain ⟨s', mixed, size, here, apart⟩ := exists_romix layout small
      refine ⟨s', mixed, size.trans inv.size, fun j before => ?_⟩
      rcases Nat.lt_trichotomy j i with earlier | rfl | later
      · have first := entry_le earlier (128 * r)
        rw [apart _ _ (by omega) (by omega), inv.blocks j before, if_pos earlier,
          if_pos (Nat.lt_succ_of_lt earlier)]
      · rw [here, inv.blocks j before, if_neg (Nat.lt_irrefl j), if_pos (Nat.lt_succ_self j)]
      · have first := entry_le later (128 * r)
        rw [apart _ _ (by omega) (by omega), inv.blocks j before, if_neg (by omega),
          if_neg (by omega)])
  refine ⟨m', ran, inv.size, ?_⟩
  rw [Nat.mul_comm p, ByteMap.slice_flatMap]
  apply List.flatMap_congr
  intro i member
  have before := List.mem_range.mp member
  have block := inv.blocks i before
  rw [if_pos before] at block
  rw [Nat.mul_comm _ i]
  exact block

theorem exists_wipeWork {m : BoundedMemory} {n r p : Nat}
    (size : m.size = n * (128 * r) + 2 * (128 * r) + p * (128 * r)) :
    ∃ m', wipeWork m n r p = some m' := by
  obtain ⟨m₁, wrote₁, written₁⟩ := BoundedMemory.exists_write m (n * (128 * r))
    (List.replicate (2 * (128 * r)) 0) (by rw [List.length_replicate]; omega)
  obtain ⟨m₂, wrote₂, written₂⟩ := BoundedMemory.exists_write m₁
    (n * (128 * r) + 2 * (128 * r)) (List.replicate (p * (128 * r)) 0)
    (by rw [List.length_replicate, written₁.size]; omega)
  obtain ⟨m₃, wrote₃, -⟩ := BoundedMemory.exists_write m₂ 0
    (List.replicate (n * (128 * r)) 0)
    (by rw [List.length_replicate, written₂.size, written₁.size]; omega)
  refine ⟨m₃, ?_⟩
  unfold wipeWork
  simp only [Option.bind_eq_bind, Option.bind_some, wrote₁, wrote₂, wrote₃]

/-- The work on a buffer of the peak is scrypt. -/
theorem scryptWork_eq {m : BoundedMemory} (pw salt : List UInt8) {k r p outlen : Nat}
    (small : k < 32) (peak : peakBytes (2 ^ k) r p = some m.size) (some_ : outlen ≠ 0)
    (fits : outlen < 2 ^ 32) :
    scryptWork m pw salt (2 ^ k) r p outlen =
      some (.ok (Rfc7914.scrypt pw salt (2 ^ k) r p outlen)) := by
  obtain ⟨-, -, rPos, pPos, size, bound⟩ := peakBytes_eq_some peak
  have blen : p * (128 * r) ≠ 0 := Nat.mul_ne_zero (by omega) (by omega)
  have first := kdfPbkdf2Sha256_eq pw salt blen (by decide : 1 ≠ 0)
    (by unfold sizeMax at bound; omega)
  have last (bs : List UInt8) := kdfPbkdf2Sha256_eq pw bs some_ (by decide : 1 ≠ 0) fits
  have length : (Rfc7914.pbkdf2 pw salt 1 (p * (128 * r))).length = p * (128 * r) := by
    rw [← Scrypt.pbkdf2_eq]
    exact Scrypt.length_pbkdf2 _ _ _ _
  unfold Rfc7914.scrypt
  dsimp only
  generalize Rfc7914.pbkdf2 pw salt 1 (p * (128 * r)) = bs at first length
  obtain ⟨m₁, wrote, written⟩ := BoundedMemory.exists_write m
    (2 ^ k * (128 * r) + 2 * (128 * r)) bs (by rw [length]; omega)
  have here := written.here
  rw [length] at here
  obtain ⟨m₂, ran, size₂, mixed⟩ := exists_mixBlocks rPos small rfl
    (by rw [written.size]; omega) here
  have size₂' : m₂.size = 2 ^ k * (128 * r) + 2 * (128 * r) + p * (128 * r) := by
    rw [size₂, written.size]
    exact size
  obtain ⟨m₃, wiped⟩ := exists_wipeWork size₂'
  have read : m₂.read (2 ^ k * (128 * r) + 2 * (128 * r)) (p * (128 * r)) =
      some ((List.range p).flatMap fun i =>
        Rfc7914.roMix ((bs.drop (i * (128 * r))).take (128 * r)) (2 ^ k) r) := by
    rw [read_eq (by rw [size₂, written.size]; omega), mixed]
  unfold scryptWork
  dsimp only
  rw [first]
  simp only [Option.bind_eq_bind, Option.bind_some, wrote, ran, read, wiped, last,
    Option.pure_def]

/-- `kdf_scrypt_raw` on parameters that it takes. -/
theorem kdfScryptRaw_eq (malloc : Nat → Option ByteMap) (pw salt : List UInt8)
    {k r p outlen need : Nat} (small : k < 32) (peak : peakBytes (2 ^ k) r p = some need)
    (few : r * p < 2 ^ 30) (some_ : outlen ≠ 0) (fits : outlen < 2 ^ 32) :
    kdfScryptRaw malloc pw salt (2 ^ k) r p outlen =
      match malloc need with
      | none => ⟨some need, some (.error .nomem)⟩
      | some _ => ⟨some need, some (.ok (Rfc7914.scrypt pw salt (2 ^ k) r p outlen))⟩ := by
  obtain ⟨two, power, rPos, pPos, -, -⟩ := peakBytes_eq_some peak
  unfold kdfScryptRaw
  rw [if_neg some_, if_neg (by omega), if_neg (by rw [not_or, not_not]; exact ⟨by omega, power⟩),
    if_neg (Nat.not_le.mpr few), peak]
  dsimp only
  cases malloc need with
  | none => rfl
  | some junk =>
      dsimp only
      rw [scryptWork_eq (m := ⟨need, junk⟩) pw salt small peak some_ fits]

/-- Parameters below the cap are few enough. -/
theorem mul_lt_of_peak {n r p need : Nat} (peak : peakBytes n r p = some need)
    (capped : need ≤ kdfPeakCap) : r * p < 2 ^ 30 := by
  obtain ⟨-, -, -, -, size, -⟩ := peakBytes_eq_some peak
  have area : p * (128 * r) = 128 * (r * p) := by
    rw [Nat.mul_left_comm, Nat.mul_comm p]
  unfold kdfPeakCap at capped
  omega

/-- What `kdf_scrypt` asks for and returns: without a peak below the cap, nothing. -/
theorem kdfScrypt_eq (malloc : Nat → Option ByteMap) (pw salt : List UInt8) (log2n : UInt8)
    (r p : UInt16) :
    kdfScrypt malloc pw salt log2n r p =
      match kdfScryptPeak log2n.toNat r.toNat p.toNat with
      | none => ⟨none, some (.error .inval)⟩
      | some peak =>
          if peak > kdfPeakCap then ⟨none, some (.error .inval)⟩
          else
            match malloc peak with
            | none => ⟨some peak, some (.error .nomem)⟩
            | some _ => ⟨some peak,
                some (.ok (Rfc7914.scrypt pw salt (2 ^ log2n.toNat) r.toNat p.toNat 32))⟩ := by
  unfold kdfScrypt
  cases peak : kdfScryptPeak log2n.toNat r.toNat p.toNat with
  | none => rfl
  | some need =>
      dsimp only
      split
      · rfl
      · next capped =>
        obtain ⟨small, bytes⟩ := kdfScryptPeak_eq_some peak
        exact kdfScryptRaw_eq malloc pw salt small bytes
          (mul_lt_of_peak bytes (Nat.le_of_not_lt capped)) (by decide) (by decide)

/-- The hash without its memory comes to the same. -/
theorem kdfScrypt_model (malloc : Nat → Option ByteMap) (pw salt : List UInt8)
    (log2n : UInt8) (r p : UInt16) :
    (kdfScrypt malloc pw salt log2n r p).result =
      some (Scrypt.kdfScrypt (fun k => (malloc k).isSome) pw salt log2n.toNat r.toNat
        p.toNat) := by
  rw [kdfScrypt_eq]
  unfold Scrypt.kdfScrypt
  cases peak : kdfScryptPeak log2n.toNat r.toNat p.toNat with
  | none => rfl
  | some need =>
      dsimp only
      split
      · rfl
      · next capped =>
        obtain ⟨small, bytes⟩ := kdfScryptPeak_eq_some peak
        obtain ⟨two, power, rPos, pPos, -, -⟩ := peakBytes_eq_some bytes
        have few := mul_lt_of_peak bytes (Nat.le_of_not_lt capped)
        unfold Scrypt.kdfScryptRaw
        rw [if_neg (by decide), if_neg (by omega),
          if_neg (by rw [not_or, not_not]; exact ⟨by omega, power⟩),
          if_neg (Nat.not_le.mpr few), bytes]
        dsimp only
        by_cases given : (malloc need).isSome = true
        · obtain ⟨junk, isJunk⟩ := Option.isSome_iff_exists.mp given
          rw [if_pos given, isJunk, Scrypt.scrypt_eq _ _ _ _ _ small]
        · rw [if_neg given, Option.not_isSome_iff_eq_none.mp given]

/-- A run of `kdf_scrypt`. -/
structure ScryptExact (malloc : Nat → Option ByteMap) (pw salt : List UInt8)
    (log2n : UInt8) (r p : UInt16) (run : ScryptRun) : Prop where
  inside : run.result ≠ none
  standard (key : List UInt8) : run.result = some (.ok key) →
    key = Rfc7914.scrypt pw salt (2 ^ log2n.toNat) r.toNat p.toNat 32
  asked (need : Nat) : run.asked = some need →
    kdfScryptPeak log2n.toNat r.toNat p.toNat = some need ∧ need ≤ kdfPeakCap
  accepted (need : Nat) : kdfScryptPeak log2n.toNat r.toNat p.toNat = some need →
    need ≤ kdfPeakCap → malloc need ≠ none → ∃ key, run.result = some (.ok key)
  model : run.result =
    some (Scrypt.kdfScrypt (fun k => (malloc k).isSome) pw salt log2n.toNat r.toNat p.toNat)

/-- `kdf_scrypt` on every input, and its sizes on every triple of parameters. -/
structure KdfExact : Prop where
  run (malloc : Nat → Option ByteMap) (pw salt : List UInt8) (log2n : UInt8) (r p : UInt16) :
    ScryptExact malloc pw salt log2n r p (kdfScrypt malloc pw salt log2n r p)
  sized (n r p : Nat) : peakBytesSized n r p = .ok (peakBytes n r p)
  peak (n r p need : Nat) : peakBytes n r p = some need →
    need = n * (128 * r) + 2 * (128 * r) + p * (128 * r) ∧ need ≤ sizeMax

/-- The password hash is the standard's within its cap. -/
theorem kdfExact : KdfExact where
  run malloc pw salt log2n r p := by
    refine ⟨?_, ?_, ?_, ?_, kdfScrypt_model malloc pw salt log2n r p⟩
    · rw [kdfScrypt_model]
      exact Option.some_ne_none _
    all_goals rw [kdfScrypt_eq]
    · intro key derived
      split at derived
      · cases derived
      · split at derived
        · cases derived
        · split at derived
          · cases derived
          · cases derived
            rfl
    · intro need asked
      split at asked
      · cases asked
      · next peak isPeak =>
        split at asked
        · cases asked
        · next capped =>
          have same : peak = need := by
            split at asked <;> exact Option.some.inj asked
          rw [← same]
          exact ⟨isPeak, Nat.le_of_not_lt capped⟩
    · intro need isPeak capped given
      obtain ⟨junk, isJunk⟩ := Option.ne_none_iff_exists'.mp given
      rw [isPeak]
      dsimp only
      rw [if_neg (Nat.not_lt.mpr capped), isJunk]
      exact ⟨_, rfl⟩
  sized := peakBytesSized_eq
  peak _ _ _ _ isPeak := (peakBytes_eq_some isPeak).2.2.2.2

end Kdf

end RlxFw
