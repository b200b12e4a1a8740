import RlxFw.BlockHash
import RlxFw.Sha256b

/-!
# SHA-256 of a whole message

The digest as the standard states it: a message is padded once and folded block
by block.  The incremental `sha256b` comes to the same.
-/

namespace RlxFw.Sha256b

/-- What is appended to a message of `n` bytes: a one bit, zeros, and the number
of bits. -/
def padding (n : Nat) : List UInt8 :=
  [0x80] ++ List.replicate ((119 - n % 64) % 64) 0 ++
    wordBytes (UInt32.ofNat (8 * n / 2 ^ 32)) ++ wordBytes (UInt32.ofNat (8 * n))

/-- Blocks folded into the chaining words. -/
def compress : Nat → Words → List UInt8 → Words
  | 0, h, _ => h
  | count + 1, h, p => compress count (block h (p.take 64)) (p.drop 64)

/-- SHA-256. -/
def sha256 (message : List UInt8) : List UInt8 :=
  let padded := message ++ padding message.length
  digest (compress (padded.length / 64) init.h padded)

theorem compress_eq_folded (count : Nat) (h : Words) (p : List UInt8) :
    compress count h p = BlockHash.folded block 64 count h p := by
  induction count generalizing h p with
  | zero => rfl
  | succ count ih => exact ih _ _

theorem compress_add (j k : Nat) (h : Words) (p : List UInt8) :
    compress (j + k) h p = compress k (compress j h p) (p.drop (64 * j)) := by
  simp only [compress_eq_folded]
  exact BlockHash.folded_add j k h p

/-- Only the blocks that are folded matter. -/
theorem compress_append {j : Nat} {h : Words} {p : List UInt8} (t : List UInt8)
    (long : 64 * j ≤ p.length) : compress j h (p ++ t) = compress j h p := by
  simp only [compress_eq_folded]
  exact BlockHash.folded_append t long

/-- The loop folds every whole block and keeps the rest. -/
theorem blocks_eq {rounds : Nat} {h : Words} {p : List UInt8}
    (enough : p.length / 64 ≤ rounds) :
    blocks rounds h p =
      (compress (p.length / 64) h p, p.drop (64 * (p.length / 64))) := by
  induction rounds generalizing h p with
  | zero =>
      have none : p.length / 64 = 0 := by omega
      rw [none]
      rfl
  | succ rounds ih =>
      rw [blocks]
      split
      next short =>
        have none : p.length / 64 = 0 := Nat.div_eq_of_lt short
        rw [none]
        rfl
      next long =>
        have count : p.length / 64 = (p.drop 64).length / 64 + 1 := by
          rw [List.length_drop]
          omega
        rw [ih (by omega), count, compress, List.drop_drop]
        congr 2
        omega

theorem length_padding (n : Nat) : (padding n).length = (119 - n % 64) % 64 + 9 := by
  simp [padding]

/-- What the incremental digest holds when the message is in. -/
theorem update_init (m : List UInt8) :
    update init m =
      { addbits init (UInt32.ofNat m.length) with
        h := compress (m.length / 64) init.h m
        buf := m.drop (64 * (m.length / 64)) } := by
  have fed := blocks_eq (h := init.h) (p := m)
    (Nat.div_le_self m.length 64)
  unfold update feed
  dsimp only
  rw [if_neg (by simp [addbits, init])]
  rw [show (addbits init (UInt32.ofNat m.length)).h = init.h from rfl, fed]
  rfl

theorem addbits_init {n : Nat} (small : n < 2 ^ 32) :
    (addbits init (UInt32.ofNat n)).nbitsHi = UInt32.ofNat (8 * n / 2 ^ 32) ∧
      (addbits init (UInt32.ofNat n)).nbitsLo = UInt32.ofNat (8 * n) := by
  have low : UInt32.ofNat n <<< 3 = UInt32.ofNat (8 * n) := by
    apply UInt32.toNat.inj
    rw [UInt32.toNat_shiftLeft, UInt32.toNat_ofNat', UInt32.toNat_ofNat',
      Nat.mod_eq_of_lt small, Nat.shiftLeft_eq]
    change n * 2 ^ 3 % 2 ^ 32 = _
    omega
  have high : UInt32.ofNat n >>> 29 = UInt32.ofNat (8 * n / 2 ^ 32) := by
    apply UInt32.toNat.inj
    rw [UInt32.toNat_shiftRight, UInt32.toNat_ofNat', UInt32.toNat_ofNat',
      Nat.mod_eq_of_lt small, Nat.shiftRight_eq_div_pow]
    change n / 2 ^ 29 = _
    omega
  unfold addbits init
  dsimp only
  rw [low, high]
  simp

/-- What is padded is what was held, with the standard's padding. -/
theorem pad_eq {m : List UInt8} (small : m.length < 2 ^ 32) :
    pad (update init m) = (m ++ padding m.length).drop (64 * (m.length / 64)) := by
  obtain ⟨high, low⟩ := addbits_init small
  have held : (m.drop (64 * (m.length / 64))).length = m.length % 64 := by
    rw [List.length_drop]
    omega
  have zeros : paddedLength (update init m) - 8 - (m.length % 64 + 1) =
      (119 - m.length % 64) % 64 := by
    rw [update_init]
    unfold paddedLength
    dsimp only
    rw [held]
    split <;> omega
  rw [List.drop_append_of_le_length (by omega)]
  unfold pad
  rw [update_init] at zeros ⊢
  dsimp only at zeros ⊢
  rw [held, zeros, high, low]
  simp [padding]

theorem length_padded (m : List UInt8) :
    (m ++ padding m.length).length =
      64 * (m.length / 64) + paddedLength (update init m) := by
  have held : (m.drop (64 * (m.length / 64))).length = m.length % 64 := by
    rw [List.length_drop]
    omega
  rw [List.length_append, length_padding, update_init]
  unfold paddedLength
  dsimp only
  rw [held]
  split <;> omega

/-- The incremental digest is SHA-256. -/
theorem sha256b_eq_sha256 {m : List UInt8} (small : m.length < 2 ^ 32) :
    sha256b m = sha256 m := by
  have isPad := pad_eq small
  have total := length_padded m
  have first : (update init m).h =
      compress (m.length / 64) init.h (m ++ padding m.length) := by
    rw [compress_append _ (by omega), update_init]
  unfold sha256b sha256 final
  dsimp only
  rw [isPad, first, total]
  unfold paddedLength at *
  split at total
  next one =>
    rw [if_pos one, if_neg (by decide), show
      (64 * (m.length / 64) + 64) / 64 = m.length / 64 + 1 by omega, compress_add]
    rfl
  next two =>
    rw [if_neg two, if_pos rfl, show
      (64 * (m.length / 64) + 128) / 64 = m.length / 64 + 2 by omega, compress_add]
    rw [List.drop_drop]
    have short : (((m ++ padding m.length).drop (64 * (m.length / 64))).drop 64).length = 64 := by
      rw [List.length_drop, List.length_drop]
      omega
    rw [compress, compress, compress, List.drop_drop]
    rw [List.drop_drop] at short
    rw [List.take_of_length_le (Nat.le_of_eq short)]

end RlxFw.Sha256b
