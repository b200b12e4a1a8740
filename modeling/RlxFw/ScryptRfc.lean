import RlxFw.Rfc7914
import RlxFw.Scrypt
import RlxFw.Sha256Agreement
import Mathlib.Algebra.Group.Basic
import Mathlib.Data.Fintype.Basic
import Mathlib.Tactic.FinCases

/-!
# The password hash is scrypt

The computation of `kdf_scrypt_raw` against the standard, part by part: the digest,
PBKDF2, the Salsa core, the block mix that writes its outputs in place and the mask
that stands for a modulus.
-/

namespace RlxFw

/-! ## PBKDF2 -/

theorem Sha256b.padding_eq (n : Nat) : padding n = Fips180.padding n := by
  have count : wordBytes (UInt32.ofNat (8 * n / 2 ^ 32)) ++ wordBytes (UInt32.ofNat (8 * n)) =
      Fips180.bigEndian 8 (8 * n) := by
    have power : 256 ^ 4 = 2 ^ 32 := by decide
    have written (k : Nat) : wordBytes (UInt32.ofNat k) = Fips180.bigEndian 4 k := by
      rw [wordBytes_eq, UInt32.toNat_ofNat', ← power, Fips180.bigEndian_mod]
    rw [written, written, Fips180.bigEndian_add 4 4, power]
  unfold padding Fips180.padding Fips180.zeros
  rw [List.append_assoc, count]
  rfl

/-- The digest of the model is the standard's. -/
theorem Sha256b.sha256_eq (m : List UInt8) : sha256 m = Fips180.sha256 m := by
  unfold sha256 Fips180.sha256
  dsimp only
  rw [padding_eq, digest_eq, compress_eq_folded,
    BlockHash.folded_map (fun h _ => block_hash h) (Nat.mul_div_le _ 64), init_hash]

namespace Scrypt

theorem xorBytes_eq (a b : List UInt8) : xorBytes a b = Rfc7914.xor a b := rfl

theorem hmacSha256_eq (key p : List UInt8) : hmacSha256 key p = Rfc7914.hmac key p := by
  unfold hmacSha256 Rfc7914.hmac
  simp only [Sha256b.sha256_eq]

theorem pbkdf2Turns_eq (pw salt : List UInt8) (i left done : Nat) :
    pbkdf2Turns pw left (Rfc7914.pseudorandom pw salt i done) (Rfc7914.folds pw salt i done) =
      Rfc7914.folds pw salt i (done + left) := by
  induction left generalizing done with
  | zero => rfl
  | succ left ih =>
      rw [pbkdf2Turns, hmacSha256_eq, ← Nat.add_assoc, Nat.add_right_comm]
      exact ih (done + 1)

theorem putBe32_eq (i : Nat) : Tlv.putBe32 i = Fips180.bigEndian 4 i := by
  simp [Tlv.putBe32, Fips180.bigEndian, Nat.div_div_eq_div_mul]

theorem pbkdf2_eq (pw salt : List UInt8) (iters outlen : Nat) :
    pbkdf2 pw salt iters outlen = Rfc7914.pbkdf2 pw salt iters outlen := by
  have block (i : Nat) : pbkdf2Block pw salt iters i =
      Rfc7914.folds pw salt i (iters - 1) := by
    have turns := pbkdf2Turns_eq pw salt i (iters - 1) 0
    rw [Nat.zero_add] at turns
    rw [pbkdf2Block, hmacSha256_eq, putBe32_eq]
    exact turns
  unfold pbkdf2 Rfc7914.pbkdf2
  simp only [block]

/-! ## Salsa20/8 -/

/-- Four words that are apart, after a quarterround of them. -/
theorem quarterRound_apply (x : Words) {a b c d : Fin 16} (apart : [a, b, c, d].Nodup)
    (k : Fin 16) :
    quarterRound x a b c d k =
      if k = a then Rfc7914.quarterRound (x a) (x b) (x c) (x d) 0
      else if k = b then Rfc7914.quarterRound (x a) (x b) (x c) (x d) 1
      else if k = c then Rfc7914.quarterRound (x a) (x b) (x c) (x d) 2
      else if k = d then Rfc7914.quarterRound (x a) (x b) (x c) (x d) 3
      else x k := by
  simp only [List.nodup_cons, List.mem_cons, List.not_mem_nil, or_false, not_or] at apart
  obtain ⟨⟨ab, ac, ad⟩, ⟨bc, bd⟩, cd, -⟩ := apart
  have turned (y : UInt32) : rotl32 y 7 = Rfc7914.rotl 7 y ∧ rotl32 y 9 = Rfc7914.rotl 9 y ∧
      rotl32 y 13 = Rfc7914.rotl 13 y ∧ rotl32 y 18 = Rfc7914.rotl 18 y :=
    ⟨rfl, rfl, rfl, rfl⟩
  simp only [quarterRound, mixWord, turned, Rfc7914.quarterRound]
  split_ifs <;> simp_all

/-- The columns of `doubleRound`. -/
def columns (x : Words) : Words :=
  quarterRound (quarterRound (quarterRound (quarterRound x 0 4 8 12) 5 9 13 1) 10 14 2 6)
    15 3 7 11

/-- The rows of `doubleRound`. -/
def rows (x : Words) : Words :=
  quarterRound (quarterRound (quarterRound (quarterRound x 0 1 2 3) 5 6 7 4) 10 11 8 9)
    15 12 13 14

theorem entryIndex_lt (i j : Fin 4) : 4 * i.val + j.val < 16 := by
  omega

theorem entry_ofFn (x : Words) (i j : Fin 4) :
    Rfc7914.entry (Vector.ofFn x) i j = x ⟨4 * i.val + j.val, entryIndex_lt i j⟩ := by
  simp [Rfc7914.entry]

theorem columnRound_ofFn (x : Words) :
    Rfc7914.columnRound (Vector.ofFn x) = Vector.ofFn (columns x) := by
  unfold Rfc7914.columnRound Rfc7914.square columns
  simp only [entry_ofFn]
  apply congrArg Vector.ofFn
  funext k
  fin_cases k <;> simp (disch := decide) [quarterRound_apply, -zero_sub]

theorem transpose_ofFn (x : Words) :
    Rfc7914.transpose (Vector.ofFn x) =
      Vector.ofFn fun k : Fin 16 => x ⟨4 * (k % 4) + k / 4, by omega⟩ := by
  unfold Rfc7914.transpose Rfc7914.square
  simp only [entry_ofFn]

theorem rowRound_ofFn (x : Words) :
    Rfc7914.rowRound (Vector.ofFn x) = Vector.ofFn (rows x) := by
  unfold Rfc7914.rowRound rows
  rw [transpose_ofFn, columnRound_ofFn, transpose_ofFn]
  unfold columns
  apply congrArg Vector.ofFn
  funext k
  fin_cases k <;> simp (disch := decide) [quarterRound_apply, -zero_sub]

theorem doubleRound_ofFn (x : Words) :
    (Rfc7914.rowRound ∘ Rfc7914.columnRound) (Vector.ofFn x) = Vector.ofFn (doubleRound x) := by
  rw [Function.comp_apply, columnRound_ofFn, rowRound_ofFn]
  rfl

/-- Four bytes, or as many as are there, least significant first. -/
theorem le32dec_eq (p : List UInt8) :
    le32dec p = UInt32.ofNat (Rfc7914.ofLittleEndian (p.take 4)) := by
  have whole (a b c d : UInt8) :
      a.toUInt32 ||| (b.toUInt32 <<< 8) ||| (c.toUInt32 <<< 16) ||| (d.toUInt32 <<< 24) =
        UInt32.ofNat (Rfc7914.ofLittleEndian [a, b, c, d]) := by
    have number : Rfc7914.ofLittleEndian [a, b, c, d] = Fips180.ofBigEndian [d, c, b, a] := by
      change a.toNat + 256 * (b.toNat + 256 * (c.toNat + 256 * (d.toNat + 256 * 0))) =
        (((0 * 256 + d.toNat) * 256 + c.toNat) * 256 + b.toNat) * 256 + a.toNat
      omega
    rw [number, ← Fips180.word_of_bytes, UInt32.or_comm _ (d.toUInt32 <<< 24),
      UInt32.or_comm _ (c.toUInt32 <<< 16), UInt32.or_comm a.toUInt32, ← UInt32.or_assoc,
      ← UInt32.or_assoc]
  rcases p with _ | ⟨a, _ | ⟨b, _ | ⟨c, _ | ⟨d, rest⟩⟩⟩⟩
  · exact whole 0 0 0 0
  · exact whole a 0 0 0
  · exact whole a b 0 0
  · exact whole a b c 0
  · exact whole a b c d

theorem littleEndian_eq (count n : Nat) :
    Rfc7914.littleEndian count n = (Fips180.bigEndian count n).reverse := by
  induction count generalizing n with
  | zero => rfl
  | succ count ih =>
      rw [Rfc7914.littleEndian, ih, Fips180.bigEndian, List.reverse_append]
      rfl

theorem le32enc_eq (v : UInt32) : le32enc v = Rfc7914.littleEndian 4 v.toNat := by
  rw [littleEndian_eq, Fips180.bigEndian_four]
  rfl

theorem rounds_ofFn (n : Nat) (x : Words) :
    (Rfc7914.rowRound ∘ Rfc7914.columnRound)^[n] (Vector.ofFn x) =
      Vector.ofFn (doubleRound^[n] x) := by
  induction n generalizing x with
  | zero => rfl
  | succ n ih =>
      rw [Function.iterate_succ_apply, doubleRound_ofFn, ih, Function.iterate_succ_apply]

theorem get_ofFn (x : Words) (k : Fin 16) : (Vector.ofFn x).get k = x k := by
  change (Vector.ofFn x)[k.val] = x k
  rw [Vector.getElem_ofFn]

theorem salsa20_8_eq (b : List UInt8) : salsa20_8 b = Rfc7914.salsa20_8 b := by
  have words : (Vector.ofFn fun k : Fin 16 => Rfc7914.word b k) =
      Vector.ofFn fun k : Fin 16 => le32dec (b.drop (4 * k.val)) := by
    apply congrArg Vector.ofFn
    funext k
    exact (le32dec_eq _).symm
  unfold salsa20_8 Rfc7914.salsa20_8
  dsimp only
  have four (x : Words) : doubleRound^[4] x =
      doubleRound (doubleRound (doubleRound (doubleRound x))) := rfl
  rw [words, rounds_ofFn, four]
  apply List.flatMap_congr
  intro k _
  rw [le32enc_eq, get_ofFn, get_ofFn]

/-! ## scryptBlockMix -/

theorem blockAt_eq (b : List UInt8) (i : Nat) : blockAt b i = Rfc7914.block b i := rfl

/-- The block before the `i`th output. -/
def before (b : List UInt8) (r : Nat) : Nat → List UInt8
  | 0 => blockAt b (2 * r - 1)
  | i + 1 => Rfc7914.mixed b r i

theorem mixed_eq (b : List UInt8) (r i : Nat) :
    Rfc7914.mixed b r i = salsa20_8 (xorBytes (before b r i) (blockAt b i)) := by
  cases i with
  | zero => exact (salsa20_8_eq _).symm
  | succ i => exact (salsa20_8_eq _).symm

theorem mixBlocks_eq (b : List UInt8) (r count first : Nat) :
    mixBlocks (before b r first) ((List.range' first count).map (blockAt b)) =
      (List.range' first count).map (Rfc7914.mixed b r) := by
  induction count generalizing first with
  | zero => rfl
  | succ count ih =>
      rw [List.range'_succ, List.map_cons, List.map_cons, mixBlocks, ← mixed_eq]
      exact congrArg _ (ih (first + 1))

theorem blockmix_eq (b : List UInt8) (r : Nat) : blockmix b r = Rfc7914.blockMix b r := by
  have outputs : mixBlocks (blockAt b (2 * r - 1)) ((List.range (2 * r)).map (blockAt b)) =
      (List.range (2 * r)).map (Rfc7914.mixed b r) := by
    rw [List.range_eq_range']
    exact mixBlocks_eq b r (2 * r) 0
  have output {i : Nat} (inside : i < 2 * r) :
      ((List.range (2 * r)).map (Rfc7914.mixed b r)).getD i [] = Rfc7914.mixed b r i := by
    rw [List.getD_eq_getElem?_getD, List.getElem?_map, List.getElem?_range inside]
    rfl
  unfold blockmix Rfc7914.blockMix
  dsimp only
  rw [outputs]
  congr 1
  · apply List.flatMap_congr
    intro i member
    have early := List.mem_range.mp member
    exact output (by omega)
  · apply List.flatMap_congr
    intro i member
    have early := List.mem_range.mp member
    exact output (by omega)

/-! ## scryptROMix -/

theorem ofLittleEndian_append (a b : List UInt8) :
    Rfc7914.ofLittleEndian (a ++ b) =
      Rfc7914.ofLittleEndian a + 256 ^ a.length * Rfc7914.ofLittleEndian b := by
  induction a with
  | nil => simp [Rfc7914.ofLittleEndian]
  | cons c a ih =>
      have step (l : List UInt8) : Rfc7914.ofLittleEndian (c :: l) =
          c.toNat + 256 * Rfc7914.ofLittleEndian l := rfl
      rw [List.cons_append, step, step, ih, List.length_cons, Nat.pow_succ', Nat.mul_add,
        Nat.mul_assoc, Nat.add_assoc]

/-- The mask of the low word is the modulus of the whole number. -/
theorem integerifyMod_eq (x : List UInt8) (r : Nat) {k : Nat} (small : k < 32) :
    integerifyMod x r (2 ^ k) = Rfc7914.integerify x r % 2 ^ k := by
  have fits : 2 ^ k < 2 ^ 32 := Nat.pow_lt_pow_right (by decide) small
  have positive : 0 < 2 ^ k := Nat.two_pow_pos k
  have mask : (UInt32.ofNat (2 ^ k) - 1).toNat = 2 ^ k - 1 := by
    rw [UInt32.toNat_sub_of_le]
    · rw [UInt32.toNat_ofNat', Nat.mod_eq_of_lt fits]
      rfl
    · rw [UInt32.le_iff_toNat_le, UInt32.toNat_ofNat', Nat.mod_eq_of_lt fits]
      exact positive
  have divides : 2 ^ k ∣ 2 ^ 32 := Nat.pow_dvd_pow 2 (Nat.le_of_lt small)
  unfold integerifyMod Rfc7914.integerify
  rw [UInt32.toNat_and, mask, Nat.and_two_pow_sub_one_eq_mod, le32dec_eq, UInt32.toNat_ofNat',
    Nat.mod_mod_of_dvd _ divides, blockAt_eq]
  generalize Rfc7914.block x (2 * r - 1) = last
  conv => rhs; rw [← List.take_append_drop 4 last, ofLittleEndian_append]
  rcases Nat.lt_or_ge last.length 4 with short | long
  · rw [List.drop_of_length_le (Nat.le_of_lt short)]
    rfl
  · have four : (last.take 4).length = 4 := List.length_take_of_le long
    have power : 256 ^ 4 = 2 ^ 32 := by decide
    obtain ⟨times, isTimes⟩ := divides
    rw [four, power, isTimes, Nat.mul_assoc, Nat.add_mul_mod_self_left]

theorem fillBlocks_eq (b : List UInt8) (r left first : Nat) :
    fillBlocks r left (Rfc7914.vector b r first) =
      ((List.range' first left).map (Rfc7914.vector b r), Rfc7914.vector b r (first + left)) := by
  induction left generalizing first with
  | zero => rfl
  | succ left ih =>
      have rest := ih (first + 1)
      rw [Rfc7914.vector, ← blockmix_eq] at rest
      rw [fillBlocks, rest, List.range'_succ, List.map_cons, Nat.add_right_comm, Nat.add_assoc]

theorem mixFilled_eq (b : List UInt8) (r left turns : Nat) {k : Nat} (small : k < 32) :
    mixFilled (2 ^ k) r ((List.range (2 ^ k)).map (Rfc7914.vector b r)) left
        (Rfc7914.stirred b (2 ^ k) r turns) =
      Rfc7914.stirred b (2 ^ k) r (turns + left) := by
  induction left generalizing turns with
  | zero => rfl
  | succ left ih =>
      have inside : Rfc7914.integerify (Rfc7914.stirred b (2 ^ k) r turns) r % 2 ^ k < 2 ^ k :=
        Nat.mod_lt _ (Nat.two_pow_pos k)
      rw [mixFilled, integerifyMod_eq _ r small, List.getD_eq_getElem?_getD, List.getElem?_map,
        List.getElem?_range inside, blockmix_eq, ← Nat.add_assoc, Nat.add_right_comm]
      exact ih (turns + 1)

theorem romix_eq (b : List UInt8) (r : Nat) {k : Nat} (small : k < 32) :
    romix b (2 ^ k) r = Rfc7914.roMix b (2 ^ k) r := by
  have filled := fillBlocks_eq b r (2 ^ k) 0
  have mixed := mixFilled_eq b r (2 ^ k) 0 small
  rw [Nat.zero_add] at filled mixed
  unfold romix
  dsimp only
  rw [show fillBlocks r (2 ^ k) b = _ from filled, ← List.range_eq_range']
  exact mixed

/-- The computation of the password hash is the standard's. -/
theorem scrypt_eq (pw salt : List UInt8) (r p outlen : Nat) {k : Nat} (small : k < 32) :
    scrypt pw salt (2 ^ k) r p outlen = Rfc7914.scrypt pw salt (2 ^ k) r p outlen := by
  unfold scrypt Rfc7914.scrypt
  simp only [romix_eq _ r small, pbkdf2_eq]

end Scrypt

end RlxFw
