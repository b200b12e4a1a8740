import RlxFw.Fips180
import RlxFw.Sha256
import RlxFw.Sha256Padded

/-!
# Two digests, one function

The library's SHA-256 and the boot path's, fed a message in any pieces, against the
standard's digest of the whole.
-/

namespace RlxFw

open BlockHash (folded Absorbed)
open Sha256b (Words)

/-! ## Words and bytes -/

/-- The eight words as the standard's. -/
def Sha256b.Words.hash (s : Words) : Fips180.Hash :=
  ⟨s.a, s.b, s.c, s.d, s.e, s.f, s.g, s.h⟩

namespace Fips180

/-- Four bytes shifted together are one word. -/
theorem word_of_bytes (a b c d : UInt8) :
    (a.toUInt32 <<< 24) ||| (b.toUInt32 <<< 16) ||| (c.toUInt32 <<< 8) ||| d.toUInt32 =
      UInt32.ofNat (ofBigEndian [a, b, c, d]) := by
  have aSmall := a.toNat_lt
  have bSmall := b.toNat_lt
  have cSmall := c.toNat_lt
  have dSmall := d.toNat_lt
  have number : ofBigEndian [a, b, c, d] =
      ((a.toNat * 256 + b.toNat) * 256 + c.toNat) * 256 + d.toNat := by
    simp [ofBigEndian]
  have shifted (x : UInt8) {n : Nat} (low : n ≤ 24) :
      (x.toUInt32 <<< UInt32.ofNat n).toNat = x.toNat <<< n := by
    have small := x.toNat_lt
    have grows : 2 ^ n ≤ 2 ^ 24 := Nat.pow_le_pow_right (by decide) low
    rw [UInt32.toNat_shiftLeft, UInt8.toNat_toUInt32, UInt32.toNat_ofNat',
      Nat.mod_eq_of_lt (by omega : n < 2 ^ 32), Nat.mod_eq_of_lt (by omega : n < 32),
      Nat.mod_eq_of_lt]
    rw [Nat.shiftLeft_eq]
    calc
      x.toNat * 2 ^ n < 2 ^ 8 * 2 ^ n := Nat.mul_lt_mul_of_pos_right small (Nat.two_pow_pos n)
      _ ≤ 2 ^ 8 * 2 ^ 24 := Nat.mul_le_mul_left _ grows
      _ = 2 ^ 32 := by decide
  have first : (a.toUInt32 <<< 24).toNat = a.toNat <<< 24 := shifted a (n := 24) (by decide)
  have second : (b.toUInt32 <<< 16).toNat = b.toNat <<< 16 := shifted b (n := 16) (by decide)
  have third : (c.toUInt32 <<< 8).toNat = c.toNat <<< 8 := shifted c (n := 8) (by decide)
  apply UInt32.toNat_inj.mp
  rw [number, UInt32.toNat_ofNat', UInt32.toNat_or, UInt32.toNat_or, UInt32.toNat_or,
    first, second, third, UInt8.toNat_toUInt32]
  have ab : a.toNat <<< 24 ||| b.toNat <<< 16 = (a.toNat * 256 + b.toNat) <<< 16 := by
    rw [← Nat.shiftLeft_add_eq_or_of_lt (by rw [Nat.shiftLeft_eq]; omega)]
    simp only [Nat.shiftLeft_eq]
    omega
  have abc : (a.toNat * 256 + b.toNat) <<< 16 ||| c.toNat <<< 8 =
      ((a.toNat * 256 + b.toNat) * 256 + c.toNat) <<< 8 := by
    rw [← Nat.shiftLeft_add_eq_or_of_lt (by rw [Nat.shiftLeft_eq]; omega)]
    simp only [Nat.shiftLeft_eq]
    omega
  rw [ab, abc, ← Nat.shiftLeft_add_eq_or_of_lt (by omega), Nat.shiftLeft_eq]
  omega

/-- A word's bytes, least significant last. -/
theorem bigEndian_four (x : UInt32) :
    bigEndian 4 x.toNat =
      [(x >>> 24).toUInt8, (x >>> 16).toUInt8, (x >>> 8).toUInt8, x.toUInt8] := by
  have byte (n : Nat) (low : n < 32) :
      (x >>> UInt32.ofNat n).toUInt8 = UInt8.ofNat (x.toNat / 2 ^ n) := by
    apply UInt8.toNat_inj.mp
    rw [UInt32.toNat_toUInt8, UInt32.toNat_shiftRight, UInt32.toNat_ofNat',
      Nat.mod_eq_of_lt (by omega : n < 2 ^ 32), Nat.mod_eq_of_lt low,
      Nat.shiftRight_eq_div_pow, UInt8.toNat_ofNat']
  have last : x.toUInt8 = UInt8.ofNat x.toNat := rfl
  simp only [bigEndian, Nat.div_div_eq_div_mul, List.nil_append, List.cons_append]
  rw [last]
  congr 1
  · exact (byte 24 (by decide)).symm
  · congr 1
    · exact (byte 16 (by decide)).symm
    · congr 1
      exact (byte 8 (by decide)).symm

/-- The schedule begins with the words of the block. -/
theorem map_word (block : List UInt8) :
    (List.range 16).map (word block) = (List.range 16).map (schedule block) := by
  apply List.map_congr_left
  intro t early
  exact (schedule_of_lt (List.mem_range.mp early)).symm

/-- A block from its rounds, over any reading of the words and any form of a round. -/
theorem hashBlock_of_fold {f : Words → UInt32 × UInt32 → Words} {k w : List UInt32}
    (rounds_ : ∀ s kw, (f s kw).hash = round kw.1 kw.2 s.hash)
    (constants : k = (List.range 64).map constant) {block : List UInt8}
    (words : w = (List.range 64).map (schedule block)) (h : Words) :
    ((k.zip w).foldl f h).hash = rounds block h.hash 64 := by
  rw [rounds_eq_foldl, constants, words, List.zip_map', List.foldl_hom Words.hash]
  exact fun s kw => (rounds_ s kw).symm

theorem digest_hash (h : Words) :
    digest h.hash =
      [h.a, h.b, h.c, h.d, h.e, h.f, h.g, h.h].flatMap fun w => bigEndian 4 w.toNat := rfl

/-- A state that took in the padded message holds the digest. -/
theorem digest_of_absorbed {f : Words → List UInt8 → Words}
    (blocks : ∀ h p, p.length = 64 → (f h p).hash = hashBlock h.hash p) {start h : Words}
    (begins : start.hash = initial) {m : List UInt8}
    (absorbed : Absorbed f 64 start (m ++ padding m.length) h []) :
    digest h.hash = sha256 m := by
  unfold sha256
  dsimp only
  rw [absorbed.done (by decide), BlockHash.folded_map blocks (Nat.mul_div_le _ 64), begins]

end Fips180

/-! ## The two block functions -/

namespace Sha256b

open Fips180 (constant schedule word)

theorem roundConstants_eq : roundConstants = (List.range 64).map constant := by decide

theorem init_hash : init.h.hash = Fips180.initial := by decide

theorem blockWords_eq (p : List UInt8) :
    blockWords p = (List.range (p.length / 4)).map (word p) := by
  fun_induction blockWords p with
  | case1 b0 b1 b2 b3 rest ih =>
      have count : (b0 :: b1 :: b2 :: b3 :: rest).length / 4 = rest.length / 4 + 1 := by
        simp only [List.length_cons]
        omega
      rw [count, List.range_succ_eq_map, List.map_cons, List.map_map, ih,
        Fips180.word_of_bytes]
      rfl
  | case2 p short =>
      have few : p.length / 4 = 0 := by
        rcases p with _ | ⟨b0, _ | ⟨b1, _ | ⟨b2, _ | ⟨b3, rest⟩⟩⟩⟩
        · simp
        · simp
        · simp
        · simp
        · exact absurd rfl (short b0 b1 b2 b3 rest)
      rw [few]
      rfl

/-- `block` is the standard's. -/
theorem block_hash (h : Words) {p : List UInt8} (whole : p.length = 64) :
    (block h p).hash = Fips180.hashBlock h.hash p := by
  have words : extendSchedule 48 (blockWords p) = (List.range 64).map (schedule p) := by
    rw [blockWords_eq, whole]
    refine (congrArg (extendSchedule 48) (Fips180.map_word p)).trans ?_
    refine Fips180.schedule_loop (fun _ => rfl) (fun _ _ => rfl) ?_ p (le_refl 16) 48
    intro w t
    change w.getD (t - 16) 0 + Fips180.smallSigma0 (w.getD (t - 15) 0) +
      w.getD (t - 7) 0 + Fips180.smallSigma1 (w.getD (t - 2) 0) = _
    ac_rfl
  have rounds := Fips180.hashBlock_of_fold (f := round) (fun _ _ => rfl) roundConstants_eq
    words h
  unfold block Fips180.hashBlock
  dsimp only
  rw [← rounds]
  simp only [Words.hash, UInt32.add_comm]

/-! ### The boot path's digest -/

/-- `addbits`, of an `unsigned long` of any width from 32 bits on. -/
def addbitsLong (c : Context) (nbytes : Nat) : Context :=
  let lo := UInt32.ofNat (nbytes <<< 3)
  let hi := UInt32.ofNat (nbytes >>> 29)
  let nbitsLo := c.nbitsLo + lo
  let carried := if nbitsLo < c.nbitsLo then c.nbitsHi + 1 else c.nbitsHi
  { c with nbitsLo := nbitsLo, nbitsHi := carried + hi }

/-- `sha256b_update`, of as many bytes as an `unsigned long` of any width can tell. -/
def updateLong (c : Context) (p : List UInt8) : Context :=
  let c := addbitsLong c p.length
  if c.buf.length ≠ 0 then
    let room := 64 - c.buf.length
    let buf := c.buf ++ p.take room
    if buf.length < 64 then { c with buf := buf }
    else feed { c with h := block c.h buf, buf := [] } (p.drop room)
  else feed c p

theorem addbitsLong_eq (c : Context) {nbytes : Nat} (small : nbytes < 2 ^ 32) :
    addbits c (UInt32.ofNat nbytes) = addbitsLong c nbytes := by
  have low : UInt32.ofNat nbytes <<< 3 = UInt32.ofNat (nbytes <<< 3) := by
    apply UInt32.toNat_inj.mp
    rw [UInt32.toNat_shiftLeft, UInt32.toNat_ofNat', UInt32.toNat_ofNat',
      Nat.mod_eq_of_lt small]
    rfl
  have high : UInt32.ofNat nbytes >>> 29 = UInt32.ofNat (nbytes >>> 29) := by
    have fits : nbytes >>> 29 < 2 ^ 32 := by
      rw [Nat.shiftRight_eq_div_pow]
      omega
    apply UInt32.toNat_inj.mp
    rw [UInt32.toNat_shiftRight, UInt32.toNat_ofNat', UInt32.toNat_ofNat',
      Nat.mod_eq_of_lt small, Nat.mod_eq_of_lt fits]
    rfl
  unfold addbits addbitsLong
  rw [low, high]

/-- On 32 bits it is the target's. -/
theorem updateLong_eq (c : Context) {p : List UInt8} (small : p.length < 2 ^ 32) :
    update c p = updateLong c p := by
  unfold update updateLong
  rw [addbitsLong_eq c small]

/-- The number that the two halves of the counter come to. -/
def Context.nbits (c : Context) : Nat := c.nbitsHi.toNat * 2 ^ 32 + c.nbitsLo.toNat

/-- The counter counts on, with its carry. -/
theorem nbits_addbitsLong (c : Context) (nbytes : Nat) :
    (addbitsLong c nbytes).nbits = (c.nbits + 8 * nbytes) % 2 ^ 64 := by
  have lowSmall := c.nbitsLo.toNat_lt
  have highSmall := c.nbitsHi.toNat_lt
  have low : (UInt32.ofNat (nbytes <<< 3)).toNat = 8 * (nbytes % 2 ^ 29) := by
    rw [UInt32.toNat_ofNat', Nat.shiftLeft_eq]
    omega
  have high : (UInt32.ofNat (nbytes >>> 29)).toNat = nbytes / 2 ^ 29 % 2 ^ 32 := by
    rw [UInt32.toNat_ofNat', Nat.shiftRight_eq_div_pow]
  unfold addbitsLong Context.nbits
  dsimp only
  rw [UInt32.toNat_add, UInt32.toNat_add, low, high]
  by_cases carries : c.nbitsLo + UInt32.ofNat (nbytes <<< 3) < c.nbitsLo
  · have wrapped := UInt32.lt_iff_toNat_lt.mp carries
    rw [UInt32.toNat_add, low] at wrapped
    have one : (c.nbitsHi + 1).toNat = (c.nbitsHi.toNat + 1) % 2 ^ 32 := UInt32.toNat_add _ _
    rw [if_pos carries, one]
    omega
  · have stays : ¬ (c.nbitsLo.toNat + 8 * (nbytes % 2 ^ 29)) % 2 ^ 32 < c.nbitsLo.toNat := by
      intro wrapped
      apply carries
      rw [UInt32.lt_iff_toNat_lt, UInt32.toNat_add, low]
      exact wrapped
    rw [if_neg carries]
    omega

/-- Where the boot path's digest stands after a message. -/
structure Context.Stands (c : Context) (m : List UInt8) : Prop where
  absorbed : Absorbed block 64 init.h m c.h c.buf
  counted : c.nbits = 8 * m.length % 2 ^ 64

theorem init_stands : init.Stands [] := ⟨Absorbed.nil (by decide), rfl⟩

theorem blocks_absorbed {rounds : Nat} {h : Words} {m p : List UInt8}
    (absorbed : Absorbed block 64 init.h m h []) (enough : p.length ≤ rounds) :
    Absorbed block 64 init.h (m ++ p) (blocks rounds h p).1 (blocks rounds h p).2 := by
  induction rounds generalizing h m p with
  | zero =>
      obtain rfl : p = [] := List.eq_nil_of_length_eq_zero (Nat.le_zero.mp enough)
      rw [List.append_nil]
      exact absorbed
  | succ rounds ih =>
      unfold blocks
      split
      · next short => exact absorbed.keep (by simpa using short)
      · next long =>
        have filled := absorbed.fill (p := p.take 64) (by simp; omega)
        have rest := ih filled (p := p.drop 64) (by rw [List.length_drop]; omega)
        rw [List.append_assoc, List.take_append_drop] at rest
        exact rest

theorem feed_absorbed {c : Context} {m p : List UInt8}
    (absorbed : Absorbed block 64 init.h m c.h c.buf) (none : c.buf = []) :
    Absorbed block 64 init.h (m ++ p) (feed c p).h (feed c p).buf := by
  rw [none] at absorbed
  unfold feed
  dsimp only
  rw [none, List.nil_append]
  exact blocks_absorbed absorbed (le_refl _)

theorem updateLong_stands {c : Context} {m : List UInt8} (stands : c.Stands m)
    (p : List UInt8) : (updateLong c p).Stands (m ++ p) := by
  have absorbed := stands.absorbed
  have short := absorbed.short
  have count : (addbitsLong c p.length).nbits = 8 * (m ++ p).length % 2 ^ 64 := by
    rw [nbits_addbitsLong, stands.counted, List.length_append]
    omega
  unfold updateLong
  dsimp only
  split
  · split
    · next room =>
      have fits : c.buf.length + (p.take (64 - c.buf.length)).length < 64 := by
        rw [← List.length_append]
        exact room
      have whole : m ++ p.take (64 - c.buf.length) = m ++ p := by
        rw [List.take_of_length_le]
        rw [List.length_take] at fits
        omega
      have kept := absorbed.keep fits
      rw [whole] at kept
      exact ⟨kept, count⟩
    · next full =>
      have fills : c.buf.length + (p.take (64 - c.buf.length)).length = 64 := by
        have held : ¬ (c.buf ++ p.take (64 - c.buf.length)).length < 64 := full
        rw [List.length_append, List.length_take] at held
        rw [List.length_take]
        omega
      refine ⟨?_, count⟩
      have fed := feed_absorbed (c := { addbitsLong c p.length with
          h := block c.h (c.buf ++ p.take (64 - c.buf.length)), buf := [] })
        (p := p.drop (64 - c.buf.length)) (absorbed.fill fills) rfl
      rw [List.append_assoc, List.take_append_drop] at fed
      exact fed
  · next empty =>
    have none : c.buf = [] := List.eq_nil_of_length_eq_zero (not_not.mp empty)
    exact ⟨feed_absorbed (c := addbitsLong c p.length) absorbed none, count⟩

/-- However a message is cut, it is what the digest stands at. -/
theorem foldl_updateLong_stands (chunks : List (List UInt8)) {c : Context} {m : List UInt8}
    (stands : c.Stands m) : (chunks.foldl updateLong c).Stands (m ++ chunks.flatten) := by
  induction chunks generalizing c m with
  | nil =>
      rw [List.flatten_nil, List.append_nil]
      exact stands
  | cons p chunks ih =>
      rw [List.flatten_cons, ← List.append_assoc]
      exact ih (updateLong_stands stands p)

theorem wordBytes_eq (x : UInt32) : wordBytes x = Fips180.bigEndian 4 x.toNat :=
  (Fips180.bigEndian_four x).symm

theorem digest_eq (h : Words) : digest h = Fips180.digest h.hash := by
  rw [Fips180.digest_hash]
  simp [digest, wordBytes_eq]

/-- What is padded is what is held, with the standard's padding. -/
theorem pad_eq_padding {c : Context} {m : List UInt8} (stands : c.Stands m) :
    pad c = c.buf ++ Fips180.padding m.length := by
  have held := stands.absorbed.length
  have zeros : paddedLength c - 8 - (c.buf.length + 1) = Fips180.zeros m.length := by
    unfold paddedLength Fips180.zeros
    split <;> omega
  have low := c.nbitsLo.toNat_lt
  have count : wordBytes c.nbitsHi ++ wordBytes c.nbitsLo =
      Fips180.bigEndian 8 (8 * m.length) := by
    have number : c.nbits = 8 * m.length % 256 ^ 8 := stands.counted
    rw [← Fips180.bigEndian_mod, ← number, Fips180.bigEndian_add 4 4, wordBytes_eq,
      wordBytes_eq, ← Fips180.bigEndian_mod 4 c.nbits]
    unfold Context.nbits
    congr 2
    · omega
    · omega
  unfold pad Fips180.padding
  rw [zeros, List.append_assoc _ (wordBytes c.nbitsHi), count]
  simp

/-- `sha256b_final` is the standard's digest. -/
theorem final_eq {c : Context} {m : List UInt8} (stands : c.Stands m) :
    final c = Fips180.sha256 m := by
  have absorbed := stands.absorbed
  have held := absorbed.length
  have short := absorbed.short
  have length := Fips180.length_padding m.length
  have done {h : Words}
      (absorbed : Absorbed block 64 init.h (m ++ Fips180.padding m.length) h []) :
      digest h = Fips180.sha256 m := by
    rw [digest_eq]
    exact Fips180.digest_of_absorbed (fun h _ => block_hash h) init_hash absorbed
  unfold final
  dsimp only
  rw [pad_eq_padding stands]
  unfold Fips180.zeros at length
  by_cases one : c.buf.length + 1 ≤ 56
  · have total : paddedLength c = 64 := if_pos one
    have fills : c.buf.length + (Fips180.padding m.length).length = 64 := by omega
    rw [total, if_neg (by decide), List.take_of_length_le (by rw [List.length_append]; omega)]
    exact done (absorbed.fill fills)
  · have total : paddedLength c = 128 := if_neg one
    generalize isPad : Fips180.padding m.length = padding at *
    have cut : (c.buf ++ padding).take 64 = c.buf ++ padding.take (64 - c.buf.length) := by
      rw [List.take_append, List.take_of_length_le (by omega)]
    have rest : (c.buf ++ padding).drop 64 = padding.drop (64 - c.buf.length) := by
      rw [List.drop_append, List.drop_of_length_le (by omega), List.nil_append]
    have first := absorbed.fill (p := padding.take (64 - c.buf.length))
      (by rw [List.length_take]; omega)
    have second := first.fill (p := padding.drop (64 - c.buf.length))
      (by rw [List.length_drop, List.length_nil]; omega)
    rw [List.append_assoc, List.take_append_drop] at second
    rw [if_pos total, cut, rest]
    exact done second

end Sha256b

namespace Sha256

open Fips180 (constant schedule word)

theorem k256_eq : k256 = (List.range 64).map constant := by decide

theorem sha256Init_hash : sha256Init.h.hash = Fips180.initial := by decide

theorem be32dec_eq {p : List UInt8} {t : Nat} (inside : 4 * t + 4 ≤ p.length) :
    be32dec p (4 * t) = word p t := by
  have bytes : (p.drop (4 * t)).take 4 =
      [byteAt p (4 * t), byteAt p (4 * t + 1), byteAt p (4 * t + 2), byteAt p (4 * t + 3)] := by
    have get {i : Nat} (small : i < p.length) : byteAt p i = p[i] := by
      rw [byteAt, List.getD_eq_getElem?_getD, List.getElem?_eq_getElem small, Option.getD_some]
    rw [List.drop_eq_getElem_cons (by omega), List.drop_eq_getElem_cons (by omega),
      List.drop_eq_getElem_cons (by omega), List.drop_eq_getElem_cons (by omega),
      get (by omega), get (by omega), get (by omega), get (by omega)]
    rfl
  unfold be32dec word
  rw [bytes, Fips180.word_of_bytes]

/-- `sha256_block` is the standard's. -/
theorem sha256Block_hash (h : Words) {p : List UInt8} (whole : p.length = 64) :
    (sha256Block h p).hash = Fips180.hashBlock h.hash p := by
  have words : expand 48 ((List.range 16).map fun t => be32dec p (4 * t)) =
      (List.range 64).map (schedule p) := by
    have read : ((List.range 16).map fun t => be32dec p (4 * t)) =
        (List.range 16).map (word p) := by
      apply List.map_congr_left
      intro t early
      have small := List.mem_range.mp early
      exact be32dec_eq (by omega)
    rw [read, Fips180.map_word]
    exact Fips180.schedule_loop (fun _ => rfl) (fun _ _ => rfl) (fun _ _ => rfl) p
      (le_refl 16) 48
  have rounds := Fips180.hashBlock_of_fold (f := round) (fun _ _ => rfl) k256_eq words h
  unfold sha256Block Fips180.hashBlock
  dsimp only
  rw [← rounds]
  simp only [Words.hash, UInt32.add_comm]

/-! ### The library's digest -/

/-- Where the library's digest stands after a message. -/
structure Sha256Ctx.Stands (c : Sha256Ctx) (m : List UInt8) : Prop where
  absorbed : Absorbed sha256Block 64 sha256Init.h m c.h c.buf
  counted : c.nbits = UInt64.ofNat (8 * m.length)

theorem sha256Init_stands : sha256Init.Stands [] := ⟨Absorbed.nil (by decide), rfl⟩

theorem wholeBlocks_stands (c : Sha256Ctx) (p : List UInt8) {m : List UInt8}
    (absorbed : Absorbed sha256Block 64 sha256Init.h m c.h c.buf)
    (ready : p ≠ [] → c.buf = []) :
    Absorbed sha256Block 64 sha256Init.h (m ++ p) (wholeBlocks c p).h (wholeBlocks c p).buf ∧
      (wholeBlocks c p).nbits = c.nbits := by
  fun_induction wholeBlocks c p generalizing m with
  | case1 c p long ih =>
      have some : p ≠ [] := fun none => by
        rw [none] at long
        exact absurd long (by decide)
      rw [ready some] at absorbed
      have filled := absorbed.fill (p := p.take 64) (by simp; omega)
      rw [List.nil_append] at filled
      have rest := ih (by rw [ready some]; exact filled) fun _ => ready some
      rw [List.append_assoc, List.take_append_drop] at rest
      exact rest
  | case2 c p short some =>
      have none := ready fun empty => some (by rw [empty]; rfl)
      rw [none] at absorbed
      have kept := absorbed.keep (p := p) (by simpa using short)
      exact ⟨kept, rfl⟩
  | case3 c p short none =>
      obtain rfl : p = [] := List.eq_nil_of_length_eq_zero (not_not.mp none)
      rw [List.append_nil]
      exact ⟨absorbed, rfl⟩

theorem sha256Update_stands {c : Sha256Ctx} {m : List UInt8} (stands : c.Stands m)
    (p : List UInt8) : (sha256Update c p).Stands (m ++ p) := by
  have absorbed := stands.absorbed
  have short := absorbed.short
  have count : c.nbits + UInt64.ofNat p.length * 8 = UInt64.ofNat (8 * (m ++ p).length) := by
    rw [stands.counted]
    apply UInt64.toNat_inj.mp
    rw [UInt64.toNat_add, UInt64.toNat_mul, UInt64.toNat_ofNat', UInt64.toNat_ofNat',
      UInt64.toNat_ofNat', List.length_append]
    change (8 * m.length % 2 ^ 64 + p.length % 2 ^ 64 * 8 % 2 ^ 64) % 2 ^ 64 = _
    omega
  unfold sha256Update
  dsimp only
  split
  · next empty =>
    obtain rfl : p = [] := List.eq_nil_of_length_eq_zero empty
    rw [List.append_nil]
    exact stands
  · split
    · generalize taken : (if 64 - c.buf.length > p.length then p.length else 64 - c.buf.length) =
        take
      have inside : take ≤ p.length := by split at taken <;> omega
      have length : (c.buf ++ p.take take).length = c.buf.length + take := by
        rw [List.length_append, List.length_take_of_le inside]
      have cut : m ++ p.take take ++ p.drop take = m ++ p := by
        rw [List.append_assoc, List.take_append_drop]
      rw [← cut]
      rw [← cut] at count
      by_cases full : (c.buf ++ p.take take).length = 64
      · rw [if_pos full]
        have filled := absorbed.fill (p := p.take take) (by rw [← List.length_append]; exact full)
        obtain ⟨rest, kept⟩ := wholeBlocks_stands
          { c with
            h := sha256Block c.h (c.buf ++ p.take take)
            nbits := c.nbits + UInt64.ofNat p.length * 8
            buf := [] } (p.drop take) filled fun _ => rfl
        exact ⟨rest, kept.trans count⟩
      · rw [if_neg full]
        have room : (c.buf ++ p.take take).length < 64 := by split at taken <;> omega
        have all : take = p.length := by split at taken <;> omega
        have kept := absorbed.keep (p := p.take take) (by rw [← List.length_append]; exact room)
        obtain ⟨rest, nbits⟩ := wholeBlocks_stands
          { c with
            nbits := c.nbits + UInt64.ofNat p.length * 8
            buf := c.buf ++ p.take take } (p.drop take) kept
          fun some => absurd (List.drop_of_length_le (Nat.le_of_eq all.symm)) some
        exact ⟨rest, nbits.trans count⟩
    · next none =>
      have empty : c.buf = [] := List.eq_nil_of_length_eq_zero (not_not.mp none)
      obtain ⟨rest, kept⟩ := wholeBlocks_stands
        { c with nbits := c.nbits + UInt64.ofNat p.length * 8 } p absorbed fun _ => empty
      exact ⟨rest, kept.trans count⟩

theorem foldl_sha256Update_stands (chunks : List (List UInt8)) {c : Sha256Ctx}
    {m : List UInt8} (stands : c.Stands m) :
    (chunks.foldl sha256Update c).Stands (m ++ chunks.flatten) := by
  induction chunks generalizing c m with
  | nil =>
      rw [List.flatten_nil, List.append_nil]
      exact stands
  | cons p chunks ih =>
      rw [List.flatten_cons, ← List.append_assoc]
      exact ih (sha256Update_stands stands p)

theorem be32enc_eq (x : UInt32) : be32enc x = Fips180.bigEndian 4 x.toNat := by
  have low (y : UInt32) : (y &&& 0xff).toUInt8 = y.toUInt8 := by
    apply UInt8.toNat_inj.mp
    rw [UInt32.toNat_toUInt8, UInt32.toNat_toUInt8, UInt32.toNat_and]
    change (y.toNat &&& (2 ^ 8 - 1)) % 2 ^ 8 = _
    rw [Nat.and_two_pow_sub_one_eq_mod, Nat.mod_mod]
  rw [Fips180.bigEndian_four]
  unfold be32enc
  rw [low, low, low, low]

theorem be64enc_eq (n : Nat) : be64enc (UInt64.ofNat n) = Fips180.bigEndian 8 n := by
  have low : ((UInt64.ofNat n) &&& 0xffffffff).toUInt32.toNat = n % 2 ^ 32 := by
    rw [UInt64.toNat_toUInt32, UInt64.toNat_and, UInt64.toNat_ofNat']
    change (n % 2 ^ 64 &&& (2 ^ 32 - 1)) % 2 ^ 32 = _
    rw [Nat.and_two_pow_sub_one_eq_mod]
    omega
  have high : (((UInt64.ofNat n) >>> 32) &&& 0xffffffff).toUInt32.toNat =
      n / 2 ^ 32 % 2 ^ 32 := by
    rw [UInt64.toNat_toUInt32, UInt64.toNat_and, UInt64.toNat_shiftRight, UInt64.toNat_ofNat']
    change ((n % 2 ^ 64) >>> 32 &&& (2 ^ 32 - 1)) % 2 ^ 32 = _
    rw [Nat.and_two_pow_sub_one_eq_mod, Nat.shiftRight_eq_div_pow]
    omega
  have power : 256 ^ 4 = 2 ^ 32 := by decide
  have written (k : Nat) : Fips180.bigEndian 4 (k % 2 ^ 32) = Fips180.bigEndian 4 k := by
    rw [← power]
    exact Fips180.bigEndian_mod 4 k
  unfold be64enc
  rw [be32enc_eq, be32enc_eq, low, high, written, written, Fips180.bigEndian_add 4 4, power]

/-- What is fed before the length is the one bit and the standard's zeros. -/
theorem onePad_eq {c : Sha256Ctx} {m : List UInt8} (stands : c.Stands m) :
    onePad c = 0x80 :: List.replicate (Fips180.zeros m.length) 0 := by
  have held := stands.absorbed.length
  have least (padlen k : Nat) (one : padlen = k + 1) (few : k ≤ 63) :
      (0x80 :: List.replicate 63 (0 : UInt8)).take padlen = 0x80 :: List.replicate k 0 := by
    rw [one, List.take_succ_cons, List.take_replicate, Nat.min_eq_left few]
  unfold onePad
  apply least
  · unfold Fips180.zeros
    split <;> omega
  · unfold Fips180.zeros
    omega

/-- `sha256_final` is the standard's digest. -/
theorem sha256Final_eq {c : Sha256Ctx} {m : List UInt8} (stands : c.Stands m) :
    sha256Final c = Fips180.sha256 m := by
  have padded := sha256Update_stands (sha256Update_stands stands (onePad c)) (be64enc c.nbits)
  have whole : m ++ onePad c ++ be64enc c.nbits = m ++ Fips180.padding m.length := by
    rw [onePad_eq stands, stands.counted, be64enc_eq, List.append_assoc]
    rfl
  rw [whole] at padded
  have absorbed := padded.absorbed
  have none := absorbed.length
  rw [Fips180.length_padded] at none
  rw [List.eq_nil_of_length_eq_zero none] at absorbed
  have digest := Fips180.digest_of_absorbed (fun h _ => sha256Block_hash h) sha256Init_hash
    absorbed
  have enc : be32enc = fun w => Fips180.bigEndian 4 w.toNat := funext be32enc_eq
  rw [← digest, Fips180.digest_hash, ← enc]
  rfl

end Sha256

/-! ## Agreement -/

/-- The digests of a message that is fed in pieces. -/
structure DigestsAgree (chunks : List (List UInt8)) : Prop where
  library : Sha256.sha256Final (chunks.foldl Sha256.sha256Update Sha256.sha256Init) =
    Fips180.sha256 chunks.flatten
  libraryOnce : Sha256.sha256 chunks.flatten = Fips180.sha256 chunks.flatten
  boot : Sha256b.final (chunks.foldl Sha256b.updateLong Sha256b.init) =
    Fips180.sha256 chunks.flatten
  bootOnce : Sha256b.final (Sha256b.updateLong Sha256b.init chunks.flatten) =
    Fips180.sha256 chunks.flatten
  counter : (chunks.foldl Sha256b.updateLong Sha256b.init).nbits = 8 * chunks.flatten.length
  target (c : Sha256b.Context) : ∀ p ∈ chunks, p.length < 2 ^ 32 →
    Sha256b.update c p = Sha256b.updateLong c p

/-- Both digests are the standard's, however the message is cut. -/
theorem digestsAgree (chunks : List (List UInt8)) (short : chunks.flatten.length < 2 ^ 61) :
    DigestsAgree chunks where
  library := Sha256.sha256Final_eq
    (Sha256.foldl_sha256Update_stands chunks Sha256.sha256Init_stands)
  libraryOnce := Sha256.sha256Final_eq
    (Sha256.sha256Update_stands Sha256.sha256Init_stands chunks.flatten)
  boot := Sha256b.final_eq (Sha256b.foldl_updateLong_stands chunks Sha256b.init_stands)
  bootOnce := Sha256b.final_eq
    (Sha256b.updateLong_stands Sha256b.init_stands chunks.flatten)
  counter := by
    have counted := (Sha256b.foldl_updateLong_stands chunks Sha256b.init_stands).counted
    rw [counted, List.nil_append]
    omega
  target c _ _ small := Sha256b.updateLong_eq c small

theorem digestsAgree_abc : DigestsAgree [[0x61], [], [0x62, 0x63]] :=
  digestsAgree [[0x61], [], [0x62, 0x63]] (by decide)

end RlxFw
