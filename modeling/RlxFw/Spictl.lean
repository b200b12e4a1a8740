import RlxFw.SpiDriver

/-!
# The two writers of the flash node

`src/lib/spictl.h`'s calls, the lines and the order of verbs that
`cfg_flash_write_slot_locked` and `upd_install` share, and how the driver reads
those lines back.
-/

namespace RlxFw.Spictl

open Install (Region Verb tokeq toklen parse)

/-! ## Lines -/

/-- `uint8_t md[SHA256_DIGEST_LEN]`. -/
abbrev Digest := { md : List UInt8 // md.length = 32 }

/-- `hx`. -/
def hx : List UInt8 := ascii "0123456789abcdef"

/-- The two digits of a byte. -/
def hexPair (b : UInt8) : List UInt8 :=
  [byteAt hx (b >>> 4 &&& 0x0F).toNat, byteAt hx (b &&& 0x0F).toNat]

/-- `%lx`. -/
def lowerHex (n : Nat) : List UInt8 :=
  (Nat.toDigits 16 n).map fun c => UInt8.ofNat c.toNat

/-- The arm line: the region exactly, its size the budget. -/
def armLine (base size : Nat) : List UInt8 :=
  ascii "arm 0x" ++ lowerHex base ++ ascii " 0x" ++ lowerHex (base + size) ++
    ascii " 0x" ++ lowerHex size

/-- The install line. -/
def installLine (name : List UInt8) (md : Digest) : List UInt8 :=
  ascii "install " ++ name ++ ascii " sha=" ++ md.1.flatMap hexPair

/-! ## The writers -/

/-- What a writer sends: a verb line, or the bytes it stages. -/
inductive Sent where
  | verb (line : List UInt8)
  | stage (bytes : List UInt8)
deriving DecidableEq, Repr

/-- What the calls of `spictl.h` answer, on a world of their own: whether they
returned 0, and what a field read as. -/
structure Node (World : Type) where
  lock : World → Bool × World
  verb : List UInt8 → World → Bool × World
  stage : List UInt8 → World → Bool × World
  fieldU32 : List UInt8 → World → Option Nat × World
  field : List UInt8 → World → Option (List UInt8) × World

/-- A writer.  It stops at the step it names. -/
abbrev Writer (World Value : Type) : Type :=
  Emission World Sent (List UInt8) Value

section Writers

variable {World : Type} (node : Node World)

open Emission (issue step stop)

/-- `spictl_verb`. -/
def verb (line : List UInt8) : Writer World Bool := do
  issue (.verb line)
  step (node.verb line)

/-- `spictl_stage`. -/
def stage (bytes : List UInt8) : Writer World Bool := do
  issue (.stage bytes)
  step (node.stage bytes)

/-- `cf_abort` and `upd_abort`: one cleanup verb, whatever it answers. -/
def abort (at_ : List UInt8) : Writer World Unit := do
  let _ ← verb node (ascii "img reset")
  stop at_

/-- Go on, or abort at a step. -/
def expect (at_ : List UInt8) (holds : Bool) : Writer World Unit :=
  if holds then pure () else abort node at_

/-- A field of the node that must read as a number. -/
def number (name : List UInt8) : Writer World Nat := do
  let read ← step (node.fieldU32 name)
  expect node name read.isSome
  pure (read.getD 0)

/-- A field of the node that must read as a text. -/
def text (name expected : List UInt8) : Writer World Unit := do
  let read ← step (node.field name)
  expect node name (read == some expected)

/-- What a writer has for a region: its name, where it starts, and its size. -/
structure Place where
  name : List UInt8
  base : Nat
  size : Nat
deriving DecidableEq, Repr

/-- The steps that `cfg_flash_write_slot_locked` and `upd_install` share, from
`disarm` to the count of flash operations. -/
def writeRegion (place : Place) (img : List UInt8) (md : Digest) (want : Nat) :
    Writer World Unit := do
  expect node (ascii "disarm") (← verb node (ascii "disarm"))
  expect node (ascii "img reset") (← verb node (ascii "img reset"))
  expect node (ascii "stage") (← stage node img)
  let ilen ← number node (ascii "img_len")
  expect node (ascii "img_len") (ilen == img.length)
  text node (ascii "img_err") (ascii "none")
  let nw0 ← number node (ascii "n_writes")
  expect node (ascii "arm") (← verb node (armLine place.base place.size))
  expect node (ascii "install") (← verb node (installLine place.name md))
  text node (ascii "inst_reason") (ascii "OK")
  let ok ← number node (ascii "inst_cmp_ok")
  expect node (ascii "inst_cmp_ok") (ok == 1)
  let differ ← number node (ascii "inst_cmp_diff")
  expect node (ascii "inst_cmp_diff") (differ == 0)
  let nw1 ← number node (ascii "n_writes")
  expect node (ascii "n_writes") ((nw1 + 2 ^ 32 - nw0) % 2 ^ 32 == want)

end Writers

/-! ## Tokens -/

theorem toklen_token {tok : List UInt8} (whole : (0x20 : UInt8) ∉ tok)
    (rest : List UInt8) :
    toklen (tok ++ 0x20 :: rest) = tok.length := by
  have kept : ∀ c ∈ tok, (c != 0x20) = true := fun c member =>
    bne_iff_ne.mpr fun space => whole (space ▸ member)
  unfold Install.toklen
  rw [List.takeWhile_append_of_pos kept]
  simp

theorem toklen_last {tok : List UInt8} (whole : (0x20 : UInt8) ∉ tok) :
    toklen tok = tok.length := by
  have kept : ∀ c ∈ tok, (c != 0x20) = true := fun c member =>
    bne_iff_ne.mpr fun space => whole (space ▸ member)
  unfold Install.toklen
  rw [List.takeWhile_eq_self_iff.mpr kept]

theorem tokeq_token (tok rest lit : List UInt8) :
    tokeq (tok ++ rest) tok.length lit = (tok == lit) := by
  unfold Install.tokeq
  rw [List.take_left]

/-! ## Digests -/

theorem hexval_hx {d : Nat} (small : d < 16) :
    Install.hexval (byteAt hx d) = some (UInt8.ofNat d) := by
  have all : ∀ d < 16, Install.hexval (byteAt hx d) = some (UInt8.ofNat d) := by
    decide
  exact all d small

/-- The halves of a byte make the byte. -/
theorem byte_halves (b : UInt8) :
    (b >>> 4 &&& 0x0F) <<< 4 ||| (b &&& 0x0F) = b := by
  revert b
  refine forall_byte ?_
  decide

theorem nibble_small (b : UInt8) : (b &&& 0x0F).toNat < 16 := by
  revert b
  refine forall_byte ?_
  decide

theorem hexPair_noSpace (b : UInt8) : (0x20 : UInt8) ∉ hexPair b := by
  have all : ∀ d < 16, byteAt hx d ≠ 0x20 := by decide
  unfold hexPair
  simp only [List.mem_cons, List.not_mem_nil, or_false, not_or]
  exact ⟨(all _ (nibble_small _)).symm, (all _ (nibble_small _)).symm⟩

theorem hexPairs_noSpace (bytes : List UInt8) :
    (0x20 : UInt8) ∉ bytes.flatMap hexPair := by
  simp only [List.mem_flatMap, not_exists, not_and]
  exact fun b _ => hexPair_noSpace b

theorem hexPairs_length (bytes : List UInt8) :
    (bytes.flatMap hexPair).length = 2 * bytes.length := by
  induction bytes with
  | nil => rfl
  | cons b rest ih =>
      rw [List.flatMap_cons, List.length_append, ih, List.length_cons]
      change 2 + 2 * rest.length = _
      omega

/-- The digits of a byte stand at twice its index. -/
theorem byteAt_hexPairs (bytes : List UInt8) (i : Nat)
    (inside : i < bytes.length) :
    byteAt (bytes.flatMap hexPair) (2 * i) =
        byteAt hx (bytes[i] >>> 4 &&& 0x0F).toNat ∧
      byteAt (bytes.flatMap hexPair) (2 * i + 1) =
        byteAt hx (bytes[i] &&& 0x0F).toNat := by
  induction bytes generalizing i with
  | nil => exact absurd inside (Nat.not_lt_zero i)
  | cons b rest ih =>
      cases i with
      | zero => exact ⟨rfl, rfl⟩
      | succ i =>
          have short : i < rest.length := Nat.lt_of_succ_lt_succ inside
          exact ih i short

theorem mapM_eq_some {α β : Type} {f : α → Option β} {g : α → β} {l : List α}
    (each : ∀ a ∈ l, f a = some (g a)) : l.mapM f = some (l.map g) := by
  induction l with
  | nil => rfl
  | cons a rest ih =>
      rw [List.mapM_cons, each a List.mem_cons_self,
        ih fun b member => each b (List.mem_cons_of_mem a member)]
      rfl

/-- The digest typed is the digest read. -/
theorem parseSha_hexPairs (md : Digest) :
    Install.parseSha (md.1.flatMap hexPair) = some md.1 := by
  have each : ∀ i ∈ List.range 32,
      (do
        let hi ← Install.hexval (byteAt (md.1.flatMap hexPair) (2 * i))
        let lo ← Install.hexval (byteAt (md.1.flatMap hexPair) (2 * i + 1))
        pure (hi <<< 4 ||| lo)) = some (md.1.getD i 0) := by
    intro i member
    have inside : i < md.1.length := by
      rw [md.2]
      exact List.mem_range.mp member
    obtain ⟨hi, lo⟩ := byteAt_hexPairs md.1 i inside
    rw [hi, lo, hexval_hx (nibble_small _), hexval_hx (nibble_small _)]
    simp only [Option.bind_eq_bind, Option.bind_some, UInt8.ofNat_toNat]
    rw [byte_halves, List.getD_eq_getElem _ _ inside]
    rfl
  have digits : (List.range 32).map (fun i => md.1.getD i 0) = md.1 := by
    refine List.ext_getElem (by simp [md.2]) ?_
    intro i _ inside
    rw [List.getElem_map, List.getElem_range, List.getD_eq_getElem _ _ inside]
  unfold Install.parseSha
  rw [mapM_eq_some each, digits]

/-! ## The install line -/

/-- What a tail of an install line is once its digest is read. -/
theorem parseTail_nil (rg : Region) (rq : Install.Req) :
    Install.parseTail [] rg rq = (.ok, rq) := rfl

theorem byteAt_blank (rest : List UInt8) :
    byteAt (0x20 :: rest) 0 = 0x20 := rfl

/-- A digest after a blank, at the end of a line. -/
theorem parseDigest_sha (md : Digest) (rg : Region) (rq : Install.Req) :
    Install.parseDigest (0x20 :: (ascii "sha=" ++ md.1.flatMap hexPair)) rg rq =
      (.ok, { rq with sha := md.1 }) := by
  have whole : (0x20 : UInt8) ∉ ascii "sha=" ++ md.1.flatMap hexPair := by
    rw [List.mem_append, not_or]
    exact ⟨by decide, hexPairs_noSpace md.1⟩
  have length : (ascii "sha=" ++ md.1.flatMap hexPair).length = 68 := by
    rw [List.length_append, hexPairs_length, md.2]
    rfl
  have counted := (toklen_last whole).trans length
  have named : Install.tokPrefix (ascii "sha=" ++ md.1.flatMap hexPair) 68
      (ascii "sha=") = 4 := by
    unfold Install.tokPrefix
    rw [← length, List.take_length, if_pos]
    · rfl
    · exact List.isPrefixOf_iff_prefix.mpr (List.prefix_append _ _)
  have rest : (ascii "sha=" ++ md.1.flatMap hexPair).drop 4 =
      md.1.flatMap hexPair := rfl
  have ended : (ascii "sha=" ++ md.1.flatMap hexPair).drop 68 = [] := by
    rw [← length, List.drop_length]
  unfold Install.parseDigest
  rw [byteAt_blank, if_neg (not_not.mpr rfl)]
  dsimp only
  rw [List.drop_one, List.tail_cons, counted, named, if_neg (by decide), rest,
    parseSha_hexPairs]
  dsimp only
  rw [ended, parseTail_nil]

/-- A region that an install can name, by a name of its own. -/
structure Installable (rg : Region) : Prop where
  mem : rg ∈ Install.regions
  kind : rg.kind = .rlxu ∨ rg.kind = .cfg

theorem Installable.name_noSpace {rg : Region} (named : Installable rg) :
    (0x20 : UInt8) ∉ rg.name ∧ rg.name ≠ [] := by
  have all : ∀ rg ∈ Install.regions, (0x20 : UInt8) ∉ rg.name ∧ rg.name ≠ [] := by
    decide
  exact all rg named.mem

theorem find_region {rg : Region} (member : rg ∈ Install.regions) :
    (Install.regions.find? fun r => rg.name == r.name) = some rg := by
  have all : ∀ rg ∈ Install.regions,
      (Install.regions.find? fun r => rg.name == r.name) = some rg := by
    decide
  exact all rg member

/-- The install line of a region is read as that region and that digest. -/
theorem parse_installLine {rg : Region} (named : Installable rg) (md : Digest) :
    parse (installLine rg.name md) =
      (.ok,
        { Install.emptyReq with
          verb := .install, region := some rg, sha := md.1 }) := by
  obtain ⟨noSpace, nonempty⟩ := named.name_noSpace
  have split : installLine rg.name md =
      ascii "install" ++ 0x20 :: (rg.name ++
        0x20 :: (ascii "sha=" ++ md.1.flatMap hexPair)) := by
    have first : ascii "install " = ascii "install" ++ [0x20] := rfl
    have second : ascii " sha=" = 0x20 :: ascii "sha=" := rfl
    unfold installLine
    rw [first, second]
    simp only [List.append_assoc, List.cons_append, List.nil_append]
  have verbLength := toklen_token
    (show (0x20 : UInt8) ∉ ascii "install" by decide)
    (rg.name ++ 0x20 :: (ascii "sha=" ++ md.1.flatMap hexPair))
  have nameLength := toklen_token noSpace
    (ascii "sha=" ++ md.1.flatMap hexPair)
  have kept : rg.name.length ≠ 0 := fun empty =>
    nonempty (List.length_eq_zero_iff.mp empty)
  unfold Install.parse
  rw [split]
  dsimp only
  rw [verbLength]
  simp only [tokeq_token]
  rw [if_neg (by decide), if_neg (by decide), if_neg (by decide),
    if_pos (by decide), List.drop_left]
  unfold Install.parseNamed
  dsimp only
  rw [byteAt_blank, if_neg (not_not.mpr rfl), List.drop_one, List.tail_cons,
    nameLength, if_neg kept]
  simp only [tokeq_token]
  rw [find_region named.mem, List.drop_left]
  dsimp only
  rcases named.kind with rlxu | cfg
  · rw [rlxu, if_neg (by decide), if_neg (by decide), if_neg (by decide),
      if_pos trivial, parseDigest_sha]
  · rw [cfg, if_neg (by decide), if_neg (by decide), if_neg (by decide),
      if_pos trivial, parseDigest_sha]

/-! ## The arm line -/

/-- The value of hexadecimal digits, the first the highest. -/
def hexValue (digits : List (Fin 16)) : Nat :=
  digits.foldl (fun value d => 16 * value + d.val) 0

/-- Hexadecimal digits in lower case. -/
def hexText (digits : List (Fin 16)) : List UInt8 :=
  digits.map fun d => byteAt hx d.val

/-- What the driver relies on of `simple_strtoul` at base 0: digits after `0x`
are read to the blank or the end that follows them. -/
def ReadsHex (strtoul : List UInt8 → Nat × List UInt8) : Prop :=
  ∀ (digits : List (Fin 16)) (rest : List UInt8), digits ≠ [] →
    hexValue digits < 2 ^ 32 → (rest = [] ∨ byteAt rest 0 = 0x20) →
    strtoul (ascii "0x" ++ (hexText digits ++ rest)) = (hexValue digits, rest)

theorem lowerHex_eq (n : Nat) :
    ∃ digits, digits ≠ [] ∧ hexValue digits = n ∧
      lowerHex n = hexText digits := by
  have digitChar : ∀ d < 16,
      UInt8.ofNat (Nat.digitChar d).toNat = byteAt hx d := by
    decide
  induction n using Nat.strong_induction_on with
  | _ n ih =>
      by_cases small : n < 16
      · refine ⟨[⟨n, small⟩], List.cons_ne_nil _ _, ?_, ?_⟩
        · change 16 * 0 + n = n
          omega
        · unfold lowerHex
          rw [Nat.toDigits_of_lt_base small, List.map_singleton,
            digitChar n small]
          rfl
      · obtain ⟨digits, -, value, text⟩ := ih (n / 16) (by omega)
        have low : n % 16 < 16 := Nat.mod_lt n (by omega)
        refine ⟨digits ++ [⟨n % 16, low⟩], by simp, ?_, ?_⟩
        · unfold hexValue at value ⊢
          rw [List.foldl_append, value, List.foldl_cons, List.foldl_nil]
          exact Nat.div_add_mod n 16
        · unfold lowerHex hexText at text ⊢
          rw [Nat.toDigits_of_base_le (by omega) (by omega), List.map_append,
            text, List.map_append, List.map_singleton, digitChar _ low]
          rfl

section Machine

variable {World : Type} {m : Spi.Machine World}

/-- A line that starts as an arm line does is one. -/
theorem dispatch_arm (b : Spi.Boot) (arg : List UInt8) :
    Spi.dispatch m b (ascii "arm " ++ arg) = Spi.verbArm m arg := by
  have other (lit : List UInt8) (head : lit.head? ≠ some 0x61) :
      ascii "arm " ++ arg ≠ lit := fun same => head (same ▸ rfl)
  have named : (ascii "arm ").isPrefixOf (ascii "arm " ++ arg) = true :=
    List.isPrefixOf_iff_prefix.mpr (List.prefix_append _ _)
  have rest : (ascii "arm " ++ arg).drop 4 = arg := rfl
  unfold Spi.dispatch
  rw [if_neg (other _ (by decide)), if_neg (other _ (by decide)),
    if_neg (other _ (by decide)), if_neg (other _ (by decide)),
    if_neg (other _ (by decide)), if_neg (other _ (by decide)), if_pos named,
    rest]

variable (reads : ReadsHex m.strtoul)

include reads

/-- A number of the arm line, at the start of what is left. -/
theorem armNumber_lowerHex {n : Nat} (small : n < 2 ^ 32) {rest : List UInt8}
    (ends : rest = [] ∨ byteAt rest 0 = 0x20) :
    Spi.armNumber m (ascii "0x" ++ (lowerHex n ++ rest)) = some (n, rest) := by
  obtain ⟨digits, nonempty, value, text⟩ := lowerHex_eq n
  have start : Spi.skipBlanks (ascii "0x" ++ (lowerHex n ++ rest)) =
      ascii "0x" ++ (lowerHex n ++ rest) := rfl
  have parsed : m.strtoul (ascii "0x" ++ (lowerHex n ++ rest)) = (n, rest) := by
    rw [text, reads digits rest nonempty (value ▸ small) ends, value]
  have shorter : rest ≠ ascii "0x" ++ (lowerHex n ++ rest) := by
    intro same
    have lengths := congrArg List.length same
    rw [List.length_append, List.length_append] at lengths
    change _ = 2 + _ at lengths
    omega
  unfold Spi.armNumber
  dsimp only
  rw [start, parsed, if_neg shorter, Nat.mod_eq_of_lt small]

/-- A number of the arm line, after its blank. -/
theorem armNumber_blank {n : Nat} (small : n < 2 ^ 32) {rest : List UInt8}
    (ends : rest = [] ∨ byteAt rest 0 = 0x20) :
    Spi.armNumber m (ascii " 0x" ++ (lowerHex n ++ rest)) = some (n, rest) :=
  armNumber_lowerHex reads small ends

/-- The numbers of an arm line are its region's. -/
theorem verbArm_numbers {base size : Nat} (small : base + size < 2 ^ 32) :
    Spi.verbArm m (ascii "0x" ++ (lowerHex base ++ (ascii " 0x" ++
        (lowerHex (base + size) ++ (ascii " 0x" ++ (lowerHex size ++ [])))))) =
      Spi.doArm base (base + size) size := by
  unfold Spi.verbArm
  rw [armNumber_lowerHex reads (by omega) (Or.inr rfl)]
  dsimp only [Option.bind_eq_bind, Option.bind_some]
  rw [armNumber_blank reads small (Or.inr rfl)]
  dsimp only [Option.bind_some]
  rw [armNumber_blank reads (by omega) (Or.inl rfl)]
  rfl

/-- The arm line arms the region it was built for. -/
theorem dispatch_armLine (b : Spi.Boot) {base size : Nat}
    (small : base + size < 2 ^ 32)
    (policy : WrPolicy.chkArm base (base + size) size = .ok)
    (s : Spi.State World) :
    Spi.dispatch m b (armLine base size) s =
      (.ok none,
        { s with
          driver :=
            { s.driver with
              arm :=
                { armed := true, lo := base, hi := base + size
                  budget := size } } }, []) := by
  have line : armLine base size = ascii "arm " ++ (ascii "0x" ++
      (lowerHex base ++ (ascii " 0x" ++ (lowerHex (base + size) ++
        (ascii " 0x" ++ (lowerHex size ++ [])))))) := by
    have first : ascii "arm 0x" = ascii "arm " ++ ascii "0x" := rfl
    unfold armLine
    rw [first]
    simp only [List.append_assoc, List.append_nil]
  rw [line, dispatch_arm, verbArm_numbers reads small]
  unfold Spi.doArm
  dsimp only
  rw [if_pos policy]
  rfl

end Machine

end RlxFw.Spictl
