import RlxFw.InstallRegion

/-!
# The install path's verbs

`rlxfw_spi_inst_parse` and its helpers, on a line given as the bytes of a C
string.  A line is refused whole or read whole, and no verb takes an address:
what a request can reach is a region of the table.
-/

namespace RlxFw.Install

/-- `RLXFW_SPI_INST_PACE_MAX`. -/
def paceMax : Nat := 30000
/-- `RLXFW_SPI_INST_LOOP_MAX`. -/
def loopMax : Nat := 64

/-- The verb of a request. -/
inductive Verb where
  | none
  | install
  | erase
  | probe
  | ctr
  | ctrloop
  | ctrshow
deriving DecidableEq, Repr

/-- `struct rlxfw_spi_inst_req`, with the region itself for its index. -/
structure Req where
  verb : Verb
  region : Option Region
  sha : List UInt8
  paceMs : Nat
  repeats : Nat
  ctrN : Nat
  loops : Nat
deriving DecidableEq, Repr

/-- The request a parse starts from. -/
def emptyReq : Req :=
  { verb := .none, region := none, sha := List.replicate 32 0, paceMs := 0
    repeats := 0, ctrN := 0, loops := 0 }

/-- `rlxfw_spi_inst_toklen`: up to a space or the end. -/
def toklen (s : List UInt8) : Nat := (s.takeWhile fun c => c != 0x20).length

/-- `rlxfw_spi_inst_tokeq`. -/
def tokeq (s : List UInt8) (n : Nat) (lit : List UInt8) : Bool :=
  s.take n == lit

/-- `rlxfw_spi_inst_prefix`: the literal's length, or 0. -/
def tokPrefix (s : List UInt8) (n : Nat) (lit : List UInt8) : Nat :=
  if lit.isPrefixOf (s.take n) then lit.length else 0

/-- `rlxfw_spi_inst_hexval`. -/
def hexval (c : UInt8) : Option UInt8 :=
  if 0x30 ≤ c ∧ c ≤ 0x39 then some (c - 0x30)
  else if 0x61 ≤ c ∧ c ≤ 0x66 then some (c - 0x61 + 10)
  else if 0x41 ≤ c ∧ c ≤ 0x46 then some (c - 0x41 + 10)
  else none

/-- One digit of `rlxfw_spi_inst_dec`, refused when it is none or when the
value would pass a `u32`. -/
def decStep (v : Nat) (c : UInt8) : Option Nat :=
  if c < 0x30 ∨ c > 0x39 then none
  else
    let d := (c - 0x30).toNat
    if v > (0xFFFFFFFF - d) / 10 then none else some (v * 10 + d)

/-- `rlxfw_spi_inst_dec`: 1 to 10 digits, no sign. -/
def dec (s : List UInt8) (n : Nat) : Option Nat :=
  if n = 0 ∨ n > 10 then none else (s.take n).foldlM decStep 0

/-- `rlxfw_spi_inst_kind_index`: the last region of a kind. -/
def kindIndex (kind : Kind) : Option Region :=
  (regions.filter fun rg => rg.kind = kind).getLast?

/-- `rlxfw_spi_inst_num_tail`: a space, `1..max` digits, the first not 0, and
the end. -/
def numTail (s : List UInt8) (max : Nat) : Option Nat :=
  if byteAt s 0 ≠ 0x20 then none
  else
    let s := s.drop 1
    let n := toklen s
    if n = 0 ∨ n > max ∨ byteAt s 0 = 0x30 ∨ byteAt s n ≠ 0 then none
    else dec s n

/-- `rlxfw_spi_inst_parse_ctr`. -/
def parseCtr (s : List UInt8) : Reason × Req :=
  let rq := { emptyReq with verb := .ctr }
  match numTail s 4 with
  | none => (.badSyntax, rq)
  | some v =>
      if v > ctrBits then (.ctrAbove, rq)
      else (.ok, { rq with ctrN := v })

/-- `rlxfw_spi_inst_parse_ctrloop`. -/
def parseCtrloop (s : List UInt8) : Reason × Req :=
  let rq := { emptyReq with verb := .ctrloop, region := kindIndex .probe }
  if rq.region = none then (.region, rq)
  else if byteAt s 0 = 0x20 ∧
      tokeq (s.drop 1) (toklen (s.drop 1)) (ascii "show") = true ∧
      byteAt s 5 = 0 then
    (.ok, { rq with verb := .ctrshow })
  else
    match numTail s 2 with
    | none => (.badSyntax, rq)
    | some v =>
        if v = 0 ∨ v > loopMax then (.badSyntax, rq)
        else (.ok, { rq with loops := v })

/-- `eraseprobe`, which takes nothing after it. -/
def parseProbe (s : List UInt8) : Reason × Req :=
  let rq := { emptyReq with verb := .probe }
  if byteAt s 0 ≠ 0 then (.badSyntax, rq)
  else
    let rq := { rq with region := kindIndex .probe }
    if rq.region = none then (.region, rq) else (.ok, rq)

/-- The typed digest: 32 pairs of hex digits. -/
def parseSha (s : List UInt8) : Option (List UInt8) :=
  (List.range 32).mapM fun i => do
    let hi ← hexval (byteAt s (2 * i))
    let lo ← hexval (byteAt s (2 * i + 1))
    pure (hi <<< 4 ||| lo)

/-- What may follow a named region and its digest: `repeat=` or `pace=`, then
the end. -/
def parseTail (s : List UInt8) (rg : Region) (rq : Req) : Reason × Req :=
  if byteAt s 0 = 0x20 then
    let s := s.drop 1
    let n := toklen s
    if rq.verb = .install ∧ tokPrefix s n (ascii "repeat=") = 7 then
      if n ≠ 8 ∨ byteAt s 7 < 0x32 ∨ byteAt s 7 > 0x38 then (.badSyntax, rq)
      else if rg.kind ≠ .rlxu then (.repeatOnlySlot, rq)
      else
        let rq := { rq with repeats := (byteAt s 7 - 0x30).toNat }
        if byteAt s n ≠ 0 then (.badSyntax, rq) else (.ok, rq)
    else if tokPrefix s n (ascii "pace=") ≠ 5 ∨ n > 10 ∨
        byteAt s 5 = 0x30 then
      (.badSyntax, rq)
    else
      match dec (s.drop 5) (n - 5) with
      | none => (.badSyntax, rq)
      | some v =>
          if v = 0 ∨ v > paceMax then (.badSyntax, rq)
          else
            let rq := { rq with paceMs := v }
            if byteAt s n ≠ 0 then (.badSyntax, rq) else (.ok, rq)
  else if byteAt s 0 ≠ 0 then (.badSyntax, rq)
  else (.ok, rq)

/-- A digest and the tail, after `install` and a region. -/
def parseDigest (s : List UInt8) (rg : Region) (rq : Req) : Reason × Req :=
  if byteAt s 0 ≠ 0x20 then (.badSyntax, rq)
  else
    let s := s.drop 1
    let n := toklen s
    if n ≠ 4 + 64 ∨ tokPrefix s n (ascii "sha=") ≠ 4 then (.badSyntax, rq)
    else
      match parseSha (s.drop 4) with
      | none => (.badSyntax, rq)
      | some sha => parseTail (s.drop n) rg { rq with sha := sha }

/-- `install` and `erase`, after their first token. -/
def parseNamed (verb : Verb) (s : List UInt8) : Reason × Req :=
  let rq := { emptyReq with verb := verb }
  if byteAt s 0 ≠ 0x20 then (.badSyntax, rq)
  else
    let s := s.drop 1
    let n := toklen s
    if n = 0 then (.badSyntax, rq)
    else
      match regions.find? fun rg => tokeq s n rg.name with
      | none => (.region, rq)
      | some rg =>
          let rq := { rq with region := some rg }
          if rg.kind = .probe then (.probeOnly, rq)
          else if verb = .install ∧ rg.kind = .erase then (.eraseOnly, rq)
          else if verb = .erase ∧ rg.kind ≠ .erase ∧ rg.kind ≠ .cfg then
            (.notErasable, rq)
          else if verb = .install then parseDigest (s.drop n) rg rq
          else parseTail (s.drop n) rg rq

/-- `rlxfw_spi_inst_parse`. -/
def parse (s : List UInt8) : Reason × Req :=
  let n := toklen s
  if tokeq s n (ascii "ctr") then parseCtr (s.drop n)
  else if tokeq s n (ascii "ctrloop") then parseCtrloop (s.drop n)
  else if tokeq s n (ascii "eraseprobe") then parseProbe (s.drop n)
  else if tokeq s n (ascii "install") then parseNamed .install (s.drop n)
  else if tokeq s n (ascii "erase") then parseNamed .erase (s.drop n)
  else (.badSyntax, emptyReq)

/-! ## The region a request names -/

theorem kindIndex_probe : kindIndex .probe = some probeRegion := by
  decide

theorem parseTail_region (s : List UInt8) (rg : Region) (rq : Req) :
    (parseTail s rg rq).2.region = rq.region ∧
      (parseTail s rg rq).2.verb = rq.verb := by
  unfold parseTail
  dsimp only
  split
  · split
    · split_ifs <;> exact ⟨rfl, rfl⟩
    · split
      · exact ⟨rfl, rfl⟩
      · split
        · exact ⟨rfl, rfl⟩
        · split_ifs <;> exact ⟨rfl, rfl⟩
  · split_ifs <;> exact ⟨rfl, rfl⟩

theorem parseDigest_region (s : List UInt8) (rg : Region) (rq : Req) :
    (parseDigest s rg rq).2.region = rq.region ∧
      (parseDigest s rg rq).2.verb = rq.verb := by
  unfold parseDigest
  dsimp only
  split
  · exact ⟨rfl, rfl⟩
  · split
    · exact ⟨rfl, rfl⟩
    · split
      · exact ⟨rfl, rfl⟩
      · exact parseTail_region _ _ _

theorem parseNamed_region (verb : Verb) (s : List UInt8) :
    (parseNamed verb s).2.verb = verb ∧
      ∀ rg, (parseNamed verb s).2.region = some rg → rg ∈ regions := by
  have unnamed (why : Reason) :
      ∀ rg, (why, { emptyReq with verb := verb }).2.region = some rg →
        rg ∈ regions := by
    intro rg named
    cases named
  unfold parseNamed
  dsimp only
  split
  · exact ⟨rfl, unnamed .badSyntax⟩
  · split
    · exact ⟨rfl, unnamed .badSyntax⟩
    · split
      · exact ⟨rfl, unnamed .region⟩
      · rename_i rg found
        have listed : ∀ rg', some rg = some rg' → rg' ∈ regions := by
          rintro rg' ⟨⟩
          exact List.mem_of_find?_eq_some found
        split_ifs
        · exact ⟨rfl, listed⟩
        · exact ⟨rfl, listed⟩
        · exact ⟨rfl, listed⟩
        · obtain ⟨sameRegion, sameVerb⟩ := parseDigest_region
            ((s.drop 1).drop (toklen (s.drop 1))) rg
            { emptyReq with verb := verb, region := some rg }
          exact ⟨sameVerb, fun rg' named => listed rg' (sameRegion.symm.trans named)⟩
        · obtain ⟨sameRegion, sameVerb⟩ := parseTail_region
            ((s.drop 1).drop (toklen (s.drop 1))) rg
            { emptyReq with verb := verb, region := some rg }
          exact ⟨sameVerb, fun rg' named => listed rg' (sameRegion.symm.trans named)⟩

/-- What a request says of its region: it is in the table, and the scratch
loop's is the probe block. -/
structure Req.Named (rq : Req) : Prop where
  listed : ∀ rg, rq.region = some rg → rg ∈ regions
  scratch : rq.verb = .ctrloop ∨ rq.verb = .ctrshow →
    rq.region = some probeRegion

theorem Req.Named.ofNone {rq : Req} (unnamed : rq.region = none)
    (other : ¬ (rq.verb = .ctrloop ∨ rq.verb = .ctrshow)) : rq.Named where
  listed := fun rg named => by
    rw [unnamed] at named
    cases named
  scratch := fun scratch => absurd scratch other

theorem Req.Named.ofProbe {rq : Req} (named : rq.region = some probeRegion) :
    rq.Named where
  listed := fun rg same => by
    rw [named] at same
    cases same
    decide
  scratch := fun _ => named

theorem parseCtr_named (s : List UInt8) : (parseCtr s).2.Named := by
  unfold parseCtr
  dsimp only
  split
  · exact .ofNone rfl (by simp)
  · split <;> exact .ofNone rfl (by simp)

theorem parseCtrloop_named (s : List UInt8) : (parseCtrloop s).2.Named := by
  unfold parseCtrloop
  rw [kindIndex_probe]
  dsimp only
  split
  · exact .ofProbe rfl
  · split
    · exact .ofProbe rfl
    · split
      · exact .ofProbe rfl
      · split <;> exact .ofProbe rfl

theorem parseProbe_named (s : List UInt8) : (parseProbe s).2.Named := by
  unfold parseProbe
  rw [kindIndex_probe]
  dsimp only
  split
  · exact .ofNone rfl (by simp)
  · split <;> exact .ofProbe rfl

theorem parse_named (s : List UInt8) : (parse s).2.Named := by
  have installs := parseNamed_region .install (s.drop (toklen s))
  have erases := parseNamed_region .erase (s.drop (toklen s))
  unfold parse
  dsimp only
  split_ifs
  · exact parseCtr_named _
  · exact parseCtrloop_named _
  · exact parseProbe_named _
  · exact ⟨installs.2, fun scratch => absurd scratch (by simp [installs.1])⟩
  · exact ⟨erases.2, fun scratch => absurd scratch (by simp [erases.1])⟩
  · exact .ofNone rfl (by decide)

end RlxFw.Install
