import RlxFw.InstallParse

/-!
# The verbs, read byte by byte

`rlxfw_spi_inst_parse` over the bytes it may read: a pointer is the cells from
it to the line's NUL, and a read past them has no answer.  Literals are read
the same way, with their own NULs.
-/

namespace RlxFw.Install.Reads

/-- `rlxfw_spi_inst_toklen`. -/
def toklen : List UInt8 → Option Nat
  | [] => none
  | c :: s => if c ≠ 0 ∧ c ≠ 0x20 then (toklen s).map (· + 1) else some 0

/-- `rlxfw_spi_inst_tokeq`. -/
def tokeq : List UInt8 → Nat → List UInt8 → Option Bool
  | _, 0, lit => do
      let end_ ← lit[0]?
      pure (end_ == 0)
  | s, n + 1, lit => do
      let expected ← lit[0]?
      let c ← s[0]?
      if expected ≠ c then pure false else tokeq s.tail n lit.tail

/-- `rlxfw_spi_inst_prefix`, with `i` bytes of the literal behind. -/
def tokPrefixFrom (s : List UInt8) (n i : Nat) : List UInt8 → Option Nat
  | [] => none
  | expected :: lit =>
      if expected = 0 then some i
      else if i ≥ n then some 0
      else do
        let c ← s[i]?
        if expected ≠ c then some 0 else tokPrefixFrom s n (i + 1) lit

/-- `rlxfw_spi_inst_prefix`. -/
def tokPrefix (s : List UInt8) (n : Nat) (lit : List UInt8) : Option Nat :=
  tokPrefixFrom s n 0 lit

/-- The digits of `rlxfw_spi_inst_dec`, after `v`. -/
def decFrom : List UInt8 → Nat → Nat → Option (Option Nat)
  | _, 0, v => some (some v)
  | s, n + 1, v => do
      let c ← s[0]?
      match decStep v c with
      | none => some none
      | some v => decFrom s.tail n v

/-- `rlxfw_spi_inst_dec`. -/
def dec (s : List UInt8) (n : Nat) : Option (Option Nat) :=
  if n = 0 ∨ n > 10 then some none else decFrom s n 0

/-- `rlxfw_spi_inst_num_tail`. -/
def numTail (s : List UInt8) (max : Nat) : Option (Option Nat) := do
  let blank ← s[0]?
  if blank ≠ 0x20 then pure none
  else do
    let s := s.drop 1
    let n ← toklen s
    if n = 0 ∨ n > max then pure none
    else do
      let lead ← s[0]?
      if lead = 0x30 then pure none
      else do
        let end_ ← s[n]?
        if end_ ≠ 0 then pure none else dec s n

/-- `rlxfw_spi_inst_parse_ctr`. -/
def parseCtr (s : List UInt8) : Option (Reason × Req) := do
  let rq := { emptyReq with verb := .ctr }
  match ← numTail s 4 with
  | none => pure (.badSyntax, rq)
  | some v =>
      if v > ctrBits then pure (.ctrAbove, rq)
      else pure (.ok, { rq with ctrN := v })

/-- Whether the line goes on with ` show` and ends. -/
def isShow (s : List UInt8) : Option Bool := do
  let blank ← s[0]?
  if blank ≠ 0x20 then pure false
  else do
    let n ← toklen (s.drop 1)
    if (← tokeq (s.drop 1) n (ascii "show" ++ [0])) = false then pure false
    else do
      let end_ ← s[5]?
      pure (end_ == 0)

/-- `rlxfw_spi_inst_parse_ctrloop`. -/
def parseCtrloop (s : List UInt8) : Option (Reason × Req) :=
  let rq := { emptyReq with verb := .ctrloop, region := kindIndex .probe }
  if rq.region = none then some (.region, rq)
  else do
    if (← isShow s) = true then pure (.ok, { rq with verb := .ctrshow })
    else
      match ← numTail s 2 with
      | none => pure (.badSyntax, rq)
      | some v =>
          if v = 0 ∨ v > loopMax then pure (.badSyntax, rq)
          else pure (.ok, { rq with loops := v })

/-- `eraseprobe`. -/
def parseProbe (s : List UInt8) : Option (Reason × Req) := do
  let rq := { emptyReq with verb := .probe }
  let end_ ← s[0]?
  if end_ ≠ 0 then pure (.badSyntax, rq)
  else
    let rq := { rq with region := kindIndex .probe }
    if rq.region = none then pure (.region, rq) else pure (.ok, rq)

/-- The pairs of hex digits at the given places. -/
def shaFrom (s : List UInt8) : List Nat → Option (Option (List UInt8))
  | [] => some (some [])
  | i :: places => do
      let hi ← s[2 * i]?
      let lo ← s[2 * i + 1]?
      match hexval hi, hexval lo with
      | some hi, some lo => do
          let rest ← shaFrom s places
          pure (rest.map ((hi <<< 4 ||| lo) :: ·))
      | _, _ => pure none

/-- The typed digest. -/
def parseSha (s : List UInt8) : Option (Option (List UInt8)) :=
  shaFrom s (List.range 32)

/-- The check that nothing follows. -/
def parseEnd (s : List UInt8) (rq : Req) : Option (Reason × Req) := do
  let end_ ← s[0]?
  if end_ ≠ 0 then pure (.badSyntax, rq) else pure (.ok, rq)

/-- `repeat=`, with the token's `n` bytes. -/
def parseRepeat (s : List UInt8) (n : Nat) (rg : Region) (rq : Req) :
    Option (Reason × Req) :=
  if n ≠ 8 then some (.badSyntax, rq)
  else do
    let k ← s[7]?
    if k < 0x32 ∨ k > 0x38 then pure (.badSyntax, rq)
    else if rg.kind ≠ .rlxu then pure (.repeatOnlySlot, rq)
    else parseEnd (s.drop n) { rq with repeats := (k - 0x30).toNat }

/-- `pace=`, with the token's `n` bytes. -/
def parsePace (s : List UInt8) (n : Nat) (rq : Req) : Option (Reason × Req) := do
  if (← tokPrefix s n (ascii "pace=" ++ [0])) ≠ 5 ∨ n > 10 then
    pure (.badSyntax, rq)
  else do
    let lead ← s[5]?
    if lead = 0x30 then pure (.badSyntax, rq)
    else
      match ← dec (s.drop 5) (n - 5) with
      | none => pure (.badSyntax, rq)
      | some v =>
          if v = 0 ∨ v > paceMax then pure (.badSyntax, rq)
          else parseEnd (s.drop n) { rq with paceMs := v }

/-- What may follow a named region and its digest. -/
def parseTail (s : List UInt8) (rg : Region) (rq : Req) :
    Option (Reason × Req) := do
  let blank ← s[0]?
  if blank = 0x20 then do
    let s := s.drop 1
    let n ← toklen s
    if rq.verb = .install then do
      if (← tokPrefix s n (ascii "repeat=" ++ [0])) = 7 then parseRepeat s n rg rq
      else parsePace s n rq
    else parsePace s n rq
  else parseEnd s rq

/-- A digest and the tail. -/
def parseDigest (s : List UInt8) (rg : Region) (rq : Req) :
    Option (Reason × Req) := do
  let blank ← s[0]?
  if blank ≠ 0x20 then pure (.badSyntax, rq)
  else do
    let s := s.drop 1
    let n ← toklen s
    if n ≠ 4 + 64 then pure (.badSyntax, rq)
    else if (← tokPrefix s n (ascii "sha=" ++ [0])) ≠ 4 then pure (.badSyntax, rq)
    else
      match ← parseSha (s.drop 4) with
      | none => pure (.badSyntax, rq)
      | some sha => parseTail (s.drop n) rg { rq with sha := sha }

/-- The first region with a token's name. -/
def findRegion (s : List UInt8) (n : Nat) : List Region → Option (Option Region)
  | [] => some none
  | rg :: table => do
      if (← tokeq s n (rg.name ++ [0])) = true then pure (some rg)
      else findRegion s n table

/-- `install` and `erase`, after their first token. -/
def parseNamed (verb : Verb) (s : List UInt8) : Option (Reason × Req) := do
  let rq := { emptyReq with verb := verb }
  let blank ← s[0]?
  if blank ≠ 0x20 then pure (.badSyntax, rq)
  else do
    let s := s.drop 1
    let n ← toklen s
    if n = 0 then pure (.badSyntax, rq)
    else
      match ← findRegion s n regions with
      | none => pure (.region, rq)
      | some rg =>
          let rq := { rq with region := some rg }
          if rg.kind = .probe then pure (.probeOnly, rq)
          else if verb = .install ∧ rg.kind = .erase then pure (.eraseOnly, rq)
          else if verb = .erase ∧ rg.kind ≠ .erase ∧ rg.kind ≠ .cfg then
            pure (.notErasable, rq)
          else if verb = .install then parseDigest (s.drop n) rg rq
          else parseTail (s.drop n) rg rq

/-- `rlxfw_spi_inst_parse`, from the cells of a line and its NUL. -/
def parse (s : List UInt8) : Option (Reason × Req) := do
  let n ← toklen s
  if (← tokeq s n (ascii "ctr" ++ [0])) = true then parseCtr (s.drop n)
  else if (← tokeq s n (ascii "ctrloop" ++ [0])) = true then
    parseCtrloop (s.drop n)
  else if (← tokeq s n (ascii "eraseprobe" ++ [0])) = true then
    parseProbe (s.drop n)
  else if (← tokeq s n (ascii "install" ++ [0])) = true then
    parseNamed .install (s.drop n)
  else if (← tokeq s n (ascii "erase" ++ [0])) = true then
    parseNamed .erase (s.drop n)
  else pure (.badSyntax, emptyReq)

/-! ## The reads stop at the NUL -/

section Inside

variable {s : List UInt8}

theorem cell_eq {i : Nat} (inside : i ≤ s.length) :
    (s ++ [0])[i]? = some (byteAt s i) := by
  rcases Nat.lt_or_ge i s.length with before | end_
  · rw [List.getElem?_append_left before, List.getElem?_eq_getElem before, byteAt,
      List.getD_eq_getElem _ _ before]
  · obtain rfl : i = s.length := Nat.le_antisymm inside end_
    rw [List.getElem?_append_right le_rfl, Nat.sub_self, byteAt,
      List.getD_eq_default _ _ le_rfl]
    rfl

theorem byteAt_length : byteAt s s.length = 0 := by
  rw [byteAt, List.getD_eq_default _ _ le_rfl]

theorem length_pos_of_blank (blank : byteAt s 0 = 0x20) : 1 ≤ s.length := by
  cases s with
  | nil => exact absurd blank (by decide)
  | cons _ s => exact Nat.succ_le_succ (Nat.zero_le _)

theorem drop_cells {n : Nat} (inside : n ≤ s.length) :
    (s ++ [0]).drop n = s.drop n ++ [0] :=
  List.drop_append_of_le_length inside

theorem noNul_drop (noNul : (0 : UInt8) ∉ s) (n : Nat) : (0 : UInt8) ∉ s.drop n :=
  fun member => noNul (List.mem_of_mem_drop member)

theorem toklen_le (s : List UInt8) : Install.toklen s ≤ s.length :=
  (List.takeWhile_sublist _).length_le

theorem toklen_eq (noNul : (0 : UInt8) ∉ s) :
    toklen (s ++ [0]) = some (Install.toklen s) := by
  induction s with
  | nil => rfl
  | cons c s ih =>
      obtain ⟨nonzero, rest⟩ := not_or.mp (mt List.mem_cons.mpr noNul)
      rw [List.cons_append, toklen, ih rest]
      by_cases space : c = 0x20
      · rw [if_neg fun both => both.2 space, Install.toklen,
          List.takeWhile_cons_of_neg (by simp [space])]
        rfl
      · rw [if_pos ⟨Ne.symm nonzero, space⟩, Option.map_some]
        simp [Install.toklen, space]

theorem tokeq_eq (noNul : (0 : UInt8) ∉ s) {n : Nat} (inside : n ≤ s.length)
    {lit : List UInt8} (plain : (0 : UInt8) ∉ lit) :
    tokeq (s ++ [0]) n (lit ++ [0]) = some (Install.tokeq s n lit) := by
  induction n generalizing s lit with
  | zero =>
      cases lit with
      | nil => rfl
      | cons l lit =>
          have nonzero : l ≠ 0 := fun zero => plain (zero ▸ List.mem_cons_self)
          simp [tokeq, Install.tokeq, nonzero]
  | succ n ih =>
      cases s with
      | nil => exact absurd inside (Nat.not_succ_le_zero n)
      | cons c s =>
          obtain ⟨nonzero, rest⟩ := not_or.mp (mt List.mem_cons.mpr noNul)
          cases lit with
          | nil => simp [tokeq, Install.tokeq, nonzero]
          | cons l lit =>
              have plainRest : (0 : UInt8) ∉ lit := fun member =>
                plain (List.mem_cons_of_mem l member)
              have step := ih rest (Nat.le_of_succ_le_succ inside) plainRest
              by_cases same : l = c
              · simp [tokeq, Install.tokeq, same] at step ⊢
                exact step
              · simp [tokeq, Install.tokeq, same, Ne.symm same]

theorem tokPrefixFrom_eq {n : Nat} (inside : n ≤ s.length) {i : Nat}
    (behind : i ≤ n) {lit : List UInt8} (plain : (0 : UInt8) ∉ lit) :
    tokPrefixFrom (s ++ [0]) n i (lit ++ [0]) =
      some (if lit.isPrefixOf ((s.take n).drop i) then i + lit.length else 0) := by
  induction lit generalizing i with
  | nil => simp [tokPrefixFrom]
  | cons l lit ih =>
      obtain ⟨nonzero, rest⟩ := not_or.mp (mt List.mem_cons.mpr plain)
      rw [List.cons_append, tokPrefixFrom, if_neg (Ne.symm nonzero)]
      rcases Nat.lt_or_ge i n with before | end_
      · have short : i < (s.take n).length := by
          rw [List.length_take]
          omega
        have here : (s.take n)[i] = byteAt s i := by
          rw [List.getElem_take, byteAt, List.getD_eq_getElem]
        rw [if_neg (Nat.not_le.mpr before), cell_eq (by omega),
          List.drop_eq_getElem_cons short, here, List.isPrefixOf_cons_cons]
        change (if l ≠ byteAt s i then some 0 else _) = _
        by_cases same : l = byteAt s i
        · rw [if_neg (not_not.mpr same), ih before rest, beq_iff_eq.mpr same,
            Bool.true_and, List.length_cons, Nat.succ_add_eq_add_succ]
        · rw [if_pos same, beq_eq_false_iff_ne.mpr same, Bool.false_and]
          rfl
      · have none_ : (s.take n).drop i = [] := by
          rw [List.drop_eq_nil_iff, List.length_take]
          omega
        rw [if_pos end_, none_]
        rfl

theorem tokPrefix_eq {n : Nat} (inside : n ≤ s.length) {lit : List UInt8}
    (plain : (0 : UInt8) ∉ lit) :
    tokPrefix (s ++ [0]) n (lit ++ [0]) = some (Install.tokPrefix s n lit) := by
  rw [tokPrefix, tokPrefixFrom_eq inside (Nat.zero_le n) plain, Install.tokPrefix,
    List.drop_zero, Nat.zero_add]

theorem decFrom_eq {n : Nat} (inside : n ≤ s.length) (v : Nat) :
    decFrom (s ++ [0]) n v = some ((s.take n).foldlM decStep v) := by
  induction n generalizing s v with
  | zero => rfl
  | succ n ih =>
      cases s with
      | nil => exact absurd inside (Nat.not_succ_le_zero n)
      | cons c s =>
          change (match decStep v c with
            | none => some none
            | some v => decFrom (s ++ [0]) n v) = _
          rw [List.take_succ_cons, List.foldlM_cons]
          cases decStep v c with
          | none => rfl
          | some v => exact ih (Nat.le_of_succ_le_succ inside) v

theorem dec_eq {n : Nat} (inside : n ≤ s.length) :
    dec (s ++ [0]) n = some (Install.dec s n) := by
  unfold dec Install.dec
  split
  · rfl
  · exact decFrom_eq inside 0

theorem shaFrom_eq {places : List Nat}
    (inside : ∀ i ∈ places, 2 * i + 1 ≤ s.length) :
    shaFrom (s ++ [0]) places =
      some (places.mapM fun i => do
        let hi ← hexval (byteAt s (2 * i))
        let lo ← hexval (byteAt s (2 * i + 1))
        pure (hi <<< 4 ||| lo)) := by
  induction places with
  | nil => rfl
  | cons i places ih =>
      have here := inside i List.mem_cons_self
      have rest := ih fun j member => inside j (List.mem_cons_of_mem i member)
      rw [shaFrom, cell_eq (by omega), cell_eq here, rest, List.mapM_cons]
      simp only [Option.bind_eq_bind, Option.bind_some]
      cases hexval (byteAt s (2 * i)) with
      | none => rfl
      | some hi =>
          cases hexval (byteAt s (2 * i + 1)) with
          | none => rfl
          | some lo =>
              dsimp only [Option.bind_some, Option.pure_def]
              rw [Option.map_eq_bind]
              rfl

theorem parseSha_eq (inside : 64 ≤ s.length) :
    parseSha (s ++ [0]) = some (Install.parseSha s) := by
  refine shaFrom_eq fun i member => ?_
  have := List.mem_range.mp member
  omega

theorem numTail_eq (noNul : (0 : UInt8) ∉ s) (max : Nat) :
    numTail (s ++ [0]) max = some (Install.numTail s max) := by
  unfold numTail Install.numTail
  rw [cell_eq (Nat.zero_le _)]
  simp only [Option.bind_eq_bind, Option.bind_some, Option.pure_def]
  by_cases blank : byteAt s 0 = 0x20
  · have pos : 1 ≤ s.length := length_pos_of_blank blank
    have inside := toklen_le (s.drop 1)
    rw [if_neg (not_not.mpr blank), if_neg (not_not.mpr blank), drop_cells pos,
      toklen_eq (noNul_drop noNul 1), cell_eq (Nat.zero_le _)]
    dsimp only [Option.bind_some]
    rw [cell_eq inside, dec_eq inside]
    dsimp only [Option.bind_some]
    split_ifs <;> first | rfl | (exfalso; tauto)
  · rw [if_pos blank, if_pos blank]

theorem parseCtr_eq (noNul : (0 : UInt8) ∉ s) :
    parseCtr (s ++ [0]) = some (Install.parseCtr s) := by
  unfold parseCtr Install.parseCtr
  rw [numTail_eq noNul]
  dsimp only [Option.bind_eq_bind, Option.bind_some, Option.pure_def]
  cases Install.numTail s 4 with
  | none => rfl
  | some v => exact (apply_ite some _ _ _).symm

theorem isShow_eq (noNul : (0 : UInt8) ∉ s) :
    isShow (s ++ [0]) = some (decide (byteAt s 0 = 0x20 ∧
      Install.tokeq (s.drop 1) (Install.toklen (s.drop 1)) (ascii "show") = true ∧
      byteAt s 5 = 0)) := by
  unfold isShow
  rw [cell_eq (Nat.zero_le _)]
  dsimp only [Option.bind_eq_bind, Option.bind_some, Option.pure_def]
  by_cases blank : byteAt s 0 = 0x20
  · have pos := length_pos_of_blank blank
    rw [if_neg (not_not.mpr blank), drop_cells pos, toklen_eq (noNul_drop noNul 1)]
    dsimp only [Option.bind_some]
    rw [tokeq_eq (noNul_drop noNul 1) (toklen_le _) (by decide)]
    dsimp only [Option.bind_some]
    by_cases show_ : Install.tokeq (s.drop 1) (Install.toklen (s.drop 1))
        (ascii "show") = true
    · have four : (s.drop 1).length ≥ 4 := by
        have taken := beq_iff_eq.mp show_
        have length := congrArg List.length taken
        rw [List.length_take] at length
        have : (ascii "show").length = 4 := rfl
        omega
      rw [List.length_drop] at four
      rw [if_neg (by rw [show_]; decide), cell_eq (by omega)]
      refine congrArg some (Bool.eq_iff_iff.mpr ?_)
      rw [beq_iff_eq, decide_eq_true_iff]
      exact ⟨fun end_ => ⟨blank, show_, end_⟩, fun all => all.2.2⟩
    · rw [if_pos (Bool.eq_false_iff.mpr show_)]
      exact congrArg some (decide_eq_false fun all => show_ all.2.1).symm
  · rw [if_pos blank]
    exact congrArg some (decide_eq_false fun all => blank all.1).symm

theorem parseCtrloop_eq (noNul : (0 : UInt8) ∉ s) :
    parseCtrloop (s ++ [0]) = some (Install.parseCtrloop s) := by
  unfold parseCtrloop Install.parseCtrloop
  rw [kindIndex_probe, isShow_eq noNul, numTail_eq noNul]
  dsimp only [Option.bind_eq_bind, Option.bind_some, Option.pure_def]
  rw [if_neg (Option.some_ne_none probeRegion),
    if_neg (Option.some_ne_none probeRegion)]
  simp only [decide_eq_true_eq]
  split
  · rfl
  · cases Install.numTail s 2 with
    | none => rfl
    | some v => exact (apply_ite some _ _ _).symm

theorem parseProbe_eq : parseProbe (s ++ [0]) = some (Install.parseProbe s) := by
  unfold parseProbe Install.parseProbe
  rw [cell_eq (Nat.zero_le _), kindIndex_probe]
  dsimp only [Option.bind_eq_bind, Option.bind_some, Option.pure_def]
  split <;> rfl

theorem parseEnd_eq (rq : Req) :
    parseEnd (s ++ [0]) rq =
      some (if byteAt s 0 ≠ 0 then (.badSyntax, rq) else (.ok, rq)) := by
  unfold parseEnd
  rw [cell_eq (Nat.zero_le _)]
  exact (apply_ite some _ _ _).symm

theorem byteAt_drop (s : List UInt8) (n i : Nat) :
    byteAt (s.drop n) i = byteAt s (n + i) := by
  simp [byteAt, List.getD_eq_getElem?_getD]

theorem parseEnd_drop {n : Nat} (inside : n ≤ s.length) (rq : Req) :
    parseEnd ((s ++ [0]).drop n) rq =
      some (if byteAt s n ≠ 0 then (.badSyntax, rq) else (.ok, rq)) := by
  rw [drop_cells inside, parseEnd_eq, byteAt_drop, Nat.add_zero]

theorem parseRepeat_eq {n : Nat} (inside : n ≤ s.length) (rg : Region) (rq : Req) :
    parseRepeat (s ++ [0]) n rg rq =
      some (if n ≠ 8 ∨ byteAt s 7 < 0x32 ∨ byteAt s 7 > 0x38 then (.badSyntax, rq)
        else if rg.kind ≠ .rlxu then (.repeatOnlySlot, rq)
        else
          let rq := { rq with repeats := (byteAt s 7 - 0x30).toNat }
          if byteAt s n ≠ 0 then (.badSyntax, rq) else (.ok, rq)) := by
  unfold parseRepeat
  by_cases eight : n = 8
  · rw [if_neg (not_not.mpr eight), cell_eq (by omega)]
    dsimp only [Option.bind_eq_bind, Option.bind_some, Option.pure_def]
    rw [parseEnd_drop inside]
    by_cases range : byteAt s 7 < 0x32 ∨ byteAt s 7 > 0x38
    · rw [if_pos range, if_pos (Or.inr range)]
    · have wellFormed : ¬ (n ≠ 8 ∨ byteAt s 7 < 0x32 ∨ byteAt s 7 > 0x38) := by tauto
      rw [if_neg range, if_neg wellFormed]
      simp only [apply_ite some]
  · rw [if_pos eight, if_pos (Or.inl eight)]

theorem parsePace_eq {n : Nat} (inside : n ≤ s.length) (rq : Req) :
    parsePace (s ++ [0]) n rq =
      some (if Install.tokPrefix s n (ascii "pace=") ≠ 5 ∨ n > 10 ∨
          byteAt s 5 = 0x30 then (.badSyntax, rq)
        else
          match Install.dec (s.drop 5) (n - 5) with
          | none => (.badSyntax, rq)
          | some v =>
              if v = 0 ∨ v > paceMax then (.badSyntax, rq)
              else
                let rq := { rq with paceMs := v }
                if byteAt s n ≠ 0 then (.badSyntax, rq) else (.ok, rq)) := by
  unfold parsePace
  rw [tokPrefix_eq inside (by decide)]
  dsimp only [Option.bind_eq_bind, Option.bind_some, Option.pure_def]
  by_cases head : Install.tokPrefix s n (ascii "pace=") ≠ 5 ∨ n > 10
  · rw [if_pos head, if_pos (by tauto)]
  · have five : 5 ≤ n := by
      have found : (ascii "pace=").isPrefixOf (s.take n) = true := by
        by_contra missing
        rw [Install.tokPrefix, if_neg missing] at head
        exact head (Or.inl (by decide))
      have short := (List.isPrefixOf_iff_prefix.mp found).length_le
      rw [List.length_take] at short
      have : (ascii "pace=").length = 5 := rfl
      omega
    rw [if_neg head, cell_eq (by omega), drop_cells (by omega),
      dec_eq (by rw [List.length_drop]; omega)]
    dsimp only [Option.bind_some]
    by_cases lead : byteAt s 5 = 0x30
    · rw [if_pos lead, if_pos (by tauto)]
    · rw [if_neg lead, if_neg (by tauto)]
      cases Install.dec (s.drop 5) (n - 5) with
      | none => rfl
      | some v =>
          dsimp only
          rw [parseEnd_drop inside]
          exact (apply_ite some _ _ _).symm

theorem parseTail_eq (noNul : (0 : UInt8) ∉ s) (rg : Region) (rq : Req) :
    parseTail (s ++ [0]) rg rq = some (Install.parseTail s rg rq) := by
  unfold parseTail Install.parseTail
  rw [cell_eq (Nat.zero_le _)]
  dsimp only [Option.bind_eq_bind, Option.bind_some, Option.pure_def]
  by_cases blank : byteAt s 0 = 0x20
  · have inside := toklen_le (s.drop 1)
    rw [if_pos blank, if_pos blank, drop_cells (length_pos_of_blank blank),
      toklen_eq (noNul_drop noNul 1)]
    dsimp only [Option.bind_some]
    rw [tokPrefix_eq inside (by decide), parsePace_eq inside]
    dsimp only [Option.bind_some]
    rw [parseRepeat_eq inside]
    by_cases both : rq.verb = .install ∧ Install.tokPrefix (s.drop 1)
        (Install.toklen (s.drop 1)) (ascii "repeat=") = 7
    · rw [if_pos both.1, if_pos both.2, if_pos both]
    · rw [if_neg both]
      by_cases installs : rq.verb = .install
      · exact (if_pos installs).trans (if_neg fun repeats => both ⟨installs, repeats⟩)
      · exact if_neg installs
  · rw [if_neg blank, if_neg blank, parseEnd_eq]

theorem parseDigest_eq (noNul : (0 : UInt8) ∉ s) (rg : Region) (rq : Req) :
    parseDigest (s ++ [0]) rg rq = some (Install.parseDigest s rg rq) := by
  unfold parseDigest Install.parseDigest
  rw [cell_eq (Nat.zero_le _)]
  dsimp only [Option.bind_eq_bind, Option.bind_some, Option.pure_def]
  by_cases blank : byteAt s 0 = 0x20
  · have inside := toklen_le (s.drop 1)
    have noNulRest := noNul_drop noNul 1
    rw [if_neg (not_not.mpr blank), if_neg (not_not.mpr blank),
      drop_cells (length_pos_of_blank blank), toklen_eq noNulRest]
    dsimp only [Option.bind_some]
    rw [tokPrefix_eq inside (by decide), drop_cells inside]
    dsimp only [Option.bind_some]
    by_cases size : Install.toklen (s.drop 1) = 4 + 64
    · have long : 4 + 64 ≤ (s.drop 1).length := size ▸ inside
      rw [if_neg (not_not.mpr size), drop_cells (by omega),
        parseSha_eq (by rw [List.length_drop]; omega)]
      dsimp only [Option.bind_some]
      by_cases named : Install.tokPrefix (s.drop 1) (Install.toklen (s.drop 1))
          (ascii "sha=") = 4
      · rw [if_neg (not_not.mpr named), if_neg (by tauto)]
        cases Install.parseSha ((s.drop 1).drop 4) with
        | none => rfl
        | some sha => exact parseTail_eq (noNul_drop noNulRest _) _ _
      · rw [if_pos named, if_pos (Or.inr named)]
    · rw [if_pos size, if_pos (Or.inl size)]
  · rw [if_pos blank, if_pos blank]

theorem findRegion_eq (noNul : (0 : UInt8) ∉ s) {n : Nat} (inside : n ≤ s.length)
    {table : List Region} (plain : ∀ rg ∈ table, (0 : UInt8) ∉ rg.name) :
    findRegion (s ++ [0]) n table =
      some (table.find? fun rg => Install.tokeq s n rg.name) := by
  induction table with
  | nil => rfl
  | cons rg table ih =>
      rw [findRegion, tokeq_eq noNul inside (plain rg List.mem_cons_self),
        ih fun rg' member => plain rg' (List.mem_cons_of_mem rg member),
        List.find?_cons]
      dsimp only [Option.bind_eq_bind, Option.bind_some, Option.pure_def]
      cases Install.tokeq s n rg.name <;> rfl

theorem parseNamed_eq (noNul : (0 : UInt8) ∉ s) (verb : Verb) :
    parseNamed verb (s ++ [0]) = some (Install.parseNamed verb s) := by
  unfold parseNamed Install.parseNamed
  rw [cell_eq (Nat.zero_le _)]
  dsimp only [Option.bind_eq_bind, Option.bind_some, Option.pure_def]
  by_cases blank : byteAt s 0 = 0x20
  · have inside := toklen_le (s.drop 1)
    have noNulRest := noNul_drop noNul 1
    have noNulTail := noNul_drop noNulRest (Install.toklen (s.drop 1))
    rw [if_neg (not_not.mpr blank), if_neg (not_not.mpr blank),
      drop_cells (length_pos_of_blank blank), toklen_eq noNulRest]
    dsimp only [Option.bind_some]
    rw [findRegion_eq noNulRest inside (by decide)]
    dsimp only [Option.bind_some]
    split
    · rfl
    · cases regions.find? fun rg => Install.tokeq (s.drop 1)
          (Install.toklen (s.drop 1)) rg.name with
      | none => rfl
      | some rg =>
          dsimp only
          rw [drop_cells inside, parseDigest_eq noNulTail, parseTail_eq noNulTail]
          simp only [apply_ite some]
  · rw [if_pos blank, if_pos blank]

/-- A line's parse reads the line and its NUL, and is the parse of the line. -/
theorem parse_eq (noNul : (0 : UInt8) ∉ s) :
    parse (s ++ [0]) = some (Install.parse s) := by
  have inside := toklen_le s
  have noNulTail := noNul_drop noNul (Install.toklen s)
  unfold parse Install.parse
  rw [toklen_eq noNul]
  dsimp only [Option.bind_eq_bind, Option.bind_some, Option.pure_def]
  rw [drop_cells inside, parseCtr_eq noNulTail, parseCtrloop_eq noNulTail, parseProbe_eq,
    parseNamed_eq noNulTail, parseNamed_eq noNulTail,
    tokeq_eq noNul inside (by decide), tokeq_eq noNul inside (by decide),
    tokeq_eq noNul inside (by decide), tokeq_eq noNul inside (by decide),
    tokeq_eq noNul inside (by decide)]
  simp only [Option.bind_some, apply_ite some]

end Inside

end RlxFw.Install.Reads
