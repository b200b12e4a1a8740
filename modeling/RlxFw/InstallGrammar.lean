import RlxFw.Decimal
import RlxFw.InstallReads
import RlxFw.Spictl

/-!
# The verbs' grammar

The forms a line may take, as `rtl819x-spi-install.h` documents them above the
verbs, each with its text and its request: the parser accepts the texts of the
allowed forms and no other line.
-/

namespace RlxFw.Install

open Spictl (toklen_token toklen_last tokeq_token)

/-! ## Forms -/

/-- A hexadecimal digit as it is typed, in either case. -/
structure HexDigit where
  value : Fin 16
  upper : Bool
deriving DecidableEq, Repr

/-- The character typed. -/
def HexDigit.char (digit : HexDigit) : UInt8 :=
  byteAt (if digit.upper then ascii "0123456789ABCDEF" else ascii "0123456789abcdef")
    digit.value

/-- A byte as it is typed, its high digit first. -/
structure HexByte where
  hi : HexDigit
  lo : HexDigit
deriving DecidableEq, Repr

def HexByte.text (b : HexByte) : List UInt8 := [b.hi.char, b.lo.char]

def HexByte.value (b : HexByte) : UInt8 :=
  UInt8.ofNat (16 * b.hi.value + b.lo.value)

/-- What may end a line that names a region. -/
inductive Ending where
  | nothing
  | pace (ms : Nat)
  | repeats (k : Nat)
deriving DecidableEq, Repr

def Ending.text : Ending → List UInt8
  | .nothing => []
  | .pace ms => ascii " pace=" ++ Decimal.text ms
  | .repeats k => ascii " repeat=" ++ Decimal.text k

/-- A pause is 1 to 30000 ms; a count is 2 to 8, of an install into a slot. -/
def Ending.Allowed (verb : Verb) (rg : Region) : Ending → Prop
  | .nothing => True
  | .pace ms => 1 ≤ ms ∧ ms ≤ 30000
  | .repeats k => 2 ≤ k ∧ k ≤ 8 ∧ verb = .install ∧ rg.kind = .rlxu

/-- The fields an ending gives. -/
def Ending.apply (rq : Req) : Ending → Req
  | .nothing => rq
  | .pace ms => { rq with paceMs := ms }
  | .repeats k => { rq with repeats := k }

/-- The documented forms. -/
inductive Form where
  | install (rg : Region) (digest : List HexByte) (ending : Ending)
  | erase (rg : Region) (ending : Ending)
  | eraseprobe
  | ctr (n : Nat)
  | ctrloop (p : Nat)
  | ctrloopShow
deriving DecidableEq, Repr

/-- The line of a form. -/
def Form.line : Form → List UInt8
  | .install rg digest ending =>
      ascii "install " ++ rg.name ++ ascii " sha=" ++ digest.flatMap HexByte.text ++
        ending.text
  | .erase rg ending => ascii "erase " ++ rg.name ++ ending.text
  | .eraseprobe => ascii "eraseprobe"
  | .ctr n => ascii "ctr " ++ Decimal.text n
  | .ctrloop p => ascii "ctrloop " ++ Decimal.text p
  | .ctrloopShow => ascii "ctrloop show"

/-- The regions, the digest's length and the numbers a form allows. -/
def Form.Allowed : Form → Prop
  | .install rg digest ending =>
      rg ∈ regions ∧ (rg.kind ≠ .probe ∧ rg.kind ≠ .erase) ∧ digest.length = 32 ∧
        ending.Allowed .install rg
  | .erase rg ending =>
      rg ∈ regions ∧ (rg.kind = .erase ∨ rg.kind = .cfg) ∧ ending.Allowed .erase rg
  | .eraseprobe => True
  | .ctr n => 1 ≤ n ∧ n ≤ 4096
  | .ctrloop p => 1 ≤ p ∧ p ≤ 64
  | .ctrloopShow => True

/-- The request of a form: what was typed, and nothing else. -/
def Form.req : Form → Req
  | .install rg digest ending =>
      ending.apply
        { emptyReq with
          verb := .install, region := some rg, sha := digest.map HexByte.value }
  | .erase rg ending => ending.apply { emptyReq with verb := .erase, region := some rg }
  | .eraseprobe => { emptyReq with verb := .probe, region := some probeRegion }
  | .ctr n => { emptyReq with verb := .ctr, ctrN := n }
  | .ctrloop p =>
      { emptyReq with verb := .ctrloop, region := some probeRegion, loops := p }
  | .ctrloopShow => { emptyReq with verb := .ctrshow, region := some probeRegion }

/-! ## Tokens -/

/-- A line is its first token, and then nothing or a space and more. -/
theorem token_split (s : List UInt8) :
    ∃ tok rest, s = tok ++ rest ∧ (0x20 : UInt8) ∉ tok ∧ toklen s = tok.length ∧
      (rest = [] ∨ ∃ more, rest = 0x20 :: more) := by
  refine ⟨s.takeWhile fun c => c != 0x20, s.dropWhile fun c => c != 0x20,
    List.takeWhile_append_dropWhile.symm, ?_, rfl, ?_⟩
  · intro member
    simpa using List.mem_takeWhile_imp member
  · cases shape : s.dropWhile fun c => c != 0x20 with
    | nil => exact Or.inl rfl
    | cons c more =>
        have stop := List.head?_dropWhile_not (fun c : UInt8 => c != 0x20) s
        rw [shape] at stop
        have space : c = 0x20 := by simpa using stop
        exact Or.inr ⟨more, by rw [space]⟩

theorem byteAt_zero_cons (c : UInt8) (s : List UInt8) : byteAt (c :: s) 0 = c := rfl

/-- The NUL is at a token's end just when nothing follows it. -/
theorem byteAt_eq_zero_iff {s : List UInt8} (noNul : (0 : UInt8) ∉ s) :
    byteAt s 0 = 0 ↔ s = [] := by
  cases s with
  | nil => exact ⟨fun _ => rfl, fun _ => rfl⟩
  | cons c s =>
      have nonzero : c ≠ 0 := fun zero => noNul (zero ▸ List.mem_cons_self)
      exact ⟨fun zero => absurd zero nonzero, fun empty => by cases empty⟩

theorem byteAt_eq_blank_iff {s : List UInt8} :
    byteAt s 0 = 0x20 ↔ ∃ more, s = 0x20 :: more := by
  cases s with
  | nil => exact ⟨fun blank => absurd blank (by decide), fun ⟨_, same⟩ => by cases same⟩
  | cons c s =>
      constructor
      · intro blank
        exact ⟨s, by rw [show c = 0x20 from blank]⟩
      · rintro ⟨more, same⟩
        cases same
        rfl

theorem byteAt_append_length (tok rest : List UInt8) :
    byteAt (tok ++ rest) tok.length = byteAt rest 0 := by
  rw [byteAt, byteAt, List.getD_eq_getElem?_getD, List.getElem?_append_right le_rfl,
    Nat.sub_self, List.getD_eq_getElem?_getD]

theorem tokPrefix_eq_length_iff {tok rest lit : List UInt8} (nonempty : lit ≠ []) :
    tokPrefix (tok ++ rest) tok.length lit = lit.length ↔ ∃ more, tok = lit ++ more := by
  unfold tokPrefix
  rw [List.take_left]
  by_cases begins : lit.isPrefixOf tok = true
  · obtain ⟨more, same⟩ := List.isPrefixOf_iff_prefix.mp begins
    rw [if_pos begins]
    exact ⟨fun _ => ⟨more, same.symm⟩, fun _ => rfl⟩
  · rw [if_neg begins]
    constructor
    · intro zero
      exact absurd (List.length_eq_zero_iff.mp zero.symm) nonempty
    · rintro ⟨more, same⟩
      exact absurd (List.isPrefixOf_iff_prefix.mpr ⟨more, same.symm⟩) begins

theorem tokPrefix_last_iff {tok lit : List UInt8} (nonempty : lit ≠ []) :
    tokPrefix tok tok.length lit = lit.length ↔ ∃ more, tok = lit ++ more := by
  have last := @tokPrefix_eq_length_iff tok [] lit nonempty
  rw [List.append_nil] at last
  exact last

/-! ## Numbers -/

open Decimal (IsDigit value text_value le_value lt_pow_length_text)

theorem decStep_eq_some_iff (v w : Nat) (c : UInt8) :
    decStep v c = some w ↔
      IsDigit c ∧ w = v * 10 + (c.toNat - 0x30) ∧ w ≤ 0xFFFFFFFF := by
  have digits : ∀ c : UInt8, IsDigit c → (c - 0x30).toNat = c.toNat - 0x30 ∧
      c.toNat - 0x30 < 10 ∧ ¬ (c < 0x30 ∨ c > 0x39) := by
    apply forall_byte
    decide
  have others : ∀ c : UInt8, ¬ IsDigit c → c < 0x30 ∨ c > 0x39 := by
    apply forall_byte
    decide
  unfold decStep
  by_cases isDigit : IsDigit c
  · obtain ⟨same, small, inside⟩ := digits c isDigit
    rw [if_neg inside]
    dsimp only
    rw [same]
    by_cases large : v > (0xFFFFFFFF - (c.toNat - 0x30)) / 10
    · rw [if_pos large]
      constructor
      · intro none_
        cases none_
      · rintro ⟨-, rfl, fits⟩
        omega
    · rw [if_neg large, Option.some_inj]
      constructor
      · rintro rfl
        exact ⟨isDigit, rfl, by omega⟩
      · rintro ⟨-, rfl, -⟩
        rfl
  · rw [if_pos (others c isDigit)]
    exact ⟨fun none_ => (by cases none_), fun all => absurd all.1 isDigit⟩

theorem foldlM_decStep_eq_some {digits : List UInt8} {v w : Nat}
    (read : digits.foldlM decStep v = some w) :
    (∀ d ∈ digits, IsDigit d) ∧ w = value v digits := by
  induction digits generalizing v with
  | nil =>
      cases read
      exact ⟨fun d member => absurd member List.not_mem_nil, rfl⟩
  | cons c digits ih =>
      rw [List.foldlM_cons] at read
      obtain ⟨next, step, rest⟩ := Option.bind_eq_some_iff.mp read
      obtain ⟨isDigit, rfl, -⟩ := (decStep_eq_some_iff v next c).mp step
      obtain ⟨all, same⟩ := ih rest
      refine ⟨fun d member => ?_, same⟩
      rcases List.mem_cons.mp member with rfl | later
      · exact isDigit
      · exact all d later

theorem foldlM_decStep_value {digits : List UInt8} (all : ∀ d ∈ digits, IsDigit d)
    {v : Nat} (fits : value v digits ≤ 0xFFFFFFFF) :
    digits.foldlM decStep v = some (value v digits) := by
  induction digits generalizing v with
  | nil => rfl
  | cons c digits ih =>
      have step := (decStep_eq_some_iff v _ c).mpr
        ⟨all c List.mem_cons_self, rfl, (le_value _ digits).trans fits⟩
      rw [List.foldlM_cons, step]
      exact ih (fun d member => all d (List.mem_cons_of_mem c member)) fits

/-- A token that no zero leads is read as the number it is the text of. -/
theorem dec_eq_some {tok rest : List UInt8} (lead : byteAt tok 0 ≠ 0x30) {v : Nat}
    (read : dec (tok ++ rest) tok.length = some v) : 0 < v ∧ tok = Decimal.text v := by
  unfold dec at read
  rw [List.take_left] at read
  split at read
  · cases read
  · next size =>
      obtain ⟨all, rfl⟩ := foldlM_decStep_eq_some read
      cases tok with
      | nil => exact absurd (Or.inl rfl) size
      | cons c tok =>
          obtain ⟨pos, isText⟩ := @text_value c tok lead all
          exact ⟨pos, isText.symm⟩

theorem dec_text {v : Nat} (short : (Decimal.text v).length ≤ 9) (rest : List UInt8) :
    dec (Decimal.text v ++ rest) (Decimal.text v).length = some v := by
  have nonempty : (Decimal.text v).length ≠ 0 := fun zero =>
    Decimal.text_ne_nil v (List.length_eq_zero_iff.mp zero)
  have small : v < 10 ^ 9 :=
    (lt_pow_length_text v).trans_le (Nat.pow_le_pow_right (by decide) short)
  have all := Decimal.isDigit_text v
  have fits : value 0 (Decimal.text v) ≤ 0xFFFFFFFF := by
    rw [Decimal.value_text]
    omega
  unfold dec
  rw [if_neg (by omega), List.take_left, foldlM_decStep_value all fits,
    Decimal.value_text]

theorem text_noSpace (n : Nat) : (0x20 : UInt8) ∉ Decimal.text n := fun member =>
  absurd (Decimal.isDigit_text n 0x20 member) (by decide)

theorem number_noNul (n : Nat) : (0 : UInt8) ∉ 0x20 :: Decimal.text n := by
  rw [List.mem_cons, not_or]
  exact ⟨by decide, fun member => absurd (Decimal.isDigit_text n 0 member) (by decide)⟩

theorem text_lead {n : Nat} (pos : 0 < n) : byteAt (Decimal.text n) 0 ≠ 0x30 := by
  obtain ⟨c, rest, isText, lead⟩ := Decimal.head_text pos
  rw [isText]
  exact lead

theorem noNul_append {s t : List UInt8} (noNul : (0 : UInt8) ∉ s ++ t) :
    (0 : UInt8) ∉ s ∧ (0 : UInt8) ∉ t :=
  not_or.mp (mt List.mem_append.mpr noNul)

/-- What follows the first space, cut at the next one. -/
theorem byteAt_token {tok rest : List UInt8} (noNul : (0 : UInt8) ∉ rest) :
    byteAt (tok ++ rest) tok.length = 0 ↔ rest = [] := by
  rw [byteAt_append_length, byteAt_eq_zero_iff noNul]

theorem byteAt_head {tok : List UInt8} (nonempty : tok ≠ []) (rest : List UInt8) :
    byteAt (tok ++ rest) 0 = byteAt tok 0 := by
  cases tok with
  | nil => exact absurd rfl nonempty
  | cons c tok => rfl

theorem numTail_eq_some_iff {s : List UInt8} (noNul : (0 : UInt8) ∉ s) {max v : Nat}
    (width : max ≤ 9) :
    numTail s max = some v ↔
      0 < v ∧ (Decimal.text v).length ≤ max ∧ s = 0x20 :: Decimal.text v := by
  unfold numTail
  constructor
  · intro read
    by_cases blank : byteAt s 0 = 0x20
    · obtain ⟨more, rfl⟩ := byteAt_eq_blank_iff.mp blank
      obtain ⟨tok, rest, rfl, -, counted, -⟩ := token_split more
      have noNulRest := (noNul_append (mt (List.mem_cons_of_mem _) noNul)).2
      rw [if_neg (not_not.mpr blank), List.drop_one, List.tail_cons] at read
      dsimp only at read
      rw [counted] at read
      split at read
      · cases read
      · next wellFormed =>
          obtain ⟨nonempty, short, lead, end_⟩ : tok.length ≠ 0 ∧ tok.length ≤ max ∧
              byteAt (tok ++ rest) 0 ≠ 0x30 ∧ byteAt (tok ++ rest) tok.length = 0 := by
            simpa only [not_or, gt_iff_lt, not_lt, ne_eq, not_not] using wellFormed
          have some_ : tok ≠ [] := fun empty => nonempty (by rw [empty]; rfl)
          rw [byteAt_head some_] at lead
          obtain rfl := (byteAt_token noNulRest).mp end_
          obtain ⟨pos, rfl⟩ := dec_eq_some lead read
          exact ⟨pos, short, by rw [List.append_nil]⟩
    · rw [if_pos blank] at read
      cases read
  · rintro ⟨pos, short, rfl⟩
    have nonempty : (Decimal.text v).length ≠ 0 := fun zero =>
      Decimal.text_ne_nil v (List.length_eq_zero_iff.mp zero)
    have ended : byteAt (Decimal.text v) (Decimal.text v).length = 0 :=
      Reads.byteAt_length
    have read := dec_text (short.trans width) []
    rw [List.append_nil] at read
    have lead := text_lead pos
    rw [if_neg (not_not.mpr (byteAt_zero_cons _ _)), List.drop_one, List.tail_cons]
    dsimp only
    rw [toklen_last (text_noSpace v), if_neg, read]
    rintro (zero | long | zeroLed | more)
    · exact nonempty zero
    · exact Nat.not_lt.mpr short long
    · exact lead zeroLed
    · exact more ended

/-! ## Verbs without a region -/

theorem parseCtr_eq_ok_iff {s : List UInt8} (noNul : (0 : UInt8) ∉ s) (rq : Req) :
    parseCtr s = (.ok, rq) ↔
      ∃ n, (1 ≤ n ∧ n ≤ 4096) ∧ s = 0x20 :: Decimal.text n ∧ rq = (Form.ctr n).req := by
  unfold parseCtr
  constructor
  · intro parsed
    cases read : numTail s 4 with
    | none =>
        rw [read] at parsed
        cases parsed
    | some n =>
        obtain ⟨pos, -, rfl⟩ := (numTail_eq_some_iff noNul (by decide)).mp read
        rw [read] at parsed
        dsimp only at parsed
        split at parsed
        · cases parsed
        · next small =>
            cases parsed
            exact ⟨n, ⟨pos, Nat.not_lt.mp small⟩, rfl, rfl⟩
  · rintro ⟨n, ⟨pos, small⟩, rfl, rfl⟩
    have short : (Decimal.text n).length ≤ 4 :=
      Decimal.length_text_le (by decide) (by omega)
    rw [(numTail_eq_some_iff noNul (by decide)).mpr ⟨pos, short, rfl⟩]
    exact if_neg (Nat.not_lt.mpr small)

theorem parseCtrloop_eq_ok_iff {s : List UInt8} (noNul : (0 : UInt8) ∉ s) (rq : Req) :
    parseCtrloop s = (.ok, rq) ↔
      (s = ascii " show" ∧ rq = Form.ctrloopShow.req) ∨
      ∃ p, (1 ≤ p ∧ p ≤ 64) ∧ s = 0x20 :: Decimal.text p ∧ rq = (Form.ctrloop p).req := by
  have isShow : (byteAt s 0 = 0x20 ∧
      tokeq (s.drop 1) (toklen (s.drop 1)) (ascii "show") = true ∧ byteAt s 5 = 0) ↔
      s = ascii " show" := by
    constructor
    · rintro ⟨blank, show_, end_⟩
      obtain ⟨more, rfl⟩ := byteAt_eq_blank_iff.mp blank
      obtain ⟨tok, rest, rfl, -, counted, -⟩ := token_split more
      have noNulRest := (noNul_append (mt (List.mem_cons_of_mem _) noNul)).2
      rw [List.drop_one, List.tail_cons, counted, tokeq_token] at show_
      obtain rfl := beq_iff_eq.mp show_
      obtain rfl := (byteAt_eq_zero_iff noNulRest).mp end_
      rfl
    · rintro rfl
      decide
  unfold parseCtrloop
  rw [kindIndex_probe]
  dsimp only
  rw [if_neg (Option.some_ne_none probeRegion)]
  by_cases shows : s = ascii " show"
  · rw [if_pos (isShow.mpr shows)]
    constructor
    · intro parsed
      cases parsed
      exact Or.inl ⟨shows, rfl⟩
    · rintro (⟨-, rfl⟩ | ⟨p, -, typed, -⟩)
      · rfl
      · have digit := Decimal.isDigit_text p 0x73 (by
          have same := List.tail_eq_of_cons_eq (typed.symm.trans shows)
          rw [same]
          decide)
        exact absurd digit (by decide)
  · rw [if_neg (mt isShow.mp shows)]
    constructor
    · intro parsed
      cases read : numTail s 2 with
      | none =>
          rw [read] at parsed
          cases parsed
      | some p =>
          obtain ⟨pos, -, rfl⟩ := (numTail_eq_some_iff noNul (by decide)).mp read
          rw [read] at parsed
          dsimp only at parsed
          split at parsed
          · cases parsed
          · next wellFormed =>
              cases parsed
              exact Or.inr ⟨p, ⟨pos, Nat.not_lt.mp (not_or.mp wellFormed).2⟩, rfl, rfl⟩
    · rintro (⟨typed, -⟩ | ⟨p, ⟨pos, small⟩, rfl, rfl⟩)
      · exact absurd typed shows
      · have short : (Decimal.text p).length ≤ 2 :=
          Decimal.length_text_le (by decide) (by omega)
        rw [(numTail_eq_some_iff noNul (by decide)).mpr ⟨pos, short, rfl⟩]
        exact if_neg (not_or.mpr ⟨Nat.ne_of_gt pos, Nat.not_lt.mpr small⟩)

theorem parseProbe_eq_ok_iff {s : List UInt8} (noNul : (0 : UInt8) ∉ s) (rq : Req) :
    parseProbe s = (.ok, rq) ↔ s = [] ∧ rq = Form.eraseprobe.req := by
  unfold parseProbe
  rw [kindIndex_probe]
  dsimp only
  by_cases empty : s = []
  · rw [if_neg (not_not.mpr ((byteAt_eq_zero_iff noNul).mpr empty)),
      if_neg (Option.some_ne_none probeRegion)]
    constructor
    · intro parsed
      cases parsed
      exact ⟨empty, rfl⟩
    · rintro ⟨-, rfl⟩
      rfl
  · rw [if_pos (mt (byteAt_eq_zero_iff noNul).mp empty)]
    constructor
    · intro parsed
      cases parsed
    · rintro ⟨typed, -⟩
      exact absurd typed empty

/-! ## The digest -/

theorem hexval_char (digit : HexDigit) :
    hexval digit.char = some (UInt8.ofNat digit.value) := by
  have all : ∀ (value : Fin 16) (upper : Bool),
      hexval (HexDigit.mk value upper).char = some (UInt8.ofNat value) := by
    decide
  exact all digit.value digit.upper

theorem char_of_hexval {c d : UInt8} (read : hexval c = some d) :
    ∃ digit : HexDigit, digit.char = c ∧ d = UInt8.ofNat digit.value := by
  have all : ∀ c : UInt8, hexval c = none ∨
      ∃ (value : Fin 16) (upper : Bool), (HexDigit.mk value upper).char = c := by
    apply forall_byte
    decide
  rcases all c with none_ | ⟨value, upper, rfl⟩
  · rw [none_] at read
    cases read
  · rw [hexval_char] at read
    exact ⟨⟨value, upper⟩, rfl, (Option.some_inj.mp read).symm⟩

theorem char_token (digit : HexDigit) : digit.char ≠ 0x20 := by
  have all : ∀ (value : Fin 16) (upper : Bool),
      (HexDigit.mk value upper).char ≠ 0x20 := by
    decide
  exact all digit.value digit.upper

/-- The byte of two digits. -/
theorem nibbles_value (b : HexByte) :
    UInt8.ofNat b.hi.value <<< 4 ||| UInt8.ofNat b.lo.value = b.value := by
  have all : ∀ hi lo : Fin 16,
      UInt8.ofNat hi <<< 4 ||| UInt8.ofNat lo = UInt8.ofNat (16 * hi + lo) := by
    decide
  exact all b.hi.value b.lo.value

/-- The byte that two digits of `s` spell. -/
def pairAt (s : List UInt8) (i : Nat) : Option UInt8 := do
  let hi ← hexval (byteAt s (2 * i))
  let lo ← hexval (byteAt s (2 * i + 1))
  pure (hi <<< 4 ||| lo)

theorem mapM_pairAt_succ (c d : UInt8) (s : List UInt8) (n : Nat) :
    (List.range (n + 1)).mapM (pairAt (c :: d :: s)) =
      (pairAt [c, d] 0).bind fun b =>
        ((List.range n).mapM (pairAt s)).bind fun rest => some (b :: rest) := by
  rw [List.range_succ_eq_map, List.mapM_cons, List.mapM_map]
  rfl

theorem mapM_pairAt_text (digest : List HexByte) (rest : List UInt8) :
    (List.range digest.length).mapM (pairAt (digest.flatMap HexByte.text ++ rest)) =
      some (digest.map HexByte.value) := by
  induction digest with
  | nil => rfl
  | cons b digest ih =>
      have first : pairAt [b.hi.char, b.lo.char] 0 = some b.value := by
        change ((hexval b.hi.char).bind fun hi => (hexval b.lo.char).bind fun lo =>
          some (hi <<< 4 ||| lo)) = _
        rw [hexval_char, hexval_char, Option.bind_some, Option.bind_some, nibbles_value]
      change (List.range (digest.length + 1)).mapM
        (pairAt (b.hi.char :: b.lo.char :: (digest.flatMap HexByte.text ++ rest))) = _
      rw [mapM_pairAt_succ, first, ih]
      rfl

theorem text_of_mapM_pairAt {n : Nat} {s rest sha : List UInt8} (size : s.length = 2 * n)
    (read : (List.range n).mapM (pairAt (s ++ rest)) = some sha) :
    ∃ digest : List HexByte, digest.length = n ∧ s = digest.flatMap HexByte.text ∧
      sha = digest.map HexByte.value := by
  induction n generalizing s sha with
  | zero =>
      obtain rfl := List.length_eq_zero_iff.mp size
      cases read
      exact ⟨[], rfl, rfl, rfl⟩
  | succ n ih =>
      match s, size with
      | c :: d :: s, size =>
          rw [List.cons_append, List.cons_append, mapM_pairAt_succ] at read
          obtain ⟨b, pair, more⟩ := Option.bind_eq_some_iff.mp read
          obtain ⟨bytes, readRest, same⟩ := Option.bind_eq_some_iff.mp more
          obtain ⟨hi, readHi, both⟩ := Option.bind_eq_some_iff.mp pair
          obtain ⟨lo, readLo, made⟩ := Option.bind_eq_some_iff.mp both
          obtain ⟨high, rfl, rfl⟩ := char_of_hexval readHi
          obtain ⟨low, rfl, rfl⟩ := char_of_hexval readLo
          have shorter : s.length = 2 * n := by
            simp only [List.length_cons] at size
            omega
          obtain ⟨digest, length, rfl, rfl⟩ := ih shorter readRest
          refine ⟨⟨high, low⟩ :: digest, by rw [List.length_cons, length], rfl, ?_⟩
          rw [← Option.some_inj.mp same, ← Option.some_inj.mp made, List.map_cons,
            ← nibbles_value]

theorem digest_noSpace (digest : List HexByte) :
    (0x20 : UInt8) ∉ digest.flatMap HexByte.text := by
  simp only [List.mem_flatMap, not_exists, not_and, HexByte.text, List.mem_cons,
    List.not_mem_nil, or_false, not_or]
  exact fun b _ => ⟨(char_token b.hi).symm, (char_token b.lo).symm⟩

theorem digest_length (digest : List HexByte) :
    (digest.flatMap HexByte.text).length = 2 * digest.length := by
  induction digest with
  | nil => rfl
  | cons b digest ih =>
      rw [List.flatMap_cons, List.length_append, ih, List.length_cons]
      change 2 + 2 * digest.length = _
      omega

/-! ## Endings -/

/-- One digit between 2 and 8 is the text of its value. -/
theorem digit_text {c : UInt8} (low : ¬ c < 0x32) (high : ¬ c > 0x38) :
    Decimal.text (c - 0x30).toNat = [c] ∧ 2 ≤ (c - 0x30).toNat ∧
      (c - 0x30).toNat ≤ 8 := by
  have all : ∀ c : UInt8, ¬ c < 0x32 → ¬ c > 0x38 →
      Decimal.digit (c - 0x30).toNat = c ∧ 2 ≤ (c - 0x30).toNat ∧
        (c - 0x30).toNat ≤ 8 := by
    apply forall_byte
    decide
  obtain ⟨same, two, eight⟩ := all c low high
  exact ⟨by rw [Decimal.text_of_lt (by omega), same], two, eight⟩

theorem parseTail_ok {s : List UInt8} (noNul : (0 : UInt8) ∉ s) {rg : Region}
    {rq rq' : Req} (parsed : parseTail s rg rq = (.ok, rq')) :
    ∃ ending : Ending, ending.Allowed rq.verb rg ∧ s = ending.text ∧
      rq' = ending.apply rq := by
  unfold parseTail at parsed
  by_cases blank : byteAt s 0 = 0x20
  · obtain ⟨more, rfl⟩ := byteAt_eq_blank_iff.mp blank
    obtain ⟨tok, rest, rfl, -, counted, -⟩ := token_split more
    have noNulRest := (noNul_append (mt (List.mem_cons_of_mem _) noNul)).2
    rw [if_pos blank, List.drop_one, List.tail_cons] at parsed
    dsimp only at parsed
    rw [counted] at parsed
    split at parsed
    · next repeats =>
        obtain ⟨typed, rfl⟩ := (tokPrefix_eq_length_iff (by decide)).mp repeats.2
        split at parsed
        · cases parsed
        · next wellFormed =>
            obtain ⟨size, low, high⟩ := by
              simpa only [not_or, ne_eq, not_not] using wellFormed
            have one : typed.length = 1 := by
              rw [List.length_append] at size
              exact Nat.add_left_cancel (size : 7 + typed.length = 7 + 1)
            obtain ⟨c, rfl⟩ := List.length_eq_one_iff.mp one
            obtain ⟨isText, two, eight⟩ := @digit_text c low high
            split at parsed
            · cases parsed
            · next slot =>
                split at parsed
                · cases parsed
                · next end_ =>
                    obtain rfl := (byteAt_token noNulRest).mp (not_not.mp end_)
                    cases parsed
                    refine ⟨.repeats (c - 0x30).toNat,
                      ⟨two, eight, repeats.1, not_not.mp slot⟩, ?_, rfl⟩
                    rw [Ending.text, isText]
                    rfl
    · next other =>
        split at parsed
        · cases parsed
        · next wellFormed =>
            obtain ⟨named, short, lead⟩ := by
              simpa only [not_or, ne_eq, not_not] using wellFormed
            obtain ⟨typed, rfl⟩ := (tokPrefix_eq_length_iff (by decide)).mp named
            have dropped : (ascii "pace=" ++ typed ++ rest).drop 5 = typed ++ rest := by
              rw [List.append_assoc]
              rfl
            have size : (ascii "pace=" ++ typed).length - 5 = typed.length := by
              rw [List.length_append]
              exact Nat.add_sub_cancel_left 5 typed.length
            rw [dropped, size] at parsed
            split at parsed
            · cases parsed
            · next ms read =>
                have leads : byteAt typed 0 ≠ 0x30 := by
                  cases typed with
                  | nil => decide
                  | cons c typed => exact lead
                obtain ⟨pos, rfl⟩ := dec_eq_some leads read
                split at parsed
                · cases parsed
                · next inside =>
                    split at parsed
                    · cases parsed
                    · next end_ =>
                        obtain rfl := (byteAt_token noNulRest).mp (not_not.mp end_)
                        cases parsed
                        refine ⟨.pace ms, ⟨pos, Nat.not_lt.mp (not_or.mp inside).2⟩,
                          ?_, rfl⟩
                        rw [List.append_nil]
                        rfl
  · rw [if_neg blank] at parsed
    split at parsed
    · cases parsed
    · next end_ =>
        cases parsed
        exact ⟨.nothing, trivial, (byteAt_eq_zero_iff noNul).mp (not_not.mp end_), rfl⟩

theorem parseTail_text (rg : Region) (rq : Req) {ending : Ending}
    (allowed : ending.Allowed rq.verb rg) :
    parseTail ending.text rg rq = (.ok, ending.apply rq) := by
  cases ending with
  | nothing => rfl
  | pace ms =>
      obtain ⟨pos, small⟩ := allowed
      have short : (Decimal.text ms).length ≤ 5 :=
        Decimal.length_text_le (by decide) (by omega)
      have whole : (0x20 : UInt8) ∉ ascii "pace=" ++ Decimal.text ms := by
        rw [List.mem_append, not_or]
        exact ⟨by decide, text_noSpace ms⟩
      have size : (ascii "pace=" ++ Decimal.text ms).length =
          5 + (Decimal.text ms).length := List.length_append
      have isPace : tokPrefix (ascii "pace=" ++ Decimal.text ms)
          (ascii "pace=" ++ Decimal.text ms).length (ascii "pace=") = 5 :=
        (tokPrefix_last_iff (by decide)).mpr ⟨_, rfl⟩
      have notRepeat : tokPrefix (ascii "pace=" ++ Decimal.text ms)
          (ascii "pace=" ++ Decimal.text ms).length (ascii "repeat=") ≠ 7 := by
        intro repeats
        obtain ⟨more, same⟩ := (tokPrefix_last_iff (by decide)).mp repeats
        cases same
      have read := dec_text (short.trans (by decide)) []
      rw [List.append_nil] at read
      have lead : byteAt (ascii "pace=" ++ Decimal.text ms) 5 ≠ 0x30 := text_lead pos
      have dropped : (ascii "pace=" ++ Decimal.text ms).drop 5 = Decimal.text ms := rfl
      have wellFormed : ¬ (tokPrefix (ascii "pace=" ++ Decimal.text ms)
          (ascii "pace=" ++ Decimal.text ms).length (ascii "pace=") ≠ 5 ∨
          (ascii "pace=" ++ Decimal.text ms).length > 10 ∨
          byteAt (ascii "pace=" ++ Decimal.text ms) 5 = 0x30) := by
        rintro (other | long | zeroLed)
        · exact other isPace
        · omega
        · exact lead zeroLed
      have inside : ¬ (ms = 0 ∨ ms > paceMax) := not_or.mpr
        ⟨Nat.ne_of_gt pos, Nat.not_lt.mpr small⟩
      change parseTail (0x20 :: (ascii "pace=" ++ Decimal.text ms)) rg rq = _
      unfold parseTail
      rw [if_pos (byteAt_zero_cons _ _), List.drop_one, List.tail_cons]
      dsimp only
      rw [toklen_last whole, if_neg fun both => notRepeat both.2, if_neg wellFormed, dropped, size,
        Nat.add_sub_cancel_left, read]
      dsimp only
      rw [if_neg inside, ← size, if_neg (not_not.mpr Reads.byteAt_length)]
      rfl
  | repeats k =>
      obtain ⟨two, eight, installs, slot⟩ := allowed
      have all : ∀ k < 10, 2 ≤ k → k ≤ 8 → Decimal.digit k ≠ 0x20 ∧
          ¬ (Decimal.digit k < 0x32 ∨ Decimal.digit k > 0x38) ∧
          (Decimal.digit k - 0x30).toNat = k := by
        decide
      obtain ⟨token, range, value⟩ := all k (by omega) two eight
      have whole : (0x20 : UInt8) ∉ ascii "repeat=" ++ [Decimal.digit k] := by
        rw [List.mem_append, List.mem_singleton, not_or]
        exact ⟨by decide, token.symm⟩
      have isRepeat : tokPrefix (ascii "repeat=" ++ [Decimal.digit k])
          (ascii "repeat=" ++ [Decimal.digit k]).length (ascii "repeat=") = 7 :=
        (tokPrefix_last_iff (by decide)).mpr ⟨_, rfl⟩
      have last : byteAt (ascii "repeat=" ++ [Decimal.digit k]) 7 = Decimal.digit k := rfl
      rw [Ending.text, Decimal.text_of_lt (by omega)]
      change parseTail (0x20 :: (ascii "repeat=" ++ [Decimal.digit k])) rg rq = _
      unfold parseTail
      rw [if_pos (byteAt_zero_cons _ _), List.drop_one, List.tail_cons]
      dsimp only
      rw [toklen_last whole, if_pos ⟨installs, isRepeat⟩, last, value]
      have wellFormed : ¬ ((ascii "repeat=" ++ [Decimal.digit k]).length ≠ 8 ∨
          Decimal.digit k < 0x32 ∨ Decimal.digit k > 0x38) :=
        not_or.mpr ⟨not_not.mpr rfl, range⟩
      rw [if_neg wellFormed, if_neg (not_not.mpr slot),
        if_neg (not_not.mpr Reads.byteAt_length)]
      rfl

/-! ## Verbs with a region -/

theorem Ending.text_cases (ending : Ending) :
    ending.text = [] ∨ ∃ more, ending.text = 0x20 :: more := by
  cases ending with
  | nothing => exact Or.inl rfl
  | pace ms => exact Or.inr ⟨_, rfl⟩
  | repeats k => exact Or.inr ⟨_, rfl⟩

/-- A token is cut where the text after it begins. -/
theorem toklen_before {tok rest : List UInt8} (whole : (0x20 : UInt8) ∉ tok)
    (begins : rest = [] ∨ ∃ more, rest = 0x20 :: more) :
    toklen (tok ++ rest) = tok.length := by
  rcases begins with rfl | ⟨more, rfl⟩
  · rw [List.append_nil]
    exact toklen_last whole
  · exact toklen_token whole more

theorem parseDigest_ok {s : List UInt8} (noNul : (0 : UInt8) ∉ s) {rg : Region}
    {rq rq' : Req} (installs : rq.verb = .install)
    (parsed : parseDigest s rg rq = (.ok, rq')) :
    ∃ (digest : List HexByte) (ending : Ending), digest.length = 32 ∧
      ending.Allowed .install rg ∧
      s = ascii " sha=" ++ digest.flatMap HexByte.text ++ ending.text ∧
      rq' = ending.apply { rq with sha := digest.map HexByte.value } := by
  unfold parseDigest at parsed
  by_cases blank : byteAt s 0 = 0x20
  · obtain ⟨more, rfl⟩ := byteAt_eq_blank_iff.mp blank
    obtain ⟨tok, rest, rfl, -, counted, -⟩ := token_split more
    have noNulRest := (noNul_append (mt (List.mem_cons_of_mem _) noNul)).2
    rw [if_neg (not_not.mpr blank), List.drop_one, List.tail_cons] at parsed
    dsimp only at parsed
    rw [counted] at parsed
    split at parsed
    · cases parsed
    · next wellFormed =>
        obtain ⟨size, named⟩ := by
          simpa only [not_or, ne_eq, not_not] using wellFormed
        obtain ⟨typed, rfl⟩ := (tokPrefix_eq_length_iff (by decide)).mp named
        have short : typed.length = 2 * 32 := by
          rw [List.length_append] at size
          exact Nat.add_left_cancel (size : 4 + typed.length = 4 + 64)
        have dropped : (ascii "sha=" ++ typed ++ rest).drop 4 = typed ++ rest := by
          rw [List.append_assoc]
          rfl
        rw [dropped, List.drop_left] at parsed
        split at parsed
        · cases parsed
        · next sha read =>
            obtain ⟨digest, length, rfl, rfl⟩ := text_of_mapM_pairAt short read
            obtain ⟨ending, allowed, rfl, rfl⟩ := parseTail_ok noNulRest parsed
            refine ⟨digest, ending, length, installs ▸ allowed, rfl, rfl⟩
  · rw [if_pos blank] at parsed
    cases parsed

theorem parseDigest_text (rg : Region) {rq : Req} (installs : rq.verb = .install)
    {digest : List HexByte} (length : digest.length = 32) {ending : Ending}
    (allowed : ending.Allowed .install rg) :
    parseDigest (ascii " sha=" ++ digest.flatMap HexByte.text ++ ending.text) rg rq =
      (.ok, ending.apply { rq with sha := digest.map HexByte.value }) := by
  have whole : (0x20 : UInt8) ∉ ascii "sha=" ++ digest.flatMap HexByte.text := by
    rw [List.mem_append, not_or]
    exact ⟨by decide, digest_noSpace digest⟩
  have counted := toklen_before whole ending.text_cases
  have size : (ascii "sha=" ++ digest.flatMap HexByte.text).length = 4 + 64 := by
    rw [List.length_append, digest_length, length]
    rfl
  have named : tokPrefix (ascii "sha=" ++ digest.flatMap HexByte.text ++ ending.text)
      (ascii "sha=" ++ digest.flatMap HexByte.text).length (ascii "sha=") = 4 :=
    (tokPrefix_eq_length_iff (by decide)).mpr ⟨_, rfl⟩
  have read : parseSha (digest.flatMap HexByte.text ++ ending.text) =
      some (digest.map HexByte.value) := by
    have read := mapM_pairAt_text digest ending.text
    rw [length] at read
    exact read
  have dropped : (ascii "sha=" ++ digest.flatMap HexByte.text ++ ending.text).drop 4 =
      digest.flatMap HexByte.text ++ ending.text := by
    rw [List.append_assoc]
    rfl
  change parseDigest (0x20 :: (ascii "sha=" ++ digest.flatMap HexByte.text ++ ending.text))
    rg rq = _
  unfold parseDigest
  rw [if_neg (not_not.mpr (byteAt_zero_cons _ _)), List.drop_one, List.tail_cons]
  dsimp only
  rw [counted, if_neg, dropped, read, List.drop_left]
  · exact parseTail_text rg _ (installs.symm ▸ allowed)
  · rintro (other | unnamed)
    · exact other size
    · exact unnamed named

/-- The region found is the one whose name the token is. -/
theorem find_eq_some_iff {tok rest : List UInt8} {rg : Region} :
    (regions.find? fun r => tokeq (tok ++ rest) tok.length r.name) = some rg ↔
      rg ∈ regions ∧ tok = rg.name := by
  simp only [tokeq_token]
  constructor
  · intro found
    have named := List.find?_some found
    exact ⟨List.mem_of_find?_eq_some found, beq_iff_eq.mp named⟩
  · rintro ⟨member, rfl⟩
    exact Spictl.find_region member

theorem name_token {rg : Region} (member : rg ∈ regions) :
    (0x20 : UInt8) ∉ rg.name ∧ rg.name ≠ [] := by
  have all : ∀ rg ∈ regions, (0x20 : UInt8) ∉ rg.name ∧ rg.name ≠ [] := by
    decide
  exact all rg member

/-- What a line that names a region went through. -/
theorem parseNamed_ok {verb : Verb} {s : List UInt8} (noNul : (0 : UInt8) ∉ s) {rq : Req}
    (parsed : parseNamed verb s = (.ok, rq)) :
    ∃ rg rest, rg ∈ regions ∧ s = 0x20 :: (rg.name ++ rest) ∧ (0 : UInt8) ∉ rest ∧
      rg.kind ≠ .probe ∧ ¬ (verb = .install ∧ rg.kind = .erase) ∧
      ¬ (verb = .erase ∧ rg.kind ≠ .erase ∧ rg.kind ≠ .cfg) ∧
      (if verb = .install then
          parseDigest rest rg { emptyReq with verb := verb, region := some rg }
        else parseTail rest rg { emptyReq with verb := verb, region := some rg }) =
        (.ok, rq) := by
  unfold parseNamed at parsed
  by_cases blank : byteAt s 0 = 0x20
  · obtain ⟨more, rfl⟩ := byteAt_eq_blank_iff.mp blank
    obtain ⟨tok, rest, rfl, -, counted, -⟩ := token_split more
    have noNulRest := (noNul_append (mt (List.mem_cons_of_mem _) noNul)).2
    rw [if_neg (not_not.mpr blank), List.drop_one, List.tail_cons] at parsed
    dsimp only at parsed
    rw [counted, List.drop_left] at parsed
    split at parsed
    · cases parsed
    · split at parsed
      · cases parsed
      · next rg found =>
          obtain ⟨member, rfl⟩ := find_eq_some_iff.mp found
          split at parsed
          · cases parsed
          · next probe =>
              split at parsed
              · cases parsed
              · next installs =>
                  split at parsed
                  · cases parsed
                  · next erases =>
                      exact ⟨rg, rest, member, rfl, noNulRest, probe, installs, erases,
                        parsed⟩
  · rw [if_pos blank] at parsed
    cases parsed

theorem parseNamed_name {verb : Verb} {rg : Region} (member : rg ∈ regions)
    {rest : List UInt8} (begins : rest = [] ∨ ∃ more, rest = 0x20 :: more)
    (probe : rg.kind ≠ .probe) (installs : ¬ (verb = .install ∧ rg.kind = .erase))
    (erases : ¬ (verb = .erase ∧ rg.kind ≠ .erase ∧ rg.kind ≠ .cfg)) :
    parseNamed verb (0x20 :: (rg.name ++ rest)) =
      if verb = .install then
        parseDigest rest rg { emptyReq with verb := verb, region := some rg }
      else parseTail rest rg { emptyReq with verb := verb, region := some rg } := by
  obtain ⟨whole, nonempty⟩ := name_token member
  have counted := toklen_before whole begins
  have some_ : rg.name.length ≠ 0 := fun zero => nonempty (List.length_eq_zero_iff.mp zero)
  have found : (regions.find? fun r => tokeq (rg.name ++ rest) rg.name.length r.name) =
      some rg := find_eq_some_iff.mpr ⟨member, rfl⟩
  unfold parseNamed
  rw [if_neg (not_not.mpr (byteAt_zero_cons _ _)), List.drop_one, List.tail_cons]
  dsimp only
  rw [counted, if_neg some_, found, List.drop_left]
  dsimp only
  rw [if_neg probe, if_neg installs, if_neg erases]

/-! ## Lines -/

/-- A form's line begins with its verb, as a token. -/
theorem parse_token {tok rest : List UInt8} (whole : (0x20 : UInt8) ∉ tok)
    (begins : rest = [] ∨ ∃ more, rest = 0x20 :: more) :
    parse (tok ++ rest) =
      if tok == ascii "ctr" then parseCtr rest
      else if tok == ascii "ctrloop" then parseCtrloop rest
      else if tok == ascii "eraseprobe" then parseProbe rest
      else if tok == ascii "install" then parseNamed .install rest
      else if tok == ascii "erase" then parseNamed .erase rest
      else (.badSyntax, emptyReq) := by
  unfold parse
  dsimp only
  rw [toklen_before whole begins, List.drop_left]
  simp only [tokeq_token]

/-- The line of an allowed form is accepted, as the form's request. -/
theorem parse_form {form : Form} (allowed : form.Allowed) :
    parse form.line = (.ok, form.req) := by
  cases form with
  | install rg digest ending =>
      obtain ⟨member, ⟨probe, erase⟩, length, ends⟩ := allowed
      have shape : (Form.install rg digest ending).line = ascii "install" ++ 0x20 ::
          (rg.name ++ (ascii " sha=" ++ digest.flatMap HexByte.text ++ ending.text)) := by
        have first : ascii "install " = ascii "install" ++ [0x20] := rfl
        rw [Form.line, first]
        simp only [List.append_assoc, List.cons_append, List.nil_append]
      rw [shape, parse_token (by decide) (Or.inr ⟨_, rfl⟩)]
      rw [if_neg (by decide), if_neg (by decide), if_neg (by decide), if_pos (by decide)]
      refine (parseNamed_name member (Or.inr ⟨_, rfl⟩) probe ?_ ?_).trans ?_
      · exact fun both => erase both.2
      · exact fun other => by cases other.1
      · rw [if_pos rfl]
        exact parseDigest_text rg rfl length ends
  | erase rg ending =>
      obtain ⟨member, kinds, ends⟩ := allowed
      have shape : (Form.erase rg ending).line =
          ascii "erase" ++ 0x20 :: (rg.name ++ ending.text) := by
        have first : ascii "erase " = ascii "erase" ++ [0x20] := rfl
        rw [Form.line, first]
        simp only [List.append_assoc, List.cons_append, List.nil_append]
      have probe : rg.kind ≠ .probe := by
        rcases kinds with isErase | isCfg
        · rw [isErase]
          decide
        · rw [isCfg]
          decide
      rw [shape, parse_token (by decide) (Or.inr ⟨_, rfl⟩)]
      rw [if_neg (by decide), if_neg (by decide), if_neg (by decide), if_neg (by decide),
        if_pos (by decide)]
      refine (parseNamed_name member ending.text_cases probe ?_ ?_).trans ?_
      · exact fun other => by cases other.1
      · rintro ⟨-, notErase, notCfg⟩
        exact kinds.elim notErase notCfg
      · rw [if_neg (by decide)]
        exact parseTail_text rg { emptyReq with verb := .erase, region := some rg } ends
  | eraseprobe => decide
  | ctr n =>
      change parse (ascii "ctr" ++ 0x20 :: Decimal.text n) = _
      rw [parse_token (by decide) (Or.inr ⟨_, rfl⟩), if_pos (by decide)]
      exact (parseCtr_eq_ok_iff (number_noNul n) _).mpr ⟨n, allowed, rfl, rfl⟩
  | ctrloop p =>
      change parse (ascii "ctrloop" ++ 0x20 :: Decimal.text p) = _
      rw [parse_token (by decide) (Or.inr ⟨_, rfl⟩), if_neg (by decide),
        if_pos (by decide)]
      exact (parseCtrloop_eq_ok_iff (number_noNul p) _).mpr
        (Or.inr ⟨p, allowed, rfl, rfl⟩)
  | ctrloopShow => decide

/-- A line that is accepted is the line of an allowed form. -/
theorem form_of_parse {line : List UInt8} (noNul : (0 : UInt8) ∉ line) {rq : Req}
    (parsed : parse line = (.ok, rq)) :
    ∃ form : Form, form.Allowed ∧ line = form.line ∧ rq = form.req := by
  obtain ⟨tok, rest, rfl, whole, -, begins⟩ := token_split line
  have noNulRest := (noNul_append noNul).2
  rw [parse_token whole begins] at parsed
  split at parsed
  · next typed =>
      obtain rfl := beq_iff_eq.mp typed
      obtain ⟨n, inside, rfl, rfl⟩ := (parseCtr_eq_ok_iff noNulRest rq).mp parsed
      exact ⟨.ctr n, inside, rfl, rfl⟩
  split at parsed
  · next typed =>
      obtain rfl := beq_iff_eq.mp typed
      rcases (parseCtrloop_eq_ok_iff noNulRest rq).mp parsed with
        ⟨rfl, rfl⟩ | ⟨p, inside, rfl, rfl⟩
      · exact ⟨.ctrloopShow, trivial, rfl, rfl⟩
      · exact ⟨.ctrloop p, inside, rfl, rfl⟩
  split at parsed
  · next typed =>
      obtain rfl := beq_iff_eq.mp typed
      obtain ⟨rfl, rfl⟩ := (parseProbe_eq_ok_iff noNulRest rq).mp parsed
      exact ⟨.eraseprobe, trivial, rfl, rfl⟩
  split at parsed
  · next typed =>
      obtain rfl := beq_iff_eq.mp typed
      obtain ⟨rg, after, member, rfl, noNulAfter, probe, erase, -, digested⟩ :=
        parseNamed_ok noNulRest parsed
      rw [if_pos rfl] at digested
      obtain ⟨digest, ending, length, ends, rfl, rfl⟩ :=
        parseDigest_ok noNulAfter rfl digested
      refine ⟨.install rg digest ending,
        ⟨member, ⟨probe, fun isErase => erase ⟨rfl, isErase⟩⟩, length, ends⟩, ?_, rfl⟩
      have first : ascii "install " = ascii "install" ++ [0x20] := rfl
      rw [Form.line, first]
      simp only [List.append_assoc, List.cons_append, List.nil_append]
  split at parsed
  · next typed =>
      obtain rfl := beq_iff_eq.mp typed
      obtain ⟨rg, after, member, rfl, noNulAfter, -, -, kinds, tailed⟩ :=
        parseNamed_ok noNulRest parsed
      rw [if_neg (by decide)] at tailed
      obtain ⟨ending, ends, rfl, rfl⟩ := parseTail_ok noNulAfter tailed
      refine ⟨.erase rg ending, ⟨member, by tauto, ends⟩, ?_, rfl⟩
      have first : ascii "erase " = ascii "erase" ++ [0x20] := rfl
      rw [Form.line, first]
      simp only [List.append_assoc, List.cons_append, List.nil_append]
  · cases parsed

/-- What it is for a parser to accept exactly the grammar, on a line and its
NUL: it reads nothing past them, succeeds just when the line is an allowed
form's, and gives each such form's request. -/
structure Accepts (line : List UInt8) : Prop where
  inside : Reads.parse (line ++ [0]) = some (parse line)
  exactly_ : (parse line).1 = .ok ↔ ∃ form : Form, form.Allowed ∧ line = form.line
  typed : ∀ form : Form, form.Allowed → line = form.line → (parse line).2 = form.req

/-- The parser accepts exactly its grammar, whatever the line. -/
theorem parse_grammar (line : List UInt8) (noNul : (0 : UInt8) ∉ line) :
    Accepts line where
  inside := Reads.parse_eq noNul
  exactly_ := by
    constructor
    · intro accepted
      obtain ⟨form, allowed, isLine, -⟩ :=
        form_of_parse noNul (Prod.ext accepted rfl : parse line = (.ok, (parse line).2))
      exact ⟨form, allowed, isLine⟩
    · rintro ⟨form, allowed, rfl⟩
      rw [parse_form allowed]
  typed := by
    rintro form allowed rfl
    rw [parse_form allowed]

theorem parse_grammar_ctr : Accepts (ascii "ctr 4097") :=
  parse_grammar (ascii "ctr 4097") (by decide)

end RlxFw.Install
