import RlxFw.Container
import Mathlib.Order.Interval.Set.Disjoint
import Mathlib.Tactic.Ring

/-!
# What the verifier accepts

`Accepted` says, with sets of addresses and no order of checks, what a
container has to satisfy under an environment.  `reason_eq_ok_iff` identifies
it with an `RLXU_OK` of `rlxu_verify`.
-/

namespace RlxFw.Container

/-- The header's version. -/
def version (c : ByteMap) : Nat := be32 c 8

/-- The header's payload length. -/
def payloadLen (c : ByteMap) : Nat := be32 c 12

/-- The header's load address. -/
def loadAddr (c : ByteMap) : Nat := be32 c 16

/-- The header's entry address. -/
def entryAddr (c : ByteMap) : Nat := be32 c 20

/-- The declared flash destination. -/
def flashAt (c : ByteMap) : Nat := be32 c flashOff

/-- The declared landing form. -/
def flashForm (c : ByteMap) : Nat := be32 c formOff

/-- The addresses the payload is loaded to. -/
def destination (c : ByteMap) : Set Nat :=
  Set.Ico (loadAddr c) (loadAddr c + payloadLen c)

/-- The addresses of a container staged at `base`. -/
def staging (c : ByteMap) (base : Nat) : Set Nat :=
  Set.Ico base (base + (bodyOff + payloadLen c))

/-- The flash offsets the declared destination and form name. -/
def landingRange (c : ByteMap) : Set Nat :=
  Set.Ico (flashAt c)
    (flashAt c +
      if flashForm c = formWhole then bodyOff + payloadLen c
      else payloadLen c)

/-- The flash offsets a container may be declared for. -/
def licensable : Set Nat := Set.Ico flashKeepoutEnd chipSize

/-- The declared destination and form are one of the three the format has. -/
def FormConsistent (c : ByteMap) : Prop :=
  (flashAt c = flashNone ∧ flashForm c = formNone) ∨
    (flashAt c ≠ flashNone ∧
      (flashForm c = formWhole ∨ flashForm c = formPayload))

/-- The format's own conditions on the header and on how much is readable. -/
structure WellFormed (c : ByteMap) (avail : Nat) : Prop where
  magic : be32 c 0 = magicWord
  format : be16 c 4 = formatTwo
  headerLen : be16 c 6 = hdrLen
  version_mem : version c ∈ Set.Icc verMin verMax
  payload_pos : 0 < payloadLen c
  payload_le : payloadLen c ≤ payloadMax
  flags : be32 c 24 = 0
  reserved : ∀ i < resvLen, c (resvOff + i) = 0
  present : bodyOff + payloadLen c ≤ avail
  form : FormConsistent c

/-- The container lies in its staging buffer. -/
def Staged (c : ByteMap) (e : Env) : Prop :=
  e.bufBase + (bodyOff + payloadLen c) < 2 ^ 32 ∧
    e.bufBase + (bodyOff + payloadLen c) ≤ e.bufLimit

/-- The declared landing range is licensable, and it is where and as what the
caller is about to write. -/
structure Lands (c : ByteMap) (e : Env) : Prop where
  licensed : flashAt c ≠ flashNone → landingRange c ⊆ licensable
  declared : e.writeAt ≠ flashNone →
    flashAt c = e.writeAt ∧ flashForm c = e.writeForm

/-- The payload's destination may be written, and the entry lies in it. -/
structure Loads (c : ByteMap) (e : Env) : Prop where
  noWrap : loadAddr c + payloadLen c < 2 ^ 32
  inRam : destination c ⊆ Set.Ico e.ramBase e.ramEnd
  aligned : 4 ∣ loadAddr c
  entry_mem : entryAddr c ∈ destination c
  entry_aligned : 4 ∣ entryAddr c
  apart_self : Disjoint (destination c) (Set.Ico e.selfBase e.selfEnd)
  apart_staging : Disjoint (destination c) (staging c e.bufBase)
  apart_loader : Disjoint (destination c) (Set.Ico e.ldrBase e.ldrEnd)

/-- The signature, the digest and the counter. -/
structure Authentic (ed25519 : SignatureCheck) (c : ByteMap) (e : Env) :
    Prop where
  signature :
    ed25519 (c.slice hdrLen sigLen) (c.slice 0 hdrLen) e.pk = true
  digest :
    Sha256b.sha256b (c.slice bodyOff (payloadLen c)) = c.slice 28 32
  current : e.counter ≤ version c

/-- Everything an accepted container satisfies. -/
structure Accepted (ed25519 : SignatureCheck) (c : ByteMap) (avail : Nat)
    (e : Env) : Prop where
  wellFormed : WellFormed c avail
  staged : Staged c e
  lands : Lands c e
  loads : Loads c e
  authentic : Authentic ed25519 c e

/-! ## The helpers -/

theorem be32_lt (c : ByteMap) (p : Nat) : be32 c p < 2 ^ 32 := by
  have b0 := (c p).toNat_lt
  have b1 := (c (p + 1)).toNat_lt
  have b2 := (c (p + 2)).toNat_lt
  have b3 := (c (p + 3)).toNat_lt
  unfold be32
  omega

theorem be32_congr {c d : ByteMap} {start length p : Nat}
    (agree : ByteMap.AgreeOn c d start length) (lower : start ≤ p)
    (upper : p + 4 ≤ start + length) :
    be32 c p = be32 d p := by
  unfold be32
  rw [agree p lower (by omega), agree (p + 1) (by omega) (by omega),
    agree (p + 2) (by omega) (by omega), agree (p + 3) (by omega) (by omega)]

theorem be16_congr {c d : ByteMap} {start length p : Nat}
    (agree : ByteMap.AgreeOn c d start length) (lower : start ≤ p)
    (upper : p + 2 ≤ start + length) :
    be16 c p = be16 d p := by
  unfold be16
  rw [agree p lower (by omega), agree (p + 1) (by omega) (by omega)]

/-- `overlaps` decides whether two half-open ranges meet. -/
theorem overlaps_eq_false_iff (a0 a1 b0 b1 : Nat) :
    overlaps a0 a1 b0 b1 = false ↔
      Disjoint (Set.Ico a0 a1) (Set.Ico b0 b1) := by
  rw [Set.Ico_disjoint_Ico]
  unfold overlaps
  split
  · simp only [true_iff]
    omega
  · simp only [Bool.and_eq_false_iff, decide_eq_false_iff_not]
    omega

private theorem foldl_or_eq_zero_iff (bytes : List UInt8) (seed : UInt8) :
    bytes.foldl (· ||| ·) seed = 0 ↔ seed = 0 ∧ ∀ b ∈ bytes, b = 0 := by
  induction bytes generalizing seed with
  | nil => simp
  | cons b bytes ih =>
      have orZero : seed ||| b = 0 ↔ seed = 0 ∧ b = 0 := UInt8.or_eq_zero_iff
      rw [List.foldl_cons, ih, orZero, List.forall_mem_cons, and_assoc]

/-- `ct_eq32` is equality on digests of one length. -/
theorem ctEq32_eq_true_iff {a b : List UInt8} (lengthEq : a.length = b.length) :
    ctEq32 a b = true ↔ a = b := by
  unfold ctEq32
  rw [beq_iff_eq, foldl_or_eq_zero_iff]
  induction a generalizing b with
  | nil =>
      cases b with
      | nil => simp
      | cons y b => simp at lengthEq
  | cons x a ih =>
      cases b with
      | nil => simp at lengthEq
      | cons y b =>
          have tailIff := ih (by simpa using lengthEq)
          simp only [true_and] at tailIff
          simp only [true_and, List.zipWith_cons_cons, List.forall_mem_cons,
            tailIff, UInt8.xor_eq_zero_iff, List.cons.injEq]

/-! ## The steps -/

/-- The record of an accepted container. -/
def acceptedRecord (r : Rlxu) : Rlxu :=
  { r with
    reason := .ok
    stage := some .ver
    trace := [.hdr, .bound, .sig, .digest, .ver]
    hashed := r.payloadLen }

/-- A check finds nothing when it passes and the ones behind it find nothing. -/
theorem check_eq_none {c : Prop} [Decidable c] {why : Reason} {later : Option Reason} :
    (if c then some why else later) = none ↔ ¬ c ∧ later = none := by
  by_cases failed : c <;> simp [failed]

/-- No check names an acceptance when none behind it does. -/
theorem check_ne_some_ok {c : Prop} [Decidable c] {why : Reason} {later : Option Reason}
    (named : why ≠ .ok) (behind : later ≠ some .ok) :
    (if c then some why else later) ≠ some .ok := by
  by_cases failed : c
  · rw [if_pos failed]
    exact fun same => named (Option.some.inj same)
  · rw [if_neg failed]
    exact behind

theorem headerFault_eq_none_iff (r : Rlxu) :
    headerFault r = none ↔
      r.magic = magicWord ∧ r.format = formatTwo ∧ r.headerLen = hdrLen := by
  simp only [headerFault, check_eq_none, not_not, and_true, ne_eq]

/-- The staged container neither wraps nor passes the buffer's limit; the
length bound is what keeps one wrap from going unseen. -/
theorem buf1_in_window_iff (e : Env) (r : Rlxu)
    (lengthBound : r.payloadLen ≤ payloadMax) :
    ¬ (r.buf1 e < e.bufBase ∨ r.buf1 e > e.bufLimit) ↔
      e.bufBase + r.body < 2 ^ 32 ∧ e.bufBase + r.body ≤ e.bufLimit := by
  unfold Rlxu.buf1 Rlxu.body bodyOff hdrLen sigLen a32
  unfold payloadMax at lengthBound
  omega

theorem fieldFault_eq_none_iff (c : ByteMap) (avail : Nat) (e : Env)
    (r : Rlxu) :
    fieldFault c avail e r = none ↔
      r.version ∈ Set.Icc verMin verMax ∧
      (0 < r.payloadLen ∧ r.payloadLen ≤ payloadMax) ∧
      r.flags = 0 ∧
      (∀ i < resvLen, c (resvOff + i) = 0) ∧
      r.body ≤ avail ∧
      e.bufBase + r.body < 2 ^ 32 ∧ e.bufBase + r.body ≤ e.bufLimit := by
  have reserved : ((List.range resvLen).any fun i => c (resvOff + i) ≠ 0) =
      true ↔ ¬ ∀ i < resvLen, c (resvOff + i) = 0 := by
    simp
  have len : ¬ (r.payloadLen = 0 ∨ r.payloadLen > payloadMax) ↔
      0 < r.payloadLen ∧ r.payloadLen ≤ payloadMax := by omega
  have version : ¬ (r.version < verMin ∨ r.version > verMax) ↔
      verMin ≤ r.version ∧ r.version ≤ verMax := by omega
  simp only [fieldFault, check_eq_none, reserved, Set.mem_Icc, len, version, not_not, and_true,
    not_lt, ne_eq]
  constructor
  · rintro ⟨inVersion, inLen, flags, zero, present, inWindow⟩
    exact ⟨inVersion, inLen, flags, zero, present, (buf1_in_window_iff e r inLen.2).mp inWindow⟩
  · rintro ⟨inVersion, inLen, flags, zero, present, inWindow⟩
    exact ⟨inVersion, inLen, flags, zero, present, (buf1_in_window_iff e r inLen.2).mpr inWindow⟩

theorem formFault_eq_none_iff (r : Rlxu) :
    formFault r = none ↔
      (r.flashAt = flashNone ∧ r.flashForm = formNone) ∨
      (r.flashAt ≠ flashNone ∧
        (r.flashForm = formWhole ∨ r.flashForm = formPayload)) := by
  unfold formFault
  split_ifs <;> simp_all

theorem placeFault_eq_none_iff (e : Env) (r : Rlxu) :
    placeFault e r = none ↔
      (r.flashAt ≠ flashNone →
        r.flashAt < chipSize ∧ a32 (r.flashAt + r.flashLen) ≤ chipSize ∧
          flashKeepoutEnd ≤ r.flashAt) ∧
      (e.writeAt ≠ flashNone →
        r.flashAt = e.writeAt ∧ r.flashForm = e.writeForm) ∧
      (r.loadAddr ≤ r.dst1 ∧ e.ramBase ≤ r.loadAddr ∧ r.dst1 ≤ e.ramEnd ∧
        r.loadAddr % 4 = 0) ∧
      (r.loadAddr ≤ r.entryAddr ∧ r.entryAddr < r.dst1 ∧
        r.entryAddr % 4 = 0) ∧
      overlaps r.loadAddr r.dst1 e.selfBase e.selfEnd = false ∧
      overlaps r.loadAddr r.dst1 e.bufBase (r.buf1 e) = false ∧
      overlaps r.loadAddr r.dst1 e.ldrBase e.ldrEnd = false := by
  have flash : ¬ (r.flashAt ≠ flashNone ∧
      (r.flashAt ≥ chipSize ∨ a32 (r.flashAt + r.flashLen) > chipSize ∨
        r.flashAt < flashKeepoutEnd)) ↔
      (r.flashAt ≠ flashNone →
        r.flashAt < chipSize ∧ a32 (r.flashAt + r.flashLen) ≤ chipSize ∧
          flashKeepoutEnd ≤ r.flashAt) := by
    omega
  simp only [placeFault, check_eq_none, flash, not_and, not_or, not_not, not_lt, ge_iff_le,
    gt_iff_lt, not_le, and_assoc, and_true, ne_eq, Bool.not_eq_true]

theorem verifyTrusted_reason_ok_iff (ed25519 : SignatureCheck) (c : ByteMap)
    (e : Env) (r : Rlxu) :
    (verifyTrusted ed25519 c e r).reason = .ok ↔
      ed25519 (c.slice hdrLen sigLen) (c.slice 0 hdrLen) e.pk = true ∧
      Sha256b.sha256b (c.slice bodyOff r.payloadLen) = c.slice 28 32 ∧
      e.counter ≤ r.version := by
  have digestIff : ctEq32 (Sha256b.sha256b (c.slice bodyOff r.payloadLen))
      (c.slice 28 32) = true ↔
      Sha256b.sha256b (c.slice bodyOff r.payloadLen) = c.slice 28 32 :=
    ctEq32_eq_true_iff (by simp)
  have tracedLen (q : Rlxu) (tag : Stage) :
      (q.traced tag).payloadLen = q.payloadLen := by
    unfold Rlxu.traced
    split <;> rfl
  have tracedVersion (q : Rlxu) (tag : Stage) :
      (q.traced tag).version = q.version := by
    unfold Rlxu.traced
    split <;> rfl
  simp only [verifyTrusted, tracedLen, tracedVersion, digestIff]
  by_cases signed : ed25519 (c.slice hdrLen sigLen) (c.slice 0 hdrLen) e.pk = true
  · rw [if_neg (not_not_intro signed), and_iff_right signed]
    by_cases digest : Sha256b.sha256b (c.slice bodyOff r.payloadLen) = c.slice 28 32
    · rw [if_neg (not_not_intro digest), and_iff_right digest]
      by_cases old : r.version < e.counter
      · rw [if_pos old]
        exact iff_of_false (by simp [Rlxu.refuse]) (Nat.not_le.mpr old)
      · rw [if_neg old]
        exact iff_of_true rfl (Nat.le_of_not_lt old)
    · rw [if_pos digest]
      exact iff_of_false (by simp [Rlxu.refuse]) fun all => digest all.1
  · rw [if_pos signed]
    exact iff_of_false (by simp [Rlxu.refuse]) fun all => signed all.1

theorem headerFault_ne_some_ok (r : Rlxu) : headerFault r ≠ some .ok := by
  unfold headerFault
  repeat' refine check_ne_some_ok (by decide) ?_
  exact (Option.some_ne_none _).symm

theorem fieldFault_ne_some_ok (c : ByteMap) (avail : Nat) (e : Env)
    (r : Rlxu) :
    fieldFault c avail e r ≠ some .ok := by
  unfold fieldFault
  repeat' refine check_ne_some_ok (by decide) ?_
  exact (Option.some_ne_none _).symm

theorem formFault_ne_some_ok (r : Rlxu) : formFault r ≠ some .ok := by
  unfold formFault
  split_ifs <;> simp

theorem placeFault_ne_some_ok (e : Env) (r : Rlxu) :
    placeFault e r ≠ some .ok := by
  unfold placeFault
  repeat' refine check_ne_some_ok (by decide) ?_
  exact (Option.some_ne_none _).symm

theorem guard_reason_ok_iff (r next : Rlxu) (stage : Stage)
    (fault : Option Reason) (faultNotOk : fault ≠ some .ok) :
    (r.guard stage fault next).reason = .ok ↔
      fault = none ∧ next.reason = .ok := by
  cases fault with
  | none => exact (and_iff_right rfl).symm
  | some reason =>
      have notOk : reason ≠ .ok := fun isOk => faultNotOk (congrArg some isOk)
      exact iff_of_false notOk fun all => Option.some_ne_none _ all.1

/-- An `RLXU_OK` means that every step ran and none refused. -/
theorem reason_ok_iff_steps (ed25519 : SignatureCheck) (c : ByteMap)
    (avail : Nat) (e : Env) :
    (rlxuVerify ed25519 c avail e).reason = .ok ↔
      bodyOff ≤ avail ∧
      headerFault (headed c) = none ∧
      fieldFault c avail e (parsed c) = none ∧
      formFault (parsed c) = none ∧
      placeFault e (parsed c).landed = none ∧
      (verifyTrusted ed25519 c e (parsed c).landed).reason = .ok := by
  unfold rlxuVerify
  split
  · rename_i tooShort
    have absent : ¬ bodyOff ≤ avail := Nat.not_le_of_lt tooShort
    simp [absent, Rlxu.refuse]
  · rename_i long
    have present : bodyOff ≤ avail := Nat.le_of_not_lt long
    rw [guard_reason_ok_iff _ _ _ _ (headerFault_ne_some_ok _),
      guard_reason_ok_iff _ _ _ _ (fieldFault_ne_some_ok _ _ _ _),
      guard_reason_ok_iff _ _ _ _ (formFault_ne_some_ok _),
      guard_reason_ok_iff _ _ _ _ (placeFault_ne_some_ok _ _)]
    simp only [present, true_and]

/-- The length `rlxu_verify` bounds against the chip is the length of the
declared landing range. -/
theorem landing_bound_iff (c : ByteMap)
    (lengthPos : 0 < payloadLen c) (lengthBound : payloadLen c ≤ payloadMax)
    (declared : flashAt c ≠ flashNone) :
    (flashAt c < chipSize ∧
        a32 (flashAt c + (parsed c).landed.flashLen) ≤ chipSize ∧
        flashKeepoutEnd ≤ flashAt c) ↔
      landingRange c ⊆ licensable := by
  have lengthEq : (parsed c).landed.flashLen =
      if flashForm c = formWhole then bodyOff + payloadLen c
      else payloadLen c := by
    change (if flashAt c = flashNone then _ else _) = _
    rw [if_neg declared]
    rfl
  have positive : 0 < (parsed c).landed.flashLen := by
    rw [lengthEq]
    split <;> omega
  have bound : (parsed c).landed.flashLen ≤ bodyOff + payloadMax := by
    rw [lengthEq]
    split <;> omega
  unfold landingRange licensable
  rw [← lengthEq, Set.Ico_subset_Ico_iff (by omega)]
  unfold a32 chipSize flashKeepoutEnd
  unfold bodyOff hdrLen sigLen payloadMax at bound
  omega

/-- Where the payload does not wrap, the end the source computes is its end. -/
theorem dst1_ge_iff (c : ByteMap) (lengthPos : 0 < payloadLen c)
    (lengthBound : payloadLen c ≤ payloadMax) :
    loadAddr c ≤ (parsed c).dst1 ↔
      loadAddr c + payloadLen c < 2 ^ 32 := by
  have addrBound := be32_lt c 16
  change loadAddr c ≤ a32 (loadAddr c + payloadLen c) ↔ _
  change loadAddr c < 2 ^ 32 at addrBound
  unfold a32
  unfold payloadMax at lengthBound
  omega

theorem dst1_eq (c : ByteMap)
    (noWrap : loadAddr c + payloadLen c < 2 ^ 32) :
    (parsed c).dst1 = loadAddr c + payloadLen c := by
  change a32 (loadAddr c + payloadLen c) = _
  exact Nat.mod_eq_of_lt noWrap

theorem buf1_eq (c : ByteMap) (e : Env) (staged : Staged c e) :
    (parsed c).buf1 e = e.bufBase + (bodyOff + payloadLen c) := by
  change a32 (e.bufBase + (bodyOff + payloadLen c)) = _
  exact Nat.mod_eq_of_lt staged.1

/-- Bytes that do not begin with the magic are refused for that, whatever else
holds. -/
theorem reason_eq_magic {ed25519 : SignatureCheck} {c : ByteMap} {avail : Nat}
    {e : Env} (readable : bodyOff ≤ avail)
    (noMagic : be32 c 0 ≠ magicWord) :
    (rlxuVerify ed25519 c avail e).reason = .magic := by
  have fault : headerFault (headed c) = some .magic := if_pos noMagic
  unfold rlxuVerify
  rw [if_neg (Nat.not_lt_of_le readable), fault]
  rfl

/-! ## Soundness and completeness -/

theorem wellFormed_of_steps {c : ByteMap} {avail : Nat} {e : Env}
    (header : headerFault (headed c) = none)
    (fields : fieldFault c avail e (parsed c) = none)
    (form : formFault (parsed c) = none) :
    WellFormed c avail ∧ Staged c e := by
  obtain ⟨magic, format, headerLen⟩ := (headerFault_eq_none_iff _).mp header
  obtain ⟨versionMem, ⟨lengthPos, lengthLe⟩, flags, reserved, present,
    noWrap, inBuffer⟩ := (fieldFault_eq_none_iff _ _ _ _).mp fields
  have consistent := (formFault_eq_none_iff _).mp form
  exact ⟨⟨magic, format, headerLen, versionMem, lengthPos, lengthLe, flags,
    reserved, present, consistent⟩, noWrap, inBuffer⟩

@[simp]
theorem landed_dst1 (r : Rlxu) : r.landed.dst1 = r.dst1 := by
  unfold Rlxu.dst1
  rfl

@[simp]
theorem landed_buf1 (r : Rlxu) (e : Env) : r.landed.buf1 e = r.buf1 e := by
  unfold Rlxu.buf1 Rlxu.body
  rfl

theorem loads_of_placed {c : ByteMap} {avail : Nat} {e : Env}
    (wellFormed : WellFormed c avail) (staged : Staged c e)
    (placed : placeFault e (parsed c).landed = none) :
    Lands c e ∧ Loads c e := by
  rw [placeFault_eq_none_iff, landed_dst1, landed_buf1,
    buf1_eq c e staged] at placed
  obtain ⟨licensed, declared, ⟨noWrap, ramLower, ramUpper, aligned⟩,
    ⟨entryLower, entryUpper, entryAligned⟩, apartSelf, apartStaging,
    apartLoader⟩ := placed
  have fits := (dst1_ge_iff c wellFormed.payload_pos
    wellFormed.payload_le).mp noWrap
  rw [dst1_eq c fits] at ramUpper entryUpper
  rw [dst1_eq c fits] at apartSelf apartStaging apartLoader
  have positive := wellFormed.payload_pos
  refine ⟨⟨fun isDeclared => ?_, declared⟩, ?_⟩
  · exact (landing_bound_iff c wellFormed.payload_pos wellFormed.payload_le
      isDeclared).mp (licensed isDeclared)
  · refine ⟨fits, ?_, Nat.dvd_of_mod_eq_zero aligned,
      ⟨entryLower, entryUpper⟩, Nat.dvd_of_mod_eq_zero entryAligned,
      (overlaps_eq_false_iff _ _ _ _).mp apartSelf,
      (overlaps_eq_false_iff _ _ _ _).mp apartStaging,
      (overlaps_eq_false_iff _ _ _ _).mp apartLoader⟩
    unfold destination
    rw [Set.Ico_subset_Ico_iff (by omega)]
    exact ⟨ramLower, ramUpper⟩

theorem placed_of_loads {c : ByteMap} {avail : Nat} {e : Env}
    (wellFormed : WellFormed c avail) (staged : Staged c e)
    (lands : Lands c e) (loads : Loads c e) :
    placeFault e (parsed c).landed = none := by
  have positive := wellFormed.payload_pos
  have inRam := loads.inRam
  unfold destination at inRam
  rw [Set.Ico_subset_Ico_iff (by omega)] at inRam
  rw [placeFault_eq_none_iff, landed_dst1, landed_buf1,
    dst1_eq c loads.noWrap, buf1_eq c e staged]
  refine ⟨fun isDeclared => ?_, lands.declared, ?_, ?_,
    (overlaps_eq_false_iff _ _ _ _).mpr loads.apart_self,
    (overlaps_eq_false_iff _ _ _ _).mpr loads.apart_staging,
    (overlaps_eq_false_iff _ _ _ _).mpr loads.apart_loader⟩
  · exact (landing_bound_iff c wellFormed.payload_pos wellFormed.payload_le
      isDeclared).mpr (lands.licensed isDeclared)
  · exact ⟨Nat.le_add_right _ _, inRam.1, inRam.2,
      Nat.mod_eq_zero_of_dvd loads.aligned⟩
  · exact ⟨loads.entry_mem.1, loads.entry_mem.2,
      Nat.mod_eq_zero_of_dvd loads.entry_aligned⟩

/-- Whatever `rlxu_verify` accepts satisfies every condition. -/
theorem accepted_of_reason_ok {ed25519 : SignatureCheck} {c : ByteMap}
    {avail : Nat} {e : Env}
    (ok : (rlxuVerify ed25519 c avail e).reason = .ok) :
    Accepted ed25519 c avail e := by
  obtain ⟨-, header, fields, form, placed, trusted⟩ :=
    (reason_ok_iff_steps _ _ _ _).mp ok
  obtain ⟨wellFormed, staged⟩ := wellFormed_of_steps header fields form
  obtain ⟨lands, loads⟩ := loads_of_placed wellFormed staged placed
  obtain ⟨signature, digest, current⟩ :=
    (verifyTrusted_reason_ok_iff _ _ _ _).mp trusted
  exact ⟨wellFormed, staged, lands, loads, signature, digest, current⟩

/-- Whatever satisfies every condition is accepted by `rlxu_verify`. -/
theorem reason_ok_of_accepted {ed25519 : SignatureCheck} {c : ByteMap}
    {avail : Nat} {e : Env} (accepted : Accepted ed25519 c avail e) :
    (rlxuVerify ed25519 c avail e).reason = .ok := by
  obtain ⟨wellFormed, staged, lands, loads, authentic⟩ := accepted
  have readable : bodyOff ≤ avail :=
    le_trans (Nat.le_add_right _ _) wellFormed.present
  have header : headerFault (headed c) = none :=
    (headerFault_eq_none_iff _).mpr
      ⟨wellFormed.magic, wellFormed.format, wellFormed.headerLen⟩
  have fields : fieldFault c avail e (parsed c) = none :=
    (fieldFault_eq_none_iff _ _ _ _).mpr
      ⟨wellFormed.version_mem, ⟨wellFormed.payload_pos,
        wellFormed.payload_le⟩, wellFormed.flags, wellFormed.reserved,
        wellFormed.present, staged.1, staged.2⟩
  have form : formFault (parsed c) = none :=
    (formFault_eq_none_iff _).mpr wellFormed.form
  have placed := placed_of_loads wellFormed staged lands loads
  have trusted :=
    (verifyTrusted_reason_ok_iff ed25519 c e (parsed c).landed).mpr
      ⟨authentic.signature, authentic.digest, authentic.current⟩
  exact (reason_ok_iff_steps _ _ _ _).mpr
    ⟨readable, header, fields, form, placed, trusted⟩

theorem verifyTrusted_eq_of_ok {ed25519 : SignatureCheck} {c : ByteMap}
    {e : Env} {r : Rlxu} (entered : r.trace = [.hdr, .bound])
    (ok : (verifyTrusted ed25519 c e r).reason = .ok) :
    verifyTrusted ed25519 c e r = acceptedRecord r := by
  obtain ⟨signed, digested, current⟩ := (verifyTrusted_reason_ok_iff ed25519 c e r).mp ok
  obtain ⟨magic, version, payloadLen, loadAddr, entryAddr, flags, recipeId,
    flashAt, flashForm, flashLen, format, headerLen, digest, reason, stage,
    trace, hashed, copied⟩ := r
  obtain rfl : trace = [.hdr, .bound] := entered
  have same := (ctEq32_eq_true_iff (by simp)).mpr digested
  rw [verifyTrusted, if_neg (not_not_intro signed)]
  exact (if_neg (not_not_intro same)).trans (if_neg (Nat.not_lt.mpr current))

/-- On acceptance the result is the parsed header with its landing length, the
whole trace, and the payload counted as hashed. -/
theorem rlxuVerify_eq_of_ok {ed25519 : SignatureCheck} {c : ByteMap}
    {avail : Nat} {e : Env}
    (ok : (rlxuVerify ed25519 c avail e).reason = .ok) :
    rlxuVerify ed25519 c avail e = acceptedRecord (parsed c).landed := by
  obtain ⟨present, header, fields, form, placed, trusted⟩ :=
    (reason_ok_iff_steps _ _ _ _).mp ok
  have entered : (parsed c).landed.trace = [.hdr, .bound] := rfl
  rw [← verifyTrusted_eq_of_ok entered trusted]
  unfold rlxuVerify
  rw [if_neg (Nat.not_lt_of_le present), header, fields, form, placed]
  simp only [Rlxu.guard]

/-! ## What the verdict depends on -/

section Congruence

variable {c d : ByteMap}

/-- Two containers that agree over the header agree on every field of it. -/
theorem fields_congr (agree : ByteMap.AgreeOn c d 0 bodyOff) :
    version d = version c ∧ payloadLen d = payloadLen c ∧
      loadAddr d = loadAddr c ∧ entryAddr d = entryAddr c ∧
      flashAt d = flashAt c ∧ flashForm d = flashForm c := by
  have bound : bodyOff = 160 := rfl
  unfold version payloadLen loadAddr entryAddr flashAt flashForm flashOff
    formOff
  refine ⟨?_, ?_, ?_, ?_, ?_, ?_⟩ <;>
    exact (be32_congr agree (by omega) (by omega)).symm

/-- Acceptance reads only the container's own bytes, and asks of the readable
length only that it covers them. -/
theorem Accepted.congr {ed25519 : SignatureCheck} {avail avail' : Nat}
    {e : Env} (accepted : Accepted ed25519 c avail e)
    (agree : ByteMap.AgreeOn c d 0 (bodyOff + payloadLen c))
    (readable : bodyOff + payloadLen c ≤ avail') :
    Accepted ed25519 d avail' e := by
  have bound : bodyOff = 160 := rfl
  have header : ByteMap.AgreeOn c d 0 bodyOff :=
    agree.mono le_rfl (by omega)
  obtain ⟨versionEq, lengthEq, loadEq, entryEq, atEq, formEq⟩ :=
    fields_congr header
  obtain ⟨wellFormed, staged, lands, loads, authentic⟩ := accepted
  have destinationEq : destination d = destination c := by
    unfold destination
    rw [loadEq, lengthEq]
  have stagingEq : staging d e.bufBase = staging c e.bufBase := by
    unfold staging
    rw [lengthEq]
  have landingEq : landingRange d = landingRange c := by
    unfold landingRange
    rw [atEq, formEq, lengthEq]
  refine ⟨⟨?_, ?_, ?_, ?_, ?_, ?_, ?_, ?_, ?_, ?_⟩, ?_, ⟨?_, ?_⟩,
    ⟨?_, ?_, ?_, ?_, ?_, ?_, ?_, ?_⟩, ⟨?_, ?_, ?_⟩⟩
  · rw [← be32_congr header (by omega) (by omega)]
    exact wellFormed.magic
  · rw [← be16_congr header (by omega) (by omega)]
    exact wellFormed.format
  · rw [← be16_congr header (by omega) (by omega)]
    exact wellFormed.headerLen
  · rw [versionEq]
    exact wellFormed.version_mem
  · rw [lengthEq]
    exact wellFormed.payload_pos
  · rw [lengthEq]
    exact wellFormed.payload_le
  · rw [← be32_congr header (by omega) (by omega)]
    exact wellFormed.flags
  · intro i inside
    unfold resvLen at inside
    rw [← header (resvOff + i) (by omega) (by unfold resvOff; omega)]
    exact wellFormed.reserved i inside
  · rw [lengthEq]
    exact readable
  · unfold FormConsistent
    rw [atEq, formEq]
    exact wellFormed.form
  · unfold Staged
    rw [lengthEq]
    exact staged
  · rw [atEq, landingEq]
    exact lands.licensed
  · rw [atEq, formEq]
    exact lands.declared
  · rw [loadEq, lengthEq]
    exact loads.noWrap
  · rw [destinationEq]
    exact loads.inRam
  · rw [loadEq]
    exact loads.aligned
  · rw [entryEq, destinationEq]
    exact loads.entry_mem
  · rw [entryEq]
    exact loads.entry_aligned
  · rw [destinationEq]
    exact loads.apart_self
  · rw [destinationEq, stagingEq]
    exact loads.apart_staging
  · rw [destinationEq]
    exact loads.apart_loader
  · rw [← ByteMap.slice_congr (header.mono (by omega) (by decide)),
      ← ByteMap.slice_congr (header.mono (by omega) (by decide))]
    exact authentic.signature
  · rw [lengthEq, ← ByteMap.slice_congr (agree.mono (by omega) (by omega)),
      ← ByteMap.slice_congr (header.mono (by omega) (by decide))]
    exact authentic.digest
  · rw [versionEq]
    exact authentic.current

end Congruence

/-- `rlxu_verify` accepts exactly the containers that satisfy every
condition. -/
theorem rlxuVerify_ok_iff_accepted (ed25519 : SignatureCheck) (c : ByteMap)
    (avail : Nat) (e : Env) :
    (rlxuVerify ed25519 c avail e).reason = .ok ↔
      Accepted ed25519 c avail e :=
  ⟨accepted_of_reason_ok, reason_ok_of_accepted⟩

end RlxFw.Container
