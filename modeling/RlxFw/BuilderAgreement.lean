import RlxFw.Mkfw2Build
import RlxFw.Slots

/-!
# The host's builder against the device's verifier

Which containers the two disagree on: the device also wants the load and entry
addresses aligned, the loader's window and the slot's own buffer left alone,
and the host keeps a window for rlxboot and one staging address of its own.
-/

namespace RlxFw.Mkfw2

open Container (be32 be16 version payloadLen loadAddr entryAddr flashAt flashForm
  destination staging landingRange licensable WellFormed Staged Lands Loads Authentic
  Accepted Env SignatureCheck rlxuVerify bodyOff)
open Slots (Slot slotA slotB slotEnv mainEnv)

/-! ## Rows -/

theorem untilRefused_pass_iff (rows : List Row) :
    ((untilRefused rows).any fun row => !row.ok) = false ↔ ∀ row ∈ rows, row.ok = true := by
  induction rows with
  | nil => simp [untilRefused]
  | cons row rest ih =>
      rw [untilRefused, List.forall_mem_cons, ← ih]
      cases ok : row.ok <;> simp [ok]

theorem mem_of_mem_untilRefused {rows : List Row} {row : Row}
    (member : row ∈ untilRefused rows) : row ∈ rows := by
  induction rows with
  | nil => exact member
  | cons first rest ih =>
      rw [untilRefused] at member
      split at member
      · rcases List.mem_cons.mp member with rfl | later
        · exact List.mem_cons_self ..
        · exact List.mem_cons_of_mem _ (ih later)
      · rw [List.mem_singleton.mp member]
        exact List.mem_cons_self ..

/-- A row that fails is reported, unless one before it fails. -/
theorem exists_refused_untilRefused {rows : List Row} {late : List Row}
    (fails : ¬ ∀ row ∈ rows, row.ok = true) :
    ∃ row ∈ rows, row ∈ untilRefused (rows ++ late) ∧ row.ok = false := by
  induction rows with
  | nil => exact absurd (by simp) fails
  | cons first rest ih =>
      rw [List.cons_append, untilRefused]
      cases ok : first.ok with
      | false => exact ⟨first, List.mem_cons_self .., by simp, ok⟩
      | true =>
          rw [List.forall_mem_cons, and_iff_right ok] at fails
          obtain ⟨row, member, reported, bad⟩ := ih fails
          exact ⟨row, List.mem_cons_of_mem _ member, List.mem_cons_of_mem _ reported, bad⟩

/-- `checks` refuses a field: a row of step 1 or 2. -/
def RefusesField (verify : HostVerify) (blob pubkey : List UInt8) (counter : Nat)
    (write : Option (Nat × Option Nat)) : Prop :=
  ∃ row ∈ checks verify blob pubkey counter write, row.step ≤ 2 ∧ row.ok = false

section Checks

variable {verify : HostVerify} {blob pubkey : List UInt8} {counter : Nat}
  {write : Option (Nat × Option Nat)}

theorem fieldRows_step : ∀ row ∈ fieldRows blob write, row.step ≤ 2 := by
  simp [fieldRows]

theorem trustRows_step : ∀ row ∈ trustRows verify blob pubkey counter, 2 < row.step := by
  simp [trustRows]

theorem checks_pass_iff (long : body ≤ blob.length) :
    ((checks verify blob pubkey counter write).any fun row => !row.ok) = false ↔
      (∀ row ∈ fieldRows blob write, row.ok = true) ∧
        ∀ row ∈ trustRows verify blob pubkey counter, row.ok = true := by
  unfold checks
  rw [if_neg (not_lt.mpr long), untilRefused_pass_iff, List.forall_mem_append]

theorem refusesField_iff (long : body ≤ blob.length) :
    RefusesField verify blob pubkey counter write ↔
      ¬ ∀ row ∈ fieldRows blob write, row.ok = true := by
  unfold RefusesField checks
  rw [if_neg (not_lt.mpr long)]
  constructor
  · rintro ⟨row, reported, early, bad⟩ passes
    rcases List.mem_append.mp (mem_of_mem_untilRefused reported) with field | trust
    · rw [passes row field] at bad
      cases bad
    · exact absurd (trustRows_step row trust) (not_lt.mpr early)
  · intro fails
    obtain ⟨row, member, reported, bad⟩ := exists_refused_untilRefused fails
    exact ⟨row, reported, fieldRows_step row member, bad⟩

end Checks

/-! ## The two sides -/

/-- What the two implementations of the signature owe each other: both take what
the host signs. -/
structure SignsFor (sig : Rlxsign) (ed25519 : SignatureCheck) : Prop where
  length : ∀ seed m, (sig.sign seed m).length = sigLen
  host : ∀ seed m, sig.verify (sig.secretToPublic seed) m (sig.sign seed m) = true
  device : ∀ seed m, ed25519 (sig.sign seed m) m (sig.secretToPublic seed) = true

/-- One of the two slots. -/
def IsSlot (s : Slot) : Prop := s = slotA ∨ s = slotB

/-- The environment of a slot, under a counter. -/
def envOf (s : Slot) (selfEnd counter : Nat) (flash : ByteMap) (pk : List UInt8) : Env :=
  slotEnv s { mainEnv selfEnd flash pk with counter := counter }

/-- The addresses a source is loaded to. -/
def Source.destination (x : Source) : Set Int :=
  Set.Ico x.loadAddr (x.loadAddr + x.payload.length)

/-- Addresses from `lo` to before `hi`. -/
def span (lo hi : Nat) : Set Int := Set.Ico (lo : Int) hi

/-- The sources that the builder takes. -/
structure BuilderTakes (x : Source) : Prop where
  version_mem : x.version ∈ Set.Icc (versionMin : Int) versionMax
  payload_pos : 0 < x.payload.length
  payload_le : x.payload.length ≤ maxPayload
  recipe : x.recipeId.length = 4
  inRam : x.destination ⊆ span ramLo ramHi
  entry_mem : x.entryAddr ∈ x.destination
  apart_rlxboot : Disjoint x.destination (span rlxbootLo rlxbootHi)
  apart_stage : Disjoint x.destination (span stageLo (stageLo + (body + x.payload.length)))

/-- What the device wants besides. -/
structure DeviceWants (x : Source) (s : Slot) (selfEnd : Nat) : Prop where
  aligned : 4 ∣ x.loadAddr
  entry_aligned : 4 ∣ x.entryAddr
  apart_self : Disjoint x.destination (span Slots.selfBase selfEnd)
  apart_buffer : Disjoint x.destination
    (span s.bufAddr (s.bufAddr + (body + x.payload.length)))
  apart_loader : Disjoint x.destination (span Slots.ldrBase Slots.ldrEnd)

/-- A container is taken, wherever it lies and whatever follows it. -/
def Taken (ed25519 : SignatureCheck) (e : Env) (blob : List UInt8) : Prop :=
  ∀ (c : ByteMap) (avail : Nat), c.slice 0 blob.length = blob → blob.length ≤ avail →
    (rlxuVerify ed25519 c avail e).reason = .ok

section Sides

variable {c : ByteMap} {x : Source} {s : Slot} {h signature : List UInt8}
  {selfEnd counter : Nat} {flash : ByteMap} {pk : List UInt8}

theorem disjoint_span_iff {a : Nat} {n : Nat} {lo hi : Nat} :
    Disjoint (Set.Ico (a : Int) (a + n)) (span lo hi) ↔
      Disjoint (Set.Ico a (a + n)) (Set.Ico lo hi) := by
  unfold span
  rw [Set.Ico_disjoint_Ico, Set.Ico_disjoint_Ico]
  omega

variable (holds : Holds c x s.flashOff formWhole h signature)

include holds

theorem destination_of_holds :
    x.destination = Set.Ico (loadAddr c : Int) (loadAddr c + payloadLen c) := by
  unfold Source.destination
  rw [holds.loadAddr, holds.payloadLen]

theorem disjoint_iff_of_holds {lo hi : Nat} :
    Disjoint x.destination (span lo hi) ↔ Disjoint (destination c) (Set.Ico lo hi) := by
  rw [destination_of_holds holds, disjoint_span_iff]
  rfl

theorem entry_mem_iff_of_holds :
    x.entryAddr ∈ x.destination ↔ entryAddr c ∈ destination c := by
  rw [destination_of_holds holds, ← holds.entryAddr]
  unfold Container.destination
  rw [Set.mem_Ico, Set.mem_Ico]
  omega

theorem inRam_iff_of_holds (some_ : 0 < payloadLen c) {lo hi : Nat} :
    x.destination ⊆ span lo hi ↔ destination c ⊆ Set.Ico lo hi := by
  rw [destination_of_holds holds]
  unfold span Container.destination
  rw [Set.Ico_subset_Ico_iff (by omega), Set.Ico_subset_Ico_iff (by omega)]
  omega

theorem wellFormed_iff_of_holds (isSlot : IsSlot s) :
    WellFormed c (bodyOff + payloadLen c) ↔
      x.version ∈ Set.Icc (versionMin : Int) versionMax ∧ 0 < x.payload.length ∧
        x.payload.length ≤ maxPayload := by
  have versions : x.version ∈ Set.Icc (versionMin : Int) versionMax ↔
      version c ∈ Set.Icc Container.verMin Container.verMax := by
    rw [← holds.version, Set.mem_Icc, Set.mem_Icc]
    unfold versionMin versionMax Container.verMin Container.verMax
    omega
  rw [versions, ← holds.payloadLen]
  constructor
  · intro wf
    exact ⟨wf.version_mem, wf.payload_pos, wf.payload_le⟩
  · rintro ⟨isVersion, some_, short⟩
    have whole : flashAt c ≠ Container.flashNone := by
      rw [holds.flashAt]
      rcases isSlot with rfl | rfl <;> decide
    exact ⟨holds.magic, holds.format, holds.headerLen, isVersion, some_, short, holds.flags,
      (slice_eq_zeros_iff _).mp holds.reserved, le_rfl, .inr ⟨whole, .inl holds.flashForm⟩⟩

/-- A container no longer than its slot lands in it. -/
theorem landing_of_holds (isSlot : IsSlot s) (some_ : 0 < payloadLen c)
    (fits : body + x.payload.length ≤ s.size) : landingRange c ⊆ licensable := by
  unfold Container.landingRange Container.licensable
  rw [if_pos (show flashForm c = Container.formWhole from holds.flashForm), holds.flashAt,
    holds.payloadLen]
  rw [holds.payloadLen] at some_
  change bodyOff + x.payload.length ≤ s.size at fits
  rw [Set.Ico_subset_Ico_iff (by omega)]
  rcases isSlot with rfl | rfl
  · change bodyOff + x.payload.length ≤ 0x00120000 at fits
    change 0x00008000 ≤ 0x00070000 ∧ 0x00070000 + (bodyOff + x.payload.length) ≤ 0x00400000
    omega
  · change bodyOff + x.payload.length ≤ 0x00120000 at fits
    change 0x00008000 ≤ 0x00190000 ∧ 0x00190000 + (bodyOff + x.payload.length) ≤ 0x00400000
    omega

/-- Steps 1 and 2 of the host, in terms of the source. -/
theorem hostFields_iff_of_holds (isSlot : IsSlot s)
    (fits : body + x.payload.length ≤ s.size) (recipe : x.recipeId.length = 4) :
    HostFields c none ↔ BuilderTakes x := by
  have wellFormed := wellFormed_iff_of_holds holds isSlot
  have apartStage : Disjoint x.destination
      (span stageLo (stageLo + (body + x.payload.length))) ↔
      Disjoint (destination c) (staging c stageLo) := by
    rw [disjoint_iff_of_holds holds, ← holds.payloadLen]
    rfl
  constructor
  · intro fields
    obtain ⟨isVersion, some_, short⟩ := wellFormed.mp fields.wellFormed
    exact ⟨isVersion, some_, short, recipe,
      (inRam_iff_of_holds holds fields.wellFormed.payload_pos).mpr fields.inRam,
      (entry_mem_iff_of_holds holds).mpr fields.entry_mem,
      (disjoint_iff_of_holds holds).mpr fields.apart_rlxboot,
      apartStage.mpr fields.apart_stage⟩
  · intro takes
    have wf := wellFormed.mpr ⟨takes.version_mem, takes.payload_pos, takes.payload_le⟩
    exact ⟨wf, fun _ => landing_of_holds holds isSlot wf.payload_pos fits, nofun,
      (inRam_iff_of_holds holds wf.payload_pos).mp takes.inRam,
      (entry_mem_iff_of_holds holds).mp takes.entry_mem,
      (disjoint_iff_of_holds holds).mp takes.apart_rlxboot,
      apartStage.mp takes.apart_stage⟩

/-- The device's own conditions on a container of this source. -/
theorem loads_iff_of_holds (takes : BuilderTakes x) (some_ : 0 < payloadLen c) :
    Loads c (envOf s selfEnd counter flash pk) ↔ DeviceWants x s selfEnd := by
  have inRam := (inRam_iff_of_holds holds some_).mp takes.inRam
  have entry := (entry_mem_iff_of_holds holds).mp takes.entry_mem
  have apartBuffer : Disjoint x.destination
      (span s.bufAddr (s.bufAddr + (body + x.payload.length))) ↔
      Disjoint (destination c) (staging c s.bufAddr) := by
    rw [disjoint_iff_of_holds holds, ← holds.payloadLen]
    rfl
  constructor
  · intro loads
    refine ⟨?_, ?_, (disjoint_iff_of_holds holds).mpr loads.apart_self,
      apartBuffer.mpr loads.apart_staging, (disjoint_iff_of_holds holds).mpr loads.apart_loader⟩
    · rw [← holds.loadAddr]
      exact Int.natCast_dvd_natCast.mpr loads.aligned
    · rw [← holds.entryAddr]
      exact Int.natCast_dvd_natCast.mpr loads.entry_aligned
  · intro wants
    have aligned := wants.aligned
    have entryAligned := wants.entry_aligned
    rw [← holds.loadAddr] at aligned
    rw [← holds.entryAddr] at entryAligned
    refine ⟨?_, inRam, Int.natCast_dvd_natCast.mp aligned, entry,
      Int.natCast_dvd_natCast.mp entryAligned, (disjoint_iff_of_holds holds).mp wants.apart_self,
      apartBuffer.mp wants.apart_buffer, (disjoint_iff_of_holds holds).mp wants.apart_loader⟩
    unfold Container.destination at inRam
    rw [Set.Ico_subset_Ico_iff (by omega)] at inRam
    have high := inRam.2
    unfold ramHi at high
    omega

theorem staged_of_holds (isSlot : IsSlot s) (fits : body + x.payload.length ≤ s.size) :
    Staged c (envOf s selfEnd counter flash pk) := by
  unfold Container.Staged
  change s.bufAddr + (bodyOff + payloadLen c) < 2 ^ 32 ∧
    s.bufAddr + (bodyOff + payloadLen c) ≤ s.bufAddr + s.size
  rw [holds.payloadLen]
  change bodyOff + x.payload.length ≤ s.size at fits
  rcases isSlot with rfl | rfl
  · change bodyOff + x.payload.length ≤ 0x00120000 at fits
    change 0x81000000 + (bodyOff + x.payload.length) < 2 ^ 32 ∧
      0x81000000 + (bodyOff + x.payload.length) ≤ 0x81000000 + 0x00120000
    omega
  · change bodyOff + x.payload.length ≤ 0x00120000 at fits
    change 0x81200000 + (bodyOff + x.payload.length) < 2 ^ 32 ∧
      0x81200000 + (bodyOff + x.payload.length) ≤ 0x81200000 + 0x00120000
    omega

theorem authentic_of_holds {sig : Rlxsign} {ed25519 : SignatureCheck} {seed : List UInt8}
    (keys : SignsFor sig ed25519) (signed : signature = sig.sign seed h)
    (short : x.payload.length ≤ maxPayload) (current : (counter : Int) ≤ x.version) :
    Authentic ed25519 c (envOf s selfEnd counter flash (sig.secretToPublic seed)) := by
  refine ⟨?_, ?_, ?_⟩
  · change ed25519 (c.slice headerLen sigLen) (c.slice 0 headerLen) (sig.secretToPublic seed) =
      true
    rw [holds.signature, holds.header, signed]
    exact keys.device seed h
  · rw [holds.payloadLen, holds.digest]
    change Sha256b.sha256b (c.slice body x.payload.length) = _
    rw [holds.payload]
    exact Sha256b.sha256b_eq_sha256 (lt_of_le_of_lt short (by decide))
  · rw [← holds.version] at current
    exact Int.ofNat_le.mp current

/-- The device takes a container of a source that the builder takes when it has
what it wants besides. -/
theorem accepted_iff_of_holds {sig : Rlxsign} {ed25519 : SignatureCheck} {seed : List UInt8}
    (keys : SignsFor sig ed25519) (signed : signature = sig.sign seed h) (isSlot : IsSlot s)
    (fits : body + x.payload.length ≤ s.size) (takes : BuilderTakes x)
    (current : (counter : Int) ≤ x.version) :
    Accepted ed25519 c (bodyOff + payloadLen c)
        (envOf s selfEnd counter flash (sig.secretToPublic seed)) ↔
      DeviceWants x s selfEnd := by
  have wf := (wellFormed_iff_of_holds holds isSlot).mpr
    ⟨takes.version_mem, takes.payload_pos, takes.payload_le⟩
  have loads : Loads c (envOf s selfEnd counter flash (sig.secretToPublic seed)) ↔
      DeviceWants x s selfEnd := loads_iff_of_holds holds takes wf.payload_pos
  constructor
  · intro accepted
    exact loads.mp accepted.loads
  · intro wants
    refine ⟨wf, staged_of_holds holds isSlot fits, ⟨fun _ => ?_, fun _ => ?_⟩,
      loads.mpr wants, authentic_of_holds holds keys signed takes.payload_le current⟩
    · exact landing_of_holds holds isSlot wf.payload_pos fits
    · exact ⟨holds.flashAt, holds.flashForm⟩

end Sides

/-! ## What is built -/

section Build

variable {sig : Rlxsign} {ed25519 : SignatureCheck} {x : Source} {s : Slot}
  {seed blob : List UInt8} {selfEnd counter : Nat} {flash : ByteMap}

/-- The header of a source for a slot. -/
def headerFor (x : Source) (s : Slot) : List UInt8 :=
  headerBytes x.version.toNat x.payload.length x.loadAddr.toNat x.entryAddr.toNat 0
    (Sha256b.sha256 x.payload) x.recipeId s.flashOff formWhole

/-- The container of a source for a slot. -/
def containerFor (sig : Rlxsign) (x : Source) (seed : List UInt8) (s : Slot) : List UInt8 :=
  headerFor x s ++ sig.sign seed (headerFor x s) ++ x.payload

/-- The numbers of a source that fit their words. -/
structure Packs (x : Source) : Prop where
  recipe : x.recipeId.length = 4
  version : InWord x.version
  length : InWord x.payload.length
  loadAddr : InWord x.loadAddr
  entryAddr : InWord x.entryAddr

theorem packs_of_takes (takes : BuilderTakes x) : Packs x := by
  have inRam := takes.inRam
  have some_ := takes.payload_pos
  obtain ⟨low, high⟩ := takes.version_mem
  obtain ⟨entryLow, entryHigh⟩ := takes.entry_mem
  have short := takes.payload_le
  unfold Source.destination span at inRam
  rw [Set.Ico_subset_Ico_iff (by omega)] at inRam
  unfold versionMin at low
  unfold versionMax at high
  unfold maxPayload at short
  unfold ramLo ramHi at inRam
  refine ⟨takes.recipe, ⟨?_, ?_⟩, ⟨?_, ?_⟩, ⟨?_, ?_⟩, ⟨?_, ?_⟩⟩ <;> omega

theorem packHeader_slot_iff (isSlot : IsSlot s) {h : List UInt8} :
    packHeader x.version x.payload.length x.loadAddr x.entryAddr 0
        (Sha256b.sha256 x.payload) x.recipeId s.flashOff formWhole = some h ↔
      Packs x ∧ h = headerFor x s := by
  have inAt : InWord s.flashOff := by
    rcases isSlot with rfl | rfl <;> exact ⟨by decide, by decide⟩
  have inForm : InWord formWhole := ⟨by decide, by decide⟩
  have inFlags : InWord 0 := ⟨by decide, by decide⟩
  rw [packHeader_eq_some_iff]
  constructor
  · rintro ⟨⟨-, recipe⟩, ⟨version, length, load, entry, -, -, -⟩, isHeader⟩
    exact ⟨⟨recipe, version, length, load, entry⟩, isHeader⟩
  · rintro ⟨packs, isHeader⟩
    exact ⟨⟨sha256_length _, packs.recipe⟩, ⟨packs.version, packs.length, packs.loadAddr,
      packs.entryAddr, inFlags, inAt, inForm⟩, isHeader⟩

theorem headerFor_length (packs : Packs x) : (headerFor x s).length = headerLen :=
  headerBytes_length _ _ _ _ _ _ _ (sha256_length _) packs.recipe

theorem containerFor_length (seed : List UInt8) (keys : SignsFor sig ed25519) (packs : Packs x) :
    (containerFor sig x seed s).length = body + x.payload.length := by
  unfold containerFor
  rw [List.length_append, List.length_append, headerFor_length packs, keys.length]
  rfl

theorem holds_containerFor (seed : List UInt8) (keys : SignsFor sig ed25519)
    (isSlot : IsSlot s) (packs : Packs x) :
    Holds (ByteMap.ofList (containerFor sig x seed s) 0) x s.flashOff formWhole
      (headerFor x s) (sig.sign seed (headerFor x s)) := by
  have inAt : InWord s.flashOff := by
    rcases isSlot with rfl | rfl <;> exact ⟨by decide, by decide⟩
  exact holds_headerBytes packs.recipe packs.version packs.length packs.loadAddr
    packs.entryAddr inAt ⟨by decide, by decide⟩ (keys.length _ _)

/-- The trusted rows pass on what was just signed. -/
theorem trustRows_containerFor (keys : SignsFor sig ed25519) (isSlot : IsSlot s)
    (packs : Packs x) :
    ∀ row ∈ trustRows sig.verify (containerFor sig x seed s) (sig.secretToPublic seed) 0,
      row.ok = true := by
  have holds := holds_containerFor seed keys isSlot packs
  have long := headerFor_length (s := s) packs
  have header : (containerFor sig x seed s).take headerLen = headerFor x s := by
    unfold containerFor
    rw [List.append_assoc]
    exact List.take_left' long
  have signature : ((containerFor sig x seed s).drop headerLen).take sigLen =
      sig.sign seed (headerFor x s) := by
    unfold containerFor
    rw [List.append_assoc, List.drop_left' long]
    exact List.take_left' (keys.length _ _)
  have payload : (containerFor sig x seed s).drop body = x.payload := by
    unfold containerFor
    refine List.drop_left' ?_
    rw [List.length_append, long, keys.length]
    rfl
  have fields := unpackHeader_slice (ByteMap.ofList (containerFor sig x seed s) 0)
  rw [holds.header] at fields
  unfold trustRows
  rw [header, signature, payload]
  dsimp only
  rw [fields]
  dsimp only
  rw [holds.payloadLen, holds.digest, List.take_length, keys.host]
  simp

/-- `build` makes the container of every source that it takes, and of no
other. -/
theorem build_eq_some_iff (seed : List UInt8) (keys : SignsFor sig ed25519) (isSlot : IsSlot s)
    (fits : body + x.payload.length ≤ s.size) :
    build sig x seed s.flashOff formWhole 0 = some blob ↔
      BuilderTakes x ∧ blob = containerFor sig x seed s := by
  have checked (packs : Packs x) :
      ((checks sig.verify (containerFor sig x seed s) (sig.secretToPublic seed) 0 none).any
        fun row => !row.ok) = false ↔ BuilderTakes x := by
    have holds := holds_containerFor seed keys isSlot packs
    have length := containerFor_length (s := s) seed keys packs
    have whole : (ByteMap.ofList (containerFor sig x seed s) 0).slice 0
        (bodyOff + payloadLen (ByteMap.ofList (containerFor sig x seed s) 0)) =
          containerFor sig x seed s := by
      rw [holds.payloadLen]
      exact slice_of_prefix [] List.prefix_rfl rfl length
    rw [checks_pass_iff (by rw [length]; exact Nat.le_add_right _ _),
      and_iff_left (trustRows_containerFor keys isSlot packs)]
    have rows : _ ↔ HostFields _ none :=
      fieldRows_ok_iff (c := ByteMap.ofList (containerFor sig x seed s) 0)
    rw [whole] at rows
    rw [rows]
    exact hostFields_iff_of_holds holds isSlot fits packs.recipe
  have plain : stockLoaderVerdict (containerFor sig x seed s) = false := by
    have first : (containerFor sig x seed s).take 4 = Tlv.putBe32 magic := rfl
    rw [stockLoaderVerdict, first]
    decide
  unfold build
  simp only [Option.bind_eq_bind, Option.bind_eq_some_iff, packHeader_slot_iff isSlot]
  constructor
  · rintro ⟨h, ⟨packs, rfl⟩, made⟩
    change (if _ then none else if stockLoaderVerdict (containerFor sig x seed s) = true then none
      else some (containerFor sig x seed s)) = some blob at made
    split at made
    · cases made
    next pass =>
    rw [Bool.not_eq_true] at pass
    rw [if_neg (by rw [plain]; decide)] at made
    cases made
    exact ⟨(checked packs).mp pass, rfl⟩
  · rintro ⟨takes, rfl⟩
    have packs := packs_of_takes takes
    refine ⟨headerFor x s, ⟨packs, rfl⟩, ?_⟩
    change (if _ then none else if stockLoaderVerdict (containerFor sig x seed s) = true then none
      else some (containerFor sig x seed s)) = some (containerFor sig x seed s)
    have pass := (checked packs).mpr takes
    rw [if_neg, if_neg (by rw [plain]; decide)]
    rw [Bool.not_eq_true]
    exact pass

theorem agreeOn_of_slice {c : ByteMap} (starts : c.slice 0 blob.length = blob) :
    ByteMap.AgreeOn (ByteMap.ofList blob 0) c 0 blob.length := by
  have agree := ofList_slice_agreeOn c blob.length
  rw [starts] at agree
  exact agree

/-- The device takes what was built when it has what it wants besides. -/
theorem taken_containerFor_iff (keys : SignsFor sig ed25519) (isSlot : IsSlot s)
    (fits : body + x.payload.length ≤ s.size) (takes : BuilderTakes x)
    (current : (counter : Int) ≤ x.version) :
    Taken ed25519 (envOf s selfEnd counter flash (sig.secretToPublic seed))
        (containerFor sig x seed s) ↔ DeviceWants x s selfEnd := by
  have packs := packs_of_takes takes
  have holds := holds_containerFor seed keys isSlot packs
  have length := containerFor_length (s := s) seed keys packs
  have isLen : bodyOff + payloadLen (ByteMap.ofList (containerFor sig x seed s) 0) =
      (containerFor sig x seed s).length := by
    rw [holds.payloadLen, length]
    rfl
  have accepted : Accepted ed25519 _ _ (envOf s selfEnd counter flash _) ↔
      DeviceWants x s selfEnd :=
    accepted_iff_of_holds holds keys rfl isSlot fits takes current
  rw [← accepted]
  constructor
  · intro taken
    have starts : (ByteMap.ofList (containerFor sig x seed s) 0).slice 0
        (containerFor sig x seed s).length = containerFor sig x seed s :=
      slice_of_prefix [] List.prefix_rfl rfl rfl
    rw [isLen]
    exact Container.accepted_of_reason_ok (taken _ _ starts le_rfl)
  · intro accepts c avail starts room
    rw [isLen] at accepts
    exact Container.reason_ok_of_accepted (accepts.congr
      (isLen ▸ agreeOn_of_slice starts) (isLen ▸ room))

end Build

/-! ## Agreement -/

/-- What `build` returns for a source and a slot is taken by the device. -/
def NeverRefused (sig : Rlxsign) (ed25519 : SignatureCheck) (x : Source) (seed : List UInt8)
    (s : Slot) (e : Env) : Prop :=
  ∀ blob, build sig x seed s.flashOff formWhole 0 = some blob → Taken ed25519 e blob

/-- What the device checks of a container's fields. -/
structure DeviceFields (c : ByteMap) (avail : Nat) (e : Env) : Prop where
  wellFormed : WellFormed c avail
  staged : Staged c e
  lands : Lands c e
  loads : Loads c e

/-- The destination is clear of what the host alone keeps clear. -/
structure HostClear (c : ByteMap) : Prop where
  apart_rlxboot : Disjoint (destination c) (Set.Ico rlxbootLo rlxbootHi)
  apart_stage : Disjoint (destination c) (staging c stageLo)

/-- A write that the host is told of, when a slot's container is checked. -/
def SlotWrite (s : Slot) (write : Option (Nat × Option Nat)) : Prop :=
  write = none ∨ write = some (s.flashOff, some formWhole)

/-- The host's refusal of a field of a container is the device's refusal too. -/
def RefusalShared (sig : Rlxsign) (ed25519 : SignatureCheck) (c : ByteMap) (avail : Nat)
    (e : Env) (counter : Nat) (write : Option (Nat × Option Nat)) : Prop :=
  RefusesField sig.verify (c.slice 0 (bodyOff + payloadLen c)) e.pk counter write →
    (rlxuVerify ed25519 c avail e).reason ≠ .ok

theorem hostFields_iff_of_device {c : ByteMap} {avail selfEnd counter : Nat} {flash : ByteMap}
    {pk : List UInt8} {s : Slot} {write : Option (Nat × Option Nat)} (isSlot : IsSlot s)
    (isWrite : SlotWrite s write)
    (fields : DeviceFields c avail (envOf s selfEnd counter flash pk)) :
    HostFields c write ↔ HostClear c := by
  obtain ⟨wf, -, lands, loads⟩ := fields
  constructor
  · intro host
    exact ⟨host.apart_rlxboot, host.apart_stage⟩
  · intro clear
    refine ⟨⟨wf.magic, wf.format, wf.headerLen, wf.version_mem, wf.payload_pos, wf.payload_le,
      wf.flags, wf.reserved, le_rfl, wf.form⟩, lands.licensed, ?_, loads.inRam,
      loads.entry_mem, clear.apart_rlxboot, clear.apart_stage⟩
    intro w member
    have declared : s.flashOff ≠ Container.flashNone := by
      rcases isSlot with rfl | rfl <;> decide
    rcases isWrite with rfl | rfl
    · cases member
    · cases member
      exact lands.declared declared

/-- Where the two agree: the builder's containers are taken exactly when the
device has what it wants besides, and its refusals are shared exactly when the
destination is clear of the windows that the host alone keeps. -/
theorem builder_agrees_iff (sig : Rlxsign) (ed25519 : SignatureCheck)
    (keys : SignsFor sig ed25519) :
    (∀ s, IsSlot s → ∀ (x : Source) (seed : List UInt8) (selfEnd counter : Nat)
        (flash : ByteMap), body + x.payload.length ≤ s.size → (counter : Int) ≤ x.version →
      (NeverRefused sig ed25519 x seed s
          (envOf s selfEnd counter flash (sig.secretToPublic seed)) ↔
        (BuilderTakes x → DeviceWants x s selfEnd))) ∧
    (∀ s, IsSlot s → ∀ (c : ByteMap) (avail selfEnd counter hostCounter : Nat)
        (flash : ByteMap) (pk : List UInt8) (write : Option (Nat × Option Nat)),
      SlotWrite s write → Authentic ed25519 c (envOf s selfEnd counter flash pk) →
      (RefusalShared sig ed25519 c avail (envOf s selfEnd counter flash pk) hostCounter write ↔
        (DeviceFields c avail (envOf s selfEnd counter flash pk) → HostClear c))) := by
  constructor
  · intro s isSlot x seed selfEnd counter flash fits current
    unfold NeverRefused
    constructor
    · intro never takes
      exact (taken_containerFor_iff keys isSlot fits takes current).mp
        (never _ ((build_eq_some_iff _ keys isSlot fits).mpr ⟨takes, rfl⟩))
    · intro wants blob built
      obtain ⟨takes, rfl⟩ := (build_eq_some_iff _ keys isSlot fits).mp built
      exact (taken_containerFor_iff keys isSlot fits takes current).mpr (wants takes)
  · intro s isSlot c avail selfEnd counter hostCounter flash pk write isWrite authentic
    have long : body ≤ (c.slice 0 (bodyOff + payloadLen c)).length := by
      rw [ByteMap.slice_length]
      exact Nat.le_add_right bodyOff _
    unfold RefusalShared
    rw [refusesField_iff long, fieldRows_ok_iff]
    constructor
    · intro shared fields
      have accepted : Accepted ed25519 c avail (envOf s selfEnd counter flash pk) :=
        ⟨fields.wellFormed, fields.staged, fields.lands, fields.loads, authentic⟩
      rw [← hostFields_iff_of_device isSlot isWrite fields]
      exact not_not.mp fun refused =>
        shared refused (Container.reason_ok_of_accepted accepted)
    · intro clear refused ok
      have accepted := Container.accepted_of_reason_ok ok
      have fields : DeviceFields c avail (envOf s selfEnd counter flash pk) :=
        ⟨accepted.wellFormed, accepted.staged, accepted.lands, accepted.loads⟩
      exact refused ((hostFields_iff_of_device isSlot isWrite fields).mpr (clear fields))

/-! ## A container of each kind -/

/-- Keys whose signatures are zeros. -/
def zeroRlxsign : Rlxsign where
  secretToPublic := id
  sign _ _ := List.replicate sigLen 0
  verify _ _ signature := signature == List.replicate sigLen 0

/-- Their check. -/
def zeroCheck : SignatureCheck := fun signature _ _ => signature == List.replicate sigLen 0

theorem zero_signsFor : SignsFor zeroRlxsign zeroCheck where
  length _ _ := List.length_replicate
  host _ _ := beq_self_eq_true _
  device _ _ := beq_self_eq_true _

/-- One word, loaded to an address and entered there. -/
def oneWord (load : Nat) : Source where
  payload := [0, 0, 0, 0]
  version := 1
  loadAddr := load
  entryAddr := load
  recipeId := [0, 0, 0, 0]

/-- The first slot, under an erased counter. -/
def envA : Env := envOf slotA 0x81810000 0 (fun _ => 0xFF) []

theorem oneWord_builderTakes (load : Nat) (low : 0x80500000 ≤ load)
    (high : load ≤ 0x80600000) : BuilderTakes (oneWord load) := by
  have isDestination : (oneWord load).destination = Set.Ico (load : Int) (load + 4) := rfl
  have version : (oneWord load).version = 1 := rfl
  have length : (oneWord load).payload.length = 4 := rfl
  refine ⟨by rw [version]; decide, by rw [length]; decide, by rw [length]; decide, rfl,
    ?_, ?_, ?_, ?_⟩
  · rw [isDestination]
    unfold span ramLo ramHi
    exact Set.Ico_subset_Ico (by omega) (by omega)
  · rw [isDestination, Set.mem_Ico]
    change (load : Int) ≤ load ∧ (load : Int) < load + 4
    omega
  · rw [isDestination]
    unfold span rlxbootLo rlxbootHi
    rw [Set.Ico_disjoint_Ico]
    omega
  · rw [isDestination]
    unfold span stageLo
    rw [Set.Ico_disjoint_Ico]
    change _ ≤ max _ ((0x81000000 : Nat) : Int)
    omega

/-- An unaligned word is built, and the device refuses it. -/
theorem unaligned_neverRefused_fails :
    body + (oneWord 0x80500002).payload.length ≤ slotA.size ∧
      ((0 : Nat) : Int) ≤ (oneWord 0x80500002).version ∧
      ¬ NeverRefused zeroRlxsign zeroCheck (oneWord 0x80500002) [] slotA envA := by
  have fits : body + (oneWord 0x80500002).payload.length ≤ slotA.size := by decide
  have current : ((0 : Nat) : Int) ≤ (oneWord 0x80500002).version := by decide
  have takes := oneWord_builderTakes 0x80500002 (by decide) (by decide)
  refine ⟨fits, current, fun never => ?_⟩
  have built := (build_eq_some_iff [] zero_signsFor (.inl rfl) fits).mpr ⟨takes, rfl⟩
  have wants := (taken_containerFor_iff zero_signsFor (.inl rfl) fits takes current).mp
    (never _ built)
  exact absurd wants.aligned (by decide)

/-- An aligned one is taken. -/
theorem aligned_neverRefused :
    NeverRefused zeroRlxsign zeroCheck (oneWord 0x80500000) [] slotA envA := by
  refine ((builder_agrees_iff zeroRlxsign zeroCheck zero_signsFor).1 slotA (.inl rfl)
    (oneWord 0x80500000) [] 0x81810000 0 (fun _ => 0xFF) (by decide) (by decide)).mpr
    fun _ => ?_
  refine ⟨by decide, by decide, ?_, ?_, ?_⟩ <;>
    exact Set.Ico_disjoint_Ico.mpr (by decide)

end RlxFw.Mkfw2
