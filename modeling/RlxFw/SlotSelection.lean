import RlxFw.Slots

/-!
# Verified bytes are booted bytes

A slot's verdict is a verdict on the flash slot itself, whatever RAM held
before.  The two buffers are apart and the winner's payload lands clear of the
winner's own buffer, so what is copied to the load address is what was hashed.
-/

namespace RlxFw.Slots

open Container

/-- A slot's bytes as they stand in flash. -/
def image (s : Slot) (window : ByteMap) : ByteMap := fun i => window (s.src + i)

/-- `planned` of `rlxb_slot_run`: how many bytes the two copies bring in. -/
def planned (s : Slot) (c : ByteMap) : Nat :=
  4 * min ((wanted s bodyOff c + 3) / 4) (s.size / 4)

theorem copyWordLoop_eq_blit (window : ByteMap) (s : Slot) (count w : Nat)
    (ram : ByteMap) :
    copyWordLoop window s count w ram =
      ram.blit (s.buf + 4 * w) (4 * count)
        (fun i => image s window (4 * w + i)) := by
  induction count generalizing w ram with
  | zero => simp [copyWordLoop]
  | succ count ih =>
      have wordEq : copyWord window s w ram =
          ram.blit (s.buf + 4 * w) 4
            (fun i => image s window (4 * w + i)) := by
        unfold copyWord image
        simp only [Nat.add_assoc]
      rw [copyWordLoop, ih, wordEq,
        show 4 * (count + 1) = 4 + 4 * count by omega,
        ← ByteMap.blit_append]
      congr 1
      funext i
      congr 1
      omega

theorem bufferOf_blit_agreeOn (s : Slot) (ram c : ByteMap) (length : Nat) :
    ByteMap.AgreeOn c (bufferOf s (ram.blit s.buf length c)) 0 length := by
  intro offset _ inside
  unfold bufferOf
  rw [ByteMap.blit_inside (by omega) (by omega)]
  congr 1
  omega

theorem wanted_congr {s : Slot} {copied : Nat} {c d : ByteMap}
    (agree : ByteMap.AgreeOn c d 0 bodyOff) :
    wanted s copied d = wanted s copied c := by
  unfold wanted
  rw [be32_congr agree (by omega) (by decide),
    be32_congr agree (by omega) (by decide)]

theorem wanted_ge (s : Slot) (copied : Nat) (c : ByteMap) :
    bodyOff ≤ wanted s copied c := by
  unfold wanted
  split <;> omega

/-- `copy_words` brings in the slot's bytes from `start` up to its cap. -/
theorem copyWords_eq_blit (window : ByteMap) (s : Slot) (start stop last : Nat)
    (ram : ByteMap) (lastEq : min ((stop + 3) / 4) (s.size / 4) = last)
    (aligned : start % 4 = 0) (ahead : start ≤ 4 * last) :
    copyWords window s start stop ram =
      (ram.blit (s.buf + start) (4 * last - start)
        (fun i => image s window (start + i)), 4 * last) := by
  have startEq : 4 * (start / 4) = start := by omega
  have countEq : 4 * (last - start / 4) = 4 * last - start := by omega
  have lastMax : max (start / 4) last = last := by omega
  simp only [copyWords, copyWordLoop_eq_blit, lastEq, startEq, countEq,
    lastMax]

/-- `rlxb_slot_run` copies the planned bytes of the slot and verifies the
copy. -/
theorem slotRun_eq (ed25519 : SignatureCheck) (window : ByteMap) (s : Slot)
    (e : Env) (ram : ByteMap) (holdsHeader : bodyOff ≤ s.size) :
    let copy :=
      ram.blit s.buf (planned s (image s window)) (image s window)
    slotRun ed25519 window s e ram =
      (copy, { copied := planned s (image s window)
               r := rlxuVerify ed25519 (bufferOf s copy)
                 (planned s (image s window)) (slotEnv s e) }) := by
  have bound : bodyOff = 160 := rfl
  have headerCopy : copyWords window s 0 bodyOff ram =
      (ram.blit s.buf bodyOff (image s window), bodyOff) := by
    rw [copyWords_eq_blit window s 0 bodyOff 40 ram (by omega) rfl
      (by omega)]
    simp [bound]
  have wantedEq : wanted s bodyOff
      (bufferOf s (ram.blit s.buf bodyOff (image s window))) =
      wanted s bodyOff (image s window) :=
    wanted_congr (bufferOf_blit_agreeOn _ _ _ _)
  have atLeast := wanted_ge s bodyOff (image s window)
  have ahead : bodyOff ≤ planned s (image s window) := by
    unfold planned
    omega
  have bodyCopy : copyWords window s bodyOff
      (wanted s bodyOff (image s window))
      (ram.blit s.buf bodyOff (image s window)) =
      (ram.blit s.buf (planned s (image s window)) (image s window),
        planned s (image s window)) := by
    rw [copyWords_eq_blit window s bodyOff _ _ _ rfl rfl ahead]
    change ((ram.blit s.buf bodyOff (image s window)).blit (s.buf + bodyOff)
      (planned s (image s window) - bodyOff) _, planned s (image s window)) = _
    rw [ByteMap.blit_append, Nat.add_sub_cancel' ahead]
  simp only [slotRun, headerCopy, wantedEq, bodyCopy]

/-- A container that is whole in its slot is whole in the copy. -/
theorem body_le_planned {s : Slot} {c : ByteMap} (wordSized : 4 ∣ s.size)
    (magic : be32 c 0 = magicWord)
    (inSlot : bodyOff + payloadLen c ≤ s.size) :
    bodyOff + payloadLen c ≤ planned s c := by
  have wantedEq : wanted s bodyOff c = bodyOff + payloadLen c := by
    unfold wanted
    exact if_pos ⟨le_rfl, magic, by
      change payloadLen c ≤ s.size - bodyOff
      omega⟩
  unfold planned
  omega

theorem planned_le_size (s : Slot) (c : ByteMap) : planned s c ≤ s.size := by
  unfold planned
  omega

/-- A slot verifies exactly when the bytes in flash are an acceptable
container for it. -/
theorem slotRun_ok_iff (ed25519 : SignatureCheck) (window : ByteMap)
    (s : Slot) (e : Env) (ram : ByteMap) (holdsHeader : bodyOff ≤ s.size)
    (wordSized : 4 ∣ s.size) :
    (slotRun ed25519 window s e ram).2.r.reason = .ok ↔
      Accepted ed25519 (image s window) s.size (slotEnv s e) := by
  rw [slotRun_eq ed25519 window s e ram holdsHeader]
  have agree := bufferOf_blit_agreeOn s ram (image s window)
    (planned s (image s window))
  constructor
  · intro ok
    have accepted := accepted_of_reason_ok ok
    have present := accepted.wellFormed.present
    exact accepted.congr (agree.symm.mono le_rfl (by omega)) (by
      have small := planned_le_size s (image s window)
      omega)
  · intro accepted
    have inCopy := body_le_planned wordSized accepted.wellFormed.magic
      accepted.wellFormed.present
    exact reason_ok_of_accepted
      (accepted.congr (agree.mono le_rfl (by omega)) inCopy)

/-- What a verified slot's record says of the bytes in flash. -/
theorem slotRun_record_of_ok {ed25519 : SignatureCheck} {window : ByteMap}
    {s : Slot} {e : Env} {ram : ByteMap} (holdsHeader : bodyOff ≤ s.size)
    (wordSized : 4 ∣ s.size)
    (ok : (slotRun ed25519 window s e ram).2.r.reason = .ok) :
    (slotRun ed25519 window s e ram).2.r.version = version (image s window) ∧
      (slotRun ed25519 window s e ram).2.r.payloadLen =
        payloadLen (image s window) ∧
      (slotRun ed25519 window s e ram).2.r.loadAddr =
        loadAddr (image s window) := by
  have accepted :=
    (slotRun_ok_iff ed25519 window s e ram holdsHeader wordSized).mp ok
  have inCopy := body_le_planned wordSized accepted.wellFormed.magic
    accepted.wellFormed.present
  have agree := bufferOf_blit_agreeOn s ram (image s window)
    (planned s (image s window))
  rw [slotRun_eq ed25519 window s e ram holdsHeader] at ok ⊢
  simp only at ok ⊢
  rw [rlxuVerify_eq_of_ok ok]
  obtain ⟨versionEq, lengthEq, loadEq, -⟩ :=
    fields_congr (agree.mono le_rfl (by omega))
  exact ⟨versionEq, lengthEq, loadEq⟩

/-! ## Choosing -/

theorem choose_eq_none_iff (a b : Verdict) :
    choose a b = none ↔ a.r.reason ≠ .ok ∧ b.r.reason ≠ .ok := by
  unfold choose
  split_ifs <;> simp_all

/-- The first of two slots wins when it verified and no verified second has a
higher version. -/
theorem choose_eq_first_iff (a b : Verdict) :
    choose a b = some .first ↔
      a.r.reason = .ok ∧
        (b.r.reason = .ok → b.r.version ≤ a.r.version) := by
  unfold choose
  split_ifs <;> simp_all

theorem choose_eq_second_iff (a b : Verdict) :
    choose a b = some .second ↔
      b.r.reason = .ok ∧
        (a.r.reason = .ok → a.r.version < b.r.version) := by
  unfold choose
  split_ifs <;> simp_all

/-- `rlxb_choose` reads a verdict's reason, and its version where it
verified. -/
theorem choose_congr {a b a' b' : Verdict}
    (aReason : a.r.reason = .ok ↔ a'.r.reason = .ok)
    (bReason : b.r.reason = .ok ↔ b'.r.reason = .ok)
    (aVersion : a.r.reason = .ok → a.r.version = a'.r.version)
    (bVersion : b.r.reason = .ok → b.r.version = b'.r.version) :
    choose a b = choose a' b' := by
  unfold choose
  by_cases aOk : a.r.reason = .ok <;> by_cases bOk : b.r.reason = .ok <;>
    simp_all

/-- The verdict on a slot's bytes where they stand in flash. -/
def imageVerdict (ed25519 : SignatureCheck) (window : ByteMap) (s : Slot)
    (e : Env) : Verdict where
  copied := s.size
  r := rlxuVerify ed25519 (image s window) s.size (slotEnv s e)

theorem imageVerdict_version_of_ok {ed25519 : SignatureCheck}
    {window : ByteMap} {s : Slot} {e : Env}
    (ok : (imageVerdict ed25519 window s e).r.reason = .ok) :
    (imageVerdict ed25519 window s e).r.version = version (image s window) := by
  unfold imageVerdict at ok ⊢
  rw [rlxuVerify_eq_of_ok ok]
  rfl

section Image

variable (ed25519 : SignatureCheck) (window : ByteMap) (s : Slot) (e : Env)
  (ram : ByteMap) (holdsHeader : bodyOff ≤ s.size) (wordSized : 4 ∣ s.size)

include holdsHeader wordSized

theorem slotRun_reason_ok_iff_image :
    (slotRun ed25519 window s e ram).2.r.reason = .ok ↔
      (imageVerdict ed25519 window s e).r.reason = .ok := by
  rw [slotRun_ok_iff ed25519 window s e ram holdsHeader wordSized]
  exact ⟨reason_ok_of_accepted, accepted_of_reason_ok⟩

theorem slotRun_version_eq_image
    (ok : (slotRun ed25519 window s e ram).2.r.reason = .ok) :
    (slotRun ed25519 window s e ram).2.r.version =
      (imageVerdict ed25519 window s e).r.version := by
  have imageOk := (slotRun_reason_ok_iff_image ed25519 window s e ram
    holdsHeader wordSized).mp ok
  rw [(slotRun_record_of_ok holdsHeader wordSized ok).1,
    imageVerdict_version_of_ok imageOk]

end Image

/-- Selection is a function of the flash, whatever RAM held before. -/
theorem select_winner_eq (ed25519 : SignatureCheck) (window : ByteMap)
    (a b : Slot) (e : Env) (ram : ByteMap)
    (aHolds : bodyOff ≤ a.size) (aWords : 4 ∣ a.size)
    (bHolds : bodyOff ≤ b.size) (bWords : 4 ∣ b.size) :
    (select ed25519 window a b e ram).winner =
      choose (imageVerdict ed25519 window a e)
        (imageVerdict ed25519 window b e) :=
  choose_congr
    (slotRun_reason_ok_iff_image ed25519 window a e ram aHolds aWords)
    (slotRun_reason_ok_iff_image ed25519 window b e _ bHolds bWords)
    (slotRun_version_eq_image ed25519 window a e ram aHolds aWords)
    (slotRun_version_eq_image ed25519 window b e _ bHolds bWords)

/-! ## Booting -/

/-- Over ranges that do not meet, `rlx_memcpy` copies the source as it was. -/
theorem memcpy_eq_blit (n d s : Nat) (ram : ByteMap)
    (apart : d + n ≤ s ∨ s + n ≤ d) :
    memcpy n d s ram = ram.blit d n (fun i => ram (s + i)) := by
  induction n generalizing d s ram with
  | zero => simp [memcpy]
  | succ n ih =>
      rw [memcpy, ih (d + 1) (s + 1) _ (by omega)]
      funext offset
      by_cases atStart : offset = d
      · subst atStart
        rw [ByteMap.blit_outside (by omega),
          ByteMap.blit_inside (by omega) (by omega), Function.update_self]
        congr 1
        omega
      · by_cases inside : d < offset ∧ offset < d + (n + 1)
        · rw [ByteMap.blit_inside (by omega) (by omega),
            ByteMap.blit_inside (by omega) (by omega),
            Function.update_of_ne (by omega)]
          congr 1
          omega
        · rw [ByteMap.blit_outside (by omega),
            ByteMap.blit_outside (by omega), Function.update_of_ne atStart]

/-- A slot's RAM buffer. -/
def bufferRange (s : Slot) : Set Nat := Set.Ico s.buf (s.buf + s.size)

/-- What holds of a pick that is booted: it verified, no verified slot is
newer and the first slot wins a tie, and the payload that runs is the payload
that was hashed. -/
structure BootsVerified (e : Env) (a b : Slot) (s : Selection) (p : Pick) :
    Prop where
  verified : (s.verdict p).r.reason = .ok
  newest : ∀ q, (s.verdict q).r.reason = .ok →
    (s.verdict q).r.version ≤ (s.verdict p).r.version
  firstOnTie : p = .second → s.a.r.reason = .ok →
    s.a.r.version < s.b.r.version
  digest :
    Sha256b.sha256b ((s.seen a b p).slice bodyOff (s.verdict p).r.payloadLen) =
      (s.seen a b p).slice 28 32
  booted : ∃ boot, bootSelected a b s = some boot ∧
    boot.entry = (s.verdict p).r.entryAddr ∧
    boot.ram.slice (s.verdict p).r.loadAddr (s.verdict p).r.payloadLen =
      (s.seen a b p).slice bodyOff (s.verdict p).r.payloadLen
  apart_self : Disjoint (destination (s.seen a b p))
    (Set.Ico e.selfBase e.selfEnd)
  apart_loader : Disjoint (destination (s.seen a b p))
    (Set.Ico e.ldrBase e.ldrEnd)
  apart_container : Disjoint (destination (s.seen a b p))
    (staging (s.seen a b p) (pickSlot a b p).buf)

section Boot

variable {ed25519 : SignatureCheck} {window : ByteMap} {a b : Slot} {e : Env}
  {ram : ByteMap} {s : Selection}

/-- What `rlxb_select` accepted is still in the winner's buffer when the boot
copies from it. -/
theorem seen_agreeOn_ramB (run : s = select ed25519 window a b e ram)
    (holdsHeader : bodyOff ≤ b.size)
    (buffersApart : a.buf + a.size ≤ b.buf ∨ b.buf + b.size ≤ a.buf)
    (p : Pick) :
    ByteMap.AgreeOn (s.seen a b p) (bufferOf (pickSlot a b p) s.ramB) 0
      (pickSlot a b p).size := by
  cases p with
  | second =>
      intro offset _ _
      rfl
  | first =>
      intro offset _ inside
      have small := planned_le_size b (image b window)
      change offset < 0 + a.size at inside
      have ramBEq : s.ramB =
          s.ramA.blit b.buf (planned b (image b window)) (image b window) := by
        rw [run]
        unfold select
        simp only [slotRun_eq ed25519 window b e _ holdsHeader]
      simp only [Selection.seen, pickSlot, bufferOf, ramBEq]
      exact (ByteMap.blit_outside (by omega)).symm

/-- A pick verifies exactly when its bytes in flash do. -/
theorem verdict_ok_iff_image (run : s = select ed25519 window a b e ram)
    (aHolds : bodyOff ≤ a.size) (aWords : 4 ∣ a.size)
    (bHolds : bodyOff ≤ b.size) (bWords : 4 ∣ b.size) (p : Pick) :
    (s.verdict p).r.reason = .ok ↔
      (imageVerdict ed25519 window (pickSlot a b p) e).r.reason = .ok := by
  subst run
  cases p with
  | first =>
      exact slotRun_reason_ok_iff_image ed25519 window a e ram aHolds aWords
  | second =>
      exact slotRun_reason_ok_iff_image ed25519 window b e _ bHolds bWords

/-- Every verdict of a selection is `rlxu_verify` on what it was given. -/
theorem verdict_eq_rlxuVerify (run : s = select ed25519 window a b e ram)
    (aHolds : bodyOff ≤ a.size) (bHolds : bodyOff ≤ b.size) (p : Pick) :
    (s.verdict p).r = rlxuVerify ed25519 (s.seen a b p)
      (planned (pickSlot a b p) (image (pickSlot a b p) window))
      (slotEnv (pickSlot a b p) e) := by
  subst run
  cases p with
  | first =>
      simp only [select, Selection.verdict, Selection.seen, pickSlot]
      rw [slotRun_eq ed25519 window a e ram aHolds]
  | second =>
      simp only [select, Selection.verdict, Selection.seen, pickSlot]
      rw [slotRun_eq ed25519 window b e _ bHolds]

/-- A verified record is the header of an accepted container. -/
theorem accepted_of_verdict {r : Rlxu} {c : ByteMap} {avail : Nat} {e : Env}
    (verdict : r = rlxuVerify ed25519 c avail e) (verified : r.reason = .ok) :
    Accepted ed25519 c avail e ∧ r.payloadLen = payloadLen c ∧
      r.loadAddr = loadAddr c := by
  subst verdict
  refine ⟨accepted_of_reason_ok verified, ?_⟩
  rw [rlxuVerify_eq_of_ok verified]
  exact ⟨rfl, rfl⟩

/-- A verified pick is loaded where the slot in flash says. -/
theorem destination_seen_eq (run : s = select ed25519 window a b e ram)
    (aHolds : bodyOff ≤ a.size) (aWords : 4 ∣ a.size)
    (bHolds : bodyOff ≤ b.size) (bWords : 4 ∣ b.size) {p : Pick}
    (verified : (s.verdict p).r.reason = .ok) :
    destination (s.seen a b p) =
      destination (image (pickSlot a b p) window) := by
  obtain ⟨-, seenLength, seenLoad⟩ := accepted_of_verdict
    (verdict_eq_rlxuVerify run aHolds bHolds p) verified
  have record : (s.verdict p).r.payloadLen =
        payloadLen (image (pickSlot a b p) window) ∧
      (s.verdict p).r.loadAddr =
        loadAddr (image (pickSlot a b p) window) := by
    subst run
    cases p with
    | first => exact (slotRun_record_of_ok aHolds aWords verified).2
    | second => exact (slotRun_record_of_ok bHolds bWords verified).2
  unfold destination
  rw [← seenLength, ← seenLoad, record.1, record.2]

theorem start_mem_staging (c : ByteMap) (base : Nat) :
    base ∈ staging c base := by
  unfold staging
  rw [Set.mem_Ico]
  unfold bodyOff hdrLen
  omega

/-- Copying an accepted container's payload out of its own buffer leaves at
the load address the bytes that were hashed. -/
theorem memcpy_payload_slice {c : ByteMap} {avail : Nat} {t : Slot}
    (accepted : Accepted ed25519 c avail (slotEnv t e))
    (bufferEq : t.bufAddr = t.buf)
    (stillThere : ByteMap.AgreeOn c (bufferOf t ram) 0 t.size) :
    (memcpy (payloadLen c) (loadAddr c) (bootBody t) ram).slice (loadAddr c)
        (payloadLen c) =
      c.slice bodyOff (payloadLen c) := by
  have positive := accepted.wellFormed.payload_pos
  have inBuffer := accepted.staged.2
  have apart := accepted.loads.apart_staging
  change t.bufAddr + _ ≤ t.bufAddr + t.size at inBuffer
  change Disjoint _ (staging _ t.bufAddr) at apart
  unfold destination staging at apart
  rw [Set.Ico_disjoint_Ico, bufferEq] at apart
  have bodyApart : loadAddr c + payloadLen c ≤ bootBody t ∨
      bootBody t + payloadLen c ≤ loadAddr c := by
    unfold bootBody
    omega
  rw [memcpy_eq_blit _ _ _ _ bodyApart, ByteMap.slice_blit_self,
    ByteMap.slice_eq_slice_iff]
  intro index inside
  have same := stillThere (bodyOff + index) (by omega) (by omega)
  rw [same]
  unfold bootBody bufferOf
  rw [Nat.zero_add, Nat.add_assoc]

/-- A winner boots verified, over any two slots with buffers apart. -/
theorem bootsVerified_of_winner (run : s = select ed25519 window a b e ram)
    (aHolds : bodyOff ≤ a.size) (bHolds : bodyOff ≤ b.size)
    (aBuffer : a.bufAddr = a.buf) (bBuffer : b.bufAddr = b.buf)
    (buffersApart : a.buf + a.size ≤ b.buf ∨ b.buf + b.size ≤ a.buf)
    {p : Pick} (chosen : s.winner = some p) :
    BootsVerified e a b s p := by
  have chooseEq : choose s.a s.b = some p := by
    rw [← chosen, run]
    rfl
  have verified : (s.verdict p).r.reason = .ok := by
    cases p with
    | first => exact ((choose_eq_first_iff _ _).mp chooseEq).1
    | second => exact ((choose_eq_second_iff _ _).mp chooseEq).1
  have bufferEq : (pickSlot a b p).bufAddr = (pickSlot a b p).buf := by
    cases p with
    | first => exact aBuffer
    | second => exact bBuffer
  obtain ⟨accepted, lengthEq, loadEq⟩ :=
    accepted_of_verdict (verdict_eq_rlxuVerify run aHolds bHolds p) verified
  refine ⟨verified, ?_, ?_, ?_, ?_, accepted.loads.apart_self,
    accepted.loads.apart_loader, ?_⟩
  · intro q qVerified
    cases p with
    | first =>
        cases q with
        | first => exact le_rfl
        | second => exact ((choose_eq_first_iff _ _).mp chooseEq).2 qVerified
    | second =>
        cases q with
        | first =>
            exact (((choose_eq_second_iff _ _).mp chooseEq).2 qVerified).le
        | second => exact le_rfl
  · rintro rfl aVerified
    exact ((choose_eq_second_iff _ _).mp chooseEq).2 aVerified
  · rw [lengthEq]
    exact accepted.authentic.digest
  · refine ⟨_, by rw [bootSelected, chosen]; rfl, rfl, ?_⟩
    rw [lengthEq, loadEq]
    change (memcpy (s.verdict p).r.payloadLen (s.verdict p).r.loadAddr _
      _).slice _ _ = _
    rw [lengthEq, loadEq]
    exact memcpy_payload_slice accepted bufferEq
      (seen_agreeOn_ramB run bHolds buffersApart p)
  · rw [← bufferEq]
    exact accepted.loads.apart_staging

end Boot

/-- rlxboot boots the bytes it verified: the winner of its two slots boots
verified, and where neither slot verified nothing is booted.  The two buffers
are apart from each other and from rlxboot itself. -/
theorem select_boots_verified (ed25519 : SignatureCheck) (window : ByteMap)
    (e : Env) (ram : ByteMap) :
    (∀ p, (select ed25519 window slotA slotB e ram).winner = some p →
      BootsVerified e slotA slotB
        (select ed25519 window slotA slotB e ram) p) ∧
    ((∀ q, ((select ed25519 window slotA slotB e ram).verdict q).r.reason ≠
        .ok) →
      bootSelected slotA slotB (select ed25519 window slotA slotB e ram) =
        none) ∧
    Disjoint (bufferRange slotA) (bufferRange slotB) ∧
    bufferRange slotA ∪ bufferRange slotB ⊆ Set.Iio selfBase := by
  refine ⟨fun p chosen => ?_, fun refused => ?_, ?_, ?_⟩
  · exact bootsVerified_of_winner rfl (by decide) (by decide) rfl rfl
      (by decide) chosen
  · have noWinner :
        (select ed25519 window slotA slotB e ram).winner = none :=
      (choose_eq_none_iff _ _).mpr ⟨refused .first, refused .second⟩
    rw [bootSelected, noWinner, Option.map_none]
  · unfold bufferRange
    rw [Set.Ico_disjoint_Ico]
    decide
  · have aBelow : slotA.buf + slotA.size ≤ selfBase := by decide
    have bBelow : slotB.buf + slotB.size ≤ selfBase := by decide
    rintro address (inA | inB)
    · exact lt_of_lt_of_le inA.2 aBelow
    · exact lt_of_lt_of_le inB.2 bBelow

/-- `rlxboot_devkey`. -/
def devkey : List UInt8 :=
  [
    0x21, 0x52, 0xf8, 0xd1, 0x9b, 0x79, 0x1d, 0x24, 0x45, 0x32, 0x42, 0xe1,
    0x5f, 0x2e, 0xab, 0x6c, 0xb7, 0xcf, 0xfa, 0x7b, 0x6a, 0x5e, 0xd3, 0x00,
    0x97, 0x96, 0x0e, 0x06, 0x98, 0x81, 0xdb, 0x12]

/-- A container for slot A, version 2, signed with the development key.  Its
four payload bytes load to `0x81200000`. -/
def containerA : List UInt8 :=
  [
    0x52, 0x4c, 0x58, 0x55, 0x00, 0x02, 0x00, 0x60, 0x00, 0x00, 0x00, 0x02,
    0x00, 0x00, 0x00, 0x04, 0x81, 0x20, 0x00, 0x00, 0x81, 0x20, 0x00, 0x00,
    0x00, 0x00, 0x00, 0x00, 0xca, 0x5b, 0xfc, 0xd5, 0xe5, 0x9c, 0x14, 0x02,
    0x29, 0xd1, 0xad, 0xec, 0x42, 0x7b, 0x82, 0xe5, 0xf4, 0x84, 0x3c, 0xbb,
    0xe1, 0xdc, 0xcc, 0x91, 0xfd, 0x6d, 0xed, 0x40, 0xb0, 0x8e, 0xf9, 0x09,
    0x00, 0x00, 0x00, 0x00, 0x00, 0x07, 0x00, 0x00, 0x57, 0x48, 0x4f, 0x4c,
    0x00, 0x00, 0x00, 0x00, 0x00, 0x00, 0x00, 0x00, 0x00, 0x00, 0x00, 0x00,
    0x00, 0x00, 0x00, 0x00, 0x00, 0x00, 0x00, 0x00, 0x00, 0x00, 0x00, 0x00,
    0x16, 0xff, 0x81, 0xcf, 0x77, 0x2b, 0xdd, 0x26, 0x54, 0xb6, 0xf9, 0x84,
    0x73, 0x50, 0xb2, 0x3f, 0x3c, 0xaf, 0xba, 0x94, 0x41, 0xef, 0xc8, 0x6a,
    0xfc, 0xeb, 0x37, 0x15, 0x8b, 0x07, 0x26, 0x55, 0xca, 0x80, 0xb8, 0xc4,
    0x71, 0xab, 0xd5, 0xca, 0x0b, 0xa9, 0xde, 0xaa, 0x04, 0xc9, 0xdd, 0xd0,
    0x35, 0x4c, 0x43, 0xbe, 0x69, 0xeb, 0xd8, 0x11, 0xea, 0x73, 0xcd, 0xdb,
    0x0b, 0xf2, 0x91, 0x04, 0x03, 0xe0, 0x00, 0x08]

/-- A container for slot B, version 1, signed with the development key.  Its
four payload bytes load to `0x80500000`. -/
def containerB : List UInt8 :=
  [
    0x52, 0x4c, 0x58, 0x55, 0x00, 0x02, 0x00, 0x60, 0x00, 0x00, 0x00, 0x01,
    0x00, 0x00, 0x00, 0x04, 0x80, 0x50, 0x00, 0x00, 0x80, 0x50, 0x00, 0x00,
    0x00, 0x00, 0x00, 0x00, 0xca, 0x5b, 0xfc, 0xd5, 0xe5, 0x9c, 0x14, 0x02,
    0x29, 0xd1, 0xad, 0xec, 0x42, 0x7b, 0x82, 0xe5, 0xf4, 0x84, 0x3c, 0xbb,
    0xe1, 0xdc, 0xcc, 0x91, 0xfd, 0x6d, 0xed, 0x40, 0xb0, 0x8e, 0xf9, 0x09,
    0x00, 0x00, 0x00, 0x00, 0x00, 0x19, 0x00, 0x00, 0x57, 0x48, 0x4f, 0x4c,
    0x00, 0x00, 0x00, 0x00, 0x00, 0x00, 0x00, 0x00, 0x00, 0x00, 0x00, 0x00,
    0x00, 0x00, 0x00, 0x00, 0x00, 0x00, 0x00, 0x00, 0x00, 0x00, 0x00, 0x00,
    0x01, 0xd0, 0x2a, 0x1e, 0xab, 0x5e, 0x50, 0x67, 0xcc, 0x79, 0x54, 0xb5,
    0xc9, 0x2a, 0x95, 0x26, 0x2f, 0x51, 0x43, 0x75, 0xe7, 0x9d, 0xc7, 0x53,
    0x24, 0x67, 0x58, 0xc0, 0x8d, 0xdc, 0x4c, 0xe6, 0xcf, 0xc8, 0x0c, 0x14,
    0x7f, 0x2e, 0x4e, 0xf2, 0x60, 0xaf, 0x63, 0xa1, 0x85, 0x34, 0x46, 0x83,
    0x1e, 0xa0, 0x5d, 0xa5, 0xa8, 0x4a, 0x74, 0xda, 0xe7, 0x93, 0x47, 0xca,
    0xc8, 0xb2, 0xce, 0x03, 0x03, 0xe0, 0x00, 0x08]

/-- Flash holding two slots' containers, erased everywhere else. -/
def flashOf (inA inB : List UInt8) : ByteMap := fun offset =>
  if offset < slotBFlash then inA.getD (offset - slotAFlash) 0xFF
  else inB.getD (offset - slotBFlash) 0xFF

/-- A check that knows the development key's signatures on some containers. -/
def devSigned (containers : List (List UInt8)) : SignatureCheck :=
  fun sig msg pk => pk == devkey && containers.any fun c =>
    c.take hdrLen == msg && (c.drop hdrLen).take sigLen == sig

/-- rlxboot's environment with the development key and an unspent counter. -/
def sampleEnv : Env :=
  { mainEnv 0x81810000 (fun _ => 0xFF) devkey with counter := 0 }

private theorem sample_reasons :
    (imageVerdict (devSigned [containerA, containerB])
        (flashOf containerA containerB) slotA sampleEnv).r.reason = .ok ∧
      (imageVerdict (devSigned [containerA, containerB])
        (flashOf containerA containerB) slotB sampleEnv).r.reason = .ok := by
  decide +kernel

private theorem sample_winner (ram : ByteMap) :
    (select (devSigned [containerA, containerB])
      (flashOf containerA containerB) slotA slotB sampleEnv ram).winner =
        some .first := by
  obtain ⟨aOk, bOk⟩ := sample_reasons
  rw [select_winner_eq _ _ _ _ _ _ (by decide) (by decide) (by decide)
    (by decide), choose_eq_first_iff, imageVerdict_version_of_ok aOk,
    imageVerdict_version_of_ok bOk]
  exact ⟨aOk, fun _ => by decide⟩

/-- Slot A's container wins and boots verified. -/
theorem select_boots_verified_sample :
    BootsVerified sampleEnv slotA slotB
      (select (devSigned [containerA, containerB])
        (flashOf containerA containerB) slotA slotB sampleEnv fun _ => 0)
      .first :=
  (select_boots_verified _ _ _ _).1 .first (sample_winner _)

private theorem sample_verified (ram : ByteMap) (p : Pick) :
    ((select (devSigned [containerA, containerB])
      (flashOf containerA containerB) slotA slotB sampleEnv
      ram).verdict p).r.reason = .ok := by
  rw [verdict_ok_iff_image rfl (by decide) (by decide) (by decide)
    (by decide)]
  cases p with
  | first => exact sample_reasons.1
  | second => exact sample_reasons.2

private theorem containerA_loads_over_slotB :
    slotB.buf ∈ destination (image slotA (flashOf containerA containerB)) :=
  Set.mem_Ico.mpr (by decide)

/-- The winner's destination can lie in the other slot's buffer, on top of a
container that verified there. -/
theorem destination_meets_other_buffer :
    ∃ (ed25519 : SignatureCheck) (flash ram : ByteMap) (e : Env),
      (select ed25519 flash slotA slotB e ram).winner = some .first ∧
      ((select ed25519 flash slotA slotB e ram).verdict .second).r.reason =
        .ok ∧
      ¬ Disjoint
        (destination
          ((select ed25519 flash slotA slotB e ram).seen slotA slotB .first))
        (staging
          ((select ed25519 flash slotA slotB e ram).seen slotA slotB .second)
          slotB.buf) := by
  refine ⟨devSigned [containerA, containerB],
    flashOf containerA containerB, fun _ => 0, sampleEnv, sample_winner _,
    sample_verified _ _, ?_⟩
  rw [destination_seen_eq rfl (by decide) (by decide) (by decide) (by decide)
    (sample_verified _ .first)]
  exact Set.not_disjoint_iff.mpr
    ⟨slotB.buf, containerA_loads_over_slotB, start_mem_staging _ _⟩

end RlxFw.Slots
