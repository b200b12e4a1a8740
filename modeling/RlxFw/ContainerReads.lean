import RlxFw.ContainerSpec

/-!
# What is read before the signature holds

Two runs of `rlxu_verify` over containers that agree up to the payload: until
the signature check has passed they are the same run.
-/

namespace RlxFw.Container

/-- Refused at a stage up to and including the signature check. -/
def Rlxu.RefusedEarly (r : Rlxu) : Prop :=
  r.stage = some .hdr ∨ r.stage = some .bound ∨ r.stage = some .sig

section TwoRuns

variable {ed25519 : SignatureCheck} {c d : ByteMap} {avail : Nat} {e : Env}

theorem headed_congr (agree : ByteMap.AgreeOn c d 0 bodyOff) :
    headed c = headed d := by
  have bound : bodyOff = 160 := rfl
  unfold headed Rlxu.readMagic
  rw [be32_congr agree (Nat.zero_le 0) (by omega),
    be16_congr agree (Nat.zero_le 4) (by omega),
    be16_congr agree (Nat.zero_le 6) (by omega)]

theorem parsed_congr (agree : ByteMap.AgreeOn c d 0 bodyOff) :
    parsed c = parsed d := by
  have word (p : Nat) (inside : p + 4 ≤ 160) : be32 c p = be32 d p :=
    be32_congr agree (Nat.zero_le p) inside
  unfold parsed Rlxu.readFields
  rw [headed_congr agree, word 8 (by decide), word 12 (by decide),
    word 16 (by decide), word 20 (by decide), word 24 (by decide),
    word 60 (by decide), word flashOff (by decide), word formOff (by decide)]

theorem fieldFault_congr (agree : ByteMap.AgreeOn c d 0 bodyOff) (r : Rlxu) :
    fieldFault c avail e r = fieldFault d avail e r := by
  have reserved : ((List.range resvLen).any fun i => c (resvOff + i) ≠ 0) =
      (List.range resvLen).any fun i => d (resvOff + i) ≠ 0 := by
    rw [Bool.eq_iff_iff, List.any_eq_true, List.any_eq_true]
    refine exists_congr fun i => and_congr_right fun member => ?_
    have inside : i < resvLen := List.mem_range.mp member
    rw [agree (resvOff + i) (Nat.zero_le _) (by
      unfold resvOff bodyOff hdrLen sigLen
      unfold resvLen at inside
      omega)]
  unfold fieldFault
  rw [reserved]

/-- Once the signature has passed, no refusal is early. -/
theorem unsigned_of_refusedEarly {r : Rlxu}
    (early : (verifyTrusted ed25519 c e r).RefusedEarly) :
    ed25519 (c.slice hdrLen sigLen) (c.slice 0 hdrLen) e.pk = false := by
  rw [← Bool.not_eq_true]
  intro signed
  unfold verifyTrusted at early
  simp only [signed, not_true_eq_false, if_false] at early
  split_ifs at early <;> simp [Rlxu.RefusedEarly, Rlxu.refuse] at early

theorem verifyTrusted_of_unsigned {r : Rlxu}
    (unsigned : ed25519 (c.slice hdrLen sigLen) (c.slice 0 hdrLen) e.pk = false) :
    verifyTrusted ed25519 c e r = (r.traced .sig).refuse .sig .sig := by
  unfold verifyTrusted
  exact if_pos (by simp [unsigned])

theorem unsigned_congr (agree : ByteMap.AgreeOn c d 0 bodyOff)
    (unsigned : ed25519 (c.slice hdrLen sigLen) (c.slice 0 hdrLen) e.pk = false) :
    ed25519 (d.slice hdrLen sigLen) (d.slice 0 hdrLen) e.pk = false := by
  have signature : c.slice hdrLen sigLen = d.slice hdrLen sigLen :=
    ByteMap.slice_congr fun i lower upper => agree i (Nat.zero_le i) (by
      unfold bodyOff
      omega)
  have header : c.slice 0 hdrLen = d.slice 0 hdrLen :=
    ByteMap.slice_congr fun i lower upper => agree i lower (by
      unfold bodyOff
      omega)
  rwa [signature, header] at unsigned

/-- No byte counted as hashed or copied. -/
def Rlxu.Untouched (r : Rlxu) : Prop := r.hashed = 0 ∧ r.copied = 0

theorem Rlxu.Untouched.refuse {r : Rlxu} (untouched : r.Untouched)
    (stage : Stage) (reason : Reason) : (r.refuse stage reason).Untouched :=
  untouched

theorem Rlxu.Untouched.traced {r : Rlxu} (untouched : r.Untouched)
    (tag : Stage) : (r.traced tag).Untouched := by
  unfold Rlxu.traced
  split
  · exact untouched
  · exact untouched

theorem Rlxu.Untouched.landed {r : Rlxu} (untouched : r.Untouched) :
    r.landed.Untouched := by
  obtain ⟨hashed, copied⟩ := untouched
  unfold Rlxu.Untouched Rlxu.landed
  exact ⟨hashed, copied⟩

theorem headed_untouched (c : ByteMap) : (headed c).Untouched :=
  have initial : Rlxu.initial.Untouched := ⟨rfl, rfl⟩
  initial.traced .hdr

theorem parsed_untouched (c : ByteMap) : (parsed c).Untouched :=
  (headed_untouched c).traced .bound

theorem landed_untouched (c : ByteMap) : (parsed c).landed.Untouched :=
  (parsed_untouched c).landed

/-- A stage whose fault is the same in both runs keeps them one run. -/
theorem guard_same {r next next' : Rlxu} {stage : Stage} {fault : Option Reason}
    (early : (r.guard stage fault next).RefusedEarly) (untouched : r.Untouched)
    (goesOn : next.RefusedEarly → next' = next ∧ next.Untouched) :
    r.guard stage fault next' = r.guard stage fault next ∧
      (r.guard stage fault next).Untouched := by
  cases fault with
  | some reason => exact ⟨rfl, untouched.refuse stage reason⟩
  | none => exact goesOn early

theorem verifyTrusted_same (agree : ByteMap.AgreeOn c d 0 bodyOff) {r : Rlxu}
    (untouched : r.Untouched)
    (early : (verifyTrusted ed25519 c e r).RefusedEarly) :
    verifyTrusted ed25519 d e r = verifyTrusted ed25519 c e r ∧
      (verifyTrusted ed25519 c e r).Untouched := by
  have unsigned := unsigned_of_refusedEarly early
  rw [verifyTrusted_of_unsigned unsigned,
    verifyTrusted_of_unsigned (unsigned_congr agree unsigned)]
  exact ⟨rfl, (untouched.traced .sig).refuse _ _⟩

/-- One run refused early is the other run, and neither has hashed or copied. -/
theorem verify_eq_of_refusedEarly (agree : ByteMap.AgreeOn c d 0 bodyOff)
    (early : (rlxuVerify ed25519 c avail e).RefusedEarly) :
    rlxuVerify ed25519 d avail e = rlxuVerify ed25519 c avail e ∧
      (rlxuVerify ed25519 c avail e).Untouched := by
  unfold rlxuVerify at early ⊢
  rw [← headed_congr agree, ← parsed_congr agree, ← fieldFault_congr agree]
  by_cases present : avail < bodyOff
  · simp only [if_pos present]
    exact ⟨trivial, ⟨rfl, rfl⟩⟩
  rw [if_neg present] at early ⊢
  rw [if_neg present]
  exact guard_same early (headed_untouched c) fun early =>
    guard_same early (parsed_untouched c) fun early =>
      guard_same early (parsed_untouched c) fun early =>
        guard_same early (landed_untouched c) fun early =>
          verifyTrusted_same agree (landed_untouched c) early

end TwoRuns

/-- Two containers that agree on the header and the signature get the same
result as soon as either is refused at or before the signature check, and that
result counts no byte as hashed or copied. -/
theorem verify_same_before_signature (ed25519 : SignatureCheck)
    (c d : ByteMap) (avail : Nat) (e : Env)
    (agree : ByteMap.AgreeOn c d 0 bodyOff)
    (early : (rlxuVerify ed25519 c avail e).RefusedEarly ∨
      (rlxuVerify ed25519 d avail e).RefusedEarly) :
    rlxuVerify ed25519 c avail e = rlxuVerify ed25519 d avail e ∧
      (rlxuVerify ed25519 c avail e).hashed = 0 ∧
      (rlxuVerify ed25519 c avail e).copied = 0 := by
  rcases early with early | early
  · obtain ⟨same, hashed, copied⟩ := verify_eq_of_refusedEarly agree early
    exact ⟨same.symm, hashed, copied⟩
  · obtain ⟨same, hashed, copied⟩ := verify_eq_of_refusedEarly agree.symm early
    rw [same]
    exact ⟨rfl, hashed, copied⟩

/-- The environment of a machine of no memory. -/
def emptyEnv : Env where
  ramBase := 0
  ramEnd := 0
  selfBase := 0
  selfEnd := 0
  bufBase := 0
  bufLimit := 0
  ldrBase := 0
  ldrEnd := 0
  counter := 0
  writeAt := 0
  writeForm := 0
  pk := []

/-- Zeros, and zeros with another payload. -/
theorem verify_same_before_signature_zeros :
    rlxuVerify (fun _ _ _ => true) (fun _ => 0) 200 emptyEnv =
      rlxuVerify (fun _ _ _ => true) (fun i => if i < bodyOff then 0 else 1) 200
        emptyEnv :=
  (verify_same_before_signature (fun _ _ _ => true) (fun _ => 0)
    (fun i => if i < bodyOff then 0 else 1) 200 emptyEnv
    (fun i _ inside => (if_pos (by simpa using inside)).symm)
    (Or.inl (Or.inl (by decide)))).1

end RlxFw.Container
