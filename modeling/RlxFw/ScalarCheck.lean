import RlxFw.Ed25519
import RlxFw.DigitOrder
import RlxFw.ContainerSpec

/-!
# The scalar of a signature

`rlx_s_below_L` goes down the bytes of a scalar and those of the group order, with one flag for
each way they may differ.  The flags stand for the order of what it has gone over, so in the end
they tell whether the scalar is below the group order.  No accepted scalar stays below it once
the group order is added.
-/

namespace RlxFw.Ed25519

open DigitOrder (value bytes)

/-- The order of the base point, `L`. -/
def groupOrder : Nat := 2 ^ 252 + 27742317777372353535851937790883648493

theorem value_rlxLBytes : value rlxLBytes = groupOrder := by
  decide

/-! ## The comparison -/

/-- The flags that stand for an order. -/
def Flags.ofOrdering : Ordering → Flags
  | .lt => { lt := 1, gt := 0 }
  | .eq => { lt := 0, gt := 0 }
  | .gt => { lt := 0, gt := 1 }

theorem xor_toUInt32_ne_zero_iff (s l : UInt8) :
    s.toUInt32 ^^^ l.toUInt32 ≠ 0 ↔ s.toNat ≠ l.toNat := by
  rw [not_iff_not, UInt32.xor_eq_zero_iff, ← UInt32.toNat_inj, UInt8.toNat_toUInt32,
    UInt8.toNat_toUInt32]

theorem above_bit (s l : UInt8) :
    (if s.toUInt32 ^^^ l.toUInt32 ≠ 0 then (if s.toUInt32 > l.toUInt32 then 1 else 0) else 0 :
      UInt32) = if compare s.toNat l.toNat = .gt then 1 else 0 := by
  simp only [xor_toUInt32_ne_zero_iff, gt_iff_lt, UInt32.lt_iff_toNat_lt, UInt8.toNat_toUInt32,
    compare_gt_iff_gt]
  by_cases more : l.toNat < s.toNat
  · rw [if_pos more.ne', if_pos more]
  · rw [if_neg more, ite_self]

theorem below_bit (s l : UInt8) :
    (if s.toUInt32 ^^^ l.toUInt32 ≠ 0 then (if s.toUInt32 < l.toUInt32 then 1 else 0) else 0 :
      UInt32) = if compare s.toNat l.toNat = .lt then 1 else 0 := by
  simp only [xor_toUInt32_ne_zero_iff, UInt32.lt_iff_toNat_lt, UInt8.toNat_toUInt32,
    compare_lt_iff_lt]
  by_cases less : s.toNat < l.toNat
  · rw [if_pos less.ne, if_pos less]
  · rw [if_neg less, ite_self]

/-- A turn leaves an order that is already decided, and decides an even one. -/
theorem compareTurn_ofOrdering (s l : UInt8) (o : Ordering) :
    compareTurn s l (.ofOrdering o) = .ofOrdering (o.then (compare s.toNat l.toNat)) := by
  dsimp only [compareTurn]
  rw [above_bit, below_bit]
  generalize compare s.toNat l.toNat = c
  cases o <;> cases c <;> rfl

/-- The turns from the top down leave the order of the numbers. -/
theorem foldr_compareTurn {s l : List UInt8} (same : s.length = l.length) :
    (s.zip l).foldr (fun pair => compareTurn pair.1 pair.2) (.ofOrdering .eq) =
      .ofOrdering (compare (value s) (value l)) := by
  induction s generalizing l with
  | nil =>
    obtain rfl := List.length_eq_zero_iff.mp same.symm
    rfl
  | cons b above ih =>
    obtain ⟨b', above', rfl⟩ := List.exists_cons_of_length_eq_add_one same.symm
    rw [List.zip_cons_cons, List.foldr_cons, ih (Nat.succ.inj same), compareTurn_ofOrdering,
      DigitOrder.compare_value_cons]

/-- What the indices of the loop read. -/
theorem range_byteAt {s l : List UInt8} (same : s.length = l.length) :
    (List.range s.length).map (fun i => (byteAt s i, byteAt l i)) = s.zip l := by
  refine List.ext_getElem (by simp [same]) fun i left right => ?_
  have inside : i < s.length := by simpa using left
  have inside' : i < l.length := same ▸ inside
  have read {t : List UInt8} (within : i < t.length) : byteAt t i = t[i] := by
    rw [byteAt, List.getD_eq_getElem?_getD, List.getElem?_eq_getElem within, Option.getD_some]
  rw [List.getElem_map, List.getElem_range, List.getElem_zip, read inside, read inside']

/-- `rlx_s_below_L` tells whether the number of the bytes is below the group order. -/
theorem rlxSBelowL_eq {s : List UInt8} (full : s.length = 32) :
    rlxSBelowL s = if value s < groupOrder then 1 else 0 := by
  have same : s.length = rlxLBytes.length := full
  have turns :
      (List.range 32).foldr (fun i => compareTurn (byteAt s i) (byteAt rlxLBytes i))
        { lt := 0, gt := 0 } = .ofOrdering (compare (value s) groupOrder) := by
    rw [← value_rlxLBytes, ← foldr_compareTurn same, ← range_byteAt same, List.foldr_map, full]
    rfl
  have bit (o : Ordering) : (Flags.ofOrdering o).lt &&& 1 = if o = .lt then 1 else 0 := by
    cases o <;> rfl
  simp only [rlxSBelowL, turns, bit, compare_lt_iff_lt]

example : rlxSBelowL rlxLBytes = 0 ∧ rlxSBelowL (0xec :: rlxLBytes.tail) = 1 := by
  decide

theorem rlxSBelowL_eq_one_iff {s : List UInt8} (full : s.length = 32) :
    rlxSBelowL s = 1 ↔ value s < groupOrder := by
  rw [rlxSBelowL_eq full]
  split <;> simp [*]

theorem rlxSBelowL_eq_zero_iff {s : List UInt8} (full : s.length = 32) :
    rlxSBelowL s = 0 ↔ groupOrder ≤ value s := by
  rw [rlxSBelowL_eq full, ← not_lt]
  split <;> simp [*]

/-! ## The wrapper -/

/-- The scalar of a signature, its second half. -/
def scalarOf (sig : List UInt8) : Nat := value (sig.drop 32)

/-- The signature with the group order added to its scalar. -/
def addOrder (sig : List UInt8) : List UInt8 := sig.take 32 ++ bytes 32 (scalarOf sig + groupOrder)

section

variable {sig sig' msg pk : List UInt8}

theorem verify_of_long (long : msgMax < msg.length) : rlxEd25519Verify sig msg pk = .toolong := by
  rw [rlxEd25519Verify, if_pos long]

theorem verify_of_unreduced (full : sig.length = 64) (unreduced : groupOrder ≤ scalarOf sig) :
    rlxEd25519Verify sig msg pk = if msg.length > msgMax then .toolong else .scalar := by
  have half : (sig.drop 32).length = 32 := by rw [List.length_drop, full]
  rw [rlxEd25519Verify, if_pos ((rlxSBelowL_eq_zero_iff half).mpr unreduced)]

theorem msg_of_ok (accepted : rlxEd25519Verify sig msg pk = .ok) : msg.length ≤ msgMax := by
  by_contra long
  rw [verify_of_long (not_le.mp long)] at accepted
  cases accepted

theorem scalar_of_ok (full : sig.length = 64) (accepted : rlxEd25519Verify sig msg pk = .ok) :
    scalarOf sig < groupOrder := by
  by_contra unreduced
  rw [verify_of_unreduced full (not_lt.mp unreduced)] at accepted
  split at accepted <;> cases accepted

/-- The sum still fits in the bytes of a scalar. -/
theorem add_groupOrder_lt (reduced : scalarOf sig < groupOrder) :
    scalarOf sig + groupOrder < 256 ^ 32 := by
  unfold groupOrder at reduced ⊢
  omega

theorem length_addOrder (full : sig.length = 64) (reduced : scalarOf sig < groupOrder) :
    (addOrder sig).length = 64 := by
  rw [addOrder, List.length_append, List.length_take, full,
    DigitOrder.length_bytes (add_groupOrder_lt reduced)]
  rfl

theorem take_addOrder (full : sig.length = 64) : (addOrder sig).take 32 = sig.take 32 :=
  List.take_left' (by rw [List.length_take, full]; rfl)

theorem scalarOf_addOrder (full : sig.length = 64) :
    scalarOf (addOrder sig) = scalarOf sig + groupOrder := by
  have front : (sig.take 32).length = 32 := by rw [List.length_take, full]; rfl
  rw [scalarOf, addOrder, List.drop_left' front, DigitOrder.value_bytes]

theorem addOrder_unreduced (full : sig.length = 64) : groupOrder ≤ scalarOf (addOrder sig) := by
  rw [scalarOf_addOrder full]
  exact Nat.le_add_left _ _

/-- Two accepted signatures of one first half whose scalars agree up to the group order are the
same bytes. -/
theorem eq_of_ok (full : sig.length = 64) (full' : sig'.length = 64) {msg' pk' : List UInt8}
    (accepted : rlxEd25519Verify sig msg pk = .ok)
    (accepted' : rlxEd25519Verify sig' msg' pk' = .ok)
    (front : sig.take 32 = sig'.take 32)
    (scalar : scalarOf sig ≡ scalarOf sig' [MOD groupOrder]) : sig = sig' := by
  have halves : (sig.drop 32).length = (sig'.drop 32).length := by
    rw [List.length_drop, List.length_drop, full, full']
  have back : sig.drop 32 = sig'.drop 32 :=
    DigitOrder.value_inj halves
      (scalar.eq_of_lt_of_lt (scalar_of_ok full accepted) (scalar_of_ok full' accepted'))
  rw [← List.take_append_drop 32 sig, front, back, List.take_append_drop]

end

/-- What the scalar check decides, and which signature it refuses. -/
structure ScalarExact : Prop where
  below : ∀ s : List UInt8, s.length = 32 → (rlxSBelowL s = 1 ↔ value s < groupOrder)
  otherwise : ∀ s : List UInt8, s.length = 32 → ¬ value s < groupOrder → rlxSBelowL s = 0
  added : ∀ sig msg pk : List UInt8, sig.length = 64 → rlxEd25519Verify sig msg pk = .ok →
    (addOrder sig).length = 64 ∧ (addOrder sig).take 32 = sig.take 32 ∧
      scalarOf (addOrder sig) = scalarOf sig + groupOrder
  refused : ∀ sig msg pk : List UInt8, sig.length = 64 → rlxEd25519Verify sig msg pk = .ok →
    rlxEd25519Verify (addOrder sig) msg pk = .scalar

theorem scalarExact : ScalarExact where
  below _ full := rlxSBelowL_eq_one_iff full
  otherwise _ full unreduced := (rlxSBelowL_eq_zero_iff full).mpr (not_lt.mp unreduced)
  added _ _ _ full accepted :=
    ⟨length_addOrder full (scalar_of_ok full accepted), take_addOrder full,
      scalarOf_addOrder full⟩
  refused _ _ _ full accepted := by
    rw [verify_of_unreduced (length_addOrder full (scalar_of_ok full accepted))
      (addOrder_unreduced full), if_neg (not_lt.mpr (msg_of_ok accepted))]

/-! ## Containers -/

/-- The check of a container's signature. -/
def signatureCheck : Container.SignatureCheck :=
  fun sig msg pk => rlxEd25519Verify sig msg pk == .ok

section

open Container

variable {c d : ByteMap} {avail : Nat} {e : Env}

theorem verify_of_container (accepted : (rlxuVerify signatureCheck c avail e).reason = .ok) :
    rlxEd25519Verify (c.slice hdrLen sigLen) (c.slice 0 hdrLen) e.pk = .ok :=
  eq_of_beq ((rlxuVerify_ok_iff_accepted _ _ _ _).mp accepted).authentic.signature

/-- No container is accepted with the signature of another one to which the group order is
added. -/
theorem container_addOrder_refused
    (replaced : d.slice hdrLen sigLen = addOrder (c.slice hdrLen sigLen)) :
    (rlxuVerify signatureCheck d avail e).reason ≠ .ok := by
  intro accepted
  have full (m : ByteMap) : (m.slice hdrLen sigLen).length = 64 := ByteMap.slice_length _ _ _
  have reduced := scalar_of_ok (full d) (verify_of_container accepted)
  rw [replaced] at reduced
  exact absurd reduced (not_lt.mpr (addOrder_unreduced (full c)))

end

end RlxFw.Ed25519
