import RlxFw.ContainerSpec
import RlxFw.Mkfw2

/-!
# What the host's checks ask of a container

The rows of `checks`, said in the terms in which the device's verifier is
described.
-/

namespace RlxFw.Mkfw2

open Tlv (getBe16 getBe32)
open Container (be32 be16 version payloadLen loadAddr entryAddr flashAt flashForm
  destination staging landingRange licensable WellFormed FormConsistent bodyOff)

/-! ## Bytes -/

section Bytes

variable {c : ByteMap} {n k : Nat}

theorem getBe32_eq_be32 (c : ByteMap) (p : Nat) : getBe32 c p = be32 c p := by
  have last : c (p + 2 + 1) = c (p + 3) := rfl
  unfold Tlv.getBe32 Tlv.getBe16 Tlv.be16 Container.be32
  rw [last]
  omega

theorem take_slice (start : Nat) (short : k ≤ n) :
    (c.slice start n).take k = c.slice start k := by
  obtain ⟨more, rfl⟩ := Nat.exists_eq_add_of_le short
  rw [ByteMap.slice_append]
  exact List.take_left' (by simp)

theorem drop_slice (start : Nat) (short : k ≤ n) :
    (c.slice start n).drop k = c.slice (start + k) (n - k) := by
  obtain ⟨more, rfl⟩ := Nat.exists_eq_add_of_le short
  rw [ByteMap.slice_append, Nat.add_sub_cancel_left]
  exact List.drop_left' (by simp)

/-- A run of memory, laid out again. -/
theorem ofList_slice_agreeOn (c : ByteMap) (n : Nat) :
    ByteMap.AgreeOn (ByteMap.ofList (c.slice 0 n) 0) c 0 n := by
  intro i _ inside
  have short : i < (c.slice 0 n).length := by simpa using inside
  rw [ByteMap.ofList, List.getD_eq_getElem?_getD, List.getElem?_eq_getElem short,
    Option.getD_some, ByteMap.slice_getElem]
  rw [Nat.zero_add]

/-- The header of a container in memory. -/
theorem unpackHeader_slice (c : ByteMap) :
    unpackHeader (c.slice 0 headerLen) =
      { magic := be32 c 0
        format := be16 c 4
        headerLen := be16 c 6
        version := version c
        payloadLen := payloadLen c
        loadAddr := loadAddr c
        entryAddr := entryAddr c
        flags := be32 c 24
        digest := c.slice 28 32
        recipeId := c.slice 60 4
        flashAt := flashAt c
        flashForm := flashForm c
        reserved := c.slice resvOff resvLen } := by
  have same := ofList_slice_agreeOn c headerLen
  have words (p : Nat) (inside : p + 4 ≤ 0 + headerLen) :
      getBe32 (ByteMap.ofList (c.slice 0 headerLen) 0) p = be32 c p := by
    rw [getBe32_eq_be32]
    exact Container.be32_congr same (Nat.zero_le p) inside
  have halves (p : Nat) (inside : p + 2 ≤ 0 + headerLen) :
      getBe16 (ByteMap.ofList (c.slice 0 headerLen) 0) p = be16 c p :=
    Container.be16_congr same (Nat.zero_le p) inside
  unfold unpackHeader
  rw [words 0 (by decide), halves 4 (by decide), halves 6 (by decide),
    words 8 (by decide), words 12 (by decide), words 16 (by decide),
    words 20 (by decide), words 24 (by decide), words 64 (by decide),
    words 68 (by decide), drop_slice 0 (by decide), drop_slice 0 (by decide),
    drop_slice 0 (by decide), take_slice _ (by decide), take_slice _ (by decide),
    take_slice _ (by decide)]
  rfl

/-- A run of zeros. -/
theorem slice_eq_zeros_iff (start : Nat) :
    c.slice start n = List.replicate n 0 ↔ ∀ i < n, c (start + i) = 0 := by
  rw [List.eq_replicate_iff]
  simp [ByteMap.slice]

end Bytes

/-! ## The rows -/

/-- The container's fields, as the host would have them. -/
structure HostFields (c : ByteMap) (write : Option (Nat × Option Nat)) : Prop where
  wellFormed : WellFormed c (bodyOff + payloadLen c)
  licensed : flashAt c ≠ flashNone → landingRange c ⊆ licensable
  declared : ∀ w ∈ write, flashAt c = w.1 ∧ flashForm c = w.2.getD formNone
  inRam : destination c ⊆ Set.Ico ramLo ramHi
  entry_mem : entryAddr c ∈ destination c
  apart_rlxboot : Disjoint (destination c) (Set.Ico rlxbootLo rlxbootHi)
  apart_stage : Disjoint (destination c) (staging c stageLo)

theorem meets_eq_false_iff {at_ stop : Nat} {range : Nat × Nat} (some_ : at_ < stop)
    (wide : range.1 < range.2) :
    meets at_ stop range = false ↔
      Disjoint (Set.Ico at_ stop) (Set.Ico range.1 range.2) := by
  rw [Set.Ico_disjoint_Ico]
  unfold meets
  simp only [Bool.and_eq_false_iff, decide_eq_false_iff_not]
  omega

/-- No landing can hurt the device. -/
theorem unrecoverableClear_iff {at_ nbytes : Nat} (some_ : 0 < nbytes) :
    unrecoverableClear at_ nbytes = true ↔
      Set.Ico at_ (at_ + nbytes) ⊆ licensable := by
  unfold unrecoverableClear meets licensable h601 loader chipSize
  rw [Set.Ico_subset_Ico_iff (by omega)]
  simp only [Bool.and_eq_true, Bool.not_eq_true', Bool.and_eq_false_iff,
    decide_eq_false_iff_not]
  unfold Container.flashKeepoutEnd Container.chipSize
  omega

theorem landingLen_isSome_iff (c : ByteMap) :
    (landingLen (flashAt c) (flashForm c) (payloadLen c)).isSome = true ↔
      FormConsistent c := by
  unfold landingLen FormConsistent
  change _ ↔ (flashAt c = flashNone ∧ flashForm c = formNone) ∨
    (flashAt c ≠ flashNone ∧ (flashForm c = formWhole ∨ flashForm c = formPayload))
  split_ifs <;> simp_all

/-- How much of a declared container lands. -/
theorem landingLen_eq {c : ByteMap} (form : FormConsistent c)
    (declared : flashAt c ≠ flashNone) :
    landingLen (flashAt c) (flashForm c) (payloadLen c) =
      some (if flashForm c = formWhole then bodyOff + payloadLen c else payloadLen c) := by
  unfold landingLen
  rw [if_neg declared]
  by_cases whole : flashForm c = formWhole
  · rw [if_pos whole, if_pos whole]
    rfl
  · have payload : flashForm c = formPayload := by
      rcases form with ⟨none, -⟩ | ⟨-, isWhole | isPayload⟩
      · exact absurd none declared
      · exact absurd isWhole whole
      · exact isPayload
    rw [if_neg whole, if_pos payload, if_neg whole]

/-- A declared landing is clear where it is licensable. -/
theorem landing_clear_iff {c : ByteMap} (form : FormConsistent c)
    (some_ : 0 < payloadLen c) :
    (flashAt c = flashNone ∨ unrecoverableClear (flashAt c)
        ((landingLen (flashAt c) (flashForm c) (payloadLen c)).getD 0) = true) ↔
      (flashAt c ≠ flashNone → landingRange c ⊆ licensable) := by
  rw [or_iff_not_imp_left]
  refine imp_congr_right fun declared => ?_
  have pos : 0 < if flashForm c = formWhole then bodyOff + payloadLen c
      else payloadLen c := by
    split
    · exact Nat.add_pos_right _ some_
    · exact some_
  rw [landingLen_eq form declared, Option.getD_some, unrecoverableClear_iff pos]
  rfl

/-- Steps 1 and 2 pass exactly the containers whose fields the host would have. -/
theorem fieldRows_ok_iff {c : ByteMap} {write : Option (Nat × Option Nat)} :
    (∀ row ∈ fieldRows (c.slice 0 (bodyOff + payloadLen c)) write, row.ok = true) ↔
      HostFields c write := by
  have isBody : body = bodyOff := rfl
  have prefixed : headerLen ≤ bodyOff := by decide
  have header : (c.slice 0 (bodyOff + payloadLen c)).take headerLen =
      c.slice 0 headerLen := take_slice 0 (Nat.le_add_right_of_le prefixed)
  unfold fieldRows
  rw [header, unpackHeader_slice, ByteMap.slice_length]
  dsimp only
  rw [isBody]
  have wide : stageLo < stageLo + (bodyOff + payloadLen c) :=
    Nat.lt_add_of_pos_right (Nat.lt_of_lt_of_le (by decide) (Nat.le_add_right bodyOff _))
  simp only [List.forall_mem_cons, List.not_mem_nil, decide_eq_true_eq, slice_eq_zeros_iff]
  constructor
  · rintro ⟨magic, format, headerLen_, reserved, flags, versions, lengths, -, form, landing,
      declared, inRam, rlxboot, stage, entry, -⟩
    rw [landingLen_isSome_iff] at form
    rw [landing_clear_iff form lengths.1] at landing
    rw [Bool.not_eq_true', meets_eq_false_iff (by omega) (by decide)] at rlxboot
    rw [Bool.not_eq_true', meets_eq_false_iff (by omega) wide] at stage
    refine ⟨⟨magic, format, headerLen_, versions, lengths.1, lengths.2, flags, reserved,
      le_rfl, form⟩, landing, ?_, ?_, entry, rlxboot, stage⟩
    · intro w member
      rw [Option.mem_def.mp member, Option.all_some, decide_eq_true_eq] at declared
      exact declared
    · exact Set.Ico_subset_Ico inRam.1 inRam.2
  · intro fields
    have wf := fields.wellFormed
    have some_ := wf.payload_pos
    have inRam := fields.inRam
    unfold Container.destination at inRam
    rw [Set.Ico_subset_Ico_iff (by omega)] at inRam
    refine ⟨wf.magic, wf.format, wf.headerLen, wf.reserved, wf.flags, wf.version_mem,
      ⟨wf.payload_pos, wf.payload_le⟩, trivial, (landingLen_isSome_iff c).mpr wf.form,
      (landing_clear_iff wf.form some_).mpr fields.licensed, ?_, inRam, ?_, ?_,
      fields.entry_mem, fun _ => False.elim⟩
    · cases write with
      | none => rfl
      | some w =>
          rw [Option.all_some, decide_eq_true_eq]
          exact fields.declared w rfl
    · rw [Bool.not_eq_true', meets_eq_false_iff (by omega) (by decide)]
      exact fields.apart_rlxboot
    · rw [Bool.not_eq_true', meets_eq_false_iff (by omega) wide]
      exact fields.apart_stage

end RlxFw.Mkfw2
