import RlxFw.CfgCanonical
import RlxFw.Writers

/-!
# What a load hands back is valid

Whatever a medium holds, the broker reloads a configuration that keeps every
rule; and every configuration that does is reloaded from some medium.
-/

namespace RlxFw.CfgStore

/-- Every present value passes its check, and all of them the cross-field
rules. -/
structure Valid (c : Cfg) : Prop where
  checked : Checked c
  rules : cfgValidate c = .ok ()

theorem valid_cfgDefaults : Valid cfgDefaults := ⟨nofun, cfgDefaults_valid⟩

/-- Only the values count. -/
theorem Valid.congr {c c' : Cfg} (valid : Valid c) (same : c'.value = c.value) :
    Valid c' where
  checked i v present := valid.checked i v (same ▸ present)
  rules := (cfgValidate_congr same).trans valid.rules

theorem valid_of_parseRecord {buf : ByteMap} {n : Nat} {c : Cfg}
    (parsed : parseRecord buf n = .ok c) : Valid c := by
  obtain ⟨-, -, payload⟩ := (parseRecord_eq_ok_iff _ _ _).mp parsed
  obtain ⟨-, tmp, read, rules, rfl⟩ := (payloadRecord_eq_ok_iff _ _).mp payload
  obtain ⟨items, walked⟩ := exists_items_of_walk read
  refine ⟨fun i v present => ?_, (cfgValidate_congr rfl).trans rules⟩
  have among := ((walked.values i v).mp present).resolve_right nofun
  exact walked.checked (i, v) among

theorem valid_of_accepted {slot : Option SlotBytes} {c : Cfg}
    (record : accepted slot = some c) : Valid c := by
  cases slot with
  | none => cases record
  | some slot => exact valid_of_parseRecord ((accepted_some_iff _ _).mp record)

/-- The broker never answers from anything but a valid configuration. -/
theorem bkCfgReload_valid (faults : Faults) (m : Medium) :
    Valid (bkCfgReload (loadInfo faults m)) := by
  unfold bkCfgReload
  split
  · exact valid_cfgDefaults
  next sound =>
  have fine : (loadInfo faults m).rc = none := by
    simpa using (not_or.mp sound).1
  rw [(loadInfo_selects fine).out]
  cases newer : newestOf m.slot with
  | none => exact valid_cfgDefaults
  | some p => exact (valid_of_accepted (accepted_of_newestOf newer)).congr rfl

/-- A file of one slot: the other one is not there. -/
def oneSlot (img : ByteMap) : File := { bytes := img, size := slotSize }

theorem oneSlot_newest {img : ByteMap} {c : Cfg}
    (parsed : parseRecord img slotSize = .ok c) :
    newestOf (Medium.file (.regular (oneSlot img))).slot = some (0, c) := by
  have first : accepted (some ((oneSlot img).slot 0)) = some c := by
    rw [accepted_some_iff]
    refine parseRecord_congr parsed (fun j _ _ => ?_) ?_
    · change img j = img (fileBase 0 + j)
      rw [show fileBase 0 = 0 from rfl, Nat.zero_add]
    · have whole : ((oneSlot img).slot 0).got = slotSize := by
        change min slotSize (slotSize - fileBase 0) = slotSize
        simp [fileBase]
      rw [whole]
      exact ((parseRecord_eq_ok_iff _ _ _).mp parsed).1
  have absent : ((oneSlot img).slot 1).got = 0 := by
    change min slotSize (slotSize - fileBase 1) = 0
    simp [fileBase]
  have second : accepted (some ((oneSlot img).slot 1)) = none := by
    unfold accepted
    dsimp only
    rw [absent]
    exact if_pos rfl
  simp only [newestOf, Medium.slot]
  rw [first, second]
  rfl

/-- Every valid configuration is reloaded from a medium that holds it. -/
theorem exists_reloaded {c : Cfg} (valid : Valid c) :
    ∃ m, bkCfgReload (loadInfo noFaults m) =
      { c with seq := 1, source := 1 } := by
  obtain ⟨record, encoded⟩ :=
    encodeRecord_isOk valid.checked (show seqMin ≤ 1 by decide)
      (show 1 ≤ seqMax by decide) (le_refl slotSize)
  have image : slotImage c 1 = .ok (ByteMap.ofList record fill) :=
    bind_eq_ok_iff.mpr ⟨record, encoded, rfl⟩
  have parsed := parseRecord_slotImage valid.rules image
    (recordLen_slotImage_le image)
  have newer := oneSlot_newest parsed
  refine ⟨.file (.regular (oneSlot (ByteMap.ofList record fill))), ?_⟩
  have fine := loadInfo_noFaults
    (show ∀ s, ((Medium.file (.regular (oneSlot
      (ByteMap.ofList record fill)))).slot s).isSome from fun _ => rfl)
  have selects := loadInfo_selects fine
  unfold bkCfgReload Loaded.invalid
  rw [if_neg (by rw [fine, selects.selected, newer]; simp), selects.out, newer]
  rfl

/-- What the check of an IPv4 key comes to. -/
theorem ipv4_of_checked {k : Key} {v : List UInt8} (isIpv4 : k.type = .ipv4)
    (checked : schemaCheckValue k v = none) :
    v.length = 4 ∧ ipv4Check k (valueWord v) = none := by
  unfold schemaCheckValue at checked
  rw [isIpv4] at checked
  split at checked
  · cases checked
  dsimp only at checked
  split at checked
  · cases checked
  next four => exact ⟨not_not.mp four, checked⟩

/-- What the test of a mask says of its zeros. -/
theorem filled_of_contiguous {m : UInt32} (contiguous : maskIsContiguous m = true) :
    ~~~m &&& (~~~m + 1) = 0 := by
  unfold maskIsContiguous at contiguous
  dsimp only at contiguous
  split at contiguous
  · next full =>
    rw [full]
    rfl
  · simpa using contiguous

theorem mask_of_check {k : Key} {n : UInt32} (isMask : k.id = idLanMask)
    (checked : ipv4Check k n = none) : maskIsContiguous n = true ∧ n ≠ 0 := by
  unfold ipv4Check at checked
  rw [if_neg (by rw [isMask]; decide), if_pos isMask] at checked
  split at checked
  · next p known =>
    unfold maskPrefixLen at known
    split at known
    · next contiguous =>
      refine ⟨contiguous, ?_⟩
      rintro rfl
      cases known
      rw [if_pos (by decide)] at checked
      cases checked
    · cases known
  · cases checked

/-- A key that is not hidden has a value, and the value passes its check. -/
theorem Valid.cfgGet {c : Cfg} (valid : Valid c) (i : Fin nkeys)
    (shown : (cfgKeys i).id ≠ idPwhash) :
    ∃ v, cfgGet c (cfgKeys i).id = .ok v ∧
      schemaCheckValue (cfgKeys i) v = none := by
  unfold CfgStore.cfgGet
  rw [cfgIndexById_id]
  dsimp only
  cases present : c.value i with
  | some v =>
      have checked := valid.checked i v present
      dsimp only
      rw [if_neg (not_lt.mpr (length_le_of_checked checked))]
      exact ⟨v, rfl, checked⟩
  | none =>
      dsimp only
      cases default : schemaDefault (cfgKeys i).id with
      | none =>
          exact absurd ((schemaDefault_eq_none_iff i).mp default).1 shown
      | some v => exact ⟨v, rfl, schemaDefault_checked i v default⟩

end RlxFw.CfgStore
