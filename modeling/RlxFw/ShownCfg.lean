import RlxFw.CfgRecord

/-!
# Configurations that differ in hidden values

What is read and checked of a configuration without its hidden values, and how
large it is when it is stored.
-/

namespace RlxFw.CfgStore

/-- Two configurations that differ in hidden values alone. -/
structure SameShown (c c' : Cfg) : Prop where
  seq : c.seq = c'.seq
  source : c.source = c'.source
  value : ∀ i, (cfgKeys i).web ≠ .hidden → c.value i = c'.value i

section Shown

variable {c c' : Cfg}

/-! ## Reading and setting -/

theorem SameShown.cfgGet (same : SameShown c c') {id : Nat}
    (shown : ∀ k ∈ cfgKeyById id, k.web ≠ .hidden) :
    cfgGet c id = cfgGet c' id := by
  unfold CfgStore.cfgGet
  cases found : cfgIndexById id with
  | none => rfl
  | some i =>
      have key : cfgKeyById id = some (cfgKeys i) := by
        unfold cfgKeyById
        rw [found]
        rfl
      dsimp only
      rw [same.value i (shown _ key)]

theorem SameShown.getU32 (same : SameShown c c') {id : Nat}
    (shown : ∀ k ∈ cfgKeyById id, k.web ≠ .hidden) :
    getU32 c id = getU32 c' id := by
  unfold CfgStore.getU32
  rw [same.cfgGet shown]

theorem SameShown.getU8 (same : SameShown c c') {id : Nat}
    (shown : ∀ k ∈ cfgKeyById id, k.web ≠ .hidden) :
    getU8 c id = getU8 c' id := by
  unfold CfgStore.getU8
  rw [same.cfgGet shown]

/-- The cross-field rules look at no hidden value. -/
theorem SameShown.cfgValidate (same : SameShown c c') :
    cfgValidate c = cfgValidate c' := by
  unfold CfgStore.cfgValidate CfgStore.wanRules
  rw [same.getU32 (show ∀ k ∈ cfgKeyById CfgStore.idLanIp, _ by decide),
    same.getU32 (show ∀ k ∈ cfgKeyById CfgStore.idLanMask, _ by decide),
    same.getU32 (show ∀ k ∈ cfgKeyById CfgStore.idDhcpdStart, _ by decide),
    same.getU32 (show ∀ k ∈ cfgKeyById CfgStore.idDhcpdEnd, _ by decide),
    same.getU32 (show ∀ k ∈ cfgKeyById CfgStore.idWanIp, _ by decide),
    same.getU32 (show ∀ k ∈ cfgKeyById CfgStore.idWanMask, _ by decide),
    same.getU32 (show ∀ k ∈ cfgKeyById CfgStore.idWanGw, _ by decide),
    same.getU8 (show ∀ k ∈ cfgKeyById CfgStore.idWanMode, _ by decide)]

end Shown

/-! ## Storing -/

/-- Two configurations that differ in the bytes of the stored hash alone. -/
structure DifferInHash (c c' : Cfg) : Prop extends SameShown c c' where
  length : ∀ i, (c.value i).map List.length = (c'.value i).map List.length

theorem differInHash_refl (c : Cfg) : DifferInHash c c where
  seq := rfl
  source := rfl
  value _ _ := rfl
  length _ := rfl

/-- A hidden value is checked by its length alone. -/
theorem schemaCheckValue_hidden {i : Fin nkeys}
    (hidden : (cfgKeys i).web = .hidden) {v v' : List UInt8}
    (length : v.length = v'.length) :
    schemaCheckValue (cfgKeys i) v = schemaCheckValue (cfgKeys i) v' := by
  have bytes : ∀ i : Fin nkeys, (cfgKeys i).web = .hidden →
      (cfgKeys i).type = .bytes := by
    decide
  unfold schemaCheckValue
  rw [bytes i hidden]
  dsimp only
  rw [length]

/-- Two writers that have as much room left. -/
structure WritersAlike (w w' : Tlv.Writer) : Prop where
  length : w.buf.length = w'.buf.length
  cap : w.cap = w'.cap
  last : w.last = w'.last

/-- Two outcomes are the same refusal, or two results so related. -/
def OutcomesAlike {ε α β : Type} (Alike : α → β → Prop) :
    Except ε α → Except ε β → Prop
  | .ok a, .ok b => Alike a b
  | .error fault, .error fault' => fault = fault'
  | _, _ => False

theorem OutcomesAlike.cases {ε α β : Type} {Alike : α → β → Prop}
    {first : Except ε α} {second : Except ε β}
    (alike : OutcomesAlike Alike first second) :
    (∃ fault, first = .error fault ∧ second = .error fault) ∨
      ∃ a b, first = .ok a ∧ second = .ok b ∧ Alike a b := by
  cases first with
  | error fault =>
      cases second with
      | error fault' => exact Or.inl ⟨fault, rfl, congrArg _ alike.symm⟩
      | ok b => exact alike.elim
  | ok a =>
      cases second with
      | error fault => exact alike.elim
      | ok b => exact Or.inr ⟨a, b, rfl, rfl, alike⟩

theorem WritersAlike.write {w w' : Tlv.Writer} (alike : WritersAlike w w')
    (type : Nat) {v v' : List UInt8} (length : v.length = v'.length) :
    OutcomesAlike WritersAlike (Tlv.write w type v) (Tlv.write w' type v') := by
  unfold Tlv.write
  rw [alike.last, alike.cap, alike.length, length]
  dsimp only
  split_ifs
  · exact rfl
  · refine ⟨?_, rfl, rfl⟩
    dsimp only
    rw [List.length_append, List.length_append, Tlv.itemBytes_length,
      Tlv.itemBytes_length, alike.length, length]
  · exact rfl

/-- The two values that a key has: none, or two of one length that pass or fail
its check alike. -/
theorem DifferInHash.values {c c' : Cfg} (apart : DifferInHash c c')
    (i : Fin nkeys) :
    (c.value i = none ∧ c'.value i = none) ∨
      ∃ v v', c.value i = some v ∧ c'.value i = some v' ∧
        v.length = v'.length ∧
        schemaCheckValue (cfgKeys i) v = schemaCheckValue (cfgKeys i) v' := by
  have length := apart.length i
  cases first : c.value i with
  | none =>
      rw [first] at length
      exact Or.inl ⟨rfl, Option.map_eq_none_iff.mp length.symm⟩
  | some v =>
      rw [first] at length
      obtain ⟨v', second, same⟩ := Option.map_eq_some_iff.mp length.symm
      refine Or.inr ⟨v, v', rfl, second, same.symm, ?_⟩
      by_cases hidden : (cfgKeys i).web = .hidden
      · exact schemaCheckValue_hidden hidden same.symm
      · have values := apart.value i hidden
        rw [first, second] at values
        obtain rfl := Option.some.inj values
        rfl

/-- Two such configurations are encoded alike. -/
theorem DifferInHash.encodeKeys {c c' : Cfg} (apart : DifferInHash c c')
    (is : List (Fin nkeys)) {w w' : Tlv.Writer} (alike : WritersAlike w w') :
    OutcomesAlike WritersAlike (encodeKeys c is w) (encodeKeys c' is w') := by
  induction is generalizing w w' with
  | nil => exact alike
  | cons i rest ih =>
      unfold CfgStore.encodeKeys
      rcases apart.values i with
        ⟨first, second⟩ | ⟨v, v', first, second, length, check⟩
      · rw [first, second]
        exact ih alike
      · rw [first, second]
        dsimp only
        rw [← length, ← check]
        split_ifs
        · exact rfl
        · cases schemaCheckValue (cfgKeys i) v with
          | some rc => exact rfl
          | none =>
              dsimp only
              rcases (alike.write (cfgKeys i).id length).cases with
                ⟨fault, one, other⟩ | ⟨next, next', one, other, later⟩
              · rw [one, other]
                cases fault <;> exact rfl
              · rw [one, other]
                exact ih later

/-- Both have an image, or neither for the same reason. -/
theorem DifferInHash.slotImage {c c' : Cfg} (apart : DifferInHash c c')
    (seq : Nat) :
    OutcomesAlike (fun _ _ => True) (slotImage c seq) (slotImage c' seq) := by
  unfold CfgStore.slotImage encodeRecord
  split_ifs
  · exact rfl
  · exact rfl
  · have start : WritersAlike
        (Tlv.writerInit (min (slotSize - hdrLen) (slotSize - hdrLen)))
        (Tlv.writerInit (min (slotSize - hdrLen) (slotSize - hdrLen))) :=
      ⟨rfl, rfl, rfl⟩
    rcases (apart.encodeKeys (List.finRange nkeys) start).cases with
      ⟨fault, one, other⟩ | ⟨w, w', one, other, -⟩
    · rw [one, other]
      exact rfl
    · rw [one, other]
      exact trivial

end RlxFw.CfgStore
