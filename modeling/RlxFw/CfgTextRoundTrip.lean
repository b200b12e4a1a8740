import RlxFw.CfgText

/-!
# Configuration text, there and back

A value that the schema accepts is printed as a text that is read back as the
value, and a text of a number or an address that is read is the one its value is
printed as.
-/

namespace RlxFw.CfgText

open CfgStore (Err Key KeyType schemaCheckValue valMax)

/-! ## Hexadecimal -/

/-- The two digits of a byte. -/
def hexPair (b : UInt8) : List UInt8 :=
  [byteAt hexDigits (b.toNat >>> 4 &&& 0x0F), byteAt hexDigits (b.toNat &&& 0x0F)]

theorem hexBytes_hexPair (b : UInt8) (s : List UInt8) :
    hexBytes (hexPair b ++ s) = (hexBytes s).map (b :: ·) := by
  have nibbles : ∀ b : UInt8,
      hexval (byteAt hexDigits (b.toNat >>> 4 &&& 0x0F)) = some (b.toNat >>> 4) ∧
        hexval (byteAt hexDigits (b.toNat &&& 0x0F)) = some (b.toNat &&& 0x0F) ∧
        UInt8.ofNat ((b.toNat >>> 4) <<< 4 ||| (b.toNat &&& 0x0F)) = b := by
    apply forall_byte
    decide
  obtain ⟨high, low, whole⟩ := nibbles b
  change hexBytes (_ :: _ :: s) = _
  rw [hexBytes, high, low]
  dsimp only
  rw [whole]

theorem hexBytes_flatMap (v : List UInt8) : hexBytes (v.flatMap hexPair) = .ok v := by
  induction v with
  | nil => rfl
  | cons b v ih =>
      rw [List.flatMap_cons, hexBytes_hexPair, ih]
      rfl

theorem length_flatMap_hexPair (v : List UInt8) : (v.flatMap hexPair).length = v.length * 2 := by
  induction v with
  | nil => rfl
  | cons b v ih =>
      rw [List.flatMap_cons, List.length_append, ih, List.length_cons]
      change 2 + v.length * 2 = _
      omega

theorem noNul_hexPair (b : UInt8) : (0 : UInt8) ∉ hexPair b := by
  revert b
  apply forall_byte
  decide

/-! ## What an accepted value is -/

theorem text_noNul (n : Nat) : (0 : UInt8) ∉ Decimal.text n :=
  fun member => absurd (Decimal.isDigit_text n 0 member) (by decide)

/-- The text of a value of a type. -/
def valueText (v : List UInt8) : KeyType → List UInt8
  | .bool | .enum => Decimal.text (byteAt v 0).toNat
  | .u16 => Decimal.text (Tlv.getBe16 (ByteMap.ofList v 0) 0)
  | .u32 => Decimal.text (Tlv.getBe32 (ByteMap.ofList v 0) 0)
  | .ipv4 => DottedQuad.text v
  | .str => v
  | .bytes => v.flatMap hexPair

/-- A value that the schema accepts has the shape of its type. -/
def Shaped (v : List UInt8) : KeyType → Prop
  | .bool | .enum => v.length = 1
  | .u16 => v.length = 2
  | .u32 | .ipv4 => v.length = 4
  | .str => v.length ≤ valMax ∧ 0 ∉ v
  | .bytes => v.length ≤ valMax

theorem hostname_noNul {v : List UInt8} (ok : CfgStore.hostnameOk v = true) : 0 ∉ v := by
  intro member
  unfold CfgStore.hostnameOk at ok
  rw [Bool.and_eq_true, List.all_eq_true] at ok
  exact absurd (ok.2 0 member) (by decide)

theorem shaped_of_checked {k : Key} {v : List UInt8} (checked : schemaCheckValue k v = none) :
    Shaped v k.type := by
  have short := CfgStore.length_le_of_checked checked
  have length {n : Nat} {rest : Option Err}
      (passed : (if v.length ≠ n then some Err.type else rest) = none) : v.length = n := by
    by_contra other
    rw [if_pos other] at passed
    cases passed
  unfold schemaCheckValue at checked
  rw [if_neg (Nat.not_lt.mpr short)] at checked
  cases isType : k.type <;> rw [isType] at checked <;> dsimp only at checked
  case str =>
    refine ⟨short, ?_⟩
    split at checked
    · cases checked
    split at checked
    · split at checked
      next ok => exact hostname_noNul ok
      · cases checked
    · split at checked
      · cases checked
      next noNul => simpa using noNul
  case bytes => exact short
  all_goals exact length checked

/-! ## There and back -/

theorem slice_whole {v : List UInt8} {n : Nat} (length : v.length = n) :
    (ByteMap.ofList v 0).slice 0 n = v := by
  have whole := ByteMap.slice_ofList [] v [] 0
  rwa [List.nil_append, List.append_nil, List.length_nil, length] at whole

theorem typedValue_number {n : Nat} (small : n < 2 ^ 32) :
    parseU32 (Decimal.text n) = .ok n :=
  parseU32_eq_ok.mpr ⟨rfl, small⟩

/-- A shaped value's text is read back as the value. -/
theorem typedValue_valueText {v : List UInt8} {type : KeyType} (shaped : Shaped v type) :
    typedValue (valueText v type) type = .ok v := by
  have byte (one : v.length = 1) :
      typedValue (Decimal.text (byteAt v 0).toNat) .bool = .ok v := by
    obtain ⟨b, rfl⟩ := List.length_eq_one_iff.mp one
    have less := b.toNat_lt
    change typedValue (Decimal.text b.toNat) .bool = _
    rw [typedValue, typedValue_number (by omega)]
    dsimp only
    rw [if_neg (by omega), UInt8.ofNat_toNat]
  cases type with
  | bool => exact byte shaped
  | enum => exact byte shaped
  | u16 =>
      have less := Tlv.getBe16_lt (ByteMap.ofList v 0) 0
      unfold valueText typedValue
      rw [typedValue_number (by omega)]
      dsimp only
      rw [if_neg (by omega), Tlv.putBe16_getBe16, slice_whole shaped]
  | u32 =>
      rw [valueText, typedValue, typedValue_number (Tlv.getBe32_lt _ 0)]
      dsimp only
      rw [Tlv.putBe32_getBe32, slice_whole shaped]
  | ipv4 => exact parseIpv4_eq_ok.mpr ⟨shaped, rfl⟩
  | str => exact if_neg (Nat.not_lt.mpr shaped.1)
  | bytes =>
      have short : v.length ≤ valMax := shaped
      have passes : ¬ ((v.flatMap hexPair).length % 2 ≠ 0 ∨
          (v.flatMap hexPair).length / 2 > valMax) := by
        rw [length_flatMap_hexPair]
        omega
      exact (if_neg passes).trans (hexBytes_flatMap v)

/-- A text of a number or an address is the text of the value read of it. -/
theorem valueText_of_typedValue {s v : List UInt8} {type : KeyType} (notStr : type ≠ .str)
    (notBytes : type ≠ .bytes) (read : typedValue s type = .ok v) :
    valueText v type = s := by
  have byte (read : typedValue s .bool = .ok v) : Decimal.text (byteAt v 0).toNat = s := by
    unfold typedValue at read
    rcases number : parseU32 s with e | n
    · rw [number] at read
      cases read
    · rw [number] at read
      dsimp only at read
      split at read
      · cases read
      next small =>
        obtain rfl := Except.ok.inj read
        change Decimal.text (UInt8.ofNat n).toNat = s
        rw [UInt8.toNat_ofNat_of_lt' (Nat.lt_succ_of_le (Nat.le_of_not_lt small))]
        exact (parseU32_eq_ok.mp number).1.symm
  cases type with
  | bool => exact byte read
  | enum => exact byte read
  | u16 =>
      unfold typedValue at read
      rcases number : parseU32 s with e | n
      · rw [number] at read
        cases read
      · rw [number] at read
        dsimp only at read
        split at read
        · cases read
        next small =>
          obtain rfl := Except.ok.inj read
          have back := @Tlv.getBe16_ofList n (by omega) [] [] 0
          rw [List.nil_append, List.append_nil, List.length_nil] at back
          unfold valueText
          rw [back]
          exact (parseU32_eq_ok.mp number).1.symm
  | u32 =>
      unfold typedValue at read
      rcases number : parseU32 s with e | n
      · rw [number] at read
        cases read
      · rw [number] at read
        obtain rfl := Except.ok.inj read
        obtain ⟨isText, small⟩ := parseU32_eq_ok.mp number
        have back := Tlv.getBe32_ofList small [] [] 0
        rw [List.nil_append, List.append_nil, List.length_nil] at back
        unfold valueText
        rw [back]
        exact isText.symm
  | ipv4 => exact (parseIpv4_eq_ok.mp read).2.symm
  | str => exact absurd rfl notStr
  | bytes => exact absurd rfl notBytes

theorem valueText_noNul {v : List UInt8} {type : KeyType} (shaped : Shaped v type) :
    0 ∉ valueText v type := by
  cases type with
  | bool | enum | u16 | u32 => exact text_noNul _
  | ipv4 => exact DottedQuad.noNul_text v
  | str => exact shaped.2
  | bytes =>
      intro member
      obtain ⟨b, -, inPair⟩ := List.mem_flatMap.mp member
      exact noNul_hexPair b inPair

theorem length_valueText_le {v : List UInt8} {type : KeyType} (shaped : Shaped v type) :
    (valueText v type).length ≤ 2 * valMax := by
  have number {n : Nat} (small : n < 2 ^ 32) : (Decimal.text n).length ≤ 2 * valMax :=
    (Decimal.length_text_le (k := 10) (by decide) (by omega)).trans (by decide)
  have byte : (Decimal.text (byteAt v 0).toNat).length ≤ 2 * valMax := by
    have less := (byteAt v 0).toNat_lt
    exact number (by omega)
  cases type with
  | bool => exact byte
  | enum => exact byte
  | u16 =>
      have less := Tlv.getBe16_lt (ByteMap.ofList v 0) 0
      exact number (by omega)
  | u32 => exact number (Tlv.getBe32_lt _ 0)
  | ipv4 => exact (DottedQuad.length_text_le shaped).trans (by decide)
  | str => exact shaped.1.trans (by decide)
  | bytes =>
      have short : v.length ≤ valMax := shaped
      change (v.flatMap hexPair).length ≤ _
      rw [length_flatMap_hexPair]
      omega

theorem printed_eq (text : List UInt8) (n : Nat) :
    printed text n = if text.length < n then .ok text else .error (.store .space) := by
  unfold printed
  by_cases room : text.length < n
  · rw [if_pos room, if_neg (Nat.not_le.mpr room)]
  · rw [if_neg room, if_pos (Nat.le_of_not_lt room)]

/-- What an accepted value of a key that is shown is printed as. -/
theorem cfgValueToText_eq {k : Key} {v : List UInt8} (shown : k.web ≠ .hidden)
    (checked : schemaCheckValue k v = none) (n : Nat) :
    cfgValueToText k v n =
      if (valueText v k.type).length < n then .ok (valueText v k.type)
      else .error (.store .space) := by
  have shaped := shaped_of_checked checked
  unfold cfgValueToText
  by_cases none : n = 0
  · rw [if_pos none, if_neg (by omega)]
  rw [if_neg none, if_neg shown, if_neg (not_not_intro checked)]
  cases isType : k.type with
  | bool => exact printed_eq _ n
  | enum => exact printed_eq _ n
  | u16 => exact printed_eq _ n
  | u32 => exact printed_eq _ n
  | ipv4 =>
      rw [isType] at shaped
      obtain ⟨a, b, c, d, rfl⟩ : ∃ a b c d, v = [a, b, c, d] := by
        match v, (shaped : v.length = 4) with
        | [a, b, c, d], _ => exact ⟨a, b, c, d, rfl⟩
      have isText : valueText [a, b, c, d] .ipv4 =
          Decimal.text a.toNat ++ 0x2E :: Decimal.text b.toNat ++
            0x2E :: Decimal.text c.toNat ++ 0x2E :: Decimal.text d.toNat := by
        simp [valueText, DottedQuad.text, DottedQuad.dotted]
      rw [isText]
      exact printed_eq _ n
  | str =>
      by_cases room : v.length < n
      · exact (if_neg (by omega)).trans (if_pos room).symm
      · exact (if_pos (by omega)).trans (if_neg room).symm
  | bytes =>
      have long := length_flatMap_hexPair v
      change cfgValueToHex v n =
        if (v.flatMap hexPair).length < n then .ok (v.flatMap hexPair) else _
      unfold cfgValueToHex
      by_cases room : v.length * 2 < n
      · rw [if_neg (by omega), long, if_pos room]
        rfl
      · rw [if_pos (by omega), long, if_neg room]

theorem cfgTextToValue_eq_ok {k : Key} {s v : List UInt8} :
    cfgTextToValue k s = .ok v ↔
      typedValue s k.type = .ok v ∧ schemaCheckValue k v = none := by
  unfold cfgTextToValue
  rcases typedValue s k.type with e | w
  · simp
  · dsimp only
    rcases checked : schemaCheckValue k w with - | rc
    · simp only [Except.ok.injEq]
      constructor
      · rintro rfl
        exact ⟨rfl, checked⟩
      · exact And.left
    · simp only [reduceCtorEq, Except.ok.injEq, false_iff, not_and]
      rintro rfl
      simp [checked]

/-- What holds of a key's values and their texts. -/
structure TextRoundTrips (k : Key) : Prop where
  /-- A value that the schema accepts has a text that is read back as the value, and
  is written into any buffer with room for it and its NUL. -/
  value : k.web ≠ .hidden → ∀ v, schemaCheckValue k v = none →
    ∃ text, text.length ≤ 2 * valMax ∧ 0 ∉ text ∧
      (∀ n, cfgValueToText k v n =
        if text.length < n then .ok text else .error (.store .space)) ∧
      cfgTextToValue k text = .ok v
  /-- A text that is accepted for a number, an enumeration, a boolean or an address
  is what its value is written as. -/
  text : k.web ≠ .hidden → k.type ≠ .str → k.type ≠ .bytes → ∀ s v,
    cfgTextToValue k s = .ok v → ∀ n, s.length < n → cfgValueToText k v n = .ok s
  /-- No value has two spellings. -/
  spelling : k.type ≠ .str → k.type ≠ .bytes → ∀ s t v,
    cfgTextToValue k s = .ok v → cfgTextToValue k t = .ok v → s = t
  /-- A hidden value is not written. -/
  hidden : k.web = .hidden → ∀ v n text, cfgValueToText k v n ≠ .ok text

/-- Configuration text round-trips, for every key, and of the keys in the table the
hidden one is neither a number nor an address. -/
theorem text_round_trips :
    (∀ k : Key, TextRoundTrips k) ∧
      ∀ i, (CfgStore.cfgKeys i).web = .hidden → (CfgStore.cfgKeys i).type = .bytes := by
  refine ⟨fun k => ?_, by decide⟩
  constructor
  case value =>
    intro shown v checked
    have shaped := shaped_of_checked checked
    exact ⟨valueText v k.type, length_valueText_le shaped, valueText_noNul shaped,
      cfgValueToText_eq shown checked,
      cfgTextToValue_eq_ok.mpr ⟨typedValue_valueText shaped, checked⟩⟩
  case text =>
    intro shown notStr notBytes s v accepted n room
    obtain ⟨read, checked⟩ := cfgTextToValue_eq_ok.mp accepted
    rw [cfgValueToText_eq shown checked, valueText_of_typedValue notStr notBytes read,
      if_pos room]
  case spelling =>
    intro notStr notBytes s t v first second
    rw [← valueText_of_typedValue notStr notBytes (cfgTextToValue_eq_ok.mp first).1,
      valueText_of_typedValue notStr notBytes (cfgTextToValue_eq_ok.mp second).1]
  case hidden =>
    intro hidden v n text written
    unfold cfgValueToText at written
    by_cases none : n = 0
    · rw [if_pos none] at written
      cases written
    · rw [if_neg none, if_pos hidden] at written
      cases written

end RlxFw.CfgText
