import RlxFw.CfgValid
import RlxFw.DottedQuad
import RlxFw.HttpRoutes
import RlxFw.JsonText

/-!
# Values through the web

What `h_config_get` makes of a stored value, `member_to_value` takes back to the value.
-/

namespace RlxFw.Httpd

open Broker (protoBe16 protoBe32)
open CfgStore (Key KeyType cfgKeys nkeys schemaCheckValue)
open Json (Member Value Writer PlainString PlainValue PlainMember PlainKey quoteByte strMax)

/-! ## Addresses -/

theorem octetText_eq (x : UInt8) : octetText x = Decimal.text x.toNat := by
  unfold octetText
  split
  next zero => rw [zero]; rfl
  next pos =>
    have small : x.toNat < 256 := x.toNat_lt
    have pos' : 0 < x.toNat := by
      rcases Nat.eq_zero_or_pos x.toNat with zero | pos'
      · exact absurd (UInt8.toNat_inj.mp zero) pos
      · exact pos'
    rw [Json.numDigits_eq pos' (by omega), List.append_nil]

theorem octetDigits_eq (v d : Nat) (s : List UInt8) :
    octetDigits v d s =
      if DottedQuad.digits s ≠ [] ∧
          (d + (DottedQuad.digits s).length > 3 ∨
            Decimal.value v (DottedQuad.digits s) > 255) then none
      else
        some (Decimal.value v (DottedQuad.digits s), d + (DottedQuad.digits s).length,
          DottedQuad.after s) := by
  induction s generalizing v d with
  | nil => simp [octetDigits, Decimal.value]
  | cons c s ih =>
      rw [octetDigits]
      by_cases digit : Decimal.IsDigit c
      · obtain ⟨front, back⟩ := DottedQuad.digits_of_isDigit (s := s) digit
        have value : Decimal.value v (c :: DottedQuad.digits s) =
            Decimal.value (v * 10 + (c.toNat - 0x30)) (DottedQuad.digits s) := rfl
        have least := Decimal.le_value (v * 10 + (c.toNat - 0x30)) (DottedQuad.digits s)
        rw [if_pos (show 0x30 ≤ c ∧ c ≤ 0x39 from digit), front, back, value]
        dsimp only
        rw [ih]
        simp only [ne_eq, reduceCtorEq, not_false_eq_true, true_and, List.length_cons]
        by_cases none : DottedQuad.digits s = []
        · simp [none, Decimal.value]
          grind
        · grind
      · obtain ⟨front, back⟩ := DottedQuad.digits_of_not_isDigit (s := s) digit
        rw [if_neg (show ¬ (0x30 ≤ c ∧ c ≤ 0x39) from digit), front, back]
        rfl

/-- An octet of `parse_ipv4` is an octet in its one spelling. -/
theorem octet_eq (s : List UInt8) : octet s = DottedQuad.octet s := by
  unfold octet
  rw [octetDigits_eq, Nat.zero_add]
  by_cases large : DottedQuad.digits s ≠ [] ∧
      ((DottedQuad.digits s).length > 3 ∨ Decimal.value 0 (DottedQuad.digits s) > 255)
  · rw [if_pos large, DottedQuad.octet_eq_none (.inr (.inr large.2))]
  · rw [if_neg large]
    dsimp only
    by_cases none : (DottedQuad.digits s).length = 0
    · rw [if_pos none, DottedQuad.octet_eq_none (.inl (List.length_eq_zero_iff.mp none))]
    · have some_ : DottedQuad.digits s ≠ [] := mt List.length_eq_zero_iff.mpr none
      have lead : byteAt s 0 = 0x30 ↔ (DottedQuad.digits s).head? = some 0x30 := by
        rw [DottedQuad.head?_of_digits some_]
        cases s with
        | nil => exact absurd rfl some_
        | cons c s => simp [byteAt]
      rw [if_neg none]
      by_cases zero : (DottedQuad.digits s).length > 1 ∧ byteAt s 0 = 0x30
      · rw [if_pos zero,
          DottedQuad.octet_eq_none (.inr (.inl ⟨lead.mp zero.2, zero.1⟩))]
      · have checked : ¬ DottedQuad.Refused s := by
          rintro (empty | led | over_)
          · exact some_ empty
          · exact zero ⟨led.2, lead.mpr led.1⟩
          · exact large ⟨some_, over_⟩
        rw [if_neg zero, DottedQuad.octet_of_checks checked]

theorem parseOctets_eq {left : Nat} {out : List UInt8} (later : out ≠ [])
    (s : List UInt8) :
    parseOctets left out s = (DottedQuad.more left s).map (out ++ ·) := by
  induction left generalizing out s with
  | zero =>
      unfold parseOctets DottedQuad.more
      split <;> simp
  | succ left ih =>
      rw [parseOctets, DottedQuad.more, if_neg later]
      by_cases dot : s.head? = some 0x2E
      · rw [if_pos dot, if_pos dot]
        dsimp only
        rw [octet_eq]
        rcases DottedQuad.octet s.tail with - | ⟨x, rest⟩
        · rfl
        · dsimp only
          rw [ih (by simp), Option.bind_some, Option.map_map]
          congr 1
          funext later
          simp
      · rw [if_neg dot, if_neg dot]
        rfl

/-- `parse_ipv4` accepts the texts of four octets. -/
theorem parseIpv4_eq (s : List UInt8) : parseIpv4 s = DottedQuad.read s := by
  rw [parseIpv4, parseOctets, if_pos rfl]
  dsimp only
  rw [octet_eq, DottedQuad.read]
  rcases DottedQuad.octet s with - | ⟨x, rest⟩
  · rfl
  · exact parseOctets_eq (List.cons_ne_nil _ _) rest

/-- An address, written. -/
theorem ipToText_eq (v : List UInt8) {cap : Nat} (room : 16 ≤ cap) :
    ipToText v cap =
      DottedQuad.text [byteAt v 0, byteAt v 1, byteAt v 2, byteAt v 3] := by
  have isText : octetText (byteAt v 0) ++ 0x2E :: octetText (byteAt v 1) ++ 0x2E ::
      octetText (byteAt v 2) ++ 0x2E :: octetText (byteAt v 3) =
        DottedQuad.text [byteAt v 0, byteAt v 1, byteAt v 2, byteAt v 3] := by
    simp [DottedQuad.text, DottedQuad.dotted, octetText_eq]
  have short := DottedQuad.length_text_le
    (show [byteAt v 0, byteAt v 1, byteAt v 2, byteAt v 3].length = 4 from rfl)
  unfold ipToText
  rw [isText]
  exact List.take_of_length_le (short.trans (by omega))

theorem ipToText_of_length {v : List UInt8} {cap : Nat} (four : v.length = 4)
    (room : 16 ≤ cap) : ipToText v cap = DottedQuad.text v := by
  obtain ⟨a, b, c, d, rfl⟩ : ∃ a b c d, v = [a, b, c, d] := by
    match v, four with
    | [a, b, c, d], _ => exact ⟨a, b, c, d, rfl⟩
  exact ipToText_eq _ room

/-- `parse_ipv4` takes the text of an address back to it. -/
theorem parseIpv4_ipToText {v : List UInt8} (four : v.length = 4) :
    parseIpv4 (ipToText v 16) = some v := by
  rw [parseIpv4_eq, ipToText_of_length four le_rfl]
  exact DottedQuad.read_eq_some.mpr ⟨four, rfl⟩

theorem quoteByte_ipToText (v : List UInt8) : ∀ c ∈ ipToText v 16, quoteByte c = some [c] := by
  have plain : ∀ c, Decimal.IsDigit c ∨ c = 0x2E → quoteByte c = some [c] := by
    apply forall_byte
    decide
  rw [ipToText_eq v le_rfl]
  exact fun c member => plain c (DottedQuad.digit_or_dot c member)

theorem length_ipToText_le (v : List UInt8) : (ipToText v 16).length ≤ 15 :=
  List.length_take_le _ _

/-! ## Values -/

/-- The value of a member that `h_config_get` writes. -/
def shownValue (k : Key) (v : List UInt8) : Value :=
  match k.type with
  | .bool => .bool (byteAt v 0 ≠ 0)
  | .enum => .num (byteAt v 0).toNat
  | .u16 => .num (protoBe16 v 0)
  | .u32 => .num (protoBe32 v 0)
  | .ipv4 => .str (ipToText v 16)
  | .str => .str v
  | .bytes => .null

/-- A key of the web: what its row of the table says of its type. -/
structure WebKey (k : Key) : Prop where
  name : PlainKey k.name
  type : k.type ≠ .bytes
  bool : k.type = .bool → k.max = 1
  str : k.type = .str → k.id = CfgStore.idHostname ∧ k.max = CfgStore.hostnameMax

instance (key : List UInt8) : Decidable (PlainKey key) :=
  decidable_of_iff (0 < key.length ∧ key.length ≤ strMax ∧
      key.all (fun c => quoteByte c == some [c]) = true)
    ⟨fun all => ⟨all.1, all.2.1, by simpa using all.2.2⟩,
      fun plain => ⟨plain.pos, plain.short, by simpa using plain.raw⟩⟩

theorem webKey_of_shown {i : Fin nkeys} (shown : (cfgKeys i).web ≠ .hidden) :
    WebKey (cfgKeys i) := by
  have name : ∀ i : Fin nkeys, (cfgKeys i).web ≠ .hidden → PlainKey (cfgKeys i).name := by
    decide
  have rows : ∀ i : Fin nkeys, (cfgKeys i).web ≠ .hidden → (cfgKeys i).type ≠ .bytes ∧
      ((cfgKeys i).type = .bool → (cfgKeys i).max = 1) ∧
      ((cfgKeys i).type = .str → (cfgKeys i).id = CfgStore.idHostname ∧
        (cfgKeys i).max = CfgStore.hostnameMax) := by
    decide
  obtain ⟨type, bool, str⟩ := rows i shown
  exact ⟨name i shown, type, bool, str⟩

/-- What the check of a value says of it, type by type. -/
def Shape (k : Key) (v : List UInt8) : Prop :=
  match k.type with
  | .bool | .enum => v.length = 1 ∧ k.min ≤ (byteAt v 0).toNat ∧ (byteAt v 0).toNat ≤ k.max
  | .u16 => v.length = 2 ∧ k.min ≤ protoBe16 v 0 ∧ protoBe16 v 0 ≤ k.max
  | .u32 => v.length = 4 ∧ k.min ≤ protoBe32 v 0 ∧ protoBe32 v 0 ≤ k.max
  | .ipv4 => v.length = 4
  | .str => k.min ≤ v.length ∧ v.length ≤ k.max ∧
      (k.id = CfgStore.idHostname → CfgStore.hostnameOk v = true)
  | .bytes => True

theorem bounds_of_check {k : Key} {n : Nat} (checked : CfgStore.boundsCheck k n = none) :
    k.min ≤ n ∧ n ≤ k.max := by
  unfold CfgStore.boundsCheck at checked
  split at checked
  · cases checked
  next inside => omega

theorem shape_of_checked {k : Key} {v : List UInt8} (checked : schemaCheckValue k v = none) :
    Shape k v := by
  unfold schemaCheckValue at checked
  split at checked
  · cases checked
  unfold Shape
  cases type : k.type <;> simp only [type] at checked ⊢
  case bool | u16 | u32 | enum =>
    split at checked
    · cases checked
    next length => exact ⟨not_not.mp length, bounds_of_check checked⟩
  case ipv4 =>
    split at checked
    · cases checked
    next length => exact not_not.mp length
  case str =>
    split at checked
    · cases checked
    next inside =>
      refine ⟨by omega, by omega, fun isHostname => ?_⟩
      rw [if_pos isHostname] at checked
      split at checked
      · assumption
      · cases checked

section Values

variable {k : Key} {v : List UInt8}

theorem quoteByte_hostname (ok : CfgStore.hostnameOk v = true) :
    ∀ c ∈ v, (quoteByte c).isSome = true := by
  have each : ∀ c : UInt8, (decide (0x41 ≤ c ∧ c ≤ 0x5A) || decide (0x61 ≤ c ∧ c ≤ 0x7A) ||
      decide (0x30 ≤ c ∧ c ≤ 0x39) || c == 0x2D) = true → (quoteByte c).isSome = true := by
    apply forall_byte
    decide
  unfold CfgStore.hostnameOk at ok
  rw [Bool.and_eq_true, List.all_eq_true] at ok
  exact fun c member => each c (ok.2 c member)

theorem protoBe16_lt (body : List UInt8) (off : Nat) : protoBe16 body off < 2 ^ 16 :=
  Tlv.getBe16_lt _ _

theorem protoBe32_lt (body : List UInt8) (off : Nat) : protoBe32 body off < 2 ^ 32 := by
  have high := Tlv.getBe16_lt (ByteMap.ofList body 0) off
  have low := Tlv.getBe16_lt (ByteMap.ofList body 0) (off + 2)
  unfold Broker.protoBe32 Tlv.getBe32
  omega

/-- Every value that is shown goes through the writer and the reader. -/
theorem plainValue_shown (webKey : WebKey k) (shape : Shape k v) :
    PlainValue (shownValue k v) := by
  unfold Shape at shape
  unfold shownValue
  cases type : k.type <;> simp only [type] at shape ⊢
  case bool => trivial
  case u16 =>
    have := protoBe16_lt v 0
    change protoBe16 v 0 < 2 ^ 32
    omega
  case u32 => exact protoBe32_lt v 0
  case ipv4 =>
    refine ⟨(length_ipToText_le v).trans (by decide), fun c member => ?_⟩
    rw [quoteByte_ipToText v c member]
    rfl
  case str =>
    obtain ⟨isHostname, most⟩ := webKey.str type
    rw [most] at shape
    exact ⟨shape.2.1.trans (by decide), quoteByte_hostname (shape.2.2 isHostname)⟩
  case enum =>
    have := (byteAt v 0).toNat_lt
    change (byteAt v 0).toNat < 2 ^ 32
    omega
  case bytes => trivial

/-- `h_config_get` writes a stored value as a member. -/
theorem writeShown_eq (webKey : WebKey k) (shape : Shape k v) (w : Writer) :
    writeShown w k v = w.member ⟨k.name, shownValue k v⟩ := by
  unfold Shape at shape
  unfold writeShown shownValue
  cases type : k.type <;> simp only [type] at shape ⊢
  case bool => rw [if_pos shape.1]; rfl
  case u16 => rw [if_pos shape.1]; rfl
  case u32 => rw [if_pos shape.1]; rfl
  case ipv4 =>
    have noNul : cString (ipToText v 16) = ipToText v 16 := by
      apply List.takeWhile_eq_self_iff.mpr
      intro c member
      have plain := quoteByte_ipToText v c member
      rw [bne_iff_ne]
      rintro rfl
      exact absurd plain (by decide)
    rw [if_pos shape, jsonStr, noNul]
    rfl
  case str =>
    obtain ⟨-, most⟩ := webKey.str type
    rw [most] at shape
    rw [if_pos (shape.2.1.trans (by decide))]
    rfl
  case enum => rw [if_pos shape.1]; rfl
  case bytes => exact absurd type webKey.type

theorem length_quoted_le (s : List UInt8) :
    (s.flatMap fun c => (quoteByte c).getD []).length ≤ 2 * s.length := by
  have each (c : UInt8) : ((quoteByte c).getD []).length ≤ 2 := by
    unfold quoteByte
    split_ifs <;> simp
  induction s with
  | nil => exact Nat.zero_le _
  | cons c s ih =>
      have here := each c
      rw [List.flatMap_cons, List.length_append, List.length_cons]
      omega

/-- How long the text of a shown value is at most. -/
theorem length_shown_le (webKey : WebKey k) (shape : Shape k v) :
    (Json.valueText (shownValue k v)).length ≤ 66 := by
  have quoted (s : List UInt8) : (Json.valueText (.str s)).length ≤ 2 * s.length + 2 := by
    have := length_quoted_le s
    unfold Json.valueText
    rw [List.length_append, List.length_cons, List.length_singleton]
    omega
  have number {n : Nat} (small : n < 2 ^ 32) : (Json.valueText (.num n)).length ≤ 66 :=
    (Decimal.length_text_le (k := 10) (by decide) (by omega)).trans (by decide)
  have plain := plainValue_shown webKey shape
  unfold Shape at shape
  unfold shownValue at plain ⊢
  cases type : k.type <;> simp only [type] at shape plain ⊢
  case bool => cases decide (byteAt v 0 ≠ 0) <;> decide
  case u16 | u32 | enum => exact number plain
  case ipv4 =>
    have short := length_ipToText_le v
    have most := quoted (ipToText v 16)
    omega
  case str =>
    obtain ⟨-, most⟩ := webKey.str type
    have small : CfgStore.hostnameMax = 32 := rfl
    have length := quoted v
    omega
  case bytes => decide

theorem singleton_byteAt (one : v.length = 1) : [byteAt v 0] = v := by
  match v, one with
  | [b], _ => rfl

theorem slice_self {n : Nat} (length : v.length = n) : (ByteMap.ofList v 0).slice 0 n = v := by
  have whole := ByteMap.slice_ofList [] v [] 0
  rwa [List.append_nil, List.nil_append, length] at whole

/-- `member_to_value` takes what was shown back to the stored value. -/
theorem memberToValue_shown (webKey : WebKey k) (writable : k.web = .rw) (shape : Shape k v)
    (cap : Nat) (room : CfgStore.valMax ≤ cap) :
    memberToValue (shownValue k v) k cap = .ok v := by
  unfold CfgStore.valMax at room
  unfold Shape at shape
  unfold memberToValue shownValue
  rw [if_neg (not_not.mpr writable)]
  cases type : k.type <;> simp only [type] at shape ⊢
  case bool =>
    rw [if_neg (by omega)]
    obtain ⟨one, -, most⟩ := shape
    rw [webKey.bool type] at most
    have back : (if byteAt v 0 ≠ 0 then (1 : UInt8) else 0) = byteAt v 0 := by
      have bits : ∀ b : UInt8, b.toNat ≤ 1 → (if b ≠ 0 then (1 : UInt8) else 0) = b := by
        apply forall_byte
        decide
      exact bits _ most
    simp only [decide_eq_true_eq]
    rw [back, singleton_byteAt one]
  case u16 =>
    have small := protoBe16_lt v 0
    obtain ⟨two, least, most⟩ := shape
    rw [if_neg (by omega), if_neg (by omega)]
    unfold Broker.protoBe16
    rw [Tlv.putBe16_getBe16, slice_self two]
  case u32 =>
    obtain ⟨four, least, most⟩ := shape
    rw [if_neg (by omega), if_neg (by omega)]
    unfold Broker.protoBe32
    rw [Tlv.putBe32_getBe32, slice_self four]
  case ipv4 =>
    rw [if_neg (by omega), parseIpv4_ipToText shape]
  case str =>
    obtain ⟨least, most, -⟩ := shape
    have fits := (webKey.str type).2
    have small : CfgStore.hostnameMax = 32 := rfl
    rw [if_neg (by omega), if_neg (by omega)]
  case enum =>
    obtain ⟨one, -, most⟩ := shape
    rw [if_neg (by omega), if_neg (by omega), UInt8.ofNat_toNat, singleton_byteAt one]
  case bytes => exact absurd type webKey.type

end Values

end RlxFw.Httpd
