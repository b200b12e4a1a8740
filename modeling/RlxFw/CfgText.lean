import RlxFw.DottedQuad
import RlxFw.Schema

/-!
# Configuration values as text

`src/lib/cfg.c`: `cfg_text_to_value` and `cfg_value_to_text`.  Each type has one
spelling, and the field rules decide last.
-/

namespace RlxFw.CfgText

open CfgStore (Err Key KeyType schemaCheckValue valMax)
open Decimal (IsDigit)

/-- The errors of the conversions: `CFGE_TEXT`, `CFGE_PERM`, and those of the
store. -/
inductive TextErr where
  | text
  | perm
  | store (rc : Err)
deriving DecidableEq, Repr

/-! ## From text -/

/-- The loop of `parse_u32`, `n` digits of it read with the value `v`. -/
def u32Digits (v n : Nat) : List UInt8 → Except TextErr Nat
  | [] => .ok v
  | c :: s =>
      if ¬ IsDigit c then .error .text
      else if v > (0xFFFFFFFF - (c.toNat - 0x30)) / 10 then .error .text
      else if n + 1 > 10 then .error .text
      else u32Digits (v * 10 + (c.toNat - 0x30)) (n + 1) s

/-- `parse_u32`. -/
def parseU32 (s : List UInt8) : Except TextErr Nat :=
  if s = [] then .error .text
  else if s.head? = some 0x30 ∧ s.tail ≠ [] then .error .text
  else u32Digits 0 0 s

/-- The digits of a field of `parse_ipv4`: its value, their number, and the rest. -/
def fieldDigits (o digits : Nat) : List UInt8 → Except TextErr (Nat × Nat × List UInt8)
  | [] => .ok (o, digits, [])
  | c :: s =>
      if IsDigit c then
        if digits + 1 > 3 then .error .text
        else fieldDigits (o * 10 + (c.toNat - 0x30)) (digits + 1) s
      else .ok (o, digits, c :: s)

/-- A field of `parse_ipv4`, and what follows it. -/
def field (s : List UInt8) : Except TextErr (UInt8 × List UInt8) :=
  if s.head? = some 0x30 ∧ s.tail.head?.any (fun c => IsDigit c) then .error .text
  else
    match fieldDigits 0 0 s with
    | .error e => .error e
    | .ok (o, digits, s) =>
        if digits = 0 ∨ o > 255 then .error .text else .ok (UInt8.ofNat o, s)

/-- The fields that are left, `part` of them read. -/
def fields (part : Nat) : Nat → List UInt8 → Except TextErr (List UInt8)
  | 0, s => if s = [] then .ok [] else .error .text
  | left + 1, s =>
      if part > 0 ∧ s.head? ≠ some 0x2E then .error .text
      else
        match field (if part > 0 then s.tail else s) with
        | .error e => .error e
        | .ok (o, s) => (fields (part + 1) left s).map (o :: ·)

/-- `parse_ipv4`. -/
def parseIpv4 (s : List UInt8) : Except TextErr (List UInt8) := fields 0 4 s

/-- `hexval`. -/
def hexval (c : UInt8) : Option Nat :=
  if 0x30 ≤ c ∧ c ≤ 0x39 then some (c.toNat - 0x30)
  else if 0x61 ≤ c ∧ c ≤ 0x66 then some (c.toNat - 0x61 + 10)
  else if 0x41 ≤ c ∧ c ≤ 0x46 then some (c.toNat - 0x41 + 10)
  else none

/-- The bytes of hex digits, two for a byte. -/
def hexBytes : List UInt8 → Except TextErr (List UInt8)
  | high :: low :: s =>
      match hexval high, hexval low with
      | some hi, some lo => (hexBytes s).map (UInt8.ofNat (hi <<< 4 ||| lo) :: ·)
      | _, _ => .error .text
  | _ => .ok []

/-- A value of a type, before the field rules. -/
def typedValue (text : List UInt8) : KeyType → Except TextErr (List UInt8)
  | .bool | .enum =>
      match parseU32 text with
      | .error e => .error e
      | .ok n => if n > 255 then .error (.store .range) else .ok [UInt8.ofNat n]
  | .u16 =>
      match parseU32 text with
      | .error e => .error e
      | .ok n => if n > 0xFFFF then .error (.store .range) else .ok (Tlv.putBe16 n)
  | .u32 =>
      match parseU32 text with
      | .error e => .error e
      | .ok n => .ok (Tlv.putBe32 n)
  | .ipv4 => parseIpv4 text
  | .str => if text.length > valMax then .error (.store .type) else .ok text
  | .bytes =>
      if text.length % 2 ≠ 0 ∨ text.length / 2 > valMax then .error .text
      else hexBytes text

/-- `cfg_text_to_value`. -/
def cfgTextToValue (k : Key) (text : List UInt8) : Except TextErr (List UInt8) :=
  match typedValue text k.type with
  | .error e => .error e
  | .ok v =>
      match schemaCheckValue k v with
      | some rc => .error (.store rc)
      | none => .ok v

/-! ## To text -/

/-- The digits of `cfg_value_to_hex`. -/
def hexDigits : List UInt8 := ascii "0123456789abcdef"

/-- `cfg_value_to_hex` into a buffer of `n` bytes. -/
def cfgValueToHex (v : List UInt8) (n : Nat) : Except TextErr (List UInt8) :=
  if n < v.length * 2 + 1 then .error (.store .space)
  else
    .ok (v.flatMap fun b =>
      [byteAt hexDigits (b.toNat >>> 4 &&& 0x0F), byteAt hexDigits (b.toNat &&& 0x0F)])

/-- What `snprintf` printed, the whole of which has to fit with its NUL. -/
def printed (text : List UInt8) (n : Nat) : Except TextErr (List UInt8) :=
  if text.length ≥ n then .error (.store .space) else .ok text

/-- `cfg_value_to_text` into a buffer of `n` bytes. -/
def cfgValueToText (k : Key) (v : List UInt8) (n : Nat) : Except TextErr (List UInt8) :=
  if n = 0 then .error (.store .space)
  else if k.web = .hidden then .error .perm
  else if schemaCheckValue k v ≠ none then .error (.store .type)
  else
    match k.type with
    | .bool | .enum => printed (Decimal.text (byteAt v 0).toNat) n
    | .u16 => printed (Decimal.text (Tlv.getBe16 (ByteMap.ofList v 0) 0)) n
    | .u32 => printed (Decimal.text (Tlv.getBe32 (ByteMap.ofList v 0) 0)) n
    | .ipv4 =>
        printed
          (Decimal.text (byteAt v 0).toNat ++ 0x2E :: Decimal.text (byteAt v 1).toNat ++
            0x2E :: Decimal.text (byteAt v 2).toNat ++
              0x2E :: Decimal.text (byteAt v 3).toNat) n
    | .str => if n < v.length + 1 then .error (.store .space) else .ok v
    | .bytes => cfgValueToHex v n

example : cfgTextToValue (CfgStore.cfgKeys 1) (ascii "10.1.1.1") = .ok [10, 1, 1, 1] := by
  decide
example : cfgTextToValue (CfgStore.cfgKeys 1) (ascii "10.1.1.01") = .error .text := by
  decide

/-! ## Numbers -/

theorem u32Digits_eq_ok {v n m : Nat} {s : List UInt8} (small : v < 2 ^ 32) :
    u32Digits v n s = .ok m ↔
      (∀ c ∈ s, IsDigit c) ∧ (s = [] ∨ n + s.length ≤ 10) ∧ Decimal.value v s = m ∧
        m < 2 ^ 32 := by
  induction s generalizing v n with
  | nil =>
      simp only [u32Digits, Decimal.value, List.foldl_nil, Except.ok.injEq]
      grind
  | cons c s ih =>
      have here : Decimal.value v (c :: s) =
          Decimal.value (v * 10 + (c.toNat - 0x30)) s := rfl
      have least := Decimal.le_value (v * 10 + (c.toNat - 0x30)) s
      rw [u32Digits, here, List.forall_mem_cons, List.length_cons]
      by_cases digit : IsDigit c
      · have digitLess : c.toNat - 0x30 < 10 := (Decimal.isDigit_value c digit).1
        rw [if_neg (not_not_intro digit)]
        by_cases wraps : v > (0xFFFFFFFF - (c.toNat - 0x30)) / 10
        · rw [if_pos wraps]
          constructor
          · exact nofun
          · rintro ⟨-, -, isValue, less⟩
            omega
        · rw [if_neg wraps]
          by_cases long : n + 1 > 10
          · rw [if_pos long]
            constructor
            · exact nofun
            · rintro ⟨-, few, -⟩
              simp at few
              omega
          · rw [if_neg long, ih (by omega)]
            constructor
            · rintro ⟨all, few, isValue, less⟩
              refine ⟨⟨digit, all⟩, .inr ?_, isValue, less⟩
              rcases few with rfl | few
              · exact Nat.le_of_not_gt long
              · rwa [Nat.add_right_comm] at few
            · rintro ⟨⟨-, all⟩, few, isValue, less⟩
              simp at few
              exact ⟨all, .inr (by omega), isValue, less⟩
      · rw [if_pos digit]
        constructor
        · exact nofun
        · rintro ⟨⟨isDigit, -⟩, -⟩
          exact absurd isDigit digit

/-- `parse_u32` accepts the texts of the numbers below 2 ^ 32. -/
theorem parseU32_eq_ok {s : List UInt8} {n : Nat} :
    parseU32 s = .ok n ↔ s = Decimal.text n ∧ n < 2 ^ 32 := by
  unfold parseU32
  constructor
  · intro parsed
    split at parsed
    · cases parsed
    split at parsed
    · cases parsed
    next some_ single =>
      obtain ⟨all, -, isValue, less⟩ := (u32Digits_eq_ok (by decide)).mp parsed
      refine ⟨?_, less⟩
      rw [← isValue]
      refine ((Decimal.text_value_iff all).mpr ⟨some_, fun zero => ?_⟩).symm
      have alone : s.tail = [] := by
        by_contra more
        exact single ⟨zero, more⟩
      cases s with
      | nil => exact absurd rfl some_
      | cons c s => simpa using alone
  · rintro ⟨rfl, less⟩
    have all := Decimal.isDigit_text n
    have canonical : Decimal.text (Decimal.value 0 (Decimal.text n)) = Decimal.text n := by
      rw [Decimal.value_text]
    obtain ⟨some_, lead⟩ := (Decimal.text_value_iff all).mp canonical
    rw [if_neg some_, if_neg]
    · have few : (Decimal.text n).length ≤ 10 :=
        Decimal.length_text_le (by decide) (by omega)
      exact (u32Digits_eq_ok (by decide)).mpr
        ⟨all, .inr (by omega), Decimal.value_text n, less⟩
    · rintro ⟨zero, more⟩
      have single := lead zero
      cases isText : Decimal.text n with
      | nil => exact some_ isText
      | cons c rest =>
          rw [isText] at single more
          exact more (by simpa using single)

/-! ## Addresses -/

theorem fieldDigits_eq (o digits : Nat) (s : List UInt8) :
    fieldDigits o digits s =
      if DottedQuad.digits s ≠ [] ∧ digits + (DottedQuad.digits s).length > 3 then .error .text
      else
        .ok (Decimal.value o (DottedQuad.digits s), digits + (DottedQuad.digits s).length,
          DottedQuad.after s) := by
  induction s generalizing o digits with
  | nil => simp [fieldDigits, Decimal.value]
  | cons c s ih =>
      rw [fieldDigits]
      by_cases digit : IsDigit c
      · obtain ⟨front, back⟩ := DottedQuad.digits_of_isDigit (s := s) digit
        rw [if_pos digit, front, back, ih]
        simp only [ne_eq, reduceCtorEq, not_false_eq_true, true_and, List.length_cons]
        have value : Decimal.value o (c :: DottedQuad.digits s) =
            Decimal.value (o * 10 + (c.toNat - 0x30)) (DottedQuad.digits s) := rfl
        rw [value]
        by_cases none : DottedQuad.digits s = []
        · simp [none]
        · grind
      · obtain ⟨front, back⟩ := DottedQuad.digits_of_not_isDigit (s := s) digit
        rw [if_neg digit, front, back]
        rfl

/-- A field is an octet in its one spelling. -/
theorem field_eq_ok {s rest : List UInt8} {x : UInt8} :
    field s = .ok (x, rest) ↔ DottedQuad.octet s = some (x, rest) := by
  unfold field
  rw [fieldDigits_eq]
  by_cases zero : s.head? = some 0x30 ∧ s.tail.head?.any (fun c => IsDigit c)
  · rw [if_pos zero,
      DottedQuad.octet_eq_none (.inr (.inl (DottedQuad.zero_then_digit.mp zero)))]
    simp
  · rw [if_neg zero]
    rw [DottedQuad.zero_then_digit] at zero
    by_cases long : DottedQuad.digits s ≠ [] ∧ 0 + (DottedQuad.digits s).length > 3
    · rw [if_pos long, DottedQuad.octet_eq_none (.inr (.inr (.inl (by omega))))]
      simp
    · rw [if_neg long]
      dsimp only
      by_cases bad : 0 + (DottedQuad.digits s).length = 0 ∨
          Decimal.value 0 (DottedQuad.digits s) > 255
      · have refused : DottedQuad.Refused s := by
          rcases bad with none | large
          · exact .inl (List.length_eq_zero_iff.mp (by omega))
          · exact .inr (.inr (.inr large))
        rw [if_pos bad, DottedQuad.octet_eq_none refused]
        simp
      · have checked : ¬ DottedQuad.Refused s := by
          rintro (none | lead | three | large)
          · exact bad (.inl (by rw [none]; rfl))
          · exact zero lead
          · exact long ⟨List.ne_nil_of_length_pos (by omega), by omega⟩
          · exact bad (.inr large)
        rw [if_neg bad, DottedQuad.octet_of_checks checked]
        simp

/-- A field and those that are left. -/
theorem field_fields_eq_ok {part left : Nat}
    (rest : ∀ s v, fields (part + 1) left s = .ok v ↔ DottedQuad.more left s = some v)
    (s v : List UInt8) :
    (match field s with
      | .error e => .error e
      | .ok (o, s) => (fields (part + 1) left s).map (o :: ·)) = Except.ok v ↔
      (DottedQuad.octet s).bind
        (fun found => (DottedQuad.more left found.2).map (found.1 :: ·)) = some v := by
  constructor
  · intro parsed
    rcases read : field s with e | ⟨o, after⟩
    · rw [read] at parsed
      cases parsed
    · rw [read] at parsed
      dsimp only at parsed
      rcases more : fields (part + 1) left after with e | later
      · rw [more] at parsed
        cases parsed
      · rw [more] at parsed
        rw [field_eq_ok.mp read, Option.bind_some, (rest after later).mp more]
        exact congrArg some (Except.ok.inj parsed)
  · intro found
    obtain ⟨⟨o, after⟩, here, tail⟩ := Option.bind_eq_some_iff.mp found
    obtain ⟨later, more, rfl⟩ := Option.map_eq_some_iff.mp tail
    rw [field_eq_ok.mpr here]
    dsimp only
    rw [(rest after later).mpr more]
    rfl

theorem fields_eq_ok {part left : Nat} (later : part > 0) (s v : List UInt8) :
    fields part left s = .ok v ↔ DottedQuad.more left s = some v := by
  induction left generalizing part s v with
  | zero =>
      unfold fields DottedQuad.more
      split <;> simp
  | succ left ih =>
      rw [fields, DottedQuad.more]
      by_cases dot : s.head? = some 0x2E
      · rw [if_neg (fun other => other.2 dot), if_pos dot, if_pos later]
        exact field_fields_eq_ok (ih (Nat.succ_pos part)) s.tail v
      · rw [if_pos ⟨later, dot⟩, if_neg dot]
        simp

/-- `parse_ipv4` accepts the texts of four octets. -/
theorem parseIpv4_eq_ok {s v : List UInt8} :
    parseIpv4 s = .ok v ↔ v.length = 4 ∧ s = DottedQuad.text v := by
  rw [← DottedQuad.read_eq_some, parseIpv4, fields, if_neg (fun first => nomatch first.1),
    if_neg (by decide)]
  exact field_fields_eq_ok (fields_eq_ok (by decide)) s v

end RlxFw.CfgText
