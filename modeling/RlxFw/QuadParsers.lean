import RlxFw.CfgText
import RlxFw.ConfigValues
import RlxFw.NetUtil

/-!
# The parsers of dotted quads

The store, the web server and the address tools read dotted quads with loops of
their own.  Each accepts the texts of four octets and nothing else, which are also
what the formatters write.
-/

namespace RlxFw

open Decimal (IsDigit)

namespace Net

/-! ## The address tools' -/

theorem digit_iff (c : UInt8) : digit c = true ↔ IsDigit c := by
  simp [digit, IsDigit]

theorem octetDigits_eq (digits v : Nat) (s : List UInt8) :
    octetDigits digits v s =
      if DottedQuad.digits s ≠ [] ∧ digits + (DottedQuad.digits s).length > 3 then
        .error .octlen
      else .ok (Decimal.value v (DottedQuad.digits s), DottedQuad.after s) := by
  induction s generalizing digits v with
  | nil => simp [octetDigits, Decimal.value]
  | cons c s ih =>
      rw [octetDigits]
      by_cases isDigit : IsDigit c
      · obtain ⟨front, back⟩ := DottedQuad.digits_of_isDigit (s := s) isDigit
        have value : Decimal.value v (c :: DottedQuad.digits s) =
            Decimal.value (v * 10 + (c.toNat - 0x30)) (DottedQuad.digits s) := rfl
        rw [if_pos ((digit_iff c).mpr isDigit), front, back, ih, value]
        simp only [ne_eq, reduceCtorEq, not_false_eq_true, true_and, List.length_cons]
        by_cases none : DottedQuad.digits s = []
        · simp [none]
        · grind
      · obtain ⟨front, back⟩ := DottedQuad.digits_of_not_isDigit (s := s) isDigit
        rw [if_neg (mt (digit_iff c).mp isDigit), front, back]
        rfl

/-- An octet of `nu_parse_ipv4_n`: in its one spelling, with a dot behind it or
nothing. -/
theorem octet_eq_ok {s rest : List UInt8} {v : Nat} :
    octet s = .ok (v, rest) ↔
      (∃ x, DottedQuad.octet s = some (x, rest) ∧ v = x.toNat) ∧
        ¬ rest.head?.any (· ≠ 0x2E) := by
  cases s with
  | nil => simp [octet, DottedQuad.octet_eq_none (s := []) (.inl rfl)]
  | cons c s =>
      by_cases isDigit : IsDigit c
      · have notDot : c ≠ 0x2E := by
          rintro rfl
          exact absurd isDigit (by decide)
        unfold octet
        dsimp only
        rw [if_neg notDot, if_neg (not_not_intro ((digit_iff c).mpr isDigit))]
        have zero_iff := DottedQuad.zero_then_digit (s := c :: s)
        have same : s.head?.any digit = s.head?.any (fun c => decide (IsDigit c)) := by
          congr 1
          funext d
          exact Bool.eq_iff_iff.mpr ((digit_iff d).trans decide_eq_true_iff.symm)
        rw [same]
        by_cases zero : c = 0x30 ∧ s.head?.any (fun c => IsDigit c)
        · have refused : DottedQuad.Refused (c :: s) :=
            .inr (.inl (zero_iff.mp ⟨congrArg some zero.1, zero.2⟩))
          rw [if_pos zero, DottedQuad.octet_eq_none refused]
          simp
        · have some_ : DottedQuad.digits (c :: s) ≠ [] := by
            rw [(DottedQuad.digits_of_isDigit isDigit).1]
            exact List.cons_ne_nil _ _
          have notLed := mt zero_iff.mpr fun led => zero ⟨Option.some.inj led.1, led.2⟩
          rw [if_neg zero, octetDigits_eq]
          by_cases long : DottedQuad.digits (c :: s) ≠ [] ∧
              0 + (DottedQuad.digits (c :: s)).length > 3
          · rw [if_pos long, DottedQuad.octet_eq_none (.inr (.inr (.inl (by omega))))]
            simp
          · rw [if_neg long]
            dsimp only
            by_cases large : 255 < Decimal.value 0 (DottedQuad.digits (c :: s))
            · rw [if_pos large, DottedQuad.octet_eq_none (.inr (.inr (.inr large)))]
              simp
            · have checked : ¬ DottedQuad.Refused (c :: s) := by
                rintro (empty | led | three | over_)
                · exact some_ empty
                · exact notLed led
                · exact long ⟨some_, by omega⟩
                · exact large over_
              rw [if_neg large, DottedQuad.octet_of_checks checked]
              have isValue : (UInt8.ofNat (Decimal.value 0 (DottedQuad.digits (c :: s)))).toNat =
                  Decimal.value 0 (DottedQuad.digits (c :: s)) :=
                UInt8.toNat_ofNat_of_lt' (Nat.lt_succ_of_le (Nat.le_of_not_lt large))
              by_cases other : (DottedQuad.after (c :: s)).head?.any (· ≠ 0x2E)
              · rw [if_pos other]
                constructor
                · exact nofun
                · rintro ⟨⟨x, same, -⟩, stops⟩
                  rw [(Prod.mk.inj (Option.some.inj same)).2] at other
                  exact absurd other stops
              · rw [if_neg other]
                constructor
                · intro same
                  obtain ⟨rfl, rfl⟩ := Prod.mk.inj (Except.ok.inj same)
                  exact ⟨⟨_, rfl, isValue.symm⟩, other⟩
                · rintro ⟨⟨x, same, rfl⟩, -⟩
                  obtain ⟨rfl, rfl⟩ := Prod.mk.inj (Option.some.inj same)
                  rw [isValue]
      · have refused : DottedQuad.Refused (c :: s) :=
          .inl (DottedQuad.digits_of_not_isDigit isDigit).1
        unfold octet
        dsimp only
        rw [DottedQuad.octet_eq_none refused]
        by_cases dot : c = 0x2E
        · rw [if_pos dot]
          simp
        · rw [if_neg dot, if_pos (mt (digit_iff c).mp isDigit)]
          simp

/-- The octets of an address, shifted in after others. -/
def shifted (acc : UInt32) (octets : List UInt8) : UInt32 :=
  octets.foldl (fun acc x => acc <<< 8 ||| UInt32.ofNat x.toNat) acc

/-- What is left after the last octet, or before another, is nothing or a dot. -/
theorem stops_of_more {left : Nat} {s v : List UInt8}
    (found : DottedQuad.more left s = some v) : ¬ s.head?.any (· ≠ 0x2E) := by
  obtain ⟨-, rfl⟩ := DottedQuad.more_eq_some.mp found
  cases v with
  | nil => simp [DottedQuad.dotted]
  | cons x v => simp [DottedQuad.dotted]

/-- An octet and those that are left, shifted in after `acc`. -/
theorem octet_octets_eq_ok {left : Nat} {acc : UInt32}
    (rest : ∀ acc ip s, octets acc left s = .ok ip ↔
      ∃ v, DottedQuad.more left s = some v ∧ ip = shifted acc v)
    {next : Nat → UInt32} (shift : ∀ x : UInt8, next x.toNat = acc <<< 8 ||| UInt32.ofNat x.toNat)
    (ip : UInt32) (s : List UInt8) :
    (match octet s with
      | .error e => .error e
      | .ok (x, after) => octets (next x) left after) = Except.ok ip ↔
      ∃ v, (DottedQuad.octet s).bind
        (fun found => (DottedQuad.more left found.2).map (found.1 :: ·)) = some v ∧
          ip = shifted acc v := by
  constructor
  · intro parsed
    rcases read : octet s with e | ⟨n, after⟩
    · rw [read] at parsed
      cases parsed
    · rw [read] at parsed
      obtain ⟨⟨x, here, rfl⟩, -⟩ := octet_eq_ok.mp read
      obtain ⟨v, more, rfl⟩ := (rest _ _ _).mp parsed
      refine ⟨x :: v, ?_, congrArg (fun acc => shifted acc v) (shift x)⟩
      rw [here, Option.bind_some, more]
      rfl
  · rintro ⟨v, found, rfl⟩
    obtain ⟨⟨x, after⟩, here, tail⟩ := Option.bind_eq_some_iff.mp found
    obtain ⟨later, more, rfl⟩ := Option.map_eq_some_iff.mp tail
    rw [octet_eq_ok.mpr ⟨⟨x, here, rfl⟩, stops_of_more more⟩]
    exact (rest _ _ _).mpr ⟨later, more, congrArg (fun acc => shifted acc later) (shift x).symm⟩

theorem octets_eq_ok (left : Nat) (acc ip : UInt32) (s : List UInt8) :
    octets acc left s = .ok ip ↔
      ∃ v, DottedQuad.more left s = some v ∧ ip = shifted acc v := by
  induction left generalizing acc ip s with
  | zero =>
      cases s with
      | nil => simp [octets, DottedQuad.more, shifted, eq_comm]
      | cons c s => simp [octets, DottedQuad.more]
  | succ left ih =>
      cases s with
      | nil => simp [octets, DottedQuad.more]
      | cons c s =>
          rw [octets, DottedQuad.more]
          by_cases dot : c = 0x2E
          · subst dot
            rw [if_neg (by decide), List.head?_cons, if_pos rfl, List.tail_cons]
            exact octet_octets_eq_ok ih (fun _ => rfl) ip s
          · rw [if_pos dot, List.head?_cons, if_neg (fun same => dot (Option.some.inj same))]
            simp

/-- `nu_parse_ipv4` accepts the texts of four octets, and shifts them together. -/
theorem nuParseIpv4_eq_ok {s : List UInt8} {ip : UInt32} :
    nuParseIpv4 s = .ok ip ↔ ∃ v, DottedQuad.read s = some v ∧ ip = shifted 0 v := by
  have refused (long : nuQuadMax < s.length ∨ s.length = 0) :
      ¬ ∃ v, DottedQuad.read s = some v ∧ ip = shifted 0 v := by
    rintro ⟨v, found, -⟩
    obtain ⟨four, rfl⟩ := DottedQuad.read_eq_some.mp found
    have short := DottedQuad.length_text_le four
    rcases long with long | empty
    · exact absurd long (Nat.not_lt.mpr short)
    · rw [List.length_eq_zero_iff.mp empty] at found
      cases found
  unfold nuParseIpv4 nuParseIpv4N
  by_cases long : nuQuadMax < s.length
  · rw [if_pos long]
    exact ⟨nofun, fun found => absurd found (refused (.inl long))⟩
  · rw [if_neg long]
    by_cases empty : s.length = 0
    · rw [if_pos empty]
      exact ⟨nofun, fun found => absurd found (refused (.inr empty))⟩
    · rw [if_neg empty, if_neg long]
      refine octet_octets_eq_ok (octets_eq_ok 3) (fun x => ?_) ip s
      rw [show (0 : UInt32) <<< 8 = 0 from rfl, UInt32.zero_or]

/-! ## Addresses as words -/

theorem shift_or (acc : UInt32) (x : UInt8) (small : acc.toNat < 2 ^ 24) :
    (acc <<< 8 ||| UInt32.ofNat x.toNat).toNat = acc.toNat * 2 ^ 8 + x.toNat := by
  have less := x.toNat_lt
  have low : (UInt32.ofNat x.toNat).toNat = x.toNat :=
    UInt32.toNat_ofNat_of_lt' (Nat.lt_trans less (by decide))
  have high : (acc <<< 8).toNat = acc.toNat <<< 8 := by
    rw [UInt32.toNat_shiftLeft]
    change acc.toNat <<< 8 % 2 ^ 32 = acc.toNat <<< 8
    rw [Nat.shiftLeft_eq]
    omega
  rw [UInt32.toNat_or, high, low, ← Nat.shiftLeft_add_eq_or_of_lt (by omega), Nat.shiftLeft_eq]

/-- The octets shifted together are the word that the store makes of them. -/
theorem shifted_eq_valueWord {v : List UInt8} (four : v.length = 4) :
    shifted 0 v = CfgStore.valueWord v := by
  obtain ⟨a, b, c, d, rfl⟩ : ∃ a b c d, v = [a, b, c, d] := by
    match v, four with
    | [a, b, c, d], _ => exact ⟨a, b, c, d, rfl⟩
  have aLess := a.toNat_lt
  have bLess := b.toNat_lt
  have cLess := c.toNat_lt
  have dLess := d.toNat_lt
  have first := shift_or 0 a (by decide)
  have second := shift_or ((0 : UInt32) <<< 8 ||| UInt32.ofNat a.toNat) b (by
    rw [first, UInt32.toNat_zero]
    omega)
  have third := shift_or (((0 : UInt32) <<< 8 ||| UInt32.ofNat a.toNat) <<< 8 |||
    UInt32.ofNat b.toNat) c (by
      rw [second, first, UInt32.toNat_zero]
      omega)
  have word : (CfgStore.valueWord [a, b, c, d]).toNat =
      (a.toNat * 2 ^ 8 + b.toNat) * 2 ^ 16 + (c.toNat * 2 ^ 8 + d.toNat) :=
    UInt32.toNat_ofNat_of_lt'
      (show (a.toNat * 2 ^ 8 + b.toNat) * 2 ^ 16 + (c.toNat * 2 ^ 8 + d.toNat) < 2 ^ 32 by
        omega)
  apply UInt32.toNat_inj.mp
  rw [word]
  refine (shift_or _ d (by
    rw [third, second, first, UInt32.toNat_zero]
    omega)).trans ?_
  rw [third, second, first, UInt32.toNat_zero]
  omega

/-- A shifted byte of an address. -/
theorem shifted_byte (ip : UInt32) {k : Nat} (few : k < 32) :
    (ip >>> UInt32.ofNat k &&& 0xFF).toNat = (UInt8.ofNat (ip.toNat / 2 ^ k)).toNat := by
  rw [UInt32.toNat_and, UInt32.toNat_shiftRight, UInt8.toNat_ofNat']
  have shift : (UInt32.ofNat k).toNat % 32 = k := by
    rw [UInt32.toNat_ofNat_of_lt' (Nat.lt_trans few (by decide))]
    omega
  rw [shift, Nat.shiftRight_eq_div_pow]
  exact Nat.and_two_pow_sub_one_eq_mod _ 8

theorem octetText_eq : ∀ n < 256, octetText n = Decimal.text n := by
  decide +kernel

/-- What is formatted are the four octets of an address. -/
theorem quadText_eq (ip : UInt32) : quadText ip = DottedQuad.text (Tlv.putBe32 ip.toNat) := by
  have octet (k : Nat) (few : k < 32) :
      octetText (ip >>> UInt32.ofNat k &&& 0xFF).toNat =
        Decimal.text (UInt8.ofNat (ip.toNat / 2 ^ k)).toNat := by
    rw [shifted_byte ip few, octetText_eq _ (UInt8.toNat_lt _)]
  have last : octetText (ip &&& 0xFF).toNat = Decimal.text (UInt8.ofNat ip.toNat).toNat := by
    have zero := octet 0 (by decide)
    rwa [show UInt32.ofNat 0 = 0 from rfl, UInt32.shiftRight_zero, Nat.pow_zero, Nat.div_one]
      at zero
  have h24 := octet 24 (by decide)
  have h16 := octet 16 (by decide)
  have h8 := octet 8 (by decide)
  unfold quadText
  simp only [DottedQuad.text, DottedQuad.dotted, Tlv.putBe32, List.flatMap_cons,
    List.flatMap_nil, List.append_nil, List.append_assoc, List.cons_append]
  rw [← h24, ← h16, ← h8, ← last]
  rfl

theorem valueWord_putBe32 (ip : UInt32) : CfgStore.valueWord (Tlv.putBe32 ip.toNat) = ip := by
  have read := Tlv.getBe32_ofList ip.toNat_lt [] [] 0
  rw [List.nil_append, List.append_nil] at read
  unfold CfgStore.valueWord
  rw [show (0 : Nat) = ([] : List UInt8).length from rfl, read, UInt32.ofNat_toNat]

theorem putBe32_valueWord {v : List UInt8} (four : v.length = 4) :
    Tlv.putBe32 (CfgStore.valueWord v).toNat = v := by
  obtain ⟨a, b, c, d, rfl⟩ : ∃ a b c d, v = [a, b, c, d] := by
    match v, four with
    | [a, b, c, d], _ => exact ⟨a, b, c, d, rfl⟩
  unfold CfgStore.valueWord
  rw [UInt32.toNat_ofNat_of_lt' (Tlv.getBe32_lt _ 0), Tlv.putBe32_getBe32]
  rfl

end Net

/-! ## Agreement -/

/-- The three parsers refuse a string. -/
def AllRefuse (s : List UInt8) : Prop :=
  (∃ e, CfgText.parseIpv4 s = .error e) ∧ Httpd.parseIpv4 s = none ∧
    ∃ e, Net.nuParseIpv4 s = .error e

/-- The three parsers accept a string, and make the same address of it. -/
def AllAccept (s : List UInt8) (ip : UInt32) : Prop :=
  ∃ v, v.length = 4 ∧ CfgStore.valueWord v = ip ∧ CfgText.parseIpv4 s = .ok v ∧
    Httpd.parseIpv4 s = some v ∧ Net.nuParseIpv4 s = .ok ip

theorem allAccept_iff {s : List UInt8} {ip : UInt32} :
    AllAccept s ip ↔ s = Net.quadText ip := by
  constructor
  · rintro ⟨v, four, rfl, stored, -⟩
    rw [Net.quadText_eq, Net.putBe32_valueWord four]
    exact (CfgText.parseIpv4_eq_ok.mp stored).2
  · rintro rfl
    have four : (Tlv.putBe32 ip.toNat).length = 4 := Tlv.putBe32_length _
    have read : DottedQuad.read (Net.quadText ip) = some (Tlv.putBe32 ip.toNat) :=
      DottedQuad.read_eq_some.mpr ⟨four, Net.quadText_eq ip⟩
    refine ⟨_, four, Net.valueWord_putBe32 ip,
      CfgText.parseIpv4_eq_ok.mpr ⟨four, Net.quadText_eq ip⟩,
      (Httpd.parseIpv4_eq _).trans read, Net.nuParseIpv4_eq_ok.mpr ⟨_, read, ?_⟩⟩
    rw [Net.shifted_eq_valueWord four, Net.valueWord_putBe32]

/-- What none of them accepts, all of them refuse. -/
theorem allRefuse_of_read {s : List UInt8} (refused : DottedQuad.read s = none) :
    AllRefuse s := by
  refine ⟨?_, (Httpd.parseIpv4_eq s).trans refused, ?_⟩
  · rcases stored : CfgText.parseIpv4 s with e | v
    · exact ⟨e, rfl⟩
    · rw [DottedQuad.read_eq_some.mpr (CfgText.parseIpv4_eq_ok.mp stored)] at refused
      cases refused
  · rcases parsed : Net.nuParseIpv4 s with e | ip
    · exact ⟨e, rfl⟩
    · obtain ⟨v, read, -⟩ := Net.nuParseIpv4_eq_ok.mp parsed
      rw [read] at refused
      cases refused

theorem allRefuse_or_allAccept (s : List UInt8) : AllRefuse s ∨ ∃ ip, AllAccept s ip := by
  rcases read : DottedQuad.read s with - | v
  · exact .inl (allRefuse_of_read read)
  · obtain ⟨four, isText⟩ := DottedQuad.read_eq_some.mp read
    refine .inr ⟨CfgStore.valueWord v, allAccept_iff.mpr ?_⟩
    rw [Net.quadText_eq, Net.putBe32_valueWord four, isText]

theorem quadText_injective : Function.Injective Net.quadText := by
  intro first second same
  rw [Net.quadText_eq, Net.quadText_eq] at same
  have octets := DottedQuad.text_injective (Tlv.putBe32_length _) (Tlv.putBe32_length _) same
  rw [← Net.valueWord_putBe32 first, octets, Net.valueWord_putBe32]

theorem noNul_quadText (ip : UInt32) : (0 : UInt8) ∉ Net.quadText ip := by
  rw [Net.quadText_eq]
  exact DottedQuad.noNul_text _

/-- `ip_to_text` into a buffer with room writes what `nu_format_ipv4` does. -/
theorem ipToText_eq_quadText {v : List UInt8} {cap : Nat} (four : v.length = 4)
    (room : 16 ≤ cap) : Httpd.ipToText v cap = Net.quadText (CfgStore.valueWord v) := by
  rw [Httpd.ipToText_of_length four room, Net.quadText_eq, Net.putBe32_valueWord four]

/-- What holds of the parsers and the formatters of dotted quads. -/
structure QuadsAgree : Prop where
  /-- All refuse a string, or all accept it with the same address. -/
  parsers : ∀ s : List UInt8, 0 ∉ s → AllRefuse s ∨ ∃ ip, AllAccept s ip
  /-- A buffer of `NU_QUAD_BUF` bytes has room for any address. -/
  formats : ∀ ip n, 16 ≤ n → Net.nuFormatIpv4 ip n = some (Net.quadText ip)
  /-- Formatting is a bijection from the addresses to the accepted strings. -/
  bijection : Set.BijOn Net.quadText Set.univ {s | 0 ∉ s ∧ ∃ ip, AllAccept s ip}
  /-- An address is accepted as what it is written. -/
  inverse : ∀ ip, AllAccept (Net.quadText ip) ip
  /-- The web server writes the same texts. -/
  web : ∀ v cap, v.length = 4 → 16 ≤ cap →
    Httpd.ipToText v cap = Net.quadText (CfgStore.valueWord v)
  /-- The web server's texts, too, are the accepted strings. -/
  webBijection : ∀ cap, 16 ≤ cap →
    Set.BijOn (fun v => Httpd.ipToText v cap) {v | v.length = 4}
      {s | 0 ∉ s ∧ ∃ ip, AllAccept s ip}

/-- The parsers of dotted quads are one function, and undo the formatters. -/
theorem quads_agree : QuadsAgree := by
  constructor
  case parsers => exact fun s _ => allRefuse_or_allAccept s
  case formats =>
    intro ip n room
    have short := DottedQuad.length_text_le (Tlv.putBe32_length ip.toNat)
    rw [← Net.quadText_eq] at short
    unfold Net.nuFormatIpv4
    rw [if_neg (by omega), if_neg (by omega)]
  case bijection =>
    refine ⟨?_, quadText_injective.injOn, ?_⟩
    · exact fun ip _ => ⟨noNul_quadText ip, ip, allAccept_iff.mpr rfl⟩
    · rintro s ⟨-, ip, accepted⟩
      exact ⟨ip, trivial, (allAccept_iff.mp accepted).symm⟩
  case inverse => exact fun ip => allAccept_iff.mpr rfl
  case web => exact fun v cap four room => ipToText_eq_quadText four room
  case webBijection =>
    intro cap room
    refine ⟨?_, ?_, ?_⟩
    · intro v four
      have same := ipToText_eq_quadText four room
      have noNul := noNul_quadText (CfgStore.valueWord v)
      rw [← same] at noNul
      exact ⟨noNul, _, allAccept_iff.mpr same⟩
    · intro v four w four' same
      have words := quadText_injective ((ipToText_eq_quadText four room).symm.trans
        (same.trans (ipToText_eq_quadText four' room)))
      rw [← Net.putBe32_valueWord four, words, Net.putBe32_valueWord four']
    · rintro s ⟨-, ip, accepted⟩
      refine ⟨Tlv.putBe32 ip.toNat, Tlv.putBe32_length _, ?_⟩
      have same := ipToText_eq_quadText (Tlv.putBe32_length ip.toNat) room
      rw [Net.valueWord_putBe32] at same
      exact same.trans (allAccept_iff.mp accepted).symm

end RlxFw
