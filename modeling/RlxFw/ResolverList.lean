import RlxFw.Ifupd
import RlxFw.QuadParsers
import RlxFw.Tokens

/-!
# The resolvers of a lease

`ifu_dns_list` reads a bounded number of bytes.  A token that begins there and goes
on behind them is taken for what was read of it, and that can be another address.
-/

namespace RlxFw.Ifupd

open Net Tokens

/-- The resolver that a token names: a unicast dotted quad. -/
def resolver (token : List UInt8) : Option UInt32 :=
  if nuQuadMax < token.length then none
  else
    match nuParseIpv4N token with
    | .error _ => none
    | .ok v => if nuIsUnicast v then some v else none

/-- What a list of tokens comes to, with room for `max` resolvers. -/
def summary (max : Nat) (tokens : List (List UInt8)) : DnsList where
  out := (tokens.filterMap resolver).take max
  more := decide (max < (tokens.filterMap resolver).length)
  bad := tokens.countP fun token => (resolver token).isNone

/-- The whole tokens of a text that begin within the bytes that are scanned. -/
def begunTokens (s : List UInt8) : List (List UInt8) := begun separator s ifuDnsScan

/-- What is taken of a text are its first `max` resolvers, from whole tokens. -/
structure TakesWholeTokens (s : List UInt8) (max : Nat) (list : DnsList) : Prop where
  out : list.out = ((begunTokens s).filterMap resolver).take max
  more : list.more = true ↔ max < ((begunTokens s).filterMap resolver).length
  bad : list.bad = (begunTokens s).countP fun token => (resolver token).isNone

/-- The last token that is scanned is whole, or counts for as much as the whole one. -/
def LastAlike (s : List UInt8) (max : Nat) : Prop :=
  ∀ whole ∈ (begunTokens s).getLast?,
    ∀ scanned ∈ (tokens separator (s.take ifuDnsScan)).getLast?,
      whole = scanned ∨ (resolver whole = none ∧ resolver scanned = none) ∨
        ((resolver whole).isSome ∧ (resolver scanned).isSome ∧
          max < ((begunTokens s).filterMap resolver).length)

/-! ## The list as a summary -/

theorem dnsToken_eq (max : Nat) (list : DnsList) (token : List UInt8) :
    dnsToken max list token =
      match resolver token with
      | none => { list with bad := list.bad + 1 }
      | some v =>
          if max ≤ list.out.length then { list with more := true }
          else { list with out := list.out ++ [v] } := by
  unfold dnsToken resolver
  by_cases long : nuQuadMax < token.length
  · rw [if_pos long, if_pos long]
  · rw [if_neg long, if_neg long]
    rcases nuParseIpv4N token with e | v
    · rfl
    · dsimp only
      by_cases unicast : nuIsUnicast v = true
      · rw [if_neg (not_not_intro unicast), if_pos unicast]
      · rw [if_pos unicast, if_neg unicast]

theorem summary_append (max : Nat) (before : List (List UInt8)) (token : List UInt8) :
    summary max (before ++ [token]) = dnsToken max (summary max before) token := by
  rw [dnsToken_eq]
  unfold summary
  rw [List.filterMap_append, List.countP_append]
  cases named : resolver token with
  | none => simp [named]
  | some v =>
      have full : max ≤ ((before.filterMap resolver).take max).length ↔
          max ≤ (before.filterMap resolver).length := by
        rw [List.length_take]
        omega
      dsimp only
      by_cases room : max ≤ (before.filterMap resolver).length
      · rw [if_pos (full.mpr room)]
        simp [named, List.take_append_of_le_length room, Nat.lt_succ_of_le room]
      · rw [if_neg (mt full.mp room)]
        have less := Nat.lt_of_not_le room
        have fits : ((before.filterMap resolver) ++ [v]).take max =
            before.filterMap resolver ++ [v] := by
          apply List.take_of_length_le
          rw [List.length_append, List.length_singleton]
          exact less
        simp [named, List.take_of_length_le (Nat.le_of_lt less), fits]
        omega

theorem foldl_dnsToken (max : Nat) (tokens : List (List UInt8)) :
    tokens.foldl (dnsToken max) {} = summary max tokens := by
  induction tokens using List.reverseRecOn with
  | nil => simp [summary]
  | append_singleton before token ih =>
      rw [List.foldl_append, ih, summary_append]
      rfl

theorem ifuDnsList_eq {max : Nat} (pos : 0 < max) (s : List UInt8) :
    ifuDnsList (some s) max = summary max (tokens separator (s.take ifuDnsScan)) := by
  rw [← foldl_dnsToken]
  exact if_neg (Nat.ne_of_gt pos)

theorem takesWholeTokens_iff_summary {s : List UInt8} {max : Nat} {list : DnsList} :
    TakesWholeTokens s max list ↔ list = summary max (begunTokens s) := by
  constructor
  · intro taken
    have more : list.more = decide (max < ((begunTokens s).filterMap resolver).length) := by
      rw [Bool.eq_iff_iff, decide_eq_true_iff]
      exact taken.more
    cases list
    rw [summary, ← taken.out, ← more, ← taken.bad]
  · rintro rfl
    exact ⟨rfl, decide_eq_true_iff, rfl⟩

/-! ## A token that is cut -/

/-- A resolver is written in one way. -/
theorem resolver_injective {first second : List UInt8} {v : UInt32}
    (here : resolver first = some v) (there : resolver second = some v) : first = second := by
  have spelled {token : List UInt8} (named : resolver token = some v) :
      token = Net.quadText v := by
    unfold resolver at named
    by_cases long : nuQuadMax < token.length
    · rw [if_pos long] at named
      cases named
    · rw [if_neg long] at named
      rcases parsed : nuParseIpv4N token with e | ip
      · rw [parsed] at named
        cases named
      · rw [parsed] at named
        dsimp only at named
        by_cases unicast : nuIsUnicast ip = true
        · rw [if_pos unicast] at named
          obtain rfl := Option.some.inj named
          have whole : nuParseIpv4 token = .ok ip := (if_neg long).trans parsed
          obtain ⟨octets, read, rfl⟩ := nuParseIpv4_eq_ok.mp whole
          obtain ⟨four, isText⟩ := DottedQuad.read_eq_some.mp read
          rw [shifted_eq_valueWord four, quadText_eq, putBe32_valueWord four, isText]
        · rw [if_neg unicast] at named
          cases named
  rw [spelled here, spelled there]

/-- Two lists that differ in their last token come to the same if and only if both
tokens are refused, or both dropped. -/
theorem summary_append_eq_iff {max : Nat} {before : List (List UInt8)}
    {whole cut : List UInt8} (differ : whole ≠ cut) :
    summary max (before ++ [cut]) = summary max (before ++ [whole]) ↔
      (resolver whole = none ∧ resolver cut = none) ∨
        ((resolver whole).isSome ∧ (resolver cut).isSome ∧
          max ≤ (before.filterMap resolver).length) := by
  have full : max ≤ (summary max before).out.length ↔
      max ≤ (before.filterMap resolver).length := by
    unfold summary
    rw [List.length_take]
    omega
  rw [summary_append, summary_append, dnsToken_eq, dnsToken_eq]
  cases wholeIs : resolver whole with
  | none =>
      cases cutIs : resolver cut with
      | none => simp
      | some v =>
          dsimp only
          split <;> simp
  | some w =>
      cases cutIs : resolver cut with
      | none =>
          dsimp only
          split <;> simp [DnsList.mk.injEq]
      | some v =>
          have other : v ≠ w := by
            rintro rfl
            exact differ (resolver_injective wholeIs cutIs)
          dsimp only
          by_cases room : max ≤ (before.filterMap resolver).length
          · rw [if_pos (full.mpr room), if_pos (full.mpr room)]
            simp [room]
          · rw [if_neg (mt full.mp room), if_neg (mt full.mp room)]
            simp [room, other]

/-- Every token is a resolver or refused. -/
theorem length_eq_resolvers_add_refused (tokens : List (List UInt8)) :
    tokens.length = (tokens.filterMap resolver).length +
      tokens.countP fun token => (resolver token).isNone := by
  induction tokens with
  | nil => rfl
  | cons token tokens ih =>
      cases named : resolver token <;> simp [named, ih] <;> omega

/-- Nothing is taken, and nothing counted, where there is no room. -/
theorem noRoom_iff (tokens : List (List UInt8)) : {} = summary 0 tokens ↔ tokens = [] := by
  constructor
  · intro same
    have bad : (0 : Nat) = tokens.countP fun token => (resolver token).isNone :=
      congrArg DnsList.bad same
    have more : false = decide (0 < (tokens.filterMap resolver).length) :=
      congrArg DnsList.more same
    have none := of_decide_eq_false more.symm
    have count := length_eq_resolvers_add_refused tokens
    exact List.length_eq_zero_iff.mp (by omega)
  · rintro rfl
    simp [summary]

/-- The resolvers of a lease come from whole tokens if and only if the last token that
is scanned is whole or counts for as much as the whole one, and there is room for a
resolver or no token at all. -/
theorem takesWholeTokens_iff (s : List UInt8) (max : Nat) :
    TakesWholeTokens s max (ifuDnsList (some s) max) ↔
      (0 < max ∨ begunTokens s = []) ∧ LastAlike s max := by
  rw [takesWholeTokens_iff_summary]
  rcases Nat.eq_zero_or_pos max with rfl | pos
  · have taken : ifuDnsList (some s) 0 = {} := by
      unfold ifuDnsList
      exact if_pos rfl
    rw [taken, noRoom_iff]
    constructor
    · intro none
      refine ⟨.inr none, fun whole isLast => ?_⟩
      rw [none] at isLast
      cases isLast
    · rintro ⟨pos | none, -⟩
      · exact absurd pos (Nat.lt_irrefl 0)
      · exact none
  · rw [ifuDnsList_eq pos]
    rcases @begun_cases _ separator _ s ifuDnsScan with
      same | ⟨before, cut, t, scanned, whole, more⟩
    · have same' : begunTokens s = tokens separator (s.take ifuDnsScan) := same
      rw [same']
      refine ⟨fun _ => ⟨.inl pos, fun last isLast last' isLast' => .inl ?_⟩, fun _ => rfl⟩
      rw [same'] at isLast
      exact Option.some.inj (isLast.symm.trans isLast')
    · have whole' : begunTokens s = before ++ [cut ++ t] := whole
      have differ : cut ++ t ≠ cut := by
        simpa using more
      have count : ((before ++ [cut ++ t]).filterMap resolver).length =
          (before.filterMap resolver).length + if (resolver (cut ++ t)).isSome then 1 else 0 := by
        cases named : resolver (cut ++ t) <;> simp [named]
      rw [scanned, whole', summary_append_eq_iff differ]
      unfold LastAlike
      rw [scanned, whole', count]
      simp only [List.getLast?_append, List.getLast?_singleton, Option.some_or, Option.mem_def,
        Option.some.injEq, forall_eq', pos, true_or, true_and, differ, false_or]
      cases resolver (cut ++ t) with
      | none => simp
      | some v => simp [Nat.lt_succ_iff]

/-- Thirty-one unusable resolvers, and one that the scan cuts. -/
def cutLease : List UInt8 :=
  (List.replicate 31 (ascii "0.0.0.0 ")).flatten ++ ascii "18.8.8.88"

/-- 18.8.8.8 is taken of a lease that names 18.8.8.88. -/
theorem cut_resolver_taken :
    (ifuDnsList (some cutLease) ifuDnsMax).out = [0x12080808] ∧
      ¬ TakesWholeTokens cutLease ifuDnsMax (ifuDnsList (some cutLease) ifuDnsMax) := by
  have taken : (ifuDnsList (some cutLease) ifuDnsMax).out = [0x12080808] := by
    decide
  have named : ((begunTokens cutLease).filterMap resolver).take ifuDnsMax = [0x12080858] := by
    decide
  refine ⟨taken, fun whole => ?_⟩
  have same := taken.symm.trans (whole.out.trans named)
  exact absurd same (by decide)

end RlxFw.Ifupd
