import RlxFw.JsonText

/-!
# Objects written and read back

Any calls of the writer between an opening and a closing brace.  Success tells exactly
that every value could be written and the document fitted, and then `json_parse` gives
back what the calls wrote.
-/

namespace RlxFw.Json

/-- `json_w_done`. -/
def Writer.done (w : Writer) : Int := if w.err then -1 else 0

/-- A call of the writer inside an object. -/
inductive Call where
  | str (key val : List UInt8)
  | strn (key val : List UInt8)
  | num (key : List UInt8) (v : UInt32)
  | bool (key : List UInt8) (v : Bool)

/-- What a call does. -/
def Call.run (w : Writer) : Call → Writer
  -- `json_w_str` measures its value with `strlen`
  | .str key val => w.strn key (cString val)
  | .strn key val => w.strn key val
  | .num key v => w.num key v.toNat
  | .bool key v => w.bool key v

/-- The member that a call writes. -/
def Call.member : Call → Member
  | .str key val => ⟨key, .str (cString val)⟩
  | .strn key val => ⟨key, .str val⟩
  | .num key v => ⟨key, .num v.toNat⟩
  | .bool key v => ⟨key, .bool v⟩

/-- The writer after an opening brace and calls. -/
def opened (cap : Nat) (calls : List Call) : Writer :=
  calls.foldl Call.run (Writer.init cap).objOpen

/-- The writer after calls between braces. -/
def written (cap : Nat) (calls : List Call) : Writer := (opened cap calls).objClose

/-- The document of calls, without blanks. -/
def callsLayout (calls : List Call) : Layout where
  lead := []
  members := calls.map fun call => (Spacing.tight, call.member)
  tail := []
  blanks := blanks_nil

/-- Calls within the limits of the reader. -/
structure WithinLimits (calls : List Call) : Prop where
  plain : ∀ call ∈ calls, PlainKey call.member.key
  distinct : (calls.map fun call => call.member.key).Nodup
  few : calls.length ≤ keysMax
  strings : ∀ call ∈ calls, ∀ s, call.member.value = .str s → s.length ≤ strMax
  short : (callsLayout calls).text.length ≤ docMax

theorem run_eq_member (w : Writer) (call : Call) : call.run w = w.member call.member := by
  cases call <;> rfl

theorem small_member (call : Call) (n : Nat) (isNumber : call.member.value = .num n) :
    n < 2 ^ 32 := by
  cases call with
  | num key v =>
      obtain rfl := Value.num.inj isNumber
      exact v.toNat_lt
  | _ => cases isNumber

/-! ## What is written -/

theorem inside_run {w : Writer} (inside : w.Inside) (call : Call) : (call.run w).Inside := by
  have strn (key val : List UInt8) : (w.strn key val).Inside :=
    (Appends.strTail (Appends.put (Appends.key inside key).inside [0x22]).inside val).inside
  cases call with
  | str key val => exact strn key (cString val)
  | strn key val => exact strn key val
  | num key v =>
      have named := (Appends.key inside key).inside
      change (if v.toNat = 0 then (w.key key).put [0x30] else
        (w.key key).put (numDigits 12 v.toNat [])).Inside
      split
      · exact (Appends.put named _).inside
      · exact (Appends.put named _).inside
  | bool key v => exact (Appends.put (Appends.key inside key).inside _).inside

theorem appends_objOpen (cap : Nat) :
    Appends (Writer.init cap) (Writer.init cap).objOpen True [0x7B] :=
  (Appends.put (inside_init cap) [0x7B]).counted 0

/-- No call writes past the buffer. -/
theorem inside_opened (cap : Nat) (calls : List Call) : (opened cap calls).Inside := by
  induction calls using List.reverseRecOn with
  | nil => exact (appends_objOpen cap).inside
  | append_singleton calls call ih =>
      rw [opened, List.foldl_append]
      exact inside_run ih call

theorem nmemb_opened (cap : Nat) (calls : List Call) :
    (opened cap calls).nmemb = calls.length := by
  induction calls using List.reverseRecOn with
  | nil => rfl
  | append_singleton calls call ih =>
      rw [opened, List.foldl_append, List.length_append]
      change (call.run (opened cap calls)).nmemb = _
      rw [run_eq_member, nmemb_member, ih]
      rfl

theorem appends_opened (cap : Nat) {calls : List Call}
    (plain : ∀ call ∈ calls, PlainKey call.member.key) :
    Appends (Writer.init cap) (opened cap calls)
      (∀ call ∈ calls, Representable call.member.value)
      ([0x7B] ++ bodyText (callsLayout calls).members) := by
  induction calls using List.reverseRecOn with
  | nil => exact (appends_objOpen cap).congr (by simp)
  | append_singleton calls call ih =>
      obtain ⟨earlier, last⟩ := List.forall_mem_append.mp plain
      have before := ih earlier
      have here := Appends.member before.inside (last call (List.mem_singleton_self call))
        (small_member call)
      have both : Appends _ _ (∀ c ∈ calls ++ [call], Representable c.member.value) _ :=
        (before.trans here).congr (by simp [or_imp, forall_and])
      have text : [0x7B] ++ bodyText (callsLayout (calls ++ [call])).members =
          [0x7B] ++ bodyText (callsLayout calls).members ++
            (separator (opened cap calls).nmemb ++ Spacing.tight.text call.member) := by
        rw [nmemb_opened, List.append_assoc]
        change _ ++ bodyText ((calls ++ [call]).map _) = _
        rw [List.map_append]
        change _ ++ bodyText (_ ++ [(Spacing.tight, call.member)]) = _
        rw [bodyText_snoc, List.length_map]
        rfl
      rw [text, opened, List.foldl_append]
      change Appends _ (call.run (opened cap calls)) _ _
      rw [run_eq_member]
      exact both

theorem appends_written (cap : Nat) {calls : List Call}
    (plain : ∀ call ∈ calls, PlainKey call.member.key) :
    Appends (Writer.init cap) (written cap calls)
      (∀ call ∈ calls, Representable call.member.value) (callsLayout calls).text := by
  have body := appends_opened cap plain
  have text : (callsLayout calls).text =
      [0x7B] ++ bodyText (callsLayout calls).members ++ [0x7D] := by
    simp [Layout.text, callsLayout]
  rw [text]
  exact (body.trans (Appends.put body.inside [0x7D])).congr (iff_of_eq (and_true _))

/-! ## What is read back -/

theorem done_eq_zero {w : Writer} : w.done = 0 ↔ w.err = false := by
  unfold Writer.done
  cases w.err <;> simp

theorem done_written (cap : Nat) {calls : List Call}
    (plain : ∀ call ∈ calls, PlainKey call.member.key) :
    (written cap calls).done = 0 ↔
      (∀ call ∈ calls, Representable call.member.value) ∧
        (callsLayout calls).text.length + 1 ≤ cap := by
  rw [done_eq_zero, (appends_written cap plain).err]
  change (cap == 0) = false ∧ _ ∧ 0 + _ + 1 ≤ cap ↔ _
  rw [Nat.zero_add, beq_eq_false_iff_ne]
  constructor
  · exact fun fine => fine.2
  · exact fun fine => ⟨by omega, fine⟩

theorem plainValue_member {call : Call} (can : Representable call.member.value)
    (short : ∀ s, call.member.value = .str s → s.length ≤ strMax) :
    PlainValue call.member.value := by
  cases call with
  | str key val => exact ⟨short _ rfl, can⟩
  | strn key val => exact ⟨short _ rfl, can⟩
  | num key v => exact v.toNat_lt
  | bool key v => trivial

theorem readable_callsLayout {calls : List Call} (within : WithinLimits calls)
    (can : ∀ call ∈ calls, Representable call.member.value) : (callsLayout calls).Readable where
  plain p member := by
    obtain ⟨call, among, rfl⟩ := List.mem_map.mp member
    exact ⟨within.plain call among, plainValue_member (can call among) (within.strings call among)⟩
  distinct := by
    rw [callsLayout, List.map_map, List.map_map]
    exact within.distinct
  few := by
    rw [callsLayout, List.length_map]
    exact within.few
  short := within.short

/-- What is promised of calls of the writer. -/
structure ReadsBack (cap : Nat) (calls : List Call) : Prop where
  /-- Nothing is ever written past the buffer. -/
  inside : (opened cap calls).Inside ∧ (written cap calls).Inside
  /-- Success tells exactly that every value could be written and that all fitted. -/
  done : (∀ call ∈ calls, PlainKey call.member.key) →
    ((written cap calls).done = 0 ↔
      (∀ call ∈ calls, Representable call.member.value) ∧
        (callsLayout calls).text.length + 1 ≤ cap)
  /-- Where it does, the members are read back in order. -/
  parsed : WithinLimits calls → (written cap calls).done = 0 →
    jsonParse (written cap calls).buf = .ok (calls.map Call.member)

/-- Whatever calls write is read back, and what they cannot write they say. -/
theorem json_reads_back (cap : Nat) (calls : List Call) : ReadsBack cap calls where
  inside := by
    have inside := inside_opened cap calls
    exact ⟨inside, (Appends.put inside [0x7D]).inside⟩
  done plain := done_written cap plain
  parsed within done := by
    have can := ((done_written cap within.plain).mp done).1
    have buf := (appends_written cap within.plain).buf (done_eq_zero.mp done)
    have parsed := (readable_callsLayout within can).parse
    rw [buf]
    change jsonParse ([] ++ (callsLayout calls).text) = _
    rw [List.nil_append, parsed, callsLayout, List.map_map]
    rfl

end RlxFw.Json
