import RlxFw.DnsWire
import Mathlib.Data.List.GetD
import Mathlib.Logic.Relation

/-!
# Compressed names

What a name in a message expands to, and that `dns_decode_name` finds it: without
an access outside the message or its buffer, in so many passes, and whenever the
pointers go down.
-/

namespace RlxFw.Dns

/-! ## Expansion -/

/-- The name at a position of a message, in wire form, with the offset behind it and
the pointers that were followed, each with its target. -/
inductive Expands (msg : List UInt8) :
    Nat → List UInt8 → Nat → List (Nat × Nat) → Prop
  | root {pos : Nat} (isRoot : msg[pos]? = some 0) : Expands msg pos [0] (pos + 1) []
  | label {pos : Nat} {c : UInt8} {name : List UInt8} {next : Nat}
      {pointers : List (Nat × Nat)} (isLabel : msg[pos]? = some c) (pos_ : 1 ≤ c.toNat)
      (short : c.toNat ≤ 63) (inside : pos + 1 + c.toNat ≤ msg.length)
      (later : Expands msg (pos + 1 + c.toNat) name next pointers) :
      Expands msg pos (c :: (msg.drop (pos + 1)).take c.toNat ++ name) next pointers
  | pointer {pos : Nat} {c low : UInt8} {name : List UInt8} {next : Nat}
      {pointers : List (Nat × Nat)} (isPointer : msg[pos]? = some c) (high : 192 ≤ c.toNat)
      (isLow : msg[pos + 1]? = some low)
      (there : Expands msg ((c.toNat - 192) * 2 ^ 8 + low.toNat) name next pointers) :
      Expands msg pos name (pos + 2) ((pos, (c.toNat - 192) * 2 ^ 8 + low.toNat) :: pointers)

/-- A sequence of labels, closed by the root label. -/
inductive WireName : List UInt8 → Prop
  | root : WireName [0]
  | label {c : UInt8} {bytes name : List UInt8} (pos_ : 1 ≤ c.toNat) (short : c.toNat ≤ 63)
      (length : bytes.length = c.toNat) (later : WireName name) :
      WireName (c :: bytes ++ name)

/-- Where the reading of a name goes on: behind a label, or where a pointer points. -/
inductive GoesOn (msg : List UInt8) : Nat → Nat → Prop
  | label {pos : Nat} {c : UInt8} (isLabel : msg[pos]? = some c) (pos_ : 1 ≤ c.toNat)
      (short : c.toNat ≤ 63) : GoesOn msg pos (pos + 1 + c.toNat)
  | pointer {pos : Nat} {c low : UInt8} (isPointer : msg[pos]? = some c)
      (high : 192 ≤ c.toNat) (isLow : msg[pos + 1]? = some low) :
      GoesOn msg pos ((c.toNat - 192) * 2 ^ 8 + low.toNat)

/-- The reading of a name comes to a position that it comes back to. -/
def Cyclic (msg : List UInt8) (pos : Nat) : Prop :=
  ∃ p, Relation.ReflTransGen (GoesOn msg) pos p ∧ Relation.TransGen (GoesOn msg) p p

/-- Targets below their pointers and below the targets before them, from `limit` on. -/
def Descends : Nat → List (Nat × Nat) → Prop
  | _, [] => True
  | limit, (p, target) :: later => target < p ∧ target < limit ∧ Descends target later

variable {msg : List UInt8}

theorem Expands.wireName {pos next : Nat} {name : List UInt8} {pointers : List (Nat × Nat)}
    (expands : Expands msg pos name next pointers) : WireName name := by
  induction expands with
  | root isRoot => exact .root
  | @label pos c name next pointers isLabel pos_ short inside later ih =>
      refine .label pos_ short ?_ ih
      rw [List.length_take, List.length_drop]
      omega
  | pointer isPointer high isLow there ih => exact ih

theorem WireName.length_pos {name : List UInt8} (wire : WireName name) : 0 < name.length := by
  cases wire <;> simp

theorem Expands.pos_lt_next {pos next : Nat} {name : List UInt8} {pointers : List (Nat × Nat)}
    (expands : Expands msg pos name next pointers) : pos < next := by
  induction expands with
  | root isRoot => exact Nat.lt_succ_self _
  | label isLabel pos_ short inside later ih => omega
  | pointer isPointer high isLow there ih => omega

theorem Expands.next_le {pos next : Nat} {name : List UInt8} {pointers : List (Nat × Nat)}
    (expands : Expands msg pos name next pointers) : next ≤ msg.length := by
  induction expands with
  | root isRoot => exact (List.getElem?_eq_some_iff.mp isRoot).1
  | label isLabel pos_ short inside later ih => exact ih
  | pointer isPointer high isLow there ih => exact (List.getElem?_eq_some_iff.mp isLow).1

/-- From where a name expands, the reading ends. -/
theorem Expands.acc {pos next : Nat} {name : List UInt8} {pointers : List (Nat × Nat)}
    (expands : Expands msg pos name next pointers) :
    Acc (fun after before => GoesOn msg before after) pos := by
  induction expands with
  | root isRoot =>
      refine Acc.intro _ fun after goes => ?_
      cases goes with
      | label isLabel pos_ short =>
          obtain rfl := Option.some.inj (isRoot.symm.trans isLabel)
          exact absurd pos_ (by decide)
      | pointer isPointer high isLow =>
          obtain rfl := Option.some.inj (isRoot.symm.trans isPointer)
          exact absurd high (by decide)
  | label isLabel pos_ short inside later ih =>
      refine Acc.intro _ fun after goes => ?_
      cases goes with
      | label isLabel' pos_' short' =>
          obtain rfl := Option.some.inj (isLabel.symm.trans isLabel')
          exact ih
      | pointer isPointer high isLow =>
          obtain rfl := Option.some.inj (isLabel.symm.trans isPointer)
          omega
  | pointer isPointer high isLow there ih =>
      refine Acc.intro _ fun after goes => ?_
      cases goes with
      | label isLabel' pos_' short' =>
          obtain rfl := Option.some.inj (isPointer.symm.trans isLabel')
          omega
      | pointer isPointer' high' isLow' =>
          obtain rfl := Option.some.inj (isPointer.symm.trans isPointer')
          obtain rfl := Option.some.inj (isLow.symm.trans isLow')
          exact ih

theorem Expands.unique {pos next next' : Nat} {name name' : List UInt8}
    {pointers pointers' : List (Nat × Nat)} (expands : Expands msg pos name next pointers)
    (expands' : Expands msg pos name' next' pointers') :
    name = name' ∧ next = next' ∧ pointers = pointers' := by
  induction expands generalizing name' next' pointers' with
  | root isRoot =>
      cases expands' with
      | root isRoot' => exact ⟨rfl, rfl, rfl⟩
      | label isLabel pos_ short inside later =>
          obtain rfl := Option.some.inj (isRoot.symm.trans isLabel)
          exact absurd pos_ (by decide)
      | pointer isPointer high isLow there =>
          obtain rfl := Option.some.inj (isRoot.symm.trans isPointer)
          exact absurd high (by decide)
  | label isLabel pos_ short inside later ih =>
      cases expands' with
      | root isRoot =>
          obtain rfl := Option.some.inj (isRoot.symm.trans isLabel)
          exact absurd pos_ (by decide)
      | label isLabel' pos_' short' inside' later' =>
          obtain rfl := Option.some.inj (isLabel.symm.trans isLabel')
          obtain ⟨rfl, rfl, rfl⟩ := ih later'
          exact ⟨rfl, rfl, rfl⟩
      | pointer isPointer high isLow there =>
          obtain rfl := Option.some.inj (isLabel.symm.trans isPointer)
          omega
  | pointer isPointer high isLow there ih =>
      cases expands' with
      | root isRoot =>
          obtain rfl := Option.some.inj (isRoot.symm.trans isPointer)
          exact absurd high (by decide)
      | label isLabel pos_ short inside later =>
          obtain rfl := Option.some.inj (isPointer.symm.trans isLabel)
          omega
      | pointer isPointer' high' isLow' there' =>
          obtain rfl := Option.some.inj (isPointer.symm.trans isPointer')
          obtain rfl := Option.some.inj (isLow.symm.trans isLow')
          obtain ⟨rfl, rfl, rfl⟩ := ih there'
          exact ⟨rfl, rfl, rfl⟩

/-- Labels that lie in a message expand to themselves. -/
theorem WireName.expands {name : List UInt8} (wire : WireName name) (before behind : List UInt8) :
    Expands (before ++ name ++ behind) before.length name (before.length + name.length) [] := by
  induction wire generalizing before with
  | root =>
      apply Expands.root
      rw [List.append_assoc, List.getElem?_append_right (Nat.le_refl _), Nat.sub_self]
      rfl
  | @label c bytes name pos_ short length later ih =>
      have split : before ++ (c :: bytes ++ name) ++ behind =
          (before ++ c :: bytes) ++ name ++ behind := by simp
      have after : (before ++ c :: bytes).length = before.length + 1 + c.toNat := by
        rw [List.length_append, List.length_cons, length]
        omega
      have rest := ih (before ++ c :: bytes)
      rw [after] at rest
      have taken : ((before ++ (c :: bytes ++ name) ++ behind).drop (before.length + 1)).take
          c.toNat = bytes := by
        have front : before ++ (c :: bytes ++ name) ++ behind =
            (before ++ [c]) ++ (bytes ++ (name ++ behind)) := by simp
        have ends : before.length + 1 = (before ++ [c]).length := by simp
        rw [front, ends, List.drop_left, ← length, List.take_left]
      have expands := @Expands.label (before ++ (c :: bytes ++ name) ++ behind) before.length c
        _ _ _ (by simp) pos_ short (by simp [length]; omega) (split ▸ rest)
      rw [taken] at expands
      have ends : before.length + 1 + c.toNat + name.length =
          before.length + (c :: bytes ++ name).length := by
        rw [List.length_append, List.length_cons, length]
        omega
      rwa [ends] at expands

theorem not_rel_self_of_acc {α : Type} {r : α → α → Prop} {a : α} (acc : Acc r a) :
    ¬ r a a := by
  induction acc with
  | intro a _ ih => exact fun self => ih a self self

theorem Expands.not_cyclic {pos next : Nat} {name : List UInt8}
    {pointers : List (Nat × Nat)} (expands : Expands msg pos name next pointers) :
    ¬ Cyclic msg pos := by
  rintro ⟨p, reached, cycle⟩
  have ends : Acc (Function.swap (GoesOn msg)) p := by
    have start : Acc (Function.swap (GoesOn msg)) pos := expands.acc
    clear cycle expands
    induction reached with
    | refl => exact start
    | tail _ step ih => exact ih.inv step
  exact not_rel_self_of_acc ends.transGen cycle.swap

theorem descends_iff {limit : Nat} {pointers : List (Nat × Nat)} :
    Descends limit pointers ↔
      (∀ p ∈ pointers, p.2 < p.1 ∧ p.2 < limit) ∧ (pointers.map Prod.snd).Pairwise (· > ·) := by
  induction pointers generalizing limit with
  | nil => simp [Descends]
  | cons first later ih =>
      obtain ⟨p, target⟩ := first
      simp only [Descends, ih, List.forall_mem_cons, List.map_cons, List.pairwise_cons,
        List.mem_map, forall_exists_index, and_imp, forall_apply_eq_imp_iff₂]
      constructor
      · rintro ⟨below, inside, all, ordered⟩
        exact ⟨⟨⟨below, inside⟩, fun q member =>
          ⟨(all q member).1, Nat.lt_trans (all q member).2 inside⟩⟩,
          fun q member => (all q member).2, ordered⟩
      · rintro ⟨⟨⟨below, inside⟩, all⟩, first, ordered⟩
        exact ⟨below, inside, fun q member => ⟨(all q member).1, first q member⟩, ordered⟩

/-! ## The decoder -/

/-- The two top bits of a length byte. -/
theorem topBits (c : UInt8) :
    (c &&& 0xC0 = 0xC0 ↔ 192 ≤ c.toNat) ∧ (c &&& 0xC0 = 0 ↔ c.toNat ≤ 63) ∧
      (192 ≤ c.toNat → (c &&& 0x3F).toNat = c.toNat - 192) ∧ (c = 0 ↔ c.toNat = 0) := by
  revert c
  apply forall_byte
  decide

theorem byteAt_eq {pos : Nat} (inside : pos < msg.length) :
    msg[pos]? = some (byteAt msg pos) := by
  rw [List.getElem?_eq_getElem inside, byteAt, List.getD_eq_getElem _ _ inside]

theorem byteAt_of_getElem? {pos : Nat} {c : UInt8} (here : msg[pos]? = some c) :
    pos < msg.length ∧ byteAt msg pos = c := by
  obtain ⟨inside, rfl⟩ := List.getElem?_eq_some_iff.mp here
  exact ⟨inside, List.getD_eq_getElem _ _ inside⟩

/-- What the decoder gives is an expansion whose pointers go down. -/
theorem expands_of_decodeNameFrom {outcap pos limit jumps next : Nat}
    {out name : List UInt8} {after : Option Nat}
    (decoded : decodeNameFrom msg outcap pos limit jumps out after = .ok (name, next)) :
    ∃ rest behind pointers, Expands msg pos rest behind pointers ∧
      name = out ++ rest ∧ next = after.getD behind ∧ Descends limit pointers ∧
      (pointers = [] ∨ jumps + pointers.length ≤ ptrJumpsMax) ∧ name.length ≤ outcap := by
  -- three turns come to a name: a pointer, the root label and a label with more behind it
  fun_induction decodeNameFrom msg outcap pos limit jumps out after with
  | case6 pos limit jumps out after c inside isPointer tgt whole below down few ih =>
      obtain ⟨rest, behind, pointers, expands, rfl, rfl, descends, left, fits⟩ := ih decoded
      have high := (topBits c).1.mp isPointer
      have isTarget : tgt = (c.toNat - 192) * 2 ^ 8 + (byteAt msg (pos + 1)).toNat := by
        rw [← (topBits c).2.2.1 high]
      refine ⟨rest, pos + 2, (pos, tgt) :: pointers, ?_, rfl, ?_, ?_, ?_, fits⟩
      · rw [isTarget] at expands ⊢
        exact .pointer (byteAt_eq (by omega)) high (byteAt_eq (by omega)) expands
      · cases after <;> rfl
      · exact ⟨by omega, by omega, descends⟩
      · right
        rw [List.length_cons]
        rcases left with rfl | left
        · exact Nat.le_of_not_lt few
        · omega
  | case9 pos limit jumps out after c inside notPointer isLabel isRoot fits =>
      obtain ⟨rfl, rfl⟩ := Prod.mk.inj (Except.ok.inj decoded)
      have root : msg[pos]? = some 0 := by
        rw [← isRoot]
        exact byteAt_eq (by omega)
      refine ⟨[0], pos + 1, [], .root root, rfl, rfl, trivial, .inl rfl, ?_⟩
      rw [List.length_append, List.length_singleton]
      omega
  | case12 pos limit jumps out after c inside notPointer isLabel notRoot whole fits ih =>
      obtain ⟨rest, behind, pointers, expands, rfl, rfl, descends, left, room⟩ := ih decoded
      have short := (topBits c).2.1.mp (not_not.mp isLabel)
      have some_ : 1 ≤ c.toNat := by
        have notZero := mt (topBits c).2.2.2.mpr notRoot
        omega
      refine ⟨c :: (msg.drop (pos + 1)).take c.toNat ++ rest, behind, pointers,
        .label (byteAt_eq (by omega)) some_ short (by omega) expands, ?_, rfl, descends, left,
        room⟩
      rw [List.append_assoc]
  | _ => cases decoded

/-- An expansion whose pointers go down, within the limits, is what the decoder
gives. -/
theorem decodeNameFrom_of_expands {outcap pos limit jumps behind : Nat}
    {out rest : List UInt8} {after : Option Nat} {pointers : List (Nat × Nat)}
    (expands : Expands msg pos rest behind pointers) (descends : Descends limit pointers)
    (few : pointers = [] ∨ jumps + pointers.length ≤ ptrJumpsMax)
    (fits : out.length + rest.length ≤ outcap) :
    decodeNameFrom msg outcap pos limit jumps out after =
      .ok (out ++ rest, after.getD behind) := by
  induction expands generalizing limit jumps out after with
  | @root pos isRoot =>
      obtain ⟨inside, here⟩ := byteAt_of_getElem? isRoot
      rw [List.length_singleton] at fits
      rw [decodeNameFrom]
      dsimp only
      rw [if_neg (by omega), here, if_neg (by decide), if_neg (by decide), if_pos rfl,
        if_neg (by omega)]
  | @label pos c name next pointers isLabel some_ short whole later ih =>
      obtain ⟨inside, here⟩ := byteAt_of_getElem? isLabel
      obtain ⟨notPointer, label, -, root⟩ := topBits c
      have restPos := later.wireName.length_pos
      have taken : ((msg.drop (pos + 1)).take c.toNat).length = c.toNat := by
        rw [List.length_take, List.length_drop]
        omega
      rw [List.length_append, List.length_cons, taken] at fits
      rw [decodeNameFrom]
      dsimp only
      rw [if_neg (by omega), here, if_neg (mt notPointer.mp (by omega)),
        if_neg (not_not_intro (label.mpr short)), if_neg (mt root.mp (by omega)),
        if_neg (by omega), if_neg (by omega)]
      rw [ih descends few (by
        rw [List.length_append, List.length_cons, taken]
        omega), List.append_assoc]
  | @pointer pos c low name next pointers isPointer high isLow there ih =>
      obtain ⟨inside, here⟩ := byteAt_of_getElem? isPointer
      obtain ⟨insideLow, hereLow⟩ := byteAt_of_getElem? isLow
      obtain ⟨below, down, descends⟩ := descends
      have few' : jumps + 1 + pointers.length ≤ ptrJumpsMax := by
        rcases few with none | few
        · cases none
        · rw [List.length_cons] at few
          omega
      rw [decodeNameFrom]
      dsimp only
      rw [if_neg (by omega), here, if_pos ((topBits c).1.mpr high), if_neg (by omega), hereLow,
        (topBits c).2.2.1 high, if_neg (by omega), if_neg (by omega), if_neg (by omega),
        ih descends (.inr few') fits]
      cases after <;> rfl

theorem Expands.pointers_inside {pos next : Nat} {name : List UInt8}
    {pointers : List (Nat × Nat)} (expands : Expands msg pos name next pointers) :
    ∀ p ∈ pointers, p.1 < msg.length := by
  induction expands with
  | root isRoot => exact nofun
  | label isLabel pos_ short inside later ih => exact ih
  | pointer isPointer high isLow there ih =>
      exact List.forall_mem_cons.mpr ⟨(List.getElem?_eq_some_iff.mp isPointer).1, ih⟩

/-- The names that `dns_decode_name` gives. -/
theorem dnsDecodeName_eq_ok {pos outcap next : Nat} {name : List UInt8}
    (capacity : outcap ≤ nameMax) :
    dnsDecodeName msg pos outcap = .ok (name, next) ↔
      ∃ pointers, Expands msg pos name next pointers ∧
        (∀ p ∈ pointers, p.2 < p.1) ∧ (pointers.map Prod.snd).Pairwise (· > ·) ∧
        pointers.length ≤ ptrJumpsMax ∧ name.length ≤ outcap := by
  unfold dnsDecodeName
  constructor
  · intro decoded
    split at decoded
    · cases decoded
    obtain ⟨rest, behind, pointers, expands, rfl, rfl, descends, few, fits⟩ :=
      expands_of_decodeNameFrom decoded
    obtain ⟨below, ordered⟩ := descends_iff.mp descends
    refine ⟨pointers, expands, fun p member => (below p member).1, ordered, ?_, fits⟩
    rcases few with rfl | few
    · exact Nat.zero_le _
    · omega
  · rintro ⟨pointers, expands, below, ordered, few, fits⟩
    have pos_ := expands.wireName.length_pos
    have descends : Descends msg.length pointers :=
      descends_iff.mpr ⟨fun p member => ⟨below p member,
        Nat.lt_trans (below p member) (expands.pointers_inside p member)⟩, ordered⟩
    rw [if_neg (by omega)]
    exact decodeNameFrom_of_expands expands descends (.inr (by omega))
      (by rw [List.length_nil]; omega)

theorem capacity_of_ok {pos outcap next : Nat} {name : List UInt8}
    (decoded : dnsDecodeName msg pos outcap = .ok (name, next)) : outcap ≤ nameMax := by
  by_contra large
  unfold dnsDecodeName at decoded
  rw [if_pos (.inr (by omega))] at decoded
  cases decoded

theorem dnsDecodeName_ok {pos outcap next : Nat} {name : List UInt8}
    (decoded : dnsDecodeName msg pos outcap = .ok (name, next)) :
    WireName name ∧ name.length ≤ outcap ∧ pos < next ∧ next ≤ msg.length := by
  obtain ⟨pointers, expands, -, -, -, fits⟩ :=
    (dnsDecodeName_eq_ok (capacity_of_ok decoded)).mp decoded
  exact ⟨expands.wireName, fits, expands.pos_lt_next, expands.next_le⟩

theorem questionDecode_ok {pos next : Nat} {q : Question}
    (decoded : questionDecode msg pos = .ok (q, next)) :
    ∃ behind, dnsDecodeName msg pos nameMax = .ok (q.name, behind) ∧
      q.qtype = dnsGet16 msg behind ∧ q.qclass = dnsGet16 msg (behind + 2) ∧
      next = behind + 4 ∧ next ≤ msg.length := by
  unfold questionDecode at decoded
  rcases named : dnsDecodeName msg pos nameMax with why | ⟨name, behind⟩
  · rw [named] at decoded
    cases decoded
  · rw [named] at decoded
    obtain ⟨whole, decoded⟩ := ok_of_check decoded
    obtain ⟨rfl, rfl⟩ := Prod.mk.inj (Except.ok.inj decoded)
    exact ⟨behind, rfl, rfl, rfl, rfl, by omega⟩

theorem dnsDecodeName_wire {name : List UInt8} {outcap : Nat} (wire : WireName name)
    (fits : name.length ≤ outcap) (capacity : outcap ≤ nameMax) (before behind : List UInt8) :
    dnsDecodeName (before ++ name ++ behind) before.length outcap =
      .ok (name, before.length + name.length) :=
  (dnsDecodeName_eq_ok capacity).mpr
    ⟨[], wire.expands before behind, nofun, .nil, Nat.zero_le _, fits⟩

/-! ## Accesses -/

/-- The loop of `dns_decode_name` with its accesses checked, in at most so many passes:
nothing where a byte past the message is read or one past the buffer written. -/
def decodeNameChecked (msg : List UInt8) (outcap : Nat) :
    Nat → Nat → Nat → Nat → List UInt8 → Option Nat → Option (Except Err (List UInt8 × Nat))
  | 0, _, _, _, _, _ => none
  | passes + 1, pos, limit, jumps, out, after =>
      if pos ≥ msg.length then some (.error .short)
      else do
        let c ← msg[pos]?
        if c &&& 0xC0 = 0xC0 then
          if pos + 2 > msg.length then some (.error .short)
          else do
            let low ← msg[pos + 1]?
            let tgt := (c &&& 0x3F).toNat * 2 ^ 8 + low.toNat
            if tgt ≥ pos then some (.error .ptr)
            else if tgt ≥ limit then some (.error .ptr)
            else if jumps + 1 > ptrJumpsMax then some (.error .jumps)
            else
              decodeNameChecked msg outcap passes tgt tgt (jumps + 1) out
                (after.orElse fun _ => some (pos + 2))
        else if c &&& 0xC0 ≠ 0 then some (.error .label)
        else if c = 0 then
          if out.length + 1 > outcap then some (.error .name)
          else do
            let out ← stored outcap out [0]
            some (.ok (out, after.getD (pos + 1)))
        else if pos + 1 + c.toNat > msg.length then some (.error .short)
        else if out.length + 1 + c.toNat + 1 > outcap then some (.error .name)
        else do
          let out ← stored outcap out [c]
          let label ← (List.range c.toNat).mapM fun k => msg[pos + 1 + k]?
          let out ← stored outcap out label
          decodeNameChecked msg outcap passes (pos + 1 + c.toNat) limit jumps out after
where
  /-- Bytes stored behind those in a buffer, which has to have room. -/
  stored (outcap : Nat) (out bytes : List UInt8) : Option (List UInt8) :=
    if out.length + bytes.length ≤ outcap then some (out ++ bytes) else none

theorem mapM_getElem? {start length : Nat} (inside : start + length ≤ msg.length) :
    (List.range length).mapM (fun k => msg[start + k]?) =
      some ((msg.drop start).take length) := by
  induction length with
  | zero => rfl
  | succ length ih =>
      have here : start + length < msg.length := by omega
      have last : (msg.drop start).take (length + 1) =
          (msg.drop start).take length ++ [msg[start + length]] := by
        rw [List.take_add_one, List.getElem?_drop, List.getElem?_eq_getElem here]
        rfl
      rw [List.range_succ, List.mapM_append, ih (by omega), last]
      simp [List.getElem?_eq_getElem here]

theorem stored_of_room {outcap : Nat} {out bytes : List UInt8}
    (room : out.length + bytes.length ≤ outcap) :
    decodeNameChecked.stored outcap out bytes = some (out ++ bytes) :=
  if_pos room

/-- With enough passes left, the checked loop is the loop. -/
theorem decodeNameChecked_eq {outcap passes pos limit jumps : Nat} {out : List UInt8}
    {after : Option Nat} (enough : (outcap - out.length) + (ptrJumpsMax - jumps) < passes) :
    decodeNameChecked msg outcap passes pos limit jumps out after =
      some (decodeNameFrom msg outcap pos limit jumps out after) := by
  induction passes generalizing pos limit jumps out after with
  | zero => omega
  | succ passes ih =>
      rw [decodeNameChecked, decodeNameFrom]
      dsimp only
      by_cases past : pos ≥ msg.length
      · rw [if_pos past, if_pos past]
      rw [if_neg past, if_neg past, byteAt_eq (Nat.lt_of_not_le past), Option.bind_eq_bind,
        Option.bind_some]
      generalize byteAt msg pos = c
      by_cases pointer : c &&& 0xC0 = 0xC0
      · rw [if_pos pointer, if_pos pointer]
        by_cases cut : pos + 2 > msg.length
        · rw [if_pos cut, if_pos cut]
        rw [if_neg cut, if_neg cut, byteAt_eq (by omega), Option.bind_some]
        generalize (c &&& 0x3F).toNat * 2 ^ 8 + (byteAt msg (pos + 1)).toNat = tgt
        by_cases forward : tgt ≥ pos
        · rw [if_pos forward, if_pos forward]
        rw [if_neg forward, if_neg forward]
        by_cases up : tgt ≥ limit
        · rw [if_pos up, if_pos up]
        rw [if_neg up, if_neg up]
        by_cases many : jumps + 1 > ptrJumpsMax
        · rw [if_pos many, if_pos many]
        rw [if_neg many, if_neg many]
        exact ih (by omega)
      rw [if_neg pointer, if_neg pointer]
      by_cases reserved : c &&& 0xC0 ≠ 0
      · rw [if_pos reserved, if_pos reserved]
      rw [if_neg reserved, if_neg reserved]
      by_cases root : c = 0
      · rw [if_pos root, if_pos root]
        by_cases full : out.length + 1 > outcap
        · rw [if_pos full, if_pos full]
        rw [if_neg full, if_neg full, stored_of_room (Nat.le_of_not_lt full)]
        rfl
      rw [if_neg root, if_neg root]
      by_cases cut : pos + 1 + c.toNat > msg.length
      · rw [if_pos cut, if_pos cut]
      rw [if_neg cut, if_neg cut]
      by_cases full : out.length + 1 + c.toNat + 1 > outcap
      · rw [if_pos full, if_pos full]
      have label : ((msg.drop (pos + 1)).take c.toNat).length = c.toNat := by
        rw [List.length_take, List.length_drop]
        omega
      have first : out.length + [c].length ≤ outcap := by
        rw [List.length_singleton]
        omega
      have second : (out ++ [c]).length + ((msg.drop (pos + 1)).take c.toNat).length ≤ outcap := by
        rw [List.length_append, List.length_singleton, label]
        omega
      rw [if_neg full, if_neg full, stored_of_room first, Option.bind_eq_bind, Option.bind_some,
        mapM_getElem? (by omega), Option.bind_some, stored_of_room second, Option.bind_some,
        List.append_assoc, List.singleton_append]
      apply ih
      rw [List.length_append, List.length_cons, label]
      omega

/-- `dns_decode_name` with its accesses checked, and its passes bounded. -/
def dnsDecodeNameChecked (msg : List UInt8) (pos outcap : Nat) :
    Option (Except Err (List UInt8 × Nat)) :=
  if outcap < 1 ∨ outcap > nameMax then some (.error .cap)
  else decodeNameChecked msg outcap (outcap + ptrJumpsMax + 1) pos msg.length 0 [] none

/-- What is promised of the decoding of a name. -/
structure DecodesName (msg : List UInt8) (pos outcap : Nat) : Prop where
  /-- It ends after at most so many passes, with no access outside the message or the
  buffer. -/
  safe : dnsDecodeNameChecked msg pos outcap = some (dnsDecodeName msg pos outcap)
  /-- It gives the expansion of the name, with the offset behind it, exactly where the
  targets of the pointers go down, below their pointers and within the limits. -/
  exact : outcap ≤ nameMax → ∀ name next,
    dnsDecodeName msg pos outcap = .ok (name, next) ↔
      ∃ pointers, Expands msg pos name next pointers ∧
        (∀ p ∈ pointers, p.2 < p.1) ∧ (pointers.map Prod.snd).Pairwise (· > ·) ∧
        pointers.length ≤ ptrJumpsMax ∧ name.length ≤ outcap
  /-- What it gives are labels and the root, and fit the buffer. -/
  labels : ∀ name next, dnsDecodeName msg pos outcap = .ok (name, next) →
    WireName name ∧ name.length ≤ outcap ∧ pos < next ∧ next ≤ msg.length
  /-- It refuses a cycle. -/
  cycle : Cyclic msg pos → ∃ why, dnsDecodeName msg pos outcap = .error why

/-- `dns_decode_name` terminates and is exact, on every message. -/
theorem decodes_name : ∀ (msg : List UInt8) (pos outcap : Nat), DecodesName msg pos outcap := by
  intro msg pos outcap
  constructor
  case safe =>
    unfold dnsDecodeNameChecked dnsDecodeName
    by_cases refused : outcap < 1 ∨ outcap > nameMax
    · rw [if_pos refused, if_pos refused]
    · rw [if_neg refused, if_neg refused]
      exact decodeNameChecked_eq (by rw [List.length_nil]; omega)
  case exact => exact fun capacity name next => dnsDecodeName_eq_ok capacity
  case labels => exact fun name next decoded => dnsDecodeName_ok decoded
  case cycle =>
    intro cyclic
    rcases decoded : dnsDecodeName msg pos outcap with why | ⟨name, next⟩
    · exact ⟨why, rfl⟩
    · obtain ⟨pointers, expands, -⟩ :=
        (dnsDecodeName_eq_ok (capacity_of_ok decoded)).mp decoded
      exact absurd cyclic expands.not_cyclic

end RlxFw.Dns
