import RlxFw.NicDma

/-!
# The slots of the rings

A slot is a ring word, or two, its descriptors and its buffer.  A store belongs to
one slot and leaves the others as they are.
-/

namespace RlxFw.Nic

/-! ## The words of the rings -/

/-- The descriptors that a ring points to. -/
def Ring.descs : Ring → Descs
  | .rx => .rxPh
  | .mb => .rxMb
  | .tx => .txPh

/-- The word of a slot. -/
def slotWord (L : Layout) (r : Ring) (i : Nat) (own : Bool) : UInt32 :=
  addrWord (L.descAt r.descs i) ||| (if own then nicDescOwn else 0) ||| wrapBit r.count i

theorem descAt_bounds (L : Layout) (d : Descs) {i : Nat} (inside : i < d.count) :
    L.descAt d i % 4 = 0 ∧ L.descAt d i < 2 ^ 32 := by
  have aligned := L.aligned
  have fits := L.fits
  cases d <;>
    simp only [Descs.count, nicRxDesc, nicTxDesc, Layout.descAt, Layout.descsAt,
      nicDescBytes] at inside ⊢ <;> omega

theorem ring_descs_count (r : Ring) : r.descs.count = r.count := by
  cases r <;> rfl

theorem addrWord_toNat {a : Nat} (small : a < 2 ^ 32) : (addrWord a).toNat = a :=
  UInt32.toNat_ofNat_of_lt' small

/-- An aligned address leaves the flag bits of a word alone. -/
theorem aligned_bits {a : Nat} (aligned : a % 4 = 0) :
    (addrWord a).toBitVec[0] = false ∧ (addrWord a).toBitVec[1] = false := by
  have bit : ∀ i (bound : i < 32), (addrWord a).toBitVec[i] = a.testBit i := by
    intro i bound
    have word : (addrWord a).toBitVec = BitVec.ofNat 32 a := rfl
    rw [← BitVec.getLsbD_eq_getElem, word, BitVec.getLsbD_ofNat]
    simp [bound]
  rw [bit 0 (by decide), bit 1 (by decide)]
  constructor
  · rw [Nat.testBit_zero]
    simp
    omega
  · rw [Nat.testBit_succ, Nat.testBit_zero]
    simp
    omega

/-- The flags are in the two low bits, the address is in the others. -/
theorem high_bits : ∀ i : Fin 32, 2 ≤ i.val →
    (nicDescAddr.toBitVec)[i] = true ∧ (1#32)[i] = false ∧ (2#32)[i] = false ∧
      (3#32)[i] = false ∧ (4294967294#32)[i] = true := by
  decide

/-- The address of a word with flags in its low bits. -/
theorem and_nicDescAddr {a : Nat} {o : UInt32} (aligned : a % 4 = 0)
    (low : o = 0 ∨ o = 1 ∨ o = 2 ∨ o = 3) :
    (addrWord a ||| o) &&& nicDescAddr = addrWord a := by
  have bits := aligned_bits aligned
  generalize addrWord a = x at bits ⊢
  apply UInt32.eq_of_toBitVec_eq
  ext i bound
  by_cases small : i < 2
  · rcases (by omega : i = 0 ∨ i = 1) with rfl | rfl
    · simp [nicDescAddr, bits.1]
    · simp [nicDescAddr, bits.2]
  · obtain ⟨kept, one, two, three, -⟩ := high_bits ⟨i, bound⟩ (Nat.not_lt.mp small)
    simp only [Fin.getElem_fin] at kept one two three
    rcases low with rfl | rfl | rfl | rfl <;> simp [kept, one, two, three]

theorem wrapBit_cases (count i : Nat) : wrapBit count i = 0 ∨ wrapBit count i = 2 := by
  unfold wrapBit nicDescWrap
  split
  · exact .inr rfl
  · exact .inl rfl

section Words

variable (L : Layout) (r : Ring) {i : Nat} (own : Bool)

theorem slotWord_bits (inside : i < r.count) :
    (addrWord (L.descAt r.descs i)).toBitVec[0] = false ∧
      (addrWord (L.descAt r.descs i)).toBitVec[1] = false :=
  aligned_bits (descAt_bounds L r.descs (by rwa [ring_descs_count])).1

theorem engineOwns_slotWord (inside : i < r.count) :
    engineOwns (slotWord L r i own) = own := by
  have bits := slotWord_bits L r inside
  rw [engineOwns_eq, slotWord]
  rcases wrapBit_cases r.count i with wrap | wrap <;> rw [wrap] <;>
    cases own <;> simp [nicDescOwn, bits.1]

theorem slotWord_disowned (inside : i < r.count) :
    slotWord L r i own &&& ~~~nicDescOwn = slotWord L r i false := by
  have bits := slotWord_bits L r inside
  apply UInt32.eq_of_toBitVec_eq
  ext j bound
  rcases wrapBit_cases r.count i with wrap | wrap <;> by_cases small : j < 2
  · rcases (by omega : j = 0 ∨ j = 1) with rfl | rfl <;>
      cases own <;> simp [slotWord, nicDescOwn, wrap, bits.1, bits.2]
  · obtain ⟨-, one, -, -, kept⟩ := high_bits ⟨j, bound⟩ (Nat.not_lt.mp small)
    simp only [Fin.getElem_fin] at one kept
    cases own <;> simp [slotWord, nicDescOwn, wrap, one, kept]
  · rcases (by omega : j = 0 ∨ j = 1) with rfl | rfl <;>
      cases own <;> simp [slotWord, nicDescOwn, wrap, bits.1, bits.2]
  · obtain ⟨-, one, two, -, kept⟩ := high_bits ⟨j, bound⟩ (Nat.not_lt.mp small)
    simp only [Fin.getElem_fin] at one two kept
    cases own <;> simp [slotWord, nicDescOwn, wrap, one, two, kept]

theorem wordAddr_slotWord (inside : i < r.count) :
    wordAddr (slotWord L r i own) = L.descAt r.descs i := by
  have bounds := descAt_bounds L r.descs (i := i) (by rwa [ring_descs_count])
  have flags : (if own = true then nicDescOwn else 0) ||| wrapBit r.count i = 0 ∨
      (if own = true then nicDescOwn else 0) ||| wrapBit r.count i = 1 ∨
      (if own = true then nicDescOwn else 0) ||| wrapBit r.count i = 2 ∨
      (if own = true then nicDescOwn else 0) ||| wrapBit r.count i = 3 := by
    rcases wrapBit_cases r.count i with wrap | wrap <;> rw [wrap] <;>
      cases own <;> decide
  rw [wordAddr, slotWord, UInt32.or_assoc, and_nicDescAddr bounds.1 flags,
    addrWord_toNat bounds.2]

theorem wraps_iff (inside : i < r.count) :
    slotWord L r i own &&& nicDescWrap ≠ 0 ↔ i = r.count - 1 := by
  have bits := slotWord_bits L r inside
  rw [show nicDescWrap = UInt32.ofNat (2 ^ 1) from rfl, and_bit_ne_zero _ (by decide),
    BitVec.getLsbD_eq_getElem (by decide)]
  by_cases last : i = r.count - 1
  · have wrap : wrapBit r.count i = 2 := if_pos last
    refine iff_of_true ?_ last
    cases own <;> simp [slotWord, wrap, nicDescOwn]
  · have wrap : wrapBit r.count i = 0 := if_neg last
    refine iff_of_false ?_ last
    cases own <;> simp [slotWord, wrap, nicDescOwn, bits.2]

theorem afterWord_slotWord (inside : i < r.count) :
    afterWord (slotWord L r i own) i = (i + 1) % r.count := by
  have wraps := wraps_iff L r own inside
  unfold afterWord
  by_cases last : i = r.count - 1
  · rw [if_pos (wraps.mpr last), last, Nat.sub_add_cancel (Nat.zero_lt_of_lt inside),
      Nat.mod_self]
  · rw [if_neg (mt wraps.mp last), Nat.mod_eq_of_lt (by omega)]

end Words

/-! ## Slots and their stores -/

/-- A slot of the transmit ring or of the receive rings. -/
structure Slot where
  transmit : Bool
  index : Nat
deriving DecidableEq, Repr

/-- The ring of a transmit slot, and the two of a receive slot. -/
def Ring.transmit : Ring → Bool
  | .tx => true
  | _ => false

/-- The descriptors of a transmit slot, and those of a receive slot. -/
def Descs.transmit : Descs → Bool
  | .txPh => true
  | .txMb => true
  | _ => false

/-- The slot is one of its ring's. -/
def Slot.Exists (slot : Slot) : Prop :=
  slot.index < if slot.transmit then nicTxDesc else nicRxDesc

/-- The buffer of a slot. -/
def Layout.slotBuf (L : Layout) (slot : Slot) : Nat :=
  L.bufAt (if slot.transmit then nicRxDesc + slot.index else slot.index)

/-- A store to a slot, its bytes inside the slot's buffer. -/
def Store.Within (L : Layout) (slot : Slot) : Store → Prop
  | .ring r i _ => r.transmit = slot.transmit ∧ i = slot.index
  | .desc d i _ _ => d.transmit = slot.transmit ∧ i = slot.index
  | .byte a _ => L.slotBuf slot ≤ a ∧ a < L.slotBuf slot + nicBufSz

/-- Two memories hold the same in a slot. -/
structure Mem.AgreeOn (L : Layout) (slot : Slot) (m m' : Mem) : Prop where
  ring : ∀ r, r.transmit = slot.transmit → m'.ring r slot.index = m.ring r slot.index
  desc : ∀ d word, d.transmit = slot.transmit →
    m'.desc d slot.index word = m.desc d slot.index word
  byte : ∀ a, L.slotBuf slot ≤ a → a < L.slotBuf slot + nicBufSz → m'.byte a = m.byte a

section Frame

variable {L : Layout} {slot other : Slot} {m m' : Mem}

theorem Mem.AgreeOn.refl (m : Mem) : Mem.AgreeOn L slot m m :=
  ⟨fun _ _ => rfl, fun _ _ _ => rfl, fun _ _ _ => rfl⟩

theorem Mem.AgreeOn.trans {m'' : Mem} (first : Mem.AgreeOn L slot m m')
    (second : Mem.AgreeOn L slot m' m'') : Mem.AgreeOn L slot m m'' where
  ring r side := (second.ring r side).trans (first.ring r side)
  desc d word side := (second.desc d word side).trans (first.desc d word side)
  byte a low high := (second.byte a low high).trans (first.byte a low high)

/-- The buffers of different slots are apart. -/
theorem slotBuf_apart (exists' : slot.Exists) (otherExists : other.Exists)
    (different : slot ≠ other) :
    L.slotBuf slot + nicBufSz ≤ L.slotBuf other ∨
      L.slotBuf other + nicBufSz ≤ L.slotBuf slot := by
  obtain ⟨transmit, i⟩ := slot
  obtain ⟨transmit', j⟩ := other
  have unequal : transmit = transmit' → i ≠ j := by
    rintro rfl rfl
    exact different rfl
  cases transmit <;> cases transmit' <;>
    simp [Slot.Exists, Layout.slotBuf, Layout.bufAt, nicBufSz, nicRxDesc, nicTxDesc]
      at exists' otherExists unequal ⊢ <;> omega

/-- A store to another slot leaves a slot as it is. -/
theorem agreeOn_store (exists' : slot.Exists) (otherExists : other.Exists)
    (different : slot ≠ other) {st : Store} (within : st.Within L other) (m : Mem) :
    Mem.AgreeOn L slot m (m.store st) := by
  have apart := slotBuf_apart (L := L) exists' otherExists different
  have unequal : slot.transmit = other.transmit → slot.index ≠ other.index := by
    intro side index
    exact different (by cases slot; cases other; simp_all)
  cases st with
  | ring r i v =>
      obtain ⟨side, rfl⟩ := within
      refine ⟨fun r' side' => ?_, fun _ _ _ => rfl, fun _ _ _ => rfl⟩
      simp only [Mem.store]
      rw [if_neg]
      rintro ⟨rfl, same⟩
      exact unequal (side'.symm.trans side) same
  | desc d i word v =>
      obtain ⟨side, rfl⟩ := within
      refine ⟨fun _ _ => rfl, fun d' word' side' => ?_, fun _ _ _ => rfl⟩
      simp only [Mem.store]
      rw [if_neg]
      rintro ⟨rfl, same, -⟩
      exact unequal (side'.symm.trans side) same
  | byte a v =>
      refine ⟨fun _ _ => rfl, fun _ _ _ => rfl, fun a' low high => ?_⟩
      have inside : L.slotBuf other ≤ a ∧ a < L.slotBuf other + nicBufSz := within
      simp only [Mem.store]
      rw [if_neg (by omega)]

theorem agreeOn_stores (exists' : slot.Exists) (otherExists : other.Exists)
    (different : slot ≠ other) {stores : List Store}
    (within : ∀ st ∈ stores, st.Within L other) (m : Mem) :
    Mem.AgreeOn L slot m (m.stores stores) := by
  induction stores generalizing m with
  | nil => exact .refl m
  | cons first rest ih =>
      exact (agreeOn_store exists' otherExists different
        (within first List.mem_cons_self) m).trans
          (ih (fun st member => within st (List.mem_cons_of_mem _ member)) _)

/-- The same store on either side keeps an agreement. -/
theorem Mem.AgreeOn.store (agree : Mem.AgreeOn L slot m m') (st : Store) :
    Mem.AgreeOn L slot (m.store st) (m'.store st) := by
  cases st with
  | ring r i v =>
      refine ⟨fun r' side => ?_, agree.desc, agree.byte⟩
      simp only [Mem.store]
      split
      · rfl
      · exact agree.ring r' side
  | desc d i word v =>
      refine ⟨agree.ring, fun d' word' side => ?_, agree.byte⟩
      simp only [Mem.store]
      split
      · rfl
      · exact agree.desc d' word' side
  | byte a v =>
      refine ⟨agree.ring, agree.desc, fun a' low high => ?_⟩
      simp only [Mem.store]
      split
      · rfl
      · exact agree.byte a' low high

theorem Mem.AgreeOn.stores (agree : Mem.AgreeOn L slot m m') (stores : List Store) :
    Mem.AgreeOn L slot (m.stores stores) (m'.stores stores) := by
  induction stores generalizing m m' with
  | nil => exact agree
  | cons first rest ih => exact ih (agree.store first)

end Frame

/-! ## Bytes -/

theorem storeBytes_append (a : Nat) (first rest : List UInt8) :
    storeBytes a (first ++ rest) =
      storeBytes a first ++ storeBytes (a + first.length) rest := by
  induction first generalizing a with
  | nil => rfl
  | cons b first ih =>
      simp [storeBytes, ih, Nat.add_comm, Nat.add_left_comm]

theorem stores_storeBytes (m : Mem) (a : Nat) (data : List UInt8) :
    m.stores (storeBytes a data) =
      { m with byte := m.byte.blit a data.length (ByteMap.ofList data 0) } := by
  induction data generalizing a m with
  | nil => simp [storeBytes]
  | cons b data ih =>
      rw [storeBytes, Mem.stores_cons, ih]
      simp only [Mem.store]
      congr 1
      funext x
      simp only [ByteMap.blit, ByteMap.ofList, List.length_cons]
      by_cases later : a + 1 ≤ x ∧ x < a + 1 + data.length
      · rw [if_pos later, if_pos (by omega), show x - a = x - (a + 1) + 1 by omega,
          List.getD_cons_succ]
      · rw [if_neg later]
        by_cases here : x = a
        · subst here
          rw [if_pos rfl, if_pos (by omega), Nat.sub_self, List.getD_cons_zero]
        · rw [if_neg here, if_neg (by omega)]

theorem storeBytes_within {L : Layout} {slot : Slot} {a : Nat} {data : List UInt8}
    (low : L.slotBuf slot ≤ a) (high : a + data.length ≤ L.slotBuf slot + nicBufSz) :
    ∀ st ∈ storeBytes a data, st.Within L slot := by
  induction data generalizing a with
  | nil => nofun
  | cons b data ih =>
      intro st member
      rw [List.length_cons] at high
      rcases List.mem_cons.mp member with rfl | later
      · exact ⟨low, by omega⟩
      · exact ih (by omega) (by omega) st later

/-- A list laid out in memory is read back. -/
theorem slice_blit_ofList (bytes : ByteMap) (a : Nat) (data : List UInt8) :
    (bytes.blit a data.length (ByteMap.ofList data 0)).slice a data.length = data := by
  rw [ByteMap.slice_blit_self]
  simpa using ByteMap.slice_ofList [] data [] 0

/-! ## Handing a slot over -/

/-- Stores to a slot that are left, of which the last one hands the slot over. -/
structure Handing (L : Layout) (slot : Slot) (Before After : Mem → Prop) (m : Mem)
    (left : List Store) : Prop where
  more : left ≠ []
  within : ∀ st ∈ left, st.Within L slot
  before : ∀ done rest, left = done ++ rest → rest ≠ [] → Before (m.stores done)
  after : After (m.stores left)

/-- What every store keeps, all of them keep. -/
theorem Mem.stores_keep (Kept : Mem → Prop) {stores : List Store} {m : Mem}
    (keep : ∀ st ∈ stores, ∀ m, Kept m → Kept (m.store st)) (now : Kept m) :
    Kept (m.stores stores) := by
  induction stores generalizing m with
  | nil => exact now
  | cons first rest ih =>
      exact ih (fun st member => keep st (List.mem_cons_of_mem _ member))
        (keep first List.mem_cons_self m now)

/-- Stores to a slot leave the bytes outside its buffer as they are. -/
theorem stores_byte_outside {L : Layout} {slot : Slot} {stores : List Store}
    (within : ∀ st ∈ stores, st.Within L slot) {a : Nat}
    (outside : ¬ (L.slotBuf slot ≤ a ∧ a < L.slotBuf slot + nicBufSz)) (m : Mem) :
    (m.stores stores).byte a = m.byte a := by
  refine Mem.stores_keep (fun n => n.byte a = m.byte a) (fun st member n same => ?_) rfl
  rw [← same]
  cases st with
  | ring r i v => rfl
  | desc d i word v => rfl
  | byte b v =>
      have inside := within _ member
      refine if_neg ?_
      rintro rfl
      exact outside inside

namespace Handing

variable {L : Layout} {slot : Slot} {Before After : Mem → Prop} {m m' : Mem}
  {first last : Store} {left : List Store}

/-- Stores that keep what was before, and one more. -/
theorem of_quiet (now : Before m)
    (within : ∀ st ∈ left, st.Within L slot) (lastWithin : last.Within L slot)
    (quiet : ∀ st ∈ left, ∀ m, Before m → Before (m.store st))
    (after : After (m.stores (left ++ [last]))) :
    Handing L slot Before After m (left ++ [last]) where
  more := by simp
  within := by
    intro st member
    rcases List.mem_append.mp member with early | late
    · exact within st early
    · rwa [List.mem_singleton.mp late]
  before := by
    intro done rest split more
    have kept : done <+: left := by
      rcases rest.eq_nil_or_concat with rfl | ⟨rest', final, rfl⟩
      · exact absurd rfl more
      · rw [List.concat_eq_append, ← List.append_assoc] at split
        exact ⟨rest', ((List.append_inj' split rfl).1).symm⟩
    exact Mem.stores_keep Before (fun st member => quiet st (kept.subset member)) now
  after := after

theorem now (handing : Handing L slot Before After m left) : Before m :=
  handing.before [] left rfl handing.more

theorem first_within (handing : Handing L slot Before After m (first :: left)) :
    first.Within L slot :=
  handing.within first List.mem_cons_self

/-- A store to the slot leaves another slot as it is. -/
theorem apart (handing : Handing L slot Before After m (first :: left))
    {other : Slot} (exists' : slot.Exists) (otherExists : other.Exists)
    (different : other ≠ slot) : Mem.AgreeOn L other m (m.store first) :=
  agreeOn_store otherExists exists' different handing.first_within m

theorem last_after (handing : Handing L slot Before After m [last]) :
    After (m.store last) :=
  handing.after

/-- A store is made and others are left. -/
theorem next (handing : Handing L slot Before After m (first :: left))
    (more : left ≠ []) : Handing L slot Before After (m.store first) left where
  more := more
  within st member := handing.within st (List.mem_cons_of_mem _ member)
  before done rest split nonempty :=
    handing.before (first :: done) rest (by rw [split, List.cons_append]) nonempty
  after := handing.after

/-- What happens outside the slot does not matter. -/
theorem congr (handing : Handing L slot Before After m left)
    (agree : Mem.AgreeOn L slot m m')
    (before : ∀ n n', Mem.AgreeOn L slot n n' → Before n → Before n')
    (after : ∀ n n', Mem.AgreeOn L slot n n' → After n → After n') :
    Handing L slot Before After m' left where
  more := handing.more
  within := handing.within
  before done rest split more :=
    before _ _ (agree.stores done) (handing.before done rest split more)
  after := after _ _ (agree.stores left) handing.after

end Handing

end RlxFw.Nic
