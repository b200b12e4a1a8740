import RlxFw.NicSlots
import RlxFw.RingQueue

/-!
# The transmit ring

From the engine's position on, the slots hold what `nic_xmit` put in and the engine
has not sent; the others are the driver's.
-/

namespace RlxFw.Nic

/-- A frame padded with zeros to 60 bytes. -/
def pad60 (data : List UInt8) : List UInt8 :=
  data ++ List.replicate (60 - data.length) 0

theorem pad60_length (data : List UInt8) : (pad60 data).length = txLength data := by
  simp only [pad60, List.length_append, List.length_replicate, txLength]
  omega

/-- A transmit slot's ring word and the descriptor it leads to. -/
structure TxShape (L : Layout) (i : Nat) (own : Bool) (m : Mem) : Prop where
  word : m.ring .tx i = slotWord L .tx i own
  link : m.desc .txPh i 0 = addrWord (L.descAt .txMb i)

/-- A transmit slot that holds a frame for the engine. -/
structure TxFull (L : Layout) (pol : Nic15Pol) (i : Nat) (data : List UInt8)
    (m : Mem) : Prop where
  shape : TxShape L i true m
  buffer : m.desc .txMb i 3 = addrWord (L.txBuf pol i)
  length : nicPhLen (m.desc .txPh i 1) = txLength data + 4
  bytes : m.byte.slice (L.txBuf pol i) (txLength data) = pad60 data
  fits : data.length ≤ txMax

section Slots

variable {L : Layout} {pol : Nic15Pol} {i : Nat} {own : Bool} {data : List UInt8}
  {m m' : Mem}

/-- A frame's bytes are inside its slot's buffer. -/
theorem txBuf_bounds (L : Layout) (pol : Nic15Pol) (i : Nat) {len : Nat}
    (fits : len ≤ txMax) :
    L.slotBuf ⟨true, i⟩ ≤ L.txBuf pol i ∧
      L.txBuf pol i + max len 60 ≤ L.slotBuf ⟨true, i⟩ + nicBufSz := by
  have := pol.offset
  simp only [Layout.slotBuf, Layout.txBuf, if_true, nicBufSz, txMax, nicRxOffset]
    at fits ⊢
  omega

theorem txBuf_lt (L : Layout) (pol : Nic15Pol) (inside : i < nicTxDesc) :
    L.txBuf pol i < 2 ^ 32 := by
  have := pol.offset
  have := L.fits
  simp only [nicTxDesc, Layout.txBuf, Layout.bufAt, Layout.bufs, nicRxDesc, nicBufSz]
    at inside ⊢
  omega

theorem TxShape.congr (agree : Mem.AgreeOn L ⟨true, i⟩ m m')
    (shape : TxShape L i own m) : TxShape L i own m' where
  word := (agree.ring .tx rfl).trans shape.word
  link := (agree.desc .txPh 0 rfl).trans shape.link

theorem TxFull.congr (agree : Mem.AgreeOn L ⟨true, i⟩ m m')
    (full : TxFull L pol i data m) : TxFull L pol i data m' where
  shape := full.shape.congr agree
  buffer := (agree.desc .txMb 3 rfl).trans full.buffer
  length := by
    rw [show m'.desc .txPh i 1 = m.desc .txPh i 1 from agree.desc .txPh 1 rfl]
    exact full.length
  bytes := by
    rw [← full.bytes]
    obtain ⟨low, high⟩ := txBuf_bounds L pol i full.fits
    apply ByteMap.slice_congr
    intro a below above
    exact agree.byte a (by omega) (by simp only [txLength] at above; omega)
  fits := full.fits

theorem TxShape.engineOwns (inside : i < nicTxDesc) (shape : TxShape L i own m) :
    engineOwns (m.ring .tx i) = own := by
  rw [shape.word]
  exact engineOwns_slotWord L .tx own inside

/-! ## Filling a slot -/

/-- The descriptor stores of `nic_xmit`. -/
def nicFillDescs (L : Layout) (pol : Nic15Pol) (i len : Nat) : List Store :=
  [.desc .txMb i 3 (addrWord (L.txBuf pol i)),
    .desc .txMb i 4 (addrWord (L.txBuf pol i)),
    .desc .txMb i 2 (nicMbMk2 (UInt32.ofNat (nic15Mlen len pol.txlen)) nicMbFlagsInit),
    .desc .txMb i 5
      (nicMbMk5 (UInt32.ofNat (nic15Ext len pol.txlen (nicBufSz - nicRxOffset)))),
    .desc .txPh i 1 (nicPhMk1 (UInt32.ofNat (len + 4)) 0 0),
    .desc .txPh i 3 (nicPhMk3 nicPhFlagsTxDefault 0x3F),
    .desc .txPh i 4 0]

theorem nicFill_eq (L : Layout) (pol : Nic15Pol) (i : Nat) (data : List UInt8) :
    nicFill L pol i data =
      storeBytes (L.txBuf pol i) (pad60 data) ++
        nicFillDescs L pol i (txLength data) ++ [.ring .tx i (slotWord L .tx i true)] := by
  rw [nicFill, pad60, storeBytes_append]
  simp only [List.append_assoc]
  rfl

/-- The descriptor stores leave the link as it is. -/
theorem nicFillDescs_quiet {len : Nat} {st : Store}
    (member : st ∈ nicFillDescs L pol i len) :
    st.Within L ⟨true, i⟩ ∧ (m.store st).ring = m.ring ∧
      (m.store st).desc .txPh i 0 = m.desc .txPh i 0 := by
  simp only [nicFillDescs, List.mem_cons, List.not_mem_nil, or_false] at member
  rcases member with rfl | rfl | rfl | rfl | rfl | rfl | rfl <;>
    exact ⟨⟨rfl, rfl⟩, rfl, by simp [Mem.store]⟩

theorem storeBytes_quiet {a : Nat} {bytes : List UInt8} {st : Store}
    (member : st ∈ storeBytes a bytes) :
    (m.store st).ring = m.ring ∧ (m.store st).desc = m.desc := by
  induction bytes generalizing a with
  | nil => exact absurd member List.not_mem_nil
  | cons b rest ih =>
      rcases List.mem_cons.mp member with rfl | later
      · exact ⟨rfl, rfl⟩
      · exact ih later

/-- The slot is filled, and the last store hands it to the engine. -/
theorem nicFill_handing (shape : TxShape L i false m) (fits : data.length ≤ txMax) :
    Handing L ⟨true, i⟩ (TxShape L i false) (TxFull L pol i data) m
      (nicFill L pol i data) := by
  obtain ⟨low, high⟩ := txBuf_bounds L pol i fits
  have size : (pad60 data).length = max data.length 60 := pad60_length data
  rw [nicFill_eq]
  apply Handing.of_quiet shape
  · intro st member
    rcases List.mem_append.mp member with byte | word
    · exact storeBytes_within low (by omega) st byte
    · exact (nicFillDescs_quiet (m := m) word).1
  · exact ⟨rfl, rfl⟩
  · intro st member n shape
    rcases List.mem_append.mp member with byte | word
    · obtain ⟨ring, desc⟩ := storeBytes_quiet (m := n) byte
      exact ⟨by rw [ring, shape.word], by rw [desc, shape.link]⟩
    · obtain ⟨-, ring, link⟩ := nicFillDescs_quiet (m := n) word
      exact ⟨by rw [ring, shape.word], by rw [link, shape.link]⟩
  · rw [Mem.stores_append, Mem.stores_append, stores_storeBytes]
    have length : txLength data + 4 < 65536 := by
      simp only [txLength, txMax, nicBufSz, nicRxOffset] at fits ⊢
      omega
    refine ⟨⟨by simp [Mem.store], ?_⟩, by simp [nicFillDescs, Mem.store], ?_, ?_, fits⟩
    · simpa [nicFillDescs, Mem.store] using shape.link
    · simpa [nicFillDescs, Mem.store] using nicPhLen_mk1 length 0 0
    · have written := slice_blit_ofList m.byte (L.txBuf pol i) (pad60 data)
      rw [pad60_length] at written
      simpa [nicFillDescs, Mem.store, pad60_length] using written

end Slots

/-! ## The invariant -/

theorem descIndex_descAt (L : Layout) (d : Descs) {i : Nat} (inside : i < d.count) :
    L.descIndex d (L.descAt d i) = some i := by
  have offset : L.descAt d i - L.descsAt d = i * nicDescBytes := by
    rw [Layout.descAt, Nat.add_sub_cancel_left]
  rw [Layout.descIndex, offset, if_pos, Nat.mul_div_cancel i (by decide)]
  refine ⟨Nat.le_add_right _ _, Nat.add_lt_add_left ?_ _, Nat.mul_mod_left _ _⟩
  exact Nat.mul_lt_mul_of_pos_right inside (by decide)

/-- The descriptor that a word without flags points to. -/
theorem descIndex_addrWord (L : Layout) (d : Descs) {i : Nat} (inside : i < d.count) :
    L.descIndex d (wordAddr (addrWord (L.descAt d i))) = some i := by
  obtain ⟨aligned, small⟩ := descAt_bounds L d inside
  have bare := and_nicDescAddr (o := 0) aligned (.inl rfl)
  rw [UInt32.or_zero] at bare
  rw [wordAddr, bare, addrWord_toNat small, descIndex_descAt L d inside]

/-- The slot that `nic_xmit` fills next. -/
def Dma.txNext (s : Dma) : Nat :=
  if s.tx = .bell then (s.txIdx + 1) % nicTxDesc else s.txIdx

/-- The transmit side but its slots is as it was. -/
structure SameTransmit (s s' : Dma) : Prop where
  txIdx : s'.txIdx = s.txIdx
  tx : s'.tx = s.tx
  engineTx : s'.engineTx = s.engineTx
  accepted : s'.accepted = s.accepted
  taken : s'.taken = s.taken

/-- The frames `waiting` are in the transmit ring. -/
structure TxInv (cfg : DmaConfig) (s : Dma) (waiting : List (List UInt8)) : Prop where
  history : s.accepted.map pad60 = s.taken ++ waiting.map pad60
  queue : RingQueue nicTxDesc (fun i data => TxFull cfg.layout cfg.pol i data s.mem)
    (fun i => TxShape cfg.layout i false s.mem) s.engineTx waiting
  next : s.txNext = (s.engineTx + waiting.length) % nicTxDesc
  index : s.txIdx < nicTxDesc
  filling : ∀ data left, s.tx = .fill data left →
    Handing cfg.layout ⟨true, s.txIdx⟩ (TxShape cfg.layout s.txIdx false)
      (TxFull cfg.layout cfg.pol s.txIdx data) s.mem left

namespace TxInv

variable {cfg : DmaConfig} {s s' : Dma} {waiting : List (List UInt8)}

/-- What leaves the transmit side and its slots alone keeps the invariant. -/
theorem frame (inv : TxInv cfg s waiting)
    (agree : ∀ i < nicTxDesc, Mem.AgreeOn cfg.layout ⟨true, i⟩ s.mem s'.mem)
    (same : SameTransmit s s') : TxInv cfg s' waiting where
  history := by rw [same.accepted, same.taken, inv.history]
  queue := by
    rw [same.engineTx]
    exact inv.queue.mono (fun i inside _ full => full.congr (agree i inside))
      (fun i inside shape => shape.congr (agree i inside))
  next := by
    rw [Dma.txNext, same.tx, same.txIdx, same.engineTx]
    exact inv.next
  index := by
    rw [same.txIdx]
    exact inv.index
  filling := by
    rw [same.tx, same.txIdx]
    intro data left here
    exact (inv.filling data left here).congr (agree _ inv.index)
      (fun _ _ agree shape => shape.congr agree) (fun _ _ agree full => full.congr agree)

/-- A step of `nic_xmit` that stores nothing and stays at its slot. -/
theorem quiet (inv : TxInv cfg s waiting) {pc : TxPc} (before : s.tx ≠ .bell)
    (bell : pc ≠ .bell) (fill : ∀ data left, pc ≠ .fill data left) :
    TxInv cfg { s with tx := pc } waiting where
  history := inv.history
  queue := inv.queue
  next := by
    rw [← inv.next, Dma.txNext, Dma.txNext, if_neg bell, if_neg before]
  index := inv.index
  filling data left here := absurd here (fill data left)

/-- The slot that `nic_xmit` is at is the driver's, or all slots are taken. -/
theorem slot_cases (inv : TxInv cfg s waiting) (before : s.tx ≠ .bell) :
    (waiting.length < nicTxDesc ∧ TxShape cfg.layout s.txIdx false s.mem) ∨
      engineOwns (s.mem.ring .tx s.txIdx) = true := by
  have here := inv.next
  rw [Dma.txNext, if_neg before] at here
  rcases inv.queue.tail_cases with ⟨room, free⟩ | ⟨data, rest, -, full⟩
  · exact .inl ⟨room, here ▸ free⟩
  · refine .inr ?_
    rw [← here] at full
    exact full.shape.engineOwns inv.index

/-- A step of `nic_xmit` leaves the slots but its own as they are. -/
theorem xmitStep_apart (inv : TxInv cfg s waiting) {slot : Slot}
    (exists' : slot.Exists) (other : slot ≠ ⟨true, s.txIdx⟩) :
    Mem.AgreeOn cfg.layout slot s.mem (nicXmitStep cfg s).mem := by
  unfold nicXmitStep
  split
  case h_4 data last pc => exact (inv.filling _ _ pc).apart inv.index exists' other
  case h_5 data first left more pc =>
    exact (inv.filling _ _ pc).apart inv.index exists' other
  case h_2 =>
    split
    · split <;> exact .refl s.mem
    · split <;> exact .refl s.mem
  all_goals exact .refl s.mem

/-- `nic_xmit` puts a frame in behind those that wait. -/
theorem xmitStep (inv : TxInv cfg s waiting) :
    ∃ waiting', TxInv cfg (nicXmitStep cfg s) waiting' := by
  unfold nicXmitStep
  split
  case h_1 => exact ⟨waiting, inv⟩
  case h_2 data retries pc =>
    have before : s.tx ≠ .bell := by simp [pc]
    split
    · split
      · exact ⟨waiting, inv.quiet before nofun nofun⟩
      · exact ⟨waiting, inv.quiet before nofun nofun⟩
    · split
      · exact ⟨waiting, inv.quiet before nofun nofun⟩
      · rename_i mine fits
        rcases inv.slot_cases before with ⟨-, shape⟩ | own
        · refine ⟨waiting, ⟨inv.history, inv.queue, ?_, inv.index, ?_⟩⟩
          · rw [← inv.next, Dma.txNext, Dma.txNext, if_neg before, if_neg nofun]
          · rintro _ _ ⟨⟩
            exact nicFill_handing shape (Nat.not_lt.mp fits)
        · exact absurd own mine
  case h_3 data pc => exact ⟨waiting, inv.quiet (by simp [pc]) nofun nofun⟩
  case h_4 data last pc =>
    have before : s.tx ≠ .bell := by simp [pc]
    have handing := inv.filling _ _ pc
    have here := inv.next
    rw [Dma.txNext, if_neg before] at here
    rcases inv.slot_cases before with ⟨room, -⟩ | own
    · have apart : ∀ i < nicTxDesc, i ≠ s.txIdx →
          Mem.AgreeOn cfg.layout ⟨true, i⟩ s.mem (s.mem.store last) :=
        fun i inside other => handing.apart inv.index inside (by simpa using other)
      refine ⟨waiting ++ [data], ⟨?_, ?_, ?_, inv.index, nofun⟩⟩
      · rw [List.map_append, inv.history, List.map_append, List.append_assoc]
      · refine inv.queue.push room ?_ ?_ ?_
        · rw [← here]
          exact handing.last_after
        · intro i inside other data full
          exact full.congr (apart i inside (here ▸ other))
        · intro i inside other shape
          exact shape.congr (apart i inside (here ▸ other))
      · rw [Dma.txNext, if_pos rfl, List.length_append, List.length_singleton, here,
          Nat.mod_add_mod, Nat.add_assoc]
    · exact absurd (handing.now.engineOwns inv.index) (by simp [own])
  case h_5 data first left more pc =>
    have before : s.tx ≠ .bell := by simp [pc]
    have handing := inv.filling _ _ pc
    have next := handing.next more
    have apart : ∀ i < nicTxDesc, i ≠ s.txIdx →
        Mem.AgreeOn cfg.layout ⟨true, i⟩ s.mem (s.mem.store first) :=
      fun i inside other => handing.apart inv.index inside (by simpa using other)
    refine ⟨waiting, ⟨inv.history, inv.queue.mono ?_ ?_, ?_, inv.index, ?_⟩⟩
    · intro i inside data' full
      by_cases same : i = s.txIdx
      · subst same
        have own := full.shape.engineOwns inv.index
        exact absurd (handing.now.engineOwns inv.index) (by simp [own])
      · exact full.congr (apart i inside same)
    · intro i inside shape
      by_cases same : i = s.txIdx
      · exact same ▸ next.now
      · exact shape.congr (apart i inside same)
    · rw [← inv.next, Dma.txNext, Dma.txNext, if_neg before, if_neg nofun]
    · rintro _ _ ⟨⟩
      exact next
  case h_6 pc =>
    refine ⟨waiting, ⟨inv.history, inv.queue, ?_, Nat.mod_lt _ (by decide), nofun⟩⟩
    rw [← inv.next, Dma.txNext, Dma.txNext, if_neg nofun, if_pos pc]

/-- The engine sends the frame that has waited longest, if there is one. -/
theorem engineSend_eq (inv : TxInv cfg s waiting) :
    (waiting = [] ∧ engineSend cfg.layout s = s) ∨
      ∃ data rest, waiting = data :: rest ∧
        engineSend cfg.layout s =
          { s with
            mem := s.mem.store (.ring .tx s.engineTx
              (slotWord cfg.layout .tx s.engineTx false))
            engineTx := (s.engineTx + 1) % nicTxDesc
            taken := s.taken ++ [pad60 data] } := by
  have inside : s.engineTx < nicTxDesc := inv.queue.head_lt
  rcases inv.queue.head_cases with ⟨none, shape⟩ | ⟨data, rest, some, full⟩
  · refine .inl ⟨none, ?_⟩
    rw [engineSend]
    simp [shape.engineOwns inside]
  · refine .inr ⟨data, rest, some, ?_⟩
    have word := full.shape.word
    have header : cfg.layout.descIndex .txPh
        (wordAddr (slotWord cfg.layout .tx s.engineTx true)) = .some s.engineTx := by
      rw [wordAddr_slotWord cfg.layout .tx true inside]
      exact descIndex_descAt cfg.layout .txPh inside
    have mbuf : cfg.layout.descIndex .txMb
        (wordAddr (s.mem.desc .txPh s.engineTx 0)) = .some s.engineTx := by
      rw [full.shape.link]
      exact descIndex_addrWord cfg.layout .txMb inside
    have address : (addrWord (cfg.layout.txBuf cfg.pol s.engineTx)).toNat =
        cfg.layout.txBuf cfg.pol s.engineTx :=
      addrWord_toNat (txBuf_lt cfg.layout cfg.pol inside)
    rw [engineSend]
    simp only [word, engineOwns_slotWord cfg.layout .tx true inside, if_true, header, mbuf,
      slotWord_disowned cfg.layout .tx true inside,
      afterWord_slotWord cfg.layout .tx true inside, full.buffer, address, full.length,
      Nat.add_sub_cancel, full.bytes]
    rfl

/-- The engine's step at a transmit slot leaves the other slots as they are. -/
theorem engineSend_apart (inv : TxInv cfg s waiting) {slot : Slot}
    (exists' : slot.Exists) (other : slot ≠ ⟨true, s.engineTx⟩) :
    Mem.AgreeOn cfg.layout slot s.mem (engineSend cfg.layout s).mem := by
  rcases inv.engineSend_eq with ⟨-, same⟩ | ⟨data, rest, -, sent⟩
  · rw [same]
    exact .refl s.mem
  · have within : (Store.ring .tx s.engineTx
        (slotWord cfg.layout .tx s.engineTx false)).Within cfg.layout
          ⟨true, s.engineTx⟩ := ⟨rfl, rfl⟩
    rw [sent]
    have engine : Slot.Exists ⟨true, s.engineTx⟩ := inv.queue.head_lt
    exact agreeOn_store exists' engine other within s.mem

theorem engineSend_keeps (inv : TxInv cfg s waiting) :
    ∃ waiting', TxInv cfg (engineSend cfg.layout s) waiting' ∧
      waiting' = waiting.tail ∧
      (engineSend cfg.layout s).accepted = s.accepted := by
  rcases inv.engineSend_eq with ⟨rfl, same⟩ | ⟨data, rest, rfl, sent⟩
  · rw [same]
    exact ⟨[], inv, rfl, rfl⟩
  have inside : s.engineTx < nicTxDesc := inv.queue.head_lt
  have own : engineOwns (s.mem.ring .tx s.engineTx) = true := by
    rcases inv.queue.head_cases with ⟨⟨⟩, -⟩ | ⟨_, _, -, full⟩
    exact full.shape.engineOwns inside
  have apart : ∀ i < nicTxDesc, i ≠ s.engineTx →
      Mem.AgreeOn cfg.layout ⟨true, i⟩ s.mem (engineSend cfg.layout s).mem := by
    intro i bound other
    exact inv.engineSend_apart (show Slot.Exists ⟨true, i⟩ from bound) (by simpa using other)
  refine ⟨rest, ⟨?_, ?_, ?_, ?_, ?_⟩, rfl, by rw [sent]⟩
  · rw [sent]
    simpa using inv.history
  · have popped : TxShape cfg.layout s.engineTx false (engineSend cfg.layout s).mem := by
      rw [sent]
      rcases inv.queue.head_cases with ⟨⟨⟩, -⟩ | ⟨_, _, -, full⟩
      exact ⟨by simp [Mem.store], full.shape.link⟩
    have queue := inv.queue.pop popped
      (fun i bound other _ full => TxFull.congr (apart i bound other) full)
      (fun i bound other shape => TxShape.congr (apart i bound other) shape)
    rw [sent] at queue ⊢
    exact queue
  · have next := inv.next
    rw [sent]
    simp only [Dma.txNext, List.length_cons] at next ⊢
    rw [next, Nat.mod_add_mod, Nat.add_assoc, Nat.add_comm 1]
  · rw [sent]
    exact inv.index
  · intro data' left here
    rw [sent] at here
    have handing := inv.filling data' left here
    have other : s.txIdx ≠ s.engineTx := by
      intro same
      have mine := handing.now.engineOwns inv.index
      rw [same, own] at mine
      exact absurd mine (by decide)
    have agree := apart _ inv.index other
    rw [sent] at agree ⊢
    exact handing.congr agree (fun _ _ agree shape => shape.congr agree)
      (fun _ _ agree full => full.congr agree)

/-- Each step of the engine sends what is accepted next. -/
theorem engineSend_taken (inv : TxInv cfg s waiting) :
    (engineSend cfg.layout s).taken =
      (s.accepted.map pad60).take (s.taken.length + 1) := by
  rw [inv.history, List.take_length_add_append]
  rcases inv.engineSend_eq with ⟨rfl, same⟩ | ⟨data, rest, rfl, sent⟩
  · simp [same]
  · simp [sent]

/-- The engine drains the ring. -/
theorem drains (inv : TxInv cfg s waiting) {n : Nat} (enough : waiting.length ≤ n) :
    ((dma cfg).run s (List.replicate n .engineSend)).1.taken = s.accepted.map pad60 := by
  induction n generalizing s waiting with
  | zero =>
      have none : waiting = [] := List.length_eq_zero_iff.mp (Nat.le_zero.mp enough)
      rw [inv.history, none]
      simp
  | succ n ih =>
      obtain ⟨waiting', inv', rfl, accepted⟩ := inv.engineSend_keeps
      rw [← accepted, ← ih inv' (by simp; omega)]
      rfl

end TxInv

end RlxFw.Nic
