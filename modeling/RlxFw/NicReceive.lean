import RlxFw.NicTransmit

/-!
# The receive rings

From the harvest's position on, the slots hold what the engine put in and the
harvest has not passed up; the others are the engine's, but the one that is being
handed back.
-/

namespace RlxFw.Nic

/-- A receive slot's two ring words, and its descriptors. -/
structure RxShape (L : Layout) (i : Nat) (header buffer : Bool) (m : Mem) : Prop where
  rx : m.ring .rx i = slotWord L .rx i header
  mb : m.ring .mb i = slotWord L .mb i buffer
  link : m.desc .rxPh i 0 = addrWord (L.descAt .rxMb i)
  address : m.desc .rxMb i 3 = addrWord (L.bufAt i + nicRxOffset)
  size : nicPhLen (m.desc .rxMb i 5) = nicBufSz - nicRxOffset

/-- The slot is on its way back to the engine. -/
def RxReturning (L : Layout) (i : Nat) (m : Mem) : Prop :=
  ∃ buffer, RxShape L i false buffer m

/-- A receive slot that holds a frame for the driver. -/
structure RxHeld (L : Layout) (i : Nat) (frame : List UInt8) (m : Mem) : Prop where
  shape : RxShape L i false false m
  length : nicPhLen (m.desc .rxPh i 1) = frame.length + 4
  bytes : ∀ k (inside : k < frame.length), k < nicBufSz - nicRxOffset →
    m.byte (L.bufAt i + nicRxOffset + k) = frame[k]

section Slots

variable {L : Layout} {i : Nat} {header buffer : Bool} {frame : List UInt8}
  {m m' : Mem}

theorem RxShape.congr (agree : Mem.AgreeOn L ⟨false, i⟩ m m')
    (shape : RxShape L i header buffer m) : RxShape L i header buffer m' where
  rx := (agree.ring .rx rfl).trans shape.rx
  mb := (agree.ring .mb rfl).trans shape.mb
  link := (agree.desc .rxPh 0 rfl).trans shape.link
  address := (agree.desc .rxMb 3 rfl).trans shape.address
  size := by
    rw [show m'.desc .rxMb i 5 = m.desc .rxMb i 5 from agree.desc .rxMb 5 rfl]
    exact shape.size

theorem RxReturning.congr (agree : Mem.AgreeOn L ⟨false, i⟩ m m')
    (returning : RxReturning L i m) : RxReturning L i m' :=
  returning.imp fun _ shape => shape.congr agree

theorem RxHeld.congr (agree : Mem.AgreeOn L ⟨false, i⟩ m m')
    (held : RxHeld L i frame m) : RxHeld L i frame m' where
  shape := held.shape.congr agree
  length := by
    rw [show m'.desc .rxPh i 1 = m.desc .rxPh i 1 from agree.desc .rxPh 1 rfl]
    exact held.length
  bytes k inside small := by
    rw [← held.bytes k inside small]
    apply agree.byte
    · simp only [Layout.slotBuf]
      exact Nat.le_add_right_of_le (Nat.le_add_right _ _)
    · simp only [Layout.slotBuf, nicBufSz, nicRxOffset] at small ⊢
      simp only [Bool.false_eq_true, if_false]
      omega

theorem RxShape.engineOwns (inside : i < nicRxDesc)
    (shape : RxShape L i header buffer m) :
    engineOwns (m.ring .rx i) = header ∧ engineOwns (m.ring .mb i) = buffer := by
  rw [shape.rx, shape.mb]
  exact ⟨engineOwns_slotWord L .rx header inside, engineOwns_slotWord L .mb buffer inside⟩

/-! ## Handing a slot back -/

/-- The stores of `nic_refill` before the last. -/
def nicRefillQuiet (L : Layout) (i : Nat) : List Store :=
  [.desc .rxMb i 3 (addrWord (L.bufAt i + nicRxOffset)),
    .desc .rxMb i 4 (addrWord (L.bufAt i + nicRxOffset)),
    .desc .rxMb i 2 (nicMbMk2 0 nicMbFlagsInit),
    .desc .rxPh i 1 0,
    .ring .mb i (slotWord L .mb i true)]

theorem nicRefill_eq (L : Layout) (i : Nat) :
    nicRefill L i = nicRefillQuiet L i ++ [.ring .rx i (slotWord L .rx i true)] := rfl

theorem nicRefillQuiet_keeps {st : Store} (member : st ∈ nicRefillQuiet L i) :
    st.Within L ⟨false, i⟩ ∧
      ∀ m, RxReturning L i m → RxReturning L i (m.store st) := by
  simp only [nicRefillQuiet, List.mem_cons, List.not_mem_nil, or_false] at member
  rcases member with rfl | rfl | rfl | rfl | rfl <;>
    refine ⟨⟨rfl, rfl⟩, fun m ⟨buffer, shape⟩ => ?_⟩
  · exact ⟨buffer, shape.rx, shape.mb, shape.link, by simp [Mem.store],
      by simpa [Mem.store] using shape.size⟩
  · exact ⟨buffer, shape.rx, shape.mb, shape.link,
      by simpa [Mem.store] using shape.address, by simpa [Mem.store] using shape.size⟩
  · exact ⟨buffer, shape.rx, shape.mb, shape.link,
      by simpa [Mem.store] using shape.address, by simpa [Mem.store] using shape.size⟩
  · exact ⟨buffer, shape.rx, shape.mb, by simpa [Mem.store] using shape.link,
      shape.address, shape.size⟩
  · exact ⟨true, by simpa [Mem.store] using shape.rx, by simp [Mem.store], shape.link,
      shape.address, shape.size⟩

/-- The slot goes back: the buffer's ring word before the header's. -/
theorem nicRefill_handing (returning : RxReturning L i m) :
    Handing L ⟨false, i⟩ (RxReturning L i) (RxShape L i true true) m
      (nicRefill L i) := by
  rw [nicRefill_eq]
  apply Handing.of_quiet returning
  · exact fun st member => (nicRefillQuiet_keeps member).1
  · exact ⟨rfl, rfl⟩
  · exact fun st member => (nicRefillQuiet_keeps member).2
  · obtain ⟨buffer, shape⟩ := returning
    constructor
    · simp [nicRefillQuiet, Mem.store]
    · simp [nicRefillQuiet, Mem.store]
    · simpa [nicRefillQuiet, Mem.store] using shape.link
    · simp [nicRefillQuiet, Mem.store]
    · simpa [nicRefillQuiet, Mem.store] using shape.size

theorem nicRefill_no_bytes {st : Store} (member : st ∈ nicRefill L i) (a : Nat)
    (v : UInt8) : st ≠ .byte a v := by
  simp only [nicRefill, List.mem_cons, List.not_mem_nil, or_false] at member
  rcases member with rfl | rfl | rfl | rfl | rfl | rfl <;> nofun

end Slots

/-! ## The invariant -/

/-- What the harvest passes up of a frame. -/
def passedUp (frame : List UInt8) (alloc : Bool) : Option (List UInt8) :=
  if 0 < frame.length ∧ frame.length ≤ nicBufSz - nicRxOffset ∧ alloc then some frame
  else none

/-- The slot that the harvest is at is being handed back. -/
def RxPc.returning : RxPc → Bool
  | .refill _ _ => true
  | _ => false

theorem RxPc.returning_eq {pc : RxPc} (returning : pc.returning = true) :
    ∃ budget left, pc = .refill budget left := by
  cases pc with
  | refill budget left => exact ⟨budget, left, rfl⟩
  | _ => exact absurd returning nofun

/-- The first slot that the harvest has not dealt with. -/
def Dma.rxFront (s : Dma) : Nat :=
  match s.rx with
  | .refill _ _ => (s.rxIdx + 1) % nicRxDesc
  | .advance _ => (s.rxIdx + 1) % nicRxDesc
  | _ => s.rxIdx

/-- The slot is being handed back. -/
def Dma.Returning (s : Dma) (i : Nat) : Prop := s.rx.returning = true ∧ i = s.rxIdx

/-- What the harvest knows where it is. -/
def RxThread (L : Layout) (s : Dma) (waiting : List (List UInt8)) : Prop :=
  match s.rx with
  | .describe _ => waiting ≠ []
  | .copy _ bf len got => ∃ frame rest, waiting = frame :: rest ∧
      0 < frame.length ∧ frame.length ≤ nicBufSz - nicRxOffset ∧
      bf = L.bufAt s.rxIdx + nicRxOffset ∧ len = frame.length ∧ got <+: frame
  | .refill _ left => left <:+ nicRefill L s.rxIdx ∧
      Handing L ⟨false, s.rxIdx⟩ (RxReturning L s.rxIdx)
        (RxShape L s.rxIdx true true) s.mem left
  | _ => True

/-- The frames `waiting` are in the receive rings, and `done` have been dealt with. -/
structure RxInv (cfg : DmaConfig) (s : Dma) (done waiting : List (List UInt8)) :
    Prop where
  arrived : s.arrived = done ++ waiting
  outcomes : List.Forall₂ (fun frame o => Outcome.up o = passedUp frame o.alloc) done
    s.outcomes
  index : s.rxIdx < nicRxDesc
  queue : RingQueue nicRxDesc
    (fun i frame => RxHeld cfg.layout i frame s.mem ∧ ¬ s.Returning i)
    (fun i => s.Returning i ∨ RxShape cfg.layout i true true s.mem) s.rxFront waiting
  header : s.engineRx = (s.rxFront + waiting.length) % nicRxDesc
  buffer : s.engineMb = s.engineRx
  thread : RxThread cfg.layout s waiting

/-- The receive side but its slots is as it was. -/
structure SameReceive (s s' : Dma) : Prop where
  rxIdx : s'.rxIdx = s.rxIdx
  rx : s'.rx = s.rx
  engineRx : s'.engineRx = s.engineRx
  engineMb : s'.engineMb = s.engineMb
  arrived : s'.arrived = s.arrived
  outcomes : s'.outcomes = s.outcomes

theorem SameReceive.rxFront {s s' : Dma} (same : SameReceive s s') :
    s'.rxFront = s.rxFront := by
  rw [Dma.rxFront, same.rx, same.rxIdx, Dma.rxFront]

/-! ## The engine -/

/-- The engine's stores when it puts a frame into a slot. -/
def receiveStores (L : Layout) (i : Nat) (frame fcs : List UInt8)
    (extport srcext : UInt32) : List Store :=
  storeBytes (L.bufAt i + nicRxOffset) ((frame ++ fcs).take (nicBufSz - nicRxOffset)) ++
    [.desc .rxMb i 2 (nicMbMk2 (UInt32.ofNat (frame.length + 4)) nicMbFlagsInit),
      .desc .rxPh i 0 (addrWord (L.descAt .rxMb i)),
      .desc .rxPh i 1 (nicPhMk1 (UInt32.ofNat (frame.length + 4)) extport srcext),
      .ring .mb i (slotWord L .mb i false),
      .ring .rx i (slotWord L .rx i false)]

section Stores

variable {L : Layout} {i : Nat} {m : Mem} (frame fcs : List UInt8)
  (extport srcext : UInt32)

theorem receiveStores_within :
    ∀ st ∈ receiveStores L i frame fcs extport srcext, st.Within L ⟨false, i⟩ := by
  intro st member
  rcases List.mem_append.mp member with byte | word
  · refine storeBytes_within ?_ ?_ st byte
    · exact Nat.le_add_right _ _
    · simp only [List.length_take, Layout.slotBuf, nicBufSz, nicRxOffset]
      simp only [Bool.false_eq_true, if_false]
      omega
  · simp only [List.mem_cons, List.not_mem_nil, or_false] at word
    rcases word with rfl | rfl | rfl | rfl | rfl <;> exact ⟨rfl, rfl⟩

theorem receiveStores_held (shape : RxShape L i true true m)
    (small : frame.length + 4 < 65536) :
    RxHeld L i frame (m.stores (receiveStores L i frame fcs extport srcext)) := by
  rw [receiveStores, Mem.stores_append, stores_storeBytes]
  refine ⟨⟨?_, ?_, ?_, ?_, ?_⟩, ?_, ?_⟩
  · simp [Mem.store]
  · simp [Mem.store]
  · simp [Mem.store]
  · simpa [Mem.store] using shape.address
  · simpa [Mem.store] using shape.size
  · simpa [Mem.store] using nicPhLen_mk1 small extport srcext
  · intro k inside fits
    have written : k < ((frame ++ fcs).take (nicBufSz - nicRxOffset)).length := by
      rw [List.length_take, List.length_append]
      omega
    simp only [Mem.stores_cons, Mem.stores_nil, Mem.store]
    rw [ByteMap.blit_inside (Nat.le_add_right _ _) (Nat.add_lt_add_left written _),
      Nat.add_sub_cancel_left, ByteMap.ofList, List.getD_eq_getElem _ _ written,
      List.getElem_take, List.getElem_append_left inside]

end Stores

theorem nicRxLen_of_length {w1 : UInt32} {len : Nat} (length : nicPhLen w1 = len + 4) :
    nicRxLen w1 = if len ≤ nicBufSz - nicRxOffset then len else 0 := by
  simp only [nicRxLen, length, Nat.le_add_left, if_true, Nat.add_sub_cancel]
  by_cases fits : len ≤ nicBufSz - nicRxOffset
  · rw [if_neg (Nat.not_lt.mpr fits), if_pos fits]
  · rw [if_pos (Nat.not_le.mp fits), if_neg fits]

theorem bufAt_lt (L : Layout) {i : Nat} (inside : i < nicRxDesc) :
    L.bufAt i + nicRxOffset < 2 ^ 32 := by
  have := L.fits
  simp only [nicRxDesc, Layout.bufAt, Layout.bufs, nicBufSz, nicRxOffset] at inside ⊢
  omega

/-- The header of a slot leads to the slot's own buffer. -/
theorem RxShape.nicPhBuf {cfg : DmaConfig} {i : Nat} {header buffer : Bool} {m : Mem}
    (inside : i < nicRxDesc) (shape : RxShape cfg.layout i header buffer m) :
    nicPhBuf cfg m i = cfg.layout.bufAt i + nicRxOffset := by
  obtain ⟨aligned, small⟩ := descAt_bounds cfg.layout .rxMb inside
  have bare := and_nicDescAddr (o := 0) aligned (.inl rfl)
  rw [UInt32.or_zero] at bare
  rw [Nic.nicPhBuf, shape.link, shape.address, wordAddr, bare, addrWord_toNat small,
    if_pos rfl, addrWord_toNat (bufAt_lt cfg.layout inside)]

namespace RxInv

variable {cfg : DmaConfig} {s s' : Dma} {done waiting : List (List UInt8)}

/-- What leaves the receive side and its slots alone keeps the invariant. -/
theorem frame (inv : RxInv cfg s done waiting)
    (agree : ∀ i < nicRxDesc, Mem.AgreeOn cfg.layout ⟨false, i⟩ s.mem s'.mem)
    (same : SameReceive s s') : RxInv cfg s' done waiting where
  arrived := by rw [same.arrived, inv.arrived]
  outcomes := by
    rw [same.outcomes]
    exact inv.outcomes
  index := by
    rw [same.rxIdx]
    exact inv.index
  queue := by
    rw [same.rxFront]
    simp only [Dma.Returning, same.rx, same.rxIdx]
    exact inv.queue.mono
      (fun i inside _ full => ⟨full.1.congr (agree i inside), full.2⟩)
      (fun i inside free => free.imp_right (·.congr (agree i inside)))
  header := by
    rw [same.rxFront, same.engineRx]
    exact inv.header
  buffer := by
    rw [same.engineRx, same.engineMb]
    exact inv.buffer
  thread := by
    have thread := inv.thread
    unfold RxThread at thread ⊢
    rw [same.rx, same.rxIdx]
    split <;> rename_i pc <;> simp only [pc] at thread
    · exact thread
    · exact thread
    · exact ⟨thread.1, thread.2.congr (agree _ inv.index)
        (fun _ _ agree => RxReturning.congr agree) (fun _ _ agree => RxShape.congr agree)⟩
    · trivial

theorem refilling (inv : RxInv cfg s done waiting) {budget : Nat} {left : List Store}
    (pc : s.rx = .refill budget left) :
    left <:+ nicRefill cfg.layout s.rxIdx ∧
      Handing cfg.layout ⟨false, s.rxIdx⟩ (RxReturning cfg.layout s.rxIdx)
        (RxShape cfg.layout s.rxIdx true true) s.mem left := by
  have thread := inv.thread
  rwa [RxThread, pc] at thread

theorem copying (inv : RxInv cfg s done waiting) {budget bf len : Nat}
    {got : List UInt8} (pc : s.rx = .copy budget bf len got) :
    ∃ frame rest, waiting = frame :: rest ∧ 0 < frame.length ∧
      frame.length ≤ nicBufSz - nicRxOffset ∧
      bf = cfg.layout.bufAt s.rxIdx + nicRxOffset ∧ len = frame.length ∧
      got <+: frame := by
  have thread := inv.thread
  rwa [RxThread, pc] at thread

theorem describing (inv : RxInv cfg s done waiting) {budget : Nat}
    (pc : s.rx = .describe budget) : waiting ≠ [] := by
  have thread := inv.thread
  rwa [RxThread, pc] at thread

/-- The slot that the engine is at is a free one, or it is not the engine's. -/
theorem engine_cases (inv : RxInv cfg s done waiting) :
    (waiting.length < nicRxDesc ∧ ¬ s.Returning s.engineRx ∧
        RxShape cfg.layout s.engineRx true true s.mem) ∨
      engineOwns (s.mem.ring .rx s.engineRx) = false := by
  have bound : s.engineRx < nicRxDesc := by
    rw [inv.header]
    exact inv.queue.slot_lt _
  rcases inv.queue.tail_cases with ⟨room, free⟩ | ⟨frame, rest, -, held⟩
  · rw [← inv.header] at free
    by_cases returning : s.Returning s.engineRx
    · obtain ⟨refilling, here⟩ := returning
      obtain ⟨budget, left, pc⟩ := RxPc.returning_eq refilling
      obtain ⟨buffer, shape⟩ := (inv.refilling pc).2.now
      rw [here]
      exact .inr (shape.engineOwns inv.index).1
    · exact .inl ⟨room, returning, free.resolve_left returning⟩
  · rw [← inv.header] at held
    exact .inr (held.1.shape.engineOwns bound).1

theorem engineRx_lt (inv : RxInv cfg s done waiting) : s.engineRx < nicRxDesc := by
  rw [inv.header]
  exact inv.queue.slot_lt _

/-- The engine puts a frame into a free slot, or does nothing. -/
theorem engineReceive_eq (inv : RxInv cfg s done waiting) (frame fcs : List UInt8)
    (extport srcext : UInt32) :
    engineReceive cfg.layout frame fcs extport srcext s = s ∨
      (waiting.length < nicRxDesc ∧ ¬ s.Returning s.engineRx ∧
        RxShape cfg.layout s.engineRx true true s.mem ∧ frame.length + 4 < 65536 ∧
        engineReceive cfg.layout frame fcs extport srcext s =
          { s with
            mem := s.mem.stores
              (receiveStores cfg.layout s.engineRx frame fcs extport srcext)
            engineRx := (s.engineRx + 1) % nicRxDesc
            engineMb := (s.engineRx + 1) % nicRxDesc
            arrived := s.arrived ++ [frame] }) := by
  have inside := inv.engineRx_lt
  rcases inv.engine_cases with ⟨room, free, shape⟩ | own
  · by_cases small : frame.length + 4 < 65536
    · refine .inr ⟨room, free, shape, small, ?_⟩
      have header : cfg.layout.descIndex .rxPh
          (cfg.layout.descAt (Ring.descs .rx) s.engineRx) = some s.engineRx :=
        descIndex_descAt cfg.layout .rxPh inside
      have mbuf : cfg.layout.descIndex .rxMb
          (cfg.layout.descAt (Ring.descs .mb) s.engineRx) = some s.engineRx :=
        descIndex_descAt cfg.layout .rxMb inside
      have address : (addrWord (cfg.layout.bufAt s.engineRx + nicRxOffset)).toNat =
          cfg.layout.bufAt s.engineRx + nicRxOffset := addrWord_toNat (bufAt_lt cfg.layout inside)
      rw [engineReceive]
      simp only [inv.buffer, shape.rx, shape.mb,
        engineOwns_slotWord cfg.layout .rx true inside,
        engineOwns_slotWord cfg.layout .mb true inside, small, and_self, if_true, header,
        mbuf, shape.address, address, shape.size,
        wordAddr_slotWord cfg.layout .rx true inside,
        wordAddr_slotWord cfg.layout .mb true inside,
        slotWord_disowned cfg.layout .rx true inside,
        slotWord_disowned cfg.layout .mb true inside,
        afterWord_slotWord cfg.layout .rx true inside,
        afterWord_slotWord cfg.layout .mb true inside]
      rfl
    · left
      rw [engineReceive]
      simp [small]
  · left
    rw [engineReceive]
    simp [own]

/-- What the engine puts in, it puts into its own slot. -/
theorem engineReceive_apart (inv : RxInv cfg s done waiting) (frame fcs : List UInt8)
    (extport srcext : UInt32) {slot : Slot} (exists' : slot.Exists)
    (other : slot ≠ ⟨false, s.engineRx⟩) :
    Mem.AgreeOn cfg.layout slot s.mem
      (engineReceive cfg.layout frame fcs extport srcext s).mem := by
  rcases inv.engineReceive_eq frame fcs extport srcext with same | ⟨-, -, -, -, received⟩
  · rw [same]
    exact .refl s.mem
  · have engine : Slot.Exists ⟨false, s.engineRx⟩ := inv.engineRx_lt
    rw [received]
    exact agreeOn_stores exists' engine other
      (receiveStores_within frame fcs extport srcext) s.mem

theorem engineReceive_keeps (inv : RxInv cfg s done waiting) (frame fcs : List UInt8)
    (extport srcext : UInt32) :
    ∃ waiting', RxInv cfg (engineReceive cfg.layout frame fcs extport srcext s) done
      waiting' := by
  have apart : ∀ i < nicRxDesc, i ≠ s.engineRx →
      Mem.AgreeOn cfg.layout ⟨false, i⟩ s.mem
        (engineReceive cfg.layout frame fcs extport srcext s).mem := by
    intro i bound other
    exact inv.engineReceive_apart frame fcs extport srcext
      (show Slot.Exists ⟨false, i⟩ from bound) (by simpa using other)
  rcases inv.engineReceive_eq frame fcs extport srcext with
    same | ⟨room, free, shape, small, received⟩
  · rw [same]
    exact ⟨waiting, inv⟩
  have held := receiveStores_held frame fcs extport srcext shape small
  rw [received] at apart ⊢
  refine ⟨waiting ++ [frame], ⟨?_, inv.outcomes, inv.index, ?_, ?_, rfl, ?_⟩⟩
  · simp [inv.arrived]
  · refine inv.queue.push room ?_ ?_ ?_
    · rw [← inv.header]
      exact ⟨held, free⟩
    · rw [← inv.header]
      intro i bound other frame full
      exact ⟨full.1.congr (apart i bound other), full.2⟩
    · rw [← inv.header]
      intro i bound other empty
      exact empty.imp_right (·.congr (apart i bound other))
  · rw [List.length_append, List.length_singleton, inv.header, Nat.mod_add_mod,
      Nat.add_assoc]
    rfl
  · have thread := inv.thread
    unfold RxThread at thread ⊢
    split <;> rename_i pc <;> simp only at pc <;> simp only [pc] at thread
    · simp
    · obtain ⟨head, rest, rfl, facts⟩ := thread
      exact ⟨head, rest ++ [frame], rfl, facts⟩
    · have other : s.rxIdx ≠ s.engineRx := by
        intro same
        exact free ⟨by simp [RxPc.returning, pc], same.symm⟩
      exact ⟨thread.1, thread.2.congr (apart _ inv.index other)
        (fun _ _ agree => RxReturning.congr agree) (fun _ _ agree => RxShape.congr agree)⟩
    · trivial

/-- The slot that the harvest looks at is the engine's when nothing waits, and holds
the first frame otherwise. -/
theorem front_cases (inv : RxInv cfg s done waiting) (front : s.rxFront = s.rxIdx) :
    (waiting = [] ∧ (s.Returning s.rxIdx ∨
        engineOwns (s.mem.ring .rx s.rxIdx) = true)) ∨
      ∃ frame rest, waiting = frame :: rest ∧ RxHeld cfg.layout s.rxIdx frame s.mem := by
  rcases inv.queue.head_cases with ⟨none, free⟩ | ⟨frame, rest, some, held⟩
  · rw [front] at free
    exact .inl ⟨none, free.imp_right fun shape => (shape.engineOwns inv.index).1⟩
  · rw [front] at held
    exact .inr ⟨frame, rest, some, held.1⟩

/-- A change of the harvest's place, at the same slot and with nothing stored. -/
theorem moved (inv : RxInv cfg s done waiting) {pc : RxPc}
    (before : s.rx.returning = false) (after : pc.returning = false)
    (front : ({ s with rx := pc } : Dma).rxFront = s.rxFront)
    (thread : RxThread cfg.layout { s with rx := pc } waiting) :
    RxInv cfg { s with rx := pc } done waiting where
  arrived := inv.arrived
  outcomes := inv.outcomes
  index := inv.index
  queue := by
    rw [front]
    have queue := inv.queue
    simp only [Dma.Returning, before, after] at queue ⊢
    exact queue
  header := by
    rw [front]
    exact inv.header
  buffer := inv.buffer
  thread := thread

/-- The frame at the harvest's slot has been dealt with: the slot goes back. -/
theorem settle {frame : List UInt8} {rest : List (List UInt8)}
    (inv : RxInv cfg s done (frame :: rest)) (front : s.rxFront = s.rxIdx)
    (before : s.rx.returning = false) {o : Outcome}
    (settled : o.up = passedUp frame o.alloc) (budget : Nat) :
    RxInv cfg
      { s with
        rx := .refill budget (nicRefill cfg.layout s.rxIdx)
        outcomes := s.outcomes ++ [o] } (done ++ [frame]) rest where
  arrived := by rw [inv.arrived, List.append_assoc, List.singleton_append]
  outcomes := List.rel_append inv.outcomes (.cons settled .nil)
  index := inv.index
  queue := by
    have queue := inv.queue
    rw [front] at queue
    refine queue.pop (.inl ⟨rfl, rfl⟩) ?_ ?_
    · exact fun i bound other frame full => ⟨full.1, fun returning => other returning.2⟩
    · refine fun i bound other free => .inr (free.resolve_left fun returning => ?_)
      exact absurd (returning.1.symm.trans before) nofun
  header := by
    show s.engineRx = ((s.rxIdx + 1) % nicRxDesc + rest.length) % nicRxDesc
    rw [inv.header, front, List.length_cons, Nat.mod_add_mod, Nat.add_assoc,
      Nat.add_comm 1]
  buffer := inv.buffer
  thread := by
    have held : RxHeld cfg.layout s.rxIdx frame s.mem := by
      rcases inv.front_cases front with ⟨⟨⟩, -⟩ | ⟨_, _, ⟨⟩, held⟩
      exact held
    exact ⟨List.suffix_refl _, nicRefill_handing ⟨false, held.shape⟩⟩

/-- A step of the harvest deals with the frames in the order in which they came. -/
theorem harvestStep (inv : RxInv cfg s done waiting) (alloc : Bool) :
    ∃ done' waiting', RxInv cfg (nicHarvestStep cfg alloc s) done' waiting' := by
  unfold nicHarvestStep
  split
  case h_1 => exact ⟨done, waiting, inv⟩
  case h_2 pc =>
    exact ⟨done, waiting, inv.moved (by simp [pc, RxPc.returning]) rfl
      (by simp [Dma.rxFront, pc]) trivial⟩
  case h_3 budget pc =>
    have front : s.rxFront = s.rxIdx := by simp [Dma.rxFront, pc]
    split
    · exact ⟨done, waiting, inv.moved (by simp [pc, RxPc.returning]) rfl front.symm trivial⟩
    · rename_i own
      rcases inv.front_cases front with ⟨-, returning | owned⟩ | ⟨frame, rest, rfl, -⟩
      · exact absurd returning.1 (by simp [pc, RxPc.returning])
      · exact absurd owned own
      · exact ⟨done, _, inv.moved (by simp [pc, RxPc.returning]) rfl front.symm nofun⟩
  case h_4 budget pc =>
    have front : s.rxFront = s.rxIdx := by simp [Dma.rxFront, pc]
    have before : s.rx.returning = false := by simp [pc, RxPc.returning]
    rcases inv.front_cases front with ⟨none, -⟩ | ⟨frame, rest, rfl, held⟩
    · exact absurd none (inv.describing pc)
    · have len := nicRxLen_of_length held.length
      simp only
      by_cases passed : 0 < frame.length ∧ frame.length ≤ nicBufSz - nicRxOffset ∧ alloc
      · obtain ⟨positive, fits, allocated⟩ := passed
        rw [if_pos fits] at len
        rw [len, if_pos ⟨positive.ne', allocated⟩]
        refine ⟨done, _, inv.moved before rfl front.symm ?_⟩
        exact ⟨frame, rest, rfl, positive, fits, held.shape.nicPhBuf inv.index, rfl,
          List.nil_prefix⟩
      · rw [if_neg]
        · exact ⟨_, _, inv.settle front before (if_neg passed).symm budget⟩
        · rintro ⟨nonzero, allocated⟩
          rw [len] at nonzero
          split at nonzero
          · rename_i fits
            exact passed ⟨Nat.pos_of_ne_zero nonzero, fits, allocated⟩
          · exact nonzero rfl
  case h_5 budget bf len got pc =>
    have front : s.rxFront = s.rxIdx := by simp [Dma.rxFront, pc]
    have before : s.rx.returning = false := by simp [pc, RxPc.returning]
    obtain ⟨frame, rest, rfl, positive, fits, rfl, rfl, got'⟩ := inv.copying pc
    rcases inv.front_cases front with ⟨⟨⟩, -⟩ | ⟨_, _, ⟨⟩, held⟩
    split
    · rename_i more
      refine ⟨done, _, inv.moved before rfl front.symm ?_⟩
      refine ⟨frame, rest, rfl, positive, fits, rfl, rfl, ?_⟩
      have read : got ++ [frame[got.length]] = frame.take (got.length + 1) := by
        rw [← List.take_append_getElem more, ← List.prefix_iff_eq_take.mp got']
      rw [held.bytes _ more (by omega), read]
      exact List.take_prefix _ _
    · rename_i whole
      have all : got = frame := got'.eq_of_length (by have := got'.length_le; omega)
      refine ⟨_, _, inv.settle front before ?_ budget⟩
      rw [passedUp, if_pos ⟨positive, fits, rfl⟩, all]
  case h_6 budget pc => exact absurd rfl (inv.refilling pc).2.more
  case h_7 budget last pc =>
    obtain ⟨-, handing⟩ := inv.refilling pc
    have returning : s.rx.returning = true := by simp [pc, RxPc.returning]
    have front : s.rxFront = (s.rxIdx + 1) % nicRxDesc := by simp [Dma.rxFront, pc]
    have apart : ∀ i < nicRxDesc, i ≠ s.rxIdx →
        Mem.AgreeOn cfg.layout ⟨false, i⟩ s.mem (s.mem.store last) :=
      fun i inside other => handing.apart inv.index inside (by simpa using other)
    refine ⟨done, waiting, ⟨inv.arrived, inv.outcomes, inv.index, ?_, ?_, inv.buffer,
      trivial⟩⟩
    · have queue := inv.queue
      rw [front] at queue
      refine queue.mono ?_ ?_
      · intro i inside frame full
        exact ⟨full.1.congr (apart i inside fun same => full.2 ⟨returning, same⟩),
          fun back => absurd back.1 nofun⟩
      · intro i inside free
        right
        by_cases same : i = s.rxIdx
        · exact same ▸ handing.last_after
        · exact (free.resolve_left fun back => same back.2).congr (apart i inside same)
    · rw [inv.header, front]
      rfl
  case h_8 budget first left more pc =>
    obtain ⟨⟨skipped, suffix'⟩, handing⟩ := inv.refilling pc
    have returning : s.rx.returning = true := by simp [pc, RxPc.returning]
    have front : s.rxFront = (s.rxIdx + 1) % nicRxDesc := by simp [Dma.rxFront, pc]
    have apart : ∀ i < nicRxDesc, i ≠ s.rxIdx →
        Mem.AgreeOn cfg.layout ⟨false, i⟩ s.mem (s.mem.store first) :=
      fun i inside other => handing.apart inv.index inside (by simpa using other)
    refine ⟨done, waiting, ⟨inv.arrived, inv.outcomes, inv.index, ?_, ?_, inv.buffer, ?_⟩⟩
    · have queue := inv.queue
      rw [front] at queue
      refine queue.mono ?_ ?_
      · intro i inside frame full
        exact ⟨full.1.congr (apart i inside fun same => full.2 ⟨returning, same⟩),
          fun back => full.2 ⟨returning, back.2⟩⟩
      · intro i inside free
        by_cases same : i = s.rxIdx
        · exact .inl ⟨rfl, same⟩
        · exact .inr ((free.resolve_left fun back => same back.2).congr
            (apart i inside same))
    · rw [inv.header, front]
      rfl
    · exact ⟨⟨skipped ++ [first], by rw [← suffix', List.append_assoc]; rfl⟩,
        handing.next more⟩
  case h_9 budget pc =>
    have front : s.rxFront = (s.rxIdx + 1) % nicRxDesc := by simp [Dma.rxFront, pc]
    refine ⟨done, waiting, ⟨inv.arrived, inv.outcomes, Nat.mod_lt _ (by decide), ?_, ?_,
      inv.buffer, trivial⟩⟩
    · have queue := inv.queue
      simp only [Dma.Returning, pc, RxPc.returning] at queue ⊢
      rw [front] at queue
      simpa [Dma.rxFront] using queue
    · rw [inv.header, front]
      rfl

/-- A step of the harvest leaves the slots but its own as they are. -/
theorem harvestStep_apart (inv : RxInv cfg s done waiting) (alloc : Bool) {slot : Slot}
    (exists' : slot.Exists) (other : slot ≠ ⟨false, s.rxIdx⟩) :
    Mem.AgreeOn cfg.layout slot s.mem (nicHarvestStep cfg alloc s).mem := by
  unfold nicHarvestStep
  split
  case h_7 budget last pc =>
    exact (inv.refilling pc).2.apart inv.index exists' other
  case h_8 budget first left more pc =>
    exact (inv.refilling pc).2.apart inv.index exists' other
  case h_3 => split <;> exact .refl s.mem
  case h_4 => simp only; split <;> exact .refl s.mem
  case h_5 => split <;> exact .refl s.mem
  all_goals exact .refl s.mem

end RxInv

end RlxFw.Nic
