import RlxFw.NicReceive

/-!
# Each frame once, in order

From a freshly armed ring, whatever the interleaving of the driver and the engine.
-/

namespace RlxFw.Nic

/-! ## A freshly armed ring -/

section Armed

variable {L : Layout} {side : Bool}

/-- Slots that are written one after the other. -/
theorem stores_each (Before After : Nat → Mem → Prop) {f : Nat → List Store} {n : Nat}
    (inside : ∀ i < n, Slot.Exists ⟨side, i⟩)
    (within : ∀ i, ∀ st ∈ f i, st.Within L ⟨side, i⟩)
    (beforeCongr : ∀ i m m', Mem.AgreeOn L ⟨side, i⟩ m m' → Before i m → Before i m')
    (afterCongr : ∀ i m m', Mem.AgreeOn L ⟨side, i⟩ m m' → After i m → After i m')
    (makes : ∀ i m, Before i m → After i (m.stores (f i)))
    {m : Mem} (before : ∀ i < n, Before i m) :
    (∀ i < n, After i (m.stores ((List.range n).flatMap f))) ∧
      ∀ slot : Slot, slot.Exists → (∀ i < n, slot ≠ ⟨side, i⟩) →
        Mem.AgreeOn L slot m (m.stores ((List.range n).flatMap f)) := by
  induction n with
  | zero => exact ⟨nofun, fun _ _ _ => .refl m⟩
  | succ n ih =>
      obtain ⟨made, apart⟩ := ih (fun i bound => inside i (by omega))
        (fun i bound => before i (by omega))
      have last : (List.range (n + 1)).flatMap f = (List.range n).flatMap f ++ f n := by
        rw [List.range_succ, List.flatMap_append, List.flatMap_singleton]
      have here := inside n (Nat.lt_succ_self n)
      rw [last, Mem.stores_append]
      refine ⟨fun i bound => ?_, fun slot exists' other => ?_⟩
      · by_cases same : i = n
        · subst same
          refine makes i _ (beforeCongr i _ _ (apart _ here fun j below => ?_)
            (before i bound))
          simp
          omega
        · have agree := agreeOn_stores (L := L) (inside i bound) here
            (by simpa using same) (within n) (m.stores ((List.range n).flatMap f))
          exact afterCongr i _ _ agree (made i (by omega))
      · exact (apart slot exists' fun i below => other i (by omega)).trans
          (agreeOn_stores exists' here (other n (Nat.lt_succ_self n)) (within n) _)

theorem allocRx_within (i : Nat) : ∀ st ∈ allocRx L i, st.Within L ⟨false, i⟩ := by
  simp [allocRx, Store.Within, Ring.transmit, Descs.transmit]

theorem allocTx_within (i : Nat) : ∀ st ∈ allocTx L i, st.Within L ⟨true, i⟩ := by
  simp [allocTx, Store.Within, Ring.transmit, Descs.transmit]

theorem nicRefill_within (i : Nat) : ∀ st ∈ nicRefill L i, st.Within L ⟨false, i⟩ := by
  simp [nicRefill, Store.Within, Ring.transmit, Descs.transmit]

theorem allocRx_shape (i : Nat) (m : Mem) :
    RxShape L i true true (m.stores (allocRx L i)) where
  rx := by simp [allocRx, Mem.store, slotWord, ownedWord]; rfl
  mb := by simp [allocRx, Mem.store, slotWord, ownedWord]; rfl
  link := by simp [allocRx, Mem.store]
  address := by simp [allocRx, Mem.store]
  size := by simp [allocRx, Mem.store]; decide

theorem allocTx_shape (i : Nat) (m : Mem) : TxShape L i false (m.stores (allocTx L i)) where
  word := by simp [allocTx, Mem.store, slotWord]; rfl
  link := by simp [allocTx, Mem.store]

theorem nicRefill_shape (i : Nat) (m : Mem) (shape : RxShape L i true true m) :
    RxShape L i true true (m.stores (nicRefill L i)) where
  rx := by simp [nicRefill_eq, nicRefillQuiet, Mem.store]
  mb := by simp [nicRefill_eq, nicRefillQuiet, Mem.store]
  link := by simpa [nicRefill_eq, nicRefillQuiet, Mem.store] using shape.link
  address := by simp [nicRefill_eq, nicRefillQuiet, Mem.store]
  size := by simpa [nicRefill_eq, nicRefillQuiet, Mem.store] using shape.size

/-- What `nic_do_arm` stores for a transmit slot. -/
def freeTx (L : Layout) (i : Nat) : List Store :=
  [.ring .tx i (addrWord (L.descAt .txPh i) ||| wrapBit nicTxDesc i)]

theorem freeTx_within (i : Nat) : ∀ st ∈ freeTx L i, st.Within L ⟨true, i⟩ := by
  simp [freeTx, Store.Within, Ring.transmit]

theorem freeTx_shape (i : Nat) (m : Mem) (shape : TxShape L i false m) :
    TxShape L i false (m.stores (freeTx L i)) where
  word := by simp [freeTx, Mem.store, slotWord]; rfl
  link := by simpa [freeTx, Mem.store] using shape.link

end Armed

/-- What `nic_do_alloc` and `nic_do_arm` leave: the receive slots are the engine's,
the transmit slots the driver's. -/
theorem armedMem_shapes (L : Layout) :
    (∀ i < nicRxDesc, RxShape L i true true (armedMem L)) ∧
      ∀ i < nicTxDesc, TxShape L i false (armedMem L) := by
  have rxExists : ∀ i < nicRxDesc, Slot.Exists ⟨false, i⟩ := fun _ bound => bound
  have txExists : ∀ i < nicTxDesc, Slot.Exists ⟨true, i⟩ := fun _ bound => bound
  have rxCongr : ∀ i m m', Mem.AgreeOn L ⟨false, i⟩ m m' → RxShape L i true true m →
      RxShape L i true true m' := fun _ _ _ agree => RxShape.congr agree
  have txCongr : ∀ i m m', Mem.AgreeOn L ⟨true, i⟩ m m' → TxShape L i false m →
      TxShape L i false m' := fun _ _ _ agree => TxShape.congr agree
  rw [armedMem, nicDoAlloc, nicDoArm, Mem.stores_append, Mem.stores_append,
    List.map_eq_flatMap]
  generalize ({ ring := _, desc := _, byte := _ } : Mem) = m
  obtain ⟨rx, -⟩ := stores_each (fun _ _ => True) (fun i => RxShape L i true true)
    rxExists allocRx_within (fun _ _ _ _ _ => trivial) rxCongr
    (fun i m _ => allocRx_shape i m) (m := m) (fun _ _ => trivial)
  generalize m.stores ((List.range nicRxDesc).flatMap (allocRx L)) = m at rx ⊢
  obtain ⟨tx, apart⟩ := stores_each (fun _ _ => True) (fun i => TxShape L i false)
    txExists allocTx_within (fun _ _ _ _ _ => trivial) txCongr
    (fun i m _ => allocTx_shape i m) (m := m) (fun _ _ => trivial)
  replace rx : ∀ i < nicRxDesc, RxShape L i true true
      (m.stores ((List.range nicTxDesc).flatMap (allocTx L))) := fun i bound =>
    (rx i bound).congr (apart ⟨false, i⟩ bound (by simp))
  generalize m.stores ((List.range nicTxDesc).flatMap (allocTx L)) = m at rx tx ⊢
  obtain ⟨rx, apart⟩ := stores_each (fun i => RxShape L i true true)
    (fun i => RxShape L i true true) rxExists nicRefill_within rxCongr rxCongr
    nicRefill_shape rx
  replace tx : ∀ i < nicTxDesc, TxShape L i false
      (m.stores ((List.range nicRxDesc).flatMap (nicRefill L))) := fun i bound =>
    (tx i bound).congr (apart ⟨true, i⟩ bound (by simp))
  generalize m.stores ((List.range nicRxDesc).flatMap (nicRefill L)) = m at rx tx ⊢
  obtain ⟨tx, apart⟩ := stores_each (fun i => TxShape L i false)
    (fun i => TxShape L i false) txExists freeTx_within txCongr txCongr freeTx_shape tx
  exact ⟨fun i bound => (rx i bound).congr (apart ⟨false, i⟩ bound (by simp)), tx⟩

/-! ## The run -/

/-- The invariants of both sides. -/
def DmaInv (cfg : DmaConfig) (s : Dma) : Prop :=
  ∃ sending done waiting, TxInv cfg s sending ∧ RxInv cfg s done waiting

variable {cfg : DmaConfig} {s : Dma} {sending done waiting : List (List UInt8)}

theorem armedDma_inv (cfg : DmaConfig) : DmaInv cfg (armedDma cfg.layout) := by
  obtain ⟨rx, tx⟩ := armedMem_shapes cfg.layout
  have txFirst : 0 < nicTxDesc := by decide
  have rxFirst : 0 < nicRxDesc := by decide
  refine ⟨[], [], [], ⟨rfl, .empty txFirst tx, rfl, txFirst, nofun⟩,
    ⟨rfl, .nil, rxFirst, ?_, rfl, rfl, trivial⟩⟩
  exact .empty rxFirst fun i bound => .inr (rx i bound)

theorem harvestStep_sameTransmit (cfg : DmaConfig) (alloc : Bool) (s : Dma) :
    SameTransmit s (nicHarvestStep cfg alloc s) := by
  unfold nicHarvestStep
  split
  case h_3 => split <;> exact ⟨rfl, rfl, rfl, rfl, rfl⟩
  case h_4 => simp only; split <;> exact ⟨rfl, rfl, rfl, rfl, rfl⟩
  case h_5 => split <;> exact ⟨rfl, rfl, rfl, rfl, rfl⟩
  all_goals exact ⟨rfl, rfl, rfl, rfl, rfl⟩

theorem engineReceive_sameTransmit (L : Layout) (frame fcs : List UInt8)
    (extport srcext : UInt32) (s : Dma) :
    SameTransmit s (engineReceive L frame fcs extport srcext s) := by
  unfold engineReceive
  simp only
  split
  · split <;> exact ⟨rfl, rfl, rfl, rfl, rfl⟩
  · exact ⟨rfl, rfl, rfl, rfl, rfl⟩

theorem xmitStep_sameReceive (cfg : DmaConfig) (s : Dma) :
    SameReceive s (nicXmitStep cfg s) := by
  unfold nicXmitStep
  split
  case h_2 =>
    split
    · split <;> exact ⟨rfl, rfl, rfl, rfl, rfl, rfl⟩
    · split <;> exact ⟨rfl, rfl, rfl, rfl, rfl, rfl⟩
  all_goals exact ⟨rfl, rfl, rfl, rfl, rfl, rfl⟩

theorem engineSend_sameReceive (L : Layout) (s : Dma) :
    SameReceive s (engineSend L s) := by
  unfold engineSend
  simp only
  split
  · split
    · exact ⟨rfl, rfl, rfl, rfl, rfl, rfl⟩
    · split <;> exact ⟨rfl, rfl, rfl, rfl, rfl, rfl⟩
  · exact ⟨rfl, rfl, rfl, rfl, rfl, rfl⟩

/-- A step of one side keeps its own invariant, and the other side's because it
stores into its own slots only. -/
theorem dma_step_keeps (inv : DmaInv cfg s) (e : DmaEvent) :
    DmaInv cfg ((dma cfg).step s e).1 := by
  obtain ⟨sending, done, waiting, tx, rx⟩ := inv
  have rxExists : ∀ i < nicRxDesc, Slot.Exists ⟨false, i⟩ := fun _ bound => bound
  have txExists : ∀ i < nicTxDesc, Slot.Exists ⟨true, i⟩ := fun _ bound => bound
  cases e with
  | xmit data =>
      simp only [dma]
      split
      · rename_i idle
        refine ⟨sending, done, waiting, tx.quiet (by simp [idle]) nofun nofun, ?_⟩
        exact rx.frame (fun _ _ => .refl s.mem) ⟨rfl, rfl, rfl, rfl, rfl, rfl⟩
      · exact ⟨sending, done, waiting, tx, rx⟩
  | xmitStep =>
      obtain ⟨sending', tx'⟩ := tx.xmitStep
      refine ⟨sending', done, waiting, tx', rx.frame (fun i bound => ?_)
        (xmitStep_sameReceive cfg s)⟩
      exact tx.xmitStep_apart (rxExists i bound) (by simp)
  | harvest budget =>
      simp only [dma]
      split
      · rename_i idle
        refine ⟨sending, done, waiting, ?_, ?_⟩
        · exact tx.frame (fun _ _ => .refl s.mem) ⟨rfl, rfl, rfl, rfl, rfl⟩
        · exact rx.moved (by simp [idle, RxPc.returning]) rfl (by simp [Dma.rxFront, idle])
            trivial
      · exact ⟨sending, done, waiting, tx, rx⟩
  | harvestStep alloc =>
      obtain ⟨done', waiting', rx'⟩ := rx.harvestStep alloc
      refine ⟨sending, done', waiting', tx.frame (fun i bound => ?_)
        (harvestStep_sameTransmit cfg alloc s), rx'⟩
      exact rx.harvestStep_apart alloc (txExists i bound) (by simp)
  | engineSend =>
      obtain ⟨sending', tx', -, -⟩ := tx.engineSend_keeps
      refine ⟨sending', done, waiting, tx', rx.frame (fun i bound => ?_)
        (engineSend_sameReceive cfg.layout s)⟩
      exact tx.engineSend_apart (rxExists i bound) (by simp)
  | engineReceive frame fcs extport srcext =>
      obtain ⟨waiting', rx'⟩ := rx.engineReceive_keeps frame fcs extport srcext
      refine ⟨sending, done, waiting', tx.frame (fun i bound => ?_)
        (engineReceive_sameTransmit cfg.layout frame fcs extport srcext s), rx'⟩
      exact rx.engineReceive_apart frame fcs extport srcext (txExists i bound) (by simp)

/-- Both invariants hold after every run. -/
theorem dma_run_inv (cfg : DmaConfig) (events : List DmaEvent) :
    DmaInv cfg ((dma cfg).run (armedDma cfg.layout) events).1 := by
  have keeps : ∀ s e, DmaInv cfg s → DmaInv cfg ((dma cfg).step s e).1 :=
    fun _ e inv => dma_step_keeps inv e
  exact (dma cfg).run_keeps keeps (armedDma_inv cfg) events

/-! ## The harvest comes to its end -/

/-- How many slots the harvest may still look at. -/
def RxPc.left : RxPc → Nat
  | .idle => 0
  | .look budget => budget
  | .describe budget => budget
  | .copy budget _ _ _ => budget
  | .refill budget _ => budget - 1
  | .advance budget => budget - 1

/-- The steps that a slot takes at most: its bytes, and a few. -/
@[irreducible] def slotSteps : Nat := 2060

/-- A bound for the steps that the harvest still takes. -/
def RxPc.rank : RxPc → Nat
  | .idle => 0
  | .look budget => slotSteps * budget + 1
  | .describe budget => slotSteps * budget
  | .copy budget _ _ got => slotSteps * budget - 1 - got.length
  | .refill budget left => slotSteps * (budget - 1) + 6 + left.length
  | .advance budget => slotSteps * (budget - 1) + 6

/-- A slot that is looked at was in the budget. -/
def RxPc.InBudget : RxPc → Prop
  | .idle => True
  | .look _ => True
  | .describe budget => 0 < budget
  | .copy budget _ _ _ => 0 < budget
  | .refill budget _ => 0 < budget
  | .advance budget => 0 < budget

/-- The harvest gets to every frame that is there. -/
structure Harvesting (s : Dma) : Prop where
  inBudget : s.rx.InBudget
  reaches : s.arrived.length ≤ s.outcomes.length + s.rx.left

theorem RxInv.dealt (inv : RxInv cfg s done waiting) :
    s.arrived.length = s.outcomes.length + waiting.length := by
  rw [inv.arrived, List.length_append, inv.outcomes.length_eq]

theorem harvestStep_progress (inv : RxInv cfg s done waiting) (alloc : Bool)
    (on : Harvesting s) (busy : s.rx ≠ .idle) :
    Harvesting (nicHarvestStep cfg alloc s) ∧
      (nicHarvestStep cfg alloc s).rx.rank < s.rx.rank ∧
      (nicHarvestStep cfg alloc s).arrived = s.arrived := by
  obtain ⟨inBudget, reaches⟩ := on
  unfold nicHarvestStep
  split <;> rename_i pc
  case h_1 => exact absurd pc busy
  case h_2 =>
    simp only [pc, RxPc.left] at reaches
    exact ⟨⟨trivial, reaches⟩, by rw [pc]; exact Nat.succ_pos _, rfl⟩
  case h_3 budget =>
    simp only [pc, RxPc.left] at reaches
    have front : s.rxFront = s.rxIdx := by simp [Dma.rxFront, pc]
    split
    · rename_i own
      rcases inv.front_cases front with ⟨rfl, -⟩ | ⟨frame, rest, -, held⟩
      · refine ⟨⟨trivial, ?_⟩, by rw [pc]; exact Nat.succ_pos _, rfl⟩
        exact inv.dealt.le
      · rw [(held.shape.engineOwns inv.index).1] at own
        exact absurd own (by decide)
    · exact ⟨⟨Nat.succ_pos budget, reaches⟩, by rw [pc]; exact Nat.lt_succ_self _, rfl⟩
  case h_4 budget =>
    simp only [pc, RxPc.left, RxPc.InBudget] at reaches inBudget
    simp only
    split
    · refine ⟨⟨inBudget, reaches⟩, ?_, rfl⟩
      simp only [pc, RxPc.rank, slotSteps, List.length_nil]
      omega
    · refine ⟨⟨inBudget, ?_⟩, ?_, rfl⟩
      · simp only [RxPc.left, List.length_append, List.length_singleton]
        omega
      · simp only [pc, RxPc.rank, slotSteps, nicRefill, List.length_cons, List.length_nil]
        omega
  case h_5 budget bf len got =>
    simp only [pc, RxPc.left, RxPc.InBudget] at reaches inBudget
    obtain ⟨frame, rest, -, -, fits, -, rfl, got'⟩ := inv.copying pc
    have short : got.length ≤ nicBufSz - nicRxOffset := got'.length_le.trans fits
    simp only [nicBufSz, nicRxOffset] at short
    split
    · refine ⟨⟨inBudget, reaches⟩, ?_, rfl⟩
      simp only [pc, RxPc.rank, slotSteps, List.length_append, List.length_singleton]
      omega
    · refine ⟨⟨inBudget, ?_⟩, ?_, rfl⟩
      · simp only [RxPc.left, List.length_append, List.length_singleton]
        omega
      · simp only [pc, RxPc.rank, slotSteps, nicRefill, List.length_cons, List.length_nil]
        omega
  case h_6 => exact absurd rfl (inv.refilling pc).2.more
  case h_7 budget last =>
    simp only [pc, RxPc.left, RxPc.InBudget] at reaches inBudget
    refine ⟨⟨inBudget, reaches⟩, ?_, rfl⟩
    simp only [pc, RxPc.rank, slotSteps, List.length_singleton]
    omega
  case h_8 budget first left more =>
    simp only [pc, RxPc.left, RxPc.InBudget] at reaches inBudget
    refine ⟨⟨inBudget, reaches⟩, ?_, rfl⟩
    simp only [pc, RxPc.rank, slotSteps, List.length_cons]
    omega
  case h_9 budget =>
    simp only [pc, RxPc.left, RxPc.InBudget] at reaches inBudget
    refine ⟨⟨trivial, reaches⟩, ?_, rfl⟩
    simp only [pc, RxPc.rank, slotSteps]
    omega

theorem harvest_idle (cfg : DmaConfig) (idle : s.rx = .idle) (allocs : List Bool) :
    ((dma cfg).run s (allocs.map .harvestStep)).1 = s := by
  have stays : ∀ alloc, nicHarvestStep cfg alloc s = s := by
    intro alloc
    rw [nicHarvestStep, idle]
  induction allocs with
  | nil => rfl
  | cons alloc rest ih =>
      simp only [List.map_cons, Reactor.run_cons, dma, stays]
      exact ih

/-- An idle harvest that got to every frame has dealt with every frame. -/
theorem harvest_dealt (inv : RxInv cfg s done waiting) (on : Harvesting s)
    (idle : s.rx = .idle) : s.outcomes.length = s.arrived.length := by
  have all := on.reaches
  rw [idle] at all
  exact Nat.le_antisymm (by rw [inv.dealt]; exact Nat.le_add_right _ _) all

theorem RxPc.rank_pos {pc : RxPc} (busy : pc ≠ .idle) (inBudget : pc.InBudget)
    (short : ∀ budget bf len got, pc = .copy budget bf len got →
      got.length ≤ nicBufSz - nicRxOffset) : 0 < pc.rank := by
  cases pc with
  | idle => exact absurd rfl busy
  | look budget => exact Nat.succ_pos _
  | copy budget bf len got =>
      have few := short _ _ _ _ rfl
      simp only [RxPc.InBudget, RxPc.rank, slotSteps, nicBufSz, nicRxOffset] at inBudget few ⊢
      omega
  | _ =>
      simp only [RxPc.InBudget, RxPc.rank, slotSteps] at inBudget ⊢
      omega

/-- Enough steps of the harvest deal with every frame that has arrived. -/
theorem harvest_ends (inv : RxInv cfg s done waiting) (on : Harvesting s)
    {allocs : List Bool} (enough : s.rx.rank ≤ allocs.length) :
    ((dma cfg).run s (allocs.map .harvestStep)).1.outcomes.length = s.arrived.length := by
  induction allocs generalizing s done waiting with
  | nil =>
      have idle : s.rx = .idle := by
        by_contra busy
        have pos := RxPc.rank_pos busy on.inBudget fun budget bf len got pc => by
          obtain ⟨frame, rest, -, -, fits, -, -, got'⟩ := inv.copying pc
          exact got'.length_le.trans fits
        exact absurd enough (Nat.not_le.mpr pos)
      exact harvest_dealt inv on idle
  | cons alloc rest ih =>
      by_cases idle : s.rx = .idle
      · rw [harvest_idle cfg idle]
        exact harvest_dealt inv on idle
      · obtain ⟨on', fewer, arrived⟩ := harvestStep_progress inv alloc on idle
        obtain ⟨done', waiting', inv'⟩ := inv.harvestStep alloc
        rw [← arrived]
        exact ih inv' on' (Nat.le_of_lt_succ (lt_of_lt_of_le fewer enough))

/-! ## The result -/

/-- A call of the harvest with room for the whole ring, and enough of its steps. -/
def harvestAll (budget : Nat) (allocs : List Bool) : List DmaEvent :=
  .harvest budget :: allocs.map .harvestStep

/-- The rings deliver each frame once, in order and unaltered. -/
structure Dma.Delivers (cfg : DmaConfig) (s : Dma) : Prop where
  /-- The engine took frames that the ring accepted: padded, in order, each once. -/
  taken : s.taken <+: s.accepted.map pad60
  /-- Its next step takes the next of them, when there is one. -/
  next : (engineSend cfg.layout s).taken =
    (s.accepted.map pad60).take (s.taken.length + 1)
  /-- None is left when it has gone around the ring. -/
  drained : ∀ n, nicTxDesc ≤ n →
    ((dma cfg).run s (List.replicate n .engineSend)).1.taken = s.accepted.map pad60
  /-- The driver writes bytes into the buffer of a slot that is its own. -/
  sentBytes : ∀ data a v left, s.tx = .fill data (.byte a v :: left) →
    s.txIdx < nicTxDesc ∧ engineOwns (s.mem.ring .tx s.txIdx) = false ∧
      cfg.layout.bufAt (nicRxDesc + s.txIdx) ≤ a ∧
      a < cfg.layout.bufAt (nicRxDesc + s.txIdx) + nicBufSz
  /-- It writes none when it hands a slot back. -/
  returnedBytes : ∀ budget a v left, s.rx ≠ .refill budget (.byte a v :: left)
  /-- The engine writes bytes into the buffer of a slot that is its own. -/
  receivedBytes : ∀ frame fcs extport srcext a,
    (engineReceive cfg.layout frame fcs extport srcext s).mem.byte a ≠ s.mem.byte a →
    s.engineRx < nicRxDesc ∧ engineOwns (s.mem.ring .rx s.engineRx) = true ∧
      cfg.layout.bufAt s.engineRx ≤ a ∧ a < cfg.layout.bufAt s.engineRx + nicBufSz
  /-- What was made of the frames, in the order in which they came. -/
  passed : List.Forall₂ (fun frame o => Outcome.up o = passedUp frame o.alloc)
    (s.arrived.take s.outcomes.length) s.outcomes
  /-- No frame is left when the harvest has gone around the ring. -/
  harvested : s.rx = .idle → ∀ budget allocs, nicRxDesc ≤ budget →
    slotSteps * budget + 1 ≤ allocs.length →
    ((dma cfg).run s (harvestAll budget allocs)).1.outcomes.length = s.arrived.length
  /-- The slot of a frame that is being copied has not been handed back. -/
  copied : ∀ budget bf len got, s.rx = .copy budget bf len got →
    engineOwns (s.mem.ring .rx s.rxIdx) = false ∧
      engineOwns (s.mem.ring .mb s.rxIdx) = false

theorem TxInv.sentBytes (inv : TxInv cfg s sending) {data : List UInt8} {a : Nat}
    {v : UInt8} {left : List Store} (pc : s.tx = .fill data (.byte a v :: left)) :
    s.txIdx < nicTxDesc ∧ engineOwns (s.mem.ring .tx s.txIdx) = false ∧
      cfg.layout.bufAt (nicRxDesc + s.txIdx) ≤ a ∧
      a < cfg.layout.bufAt (nicRxDesc + s.txIdx) + nicBufSz := by
  have handing := inv.filling _ _ pc
  exact ⟨inv.index, handing.now.engineOwns inv.index, handing.first_within⟩

theorem RxInv.receivedBytes (inv : RxInv cfg s done waiting) (frame fcs : List UInt8)
    (extport srcext : UInt32) {a : Nat}
    (written : (engineReceive cfg.layout frame fcs extport srcext s).mem.byte a ≠
      s.mem.byte a) :
    s.engineRx < nicRxDesc ∧ engineOwns (s.mem.ring .rx s.engineRx) = true ∧
      cfg.layout.bufAt s.engineRx ≤ a ∧ a < cfg.layout.bufAt s.engineRx + nicBufSz := by
  rcases inv.engineReceive_eq frame fcs extport srcext with
    same | ⟨-, -, shape, -, received⟩
  · exact absurd (by rw [same]) written
  · refine ⟨inv.engineRx_lt, (shape.engineOwns inv.engineRx_lt).1, ?_⟩
    by_contra outside
    rw [received] at written
    have within := receiveStores_within (L := cfg.layout) (i := s.engineRx) frame fcs
      extport srcext
    exact written (stores_byte_outside within outside s.mem)

theorem rings_deliver (cfg : DmaConfig) (events : List DmaEvent) :
    ((dma cfg).run (armedDma cfg.layout) events).1.Delivers cfg := by
  obtain ⟨sending, done, waiting, tx, rx⟩ := dma_run_inv cfg events
  generalize ((dma cfg).run (armedDma cfg.layout) events).1 = s at tx rx ⊢
  constructor
  case taken => exact ⟨_, tx.history.symm⟩
  case next => exact tx.engineSend_taken
  case drained => exact fun n enough => tx.drains (tx.queue.fits.trans enough)
  case sentBytes => exact fun data a v left pc => tx.sentBytes pc
  case returnedBytes =>
    intro budget a v left pc
    have first := (rx.refilling pc).1.subset List.mem_cons_self
    exact nicRefill_no_bytes first a v rfl
  case receivedBytes =>
    exact fun frame fcs extport srcext a written =>
      rx.receivedBytes frame fcs extport srcext written
  case passed =>
    rw [rx.arrived, ← rx.outcomes.length_eq, List.take_left]
    exact rx.outcomes
  case harvested =>
    intro idle budget allocs room enough
    have called : ((dma cfg).step s (.harvest budget)).1 = { s with rx := .look budget } := by
      simp [dma, idle]
    have inv : RxInv cfg { s with rx := .look budget } done waiting :=
      rx.moved (by simp [idle, RxPc.returning]) rfl (by simp [Dma.rxFront, idle]) trivial
    rw [harvestAll, Reactor.run_cons, called]
    refine harvest_ends inv ⟨trivial, ?_⟩ enough
    have fits := rx.queue.fits
    rw [rx.dealt]
    exact Nat.add_le_add_left (fits.trans room) _
  case copied =>
    intro budget bf len got pc
    have front : s.rxFront = s.rxIdx := by simp [Dma.rxFront, pc]
    obtain ⟨frame, rest, rfl, -⟩ := rx.copying pc
    rcases rx.front_cases front with ⟨⟨⟩, -⟩ | ⟨_, _, -, held⟩
    exact held.shape.engineOwns rx.index

end RlxFw.Nic
