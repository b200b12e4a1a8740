import RlxFw.NicMemory
import RlxFw.Reactor

/-!
# The rings between the driver and the engine

`nic_xmit` and `nic_napi_harvest` of `drivers/net/rtl819x-nic.c`, store by store and
read by read, beside an engine that takes the slots of each ring in order while
their OWN bits are set.  The histories record what was handed over on either side.
-/

namespace RlxFw.Nic

/-- `NIC_TX_RETRY_MAX`. -/
def nicTxRetryMax : Nat := 128

/-- What the driver runs with. -/
structure DmaConfig where
  layout : Layout
  pol : Nic15Pol
  /-- `nic_tx_mode` is the vendor's: poll the slot, then drop. -/
  vendor : Bool
  /-- `nic_ph_follow`. -/
  phFollow : Bool

/-- Where a run of `nic_xmit` is, with the frame it was given. -/
inductive TxPc where
  | idle
  /-- The OWN bit is read next, for the time after `retries`. -/
  | look (data : List UInt8) (retries : Nat)
  /-- The slot is filled: the stores that are left. -/
  | fill (data : List UInt8) (left : List Store)
  /-- OWN is set; the doorbell and the index are next. -/
  | bell
deriving DecidableEq, Repr

/-- Where a run of `nic_napi_harvest` is, with the budget left. -/
inductive RxPc where
  | idle
  /-- The OWN bit is read next. -/
  | look (budget : Nat)
  /-- The slot is the CPU's: its descriptors are read next. -/
  | describe (budget : Nat)
  /-- The frame is copied: where from, how long, and what was read. -/
  | copy (budget bf len : Nat) (got : List UInt8)
  /-- The slot is handed back: the stores that are left. -/
  | refill (budget : Nat) (left : List Store)
  /-- The index is next. -/
  | advance (budget : Nat)
deriving DecidableEq, Repr

/-- What became of a received frame. -/
structure Outcome where
  /-- `dev_alloc_skb` gave an skb, or would have. -/
  alloc : Bool
  /-- What `netif_receive_skb` was given. -/
  up : Option (List UInt8)
deriving DecidableEq, Repr

/-- The driver, the engine and what they share. -/
structure Dma where
  mem : Mem
  /-- `nic_rx_idx`. -/
  rxIdx : Nat
  /-- `nic_tx_idx`. -/
  txIdx : Nat
  tx : TxPc
  rx : RxPc
  /-- The engine's positions in the three rings. -/
  engineRx : Nat
  engineMb : Nat
  engineTx : Nat
  /-- The frames that `nic_xmit` put into the ring. -/
  accepted : List (List UInt8)
  /-- The frames that the engine read out of the ring. -/
  taken : List (List UInt8)
  /-- The frames that the engine put into the ring. -/
  arrived : List (List UInt8)
  /-- What the harvest made of them. -/
  outcomes : List Outcome

/-! ## The engine -/

/-- The descriptor at an address. -/
def Layout.descIndex (L : Layout) (d : Descs) (address : Nat) : Option Nat :=
  if L.descsAt d ≤ address ∧ address < L.descsAt d + d.count * nicDescBytes ∧
      (address - L.descsAt d) % nicDescBytes = 0 then
    some ((address - L.descsAt d) / nicDescBytes)
  else none

/-- The slot after the one with a ring word. -/
def afterWord (e : UInt32) (i : Nat) : Nat := if e &&& nicDescWrap ≠ 0 then 0 else i + 1

/-- The engine sends the frame of its next transmit slot, when it owns it. -/
def engineSend (L : Layout) (s : Dma) : Dma :=
  let e := s.mem.ring .tx s.engineTx
  if engineOwns e then
    match L.descIndex .txPh (wordAddr e) with
    | none => s
    | some ph =>
    match L.descIndex .txMb (wordAddr (s.mem.desc .txPh ph 0)) with
    | none => s
    | some mb =>
        { s with
          mem := s.mem.store (.ring .tx s.engineTx (e &&& ~~~nicDescOwn))
          engineTx := afterWord e s.engineTx
          taken := s.taken ++
            [s.mem.byte.slice (s.mem.desc .txMb mb 3).toNat
              (nicPhLen (s.mem.desc .txPh ph 1) - 4)] }
  else s

/-- The engine puts a frame, with its check sequence, into its next receive slot,
when it owns header and buffer.  It stores no more than the buffer's size. -/
def engineReceive (L : Layout) (frame fcs : List UInt8) (extport srcext : UInt32)
    (s : Dma) : Dma :=
  let e := s.mem.ring .rx s.engineRx
  let b := s.mem.ring .mb s.engineMb
  if engineOwns e ∧ engineOwns b ∧ frame.length + 4 < 65536 then
    match L.descIndex .rxPh (wordAddr e), L.descIndex .rxMb (wordAddr b) with
    | some ph, some mb =>
        let extsize := nicPhLen (s.mem.desc .rxMb mb 5)
        { s with
          mem := s.mem.stores
            (storeBytes (s.mem.desc .rxMb mb 3).toNat ((frame ++ fcs).take extsize) ++
              [.desc .rxMb mb 2
                (nicMbMk2 (UInt32.ofNat (frame.length + 4)) nicMbFlagsInit),
                .desc .rxPh ph 0 (addrWord (wordAddr b)),
                .desc .rxPh ph 1
                  (nicPhMk1 (UInt32.ofNat (frame.length + 4)) extport srcext),
                .ring .mb s.engineMb (b &&& ~~~nicDescOwn),
                .ring .rx s.engineRx (e &&& ~~~nicDescOwn)])
          engineRx := afterWord e s.engineRx
          engineMb := afterWord b s.engineMb
          arrived := s.arrived ++ [frame] }
    | _, _ => s
  else s

/-! ## The driver -/

/-- `nic_xmit`, one step. -/
def nicXmitStep (cfg : DmaConfig) (s : Dma) : Dma :=
  match s.tx with
  | .idle => s
  | .look data retries =>
      if engineOwns (s.mem.ring .tx s.txIdx) then
        -- the stop-queue mode returns busy, the vendor's polls on
        if ¬ cfg.vendor ∨ nicTxRetryMax < retries + 1 then { s with tx := .idle }
        else { s with tx := .look data (retries + 1) }
      else if txMax < data.length then { s with tx := .idle }
      else { s with tx := .fill data (nicFill cfg.layout cfg.pol s.txIdx data) }
  | .fill _ [] => { s with tx := .idle }
  | .fill data [last] =>
      { s with mem := s.mem.store last, tx := .bell, accepted := s.accepted ++ [data] }
  | .fill data (first :: left) =>
      { s with mem := s.mem.store first, tx := .fill data left }
  | .bell => { s with txIdx := (s.txIdx + 1) % nicTxDesc, tx := .idle }

/-- The length of a received frame, zero when it does not fit. -/
def nicRxLen (w1 : UInt32) : Nat :=
  let len := nicPhLen w1
  let len := if 4 ≤ len then len - 4 else len
  if nicBufSz - nicRxOffset < len then 0 else len

/-- `nic_ph_buf`: the buffer of the frame in a slot. -/
def nicPhBuf (cfg : DmaConfig) (m : Mem) (i : Nat) : Nat :=
  let w0 := wordAddr (m.desc .rxPh i 0)
  let own := (m.desc .rxMb i 3).toNat
  if w0 = cfg.layout.descAt .rxMb i then own
  else
    match cfg.layout.descIndex .rxMb w0 with
    | none => own
    | some j =>
        let bf := (m.desc .rxMb j 3).toNat
        if bf < cfg.layout.bufs ∨ cfg.layout.bufs + nicRxDesc * nicBufSz ≤ bf then own
        else if cfg.phFollow then bf
        else own

/-- `nic_napi_harvest`, one step; `alloc` says what `dev_alloc_skb` does. -/
def nicHarvestStep (cfg : DmaConfig) (alloc : Bool) (s : Dma) : Dma :=
  match s.rx with
  | .idle => s
  | .look 0 => { s with rx := .idle }
  | .look (budget + 1) =>
      if engineOwns (s.mem.ring .rx s.rxIdx) then { s with rx := .idle }
      else { s with rx := .describe (budget + 1) }
  | .describe budget =>
      let len := nicRxLen (s.mem.desc .rxPh s.rxIdx 1)
      if len ≠ 0 ∧ alloc then
        { s with rx := .copy budget (nicPhBuf cfg s.mem s.rxIdx) len [] }
      else
        { s with
          rx := .refill budget (nicRefill cfg.layout s.rxIdx)
          outcomes := s.outcomes ++ [{ alloc, up := none }] }
  | .copy budget bf len got =>
      if got.length < len then
        { s with rx := .copy budget bf len (got ++ [s.mem.byte (bf + got.length)]) }
      else
        { s with
          rx := .refill budget (nicRefill cfg.layout s.rxIdx)
          outcomes := s.outcomes ++ [{ alloc := true, up := some got }] }
  | .refill budget [] => { s with rx := .advance budget }
  | .refill budget [last] => { s with mem := s.mem.store last, rx := .advance budget }
  | .refill budget (first :: left) =>
      { s with mem := s.mem.store first, rx := .refill budget left }
  | .advance budget =>
      { s with rxIdx := (s.rxIdx + 1) % nicRxDesc, rx := .look (budget - 1) }

/-- The steps. -/
inductive DmaEvent where
  /-- `nic_xmit` is called. -/
  | xmit (data : List UInt8)
  | xmitStep
  /-- `nic_napi_harvest` is called. -/
  | harvest (budget : Nat)
  | harvestStep (alloc : Bool)
  | engineSend
  | engineReceive (frame fcs : List UInt8) (extport srcext : UInt32)
deriving DecidableEq, Repr

/-- The rings, an event a step.  A call waits for the one before it. -/
def dma (cfg : DmaConfig) : Reactor Dma DmaEvent Empty where
  step s e :=
    (match e with
      | .xmit data => if s.tx = .idle then { s with tx := .look data 0 } else s
      | .xmitStep => nicXmitStep cfg s
      | .harvest budget => if s.rx = .idle then { s with rx := .look budget } else s
      | .harvestStep alloc => nicHarvestStep cfg alloc s
      | .engineSend => engineSend cfg.layout s
      | .engineReceive frame fcs extport srcext =>
          engineReceive cfg.layout frame fcs extport srcext s, [])

/-- A freshly armed ring: the engine and the driver start at the first slots. -/
def armedDma (L : Layout) : Dma where
  mem := armedMem L
  rxIdx := 0
  txIdx := 0
  tx := .idle
  rx := .idle
  engineRx := 0
  engineMb := 0
  engineTx := 0
  accepted := []
  taken := []
  arrived := []
  outcomes := []

end RlxFw.Nic
