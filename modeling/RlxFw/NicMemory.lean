import RlxFw.ByteMap
import RlxFw.NicRegs

/-!
# The memory of the rings

What `nic_do_alloc` lays out in one allocation of `drivers/net/rtl819x-nic.c`: the
three rings, the descriptors and the buffers, all uncached.  The driver's accesses
are single stores, in program order, so that the engine can be between any two.
-/

namespace RlxFw.Nic

/-- `NIC_BUF_SZ`. -/
def nicBufSz : Nat := 2048
/-- `NIC_RX_OFFSET`. -/
def nicRxOffset : Nat := 2
/-- `NIC_DESC_BYTES`. -/
def nicDescBytes : Nat := 24
/-- `NIC_MB_FLAGS_INIT`. -/
def nicMbFlagsInit : UInt32 := 0x009C
/-- `NIC_PH_FLAGS_TX_DEFAULT`. -/
def nicPhFlagsTxDefault : UInt32 := 0x8800
/-- `NIC_DESC_ADDR`. -/
def nicDescAddr : UInt32 := 0xFFFFFFFC

/-- The rings. -/
inductive Ring where
  | rx
  | mb
  | tx
deriving DecidableEq, Repr

/-- The descriptor arrays. -/
inductive Descs where
  | rxPh
  | rxMb
  | txPh
  | txMb
deriving DecidableEq, Repr

/-- How many slots a ring has. -/
def Ring.count : Ring → Nat
  | .rx => nicRxDesc
  | .mb => nicRxDesc
  | .tx => nicTxDesc

/-- How many descriptors an array has. -/
def Descs.count : Descs → Nat
  | .rxPh => nicRxDesc
  | .rxMb => nicRxDesc
  | .txPh => nicTxDesc
  | .txMb => nicTxDesc

/-- Where the allocation is: 25,232 bytes from an aligned base below 4 GiB. -/
structure Layout where
  base : Nat
  aligned : base % 4 = 0
  fits : base + 25232 ≤ 2 ^ 32

/-- Where a descriptor array starts. -/
def Layout.descsAt (L : Layout) : Descs → Nat
  | .rxPh => L.base + 80
  | .rxMb => L.base + 272
  | .txPh => L.base + 464
  | .txMb => L.base + 560

/-- The address of a descriptor. -/
def Layout.descAt (L : Layout) (d : Descs) (i : Nat) : Nat :=
  L.descsAt d + i * nicDescBytes

/-- `nic_bufs`. -/
def Layout.bufs (L : Layout) : Nat := L.base + 656

/-- The address of a buffer: the receive buffers come first. -/
def Layout.bufAt (L : Layout) (i : Nat) : Nat := L.bufs + i * nicBufSz

/-- What the memory holds. -/
structure Mem where
  ring : Ring → Nat → UInt32
  desc : Descs → Nat → Nat → UInt32
  byte : ByteMap

/-- One store: `nic_re_set`, `nic_dw_set`, `__raw_writeb`. -/
inductive Store where
  | ring (r : Ring) (i : Nat) (v : UInt32)
  | desc (d : Descs) (i word : Nat) (v : UInt32)
  | byte (address : Nat) (v : UInt8)
deriving DecidableEq, Repr

/-- A store is made. -/
def Mem.store (m : Mem) : Store → Mem
  | .ring r i v =>
      { m with ring := fun r' i' => if r' = r ∧ i' = i then v else m.ring r' i' }
  | .desc d i word v =>
      { m with
        desc := fun d' i' word' =>
          if d' = d ∧ i' = i ∧ word' = word then v else m.desc d' i' word' }
  | .byte address v =>
      { m with byte := fun a => if a = address then v else m.byte a }

/-- Stores are made, in order. -/
def Mem.stores (m : Mem) (stores : List Store) : Mem := stores.foldl Mem.store m

@[simp]
theorem Mem.stores_nil (m : Mem) : m.stores [] = m := rfl

@[simp]
theorem Mem.stores_cons (m : Mem) (first : Store) (rest : List Store) :
    m.stores (first :: rest) = (m.store first).stores rest := rfl

theorem Mem.stores_append (m : Mem) (first rest : List Store) :
    m.stores (first ++ rest) = (m.stores first).stores rest :=
  List.foldl_append

/-! ## The words of the descriptors -/

/-- `NIC_PH_LEN`. -/
def nicPhLen (w1 : UInt32) : Nat := ((w1 >>> 16) &&& 0xFFFF).toNat

/-- `NIC_PH_MK1`. -/
def nicPhMk1 (len extport srcext : UInt32) : UInt32 :=
  ((len &&& 0xFFFF) <<< 16) ||| ((extport &&& 0x0F) <<< 8) ||| (srcext &&& 0xFF)

/-- `NIC_PH_MK3`. -/
def nicPhMk3 (flags portlist : UInt32) : UInt32 :=
  ((flags &&& 0xFFFF) <<< 16) ||| (portlist &&& 0xFF)

/-- `NIC_MB_MK2`. -/
def nicMbMk2 (len flags : UInt32) : UInt32 :=
  ((len &&& 0xFFFF) <<< 16) ||| (flags &&& 0xFFFF)

/-- `NIC_MB_MK5`. -/
def nicMbMk5 (extsize : UInt32) : UInt32 := (extsize &&& 0xFFFF) <<< 16

theorem nicPhLen_or {a b : UInt32} (high : a.toNat < 65536) (low : b.toNat < 65536) :
    nicPhLen ((a <<< 16) ||| b) = a.toNat := by
  have shifted : (a <<< 16).toNat = a.toNat <<< 16 := by
    rw [UInt32.toNat_shiftLeft, Nat.mod_eq_of_lt]
    · rfl
    · rw [Nat.shiftLeft_eq]
      show a.toNat * 2 ^ 16 < 2 ^ 32
      omega
  have both : ((a <<< 16) ||| b).toNat = a.toNat * 65536 + b.toNat := by
    rw [UInt32.toNat_or, shifted, ← Nat.shiftLeft_add_eq_or_of_lt low, Nat.shiftLeft_eq]
  rw [nicPhLen, UInt32.toNat_and, UInt32.toNat_shiftRight, both]
  show ((a.toNat * 65536 + b.toNat) >>> 16) &&& (2 ^ 16 - 1) = _
  rw [Nat.and_two_pow_sub_one_eq_mod, Nat.shiftRight_eq_div_pow]
  omega
theorem nicPhLen_mk1 {len : Nat} (small : len < 65536) (extport srcext : UInt32) :
    nicPhLen (nicPhMk1 (UInt32.ofNat len) extport srcext) = len := by
  have size : (UInt32.ofNat len).toNat = len :=
    UInt32.toNat_ofNat_of_lt' (by simp [UInt32.size]; omega)
  have kept : (UInt32.ofNat len &&& 0xFFFF).toNat = len := by
    rw [UInt32.toNat_and, size]
    exact Nat.and_two_pow_sub_one_of_lt_two_pow (n := 16) small
  have port : (extport &&& 0x0F).toNat ≤ 15 := by
    rw [UInt32.toNat_and]
    exact Nat.and_le_right
  rw [nicPhMk1, UInt32.or_assoc, nicPhLen_or (by omega), kept]
  rw [UInt32.toNat_or]
  refine Nat.or_lt_two_pow (n := 16) ?_ ?_
  · rw [UInt32.toNat_shiftLeft]
    refine lt_of_le_of_lt (Nat.mod_le _ _) ?_
    show (extport &&& 0x0F).toNat <<< 8 < 2 ^ 16
    rw [Nat.shiftLeft_eq]
    omega
  · rw [UInt32.toNat_and]
    exact lt_of_le_of_lt Nat.and_le_right (by decide)

/-! ## The driver's stores -/

/-- An address as a word. -/
def addrWord (address : Nat) : UInt32 := UInt32.ofNat address

/-- The address in a ring word. -/
def wordAddr (e : UInt32) : Nat := (e &&& nicDescAddr).toNat

/-- Bytes stored from an address on. -/
def storeBytes (address : Nat) : List UInt8 → List Store
  | [] => []
  | b :: rest => .byte address b :: storeBytes (address + 1) rest

/-- `nic_refill`: the buffer goes back before the header. -/
def nicRefill (L : Layout) (i : Nat) : List Store :=
  let ph := L.descAt .rxPh i
  let mb := L.descAt .rxMb i
  let bf := L.bufAt i + nicRxOffset
  [.desc .rxMb i 3 (addrWord bf),
    .desc .rxMb i 4 (addrWord bf),
    .desc .rxMb i 2 (nicMbMk2 0 nicMbFlagsInit),
    .desc .rxPh i 1 0,
    .ring .mb i (ownedWord nicRxDesc (addrWord mb) i),
    .ring .rx i (ownedWord nicRxDesc (addrWord ph) i)]

/-- A receive slot as `nic_do_alloc` writes it. -/
def allocRx (L : Layout) (i : Nat) : List Store :=
  let ph := L.descAt .rxPh i
  let mb := L.descAt .rxMb i
  let bf := L.bufAt i + nicRxOffset
  [.desc .rxPh i 0 (addrWord mb), .desc .rxPh i 1 0, .desc .rxPh i 2 0,
    .desc .rxPh i 3 0, .desc .rxPh i 4 0, .desc .rxPh i 5 0,
    .desc .rxMb i 0 0, .desc .rxMb i 1 (addrWord ph),
    .desc .rxMb i 2 (nicMbMk2 0 nicMbFlagsInit),
    .desc .rxMb i 3 (addrWord bf), .desc .rxMb i 4 (addrWord bf),
    .desc .rxMb i 5 (nicMbMk5 (UInt32.ofNat (nicBufSz - nicRxOffset))),
    .ring .rx i (ownedWord nicRxDesc (addrWord ph) i),
    .ring .mb i (ownedWord nicRxDesc (addrWord mb) i)]

/-- A transmit slot as `nic_do_alloc` writes it. -/
def allocTx (L : Layout) (i : Nat) : List Store :=
  let ph := L.descAt .txPh i
  let mb := L.descAt .txMb i
  [.desc .txPh i 0 (addrWord mb), .desc .txPh i 1 0, .desc .txPh i 2 0,
    .desc .txPh i 3 (nicPhMk3 nicPhFlagsTxDefault 0), .desc .txPh i 4 0,
    .desc .txPh i 5 0,
    .desc .txMb i 0 0, .desc .txMb i 1 (addrWord ph),
    .desc .txMb i 2 (nicMbMk2 0 nicMbFlagsInit), .desc .txMb i 3 0,
    .desc .txMb i 4 0, .desc .txMb i 5 0,
    .ring .tx i (addrWord ph ||| wrapBit nicTxDesc i)]

/-- The stores of `nic_do_alloc`. -/
def nicDoAlloc (L : Layout) : List Store :=
  (List.range nicRxDesc).flatMap (allocRx L) ++
    (List.range nicTxDesc).flatMap (allocTx L)

/-- The ring stores of `nic_do_arm`. -/
def nicDoArm (L : Layout) : List Store :=
  (List.range nicRxDesc).flatMap (nicRefill L) ++
    (List.range nicTxDesc).map fun i =>
      .ring .tx i (addrWord (L.descAt .txPh i) ||| wrapBit nicTxDesc i)

/-- The `txlen` settings. -/
inductive TxLen where
  | rlxfw
  | mlen
  | ext
  | vendor
  | d1
  | d2
  | d3
deriving DecidableEq, Repr

/-- The `d` column of `nic15_len_tab`. -/
def TxLen.d : TxLen → Nat
  | .rlxfw => 4
  | .mlen => 0
  | .ext => 4
  | .vendor => 0
  | .d1 => 1
  | .d2 => 2
  | .d3 => 3

/-- The `ext_ph` column of `nic15_len_tab`. -/
def TxLen.extPh : TxLen → Bool
  | .ext => true
  | .vendor => true
  | _ => false

/-- `struct nic15_pol`, as its parsers let it be. -/
structure Nic15Pol where
  txlen : TxLen
  txoff : Nat
  offset : txoff = 0 ∨ txoff = 2
deriving DecidableEq

/-- `nic15_mlen`. -/
def nic15Mlen (f : Nat) (pol : TxLen) : Nat :=
  if pol = .rlxfw then f else f + 4 - pol.d

/-- `nic15_ext`. -/
def nic15Ext (f : Nat) (pol : TxLen) (ext14 : Nat) : Nat :=
  if pol = .rlxfw ∨ ¬ pol.extPh then ext14 else f + 4

/-- The longest frame that `nic_xmit` takes. -/
def txMax : Nat := nicBufSz - nicRxOffset - 8

/-- Where the frame of a transmit slot is. -/
def Layout.txBuf (L : Layout) (pol : Nic15Pol) (i : Nat) : Nat :=
  L.bufAt (nicRxDesc + i) + pol.txoff

/-- The length that `nic_xmit` sends a frame with. -/
def txLength (data : List UInt8) : Nat := max data.length 60

/-- The stores by which `nic_xmit` fills a slot: OWN last. -/
def nicFill (L : Layout) (pol : Nic15Pol) (i : Nat) (data : List UInt8) : List Store :=
  let bf := L.txBuf pol i
  let len := txLength data
  storeBytes bf data ++
    storeBytes (bf + data.length) (List.replicate (60 - data.length) 0) ++
    [.desc .txMb i 3 (addrWord bf),
      .desc .txMb i 4 (addrWord bf),
      .desc .txMb i 2
        (nicMbMk2 (UInt32.ofNat (nic15Mlen len pol.txlen)) nicMbFlagsInit),
      .desc .txMb i 5
        (nicMbMk5 (UInt32.ofNat (nic15Ext len pol.txlen (nicBufSz - nicRxOffset)))),
      .desc .txPh i 1 (nicPhMk1 (UInt32.ofNat (len + 4)) 0 0),
      .desc .txPh i 3 (nicPhMk3 nicPhFlagsTxDefault 0x3F),
      .desc .txPh i 4 0,
      .ring .tx i (ownedWord nicTxDesc (addrWord (L.descAt .txPh i)) i)]

/-- The memory that `nic_do_alloc` and `nic_do_arm` leave. -/
def armedMem (L : Layout) : Mem :=
  (({ ring := fun _ _ => 0, desc := fun _ _ _ => 0, byte := fun _ => 0 } : Mem).stores
    (nicDoAlloc L)).stores (nicDoArm L)

end RlxFw.Nic
