import RlxFw.Prelude
import Mathlib.Data.Nat.Bitwise

/-!
# The registers and the rings of the network interface

`drivers/net/rtl819x-nic.c`: the interrupt status and mask of the CPU port's DMA
engine, and the words of its rings.  A set OWN bit says that the engine has the
slot.
-/

namespace RlxFw.Nic

/-- `NIC_RX_DESC`. -/
def nicRxDesc : Nat := 8
/-- `NIC_TX_DESC`. -/
def nicTxDesc : Nat := 4

/-- `NIC_DESC_OWN`. -/
def nicDescOwn : UInt32 := 1
/-- `NIC_DESC_WRAP`. -/
def nicDescWrap : UInt32 := 2

/-- `e & NIC_DESC_OWN`. -/
def engineOwns (e : UInt32) : Bool := e &&& nicDescOwn ≠ 0

/-- The wrap bit of the last word of a ring. -/
def wrapBit (count i : Nat) : UInt32 := if i = count - 1 then nicDescWrap else 0

/-- A ring word that the engine owns. -/
def ownedWord (count : Nat) (addr : UInt32) (i : Nat) : UInt32 :=
  addr ||| nicDescOwn ||| wrapBit count i

/-- One bit of a word. -/
theorem and_bit_ne_zero (x : UInt32) {k : Nat} (small : k < 32) :
    x &&& UInt32.ofNat (2 ^ k) ≠ 0 ↔ x.toBitVec.getLsbD k = true := by
  have fits : 2 ^ k < UInt32.size := Nat.pow_lt_pow_right (by decide) small
  rw [Ne, ← UInt32.toNat_inj, UInt32.toNat_and, UInt32.toNat_ofNat_of_lt' fits,
    Nat.and_two_pow]
  simp [BitVec.getLsbD]

theorem engineOwns_eq (e : UInt32) : engineOwns e = e.toBitVec[0] := by
  rw [← BitVec.getLsbD_eq_getElem, Bool.eq_iff_iff, ← and_bit_ne_zero e (by decide),
    engineOwns, decide_eq_true_iff]
  rfl

@[simp]
theorem engineOwns_ownedWord (count : Nat) (addr : UInt32) (i : Nat) :
    engineOwns (ownedWord count addr i) = true := by
  simp [engineOwns_eq, ownedWord, nicDescOwn]

/-! ## The interrupt registers -/

/-- `NIC_IE_RX_DONE_ALL`. -/
def nicIeRxDoneAll : UInt32 := (0x3F : UInt32) <<< 3
/-- `NIC_IE_TX_DONE_ALL`. -/
def nicIeTxDoneAll : UInt32 := (0x3 : UInt32) <<< 9
/-- `NIC_IE_TX_ALL_DONE_ALL`. -/
def nicIeTxAllDoneAll : UInt32 := (0x3 : UInt32) <<< 1
/-- `NIC_IE_PKTHDR_RUNOUT`. -/
def nicIePkthdrRunout : UInt32 := (0x3F : UInt32) <<< 17
/-- `NIC_IE_MBUF_RUNOUT`, whose status bit is another. -/
def nicIeMbufRunout : UInt32 := (1 : UInt32) <<< 11
/-- `NIC_IP_MBUF_RUNOUT`. -/
def nicIpMbufRunout : UInt32 := (1 : UInt32) <<< 16

/-- `NIC_IIMR_LADDER`. -/
def nicIimrLadder : UInt32 :=
  nicIeRxDoneAll ||| nicIeTxDoneAll ||| nicIeTxAllDoneAll ||| nicIePkthdrRunout |||
    nicIeMbufRunout

/-- `NIC_IP_RX_WORK`. -/
def nicIpRxWork : UInt32 := nicIeRxDoneAll ||| nicIePkthdrRunout ||| nicIpMbufRunout

/-- What masks the reception of frames. -/
def rxEnables : UInt32 := nicIeRxDoneAll ||| nicIePkthdrRunout ||| nicIeMbufRunout

/-- The status bit that a frame of ring 0 sets, the one ring that is armed. -/
def rxDone0 : UInt32 := (1 : UInt32) <<< 3

theorem rxDone0_latched (iisr : UInt32) :
    iisr &&& rxDone0 ≠ 0 ↔ iisr.toBitVec[3] = true := by
  rw [← BitVec.getLsbD_eq_getElem, ← and_bit_ne_zero iisr (by decide)]
  rfl

/-- The status bits that a mask lets through. -/
def unmasked (iimr : UInt32) : UInt32 :=
  (iimr &&& ~~~(nicIeMbufRunout ||| nicIpMbufRunout)) |||
    (if iimr &&& nicIeMbufRunout ≠ 0 then nicIpMbufRunout else 0)

/-- An interrupt is owed. -/
def interruptOwed (iisr iimr : UInt32) : Prop := iisr &&& unmasked iimr ≠ 0

end RlxFw.Nic
