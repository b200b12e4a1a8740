import RlxFw.Prelude
import Mathlib.Logic.Basic

/-!
# The boot handoff

`rlxfw_handoff_parse` of `include/linux/rlxfw-handoff.h`: the four words that
rlxboot leaves for the kernel, read once at boot.
-/

namespace RlxFw.Handoff

/-- `RLXFW_HANDOFF_MAGIC`. -/
def magicWord : UInt32 := 0x524C5848
/-- `RLXFW_HANDOFF_SLOT_A`. -/
def slotA : UInt32 := 0x41
/-- `RLXFW_HANDOFF_SLOT_B`. -/
def slotB : UInt32 := 0x42

/-- Why a handoff is none. -/
inductive Fault where
  | magic
  | check
  | slot
  | version
deriving DecidableEq, Repr

/-- A valid handoff: the slot rlxboot booted, and its version. -/
structure Valid where
  slot : UInt32
  ver : UInt32
  slot_cases : slot = slotA ∨ slot = slotB
  ver_bounds : 1 ≤ ver ∧ ver ≤ 0xFFFFFFFE

/-- `rlxfw_handoff_parse`. -/
def parse (a0 a1 a2 a3 : UInt32) : Except Fault Valid :=
  if a0 ≠ magicWord then .error .magic
  else if a3 ≠ ~~~(a0 ^^^ a1 ^^^ a2) then .error .check
  else if slots : a1 = slotA ∨ a1 = slotB then
    if versions : 1 ≤ a2 ∧ a2 ≤ 0xFFFFFFFE then
      .ok { slot := a1, ver := a2, slot_cases := slots, ver_bounds := versions }
    else .error .version
  else .error .slot

end RlxFw.Handoff
