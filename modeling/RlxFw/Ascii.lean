import RlxFw.Prelude
import Mathlib.Data.List.TakeWhile

/-!
# Text as bytes

A C string is the list of its bytes without the terminating NUL, and a byte
past its end reads as NUL.
-/

namespace RlxFw

/-- The bytes of an ASCII literal. -/
def ascii (literal : String) : List UInt8 :=
  literal.toList.map fun c => UInt8.ofNat c.toNat

/-- The byte at an index of a C string. -/
def byteAt (s : List UInt8) (index : Nat) : UInt8 := s.getD index 0

/-- The C string in a buffer: the bytes before the first NUL. -/
def cString (buffer : List UInt8) : List UInt8 :=
  buffer.takeWhile fun byte => byte != 0

/-- What holds of the 256 byte values, by halves, holds of a byte. -/
theorem forall_byte {Holds : UInt8 → Prop}
    (all : ∀ high < 16, ∀ low < 16, Holds (UInt8.ofNat (16 * high + low))) (b : UInt8) :
    Holds b := by
  have inside : b.toNat / 16 < 16 := Nat.div_lt_of_lt_mul b.toNat_lt
  have atValue := all _ inside _ (Nat.mod_lt b.toNat (by decide))
  rwa [Nat.div_add_mod, UInt8.ofNat_toNat] at atValue

end RlxFw
