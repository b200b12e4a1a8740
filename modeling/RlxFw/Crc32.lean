import RlxFw.Prelude
import Mathlib.Data.List.Basic

/-!
# CRC-32

`crc32_ieee` of `src/lib/crc32.c`: the reflected polynomial, one bit at a time.
-/

namespace RlxFw.Crc32

/-- One reflected step; the mask is all ones when the low bit is. -/
def bitStep (c : UInt32) : UInt32 :=
  (c >>> 1) ^^^ (0xEDB88320 &&& (0 - (c &&& 1)))

/-- The eight steps of one byte. -/
def byteStep (c : UInt32) (b : UInt8) : UInt32 :=
  (List.range 8).foldl (fun c _ => bitStep c) (c ^^^ b.toUInt32)

/-- `crc32_ieee`. -/
def crc32Ieee (crc : UInt32) (bytes : List UInt8) : UInt32 :=
  bytes.foldl byteStep (crc ^^^ 0xFFFFFFFF) ^^^ 0xFFFFFFFF

-- The check value of the convention, over the digits 1 to 9.
example : crc32Ieee 0 [0x31, 0x32, 0x33, 0x34, 0x35, 0x36, 0x37, 0x38, 0x39] =
    0xCBF43926 := by
  decide +kernel

end RlxFw.Crc32
