import Libjingle.Base.BasicTypes

/-!
# CRC-32 (`base/crc32.h`, `base/crc32.cc`)

The table is filled before its first use, so an entry is the function that fills it.
-/

namespace Libjingle

def kCrc32Polynomial : U32 := 0xEDB88320

/-- `EnsureCrc32TableInited`: `n` rounds on an entry. -/
def crc32Rounds : Nat → U32 → U32
  | 0, c => c
  | n + 1, c =>
    crc32Rounds n (if c &&& 1 ≠ 0 then kCrc32Polynomial ^^^ (c >>> 1) else c >>> 1)

/-- `kCrc32Table[i]`. -/
def kCrc32Table (i : U32) : U32 := crc32Rounds 8 i

def updateCrc32 (start : U32) (buf : List U8) : U32 :=
  buf.foldl (fun c u => kCrc32Table ((c ^^^ u.setWidth 32) &&& 0xFF) ^^^ (c >>> 8))
    (start ^^^ 0xFFFFFFFF) ^^^ 0xFFFFFFFF

theorem updateCrc32_append (start : U32) (a b : List U8) :
    updateCrc32 start (a ++ b) = updateCrc32 (updateCrc32 start a) b := by
  unfold updateCrc32
  rw [List.foldl_append, BitVec.xor_assoc, BitVec.xor_self, BitVec.xor_zero]

def computeCrc32 (buf : List U8) : U32 := updateCrc32 0 buf

end Libjingle
