import Libjingle.Base.BasicTypes
import Libjingle.Lib.BigEndian
import Libjingle.Lib.CheckedMemory
import Libjingle.Lib.Reading

/-!
# RTP headers (`media/base/rtputils.cc`)

A getter reads a packet of `len` bytes through a pointer, a setter writes a buffer and does not
look at its length. Pointers are never null here.
-/

namespace Libjingle.Rtp

open Lib Reading

def kMinRtpPacketLen : Nat := 12
def kMinRtcpPacketLen : Nat := 4
def kRtpVersion : Nat := 2
def kRtpFlagsOffset : Nat := 0
def kRtpPayloadTypeOffset : Nat := 1
def kRtpSeqNumOffset : Nat := 2
def kRtpTimestampOffset : Nat := 4
def kRtpSsrcOffset : Nat := 8
def kRtcpPayloadTypeOffset : Nat := 1

/-- `a - b` of `size_t`, which wraps. -/
def sizeSub (a b : Nat) : Nat := if b ≤ a then a - b else 2 ^ 64 - (b - a)

theorem sizeSub_of_le {a b : Nat} (h : b ≤ a) : sizeSub a b = a - b := if_pos h

theorem sizeSub_of_lt {a b : Nat} (h : a < b) : sizeSub a b = 2 ^ 64 - (b - a) :=
  if_neg (Nat.not_le_of_lt h)

structure RtpHeader where
  payloadType : Int
  seqNum : Nat
  timestamp : U32
  ssrc : U32
  deriving DecidableEq

/-! ## Getters -/

def getUint8 (offset : Nat) : Reading U8 Nat := do
  let value ← get offset
  return value.toNat

def getUint16 (offset : Nat) : Reading U8 Nat := do
  let bytes ← block offset 2
  return ofBE bytes

def getUint32 (offset : Nat) : Reading U8 U32 := do
  let bytes ← block offset 4
  return BitVec.ofNat 32 (ofBE bytes)

/-- A getter that refuses packets below a length. -/
def atLeast {α : Type} (least len : Nat) (getter : Reading U8 α) : Reading U8 (Option α) :=
  if len < least then return none
  else do
    let value ← getter
    return some value

def getRtpFlags (len : Nat) : Reading U8 (Option Nat) :=
  atLeast kMinRtpPacketLen len (getUint8 kRtpFlagsOffset)

def getRtpPayloadType (len : Nat) : Reading U8 (Option Nat) :=
  atLeast kMinRtpPacketLen len do
    let value ← getUint8 kRtpPayloadTypeOffset
    return value &&& 0x7F

def getRtpSeqNum (len : Nat) : Reading U8 (Option Nat) :=
  atLeast kMinRtpPacketLen len (getUint16 kRtpSeqNumOffset)

def getRtpTimestamp (len : Nat) : Reading U8 (Option U32) :=
  atLeast kMinRtpPacketLen len (getUint32 kRtpTimestampOffset)

def getRtpSsrc (len : Nat) : Reading U8 (Option U32) :=
  atLeast kMinRtpPacketLen len (getUint32 kRtpSsrcOffset)

def getRtpHeaderLen (len : Nat) : Reading U8 (Option Nat) :=
  if len < kMinRtpPacketLen then return none
  else do
    let flags ← get 0
    -- the base header and the CSRCs, not counting the extension yet
    let headerSize := kMinRtpPacketLen + (flags &&& 0xF).toNat * 4
    if len < headerSize then return none
    else if flags &&& 0x10 ≠ 0 then
      if len < headerSize + 4 then return none
      else do
        let extension ← getUint16 (headerSize + 2)
        let headerSize := headerSize + (extension + 1) * 4
        if len < headerSize then return none else return some headerSize
    else return some headerSize

def getRtpHeader (len : Nat) : Reading U8 (Option RtpHeader) := do
  let payloadType ← getRtpPayloadType len
  let seqNum ← getRtpSeqNum len
  let timestamp ← getRtpTimestamp len
  let ssrc ← getRtpSsrc len
  return do return ⟨← payloadType, ← seqNum, ← timestamp, ← ssrc⟩

def getRtcpType (len : Nat) : Reading U8 (Option Nat) :=
  atLeast kMinRtcpPacketLen len (getUint8 kRtcpPayloadTypeOffset)

/-- The memory behind the pointer to a packet. -/
def packetBytes (packet : List U8) (beyond : Nat → U8) (i : Nat) : U8 := packet[i]?.getD (beyond i)

/-! ## What the getters read -/

variable {p : Nat → U8} {len : Nat}

variable {offset : Nat}

theorem getUint8_within (h : offset < len) : (getUint8 offset).Within p len :=
  Within.bind (Within.get h) (Within.pure _)

theorem getUint16_within (h : offset + 2 ≤ len) : (getUint16 offset).Within p len :=
  Within.bind (Within.block h) (Within.pure _)

theorem getUint32_within (h : offset + 4 ≤ len) : (getUint32 offset).Within p len :=
  Within.bind (Within.block h) (Within.pure _)

variable {least : Nat}

theorem atLeast_within {α : Type} {getter : Reading U8 α}
    (h : least ≤ len → getter.Within p len) : (atLeast least len getter).Within p len := by
  unfold atLeast
  split
  · exact Within.pure _
  · rename_i hlen
    exact Within.bind (h (Nat.le_of_not_lt hlen)) (Within.pure _)

theorem value_atLeast {α : Type} {getter : Reading U8 α} :
    (atLeast least len getter).value p = if len < least then none else some (getter.value p) := by
  unfold atLeast
  split <;> rfl

theorem getRtpPayloadType_within : (getRtpPayloadType len).Within p len :=
  atLeast_within fun h => Within.bind (getUint8_within (Nat.lt_of_lt_of_le (by decide) h))
    (Within.pure _)

theorem getRtpSeqNum_within : (getRtpSeqNum len).Within p len :=
  atLeast_within fun h => getUint16_within (Nat.le_trans (by decide) h)

theorem getRtpTimestamp_within : (getRtpTimestamp len).Within p len :=
  atLeast_within fun h => getUint32_within (Nat.le_trans (by decide) h)

theorem getRtpSsrc_within : (getRtpSsrc len).Within p len :=
  atLeast_within fun h => getUint32_within (Nat.le_trans (by decide) h)

theorem getRtcpType_within : (getRtcpType len).Within p len :=
  atLeast_within fun h => getUint8_within (Nat.lt_of_lt_of_le (by decide) h)

/-- **The length of a header is found inside the packet**, whatever it says of itself. -/
theorem getRtpHeaderLen_within : (getRtpHeaderLen len).Within p len := by
  unfold getRtpHeaderLen
  split
  · exact Within.pure _
  · rename_i hmin
    refine Within.bind (Within.get (Nat.lt_of_lt_of_le (by decide) (Nat.le_of_not_lt hmin))) ?_
    dsimp only
    split
    · exact Within.pure _
    · split
      · split
        · exact Within.pure _
        · refine Within.bind (getUint16_within (by omega)) ?_
          split
          · exact Within.pure _
          · exact Within.pure _
      · exact Within.pure _

theorem getRtpHeader_within : (getRtpHeader len).Within p len :=
  Within.bind getRtpPayloadType_within (Within.bind getRtpSeqNum_within
    (Within.bind getRtpTimestamp_within (Within.bind getRtpSsrc_within (Within.pure _))))

/-- A header that is found is inside the packet. -/
theorem getRtpHeaderLen_le {n : Nat} (h : (getRtpHeaderLen len).value p = some n) :
    kMinRtpPacketLen ≤ n ∧ n ≤ len := by
  unfold getRtpHeaderLen at h
  split at h
  · cases h
  · rw [value_bind] at h
    dsimp only at h
    split at h
    · cases h
    · split at h
      · split at h
        · cases h
        · rw [value_bind] at h
          split at h
          · cases h
          · cases h
            omega
      · cases h
        omega

/-! ## Setters -/

/-- `SetUint8`, `SetUint16` and `SetUint32` with `n` bytes. -/
def setUint (n offset value : Nat) : Checked U8 Unit := Checked.writeAll offset (toBE n value)

def setRtpHeaderFlags (padding extension : Bool) (csrcCount : Nat) : Checked U8 Bool :=
  if csrcCount > 0x0F then return false
  else do
    setUint 1 kRtpFlagsOffset (kRtpVersion <<< 6 ||| (if padding then 1 else 0) <<< 5 |||
      (if extension then 1 else 0) <<< 4 ||| csrcCount)
    return true

/-- `SetRtpPayloadType`: the marker bit is zero. -/
def setRtpPayloadType (value : Int) : Checked U8 Bool :=
  if value ≥ 0x7F then return false
  else do
    setUint 1 kRtpPayloadTypeOffset (value % 0x80).toNat
    return true

/-- `SetRtpHeader`: version 2, no padding, no extension and no CSRCs. -/
def setRtpHeader (header : RtpHeader) : Checked U8 Bool := do
  if ← setRtpHeaderFlags false false 0 then
    if ← setRtpPayloadType header.payloadType then
      setUint 2 kRtpSeqNumOffset header.seqNum
      setUint 4 kRtpTimestampOffset header.timestamp.toNat
      setUint 4 kRtpSsrcOffset header.ssrc.toNat
      return true
    else return false
  else return false

def headerBytes (header : RtpHeader) : List U8 :=
  toBE 1 0x80 ++ toBE 1 header.payloadType.toNat ++ toBE 2 header.seqNum ++
    toBE 4 header.timestamp.toNat ++ toBE 4 header.ssrc.toNat

/-- The bytes of a header that is written, and `getRtpHeader_written`: they are read back, for a
payload type below 127. -/
theorem setRtpHeader_eq {header : RtpHeader} (hlow : 0 ≤ header.payloadType)
    (hhigh : header.payloadType < 0x7F) :
    setRtpHeader header (List.replicate kMinRtpPacketLen 0) = .ok (true, headerBytes header) := by
  have hmod : header.payloadType % 0x80 = header.payloadType := by omega
  unfold setRtpHeader setRtpPayloadType
  rw [if_neg (not_le.mpr hhigh), hmod]
  rfl

variable {header : RtpHeader} {rest : List U8} {beyond : Nat → U8}

theorem getRtpHeader_written (hlow : 0 ≤ header.payloadType) (hhigh : header.payloadType < 0x7F)
    (hseq : header.seqNum < 2 ^ 16) (hlen : kMinRtpPacketLen ≤ len) :
    (getRtpHeader len).value (packetBytes (headerBytes header ++ rest) beyond) = some header := by
  have htype : (BitVec.ofNat 8 header.payloadType.toNat).toNat &&& 0x7F =
      header.payloadType.toNat := by
    rw [BitVec.toNat_ofNat, show 0x7F = 2 ^ 7 - 1 from rfl, Nat.and_two_pow_sub_one_eq_mod]
    omega
  have hnumber : ∀ x : U32, BitVec.ofNat 32 (ofBE (toBE 4 x.toNat)) = x := by
    intro x
    rw [ofBE_toBE x.isLt]
    simp
  have hvalue : (getRtpHeader len).value (packetBytes (headerBytes header ++ rest) beyond) =
      some ⟨((BitVec.ofNat 8 header.payloadType.toNat).toNat &&& 0x7F : Nat),
        ofBE (toBE 2 header.seqNum), BitVec.ofNat 32 (ofBE (toBE 4 header.timestamp.toNat)),
        BitVec.ofNat 32 (ofBE (toBE 4 header.ssrc.toNat))⟩ := by
    simp only [getRtpHeader, getRtpPayloadType, getRtpSeqNum, getRtpTimestamp, getRtpSsrc,
      value_bind, value_atLeast, if_neg (not_lt.mpr hlen)]
    rfl
  rw [hvalue, htype, hnumber, hnumber, @ofBE_toBE 2 _ hseq, Int.toNat_of_nonneg hlow]

theorem getRtpHeaderLen_written (hlen : kMinRtpPacketLen ≤ len) :
    (getRtpHeaderLen len).value (packetBytes (headerBytes header ++ rest) beyond) =
      some kMinRtpPacketLen := by
  have hflags : packetBytes (headerBytes header ++ rest) beyond 0 = 0x80 := rfl
  unfold getRtpHeaderLen
  rw [if_neg (not_lt.mpr hlen), value_bind, value_get, hflags]
  exact congrArg (Reading.value · _) (if_neg (not_lt.mpr hlen))

end Libjingle.Rtp
