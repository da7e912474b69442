import Libjingle.Base.ByteBuffer
import Libjingle.Base.Stream
import Libjingle.Media.RtpUtils

/-!
# RTP dump files (`media/base/rtpdump.cc`)

A first line, a header of 16 bytes, and for each packet a header of eight bytes and the packet.
The length in a packet's header counts the header itself.

* The pointers that they are given are not null.
* `Call`: what a call of `ReadPacket` does to the caller's packet. `Trap` are the ways in which it
  does not return: `resize` throws for more than `maxSize` bytes, and an access outside of the
  data is a fault.
-/

namespace Libjingle.RtpDump

open Lib Rtp Reading

/-! ## Packets -/

/-- `RtpDumpPacket`: a packet as a dump keeps it. -/
structure RtpDumpPacket where
  elapsedTime : U32
  data : List U8
  originalDataLen : Nat
  deriving DecidableEq

namespace RtpDumpPacket

def kHeaderLength : Nat := 8

/-- What is behind `&data[0]`. -/
def bytes (packet : RtpDumpPacket) (i : Nat) : U8 := packet.data.getD i 0

/-- `is_rtcp`: a packet of RTCP has no original length. -/
def isRtcp (packet : RtpDumpPacket) : Bool := packet.originalDataLen = 0

/-- `IsValidRtpPacket`. -/
def isValidRtpPacket (packet : RtpDumpPacket) : Bool :=
  packet.originalDataLen ≥ packet.data.length && packet.data.length ≥ kMinRtpPacketLen

/-- `IsValidRtcpPacket`. -/
def isValidRtcpPacket (packet : RtpDumpPacket) : Bool :=
  packet.originalDataLen = 0 && packet.data.length ≥ kMinRtcpPacketLen

/-- A getter that a packet has when it is valid. -/
def getIf {α : Type} (valid : Bool) (getter : Reading U8 (Option α)) : Reading U8 (Option α) :=
  if valid then getter else return none

/-- `GetRtpPayloadType`. -/
def getRtpPayloadType (packet : RtpDumpPacket) : Reading U8 (Option Nat) :=
  getIf packet.isValidRtpPacket (Rtp.getRtpPayloadType packet.data.length)

/-- `GetRtpSeqNum`. -/
def getRtpSeqNum (packet : RtpDumpPacket) : Reading U8 (Option Nat) :=
  getIf packet.isValidRtpPacket (Rtp.getRtpSeqNum packet.data.length)

/-- `GetRtpTimestamp`. -/
def getRtpTimestamp (packet : RtpDumpPacket) : Reading U8 (Option U32) :=
  getIf packet.isValidRtpPacket (Rtp.getRtpTimestamp packet.data.length)

/-- `GetRtpSsrc`. -/
def getRtpSsrc (packet : RtpDumpPacket) : Reading U8 (Option U32) :=
  getIf packet.isValidRtpPacket (Rtp.getRtpSsrc packet.data.length)

/-- `GetRtpHeaderLen`. -/
def getRtpHeaderLen (packet : RtpDumpPacket) : Reading U8 (Option Nat) :=
  getIf packet.isValidRtpPacket (Rtp.getRtpHeaderLen packet.data.length)

/-- `GetRtcpType`. -/
def getRtcpType (packet : RtpDumpPacket) : Reading U8 (Option Nat) :=
  getIf packet.isValidRtcpPacket (Rtp.getRtcpType packet.data.length)

/-- The getters read inside the data. -/
structure GettersWithin (packet : RtpDumpPacket) : Prop where
  payloadType : packet.getRtpPayloadType.Within packet.bytes packet.data.length
  seqNum : packet.getRtpSeqNum.Within packet.bytes packet.data.length
  timestamp : packet.getRtpTimestamp.Within packet.bytes packet.data.length
  ssrc : packet.getRtpSsrc.Within packet.bytes packet.data.length
  headerLen : packet.getRtpHeaderLen.Within packet.bytes packet.data.length
  rtcpType : packet.getRtcpType.Within packet.bytes packet.data.length

theorem getIf_within {α : Type} {valid : Bool} {getter : Reading U8 (Option α)} {p : Nat → U8}
    {n : Nat} (h : getter.Within p n) : (getIf valid getter).Within p n := by
  unfold getIf
  split
  · exact h
  · exact Within.pure _

/-- **The getters of any packet read inside its data.** -/
theorem gettersWithin (packet : RtpDumpPacket) : packet.GettersWithin where
  payloadType := getIf_within getRtpPayloadType_within
  seqNum := getIf_within getRtpSeqNum_within
  timestamp := getIf_within getRtpTimestamp_within
  ssrc := getIf_within getRtpSsrc_within
  headerLen := getIf_within getRtpHeaderLen_within
  rtcpType := getIf_within getRtcpType_within

end RtpDumpPacket

/-- The bytes of a text of ASCII characters. -/
def ascii (text : String) : List U8 := text.toList.map fun c => BitVec.ofNat 8 c.toNat

/-! ## Writing -/

def kFirstLine : List U8 := ascii "#!rtpplay1.0 0.0.0.0/0\n"

/-- `RtpDumpFileHeader`. -/
structure RtpDumpFileHeader where
  startSec : U32
  startUsec : U32
  source : U32
  port : U16
  padding : U16
  deriving DecidableEq

/-- The constructor of `RtpDumpFileHeader`. -/
def RtpDumpFileHeader.new (startMs source : U32) (port : U16) : RtpDumpFileHeader :=
  ⟨startMs / 1000, startMs % 1000 * 1000, source, port, 0⟩

/-- `WriteToByteBuffer`. -/
def RtpDumpFileHeader.writeToByteBuffer (header : RtpDumpFileHeader) : List U8 :=
  ByteBuffer.writeUInt32 header.startSec ++ ByteBuffer.writeUInt32 header.startUsec ++
    ByteBuffer.writeUInt32 header.source ++ ByteBuffer.writeUInt16 header.port ++
    ByteBuffer.writeUInt16 header.padding

def pfRtpHeader : U32 := 0x1
def pfRtpPacket : U32 := 0x3
def pfRtcpPacket : U32 := 0xC
def pfAll : U32 := 0xF

/-- `RtpDumpWriter`, without its stream. -/
structure RtpDumpWriter where
  packetFilter : U32
  fileHeaderWritten : Bool
  deriving DecidableEq

namespace RtpDumpWriter

def new : RtpDumpWriter := ⟨pfAll, false⟩

/-- `FilterPacket`: how much of a packet is written. -/
def filterPacket (writer : RtpDumpWriter) (data : List U8) (rtcp : Bool) : Nat :=
  if !rtcp then
    if writer.packetFilter &&& pfRtpPacket = pfRtpPacket then data.length
    else if writer.packetFilter &&& pfRtpHeader = pfRtpHeader then
      ((Rtp.getRtpHeaderLen data.length).value fun i => data.getD i 0).getD 0
    else 0
  else if writer.packetFilter &&& pfRtcpPacket = pfRtcpPacket then data.length
  else 0

variable {ω : Type} (O : OutputStream ω)

/-- `WriteFileHeader` at a time. -/
def writeFileHeader (now : U32) (w : ω) : StreamResult × ω :=
  let (res, w) := O.writeAll w kFirstLine
  if res ≠ .success then (res, w)
  else O.writeAll w (RtpDumpFileHeader.new now 0 0).writeToByteBuffer

/-- The header of a packet in a file. -/
def packetHeader (writeLen dataLen : Nat) (elapsed : U32) (rtcp : Bool) : List U8 :=
  ByteBuffer.writeUInt16 (BitVec.ofNat 16 (RtpDumpPacket.kHeaderLength + writeLen)) ++
    ByteBuffer.writeUInt16 (BitVec.ofNat 16 (if rtcp then 0 else dataLen)) ++
    ByteBuffer.writeUInt32 elapsed

/-- The file header is written if it has not been. -/
def openFile (writer : RtpDumpWriter) (now : U32) (w : ω) : StreamResult × RtpDumpWriter × ω :=
  if writer.fileHeaderWritten then (.success, writer, w)
  else
    let (res, w) := writeFileHeader O now w
    if res ≠ .success then (res, writer, w)
    else (.success, { writer with fileHeaderWritten := true }, w)

/-- `WritePacket` behind the file header. -/
def writeBody (writer : RtpDumpWriter) (w : ω) (data : List U8) (elapsed : U32) (rtcp : Bool) :
    StreamResult × ω :=
  let writeLen := writer.filterPacket data rtcp
  if writeLen = 0 then (.success, w)
  else
    let (res, w) := O.writeAll w (packetHeader writeLen data.length elapsed rtcp)
    if res ≠ .success then (res, w) else O.writeAll w (data.take writeLen)

/-- `WritePacket`. -/
def writePacket (writer : RtpDumpWriter) (now : U32) (w : ω) (data : List U8) (elapsed : U32)
    (rtcp : Bool) : StreamResult × RtpDumpWriter × ω :=
  if data = [] then (.error, writer, w)
  else
    let (res, writer, w) := openFile O writer now w
    if res ≠ .success then (res, writer, w)
    else
      let (res, w) := writeBody O writer w data elapsed rtcp
      (res, writer, w)

end RtpDumpWriter

/-! ## Reading -/

/-- `RtpDumpReader`, without its stream. -/
structure RtpDumpReader where
  fileHeaderRead : Bool
  firstLineAndFileHeaderLen : Nat
  startTimeMs : U32
  ssrcOverride : U32
  deriving DecidableEq

/-- How a call does not return. -/
inductive Trap where
  | lengthError
  | fault
  deriving DecidableEq

/-- A call of `ReadPacket`: `dump_packet_len` and the size that the packet is resized to, when it
comes to these, and what it returns. -/
structure Call (σ : Type) where
  dumpPacketLen : Option U16
  resized : Option Nat
  returned : Except Trap (StreamResult × RtpDumpPacket × RtpDumpReader × σ)

/-- What a vector of bytes can hold. -/
def maxSize : Nat := 0x7FFFFFFFFFFFFFFF

/-- The data after `resize`. -/
def resize (data : List U8) (n : Nat) : List U8 :=
  data.take n ++ List.replicate (n - data.length) 0

namespace RtpDumpReader

def new : RtpDumpReader := ⟨false, 0, 0, 0⟩

def isDigit (b : U8) : Bool := 48 ≤ b && b ≤ 57

/-- `CheckFirstLine`: only the port is checked. -/
def checkFirstLine (firstLine : List U8) : Bool :=
  let matched := (ascii "#!rtpplay1.0 ").isPrefixOf firstLine
  match firstLine.findIdx? (· = 47) with
  | none => false
  | some pos =>
    matched && pos < firstLine.length - 1 && (firstLine.drop (pos + 1)).all isDigit

/-- `start_time_ms_` of a file header. -/
def startTime (header : List U8) : U32 :=
  let startSec := BitVec.ofNat 32 (ofBE (header.take 4))
  let startUsec := BitVec.ofNat 32 (ofBE ((header.drop 4).take 4))
  startSec * 1000 + startUsec / 1000

variable {σ : Type} (S : InputStream σ)

/-- `ReadFileHeader`. -/
def readFileHeader (reader : RtpDumpReader) (s : σ) : StreamResult × RtpDumpReader × σ :=
  let line := S.readLine s
  if line.result ≠ .success then (line.result, reader, line.next)
  else if !checkFirstLine line.bytes then (.error, reader, line.next)
  else
    let header := S.readAll line.next 16
    if header.result ≠ .success then (header.result, reader, header.next)
    else
      (.success,
        { reader with
          startTimeMs := startTime header.bytes
          firstLineAndFileHeaderLen := line.bytes.length + 1 + 16 },
        header.next)

/-- The file header is read if it has not been. -/
def openFile (reader : RtpDumpReader) (s : σ) : StreamResult × RtpDumpReader × σ :=
  if reader.fileHeaderRead then (.success, reader, s)
  else
    let (res, reader, s) := readFileHeader S reader s
    if res ≠ .success then (res, reader, s)
    else (.success, { reader with fileHeaderRead := true }, s)

/-- `ReadPacket` behind the file header. -/
def readBody (reader : RtpDumpReader) (s : σ) (packet : RtpDumpPacket) : Call σ :=
  let header := S.readAll s RtpDumpPacket.kHeaderLength
  if header.result ≠ .success then
    ⟨none, none, .ok (header.result, packet, reader, header.next)⟩
  else
    let dumpPacketLen := BitVec.ofNat 16 (ofBE (header.bytes.take 2))
    let size := sizeSub dumpPacketLen.toNat RtpDumpPacket.kHeaderLength
    if size > maxSize then ⟨some dumpPacketLen, some size, .error .lengthError⟩
    else
      let body := S.readAll header.next size
      let read : Checked U8 Unit := Checked.writeAll 0 body.bytes
      match read (resize packet.data size) with
      | .error _ => ⟨some dumpPacketLen, some size, .error .fault⟩
      | .ok (_, data) =>
        let packet : RtpDumpPacket :=
          { elapsedTime := BitVec.ofNat 32 (ofBE ((header.bytes.drop 4).take 4))
            data
            originalDataLen := ofBE ((header.bytes.drop 2).take 2) }
        if body.result = .success ∧ packet.isValidRtpPacket = true ∧ reader.ssrcOverride ≠ 0 then
          match setUint 4 kRtpSsrcOffset reader.ssrcOverride.toNat data with
          | .error _ => ⟨some dumpPacketLen, some size, .error .fault⟩
          | .ok (_, data) =>
            ⟨some dumpPacketLen, some size,
              .ok (body.result, { packet with data }, reader, body.next)⟩
        else ⟨some dumpPacketLen, some size, .ok (body.result, packet, reader, body.next)⟩

/-- `ReadPacket`. -/
def readPacket (reader : RtpDumpReader) (s : σ) (packet : RtpDumpPacket) : Call σ :=
  let (res, reader, s) := openFile S reader s
  if res ≠ .success then ⟨none, none, .ok (res, packet, reader, s)⟩
  else readBody S reader s packet

end RtpDumpReader

end Libjingle.RtpDump
