import Libjingle.Media.RtpDataChannel

/-!
# Data packets over RTP (`media/base/rtpdataengine.cc`)

The data stands behind the header and four reserved bytes. What is signalled of a packet is where
the data begins and how long it is; both are computed from what the header says of its length,
without a look at whether the reserved bytes are there.

* **`delivered_iff`**: data that is accepted and has a clock is signalled to the other side as it
  was sent, unless the payload type is 127.
* **`received_inside_iff`**: what is read of a packet, and when the data is inside.
-/

namespace Libjingle.Media.RtpDataMediaChannel

open Lib Reading Sdp Rtp

/-- The side of a channel that receives. -/
structure Receiver where
  receiving : Bool
  recvCodecs : List Codec
  recvStreams : List StreamParams

/-- What `SignalDataReceived` says: the parameters, the place of the data and its length. -/
structure ReceivedData where
  ssrc : U32
  seqNum : Nat
  timestamp : U32
  data : Nat
  dataLen : Nat
  deriving DecidableEq

def findCodecById (codecs : List Codec) (id : Int) : Option Codec :=
  codecs.find? fun codec => codec.id.toInt = id

namespace Receiver

/-- A packet with this header is not refused. -/
def takes (r : Receiver) (payloadType : Int) (ssrc : U32) : Bool :=
  r.receiving && (findCodecById r.recvCodecs payloadType).isSome &&
    getStreamBySsrc r.recvStreams ssrc

def onPacketReceived (r : Receiver) (len : Nat) : Reading U8 (Option ReceivedData) := do
  let header ← getRtpHeader len
  let headerLength ← getRtpHeaderLen len
  return do
    let header ← header
    let headerLength ← headerLength
    guard (r.takes header.payloadType header.ssrc)
    return ⟨header.ssrc, header.seqNum, header.timestamp, headerLength + kReservedSpace.length,
      sizeSub (sizeSub len headerLength) kReservedSpace.length⟩

/-- What is signalled of a packet in memory. -/
def receive (r : Receiver) (packet : List U8) (beyond : Nat → U8) : Option ReceivedData :=
  (r.onPacketReceived packet.length).value (packetBytes packet beyond)

variable {r : Receiver} {packet : List U8} {beyond : Nat → U8}

theorem receive_eq : r.receive packet beyond = do
    let header ← (getRtpHeader packet.length).value (packetBytes packet beyond)
    let n ← (getRtpHeaderLen packet.length).value (packetBytes packet beyond)
    guard (r.takes header.payloadType header.ssrc)
    return ⟨header.ssrc, header.seqNum, header.timestamp, n + kReservedSpace.length,
      sizeSub (sizeSub packet.length n) kReservedSpace.length⟩ := rfl

theorem data_inside_iff {n len : Nat} (h : n ≤ len) :
    n + kReservedSpace.length + sizeSub (sizeSub len n) kReservedSpace.length ≤ len ↔
      n + kReservedSpace.length ≤ len := by
  rw [sizeSub_of_le h]
  by_cases hroom : kReservedSpace.length ≤ len - n
  · rw [sizeSub_of_le hroom]
    omega
  · rw [sizeSub_of_lt (not_le.mp hroom)]
    have : kReservedSpace.length = 4 := rfl
    omega

/-- **Where the data is.** No packet is read beyond its end; and the data that is signalled is
inside the packet just if it has the reserved bytes behind the header. -/
theorem received_inside_iff (r : Receiver) (packet : List U8) (beyond : Nat → U8) :
    (r.onPacketReceived packet.length).Within (packetBytes packet beyond) packet.length ∧
      ((∀ d ∈ r.receive packet beyond, d.data + d.dataLen ≤ packet.length) ↔
        (r.receive packet beyond ≠ none → ∃ n ∈ (getRtpHeaderLen packet.length).value
          (packetBytes packet beyond), n + kReservedSpace.length ≤ packet.length)) := by
  refine ⟨Within.bind getRtpHeader_within (Within.bind getRtpHeaderLen_within (Within.pure _)), ?_⟩
  rw [receive_eq]
  cases (getRtpHeader packet.length).value (packetBytes packet beyond) with
  | none => simp
  | some header =>
    cases hlen : (getRtpHeaderLen packet.length).value (packetBytes packet beyond) with
    | none => simp
    | some n =>
      cases htakes : r.takes header.payloadType header.ssrc with
      | false => simp [htakes]
      | true => simpa [htakes] using data_inside_iff (getRtpHeaderLen_le hlen).2

end Receiver

theorem packetOf_eq {header : RtpHeader} {data : List U8} (hlow : 0 ≤ header.payloadType)
    (hhigh : header.payloadType < 0x7F) :
    packetOf header data = some (headerBytes header ++ (kReservedSpace ++ data)) := by
  unfold packetOf
  rw [setRtpHeader_eq hlow hhigh]
  exact congrArg some (List.append_assoc ..)

theorem packetOf_none (seqNum : Nat) (timestamp ssrc : U32) (data : List U8) :
    packetOf ⟨127, seqNum, timestamp, ssrc⟩ data = none := rfl

variable {c : RtpDataMediaChannel} {r : Receiver} {ssrc : U32} {data : List U8} {canUse : Bool}
  {codec : Codec} {clock : RtpClock}

/-- **Data arrives as it was sent.** Let data be within the limits, its ssrc have a clock and the
other side know the codec and the stream. A packet is sent, and its ssrc, timestamp, sequence number
and data are signalled there, just if the payload type is not 127. -/
theorem delivered_iff (haccepts : c.accepts ssrc data canUse = some codec)
    (hclock : c.rtpClockBySendSsrc ssrc = some clock) (hlow : 0 ≤ codec.id.toInt)
    (hhigh : codec.id.toInt ≤ 127) (htakes : r.takes codec.id.toInt ssrc = true) (ticks : U32)
    (beyond : Nat → U8) :
    (∃ packet d, c.sendData ssrc data canUse ticks = some (some packet, d) ∧
      packet.drop 16 = data ∧ r.receive packet beyond = some ⟨ssrc, (clock.lastSeqNum + 1).toNat,
        clock.timestampOffset + ticks, 16, data.length⟩) ↔ codec.id.toInt ≠ 127 := by
  obtain ⟨d, hsend⟩ : ∃ d, c.sendData ssrc data canUse ticks = some (packetOf ⟨codec.id.toInt,
      (clock.lastSeqNum + 1).toNat, clock.timestampOffset + ticks, ssrc⟩ data, d) := by
    unfold sendData
    rw [haccepts, hclock]
    exact ⟨_, rfl⟩
  rw [hsend]
  by_cases hid : codec.id.toInt = 127
  · rw [hid, packetOf_none]
    simp
  · rw [packetOf_eq hlow (by change codec.id.toInt < 127; omega)]
    refine iff_of_true ⟨_, d, rfl, rfl, ?_⟩ hid
    have hlength : ∀ header : RtpHeader,
        (headerBytes header ++ (kReservedSpace ++ data)).length = 16 + data.length := by
      intro header
      simp [headerBytes, kReservedSpace]
      omega
    rw [Receiver.receive_eq, getRtpHeader_written hlow (by change codec.id.toInt < 127; omega)
      (clock.lastSeqNum + 1).isLt (by rw [hlength]; exact Nat.le_add_right_of_le (by decide)),
      getRtpHeaderLen_written (by rw [hlength]; exact Nat.le_add_right_of_le (by decide)), hlength]
    have hheader : kMinRtpPacketLen = 12 := rfl
    have hreserved : kReservedSpace.length = 4 := rfl
    have hdata : sizeSub (sizeSub (16 + data.length) kMinRtpPacketLen) kReservedSpace.length =
        data.length := by
      rw [hheader, @sizeSub_of_le (16 + data.length) 12 (by omega), sizeSub_of_le (by omega)]
      omega
    simp [htakes, hdata]
    decide

def oneSsrc : StreamParams := ⟨[], "data".toList, [1], [], [], []⟩

theorem delivered_letter : ∃ packet d, sendData ⟨true, [googleDataCodec], [oneSsrc], fun _ =>
    some ⟨7, 9⟩⟩ 1 [0x61] true 5 = some (some packet, d) ∧ packet.drop 16 = [0x61] ∧
      Receiver.receive ⟨true, [googleDataCodec], [oneSsrc]⟩ packet (fun _ => 0) =
        some ⟨1, 8, 14, 16, 1⟩ :=
  (@delivered_iff _ _ _ _ true googleDataCodec ⟨7, 9⟩ rfl rfl (by decide) (by decide) (by decide) 5
    _).mpr (by decide)

end Libjingle.Media.RtpDataMediaChannel
