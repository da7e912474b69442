import Libjingle.Media.RecvStreams
import Libjingle.Media.RtpUtils

/-!
# The data channel over RTP (`media/base/rtpdataengine.cc`)

A data channel finds the stream of a packet by any of the stream's ssrcs, and the clock that
numbers the packets by the ssrc itself. A stream gets one clock, for its first ssrc.

## Results

* **`inStep_iff`**: clocks and streams stay in step in a run just if every call uses first ssrcs.
-/

namespace Libjingle.Media

open Lib Sdp Rtp

def kDataMaxRtpPacketLen : Nat := 1200
def kReservedSpace : List U8 := [0x00, 0x00, 0x00, 0x00]
def kMaxSrtpHmacOverhead : Nat := 16
def kGoogleDataCodecId : I32 := 101
def kGoogleDataCodecName : Text := "google-data".toList

/-- The codec of `RtpDataEngine`. -/
def googleDataCodec : Codec :=
  ⟨kGoogleDataCodecId, kGoogleDataCodecName, 90000, 0, .empty, 0, 0, 0, 0, 0⟩

def findCodecByName (codecs : List Codec) (name : Text) : Option Codec :=
  codecs.find? fun codec => codec.name = name

structure RtpClock where
  lastSeqNum : BitVec 16
  timestampOffset : U32
  deriving DecidableEq

/-- `Tick`: the sequence number and the timestamp, and the clock afterwards. -/
def RtpClock.tick (clock : RtpClock) (ticks : U32) : BitVec 16 × U32 × RtpClock :=
  (clock.lastSeqNum + 1, clock.timestampOffset + ticks, { clock with
    lastSeqNum := clock.lastSeqNum + 1 })

/-- The packet of a header and the data, unless the header cannot be written. -/
def packetOf (header : RtpHeader) (data : List U8) : Option (List U8) :=
  match setRtpHeader header (List.replicate kMinRtpPacketLen 0) with
  | .ok (true, written) => some (written ++ kReservedSpace ++ data)
  | _ => none

/-- The codecs, the streams to send and the clocks. A clock is made with random values; what the
limiter answers and the time in ticks of the clock rate are parameters of a call. -/
structure RtpDataMediaChannel where
  sending : Bool
  sendCodecs : List Codec
  sendStreams : List StreamParams
  rtpClockBySendSsrc : U32 → Option RtpClock

namespace RtpDataMediaChannel

def new : RtpDataMediaChannel := ⟨false, [], [], fun _ => none⟩

def setSendCodecs (c : RtpDataMediaChannel) (codecs : List Codec) : RtpDataMediaChannel :=
  if codecs.any (matchesId · kGoogleDataCodecId kGoogleDataCodecName) then
    { c with sendCodecs := codecs }
  else c

def addSendStream (c : RtpDataMediaChannel) (stream : StreamParams) (clock : RtpClock) :
    RtpDataMediaChannel :=
  if stream.ssrcs = [] then c
  else if getStreamBySsrc c.sendStreams stream.firstSsrc then c
  else { c with
    sendStreams := c.sendStreams ++ [stream]
    rtpClockBySendSsrc := Function.update c.rtpClockBySendSsrc stream.firstSsrc (some clock) }

def removeSendStream (c : RtpDataMediaChannel) (ssrc : U32) : RtpDataMediaChannel :=
  if getStreamBySsrc c.sendStreams ssrc then { c with
    sendStreams := removeStreamBySsrc c.sendStreams ssrc
    rtpClockBySendSsrc := Function.update c.rtpClockBySendSsrc ssrc none }
  else c

/-- What `SendData` checks before it looks for a clock, and the codec that it finds. -/
def accepts (c : RtpDataMediaChannel) (ssrc : U32) (data : List U8) (canUse : Bool) :
    Option Codec := do
  guard c.sending
  guard (getStreamBySsrc c.sendStreams ssrc)
  let codec ← findCodecByName c.sendCodecs kGoogleDataCodecName
  guard (kMinRtpPacketLen + kReservedSpace.length + data.length + kMaxSrtpHmacOverhead ≤
    kDataMaxRtpPacketLen)
  guard canUse
  return codec

/-- `SendData`: the packet, if one is sent, and the channel afterwards. -/
def sendData (c : RtpDataMediaChannel) (ssrc : U32) (data : List U8) (canUse : Bool)
    (ticks : U32) : Option (Option (List U8) × RtpDataMediaChannel) :=
  match c.accepts ssrc data canUse with
  | none => some (none, c)
  | some codec =>
    match c.rtpClockBySendSsrc ssrc with
    | none => none
    | some clock =>
      let (seqNum, timestamp, clock) := clock.tick ticks
      some (packetOf ⟨codec.id.toInt, seqNum.toNat, timestamp, ssrc⟩ data, { c with
        rtpClockBySendSsrc := Function.update c.rtpClockBySendSsrc ssrc (some clock) })

inductive Call where
  | setSend (send : Bool)
  | setSendCodecs (codecs : List Codec)
  | addSendStream (stream : StreamParams) (clock : RtpClock)
  | removeSendStream (ssrc : U32)
  | sendData (ssrc : U32) (data : List U8) (canUse : Bool) (ticks : U32)

def step (c : RtpDataMediaChannel) : Call → Option RtpDataMediaChannel
  | .setSend send => some { c with sending := send }
  | .setSendCodecs codecs => some (c.setSendCodecs codecs)
  | .addSendStream stream clock => some (c.addSendStream stream clock)
  | .removeSendStream ssrc => some (c.removeSendStream ssrc)
  | .sendData ssrc data canUse ticks => (c.sendData ssrc data canUse ticks).map Prod.snd

/-- The channel that the next call finds. -/
def after (c : RtpDataMediaChannel) (call : Call) : RtpDataMediaChannel := (c.step call).getD c

/-! ## Clocks and streams -/

/-- There is one clock for each stream, under its first ssrc, and no other. -/
structure InStep (c : RtpDataMediaChannel) : Prop where
  listed : ∀ p ∈ c.sendStreams, p.ssrcs ≠ []
  distinct : (c.sendStreams.map StreamParams.firstSsrc).Nodup
  clock : ∀ ssrc, c.rtpClockBySendSsrc ssrc ≠ none ↔ ∃ p ∈ c.sendStreams, p.firstSsrc = ssrc

/-- A call finds the clock that it needs, and keeps clocks and streams in step. -/
def Keeps (c : RtpDataMediaChannel) (call : Call) : Prop := ∃ d, c.step call = some d ∧ d.InStep

/-- A stream that is removed is named by its first ssrc, and data is sent with a first ssrc. -/
def Meets (c : RtpDataMediaChannel) : Call → Prop
  | .removeSendStream ssrc => ∀ p ∈ c.sendStreams, ssrc ∈ p.ssrcs → p.firstSsrc = ssrc
  | .sendData ssrc data canUse _ =>
    c.accepts ssrc data canUse ≠ none → ∃ p ∈ c.sendStreams, p.firstSsrc = ssrc
  | _ => True

variable {c : RtpDataMediaChannel}

theorem inStep_new : new.InStep := ⟨List.forall_mem_nil _, List.nodup_nil, fun _ => by simp [new]⟩

theorem getStreamBySsrc_iff {streams : List StreamParams} {ssrc : U32} :
    getStreamBySsrc streams ssrc = true ↔ ∃ p ∈ streams, ssrc ∈ p.ssrcs := by
  simp [getStreamBySsrc]

theorem InStep.congr {d : RtpDataMediaChannel} (h : c.InStep)
    (hstreams : d.sendStreams = c.sendStreams)
    (hclocks : ∀ ssrc, d.rtpClockBySendSsrc ssrc ≠ none ↔ c.rtpClockBySendSsrc ssrc ≠ none) :
    d.InStep := by
  refine ⟨?_, ?_, fun ssrc => (hclocks ssrc).trans ?_⟩ <;> rw [hstreams]
  · exact h.listed
  · exact h.distinct
  · exact h.clock ssrc

theorem InStep.addSendStream (h : c.InStep) (stream : StreamParams) (clock : RtpClock) :
    (c.addSendStream stream clock).InStep := by
  unfold RtpDataMediaChannel.addSendStream
  split_ifs with hnone hfound
  · exact h
  · exact h
  · have hnew : ∀ p ∈ c.sendStreams, p.firstSsrc ≠ stream.firstSsrc := fun p hp heq =>
      hfound (getStreamBySsrc_iff.mpr ⟨p, hp, heq ▸ firstSsrc_mem (h.listed p hp)⟩)
    refine ⟨?_, ?_, fun ssrc => ?_⟩
    · intro p hp
      rcases List.mem_append.mp hp with hp | hp
      · exact h.listed p hp
      · exact List.mem_singleton.mp hp ▸ hnone
    · rw [List.map_append, List.nodup_append_comm]
      exact List.nodup_cons.mpr ⟨fun hmem => by
        obtain ⟨p, hp, heq⟩ := List.mem_map.mp hmem
        exact hnew p hp heq, h.distinct⟩
    · dsimp only
      by_cases heq : ssrc = stream.firstSsrc
      · subst heq
        simp
      · rw [Function.update_of_ne heq, h.clock ssrc]
        simp [Ne.symm heq]

theorem removeSendStream_inStep_iff (h : c.InStep) (ssrc : U32) :
    (c.removeSendStream ssrc).InStep ↔
      ∀ p ∈ c.sendStreams, ssrc ∈ p.ssrcs → p.firstSsrc = ssrc := by
  unfold RtpDataMediaChannel.removeSendStream
  split_ifs with hfound
  · constructor
    · intro hafter p hp hmem
      by_contra hne
      -- the clock of the first ssrc is still there, and only the stream itself has it
      have hclock : c.rtpClockBySendSsrc p.firstSsrc ≠ none := (h.clock _).mpr ⟨p, hp, rfl⟩
      rw [← Function.update_of_ne hne none c.rtpClockBySendSsrc] at hclock
      obtain ⟨q, hq, heq⟩ := (hafter.clock p.firstSsrc).mp hclock
      obtain ⟨hq, hnot⟩ := List.mem_filter.mp hq
      rw [List.inj_on_of_nodup_map h.distinct hq hp heq] at hnot
      exact of_decide_eq_true hnot hmem
    · intro hmeets
      refine ⟨fun p hp => h.listed p (List.mem_filter.mp hp).1,
        h.distinct.sublist (List.filter_sublist.map _), fun k => ?_⟩
      dsimp only
      by_cases hk : k = ssrc
      · subst hk
        simp only [Function.update_self, ne_eq, not_true_eq_false, false_iff]
        rintro ⟨p, hp, heq⟩
        obtain ⟨hp, hnot⟩ := List.mem_filter.mp hp
        exact of_decide_eq_true hnot (heq ▸ firstSsrc_mem (h.listed p hp))
      · rw [Function.update_of_ne hk, h.clock k]
        refine exists_congr fun p => and_congr_left fun heq => ⟨fun hp => ?_, fun hp =>
          (List.mem_filter.mp hp).1⟩
        exact List.mem_filter.mpr ⟨hp, decide_eq_true fun hmem =>
          hk (heq.symm.trans (hmeets p hp hmem))⟩
  · exact iff_of_true h fun p hp hmem =>
      absurd (getStreamBySsrc_iff.mpr ⟨p, hp, hmem⟩) hfound

theorem keeps_sendData_iff (h : c.InStep) (ssrc : U32) (data : List U8) (canUse : Bool)
    (ticks : U32) : c.Keeps (.sendData ssrc data canUse ticks) ↔
      (c.accepts ssrc data canUse ≠ none → c.rtpClockBySendSsrc ssrc ≠ none) := by
  dsimp only [Keeps, step, sendData]
  cases c.accepts ssrc data canUse with
  | none => exact iff_of_true ⟨c, rfl, h⟩ fun hne => absurd rfl hne
  | some codec =>
    dsimp only
    cases hclock : c.rtpClockBySendSsrc ssrc with
    | none => simp
    | some clock =>
      refine iff_of_true ⟨_, rfl, h.congr rfl fun k => ?_⟩ fun _ => Option.some_ne_none _
      dsimp only
      by_cases hk : k = ssrc
      · subst hk
        simp [hclock]
      · rw [Function.update_of_ne hk]

/-- **One call keeps clocks and streams in step just if it uses first ssrcs.** -/
theorem keeps_iff (h : c.InStep) (call : Call) : c.Keeps call ↔ c.Meets call := by
  have hkept : ∀ d : RtpDataMediaChannel, (∃ e, some d = some e ∧ e.InStep) ↔ d.InStep :=
    fun d => ⟨fun ⟨_, heq, hin⟩ => Option.some.inj heq ▸ hin, fun hin => ⟨d, rfl, hin⟩⟩
  cases call with
  | setSend send => exact iff_of_true ⟨_, rfl, h.congr rfl fun _ => Iff.rfl⟩ trivial
  | setSendCodecs codecs =>
    refine iff_of_true ((hkept _).mpr ?_) trivial
    unfold RtpDataMediaChannel.setSendCodecs
    split
    · exact h.congr rfl fun _ => Iff.rfl
    · exact h
  | addSendStream stream clock => exact iff_of_true ((hkept _).mpr (h.addSendStream _ _)) trivial
  | removeSendStream ssrc => exact (hkept _).trans (removeSendStream_inStep_iff h ssrc)
  | sendData ssrc data canUse ticks =>
    rw [keeps_sendData_iff h, h.clock]
    rfl

/-- **The clocks of the streams.** In every run each call finds the clock it needs and leaves one
clock for each stream that is sent just if each call uses first ssrcs. -/
theorem inStep_iff (calls : List Call) :
    Along after Keeps new calls ↔ Along after Meets new calls := by
  refine along_iff (R := fun c d => c = d ∧ c.InStep) ⟨rfl, inStep_new⟩ ?_
  rintro c _ call - ⟨rfl, h⟩
  refine ⟨keeps_iff h call, fun ⟨d, hstep, hd⟩ => ?_⟩
  rw [after, hstep]
  exact ⟨rfl, hd⟩

/-- A stream with the ssrcs 1 and 2, in a channel that sends. -/
def twoSsrcs : List Call :=
  [.setSend true, .setSendCodecs [googleDataCodec],
    .addSendStream ⟨[], "data".toList, [1, 2], [], [], []⟩ ⟨7, 9⟩]

/-- **A second ssrc has no clock.** Data that is sent with it is accepted and goes through a null
pointer, and a removal by it leaves the clock of the first ssrc. -/
theorem second_ssrc_uses_no_clock :
    ¬ Along after Keeps new (twoSsrcs ++ [.sendData 2 [] true 0]) ∧
      ¬ Along after Keeps new (twoSsrcs ++ [.removeSendStream 2]) := by
  constructor
  · rintro ⟨-, -, -, ⟨d, hstep, -⟩, -⟩
    have hnull : ((twoSsrcs.foldl after new).step (.sendData 2 [] true 0)).isNone = true := by
      decide
    exact Bool.false_ne_true (hnull.symm.trans (congrArg Option.isNone hstep)).symm
  · rintro ⟨-, -, -, ⟨d, hstep, hd⟩, -⟩
    cases hstep
    obtain ⟨p, hp, -⟩ := (hd.clock 1).mp (by decide)
    exact List.not_mem_nil (show p ∈ ([] : List StreamParams) from hp)

end RtpDataMediaChannel

end Libjingle.Media
