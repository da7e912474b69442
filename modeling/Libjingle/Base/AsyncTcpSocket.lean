import Libjingle.Base.ByteBuffer
import Libjingle.Lib.Framing

/-!
# `AsyncTCPSocket` (`base/asynctcpsocket.cc`): packets over a byte stream

`Send` puts a 16-bit length before a packet and hands both to the socket below; what that socket
does not take stays in `outbuf_` until it is writable again, and packets sent meanwhile are
dropped. `OnReadEvent` collects bytes in `inbuf_` and signals the packets that are complete.

* A buffer is the list of the bytes that are in use: `inbuf_` stands for the first `inpos_` bytes
  of the array, `outbuf_` for the first `outpos_`.
* The socket below is outside: its answers (`res`, the bytes of a `Recv`, the outcome of an
  `Accept`) are arguments. Error codes are set on that socket and are not part of the state.

## Results

* `Link.framing_exact`: what the other side signals, over every run of the two sockets.
-/

namespace Libjingle

open Lib

namespace AsyncTcpSocket

def maxPacketSize : Nat := 64 * 1024
def pktLenSize : Nat := 2
def bufSize : Nat := maxPacketSize + pktLenSize

end AsyncTcpSocket

open AsyncTcpSocket

/-- The state of an `AsyncTCPSocket`. -/
structure AsyncTcpSocket where
  listen_ : Bool
  inbuf_ : List U8
  outbuf_ : List U8
deriving DecidableEq

namespace AsyncTcpSocket

/-- What `OnReadEvent` tells its listeners; the last one is its assertion. -/
inductive Signal
  | newConnection (socket : AsyncTcpSocket)
  | readPacket (data : List U8)
  | inputBufferOverflow
deriving DecidableEq

def create (listen : Bool) : AsyncTcpSocket := ⟨listen, [], []⟩

def outpos_ (s : AsyncTcpSocket) : Nat := s.outbuf_.length
def inpos_ (s : AsyncTcpSocket) : Nat := s.inbuf_.length

/-- The length prefix and the packet, as `Send` copies them to `outbuf_`. The cast to `PacketLength`
keeps the low 16 bits of the size. -/
def frame (pv : List U8) : List U8 := ByteBuffer.writeUInt16 (BitVec.ofNat 16 pv.length) ++ pv

/-- `Flush`, where the socket below answers `res`: the socket after it, what it returns, and the
bytes the socket below has taken. -/
def flush (s : AsyncTcpSocket) (res : Int) : AsyncTcpSocket × Int × List U8 :=
  if res ≤ 0 then (s, res, [])
  else
    let sent := s.outbuf_.take res.toNat
    if res.toNat ≤ s.outpos_ then ({ s with outbuf_ := s.outbuf_.drop res.toNat }, res, sent)
    else (s, -1, sent)

/-- `Send`: the socket after it, what it returns, and the bytes the socket below has taken. -/
def send (s : AsyncTcpSocket) (pv : List U8) (res : Int) : AsyncTcpSocket × Int × List U8 :=
  if pv.length > maxPacketSize then (s, -1, [])
  -- blocking on send: the packet is dropped
  else if s.outpos_ ≠ 0 then (s, pv.length, [])
  else
    let (s, res, sent) := { s with outbuf_ := frame pv }.flush res
    if res ≤ 0 then ({ s with outbuf_ := [] }, res, sent) else (s, pv.length, sent)

/-- `ProcessInput`: the packets it signals and the bytes it leaves. -/
def processInput (data : List U8) : List (List U8) × List U8 :=
  if data.length < pktLenSize then ([], data)
  else
    let pkt_len := (BitVec.ofNat 16 (ofBE (data.take pktLenSize))).toNat
    if data.length < pktLenSize + pkt_len then ([], data)
    else
      let r := processInput (data.drop (pktLenSize + pkt_len))
      ((data.drop pktLenSize).take pkt_len :: r.1, r.2)
termination_by data.length
decreasing_by
  rename_i h
  rw [List.length_drop]
  have hpos : 0 < pktLenSize := by decide
  omega

/-- `OnReadEvent`, where `Accept` yields a connection or not and `Recv` yields bytes or fails. -/
def onReadEvent (s : AsyncTcpSocket) (accepted : Bool) (recv : Option (List U8)) :
    AsyncTcpSocket × List Signal :=
  if s.listen_ then (s, if accepted then [.newConnection (create false)] else [])
  else
    recv.elim (s, []) fun bytes =>
      let r := processInput (s.inbuf_ ++ bytes)
      if r.2.length ≥ bufSize then
        ({ s with inbuf_ := [] }, r.1.map .readPacket ++ [.inputBufferOverflow])
      else ({ s with inbuf_ := r.2 }, r.1.map .readPacket)

/-- `OnWriteEvent`: the socket after it and the bytes the socket below has taken. -/
def onWriteEvent (s : AsyncTcpSocket) (res : Int) : AsyncTcpSocket × List U8 :=
  if 0 < s.outpos_ then ((s.flush res).1, (s.flush res).2.2) else (s, [])

/-! ## The framing -/

theorem frame_length (pv : List U8) : (frame pv).length = pktLenSize + pv.length := by
  rw [frame, ByteBuffer.writeUInt16, List.length_append, toBE_length]
  rfl

/-- The length field of a frame, as `ProcessInput` reads it. -/
def prefixLength (data : List U8) : Nat := (BitVec.ofNat 16 (ofBE (data.take pktLenSize))).toNat

/-- The first packet of the input, once it has arrived whole. -/
def nextPacket (data : List U8) : Option (List U8 × List U8) :=
  if pktLenSize ≤ data.length ∧ pktLenSize + prefixLength data ≤ data.length then
    some ((data.drop pktLenSize).take (prefixLength data),
      data.drop (pktLenSize + prefixLength data))
  else none

theorem prefixLength_lt (data : List U8) : prefixLength data < maxPacketSize :=
  BitVec.isLt _

theorem prefixLength_frame (pv t : List U8) :
    prefixLength (frame pv ++ t) = pv.length % maxPacketSize := by
  have htake : (frame pv ++ t).take pktLenSize = toBE 2 (BitVec.ofNat 16 pv.length).toNat := by
    rw [frame, ByteBuffer.writeUInt16, List.append_assoc]
    exact List.take_left' (toBE_length 2 _)
  rw [prefixLength, htake, ofBE_toBE (BitVec.isLt _), BitVec.ofNat_toNat, BitVec.setWidth_eq,
    BitVec.toNat_ofNat]
  rfl

theorem nextPacket_frame (pv t : List U8) : nextPacket (frame pv ++ t) =
    some ((pv ++ t).take (pv.length % maxPacketSize),
      (pv ++ t).drop (pv.length % maxPacketSize)) := by
  have hle := Nat.mod_le pv.length maxPacketSize
  have hlen : (frame pv ++ t).length = pktLenSize + pv.length + t.length := by
    rw [List.length_append, frame_length]
  have hdrop : (frame pv ++ t).drop pktLenSize = pv ++ t := by
    rw [frame, ByteBuffer.writeUInt16, List.append_assoc]
    exact List.drop_left' (toBE_length 2 _)
  rw [nextPacket, prefixLength_frame, if_pos (by omega), ← List.drop_drop, hdrop]

theorem nextPacket_eq {data p r : List U8} (h : nextPacket data = some (p, r)) :
    p.length < maxPacketSize ∧ data = frame p ++ r := by
  unfold nextPacket at h
  split at h
  · rename_i hle
    obtain ⟨rfl, rfl⟩ := Prod.mk.inj (Option.some.inj h)
    have hlen : ((data.drop pktLenSize).take (prefixLength data)).length = prefixLength data := by
      rw [List.length_take, List.length_drop]
      omega
    refine ⟨by rw [hlen]; exact prefixLength_lt data, ?_⟩
    have hhead : (data.take pktLenSize).length = 2 := by
      rw [List.length_take]
      exact min_eq_left hle.1
    have hvalue : ofBE (data.take pktLenSize) < 2 ^ 16 := by
      have hlt := ofBE_lt (data.take pktLenSize)
      rwa [hhead] at hlt
    have hfield : ByteBuffer.writeUInt16 (BitVec.ofNat 16 (prefixLength data)) =
        data.take pktLenSize := by
      rw [ByteBuffer.writeUInt16, prefixLength, BitVec.ofNat_toNat, BitVec.setWidth_eq,
        BitVec.toNat_ofNat, Nat.mod_eq_of_lt hvalue, ← hhead, toBE_ofBE]
    rw [frame, hlen, hfield, ← List.drop_drop, List.append_assoc, List.take_append_drop,
      List.take_append_drop]
  · cases h

/-- The framing of packets by their length. -/
def framing : Framing U8 (List U8) where
  encode := frame
  next := nextPacket
  Valid p := p.length < maxPacketSize
  encode_ne_nil p h := by
    have hlen := congrArg List.length h
    rw [frame_length, List.length_nil] at hlen
    have hpos : 0 < pktLenSize := by decide
    omega
  next_encode := by
    intro p hp t
    rw [nextPacket_frame, Nat.mod_eq_of_lt hp, List.take_left, List.drop_left]
  encode_next h := nextPacket_eq h

theorem processInput_eq_drain (data : List U8) : processInput data = framing.drain data := by
  induction data using processInput.induct with
  | case1 data h =>
    have hnone : framing.next data = none := if_neg (by omega)
    rw [processInput, if_pos h, Framing.drain_none hnone]
  | case2 data h pkt_len hlt =>
    have hnone : framing.next data = none := if_neg (fun hle => absurd hle.2 (by
      have : prefixLength data = pkt_len := rfl
      omega))
    rw [processInput, if_neg h, if_pos hlt, Framing.drain_none hnone]
  | case3 data h pkt_len hlt ih =>
    have hsome : framing.next data = some ((data.drop pktLenSize).take pkt_len,
        data.drop (pktLenSize + pkt_len)) := if_pos ⟨by omega, by
      have : prefixLength data = pkt_len := rfl
      omega⟩
    rw [processInput, if_neg h, if_neg hlt, Framing.drain_some hsome, ih]

/-- What `ProcessInput` leaves fits the buffer with room to spare. -/
theorem length_processInput_lt (data : List U8) : (processInput data).2.length < bufSize := by
  have hnone : nextPacket (processInput data).2 = none := by
    rw [processInput_eq_drain]
    exact framing.next_drain data
  unfold nextPacket at hnone
  split at hnone
  · cases hnone
  · rename_i h
    have hlt := prefixLength_lt (processInput data).2
    have hbuf : bufSize = maxPacketSize + pktLenSize := rfl
    omega

/-! ## Two sockets and the stream between them -/

/-- `Send` keeps the packet: nothing was pending and a byte was written. -/
def Keeps (s : AsyncTcpSocket) (pv : List U8) (res : Int) : Prop :=
  pv.length ≤ maxPacketSize ∧ s.outpos_ = 0 ∧ 0 < res

instance (s : AsyncTcpSocket) (pv : List U8) (res : Int) : Decidable (Keeps s pv res) :=
  inferInstanceAs (Decidable (_ ∧ _ ∧ _))

/-- A sending and a receiving socket, the bytes the network has taken and not delivered yet, and
what has happened so far: the packets that were not dropped, the bytes delivered, and what the
receiver signalled. -/
structure Link where
  sender : AsyncTcpSocket
  wire : List U8
  receiver : AsyncTcpSocket
  kept : List (List U8)
  delivered : List U8
  signals : List Signal
deriving DecidableEq

namespace Link

def initial : Link := ⟨create false, [], create false, [], [], []⟩

inductive Event
  | send (pv : List U8) (res : Int)
  | writeEvent (res : Int)
  | readEvent (len : Option Nat)
deriving DecidableEq

/-- What the sockets below may answer: they take no more bytes than they are handed, and hand over
no more than there are and than they are asked for. -/
def Allowed (l : Link) : Event → Prop
  | .send pv res => res ≤ (frame pv).length
  | .writeEvent res => res ≤ l.sender.outpos_
  | .readEvent len => ∀ n ∈ len, n ≤ l.wire.length ∧ n ≤ bufSize - l.receiver.inpos_

instance (l : Link) : DecidablePred l.Allowed
  | .send pv res => inferInstanceAs (Decidable (res ≤ ((frame pv).length : Int)))
  | .writeEvent res => inferInstanceAs (Decidable (res ≤ (l.sender.outpos_ : Int)))
  | .readEvent none => isTrue (fun _ h => absurd h (Option.not_mem_none _))
  | .readEvent (some n) => decidable_of_iff
      (n ≤ l.wire.length ∧ n ≤ bufSize - l.receiver.inpos_) (by simp [Allowed])

/-- What a call on either socket does. -/
def apply (l : Link) : Event → Link
  | .send pv res =>
    let (sender, _, sent) := l.sender.send pv res
    { l with
      sender := sender
      wire := l.wire ++ sent
      kept := if Keeps l.sender pv res then l.kept ++ [pv] else l.kept }
  | .writeEvent res =>
    let (sender, sent) := l.sender.onWriteEvent res
    { l with sender := sender, wire := l.wire ++ sent }
  | .readEvent len =>
    let bytes := len.map l.wire.take
    let (receiver, signals) := l.receiver.onReadEvent false bytes
    { l with
      wire := l.wire.drop (len.getD 0)
      receiver := receiver
      delivered := l.delivered ++ bytes.getD []
      signals := l.signals ++ signals }

/-- The state after a call, if the sockets below may answer so. -/
def step (l : Link) (e : Event) : Option Link := if l.Allowed e then some (l.apply e) else none

/-- The state after a sequence of calls. -/
def run (l : Link) : List Event → Option Link
  | [] => some l
  | e :: events => (l.step e).bind fun l' => l'.run events

def received (l : Link) : List (List U8) := l.signals.filterMap fun
  | .readPacket data => some data
  | _ => none

end Link

/-! ### The sending side -/

variable {s : AsyncTcpSocket} {res : Int}

theorem flush_outbuf (h : res ≤ s.outpos_) :
    (s.flush res).2.2 ++ (s.flush res).1.outbuf_ = s.outbuf_ := by
  unfold flush
  split
  · rfl
  · rw [if_pos (by omega)]
    exact List.take_append_drop _ _

variable {pv : List U8}

/-- What `Send` does with a packet it keeps. -/
theorem send_keeps (hk : Keeps s pv res) (h : res ≤ (frame pv).length) : s.send pv res =
      ({ s with outbuf_ := (frame pv).drop res.toNat }, (pv.length : Int),
        (frame pv).take res.toNat) := by
  obtain ⟨hsize, hpos, hres⟩ := hk
  have hle : res.toNat ≤ (frame pv).length := by omega
  have hflush : ({ s with outbuf_ := frame pv } : AsyncTcpSocket).flush res =
      ({ s with outbuf_ := (frame pv).drop res.toNat }, res, (frame pv).take res.toNat) := by
    simp [flush, outpos_, Int.not_le.mpr hres, hle]
  rw [send, if_neg (by omega), if_neg (not_not.mpr hpos), hflush]
  exact if_neg (Int.not_le.mpr hres)

theorem send_drops (hk : ¬ Keeps s pv res) : (s.send pv res).1 = s ∧ (s.send pv res).2.2 = [] := by
  unfold send
  split
  · exact ⟨rfl, rfl⟩
  rename_i hsize
  split
  · exact ⟨rfl, rfl⟩
  rename_i hpos
  have hres : res ≤ 0 := by
    by_contra hres
    exact hk ⟨by omega, not_not.mp hpos, by omega⟩
  have hnil : s.outbuf_ = [] := List.length_eq_zero_iff.mp (not_not.mp hpos)
  have hflush : ({ s with outbuf_ := frame pv } : AsyncTcpSocket).flush res =
      ({ s with outbuf_ := frame pv }, res, []) := if_pos hres
  rw [hflush]
  simp only [if_pos hres, ← hnil, and_self]

/-- `Send` adds the frame of a packet it keeps to what is to be written, and nothing else. -/
theorem send_outbuf (s : AsyncTcpSocket) (h : res ≤ (frame pv).length) :
    (s.send pv res).2.2 ++ (s.send pv res).1.outbuf_ =
      s.outbuf_ ++ if Keeps s pv res then frame pv else [] := by
  by_cases hk : Keeps s pv res
  · have hnil : s.outbuf_ = [] := List.length_eq_zero_iff.mp hk.2.1
    rw [send_keeps hk h, if_pos hk, hnil, List.nil_append]
    exact List.take_append_drop _ _
  · obtain ⟨hs, hsent⟩ := send_drops hk
    rw [hs, hsent, if_neg hk, List.nil_append, List.append_nil]

theorem onWriteEvent_outbuf (h : res ≤ s.outpos_) :
    (s.onWriteEvent res).2 ++ (s.onWriteEvent res).1.outbuf_ = s.outbuf_ := by
  unfold onWriteEvent
  split
  · exact flush_outbuf h
  · rfl

/-! ### The receiving side -/

/-- **The input buffer never overflows**, whatever a read brings. -/
theorem onReadEvent_eq (h : s.listen_ = false) (accepted : Bool)
    (bytes : List U8) : s.onReadEvent accepted (some bytes) =
      ({ s with inbuf_ := (processInput (s.inbuf_ ++ bytes)).2 },
        (processInput (s.inbuf_ ++ bytes)).1.map .readPacket) := by
  have hlt := length_processInput_lt (s.inbuf_ ++ bytes)
  simp [onReadEvent, h, Nat.not_le.mpr hlt]

namespace Link

/-- What holds of a link between two calls: the frames of the packets that were kept are what was
delivered, what is on the way and what is still to be written; and what was delivered has been
signalled as far as it is complete. -/
structure Sound (l : Link) : Prop where
  accepts : l.receiver.listen_ = false
  stream : framing.frames l.kept = l.delivered ++ l.wire ++ l.sender.outbuf_
  input : framing.drain l.delivered = (l.received, l.receiver.inbuf_)
  overflow : .inputBufferOverflow ∉ l.signals
  sizes : ∀ pv ∈ l.kept, pv.length ≤ maxPacketSize

theorem sound_initial : Sound initial where
  accepts := rfl
  stream := rfl
  input := Framing.drain_none rfl
  overflow := List.not_mem_nil
  sizes := List.forall_mem_nil _

variable {l : Link}

variable {pv : List U8}

theorem frames_kept (h : l.Sound) {res : Int} (hres : res ≤ (frame pv).length) :
    framing.frames (if Keeps l.sender pv res then l.kept ++ [pv] else l.kept) =
      l.delivered ++ (l.wire ++ (l.sender.send pv res).2.2) ++
        (l.sender.send pv res).1.outbuf_ := by
  have hout := send_outbuf l.sender hres
  rw [List.append_assoc, List.append_assoc, hout, ← List.append_assoc, ← List.append_assoc,
    ← h.stream]
  split
  · rw [Framing.frames_append, Framing.frames_cons, Framing.frames_nil, List.append_nil]
    rfl
  · rw [List.append_nil]

theorem received_append (l : Link) (packets : List (List U8)) :
    received { l with signals := l.signals ++ packets.map .readPacket } =
      l.received ++ packets := by
  simp [received, List.filterMap_map]

/-- **Every call keeps the link sound.** -/
theorem Sound.apply (h : l.Sound) {e : Event} (he : l.Allowed e) : (l.apply e).Sound := by
  cases e with
  | send pv res =>
    refine ⟨h.accepts, frames_kept h he, h.input, h.overflow, ?_⟩
    simp only [Link.apply]
    split
    · rename_i hk
      exact List.forall_mem_append.mpr ⟨h.sizes, List.forall_mem_singleton.mpr hk.1⟩
    · exact h.sizes
  | writeEvent res =>
    refine ⟨h.accepts, ?_, h.input, h.overflow, h.sizes⟩
    have hout := onWriteEvent_outbuf he
    have hstream := h.stream
    rw [← hout] at hstream
    simpa only [Link.apply, List.append_assoc] using hstream
  | readEvent len =>
    cases len with
    | none =>
      have hnone : l.receiver.onReadEvent false none = (l.receiver, []) := by
        simp [onReadEvent, h.accepts]
      simp only [Link.apply, Option.map_none, hnone, Option.getD_none, List.drop_zero,
        List.append_nil]
      exact h
    | some n =>
      have hread := onReadEvent_eq h.accepts false (l.wire.take n)
      simp only [Link.apply, Option.map_some, Option.getD_some, hread]
      refine ⟨h.accepts, ?_, ?_, ?_, h.sizes⟩
      · have hstream := h.stream
        rw [← List.take_append_drop n l.wire] at hstream
        simpa only [List.append_assoc] using hstream
      · rw [Framing.drain_append, h.input, ← processInput_eq_drain]
        exact Prod.ext (received_append _ _).symm rfl
      · intro hmem
        rcases List.mem_append.mp hmem with hmem | hmem
        · exact h.overflow hmem
        · obtain ⟨p, -, hp⟩ := List.mem_map.mp hmem
          cases hp

theorem Sound.run {l l' : Link} {events : List Event} (h : l.Sound)
    (hrun : l.run events = some l') : l'.Sound := by
  induction events generalizing l with
  | nil =>
    cases hrun
    exact h
  | cons e events ih =>
    obtain ⟨l₁, hstep, hrun⟩ := Option.bind_eq_some_iff.mp hrun
    unfold step at hstep
    split at hstep
    · rename_i he
      cases hstep
      exact ih (h.apply he) hrun
    · cases hstep

theorem Sound.rest (h : l.Sound) (hsize : ∀ pv ∈ l.kept, pv.length ≠ maxPacketSize) :
    ∃ rest, l.kept = l.received ++ rest ∧
      framing.frames rest = l.receiver.inbuf_ ++ l.wire ++ l.sender.outbuf_ ∧
      ∀ pv ∈ rest.head?, l.receiver.inbuf_.length < (frame pv).length := by
  have hvalid : ∀ pv ∈ l.kept, framing.Valid pv := fun pv hpv =>
    lt_of_le_of_ne (h.sizes pv hpv) (hsize pv hpv)
  have hnil : framing.drain [] = ([], []) := Framing.drain_none rfl
  have hall := Framing.drain_frames hvalid []
  rw [List.append_nil, h.stream, List.append_assoc, Framing.drain_append, h.input, hnil,
    List.append_nil] at hall
  obtain ⟨hkept, hleft⟩ := Prod.mk.inj hall
  simp only at hkept hleft
  have hrest := framing.frames_drain (l.receiver.inbuf_ ++ (l.wire ++ l.sender.outbuf_))
  rw [hleft, List.append_nil] at hrest
  rw [← List.append_assoc] at hrest hkept
  refine ⟨_, hkept.symm, hrest, ?_⟩
  intro pv hpv
  obtain ⟨more, hmore⟩ := List.head?_eq_some_iff.mp hpv
  rw [hmore] at hrest hkept
  refine Framing.length_lt_encode (hvalid pv ?_) (hrest.trans (List.append_assoc ..)) ?_
  · rw [← hkept]
    exact List.mem_append_right _ List.mem_cons_self
  · have hnone := framing.next_drain l.delivered
    rwa [h.input] at hnone

/-- Once everything has arrived, what was signalled is right up to the sizes that the length field
cannot hold. -/
theorem Sound.received_iff (h : l.Sound) (hwire : l.wire = []) (hout : l.sender.outbuf_ = []) :
    l.received = l.kept ↔ ∀ pv ∈ l.kept, pv.length ≠ maxPacketSize := by
  have hstream := h.stream
  rw [hwire, hout, List.append_nil, List.append_nil] at hstream
  have hnext : ∀ pv t, framing.next (framing.encode pv ++ t) ≠ none := by
    intro pv t hnone
    rw [show framing.next (framing.encode pv ++ t) = _ from nextPacket_frame pv t] at hnone
    cases hnone
  have hiff := Framing.drain_frames_iff hnext rfl l.kept
  rw [hstream, h.input] at hiff
  rw [hiff]
  exact forall₂_congr fun pv hpv => (h.sizes pv hpv).lt_iff_ne

/-- **The receiving socket signals exactly the packets that were not dropped**, in order, each as
soon as it has arrived whole; its buffer never overflows. A packet of `MAX_PACKET_SIZE` bytes passes
the size check of `Send`, but its length does not fit the length field: once everything has arrived,
the packets signalled are those that were not dropped if and only if there is none of that size. -/
theorem framing_exact {events : List Event} {l : Link} (h : initial.run events = some l) :
    .inputBufferOverflow ∉ l.signals ∧
    ((∀ pv ∈ l.kept, pv.length ≠ maxPacketSize) →
      ∃ rest, l.kept = l.received ++ rest ∧
        framing.frames rest = l.receiver.inbuf_ ++ l.wire ++ l.sender.outbuf_ ∧
        ∀ pv ∈ rest.head?, l.receiver.inbuf_.length < (frame pv).length) ∧
    (l.wire = [] → l.sender.outbuf_ = [] →
      (l.received = l.kept ↔ ∀ pv ∈ l.kept, pv.length ≠ maxPacketSize)) :=
  have hl := sound_initial.run h
  ⟨hl.overflow, hl.rest, hl.received_iff⟩

/-- Two packets are written, the second one in two pieces with another packet dropped in between;
they are read in three pieces. -/
theorem framing_exact_pieces :
    (⟨create false, [], create false, [[1, 2], [3]], [0, 2, 1, 2, 0, 1, 3],
      [.readPacket [1, 2], .readPacket [3]]⟩ : Link).received = [[1, 2], [3]] :=
  have hrun : initial.run [.send [1, 2] 4, .send [3] 1, .send [4] 1, .readEvent (some 3),
      .writeEvent 2, .readEvent (some 2), .readEvent (some 2)] =
      some ⟨create false, [], create false, [[1, 2], [3]], [0, 2, 1, 2, 0, 1, 3],
        [.readPacket [1, 2], .readPacket [3]]⟩ := by decide +kernel
  ((framing_exact hrun).2.2 rfl rfl).mpr (by decide)

theorem step_send (hk : Keeps l.sender pv (frame pv).length) : l.step (.send pv (frame pv).length) =
      some { l with
        sender := { l.sender with outbuf_ := [] }
        wire := l.wire ++ frame pv
        kept := l.kept ++ [pv] } := by
  have hsend := send_keeps hk le_rfl
  rw [Int.toNat_natCast, List.drop_length, List.take_length] at hsend
  have hallowed : l.Allowed (.send pv (frame pv).length) := le_rfl
  rw [step, if_pos hallowed, Link.apply, hsend, if_pos hk]

theorem step_readEvent {n : Nat} (h : l.Allowed (.readEvent (some n))) :
    l.step (.readEvent (some n)) = some
      { l with
        wire := l.wire.drop n
        receiver := (l.receiver.onReadEvent false (some (l.wire.take n))).1
        delivered := l.delivered ++ l.wire.take n
        signals := l.signals ++ (l.receiver.onReadEvent false (some (l.wire.take n))).2 } :=
  if_pos h

/-- A packet of `MAX_PACKET_SIZE` bytes is written, and two bytes are read. -/
def oversize : List Event :=
  [.send (List.replicate maxPacketSize 0) bufSize, .readEvent (some 2)]

/-- **A packet of the largest size desynchronises the stream**: its length field is zero, the
receiver signals an empty packet, and the packet's bytes are taken for further frames. -/
theorem oversize_misframed :
    ∃ l, initial.run oversize = some l ∧ l.kept = [List.replicate maxPacketSize 0] ∧
      l.received = [[]] := by
  generalize hpv : List.replicate maxPacketSize (0 : U8) = pv
  have hsize : pv.length = maxPacketSize := by rw [← hpv, List.length_replicate]
  have hlen : (frame pv).length = bufSize := by
    rw [frame_length, hsize, bufSize, Nat.add_comm]
  have hkeep : Keeps (create false) pv bufSize :=
    ⟨hsize.le, rfl, by decide⟩
  have hfirst : initial.step (.send pv bufSize) =
      some ⟨create false, frame pv, create false, [pv], [], []⟩ := by
    rw [← hlen] at hkeep ⊢
    have hstep := step_send (l := initial) hkeep
    have hwire : initial.wire ++ frame pv = frame pv := List.nil_append _
    rw [hwire] at hstep
    exact hstep
  have hfield : ByteBuffer.writeUInt16 (BitVec.ofNat 16 maxPacketSize) = [0, 0] := by decide
  have htwo : (frame pv).take 2 = [0, 0] := by
    rw [frame, hsize, hfield]
    rfl
  have hread : (create false).onReadEvent false (some [0, 0]) =
      (create false, [.readPacket []]) := by decide +kernel
  have hsecond : step ⟨create false, frame pv, create false, [pv], [], []⟩ (.readEvent (some 2)) =
      some ⟨create false, (frame pv).drop 2, create false, [pv], [0, 0], [.readPacket []]⟩ := by
    have hle : 2 ≤ (frame pv).length := by
      rw [hlen]
      decide
    have hspace : 2 ≤ bufSize - (create false).inpos_ := by decide
    have hallowed : Allowed ⟨create false, frame pv, create false, [pv], [], []⟩
        (.readEvent (some 2)) := by
      rintro n ⟨⟩
      exact ⟨hle, hspace⟩
    rw [step_readEvent hallowed]
    dsimp only
    rw [htwo, hread, List.nil_append, List.nil_append]
  exact ⟨_, by rw [oversize, hpv, run, hfirst, Option.bind_some, run, hsecond, Option.bind_some,
    run], rfl, rfl⟩

end Link

end AsyncTcpSocket

end Libjingle
