import Libjingle.PseudoTcp.Output

/-!
# `PseudoTcp`: the receive path (`parse`, `process`, `parseOptions`)

`process` is cut at its own comments: control data (`processControl`), the timestamp, the
acknowledgement (`processAck`), the change to `TCP_ESTABLISHED`, the receive buffer
(`Incoming.receive`), and the call of `attemptSend`.
-/

namespace Libjingle

open Lib

/-! ## The receive buffer -/

/-- Adjust the incoming segment to fit the receive buffer: drop what is old, then what passes the
free space. -/
def Incoming.trimOld (i : Incoming) (seg : Segment) : Segment :=
  if seg.seq < i.rcvNxt then
    let nAdjust := i.rcvNxt - seg.seq
    if nAdjust < seg.len then
      { seg with
        seq := seg.seq + nAdjust
        data := fun k => seg.data (nAdjust.toNat + k)
        len := seg.len - nAdjust }
    else { seg with len := 0 }
  else seg

@[inherit_doc Incoming.trimOld]
def Incoming.trimNew (i : Incoming) (seg : Segment) : Segment :=
  let available := BitVec.ofNat 32 i.rbuf.getWriteRemaining
  if seg.seq + seg.len - i.rcvNxt > available then
    let nAdjust := seg.seq + seg.len - i.rcvNxt - available
    if nAdjust < seg.len then { seg with len := seg.len - nAdjust } else { seg with len := 0 }
  else seg

/-- `ConsumeWriteBuffer(n)` with the two counters that follow it. -/
def Incoming.commit (i : Incoming) (n : U32) : Incoming :=
  let i := i.assert (n.toNat ≤ i.rbuf.getWriteRemaining) .consumeWrite
  { i with
    rbuf := (i.rbuf.consumeWriteBuffer n.toNat).getD i.rbuf
    rcvNxt := i.rcvNxt + n
    rcvWnd := i.rcvWnd - n }

/-- The loop over `m_rlist` after in-order data: take every entry that `m_rcv_nxt` has reached.
The flag tells whether an entry added data. -/
def Incoming.drain (i : Incoming) : List RSegment → Incoming × Bool
  | [] => ({ i with rlist := [] }, false)
  | r :: rest =>
    if r.seq ≤ i.rcvNxt then
      if r.seq + r.len > i.rcvNxt then
        (((i.commit (r.seq + r.len - i.rcvNxt)).drain rest).1, true)
      else i.drain rest
    else ({ i with rlist := r :: rest }, false)

/-- Insert before the first entry that does not start earlier. -/
def insertRSegment (r : RSegment) : List RSegment → List RSegment
  | [] => [r]
  | e :: rest => if e.seq < r.seq then e :: insertRSegment r rest else r :: e :: rest

/-- What the receive path returns: the buffer, the acknowledgement to send, `bNewData`. -/
structure Receipt where
  inc : Incoming
  sflags : SendFlags
  newData : Bool

def Incoming.store (i : Incoming) (bIgnoreData : Bool) (seg : Segment) (sflags : SendFlags) :
    Receipt :=
  if seg.len = 0 then ⟨i, sflags, false⟩
  else if bIgnoreData then
    ⟨if seg.seq = i.rcvNxt then { i with rcvNxt := i.rcvNxt + seg.len } else i, sflags, false⟩
  else
    let nOffset := seg.seq - i.rcvNxt
    let w := i.rbuf.writeOffset seg.data seg.len.toNat nOffset.toNat
    let i := { i.assert (w.1 = .success) .receiveWrite with rbuf := w.2.2 }
    if seg.seq = i.rcvNxt then
      let d := (i.commit seg.len).drain i.rlist
      -- (Fast Recovery)
      ⟨d.1, if d.2 then .immediateAck else sflags, true⟩
    else ⟨{ i with rlist := insertRSegment ⟨seg.seq, seg.len⟩ i.rlist }, sflags, false⟩

/-- The receive path of `process`. -/
def Incoming.receive (i : Incoming) (bIgnoreData : Bool) (seg : Segment) (sflags : SendFlags) :
    Receipt :=
  i.store bIgnoreData (i.trimNew (i.trimOld seg)) sflags

/-! ## Acknowledged bytes -/

/-- The loop that frees acknowledged segments: the list, `m_largest`, and whether the list was
never found empty. -/
def freeAcked : List SSegment → U32 → U32 → List SSegment × U32 × Bool
  | [], nFree, largest => ([], largest, nFree = 0)
  | seg :: rest, nFree, largest =>
    if nFree = 0 then (seg :: rest, largest, true)
    else if nFree < seg.len then ({ seg with len := seg.len - nFree } :: rest, largest, true)
    else freeAcked rest (nFree - seg.len) (if seg.len > largest then seg.len else largest)

/-- Take `nAcked` acknowledged bytes off the send buffer and the segment list. -/
def Outgoing.releaseAcked (o : Outgoing) (nAcked : U32) : Outgoing :=
  let o := o.assert (nAcked.toNat ≤ o.sbuf.dataLength) .consumeRead
  let f := freeAcked o.slist nAcked o.largest
  let o := o.assert f.2.2 .freeEmpty
  { o with
    sbuf := (o.sbuf.consumeReadData nAcked.toNat).getD o.sbuf
    slist := f.1
    largest := f.2.1 }

/-- What a valuable ack does to the outgoing data. -/
def Outgoing.acked (o : Outgoing) (ack wnd now : U32) : Outgoing :=
  let nAcked := ack - o.sndUna
  { o with
    sndWnd := wnd
    sndUna := ack
    rtoBase := if ack = o.sndNxt then 0 else now }.releaseAcked nAcked

namespace PseudoTcp

/-! ## Options -/

/-- `resizeReceiveBuffer`'s loop: halve the size until it fits in 16 bits. -/
def scaleFor : Nat → U32 → U8 → U32 × U8
  | 0, size, scale => (size, scale)
  | fuel + 1, size, scale =>
    if size > 0xFFFF then scaleFor fuel (size >>> 1) (scale + 1) else (size, scale)

/-- `resizeReceiveBuffer`. Sixteen halvings bring any `uint32` below `0x10000`. -/
def resizeReceiveBuffer (env : Env) (s : PseudoTcp) (newSize : U32) : PseudoTcp :=
  let sc := scaleFor 16 newSize 0
  let newSize := sc.1 <<< sc.2.toNat
  let r := s.rbuf.setCapacity env.mem newSize.toNat newSize.isLt
  let s := s.assert r.1 .resizeFull
  { s with
    rbuf := r.2
    rbufLen := newSize
    rwndScale := sc.2
    ssthresh := newSize
    rcvWnd := BitVec.ofNat 32 r.2.getWriteRemaining }

def resizeSendBuffer (env : Env) (s : PseudoTcp) (newSize : U32) : PseudoTcp :=
  { s with sbufLen := newSize, sbuf := (s.sbuf.setCapacity env.mem newSize.toNat newSize.isLt).2 }

/-- `applyOption`, with `applyWindowScaleOption`. -/
def applyOption (s : PseudoTcp) (kind : U8) (data : List U8) : PseudoTcp :=
  if kind = tcpOptWndScale then
    match data with
    | [scale] => { s with swndScale := scale }
    | _ => s
  else s

/-- `parseOptions`' loop over the unread bytes: the options seen, or `none` on an invalid option
length. Every round reads at least one byte, so `fuel` rounds do for `fuel` bytes. -/
def parseOptionsLoop : Nat → PseudoTcp → List U8 → List U8 → PseudoTcp × Option (List U8)
  | 0, s, _, seen => (s, some seen)
  | _ + 1, s, [], seen => (s, some seen)
  | fuel + 1, s, kind :: buf, seen =>
    if kind = tcpOptEol then (s, some seen)
    else if kind = tcpOptNoop then parseOptionsLoop fuel s buf seen
    else
      let optLen := (buf.headD 0).toNat
      let buf := buf.tail
      if optLen ≤ buf.length then
        parseOptionsLoop fuel (s.applyOption kind (buf.take optLen)) (buf.drop optLen)
          (kind :: seen)
      else (s, none)

def parseOptions (env : Env) (s : PseudoTcp) (data : List U8) : PseudoTcp :=
  match parseOptionsLoop data.length s data [] with
  | (s, none) => s
  | (s, some seen) =>
    -- Peer doesn't support window scaling: revert the receive buffer size to its default.
    if tcpOptWndScale ∉ seen ∧ s.rwndScale > 0 then
      { s.resizeReceiveBuffer env defaultRcvBufSize with swndScale := 0 }
    else s

/-! ## The stages of `process` -/

/-- Control data: `bConnect`, or `none` when the segment is rejected. -/
def processControl (env : Env) (s : PseudoTcp) (seg : Segment) : PseudoTcp × Option Bool :=
  if seg.flags &&& flagCtl = 0 then (s, some false)
  else if seg.len = 0 then (s, none)
  else if seg.data 0 = ctlConnect then
    let s := s.parseOptions env (fetch (fun k => seg.data (1 + k)) (seg.len - 1).toNat)
    if s.state = .listen then
      ({ s with state := .synReceived }.queueConnectMessage, some true)
    else if s.state = .synSent then
      ({ s with state := .established }.adjustMTU.note .onTcpOpen, some true)
    else (s, some true)
  else (s, none)

def updateTimestamp (s : PseudoTcp) (seg : Segment) : PseudoTcp :=
  if seg.seq ≤ s.tsLastack ∧ s.tsLastack < seg.seq + seg.len then { s with tsRecent := seg.tsval }
  else s

def bound (lower middle upper : U32) : U32 := umin (umax lower middle) upper

/-- The round-trip time of a valuable ack. -/
def updateRtt (s : PseudoTcp) (now : U32) (seg : Segment) : PseudoTcp :=
  if seg.tsecr = 0 then s
  else
    let rtt := timeDiff now seg.tsecr
    if rtt ≥ 0 then
      let r := if s.rxSrtt = 0 then (BitVec.ofInt 32 rtt, BitVec.ofInt 32 (rtt / 2))
        else
          (BitVec.ofInt 32 (((7 * s.rxSrtt).toNat + rtt) / 8),
            BitVec.ofInt 32 (((3 * s.rxRttvar).toNat + |rtt - s.rxSrtt.toNat|) / 4))
      { s with
        rxSrtt := r.1
        rxRttvar := r.2
        rxRto := bound minRto (r.1 + umax 1 (4 * r.2)) maxRto }
    else s.note (.assertFailed .negativeRtt)

/-- `m_snd_wnd` from a segment's window field; the shift as in `Incoming.advertised`. -/
def scaledWnd (s : PseudoTcp) (seg : Segment) : U32 :=
  seg.wnd.setWidth 32 <<< (s.swndScale.toNat % 32)

/-- Congestion control on a valuable ack of `nAcked` bytes. `false` when a retransmission
failed. -/
def congestionAck (env : Env) (s : PseudoTcp) (now nAcked : U32) : PseudoTcp × Bool :=
  if s.dupAcks ≥ 3 then
    if s.sndUna ≥ s.recover then
      -- NewReno: exit recovery
      let nInFlight := s.sndNxt - s.sndUna
      ({ s with cwnd := umin s.ssthresh (nInFlight + s.mss), dupAcks := 0 }, true)
    else
      match s.retransmit env now with
      | (s, false) => (s.closedown .econnaborted, false)
      | (s, true) => ({ s with cwnd := s.cwnd + (s.mss - umin nAcked s.cwnd) }, true)
  else
    -- Slow start, congestion avoidance
    ({ s with
      dupAcks := 0
      cwnd := if s.cwnd < s.ssthresh then s.cwnd + s.mss
        else s.cwnd + umax 1 (s.mss * s.mss / s.cwnd) }, true)

/-- A valuable ack: `m_snd_una < ack ≤ m_snd_nxt`. -/
def processNewAck (env : Env) (s : PseudoTcp) (now : U32) (seg : Segment) : PseudoTcp × Bool :=
  let s := s.updateRtt now seg
  let nAcked := seg.ack - s.sndUna
  { s with toOutgoing := s.toOutgoing.acked seg.ack (s.scaledWnd seg) now }.congestionAck env now
    nAcked

/-- Count an ack for `m_snd_una` itself while something is in flight. `false` when a
retransmission failed. -/
def countDupAck (env : Env) (s : PseudoTcp) (now : U32) : PseudoTcp × Bool :=
  let s := { s with dupAcks := s.dupAcks + 1 }
  if s.dupAcks = 3 then
    -- Fast Retransmit
    match s.retransmit env now with
    | (s, false) => (s.closedown .econnaborted, false)
    | (s, true) =>
      let nInFlight := s.sndNxt - s.sndUna
      let ssthresh := umax (nInFlight / 2) (2 * s.mss)
      ({ s with recover := s.sndNxt, ssthresh := ssthresh, cwnd := ssthresh + 3 * s.mss }, true)
  else if s.dupAcks > 3 then ({ s with cwnd := s.cwnd + s.mss }, true)
  else (s, true)

/-- An ack for `m_snd_una` itself. -/
def processDupAck (env : Env) (s : PseudoTcp) (now : U32) (seg : Segment) : PseudoTcp × Bool :=
  let s := { s with sndWnd := s.scaledWnd seg }
  if seg.len > 0 then (s, true)
  else if s.sndUna ≠ s.sndNxt then s.countDupAck env now
  else ({ s with dupAcks := 0 }, true)

def processAck (env : Env) (s : PseudoTcp) (now : U32) (seg : Segment) : PseudoTcp × Bool :=
  if seg.ack > s.sndUna ∧ seg.ack ≤ s.sndNxt then s.processNewAck env now seg
  else if seg.ack = s.sndUna then s.processDupAck env now seg
  else (s, true)

/-- The first segment that is not a CONNECT establishes a connection in `TCP_SYN_RECEIVED`. -/
def enterEstablished (s : PseudoTcp) (bConnect : Bool) : PseudoTcp :=
  if s.state = .synReceived ∧ bConnect = false then
    { s with state := .established }.adjustMTU.note .onTcpOpen
  else s

/-- Tell the user when there is room in the send queue again. -/
def notifyWriteable (s : PseudoTcp) : PseudoTcp :=
  let idealRefillSize := (s.sbufLen + s.rbufLen) / 2
  if s.bWriteEnable ∧ BitVec.ofNat 32 s.sbuf.dataLength < idealRefillSize then
    { s with bWriteEnable := false }.note .onTcpWriteable
  else s

/-- The acknowledgement a segment calls for. -/
def ackFlags (s : PseudoTcp) (seg : Segment) : SendFlags :=
  if seg.seq ≠ s.rcvNxt then .immediateAck
  else if seg.len ≠ 0 then (if s.ackDelay = 0 then .immediateAck else .delayedAck)
  else .none

def notifyReadable (s : PseudoTcp) (bNewData : Bool) : PseudoTcp :=
  if bNewData ∧ s.bReadEnable then { s with bReadEnable := false }.note .onTcpReadable else s

/-- `bIgnoreData`. -/
def ignoresData (s : PseudoTcp) (seg : Segment) : Bool :=
  decide (seg.flags &&& flagCtl ≠ 0) || decide (s.shutdown ≠ .none)

/-- `process` from the receive buffer on. -/
def processData (env : Env) (s : PseudoTcp) (seg : Segment) : PseudoTcp :=
  let r := s.toIncoming.receive (s.ignoresData seg) seg (s.ackFlags seg)
  ({ s with toIncoming := r.inc }.attemptSend env r.sflags).notifyReadable r.newData

/-- `process`: the traffic times. -/
def arrive (env : Env) (s : PseudoTcp) : PseudoTcp :=
  { s with
    ticks := s.ticks + 1
    lasttraffic := env.now s.ticks
    lastrecv := env.now s.ticks
    bOutgoing := false }

/-- `process` from the timestamp on. -/
def acknowledge (env : Env) (s : PseudoTcp) (now : U32) (bConnect : Bool) (seg : Segment) :
    PseudoTcp × Bool :=
  match (s.updateTimestamp seg).processAck env now seg with
  | (s, false) => (s, false)
  | (s, true) => (((s.enterEstablished bConnect).notifyWriteable).processData env seg, true)

def process (env : Env) (s : PseudoTcp) (seg : Segment) : PseudoTcp × Bool :=
  if seg.conv ≠ s.conv then (s, false)
  else
    let now := env.now s.ticks
    let s := s.arrive env
    if s.state = .closed then (s, false)
    else if seg.flags &&& flagRst ≠ 0 then (s.closedown .econnreset, false)
    else
      match s.processControl env seg with
      | (s, none) => (s, false)
      | (s, some bConnect) => s.acknowledge env now bConnect seg

/-- `parse`'s reading of the header of a packet of `size` bytes behind `buf`. -/
def parseSegment (buf : Nat → U8) (size : Nat) : Segment where
  conv := BitVec.ofNat 32 (ofBE (fetch buf 4))
  seq := BitVec.ofNat 32 (ofBE (fetch (fun i => buf (4 + i)) 4))
  ack := BitVec.ofNat 32 (ofBE (fetch (fun i => buf (8 + i)) 4))
  flags := buf 13
  wnd := BitVec.ofNat 16 (ofBE (fetch (fun i => buf (14 + i)) 2))
  tsval := BitVec.ofNat 32 (ofBE (fetch (fun i => buf (16 + i)) 4))
  tsecr := BitVec.ofNat 32 (ofBE (fetch (fun i => buf (20 + i)) 4))
  data := fun i => buf (24 + i)
  len := BitVec.ofNat 32 size - headerSize

/-- The segment `parse` reads from a packet; indeterminate where the packet is short. -/
def wire (env : Env) (buffer : List U8) : Segment :=
  parseSegment (fun i => buffer[i]?.getD (env.mem i)) buffer.length

def parse (env : Env) (s : PseudoTcp) (buffer : List U8) : PseudoTcp × Bool :=
  if buffer.length < 12 then (s, false) else s.process env (wire env buffer)

end PseudoTcp

end Libjingle
