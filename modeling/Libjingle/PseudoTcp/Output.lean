import Libjingle.Lib.Tiling
import Libjingle.PseudoTcp.State

/-!
# `PseudoTcp`: the send path (`queue`, `packet`, `transmit`, `attemptSend`)

An iterator into `m_slist` is an index; `Lib.splice` replaces the entry there by others.

* `transmit`'s two nested loops retry with the next lower levels of `PACKET_MAXIMUMS` while
  `TcpWritePacket` says `WR_TOO_LARGE`. `transmitLower` is the recursion over the levels left.
* `attemptSend` loops until nothing more may be sent. The recursion carries a bound on the number
  of rounds, `backlog`: a round that goes on marks an entry as sent and so lowers it
  (`Termination.lean`).
-/

namespace Libjingle

open Lib

/-! ## The segment list and the send buffer -/

namespace Outgoing

/-- `queue`: the length cut to the free space. -/
def clip (o : Outgoing) (len : U32) : U32 := umin len (BitVec.ofNat 32 o.sbuf.getWriteRemaining)

/-- `queue`: concatenate with the last segment if it is of the same type and has not been
transmitted yet, else append. -/
def pushSegment (l : List SSegment) (fresh : SSegment) : List SSegment :=
  match l.getLast? with
  | some last =>
    if last.bCtrl = fresh.bCtrl ∧ last.xmit = 0 then
      l.dropLast ++ [{ last with len := last.len + fresh.len }]
    else l ++ [fresh]
  | none => l ++ [fresh]

/-- `queue`: what is left, and the number of bytes written. -/
def queue (o : Outgoing) (data : Nat → U8) (len : U32) (bCtrl : Bool) : Outgoing × Nat :=
  let w := o.sbuf.write data (o.clip len).toNat
  let o' := o.assert (decide (len.toNat ≤ o.sbuf.getWriteRemaining) || !bCtrl) .queueCtrl
  ({ o' with
      slist := pushSegment o.slist
        ⟨o.sndUna + BitVec.ofNat 32 o.sbuf.dataLength, o.clip len, 0, bCtrl⟩
      sbuf := w.2.2
      queued := o.queued ++ fetch data w.2.1 }, w.2.1)

/-- `queueConnectMessage` with the message `buf`. -/
def greeted (o : Outgoing) (buf : List U8) : Outgoing :=
  ({ o with sndWnd := BitVec.ofNat 32 buf.length }.queue (fun i => buf.getD i 0)
    (BitVec.ofNat 32 buf.length) true).1

/-- The payload `packet` puts behind the header: what `ReadOffset` gives, and indeterminate bytes
where it gives fewer than `len`. -/
def payload (o : Outgoing) (mem : Nat → U8) (offset len : U32) : List U8 :=
  if len = 0 then []
  else
    let out := (o.sbuf.readOffset len.toNat offset.toNat).2
    out ++ fetch (fun i => mem (out.length + i)) (len.toNat - out.length)

/-- `attemptSend`: cut the segment at `i` to `n` bytes if it is longer. -/
def cut (o : Outgoing) (i : Nat) (n : U32) : Outgoing :=
  match o.slist[i]? with
  | some seg =>
    if seg.len > n then
      let sub : SSegment := ⟨seg.seq + n, seg.len - n, 0, seg.bCtrl⟩
      { o with slist := splice o.slist i [{ seg with len := n }, sub] }
    else o
  | none => o

/-- `transmit`'s bookkeeping once `n` bytes of the segment at `i` are out: split it there, advance
`m_snd_nxt` at its first transmission, count the transmission, start the timer. -/
def transmitted (o : Outgoing) (i : Nat) (seg : SSegment) (n now : U32) : Outgoing :=
  let sub : SSegment := ⟨seg.seq + n, seg.len - n, seg.xmit, seg.bCtrl⟩
  let len := if n < seg.len then n else seg.len
  let head : SSegment := { seg with len := len, xmit := seg.xmit + 1 }
  { o with
    slist := splice o.slist i (if n < seg.len then [head, sub] else [head])
    sndNxt := if seg.xmit = 0 then o.sndNxt + len else o.sndNxt
    rtoBase := if o.rtoBase = 0 then now else o.rtoBase }

end Outgoing

namespace PseudoTcp

@[inherit_doc Outgoing.queue]
def queue (s : PseudoTcp) (data : Nat → U8) (len : U32) (bCtrl : Bool) : PseudoTcp × Nat :=
  let q := s.toOutgoing.queue data len bCtrl
  ({ s with toOutgoing := q.1 }, q.2)

/-! ## Packets -/

/-- The packet `packet` builds. -/
def stamp (env : Env) (s : PseudoTcp) (seq : U32) (flags : U8) (offset len : U32) : Packet where
  conv := s.conv
  seq := seq
  ack := s.rcvNxt
  flags := flags
  wnd := s.toIncoming.advertised
  tsval := env.now s.ticks
  tsecr := s.tsRecent
  payload := s.toOutgoing.payload env.mem offset len

def packet (env : Env) (s : PseudoTcp) (seq : U32) (flags : U8) (offset len : U32) :
    PseudoTcp × WriteResult :=
  let s := s.assert (headerSize + len ≤ maxPacket) .packetSize
  let s := s.assert (decide (len = 0) ||
    decide ((s.sbuf.readOffset len.toNat offset.toNat).2.length = len.toNat)) .packetRead
  let now := env.now s.ticks
  let wres := env.write s.ticks
  let s := { s with
    ticks := s.ticks + 1
    tsLastack := s.rcvNxt
    written := ⟨s.stamp env seq flags offset len, wres⟩ :: s.written }
  if wres ≠ .success ∧ len ≠ 0 then (s, wres)
  else
    ({ s with
      tAck := 0
      lastsend := if len > 0 then now else s.lastsend
      lasttraffic := now
      bOutgoing := true }, .success)

/-- `transmit`'s call of `packet` for the segment `seg`. -/
def packetFor (env : Env) (s : PseudoTcp) (seg : SSegment) (n : U32) : PseudoTcp × WriteResult :=
  s.packet env seg.seq (if seg.bCtrl then flagCtl else 0) (seg.seq - s.sndUna) n

/-- `transmit`'s loops from a `WR_TOO_LARGE` on, over the levels of `PACKET_MAXIMUMS` left: lower
`m_mss` until it is below `nTransmit`, try again with it. `none` when the packet failed or no
level is left. -/
def transmitLower (env : Env) (seg : SSegment) :
    List U16 → PseudoTcp → U32 → PseudoTcp × Option U32
  | [], s, _ => (s, none)
  | m :: rest, s, nTransmit =>
    if m = 0 then (s, none)
    else
      let mss := m.setWidth 32 - packetOverhead
      let s := { s with mss := mss, msslevel := s.msslevel + 1, cwnd := 2 * mss }
      if mss < nTransmit then
        match s.packetFor env seg mss with
        | (s, .success) => (s, some mss)
        | (s, .fail) => (s, none)
        | (s, .tooLarge) => transmitLower env seg rest s mss
      else transmitLower env seg rest s nTransmit

/-- `transmit`'s loops: the number of bytes sent, if any. -/
def transmitPacket (env : Env) (s : PseudoTcp) (seg : SSegment) : PseudoTcp × Option U32 :=
  let nTransmit := umin seg.len s.mss
  match s.packetFor env seg nTransmit with
  | (s, .success) => (s, some nTransmit)
  | (s, .fail) => (s, none)
  | (s, .tooLarge) =>
    transmitLower env seg (packetMaximums.drop (s.msslevel + 1).toNat) s nTransmit

/-- `transmit` at index `i`. -/
def transmit (env : Env) (s : PseudoTcp) (i : Nat) (now : U32) : PseudoTcp × Bool :=
  match s.slist[i]? with
  | none => (s.note (.assertFailed .transmitEnd), false)
  | some seg =>
    if seg.xmit ≥ (if s.state = .established then 15 else 30) then (s, false)
    else
      match s.transmitPacket env seg with
      | (s, none) => (s, false)
      | (s, some n) => ({ s with toOutgoing := s.toOutgoing.transmitted i seg n now }, true)

/-- `transmit(m_slist.begin(), now)`, for a retransmission. -/
def retransmit (env : Env) (s : PseudoTcp) (now : U32) : PseudoTcp × Bool :=
  match s.slist with
  | [] => (s.note (.assertFailed .transmitEnd), false)
  | front :: _ => (s.note (.retransmit front.xmit)).transmit env 0 now

/-- `attemptSend`: how many bytes may be sent now (`nAvailable` after the window checks). -/
def sendQuota (s : PseudoTcp) : U32 :=
  -- Limited Transmit
  let cwnd := if s.dupAcks = 1 ∨ s.dupAcks = 2 then s.cwnd + s.dupAcks.setWidth 32 * s.mss
    else s.cwnd
  let nWindow := umin s.sndWnd cwnd
  let nInFlight := s.sndNxt - s.sndUna
  let nUseable := if nInFlight < nWindow then nWindow - nInFlight else 0
  let nAvailable := umin (BitVec.ofNat 32 s.sbuf.dataLength - nInFlight) s.mss
  if nAvailable > nUseable then
    -- RFC 813 - avoid SWS
    if nUseable * 4 < nWindow then 0 else nUseable
  else nAvailable

/-- `attemptSend`: the acknowledgement sent when there is nothing else to send. -/
def sendAck (env : Env) (s : PseudoTcp) (sflags : SendFlags) : PseudoTcp :=
  if sflags = .none then s
  else if sflags = .immediateAck ∨ s.tAck ≠ 0 then (s.packet env s.sndNxt 0 0 0).1
  else { s with tAck := env.now s.ticks, ticks := s.ticks + 1 }

/-- `attemptSend`'s loop, at most `fuel` rounds. -/
def attemptSendLoop (env : Env) (now : U32) : Nat → PseudoTcp → SendFlags → PseudoTcp
  | 0, s, _ => s
  | fuel + 1, s, sflags =>
    let nAvailable := s.sendQuota
    if nAvailable = 0 then s.sendAck env sflags
    -- Nagle's algorithm
    else if s.useNagling ∧ s.sndNxt > s.sndUna ∧ nAvailable < s.mss then s
    else
      match s.slist.findIdx? (fun seg => seg.xmit = 0) with
      | none => s.note (.assertFailed .noUnsent)
      | some i =>
        match { s with toOutgoing := s.toOutgoing.cut i nAvailable }.transmit env i now with
        | (s, false) => s
        | (s, true) => attemptSendLoop env now fuel s .none

/-- A bound on the rounds: the bytes not transmitted yet, counted twice, and the entries they are
in. Cutting an entry in two adds one, and a round that goes on sends a byte of it or all of it. -/
def backlog (l : List SSegment) : Nat :=
  (l.map fun seg => if seg.xmit = 0 then 2 * seg.len.toNat + 1 else 0).sum

def attemptSend (env : Env) (s : PseudoTcp) (sflags : SendFlags) : PseudoTcp :=
  let now := env.now s.ticks
  let s := { s with
    ticks := s.ticks + 1
    cwnd := if timeDiff now s.lastsend > s.rxRto.toNat then s.mss else s.cwnd }
  s.attemptSendLoop env now (backlog s.slist + 1) sflags

/-- The CONNECT message `queueConnectMessage` builds. -/
def connectMessage (s : PseudoTcp) : List U8 :=
  ctlConnect :: (if s.supportWndScale then [tcpOptWndScale, 1, s.rwndScale] else [])

def queueConnectMessage (s : PseudoTcp) : PseudoTcp :=
  { s with toOutgoing := s.toOutgoing.greeted s.connectMessage }

end PseudoTcp

end Libjingle
