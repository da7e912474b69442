import Libjingle.Base.FifoBuffer
import Libjingle.Base.TimeUtils
import Libjingle.Lib.BigEndian

/-!
# `PseudoTcp`: data model (`p2p/base/pseudotcp.h`, `pseudotcp.cc`)

Field `m_snd_una` of the source is `sndUna` here, and so on for every member. The members are
grouped: `Incoming` is what the receive path works on, `Outgoing` what the send path works on,
and `PseudoTcp` adds the rest. `uint32`, `uint16` and `uint8` members are bit vectors.

What a call takes from its surroundings is its `Env`: the values `Now()` returns, the results of
`TcpWritePacket`, and indeterminate memory. Clock readings are numbered by `ticks`, so two
readings in one call may differ. Callbacks of `IPseudoTcpNotify` do not call back into the object
(as in `PseudoTcpChannel`, which posts them to another thread); they are entries of `log`.

History variables, which no modelled code reads:
* `written`: every packet handed to `TcpWritePacket`, with the answer, newest first;
* `queued`: every byte `queue` appended to `m_sbuf`, in order;
* `log`, `rfaults`: callbacks, retransmissions and failed assertions, newest first. After a failed
  assertion the model goes on as a release build does, and leaves a `FifoBuffer` alone whose
  bounds the call would break.
-/

namespace Libjingle

open Lib

/-! ## Constants -/

/-- `PACKET_MAXIMUMS`: standard MTUs, ended by 0. -/
def packetMaximums : List U16 :=
  [65535, 32000, 17914, 8166, 4352, 2002, 1492, 1006, 508, 296, 0]

def maxPacket : U32 := 65535
def minPacket : U32 := 296
def headerSize : U32 := 24
/-- `PACKET_OVERHEAD`: the header, `UDP_HEADER_SIZE`, `IP_HEADER_SIZE`, `JINGLE_HEADER_SIZE`. -/
def packetOverhead : U32 := headerSize + 8 + 20 + 64
def defaultRcvBufSize : U32 := 60 * 1024
def defaultSndBufSize : U32 := 90 * 1024
def minRto : U32 := 250
def defRto : U32 := 3000
def maxRto : U32 := 60000
def defAckDelay : U32 := 100
def flagCtl : U8 := 0x02
def flagRst : U8 := 0x04
def ctlConnect : U8 := 0
def tcpOptEol : U8 := 0
def tcpOptNoop : U8 := 1
def tcpOptMss : U8 := 2
def tcpOptWndScale : U8 := 3
def defaultTimeout : Int := 4000
def closedTimeout : Int := 60 * 1000

/-! ## Enumerations -/

inductive TcpState where
  | listen
  | synSent
  | synReceived
  | established
  | closed
  deriving DecidableEq

inductive WriteResult where
  | success
  | tooLarge
  | fail
  deriving DecidableEq

inductive SendFlags where
  | none
  | delayedAck
  | immediateAck
  deriving DecidableEq

inductive Shutdown where
  | none
  | graceful
  | forceful
  deriving DecidableEq

/-- `enum Option`. -/
inductive TcpOption where
  | noDelay
  | ackDelay
  | rcvBuf
  | sndBuf
  deriving DecidableEq

/-- The error codes the object reports. -/
inductive TcpError where
  | einval
  | enotconn
  | ewouldblock
  | econnaborted
  | econnreset
  deriving DecidableEq

/-- The places that assert something, or that dereference an iterator that must not be `end()`. -/
inductive Fault where
  /-- `queue`: `ASSERT(!bCtrl)`, a control message does not fit. -/
  | queueCtrl
  /-- `packet`: `ASSERT(HEADER_SIZE + len <= MAX_PACKET)`. -/
  | packetSize
  /-- `packet`: `ReadOffset` did not return `len` bytes. -/
  | packetRead
  /-- `process`: a negative round-trip time. -/
  | negativeRtt
  /-- `process`: `ConsumeReadData` past the buffered bytes. -/
  | consumeRead
  /-- `process`: the ack-freeing loop finds `m_slist` empty. -/
  | freeEmpty
  /-- `attemptSend`: the search for an unsent segment runs off the list. -/
  | noUnsent
  /-- `transmit` at the end of the list. -/
  | transmitEnd
  /-- `NotifyClock`: the retransmit timer expired with `m_slist` empty. -/
  | timerEmpty
  /-- `process`: `WriteOffset` did not succeed. -/
  | receiveWrite
  /-- `process`: `ConsumeWriteBuffer` past the free space. -/
  | consumeWrite
  /-- `Recv`: `Read` neither succeeded nor blocked. -/
  | recvRead
  /-- `SetOption`: a buffer size set outside `TCP_LISTEN`. -/
  | optionState
  /-- `resizeReceiveBuffer`: the unread data does not fit. -/
  | resizeFull
  deriving DecidableEq

/-- Entries of the history `log`. -/
inductive Event where
  | onTcpOpen
  | onTcpReadable
  | onTcpWriteable
  | onTcpClosed (err : TcpError)
  /-- `transmit(m_slist.begin(), now)` on a front segment with this `xmit`. -/
  | retransmit (xmit : U8)
  | assertFailed (at_ : Fault)
  deriving DecidableEq

/-! ## Segments and packets -/

/-- `struct Segment`: a parsed packet; `data i` is the byte at `seg.data[i]`. -/
structure Segment where
  conv : U32
  seq : U32
  ack : U32
  flags : U8
  wnd : U16
  data : Nat → U8
  len : U32
  tsval : U32
  tsecr : U32

/-- `struct SSegment`: an entry of `m_slist`. -/
structure SSegment where
  seq : U32
  len : U32
  xmit : U8
  bCtrl : Bool
  deriving DecidableEq

/-- `struct RSegment`: an entry of `m_rlist`. -/
structure RSegment where
  seq : U32
  len : U32
  deriving DecidableEq

/-- The packet `PseudoTcp::packet` builds: its header fields and its payload. -/
structure Packet where
  conv : U32
  seq : U32
  ack : U32
  flags : U8
  wnd : U16
  tsval : U32
  tsecr : U32
  payload : List U8
  deriving DecidableEq

/-- The bytes of a packet in the layout of the comment in `pseudotcp.cc`; the control byte 12 is
always 0. -/
def Packet.bytes (p : Packet) : List U8 :=
  toBE 4 p.conv.toNat ++ toBE 4 p.seq.toNat ++ toBE 4 p.ack.toNat ++ [0, p.flags] ++
    toBE 2 p.wnd.toNat ++ toBE 4 p.tsval.toNat ++ toBE 4 p.tsecr.toNat ++ p.payload

/-- A packet handed to `TcpWritePacket` and the answer. -/
structure Written where
  packet : Packet
  result : WriteResult
  deriving DecidableEq

/-! ## The object -/

/-- What the surroundings give a call. -/
structure Env where
  /-- The clock's value at its `i`-th reading. -/
  now : Nat → U32
  /-- `TcpWritePacket`'s answer to the packet built at the `i`-th reading of the clock. -/
  write : Nat → WriteResult
  /-- Indeterminate memory: the rest of the packet array, and what follows a received buffer. -/
  mem : Nat → U8

structure Incoming where
  rlist : List RSegment
  rbufLen : U32
  rcvNxt : U32
  rcvWnd : U32
  rwndScale : U8
  rbuf : FifoBuffer (2 ^ 32)
  rfaults : List Fault

/-- The window field of a header. A shift of 32 or more is undefined in C++ and masked by the
hardware. -/
def Incoming.advertised (i : Incoming) : U16 := (i.rcvWnd >>> (i.rwndScale.toNat % 32)).setWidth 16

/-- Outgoing data and the retransmit timer. -/
structure Outgoing where
  slist : List SSegment
  sndNxt : U32
  sndWnd : U32
  sndUna : U32
  sbuf : FifoBuffer (2 ^ 32)
  rtoBase : U32
  largest : U32
  queued : List U8
  written : List Written
  log : List Event

def Outgoing.note (o : Outgoing) (e : Event) : Outgoing := { o with log := e :: o.log }

/-- `ASSERT(c)` in the send path. -/
def Outgoing.assert (o : Outgoing) (c : Bool) (f : Fault) : Outgoing :=
  { o with log := if c then o.log else .assertFailed f :: o.log }

/-- `ASSERT(c)` in the receive path. -/
def Incoming.assert (i : Incoming) (c : Bool) (f : Fault) : Incoming :=
  { i with rfaults := if c then i.rfaults else f :: i.rfaults }

structure PseudoTcp extends Incoming, Outgoing where
  shutdown : Shutdown
  error : Option TcpError
  state : TcpState
  conv : U32
  bReadEnable : Bool
  bWriteEnable : Bool
  bOutgoing : Bool
  lasttraffic : U32
  lastrecv : U32
  lastsend : U32
  sbufLen : U32
  swndScale : U8
  mss : U32
  msslevel : U32
  mtuAdvise : U32
  tsRecent : U32
  tsLastack : U32
  rxRttvar : U32
  rxSrtt : U32
  rxRto : U32
  ssthresh : U32
  cwnd : U32
  dupAcks : U8
  recover : U32
  tAck : U32
  useNagling : Bool
  ackDelay : U32
  supportWndScale : Bool
  ticks : Nat

namespace PseudoTcp

/-- The constructor; `now` is the clock's value, `rmem` and `smem` what the two fresh buffers
hold. -/
def new (conv now : U32) (rmem smem : Nat → U8) : PseudoTcp where
  rlist := []
  rbufLen := defaultRcvBufSize
  rcvNxt := 0
  rcvWnd := defaultRcvBufSize
  rwndScale := 0
  rbuf := .new rmem defaultRcvBufSize.toNat (by decide)
  rfaults := []
  slist := []
  sndNxt := 0
  sndWnd := 1
  sndUna := 0
  sbuf := .new smem defaultSndBufSize.toNat (by decide)
  rtoBase := 0
  largest := 0
  queued := []
  written := []
  log := []
  shutdown := .none
  error := none
  state := .listen
  conv := conv
  bReadEnable := true
  bWriteEnable := false
  bOutgoing := false
  lasttraffic := now
  lastrecv := now
  lastsend := now
  sbufLen := defaultSndBufSize
  swndScale := 0
  mss := minPacket - packetOverhead
  msslevel := 0
  mtuAdvise := maxPacket
  tsRecent := 0
  tsLastack := 0
  rxRttvar := 0
  rxSrtt := 0
  rxRto := defRto
  ssthresh := defaultRcvBufSize
  cwnd := 2 * (minPacket - packetOverhead)
  dupAcks := 0
  recover := 0
  tAck := 0
  useNagling := true
  ackDelay := defAckDelay
  supportWndScale := true
  ticks := 0

/-- An entry of `log`. -/
def note (s : PseudoTcp) (e : Event) : PseudoTcp := { s with toOutgoing := s.toOutgoing.note e }

/-- `ASSERT(c)`. -/
def assert (s : PseudoTcp) (c : Bool) (f : Fault) : PseudoTcp :=
  { s with toOutgoing := s.toOutgoing.assert c f }

def closedown (s : PseudoTcp) (err : TcpError) : PseudoTcp :=
  { s with state := .closed }.note (.onTcpClosed err)

/-- `adjustMTU`'s loop: the first level of the table, but for its last one, that the advised MTU
reaches. -/
def mssLevelFor (mtu : U32) : List U16 → U32
  | m :: next :: rest =>
    if next = 0 ∨ m.setWidth 32 ≤ mtu then 0 else 1 + mssLevelFor mtu (next :: rest)
  | _ => 0

def adjustMTU (s : PseudoTcp) : PseudoTcp :=
  let mss := s.mtuAdvise - packetOverhead
  { s with
    msslevel := mssLevelFor s.mtuAdvise packetMaximums
    mss := mss
    ssthresh := umax s.ssthresh (2 * mss)
    cwnd := umax s.cwnd mss }

end PseudoTcp

end Libjingle
