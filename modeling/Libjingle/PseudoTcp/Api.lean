import Libjingle.PseudoTcp.Input

/-!
# `PseudoTcp`: the public methods, and runs of calls

`call` is one public call. `Reach ok` are the states a sequence of calls reaches from a fresh
object when every call meets `ok`, a condition on the call, its surroundings and the state before
it. `Always` is the condition that is always met.
-/

namespace Libjingle.PseudoTcp

open Lib

/-- `Connect`: the state and whether it returned 0. -/
def connect (env : Env) (s : PseudoTcp) : PseudoTcp × Bool :=
  if s.state ≠ .listen then ({ s with error := some .einval }, false)
  else (({ s with state := .synSent }.queueConnectMessage).attemptSend env .none, true)

def notifyMTU (s : PseudoTcp) (mtu : U16) : PseudoTcp :=
  let s := { s with mtuAdvise := mtu.setWidth 32 }
  if s.state = .established then s.adjustMTU else s

/-- `NotifyClock`: the retransmit timer. `false` when the connection was closed down. -/
def checkRetransmit (env : Env) (s : PseudoTcp) (now : U32) : PseudoTcp × Bool :=
  if s.rtoBase ≠ 0 ∧ timeDiff (s.rtoBase + s.rxRto) now ≤ 0 then
    if s.slist = [] then (s.note (.assertFailed .timerEmpty), true)
    else
      match s.retransmit env now with
      | (s, false) => (s.closedown .econnaborted, false)
      | (s, true) =>
        let nInFlight := s.sndNxt - s.sndUna
        -- the limit is lower when connecting
        let rtoLimit := match s.state with
          | .listen | .synSent | .synReceived => defRto
          | .established | .closed => maxRto
        ({ s with
          ssthresh := umax (nInFlight / 2) (2 * s.mss)
          cwnd := s.mss
          rxRto := umin rtoLimit (s.rxRto * 2)
          rtoBase := now }, true)
  else (s, true)

/-- `NotifyClock`: the probe of a closed window. `false` when the connection was closed down. -/
def checkProbe (env : Env) (s : PseudoTcp) (now : U32) : PseudoTcp × Bool :=
  if s.sndWnd = 0 ∧ timeDiff (s.lastsend + s.rxRto) now ≤ 0 then
    if timeDiff now s.lastrecv ≥ 15000 then (s.closedown .econnaborted, false)
    else
      let s := (s.packet env (s.sndNxt - 1) 0 0 0).1
      ({ s with lastsend := now, rxRto := umin maxRto (s.rxRto * 2) }, true)
  else (s, true)

/-- `NotifyClock`: the delayed acknowledgement. -/
def checkDelayedAck (env : Env) (s : PseudoTcp) (now : U32) : PseudoTcp :=
  if s.tAck ≠ 0 ∧ timeDiff (s.tAck + s.ackDelay) now ≤ 0 then (s.packet env s.sndNxt 0 0 0).1
  else s

def notifyClock (env : Env) (s : PseudoTcp) (now : U32) : PseudoTcp :=
  if s.state = .closed then s
  else
    match s.checkRetransmit env now with
    | (s, false) => s
    | (s, true) =>
      match s.checkProbe env now with
      | (s, false) => s
      | (s, true) => s.checkDelayedAck env now

def notifyPacket (env : Env) (s : PseudoTcp) (buffer : List U8) : PseudoTcp × Bool :=
  if buffer.length > maxPacket.toNat then (s, false) else s.parse env buffer

/-- `GetNextClock` (`clock_check`): the timeout, or `none` when the object is ready to be
destroyed. -/
def getNextClock (s : PseudoTcp) (now : U32) : Option Int :=
  if s.shutdown = .forceful then none
  else if s.shutdown = .graceful ∧
      (s.state ≠ .established ∨ (s.sbuf.dataLength = 0 ∧ s.tAck = 0)) then none
  else if s.state = .closed then some closedTimeout
  else
    let t := defaultTimeout
    let t := if s.tAck ≠ 0 then min t (timeDiff (s.tAck + s.ackDelay) now) else t
    let t := if s.rtoBase ≠ 0 then min t (timeDiff (s.rtoBase + s.rxRto) now) else t
    some (if s.sndWnd = 0 then min t (timeDiff (s.lastsend + s.rxRto) now) else t)

/-- `SetOption`; `value` is the argument's 32 bits. -/
def setOption (env : Env) (s : PseudoTcp) (opt : TcpOption) (value : U32) : PseudoTcp :=
  match opt with
  | .noDelay => { s with useNagling := value = 0 }
  | .ackDelay => { s with ackDelay := value }
  | .sndBuf => (s.assert (s.state = .listen) .optionState).resizeSendBuffer env value
  | .rcvBuf => (s.assert (s.state = .listen) .optionState).resizeReceiveBuffer env value

/-- `Recv`: enough space is free to open the window. -/
def opens (i : Incoming) (mss : U32) : Bool :=
  BitVec.ofNat 32 i.rbuf.getWriteRemaining - i.rcvWnd ≥ umin (i.rbufLen / 2) mss

/-- `Recv`: open the window then. -/
def reopen (i : Incoming) (mss : U32) : Incoming :=
  if opens i mss then { i with rcvWnd := BitVec.ofNat 32 i.rbuf.getWriteRemaining } else i

/-- `Recv`: the bytes returned, or `none` for `SOCKET_ERROR`. -/
def recv (env : Env) (s : PseudoTcp) (len : Nat) : PseudoTcp × Option (List U8) :=
  if s.state ≠ .established then ({ s with error := some .enotconn }, none)
  else
    match s.rbuf.read len with
    -- If there's no data in |m_rbuf|.
    | (.block, _, _) => ({ s with bReadEnable := true, error := some .ewouldblock }, none)
    | (result, out, rbuf) =>
      let i := { s.toIncoming with rbuf := rbuf }
      let s' := { s.assert (result = .success) .recvRead with toIncoming := reopen i s.mss }
      let bWasClosed := decide (i.rcvWnd = 0)
      (if opens i s.mss && bWasClosed then s'.attemptSend env .immediateAck else s', some out)

/-- `Send` of `len` bytes behind `buffer`: the number of bytes accepted, or `none` for
`SOCKET_ERROR`. -/
def send (env : Env) (s : PseudoTcp) (buffer : Nat → U8) (len : Nat) : PseudoTcp × Option Nat :=
  if s.state ≠ .established then ({ s with error := some .enotconn }, none)
  else if s.sbuf.getWriteRemaining = 0 then
    ({ s with bWriteEnable := true, error := some .ewouldblock }, none)
  else
    let q := s.queue buffer (BitVec.ofNat 32 len) false
    (q.1.attemptSend env .none, some q.2)

def close (s : PseudoTcp) (force : Bool) : PseudoTcp :=
  { s with shutdown := if force then .forceful else .graceful }

/-! ## Runs -/

/-- A public call with its arguments. -/
inductive Call where
  | connect
  | send (buffer : Nat → U8) (len : Nat)
  | recv (len : Nat)
  | close (force : Bool)
  | notifyMTU (mtu : U16)
  | notifyClock (now : U32)
  | notifyPacket (buffer : List U8)
  | setOption (opt : TcpOption) (value : U32)

def call (env : Env) (s : PseudoTcp) : Call → PseudoTcp
  | .connect => (s.connect env).1
  | .send buffer len => (s.send env buffer len).1
  | .recv len => (s.recv env len).1
  | .close force => s.close force
  | .notifyMTU mtu => s.notifyMTU mtu
  | .notifyClock now => s.notifyClock env now
  | .notifyPacket buffer => (s.notifyPacket env buffer).1
  | .setOption opt value => s.setOption env opt value

/-- The states a sequence of calls reaches from a fresh object, each call meeting `ok`. -/
inductive Reach (ok : Env → PseudoTcp → Call → Prop) : PseudoTcp → Prop
  | fresh (conv now : U32) (rmem smem : Nat → U8) : Reach ok (new conv now rmem smem)
  | call {s : PseudoTcp} (env : Env) (c : Call) (hr : Reach ok s) (hok : ok env s c) :
      Reach ok (s.call env c)

def Always : Env → PseudoTcp → Call → Prop := fun _ _ _ => True

/-- **The induction rule for runs**: what a fresh object has and every call keeps holds in every
state reached. -/
theorem Reach.induct {ok : Env → PseudoTcp → Call → Prop} {P : PseudoTcp → Prop}
    (h0 : ∀ conv now rmem smem, P (new conv now rmem smem))
    (hs : ∀ env s c, P s → ok env s c → P (s.call env c)) {s : PseudoTcp} (hr : Reach ok s) :
    P s := by
  induction hr with
  | fresh conv now rmem smem => exact h0 conv now rmem smem
  | call env c _ hok ih => exact hs env _ c ih hok

/-! ## A connection to look at -/

/-- Surroundings in which the clock stands still, every packet is sent, and memory is 0. -/
def still (now : U32) : Env := ⟨fun _ => now, fun _ => .success, fun _ => 0⟩

/-- An object that called `Connect`, with the four bytes of its CONNECT message in flight. -/
def connecting : PseudoTcp := (new 1 1 (fun _ => 0) (fun _ => 0)).call (still 1) .connect

/-- The bytes of a packet of the peer's in conversation 1. -/
def peerPacket (seq ack : U32) (flags : U8) (data : List U8) : List U8 :=
  (⟨1, seq, ack, flags, 60000, 1, 0, data⟩ : Packet).bytes

/-- The peer's CONNECT message has come. -/
def established : PseudoTcp :=
  connecting.call (still 1) (.notifyPacket (peerPacket 0 4 flagCtl [ctlConnect, 3, 1, 0]))

/-- The peer has acknowledged a byte. -/
def acked : PseudoTcp :=
  (established.call (still 1) (.send (fun _ => 7) 1)).call (still 2)
    (.notifyPacket (peerPacket 4 5 0 []))

end Libjingle.PseudoTcp
