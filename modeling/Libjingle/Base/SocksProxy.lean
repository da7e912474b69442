import Libjingle.Base.SocketAddress
import Libjingle.Lib.History

/-!
# `AsyncSocksProxySocket` (`base/socketadapters.h`, `base/socketadapters.cc`)

The client of a SOCKS5 proxy. While it negotiates, what the proxy sends is gathered in a buffer
(`BufferedReadAdapter`), and each read event lets `ProcessInput` take one reply off its front.
What is left when the tunnel is open belongs to the user, whose `Recv` takes it before it reads
the socket.

* `buffer_` is the list of the first `data_len_` bytes of the buffer.
* The socket below is what it has received and not handed over (`unread`) and the answer to the
  next read: an error (`none`), or a number of bytes, of which no more are read than are asked for
  or there.
* Logging is left out, and so is the count that a call returns beside the bytes.

## Results

* **`tunnelled_iff`**: in a run of read events and calls of `Recv`, no tunnelled byte is lost or
  repeated exactly if no call empties the buffer and is then refused by the socket.
-/

namespace Libjingle.Base

open Lib ByteBuffer

/-- `AsyncSocksProxySocket::State`. -/
inductive SocksState
  | init
  | hello
  | auth
  | connect
  | tunnel
  | error
deriving DecidableEq

/-- What the socket tells its user. -/
inductive SocketSignal
  | connectEvent
  | readEvent
  | closeEvent (error : Int)
deriving DecidableEq

structure AsyncSocksProxySocket where
  state_ : SocksState
  user_ : List U8
  pass_ : List U8
  dest_ : SocketAddress
  buffer_ : List U8
  buffering_ : Bool
  /-- What `DirectSend` was given. -/
  sent : List (List U8)
  signals : List SocketSignal
deriving DecidableEq

def bufferSize : Nat := 1024

def socketEacces : Int := 13

namespace AsyncSocksProxySocket

/-! ## Requests -/

def directSend (s : AsyncSocksProxySocket) (data : List U8) : AsyncSocksProxySocket :=
  { s with sent := s.sent ++ [data] }

def sendHello (s : AsyncSocksProxySocket) : AsyncSocksProxySocket :=
  { s.directSend (writeUInt8 5 ++
      if s.user_ = [] then writeUInt8 1 ++ writeUInt8 0
      else writeUInt8 2 ++ writeUInt8 0 ++ writeUInt8 2) with
    state_ := .hello }

/-- `SendAuth`. The password is copied as a C string. -/
def sendAuth (s : AsyncSocksProxySocket) : AsyncSocksProxySocket :=
  { s.directSend (writeUInt8 1 ++ writeUInt8 (BitVec.ofNat 8 s.user_.length) ++ s.user_ ++
      writeUInt8 (BitVec.ofNat 8 s.pass_.length) ++ s.pass_.takeWhile (· ≠ 0)) with
    state_ := .auth }

def bytesOf (s : Text) : List U8 := s.map fun c => BitVec.ofNat 8 c.toNat

/-- `SocketAddress::ip`: the IPv4 address, or 0. -/
def ipv4Of : IPAddress → U32
  | .ipv4 a => a
  | _ => 0

def sendConnect (s : AsyncSocksProxySocket) : AsyncSocksProxySocket :=
  let address :=
    if s.dest_.isUnresolvedIP then
      writeUInt8 3 ++ writeUInt8 (BitVec.ofNat 8 s.dest_.hostname_.length) ++
        bytesOf s.dest_.hostname_
    else writeUInt8 1 ++ writeUInt32 (ipv4Of s.dest_.ip_)
  { s.directSend (writeUInt8 5 ++ writeUInt8 1 ++ writeUInt8 0 ++ address ++
      writeUInt16 s.dest_.port_) with
    state_ := .connect }

/-- `Error`, with the `Close` in it. -/
def error (s : AsyncSocksProxySocket) (e : Int) : AsyncSocksProxySocket :=
  { s with
    state_ := .error
    dest_ := .clear
    buffering_ := false
    signals := s.signals ++ [.closeEvent e] }

/-! ## Replies -/

/-- What `ProcessInput` makes of a reply. -/
inductive Verdict
  | fail (error : Int)
  | auth
  | connect
  | tunnel
  | stay
deriving DecidableEq

/-- The address that the proxy is bound on, and its port. -/
def readBound (atyp : U8) : Reader U8 Verdict :=
  if atyp = 1 then do
    let _ ← readUInt32
    let _ ← readUInt16
    return .tunnel
  else if atyp = 3 then do
    let len ← readUInt8
    let _ ← readBytes len.toNat
    let _ ← readUInt16
    return .tunnel
  else if atyp = 4 then do
    let _ ← readBytes 16
    let _ ← readUInt16
    return .tunnel
  else return .fail 0

/-- The reading in `ProcessInput`; it fails where the reply has not arrived as a whole. -/
def readReply : SocksState → Reader U8 Verdict
  | .hello => do
    let ver ← readUInt8
    let method ← readUInt8
    return if ver ≠ 5 then .fail 0 else if method = 0 then .connect else if method = 2 then .auth
      else .fail 0
  | .auth => do
    let ver ← readUInt8
    let status ← readUInt8
    return if ver ≠ 1 ∨ status ≠ 0 then .fail socketEacces else .connect
  | .connect => do
    let ver ← readUInt8
    let rep ← readUInt8
    let _rsv ← readUInt8
    let atyp ← readUInt8
    if ver ≠ 5 ∨ rep ≠ 0 then return .fail 0 else readBound atyp
  | _ => return .stay

/-- The end of `ProcessInput`: the reply is consumed, and the tunnel may be open. -/
def finish (s : AsyncSocksProxySocket) (rest : List U8) : AsyncSocksProxySocket :=
  if s.state_ ≠ .tunnel then { s with buffer_ := rest }
  else
    { s with
      buffer_ := rest
      buffering_ := false
      signals := s.signals ++ .connectEvent :: if rest ≠ [] then [.readEvent] else [] }

def processInput (s : AsyncSocksProxySocket) : AsyncSocksProxySocket :=
  match readReply s.state_ s.buffer_ with
  | none => s
  | some (.fail e, _) => s.error e
  | some (.auth, rest) => s.sendAuth.finish rest
  | some (.connect, rest) => s.sendConnect.finish rest
  | some (.tunnel, rest) => { s with state_ := .tunnel }.finish rest
  | some (.stay, rest) => s.finish rest

/-! ## Reads -/

/-- `Recv` of the socket below, of at most `size` bytes: the bytes, unless it fails, and what is
left there. -/
def socketRecv (unread : List U8) (size : Nat) (answer : Option Nat) :
    Option (List U8) × List U8 :=
  match answer with
  | none => (none, unread)
  | some n => (some (unread.take (min n size)), unread.drop (min n size))

/-- `OnReadEvent`: the socket after it and what is left below. -/
def onReadEvent (s : AsyncSocksProxySocket) (unread : List U8) (answer : Option Nat) :
    AsyncSocksProxySocket × List U8 :=
  if !s.buffering_ then ({ s with signals := s.signals ++ [.readEvent] }, unread)
  else
    let s := if s.buffer_.length ≥ bufferSize then { s with buffer_ := [] } else s
    match socketRecv unread (bufferSize - s.buffer_.length) answer with
    | (none, unread) => (s, unread)
    | (some data, unread) => ({ s with buffer_ := s.buffer_ ++ data }.processInput, unread)

/-- `Recv` of the adapter, of at most `cb` bytes: the bytes, unless it fails. -/
def recv (s : AsyncSocksProxySocket) (unread : List U8) (cb : Nat) (answer : Option Nat) :
    Option (List U8) × AsyncSocksProxySocket × List U8 :=
  if s.buffering_ then (none, s, unread)
  else
    let read := min cb s.buffer_.length
    let s' := { s with buffer_ := s.buffer_.drop read }
    match socketRecv unread (cb - read) answer with
    | (none, unread) => (none, s', unread)
    | (some data, unread) => (some (s.buffer_.take read ++ data), s', unread)

def create (user pass : List U8) : AsyncSocksProxySocket :=
  ⟨.error, user, pass, .clear, [], false, [], []⟩

def connect (s : AsyncSocksProxySocket) (addr : SocketAddress) : AsyncSocksProxySocket :=
  { s with dest_ := addr, state_ := .init, buffering_ := true }

def onConnectEvent (s : AsyncSocksProxySocket) : AsyncSocksProxySocket := s.sendHello

/-! ## What the proxy sends -/

/-- The address and the port in the last reply. -/
inductive IsBound : List U8 → Prop
  | ipv4 {addr port : List U8} (haddr : addr.length = 4) (hport : port.length = 2) :
      IsBound (1 :: (addr ++ port))
  | name {len : U8} {addr port : List U8} (haddr : addr.length = len.toNat)
      (hport : port.length = 2) : IsBound (3 :: len :: (addr ++ port))
  | ipv6 {addr port : List U8} (haddr : addr.length = 16) (hport : port.length = 2) :
      IsBound (4 :: (addr ++ port))

/-- **What a proxy sends that accepts everything**: its replies from a state on, and the tunnelled
bytes. -/
inductive Awaits (tail : List U8) : SocksState → List U8 → Prop
  | helloNone {rest} (h : Awaits tail .connect rest) : Awaits tail .hello (5 :: 0 :: rest)
  | helloAuth {rest} (h : Awaits tail .auth rest) : Awaits tail .hello (5 :: 2 :: rest)
  | auth {rest} (h : Awaits tail .connect rest) : Awaits tail .auth (1 :: 0 :: rest)
  | connect (rsv : U8) {bound : List U8} (h : IsBound bound) :
      Awaits tail .connect (5 :: 0 :: rsv :: (bound ++ tail))

def maxReply : Nat := 262

theorem readUInt8_takes (x : U8) : readUInt8.Consumes [x] x := by
  have h := readUInt8_consumes x
  have hbytes : writeUInt8 x = [x] := by
    rw [writeUInt8, toBE, toBE, List.nil_append, BitVec.ofNat_toNat, BitVec.setWidth_eq]
  rwa [hbytes] at h

theorem readNumber_takes {w n : Nat} {bytes : List U8} (h : bytes.length = n) :
    (readNumber w n).Consumes bytes (BitVec.ofNat w (ofBE bytes)) := by
  have hread := (Reader.take_consumes h).return (g := fun b => BitVec.ofNat w (ofBE b))
  exact hread

theorem readNumber_local (w n : Nat) (l : List U8) : (readNumber w n).Local l :=
  (Reader.Local.take n l).return

theorem readBound_local (atyp : U8) (l : List U8) : (readBound atyp).Local l := by
  unfold readBound
  split
  · exact (readNumber_local 32 4 l).bind fun _ t _ => (readNumber_local 16 2 t).return
  split
  · exact (readNumber_local 8 1 l).bind fun len t _ =>
      (Reader.Local.take len.toNat t).bind fun _ t' _ => (readNumber_local 16 2 t').return
  split
  · exact (Reader.Local.take 16 l).bind fun _ t _ => (readNumber_local 16 2 t).return
  · exact .pure _ l

theorem readReply_local (state : SocksState) (l : List U8) : (readReply state).Local l := by
  cases state with
  | hello => exact (readNumber_local 8 1 l).bind fun _ t _ => (readNumber_local 8 1 t).return
  | auth => exact (readNumber_local 8 1 l).bind fun _ t _ => (readNumber_local 8 1 t).return
  | connect =>
    refine (readNumber_local 8 1 l).bind fun ver t₁ _ =>
      (readNumber_local 8 1 t₁).bind fun rep t₂ _ =>
      (readNumber_local 8 1 t₂).bind fun _ t₃ _ =>
      (readNumber_local 8 1 t₃).bind fun atyp t₄ _ => ?_
    by_cases hrefused : ver ≠ 5 ∨ rep ≠ 0
    · rw [if_pos hrefused]
      exact .pure _ t₄
    · rw [if_neg hrefused]
      exact readBound_local atyp t₄
  | init => exact .pure _ l
  | tunnel => exact .pure _ l
  | error => exact .pure _ l

theorem readBound_consumes {bound : List U8} (h : IsBound bound) :
    ∃ atyp rest, bound = atyp :: rest ∧ (readBound atyp).Consumes rest .tunnel ∧
      rest.length ≤ 258 := by
  cases h with
  | @ipv4 addr port haddr hport =>
    refine ⟨1, addr ++ port, rfl, ?_, by rw [List.length_append]; omega⟩
    exact (readNumber_takes haddr).bind (readNumber_takes hport).return
  | @name len addr port haddr hport =>
    have hlen := len.isLt
    refine ⟨3, len :: (addr ++ port), rfl, ?_, by
      rw [List.length_cons, List.length_append]
      omega⟩
    exact (readUInt8_takes len).bind
      ((Reader.take_consumes haddr).bind (readNumber_takes hport).return)
  | @ipv6 addr port haddr hport =>
    refine ⟨4, addr ++ port, rfl, ?_, by rw [List.length_append]; omega⟩
    exact (Reader.take_consumes haddr).bind (readNumber_takes hport).return

def Leads (tail : List U8) (rest : List U8) : Verdict → Prop
  | .auth => Awaits tail .auth rest
  | .connect => Awaits tail .connect rest
  | .tunnel => rest = tail
  | _ => False

/-- **The next reply is read as it should be.** -/
theorem Awaits.reply {tail bytes : List U8} {state : SocksState} (h : Awaits tail state bytes) :
    ∃ reply rest verdict, bytes = reply ++ rest ∧ (readReply state).Consumes reply verdict ∧
      2 ≤ reply.length ∧ reply.length ≤ maxReply ∧ Leads tail rest verdict := by
  cases h with
  | @helloNone rest h =>
    exact ⟨[5, 0], rest, .connect, rfl, (readUInt8_takes 5).bind (readUInt8_takes 0).return, le_rfl,
      by decide, h⟩
  | @helloAuth rest h =>
    exact ⟨[5, 2], rest, .auth, rfl, (readUInt8_takes 5).bind (readUInt8_takes 2).return, le_rfl,
      by decide, h⟩
  | @auth rest h =>
    exact ⟨[1, 0], rest, .connect, rfl, (readUInt8_takes 1).bind (readUInt8_takes 0).return, le_rfl,
      by decide, h⟩
  | connect rsv h =>
    obtain ⟨atyp, rest, rfl, hbound, hlen⟩ := readBound_consumes h
    refine ⟨5 :: 0 :: rsv :: atyp :: rest, tail, .tunnel, rfl, ?_, by simp, ?_, rfl⟩
    · exact (readUInt8_takes 5).bind ((readUInt8_takes 0).bind
        ((readUInt8_takes rsv).bind ((readUInt8_takes atyp).bind hbound)))
    · simp only [List.length_cons, maxReply]
      omega

/-- The negotiation goes on, with what has arrived and what has not. -/
structure Negotiates (tail : List U8) (s : AsyncSocksProxySocket) (unread : List U8) : Prop where
  buffering : s.buffering_ = true
  awaits : Awaits tail s.state_ (s.buffer_ ++ unread)
  /-- The buffer has room for more. -/
  room : s.buffer_.length + 2 ≤ bufferSize
  silent : .connectEvent ∉ s.signals

/-- The tunnel is open, and what is left of the tunnelled bytes is in the buffer or has not been
read. -/
structure Tunnels (rest : List U8) (s : AsyncSocksProxySocket) (unread : List U8) : Prop where
  buffering : s.buffering_ = false
  bytes : s.buffer_ ++ unread = rest
  signalled : .connectEvent ∈ s.signals

/-- **An event takes one reply off the buffer**, or leaves a buffer with room. -/
theorem processInput_spec {tail unread : List U8} {s : AsyncSocksProxySocket}
    (hbuffering : s.buffering_ = true) (hawaits : Awaits tail s.state_ (s.buffer_ ++ unread))
    (hlen : s.buffer_.length ≤ bufferSize) (hsilent : .connectEvent ∉ s.signals) :
    Negotiates tail s.processInput unread ∨ Tunnels tail s.processInput unread := by
  obtain ⟨reply, rest, verdict, hbytes, hreads, hmin, hmax, hleads⟩ := hawaits.reply
  have hread := hreads.of_append (readReply_local s.state_ s.buffer_) hbytes
  unfold processInput
  rw [hread]
  by_cases harrived : reply.length ≤ s.buffer_.length
  · have hrest : s.buffer_.drop reply.length ++ unread = rest := by
      rw [← List.drop_append_of_le_length harrived, hbytes, List.drop_left]
    have hroom : (s.buffer_.drop reply.length).length + 2 ≤ bufferSize := by
      rw [List.length_drop]
      omega
    rw [if_pos harrived]
    cases verdict with
    | auth => exact .inl ⟨hbuffering, hrest.symm ▸ hleads, hroom, hsilent⟩
    | connect => exact .inl ⟨hbuffering, hrest.symm ▸ hleads, hroom, hsilent⟩
    | tunnel =>
      exact .inr ⟨rfl, hrest.trans hleads, List.mem_append_right _ List.mem_cons_self⟩
    | fail e => exact hleads.elim
    | stay => exact hleads.elim
  · rw [if_neg harrived]
    refine .inl ⟨hbuffering, hawaits, ?_, hsilent⟩
    simp only [maxReply, bufferSize] at hmax ⊢
    omega

end AsyncSocksProxySocket

open AsyncSocksProxySocket

/-! ## Runs -/

/-- A socket with what is below it, and what its user has been given. -/
structure Tunnel where
  sock : AsyncSocksProxySocket
  unread : List U8
  delivered : List U8
deriving DecidableEq

/-- A read event, or a call of `Recv`, with the answer of the socket below. -/
inductive TunnelEvent
  | readable (answer : Option Nat)
  | recv (cb : Nat) (answer : Option Nat)

namespace Tunnel

def step (t : Tunnel) : TunnelEvent → Tunnel
  | .readable answer =>
    let r := t.sock.onReadEvent t.unread answer
    { t with sock := r.1, unread := r.2 }
  | .recv cb answer =>
    let r := t.sock.recv t.unread cb answer
    ⟨r.2.1, r.2.2, t.delivered ++ r.1.getD []⟩

/-- The socket has connected to the proxy, which is going to send the stream. -/
def start (user pass : List U8) (dest : SocketAddress) (stream : List U8) : Tunnel :=
  ⟨((create user pass).connect dest).onConnectEvent, stream, []⟩

/-- **No tunnelled byte is lost or repeated**: from the connect signal on, what the user has been
given goes on with what the socket still has for it. -/
def Intact (tail : List U8) (t : Tunnel) : Prop :=
  if .connectEvent ∈ t.sock.signals then t.delivered ++ (t.sock.buffer_ ++ t.unread) = tail
  else t.delivered = []

/-- **No call of `Recv` takes bytes from the buffer and is then refused** by the socket below. -/
def Unrefused (t : Tunnel) : TunnelEvent → Prop
  | .recv cb none => t.sock.buffering_ = true ∨ cb = 0 ∨ t.sock.buffer_ = []
  | _ => True

/-- What holds in a run: the negotiation goes on, or the tunnel is open. -/
def Holds (tail : List U8) (t : Tunnel) : Prop :=
  (Negotiates tail t.sock t.unread ∧ t.delivered = []) ∨
    ∃ rest, Tunnels rest t.sock t.unread ∧ t.delivered ++ rest = tail

variable {t : Tunnel}

variable {tail : List U8}

theorem Holds.intact (h : Holds tail t) : Intact tail t := by
  rcases h with ⟨hneg, hdelivered⟩ | ⟨rest, htunnel, hdelivered⟩
  · rw [Intact, if_neg hneg.silent]
    exact hdelivered
  · rw [Intact, if_pos htunnel.signalled, htunnel.bytes]
    exact hdelivered

theorem socketRecv_some (unread : List U8) (size n : Nat) :
    ∃ k ≤ size, socketRecv unread size (some n) = (some (unread.take k), unread.drop k) :=
  ⟨min n size, Nat.min_le_right _ _, rfl⟩

theorem holds_step_of_negotiates (h : Negotiates tail t.sock t.unread)
    (hdelivered : t.delivered = []) (e : TunnelEvent) : Holds tail (t.step e) := by
  cases e with
  | recv cb answer =>
    refine .inl ?_
    simp only [step, recv, if_pos h.buffering, Option.getD_none, List.append_nil]
    exact ⟨h, hdelivered⟩
  | readable answer =>
    have hroom := h.room
    have hgather : ¬ (!t.sock.buffering_) = true := by simp [h.buffering]
    have hfits : ¬ t.sock.buffer_.length ≥ bufferSize := by omega
    simp only [step, onReadEvent, if_neg hgather, if_neg hfits]
    cases answer with
    | none => exact .inl ⟨h, hdelivered⟩
    | some n =>
      obtain ⟨k, hk, hrecv⟩ := socketRecv_some t.unread (bufferSize - t.sock.buffer_.length) n
      rw [hrecv]
      have hspec := @processInput_spec tail (t.unread.drop k)
        { t.sock with buffer_ := t.sock.buffer_ ++ t.unread.take k } h.buffering
        (by simpa using h.awaits)
        (by simp only [List.length_append, List.length_take]; omega) h.silent
      rcases hspec with hneg | htunnel
      · exact .inl ⟨hneg, hdelivered⟩
      · exact .inr ⟨tail, htunnel, by rw [hdelivered, List.nil_append]⟩

variable {rest : List U8} {e : TunnelEvent}

theorem holds_step_of_tunnels (h : Tunnels rest t.sock t.unread)
    (hdelivered : t.delivered ++ rest = tail) (hclean : Unrefused t e) :
    Holds tail (t.step e) := by
  have hopen : ¬ t.sock.buffering_ = true := by simp [h.buffering]
  cases e with
  | readable answer =>
    have hforward : (!t.sock.buffering_) = true := by rw [h.buffering, Bool.not_false]
    simp only [step, onReadEvent, if_pos hforward]
    exact .inr ⟨rest, ⟨h.buffering, h.bytes, List.mem_append_left _ h.signalled⟩, hdelivered⟩
  | recv cb answer =>
    simp only [step, recv, if_neg hopen]
    cases answer with
    | none =>
      have hnothing : min cb t.sock.buffer_.length = 0 := by
        rcases hclean with h' | h' | h'
        · exact absurd h' hopen
        · rw [h', Nat.zero_min]
        · rw [h', List.length_nil, Nat.min_zero]
      simp only [socketRecv, hnothing, List.drop_zero, Option.getD_none, List.append_nil]
      exact .inr ⟨rest, ⟨h.buffering, h.bytes, h.signalled⟩, hdelivered⟩
    | some n =>
      obtain ⟨k, hk, hrecv⟩ := socketRecv_some t.unread (cb - min cb t.sock.buffer_.length) n
      rw [hrecv]
      refine .inr ⟨_, ⟨h.buffering, rfl, h.signalled⟩, ?_⟩
      rw [← hdelivered, ← h.bytes]
      simp only [Option.getD_some, List.append_assoc, List.append_cancel_left_eq]
      rcases Nat.le_total cb t.sock.buffer_.length with hle | hle
      · -- The buffer has it all, and nothing is asked of the socket below.
        obtain rfl : k = 0 := by omega
        rw [Nat.min_eq_left hle, List.take_zero, List.drop_zero, List.nil_append,
          ← List.append_assoc, List.take_append_drop]
      · rw [Nat.min_eq_right hle, List.take_length, List.drop_length, List.nil_append,
          List.take_append_drop]

theorem not_intact_of_refused (h : Tunnels rest t.sock t.unread)
    (hdelivered : t.delivered ++ rest = tail) (hrefused : ¬ Unrefused t e) :
    ¬ Intact tail (t.step e) := by
  cases e with
  | readable answer => exact absurd trivial hrefused
  | recv cb answer =>
    cases answer with
    | some n => exact absurd trivial hrefused
    | none =>
      simp only [Unrefused, not_or] at hrefused
      obtain ⟨hopen, hcb, hbuffer⟩ := hrefused
      have hpos := List.length_pos_of_ne_nil hbuffer
      intro hintact
      simp only [Intact, step, recv, if_neg hopen, socketRecv, if_pos h.signalled, Option.getD_none,
        List.append_nil] at hintact
      rw [← hdelivered, ← h.bytes, List.append_cancel_left_eq,
        List.append_cancel_right_eq] at hintact
      have hlen := congrArg List.length hintact
      rw [List.length_drop] at hlen
      omega

/-- **No tunnelled byte is lost or repeated** in a run exactly if no call of `Recv` takes bytes from
the buffer and is then refused by the socket below. -/
theorem tunnelled_iff {tail stream : List U8} (h : Awaits tail .hello stream) (user pass : List U8)
    (dest : SocketAddress) (events : List TunnelEvent) :
    Along step (fun t e => Intact tail (t.step e)) (start user pass dest stream) events ↔
      Along step Unrefused (start user pass dest stream) events := by
  have hstart : Holds tail (start user pass dest stream) :=
    .inl ⟨⟨rfl, h, show 0 + 2 ≤ bufferSize by decide, List.not_mem_nil⟩, rfl⟩
  refine along_iff (R := fun t t' => t = t' ∧ Holds tail t) ⟨rfl, hstart⟩ ?_
  rintro t _ e - ⟨rfl, hholds⟩
  have hstep : Unrefused t e → Holds tail (t.step e) := by
    intro hclean
    rcases hholds with ⟨hneg, hdelivered⟩ | ⟨rest, htunnel, hdelivered⟩
    · exact holds_step_of_negotiates hneg hdelivered e
    · exact holds_step_of_tunnels htunnel hdelivered hclean
  have hback : Intact tail (t.step e) → Unrefused t e := by
    intro hintact
    by_contra hrefused
    rcases hholds with ⟨hneg, -⟩ | ⟨rest, htunnel, hdelivered⟩
    · refine hrefused ?_
      cases e with
      | readable answer => trivial
      | recv cb answer =>
        cases answer with
        | none => exact .inl hneg.buffering
        | some n => trivial
    · exact not_intact_of_refused htunnel hdelivered hrefused hintact
  exact ⟨⟨hback, fun hclean => (hstep hclean).intact⟩, fun hintact => ⟨rfl, hstep (hback hintact)⟩⟩

/-- A proxy that asks for nothing and is bound on 10.0.0.1:8080, and three bytes from behind it. -/
def accepted : List U8 := [5, 0] ++ [5, 0, 0, 1, 10, 0, 0, 1, 31, 144] ++ [104, 105, 33]

theorem awaits_accepted : Awaits [104, 105, 33] .hello accepted :=
  .helloNone (.connect 0 (@IsBound.ipv4 [10, 0, 0, 1] [31, 144] rfl rfl))

theorem tunnelled_accepted :
    Along step (fun t e => Intact [104, 105, 33] (t.step e))
      (start [] [] (.ofIP (.ipv4 0x08080808) 80) accepted)
      [.readable (some 2), .readable (some 12), .recv 10 (some 10)] := by
  exact (tunnelled_iff awaits_accepted [] [] _ _).mpr ⟨trivial, trivial, trivial, trivial⟩

/-- **The bytes that come with the last reply are lost if no others do**: the user is told to read,
and the call is refused since the socket below is empty. -/
theorem buffered_bytes_lost :
    Awaits [104, 105, 33] .hello accepted ∧
      (∃ t, t = [.readable (some 2), .readable (some 13), .recv 10 none].foldl step
          (start [] [] (.ofIP (.ipv4 0x08080808) 80) accepted) ∧
        t.sock.signals = [.connectEvent, .readEvent] ∧ t.delivered = [] ∧ t.sock.buffer_ = [] ∧
          t.unread = []) ∧
      ¬ Along step (fun t e => Intact [104, 105, 33] (t.step e))
        (start [] [] (.ofIP (.ipv4 0x08080808) 80) accepted)
        [.readable (some 2), .readable (some 13), .recv 10 none] := by
  refine ⟨awaits_accepted, ⟨_, rfl, by decide +kernel⟩, fun h => ?_⟩
  obtain ⟨-, -, hlost, -⟩ := h
  revert hlost
  unfold Intact
  decide +kernel

end Tunnel

end Libjingle.Base
