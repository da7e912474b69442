import Libjingle.PseudoTcp.Delivery

/-!
# Two endpoints and a network

Two `PseudoTcp` objects of one conversation exchange packets over a network that may lose,
duplicate, delay and reorder them: a packet that one side wrote successfully may be delivered to
the other at any later moment, any number of times or never.

* `Linked x y` joins the two halves of a connection in both directions, what `x` has in flight
  (`Underway`) and what `y` holds of it (`Inbound`).
* `delivers_in_order`: in every run in which no data is delivered before the CONNECT message of
  its sender (`InOrder`), the bytes returned by `Recv` on one side are at every moment a prefix of
  the bytes accepted by `Send` on the other.
-/

namespace Libjingle.PseudoTcp

open Lib

/-! ## Runs -/

/-- An endpoint, with the bytes `Send` accepted and the bytes `Recv` returned so far. -/
structure Host where
  tcp : PseudoTcp
  accepted : List U8
  received : List U8

inductive Action where
  | connect
  | send (buffer : Nat → U8) (len : Nat)
  | recv (len : Nat)
  | notifyMTU (mtu : U16)
  | notifyClock (now : U32)
  | deliver (p : Packet)

def Host.fresh (conv now : U32) (rmem smem : Nat → U8) : Host := ⟨new conv now rmem smem, [], []⟩

def Host.act (env : Env) (x : Host) : Action → Host
  | .connect => { x with tcp := (x.tcp.connect env).1 }
  | .send buffer len =>
    { x with
      tcp := (x.tcp.send env buffer len).1
      accepted := x.accepted ++ fetch buffer ((x.tcp.send env buffer len).2.getD 0) }
  | .recv len =>
    { x with
      tcp := (x.tcp.recv env len).1
      received := x.received ++ (x.tcp.recv env len).2.getD [] }
  | .notifyMTU mtu => { x with tcp := x.tcp.notifyMTU mtu }
  | .notifyClock now => { x with tcp := x.tcp.notifyClock env now }
  | .deliver p => { x with tcp := (x.tcp.notifyPacket env p.bytes).1 }

/-- The network only delivers packets the peer wrote successfully; `ok` is a condition on what it
delivers. -/
def Allowed (ok : PseudoTcp → Packet → Prop) (peer x : Host) : Action → Prop
  | .notifyMTU mtu => 296 ≤ mtu.toNat
  | .deliver p => ⟨p, .success⟩ ∈ peer.tcp.written ∧ ok x.tcp p
  | _ => True

/-- The pairs of endpoints a run reaches. -/
inductive Network (ok : PseudoTcp → Packet → Prop) : Host → Host → Prop
  | start (conv now now' : U32) (rmem smem rmem' smem' : Nat → U8) :
      Network ok (.fresh conv now rmem smem) (.fresh conv now' rmem' smem')
  | left {x y : Host} (env : Env) (a : Action) (h : Network ok x y) (ha : Allowed ok y x a) :
      Network ok (x.act env a) y
  | right {x y : Host} (env : Env) (a : Action) (h : Network ok x y) (ha : Allowed ok x y a) :
      Network ok x (y.act env a)

/-- A segment with data does not come before the CONNECT message of its sender, which takes the
first four sequence numbers. -/
def InOrder (s : PseudoTcp) (p : Packet) : Prop :=
  p.flags &&& flagCtl = 0 → p.payload ≠ [] → 4 ≤ s.rcvNxt.toNat

/-! ## The stream of an endpoint -/

/-- The CONNECT message of an endpoint with default options. -/
def greeting : List U8 := [ctlConnect, tcpOptWndScale, 1, 0]

/-- The stream is empty before the CONNECT message, and is the message and the accepted bytes from
then on. -/
def Source (s : PseudoTcp) (accepted : List U8) : Prop :=
  s.queued = [] ∧ accepted = [] ∧ (s.state = .listen ∨ s.state = .closed) ∨
    s.queued = greeting ++ accepted

variable {env : Env} {s s' : PseudoTcp} {accepted : List U8} {x z y : Host}

theorem Source.length_le (h : Source s accepted) : s.queued.length ≤ 4 + accepted.length := by
  rcases h with ⟨hq, -⟩ | hq
  · simp [hq]
  · rw [hq, List.length_append]
    exact le_refl _

theorem Source.keeps (h : Source s accepted) (hq : s'.queued = s.queued)
    (hs : s'.state = s.state ∨ s'.state = .closed ∨ s.state ≠ .listen ∧ s.state ≠ .closed) :
    Source s' accepted := by
  unfold Source at h ⊢
  rw [hq]
  rcases h with ⟨h0, ha, hst⟩ | h
  · refine Or.inl ⟨h0, ha, ?_⟩
    rcases hs with hs | hs | ⟨h1, h2⟩
    · rwa [hs]
    · exact Or.inr hs
    · exact absurd hst (not_or.mpr ⟨h1, h2⟩)
  · exact Or.inr h

theorem Source.greets (h : Source s accepted) (hg : Good s) (hl : s.state = .listen)
    (L : List Event)
    (hq : s'.queued = ({ s.toOutgoing with log := L }.greeted greeting).queued) :
    Source s' accepted := by
  obtain ⟨hnil, h0, hcap⟩ := hg.listen hl
  have htotal := hg.accounts.total
  rw [hnil, bytes_nil] at htotal
  have hnone : accepted = [] := by
    rcases h with ⟨-, ha, -⟩ | h
    · exact ha
    · exact absurd (h0.symm.trans h) (by simp [greeting])
  have hwrite := (queue_write { s.toOutgoing with log := L, sndWnd := 4 } hg.accounts.opened
    (fun i => greeting.getD i 0) 4).1
  have hclip : (Outgoing.clip { s.toOutgoing with log := L, sndWnd := 4 } 4).toNat = 4 := by
    rw [clip_toNat]
    simp only [FifoBuffer.getWriteRemaining]
    exact Nat.min_eq_left (by rw [← htotal]; exact hcap)
  rw [hclip] at hwrite
  right
  rw [hq, hnone]
  simp only [Outgoing.greeted, Outgoing.queue, h0]
  show [] ++ fetch (fun i => greeting.getD i 0)
    (FifoBuffer.write s.sbuf (fun i => greeting.getD i 0)
    (Outgoing.clip { s.toOutgoing with log := L, sndWnd := 4 } 4).toNat).2.1 = _
  rw [hclip, hwrite]
  rfl

/-! ## The two halves of a connection -/

/-- What `x` sends to `y`: what it has in flight, what `y` holds of it, and what `y` acknowledged
of it. -/
structure Half (x y : Host) : Prop where
  good : Good x.tcp
  underway : Underway (windowEnd y.tcp.toIncoming) x.tcp.toOutgoing
  inbound : Inbound x.tcp.toOutgoing y.tcp.toIncoming y.received
  acks : ∀ w ∈ y.tcp.written, w.result = .success →
    Mark x.tcp.toOutgoing w.packet.ack.toNat ∧
      w.packet.ack.toNat + w.packet.wnd.toNat ≤ windowEnd y.tcp.toIncoming
  source : Source x.tcp x.accepted
  swndScale : x.tcp.swndScale = 0
  supportWndScale : x.tcp.supportWndScale = true
  shutdown : x.tcp.shutdown = .none

structure Linked (x y : Host) : Prop where
  out : Half x y
  back : Half y x

theorem Linked.symm (h : Linked x y) : Linked y x := ⟨h.back, h.out⟩

/-- The headers of an endpoint with the incoming data `i` acknowledge marks of its peer `y` and
stay inside the window. -/
def Host.rely (y : Host) (i : Incoming) : Rely :=
  flowRely (windowEnd y.tcp.toIncoming) fun _ ack wnd =>
    Mark y.tcp.toOutgoing ack.toNat ∧ ack.toNat + wnd.toNat ≤ windowEnd i

/-- **One endpoint moves.** Its steps keep its own half, and the peer's half if what it received is
still in order. -/
theorem Linked.moves (h : Linked x y)
    (hm : Moves (y.rely z.tcp.toIncoming) x.tcp z.tcp)
    (hin : Inbound y.tcp.toOutgoing z.tcp.toIncoming z.received)
    (hend : windowEnd x.tcp.toIncoming ≤ windowEnd z.tcp.toIncoming)
    (hsrc : Source z.tcp z.accepted) (hscale : z.tcp.swndScale = 0)
    (hlen : z.accepted.length < 2 ^ 31) : Linked z y := by
  have hq : z.tcp.queued.length < 2 ^ 32 := by
    have := hsrc.length_le
    omega
  have hq0 : x.tcp.queued.length < 2 ^ 32 := lt_of_le_of_lt hm.steps.queued.length_le hq
  obtain ⟨hu, hmarks⟩ := hm.steps.underway h.out.inbound.wide h.out.underway hq
  refine ⟨⟨hm.good trivial, hu, ?_, fun w hw hres => ?_, hsrc, hscale, ?_, ?_⟩,
    ⟨h.back.good, h.back.underway.mono hend, hin, fun w hw hres => ?_, h.back.source,
      h.back.swndScale, h.back.supportWndScale, h.back.shutdown⟩⟩
  · exact h.out.inbound.grows h.out.underway.listed hq0 hmarks hm.steps.queued
  · obtain ⟨hmark, hle⟩ := h.out.acks w hw hres
    exact ⟨hmarks _ hmark, hle⟩
  · exact hm.supportWndScale.trans h.out.supportWndScale
  · exact hm.shutdown.trans h.out.shutdown
  · rcases hm.steps.headers w hw with hold | hnew
    · obtain ⟨hmark, hle⟩ := h.back.acks w hold hres
      exact ⟨hmark, hle.trans hend⟩
    · exact hnew

theorem Linked.quiet (h : Linked x y) (hm : Moves (y.rely x.tcp.toIncoming) x.tcp z.tcp)
    (hinc : z.tcp.toIncoming = x.tcp.toIncoming) (hrec : z.received = x.received)
    (hsrc : Source z.tcp z.accepted) (hscale : z.tcp.swndScale = 0)
    (hlen : z.accepted.length < 2 ^ 31) : Linked z y := by
  rw [← hinc] at hm
  refine h.moves hm ?_ (le_of_eq (by rw [hinc])) hsrc hscale hlen
  rw [hinc, hrec]
  exact h.back.inbound

/-! ## The calls -/

theorem Linked.serves (h : Linked x y) (env : Env) :
    Serves (y.rely x.tcp.toIncoming) env x.tcp :=
  ⟨h.back.inbound.header, fun _ => trivial⟩

theorem Linked.connectMessage (h : Linked x y) : x.tcp.connectMessage = greeting := by
  unfold PseudoTcp.connectMessage greeting
  rw [h.out.supportWndScale, h.back.inbound.scale]
  rfl

theorem Linked.greets (h : Linked x y) (i : Incoming) : Greets (y.rely i) x.tcp := by
  intro hl
  obtain ⟨-, hq, -⟩ := h.out.good.listen hl
  rw [h.connectMessage, hq]
  exact ⟨rfl, rfl⟩

/-- `Connect` does nothing to an endpoint that is not in `TCP_LISTEN`. -/
theorem connect_cases (env : Env) (s : PseudoTcp) :
    Keeps s (s.connect env).1 ∨
      s.state = .listen ∧
        Sends anyRely { s with state := .synSent }.queueConnectMessage (s.connect env).1 := by
  unfold connect
  split
  · exact Or.inl ⟨rfl, rfl, Or.inl rfl⟩
  · rename_i hl
    exact Or.inr ⟨by simpa using hl, attemptSend_sends ⟨trivial, fun _ => trivial⟩ False.elim _⟩

theorem Linked.connect (h : Linked x y) (env : Env) (hlen : x.accepted.length < 2 ^ 31) :
    Linked (x.act env .connect) y := by
  obtain ⟨hm, hinc⟩ := connect_moves (h.serves env) (fun _ => h.out.good) (h.greets _)
  refine h.quiet (z := x.act env .connect) hm hinc rfl ?_ ?_ hlen
  · rcases connect_cases env x.tcp with hk | ⟨hl, hs⟩
    · exact h.out.source.keeps hk.queued (hk.state.imp id Or.inl)
    · refine h.out.source.greets h.out.good hl x.tcp.log (hs.queued.trans ?_)
      show (x.tcp.toOutgoing.greeted x.tcp.connectMessage).queued = _
      rw [h.connectMessage]
  · rcases connect_cases env x.tcp with hk | ⟨-, hs⟩
    · exact hk.swndScale.trans h.out.swndScale
    · exact hs.swndScale.trans h.out.swndScale

/-- `Send` accepts nothing, or queues what it accepts. -/
theorem send_cases (env : Env) (s : PseudoTcp) (buffer : Nat → U8) (len : Nat) :
    ((s.send env buffer len).2 = none ∧ Keeps s (s.send env buffer len).1) ∨
      (s.state = .established ∧
        (s.send env buffer len).2 = some (s.queue buffer (BitVec.ofNat 32 len) false).2 ∧
        Sends anyRely (s.queue buffer (BitVec.ofNat 32 len) false).1
          (s.send env buffer len).1) := by
  unfold send
  split
  · exact Or.inl ⟨rfl, rfl, rfl, Or.inl rfl⟩
  rename_i hest
  split
  · exact Or.inl ⟨rfl, rfl, rfl, Or.inl rfl⟩
  · exact Or.inr ⟨by simpa using hest, rfl,
      attemptSend_sends ⟨trivial, fun _ => trivial⟩ False.elim _⟩

theorem Linked.send (h : Linked x y) (env : Env) (buffer : Nat → U8) (len : Nat)
    (hlen : (x.act env (.send buffer len)).accepted.length < 2 ^ 31) :
    Linked (x.act env (.send buffer len)) y := by
  -- data is sent in TCP_ESTABLISHED only, behind the CONNECT message
  have hq : x.tcp.state = .established → x.tcp.queued = greeting ++ x.accepted := by
    intro hest
    rcases h.out.source with ⟨-, -, hs | hs⟩ | hq
    · exact absurd (hest.symm.trans hs) (by decide)
    · exact absurd (hest.symm.trans hs) (by decide)
    · exact hq
  obtain ⟨hm, hinc⟩ := send_moves (h.serves env) (fun _ => h.out.good) buffer len fun hest => by
    show 4 ≤ x.tcp.queued.length
    rw [hq hest, List.length_append]
    exact Nat.le_add_right 4 _
  have hcases := send_cases env x.tcp buffer len
  refine h.quiet (z := x.act env (.send buffer len)) hm hinc rfl ?_ ?_ hlen
  · show Source (x.tcp.send env buffer len).1
      (x.accepted ++ fetch buffer ((x.tcp.send env buffer len).2.getD 0))
    rcases hcases with ⟨hnone, hk⟩ | ⟨hest, hsome, hs⟩
    · rw [hnone]
      simp only [Option.getD_none, fetch_zero, List.append_nil]
      exact h.out.source.keeps hk.queued (hk.state.imp id Or.inl)
    · right
      rw [hs.queued, hsome, ← List.append_assoc, ← hq hest]
      rfl
  · rcases hcases with ⟨-, hk⟩ | ⟨-, -, hs⟩
    · exact hk.swndScale.trans h.out.swndScale
    · exact hs.swndScale.trans h.out.swndScale

theorem Linked.keeps (h : Linked x y) (hm : Moves (y.rely x.tcp.toIncoming) x.tcp s')
    (hinc : s'.toIncoming = x.tcp.toIncoming) (hk : Keeps x.tcp s')
    (hlen : x.accepted.length < 2 ^ 31) : Linked { x with tcp := s' } y :=
  h.quiet hm hinc rfl (h.out.source.keeps hk.queued (hk.state.imp id Or.inl))
    (hk.swndScale.trans h.out.swndScale) hlen

/-- `Recv` reads the stream of the peer. -/
theorem Linked.recv (h : Linked x y) (env : Env) (len : Nat) (hlen : x.accepted.length < 2 ^ 31) :
    Linked (x.act env (.recv len)) y := by
  have ho := h.back.inbound.windowed.opened
  have hreads := (recv_moves (r := anyRely) env False.elim (fun _ => trivial) len ho
    fun _ _ _ => trivial).2.1
  obtain ⟨hin, hend, -⟩ := h.back.inbound.reads hreads
  obtain ⟨hm, -, hk⟩ := recv_moves (r := y.rely (x.tcp.recv env len).1.toIncoming) env
    (fun _ => h.out.good) (fun _ => trivial) len ho fun i out hr => by
      obtain rfl : i = (x.tcp.recv env len).1.toIncoming := hr.inc_unique hreads
      exact hin.header
  exact h.moves (z := x.act env (.recv len)) hm hin hend
    (h.out.source.keeps hk.queued (hk.state.imp id Or.inl)) (hk.swndScale.trans h.out.swndScale)
    hlen

/-! ## Deliveries -/

theorem Linked.controlled_inc_eq (h : Linked x y) (env : Env) (seg : Segment) :
    (x.tcp.controlled env seg).toIncoming = x.tcp.toIncoming := by
  rcases controlled_inc env x.tcp seg with he | ⟨⟨-, hpos, -⟩, -⟩
  · exact he
  · have hscale : (x.tcp.arrive env).rwndScale = 0 := h.back.inbound.scale
    rw [hscale] at hpos
    exact absurd hpos (by decide)

variable {p : Packet} {seg : Segment}

theorem Half.agrees (h : Half x y) (hlen : x.accepted.length < 2 ^ 31)
    (hp : ⟨p, .success⟩ ∈ x.tcp.written) (hM : Matches seg p) :
    Agrees (stream x.tcp.toOutgoing) seg := by
  have hq : x.tcp.queued.length < 2 ^ 31 + 4 := by
    have := h.source.length_le
    omega
  have hf := h.underway.listed.faithful (by omega) _ hp
  refine ⟨fun k hk => ?_, ?_⟩
  · rw [hM.len] at hk
    unfold stream
    rw [List.getD_eq_getElem?_getD, hM.seq, hf k hk, hM.data k hk]
    rfl
  · rw [hM.len, hM.seq]
    rcases List.eq_nil_or_concat p.payload with h0 | ⟨l, b, hb⟩
    · rw [h0]
      exact p.seq.isLt
    · have h1 := (h.underway.sent _ hp rfl).mark (by simp [hb])
      have h2 := h1.le_next h.underway.listed (by omega)
      have h3 := p.seq.isLt
      have h4 := x.tcp.sndNxt.isLt
      show _ < 2 ^ 32
      exact lt_of_le_of_lt h2 h4

theorem Linked.stores (h : Linked x y) (hlen : y.accepted.length < 2 ^ 31)
    (hp : ⟨p, .success⟩ ∈ y.tcp.written) (hok : InOrder x.tcp p)
    (hM : Matches seg p) {ok : Bool} {i : Incoming} (hst : Stores env x.tcp seg ok i) :
    Inbound y.tcp.toOutgoing i x.received ∧ windowEnd x.tcp.toIncoming ≤ windowEnd i := by
  have hin := h.back.inbound
  have hsent : Sent y.tcp.toOutgoing p := h.back.underway.sent _ hp rfl
  have hstop : seg.seq.toNat + seg.len.toNat = p.seq.toNat + p.payload.length := by
    rw [hM.seq, hM.len]
  have hq : y.tcp.queued.length < 2 ^ 31 + 4 := by
    have := h.back.source.length_le
    omega
  cases hst with
  | rejected => exact ⟨hin, le_refl _⟩
  | controlled _ =>
    rw [h.controlled_inc_eq]
    exact ⟨hin, le_refl _⟩
  | stored _ =>
    rw [h.controlled_inc_eq]
    unfold ignoresData
    rw [h.out.shutdown, hM.flags]
    rcases hsent.flags with hf | hf
    · rw [hf]
      by_cases h0 : p.payload = []
      · have hzero : seg.len = 0 := by
          have := hM.len
          rw [h0] at this
          exact BitVec.eq_of_toNat_eq this
        rw [receive_empty _ _ hzero]
        exact ⟨hin, le_refl _⟩
      · have hmark := hsent.mark h0
        have hle := (hmark.le_next h.back.underway.listed (by omega)).trans h.back.underway.next
        refine hin.data h.back.underway.listed hq (hok (by rw [hf]; rfl) h0)
          (h.back.agrees hlen hp hM) ?_ ?_ .none
        · rw [hstop]
          exact hle
        · rw [hstop]
          exact hmark
    · rw [hf]
      refine hin.control ?_ (fun h0 => ?_) .none
      · rw [hstop]
        exact hsent.control hf
      · rw [hstop]
        refine hsent.mark fun hnil => h0 (BitVec.eq_of_toNat_eq ?_)
        rw [hM.len, hnil]
        rfl

/-- A piece of the option `[3, 1, 0]` sets the scale to 0 or not at all. -/
theorem parseOptions_swndScale (env : Env) (hr : s.rwndScale = 0) (hs : s.swndScale = 0)
    {options : List U8} (ho : options ∈ [[], [3], [3, 1], [3, 1, 0]]) :
    (s.parseOptions env options).swndScale = 0 := by
  have hloop : (parseOptionsLoop options.length s options []).1.swndScale = 0 := by
    simp only [List.mem_cons, List.not_mem_nil, or_false] at ho
    rcases ho with rfl | rfl | rfl | rfl
    · exact hs
    · exact hs
    · exact hs
    · rfl
  obtain ⟨v, hv⟩ := parseOptionsLoop_eq options.length s options []
  unfold parseOptions
  generalize parseOptionsLoop options.length s options [] = q at hloop hv ⊢
  obtain ⟨s₁, seen⟩ := q
  simp only at hv hloop
  have hr₁ : s₁.rwndScale = 0 := by
    rw [hv]
    exact hr
  cases seen with
  | none => exact hloop
  | some seen =>
    simp only [hr₁]
    rw [if_neg fun h => absurd h.2 (by decide)]
    exact hloop

theorem greeting_pieces : ∀ q < 4, ∀ n < 5,
    0 < n ∧ q + n ≤ 4 ∧ greeting.getD (q + 0) 0 = ctlConnect →
      fetch (fun k => greeting.getD (q + (1 + k)) 0) (n - 1) ∈
        [[], [3], [3, 1], [3, 1, 0]] := by
  decide

theorem Half.options (h : Half x y) (hlen : x.accepted.length < 2 ^ 31)
    (hp : ⟨p, .success⟩ ∈ x.tcp.written) (hM : Matches seg p)
    (hf : seg.flags &&& flagCtl ≠ 0) (h0 : seg.len ≠ 0) (hd : seg.data 0 = ctlConnect) :
    fetch (fun k => seg.data (1 + k)) (seg.len - 1).toNat ∈ [[], [3], [3, 1], [3, 1, 0]] := by
  have hsent : Sent x.tcp.toOutgoing p := h.underway.sent _ hp rfl
  have hctl : p.flags = flagCtl := hsent.flags.resolve_left fun hz => by
    rw [hM.flags, hz] at hf
    exact hf rfl
  have hend := hsent.control hctl
  rw [← hM.len, ← hM.seq] at hend
  have hagree := (h.agrees hlen hp hM).data
  have hpos : 0 < seg.len.toNat := by bv_omega
  have hq : x.tcp.queued = greeting ++ x.accepted := by
    rcases h.source with ⟨hq, -, -⟩ | hq
    · -- an empty stream has no bytes to carry
      have hqlen : x.tcp.queued.length < 2 ^ 32 := by simp [hq]
      have hne : p.payload ≠ [] := fun hnil => by
        have := hM.len
        rw [hnil] at this
        simp only [List.length_nil] at this
        omega
      have h1 := (hsent.mark hne).le_next h.underway.listed hqlen
      have h2 := (h.underway.listed.next_toNat hqlen).2
      have h3 := List.length_pos_iff.mpr hne
      rw [hq, List.length_nil] at h2
      omega
    · exact hq
  have hbyte : ∀ k, seg.seq.toNat + k < 4 → k < seg.len.toNat →
      seg.data k = greeting.getD (seg.seq.toNat + k) 0 := by
    intro k h4 hk
    rw [hagree k hk]
    unfold stream
    rw [hq, List.getD_eq_getElem?_getD, List.getElem?_append_left h4,
      ← List.getD_eq_getElem?_getD]
  have hn : (seg.len - 1).toNat = seg.len.toNat - 1 := by bv_omega
  rw [hn]
  generalize seg.len.toNat = n at hend hpos hbyte ⊢
  generalize seg.seq.toNat = q at hend hbyte ⊢
  rw [hbyte 0 (by omega) hpos] at hd
  have hfetch : fetch (fun k => seg.data (1 + k)) (n - 1) =
      fetch (fun k => greeting.getD (q + (1 + k)) 0) (n - 1) :=
    fetch_congr fun k hk => hbyte (1 + k) (by omega) (by omega)
  rw [hfetch]
  exact greeting_pieces q (by omega) n (by omega) ⟨hpos, hend, hd⟩

theorem Linked.controlled_swndScale (h : Linked x y) (hlen : y.accepted.length < 2 ^ 31)
    (hp : ⟨p, .success⟩ ∈ y.tcp.written) (hM : Matches seg p) :
    (x.tcp.controlled env seg).swndScale = 0 := by
  unfold controlled processControl
  split
  · exact h.out.swndScale
  rename_i hf
  split
  · exact h.out.swndScale
  rename_i h0
  split
  · rename_i hd
    have hs := parseOptions_swndScale (s := x.tcp.arrive env) env h.back.inbound.scale
      h.out.swndScale (h.back.options hlen hp hM hf h0 hd)
    simp only
    split
    · exact hs
    split
    · exact hs
    · exact hs
  · exact h.out.swndScale

/-- An acknowledgement of the peer ends at a boundary of the list, its window where the peer's
ends. -/
theorem Linked.accepts (h : Linked x y) (hlen : y.accepted.length < 2 ^ 31)
    (hp : ⟨p, .success⟩ ∈ y.tcp.written) (hM : Matches seg p) (i : Incoming)
    (L : List Event) : (y.rely i).accepts { (x.tcp.controlled env seg).toOutgoing with log := L }
      seg.ack ((x.tcp.controlled env seg).scaledWnd seg) := by
  obtain ⟨hmark, hle⟩ := h.out.acks _ hp rfl
  have hscaled : ((x.tcp.controlled env seg).scaledWnd seg).toNat = p.wnd.toNat := by
    unfold scaledWnd
    rw [h.controlled_swndScale hlen hp hM, hM.wnd]
    show ((p.wnd.setWidth 32) <<< 0).toNat = p.wnd.toNat
    rw [BitVec.shiftLeft_zero, BitVec.toNat_setWidth]
    have := p.wnd.isLt
    omega
  refine ⟨fun hlt _ => ?_, ?_⟩
  · have huna := (controlled_sndNxt env x.tcp seg).1
    refine onBoundary_controlled (Mark.onBoundary ?_ ?_) L
    · rw [hM.ack]
      exact hmark
    · rw [← huna]
      exact hlt
  · rw [hscaled, hM.ack]
    exact hle

theorem Linked.process_source (h : Linked x y) (env : Env) (seg : Segment) :
    Source (x.tcp.process env seg).1 x.accepted ∧
      ((x.tcp.controlled env seg).swndScale = 0 → (x.tcp.process env seg).1.swndScale = 0) := by
  have hsrc := h.out.source
  rcases process_cases env x.tcp seg with ⟨hadm, bConnect, he⟩ | ⟨-, -, he⟩
  · have hctl : Controls (x.tcp.arrive env) (x.tcp.controlled env seg) :=
      processControl_controls env _ seg
    have hopen := hctl.opened hadm.2.1
    have hack : Acknowledges anyRely (x.tcp.controlled env seg) seg
        ((x.tcp.controlled env seg).acknowledge env (env.now x.tcp.ticks) bConnect seg).1
        ((x.tcp.controlled env seg).acknowledge env (env.now x.tcp.ticks) bConnect seg).2 :=
      acknowledge_acknowledges ⟨trivial, fun _ => trivial⟩ False.elim hopen trivial bConnect
        (fun _ _ => trivial) (fun _ => trivial)
    rw [he]
    refine ⟨?_, fun h0 => hack.swndScale.trans h0⟩
    have hstate : ∀ s', s'.state = (x.tcp.controlled env seg).state ∨ s'.state = .closed ∨
        (x.tcp.controlled env seg).state = .synReceived ∧ s'.state = .established →
        s'.queued = (x.tcp.controlled env seg).queued →
        Source (x.tcp.controlled env seg) x.accepted → Source s' x.accepted := by
      intro s' hs hq hc
      refine hc.keeps hq (hs.imp id (Or.imp id fun h => ?_))
      rw [h.1]
      exact ⟨by decide, by decide⟩
    refine hstate _ hack.state hack.queued ?_
    cases hctl with
    | keeps L out state =>
      refine hsrc.keeps (by rw [out]; rfl) ?_
      rcases state with hs | ⟨hs, -⟩
      · exact Or.inl hs
      · refine Or.inr (Or.inr ?_)
        rw [show x.tcp.state = .synSent from hs]
        exact ⟨by decide, by decide⟩
    | answers L listen state out =>
      refine hsrc.greets h.out.good listen L ?_
      have hmsg : (x.tcp.controlled env seg).connectMessage = greeting := by
        unfold PseudoTcp.connectMessage greeting
        have hsupp := (controlled_moves (r := anyRely) (s := x.tcp) env False.elim
          (fun _ => trivial) seg).supportWndScale
        rw [hsupp, h.out.supportWndScale, h.controlled_inc_eq, h.back.inbound.scale]
        rfl
      rw [hmsg] at out
      exact congrArg Outgoing.queued out
  · rcases he with he | he | ⟨-, he⟩
    · rw [he]
      exact ⟨hsrc, fun _ => h.out.swndScale⟩
    · rw [he]
      exact ⟨hsrc.keeps rfl (Or.inl rfl), fun _ => h.out.swndScale⟩
    · rw [he]
      exact ⟨hsrc.keeps rfl (Or.inr (Or.inl rfl)), fun _ => h.out.swndScale⟩

/-- **A delivery keeps both halves**, if no data comes before the CONNECT message. -/
theorem Linked.deliver (h : Linked x y) (env : Env)
    (hp : ⟨p, .success⟩ ∈ y.tcp.written) (hok : InOrder x.tcp p)
    (hx : x.accepted.length < 2 ^ 31) (hy : y.accepted.length < 2 ^ 31) :
    Linked (x.act env (.deliver p)) y := by
  have hsame : Linked { x with tcp := x.tcp } y := h
  show Linked { x with tcp := (x.tcp.notifyPacket env p.bytes).1 } y
  unfold notifyPacket
  split
  · exact hsame
  rename_i hmax
  unfold parse
  split
  · exact hsame
  rename_i hmin
  have hM := wire_matches env p ⟨by omega, by omega⟩
  generalize wire env p.bytes = seg at hM ⊢
  have hst := (process_moves (r := anyRely) (s := x.tcp) False.elim
    (meets_anyRely env x.tcp seg)).2
  obtain ⟨hin, hend⟩ := h.stores hy hp hok hM hst
  obtain ⟨hsrc, hscale⟩ := h.process_source env seg
  have hmeets : Meets (y.rely (x.tcp.process env seg).1.toIncoming) env x.tcp seg := by
    refine ⟨fun _ => trivial, ?_, fun htrue => ?_, h.greets _, fun _ _ L => ?_⟩
    · rw [h.controlled_inc_eq]
      obtain ⟨hmark, hle⟩ := h.back.inbound.header
      exact ⟨hmark, hle.trans hend⟩
    · rw [htrue] at hst
      have hhead := hin.header
      generalize (x.tcp.process env seg).1.toIncoming = i at hst hhead ⊢
      cases hst with
      | stored _ => exact hhead
    · exact h.accepts hy hp hM _ L
  exact h.moves (z := { x with tcp := (x.tcp.process env seg).1 })
    (process_moves (fun _ => h.out.good) hmeets).1 hin hend hsrc
    (hscale (h.controlled_swndScale hy hp hM)) hx

/-! ## Runs of two endpoints -/

/-- **Every action keeps both halves.** -/
theorem Linked.act (h : Linked x y) (env : Env) (a : Action) (ha : Allowed InOrder y x a)
    (hx : (x.act env a).accepted.length < 2 ^ 31) (hy : y.accepted.length < 2 ^ 31) :
    Linked (x.act env a) y := by
  cases a with
  | connect => exact h.connect env hx
  | send buffer len => exact h.send env buffer len hx
  | recv len => exact h.recv env len hx
  | notifyMTU mtu =>
    obtain ⟨hm, hinc, hk⟩ := notifyMTU_moves (fun _ => h.out.good) mtu
    exact h.keeps hm hinc hk hx
  | notifyClock now =>
    obtain ⟨hm, hinc, hk⟩ := notifyClock_moves (h.serves env) (fun _ => h.out.good) trivial
    exact h.keeps hm hinc hk hx
  | deliver p =>
    dsimp only [Host.act] at hx ⊢
    exact h.deliver env ha.1 ha.2 hx hy

theorem Half.fresh (conv conv' now now' : U32) (rmem smem rmem' smem' : Nat → U8) :
    Half (.fresh conv now rmem smem) (.fresh conv' now' rmem' smem') := by
  have hg := good_new conv now rmem smem
  refine ⟨hg, ⟨listed_new conv now rmem smem, hg.accounts, ?_, ?_, ?_, ?_⟩,
    ⟨windowed_new conv' now' rmem' smem', rfl, Or.inl (le_refl 0), ?_, ⟨rfl, ?_, ?_, ?_⟩,
      fun _ => rfl, ?_, rfl⟩, ?_, Or.inl ⟨rfl, rfl, Or.inl rfl⟩, rfl, rfl, rfl⟩
  · exact fun e he => absurd he (by simp [Host.fresh, new])
  · show (0 : U32).toNat + (1 : U32).toNat ≤ (0 : U32).toNat + defaultRcvBufSize.toNat
    decide
  · exact Nat.zero_le _
  · exact fun w hw => absurd hw (by simp [Host.fresh, new])
  · exact fun r hr => absurd hr (by simp [Host.fresh, new])
  · exact List.Pairwise.nil
  · exact fun r hr => absurd hr (by simp [Host.fresh, new])
  · exact fun r hr => absurd hr (by simp [Host.fresh, new])
  · show 4 ≤ (0 : U32).toNat + defaultRcvBufSize.toNat
    decide
  · exact fun w hw => absurd hw (by simp [Host.fresh, new])

theorem Host.accepted_act (env : Env) (x : Host) (a : Action) :
    x.accepted <+: (x.act env a).accepted := by
  cases a with
  | send buffer len => exact List.prefix_append _ _
  | _ =>
    dsimp only [Host.act]
    exact List.prefix_refl _

/-- **Both halves hold in every state a run reaches.** -/
theorem Network.linked (h : Network InOrder x y) (hx : x.accepted.length < 2 ^ 31)
    (hy : y.accepted.length < 2 ^ 31) : Linked x y := by
  induction h with
  | start conv now now' rmem smem rmem' smem' => exact ⟨.fresh .., .fresh ..⟩
  | @left x y env a _ ha ih =>
    have hle := (x.accepted_act env a).length_le
    exact (ih (lt_of_le_of_lt hle hx) hy).act env a ha hx hy
  | @right x y env a _ ha ih =>
    have hle := (y.accepted_act env a).length_le
    exact ((ih hx (lt_of_le_of_lt hle hy)).symm.act env a ha hy hx).symm

theorem Half.delivers (h : Half x y) (hx : x.accepted.length < 2 ^ 31) :
    y.received <+: x.accepted := by
  have hq : x.tcp.queued.length < 2 ^ 32 := by
    have := h.source.length_le
    omega
  have hle : y.tcp.rcvNxt.toNat ≤ x.tcp.queued.length :=
    (h.inbound.mark.le_next h.underway.listed hq).trans (h.underway.listed.next_toNat hq).2
  have hdel := h.inbound.delivered
  have hpre : y.received <+: fetch (fun k => stream x.tcp.toOutgoing (4 + k))
      (y.tcp.rcvNxt.toNat - 4) := ⟨_, hdel⟩
  refine hpre.trans ?_
  rcases h.source with ⟨h0, -, -⟩ | hsrc
  · rw [h0, List.length_nil] at hle
    rw [Nat.sub_eq_zero_of_le (by omega)]
    exact List.nil_prefix
  · have hlen : (greeting ++ x.accepted).length = 4 + x.accepted.length := by
      rw [List.length_append]
      rfl
    rw [hsrc, hlen] at hle
    have htake : fetch (fun k => stream x.tcp.toOutgoing (4 + k)) (y.tcp.rcvNxt.toNat - 4) =
        x.accepted.take (y.tcp.rcvNxt.toNat - 4) := by
      refine fetch_eq_of_getElem? ?_ ?_
      · rw [List.length_take]
        omega
      · intro k hk
        have hk' : k < x.accepted.length := by omega
        unfold stream
        rw [List.getElem?_take_of_lt hk, hsrc, List.getD_eq_getElem?_getD,
          List.getElem?_append_right (show greeting.length ≤ 4 + k from Nat.le_add_right 4 k),
          show 4 + k - greeting.length = k from Nat.add_sub_cancel_left 4 k,
          List.getElem?_eq_getElem hk']
        rfl
    rw [htake]
    exact List.take_prefix _ _

/-- **`Recv` delivers a prefix of what `Send` accepted.** In every run of two endpoints over a
network that loses, duplicates, delays and reorders packets, but delivers no data before the CONNECT
message of its sender. -/
theorem delivers_in_order (h : Network InOrder x y) (hx : x.accepted.length < 2 ^ 31)
    (hy : y.accepted.length < 2 ^ 31) : x.received <+: y.accepted ∧ y.received <+: x.accepted := by
  have hl := h.linked hx hy
  exact ⟨hl.back.delivers hy, hl.out.delivers hx⟩

/-! ## A simultaneous open -/

/-- The `i`-th byte of the data to send. -/
def counting (i : Nat) : U8 := BitVec.ofNat 8 (i + 1)

/-- An endpoint with the smallest MTU that called `Connect`. -/
def opening : Host :=
  ((Host.fresh 1 1 (fun _ => 0) (fun _ => 0)).act (still 1) (.notifyMTU 296)).act (still 1) .connect

/-- The CONNECT message of `opening`. -/
def openingMessage : Packet := ⟨1, 0, 0, flagCtl, 61440, 1, 0, greeting⟩

/-- Its peer opened at the same moment, has the message and sends data. -/
def sending : Host :=
  (opening.act (still 1) (.deliver openingMessage)).act (still 1) (.send counting 360)

/-- The first segment of that data. -/
def firstPiece : Packet := ⟨1, 4, 4, 0, 61440, 1, 1, fetch counting 180⟩

/-- The second segment, which follows an acknowledgement of the first. -/
def secondPiece : Packet := ⟨1, 184, 4, 0, 61440, 1, 1, fetch (fun i => counting (180 + i)) 180⟩

theorem sending_network {ok : PseudoTcp → Packet → Prop}
    (hok : ok opening.tcp openingMessage) : Network ok opening sending := by
  have hmtu : 296 ≤ (296 : U16).toNat := by decide
  have h : Network ok opening opening :=
    .right (still 1) .connect (.right (still 1) (.notifyMTU 296) (.left (still 1) .connect
      (.left (still 1) (.notifyMTU 296) (.start 1 1 1 _ _ _ _) hmtu) trivial) hmtu) trivial
  exact .right (still 1) (.send counting 360) (.right (still 1) (.deliver openingMessage) h
    ⟨by decide +kernel, hok⟩) trivial

/-- The receiver gets the CONNECT message and then the first segment. -/
def arrived : Host :=
  ((opening.act (still 1) (.deliver openingMessage)).act (still 1) (.deliver firstPiece)).act
    (still 1) (.recv 400)

theorem delivers_in_order_arrived :
    Network InOrder arrived sending ∧ arrived.received = fetch counting 180 ∧
      arrived.received <+: sending.accepted := by
  have hctl : ∀ s, InOrder s openingMessage := fun s h => absurd h (by decide)
  have h : Network InOrder arrived sending :=
    .left (still 1) (.recv 400) (.left (still 1) (.deliver firstPiece) (.left (still 1)
      (.deliver openingMessage) (sending_network (hctl _)) ⟨by decide +kernel, hctl _⟩)
      ⟨by decide +kernel, fun _ _ => by decide +kernel⟩) trivial
  exact ⟨h, by decide +kernel,
    (delivers_in_order h (by decide +kernel) (by decide +kernel)).1⟩

/-- The answer of an endpoint that has no CONNECT message yet to the first segment. -/
def emptyAnswer : Packet := ⟨1, 4, 0, 0, 61440, 1, 0, []⟩

def sendingMore : Host := sending.act (still 1) (.deliver emptyAnswer)

/-- The receiver gets both segments, then the CONNECT message, then the first segment again. -/
def overtaken : Host :=
  ((((opening.act (still 1) (.deliver firstPiece)).act (still 1) (.deliver secondPiece)).act
    (still 1) (.deliver openingMessage)).act (still 1) (.deliver firstPiece)).act (still 1)
      (.recv 400)

/-- A network that delivers what was written. -/
def Anything : PseudoTcp → Packet → Prop := fun _ _ => True

theorem overtaken_network : Network Anything overtaken sendingMore := by
  have h : Network Anything _ sendingMore :=
    .right (still 1) (.deliver emptyAnswer) (.left (still 1) (.deliver firstPiece)
      (sending_network trivial) ⟨by decide +kernel, trivial⟩) ⟨by decide +kernel, trivial⟩
  exact .left (still 1) (.recv 400) (.left (still 1) (.deliver firstPiece)
    (.left (still 1) (.deliver openingMessage) (.left (still 1) (.deliver secondPiece) h
      ⟨by decide +kernel, trivial⟩) ⟨by decide +kernel, trivial⟩)
    ⟨by decide +kernel, trivial⟩) trivial

/-- **Data that overtakes the CONNECT message is corrupted.** It is stored at its distance from
sequence number 0, and the message then moves `m_rcv_nxt` without moving the buffer. -/
theorem overtaking_data_is_corrupted :
    ∃ x y, Network Anything x y ∧ x.accepted.length < 2 ^ 31 ∧ y.accepted.length < 2 ^ 31 ∧
      ¬ x.received <+: y.accepted :=
  ⟨overtaken, sendingMore, overtaken_network, by decide +kernel, by decide +kernel,
    by decide +kernel⟩

end Libjingle.PseudoTcp
