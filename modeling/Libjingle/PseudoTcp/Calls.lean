import Libjingle.PseudoTcp.ReceivePath
import Libjingle.PseudoTcp.SendPath

/-!
# `process` and the public calls make only `SendStep`s

`Good` is the sender's accounting with what it needs of the rest of the object: `m_recover` during
fast recovery, and an empty list in `TCP_LISTEN`. Each stage of `process` and each public call
makes a sequence of steps and, under `strict`, keeps it.

`call_moves` is the result the invariants of the sender start from.
-/

namespace Libjingle.PseudoTcp

open Lib

variable {r : Rely} {env : Env} {s s' : PseudoTcp}

/-- The sender's accounting and what it needs of the rest of the object. -/
structure Good (s : PseudoTcp) : Prop where
  accounts : Accounts s.toOutgoing
  recover : s.state ≠ .closed → s.dupAcks ≥ 3 → Ahead s.recover s.toOutgoing
  listen : s.state = .listen → s.slist = [] ∧ s.queued = [] ∧ 4 ≤ s.sbuf.bufferLength

theorem Good.sends (h : Good s) (hr : r.strict) (hs : Sends r s s') : Good s' where
  accounts := h.accounts.steps hr hs.steps
  recover hc hd := by
    rw [hs.state] at hc
    rw [hs.dupAcks] at hd
    rw [hs.recover]
    exact (h.recover hc hd).steps h.accounts.toLengths hs.steps
  listen hl := by
    rw [hs.state] at hl
    rw [hs.queued, hs.sbuf]
    exact ⟨hs.empty (h.listen hl).1, (h.listen hl).2⟩

/-- A stage of a call, or a whole call, took `s` to `s'`. -/
structure Moves (r : Rely) (s s' : PseudoTcp) : Prop where
  steps : SendSteps r s.toOutgoing s'.toOutgoing
  good : r.strict → Good s'
  conv : s'.conv = s.conv
  shutdown : s'.shutdown = s.shutdown
  supportWndScale : s'.supportWndScale = s.supportWndScale

theorem Moves.refl (h : r.strict → Good s) : Moves r s s := ⟨.refl, h, rfl, rfl, rfl⟩

variable {s'' : PseudoTcp}

theorem Moves.trans (h : Moves r s s') (h' : Moves r s' s'') : Moves r s s'' :=
  ⟨h.steps.trans h'.steps, h'.good, h'.conv.trans h.conv, h'.shutdown.trans h.shutdown,
    h'.supportWndScale.trans h.supportWndScale⟩

theorem Sends.moves (hs : Sends r s s') (hg : r.strict → Good s) : Moves r s s' :=
  ⟨hs.steps, fun hr => (hg hr).sends hr hs, hs.conv, hs.shutdown, hs.supportWndScale⟩

/-! ## Control data -/

theorem parseOptionsLoop_eq : ∀ (fuel : Nat) (s : PseudoTcp) (buf seen : List U8),
    ∃ x, (parseOptionsLoop fuel s buf seen).1 = { s with swndScale := x }
  | 0, s, _, _ => ⟨s.swndScale, rfl⟩
  | _ + 1, s, [], _ => ⟨s.swndScale, rfl⟩
  | fuel + 1, s, kind :: buf, seen => by
    unfold parseOptionsLoop
    split
    · exact ⟨s.swndScale, rfl⟩
    split
    · exact parseOptionsLoop_eq fuel s buf seen
    simp only
    split
    · obtain ⟨x, hx⟩ :=
        parseOptionsLoop_eq fuel (s.applyOption kind (buf.tail.take (buf.headD 0).toNat))
        (buf.tail.drop (buf.headD 0).toNat) (kind :: seen)
      refine ⟨x, hx.trans ?_⟩
      unfold applyOption
      split
      · split <;> rfl
      · rfl
    · exact ⟨s.swndScale, rfl⟩

/-- The options set the scale, or revert the receive buffer if there is no `TCP_OPT_WND_SCALE`. -/
theorem parseOptions_cases (env : Env) (s : PseudoTcp) (data : List U8) :
    (∃ x, s.parseOptions env data = { s with swndScale := x }) ∨
      (s.rwndScale > 0 ∧ ∃ seen, (parseOptionsLoop data.length s data []).2 = some seen ∧
        tcpOptWndScale ∉ seen) ∧
      s.parseOptions env data =
        { s.resizeReceiveBuffer env defaultRcvBufSize with swndScale := 0 } := by
  unfold parseOptions
  obtain ⟨x, hx⟩ := parseOptionsLoop_eq data.length s data []
  generalize parseOptionsLoop data.length s data [] = q at hx ⊢
  obtain ⟨s₁, seen⟩ := q
  simp only at hx
  subst hx
  cases seen with
  | none => exact .inl ⟨x, rfl⟩
  | some seen =>
    simp only
    split
    · rename_i h
      exact .inr ⟨⟨h.2, seen, rfl, h.1⟩, rfl⟩
    · exact .inl ⟨x, rfl⟩

/-- The parts `parseOptions` leaves alone, and the log entry it may leave. -/
theorem parseOptions_spec (env : Env) (s : PseudoTcp) (data : List U8) :
    (∃ c, (s.parseOptions env data).toOutgoing = s.toOutgoing.assert c .resizeFull) ∧
      (s.parseOptions env data).conv = s.conv ∧ (s.parseOptions env data).state = s.state ∧
      (s.parseOptions env data).shutdown = s.shutdown ∧
      (s.parseOptions env data).supportWndScale = s.supportWndScale ∧
      (s.parseOptions env data).dupAcks = s.dupAcks ∧
      (s.parseOptions env data).recover = s.recover := by
  obtain ⟨x, h⟩ | ⟨-, h⟩ := parseOptions_cases env s data
  · rw [h]
    exact ⟨⟨true, rfl⟩, rfl, rfl, rfl, rfl, rfl, rfl⟩
  · rw [h]
    exact ⟨⟨_, rfl⟩, rfl, rfl, rfl, rfl, rfl, rfl⟩

theorem connectMessage_length (s : PseudoTcp) :
    1 ≤ s.connectMessage.length ∧ s.connectMessage.length ≤ 4 := by
  unfold connectMessage
  split <;> simp

/-- The CONNECT message of a fresh connection is among what `r` queues. -/
def Greets (r : Rely) (s : PseudoTcp) : Prop :=
  s.state = .listen → r.queues s.queued (BitVec.ofNat 32 s.connectMessage.length) true

theorem connectMessage_length_eq (h : s'.supportWndScale = s.supportWndScale) :
    s'.connectMessage.length = s.connectMessage.length := by
  unfold connectMessage
  rw [h]
  split <;> rfl

theorem queueConnectMessage_steps
    (hn : r.queues s.queued (BitVec.ofNat 32 s.connectMessage.length) true)
    (hg : r.strict → Accounts s.toOutgoing ∧ s.slist = [] ∧ s.queued = [] ∧
      4 ≤ s.sbuf.bufferLength) : SendSteps r s.toOutgoing s.queueConnectMessage.toOutgoing := by
  obtain ⟨h1, h4⟩ := connectMessage_length s
  have hlen : (BitVec.ofNat 32 s.connectMessage.length).toNat = s.connectMessage.length := by
    rw [BitVec.toNat_ofNat, Nat.mod_eq_of_lt (by omega)]
  have hgreet : SendStep r s.toOutgoing
      { s.toOutgoing with sndWnd := BitVec.ofNat 32 s.connectMessage.length } :=
    .greet _ _ (by rw [BitVec.le_def, hlen]; exact h4) fun hr => ⟨(hg hr).2.1, (hg hr).2.2.1⟩
  refine (Relation.ReflTransGen.single hgreet).tail (.queue _ _ _ _ hn fun hr _ => ?_)
  obtain ⟨ha, hnil, -, hcap⟩ := hg hr
  have htotal := ha.total
  rw [hnil, bytes_nil] at htotal
  refine ⟨hnil, by bv_omega, ?_⟩
  simp only [FifoBuffer.getWriteRemaining, hlen]
  omega

/-- What control data does to the outgoing data and the state: nothing, or it queues the CONNECT
message in `TCP_LISTEN`. -/
inductive Controls (s s' : PseudoTcp) : Prop
  | keeps (L : List Event) (out : s'.toOutgoing = { s.toOutgoing with log := L })
      (state : s'.state = s.state ∨ s.state = .synSent ∧ s'.state = .established)
  | answers (L : List Event) (listen : s.state = .listen) (state : s'.state = .synReceived)
      (out : s'.toOutgoing = { s.toOutgoing with log := L }.greeted s'.connectMessage)

theorem processControl_controls (env : Env) (s : PseudoTcp) (seg : Segment) :
    Controls s (s.processControl env seg).1 := by
  unfold processControl
  split
  · exact .keeps s.log rfl (Or.inl rfl)
  split
  · exact .keeps s.log rfl (Or.inl rfl)
  split
  · obtain ⟨⟨c, hout⟩, -, hstate, -⟩ := parseOptions_spec env s
      (fetch (fun k => seg.data (1 + k)) (seg.len - 1).toNat)
    generalize s.parseOptions env (fetch (fun k => seg.data (1 + k)) (seg.len - 1).toNat) = s₁
      at hout hstate ⊢
    simp only
    split
    · rename_i hl
      refine .answers (s.toOutgoing.assert c .resizeFull).log (hstate.symm.trans hl) rfl ?_
      show s₁.toOutgoing.greeted s₁.connectMessage = _
      rw [hout]
      rfl
    split
    · rename_i hl
      refine .keeps (.onTcpOpen :: (s.toOutgoing.assert c .resizeFull).log) ?_
        (Or.inr ⟨hstate.symm.trans hl, rfl⟩)
      show s₁.toOutgoing.note .onTcpOpen = _
      rw [hout]
      rfl
    · exact .keeps _ hout (Or.inl hstate)
  · exact .keeps s.log rfl (Or.inl rfl)

theorem Controls.opened (h : Controls s s') (ho : s.state ≠ .closed) : s'.state ≠ .closed := by
  cases h with
  | keeps L out state =>
    rcases state with h | ⟨-, h⟩
    · exact h ▸ ho
    · exact fun h' => absurd (h.symm.trans h') (by decide)
  | answers L listen state out => exact fun h' => absurd (state.symm.trans h') (by decide)

theorem processControl_moves (hg : r.strict → Good s) (hn : Greets r s) (seg : Segment) :
    Moves r s (s.processControl env seg).1 := by
  unfold processControl
  split
  · exact Moves.refl hg
  split
  · exact Moves.refl hg
  split
  · obtain ⟨⟨c, hout⟩, hconv, hstate, hshut, hsupp, hdup, hrec⟩ := parseOptions_spec env s
      (fetch (fun k => seg.data (1 + k)) (seg.len - 1).toNat)
    generalize s.parseOptions env (fetch (fun k => seg.data (1 + k)) (seg.len - 1).toNat) = s₁
      at hout hconv hstate hshut hsupp hdup hrec ⊢
    have hsteps : SendSteps r s.toOutgoing s₁.toOutgoing := by
      rw [hout]
      exact assert_steps _ _ rfl
    have hg₁ : r.strict → Good s₁ := by
      intro hr
      refine ⟨(hg hr).accounts.steps hr hsteps, fun hc hd => ?_, fun hl => ?_⟩
      · rw [hrec]
        rw [hstate] at hc
        rw [hdup] at hd
        exact ((hg hr).recover hc hd).steps (hg hr).accounts.toLengths hsteps
      · rw [hout]
        exact (hg hr).listen (hstate.symm.trans hl)
    simp only
    split
    · rename_i hl
      have hn₁ : r.queues s₁.queued (BitVec.ofNat 32 s₁.connectMessage.length) true := by
        have h := hn (hstate.symm.trans hl)
        rw [← connectMessage_length_eq hsupp] at h
        rw [hout]
        exact h
      have hq : SendSteps r s₁.toOutgoing s₁.queueConnectMessage.toOutgoing :=
        queueConnectMessage_steps hn₁ fun hr => ⟨(hg₁ hr).accounts, (hg₁ hr).listen hl⟩
      refine ⟨hsteps.trans hq, fun hr => ⟨(hg₁ hr).accounts.steps hr hq, fun _ hd => ?_, ?_⟩,
        hconv, hshut, hsupp⟩
      · exact ((hg₁ hr).recover (by rw [hl]; decide) hd).steps (hg₁ hr).accounts.toLengths hq
      · intro h
        exact absurd h (by simp [queueConnectMessage])
    split
    · rename_i hl
      have hn : SendSteps r s₁.toOutgoing (s₁.toOutgoing.note .onTcpOpen) :=
        .single (.note _ _ fun _ => rfl)
      refine ⟨hsteps.trans hn, fun hr => ⟨(hg₁ hr).accounts.steps hr hn, fun _ hd => ?_, ?_⟩,
        hconv, hshut, hsupp⟩
      · exact ((hg₁ hr).recover (by rw [hl]; decide) hd).steps (hg₁ hr).accounts.toLengths hn
      · intro h
        exact absurd h (by simp [note, adjustMTU])
    · exact ⟨hsteps, hg₁, hconv, hshut, hsupp⟩
  · exact Moves.refl hg

/-! ## Acknowledgements -/

theorem updateRtt_sends (now : U32) (seg : Segment) :
    Sends r s (s.updateRtt now seg) ∧
      ∃ L, (s.updateRtt now seg).toOutgoing = { s.toOutgoing with log := L } := by
  unfold updateRtt
  split
  · exact ⟨Sends.refl s, s.log, rfl⟩
  simp only
  split
  · exact ⟨⟨⟨rfl, id, id⟩, .refl⟩, s.log, rfl⟩
  · exact ⟨⟨⟨rfl, id, id⟩,
      .single (.note _ _ fun _ => rfl)⟩, _, rfl⟩

/-- The acknowledgement of a segment took `s` to `s'`; `ok` unless a retransmission failed. -/
structure Acks (r : Rely) (s s' : PseudoTcp) (ok : Bool) : Prop extends Moves r s s' where
  inc : s'.toIncoming = s.toIncoming
  swndScale : s'.swndScale = s.swndScale
  queued : s'.queued = s.queued
  state : s'.state = if ok then s.state else .closed

/-- A stage or a call that queues nothing left the stream and the peer's scale alone, and the state
but for closing down. -/
structure Keeps (s s' : PseudoTcp) : Prop where
  queued : s'.queued = s.queued
  swndScale : s'.swndScale = s.swndScale
  state : s'.state = s.state ∨ s'.state = .closed

theorem Keeps.refl (s : PseudoTcp) : Keeps s s := ⟨rfl, rfl, Or.inl rfl⟩

theorem Sends.keeps (hs : Sends r s s') : Keeps s s' := ⟨hs.queued, hs.swndScale, Or.inl hs.state⟩

theorem Acks.keeps {ok : Bool} (h : Acks r s s' ok) : Keeps s s' := by
  refine ⟨h.queued, h.swndScale, ?_⟩
  rw [h.state]
  cases ok with
  | false => exact Or.inr rfl
  | true => exact Or.inl rfl

theorem Sends.acks (hs : Sends r s s') (hg : r.strict → Good s) : Acks r s s' true :=
  ⟨hs.moves hg, hs.inc, hs.swndScale, hs.queued, hs.state⟩

theorem Acks.trans {ok : Bool} (h : Acks r s s' true) (h' : Acks r s' s'' ok) :
    Acks r s s'' ok where
  toMoves := h.toMoves.trans h'.toMoves
  inc := h'.inc.trans h.inc
  swndScale := h'.swndScale.trans h.swndScale
  queued := h'.queued.trans h.queued
  state := by
    rw [h'.state, h.state]
    rfl

theorem closedown_acks (hg : r.strict → Good s) (err : TcpError) :
    Acks r s (s.closedown err) false := by
  have hn : SendSteps r s.toOutgoing (s.closedown err).toOutgoing :=
    .single (.note _ _ fun _ => rfl)
  refine ⟨⟨hn, fun hr => ⟨(hg hr).accounts.steps hr hn, fun hc => ?_, fun hl => ?_⟩, rfl, rfl, rfl⟩,
    rfl, rfl, rfl, rfl⟩
  · exact absurd rfl hc
  · exact absurd hl (by simp [closedown, note])

theorem recovery_acks (hg : r.strict → Good s) (hout : s'.toOutgoing = s.toOutgoing)
    (hinc : s'.toIncoming = s.toIncoming)
    (hrest : s'.conv = s.conv ∧ s'.shutdown = s.shutdown ∧
      s'.supportWndScale = s.supportWndScale ∧ s'.swndScale = s.swndScale ∧ s'.state = s.state)
    (hrec : r.strict → s.state ≠ .closed → s'.dupAcks ≥ 3 → Ahead s'.recover s.toOutgoing) :
    Acks r s s' true := by
  obtain ⟨h1, h2, h3, h4, h5⟩ := hrest
  refine ⟨⟨by rw [hout], fun hr => ⟨?_, ?_, ?_⟩, h1, h2, h3⟩, hinc, h4, ?_, h5⟩
  · rw [hout]
    exact (hg hr).accounts
  · intro hc hd
    rw [hout]
    exact hrec hr (h5 ▸ hc) hd
  · intro hl
    rw [hout]
    exact (hg hr).listen (h5 ▸ hl)
  · rw [hout]

variable {now : U32}

/-- During fast recovery an ack below `m_recover` leaves something in flight. -/
theorem congestionAck_acks (hv : Serves r env s) (hg : r.strict → Good s)
    (hopen : s.state ≠ .closed) (hle : s.sndUna ≤ s.sndNxt) (hc : r.clock now)
    (nAcked : U32) :
    Acks r s (s.congestionAck env now nAcked).1 (s.congestionAck env now nAcked).2 := by
  unfold congestionAck
  split
  · rename_i hd
    split
    · refine recovery_acks hg rfl rfl ⟨rfl, rfl, rfl, rfl, rfl⟩ ?_
      intro _ _ h
      exact absurd h (show ¬ (0 : U8) ≥ 3 by decide)
    · rename_i hlt
      have hne : r.strict → s.sndUna ≠ s.sndNxt := by
        intro hr
        have := (hg hr).recover hopen hd hle
        bv_omega
      have hre := retransmit_sends hv (fun hr => (hg hr).accounts) hne hc
      generalize s.retransmit env now = q at hre ⊢
      obtain ⟨s₁, ok⟩ := q
      have ha := hre.acks hg
      cases ok with
      | false => exact ha.trans (closedown_acks ha.good _)
      | true =>
        refine ha.trans (recovery_acks ha.good rfl rfl ⟨rfl, rfl, rfl, rfl, rfl⟩ ?_)
        exact fun hr => (ha.good hr).recover
  · refine recovery_acks hg rfl rfl ⟨rfl, rfl, rfl, rfl, rfl⟩ ?_
    intro _ _ h
    exact absurd h (show ¬ (0 : U8) ≥ 3 by decide)

theorem acked_acks (hg : r.strict → Good s) {ack w now : U32} (h₁ : s.sndUna < ack)
    (h₂ : ack ≤ s.sndNxt) (hc : r.clock now) (hacc : r.accepts s.toOutgoing ack w) :
    Acks r s { s with toOutgoing := s.toOutgoing.acked ack w now } true := by
  have hstep : SendStep r s.toOutgoing (s.toOutgoing.acked ack w now) := .ack _ _ _ _ h₁ h₂ hc hacc
  refine ⟨⟨.single hstep, fun hr => ⟨(hg hr).accounts.step hr hstep, fun hc hd => ?_,
    fun hl => ?_⟩, rfl, rfl, rfl⟩, rfl, rfl, rfl, rfl⟩
  · exact ((hg hr).recover hc hd).step (hg hr).accounts.toLengths hstep
  · -- nothing is in flight in TCP_LISTEN
    have hflight := (hg hr).accounts.inFlight
    rw [((hg hr).listen hl).1, sentBytes_nil] at hflight
    bv_omega

variable {seg : Segment}

theorem processNewAck_acks (hv : Serves r env s) (hg : r.strict → Good s)
    (hopen : s.state ≠ .closed) (hc : r.clock now)
    (h₁ : s.sndUna < seg.ack) (h₂ : seg.ack ≤ s.sndNxt)
    (hacc : ∀ L, r.accepts { s.toOutgoing with log := L } seg.ack (s.scaledWnd seg)) :
    Acks r s (s.processNewAck env now seg).1 (s.processNewAck env now seg).2 := by
  unfold processNewAck
  obtain ⟨hrtt, L, hL⟩ := updateRtt_sends (r := r) (s := s) now seg
  have ha₁ := hrtt.acks hg
  have hwnd : (s.updateRtt now seg).scaledWnd seg = s.scaledWnd seg := by
    unfold scaledWnd
    rw [hrtt.swndScale]
  generalize s.updateRtt now seg = s₁ at hrtt hL ha₁ hwnd ⊢
  simp only [hwnd]
  have hnxt : s₁.sndNxt = s.sndNxt := by rw [hL]
  have ha₂ : Acks r s₁ _ true := acked_acks (w := s.scaledWnd seg) ha₁.good
    (by rw [hrtt.sndUna]; exact h₁) (by rw [hnxt]; exact h₂) hc (by rw [hL]; exact hacc L)
  refine (ha₁.trans ha₂).trans (congestionAck_acks ?_ ha₂.good ?_ ?_ hc _)
  · exact ⟨(hv.same hrtt.toSame).header, hv.clock⟩
  · rw [ha₂.state]
    exact hrtt.state ▸ hopen
  · show seg.ack ≤ s₁.sndNxt
    rw [hnxt]
    exact h₂

theorem countDupAck_acks (hv : Serves r env s) (hg : r.strict → Good s)
    (hne : s.sndUna ≠ s.sndNxt) (hc : r.clock now) :
    Acks r s (s.countDupAck env now).1 (s.countDupAck env now).2 := by
  unfold countDupAck
  simp only
  split
  · -- the third duplicate: m_recover is set once the retransmission is out
    have hre := retransmit_sends (s := { s with dupAcks := s.dupAcks + 1 }) (r := r)
      ⟨hv.header, hv.clock⟩ (fun hr => (hg hr).accounts) (fun _ => hne) hc
    generalize ({ s with dupAcks := s.dupAcks + 1 }).retransmit env now = q at hre ⊢
    obtain ⟨s₁, ok⟩ := q
    have hsteps : SendSteps r s.toOutgoing s₁.toOutgoing := hre.steps
    cases ok with
    | false =>
      have hn : SendSteps r s₁.toOutgoing (s₁.closedown .econnaborted).toOutgoing :=
        .single (.note _ _ fun _ => rfl)
      refine ⟨⟨hsteps.trans hn, fun hr => ?_, hre.conv, hre.shutdown, hre.supportWndScale⟩,
        hre.inc, hre.swndScale, hre.queued, rfl⟩
      refine ⟨(hg hr).accounts.steps hr (hsteps.trans hn), fun hcl => ?_, fun hl => ?_⟩
      · exact absurd rfl hcl
      · exact absurd hl (by simp [closedown, note])
    | true =>
      refine ⟨⟨hsteps, fun hr => ?_, hre.conv, hre.shutdown, hre.supportWndScale⟩,
        hre.inc, hre.swndScale, hre.queued, hre.state⟩
      refine ⟨(hg hr).accounts.steps hr hsteps, fun _ _ _ => BitVec.le_refl _, fun hl => ?_⟩
      have h := (hg hr).listen (hre.state.symm.trans hl)
      exact ⟨hre.empty h.1, hre.queued.trans h.2.1, hre.sbuf ▸ h.2.2⟩
  split
  · rename_i hgt
    refine recovery_acks hg rfl rfl ⟨rfl, rfl, rfl, rfl, rfl⟩ ?_
    intro hr hcl _
    exact (hg hr).recover hcl (by bv_omega)
  · rename_i hne3 hgt
    refine recovery_acks hg rfl rfl ⟨rfl, rfl, rfl, rfl, rfl⟩ ?_
    intro hr hcl h
    simp only at h
    exact absurd h (by bv_omega)

theorem processDupAck_acks (hv : Serves r env s) (hg : r.strict → Good s) (hc : r.clock now)
    (hacc : r.accepts s.toOutgoing s.sndUna (s.scaledWnd seg)) :
    Acks r s (s.processDupAck env now seg).1 (s.processDupAck env now seg).2 := by
  have hstep : SendStep r s.toOutgoing { s.toOutgoing with sndWnd := s.scaledWnd seg } :=
    .window _ _ hacc
  have hg₁ : r.strict → Good { s with sndWnd := s.scaledWnd seg } := by
    intro hr
    refine ⟨(hg hr).accounts.step hr hstep, fun hc hd => ?_, fun hl => (hg hr).listen hl⟩
    exact ((hg hr).recover hc hd).step (hg hr).accounts.toLengths hstep
  have ha₁ : Acks r s { s with sndWnd := s.scaledWnd seg } true :=
    ⟨⟨.single hstep, hg₁, rfl, rfl, rfl⟩, rfl, rfl, rfl, rfl⟩
  unfold processDupAck
  simp only
  split
  · exact ha₁
  split
  · rename_i hne
    exact ha₁.trans (countDupAck_acks (s := { s with sndWnd := s.scaledWnd seg })
      ⟨hv.header, hv.clock⟩ hg₁ hne hc)
  · refine ha₁.trans (recovery_acks hg₁ rfl rfl ⟨rfl, rfl, rfl, rfl, rfl⟩ ?_)
    intro _ _ h
    exact absurd h (show ¬ (0 : U8) ≥ 3 by decide)

theorem processAck_acks (hv : Serves r env s) (hg : r.strict → Good s)
    (hopen : s.state ≠ .closed) (hc : r.clock now)
    (hacc : s.sndUna < seg.ack ∧ seg.ack ≤ s.sndNxt ∨ seg.ack = s.sndUna →
      ∀ L, r.accepts { s.toOutgoing with log := L } seg.ack (s.scaledWnd seg)) :
    Acks r s (s.processAck env now seg).1 (s.processAck env now seg).2 := by
  unfold processAck
  split
  · rename_i h
    exact processNewAck_acks hv hg hopen hc h.1 h.2 (hacc (Or.inl h))
  split
  · rename_i h
    refine processDupAck_acks hv hg hc ?_
    rw [← h]
    exact hacc (Or.inr h) s.log
  · exact (Sends.refl s).acks hg

theorem processAck_inc (env : Env) (hopen : s.state ≠ .closed) (now : U32) (seg : Segment) :
    (s.processAck env now seg).1.toIncoming = s.toIncoming :=
  (processAck_acks (r := anyRely) (show Serves anyRely env s from ⟨trivial, fun _ => trivial⟩)
    False.elim hopen trivial fun _ _ => trivial).inc

/-! ## `process` -/

theorem updateTimestamp_sends (seg : Segment) :
    Sends r s (s.updateTimestamp seg) ∧ (s.updateTimestamp seg).toOutgoing = s.toOutgoing := by
  unfold updateTimestamp
  split
  · exact ⟨⟨⟨rfl, id, id⟩, .refl⟩, rfl⟩
  · exact ⟨Sends.refl s, rfl⟩

theorem enterEstablished_moves (hg : r.strict → Good s) (bConnect : Bool) :
    Moves r s (s.enterEstablished bConnect) ∧
      (s.enterEstablished bConnect).toIncoming = s.toIncoming ∧
      (s.enterEstablished bConnect).swndScale = s.swndScale ∧
      (s.enterEstablished bConnect).queued = s.queued ∧
      ((s.enterEstablished bConnect).state = s.state ∨
        s.state = .synReceived ∧ (s.enterEstablished bConnect).state = .established) := by
  unfold enterEstablished
  split
  · rename_i h
    have hn : SendSteps r s.toOutgoing (s.toOutgoing.note .onTcpOpen) :=
      .single (.note _ _ fun _ => rfl)
    refine ⟨⟨hn, fun hr => ⟨(hg hr).accounts.steps hr hn, fun _ hd => ?_, fun hl => ?_⟩, rfl, rfl,
      rfl⟩, rfl, rfl, rfl, Or.inr ⟨h.1, rfl⟩⟩
    · exact ((hg hr).recover (by rw [h.1]; decide) hd).steps (hg hr).accounts.toLengths hn
    · exact absurd hl (by simp [note, adjustMTU])
  · exact ⟨Moves.refl hg, rfl, rfl, rfl, Or.inl rfl⟩

theorem notifyWriteable_sends : Sends r s s.notifyWriteable := by
  unfold notifyWriteable
  simp only
  split
  · exact ⟨⟨rfl, id, id⟩,
      .single (.note _ _ fun _ => rfl)⟩
  · exact Sends.refl s

theorem notifyReadable_sends (bNewData : Bool) : Sends r s (s.notifyReadable bNewData) := by
  unfold notifyReadable
  split
  · exact ⟨⟨rfl, id, id⟩,
      .single (.note _ _ fun _ => rfl)⟩
  · exact Sends.refl s

theorem receive_inc (i : Incoming) (bIgnoreData : Bool) (seg : Segment) (f g : SendFlags) :
    (i.receive bIgnoreData seg f).inc = (i.receive bIgnoreData seg g).inc := by
  unfold Incoming.receive Incoming.store
  simp only
  split
  · rfl
  split
  · rfl
  split <;> rfl

theorem processData_moves (hg : r.strict → Good s) (hclk : ∀ i, r.clock (env.now i))
    (hh : r.header s.conv (s.toIncoming.receive (s.ignoresData seg) seg .none).inc.rcvNxt
      (s.toIncoming.receive (s.ignoresData seg) seg .none).inc.advertised) :
    Moves r s (s.processData env seg) ∧
      (s.processData env seg).toIncoming =
        (s.toIncoming.receive (s.ignoresData seg) seg .none).inc ∧
      ((s.processData env seg).swndScale = s.swndScale ∧
        (s.processData env seg).queued = s.queued ∧ (s.processData env seg).state = s.state) := by
  have hinc := receive_inc s.toIncoming (s.ignoresData seg) seg (s.ackFlags seg) .none
  unfold processData
  simp only
  generalize s.toIncoming.receive (s.ignoresData seg) seg (s.ackFlags seg) = q at hinc ⊢
  rw [← hinc] at hh ⊢
  have hg₁ : r.strict → Good { s with toIncoming := q.inc } := fun hr =>
    ⟨(hg hr).accounts, (hg hr).recover, (hg hr).listen⟩
  have hsend := (attemptSend_sends (r := r) (s := { s with toIncoming := q.inc })
    ⟨hh, hclk⟩ (fun hr => (hg hr).accounts) q.sflags).trans (notifyReadable_sends q.newData)
  have hm : Moves r s { s with toIncoming := q.inc } := ⟨.refl, hg₁, rfl, rfl, rfl⟩
  exact ⟨hm.trans (hsend.moves hg₁), hsend.inc, hsend.swndScale, hsend.queued, hsend.state⟩

/-- The state of `process` behind its control data. -/
def controlled (env : Env) (s : PseudoTcp) (seg : Segment) : PseudoTcp :=
  ((s.arrive env).processControl env seg).1

/-- `process` does not reject the segment: it is of this conversation, which is open, no reset,
and its control data, if any, is a CONNECT message. -/
def Admits (s : PseudoTcp) (seg : Segment) : Prop :=
  seg.conv = s.conv ∧ s.state ≠ .closed ∧ seg.flags &&& flagRst = 0 ∧
    (seg.flags &&& flagCtl = 0 ∨ seg.len ≠ 0 ∧ seg.data 0 = ctlConnect)

theorem processControl_none
    (h : ¬ (seg.flags &&& flagCtl = 0 ∨ seg.len ≠ 0 ∧ seg.data 0 = ctlConnect)) :
    s.processControl env seg = (s, none) := by
  rw [not_or] at h
  unfold processControl
  rw [if_neg h.1]
  by_cases hl : seg.len = 0
  · rw [if_pos hl]
  · rw [if_neg hl, if_neg fun hd => h.2 ⟨hl, hd⟩]

theorem processControl_some (env : Env)
    (h : seg.flags &&& flagCtl = 0 ∨ seg.len ≠ 0 ∧ seg.data 0 = ctlConnect) :
    ∃ bConnect, (s.processControl env seg).2 = some bConnect := by
  unfold processControl
  rcases h with h0 | ⟨hlen, hdata⟩
  · rw [if_pos h0]
    exact ⟨false, rfl⟩
  · split
    · exact ⟨false, rfl⟩
    simp only
    split
    · exact ⟨true, rfl⟩
    split
    · exact ⟨true, rfl⟩
    · exact ⟨true, rfl⟩

/-- What `process` counts on. -/
structure Meets (r : Rely) (env : Env) (s : PseudoTcp) (seg : Segment) : Prop where
  clock : ∀ i, r.clock (env.now i)
  /-- The headers of a retransmission. -/
  before : r.header s.conv (s.controlled env seg).rcvNxt
    (s.controlled env seg).toIncoming.advertised
  /-- The headers of what is sent once the segment is stored. -/
  after : (s.process env seg).2 = true → r.header s.conv
    ((s.controlled env seg).toIncoming.receive (s.ignoresData seg) seg .none).inc.rcvNxt
    ((s.controlled env seg).toIncoming.receive (s.ignoresData seg) seg .none).inc.advertised
  greets : Greets r s
  /-- The acknowledgement it takes. -/
  accepts : Admits s seg →
    (s.controlled env seg).sndUna < seg.ack ∧ seg.ack ≤ (s.controlled env seg).sndNxt ∨
      seg.ack = (s.controlled env seg).sndUna →
    ∀ L, r.accepts { (s.controlled env seg).toOutgoing with log := L } seg.ack
      ((s.controlled env seg).scaledWnd seg)

theorem meets_anyRely (env : Env) (s : PseudoTcp) (seg : Segment) : Meets anyRely env s seg :=
  ⟨fun _ => trivial, trivial, fun _ => trivial, fun _ => trivial, fun _ _ _ => trivial⟩

theorem controlled_moves (env : Env) (hg : r.strict → Good s) (hn : Greets r s) (seg : Segment) :
    Moves r s (s.controlled env seg) := by
  have h₁ : Moves r s (s.arrive env) :=
    ⟨.refl, fun hr => ⟨(hg hr).accounts, (hg hr).recover, (hg hr).listen⟩, rfl, rfl, rfl⟩
  exact h₁.trans (processControl_moves h₁.good hn seg)

theorem controlled_sndNxt (env : Env) (s : PseudoTcp) (seg : Segment) :
    (s.controlled env seg).sndUna = s.sndUna ∧ (s.controlled env seg).sndNxt = s.sndNxt := by
  have hc : Controls (s.arrive env) (s.controlled env seg) := processControl_controls env _ seg
  cases hc with
  | keeps L out state =>
    rw [out]
    exact ⟨rfl, rfl⟩
  | answers L listen state out =>
    rw [out]
    exact ⟨rfl, rfl⟩

/-- What `process` does to the incoming data: nothing, what its control data does, or storing the
segment behind that, when it returns `true`. -/
inductive Stores (env : Env) (s : PseudoTcp) (seg : Segment) : Bool → Incoming → Prop
  | rejected : Stores env s seg false s.toIncoming
  | controlled (h : Admits s seg) : Stores env s seg false (s.controlled env seg).toIncoming
  | stored (h : Admits s seg) : Stores env s seg true
      ((s.controlled env seg).toIncoming.receive (s.ignoresData seg) seg .none).inc

/-- `process` from the timestamp on took `s` to `s'`; `ok` is what it returned. -/
structure Acknowledges (r : Rely) (s : PseudoTcp) (seg : Segment) (s' : PseudoTcp) (ok : Bool) :
    Prop extends Moves r s s' where
  inc : s'.toIncoming =
    if ok then (s.toIncoming.receive (s.ignoresData seg) seg .none).inc else s.toIncoming
  swndScale : s'.swndScale = s.swndScale
  queued : s'.queued = s.queued
  state : s'.state = s.state ∨ s'.state = .closed ∨
    s.state = .synReceived ∧ s'.state = .established

theorem acknowledge_acknowledges (hv : Serves r env s) (hg : r.strict → Good s)
    (hopen : s.state ≠ .closed) (hc : r.clock now) (bConnect : Bool)
    (hacc : s.sndUna < seg.ack ∧ seg.ack ≤ s.sndNxt ∨ seg.ack = s.sndUna →
      ∀ L, r.accepts { s.toOutgoing with log := L } seg.ack (s.scaledWnd seg))
    (hh : (s.acknowledge env now bConnect seg).2 = true →
      r.header s.conv (s.toIncoming.receive (s.ignoresData seg) seg .none).inc.rcvNxt
        (s.toIncoming.receive (s.ignoresData seg) seg .none).inc.advertised) :
    Acknowledges r s seg (s.acknowledge env now bConnect seg).1
      (s.acknowledge env now bConnect seg).2 := by
  have hts := updateTimestamp_sends (r := r) (s := s) seg
  have hack := (hts.1.acks hg).trans (processAck_acks (hv.same hts.1.toSame)
    (hts.1.moves hg).good (hts.1.state ▸ hopen) hc (by
      rw [hts.2]
      unfold scaledWnd at hacc ⊢
      rw [hts.1.swndScale]
      exact hacc))
  unfold acknowledge at hh ⊢
  generalize (s.updateTimestamp seg).processAck env now seg = q at hack hh ⊢
  obtain ⟨s₂, ok⟩ := q
  cases ok with
  | false => exact ⟨hack.toMoves, hack.inc, hack.swndScale, hack.queued, Or.inr (Or.inl hack.state)⟩
  | true =>
    obtain ⟨he, heinc, hescale, hequeued, hestate⟩ :=
      enterEstablished_moves (r := r) hack.good bConnect
    have hw := notifyWriteable_sends (r := r) (s := s₂.enterEstablished bConnect)
    have hm := (hack.toMoves.trans he).trans (hw.moves he.good)
    have hinc : ((s₂.enterEstablished bConnect).notifyWriteable).toIncoming = s.toIncoming := by
      rw [hw.inc, heinc, hack.inc]
    have hign : ((s₂.enterEstablished bConnect).notifyWriteable).ignoresData seg =
        s.ignoresData seg := by
      unfold ignoresData
      rw [hm.shutdown]
    have hhead := hh rfl
    rw [← hm.conv, ← hinc, ← hign] at hhead
    obtain ⟨hd, hdinc, hdscale, hdqueued, hdstate⟩ := processData_moves hm.good hv.clock hhead
    dsimp only
    refine ⟨hm.trans hd, ?_, ?_, ?_, ?_⟩
    · rw [hdinc, hinc, hign]
      rfl
    · rw [hdscale, hw.swndScale, hescale, hack.swndScale]
    · rw [hdqueued, hw.queued, hequeued, hack.queued]
    · rw [hdstate, hw.state]
      rcases hestate with h | ⟨h, h'⟩
      · exact Or.inl (h.trans hack.state)
      · exact Or.inr (Or.inr ⟨hack.state.symm.trans h, h'⟩)

/-- `process` rejects a segment, or takes it on from its timestamp. -/
theorem process_cases (env : Env) (s : PseudoTcp) (seg : Segment) :
    (Admits s seg ∧ ∃ bConnect, s.process env seg =
      (s.controlled env seg).acknowledge env (env.now s.ticks) bConnect seg) ∨
    (¬ Admits s seg ∧ (s.process env seg).2 = false ∧ ((s.process env seg).1 = s ∨
      (s.process env seg).1 = s.arrive env ∨ seg.flags &&& flagRst ≠ 0 ∧
        (s.process env seg).1 = (s.arrive env).closedown .econnreset)) := by
  unfold process
  by_cases hconv : seg.conv ≠ s.conv
  · rw [if_pos hconv]
    exact Or.inr ⟨fun h => hconv h.1, rfl, Or.inl rfl⟩
  rw [if_neg hconv]
  simp only
  by_cases hopen : (s.arrive env).state = .closed
  · rw [if_pos hopen]
    exact Or.inr ⟨fun h => h.2.1 hopen, rfl, Or.inr (Or.inl rfl)⟩
  rw [if_neg hopen]
  by_cases hrst : seg.flags &&& flagRst ≠ 0
  · rw [if_pos hrst]
    exact Or.inr ⟨fun h => hrst h.2.2.1, rfl, Or.inr (Or.inr ⟨hrst, rfl⟩)⟩
  rw [if_neg hrst]
  by_cases hctrl : seg.flags &&& flagCtl = 0 ∨ seg.len ≠ 0 ∧ seg.data 0 = ctlConnect
  · left
    refine ⟨⟨by simpa using hconv, hopen, by simpa using hrst, hctrl⟩, ?_⟩
    obtain ⟨bConnect, hb⟩ := processControl_some env (s := s.arrive env) hctrl
    refine ⟨bConnect, ?_⟩
    unfold controlled
    generalize (s.arrive env).processControl env seg = q at hb ⊢
    obtain ⟨s₁, bc⟩ := q
    obtain rfl := hb
    rfl
  · rw [processControl_none hctrl]
    exact Or.inr ⟨fun h => hctrl h.2.2.2, rfl, Or.inr (Or.inl rfl)⟩

theorem process_admitted (env : Env) (h : Admits s seg) : ∃ bConnect, s.process env seg =
      (s.controlled env seg).acknowledge env (env.now s.ticks) bConnect seg :=
  (process_cases env s seg).elim And.right fun h' => absurd h h'.1

theorem process_moves (hg : r.strict → Good s) (hm : Meets r env s seg) :
    Moves r s (s.process env seg).1 ∧
      Stores env s seg (s.process env seg).2 (s.process env seg).1.toIncoming := by
  rcases process_cases env s seg with ⟨hadm, bConnect, he⟩ | ⟨-, hf, he⟩
  · have hc := controlled_moves env hg hm.greets seg
    have hopen := (processControl_controls env (s.arrive env) seg).opened hadm.2.1
    have hign : (s.controlled env seg).ignoresData seg = s.ignoresData seg := by
      unfold ignoresData
      rw [hc.shutdown]
    have hack : Acknowledges r (s.controlled env seg) seg
        ((s.controlled env seg).acknowledge env (env.now s.ticks) bConnect seg).1
        ((s.controlled env seg).acknowledge env (env.now s.ticks) bConnect seg).2 :=
      acknowledge_acknowledges ⟨hc.conv ▸ hm.before, hm.clock⟩ hc.good hopen (hm.clock _) bConnect
        (hm.accepts hadm) (by rw [← he, hc.conv, hign]; exact hm.after)
    have hinc := hack.inc
    rw [← he] at hack hinc
    refine ⟨hc.trans hack.toMoves, ?_⟩
    rw [hinc, hign]
    cases (s.process env seg).2 with
    | false => exact .controlled hadm
    | true => exact .stored hadm
  · rw [hf]
    have harr : Moves r s (s.arrive env) :=
      ⟨.refl, fun hr => ⟨(hg hr).accounts, (hg hr).recover, (hg hr).listen⟩, rfl, rfl, rfl⟩
    rcases he with he | he | ⟨-, he⟩
    · rw [he]
      exact ⟨Moves.refl hg, .rejected⟩
    · rw [he]
      exact ⟨harr, .rejected⟩
    · rw [he]
      exact ⟨harr.trans (closedown_acks harr.good _).toMoves, .rejected⟩

/-! ## The public calls -/

theorem connect_moves (hv : Serves r env s) (hg : r.strict → Good s) (hn : Greets r s) :
    Moves r s (s.connect env).1 ∧ (s.connect env).1.toIncoming = s.toIncoming := by
  unfold connect
  split
  · exact ⟨⟨.refl, fun hr => ⟨(hg hr).accounts, (hg hr).recover, (hg hr).listen⟩, rfl, rfl, rfl⟩,
      rfl⟩
  · rename_i hl
    have hlisten : s.state = .listen := by simpa using hl
    have hq : SendSteps r s.toOutgoing
        { s with state := .synSent }.queueConnectMessage.toOutgoing :=
      queueConnectMessage_steps (s := { s with state := .synSent }) (hn hlisten)
        fun hr => ⟨(hg hr).accounts, (hg hr).listen hlisten⟩
    have hm : Moves r s { s with state := .synSent }.queueConnectMessage := by
      refine ⟨hq, fun hr => ⟨(hg hr).accounts.steps hr hq, fun _ hd => ?_, fun h => ?_⟩, rfl, rfl,
        rfl⟩
      · exact ((hg hr).recover (by rw [hlisten]; decide) hd).steps (hg hr).accounts.toLengths hq
      · exact absurd h (by simp [queueConnectMessage])
    have hs := attemptSend_sends (r := r)
      (s := { s with state := .synSent }.queueConnectMessage) ⟨hv.header, hv.clock⟩
      (fun hr => (hm.good hr).accounts) .none
    exact ⟨hm.trans (hs.moves hm.good), hs.inc⟩

theorem send_moves (hv : Serves r env s) (hg : r.strict → Good s) (buffer : Nat → U8) (len : Nat)
    (hn : s.state = .established → r.queues s.queued (BitVec.ofNat 32 len) false) :
    Moves r s (s.send env buffer len).1 ∧ (s.send env buffer len).1.toIncoming = s.toIncoming := by
  unfold send
  split
  · exact ⟨⟨.refl, fun hr => ⟨(hg hr).accounts, (hg hr).recover, (hg hr).listen⟩, rfl, rfl, rfl⟩,
      rfl⟩
  rename_i hest
  split
  · exact ⟨⟨.refl, fun hr => ⟨(hg hr).accounts, (hg hr).recover, (hg hr).listen⟩, rfl, rfl, rfl⟩,
      rfl⟩
  have hest' : s.state = .established := by simpa using hest
  have hq : SendSteps r s.toOutgoing (s.queue buffer (BitVec.ofNat 32 len) false).1.toOutgoing :=
    .single (.queue _ _ _ _ (hn hest') fun _ h => absurd h (by decide))
  have hm : Moves r s (s.queue buffer (BitVec.ofNat 32 len) false).1 := by
    refine ⟨hq, fun hr => ⟨(hg hr).accounts.steps hr hq, fun hc hd => ?_, fun h => ?_⟩, rfl, rfl,
      rfl⟩
    · exact ((hg hr).recover hc hd).steps (hg hr).accounts.toLengths hq
    · exact absurd (hest'.symm.trans h) (by decide)
  have hs := attemptSend_sends (r := r)
    (s := (s.queue buffer (BitVec.ofNat 32 len) false).1) ⟨hv.header, hv.clock⟩
    (fun hr => (hm.good hr).accounts) .none
  exact ⟨hm.trans (hs.moves hm.good), hs.inc⟩

theorem notifyMTU_moves (hg : r.strict → Good s) (mtu : U16) :
    Moves r s (s.notifyMTU mtu) ∧ (s.notifyMTU mtu).toIncoming = s.toIncoming ∧
      Keeps s (s.notifyMTU mtu) := by
  unfold notifyMTU
  simp only
  split <;>
    exact ⟨⟨.refl, fun hr => ⟨(hg hr).accounts, (hg hr).recover, (hg hr).listen⟩, rfl, rfl, rfl⟩,
      rfl, rfl, rfl, Or.inl rfl⟩

theorem checkRetransmit_acks (hv : Serves r env s) (hg : r.strict → Good s) (hc : r.clock now) :
    Acks r s (s.checkRetransmit env now).1 (s.checkRetransmit env now).2 := by
  unfold checkRetransmit
  split
  · rename_i h
    have hne : r.strict → s.sndUna ≠ s.sndNxt := fun hr => (hg hr).accounts.timer h.1
    split
    · rename_i hnil
      refine Sends.acks ⟨⟨rfl, id, id⟩,
        .single (.note _ _ fun hr => ?_)⟩ hg
      obtain ⟨front, rest, hfr, -⟩ := (hg hr).accounts.toLengths.front_sent (hne hr)
      rw [hnil] at hfr
      exact absurd hfr (by simp)
    · have hre := retransmit_sends hv (fun hr => (hg hr).accounts) hne hc
      generalize s.retransmit env now = q at hre ⊢
      obtain ⟨s₁, ok⟩ := q
      have ha := hre.acks hg
      cases ok with
      | false => exact ha.trans (closedown_acks ha.good _)
      | true =>
        have hstep : SendStep r s₁.toOutgoing { s₁.toOutgoing with rtoBase := now } :=
          .timer _ _ (hre.rtoBase h.1) hc
        refine ha.trans ⟨⟨.single hstep, fun hr => ?_, rfl, rfl, rfl⟩, rfl, rfl, rfl, rfl⟩
        have hg₁ := ha.good hr
        refine ⟨hg₁.accounts.step hr hstep, fun hcl hd => ?_, hg₁.listen⟩
        exact (hg₁.recover hcl hd).step hg₁.accounts.toLengths hstep
  · exact (Sends.refl s).acks hg

theorem checkProbe_acks (hv : Serves r env s) (hg : r.strict → Good s) (now : U32) :
    Acks r s (s.checkProbe env now).1 (s.checkProbe env now).2 := by
  unfold checkProbe
  split
  · split
    · exact closedown_acks hg _
    · have hp := packet_ack_sends hv (s.sndNxt - 1)
      generalize (s.packet env (s.sndNxt - 1) 0 0 0).1 = s₁ at hp ⊢
      have hs : Sends r s₁ { s₁ with lastsend := now, rxRto := umin maxRto (s₁.rxRto * 2) } :=
        ⟨⟨rfl, id, id⟩, .refl⟩
      exact (hp.trans hs).acks hg
  · exact (Sends.refl s).acks hg

theorem checkDelayedAck_sends (hv : Serves r env s) (now : U32) :
    Sends r s (s.checkDelayedAck env now) := by
  unfold checkDelayedAck
  split
  · exact packet_ack_sends hv s.sndNxt
  · exact Sends.refl s

theorem notifyClock_moves (hv : Serves r env s) (hg : r.strict → Good s) (hc : r.clock now) :
    Moves r s (s.notifyClock env now) ∧ (s.notifyClock env now).toIncoming = s.toIncoming ∧
      Keeps s (s.notifyClock env now) := by
  unfold notifyClock
  split
  · exact ⟨Moves.refl hg, rfl, Keeps.refl s⟩
  have ha := checkRetransmit_acks hv hg hc
  generalize s.checkRetransmit env now = q at ha ⊢
  obtain ⟨s₁, ok⟩ := q
  cases ok with
  | false => exact ⟨ha.toMoves, ha.inc, ha.keeps⟩
  | true =>
    have hv₁ : Serves r env s₁ := by
      refine ⟨?_, hv.clock⟩
      have := hv.header
      rw [← ha.inc, ← ha.conv] at this
      exact this
    have hb := checkProbe_acks hv₁ ha.good now
    simp only
    generalize s₁.checkProbe env now = q₂ at hb ⊢
    obtain ⟨s₂, ok⟩ := q₂
    have hab := ha.trans hb
    cases ok with
    | false => exact ⟨hab.toMoves, hab.inc, hab.keeps⟩
    | true =>
      have hv₂ : Serves r env s₂ := by
        refine ⟨?_, hv.clock⟩
        have := hv.header
        rw [← hab.inc, ← hab.conv] at this
        exact this
      have hd := hab.trans ((checkDelayedAck_sends hv₂ now).acks hab.good)
      exact ⟨hd.toMoves, hd.inc, hd.keeps⟩

theorem setOption_moves (env : Env) (hg : r.strict → Good s) (opt : TcpOption) (value : U32)
    (hopt : r.strict → opt = .sndBuf → s.state = .listen → 4 ≤ value.toNat) :
    Moves r s (s.setOption env opt value) := by
  cases opt with
  | noDelay =>
    exact ⟨.refl, fun hr => ⟨(hg hr).accounts, (hg hr).recover, (hg hr).listen⟩, rfl, rfl, rfl⟩
  | ackDelay =>
    exact ⟨.refl, fun hr => ⟨(hg hr).accounts, (hg hr).recover, (hg hr).listen⟩, rfl, rfl, rfl⟩
  | rcvBuf =>
    have hn : SendSteps r s.toOutgoing (s.setOption env .rcvBuf value).toOutgoing :=
      (assert_steps _ _ rfl).trans (assert_steps _ _ rfl)
    refine ⟨hn, fun hr => ⟨(hg hr).accounts.steps hr hn, fun hc hd => ?_, (hg hr).listen⟩, rfl,
      rfl, rfl⟩
    exact ((hg hr).recover hc hd).steps (hg hr).accounts.toLengths hn
  | sndBuf =>
    have hn : SendSteps r s.toOutgoing (s.setOption env .sndBuf value).toOutgoing :=
      (assert_steps _ _ rfl).tail (.resize _ env.mem value.toNat value.isLt)
    refine ⟨hn, fun hr => ⟨(hg hr).accounts.steps hr hn, fun hc hd => ?_, fun hl => ?_⟩, rfl, rfl,
      rfl⟩
    · exact ((hg hr).recover hc hd).steps (hg hr).accounts.toLengths hn
    · obtain ⟨hnil, hq, -⟩ := (hg hr).listen hl
      refine ⟨hnil, hq, ?_⟩
      have htotal := (hg hr).accounts.total
      rw [hnil, bytes_nil] at htotal
      obtain ⟨-, -, -, hcap⟩ := FifoBuffer.setCapacity_spec s.sbuf env.mem value.isLt
      rw [if_pos (by omega)] at hcap
      have := hopt hr rfl hl
      show 4 ≤ (s.sbuf.setCapacity env.mem value.toNat value.isLt).2.bufferLength
      omega

/-- What `Recv` returns and does to the incoming data: nothing when there is nothing to read, else
it takes bytes off the buffer and may open the window. -/
inductive Reads (s : PseudoTcp) (len : Nat) : Incoming → Option (List U8) → Prop
  | nothing (h : s.state ≠ .established ∨ s.rbuf.dataLength = 0) :
      Reads s len s.toIncoming none
  | bytes (b : FifoBuffer (2 ^ 32)) (h : s.state = .established) (hd : 0 < s.rbuf.dataLength)
      (hb : s.rbuf.consumeReadData (min len s.rbuf.dataLength) = some b) :
      Reads s len (reopen { s.toIncoming with rbuf := b } s.mss)
        (some (fetch s.rbuf.peek (min len s.rbuf.dataLength)))

theorem Reads.inc_unique {len : Nat} {i j : Incoming} {out out' : Option (List U8)}
    (h : Reads s len i out) (h' : Reads s len j out') : i = j := by
  cases h with
  | nothing h =>
    cases h' with
    | nothing _ => rfl
    | bytes b he hd _ => exact absurd h (not_or.mpr ⟨not_not_intro he, by omega⟩)
  | bytes b he hd hb =>
    cases h' with
    | nothing h => exact absurd h (not_or.mpr ⟨not_not_intro he, by omega⟩)
    | bytes b' _ _ hb' =>
      obtain rfl := Option.some.inj (hb.symm.trans hb')
      rfl

theorem recv_moves (env : Env) (hg : r.strict → Good s) (hclk : ∀ i, r.clock (env.now i))
    (len : Nat)
    (ho : s.rbuf.state = .opened)
    (hh : ∀ i out, Reads s len i out → r.header s.conv i.rcvNxt i.advertised) :
    Moves r s (s.recv env len).1 ∧
      Reads s len (s.recv env len).1.toIncoming (s.recv env len).2 ∧
        Keeps s (s.recv env len).1 := by
  unfold recv
  split
  · rename_i hest
    exact ⟨⟨.refl, fun hr => ⟨(hg hr).accounts, (hg hr).recover, (hg hr).listen⟩, rfl, rfl, rfl⟩,
      .nothing (Or.inl hest), rfl, rfl, Or.inl rfl⟩
  rename_i hest
  have hest' : s.state = .established := by simpa using hest
  rcases Nat.eq_zero_or_pos s.rbuf.dataLength with h0 | hpos
  · rw [FifoBuffer.read_block len h0, ho]
    exact ⟨⟨.refl, fun hr => ⟨(hg hr).accounts, (hg hr).recover, (hg hr).listen⟩, rfl, rfl, rfl⟩,
      .nothing (Or.inr h0), rfl, rfl, Or.inl rfl⟩
  · obtain ⟨b, hread, hb⟩ := FifoBuffer.read_success len hpos
    have hr' := Reads.bytes b hest' hpos hb
    rw [hread]
    have hm : Moves r s { s.assert true .recvRead with
        toIncoming := reopen { s.toIncoming with rbuf := b } s.mss } :=
      ⟨assert_steps _ _ rfl, fun hr => ⟨(hg hr).accounts, (hg hr).recover, (hg hr).listen⟩,
        rfl, rfl, rfl⟩
    simp only [decide_true]
    split
    · have hs := attemptSend_sends (r := r) (s := { s.assert true .recvRead with
        toIncoming := reopen { s.toIncoming with rbuf := b } s.mss }) ⟨hh _ _ hr', hclk⟩
        (fun hr => (hm.good hr).accounts) .immediateAck
      refine ⟨hm.trans (hs.moves hm.good), ?_, hs.queued, hs.swndScale, Or.inl hs.state⟩
      rw [hs.inc]
      exact hr'
    · exact ⟨hm, hr', rfl, rfl, Or.inl rfl⟩

/-! ## Runs -/

/-- `NotifyPacket` hands the packet to `process`. -/
def Arrives (buffer : List U8) : Prop := 12 ≤ buffer.length ∧ buffer.length ≤ maxPacket.toNat

/-- What a call does to the incoming data. -/
inductive Takes (env : Env) (s : PseudoTcp) : Call → Incoming → Prop
  | nothing (c : Call) : Takes env s c s.toIncoming
  | packet {buffer : List U8} {ok : Bool} {i : Incoming} (ha : Arrives buffer)
      (h : Stores env s (wire env buffer) ok i) :
      Takes env s (.notifyPacket buffer) i
  | recv {len : Nat} {i : Incoming} {out : Option (List U8)} (h : Reads s len i out) :
      Takes env s (.recv len) i
  | resize (value : U32) :
      Takes env s (.setOption .rcvBuf value) (s.resizeReceiveBuffer env value).toIncoming

theorem call_takes (ho : s.rbuf.state = .opened) (c : Call) :
    Takes env s c (s.call env c).toIncoming := by
  have hv : Serves anyRely env s := ⟨trivial, fun _ => trivial⟩
  cases c with
  | connect =>
    have h : (s.call env .connect).toIncoming = s.toIncoming :=
      (connect_moves hv False.elim fun _ => trivial).2
    exact h ▸ .nothing _
  | send buffer len =>
    have h : (s.call env (.send buffer len)).toIncoming = s.toIncoming :=
      (send_moves hv False.elim buffer len fun _ => trivial).2
    exact h ▸ .nothing _
  | recv len =>
    exact .recv (recv_moves (r := anyRely) env False.elim (fun _ => trivial) len ho
      fun _ _ _ => trivial).2.1
  | close force => exact .nothing _
  | notifyMTU mtu =>
    have h : (s.call env (.notifyMTU mtu)).toIncoming = s.toIncoming :=
      (notifyMTU_moves (r := anyRely) False.elim mtu).2.1
    exact h ▸ .nothing _
  | notifyClock now =>
    have h : (s.call env (.notifyClock now)).toIncoming = s.toIncoming :=
      (notifyClock_moves hv False.elim trivial).2.1
    exact h ▸ .nothing _
  | notifyPacket buffer =>
    unfold call notifyPacket
    simp only
    split
    · exact .nothing _
    rename_i hmax
    unfold parse
    split
    · exact .nothing _
    · rename_i hmin
      exact .packet ⟨by omega, by omega⟩ (process_moves False.elim (meets_anyRely env s _)).2
  | setOption opt value =>
    cases opt with
    | rcvBuf => exact .resize value
    | noDelay => exact .nothing _
    | ackDelay => exact .nothing _
    | sndBuf => exact .nothing _

theorem resizeReceiveBuffer_state (env : Env) (s : PseudoTcp) (size : U32) :
    (s.resizeReceiveBuffer env size).rbuf.state = s.rbuf.state :=
  (FifoBuffer.setCapacity_spec s.rbuf env.mem _).2.2.1

theorem parseOptions_opened (env : Env) (ho : s.rbuf.state = .opened) (data : List U8) :
    (s.parseOptions env data).rbuf.state = .opened := by
  obtain ⟨x, h⟩ | ⟨-, h⟩ := parseOptions_cases env s data
  · rw [h]
    exact ho
  · rw [h]
    exact (resizeReceiveBuffer_state env _ _).trans ho

theorem controlled_opened (env : Env) (ho : s.rbuf.state = .opened) (seg : Segment) :
    (s.controlled env seg).rbuf.state = .opened := by
  unfold controlled processControl
  split
  · exact ho
  split
  · exact ho
  split
  · have h := parseOptions_opened env (s := s.arrive env) ho
      (fetch (fun k => seg.data (1 + k)) (seg.len - 1).toNat)
    simp only
    split
    · exact h
    split
    · exact h
    · exact h
  · exact ho

/-- `m_rbuf` is never closed. -/
theorem Takes.opened {c : Call} {i : Incoming} (h : Takes env s c i)
    (ho : s.rbuf.state = .opened) : i.rbuf.state = .opened := by
  cases h with
  | nothing => exact ho
  | @packet buffer ok i _ h =>
    cases h with
    | rejected => exact ho
    | controlled _ => exact controlled_opened env ho _
    | stored _ =>
      have hc := controlled_opened env ho (wire env buffer)
      have hs := Incoming.receive_shape (s.controlled env (wire env buffer)).toIncoming
        (s.ignoresData (wire env buffer)) (wire env buffer) .none
      exact (congrArg (fun x => x.2.2.1) hs).trans hc
  | recv h =>
    cases h with
    | nothing _ => exact ho
    | bytes b _ _ hb =>
      obtain ⟨-, -, h2, -⟩ := FifoBuffer.consumeReadData_eq_some hb
      unfold reopen
      split <;> exact h2.trans ho
  | resize value => exact (resizeReceiveBuffer_state env s value).trans ho

/-- What a call from `s` counts on, when its headers do not matter. -/
structure Turn (r : Rely) (env : Env) (s : PseudoTcp) (c : Call) : Prop where
  header : ∀ conv ack wnd, r.header conv ack wnd
  clock : ∀ i, r.clock (env.now i)
  now : ∀ t, c = .notifyClock t → r.clock t
  accepts : ∀ buffer, c = .notifyPacket buffer → Arrives buffer →
    Admits s (wire env buffer) → ∀ L,
      r.accepts { (s.controlled env (wire env buffer)).toOutgoing with log := L }
        (wire env buffer).ack ((s.controlled env (wire env buffer)).scaledWnd (wire env buffer))
  queues : ∀ q len bCtrl, r.queues q len bCtrl
  sndBuf : r.strict → ∀ v, c = .setOption .sndBuf v → s.state = .listen → 4 ≤ v.toNat

/-- **Every public call is a sequence of steps**, and keeps the sender's accounting under
`strict`. -/
theorem call_steps (ho : s.rbuf.state = .opened) (hg : r.strict → Good s) {c : Call}
    (ht : Turn r env s c) :
    SendSteps r s.toOutgoing (s.call env c).toOutgoing ∧ (r.strict → Good (s.call env c)) := by
  have hv : Serves r env s := ⟨ht.header _ _ _, ht.clock⟩
  cases c with
  | connect =>
    have h := (connect_moves hv hg fun _ => ht.queues _ _ _).1
    exact ⟨h.steps, h.good⟩
  | send buffer len =>
    have h := (send_moves hv hg buffer len fun _ => ht.queues _ _ _).1
    exact ⟨h.steps, h.good⟩
  | recv len =>
    have h := (recv_moves env hg ht.clock len ho fun i _ _ => ht.header _ _ _).1
    exact ⟨h.steps, h.good⟩
  | close force => exact ⟨.refl, fun hr => ⟨(hg hr).accounts, (hg hr).recover, (hg hr).listen⟩⟩
  | notifyMTU mtu =>
    have h := (notifyMTU_moves hg mtu).1
    exact ⟨h.steps, h.good⟩
  | notifyClock now =>
    have h := (notifyClock_moves hv hg (ht.now now rfl)).1
    exact ⟨h.steps, h.good⟩
  | notifyPacket buffer =>
    unfold call notifyPacket
    simp only
    split
    · exact ⟨.refl, hg⟩
    rename_i hmax
    unfold parse
    split
    · exact ⟨.refl, hg⟩
    · rename_i hmin
      have h := (process_moves hg (show Meets r env s (wire env buffer) from
        ⟨ht.clock, ht.header _ _ _, fun _ => ht.header _ _ _, fun _ => ht.queues _ _ _,
          fun hadm _ L => ht.accepts buffer rfl ⟨by omega, by omega⟩ hadm L⟩)).1
      exact ⟨h.steps, h.good⟩
  | setOption opt value =>
    have h := setOption_moves env hg opt value fun hr hopt hl =>
      ht.sndBuf hr value (by rw [hopt]) hl
    exact ⟨h.steps, h.good⟩

/-- **The invariant rule for the sender.** What a fresh object has and every step under `r` keeps
holds in every state reached by calls that meet `r`. -/
theorem Reach.steps_induct {ok : Env → PseudoTcp → Call → Prop} {P : Outgoing → Prop}
    (hok : ∀ env s c, ok env s c → Turn r env s c)
    (h0 : ∀ conv now rmem smem, P (new conv now rmem smem).toOutgoing)
    (hg0 : r.strict → ∀ conv now rmem smem, Good (new conv now rmem smem))
    (hs : ∀ o o', SendStep r o o' → P o → P o') (hr : Reach ok s) :
    P s.toOutgoing ∧ (r.strict → Good s) := by
  have h : s.rbuf.state = .opened ∧ (r.strict → Good s) ∧ P s.toOutgoing := by
    refine Reach.induct (P := fun s => s.rbuf.state = .opened ∧ (r.strict → Good s) ∧
      P s.toOutgoing)
      (fun conv now rmem smem => ⟨rfl, fun h => hg0 h conv now rmem smem, h0 conv now rmem smem⟩)
      (fun env s c ih hc => ?_) hr
    obtain ⟨ho, hg, hp⟩ := ih
    obtain ⟨hsteps, hgood⟩ := call_steps ho hg (hok env s c hc)
    exact ⟨(call_takes ho c).opened ho, hgood, hsteps.induct hs hp⟩
  exact ⟨h.2.2, h.2.1⟩

theorem good_new (conv now : U32) (rmem smem : Nat → U8) : Good (new conv now rmem smem) where
  accounts :=
    { opened := rfl
      total := rfl
      sentFirst := List.Pairwise.nil
      inFlight := show 0 = ((0 : U32) - 0).toNat by decide
      emptyLast := List.Pairwise.nil
      ctrl := by simp [new]
      timer := fun h => absurd rfl h
      clean := by simp [new] }
  recover _ h := absurd h (show ¬ (0 : U8) ≥ 3 by decide)
  listen _ := ⟨rfl, rfl, show 4 ≤ defaultSndBufSize.toNat by decide⟩

end Libjingle.PseudoTcp
