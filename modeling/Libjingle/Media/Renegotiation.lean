import Libjingle.Media.BaseChannel

/-!
# Renegotiation of a media channel (`SetSrtp_w`, `SetRtcpMux_w`)

Two things that a channel keeps from one round to the next. With DTLS the SRTP filter sees the
offers but not the answers, so it still waits for the answer when the next round starts. And the
RTCP transport is closed when mux is negotiated, while the mux filter is no longer active once there
is another offer.

* **`offers_accepted_iff`**: with DTLS, which runs have all their offers and answers accepted.
* **`rtcp_has_transport_iff`**: in which runs there is always a transport for RTCP.
-/

namespace Libjingle.Media.BaseChannel

open Lib Sdp

/-! ## DTLS keys -/

/-- What installing DTLS keys can change: the SRTP filter may become active. -/
structure Keyed (c c' : BaseChannel) : Prop where
  state : c'.srtpFilter.state = c.srtpFilter.state ∨ c'.srtpFilter.state = .active
  mux : c'.rtcpMuxFilter = c.rtcpMuxFilter
  transport : c'.transportChannel = c.transportChannel
  rtcpTransport : c'.rtcpTransportChannel = c.rtcpTransportChannel

theorem Keyed.refl (c : BaseChannel) : Keyed c c := ⟨.inl rfl, rfl, rfl, rfl⟩

theorem Keyed.trans {a b c : BaseChannel} (h : Keyed a b) (h' : Keyed b c) : Keyed a c := by
  refine ⟨?_, h'.mux.trans h.mux, h'.transport.trans h.transport,
    h'.rtcpTransport.trans h.rtcpTransport⟩
  rcases h'.state with heq | hactive
  · rcases h.state with heq' | hactive
    · exact .inl (heq.trans heq')
    · exact .inr (heq.trans hactive)
  · exact .inr hactive

theorem setRtpParams_state (f : SrtpFilter) (cipher : Text) (sendKey recvKey : List U8)
    (results : SrtpResults) :
    (f.setRtpParams cipher sendKey recvKey results).2.state = f.state ∨
      (f.setRtpParams cipher sendKey recvKey results).2.state = .active := by
  unfold SrtpFilter.setRtpParams
  split
  · exact .inl rfl
  · dsimp only
    split
    · exact .inl rfl
    · split
      · exact .inl rfl
      · exact .inr rfl

theorem setRtcpParams_keyed (c : BaseChannel) (cipher : Text) (sendKey recvKey : List U8)
    (results : SrtpResults) : Keyed c (c.setRtcpParams cipher sendKey recvKey results).2 := by
  unfold setRtcpParams
  split
  · exact Keyed.refl c
  · split
    · exact ⟨.inl rfl, rfl, rfl, rfl⟩
    · dsimp only
      split <;> exact ⟨.inl rfl, rfl, rfl, rfl⟩

theorem setupDtlsSrtp_keyed (c : BaseChannel) (answers : Answers) (channel : TransportChannel)
    (rtcpChannel : Bool) : Keyed c (c.setupDtlsSrtp answers channel rtcpChannel).2 := by
  have hflag : ∀ (c' : BaseChannel) (ret : Bool), Keyed c c' →
      Keyed c (if ret then { c' with dtlsKeyed := true } else c') := by
    intro c' ret h
    cases ret with
    | false => exact h
    | true => exact ⟨h.state, h.mux, h.transport, h.rtcpTransport⟩
  unfold setupDtlsSrtp
  split
  · exact Keyed.refl c
  · split
    · cases rtcpChannel with
      | true => exact hflag _ _ (setRtcpParams_keyed c _ _ _ _)
      | false => exact hflag _ _ ⟨setRtpParams_state c.srtpFilter _ _ _ _, rfl, rfl, rfl⟩
    · exact Keyed.refl c

theorem installKeys_keyed (c : BaseChannel) (answers : Answers) :
    Keyed c (c.installKeys answers).2 := by
  have hrtp := setupDtlsSrtp_keyed c answers c.transportChannel false
  unfold installKeys
  generalize c.setupDtlsSrtp answers c.transportChannel false = p at hrtp
  obtain ⟨ret, c₁⟩ := p
  cases ret with
  | false => exact hrtp
  | true =>
    dsimp only at hrtp ⊢
    split
    · exact hrtp
    · exact hrtp.trans (setupDtlsSrtp_keyed c₁ answers _ true)

theorem channelWritable_keyed (c : BaseChannel) (answers : Answers) :
    Keyed c (c.channelWritable answers) := by
  have hkeys : Keyed c (if c.wasEverWritable then (true, c) else c.installKeys answers).2 := by
    split
    · exact Keyed.refl c
    · exact installKeys_keyed c answers
  unfold channelWritable
  split
  · exact Keyed.refl c
  · generalize (if c.wasEverWritable then (true, c) else c.installKeys answers) = p at hkeys
    obtain ⟨ret, c₁⟩ := p
    cases ret with
    | false => exact hkeys
    | true => exact ⟨hkeys.state, hkeys.mux, hkeys.transport, hkeys.rtcpTransport⟩

/-! ## One description -/

/-- What applying a description does to the filters and the transports. -/
structure Applied (c c' : BaseChannel) (answers : Answers) (source : ContentSource)
    (action : ContentAction) (content : MediaContentDescription) : Prop where
  mux : c'.rtcpMuxFilter = (c.muxResult content.rtcpMux action source).2
  rtcpTransport : c'.rtcpTransportChannel =
    if action = .caAnswer ∧ (c.muxResult content.rtcpMux action source).1 = true ∧
        (c.muxResult content.rtcpMux action source).2.isActive = true then none
    else c.rtcpTransportChannel
  transport : c'.transportChannel = c.transportChannel
  state : c'.srtpFilter.state =
      (c.setSrtp answers content.cryptos action source).2.srtpFilter.state ∨
    c'.srtpFilter.state = .active

theorem setSrtp_frame (c : BaseChannel) (answers : Answers) (cryptos : List CryptoParams)
    (action : ContentAction) (source : ContentSource) :
    (c.setSrtp answers cryptos action source).2.rtcpMuxFilter = c.rtcpMuxFilter ∧
      (c.setSrtp answers cryptos action source).2.rtcpTransportChannel = c.rtcpTransportChannel ∧
      (c.setSrtp answers cryptos action source).2.transportChannel = c.transportChannel := by
  cases action with
  | caOffer => exact ⟨rfl, rfl, rfl⟩
  | caPrAnswer =>
    simp only [setSrtp]
    split <;> exact ⟨rfl, rfl, rfl⟩
  | caAnswer =>
    simp only [setSrtp]
    split <;> exact ⟨rfl, rfl, rfl⟩
  | caUpdate => exact ⟨rfl, rfl, rfl⟩

theorem muxResult_congr {c c' : BaseChannel} (h : c'.rtcpMuxFilter = c.rtcpMuxFilter)
    (enable : Bool) (action : ContentAction) (source : ContentSource) :
    c'.muxResult enable action source = c.muxResult enable action source := by
  cases action <;> simp only [muxResult, h]

theorem setRtcpMux_spec (c : BaseChannel) (answers : Answers) (enable : Bool)
    (action : ContentAction) (source : ContentSource) :
    (c.setRtcpMux answers enable action source).2.rtcpMuxFilter =
        (c.muxResult enable action source).2 ∧
      (c.setRtcpMux answers enable action source).2.rtcpTransportChannel =
        (if action = .caAnswer ∧ (c.muxResult enable action source).1 = true ∧
            (c.muxResult enable action source).2.isActive = true then none
          else c.rtcpTransportChannel) ∧
      (c.setRtcpMux answers enable action source).2.transportChannel = c.transportChannel ∧
      ((c.setRtcpMux answers enable action source).2.srtpFilter.state = c.srtpFilter.state ∨
        (c.setRtcpMux answers enable action source).2.srtpFilter.state = .active) := by
  simp only [setRtcpMux]
  generalize c.muxResult enable action source = p
  obtain ⟨ret, filter⟩ := p
  dsimp only
  -- the mux filter and the transport are in place before DTLS keys may be installed
  have hwritable : ∀ (c' : BaseChannel) (b : Prop) [Decidable b],
      Keyed c' (if b then c'.channelWritable answers else c') := by
    intro c' b _
    split
    · exact channelWritable_keyed c' answers
    · exact Keyed.refl c'
  by_cases hclose : action = .caAnswer ∧ ret = true ∧ filter.isActive = true
  · simp only [if_pos hclose]
    have h := hwritable { c with rtcpMuxFilter := filter, rtcpTransportChannel := none }
      (ret = true ∧ filter.isActive = true ∧ c.transportChannel.writable = true)
    exact ⟨h.mux, h.rtcpTransport, h.transport, h.state⟩
  · simp only [if_neg hclose]
    have h := hwritable { c with rtcpMuxFilter := filter }
      (ret = true ∧ filter.isActive = true ∧ c.transportChannel.writable = true)
    exact ⟨h.mux, h.rtcpTransport, h.transport, h.state⟩

theorem setBaseContent_applied (c : BaseChannel) (answers : Answers)
    (content : MediaContentDescription) (action : ContentAction) (source : ContentSource) :
    Applied c (c.setBaseContent answers content action source).2 answers source action content := by
  obtain ⟨hmux, hrtcp, htransport⟩ := setSrtp_frame c answers content.cryptos action source
  have hresult := muxResult_congr hmux content.rtcpMux action source
  have hspec := setRtcpMux_spec (c.setSrtp answers content.cryptos action source).2 answers
    content.rtcpMux action source
  rw [hresult, hrtcp, htransport] at hspec
  exact ⟨hspec.1, hspec.2.1, hspec.2.2.1, hspec.2.2.2⟩

theorem step_applied (c : BaseChannel) (answers : Answers) (source : ContentSource)
    (action : ContentAction) (content : MediaContentDescription) :
    Applied c (c.step (.content source action content, answers)) answers source action content := by
  cases source with
  | csLocal =>
    have h := setBaseContent_applied { c with secureRequired := content.cryptoRequired } answers
      content action .csLocal
    have hstate : ({ c with secureRequired := content.cryptoRequired }.setSrtp answers
        content.cryptos action .csLocal).2.srtpFilter =
        (c.setSrtp answers content.cryptos action .csLocal).2.srtpFilter := by
      cases action <;> simp only [setSrtp] <;> split <;> rfl
    exact ⟨h.mux, h.rtcpTransport, h.transport, hstate ▸ h.state⟩
  | csRemote =>
    have h := setBaseContent_applied c answers content action .csRemote
    exact ⟨h.mux, h.rtcpTransport, h.transport, h.state⟩

theorem step_writableState (c : BaseChannel) (answers : Answers)
    (transportChannel rtcpTransportChannel : TransportChannel) :
    (c.step (.writableState transportChannel rtcpTransportChannel, answers)).rtcpMuxFilter =
        c.rtcpMuxFilter ∧
      (c.step (.writableState transportChannel rtcpTransportChannel,
        answers)).rtcpTransportChannel =
        c.rtcpTransportChannel.map (fun _ => rtcpTransportChannel) ∧
      (c.step (.writableState transportChannel rtcpTransportChannel, answers)).transportChannel =
        transportChannel ∧
      ((c.step (.writableState transportChannel rtcpTransportChannel, answers)).srtpFilter.state =
          c.srtpFilter.state ∨
        (c.step (.writableState transportChannel rtcpTransportChannel, answers)).srtpFilter.state =
          .active) := by
  simp only [step, onWritableState]
  split
  · have h := channelWritable_keyed { c with
      transportChannel := transportChannel
      rtcpTransportChannel := c.rtcpTransportChannel.map fun _ => rtcpTransportChannel } answers
    exact ⟨h.mux, h.rtcpTransport, h.transport, h.state⟩
  · exact ⟨rfl, rfl, rfl, .inl rfl⟩

/-! ## Offers and answers with DTLS -/

/-- Whether `SetSrtp_w` accepts what an event applies. -/
def accepts (c : BaseChannel) : ChannelEvent × Answers → Bool
  | (.content source action content, answers) =>
    (c.setSrtp answers content.cryptos action source).1
  | (.writableState _ _, _) => true

/-- What `SetSrtp_w` returns in a run. -/
def acceptances (c : BaseChannel) : List (ChannelEvent × Answers) → List Bool
  | [] => []
  | e :: events => c.accepts e :: (c.step e).acceptances events

def offerer : ChannelEvent → Option ContentSource
  | .content source .caOffer _ => some source
  | _ => none

def keepsDtls : ChannelEvent → Bool
  | .content _ _ _ => true
  | .writableState transportChannel _ => transportChannel.dtlsActive

/-- Every offer comes from the side that made the last one, unless there was none, or DTLS has keyed
the filter since. -/
def OneSided (last : Option ContentSource) (c : BaseChannel) :
    List (ChannelEvent × Answers) → Prop
  | [] => True
  | e :: events =>
    (∀ source, offerer e.1 = some source →
        c.srtpFilter.state = .active ∨ last = none ∨ last = some source) ∧
      OneSided ((offerer e.1).or last) (c.step e) events

/-- The filter has seen no answer: its state tells who made the last offer. -/
def Unanswered (last : Option ContentSource) : State → Prop
  | .init => last = none
  | .active => True
  | .sentOffer | .sentUpdatedOffer => last = some .csLocal
  | .receivedOffer | .receivedUpdatedOffer => last = some .csRemote
  | _ => False

variable {last : Option ContentSource}

theorem Unanswered.expectOffer_iff {f : SrtpFilter}
    (h : Unanswered last f.state) (source : ContentSource) :
    f.expectOffer source = true ↔ f.state = .active ∨ last = none ∨ last = some source := by
  unfold SrtpFilter.expectOffer
  cases hstate : f.state <;> rw [hstate] at h <;> simp only [Unanswered] at h <;>
    simp [h, eq_comm]

theorem unanswered_storeParams (f : SrtpFilter) (params : List CryptoParams)
    (source : ContentSource) : Unanswered (some source) (f.storeParams params source).state := by
  by_cases hinit : f.state = .init
  · cases source <;> simp [SrtpFilter.storeParams, hinit, Unanswered]
  · cases source <;> simp [SrtpFilter.storeParams, hinit, Unanswered]

theorem Unanswered.of_keyed {s s' : State} (h : Unanswered last s)
    (hkeyed : s' = s ∨ s' = .active) : Unanswered last s' := by
  rcases hkeyed with rfl | rfl
  · exact h
  · trivial

variable {c : BaseChannel}

/-- **One event with DTLS.** -/
theorem unanswered_step
    (h : Unanswered last c.srtpFilter.state) (hdtls : c.transportChannel.dtlsActive = true)
    (e : ChannelEvent × Answers) :
    (c.accepts e = true ↔ ∀ source, offerer e.1 = some source →
        c.srtpFilter.state = .active ∨ last = none ∨ last = some source) ∧
      (c.accepts e = true → Unanswered ((offerer e.1).or last) (c.step e).srtpFilter.state) := by
  obtain ⟨event, answers⟩ := e
  cases event with
  | writableState transportChannel rtcpTransportChannel =>
    refine ⟨iff_of_true rfl nofun, fun _ => ?_⟩
    exact h.of_keyed (step_writableState c answers transportChannel rtcpTransportChannel).2.2.2
  | content source action content =>
    have hstate := (step_applied c answers source action content).state
    cases action with
    | caOffer =>
      have hexpect := h.expectOffer_iff source
      have haccepts : c.accepts (.content source .caOffer content, answers) =
          c.srtpFilter.expectOffer source := by
        simp only [accepts, setSrtp, SrtpFilter.setOffer]
        split
        · rename_i hyes
          exact hyes.symm
        · rename_i hno
          exact (Bool.eq_false_iff.mpr hno).symm
      refine ⟨?_, fun hyes => ?_⟩
      · rw [haccepts, hexpect]
        exact ⟨fun h _ hs => Option.some.inj hs ▸ h, fun h => h source rfl⟩
      · rw [haccepts] at hyes
        simp only [setSrtp, SrtpFilter.setOffer, if_pos hyes] at hstate
        exact (unanswered_storeParams c.srtpFilter content.cryptos source).of_keyed hstate
    | caPrAnswer =>
      simp only [setSrtp, hdtls, if_true] at hstate
      exact ⟨iff_of_true (by simp only [accepts, setSrtp, hdtls, if_true]) nofun,
        fun _ => h.of_keyed hstate⟩
    | caAnswer =>
      simp only [setSrtp, hdtls, if_true] at hstate
      exact ⟨iff_of_true (by simp only [accepts, setSrtp, hdtls, if_true]) nofun,
        fun _ => h.of_keyed hstate⟩
    | caUpdate => exact ⟨iff_of_true rfl nofun, fun _ => h.of_keyed hstate⟩

theorem dtlsActive_step (hdtls : c.transportChannel.dtlsActive = true)
    {e : ChannelEvent × Answers} (he : keepsDtls e.1 = true) :
    (c.step e).transportChannel.dtlsActive = true := by
  obtain ⟨event, answers⟩ := e
  cases event with
  | writableState transportChannel rtcpTransportChannel =>
    rw [(step_writableState c answers transportChannel rtcpTransportChannel).2.2.1]
    exact he
  | content source action content =>
    rw [(step_applied c answers source action content).transport]
    exact hdtls

theorem accepted_run_iff
    (h : Unanswered last c.srtpFilter.state) (hdtls : c.transportChannel.dtlsActive = true)
    {events : List (ChannelEvent × Answers)} (hkeeps : ∀ e ∈ events, keepsDtls e.1 = true) :
    (∀ accepted ∈ c.acceptances events, accepted = true) ↔ OneSided last c events := by
  induction events generalizing last c with
  | nil => exact iff_of_true (List.forall_mem_nil _) trivial
  | cons e events ih =>
    obtain ⟨haccepts, hstep⟩ := unanswered_step h hdtls e
    have hrest : c.accepts e = true →
        ((∀ accepted ∈ (c.step e).acceptances events, accepted = true) ↔
          OneSided ((offerer e.1).or last) (c.step e) events) := fun hyes =>
      ih (hstep hyes) (dtlsActive_step hdtls (hkeeps e List.mem_cons_self)) fun x hx =>
        hkeeps x (List.mem_cons_of_mem e hx)
    rw [acceptances, List.forall_mem_cons, OneSided, ← haccepts]
    exact and_congr_right hrest

/-- **With DTLS all offers and answers of a run are accepted** exactly when each offer comes from
the side that made the last one, or DTLS has keyed the filter since. -/
theorem offers_accepted_iff (transportChannel : TransportChannel)
    (rtcpTransportChannel : Option TransportChannel) (events : List (ChannelEvent × Answers))
    (hdtls : transportChannel.dtlsActive = true) (hkeeps : ∀ e ∈ events, keepsDtls e.1 = true) :
    (∀ accepted ∈ (init transportChannel rtcpTransportChannel).acceptances events,
        accepted = true) ↔
      OneSided none (init transportChannel rtcpTransportChannel) events :=
  accepted_run_iff (show Unanswered none State.init from rfl) hdtls hkeeps

/-- A writable transport with DTLS. -/
def dtlsTransport : TransportChannel :=
  ⟨true, true, some csAesCm128HmacSha1_80, some ⟨List.replicate 60 7, rfl⟩⟩

def allAnswered : Answers := ⟨⟨true, true⟩, ⟨true, true⟩, ⟨true, true⟩, true, true, true, true⟩

/-- An audio description is applied that has mux on. -/
def applyAudio (source : ContentSource) (action : ContentAction) : ChannelEvent × Answers :=
  (.content source action { MediaContentDescription.new .audio with rtcpMux := true }, allAnswered)

/-- The transports become writable. -/
def becomeWritable : ChannelEvent × Answers :=
  (.writableState dtlsTransport dtlsTransport, allAnswered)

theorem offers_accepted_iff_alternating :
    (∀ accepted ∈ (init dtlsTransport (some dtlsTransport)).acceptances
        [applyAudio .csLocal .caOffer, becomeWritable, applyAudio .csRemote .caAnswer,
          applyAudio .csRemote .caOffer, applyAudio .csLocal .caAnswer], accepted = true) ↔
      OneSided none (init dtlsTransport (some dtlsTransport))
        [applyAudio .csLocal .caOffer, becomeWritable, applyAudio .csRemote .caAnswer,
          applyAudio .csRemote .caOffer, applyAudio .csLocal .caAnswer] :=
  offers_accepted_iff dtlsTransport (some dtlsTransport)
    [applyAudio .csLocal .caOffer, becomeWritable, applyAudio .csRemote .caAnswer,
      applyAudio .csRemote .caOffer, applyAudio .csLocal .caAnswer] rfl (by decide)

theorem third_round_refused :
    (init dtlsTransport (some dtlsTransport)).acceptances
      [applyAudio .csLocal .caOffer, becomeWritable, applyAudio .csRemote .caAnswer,
        applyAudio .csLocal .caOffer, applyAudio .csRemote .caAnswer,
        applyAudio .csRemote .caOffer] = [true, true, true, true, true, false] := by
  decide

/-! ## A transport for RTCP -/

/-- RTCP has a transport: the RTP one when mux is active, and else its own. -/
def RtcpTransported (c : BaseChannel) : Prop :=
  (c.rtcpTransportChannel = none → c.rtcpMuxFilter.isActive = true) ∧
    (c.sendChannel true).isSome = true

/-- Mux is not offered again once it has been negotiated. -/
def NeverReoffersMux (c : BaseChannel) : List (ChannelEvent × Answers) → Prop
  | [] => True
  | e :: events =>
    (∀ source content, e.1 = .content source .caOffer content → c.rtcpMuxFilter.state = .active →
        content.rtcpMux = false) ∧
      NeverReoffersMux (c.step e) events

/-- The RTCP transport is closed exactly when mux has been negotiated. -/
def ClosedByMux (c : BaseChannel) : Prop :=
  (c.rtcpTransportChannel = none ↔ c.rtcpMuxFilter.state = .active) ∧
    (c.rtcpMuxFilter.state = .active → c.rtcpMuxFilter.offerEnable = true)

theorem rtcpTransported_iff (c : BaseChannel) :
    c.RtcpTransported ↔ (c.rtcpTransportChannel = none → c.rtcpMuxFilter.isActive = true) := by
  refine and_iff_left_of_imp fun h => ?_
  unfold sendChannel
  by_cases hactive : c.rtcpMuxFilter.isActive = true
  · simp [hactive]
  · simp only [hactive, Bool.not_true, Bool.false_or, Bool.false_eq_true, if_false]
    exact Option.isSome_iff_ne_none.mpr fun hnone => hactive (h hnone)

theorem ClosedByMux.transported (h : c.ClosedByMux) : c.RtcpTransported := by
  refine (rtcpTransported_iff c).mpr fun hnone => ?_
  rw [RtcpMuxFilter.isActive, h.1.mp hnone]
  rfl

theorem closedByMux_init (transportChannel rtcpTransportChannel : TransportChannel) :
    (init transportChannel (some rtcpTransportChannel)).ClosedByMux := by
  refine ⟨iff_of_false ?_ ?_, ?_⟩ <;> exact nofun

theorem setOffer_cases (f : RtcpMuxFilter) (enable : Bool) (source : ContentSource) :
    (f.expectOffer enable source = true ∧ (f.setOffer enable source).2.state ≠ .active) ∨
      (f.expectOffer enable source = false ∧ (f.setOffer enable source).2 = f) := by
  unfold RtcpMuxFilter.setOffer
  cases h : f.expectOffer enable source
  · exact .inr ⟨rfl, rfl⟩
  · exact .inl ⟨rfl, by cases source <;> simp⟩

theorem setProvisionalAnswer_state (f : RtcpMuxFilter) (enable : Bool) (source : ContentSource) :
    (f.setProvisionalAnswer enable source).2 = f ∨
      f.state ≠ .active ∧ (f.setProvisionalAnswer enable source).2.state ≠ .active := by
  obtain ⟨state, offerEnable⟩ := f
  cases state <;> cases offerEnable <;> cases enable <;> cases source <;>
    simp [RtcpMuxFilter.setProvisionalAnswer, RtcpMuxFilter.expectAnswer]

theorem setAnswer_cases (f : RtcpMuxFilter) (enable : Bool) (source : ContentSource) :
    ((f.setAnswer enable source).1 = true ∧ (f.setAnswer enable source).2 = ⟨.active, true⟩) ∨
      ((f.setAnswer enable source).1 = true ∧ (f.setAnswer enable source).2.isActive = false ∧
        f.state ≠ .active) ∨
      ((f.setAnswer enable source).1 = false ∧ (f.setAnswer enable source).2 = f) := by
  obtain ⟨state, offerEnable⟩ := f
  cases state <;> cases offerEnable <;> cases enable <;> cases source <;>
    simp [RtcpMuxFilter.setAnswer, RtcpMuxFilter.expectAnswer, RtcpMuxFilter.isActive]

theorem not_active_of_inactive {f : RtcpMuxFilter} (h : f.isActive = false) :
    f.state ≠ .active := by
  intro hactive
  simp [RtcpMuxFilter.isActive, hactive] at h

/-- **One event.** -/
theorem closedByMux_step (h : c.ClosedByMux) (e : ChannelEvent × Answers) :
    (∀ source content, e.1 = .content source .caOffer content → c.rtcpMuxFilter.state = .active →
        content.rtcpMux = false) ∧ (c.step e).ClosedByMux ∨
      ¬ (∀ source content, e.1 = .content source .caOffer content →
        c.rtcpMuxFilter.state = .active → content.rtcpMux = false) ∧
      ¬ (c.step e).RtcpTransported := by
  obtain ⟨event, answers⟩ := e
  obtain ⟨hclosed, henable⟩ := h
  have hsame : ∀ {c' : BaseChannel}, c'.rtcpMuxFilter = c.rtcpMuxFilter →
      (c'.rtcpTransportChannel = none ↔ c.rtcpTransportChannel = none) → c'.ClosedByMux := by
    intro c' hmux hrtcp
    exact ⟨by rw [hrtcp, hmux, hclosed], by rw [hmux]; exact henable⟩
  -- the filter is not active, before and after
  have hinactive : ∀ {c' : BaseChannel}, c.rtcpMuxFilter.state ≠ .active →
      c'.rtcpMuxFilter.state ≠ .active → c'.rtcpTransportChannel = c.rtcpTransportChannel →
        c'.ClosedByMux := by
    intro c' hbefore hafter hrtcp
    refine ⟨iff_of_false (fun hnone => hbefore (hclosed.mp (hrtcp ▸ hnone))) hafter, ?_⟩
    exact fun hactive => (hafter hactive).elim
  cases event with
  | writableState transportChannel rtcpTransportChannel =>
    obtain ⟨hmux, hrtcp, -⟩ := step_writableState c answers transportChannel rtcpTransportChannel
    refine .inl ⟨nofun, hsame hmux ?_⟩
    rw [hrtcp, Option.map_eq_none_iff]
  | content source action content =>
    obtain ⟨hmux, hrtcp, -, -⟩ := step_applied c answers source action content
    cases action with
    | caOffer =>
      simp only [muxResult, reduceCtorEq, false_and, if_false] at hmux hrtcp
      rcases setOffer_cases c.rtcpMuxFilter content.rtcpMux source with
        ⟨hexpect, hstate⟩ | ⟨hexpect, hkeep⟩
      · rw [← hmux] at hstate
        by_cases hactive : c.rtcpMuxFilter.state = .active
        · -- mux is offered again, so it is not active until there is an answer
          have hoffered : content.rtcpMux = true := by
            simp only [RtcpMuxFilter.expectOffer, hactive, henable hactive] at hexpect
            simpa using hexpect
          refine .inr ⟨fun hno => ?_, fun htransported => ?_⟩
          · rw [hno source content rfl hactive] at hoffered
            cases hoffered
          · have hnone := hrtcp.trans (hclosed.mpr hactive)
            have hstill := htransported.1 hnone
            rw [hmux, RtcpMuxFilter.setOffer, if_pos hexpect] at hstill
            cases source <;> simp [RtcpMuxFilter.isActive] at hstill
        · exact .inl ⟨fun _ _ _ hcon => (hactive hcon).elim, hinactive hactive hstate hrtcp⟩
      · refine .inl
          ⟨fun source' content' heq hactive => ?_, hsame (hmux.trans hkeep) (hrtcp ▸ Iff.rfl)⟩
        cases heq
        simp only [RtcpMuxFilter.expectOffer, hactive, henable hactive] at hexpect
        simpa using hexpect
    | caPrAnswer =>
      simp only [muxResult, reduceCtorEq, false_and, if_false] at hmux hrtcp
      refine .inl ⟨nofun, ?_⟩
      rcases setProvisionalAnswer_state c.rtcpMuxFilter content.rtcpMux source with
        hkeep | ⟨hbefore, hafter⟩
      · exact hsame (hmux.trans hkeep) (hrtcp ▸ Iff.rfl)
      · exact hinactive hbefore (hmux ▸ hafter) hrtcp
    | caAnswer =>
      simp only [muxResult, true_and] at hmux hrtcp
      refine .inl ⟨nofun, ?_⟩
      rcases setAnswer_cases c.rtcpMuxFilter content.rtcpMux source with
        ⟨hret, hactive⟩ | ⟨hret, hafter, hbefore⟩ | ⟨hret, hkeep⟩
      · rw [hret, hactive] at hrtcp
        rw [hactive] at hmux
        exact ⟨iff_of_true hrtcp (by rw [hmux]), fun _ => by rw [hmux]⟩
      · rw [hret, hafter] at hrtcp
        exact hinactive hbefore (not_active_of_inactive (hmux ▸ hafter)) hrtcp
      · rw [hret] at hrtcp
        exact hsame (hmux.trans hkeep) (hrtcp ▸ Iff.rfl)
    | caUpdate =>
      simp only [muxResult, reduceCtorEq, false_and, if_false] at hmux hrtcp
      exact .inl ⟨nofun, hsame hmux (hrtcp ▸ Iff.rfl)⟩

theorem transported_run_iff (h : c.ClosedByMux) (events : List (ChannelEvent × Answers)) :
    (∀ s ∈ c.states events, s.RtcpTransported) ↔ c.NeverReoffersMux events := by
  induction events generalizing c with
  | nil =>
    refine iff_of_true (fun s hs => ?_) trivial
    exact List.mem_singleton.mp hs ▸ h.transported
  | cons e events ih =>
    have hfirst : ∀ c' : BaseChannel, c' ∈ c'.states events := by
      intro c'
      cases events <;> exact List.mem_cons_self
    rw [states, List.forall_mem_cons, NeverReoffersMux, and_iff_right h.transported]
    rcases closedByMux_step h e with ⟨hno, hnext⟩ | ⟨hno, hbad⟩
    · rw [and_iff_right hno, ih hnext]
    · exact iff_of_false (fun hall => hbad (hall _ (hfirst _))) fun hall => hno hall.1

/-- **RTCP always has a transport** in exactly the runs in which mux is not offered again once it
has been negotiated. -/
theorem rtcp_has_transport_iff (transportChannel rtcpTransportChannel : TransportChannel)
    (events : List (ChannelEvent × Answers)) :
    (∀ c ∈ (init transportChannel (some rtcpTransportChannel)).states events, c.RtcpTransported) ↔
      (init transportChannel (some rtcpTransportChannel)).NeverReoffersMux events :=
  transported_run_iff (closedByMux_init transportChannel rtcpTransportChannel) events

theorem reoffer_drops_rtcp :
    ∃ c ∈ (init dtlsTransport (some dtlsTransport)).states
        [applyAudio .csLocal .caOffer, applyAudio .csRemote .caAnswer,
          applyAudio .csLocal .caOffer],
      c.rtcpTransportChannel = none ∧ c.rtcpMuxFilter.isActive = false ∧
        c.sendChannel true = none := by
  refine ⟨_, List.getLast_mem (by decide), ?_⟩
  decide

end Libjingle.Media.BaseChannel
