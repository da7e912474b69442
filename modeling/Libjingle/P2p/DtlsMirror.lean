import Libjingle.P2p.DtlsSafety

/-!
# The flags of a DTLS channel (`p2p/base/dtlstransportchannel.cc`)

Without DTLS and after the handshake the wrapper is readable and writable as the channel below it,
and in between it is neither; the handshake waits only for a channel that is not writable. The
flags are copied, and the handshake is started, when the channel below changes.

## Results

* `flags_mirror`: when a run does.
-/

namespace Libjingle.DtlsTransportChannelWrapper

open Lib

variable {ssl : SslImplementation} {s s' : DtlsTransportChannelWrapper}

/-- The flags that the state transition logic intends. -/
structure Mirrors (s : DtlsTransportChannelWrapper) : Prop where
  same : s.dtls_state_ = .none ∨ s.dtls_state_ = .opened →
    s.readable_ = s.channel_.readable ∧ s.writable_ = s.channel_.writable
  neither : s.dtls_state_ ≠ .none → s.dtls_state_ ≠ .opened →
    s.readable_ = false ∧ s.writable_ = false
  waiting : s.dtls_state_ = .accepted → s.channel_.writable = false

instance : DecidablePred Mirrors := fun s => decidable_of_iff
  ((s.dtls_state_ = .none ∨ s.dtls_state_ = .opened →
      s.readable_ = s.channel_.readable ∧ s.writable_ = s.channel_.writable) ∧
    (s.dtls_state_ ≠ .none → s.dtls_state_ ≠ .opened →
      s.readable_ = false ∧ s.writable_ = false) ∧
    (s.dtls_state_ = .accepted → s.channel_.writable = false))
  ⟨fun h => ⟨h.1, h.2.1, h.2.2⟩, fun h => ⟨h.same, h.neither, h.waiting⟩⟩

/-- There is an identity, and the adapter accepts a fingerprint and the ciphers. -/
def SetsUp (ssl : SslImplementation) (s : DtlsTransportChannelWrapper) (digest_alg : Text)
    (digest : List U8) : Prop :=
  ssl.available = true ∧ s.local_identity_ ≠ none ∧ ssl.acceptsDigest digest_alg digest = true ∧
    (s.srtp_ciphers_ ≠ [] → ssl.acceptsCiphers s.srtp_ciphers_ = true)

/-- A call or an event that changes the state finds the channel below as the new state has it. -/
def Event.Compensated (ssl : SslImplementation) (s : DtlsTransportChannelWrapper) : Event → Prop
  | .setLocalIdentity identity => identity ≠ none → s.dtls_state_ = .none →
    s.channel_.readable = false ∧ s.channel_.writable = false
  | .setRemoteFingerprint alg digest => s.dtls_state_ = .offered →
    (alg = [] → s.channel_.readable = false ∧ s.channel_.writable = false) ∧
      (alg ≠ [] → SetsUp ssl s alg digest → s.channel_.writable = false)
  | .dtlsEvent sig isOpen _ => sig.seOpen = true → isOpen = true → sig.seClose = false →
    s.channel_.readable = true ∧ s.channel_.writable = true
  | _ => True

/-! ## The states after a call -/

variable {r : DtlsTransportChannelWrapper × Bool}

/-- `SetupDtls` succeeds when everything is accepted. -/
theorem setupDtls_ok_iff (h : setupDtls ssl s = some r) :
    r.2 = true ↔ SetsUp ssl s s.remote_fingerprint_algorithm_ s.remote_fingerprint_value_ := by
  unfold setupDtls at h
  unfold SetsUp
  split at h
  · rename_i hnot
    cases h
    simp [hnot]
  · rename_i havailable
    obtain ⟨identity, hidentity, rfl⟩ := Option.map_eq_some_iff.mp h
    simp only [hidentity, Bool.eq_true_of_not_eq_false havailable]
    split
    · rename_i haccepts
      split
      · rename_i hciphers
        split
        · rename_i hok
          simp [haccepts, hok]
        · rename_i hno
          simp [haccepts, hciphers, hno]
      · rename_i hciphers
        simp [haccepts, hciphers]
    · rename_i hno
      simp [hno]

theorem mirrors_closed {s : DtlsTransportChannelWrapper} (hreadable : s.readable_ = false)
    (hwritable : s.writable_ = false) : Mirrors { s with dtls_state_ := .closed } where
  same h := by
    rcases h with h | h
    · exact State.noConfusion h
    · exact State.noConfusion h
  neither _ _ := ⟨hreadable, hwritable⟩
  waiting h := State.noConfusion h

theorem mirrors_accepted_iff {s : DtlsTransportChannelWrapper} (hreadable : s.readable_ = false)
    (hwritable : s.writable_ = false) :
    Mirrors { s with dtls_state_ := .accepted } ↔ s.channel_.writable = false := by
  constructor
  · exact fun h => h.waiting rfl
  · intro h
    refine ⟨fun hstate => ?_, fun _ _ => ⟨hreadable, hwritable⟩, fun _ => h⟩
    rcases hstate with h | h
    · exact State.noConfusion h
    · exact State.noConfusion h

theorem mirrors_started {s : DtlsTransportChannelWrapper} (hreadable : s.readable_ = false)
    (hwritable : s.writable_ = false) : Mirrors { s with dtls_state_ := .started } where
  same h := by
    rcases h with h | h
    · exact State.noConfusion h
    · exact State.noConfusion h
  neither _ _ := ⟨hreadable, hwritable⟩
  waiting h := State.noConfusion h

theorem Mirrors.congr (h : s.Mirrors) (hchannel : s'.channel_ = s.channel_)
    (hreadable : s'.readable_ = s.readable_) (hwritable : s'.writable_ = s.writable_)
    (hstate : s'.dtls_state_ = s.dtls_state_) : s'.Mirrors := by
  refine ⟨?_, ?_, ?_⟩
  · rw [hchannel, hreadable, hwritable, hstate]
    exact h.same
  · rw [hreadable, hwritable, hstate]
    exact h.neither
  · rw [hchannel, hstate]
    exact h.waiting

theorem setupDtls_frame (h : setupDtls ssl s = some r) :
    r.1.channel_ = s.channel_ ∧ r.1.readable_ = s.readable_ ∧ r.1.writable_ = s.writable_ := by
  obtain ⟨s', ok⟩ := r
  obtain ⟨dtls, rfl, -⟩ := setupDtls_eq_some h
  exact ⟨rfl, rfl, rfl⟩

/-- The state that `SetupDtls` leads to mirrors when the handshake need not be started yet. -/
theorem mirrors_setup_iff
    (h : setupDtls ssl s = some r) (hreadable : s.readable_ = false)
    (hwritable : s.writable_ = false) :
    Mirrors (if r.2 then { r.1 with dtls_state_ := .accepted }
        else { r.1 with dtls_state_ := .closed }) ↔
      (SetsUp ssl s s.remote_fingerprint_algorithm_ s.remote_fingerprint_value_ →
        s.channel_.writable = false) := by
  obtain ⟨hchannel, hr, hw⟩ := setupDtls_frame h
  rw [← setupDtls_ok_iff h]
  cases hok : r.2 with
  | true =>
    rw [if_pos rfl, mirrors_accepted_iff (hr.trans hreadable) (hw.trans hwritable), hchannel]
    exact (imp_iff_right rfl).symm
  | false =>
    rw [if_neg Bool.false_ne_true]
    exact ⟨fun _ hfalse => (Bool.false_ne_true hfalse).elim,
      fun _ => mirrors_closed (hr.trans hreadable) (hw.trans hwritable)⟩

theorem Mirrors.channelReadable (h : s.Mirrors) (readable : Bool) :
    (s.channelReadable readable).Mirrors := by
  unfold DtlsTransportChannelWrapper.channelReadable
  split
  · unfold onReadableState
    split
    · rename_i hstate
      exact ⟨fun _ => ⟨rfl, (h.same hstate).2⟩,
        fun hnone hopened => (hstate.elim hnone hopened).elim, h.waiting⟩
    · rename_i hstate
      exact ⟨fun hsame => absurd hsame hstate, h.neither, h.waiting⟩
  · exact h

theorem Mirrors.channelWritable (h : s.Mirrors) {writable : Bool} {start : Int}
    (heq : s.channelWritable writable start = some s') : s'.Mirrors := by
  unfold DtlsTransportChannelWrapper.channelWritable at heq
  split at heq
  swap
  · cases heq
    exact h
  rw [onWritableState_eq] at heq
  split at heq
  · rename_i hstate
    cases heq
    exact ⟨fun _ => ⟨(h.same hstate).1, rfl⟩,
      fun hnone hopened => (hstate.elim hnone hopened).elim,
      fun haccepted => absurd hstate (by
        rw [show s.dtls_state_ = .accepted from haccepted]
        decide)⟩
  rename_i hstate
  obtain ⟨hreadable, hwritable⟩ :=
    h.neither (fun hnone => hstate (.inl hnone)) fun hopened => hstate (.inr hopened)
  split at heq
  · -- the handshake is started when there is something to start it with
    unfold DtlsTransportChannelWrapper.maybeStartDtls at heq
    split at heq
    · obtain ⟨a, -, rfl⟩ := Option.map_eq_some_iff.mp heq
      split
      · exact mirrors_closed hreadable hwritable
      · exact mirrors_started hreadable hwritable
    · rename_i hnot
      cases heq
      exact ⟨fun hsame => absurd hsame hstate, fun _ _ => ⟨hreadable, hwritable⟩,
        fun _ => Bool.eq_false_of_not_eq_true hnot⟩
  · rename_i haccepted
    cases heq
    exact ⟨fun hsame => absurd hsame hstate, fun _ _ => ⟨hreadable, hwritable⟩,
      fun hstate' => absurd hstate' haccepted⟩

theorem Mirrors.onDtlsEvent_iff (h : s.Mirrors) (sig : DtlsSignal) (isOpen : Bool)
    (read : Option (List U8)) :
    (s.onDtlsEvent sig isOpen read).1.Mirrors ↔
      Event.Compensated ssl s (.dtlsEvent sig isOpen read) := by
  unfold DtlsTransportChannelWrapper.onDtlsEvent Event.Compensated
  simp only
  cases hclose : sig.seClose with
  | true =>
    rw [if_pos rfl]
    refine ⟨fun _ _ _ hfalse => (Bool.false_ne_true hfalse.symm).elim, fun _ => ?_⟩
    exact ⟨fun hstate => by rcases hstate with h | h <;> exact State.noConfusion h,
      fun _ _ => ⟨rfl, rfl⟩, fun hstate => State.noConfusion hstate⟩
  | false =>
    rw [if_neg Bool.false_ne_true]
    by_cases hopen : sig.seOpen = true ∧ isOpen = true
    · rw [if_pos hopen]
      constructor
      · intro hmirrors _ _ _
        obtain ⟨hreadable, hwritable⟩ := hmirrors.same (.inr rfl)
        exact ⟨hreadable.symm, hwritable.symm⟩
      · intro hcompensated
        obtain ⟨hreadable, hwritable⟩ := hcompensated hopen.1 hopen.2 rfl
        exact ⟨fun _ => ⟨hreadable.symm, hwritable.symm⟩, fun _ hopened => absurd rfl hopened,
          fun hstate => State.noConfusion hstate⟩
    · rw [if_neg hopen]
      exact ⟨fun _ hsig hisOpen => absurd ⟨hsig, hisOpen⟩ hopen, fun _ => h⟩

theorem Mirrors.setLocalIdentity_iff (h : s.Mirrors) (identity : Option SslIdentity) :
    (s.setLocalIdentity identity).1.Mirrors ↔
      Event.Compensated ssl s (.setLocalIdentity identity) := by
  unfold DtlsTransportChannelWrapper.setLocalIdentity Event.Compensated
  by_cases hstate : s.dtls_state_ = .none
  · rw [if_neg (not_not.mpr hstate)]
    obtain ⟨hreadable, hwritable⟩ := h.same (.inl hstate)
    cases identity with
    | none => exact ⟨fun _ hnone => absurd rfl hnone, fun _ => h⟩
    | some identity =>
      constructor
      · intro hmirrors _ _
        obtain ⟨hr, hw⟩ := hmirrors.neither State.noConfusion State.noConfusion
        exact ⟨hreadable.symm.trans hr, hwritable.symm.trans hw⟩
      · intro hcompensated
        obtain ⟨hr, hw⟩ := hcompensated (Option.some_ne_none _) hstate
        refine ⟨fun hsame => ?_, fun _ _ => ⟨hreadable.trans hr, hwritable.trans hw⟩,
          fun haccepted => State.noConfusion haccepted⟩
        rcases hsame with h | h <;> exact State.noConfusion h
  · rw [if_pos hstate]
    exact ⟨fun _ _ hnone => absurd hnone hstate, fun _ => h⟩

theorem Mirrors.setRemoteFingerprint_iff (h : s.Mirrors) {alg : Text} {digest : List U8}
    (heq : s.setRemoteFingerprint ssl alg digest = some r) :
    r.1.Mirrors ↔ Event.Compensated ssl s (.setRemoteFingerprint alg digest) := by
  unfold DtlsTransportChannelWrapper.setRemoteFingerprint at heq
  unfold Event.Compensated
  split at heq
  · rename_i hrefused
    cases heq
    refine ⟨fun _ hoffered => ?_, fun _ => h⟩
    rcases hrefused with ⟨-, hnot⟩ | ⟨hnone, -⟩
    · exact absurd hoffered hnot
    · rw [hnone] at hoffered
      exact State.noConfusion hoffered
  rename_i hstate
  have hoffered : s.dtls_state_ = .none ∨ s.dtls_state_ = .offered := by
    by_contra hnot
    exact hstate (.inl (not_or.mp hnot))
  split at heq
  · -- the other side does not do DTLS
    rename_i halg
    cases heq
    rcases hoffered with hnone | hoffered
    · refine ⟨fun _ hoffered => ?_, fun _ => h.congr rfl rfl rfl hnone.symm⟩
      rw [hnone] at hoffered
      exact State.noConfusion hoffered
    · obtain ⟨hreadable, hwritable⟩ := h.neither (by rw [hoffered]; exact State.noConfusion)
        (by rw [hoffered]; exact State.noConfusion)
      constructor
      · intro hmirrors _
        obtain ⟨hr, hw⟩ := hmirrors.same (.inl rfl)
        exact ⟨fun _ => ⟨hr.symm.trans hreadable, hw.symm.trans hwritable⟩,
          fun hne => absurd halg hne⟩
      · intro hcompensated
        obtain ⟨hr, hw⟩ := (hcompensated hoffered).1 halg
        exact ⟨fun _ => ⟨hreadable.trans hr.symm, hwritable.trans hw.symm⟩,
          fun hnone => absurd rfl hnone, fun haccepted => State.noConfusion haccepted⟩
  · rename_i halg
    have hoffered : s.dtls_state_ = .offered := hoffered.resolve_left fun hnone =>
      hstate (.inr ⟨hnone, halg⟩)
    obtain ⟨hreadable, hwritable⟩ := h.neither (by rw [hoffered]; exact State.noConfusion)
      (by rw [hoffered]; exact State.noConfusion)
    obtain ⟨r', hsetup, rfl⟩ := Option.map_eq_some_iff.mp heq
    have hiff := mirrors_setup_iff hsetup hreadable hwritable
    have hfst : (if r'.2 = true then ({ r'.1 with dtls_state_ := State.accepted }, true)
        else ({ r'.1 with dtls_state_ := State.closed }, false)).1 =
        if r'.2 then { r'.1 with dtls_state_ := .accepted }
        else { r'.1 with dtls_state_ := .closed } := by
      split <;> rfl
    rw [hfst, hiff]
    exact ⟨fun himp _ => ⟨fun hnil => absurd hnil halg, fun _ => himp⟩,
      fun hcompensated => (hcompensated hoffered).2 halg⟩

/-! ## Runs -/

/-- **A step keeps the flags right** if and only if it is compensated. -/
theorem Mirrors.step_iff (h : s.Mirrors) {e : Event}
    {r : DtlsTransportChannelWrapper × List Output} (heq : s.step ssl e = some r) :
    r.1.Mirrors ↔ e.Compensated ssl s := by
  have hkept {e : Event} (hmirrors : r.1.Mirrors) (hcompensated : e.Compensated ssl s) :
      r.1.Mirrors ↔ e.Compensated ssl s := iff_of_true hmirrors hcompensated
  cases e with
  | connect =>
    cases heq
    exact hkept h trivial
  | reset =>
    obtain ⟨s', hreset, rfl⟩ := Option.map_eq_some_iff.mp heq
    rw [reset_eq] at hreset
    obtain ⟨r', hsetup, rfl⟩ := Option.map_eq_some_iff.mp hreset
    exact hkept ((mirrors_setup_iff hsetup rfl rfl).mpr fun _ => rfl) trivial
  | setRole controlling =>
    cases heq
    exact hkept (h.congr rfl rfl rfl rfl) trivial
  | setLocalIdentity identity =>
    cases heq
    exact h.setLocalIdentity_iff identity
  | setRemoteFingerprint alg digest =>
    obtain ⟨r', hset, rfl⟩ := Option.map_eq_some_iff.mp heq
    exact h.setRemoteFingerprint_iff hset
  | setSrtpCiphers ciphers =>
    cases heq
    refine hkept ?_ trivial
    unfold DtlsTransportChannelWrapper.setSrtpCiphers
    split
    · exact h
    · exact h.congr rfl rfl rfl rfl
  | channelReadable readable =>
    cases heq
    exact hkept (h.channelReadable readable) trivial
  | channelWritable writable start =>
    obtain ⟨s', hset, rfl⟩ := Option.map_eq_some_iff.mp heq
    exact hkept (h.channelWritable hset) trivial
  | readPacket data =>
    obtain ⟨outputs, -, rfl⟩ := Option.map_eq_some_iff.mp heq
    exact hkept h trivial
  | dtlsEvent sig isOpen read =>
    cases heq
    exact h.onDtlsEvent_iff sig isOpen read
  | sendPacket data flags result writeAll =>
    obtain ⟨r', -, rfl⟩ := Option.map_eq_some_iff.mp heq
    exact hkept h trivial

theorem compensated_of_step_none {e : Event} (h : s.step ssl e = none) : e.Compensated ssl s := by
  cases e with
  | setLocalIdentity identity => exact absurd h (Option.some_ne_none _)
  | dtlsEvent sig isOpen read => exact absurd h (Option.some_ne_none _)
  | setRemoteFingerprint alg digest =>
    have hset := Option.map_eq_none_iff.mp h
    unfold DtlsTransportChannelWrapper.setRemoteFingerprint at hset
    split at hset
    · exact absurd hset (Option.some_ne_none _)
    split at hset
    · exact absurd hset (Option.some_ne_none _)
    · rename_i halg
      have hidentity := (setupDtls_eq_none_iff.mp (Option.map_eq_none_iff.mp hset)).2
      exact fun _ => ⟨fun hnil => absurd hnil halg, fun _ hsetsUp => absurd hidentity hsetsUp.2.1⟩
  | connect | reset | setRole _ | setSrtpCiphers _ | channelReadable _ | channelWritable _ _
  | readPacket _ | sendPacket _ _ _ _ => trivial

theorem mirrors_new : new.Mirrors where
  same _ := ⟨rfl, rfl⟩
  neither hnone := absurd rfl hnone
  waiting h := State.noConfusion h

/-- **The flags follow the channel below.** In a run every state has the flags that the state
transition logic intends if and only if every step is compensated. -/
theorem flags_mirror (ssl : SslImplementation) (events : List Event) :
    (∀ st ∈ run ssl new events, ∀ r ∈ st.after, r.1.Mirrors) ↔
      ∀ st ∈ run ssl new events, st.event.Compensated ssl st.before := by
  have hrun : ∀ events s, s.Mirrors →
      ((∀ st ∈ run ssl s events, ∀ r ∈ st.after, r.1.Mirrors) ↔
        ∀ st ∈ run ssl s events, st.event.Compensated ssl st.before) := by
    intro events
    induction events with
    | nil => exact fun s _ => iff_of_true (List.forall_mem_nil _) (List.forall_mem_nil _)
    | cons e events ih =>
      intro s hs
      rw [run, List.forall_mem_cons, List.forall_mem_cons]
      cases hstep : s.step ssl e with
      | none =>
        exact iff_of_true ⟨fun r hr => absurd hr (Option.not_mem_none r), List.forall_mem_nil _⟩
          ⟨compensated_of_step_none hstep, List.forall_mem_nil _⟩
      | some r =>
        have hone : (∀ r' ∈ some r, r'.1.Mirrors) ↔ e.Compensated ssl s := by
          rw [← hs.step_iff hstep]
          exact ⟨fun hall => hall r rfl, fun hr r' hr' => Option.mem_some.mp hr' ▸ hr⟩
        constructor
        · rintro ⟨hmirrors, hbehind⟩
          exact ⟨hone.mp hmirrors, (ih r.1 (hmirrors r rfl)).mp hbehind⟩
        · rintro ⟨hcompensated, hbehind⟩
          have hmirrors := hone.mpr hcompensated
          exact ⟨hmirrors, (ih r.1 (hmirrors r rfl)).mpr hbehind⟩
  exact hrun events new mirrors_new

/-- The fingerprint comes when the channel below is writable; the channel below is not writable any
more when the handshake is over; the other side does not do DTLS on a channel that is writable; and
the identity is set on one. -/
theorem missed_edges :
    List.Forall
      (fun events => (∀ st ∈ run sha256 new events, st.before.Possible st.event) ∧
        ¬ ∀ st ∈ run sha256 new events, ∀ r ∈ st.after, r.1.Mirrors)
      [[.setLocalIdentity (some "identity".toList), .channelWritable true 0,
          .setRemoteFingerprint "sha-256".toList (List.replicate 32 7)],
        [.setLocalIdentity (some "identity".toList),
          .setRemoteFingerprint "sha-256".toList (List.replicate 32 7), .channelWritable true 0,
          .channelWritable false 0, .dtlsEvent ⟨true, false, false⟩ true none],
        [.setLocalIdentity (some "identity".toList), .channelWritable true 0,
          .setRemoteFingerprint [] []],
        [.channelWritable true 0, .setLocalIdentity (some "identity".toList)]] := by
  decide

end Libjingle.DtlsTransportChannelWrapper
