import Libjingle.Lib.History
import Libjingle.P2p.DtlsTransportChannel

/-!
# What DTLS protects (`p2p/base/dtlstransportchannel.cc`)

Over the calls and events of a wrapper: it is accepted, started or open only with an identity and a
fingerprint; after a fingerprint was accepted, only SRTP packets that ask for it go down as they
are; and `local_identity_` is not used before it is set, unless `Reset` is called before.

## Results

* `dtls_safety`: what holds in every run, and when no null pointer is used.
* `reset_without_identity`: a `Reset` that uses one.
-/

namespace Libjingle.DtlsTransportChannelWrapper

open Lib

variable {ssl : SslImplementation} {s s' : DtlsTransportChannelWrapper}

/-- DTLS is about to be done or is done. -/
def Active (s : DtlsTransportChannelWrapper) : Prop :=
  s.dtls_state_ = .accepted ∨ s.dtls_state_ = .started ∨ s.dtls_state_ = .opened

/-- A local identity and a fingerprint of the other side were set. -/
def Identified (s : DtlsTransportChannelWrapper) : Prop :=
  s.local_identity_ ≠ none ∧ s.remote_fingerprint_algorithm_ ≠ []

structure Secured (s : DtlsTransportChannelWrapper) : Prop where
  active : s.Active → s.Identified ∧ s.dtls_ ≠ none
  offered : s.dtls_state_ = .offered → s.local_identity_ ≠ none
  started : ∀ a ∈ s.dtls_, a.started = true → s.Identified

theorem not_active_of_closed (h : s.dtls_state_ = .closed) : ¬ s.Active := by
  rw [Active, h]
  decide

theorem secured_new : new.Secured where
  active h := by
    rcases h with h | h | h <;> exact State.noConfusion h
  offered h := State.noConfusion h
  started a ha := absurd ha (Option.not_mem_none a)

/-- A fingerprint was accepted: from here on packets are not passed on as they are. -/
def Bound (s : DtlsTransportChannelWrapper) : Prop :=
  s.dtls_state_ ≠ .none ∧ s.dtls_state_ ≠ .offered

theorem Secured.of_flags (h : s.Secured) (channel : TransportChannelFlags)
    (readable writable : Bool) :
    Secured { s with channel_ := channel, readable_ := readable, writable_ := writable } :=
  ⟨h.active, h.offered, h.started⟩

theorem Secured.closed (h : s.Secured) : Secured { s with dtls_state_ := .closed } where
  active hactive := absurd hactive (not_active_of_closed rfl)
  offered hoffered := State.noConfusion hoffered
  started := h.started

theorem secured_setupDtls (hssl : ∀ digest, ssl.acceptsDigest [] digest = false)
    {ok : Bool} (heq : setupDtls ssl s = some (s', ok)) :
    Secured (if ok then { s' with dtls_state_ := .accepted }
      else { s' with dtls_state_ := .closed }) := by
  obtain ⟨dtls, rfl, hfresh, hok⟩ := setupDtls_eq_some heq
  have hstarted : ∀ a ∈ dtls, a.started = true → s.Identified := fun a ha hs =>
    (Bool.false_ne_true ((hfresh a ha).1.symm.trans hs)).elim
  cases ok with
  | false =>
    rw [if_neg Bool.false_ne_true]
    exact ⟨fun hactive => absurd hactive (not_active_of_closed rfl),
      fun hoffered => State.noConfusion hoffered, hstarted⟩
  | true =>
    obtain ⟨hne, haccepts⟩ := hok rfl
    obtain ⟨a, ha⟩ := Option.ne_none_iff_exists'.mp hne
    rw [if_pos rfl]
    refine ⟨fun _ => ⟨⟨(hfresh a ha).2, fun halg => ?_⟩, hne⟩,
      fun hoffered => State.noConfusion hoffered, hstarted⟩
    rw [show s.remote_fingerprint_algorithm_ = [] from halg, hssl] at haccepts
    exact Bool.false_ne_true haccepts

variable {start : Int}

theorem Secured.maybeStartDtls (h : s.Secured) (haccepted : s.dtls_state_ = .accepted)
    (heq : s.maybeStartDtls start = some s') : s'.Secured := by
  unfold DtlsTransportChannelWrapper.maybeStartDtls at heq
  have hidentified := (h.active (.inl haccepted)).1
  split at heq
  · obtain ⟨a, -, rfl⟩ := Option.map_eq_some_iff.mp heq
    split
    · exact ⟨fun hactive => absurd hactive (not_active_of_closed rfl),
        fun hoffered => State.noConfusion hoffered, fun _ _ _ => hidentified⟩
    · exact ⟨fun _ => ⟨hidentified, Option.some_ne_none _⟩,
        fun hoffered => State.noConfusion hoffered, fun _ _ _ => hidentified⟩
  · obtain rfl := Option.some.inj heq
    exact h

/-! ## One step -/

/-- The adapter signals only while there is one, and it is open only after it was started. -/
def Possible (s : DtlsTransportChannelWrapper) : Event → Prop
  | .dtlsEvent _ isOpen _ => s.dtls_.any (fun a => !isOpen || a.started) = true
  | _ => True

instance (s : DtlsTransportChannelWrapper) : DecidablePred s.Possible
  | .dtlsEvent _ _ _ => inferInstanceAs (Decidable (_ = true))
  | .connect | .reset | .setRole _ | .setLocalIdentity _ | .setRemoteFingerprint _ _
  | .setSrtpCiphers _ | .channelReadable _ | .channelWritable _ _ | .readPacket _
  | .sendPacket _ _ _ _ => instDecidableTrue

variable {sig : DtlsSignal} {isOpen : Bool} {read : Option (List U8)}

theorem exists_adapter (h : s.Possible (.dtlsEvent sig isOpen read)) :
    ∃ a, s.dtls_ = some a ∧ (isOpen = true → a.started = true) := by
  rw [Possible] at h
  cases hdtls : s.dtls_ with
  | none =>
    rw [hdtls] at h
    exact (Bool.false_ne_true h).elim
  | some a =>
    refine ⟨a, rfl, fun hisOpen => ?_⟩
    rw [hdtls, hisOpen] at h
    exact h

theorem Secured.onDtlsEvent (h : s.Secured) (hpossible : s.Possible (.dtlsEvent sig isOpen read)) :
    (s.onDtlsEvent sig isOpen read).1.Secured := by
  obtain ⟨a, ha, hstarted⟩ := exists_adapter hpossible
  have hopened : Secured (if sig.seOpen = true ∧ isOpen = true then
      { s with dtls_state_ := .opened, readable_ := true, writable_ := true } else s) := by
    split
    · rename_i hopen
      have hidentified := h.started a ha (hstarted hopen.2)
      exact ⟨fun _ => ⟨hidentified, ha ▸ Option.some_ne_none a⟩,
        fun hoffered => State.noConfusion hoffered, h.started⟩
    · exact h
  unfold DtlsTransportChannelWrapper.onDtlsEvent
  simp only
  split
  · exact (hopened.of_flags _ false false).closed
  · exact hopened

theorem Secured.channelReadable (h : s.Secured) (readable : Bool) :
    (s.channelReadable readable).Secured := by
  unfold DtlsTransportChannelWrapper.channelReadable
  split
  · unfold onReadableState
    split
    · exact h.of_flags _ _ s.writable_
    · exact h.of_flags _ s.readable_ s.writable_
  · exact h

theorem Secured.channelWritable (h : s.Secured) {writable : Bool}
    (heq : s.channelWritable writable start = some s') : s'.Secured := by
  unfold DtlsTransportChannelWrapper.channelWritable at heq
  split at heq
  · have hflags := h.of_flags ⟨s.channel_.readable, writable⟩ s.readable_ s.writable_
    rw [onWritableState_eq] at heq
    split at heq
    · obtain rfl := Option.some.inj heq
      exact h.of_flags ⟨s.channel_.readable, writable⟩ s.readable_ writable
    split at heq
    · rename_i haccepted
      exact hflags.maybeStartDtls haccepted heq
    · obtain rfl := Option.some.inj heq
      exact hflags
  · obtain rfl := Option.some.inj heq
    exact h

variable {alg : Text} {digest : List U8}

theorem Secured.setRemoteFingerprint (h : s.Secured)
    (hssl : ∀ digest, ssl.acceptsDigest [] digest = false)
    {ok : Bool} (heq : s.setRemoteFingerprint ssl alg digest = some (s', ok)) : s'.Secured := by
  unfold DtlsTransportChannelWrapper.setRemoteFingerprint at heq
  split at heq
  · obtain ⟨rfl, -⟩ := Prod.mk.inj (Option.some.inj heq)
    exact h
  split at heq
  · obtain ⟨rfl, -⟩ := Prod.mk.inj (Option.some.inj heq)
    refine ⟨fun hactive => ?_, fun hoffered => State.noConfusion hoffered, h.started⟩
    rcases hactive with h | h | h <;> exact State.noConfusion h
  · obtain ⟨⟨s'', ok'⟩, hsetup, hresult⟩ := Option.map_eq_some_iff.mp heq
    have hsecured := secured_setupDtls hssl hsetup
    split at hresult <;> rename_i hok
    · obtain ⟨rfl, -⟩ := Prod.mk.inj hresult
      rwa [if_pos hok] at hsecured
    · obtain ⟨rfl, -⟩ := Prod.mk.inj hresult
      rwa [if_neg hok] at hsecured

/-- **A step keeps the channel secured.** -/
theorem Secured.step (h : s.Secured) (hssl : ∀ digest, ssl.acceptsDigest [] digest = false)
    {e : Event} (hpossible : s.Possible e) {outputs : List Output}
    (heq : s.step ssl e = some (s', outputs)) : s'.Secured := by
  cases e with
  | connect =>
    obtain ⟨rfl, -⟩ := Prod.mk.inj (Option.some.inj heq)
    exact h
  | reset =>
    obtain ⟨r, hreset, hr⟩ := Option.map_eq_some_iff.mp heq
    obtain ⟨rfl, -⟩ := Prod.mk.inj hr
    rw [reset_eq] at hreset
    obtain ⟨⟨s'', ok⟩, hsetup, rfl⟩ := Option.map_eq_some_iff.mp hreset
    exact secured_setupDtls hssl hsetup
  | setRole controlling =>
    obtain ⟨rfl, -⟩ := Prod.mk.inj (Option.some.inj heq)
    exact ⟨h.active, h.offered, h.started⟩
  | setLocalIdentity identity =>
    obtain ⟨rfl, -⟩ := Prod.mk.inj (Option.some.inj heq)
    unfold setLocalIdentity
    split
    · exact h
    cases identity with
    | none => exact h
    | some identity =>
      refine ⟨fun hactive => ?_, fun _ => Option.some_ne_none _,
        fun a ha hs => ⟨Option.some_ne_none _, (h.started a ha hs).2⟩⟩
      rcases hactive with h | h | h <;> exact State.noConfusion h
  | setRemoteFingerprint alg digest =>
    obtain ⟨⟨s'', ok⟩, hset, hr⟩ := Option.map_eq_some_iff.mp heq
    obtain ⟨rfl, -⟩ := Prod.mk.inj hr
    exact h.setRemoteFingerprint hssl hset
  | setSrtpCiphers ciphers =>
    obtain ⟨rfl, -⟩ := Prod.mk.inj (Option.some.inj heq)
    unfold setSrtpCiphers
    split
    · exact h
    · exact ⟨h.active, h.offered, h.started⟩
  | channelReadable readable =>
    obtain ⟨rfl, -⟩ := Prod.mk.inj (Option.some.inj heq)
    exact h.channelReadable readable
  | channelWritable writable start =>
    obtain ⟨r, hset, hr⟩ := Option.map_eq_some_iff.mp heq
    obtain ⟨rfl, -⟩ := Prod.mk.inj hr
    exact h.channelWritable hset
  | readPacket data =>
    obtain ⟨r, -, hr⟩ := Option.map_eq_some_iff.mp heq
    obtain ⟨rfl, -⟩ := Prod.mk.inj hr
    exact h
  | dtlsEvent sig isOpen read =>
    obtain rfl := (congrArg Prod.fst (Option.some.inj heq))
    exact h.onDtlsEvent hpossible
  | sendPacket data flags result writeAll =>
    obtain ⟨r, -, hr⟩ := Option.map_eq_some_iff.mp heq
    obtain ⟨rfl, -⟩ := Prod.mk.inj hr
    exact h

theorem maybeStartDtls_eq_none_iff :
    s.maybeStartDtls start = none ↔ s.channel_.writable = true ∧ s.dtls_ = none := by
  unfold maybeStartDtls
  cases s.channel_.writable with
  | false => simp
  | true => simp

/-- **A null pointer is used** only by a `Reset` without an identity. -/
theorem step_eq_none_iff (h : s.Secured) (e : Event) :
    s.step ssl e = none ↔ e = .reset ∧ ssl.available = true ∧ s.local_identity_ = none := by
  have hother (hne : e ≠ .reset) (hsome : s.step ssl e ≠ none) :
      s.step ssl e = none ↔ e = .reset ∧ ssl.available = true ∧ s.local_identity_ = none :=
    ⟨fun hnone => absurd hnone hsome, fun hreset => absurd hreset.1 hne⟩
  cases e with
  | reset =>
    have hreset : s.step ssl .reset = none ↔ s.reset ssl = none := Option.map_eq_none_iff
    rw [hreset, reset_eq, Option.map_eq_none_iff, setupDtls_eq_none_iff]
    exact (and_iff_right rfl).symm
  | connect => exact hother Event.noConfusion (Option.some_ne_none _)
  | setRole controlling => exact hother Event.noConfusion (Option.some_ne_none _)
  | setLocalIdentity identity => exact hother Event.noConfusion (Option.some_ne_none _)
  | setSrtpCiphers ciphers => exact hother Event.noConfusion (Option.some_ne_none _)
  | channelReadable readable => exact hother Event.noConfusion (Option.some_ne_none _)
  | dtlsEvent sig isOpen read => exact hother Event.noConfusion (Option.some_ne_none _)
  | setRemoteFingerprint alg digest =>
    refine hother Event.noConfusion fun hnone => ?_
    have hset := Option.map_eq_none_iff.mp hnone
    unfold DtlsTransportChannelWrapper.setRemoteFingerprint at hset
    split at hset
    · exact Option.some_ne_none _ hset
    rename_i hstate
    split at hset
    · exact Option.some_ne_none _ hset
    rename_i halg
    -- the fingerprint is accepted in one state, which has an identity
    have hoffered : s.dtls_state_ = .offered := by
      by_contra hoffered
      refine hstate (.inr ⟨?_, halg⟩)
      by_contra hnot
      exact hstate (.inl ⟨hnot, hoffered⟩)
    exact h.offered hoffered (setupDtls_eq_none_iff.mp (Option.map_eq_none_iff.mp hset)).2
  | channelWritable writable start =>
    refine hother Event.noConfusion fun hnone => ?_
    have hset := Option.map_eq_none_iff.mp hnone
    unfold DtlsTransportChannelWrapper.channelWritable at hset
    split at hset
    · rw [onWritableState_eq] at hset
      split at hset
      · exact Option.some_ne_none _ hset
      split at hset
      · rename_i haccepted
        exact (h.active (.inl haccepted)).2 (maybeStartDtls_eq_none_iff.mp hset).2
      · exact Option.some_ne_none _ hset
    · exact Option.some_ne_none _ hset
  | readPacket data =>
    refine hother Event.noConfusion fun hnone => ?_
    have hread := Option.map_eq_none_iff.mp hnone
    have hactive : s.Active ∨ s.onReadPacket data ≠ none := by
      unfold Active onReadPacket
      cases s.dtls_state_ <;> simp
    rcases hactive with hactive | hsome
    · obtain ⟨a, ha⟩ := Option.ne_none_iff_exists'.mp (h.active hactive).2
      revert hread
      unfold onReadPacket
      rw [ha, Option.map_some]
      split <;> (repeat' split) <;> exact Option.some_ne_none _
    · exact hsome hread
  | sendPacket data flags result writeAll =>
    refine hother Event.noConfusion fun hnone => ?_
    have hsend := Option.map_eq_none_iff.mp hnone
    revert hsend
    unfold DtlsTransportChannelWrapper.sendPacket
    cases hstate : s.dtls_state_ with
    | opened =>
      obtain ⟨a, ha⟩ := Option.ne_none_iff_exists'.mp (h.active (.inr (.inr hstate))).2
      rw [ha, Option.map_some]
      simp only
      split
      · split <;> exact Option.some_ne_none _
      · exact Option.some_ne_none _
    | none | offered | accepted | started | closed => exact Option.some_ne_none _

variable {data : List U8} {outputs : List Output}

theorem onReadPacket_sent
    (h : s.onReadPacket data = some outputs) (packet : List U8) : .sent packet ∉ outputs := by
  unfold onReadPacket at h
  cases hstate : s.dtls_state_ with
  | none =>
    simp only [hstate] at h
    cases h
    exact fun hmem => Output.noConfusion (List.mem_singleton.mp hmem)
  | offered | accepted | closed =>
    simp only [hstate] at h
    cases h
    exact List.not_mem_nil
  | started | opened =>
    simp only [hstate] at h
    split at h
    · split at h
      · obtain ⟨a, -, rfl⟩ := Option.map_eq_some_iff.mp h
        exact fun hmem => Output.noConfusion (List.mem_singleton.mp hmem)
      · cases h
        exact List.not_mem_nil
    split at h
    · cases h
      exact List.not_mem_nil
    split at h
    · cases h
      exact fun hmem => Output.noConfusion (List.mem_singleton.mp hmem)
    · cases h
      exact List.not_mem_nil

theorem onDtlsEvent_sent (s : DtlsTransportChannelWrapper) (sig : DtlsSignal) (isOpen : Bool)
    (read : Option (List U8)) (packet : List U8) :
    .sent packet ∉ (s.onDtlsEvent sig isOpen read).2 := by
  unfold onDtlsEvent
  simp only
  split
  · rw [List.mem_map]
    rintro ⟨data, -, hdata⟩
    cases hdata
  · exact List.not_mem_nil

theorem Bound.sendPacket (h : s.Bound) {packet data : List U8} {flags : U32} {result : Int}
    {writeAll : Bool} {r : Int × List Output}
    (hsend : s.sendPacket packet flags result writeAll = some r) (hsent : .sent data ∈ r.2) :
    packet = data ∧ flags &&& pfSrtpBypass ≠ 0 := by
  unfold DtlsTransportChannelWrapper.sendPacket at hsend
  split at hsend
  · cases hsend
    exact absurd hsent List.not_mem_nil
  · cases hsend
    exact absurd hsent List.not_mem_nil
  · cases hsend
    exact absurd hsent List.not_mem_nil
  · cases hsend
    exact absurd hsent List.not_mem_nil
  · split at hsend
    · rename_i hflags
      split at hsend
      · cases hsend
        obtain rfl := Output.sent.inj (List.mem_singleton.mp hsent)
        exact ⟨rfl, hflags⟩
      · cases hsend
        exact absurd hsent List.not_mem_nil
    · obtain ⟨a, -, rfl⟩ := Option.map_eq_some_iff.mp hsend
      exact absurd (List.mem_singleton.mp hsent) Output.noConfusion
  · rename_i hnone
    exact absurd hnone h.1

/-- **What goes down as it is**, once a fingerprint was accepted, is an SRTP packet that asks for
it. -/
theorem Bound.sent (h : s.Bound) {e : Event}
    (heq : s.step ssl e = some (s', outputs)) (hsent : .sent data ∈ outputs) :
    ∃ flags result writeAll, e = .sendPacket data flags result writeAll ∧
      flags &&& pfSrtpBypass ≠ 0 := by
  have hnone {outputs' : List Output} (hout : outputs' = outputs) (hnil : outputs' = []) : False :=
    List.not_mem_nil (hnil ▸ hout ▸ hsent)
  cases e with
  | connect =>
    obtain ⟨-, rfl⟩ := Prod.mk.inj (Option.some.inj heq)
    exact absurd (List.mem_singleton.mp hsent) Output.noConfusion
  | setRole controlling => exact (hnone (Prod.mk.inj (Option.some.inj heq)).2 rfl).elim
  | setLocalIdentity identity => exact (hnone (Prod.mk.inj (Option.some.inj heq)).2 rfl).elim
  | setSrtpCiphers ciphers => exact (hnone (Prod.mk.inj (Option.some.inj heq)).2 rfl).elim
  | channelReadable readable => exact (hnone (Prod.mk.inj (Option.some.inj heq)).2 rfl).elim
  | reset =>
    obtain ⟨r, -, hr⟩ := Option.map_eq_some_iff.mp heq
    exact (hnone (Prod.mk.inj hr).2 rfl).elim
  | setRemoteFingerprint alg digest =>
    obtain ⟨r, -, hr⟩ := Option.map_eq_some_iff.mp heq
    exact (hnone (Prod.mk.inj hr).2 rfl).elim
  | channelWritable writable start =>
    obtain ⟨r, -, hr⟩ := Option.map_eq_some_iff.mp heq
    exact (hnone (Prod.mk.inj hr).2 rfl).elim
  | readPacket packet =>
    obtain ⟨outputs', hread, hr⟩ := Option.map_eq_some_iff.mp heq
    obtain ⟨-, rfl⟩ := Prod.mk.inj hr
    exact absurd hsent (onReadPacket_sent hread data)
  | dtlsEvent sig isOpen read =>
    obtain ⟨-, rfl⟩ := Prod.mk.inj (Option.some.inj heq)
    exact absurd hsent (onDtlsEvent_sent s sig isOpen read data)
  | sendPacket packet flags result writeAll =>
    obtain ⟨r, hsend, hr⟩ := Option.map_eq_some_iff.mp heq
    obtain ⟨-, rfl⟩ := Prod.mk.inj hr
    obtain ⟨rfl, hflags⟩ := h.sendPacket hsend hsent
    exact ⟨flags, result, writeAll, rfl, hflags⟩

theorem bound_of_setup {r : DtlsTransportChannelWrapper × Bool} :
    Bound (if r.2 then { r.1 with dtls_state_ := .accepted }
      else { r.1 with dtls_state_ := .closed }) := by
  split
  · exact ⟨State.noConfusion, State.noConfusion⟩
  · exact ⟨State.noConfusion, State.noConfusion⟩

theorem Bound.maybeStartDtls (h : s.Bound) (heq : s.maybeStartDtls start = some s') : s'.Bound := by
  unfold DtlsTransportChannelWrapper.maybeStartDtls at heq
  split at heq
  · obtain ⟨a, -, rfl⟩ := Option.map_eq_some_iff.mp heq
    split
    · exact ⟨State.noConfusion, State.noConfusion⟩
    · exact ⟨State.noConfusion, State.noConfusion⟩
  · obtain rfl := Option.some.inj heq
    exact h

theorem Bound.step (h : s.Bound) {e : Event} {outputs : List Output}
    (heq : s.step ssl e = some (s', outputs)) : s'.Bound := by
  cases e with
  | connect =>
    obtain ⟨rfl, -⟩ := Prod.mk.inj (Option.some.inj heq)
    exact h
  | reset =>
    obtain ⟨r, hreset, hr⟩ := Option.map_eq_some_iff.mp heq
    obtain ⟨rfl, -⟩ := Prod.mk.inj hr
    rw [reset_eq] at hreset
    obtain ⟨r', -, rfl⟩ := Option.map_eq_some_iff.mp hreset
    exact bound_of_setup
  | setRole controlling =>
    obtain ⟨rfl, -⟩ := Prod.mk.inj (Option.some.inj heq)
    exact h
  | setLocalIdentity identity =>
    obtain ⟨rfl, -⟩ := Prod.mk.inj (Option.some.inj heq)
    unfold setLocalIdentity
    rw [if_pos h.1]
    exact h
  | setRemoteFingerprint alg digest =>
    obtain ⟨r, hset, hr⟩ := Option.map_eq_some_iff.mp heq
    obtain ⟨rfl, -⟩ := Prod.mk.inj hr
    rw [setRemoteFingerprint, if_pos (.inl ⟨h.1, h.2⟩)] at hset
    cases hset
    exact h
  | setSrtpCiphers ciphers =>
    obtain ⟨rfl, -⟩ := Prod.mk.inj (Option.some.inj heq)
    unfold setSrtpCiphers
    split
    · exact h
    · exact h
  | channelReadable readable =>
    obtain ⟨rfl, -⟩ := Prod.mk.inj (Option.some.inj heq)
    unfold channelReadable onReadableState
    split
    · split
      · exact h
      · exact h
    · exact h
  | channelWritable writable start =>
    obtain ⟨r, hset, hr⟩ := Option.map_eq_some_iff.mp heq
    obtain ⟨rfl, -⟩ := Prod.mk.inj hr
    unfold channelWritable at hset
    split at hset
    · rw [onWritableState_eq] at hset
      split at hset
      · cases hset
        exact h
      split at hset
      · refine Bound.maybeStartDtls ?_ hset
        exact h
      · cases hset
        exact h
    · cases hset
      exact h
  | readPacket data =>
    obtain ⟨r, -, hr⟩ := Option.map_eq_some_iff.mp heq
    obtain ⟨rfl, -⟩ := Prod.mk.inj hr
    exact h
  | dtlsEvent sig isOpen read =>
    obtain rfl := (congrArg Prod.fst (Option.some.inj heq))
    unfold onDtlsEvent
    simp only
    split
    · exact ⟨State.noConfusion, State.noConfusion⟩
    · split
      · exact ⟨State.noConfusion, State.noConfusion⟩
      · exact h
  | sendPacket data flags result writeAll =>
    obtain ⟨r, -, hr⟩ := Option.map_eq_some_iff.mp heq
    obtain ⟨rfl, -⟩ := Prod.mk.inj hr
    exact h

theorem bound_of_accepts (halg : alg ≠ [])
    (heq : s.setRemoteFingerprint ssl alg digest = some (s', true)) : s'.Bound := by
  unfold setRemoteFingerprint at heq
  split at heq
  · exact absurd (Prod.mk.inj (Option.some.inj heq)).2 Bool.false_ne_true
  obtain ⟨r, -, hr⟩ := Option.map_eq_some_iff.mp heq
  split at hr
  · obtain ⟨rfl, -⟩ := Prod.mk.inj hr
    exact ⟨State.noConfusion, State.noConfusion⟩
  · exact absurd (Prod.mk.inj hr).2 Bool.false_ne_true

/-! ## Runs -/

/-- A call or an event with the state before it and its result. -/
structure Step where
  before : DtlsTransportChannelWrapper
  event : Event
  after : Option (DtlsTransportChannelWrapper × List Output)

/-- The steps of a sequence of calls and events; the one that uses a null pointer is the last. -/
def run (ssl : SslImplementation) : DtlsTransportChannelWrapper → List Event → List Step
  | _, [] => []
  | s, e :: events =>
    ⟨s, e, s.step ssl e⟩ :: (s.step ssl e).elim [] fun r => run ssl r.1 events

/-- A fingerprint that is not empty is accepted. -/
def Event.accepts (ssl : SslImplementation) (s : DtlsTransportChannelWrapper) : Event → Bool
  | .setRemoteFingerprint alg digest =>
    alg ≠ [] && (s.setRemoteFingerprint ssl alg digest).any Prod.snd
  | _ => false

namespace Step

/-- Whether a fingerprint has been accepted, after another step. -/
def addAccepted (ssl : SslImplementation) (accepted : Bool) (st : Step) : Bool :=
  accepted || st.event.accepts ssl st.before

/-- The state after a step is active only with an identity and a fingerprint; and once a fingerprint
has been accepted, what goes down as it is asks for it. -/
def Secures (accepted : Bool) (st : Step) : Prop :=
  ∀ r ∈ st.after, (r.1.Active → r.1.Identified) ∧
    (accepted = true → ∀ data, .sent data ∈ r.2 → ∃ flags result writeAll,
      st.event = .sendPacket data flags result writeAll ∧ flags &&& pfSrtpBypass ≠ 0)

/-- A `Reset` comes after an identity was set. -/
def Guarded (ssl : SslImplementation) (st : Step) : Prop :=
  st.event = .reset → ssl.available = true → st.before.local_identity_ ≠ none

end Step

theorem bound_addAccepted {accepted : Bool} (h : accepted = true → s.Bound) {e : Event}
    {r : DtlsTransportChannelWrapper × List Output} (hstep : s.step ssl e = some r)
    {after : Option (DtlsTransportChannelWrapper × List Output)}
    (haccepted : Step.addAccepted ssl accepted ⟨s, e, after⟩ = true) : r.1.Bound := by
  rcases Bool.or_eq_true_iff.mp haccepted with haccepted | haccepts
  · exact (h haccepted).step hstep
  cases e with
  | setRemoteFingerprint alg digest =>
    obtain ⟨halg, hany⟩ := Bool.and_eq_true_iff.mp haccepts
    obtain ⟨⟨s', ok⟩, hset, hr⟩ := Option.map_eq_some_iff.mp hstep
    obtain rfl : ok = true := by
      rw [show Step.before ⟨s, Event.setRemoteFingerprint alg digest, after⟩ = s from rfl, hset]
        at hany
      exact hany
    rw [← hr]
    exact bound_of_accepts (of_decide_eq_true halg) hset
  | _ => exact (Bool.false_ne_true haccepts).elim

/-- **DTLS is safe.** In every run DTLS is active only with an identity and a fingerprint, and after
a fingerprint was accepted only SRTP packets that ask for it go down as they are. No null pointer is
used besides if and only if every `Reset` comes after an identity was set. -/
theorem dtls_safety (hssl : ∀ digest, ssl.acceptsDigest [] digest = false) {events : List Event}
    (hpossible : ∀ st ∈ run ssl new events, st.before.Possible st.event) :
    Along (Step.addAccepted ssl) Step.Secures false (run ssl new events) ∧
      (Along (Step.addAccepted ssl) (fun accepted st => st.Secures accepted ∧ st.after ≠ none) false
          (run ssl new events) ↔
        Along (Step.addAccepted ssl) (fun _ st => st.Guarded ssl) false (run ssl new events)) := by
  have hrun : ∀ events s accepted, s.Secured → (accepted = true → s.Bound) →
      (∀ st ∈ run ssl s events, st.before.Possible st.event) →
      Along (Step.addAccepted ssl) Step.Secures accepted (run ssl s events) ∧
        (Along (Step.addAccepted ssl) (fun accepted st => st.Secures accepted ∧ st.after ≠ none)
            accepted (run ssl s events) ↔
          Along (Step.addAccepted ssl) (fun _ st => st.Guarded ssl) accepted
            (run ssl s events)) := by
    intro events
    induction events with
    | nil => exact fun _ _ _ _ _ => ⟨trivial, Iff.rfl⟩
    | cons e events ih =>
      intro s accepted hs hbound hpossible
      rw [run, List.forall_mem_cons] at hpossible
      have hsecures : Step.Secures accepted ⟨s, e, s.step ssl e⟩ := fun r hr =>
        ⟨fun hactive => ((hs.step hssl hpossible.1 hr).active hactive).1,
          fun haccepted data hsent => (hbound haccepted).sent hr hsent⟩
      have hguarded : (Step.Secures accepted ⟨s, e, s.step ssl e⟩ ∧ s.step ssl e ≠ none) ↔
          Step.Guarded ssl ⟨s, e, s.step ssl e⟩ := by
        rw [and_iff_right hsecures, Ne, step_eq_none_iff hs e, not_and, not_and]
        exact Iff.rfl
      have hrest : Along (Step.addAccepted ssl) Step.Secures
            (Step.addAccepted ssl accepted ⟨s, e, s.step ssl e⟩)
            ((s.step ssl e).elim [] fun r => run ssl r.1 events) ∧
          (Along (Step.addAccepted ssl) (fun accepted st => st.Secures accepted ∧ st.after ≠ none)
              (Step.addAccepted ssl accepted ⟨s, e, s.step ssl e⟩)
              ((s.step ssl e).elim [] fun r => run ssl r.1 events) ↔
            Along (Step.addAccepted ssl) (fun _ st => st.Guarded ssl)
              (Step.addAccepted ssl accepted ⟨s, e, s.step ssl e⟩)
              ((s.step ssl e).elim [] fun r => run ssl r.1 events)) := by
        have hbehind := hpossible.2
        cases hstep : s.step ssl e with
        | none => exact ⟨trivial, Iff.rfl⟩
        | some r =>
          rw [hstep] at hbehind
          exact ih r.1 _ (hs.step hssl hpossible.1 hstep) (bound_addAccepted hbound hstep) hbehind
      exact ⟨⟨hsecures, hrest.1⟩, and_congr hguarded hrest.2⟩
  exact hrun events new false secured_new (fun h => (Bool.false_ne_true h).elim) hpossible

/-- A library that knows one digest. -/
def sha256 : SslImplementation :=
  ⟨true, fun alg digest => alg = "sha-256".toList && digest.length = 32, fun _ => true⟩

/-- A handshake, two packets, and a reset. -/
def handshake : List Event :=
  [.setLocalIdentity (some "identity".toList),
    .setRemoteFingerprint "sha-256".toList (List.replicate 32 7), .channelWritable true 0,
    .dtlsEvent ⟨true, false, false⟩ true none, .sendPacket [1, 2] 0 2 true,
    .sendPacket (0x80 :: List.replicate 11 0) pfSrtpBypass 12 true, .reset]

theorem dtls_safety_handshake :
    ((run sha256 new handshake).map fun st => st.after.map fun r => (r.1.dtls_state_, r.2)) =
        [some (.offered, []), some (.accepted, []), some (.started, []), some (.opened, []),
          some (.opened, [.written [1, 2]]),
          some (.opened, [.sent (0x80 :: List.replicate 11 0)]), some (.accepted, [])] ∧
      Along (Step.addAccepted sha256) Step.Secures false (run sha256 new handshake) :=
  ⟨by decide, (dtls_safety (fun _ => rfl) (by decide)).1⟩

theorem reset_without_identity : (run sha256 new [.reset]).map Step.after = [none] ∧
    ¬ Along (Step.addAccepted sha256) (fun accepted st => st.Secures accepted ∧ st.after ≠ none)
      false (run sha256 new [.reset]) :=
  ⟨rfl, fun h => h.1.2 rfl⟩

end Libjingle.DtlsTransportChannelWrapper
