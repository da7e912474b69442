import Libjingle.Media.AnswerCredentials
import Libjingle.Webrtc.RemoteCandidates

/-!
# Answers to an ICE restart (`IceRestartAnswerLatch`, `CreateAnswer`)

An offer with new credentials sets a latch, which the next answer resets, whether or not it is used.
An answer has new credentials when an offer has asked for them since the answer before, and
otherwise those of the local description; contents of a BUNDLE group have those of the first one.

* **`ice_restart_answered`**: the credentials of every answer of a run.
-/

namespace Libjingle.Webrtc

open Lib Sdp Media

/-! ## Credentials -/

/-- All contents that two descriptions have in common have other credentials. -/
def NewCredentials (answer current : SessionDescription) : Prop :=
  ∀ n t t', answer.getTransportInfoByName n = some t → current.getTransportInfoByName n = some t' →
    t.description.iceUfrag ≠ t'.description.iceUfrag ∧ t.description.icePwd ≠ t'.description.icePwd

/-- Every content has the credentials that the one it takes them from had. -/
def KeptCredentials (answer current : SessionDescription) : Prop :=
  ∀ n t t', answer.getTransportInfoByName n = some t →
    current.getTransportInfoByName (bundleSource answer n) = some t' →
      t.description.iceUfrag = t'.description.iceUfrag ∧
        t.description.icePwd = t'.description.icePwd

/-- What is drawn has not been used in a description. -/
def FreshFor (r : Runtime) (d : SessionDescription) : Prop :=
  ∀ type, ∀ t ∈ d.transportInfos, (drawnCredentials r type).1 ≠ t.description.iceUfrag ∧
    (drawnCredentials r type).2 ≠ t.description.icePwd

section

variable {f : SessionFactory} {r : Runtime} {offer answer current : SessionDescription}
  {options : MediaSessionOptions}

theorem newCredentials_of_restart (h : f.createAnswer r offer options (some current) = some answer)
    (hrestart : options.iceRestart = true) (hfresh : FreshFor r current) :
    NewCredentials answer current := by
  intro n t t' ht ht'
  obtain ⟨type, htype⟩ := createAnswer_credentials h ht
  have hdrawn : credentials t.description = drawnCredentials r type := by
    rw [htype, hrestart]
    rfl
  have hnew := hfresh type t' (List.mem_of_find?_eq_some ht')
  rw [← hdrawn] at hnew
  exact hnew

theorem keptCredentials_of_no_restart
    (h : f.createAnswer r offer options (some current) = some answer)
    (hrestart : options.iceRestart = false) : KeptCredentials answer current := by
  intro n t t' ht ht'
  obtain ⟨type, htype⟩ := createAnswer_credentials h ht
  have hold : getTransportDescription (bundleSource answer n) (some current) =
      some t'.description := by
    rw [getTransportDescription, Option.bind_some, ht', Option.map_some]
  rw [hrestart, hold] at htype
  exact Prod.mk.inj htype

end

/-! ## Histories -/

/-- What has happened to a session, as far as restarts go. -/
structure RestartHistory where
  /-- The remote description before the current one. -/
  previous : Option TypedDescription
  /-- An offer has asked for a restart since the last answer. -/
  requested : Bool

namespace Call

/-- The remote description that a call sets, also when an error is found in the end. -/
def remoteApplied (c : Call) : Option TypedDescription :=
  match c.event with
  | .setRemoteDescription desc replies =>
    match c.before.setRemoteDescription replies desc with
    | some (none, _) => desc
    | some (some (.sessionError _), _) => desc
    | _ => none
  | _ => none

/-- A call for an answer whose arguments are valid. -/
def asksForAnswer (c : Call) : Bool :=
  match c.event with
  | .createAnswer (some options) (some _) _ => validStreams options.streams
  | _ => false

end Call

def RestartHistory.next (h : RestartHistory) (c : Call) : RestartHistory :=
  match c.remoteApplied with
  | some desc =>
    ⟨c.before.remoteDesc, h.requested || WebRtcSession.requestsIceRestart c.before.remoteDesc desc⟩
  | none => if c.asksForAnswer then { h with requested := false } else h

/-- The credentials of an answer are new after a request for a restart; without one, and for a
remote description that is no request itself, they stay. -/
def Call.AnswersRestart (h : RestartHistory) (c : Call) : Prop :=
  match c.event with
  | .createAnswer options offer random => ∀ answer current,
      (c.before.createAnswer options offer random).1 = some answer →
      c.before.localDescription = some current →
        (h.requested = true → FreshFor random current →
          NewCredentials answer.jsep.description current) ∧
        (h.requested = false → (∀ r, c.before.remoteDesc = some r →
            WebRtcSession.requestsIceRestart h.previous r = false) →
          KeptCredentials answer.jsep.description current)
  | _ => True

namespace WebRtcSession

/-! ## One call -/

theorem checkRemoteDescription_ne (s : WebRtcSession) (desc : Option TypedDescription)
    (error : SessionError) : s.checkRemoteDescription desc ≠ .fails (.sessionError error) := by
  cases desc with
  | none => nofun
  | some desc =>
    simp only [checkRemoteDescription]
    repeat' split
    all_goals
      intro hfails
      cases hfails

theorem latch_setRemoteDescription {s s' : WebRtcSession} {desc : Option TypedDescription}
    {replies : Replies} {succeeds : Bool}
    (h : s.step (.setRemoteDescription desc replies) = some (succeeds, s')) :
    s'.iceRestartLatch =
      match Call.remoteApplied ⟨s, .setRemoteDescription desc replies, succeeds, s'⟩ with
      | some desc => s.iceRestartLatch || requestsIceRestart s.remoteDesc desc
      | none => s.iceRestartLatch := by
  simp only [Call.remoteApplied, setRemoteDescription_eq]
  rcases setRemoteDescription_cases h with ⟨hcheck, -, rfl⟩ | ⟨d, rfl, hcheck, -, rfl⟩
  · cases hfails : s'.checkRemoteDescription desc with
    | crashes => rfl
    | passes => exact (hcheck hfails).elim
    | fails failure =>
      cases failure with
      | sessionError error => exact (checkRemoteDescription_ne s' desc error hfails).elim
      | _ => rfl
  · rw [hcheck]
    dsimp only [Option.map_some]
    rcases applyRemoteDescription_cases s replies d with
      ⟨hearly, hsome, hne⟩ | ⟨s₂, error, hkeeps, hend, hresult⟩
    · have hlatch := hearly.iceRestartLatch
      generalize s.applyRemoteDescription replies d = p at hlatch hsome hne
      obtain ⟨outcome, s'⟩ := p
      cases outcome with
      | none => cases hsome
      | some failure =>
        cases failure with
        | sessionError error => exact (hne error rfl).elim
        | _ => exact hlatch
    · have hlatch : (s.applyRemoteDescription replies d).2.iceRestartLatch =
          (s.iceRestartLatch || requestsIceRestart s.remoteDesc d) := by
        obtain ⟨l, hl⟩ := usingCandidates_frame s₂ d
        have hremote : s₂.remoteDesc = s.remoteDesc := hkeeps.remoteDesc
        have hkept : s₂.iceRestartLatch = s.iceRestartLatch := hkeeps.iceRestartLatch
        rw [hend, hl, ← hremote, ← hkept]
        rfl
      generalize s.applyRemoteDescription replies d = p at hresult hlatch
      obtain ⟨outcome, s'⟩ := p
      dsimp only at hresult
      subst hresult
      cases herror : s'.error <;> exact hlatch

/-- **The latch after a call.** -/
theorem iceRestartLatch_step {c : Call}
    (hstep : c.before.step c.event = some (c.succeeds, c.after)) :
    c.after.iceRestartLatch = match c.remoteApplied with
      | some desc => c.before.iceRestartLatch || requestsIceRestart c.before.remoteDesc desc
      | none => !c.asksForAnswer && c.before.iceRestartLatch := by
  obtain ⟨s, event, succeeds, s'⟩ := c
  dsimp only at hstep ⊢
  cases event with
  | setLocalDescription desc replies =>
    rcases setLocalDescription_cases hstep with ⟨-, -, rfl⟩ | ⟨d, -, -, -, rfl⟩
    · rfl
    · obtain ⟨s₂, hkeeps, ⟨rfl, -⟩ | ⟨error, heq⟩⟩ := applyLocalDescription_cases s replies d
      · exact hkeeps.iceRestartLatch
      · rw [heq]
        exact (startCandidatesAllocation_frame s₂).2.2.2.2.2.1.trans hkeeps.iceRestartLatch
  | setRemoteDescription desc replies => exact latch_setRemoteDescription hstep
  | processIceMessage candidate =>
    have hlatch : s'.iceRestartLatch = s.iceRestartLatch := by
      rcases processIceMessage_cases (Option.some.inj hstep) with ⟨-, rfl⟩ | ⟨c, -, hcase⟩
      · rfl
      · rcases hcase with ⟨-, -, rfl⟩ | ⟨r, -, -, -, hused, hstays⟩
        · rfl
        · by_cases hadds : addsCandidate r.jsep c = true
          · obtain ⟨l, hl⟩ := useSections_frame
              { s with remoteDesc := some { r with jsep := r.jsep.addCandidate c } }
              (r.jsep.addCandidate c).candidates true
            rw [← hused hadds, useCandidatesInSessionDescription, hl]
          · rw [hstays (Bool.eq_false_iff.mpr hadds)]
    exact hlatch
  | createOffer options random =>
    obtain rfl : (s.createOffer options random).2 = s' :=
      congrArg Prod.snd (Option.some.inj hstep)
    rcases createOffer_session s options random with heq | heq <;> rw [heq] <;> rfl
  | createAnswer options offer random =>
    obtain rfl : (s.createAnswer options offer random).2 = s' :=
      congrArg Prod.snd (Option.some.inj hstep)
    cases options with
    | none => cases offer <;> rfl
    | some options =>
      cases offer with
      | none => rfl
      | some offer =>
        simp only [Call.remoteApplied, Call.asksForAnswer, createAnswer.eq_def]
        by_cases hvalid : validStreams options.streams = true
        · simp [hvalid]
        · simp [hvalid]
  | newLocalCandidates contentName candidates =>
    obtain rfl : s.processNewLocalCandidate contentName candidates = s' :=
      congrArg Prod.snd (Option.some.inj hstep)
    rw [processNewLocalCandidate]
    split <;> rfl
  | stateMessage =>
    obtain rfl : s.onStateMessage = s' := congrArg Prod.snd (Option.some.inj hstep)
    rw [onStateMessage]
    split <;> rfl
  | error error =>
    obtain rfl := congrArg Prod.snd (Option.some.inj hstep)
    rfl
  | setSecurePolicy policy =>
    obtain rfl := congrArg Prod.snd (Option.some.inj hstep)
    rfl

theorem description_of_initializeJsep {s : WebRtcSession} {type : Text}
    {d : Option SessionDescription} {answer : TypedDescription}
    (h : s.initializeJsep type d = some answer) : d = some answer.jsep.description := by
  obtain ⟨d', rfl, rfl⟩ := Option.map_eq_some_iff.mp h
  have hgrows := (copyCandidates_spec s.localDesc
    (.ofDescription d' s.sessionId (natText s.sessionVersion))).1
  exact congrArg some hgrows.description.symm

theorem answersRestart_of_latch {c : Call} {h : RestartHistory}
    (hlatch : c.before.iceRestartLatch = h.requested) : c.AnswersRestart h := by
  obtain ⟨s, event, succeeds, s'⟩ := c
  cases event with
  | createAnswer options offer random =>
    intro answer current hanswer hcurrent
    dsimp only at hanswer hcurrent hlatch
    rw [createAnswer.eq_def] at hanswer
    split at hanswer
    · rename_i options offer
      split at hanswer
      · cases hanswer
      · have hmade := description_of_initializeJsep hanswer
        rw [hcurrent] at hmade
        refine ⟨fun hrequested hfresh => ?_, fun hrequested _ => ?_⟩
        · exact newCredentials_of_restart hmade (hlatch.trans hrequested) hfresh
        · exact keptCredentials_of_no_restart hmade (hlatch.trans hrequested)
    · cases hanswer
  | _ => trivial

/-- **The credentials of the answers of a run.** -/
theorem ice_restart_answered (factory : SessionFactory) (allowRtpDataEngine : Bool)
    (sessionId : Text) (events : List SessionEvent) :
    Along RestartHistory.next Call.AnswersRestart ⟨none, false⟩
      ((new factory allowRtpDataEngine sessionId).calls events) := by
  refine along_of_run (I := fun h s => s.iceRestartLatch = h.requested) (isRun_calls _ _) rfl
    (fun h c hc hlatch _ => ⟨answersRestart_of_latch hlatch, ?_⟩) (along_true _ _)
  rw [iceRestartLatch_step (step_of_mem_calls hc), RestartHistory.next]
  split
  · rw [hlatch]
  · cases c.asksForAnswer with
    | false => exact hlatch
    | true => rfl

/-! ### Two restarts -/

def restartOffer : TypedDescription := audioDescription kOfferType ['c'] ['d']

/-- A session after an offer, its answer, an offer of a restart, and more. -/
def afterRestart (events : List SessionEvent) : Option WebRtcSession :=
  ((new (plainFactory .disabled) false []).calls
    ([.setRemoteDescription (some (audioDescription kOfferType ['a'] ['b'])) allWorks,
      .setLocalDescription (some (audioDescription kAnswerType ['l'] ['m'])) allWorks,
      .setRemoteDescription (some restartOffer) allWorks] ++
        events)).getLast?.map Call.after

/-- The credentials of a content of a description. -/
def credentialsOf (name : Text) (d : Option TypedDescription) : Option (Text × Text) :=
  (d.bind fun d => d.jsep.description.getTransportInfoByName name).map fun t =>
    credentials t.description

/-- The credentials of a content in an answer to an offer, and in the local description. -/
def answeredCredentials (name : Text) (bundle : Bool) (offer : TypedDescription)
    (s : WebRtcSession) : Option (Text × Text) × Option (Text × Text) :=
  (credentialsOf name (s.createAnswer (some (plainOptions bundle)) (some offer)
    (countingRuntime 0)).1, credentialsOf name s.localDesc)

/-- A description of audio and video with a transport each. -/
def audioAndVideo (type audio video : Text) (groups : List ContentGroup) : TypedDescription :=
  ⟨type, .ofDescription
    ⟨[cryptoContent "audio".toList .audio [], cryptoContent "video".toList .video []],
      [⟨"audio".toList, ⟨nsGingleP2p, [], audio, audio, none⟩⟩,
        ⟨"video".toList, ⟨nsGingleP2p, [], video, video, none⟩⟩], groups⟩ [] []⟩

def bundledOffer : TypedDescription :=
  audioAndVideo kOfferType ['a'] ['b']
    [⟨groupTypeBundle, ["audio".toList, "video".toList]⟩]

/-- A session that was offered a bundle, and has answered without one. -/
def unbundledSession : Option WebRtcSession :=
  ((new (plainFactory .disabled) false []).calls
    [.setRemoteDescription (some bundledOffer) allWorks,
      .setLocalDescription (some (audioAndVideo kAnswerType ['l'] ['v'] [])) allWorks,
      .setRemoteDescription (some bundledOffer) allWorks]).getLast?.map Call.after

/-- A second answer to a restart keeps the credentials, and an answer to an offer that repeats the
one before it has new ones. Without a restart, video gets the credentials of audio when it is
bundled with it. -/
theorem restart_answered_once :
    (afterRestart [.createAnswer (some (plainOptions false)) (some restartOffer)
        (countingRuntime 0)]).map (answeredCredentials "audio".toList false restartOffer) =
          some (some (['l'], ['m']), some (['l'], ['m'])) ∧
      (afterRestart [.setRemoteDescription (some restartOffer) allWorks]).map
          (answeredCredentials "audio".toList false restartOffer) =
        some (some (List.replicate 16 'A', List.replicate 24 'A'), some (['l'], ['m'])) ∧
      unbundledSession.map (answeredCredentials "video".toList true bundledOffer) =
        some (some (['l'], ['l']), some (['v'], ['v'])) :=
  ⟨rfl, rfl, rfl⟩

end WebRtcSession

end Libjingle.Webrtc
