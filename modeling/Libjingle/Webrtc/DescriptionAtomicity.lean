import Libjingle.Webrtc.SessionSteps

/-!
# What is left of a failed description (`SetLocalDescription`, `SetRemoteDescription`)

A call changes the session step by step and does not go back when a later step fails. So a failed
call leaves the session alone when one of the first checks fails, and for a remote description also
when the first channel that has to be created cannot be.

* `local_succeeds_iff`, `remote_succeeds_iff`: when nothing goes wrong.
* **`descriptions_atomic`**: the calls of a run that leave the session alone when they fail.
-/

namespace Libjingle.Webrtc

open Lib Sdp Media

namespace WebRtcSession

/-! ## Calls that go wrong -/

/-- The descriptions, the state, the initiator flag and the media channels are as before. -/
structure Unchanged (s s' : WebRtcSession) : Prop where
  localDesc : s'.localDesc = s.localDesc
  remoteDesc : s'.remoteDesc = s.remoteDesc
  localDescription : s'.localDescription = s.localDescription
  remoteDescription : s'.remoteDescription = s.remoteDescription
  state : s'.state = s.state
  initiator : s'.initiator = s.initiator
  channels : s'.channels = s.channels

theorem Unchanged.refl (s : WebRtcSession) : Unchanged s s := ⟨rfl, rfl, rfl, rfl, rfl, rfl, rfl⟩

/-- Channels are created, transports take their descriptions, and there is no error. -/
structure Smooth (s : WebRtcSession) (replies : Replies) (d : SessionDescription) : Prop where
  creates : ∀ type, (s.missing d type).isSome = true →
    replies.creates type = true ∧ replies.error (.create type) = none
  pushesDown : replies.pushesDown = true
  error : s.error = none
  pushdown : replies.error .pushdown = none
  state : replies.error .state = none
  candidates : replies.error .candidates = none

/-- The first channel that has to be created cannot be. -/
def FirstFails (s : WebRtcSession) (replies : Replies) (d : SessionDescription) : Prop :=
  ∃ type, ([.audio, .video, .data].filter fun type => (s.missing d type).isSome).head? = some type ∧
    replies.creates type = false

theorem forall_types {p : MediaType → Prop} :
    (∀ type ∈ [MediaType.audio, .video, .data], p type) ↔ ∀ type, p type := by
  refine ⟨fun h type => h type ?_, fun h type _ => h type⟩
  cases type <;> decide

theorem smooth_iff (s s₁ : WebRtcSession) (replies : Replies) (d : SessionDescription)
    (p₁ p₂ : Bool × WebRtcSession) {action : Action} {source : ContentSource}
    (hmissing : ∀ type, s₁.missing d type = s.missing d type) (herror : s₁.error = s.error)
    (h₁ : ChannelsCreated replies d [.audio, .video, .data] s₁ p₁) (s₂ : WebRtcSession)
    (herror₂ : s₂.error = p₁.2.error) (h₂ : StateUpdated replies action source s₂ p₂) :
    Smooth s replies d ↔ p₁.1 = true ∧ p₂.1 = true ∧ replies.error .candidates = none := by
  rw [h₂.ok, herror₂]
  have hok := h₁.ok.trans forall_types
  have herr := fun h => (h₁.error h).trans (and_congr_right fun _ => forall_types)
  simp only [hmissing, herror] at hok herr
  constructor
  · intro h
    have hcreated := hok.mpr fun type hsome => (h.creates type hsome).1
    exact ⟨hcreated, ⟨h.pushesDown, (herr hcreated).mpr ⟨h.error, fun type hsome =>
      (h.creates type hsome).2⟩, h.pushdown, h.state⟩, h.candidates⟩
  · rintro ⟨hcreated, ⟨hpush, hnone, hpushdown, hstate⟩, hcandidates⟩
    obtain ⟨hs, herrors⟩ := (herr hcreated).mp hnone
    exact ⟨fun type hsome => ⟨hok.mp hcreated type hsome, herrors type hsome⟩, hpush, hs, hpushdown,
      hstate, hcandidates⟩

/-! ## Local descriptions -/

/-- What happens to a local description that is applied. -/
structure LocalApplied (s : WebRtcSession) (replies : Replies) (desc : TypedDescription)
    (p : Option Failure × WebRtcSession) : Prop where
  ok : p.1 = none ↔ Smooth s replies (s.securedDescription desc).jsep.description
  localDesc : p.2.localDesc = some (s.securedDescription desc)
  localDescription : p.2.localDescription = some (s.securedDescription desc).jsep.description

theorem applyLocalDescription_spec (s : WebRtcSession) (replies : Replies)
    (desc : TypedDescription) :
    LocalApplied s replies desc (s.applyLocalDescription replies desc) := by
  have hcreated := createChannels_spec replies
    ((s.securedDescription desc).jsep.description) (s.withLocal desc)
  rw [applyLocalDescription_eq]
  generalize (s.withLocal desc).createChannels replies
    (s.securedDescription desc).jsep.description = p₁ at hcreated
  have hupdated := updateSessionState_spec replies
    ((s.securedDescription desc).jsep.description) p₁.2 (getAction desc.type) .csLocal
  have hsmooth :=
    smooth_iff s (s.withLocal desc) replies _ p₁ _ (fun _ => rfl) rfl hcreated p₁.2 rfl
    hupdated
  obtain ⟨created, s₁⟩ := p₁
  dsimp only at hupdated hsmooth ⊢
  have hkeeps := hcreated.keeps
  cases created with
  | false =>
    refine ⟨iff_of_false nofun fun h => Bool.false_ne_true (hsmooth.mp h).1, ?_, ?_⟩
    · exact hkeeps.localDesc
    · exact hkeeps.localDescription
  | true =>
    dsimp only
    generalize s₁.updateSessionState replies (getAction desc.type) .csLocal
      (s.securedDescription desc).jsep.description = p₂ at hupdated hsmooth
    obtain ⟨updated, s₂⟩ := p₂
    have hkeeps := hkeeps.trans hupdated.keeps
    cases updated with
    | false =>
      refine ⟨iff_of_false nofun fun h => Bool.false_ne_true (hsmooth.mp h).2.1, ?_, ?_⟩
      · exact hkeeps.localDesc
      · exact hkeeps.localDescription
    | true =>
      obtain ⟨herror, -, hdesc, hdescription, -⟩ := startCandidatesAllocation_frame s₂
      refine ⟨?_, hdesc.trans hkeeps.localDesc, hdescription.trans hkeeps.localDescription⟩
      rw [hsmooth, Option.map_eq_none_iff, setError_error_iff, herror, hupdated.error rfl]
      simp

/-! ## Remote descriptions -/

/-- The candidates of a remote description can be used, when they have to be. -/
def CandidatesUsable (s : WebRtcSession) (desc : TypedDescription) : Prop :=
  s.localDesc.isSome = true → usableSections desc.jsep.description desc.jsep.candidates true = true

/-- What happens to a remote description that is applied. -/
structure RemoteApplied (s : WebRtcSession) (replies : Replies) (desc : TypedDescription)
    (p : Option Failure × WebRtcSession) : Prop where
  ok : p.1 = none ↔ Smooth s replies desc.jsep.description ∧ s.CandidatesUsable desc
  firstFails : s.FirstFails replies desc.jsep.description → Unchanged s p.2
  changes : ¬ s.FirstFails replies desc.jsep.description →
    p.2.remoteDescription = some desc.jsep.description ∨ p.2.channels ≠ s.channels

variable {s : WebRtcSession} {replies : Replies} {d : SessionDescription} {p : Bool × WebRtcSession}

theorem firstFails_or_changed
    (h : ChannelsCreated replies d [.audio, .video, .data] s p) (hfails : p.1 = false) :
    s.FirstFails replies d ∨ p.2.channels ≠ s.channels := by
  cases hhead : ([.audio, .video, .data].filter fun type => (s.missing d type).isSome).head? with
  | none =>
    have hall := List.filter_eq_nil_iff.mp (List.head?_eq_none_iff.mp hhead)
    have hok := h.ok.mpr fun type hmem hsome => (hall type hmem hsome).elim
    rw [hfails] at hok
    cases hok
  | some type =>
    cases hcreates : replies.creates type with
    | false => exact .inl ⟨type, hhead, hcreates⟩
    | true => exact .inr fun heq => h.firstCreated type hhead hcreates (congrFun heq type)

theorem FirstFails.stops (hfirst : s.FirstFails replies d)
    (h : ChannelsCreated replies d [.audio, .video, .data] s p) :
    p.1 = false ∧ p.2.channels = s.channels := by
  obtain ⟨type, hhead, hcreates⟩ := hfirst
  refine ⟨?_, h.firstFails type hhead hcreates⟩
  rw [← Bool.not_eq_true]
  intro hok
  obtain ⟨hmem, hsome⟩ := List.mem_filter.mp (List.mem_of_mem_head? hhead)
  rw [h.ok.mp hok type hmem hsome] at hcreates
  cases hcreates

theorem applyRemoteDescription_spec (s : WebRtcSession) (replies : Replies)
    (desc : TypedDescription) :
    RemoteApplied s replies desc (s.applyRemoteDescription replies desc) := by
  have hcreated := createChannels_spec replies desc.jsep.description s
  rw [applyRemoteDescription]
  generalize s.createChannels replies desc.jsep.description = p₁ at hcreated
  have hupdated := updateSessionState_spec replies desc.jsep.description
    { p₁.2 with remoteDescription := some desc.jsep.description } (getAction desc.type) .csRemote
  have hsmooth := smooth_iff s s replies _ p₁ _ (fun _ => rfl) rfl hcreated
    { p₁.2 with remoteDescription := some desc.jsep.description } rfl hupdated
  have hstops := fun hfirst : s.FirstFails replies desc.jsep.description => hfirst.stops hcreated
  have hchanged := firstFails_or_changed hcreated
  obtain ⟨created, s₁⟩ := p₁
  dsimp only at hupdated hsmooth hstops hchanged ⊢
  have hkeeps := hcreated.keeps
  cases created with
  | false =>
    refine ⟨iff_of_false (Option.some_ne_none _) fun h => Bool.false_ne_true (hsmooth.mp h.1).1,
      fun hfirst => ?_, fun hno => .inr ((hchanged rfl).resolve_left hno)⟩
    exact ⟨hkeeps.localDesc, hkeeps.remoteDesc, hkeeps.localDescription, hkeeps.remoteDescription,
      hcreated.state, hkeeps.initiator, (hstops hfirst).2⟩
  | true =>
    have hno : ¬ s.FirstFails replies desc.jsep.description := fun hfirst =>
      absurd (hstops hfirst).1.symm Bool.false_ne_true
    dsimp only
    generalize WebRtcSession.updateSessionState
      { s₁ with remoteDescription := some desc.jsep.description } replies (getAction desc.type)
      .csRemote desc.jsep.description = p₂ at hupdated hsmooth
    obtain ⟨updated, s₂⟩ := p₂
    have hdescription : s₂.remoteDescription = some desc.jsep.description :=
      hupdated.keeps.remoteDescription
    have hlocal : s₂.localDesc = s.localDesc := hupdated.keeps.localDesc.trans hkeeps.localDesc
    cases updated with
    | false =>
      exact ⟨iff_of_false (Option.some_ne_none _) fun h => Bool.false_ne_true (hsmooth.mp h.1).2.1,
        fun hfirst => (hno hfirst).elim, fun _ => .inl hdescription⟩
    | true =>
      dsimp only
      have hused : s₂.candidatesUsed desc = true ↔ s.CandidatesUsable desc := by
        rw [candidatesUsed, CandidatesUsable, ← hlocal, useCandidatesInSessionDescription,
          Bool.or_eq_true, useSections_eq hdescription]
        cases s₂.localDesc.isSome <;> simp
      rw [useCandidates_eq]
      obtain ⟨l, hl⟩ := usingCandidates_frame s₂ desc
      rw [hl]
      cases hok : s₂.candidatesUsed desc with
      | false =>
        refine ⟨iff_of_false (Option.some_ne_none _) fun h => ?_, fun hfirst => (hno hfirst).elim,
          fun _ => .inl hdescription⟩
        rw [hused.mpr h.2] at hok
        cases hok
      | true =>
        refine ⟨?_, fun hfirst => (hno hfirst).elim, fun _ => .inl hdescription⟩
        have herror : s₂.error = none := hupdated.error rfl
        rw [and_iff_left (hused.mp hok), hsmooth, Option.map_eq_none_iff, setError_error_iff]
        simp [storeRemoteDescription, herror]

/-! ## Runs -/

end WebRtcSession

namespace Call

/-- A description that is not taken leaves the session alone. -/
def Atomic (c : Call) : Prop :=
  match c.event with
  | .setLocalDescription _ _ | .setRemoteDescription _ _ =>
    c.succeeds = false → WebRtcSession.Unchanged c.before c.after
  | _ => True

/-- A description is refused by one of the first checks, or nothing goes wrong, or it is a remote
one and the first channel that has to be created cannot be. -/
def Clean (c : Call) : Prop :=
  match c.event with
  | .setLocalDescription desc replies =>
    ∀ d, desc = some d → c.before.checkLocalDescription desc = .passes →
      c.before.Smooth replies (c.before.securedDescription d).jsep.description
  | .setRemoteDescription desc replies =>
    ∀ d, desc = some d → c.before.checkRemoteDescription desc = .passes →
      (c.before.Smooth replies d.jsep.description ∧ c.before.CandidatesUsable d) ∨
        c.before.FirstFails replies d.jsep.description
  | _ => True

/-- The description is the one that is set already. -/
def Repeats (c : Call) : Prop :=
  match c.event with
  | .setLocalDescription desc _ => ∃ d, desc = some d ∧
      c.before.localDesc = some (c.before.securedDescription d)
  | .setRemoteDescription desc _ => ∃ d, desc = some d ∧
      c.before.remoteDescription = some d.jsep.description
  | _ => False

end Call

namespace WebRtcSession

/-- **One call.** -/
theorem atomic_step {c : Call} (h : c.before.step c.event = some (c.succeeds, c.after)) :
    (c.Clean → c.Atomic) ∧ (c.Atomic → c.Clean ∨ c.Repeats) := by
  obtain ⟨s, event, succeeds, s'⟩ := c
  dsimp only at h
  cases event with
  | setLocalDescription desc replies =>
    rcases setLocalDescription_cases h with ⟨hcheck, -, rfl⟩ | ⟨d, rfl, hcheck, rfl, rfl⟩
    · exact ⟨fun _ _ => .refl s', fun _ => .inl fun _ _ hpasses => (hcheck hpasses).elim⟩
    · have hspec := applyLocalDescription_spec s replies d
      constructor
      · intro hclean hfails
        have hok := hspec.ok.mpr (hclean d rfl hcheck)
        rw [hok] at hfails
        cases hfails
      · intro hatomic
        by_cases hok : (s.applyLocalDescription replies d).1 = none
        · refine .inl fun d' hd' _ => ?_
          obtain rfl := Option.some.inj hd'
          exact hspec.ok.mp hok
        · have hfails : (s.applyLocalDescription replies d).1.isNone = false :=
            Bool.eq_false_iff.mpr fun hnone => hok (Option.isNone_iff_eq_none.mp hnone)
          have hunchanged := hatomic hfails
          exact .inr ⟨d, rfl, hunchanged.localDesc.symm.trans hspec.localDesc⟩
  | setRemoteDescription desc replies =>
    rcases setRemoteDescription_cases h with ⟨hcheck, -, rfl⟩ | ⟨d, rfl, hcheck, rfl, rfl⟩
    · exact ⟨fun _ _ => .refl s', fun _ => .inl fun _ _ hpasses => (hcheck hpasses).elim⟩
    · have hspec := applyRemoteDescription_spec s replies d
      constructor
      · intro hclean hfails
        rcases hclean d rfl hcheck with hsmooth | hfirst
        · have hok := hspec.ok.mpr hsmooth
          rw [hok] at hfails
          cases hfails
        · exact hspec.firstFails hfirst
      · intro hatomic
        have hclean : ∀ {p : Prop}, (p → (s.Smooth replies d.jsep.description ∧
            s.CandidatesUsable d) ∨ s.FirstFails replies d.jsep.description) → p →
            Call.Clean ⟨s, .setRemoteDescription (some d) replies,
              (s.applyRemoteDescription replies d).1.isNone,
              (s.applyRemoteDescription replies d).2⟩ := by
          intro p himp hp d' hd' _
          obtain rfl := Option.some.inj hd'
          exact himp hp
        by_cases hok : (s.applyRemoteDescription replies d).1 = none
        · exact .inl (hclean (fun hok => .inl (hspec.ok.mp hok)) hok)
        · by_cases hfirst : s.FirstFails replies d.jsep.description
          · exact .inl (hclean .inr hfirst)
          · have hfails : (s.applyRemoteDescription replies d).1.isNone = false :=
              Bool.eq_false_iff.mpr fun hnone => hok (Option.isNone_iff_eq_none.mp hnone)
            have hunchanged := hatomic hfails
            rcases hspec.changes hfirst with hset | hchannels
            · exact .inr ⟨d, rfl, hunchanged.remoteDescription.symm.trans hset⟩
            · exact (hchannels hunchanged.channels).elim
  | processIceMessage candidate => exact ⟨fun _ => trivial, fun _ => .inl trivial⟩
  | createOffer options random => exact ⟨fun _ => trivial, fun _ => .inl trivial⟩
  | createAnswer options offer random => exact ⟨fun _ => trivial, fun _ => .inl trivial⟩
  | newLocalCandidates contentName candidates => exact ⟨fun _ => trivial, fun _ => .inl trivial⟩
  | stateMessage => exact ⟨fun _ => trivial, fun _ => .inl trivial⟩
  | error error => exact ⟨fun _ => trivial, fun _ => .inl trivial⟩
  | setSecurePolicy policy => exact ⟨fun _ => trivial, fun _ => .inl trivial⟩

/-- **Which descriptions leave the session alone when they are not taken**: in every run the clean
ones do, and of the others only those that are set already can. -/
theorem descriptions_atomic (factory : SessionFactory) (allowRtpDataEngine : Bool)
    (sessionId : Text)
    (events : List SessionEvent) :
    ((∀ c ∈ (new factory allowRtpDataEngine sessionId).calls events, c.Clean) →
        ∀ c ∈ (new factory allowRtpDataEngine sessionId).calls events, c.Atomic) ∧
      ∀ c ∈ (new factory allowRtpDataEngine sessionId).calls events, c.Atomic →
        c.Clean ∨ c.Repeats :=
  ⟨fun hclean c hmem => (atomic_step (step_of_mem_calls hmem)).1 (hclean c hmem),
    fun _ hmem => (atomic_step (step_of_mem_calls hmem)).2⟩

def audioOffer : TypedDescription :=
  ⟨kOfferType, .ofDescription ⟨[cryptoContent "audio".toList .audio []], [], []⟩ [] []⟩

def noChannels : Replies := ⟨fun _ => false, true, fun _ => none⟩

theorem failed_offer_stays :
    ∃ c ∈ (new (plainFactory .disabled) false []).calls
        [.setLocalDescription (some audioOffer) noChannels],
      c.succeeds = false ∧ c.before.localDesc = none ∧ c.after.localDesc.isSome = true ∧
        c.after.localDescription.isSome = true ∧ c.after.initiator = true ∧ ¬ c.Atomic := by
  refine ⟨_, List.mem_cons_self, by decide, rfl, by decide, by decide, by decide, fun hatomic => ?_⟩
  have hdesc := (hatomic (by decide)).localDesc
  cases hdesc

end WebRtcSession

end Libjingle.Webrtc
