import Libjingle.Lib.History
import Libjingle.Webrtc.WebRtcSession

/-!
# What the parts of a call do to a session (`CreateChannels`, `UpdateSessionState`)

One lemma for each part of `SetLocalDescription` and `SetRemoteDescription`: what it leaves as it
is, and exactly when it succeeds.

* `createChannels_spec`, `updateSessionState_spec`: the first two parts.
* `setLocalDescription_cases`, `setRemoteDescription_cases`: a call is refused, or applied.
-/

namespace Libjingle.Webrtc.WebRtcSession

open Lib Sdp Media

/-! ## Frames -/

/-- Only the channels, the state and the error of a session change. -/
structure Keeps (s s' : WebRtcSession) : Prop where
  initiator : s'.initiator = s.initiator
  localDescription : s'.localDescription = s.localDescription
  remoteDescription : s'.remoteDescription = s.remoteDescription
  factory : s'.factory = s.factory
  localDesc : s'.localDesc = s.localDesc
  remoteDesc : s'.remoteDesc = s.remoteDesc
  savedCandidates : s'.savedCandidates = s.savedCandidates
  iceRestartLatch : s'.iceRestartLatch = s.iceRestartLatch
  submitted : s'.submitted = s.submitted

theorem Keeps.refl (s : WebRtcSession) : Keeps s s := ⟨rfl, rfl, rfl, rfl, rfl, rfl, rfl, rfl, rfl⟩

theorem Keeps.trans {a b c : WebRtcSession} (h : Keeps a b) (h' : Keeps b c) : Keeps a c :=
  ⟨h'.initiator.trans h.initiator, h'.localDescription.trans h.localDescription,
    h'.remoteDescription.trans h.remoteDescription, h'.factory.trans h.factory,
    h'.localDesc.trans h.localDesc, h'.remoteDesc.trans h.remoteDesc,
    h'.savedCandidates.trans h.savedCandidates, h'.iceRestartLatch.trans h.iceRestartLatch,
    h'.submitted.trans h.submitted⟩

/-- The remote description of the `BaseSession` is set on both sides. -/
theorem Keeps.withRemote {a b : WebRtcSession} (h : Keeps a b) (d : Option SessionDescription) :
    Keeps { a with remoteDescription := d } { b with remoteDescription := d } :=
  ⟨h.initiator, h.localDescription, rfl, h.factory, h.localDesc, h.remoteDesc, h.savedCandidates,
    h.iceRestartLatch, h.submitted⟩

theorem setError_keeps (s : WebRtcSession) (error : Option SessionError) :
    Keeps s (s.setError error) := ⟨rfl, rfl, rfl, rfl, rfl, rfl, rfl, rfl, rfl⟩

theorem setError_error_iff (s : WebRtcSession) (error : Option SessionError) :
    (s.setError error).error = none ↔ s.error = none ∧ error = none := by
  cases error with
  | none => simp [setError]
  | some e => simp [setError]

/-! ## Channels -/

variable {replies : Replies} {d : SessionDescription}

/-- What `createChannel` does. -/
structure ChannelCreated (replies : Replies) (d : SessionDescription) (type : MediaType)
    (s : WebRtcSession) (p : Bool × WebRtcSession) : Prop where
  keeps : Keeps s p.2
  state : p.2.state = s.state
  other : ∀ type', type' ≠ type → p.2.channels type' = s.channels type'
  missing_other : ∀ type', type' ≠ type → p.2.missing d type' = s.missing d type'
  ok : p.1 = true ↔ ((s.missing d type).isSome = true → replies.creates type = true)
  channel : p.2.channels type =
    if (s.missing d type).isSome ∧ replies.creates type then (s.missing d type).map ContentInfo.name
    else s.channels type
  error : p.2.error = none ↔
    s.error = none ∧ ((s.missing d type).isSome = true → replies.error (.create type) = none)

variable {s s' : WebRtcSession}

variable {type : MediaType}

theorem missing_congr (hchannel : s'.channels type = s.channels type)
    (hallow : s'.allowRtpDataEngine = s.allowRtpDataEngine) :
    s'.missing d type = s.missing d type := by
  simp only [missing, hchannel, hallow]

theorem channels_of_missing {content : ContentInfo}
    (h : s.missing d type = some content) : s.channels type = none := by
  have hp := (Option.filter_eq_some_iff.mp h).2
  simp only [Bool.and_eq_true] at hp
  exact Option.isNone_iff_eq_none.mp hp.1.2

theorem createChannel_spec (replies : Replies) (d : SessionDescription) (s : WebRtcSession)
    (type : MediaType) :
    ChannelCreated replies d type s (s.createChannel replies d type) := by
  unfold createChannel
  cases hmissing : s.missing d type with
  | none =>
    refine ⟨Keeps.refl s, rfl, fun _ _ => rfl, fun _ _ => rfl, ?_, ?_, ?_⟩
    · exact iff_of_true rfl (by rw [hmissing]; nofun)
    · rw [hmissing]
      rfl
    · rw [hmissing]
      exact (and_iff_left nofun).symm
  | some content =>
    have herror := setError_error_iff s (replies.error (.create type))
    dsimp only
    by_cases hcreates : replies.creates type = true
    · rw [if_pos hcreates]
      have hother : ∀ type', type' ≠ type →
          Function.update s.channels type (some content.name) type' = s.channels type' :=
        fun type' hne => Function.update_of_ne hne _ _
      refine ⟨⟨rfl, rfl, rfl, rfl, rfl, rfl, rfl, rfl, rfl⟩, rfl, hother,
        fun type' hne => missing_congr (hother type' hne) rfl, ?_, ?_, ?_⟩
      · exact iff_of_true rfl fun _ => hcreates
      · rw [hmissing, if_pos ⟨rfl, hcreates⟩]
        exact Function.update_self _ _ _
      · rw [hmissing]
        exact herror.trans (and_congr_right fun _ => ⟨fun h _ => h, fun h => h rfl⟩)
    · rw [if_neg hcreates]
      refine ⟨setError_keeps s _, rfl, fun _ _ => rfl, fun _ _ => rfl, ?_, ?_, ?_⟩
      · rw [hmissing]
        exact iff_of_false Bool.false_ne_true fun h => hcreates (h rfl)
      · rw [hmissing, if_neg fun h => hcreates h.2]
        rfl
      · rw [hmissing]
        exact herror.trans (and_congr_right fun _ => ⟨fun h _ => h, fun h => h rfl⟩)

/-- What `createChannelsOf` does. -/
structure ChannelsCreated (replies : Replies) (d : SessionDescription) (types : List MediaType)
    (s : WebRtcSession) (p : Bool × WebRtcSession) : Prop where
  keeps : Keeps s p.2
  state : p.2.state = s.state
  ok : p.1 = true ↔ ∀ type ∈ types, (s.missing d type).isSome = true → replies.creates type = true
  error : p.1 = true → (p.2.error = none ↔ s.error = none ∧
    ∀ type ∈ types, (s.missing d type).isSome = true → replies.error (.create type) = none)
  firstFails : ∀ type, (types.filter fun type => (s.missing d type).isSome).head? = some type →
    replies.creates type = false → p.2.channels = s.channels
  other : ∀ type, type ∉ types → p.2.channels type = s.channels type
  firstCreated : ∀ type, (types.filter fun type => (s.missing d type).isSome).head? = some type →
    replies.creates type = true → p.2.channels type ≠ s.channels type

theorem createChannelsOf_spec (replies : Replies) (d : SessionDescription)
    {types : List MediaType} (hnodup : types.Nodup) (s : WebRtcSession) :
    ChannelsCreated replies d types s (createChannelsOf replies d types s) := by
  induction types generalizing s with
  | nil =>
    exact ⟨Keeps.refl s, rfl, iff_of_true rfl (List.forall_mem_nil _),
      fun _ => (and_iff_left (List.forall_mem_nil _)).symm, fun _ _ _ => rfl, fun _ _ => rfl, nofun⟩
  | cons type types ih =>
    obtain ⟨hnot, hnodup⟩ := List.nodup_cons.mp hnodup
    have hfirst := createChannel_spec replies d s type
    rw [createChannelsOf]
    generalize s.createChannel replies d type = p at hfirst
    obtain ⟨ok, s'⟩ := p
    obtain ⟨hkeeps, hstate, hother, hmissing, hok, hchannel, herror⟩ := hfirst
    dsimp only at hkeeps hstate hother hmissing hok hchannel herror
    -- the other kinds are missing as before
    have hrest : ∀ type' ∈ types, s'.missing d type' = s.missing d type' := fun type' hmem =>
      hmissing type' fun heq => hnot (heq ▸ hmem)
    have hfilter : types.filter (fun type => (s'.missing d type).isSome) =
        types.filter fun type => (s.missing d type).isSome :=
      List.filter_congr fun kind hmem => by rw [hrest kind hmem]
    cases ok with
    | false =>
      have hfails : (s.missing d type).isSome = true ∧ replies.creates type ≠ true := by
        simpa using hok.not.mp Bool.false_ne_true
      refine ⟨hkeeps, hstate, ?_, nofun, fun type' hhead hcreates => ?_, ?_, ?_⟩
      · exact iff_of_false Bool.false_ne_true fun h => hfails.2 (h type List.mem_cons_self hfails.1)
      · funext kind
        by_cases heq : kind = type
        · rw [heq, hchannel, if_neg fun h => hfails.2 h.2]
        · exact hother kind heq
      · exact fun kind hnotin => hother kind (List.ne_of_not_mem_cons hnotin)
      · intro type' hhead hcreates
        simp only [List.filter_cons, hfails.1, if_true] at hhead
        exact (hfails.2 (Option.some.inj hhead ▸ hcreates)).elim
    | true =>
      have hok := hok.mp rfl
      have h := ih hnodup s'
      refine ⟨hkeeps.trans h.keeps, h.state.trans hstate, ?_, fun hp => ?_,
        fun type' hhead hcreates => ?_, ?_, ?_⟩
      · rw [h.ok, List.forall_mem_cons, and_iff_right hok]
        exact forall₂_congr fun type' hmem => by rw [hrest type' hmem]
      · rw [h.error hp, herror, List.forall_mem_cons, and_assoc]
        refine and_congr_right fun _ => and_congr_right fun _ => ?_
        exact forall₂_congr fun type' hmem => by rw [hrest type' hmem]
      · by_cases hsome : (s.missing d type).isSome = true
        · simp only [List.filter_cons, hsome, if_true] at hhead
          obtain rfl := Option.some.inj hhead
          rw [hok hsome] at hcreates
          cases hcreates
        · simp only [List.filter_cons, hsome, if_false, Bool.false_eq_true] at hhead
          rw [h.firstFails type' (hfilter ▸ hhead) hcreates]
          funext kind
          by_cases heq : kind = type
          · rw [heq, hchannel, if_neg fun h => hsome h.1]
          · exact hother kind heq
      · intro kind hnotin
        rw [List.mem_cons, not_or] at hnotin
        exact (h.other kind hnotin.2).trans (hother kind hnotin.1)
      · intro type' hhead hcreates
        by_cases hsome : (s.missing d type).isSome = true
        · simp only [List.filter_cons, hsome, if_true] at hhead
          obtain rfl := Option.some.inj hhead
          obtain ⟨content, hcontent⟩ := Option.isSome_iff_exists.mp hsome
          rw [h.other type hnot, hchannel, if_pos ⟨hsome, hcreates⟩, hcontent,
            channels_of_missing hcontent]
          nofun
        · simp only [List.filter_cons, hsome, if_false, Bool.false_eq_true] at hhead
          have hmem := List.mem_of_mem_filter (List.mem_of_mem_head? hhead)
          rw [← hother type' fun heq => hnot (heq ▸ hmem)]
          exact h.firstCreated type' (hfilter ▸ hhead) hcreates

theorem createChannels_spec (replies : Replies) (d : SessionDescription) (s : WebRtcSession) :
    ChannelsCreated replies d [.audio, .video, .data] s (s.createChannels replies d) :=
  createChannelsOf_spec replies d (by decide) s

/-! ## States -/

/-- What `updateSessionState` does. -/
structure StateUpdated (replies : Replies) (action : Action) (source : ContentSource)
    (s : WebRtcSession) (p : Bool × WebRtcSession) : Prop where
  keeps : Keeps s p.2
  ok : p.1 = true ↔ replies.pushesDown = true ∧ s.error = none ∧ replies.error .pushdown = none ∧
    replies.error .state = none
  error : p.1 = true → p.2.error = none
  state : p.1 = true → p.2.state = nextState action source

theorem updateSessionState_spec (replies : Replies) (d : SessionDescription) (s : WebRtcSession)
    (action : Action) (source : ContentSource) :
    StateUpdated replies action source s (s.updateSessionState replies action source d) := by
  have hremoved : ∀ s' : WebRtcSession,
      s' = (if action = .kAnswer then s.removeUnusedChannelsAndTransports d else s) →
        Keeps s s' ∧ s'.error = s.error := by
    rintro s' rfl
    split
    · exact ⟨⟨rfl, rfl, rfl, rfl, rfl, rfl, rfl, rfl, rfl⟩, rfl⟩
    · exact ⟨Keeps.refl s, rfl⟩
  unfold updateSessionState
  generalize hs' : (if action = .kAnswer then s.removeUnusedChannelsAndTransports d else s) = s'
  obtain ⟨hkeeps, herror⟩ := hremoved s' hs'.symm
  dsimp only
  by_cases hpush : replies.pushesDown = true
  · rw [if_neg (by simp [hpush])]
    refine ⟨?_, ?_, fun h => of_decide_eq_true h, fun _ => rfl⟩
    · exact hkeeps.trans ⟨rfl, rfl, rfl, rfl, rfl, rfl, rfl, rfl, rfl⟩
    · have hfirst := setError_error_iff s' (replies.error .pushdown)
      rw [herror] at hfirst
      rw [decide_eq_true_iff, setError_error_iff, and_iff_right hpush, ← and_assoc]
      exact and_congr_left fun _ => hfirst
  · rw [if_pos (by simpa using hpush)]
    refine ⟨hkeeps.trans (setError_keeps s' _), ?_, nofun, nofun⟩
    exact iff_of_false Bool.false_ne_true fun h => hpush h.1

/-! ## Candidates -/

/-- Whether `UseCandidate` finds a content. -/
def usable (d : SessionDescription) (c : JsepIceCandidate) : Bool :=
  0 ≤ c.sdpMlineIndex && c.sdpMlineIndex < d.contents.length

/-- What the candidates of all sections come to: the last section with candidates decides. -/
def usableSections (d : SessionDescription) : List (List JsepIceCandidate) → Bool → Bool
  | [], ret => ret
  | candidates :: sections, ret =>
    usableSections d sections (if candidates = [] then ret else candidates.all (usable d))

/-- What of a section is handed on. -/
def submissions (d : SessionDescription) (candidates : List JsepIceCandidate) :
    List (Text × Candidate) :=
  (candidates.takeWhile (usable d)).map fun c =>
    ((d.contents[c.sdpMlineIndex.toNat]?).elim [] ContentInfo.name, c.candidate)

theorem remoteContent_eq (hd : s.remoteDescription = some d)
    (c : JsepIceCandidate) : s.remoteContent c.sdpMlineIndex =
      if usable d c then d.contents[c.sdpMlineIndex.toNat]? else none := by
  have husable : usable d c = true ↔
      0 ≤ c.sdpMlineIndex ∧ c.sdpMlineIndex < d.contents.length := by
    simp only [usable, Bool.and_eq_true, decide_eq_true_eq]
  rw [remoteContent, hd, Option.bind_some]
  by_cases hneg : c.sdpMlineIndex < 0
  · rw [if_pos hneg, if_neg fun h => (by omega : ¬ 0 ≤ c.sdpMlineIndex) (husable.mp h).1]
  · rw [if_neg hneg]
    split
    · rfl
    · rename_i hout
      have hout := husable.not.mp hout
      exact List.getElem?_eq_none (by omega)

theorem useSection_eq (hd : s.remoteDescription = some d)
    (candidates : List JsepIceCandidate) (ret : Bool) :
    useSection candidates ret s =
      (if candidates = [] then ret else candidates.all (usable d),
        { s with submitted := s.submitted ++ submissions d candidates }) := by
  induction candidates generalizing s ret with
  | nil => simp [useSection, submissions]
  | cons c candidates ih =>
    rw [useSection, useCandidate, remoteContent_eq hd]
    by_cases husable : usable d c = true
    · have hlt : c.sdpMlineIndex.toNat < d.contents.length := by
        simp only [usable, Bool.and_eq_true, decide_eq_true_eq] at husable
        omega
      rw [if_pos husable, List.getElem?_eq_getElem hlt]
      have hrest := ih (s := { s with submitted := s.submitted ++
        [(d.contents[c.sdpMlineIndex.toNat].name, c.candidate)] }) hd true
      dsimp only
      rw [hrest]
      refine Prod.ext ?_ ?_
      · cases candidates with
        | nil => simp [husable]
        | cons c' rest => simp [husable]
      · simp [submissions, husable, List.getElem?_eq_getElem hlt]
    · simp [husable, submissions]

/-- The candidates that are handed on. -/
theorem useSections_eq (hd : s.remoteDescription = some d)
    (sections : List (List JsepIceCandidate)) (ret : Bool) :
    useSections sections ret s = (usableSections d sections ret,
      { s with submitted := s.submitted ++ sections.flatMap (submissions d) }) := by
  induction sections generalizing s ret with
  | nil => simp [useSections, usableSections]
  | cons candidates sections ih =>
    have hrest := ih (s := { s with submitted := s.submitted ++ submissions d candidates }) hd
      (if candidates = [] then ret else candidates.all (usable d))
    rw [useSections, useSection_eq hd]
    dsimp only
    rw [hrest]
    simp [usableSections, List.append_assoc]

theorem useSections_frame (s : WebRtcSession) (sections : List (List JsepIceCandidate))
    (ret : Bool) :
    ∃ l, (useSections sections ret s).2 = { s with submitted := l } := by
  have hsection : ∀ (candidates : List JsepIceCandidate) (ret : Bool) (s : WebRtcSession),
      ∃ l, (useSection candidates ret s).2 = { s with submitted := l } := by
    intro candidates
    induction candidates with
    | nil => exact fun ret s => ⟨s.submitted, rfl⟩
    | cons c candidates ih =>
      intro ret s
      rw [useSection, useCandidate]
      cases s.remoteContent c.sdpMlineIndex with
      | none => exact ⟨s.submitted, rfl⟩
      | some content =>
        obtain ⟨l, hl⟩ := ih true
          { s with submitted := s.submitted ++ [(content.name, c.candidate)] }
        exact ⟨l, hl⟩
  induction sections generalizing s ret with
  | nil => exact ⟨s.submitted, rfl⟩
  | cons candidates sections ih =>
    obtain ⟨l, hl⟩ := hsection candidates ret s
    rw [useSections]
    dsimp only
    obtain ⟨l', hl'⟩ := ih (useSection candidates ret s).2 (useSection candidates ret s).1
    exact ⟨l', by rw [hl', hl]⟩

theorem startCandidatesAllocation_frame (s : WebRtcSession) :
    s.startCandidatesAllocation.error = s.error ∧ s.startCandidatesAllocation.state = s.state ∧
      s.startCandidatesAllocation.localDesc = s.localDesc ∧
      s.startCandidatesAllocation.localDescription = s.localDescription ∧
      s.startCandidatesAllocation.remoteDescription = s.remoteDescription ∧
      s.startCandidatesAllocation.iceRestartLatch = s.iceRestartLatch ∧
      s.startCandidatesAllocation.factory = s.factory := by
  unfold startCandidatesAllocation
  cases hremote : s.remoteDesc with
  | none => simp [useCandidatesInSessionDescription, hremote]
  | some desc =>
    obtain ⟨l, hl⟩ := useSections_frame
      { s with remoteDesc := some (s.withSavedCandidates desc), savedCandidates := [] }
      (s.withSavedCandidates desc).jsep.candidates true
    simp [useCandidatesInSessionDescription, hl]

/-! ## Calls -/

/-- The session when the checks of a local description have passed. -/
def withLocal (s : WebRtcSession) (desc : TypedDescription) : WebRtcSession :=
  { s with
    initiator := s.initiator ||
      decide (s.state = SessionState.init ∧ getAction desc.type = Action.kOffer)
    localDescription := some (s.securedDescription desc).jsep.description
    localDesc := some (s.securedDescription desc) }

theorem applyLocalDescription_eq (s : WebRtcSession) (replies : Replies) (desc : TypedDescription) :
    s.applyLocalDescription replies desc =
      match (s.withLocal desc).createChannels replies
        (s.securedDescription desc).jsep.description with
      | (false, s) => (some .createChannelFailed, s)
      | (true, s') =>
        match s'.updateSessionState replies (getAction desc.type) .csLocal
          (s.securedDescription desc).jsep.description with
        | (false, s) => (some .updateStateFailed, s)
        | (true, s) =>
          let s := s.startCandidatesAllocation.setError (replies.error .candidates)
          (s.error.map .sessionError, s) := rfl

theorem applyLocalDescription_cases (s : WebRtcSession) (replies : Replies)
    (desc : TypedDescription) :
    ∃ s', Keeps (s.withLocal desc) s' ∧
      ((s.applyLocalDescription replies desc).2 = s' ∧
          (s.applyLocalDescription replies desc).1.isSome = true ∨
        ∃ error, (s.applyLocalDescription replies desc).2 =
          s'.startCandidatesAllocation.setError error) := by
  have hcreated := (createChannels_spec replies
    ((s.securedDescription desc).jsep.description) (s.withLocal desc)).keeps
  rw [applyLocalDescription_eq]
  generalize (s.withLocal desc).createChannels replies
    (s.securedDescription desc).jsep.description = p₁ at hcreated
  obtain ⟨created, s₁⟩ := p₁
  cases created with
  | false => exact ⟨s₁, hcreated, .inl ⟨rfl, rfl⟩⟩
  | true =>
    have hupdated := (updateSessionState_spec replies
      ((s.securedDescription desc).jsep.description) s₁ (getAction desc.type) .csLocal).keeps
    dsimp only at hcreated ⊢
    generalize s₁.updateSessionState replies (getAction desc.type) .csLocal
      (s.securedDescription desc).jsep.description = p₂ at hupdated
    obtain ⟨updated, s₂⟩ := p₂
    have hkeeps := hcreated.trans hupdated
    cases updated with
    | false => exact ⟨s₂, hkeeps, .inl ⟨rfl, rfl⟩⟩
    | true => exact ⟨s₂, hkeeps, .inr ⟨replies.error .candidates, rfl⟩⟩

/-- The session after the candidates of a remote description have been used, if there is a local
one. -/
def usingCandidates (s : WebRtcSession) (desc : TypedDescription) : WebRtcSession :=
  if s.localDesc.isSome then (s.useCandidatesInSessionDescription (some desc)).2 else s

def candidatesUsed (s : WebRtcSession) (desc : TypedDescription) : Bool :=
  !s.localDesc.isSome || (s.useCandidatesInSessionDescription (some desc)).1

theorem useCandidates_eq (s : WebRtcSession) (desc : TypedDescription) :
    (if s.localDesc.isSome then s.useCandidatesInSessionDescription (some desc) else (true, s)) =
      (s.candidatesUsed desc, s.usingCandidates desc) := by
  rw [candidatesUsed, usingCandidates]
  cases s.localDesc.isSome <;> rfl

theorem usingCandidates_frame (s : WebRtcSession) (desc : TypedDescription) :
    ∃ l, s.usingCandidates desc = { s with submitted := l } := by
  rw [usingCandidates]
  split
  · exact useSections_frame s desc.jsep.candidates true
  · exact ⟨s.submitted, rfl⟩

/-- What a call that stops early leaves of the old session. -/
structure StopsEarly (s s' : WebRtcSession) : Prop where
  factory : s'.factory = s.factory
  localDesc : s'.localDesc = s.localDesc
  localDescription : s'.localDescription = s.localDescription
  remoteDesc : s'.remoteDesc = s.remoteDesc
  iceRestartLatch : s'.iceRestartLatch = s.iceRestartLatch

theorem Keeps.stopsEarly (h : Keeps s s') : StopsEarly s s' :=
  ⟨h.factory, h.localDesc, h.localDescription, h.remoteDesc, h.iceRestartLatch⟩

theorem applyRemoteDescription_cases (s : WebRtcSession) (replies : Replies)
    (desc : TypedDescription) :
    (StopsEarly s (s.applyRemoteDescription replies desc).2 ∧
        (s.applyRemoteDescription replies desc).1.isSome = true ∧
        ∀ e, (s.applyRemoteDescription replies desc).1 ≠ some (.sessionError e)) ∨
      ∃ s' error, Keeps { s with remoteDescription := some desc.jsep.description } s' ∧
        (s.applyRemoteDescription replies desc).2 =
          ((s'.usingCandidates desc).storeRemoteDescription desc).setError error ∧
        (s.applyRemoteDescription replies desc).1 =
          (s.applyRemoteDescription replies desc).2.error.map .sessionError := by
  have hcreated := (createChannels_spec replies desc.jsep.description s).keeps
  rw [applyRemoteDescription]
  generalize s.createChannels replies desc.jsep.description = p₁ at hcreated
  obtain ⟨created, s₁⟩ := p₁
  cases created with
  | false => exact .inl ⟨hcreated.stopsEarly, rfl, nofun⟩
  | true =>
    have hupdated := (updateSessionState_spec replies desc.jsep.description
      { s₁ with remoteDescription := some desc.jsep.description } (getAction desc.type)
      .csRemote).keeps
    dsimp only at hcreated ⊢
    generalize WebRtcSession.updateSessionState
      { s₁ with remoteDescription := some desc.jsep.description } replies (getAction desc.type)
      .csRemote desc.jsep.description = p₂ at hupdated
    obtain ⟨updated, s₂⟩ := p₂
    have hkeeps := (hcreated.withRemote (some desc.jsep.description)).trans hupdated
    have hearly : StopsEarly s s₂ := ⟨hkeeps.factory, hkeeps.localDesc, hkeeps.localDescription,
      hkeeps.remoteDesc, hkeeps.iceRestartLatch⟩
    cases updated with
    | false => exact .inl ⟨hearly, rfl, nofun⟩
    | true =>
      dsimp only
      rw [useCandidates_eq]
      cases s₂.candidatesUsed desc with
      | false =>
        obtain ⟨l, hl⟩ := usingCandidates_frame s₂ desc
        refine .inl ⟨?_, rfl, nofun⟩
        dsimp only
        rw [hl]
        exact ⟨hearly.factory, hearly.localDesc, hearly.localDescription, hearly.remoteDesc,
          hearly.iceRestartLatch⟩
      | true => exact .inr ⟨s₂, replies.error .candidates, hkeeps, rfl, rfl⟩

variable {desc : Option TypedDescription} {succeeds : Bool}

theorem setLocalDescription_cases {replies : Replies}
    (h : s.step (.setLocalDescription desc replies) = some (succeeds, s')) :
    (s.checkLocalDescription desc ≠ .passes ∧ succeeds = false ∧ s' = s) ∨
      ∃ d, desc = some d ∧ s.checkLocalDescription desc = .passes ∧
        succeeds = (s.applyLocalDescription replies d).1.isNone ∧
        s' = (s.applyLocalDescription replies d).2 := by
  simp only [step, setLocalDescription] at h
  cases hcheck : s.checkLocalDescription desc with
  | crashes => simp [hcheck] at h
  | fails failure =>
    simp only [hcheck, Option.map_some, Option.some.injEq, Prod.mk.injEq] at h
    exact .inl ⟨nofun, h.1.symm, h.2.symm⟩
  | passes =>
    cases desc with
    | none => simp [checkLocalDescription] at hcheck
    | some d =>
      simp only [hcheck, Option.map_some, Option.some.injEq, Prod.mk.injEq] at h
      exact .inr ⟨d, rfl, rfl, h.1.symm, h.2.symm⟩

theorem setRemoteDescription_eq (s : WebRtcSession) (replies : Replies)
    (desc : Option TypedDescription) :
    s.setRemoteDescription replies desc = match s.checkRemoteDescription desc with
      | .crashes => none
      | .fails failure => some (some failure, s)
      | .passes => desc.map (s.applyRemoteDescription replies) := by
  rw [setRemoteDescription.eq_def]
  generalize s.checkRemoteDescription desc = check
  cases check <;> cases desc <;> rfl

theorem setRemoteDescription_cases {replies : Replies}
    (h : s.step (.setRemoteDescription desc replies) = some (succeeds, s')) :
    (s.checkRemoteDescription desc ≠ .passes ∧ succeeds = false ∧ s' = s) ∨
      ∃ d, desc = some d ∧ s.checkRemoteDescription desc = .passes ∧
        succeeds = (s.applyRemoteDescription replies d).1.isNone ∧
        s' = (s.applyRemoteDescription replies d).2 := by
  simp only [step, setRemoteDescription_eq] at h
  cases hcheck : s.checkRemoteDescription desc with
  | crashes => simp [hcheck] at h
  | fails failure =>
    simp only [hcheck, Option.map_some, Option.some.injEq, Prod.mk.injEq] at h
    exact .inl ⟨nofun, h.1.symm, h.2.symm⟩
  | passes =>
    cases desc with
    | none => simp [checkRemoteDescription] at hcheck
    | some d =>
      simp only [hcheck, Option.map_some, Option.some.injEq, Prod.mk.injEq] at h
      exact .inr ⟨d, rfl, rfl, h.1.symm, h.2.symm⟩

theorem processIceMessage_cases {candidate : Option JsepIceCandidate}
    {ok : Bool} (h : s.processIceMessage candidate = (ok, s')) :
    (ok = false ∧ s' = s) ∨ ∃ c, candidate = some c ∧
      ((s.localDesc = none ∨ s.remoteDesc = none) ∧ ok = true ∧
          s' = { s with savedCandidates := s.savedCandidates ++ [c] } ∨
        ∃ r, s.localDesc.isSome = true ∧ s.remoteDesc = some r ∧
          (ok = true → addsCandidate r.jsep c = true) ∧
          (addsCandidate r.jsep c = true →
            (useCandidatesInSessionDescription
              { s with remoteDesc := some { r with jsep := r.jsep.addCandidate c } }
              (some { r with jsep := r.jsep.addCandidate c })).2 = s') ∧
          (addsCandidate r.jsep c = false →
            s' = { s with remoteDesc := some { r with jsep := r.jsep.addCandidate c } })) := by
  unfold processIceMessage at h
  split at h
  · exact .inl ⟨(congrArg Prod.fst h).symm, (congrArg Prod.snd h).symm⟩
  · cases candidate with
    | none => exact .inl ⟨(congrArg Prod.fst h).symm, (congrArg Prod.snd h).symm⟩
    | some c =>
      refine .inr ⟨c, rfl, ?_⟩
      dsimp only at h
      split at h
      · rename_i l r hlocal hremote
        refine .inr ⟨r, by rw [hlocal]; rfl, hremote, ?_⟩
        by_cases hadds : addsCandidate r.jsep c = true
        · rw [if_pos hadds] at h
          exact ⟨fun _ => hadds, fun _ => congrArg Prod.snd h,
            fun hno => absurd hadds (Bool.eq_false_iff.mp hno)⟩
        · rw [if_neg hadds] at h
          obtain ⟨rfl, rfl⟩ := Prod.mk.inj h
          exact ⟨nofun, fun hadd => absurd hadd hadds, fun _ => rfl⟩
      · rename_i hmissing
        refine .inl ⟨?_, (congrArg Prod.fst h).symm, (congrArg Prod.snd h).symm⟩
        cases hlocal : s.localDesc with
        | none => exact .inl rfl
        | some l =>
          cases hremote : s.remoteDesc with
          | none => exact .inr rfl
          | some r => exact (hmissing l r hlocal hremote).elim

theorem createOffer_session (s : WebRtcSession) (options : Option MediaSessionOptions)
    (r : Runtime) : (s.createOffer options r).2 = s ∨
      (s.createOffer options r).2 = { s with sessionVersion := s.sessionVersion + 1 } := by
  cases options with
  | none => exact .inl rfl
  | some options =>
    rw [createOffer.eq_def]
    dsimp only
    split
    · exact .inl rfl
    · exact .inr rfl

theorem createAnswer_session (s : WebRtcSession) (options : Option MediaSessionOptions)
    (offer : Option TypedDescription) (r : Runtime) : (s.createAnswer options offer r).2 = s ∨
      (s.createAnswer options offer r).2 =
        { s with iceRestartLatch := false, sessionVersion := s.sessionVersion + 1 } := by
  rw [createAnswer.eq_def]
  split
  · split
    · exact .inl rfl
    · exact .inr rfl
  · exact .inl rfl

theorem isRun_calls (s : WebRtcSession) (events : List SessionEvent) :
    IsRun Call.before Call.after s (s.calls events) := by
  induction events generalizing s with
  | nil => trivial
  | cons e events ih =>
    rw [calls]
    cases s.step e with
    | none => trivial
    | some p => exact ⟨rfl, ih p.2⟩

theorem step_of_mem_calls {events : List SessionEvent} {c : Call}
    (h : c ∈ s.calls events) : c.before.step c.event = some (c.succeeds, c.after) := by
  induction events generalizing s with
  | nil => cases h
  | cons e events ih =>
    rw [calls] at h
    cases hstep : s.step e with
    | none =>
      rw [hstep] at h
      cases h
    | some p =>
      rw [hstep] at h
      rcases List.mem_cons.mp h with rfl | h
      · exact hstep
      · exact ih h

end Libjingle.Webrtc.WebRtcSession
