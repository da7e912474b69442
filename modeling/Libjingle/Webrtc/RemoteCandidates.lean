import Mathlib.Data.List.TakeWhile
import Libjingle.Lib.Growth
import Libjingle.Webrtc.SessionSteps

/-!
# Candidates of the other side (`ProcessIceMessage`, `CopySavedCandidates`)

A candidate that arrives too early is saved, copied into the remote description by the next call
that sets a description, and handed to the transports by the call that uses the candidates of that
description. `SetLocalDescription` copies first and uses then; `SetRemoteDescription` does it the
other way round, and neither looks whether a candidate could be copied.

* **`remote_candidates_handed`**: all are handed on in the runs in which none is lost while it is
  copied.
-/

namespace Libjingle.Webrtc

open Lib Sdp Media

/-! ## Copies -/

theorem hostAddress_equal_symm {a b : HostAddress} (h : a.equal b = true) : b.equal a = true := by
  simp only [HostAddress.equal, Bool.and_eq_true, Bool.or_eq_true, decide_eq_true_eq] at h ⊢
  obtain ⟨⟨hip, hname⟩, hport⟩ := h
  exact ⟨⟨hip.symm, hip ▸ hname.imp_right Eq.symm⟩, hport.symm⟩

theorem hostAddress_equal_trans {a b c : HostAddress} (h : a.equal b = true)
    (h' : b.equal c = true) : a.equal c = true := by
  simp only [HostAddress.equal, Bool.and_eq_true, Bool.or_eq_true, decide_eq_true_eq] at h h' ⊢
  obtain ⟨⟨hip, hname⟩, hport⟩ := h
  obtain ⟨⟨hip', hname'⟩, hport'⟩ := h'
  refine ⟨⟨hip.trans hip', ?_⟩, hport.trans hport'⟩
  rcases hname with hany | hname
  · exact .inl hany
  · exact hname'.imp (hip ▸ id) hname.trans

/-- `IsEquivalent`, one field at a time. -/
structure Equivalent (a b : Candidate) : Prop where
  id : a.id = b.id
  component : a.component = b.component
  protocol : a.protocol = b.protocol
  address : a.address.equal b.address = true
  username : a.username = b.username
  password : a.password = b.password
  type : a.type = b.type
  generation : a.generation = b.generation
  foundation : a.foundation = b.foundation
  relatedAddress : a.relatedAddress.equal b.relatedAddress = true

theorem isEquivalent_iff (a b : Candidate) : a.isEquivalent b = true ↔ Equivalent a b := by
  simp only [Candidate.isEquivalent, Bool.and_eq_true, decide_eq_true_eq]
  constructor
  · rintro ⟨⟨⟨⟨⟨⟨⟨⟨⟨h₁, h₂⟩, h₃⟩, h₄⟩, h₅⟩, h₆⟩, h₇⟩, h₈⟩, h₉⟩, h₁₀⟩
    exact ⟨h₁, h₂, h₃, h₄, h₅, h₆, h₇, h₈, h₉, h₁₀⟩
  · intro h
    exact ⟨⟨⟨⟨⟨⟨⟨⟨⟨h.id, h.component⟩, h.protocol⟩, h.address⟩, h.username⟩, h.password⟩, h.type⟩,
      h.generation⟩, h.foundation⟩, h.relatedAddress⟩

/-- A candidate with a user name and a password, where it has none of its own. -/
def CopyOf (c x : Candidate) : Prop :=
  ∃ username password, (c.username ≠ [] → username = c.username) ∧
    (c.password ≠ [] → password = c.password) ∧
    Equivalent { c with username := username, password := password } x

theorem hostAddress_equal_refl (a : HostAddress) : a.equal a = true := by
  simp [HostAddress.equal]

theorem copyOf_filled (c : Candidate) (username password : Text) :
    CopyOf c { c with
      username := JsepSessionDescription.orElse c.username username
      password := JsepSessionDescription.orElse c.password password } := by
  refine ⟨_, _, fun h => ?_, fun h => ?_, ⟨rfl, rfl, rfl, hostAddress_equal_refl _, rfl, rfl, rfl,
    rfl, rfl, hostAddress_equal_refl _⟩⟩
  · exact if_neg h
  · exact if_neg h

theorem copyOf_of_equivalent {c x : Candidate} (h : x.isEquivalent c = true) : CopyOf c x := by
  have h := (isEquivalent_iff x c).mp h
  refine ⟨c.username, c.password, fun _ => rfl, fun _ => rfl, ⟨h.id.symm, h.component.symm,
    h.protocol.symm, hostAddress_equal_symm h.address, h.username.symm, h.password.symm,
    h.type.symm, h.generation.symm, h.foundation.symm, hostAddress_equal_symm h.relatedAddress⟩⟩

theorem CopyOf.trans {a b c : Candidate} (h : CopyOf a b) (h' : CopyOf b c) : CopyOf a c := by
  obtain ⟨u, p, hu, hp, he⟩ := h
  obtain ⟨u', p', hu', hp', he'⟩ := h'
  refine ⟨u', p', fun hne => ?_, fun hne => ?_,
    ⟨he.id.trans he'.id, he.component.trans he'.component, he.protocol.trans he'.protocol,
      hostAddress_equal_trans he.address he'.address, he'.username, he'.password,
      he.type.trans he'.type, he.generation.trans he'.generation,
      he.foundation.trans he'.foundation,
      hostAddress_equal_trans he.relatedAddress he'.relatedAddress⟩⟩
  · -- a name of its own is kept by both
    have hb : b.username = a.username := he.username.symm.trans (hu hne)
    exact (hu' (hb ▸ hne)).trans hb
  · have hb : b.password = a.password := he.password.symm.trans (hp hne)
    exact (hp' (hb ▸ hne)).trans hb

/-! ## Descriptions with more candidates -/

/-- A description has a copy of a candidate. -/
def HasCopy (d : JsepSessionDescription) (c : JsepIceCandidate) : Prop :=
  ∃ m, ∃ x ∈ sectionCandidates d m, x.sdpMid = c.sdpMid ∧ CopyOf c.candidate x.candidate

variable {d : JsepSessionDescription}

theorem HasCopy.of_copy {c x : JsepIceCandidate} (h : HasCopy d x)
    (hmid : x.sdpMid = c.sdpMid) (hcopy : CopyOf c.candidate x.candidate) : HasCopy d c := by
  obtain ⟨m, y, hy, hmid', hcopy'⟩ := h
  exact ⟨m, y, hy, hmid'.trans hmid, hcopy.trans hcopy'⟩

/-- A description gets more candidates. -/
structure Grows (d d' : JsepSessionDescription) : Prop where
  description : d'.description = d.description
  length : d'.candidates.length = d.candidates.length
  candidates : ∀ m, ∀ x ∈ sectionCandidates d m, x ∈ sectionCandidates d' m

theorem Grows.refl (d : JsepSessionDescription) : Grows d d := ⟨rfl, rfl, fun _ _ hx => hx⟩

theorem Grows.trans {a b c : JsepSessionDescription} (h : Grows a b) (h' : Grows b c) : Grows a c :=
  ⟨h'.description.trans h.description, h'.length.trans h.length,
    fun m x hx => h'.candidates m x (h.candidates m x hx)⟩

variable {d' : JsepSessionDescription} {c : JsepIceCandidate}

theorem Grows.hasCopy (h : Grows d d') (hc : HasCopy d c) : HasCopy d' c := by
  obtain ⟨m, x, hx, hcopy⟩ := hc
  exact ⟨m, x, h.candidates m x hx, hcopy⟩

/-- Candidates stand under the number and the name of their section, as `AddCandidate` leaves them.
-/
structure Numbered (d : JsepSessionDescription) : Prop where
  length : d.candidates.length = d.description.contents.length
  candidates : ∀ m, ∀ x ∈ sectionCandidates d m, x.sdpMlineIndex = m ∧
    (x.sdpMid = [] ∨ (d.description.contents[m]?).map ContentInfo.name = some x.sdpMid)

theorem numbered_ofDescription (d : SessionDescription) (sessionId sessionVersion : Text) :
    Numbered (.ofDescription d sessionId sessionVersion) := by
  refine ⟨List.length_map _, fun m x hx => ?_⟩
  simp only [sectionCandidates, JsepSessionDescription.ofDescription, List.getElem?_map] at hx
  cases hm : d.contents[m]? <;> simp [hm] at hx

/-! ### One candidate more -/

/-- A candidate as a section of a description takes it. -/
def filled (c : JsepIceCandidate) (i : Nat) (t : TransportDescription) : JsepIceCandidate :=
  ⟨c.sdpMid, i, { c.candidate with
    username := JsepSessionDescription.orElse c.candidate.username t.iceUfrag
    password := JsepSessionDescription.orElse c.candidate.password t.icePwd }⟩

theorem addCandidate_cases (d : JsepSessionDescription) (c : JsepIceCandidate) :
    (d.addCandidate c = d ∧ (addsCandidate d c = true → HasCopy d c)) ∨
      ∃ i t, d.getMediasectionIndex c = some i ∧ i < d.candidates.length ∧
        d.addCandidate c =
          { d with
            candidates := d.candidates.set i (sectionCandidates d i ++ [filled c i t]) } := by
  simp only [JsepSessionDescription.addCandidate, addsCandidate]
  by_cases hneg : c.sdpMlineIndex < 0
  · rw [if_pos hneg, if_pos hneg]
    exact .inl ⟨rfl, fun hadds => (Bool.false_ne_true hadds).elim⟩
  rw [if_neg hneg, if_neg hneg]
  cases hindex : d.getMediasectionIndex c with
  | none => exact .inl ⟨rfl, fun hadds => (Bool.false_ne_true hadds).elim⟩
  | some i =>
    dsimp only
    cases hcontent : d.description.contents[i]? with
    | none => exact .inl ⟨rfl, fun hadds => (Bool.false_ne_true hadds).elim⟩
    | some content =>
      cases hadded : d.candidates[i]? with
      | none => exact .inl ⟨rfl, fun hadds => (Bool.false_ne_true hadds).elim⟩
      | some added =>
        have hsection : sectionCandidates d i = added := by
          rw [sectionCandidates, hadded, Option.getD_some]
        dsimp only
        by_cases hhas : hasCandidate added c = true
        · rw [if_pos hhas]
          refine .inl ⟨rfl, fun _ => ?_⟩
          obtain ⟨x, hx, hequal⟩ := List.any_eq_true.mp hhas
          simp only [Bool.and_eq_true, decide_eq_true_eq] at hequal
          exact ⟨i, x, hsection ▸ hx, hequal.1.1, copyOf_of_equivalent hequal.2⟩
        · rw [if_neg hhas]
          cases htransport : d.description.getTransportInfoByName content.name with
          | none =>
            refine .inl ⟨rfl, fun hadds => ?_⟩
            simp [hhas] at hadds
          | some t =>
            refine .inr ⟨i, t.description, rfl, (List.getElem?_eq_some_iff.mp hadded).1, ?_⟩
            rw [hsection]
            rfl

theorem sectionCandidates_set {i : Nat} (hi : i < d.candidates.length)
    (l : List JsepIceCandidate) (m : Nat) :
    sectionCandidates { d with candidates := d.candidates.set i l } m =
      if m = i then l else sectionCandidates d m := by
  simp only [sectionCandidates, List.getElem?_set]
  by_cases heq : m = i
  · subst heq
    simp [hi]
  · simp [heq, Ne.symm heq]

theorem grows_addCandidate (d : JsepSessionDescription) (c : JsepIceCandidate) :
    Grows d (d.addCandidate c) := by
  rcases addCandidate_cases d c with ⟨heq, -⟩ | ⟨i, t, -, hi, heq⟩
  · rw [heq]
    exact .refl d
  · rw [heq]
    refine ⟨rfl, List.length_set, fun m x hx => ?_⟩
    rw [sectionCandidates_set hi]
    split
    · rename_i hm
      exact List.mem_append_left _ (hm ▸ hx)
    · exact hx

theorem hasCopy_addCandidate (hadds : addsCandidate d c = true) : HasCopy (d.addCandidate c) c := by
  rcases addCandidate_cases d c with ⟨heq, hcopy⟩ | ⟨i, t, -, hi, heq⟩
  · rw [heq]
    exact hcopy hadds
  · rw [heq]
    refine ⟨i, filled c i t, ?_, rfl, copyOf_filled _ _ _⟩
    rw [sectionCandidates_set hi, if_pos rfl]
    exact List.mem_append_right _ (List.mem_singleton_self _)

theorem numbered_addCandidate (h : Numbered d) (c : JsepIceCandidate) :
    Numbered (d.addCandidate c) := by
  rcases addCandidate_cases d c with ⟨heq, -⟩ | ⟨i, t, hindex, hi, heq⟩
  · rw [heq]
    exact h
  · rw [heq]
    refine ⟨List.length_set.trans h.length, fun m x hx => ?_⟩
    rw [sectionCandidates_set hi] at hx
    split at hx
    · rename_i hm
      subst hm
      rcases List.mem_append.mp hx with hx | hx
      · exact h.candidates m x hx
      · obtain rfl := List.mem_singleton.mp hx
        refine ⟨rfl, ?_⟩
        rw [JsepSessionDescription.getMediasectionIndex] at hindex
        split at hindex
        · rename_i hmid
          exact .inl hmid
        · have hget := List.findIdx?_eq_some_iff_getElem.mp hindex
          obtain ⟨hlt, hname, -⟩ := hget
          refine .inr ?_
          rw [List.getElem?_eq_getElem hlt, Option.map_some]
          exact congrArg some (of_decide_eq_true hname).symm
    · exact h.candidates m x hx

theorem hasCandidate_mono {l l' : List JsepIceCandidate} (h : ∀ x ∈ l, x ∈ l')
    (hc : hasCandidate l c = true) : hasCandidate l' c = true := by
  obtain ⟨x, hx, hequal⟩ := List.any_eq_true.mp hc
  exact List.any_eq_true.mpr ⟨x, h x hx, hequal⟩

theorem Grows.adds (h : Grows d d')
    (hadds : addsCandidate d c = true) : addsCandidate d' c = true := by
  have hindex : d'.getMediasectionIndex c = d.getMediasectionIndex c := by
    rw [JsepSessionDescription.getMediasectionIndex, JsepSessionDescription.getMediasectionIndex,
      h.description]
  simp only [addsCandidate, hindex, h.description] at hadds ⊢
  split
  · rename_i hneg
    rw [if_pos hneg] at hadds
    cases hadds
  · rename_i hneg
    rw [if_neg hneg] at hadds
    cases hi : d.getMediasectionIndex c with
    | none => simp [hi] at hadds
    | some i =>
      simp only [hi] at hadds ⊢
      cases hcontent : d.description.contents[i]? with
      | none => simp [hcontent] at hadds
      | some content =>
        cases hadded : d.candidates[i]? with
        | none => simp [hcontent, hadded] at hadds
        | some added =>
          have hlt : i < d'.candidates.length :=
            h.length ▸ (List.getElem?_eq_some_iff.mp hadded).1
          have hmore : ∀ x ∈ added, x ∈ d'.candidates[i] := by
            intro x hx
            have := h.candidates i x (by rw [sectionCandidates, hadded]; exact hx)
            rwa [sectionCandidates, List.getElem?_eq_getElem hlt] at this
          simp only [hcontent, hadded, List.getElem?_eq_getElem hlt, Bool.or_eq_true] at hadds ⊢
          exact hadds.imp_left (hasCandidate_mono hmore)

/-! ### Lists of candidates -/

theorem saved_spec (saved : List JsepIceCandidate) (d : JsepSessionDescription) :
    Grows d (saved.foldl JsepSessionDescription.addCandidate d) ∧
      ∀ c ∈ saved, addsCandidate d c = true →
        HasCopy (saved.foldl JsepSessionDescription.addCandidate d) c :=
  ⟨foldl_grows .refl .trans grows_addCandidate saved d, fun c hc hadds =>
    foldl_reaches (P := fun d => HasCopy d c) .refl .trans grows_addCandidate Grows.hasCopy hc
      fun _ hgrows => hasCopy_addCandidate (hgrows.adds hadds)⟩

theorem numbered_foldl {l : List JsepIceCandidate}
    {f : JsepSessionDescription → JsepIceCandidate → JsepSessionDescription}
    (hf : ∀ d c, Numbered d → Numbered (f d c)) (h : Numbered d) :
    Numbered (l.foldl f d) := by
  induction l generalizing d with
  | nil => exact h
  | cons c l ih => exact ih (hf d c h)

theorem copyCandidate_grows (m : Nat) (d : JsepSessionDescription) (c : JsepIceCandidate) :
    Grows d (copyCandidate m d c) := by
  rw [copyCandidate]
  split
  · exact .refl d
  · exact grows_addCandidate d c

theorem copyCandidate_numbered (m : Nat) (d : JsepSessionDescription) (c : JsepIceCandidate)
    (h : Numbered d) : Numbered (copyCandidate m d c) := by
  rw [copyCandidate]
  split
  · exact h
  · exact numbered_addCandidate h c

/-- A candidate of a section can be copied there, or be found there. -/
def Retainable (d : JsepSessionDescription) (m : Nat) (c : JsepIceCandidate) : Prop :=
  m < d.candidates.length ∧
    (hasCandidate (sectionCandidates d m) c = true ∨ addsCandidate d c = true)

theorem Retainable.copied {m : Nat} (h : Retainable d m c) : HasCopy (copyCandidate m d c) c := by
  rw [copyCandidate]
  split
  · rename_i hhas
    obtain ⟨x, hx, hequal⟩ := List.any_eq_true.mp hhas
    simp only [Bool.and_eq_true, decide_eq_true_eq] at hequal
    exact ⟨m, x, hx, hequal.1.1, copyOf_of_equivalent hequal.2⟩
  · rename_i hno
    exact hasCopy_addCandidate (h.2.resolve_left hno)

theorem Retainable.mono {m : Nat}
    (h : Retainable d m c) (hgrows : Grows d d') : Retainable d' m c :=
  ⟨hgrows.length ▸ h.1, h.2.imp (hasCandidate_mono (hgrows.candidates m)) hgrows.adds⟩

theorem copyCandidates_spec (source : Option TypedDescription) (d : JsepSessionDescription) :
    Grows d (copyCandidatesFromSessionDescription source d) ∧
      (Numbered d → Numbered (copyCandidatesFromSessionDescription source d)) ∧
      ∀ r, source = some r → ∀ m, ∀ x ∈ sectionCandidates r.jsep m, Retainable d m x →
        HasCopy (copyCandidatesFromSessionDescription source d) x := by
  cases source with
  | none => exact ⟨.refl d, id, nofun⟩
  | some r =>
    have hgrows : ∀ (d : JsepSessionDescription) (m : Nat),
        Grows d ((sectionCandidates r.jsep m).foldl (copyCandidate m) d) := fun d m =>
      foldl_grows .refl .trans (copyCandidate_grows m) _ d
    refine ⟨foldl_grows .refl .trans hgrows _ d, fun h => ?_, fun r' heq m x hx hretain => ?_⟩
    · rw [copyCandidatesFromSessionDescription]
      generalize List.range (min r.jsep.candidates.length d.candidates.length) = sections
      induction sections generalizing d with
      | nil => exact h
      | cons m sections ih => exact ih _ (numbered_foldl (copyCandidate_numbered m) h)
    · obtain rfl := Option.some.inj heq
      have hsource : m < r.jsep.candidates.length := by
        by_contra hout
        rw [sectionCandidates, List.getElem?_eq_none (by omega)] at hx
        cases hx
      refine foldl_reaches (P := fun d => HasCopy d x) .refl .trans hgrows Grows.hasCopy
        (List.mem_range.mpr (Nat.lt_min.mpr ⟨hsource, hretain.1⟩)) fun d' hd' => ?_
      exact foldl_reaches (P := fun d => HasCopy d x) .refl .trans (copyCandidate_grows m)
        Grows.hasCopy hx fun d'' hd'' => (hretain.mono (hd'.trans hd'')).copied

namespace WebRtcSession

/-! ## Candidates that are handed on -/

/-- A copy of a candidate has been handed to `OnRemoteCandidates`, under the name it gave. -/
def Handed (s : WebRtcSession) (c : JsepIceCandidate) : Prop :=
  ∃ p ∈ s.submitted, (c.sdpMid = [] ∨ p.1 = c.sdpMid) ∧ CopyOf c.candidate p.2

theorem Handed.mono {s s' : WebRtcSession} {c : JsepIceCandidate} (h : s.Handed c)
    (hsub : ∀ p ∈ s.submitted, p ∈ s'.submitted) : s'.Handed c := by
  obtain ⟨p, hp, hcopy⟩ := h
  exact ⟨p, hsub p hp, hcopy⟩

variable {x : JsepIceCandidate}

theorem usable_of_numbered {d : JsepSessionDescription} (h : Numbered d) {m : Nat}
    (hx : x ∈ sectionCandidates d m) :
    usable d.description x = true ∧ ∃ content, d.description.contents[x.sdpMlineIndex.toNat]? =
      some content ∧ (x.sdpMid = [] ∨ content.name = x.sdpMid) := by
  have hm : m < d.candidates.length := by
    by_contra hout
    rw [sectionCandidates, List.getElem?_eq_none (by omega)] at hx
    cases hx
  obtain ⟨hindex, hname⟩ := h.candidates m x hx
  rw [h.length] at hm
  refine ⟨?_, d.description.contents[m], ?_, ?_⟩
  · simp only [usable, hindex, Bool.and_eq_true, decide_eq_true_eq]
    omega
  · rw [hindex, Int.toNat_natCast, List.getElem?_eq_getElem hm]
  · rw [List.getElem?_eq_getElem hm, Option.map_some] at hname
    exact hname.imp_right Option.some.inj

theorem mem_submissions {d : JsepSessionDescription} (h : Numbered d) {m : Nat}
    (hx : x ∈ sectionCandidates d m) :
    ∃ name, (x.sdpMid = [] ∨ name = x.sdpMid) ∧
      (name, x.candidate) ∈ d.candidates.flatMap (submissions d.description) := by
  obtain ⟨-, content, hcontent, hname⟩ := usable_of_numbered h hx
  refine ⟨content.name, hname, List.mem_flatMap.mpr ⟨sectionCandidates d m, ?_, ?_⟩⟩
  · cases hm : d.candidates[m]? with
    | none =>
      rw [sectionCandidates, hm] at hx
      cases hx
    | some l =>
      rw [sectionCandidates, hm]
      exact List.mem_of_getElem? hm
  · have hall : ∀ y ∈ sectionCandidates d m, usable d.description y = true := fun y hy =>
      (usable_of_numbered h hy).1
    rw [submissions, List.takeWhile_eq_self_iff.mpr hall]
    refine List.mem_map.mpr ⟨x, hx, ?_⟩
    rw [hcontent]
    rfl

variable {r : TypedDescription}

theorem handed_of_used {s : WebRtcSession} (h : Numbered r.jsep)
    (hd : s.remoteDescription = some r.jsep.description) {c : JsepIceCandidate}
    (hc : HasCopy r.jsep c) : (s.useCandidatesInSessionDescription (some r)).2.Handed c := by
  obtain ⟨m, x, hx, hmid, hcopy⟩ := hc
  obtain ⟨name, hname, hmem⟩ := mem_submissions h hx
  rw [useCandidatesInSessionDescription, useSections_eq hd]
  exact ⟨(name, x.candidate), List.mem_append_right _ hmem, hmid ▸ hname, hcopy⟩

theorem submitted_of_used (s : WebRtcSession)
    (hd : s.remoteDescription = some r.jsep.description) : ∀ p ∈ s.submitted,
      p ∈ (s.useCandidatesInSessionDescription (some r)).2.submitted := by
  intro p hp
  rw [useCandidatesInSessionDescription, useSections_eq hd]
  exact List.mem_append_left _ hp

/-! ## Where the candidates are -/

/-- Every candidate that has been taken is handed on, or saved, or waits in the remote description
for a local one. -/
structure CandidatesKept (accepted : List JsepIceCandidate) (s : WebRtcSession) : Prop where
  sync : ∀ r, s.remoteDesc = some r → s.remoteDescription = some r.jsep.description
  numbered : ∀ r, s.remoteDesc = some r → Numbered r.jsep
  parked : s.localDesc.isSome = true → s.remoteDesc.isSome = true → s.savedCandidates = []
  kept : ∀ c ∈ accepted, 0 ≤ c.sdpMlineIndex → s.Handed c ∨ c ∈ s.savedCandidates ∨
    (s.localDesc = none ∧ ∃ r, s.remoteDesc = some r ∧ HasCopy r.jsep c)

theorem CandidatesKept.congr {accepted : List JsepIceCandidate} {s s' : WebRtcSession}
    (h : CandidatesKept accepted s) (hlocal : s'.localDesc.isSome = s.localDesc.isSome)
    (hremote : s'.remoteDesc = s.remoteDesc)
    (hdescription : s'.remoteDescription = s.remoteDescription)
    (hsaved : s'.savedCandidates = s.savedCandidates) (hsubmitted : s'.submitted = s.submitted) :
    CandidatesKept accepted s' := by
  refine ⟨?_, ?_, ?_, fun c hc hindex => ?_⟩
  · rw [hremote, hdescription]
    exact h.sync
  · rw [hremote]
    exact h.numbered
  · rw [hlocal, hremote, hsaved]
    exact h.parked
  · have hnone : s'.localDesc = none ↔ s.localDesc = none := by
      rw [← Option.isNone_iff_eq_none, ← Option.isNone_iff_eq_none, ← Option.not_isSome,
        ← Option.not_isSome, hlocal]
    rw [hsaved, hremote, hnone]
    exact (h.kept c hc hindex).imp_left fun hhanded => hhanded.mono (hsubmitted ▸ fun _ hp => hp)

end WebRtcSession

namespace Call

/-- The candidate that a call takes. -/
def accepted (c : Call) : List JsepIceCandidate :=
  match c.event with
  | .processIceMessage (some candidate) => if c.succeeds then [candidate] else []
  | _ => []

/-- The candidates that have been taken after a call. -/
def takes (accepted : List JsepIceCandidate) (c : Call) : List JsepIceCandidate :=
  accepted ++ c.accepted

def SetsDescription (c : Call) : Prop :=
  match c.event with
  | .setLocalDescription _ _ | .setRemoteDescription _ _ => True
  | _ => False

/-- A remote description has its candidates where `AddCandidate` leaves them. -/
def GetsNumbered (c : Call) : Prop :=
  match c.event with
  | .setRemoteDescription (some desc) _ => Numbered desc.jsep
  | _ => True

/-- No candidate is lost while it is copied: with a local description none is saved when a remote
one is set; and saved candidates, and those that still wait in the remote description, can be
copied. -/
def LosesNone (accepted : List JsepIceCandidate) (c : Call) : Prop :=
  match c.event with
  | .setLocalDescription _ _ => ∀ r, c.before.remoteDesc = some r →
      ∀ x ∈ c.before.savedCandidates, 0 ≤ x.sdpMlineIndex → addsCandidate r.jsep x = true
  | .setRemoteDescription (some desc) _ =>
    (∀ x ∈ c.before.savedCandidates, 0 ≤ x.sdpMlineIndex →
        c.before.localDesc = none ∧ addsCandidate desc.jsep x = true) ∧
      (c.before.localDesc = none → ∀ r, c.before.remoteDesc = some r → ∀ m,
        ∀ x ∈ sectionCandidates r.jsep m,
          (∃ a ∈ accepted, x.sdpMid = a.sdpMid ∧ CopyOf a.candidate x.candidate) →
            Retainable desc.jsep m x)
  | _ => True

end Call

namespace WebRtcSession

variable {accepted : List JsepIceCandidate}

/-! ## One call -/

variable {s : WebRtcSession}

/-- `StartCandidatesAllocation` copies and uses. -/
theorem kept_startCandidatesAllocation
    (hsync : ∀ r, s.remoteDesc = some r → s.remoteDescription = some r.jsep.description)
    (hnumbered : ∀ r, s.remoteDesc = some r → Numbered r.jsep)
    (hkept : ∀ c ∈ accepted, 0 ≤ c.sdpMlineIndex → s.Handed c ∨ c ∈ s.savedCandidates ∨
      ∃ r, s.remoteDesc = some r ∧ HasCopy r.jsep c)
    (hadds : ∀ r, s.remoteDesc = some r → ∀ x ∈ s.savedCandidates, 0 ≤ x.sdpMlineIndex →
      addsCandidate r.jsep x = true) : CandidatesKept accepted s.startCandidatesAllocation := by
  unfold startCandidatesAllocation
  cases hremote : s.remoteDesc with
  | none =>
    simp only [hremote, useCandidatesInSessionDescription]
    refine ⟨fun r hr => hsync r hr, fun r hr => hnumbered r hr, fun _ hsome => ?_,
      fun c hc hindex => ?_⟩
    · rw [hremote] at hsome
      cases hsome
    · rcases hkept c hc hindex with hhanded | hsaved | ⟨r, hr, -⟩
      · exact .inl hhanded
      · exact .inr (.inl hsaved)
      · rw [hremote] at hr
        cases hr
  | some r =>
    obtain ⟨hgrows, hcopied⟩ := saved_spec s.savedCandidates r.jsep
    have hnum : Numbered (s.withSavedCandidates r).jsep :=
      numbered_foldl (fun d c h => numbered_addCandidate h c) (hnumbered r hremote)
    have hdescription : s.remoteDescription = some (s.withSavedCandidates r).jsep.description := by
      rw [hsync r hremote]
      exact congrArg some hgrows.description.symm
    have hused := fun {c : JsepIceCandidate} => handed_of_used
      (s := { s with remoteDesc := some (s.withSavedCandidates r), savedCandidates := [] })
      (c := c) hnum hdescription
    have hsub := submitted_of_used
      { s with remoteDesc := some (s.withSavedCandidates r), savedCandidates := [] } hdescription
    obtain ⟨l, hl⟩ := useSections_frame
      { s with remoteDesc := some (s.withSavedCandidates r), savedCandidates := [] }
      (s.withSavedCandidates r).jsep.candidates true
    dsimp only
    simp only [useCandidatesInSessionDescription] at hused hsub ⊢
    rw [hl] at hused hsub ⊢
    refine ⟨?_, ?_, fun _ _ => rfl, fun c hc hindex => .inl ?_⟩
    · intro r' hr'
      obtain rfl := Option.some.inj hr'
      exact hdescription
    · intro r' hr'
      obtain rfl := Option.some.inj hr'
      exact hnum
    · rcases hkept c hc hindex with hhanded | hsaved | ⟨r', hr', hcopy⟩
      · exact hhanded.mono hsub
      · exact hused (hcopied c hsaved (hadds r hremote c hsaved hindex))
      · rw [hremote] at hr'
        obtain rfl := Option.some.inj hr'
        exact hused (hgrows.hasCopy hcopy)

variable {s' : WebRtcSession}

variable {replies : Replies}

theorem kept_setLocalDescription (h : CandidatesKept accepted s) {desc : Option TypedDescription}
    (hstep : s.step (.setLocalDescription desc replies) = some (true, s'))
    (hadds : ∀ r, s.remoteDesc = some r → ∀ x ∈ s.savedCandidates, 0 ≤ x.sdpMlineIndex →
      addsCandidate r.jsep x = true) : CandidatesKept accepted s' := by
  rcases setLocalDescription_cases hstep with ⟨-, hno, -⟩ | ⟨d, -, -, hok, rfl⟩
  · cases hno
  obtain ⟨s₂, hkeeps, ⟨-, hfails⟩ | ⟨error, heq⟩⟩ := applyLocalDescription_cases s replies d
  · rw [Option.isNone_iff_eq_none.mp hok.symm] at hfails
    cases hfails
  rw [heq]
  have hallocated : CandidatesKept accepted s₂.startCandidatesAllocation := by
    have hremote : s₂.remoteDesc = s.remoteDesc := hkeeps.remoteDesc
    have hsaved : s₂.savedCandidates = s.savedCandidates := hkeeps.savedCandidates
    have hsubmitted : s₂.submitted = s.submitted := hkeeps.submitted
    refine kept_startCandidatesAllocation ?_ ?_ ?_ ?_
    · rw [hremote, hkeeps.remoteDescription]
      exact h.sync
    · rw [hremote]
      exact h.numbered
    · intro c hc hindex
      rw [hsaved, hremote]
      rcases h.kept c hc hindex with hhanded | hc | ⟨-, hcopy⟩
      · exact .inl (hhanded.mono (hsubmitted ▸ fun _ hp => hp))
      · exact .inr (.inl hc)
      · exact .inr (.inr hcopy)
    · rw [hremote, hsaved]
      exact hadds
  exact hallocated.congr rfl rfl rfl rfl rfl

theorem kept_setRemoteDescription (h : CandidatesKept accepted s) {d : TypedDescription}
    (hstep : s.step (.setRemoteDescription (some d) replies) = some (true, s'))
    (hnumbered : Numbered d.jsep)
    (hadds : ∀ x ∈ s.savedCandidates, 0 ≤ x.sdpMlineIndex →
      s.localDesc = none ∧ addsCandidate d.jsep x = true)
    (hretain : s.localDesc = none → ∀ r, s.remoteDesc = some r → ∀ m,
      ∀ x ∈ sectionCandidates r.jsep m,
        (∃ a ∈ accepted, x.sdpMid = a.sdpMid ∧ CopyOf a.candidate x.candidate) →
          Retainable d.jsep m x) : CandidatesKept accepted s' := by
  rcases setRemoteDescription_cases hstep with ⟨-, hno, -⟩ | ⟨d', hd', -, hok, rfl⟩
  · cases hno
  obtain rfl := Option.some.inj hd'
  rcases applyRemoteDescription_cases s replies d with ⟨-, hfails, -⟩ | ⟨s₂, error, hkeeps, heq, -⟩
  · rw [Option.isNone_iff_eq_none.mp hok.symm] at hfails
    cases hfails
  rw [heq]
  have hlocal : s₂.localDesc = s.localDesc := hkeeps.localDesc
  have hremote : s₂.remoteDesc = s.remoteDesc := hkeeps.remoteDesc
  have hsaved : s₂.savedCandidates = s.savedCandidates := hkeeps.savedCandidates
  have hdescription : s₂.remoteDescription = some d.jsep.description := hkeeps.remoteDescription
  have hsubmitted : s₂.submitted = s.submitted := hkeeps.submitted
  obtain ⟨hgrows, hcopied⟩ := saved_spec s₂.savedCandidates d.jsep
  obtain ⟨hgrows', hnum, hretained⟩ := copyCandidates_spec s₂.remoteDesc
    (s₂.withSavedCandidates d).jsep
  have hnum := hnum (numbered_foldl (fun d c h => numbered_addCandidate h c) hnumbered)
  have hall : Grows d.jsep (s₂.receivedDescription d).jsep := hgrows.trans hgrows'
  -- the candidates of the description may be handed on
  have hsub : ∀ p ∈ s.submitted, p ∈ (s₂.usingCandidates d).submitted := by
    rw [usingCandidates]
    split
    · exact hsubmitted ▸ submitted_of_used s₂ hdescription
    · exact hsubmitted ▸ fun _ hp => hp
  obtain ⟨l, hl⟩ := usingCandidates_frame s₂ d
  rw [hl] at hsub ⊢
  refine ⟨?_, ?_, fun _ _ => rfl, fun c hc hindex => ?_⟩
  · intro r hr
    obtain rfl := Option.some.inj hr
    exact hdescription.trans (congrArg some hall.description.symm)
  · intro r hr
    obtain rfl := Option.some.inj hr
    exact hnum
  · rcases h.kept c hc hindex with hhanded | hc' | ⟨hnone, r, hr, hcopy⟩
    · exact .inl (hhanded.mono hsub)
    · obtain ⟨hnone, hadd⟩ := hadds c hc' hindex
      refine .inr (.inr ⟨hlocal.trans hnone, _, rfl, hgrows'.hasCopy (hcopied c ?_ hadd)⟩)
      rw [hsaved]
      exact hc'
    · obtain ⟨m, x, hx, hmid, hcopy⟩ := hcopy
      have hcan := (hretain hnone r hr m x hx ⟨c, hc, hmid, hcopy⟩).mono hgrows
      exact .inr (.inr ⟨hlocal.trans hnone, _, rfl,
        HasCopy.of_copy (hretained r (hremote.trans hr) m x hx hcan) hmid hcopy⟩)

theorem mem_accepted {c x : JsepIceCandidate} {ok : Bool}
    (h : x ∈ Call.accepted ⟨s, .processIceMessage (some c), ok, s'⟩) : ok = true ∧ x = c := by
  cases ok with
  | false => cases h
  | true => exact ⟨rfl, List.mem_singleton.mp h⟩

theorem kept_processIceMessage (h : CandidatesKept accepted s)
    {candidate : Option JsepIceCandidate} {ok : Bool}
    (hstep : s.processIceMessage candidate = (ok, s')) :
    CandidatesKept (accepted ++ Call.accepted ⟨s, .processIceMessage candidate, ok, s'⟩) s' := by
  rcases processIceMessage_cases hstep with ⟨rfl, rfl⟩ | ⟨c, rfl, hcase⟩
  · cases candidate <;> simpa [Call.accepted] using h
  · rcases hcase with ⟨hmissing, -, rfl⟩ | ⟨r, hlocal, hremote, hok, hused, hstays⟩
    · refine ⟨h.sync, h.numbered, fun hl hr => ?_, fun x hx hindex => ?_⟩
      · rcases hmissing with hnone | hnone
        · exact absurd hl (by simp [hnone])
        · exact absurd hr (by simp [hnone])
      · rcases List.mem_append.mp hx with hx | hx
        · rcases h.kept x hx hindex with hhanded | hsaved | hwaits
          · exact .inl hhanded
          · exact .inr (.inl (List.mem_append_left _ hsaved))
          · exact .inr (.inr hwaits)
        · obtain ⟨-, rfl⟩ := mem_accepted hx
          exact .inr (.inl (List.mem_append_right _ (List.mem_singleton_self _)))
    · have hnum := numbered_addCandidate (h.numbered r hremote) c
      have hdescription : s.remoteDescription = some (r.jsep.addCandidate c).description := by
        rw [h.sync r hremote, (grows_addCandidate r.jsep c).description]
      have hnone : s.savedCandidates = [] := h.parked hlocal (by rw [hremote]; rfl)
      -- whether the new candidate is used or not
      have hnew : s'.remoteDescription = s.remoteDescription ∧
          s'.remoteDesc = some { r with jsep := r.jsep.addCandidate c } ∧
          s'.savedCandidates = s.savedCandidates ∧ (∀ p ∈ s.submitted, p ∈ s'.submitted) ∧
          (addsCandidate r.jsep c = true → s'.Handed c) := by
        by_cases hadds : addsCandidate r.jsep c = true
        · have hhanded := handed_of_used
            (s := { s with remoteDesc := some { r with jsep := r.jsep.addCandidate c } })
            (r := { r with jsep := r.jsep.addCandidate c }) hnum hdescription
            (hasCopy_addCandidate hadds)
          have hsub := submitted_of_used
            { s with remoteDesc := some { r with jsep := r.jsep.addCandidate c } }
            (r := { r with jsep := r.jsep.addCandidate c }) hdescription
          have hs' := hused hadds
          rw [hs'] at hhanded hsub
          obtain ⟨l, hl⟩ := useSections_frame
            { s with remoteDesc := some { r with jsep := r.jsep.addCandidate c } }
            (r.jsep.addCandidate c).candidates true
          rw [useCandidatesInSessionDescription, hl] at hs'
          subst hs'
          exact ⟨rfl, rfl, rfl, hsub, fun _ => hhanded⟩
        · rw [hstays (Bool.eq_false_iff.mpr hadds)]
          exact ⟨rfl, rfl, rfl, fun _ hp => hp, fun hadd => absurd hadd hadds⟩
      obtain ⟨hsame, hremote', hsaved, hsub, hhanded⟩ := hnew
      refine ⟨?_, ?_, fun _ _ => hsaved.trans hnone, fun x hx hindex => .inl ?_⟩
      · intro r' hr'
        obtain rfl := Option.some.inj (hremote'.symm.trans hr')
        exact hsame.trans hdescription
      · intro r' hr'
        obtain rfl := Option.some.inj (hremote'.symm.trans hr')
        exact hnum
      · rcases List.mem_append.mp hx with hx | hx
        · rcases h.kept x hx hindex with hold | hsaved | ⟨hno, -⟩
          · exact hold.mono hsub
          · rw [hnone] at hsaved
            cases hsaved
          · rw [hno] at hlocal
            cases hlocal
        · obtain ⟨rfl, rfl⟩ := mem_accepted hx
          exact hhanded (hok rfl)

/-- **One call** keeps the candidates. -/
theorem kept_step {c : Call} (hstep : c.before.step c.event = some (c.succeeds, c.after))
    (h : CandidatesKept accepted c.before) (hset : c.SetsDescription → c.succeeds = true)
    (hnumbered : c.GetsNumbered) (hloses : c.LosesNone accepted) :
    CandidatesKept (accepted ++ c.accepted) c.after := by
  obtain ⟨s, event, succeeds, s'⟩ := c
  dsimp only at hstep h
  cases event with
  | setLocalDescription desc replies =>
    obtain rfl : succeeds = true := hset trivial
    rw [Call.accepted, List.append_nil]
    exact kept_setLocalDescription h hstep hloses
  | setRemoteDescription desc replies =>
    obtain rfl : succeeds = true := hset trivial
    rw [Call.accepted, List.append_nil]
    cases desc with
    | none =>
      rcases setRemoteDescription_cases hstep with ⟨-, hno, -⟩ | ⟨d, hd, -⟩
      · cases hno
      · cases hd
    | some d => exact kept_setRemoteDescription h hstep hnumbered hloses.1 hloses.2
  | processIceMessage candidate => exact kept_processIceMessage h (Option.some.inj hstep)
  | createOffer options random =>
    obtain rfl : (s.createOffer options random).2 = s' :=
      congrArg Prod.snd (Option.some.inj hstep)
    rw [Call.accepted, List.append_nil]
    rcases createOffer_session s options random with heq | heq <;> rw [heq]
    · exact h
    · exact h.congr rfl rfl rfl rfl rfl
  | createAnswer options offer random =>
    obtain rfl : (s.createAnswer options offer random).2 = s' :=
      congrArg Prod.snd (Option.some.inj hstep)
    rw [Call.accepted, List.append_nil]
    rcases createAnswer_session s options offer random with heq | heq <;> rw [heq]
    · exact h
    · exact h.congr rfl rfl rfl rfl rfl
  | newLocalCandidates contentName candidates =>
    obtain rfl : s.processNewLocalCandidate contentName candidates = s' :=
      congrArg Prod.snd (Option.some.inj hstep)
    rw [Call.accepted, List.append_nil, processNewLocalCandidate]
    split
    · exact h
    · exact h.congr (Option.isSome_map ..) rfl rfl rfl rfl
  | stateMessage =>
    obtain rfl : s.onStateMessage = s' :=
      congrArg Prod.snd (Option.some.inj hstep)
    rw [Call.accepted, List.append_nil, onStateMessage]
    split <;> exact h.congr rfl rfl rfl rfl rfl
  | error error =>
    obtain rfl := congrArg Prod.snd (Option.some.inj hstep)
    rw [Call.accepted, List.append_nil]
    exact h.congr rfl rfl rfl rfl rfl
  | setSecurePolicy policy =>
    obtain rfl := congrArg Prod.snd (Option.some.inj hstep)
    rw [Call.accepted, List.append_nil]
    exact h.congr rfl rfl rfl rfl rfl

end WebRtcSession

/-! ## Runs -/

/-- With both descriptions set, the candidates whose index is one of the remote description are all
handed on. -/
def Call.HandsAll (accepted : List JsepIceCandidate) (c : Call) : Prop :=
  c.after.localDesc.isSome = true → ∀ r, c.after.remoteDesc = some r →
    ∀ x ∈ accepted ++ c.accepted, 0 ≤ x.sdpMlineIndex →
      x.sdpMlineIndex < r.jsep.description.contents.length → c.after.Handed x

namespace WebRtcSession

theorem CandidatesKept.handsAll {accepted : List JsepIceCandidate} {c : Call}
    (h : CandidatesKept (accepted ++ c.accepted) c.after) : c.HandsAll accepted := by
  intro hlocal r hr x hx hindex _
  rcases h.kept x hx hindex with hhanded | hsaved | ⟨hnone, -⟩
  · exact hhanded
  · rw [h.parked hlocal (by rw [hr]; rfl)] at hsaved
    cases hsaved
  · rw [hnone] at hlocal
    cases hlocal

/-- **Which runs hand all candidates on**: those in which none is lost while it is copied. -/
theorem remote_candidates_handed (factory : SessionFactory) (allowRtpDataEngine : Bool)
    (sessionId : Text) (events : List SessionEvent)
    (hset : ∀ c ∈ (new factory allowRtpDataEngine sessionId).calls events,
      c.SetsDescription → c.succeeds = true)
    (hnumbered : ∀ c ∈ (new factory allowRtpDataEngine sessionId).calls events, c.GetsNumbered)
    (hloses : Along Call.takes Call.LosesNone []
      ((new factory allowRtpDataEngine sessionId).calls events)) :
    Along Call.takes Call.HandsAll []
      ((new factory allowRtpDataEngine sessionId).calls events) := by
  refine along_of_run (I := CandidatesKept) (isRun_calls _ _)
    ⟨nofun, nofun, fun _ _ => rfl, fun _ hx => absurd hx List.not_mem_nil⟩
    (fun accepted c hc hkept hloses => ?_) hloses
  have hnext := kept_step (step_of_mem_calls hc) hkept (hset c hc) (hnumbered c hc) hloses
  exact ⟨hnext.handsAll, hnext⟩

/-! ### Two orders of the same calls -/

/-- A description of audio with a transport that has given credentials. -/
def audioDescription (type ufrag pwd : Text) : TypedDescription :=
  ⟨type, .ofDescription ⟨[cryptoContent "audio".toList .audio []],
    [⟨"audio".toList, ⟨nsGingleP2p, [], ufrag, pwd, none⟩⟩], []⟩ [] []⟩

/-- A candidate for the first content. -/
def firstCandidate : JsepIceCandidate :=
  ⟨[], 0, ⟨[], 1, "udp".toList, ⟨[], .ipv4 1, 1⟩, 0, [], [], "local".toList, 0, [],
    ⟨[], .unspec, 0⟩⟩⟩

def allWorks : Replies := ⟨fun _ => true, true, fun _ => none⟩

/-- The other side offers; the candidate arrives before the answer. -/
def candidateBeforeAnswer : List Call :=
  (new (plainFactory .disabled) false []).calls
    [.setRemoteDescription (some (audioDescription kOfferType ['a'] ['b'])) allWorks,
      .processIceMessage (some firstCandidate),
      .setLocalDescription (some (audioDescription kAnswerType ['l'] ['m'])) allWorks]

/-- The other side answers; its candidate arrives before the answer. -/
def candidateBeforeRemoteAnswer : List Call :=
  (new (plainFactory .disabled) false []).calls
    [.setLocalDescription (some (audioDescription kOfferType ['a'] ['b'])) allWorks,
      .processIceMessage (some firstCandidate),
      .setRemoteDescription (some (audioDescription kAnswerType ['l'] ['m'])) allWorks]

theorem audioDescription_numbered (type ufrag pwd : Text) :
    Numbered (audioDescription type ufrag pwd).jsep :=
  numbered_ofDescription _ _ _

theorem remote_candidates_handed_offered :
    Along Call.takes Call.HandsAll [] candidateBeforeAnswer ∧
      candidateBeforeAnswer.flatMap Call.accepted = [firstCandidate] := by
  refine ⟨remote_candidates_handed _ _ _ _ (fun c hc _ => ?_) (fun c hc => ?_)
    ⟨?_, trivial, ?_, trivial⟩, by decide⟩
  · exact (by decide : ∀ c ∈ candidateBeforeAnswer, c.succeeds = true) c hc
  · rcases List.mem_cons.mp hc with rfl | hc
    · exact audioDescription_numbered _ _ _
    · rcases List.mem_cons.mp hc with rfl | hc
      · trivial
      · obtain rfl := List.mem_singleton.mp hc
        trivial
  · exact ⟨fun x hx => absurd hx List.not_mem_nil, fun _ r hr => nomatch hr⟩
  · intro r hr x hx _
    obtain rfl := Option.some.inj hr
    obtain rfl := List.mem_singleton.mp hx
    decide

/-- The saved candidate is copied into the answer after the candidates of the answer have been used.
-/
theorem saved_candidate_not_handed :
    (∀ c ∈ candidateBeforeRemoteAnswer, c.succeeds = true ∧ c.GetsNumbered) ∧
      ¬ Along Call.takes Call.HandsAll [] candidateBeforeRemoteAnswer := by
  refine ⟨fun c hc => ⟨?_, ?_⟩, fun hall => ?_⟩
  · exact (by decide : ∀ c ∈ candidateBeforeRemoteAnswer, c.succeeds = true) c hc
  · rcases List.mem_cons.mp hc with rfl | hc
    · trivial
    · rcases List.mem_cons.mp hc with rfl | hc
      · trivial
      · obtain rfl := List.mem_singleton.mp hc
        exact audioDescription_numbered _ _ _
  · obtain ⟨-, -, hlast, -⟩ := hall
    obtain ⟨p, hp, -⟩ := hlast rfl _ rfl firstCandidate List.mem_cons_self (by decide) (by decide)
    cases hp

end WebRtcSession

end Libjingle.Webrtc
