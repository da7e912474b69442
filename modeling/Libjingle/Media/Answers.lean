import Libjingle.Media.Bundle

/-!
# The contents of an answer (`CreateAnswer`)

The answer is assembled in the order audio, video, data from the first content of each kind.

* **`answer_mirrors_iff`**: the offers whose sections an answer mirrors.
-/

namespace Libjingle.Media

open Lib Sdp

/-! ## The contents that are answered -/

/-- The first content of each kind, in the order in which they are handled. -/
def firstContents (offer : SessionDescription) : List ContentInfo :=
  mediaOrder.flatMap fun type => (offer.getFirstMediaContent type).toList

variable {d : SessionDescription} {type : MediaType} {c : ContentInfo}

theorem getFirst_spec (h : d.getFirstMediaContent type = some c) :
    c ∈ d.contents ∧ c.type = nsJingleRtp ∧ c.description.type = type := by
  have hp := List.find?_some h
  rw [decide_eq_true_eq] at hp
  exact ⟨List.mem_of_find?_eq_some h, hp⟩

theorem mem_firstContents {offer : SessionDescription} :
    c ∈ firstContents offer ↔ offer.getFirstMediaContent c.description.type = some c := by
  rw [firstContents, List.mem_flatMap]
  constructor
  · rintro ⟨type, -, hc⟩
    rw [Option.mem_toList] at hc
    rw [(getFirst_spec hc).2.2]
    exact hc
  · intro hc
    refine ⟨c.description.type, ?_, Option.mem_toList.mpr hc⟩
    cases c.description.type <;> decide

theorem firstContents_types (offer : SessionDescription) :
    ((firstContents offer).map fun c => c.description.type).Sublist mediaOrder := by
  have hone : ∀ type, (((offer.getFirstMediaContent type).toList).map
      fun c => c.description.type).Sublist [type] := by
    intro type
    cases h : offer.getFirstMediaContent type with
    | none => exact List.nil_sublist _
    | some c =>
      rw [Option.toList_some, List.map_singleton, (getFirst_spec h).2.2]
  have hall : (firstContents offer).map (fun c => c.description.type) =
      mediaOrder.flatMap fun type =>
        ((offer.getFirstMediaContent type).toList).map fun c => c.description.type :=
    List.map_flatMap
  rw [hall]
  exact (hone .audio).append ((hone .video).append ((hone .data).append (List.nil_sublist _)))

/-! ## One content -/

/-- The answer to a content has a secure transport: it is offered, and the factory can do it. -/
def answersWithDtls (f : SessionFactory) (offer : SessionDescription) (name : Text) : Bool :=
  ((getTransportDescription name (some offer)).bind
    TransportDescription.identityFingerprint).isSome && f.transport.secure ≠ .disabled

/-- The policy for the cryptos of an answer. -/
def answerPolicy (f : SessionFactory) (offer : SessionDescription) (name : Text) : SecurePolicy :=
  if answersWithDtls f offer name then .disabled else f.secure

/-- A content of the offer is accepted. -/
def accepts (options : MediaSessionOptions) (c : ContentInfo) : Bool :=
  !SessionFactory.rejects options c.description.type c.description.protocol

theorem setCredentials_fingerprint (r : Runtime) (type : MediaType) (iceRestart : Bool)
    (current : Option TransportDescription) (desc : TransportDescription) :
    (TransportDescriptionFactory.setCredentials r type iceRestart current
      desc).identityFingerprint =
      desc.identityFingerprint := by
  cases iceRestart <;> cases current <;> rfl

theorem createIdentityDigest_isSome {t : TransportDescriptionFactory}
    {desc desc' : TransportDescription} (h : t.createIdentityDigest desc = some desc') :
    desc'.identityFingerprint.isSome = true := by
  obtain ⟨fingerprint, -, rfl⟩ := Option.map_eq_some_iff.mp h
  rfl

variable {t : TransportDescription}

theorem createTransportAnswer_secure {f : SessionFactory} {r : Runtime}
    {name : Text} {offer : SessionDescription} {options : MediaSessionOptions}
    {current : Option SessionDescription}
    (h : f.createTransportAnswer r type name offer options current = some t) :
    t.identityFingerprint.isSome = answersWithDtls f offer name := by
  rw [SessionFactory.createTransportAnswer, TransportDescriptionFactory.createAnswer] at h
  split at h
  · cases h
  · rename_i transportType _
    unfold answersWithDtls
    by_cases hoffer : ((getTransportDescription name (some offer)).bind
        TransportDescription.identityFingerprint).isSome = true
    · rw [hoffer, Bool.true_and]
      simp only [hoffer, if_true] at h
      by_cases hsecure : f.transport.secure ≠ .disabled
      · rw [if_pos hsecure] at h
        rw [createIdentityDigest_isSome h, decide_eq_true hsecure]
      · rw [if_neg hsecure] at h
        obtain rfl := Option.some.inj h
        rw [setCredentials_fingerprint, decide_eq_false hsecure]
        rfl
    · simp only [hoffer, Bool.false_eq_true, if_false] at h
      rw [Bool.eq_false_iff.mpr hoffer, Bool.false_and]
      split at h
      · cases h
      · obtain rfl := Option.some.inj h
        rw [setCredentials_fingerprint]
        rfl

section

variable (f : SessionFactory) (r : Runtime) (offer : SessionDescription)
  (options : MediaSessionOptions) (current : Option SessionDescription)

/-- What an answer makes of a content of the offer, before the merge. -/
structure Answered (c a : ContentInfo) : Prop where
  name : a.name = c.name
  type : a.type = nsJingleRtp
  mediaType : a.description.type = c.description.type
  rejected : a.rejected = !accepts options c
  cryptos : a.description.cryptos = answerCryptos r c.description (answerPolicy f offer c.name)
    (currentCryptos current c.description.type) (bundleEnabled offer options)

/-- The names of the transports of a description. -/
def transportNames (d : SessionDescription) : List Text :=
  d.transportInfos.map TransportInfo.contentName

/-- Contents are added to a description, and a transport for each one that is accepted. -/
def Extends (firsts : List ContentInfo) (d d' : SessionDescription) : Prop :=
  ∃ added, List.Forall₂ (Answered f r offer options current) firsts added ∧
    d'.contents = d.contents ++ added ∧ d'.groups = d.groups ∧
    transportNames d' = transportNames d ++
      (added.filter fun a => !a.rejected).map ContentInfo.name ∧
    ((transportNames d).Nodup → (transportNames d').Nodup)

end

variable {f : SessionFactory} {r : Runtime} {offer : SessionDescription}
  {options : MediaSessionOptions} {current : Option SessionDescription}

theorem Extends.refl (d : SessionDescription) : Extends f r offer options current [] d d :=
  ⟨[], .nil, (List.append_nil _).symm, rfl, (List.append_nil _).symm, id⟩

variable {l l' : List ContentInfo}

theorem Extends.trans {d d' d'' : SessionDescription} (h : Extends f r offer options current l d d')
    (h' : Extends f r offer options current l' d' d'') :
    Extends f r offer options current (l ++ l') d d'' := by
  obtain ⟨added, hall, hcontents, hgroups, hnames, hnodup⟩ := h
  obtain ⟨added', hall', hcontents', hgroups', hnames', hnodup'⟩ := h'
  refine ⟨added ++ added', List.rel_append hall hall', ?_, hgroups'.trans hgroups, ?_,
    hnodup' ∘ hnodup⟩
  · rw [hcontents', hcontents, List.append_assoc]
  · rw [hnames', hnames, List.filter_append, List.map_append, List.append_assoc]

variable {d' : SessionDescription}

theorem addTransportInfo_spec {t : TransportInfo} (h : d.addTransportInfo t = some d') :
    t.contentName ∉ transportNames d ∧
      d' = { d with transportInfos := d.transportInfos ++ [t] } := by
  rw [SessionDescription.addTransportInfo] at h
  split at h
  · cases h
  · rename_i hnone
    refine ⟨?_, (Option.some.inj h).symm⟩
    rintro hmem
    obtain ⟨x, hx, heq⟩ := List.mem_map.mp hmem
    exact List.find?_eq_none.mp hnone x hx (decide_eq_true heq)

theorem extends_accepted {a : ContentInfo} {t : TransportInfo}
    (ha : Answered f r offer options current c a)
    (hname : t.contentName = a.name) (haccepted : a.rejected = false)
    (ht : d.addTransportInfo t = some d') :
    Extends f r offer options current [c] d (addContent d' a) := by
  obtain ⟨hnew, rfl⟩ := addTransportInfo_spec ht
  have hnames : transportNames (addContent { d with transportInfos := d.transportInfos ++ [t] } a) =
      transportNames d ++ [a.name] := by
    rw [← hname]
    exact List.map_append
  refine ⟨[a], .cons ha .nil, rfl, rfl, ?_, fun hnodup => ?_⟩
  · rw [hnames, List.filter_singleton, haccepted]
    rfl
  · rw [hnames]
    exact List.nodup_append.mpr ⟨hnodup, List.nodup_singleton _, fun x hx y hy hxy =>
      hnew (hname ▸ List.mem_singleton.mp hy ▸ hxy ▸ hx)⟩

variable {media : MediaContentDescription}

theorem createMediaContentAnswer_spec {content : MediaContentDescription} {codecs : List Codec}
    {policy : SecurePolicy} {cryptos : Option (List CryptoParams)} {streams : List StreamParams}
    {addLegacy bundle : Bool} {streams' : List StreamParams}
    (h : createMediaContentAnswer r content options codecs policy cryptos streams addLegacy bundle =
      some (media, streams')) :
    media.type = content.type ∧ media.protocol = content.protocol ∧
      media.cryptos = answerCryptos r content policy cryptos bundle := by
  simp only [createMediaContentAnswer] at h
  split at h
  · cases h
  · obtain ⟨s, -, hs⟩ := Option.map_eq_some_iff.mp h
    obtain ⟨rfl, -⟩ := Prod.mk.inj hs
    exact ⟨rfl, rfl, rfl⟩

theorem addAnswer_extends (htype : c.type = nsJingleRtp)
    (hmedia : media.type = c.description.type) (hprotocol : media.protocol = c.description.protocol)
    (hcryptos : media.cryptos = answerCryptos r c.description (answerPolicy f offer c.name)
      (currentCryptos current c.description.type) (bundleEnabled offer options))
    (h : SessionFactory.addAnswer options c.description.type c t media d = some d')
    (haudio : c.description.type = .audio → d.transportInfos = []) :
    Extends f r offer options current [c] d d' := by
  rw [SessionFactory.addAnswer] at h
  have haccepts : SessionFactory.rejects options c.description.type media.protocol =
      !accepts options c := by rw [accepts, hprotocol, Bool.not_not]
  by_cases hrejects : SessionFactory.rejects options c.description.type media.protocol = true
  · rw [if_pos hrejects] at h
    obtain rfl := Option.some.inj h
    have ha : Answered f r offer options current c ⟨c.name, c.type, true, media⟩ :=
      ⟨rfl, htype, hmedia, hrejects.symm.trans haccepts, hcryptos⟩
    exact ⟨_, .cons ha .nil, rfl, rfl, (List.append_nil _).symm, id⟩
  · rw [if_neg hrejects] at h
    have ha : Answered f r offer options current c ⟨c.name, c.type, false,
        { media with bandwidth := options.bandwidth c.description.type }⟩ :=
      ⟨rfl, htype, hmedia, (Bool.eq_false_iff.mpr hrejects).symm.trans haccepts, hcryptos⟩
    cases hadd : d.addTransportInfo ⟨c.name, t⟩ with
    | some d₁ =>
      simp only [hadd] at h
      obtain rfl := Option.some.inj h
      exact extends_accepted ha rfl rfl hadd
    | none =>
      simp only [hadd] at h
      split at h
      · rename_i hcontra
        cases hcontra
      · rename_i haud
        rw [SessionDescription.addTransportInfo, SessionDescription.getTransportInfoByName,
          haudio haud] at hadd
        cases hadd
      · cases h

/-- **One kind of media.** -/
theorem answerMedia_extends {n n' : Negotiation}
    (h : f.answerMedia r offer options current n type = some n')
    (haudio : type = .audio → n.description.transportInfos = []) :
    Extends f r offer options current (offer.getFirstMediaContent type).toList n.description
      n'.description := by
  rw [SessionFactory.answerMedia] at h
  cases hfirst : offer.getFirstMediaContent type with
  | none =>
    rw [hfirst] at h
    obtain rfl := Option.some.inj h
    exact Extends.refl _
  | some c =>
    obtain ⟨-, htype, rfl⟩ := getFirst_spec hfirst
    rw [hfirst] at h
    dsimp only at h
    split at h
    · cases h
    · rename_i t ht
      have hpolicy : f.sdesPolicy t = answerPolicy f offer c.name := by
        rw [SessionFactory.sdesPolicy, createTransportAnswer_secure ht, answerPolicy]
      rw [hpolicy] at h
      split at h
      · cases h
      · rename_i media streams hmade
        obtain ⟨d, hd, rfl⟩ := Option.map_eq_some_iff.mp h
        obtain ⟨hmedia, hprotocol, hcryptos⟩ := createMediaContentAnswer_spec hmade
        exact addAnswer_extends htype hmedia hprotocol hcryptos hd haudio

/-- **The answer before the merge.** -/
structure AnswerSpec (f : SessionFactory) (r : Runtime) (offer : SessionDescription)
    (options : MediaSessionOptions) (current : Option SessionDescription)
    (answer : SessionDescription) : Prop where
  contents : List.Forall₂ (Answered f r offer options current) (firstContents offer)
    answer.contents
  groups : answer.groups = []
  transports : transportNames answer =
    (answer.contents.filter fun a => !a.rejected).map ContentInfo.name
  distinct : (transportNames answer).Nodup

variable {answer : SessionDescription}

/-- The answer before the merge. -/
theorem createAnswerContents_spec
    (h : f.createAnswerContents r offer options current = some answer) :
    AnswerSpec f r offer options current answer := by
  rw [SessionFactory.createAnswerContents] at h
  obtain ⟨n, hn, rfl⟩ := Option.map_eq_some_iff.mp h
  simp only [mediaOrder, List.foldlM_cons, List.foldlM_nil, Option.bind_eq_bind,
    Option.pure_def] at hn
  obtain ⟨n₁, h₁, hn⟩ := Option.bind_eq_some_iff.mp hn
  obtain ⟨n₂, h₂, hn⟩ := Option.bind_eq_some_iff.mp hn
  obtain ⟨n₃, h₃, hn⟩ := Option.bind_eq_some_iff.mp hn
  obtain rfl := Option.some.inj hn
  have hall := ((answerMedia_extends h₁ fun _ => rfl).trans
    (answerMedia_extends h₂ nofun)).trans (answerMedia_extends h₃ nofun)
  obtain ⟨added, hforall, hcontents, hgroups, hnames, hnodup⟩ := hall
  have hfirsts : firstContents offer = (offer.getFirstMediaContent .audio).toList ++
      (offer.getFirstMediaContent .video).toList ++ (offer.getFirstMediaContent .data).toList := by
    simp [firstContents, mediaOrder]
  have hadded : n₃.description.contents = added := hcontents
  refine ⟨?_, hgroups, ?_, hnodup List.nodup_nil⟩
  · rw [hfirsts, hadded]
    exact hforall
  · rw [hnames, hadded]
    rfl

/-- What the merge of an answer is, when there is one. -/
inductive AnswerMerge (offer : SessionDescription) (options : MediaSessionOptions)
    (pre answer : SessionDescription) : Prop where
  | none (hno : ∀ offerBundle, offer.getGroupByName groupTypeBundle = some offerBundle →
        options.bundleEnabled = true →
        (SessionFactory.answerGroup offerBundle pre.contents).contentNames = [])
      (heq : answer = pre)
  | bundle (offerBundle : ContentGroup)
      (hoffer : offer.getGroupByName groupTypeBundle = some offerBundle)
      (hoptions : options.bundleEnabled = true)
      (hmerge : bundleContents (SessionFactory.answerGroup offerBundle pre.contents) pre =
        some answer)

theorem createAnswer_cases (h : f.createAnswer r offer options current = some answer) :
    ∃ pre, f.createAnswerContents r offer options current = some pre ∧
      AnswerSpec f r offer options current pre ∧ AnswerMerge offer options pre answer := by
  obtain ⟨pre, hpre, h⟩ := Option.bind_eq_some_iff.mp h
  refine ⟨pre, hpre, createAnswerContents_spec hpre, ?_⟩
  split at h
  · rename_i offerBundle hoffer hoptions
    dsimp only at h
    split at h
    · rename_i hempty
      refine .none (fun b hb _ => ?_) (Option.some.inj h).symm
      rw [hoffer] at hb
      rw [← Option.some.inj hb]
      exact hempty
    · exact .bundle offerBundle hoffer hoptions h
  · rename_i hno
    exact .none (fun b hb ho => (hno b hb ho).elim) (Option.some.inj h).symm

/-! ## Sections -/

/-- The name and the kind of a content. -/
def mediaSection (c : ContentInfo) : Text × MediaType := (c.name, c.description.type)

theorem mediaSection_setCryptos (cryptos : List CryptoParams) (c : ContentInfo) :
    mediaSection (setCryptos cryptos c) = mediaSection c := by
  unfold setCryptos
  split <;> rfl

theorem Answered.sections (h : List.Forall₂ (Answered f r offer options current) l l') :
    l'.map mediaSection = l.map mediaSection := by
  induction h with
  | nil => rfl
  | cons ha _ ih =>
    rw [List.map_cons, List.map_cons, ih, mediaSection, ha.name, ha.mediaType]
    rfl

/-- **The sections of an answer.** -/
theorem answer_sections (h : f.createAnswer r offer options current = some answer) :
    answer.contents.map mediaSection = (firstContents offer).map mediaSection := by
  obtain ⟨pre, -, hpre, hmerge⟩ := createAnswer_cases h
  rw [← Answered.sections hpre.contents]
  cases hmerge with
  | none _ heq => rw [heq]
  | bundle offerBundle _ _ hmerge =>
    obtain ⟨_, _, _, _, -, -, -, -, -, -, hcontents⟩ := bundleContents_spec hmerge
    exact hcontents.map_eq mediaSection_setCryptos

theorem flatMap_find_eq_self {order : List MediaType} {contents : List ContentInfo}
    (horder : order.Nodup) (hrtp : ∀ c ∈ contents, c.type = nsJingleRtp)
    (hsub : (contents.map fun c => c.description.type).Sublist order) :
    (order.flatMap fun type => (contents.find? fun c =>
      c.type = nsJingleRtp ∧ c.description.type = type).toList) = contents := by
  induction order generalizing contents with
  | nil =>
    rw [List.sublist_nil, List.map_eq_nil_iff] at hsub
    rw [hsub]
    rfl
  | cons type order ih =>
    rw [List.nodup_cons] at horder
    rw [List.flatMap_cons]
    by_cases hhead : ∃ c rest, contents = c :: rest ∧ c.description.type = type
    · obtain ⟨c, rest, rfl, rfl⟩ := hhead
      have hrest : (rest.map fun c => c.description.type).Sublist order := by
        rw [List.map_cons, List.cons_sublist_cons] at hsub
        exact hsub
      have hc := hrtp c List.mem_cons_self
      have htail : ∀ type' ∈ order, ((c :: rest).find? fun x =>
          x.type = nsJingleRtp ∧ x.description.type = type') =
          rest.find? fun x => x.type = nsJingleRtp ∧ x.description.type = type' := by
        intro type' htype'
        rw [List.find?_cons, decide_eq_false]
        rintro ⟨-, rfl⟩
        exact horder.1 htype'
      rw [List.find?_cons, decide_eq_true ⟨hc, rfl⟩, Option.toList_some, List.singleton_append,
        List.cons.injEq]
      refine ⟨rfl, ?_⟩
      rw [List.flatMap_congr fun type' htype' => congrArg Option.toList (htail type' htype')]
      exact ih horder.2 (fun x hx => hrtp x (List.mem_cons_of_mem _ hx)) hrest
    · have hsub' : (contents.map fun c => c.description.type).Sublist order := by
        cases contents with
        | nil => exact List.nil_sublist _
        | cons c rest =>
          rcases List.sublist_cons_iff.mp hsub with hsub | ⟨l, heq, -⟩
          · exact hsub
          · exact (hhead ⟨c, rest, rfl, (List.cons.inj heq).1⟩).elim
      have hnone : contents.find? (fun c => c.type = nsJingleRtp ∧ c.description.type = type) =
          none := by
        rw [List.find?_eq_none]
        rintro c hc htype
        rw [decide_eq_true_eq] at htype
        exact horder.1 (htype.2 ▸ hsub'.subset (List.mem_map_of_mem hc))
      rw [hnone, Option.toList_none, List.nil_append]
      exact ih horder.2 hrtp hsub'

theorem firstContents_eq_self (hrtp : ∀ c ∈ offer.contents, c.type = nsJingleRtp)
    (hsub : (offer.contents.map fun c => c.description.type).Sublist mediaOrder) :
    firstContents offer = offer.contents :=
  flatMap_find_eq_self (by decide) hrtp hsub

theorem map_name_injOn {l a b : List ContentInfo} (hnodup : (l.map ContentInfo.name).Nodup)
    (ha : ∀ c ∈ a, c ∈ l) (hb : ∀ c ∈ b, c ∈ l)
    (h : a.map ContentInfo.name = b.map ContentInfo.name) : a = b := by
  induction a generalizing b with
  | nil => exact (List.map_eq_nil_iff.mp h.symm).symm
  | cons x a ih =>
    cases b with
    | nil => cases h
    | cons y b =>
      obtain ⟨hhead, htail⟩ := List.cons.inj h
      rw [List.forall_mem_cons] at ha hb
      rw [List.inj_on_of_nodup_map hnodup ha.1 hb.1 hhead, ih ha.2 hb.2 htail]

/-- **The offers that an answer mirrors.** Names and kinds of the answer are those of the offer
exactly when the offer has each kind at most once, in the order audio, video, data; and so are the
names alone when no name occurs twice. -/
theorem answer_mirrors_iff (f : SessionFactory) (r : Runtime) (offer : SessionDescription)
    (options : MediaSessionOptions) (current : Option SessionDescription)
    (answer : SessionDescription) (hrtp : ∀ c ∈ offer.contents, c.type = nsJingleRtp)
    (h : f.createAnswer r offer options current = some answer) :
    (answer.contents.map mediaSection = offer.contents.map mediaSection ↔
        (offer.contents.map fun c => c.description.type).Sublist mediaOrder) ∧
      ((offer.contents.map ContentInfo.name).Nodup →
        (answer.contents.map ContentInfo.name = offer.contents.map ContentInfo.name ↔
          (offer.contents.map fun c => c.description.type).Sublist mediaOrder)) := by
  have hsections := answer_sections h
  have hnames :
      answer.contents.map ContentInfo.name = (firstContents offer).map ContentInfo.name := by
    have := congrArg (List.map Prod.fst) hsections
    rwa [List.map_map, List.map_map] at this
  refine ⟨⟨fun heq => ?_, fun hsub => ?_⟩, fun hnodup => ⟨fun heq => ?_, fun hsub => ?_⟩⟩
  · have htypes := congrArg (List.map Prod.snd) (hsections.symm.trans heq)
    rw [List.map_map, List.map_map] at htypes
    have hfirst := firstContents_types offer
    rwa [show (firstContents offer).map (fun c => c.description.type) = _ from htypes] at hfirst
  · rw [hsections, firstContents_eq_self hrtp hsub]
  · have hmem : ∀ c ∈ firstContents offer, c ∈ offer.contents := fun c hc =>
      (getFirst_spec (mem_firstContents.mp hc)).1
    have hself : firstContents offer = offer.contents :=
      map_name_injOn hnodup hmem (fun _ hc => hc) (hnames.symm.trans heq)
    have hfirst := firstContents_types offer
    rwa [hself] at hfirst
  · rw [hnames, firstContents_eq_self hrtp hsub]

/-! ### Two offers -/

/-- An offer with an audio and a video content. -/
def audioVideoOffer : SessionDescription :=
  ⟨[cryptoContent "audio".toList .audio [], cryptoContent "video".toList .video []], [], []⟩

/-- An offer with a video content before an audio content. -/
def videoAudioOffer : SessionDescription :=
  ⟨[cryptoContent "video".toList .video [], cryptoContent "audio".toList .audio []], [], []⟩

theorem answer_mirrors_iff_audioVideo :
    ∃ answer, (plainFactory .disabled).createAnswer (countingRuntime 0) audioVideoOffer
        (plainOptions false) none = some answer ∧
      answer.contents.map mediaSection = audioVideoOffer.contents.map mediaSection := by
  obtain ⟨answer, h⟩ := Option.isSome_iff_exists.mp (show ((plainFactory .disabled).createAnswer
    (countingRuntime 0) audioVideoOffer (plainOptions false) none).isSome = true by decide +kernel)
  exact ⟨answer, h, (answer_mirrors_iff _ _ _ _ _ _ (by decide) h).1.mpr (by decide)⟩

theorem video_first_is_reordered :
    (∀ c ∈ videoAudioOffer.contents, c.type = nsJingleRtp) ∧
      videoAudioOffer.contents.map ContentInfo.name = ["video".toList, "audio".toList] ∧
      ((plainFactory .disabled).createAnswer (countingRuntime 0) videoAudioOffer
          (plainOptions false) none).map (fun answer => answer.contents.map ContentInfo.name) =
        some ["audio".toList, "video".toList] := by
  decide +kernel

end Libjingle.Media
