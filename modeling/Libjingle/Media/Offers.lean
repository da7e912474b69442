import Libjingle.Media.Bundle

/-!
# The contents of an offer (`CreateOffer`)

An offer has a content for each kind of media that the options select, with the current cryptos of
that kind or new ones. The merge for BUNDLE keeps what is common to all of them, and fails when
nothing is.

* **`reoffer_iff`**: when a session can be offered again.
-/

namespace Libjingle.Media

open Lib Sdp

/-! ## One content -/

section

variable (f : SessionFactory) (r : Runtime) (current : Option SessionDescription)

/-- The content that an offer has for a kind of media, before the merge. -/
structure Offered (kind : MediaType) (a : ContentInfo) : Prop where
  name : a.name = defaultContentName kind
  type : a.type = nsJingleRtp
  mediaType : a.description.type = kind
  rejected : a.rejected = false
  cryptos : offerCryptos r kind f.secure (currentCryptos current kind)
    (supportedCryptoSuites kind) = some a.description.cryptos

/-- **The offer before the merge.** -/
structure OfferSpec (types : List MediaType) (offer : SessionDescription) : Prop where
  contents : List.Forall₂ (Offered f r current) types offer.contents
  groups : offer.groups = []
  transports : offer.transportInfos.map TransportInfo.contentName =
    offer.contents.map ContentInfo.name

end

/-- The kinds of media that the options select. -/
def selectedTypes (options : MediaSessionOptions) : List MediaType := mediaOrder.filter options.has

variable {f : SessionFactory} {r : Runtime} {options : MediaSessionOptions}
  {current : Option SessionDescription}

variable {type : MediaType}

variable {policy : SecurePolicy}

theorem createMediaContentOffer_spec {codecs : List Codec}
    {cryptos : Option (List CryptoParams)} {suites : List Text}
    {addLegacy : Bool} {streams streams' : List StreamParams} {media : MediaContentDescription}
    (h : createMediaContentOffer r type options codecs policy cryptos suites addLegacy streams =
      some (media, streams')) :
    media.type = type ∧ offerCryptos r type policy cryptos suites = some media.cryptos := by
  simp only [createMediaContentOffer] at h
  split at h
  · rename_i added streams₁ made hadded hmade
    split at h
    · cases h
    · obtain ⟨rfl, -⟩ := Prod.mk.inj (Option.some.inj h)
      exact ⟨rfl, hmade⟩
  · cases h

variable {types : List MediaType}

variable {n n' : Negotiation}

theorem offerMedia_spec (hn : OfferSpec f r current types n.description)
    (h : f.offerMedia r options current n type = some n') :
    OfferSpec f r current (types ++ [type].filter options.has) n'.description := by
  rw [SessionFactory.offerMedia] at h
  by_cases hhas : options.has type = true
  · rw [List.filter_singleton, hhas, cond_true]
    simp only [hhas, Bool.not_true, Bool.false_eq_true, if_false] at h
    split at h
    · cases h
    · rename_i media streams hmade
      obtain ⟨hmedia, hcryptos⟩ := createMediaContentOffer_spec hmade
      obtain ⟨d, hd, rfl⟩ := Option.map_eq_some_iff.mp h
      obtain ⟨t, -, ht⟩ := Option.bind_eq_some_iff.mp hd
      rw [SessionDescription.addTransportInfo] at ht
      split at ht
      · cases ht
      · obtain rfl := Option.some.inj ht
        refine ⟨List.rel_append hn.contents (.cons ⟨rfl, rfl, hmedia, rfl, hcryptos⟩ .nil),
          hn.groups, ?_⟩
        simp only [addContent, List.map_append, hn.transports, List.map_singleton]
  · have hskip : options.has type = false := Bool.eq_false_iff.mpr hhas
    rw [List.filter_singleton, hskip, cond_false, List.append_nil]
    simp only [hskip, Bool.not_false, if_true] at h
    obtain rfl := Option.some.inj h
    exact hn

variable {rest : List MediaType}

theorem foldlM_offerMedia_spec (types : List MediaType)
    (hn : OfferSpec f r current types n.description)
    (h : rest.foldlM (f.offerMedia r options current) n = some n') :
    OfferSpec f r current (types ++ rest.filter options.has) n'.description := by
  induction rest generalizing types n with
  | nil =>
    obtain rfl := Option.some.inj h
    rw [List.filter_nil, List.append_nil]
    exact hn
  | cons type rest ih =>
    obtain ⟨n₁, h₁, h⟩ := Option.bind_eq_some_iff.mp h
    have hrest := ih _ (offerMedia_spec hn h₁) h
    rw [List.append_assoc, ← List.filter_append, List.singleton_append] at hrest
    exact hrest

variable {offer : SessionDescription}

/-- The offer before the merge. -/
theorem createOfferContents_spec (h : f.createOfferContents r options current = some offer) :
    OfferSpec f r current (selectedTypes options) offer := by
  obtain ⟨n, hn, rfl⟩ := Option.map_eq_some_iff.mp h
  exact foldlM_offerMedia_spec [] ⟨.nil, rfl, rfl⟩ hn

/-! ## Names -/

theorem defaultContentName_injective : Function.Injective defaultContentName := by
  rintro (_ | _ | _) (_ | _ | _) h
  all_goals first
    | rfl
    | exact absurd h (by decide)

variable {contents : List ContentInfo}

theorem Offered.names (h : List.Forall₂ (Offered f r current) types contents) :
    contents.map ContentInfo.name = types.map defaultContentName := by
  induction h with
  | nil => rfl
  | cons ha _ ih => rw [List.map_cons, List.map_cons, ih, ha.name]

theorem selectedTypes_nodup (options : MediaSessionOptions) : (selectedTypes options).Nodup :=
  List.Nodup.filter _ (by decide)

theorem mem_selectedTypes : type ∈ selectedTypes options ↔ options.has type = true := by
  rw [selectedTypes, List.mem_filter]
  refine and_iff_right ?_
  cases type <;> decide

theorem OfferSpec.names_nodup (h : OfferSpec f r current (selectedTypes options) offer) :
    (offer.contents.map ContentInfo.name).Nodup := by
  rw [Offered.names h.contents]
  exact (selectedTypes_nodup options).map defaultContentName_injective

theorem bundleGroup_all (hnodup : (contents.map ContentInfo.name).Nodup) :
    (bundleGroup (fun _ => true) contents).contentNames = contents.map ContentInfo.name := by
  have hall : ∀ g : ContentGroup, (g.contentNames ++ contents.map ContentInfo.name).Nodup →
      (contents.foldl (fun g c => g.addContentName c.name) g).contentNames =
        g.contentNames ++ contents.map ContentInfo.name := by
    clear hnodup
    induction contents with
    | nil =>
      intro g _
      exact (List.append_nil _).symm
    | cons c rest ih =>
      intro g hg
      have hnew : c.name ∉ g.contentNames := by
        intro hmem
        exact (List.nodup_append.mp hg).2.2 _ hmem _ List.mem_cons_self rfl
      have hadd : (g.addContentName c.name).contentNames = g.contentNames ++ [c.name] := by
        rw [addContentName_names, if_neg hnew]
      rw [List.foldl_cons, ih, hadd, List.append_assoc, List.singleton_append, List.map_cons]
      rw [hadd, List.append_assoc, List.singleton_append, ← List.map_cons]
      exact hg
  rw [bundleGroup, List.filter_true]
  exact hall ⟨groupTypeBundle, []⟩ hnodup

/-! ## Cryptos -/

/-- The suites that an offer has for a kind of media before the merge. -/
def offeredSuites (current : Option SessionDescription) (type : MediaType) : List Text :=
  if (currentCryptos current type).getD [] = [] then supportedCryptoSuites type
  else ((currentCryptos current type).getD []).map CryptoParams.cipherSuite

variable {cryptos : List CryptoParams}

theorem mapM_createCryptoParams_suites {l : List (Text × Nat)}
    (h : (l.mapM fun s => createCryptoParams r (.key type s.2) (BitVec.ofNat 32 s.2) s.1) =
      some cryptos) :
    cryptos.map CryptoParams.cipherSuite = l.map Prod.fst := by
  induction l generalizing cryptos with
  | nil =>
    obtain rfl := Option.some.inj h
    rfl
  | cons s l ih =>
    rw [List.mapM_cons] at h
    obtain ⟨k, hk, h⟩ := Option.bind_eq_some_iff.mp h
    obtain ⟨rest, hrest, h⟩ := Option.bind_eq_some_iff.mp h
    obtain rfl := Option.some.inj h
    obtain ⟨key, -, rfl⟩ := Option.map_eq_some_iff.mp hk
    rw [List.map_cons, List.map_cons, ih hrest]

theorem offerCryptos_suites (hpolicy : policy ≠ .disabled)
    (h : offerCryptos r type policy (currentCryptos current type) (supportedCryptoSuites type) =
      some cryptos) :
    cryptos.map CryptoParams.cipherSuite = offeredSuites current type := by
  rw [offerCryptos, if_neg hpolicy] at h
  rw [offeredSuites]
  split at h
  · rename_i hnone
    rw [if_pos hnone, mapM_createCryptoParams_suites h]
    exact List.zipIdx_map_fst 0 _
  · rename_i hsome
    rw [if_neg hsome, Option.some.inj h]

theorem offeredSuites_ne_nil (current : Option SessionDescription) (type : MediaType) :
    offeredSuites current type ≠ [] := by
  rw [offeredSuites]
  split
  · cases type <;> exact List.cons_ne_nil _ _
  · rename_i hsome
    exact fun h => hsome (List.map_eq_nil_iff.mp h)

theorem createMediaCryptos_isSome (hr : r.Works) (type : MediaType) (suites : List Text) :
    ∃ cryptos, createMediaCryptos r type suites = some cryptos := by
  rw [createMediaCryptos]
  induction suites.zipIdx with
  | nil => exact ⟨[], rfl⟩
  | cons s l ih =>
    obtain ⟨rest, hrest⟩ := ih
    obtain ⟨key, hkey⟩ := Option.isSome_iff_exists.mp
      (hr.string (.key type s.2) srtpMasterKeyBase64Len)
    rw [List.mapM_cons, hrest, createCryptoParams, hkey]
    exact ⟨_, rfl⟩

theorem offerCryptos_isSome (hr : r.Works) (type : MediaType) (policy : SecurePolicy)
    (cryptos : Option (List CryptoParams)) (suites : List Text) :
    ∃ made, offerCryptos r type policy cryptos suites = some made := by
  rw [offerCryptos]
  split
  · exact ⟨_, rfl⟩
  · split
    · exact createMediaCryptos_isSome hr type suites
    · exact ⟨_, rfl⟩

/-! ## Streams -/

/-- How many streams and numbers are in use. -/
def streamLoad (streams : List StreamParams) : Nat :=
  streams.length + (streams.flatMap StreamParams.ssrcs).length

theorem generateSsrcs_isSome (hr : r.Works) (type : MediaType) (index : Nat)
    (streams : List StreamParams) (hload : streamLoad streams + 1 < 2 ^ 32 - 1) (rtx : Bool) :
    ∃ s, generateSsrcs r type index streams rtx = some s ∧ s.ssrcs.length ≤ 2 := by
  unfold streamLoad at hload
  obtain ⟨primary, hprimary⟩ := Option.isSome_iff_exists.mp
    (hr.ssrc (.ssrc type index false) (streams.flatMap StreamParams.ssrcs) (by omega))
  rw [generateSsrcs, hprimary]
  cases rtx with
  | false => exact ⟨_, rfl, Nat.le_succ 1⟩
  | true =>
    obtain ⟨fid, hfid⟩ := Option.isSome_iff_exists.mp
      (hr.ssrc (.ssrc type index true) (streams.flatMap StreamParams.ssrcs ++ [primary])
        (by rw [List.length_append, List.length_singleton]; omega))
    simp only [if_true, hfid, Option.map_some]
    exact ⟨_, rfl, Nat.le_refl _⟩

theorem generateCname_isSome (hr : r.Works) (type : MediaType) (index : Nat)
    (streams : List StreamParams) (hload : streamLoad streams + 1 < 2 ^ 32 - 1)
    (all : List StreamOptions) (label : Text) :
    ∃ s, generateCname r type index streams all label = some s := by
  rw [generateCname]
  split
  · exact ⟨_, rfl⟩
  · refine Option.isSome_iff_exists.mp (hr.cname _ _ ?_)
    unfold streamLoad at hload
    rw [List.length_map]
    omega

theorem addStreams_isSome (hr : r.Works) (type : MediaType) (all : List StreamOptions) (rtx : Bool)
    (l : List (StreamOptions × Nat)) (streams : List StreamParams)
    (hload : streamLoad streams + 3 * l.length + 1 < 2 ^ 32 - 1) :
    ∃ p, addStreams r type all rtx l streams = some p ∧
      streamLoad p.2 ≤ streamLoad streams + 3 * l.length := by
  induction l generalizing streams with
  | nil => exact ⟨_, rfl, Nat.le_refl _⟩
  | cons s l ih =>
    obtain ⟨s, i⟩ := s
    rw [List.length_cons] at hload ⊢
    rw [addStreams]
    by_cases htype : s.type ≠ type
    · obtain ⟨p, hp, hle⟩ := ih streams (by omega)
      rw [if_pos htype, hp]
      exact ⟨p, rfl, by omega⟩
    · rw [if_neg htype]
      cases hold : getStreamByNickAndName streams [] s.name with
      | some param =>
        obtain ⟨p, hp, hle⟩ := ih streams (by omega)
        rw [hp]
        exact ⟨_, rfl, by dsimp only; omega⟩
      | none =>
        obtain ⟨cname, hcname⟩ := generateCname_isSome hr type i streams (by omega) all
          s.syncLabel
        obtain ⟨stream, hstream, hlen⟩ := generateSsrcs_isSome hr type i streams (by omega)
          rtx
        rw [hcname, hstream]
        have hadded : ∀ param : StreamParams, param.ssrcs = stream.ssrcs →
            streamLoad (streams ++ [param]) ≤ streamLoad streams + 3 := by
          intro param hparam
          simp only [streamLoad, List.length_append, List.length_singleton, List.flatMap_append,
            List.flatMap_singleton, hparam]
          omega
        have hnew := hadded
          { stream with name := s.name, cname := cname, syncLabel := s.syncLabel } rfl
        obtain ⟨p, hp, hle⟩ := ih (streams ++
          [{ stream with name := s.name, cname := cname, syncLabel := s.syncLabel }]) (by omega)
        dsimp only
        rw [hp]
        exact ⟨_, rfl, by dsimp only; omega⟩

theorem addStreamParams_isSome (hr : r.Works) (type : MediaType) (options : List StreamOptions)
    (streams : List StreamParams)
    (hload : streamLoad streams + 3 * options.length + 1 < 2 ^ 32 - 1) (codecs : List Codec)
    (addLegacy : Bool) :
    ∃ p, addStreamParams r type options streams codecs addLegacy = some p ∧
      streamLoad p.2 ≤ streamLoad streams + 3 * options.length := by
  rw [addStreamParams]
  split
  · obtain ⟨s, hs, -⟩ := generateSsrcs_isSome hr type 0 streams (by omega) (containsRtxCodec codecs)
    rw [hs]
    exact ⟨_, rfl, Nat.le_add_right _ _⟩
  · obtain ⟨p, hp, hle⟩ := addStreams_isSome hr type options (containsRtxCodec codecs)
      options.zipIdx streams (by rw [List.length_zipIdx]; exact hload)
    rw [List.length_zipIdx] at hle
    exact ⟨p, hp, hle⟩

/-! ## A generator that works makes an offer -/

theorem createMediaContentOffer_isSome (hr : r.Works) (hsecure : f.secure ≠ .disabled)
    (current : Option SessionDescription) (type : MediaType) (codecs : List Codec)
    (addLegacy : Bool) (streams : List StreamParams)
    (hload : streamLoad streams + 3 * options.streams.length + 1 < 2 ^ 32 - 1) :
    ∃ p, createMediaContentOffer r type options codecs f.secure (currentCryptos current type)
        (supportedCryptoSuites type) addLegacy streams = some p ∧
      streamLoad p.2 ≤ streamLoad streams + 3 * options.streams.length := by
  obtain ⟨cryptos, hcryptos⟩ := offerCryptos_isSome hr type f.secure (currentCryptos current type)
    (supportedCryptoSuites type)
  have hne : cryptos ≠ [] := by
    rintro rfl
    exact offeredSuites_ne_nil current type (offerCryptos_suites hsecure hcryptos).symm
  simp only [createMediaContentOffer]
  obtain ⟨added, hadded, hle⟩ := addStreamParams_isSome hr type options.streams streams hload
    (({ MediaContentDescription.new type with
      codecs := codecs
      cryptoRequired := decide (f.secure = SecurePolicy.required)
      rtcpMux := options.rtcpMuxEnabled } : MediaContentDescription).sortCodecs r.sort).codecs
        addLegacy
  rw [hadded, hcryptos]
  dsimp only
  rw [if_neg fun h => hne h.2]
  exact ⟨_, rfl, hle⟩

theorem offerMedia_isSome (hr : r.Works) (hsecure : f.secure ≠ .disabled)
    (hdtls : f.transport.secure = .disabled)
    (hn : OfferSpec f r current types n.description) (hnew : type ∉ types)
    (hload : streamLoad n.streams + 3 * options.streams.length + 1 < 2 ^ 32 - 1) :
    ∃ n', f.offerMedia r options current n type = some n' ∧
      streamLoad n'.streams ≤ streamLoad n.streams + 3 * options.streams.length := by
  rw [SessionFactory.offerMedia]
  by_cases hhas : options.has type = true
  · obtain ⟨p, hp, hle⟩ := createMediaContentOffer_isSome hr hsecure current type
      ((getCodecsToOffer f.codecs current).of type) f.addLegacy n.streams hload
    rw [if_neg (by simp [hhas]), hp]
    obtain ⟨media, streams⟩ := p
    have hfree : ∀ c, SessionDescription.getTransportInfoByName (addContent n.description c)
        (defaultContentName type) = none := by
      intro c
      rw [SessionDescription.getTransportInfoByName, List.find?_eq_none]
      intro t ht heq
      have hmem : defaultContentName type ∈ types.map defaultContentName := by
        rw [← Offered.names hn.contents, ← hn.transports, ← of_decide_eq_true heq]
        exact List.mem_map_of_mem ht
      obtain ⟨type', htype', heq'⟩ := List.mem_map.mp hmem
      exact hnew (defaultContentName_injective heq' ▸ htype')
    simp only [SessionFactory.addTransportOffer, TransportDescriptionFactory.createOffer, hdtls,
      ne_eq, not_true_eq_false, if_false, Option.bind_some, SessionDescription.addTransportInfo,
      hfree, Option.map_some]
    exact ⟨_, rfl, hle⟩
  · rw [if_pos (by simp [hhas])]
    exact ⟨n, rfl, Nat.le_add_right _ _⟩

theorem foldlM_offerMedia_isSome (hr : r.Works) (hsecure : f.secure ≠ .disabled)
    (hdtls : f.transport.secure = .disabled) (types : List MediaType)
    (hn : OfferSpec f r current types n.description) (hnodup : (types ++ rest).Nodup)
    (hload : streamLoad n.streams + 3 * options.streams.length * rest.length + 1 < 2 ^ 32 - 1) :
    ∃ n', rest.foldlM (f.offerMedia r options current) n = some n' := by
  induction rest generalizing types n with
  | nil => exact ⟨n, rfl⟩
  | cons type rest ih =>
    rw [List.length_cons, Nat.mul_succ] at hload
    have hnew : type ∉ types := fun hmem =>
      (List.nodup_append.mp hnodup).2.2 _ hmem _ List.mem_cons_self rfl
    have hload₁ : streamLoad n.streams + 3 * options.streams.length + 1 < 2 ^ 32 - 1 := by omega
    obtain ⟨n₁, h₁, hle⟩ := offerMedia_isSome hr hsecure hdtls hn hnew hload₁
    have hnodup' : (types ++ [type].filter options.has ++ rest).Nodup := by
      refine List.Nodup.sublist ?_ hnodup
      rw [List.append_assoc]
      refine List.Sublist.append_left ?_ types
      exact (List.filter_sublist.append_right rest)
    obtain ⟨n', h'⟩ := ih _ (offerMedia_spec hn h₁) hnodup' (by omega)
    exact ⟨n', by rw [List.foldlM_cons, h₁]; exact h'⟩

/-- There are unused SSRCs and CNAMEs for all streams that an offer may have. -/
def Room (options : MediaSessionOptions) (current : Option SessionDescription) : Prop :=
  streamLoad (getCurrentStreamParams current) + 9 * options.streams.length + 1 < 2 ^ 32 - 1

/-- **A generator that works makes the contents of an offer.** -/
theorem createOfferContents_isSome (hr : r.Works) (hsecure : f.secure ≠ .disabled)
    (hdtls : f.transport.secure = .disabled) (hroom : Room options current) :
    ∃ offer, f.createOfferContents r options current = some offer := by
  have hload : streamLoad (Negotiation.start current).streams +
      3 * options.streams.length * mediaOrder.length + 1 < 2 ^ 32 - 1 := by
    unfold Room at hroom
    have hthree : mediaOrder.length = 3 := rfl
    have hstart : (Negotiation.start current).streams = getCurrentStreamParams current := rfl
    rw [hstart, hthree]
    omega
  obtain ⟨n, hn⟩ := foldlM_offerMedia_isSome hr hsecure hdtls [] ⟨.nil, rfl, rfl⟩ (by decide) hload
  exact ⟨n.description, by rw [SessionFactory.createOfferContents, hn]; rfl⟩

/-! ## Offering again -/

variable {g : ContentGroup} {d : SessionDescription} {first : Text}

theorem updateCryptoParamsForBundle_isSome_iff {names : List Text}
    (hnames : g.contentNames = first :: names)
    (hcryptos : getCryptosByName d first = some cryptos) (hne : cryptos ≠ [])
    (hall : ∀ n ∈ names, (getCryptosByName d n).isSome = true) :
    (updateCryptoParamsForBundle g d).isSome = true ↔
      ∃ k ∈ cryptos, ∀ n ∈ g.contentNames, hasSuite d k.cipherSuite n = true := by
  have hcommon : commonCryptos d names cryptos = some (cryptos.filter fun c =>
      (first :: names).all (hasSuite d c.cipherSuite)) :=
    commonCryptos_eq_some_iff.mpr ⟨hall, (all_tail_eq hcryptos).symm⟩
  have hex : (∃ k ∈ cryptos, ∀ n ∈ g.contentNames, hasSuite d k.cipherSuite n = true) ↔
      (cryptos.filter fun c => (first :: names).all (hasSuite d c.cipherSuite)) ≠ [] := by
    rw [ne_eq, List.filter_eq_nil_iff, hnames]
    simp
  rw [hex, updateCryptoParamsForBundle, hnames]
  obtain ⟨k, ks, rfl⟩ := List.exists_cons_of_ne_nil hne
  simp only [hcryptos, hcommon]
  generalize ((k :: ks).filter fun c => (first :: names).all (hasSuite d c.cipherSuite)) = common
  cases common with
  | nil => simp
  | cons x xs => simp

theorem hasSuite_congr {d d' : SessionDescription} (h : d.contents = d'.contents) (suite n : Text) :
    hasSuite d suite n = hasSuite d' suite n := by
  rw [hasSuite, getCryptosByName_congr h]
  rfl

theorem bundleContents_isSome_iff {names : List Text} (hnames : g.contentNames = first :: names)
    (ht : (d.getTransportInfoByName first).isSome = true)
    (hcryptos : getCryptosByName d first = some cryptos) (hne : cryptos ≠ [])
    (hall : ∀ n ∈ names, (getCryptosByName d n).isSome = true) :
    (bundleContents g d).isSome = true ↔
      ∃ k ∈ cryptos, ∀ n ∈ g.contentNames, hasSuite d k.cipherSuite n = true := by
  obtain ⟨info, hinfo⟩ := Option.isSome_iff_exists.mp ht
  obtain ⟨d₁, hd₁, hsame⟩ : ∃ d₁, updateTransportInfoForBundle g
      { d with groups := d.groups ++ [g] } = some d₁ ∧ d₁.contents = d.contents := by
    rw [updateTransportInfoForBundle, hnames]
    dsimp only
    rw [show SessionDescription.getTransportInfoByName { d with groups := d.groups ++ [g] } first =
      some info from hinfo]
    exact ⟨_, rfl, rfl⟩
  rw [bundleContents, hd₁, Option.bind_some,
    updateCryptoParamsForBundle_isSome_iff hnames
      ((getCryptosByName_congr hsame first).trans hcryptos) hne
      fun n hn => (getCryptosByName_congr hsame n) ▸ hall n hn]
  simp only [hasSuite_congr hsame]

theorem OfferSpec.find (h : OfferSpec f r current types offer) (hnodup : types.Nodup)
    (htype : type ∈ types) :
    ∃ a, getContentByName offer (defaultContentName type) = some a ∧
      Offered f r current type a := by
  have hcontents := h.contents
  rw [getContentByName]
  generalize offer.contents = contents at hcontents
  clear h
  induction hcontents with
  | nil => cases htype
  | @cons type' a types contents ha _ ih =>
    rw [List.nodup_cons] at hnodup
    rw [List.find?_cons, ha.name]
    by_cases heq : type' = type
    · subst heq
      rw [decide_eq_true rfl]
      exact ⟨a, rfl, ha⟩
    · rw [decide_eq_false fun hname => heq (defaultContentName_injective hname)]
      exact ih hnodup.2 ((List.mem_cons.mp htype).resolve_left (Ne.symm heq))

theorem Offered.getCryptos {n : Text} {kind : MediaType}
    {a : ContentInfo} (ha : Offered f r current kind a)
    (hfind : getContentByName offer n = some a) :
    getCryptosByName offer n = some a.description.cryptos := by
  rw [getCryptosByName, hfind]
  exact if_pos ha.type

theorem OfferSpec.hasSuite_iff
    (h : OfferSpec f r current (selectedTypes options) offer) (hsecure : f.secure ≠ .disabled)
    (htype : type ∈ selectedTypes options) (suite : Text) :
    hasSuite offer suite (defaultContentName type) = true ↔ suite ∈ offeredSuites current type := by
  obtain ⟨a, hfind, ha⟩ := h.find (selectedTypes_nodup options) htype
  rw [hasSuite, ha.getCryptos hfind, Option.any_some, ← offerCryptos_suites hsecure ha.cryptos]
  simp

/-- **Offering again.** With SDES and without DTLS an offer is made exactly when it is not to be
bundled or the cryptos of the selected kinds of media, the current ones or else the supported ones,
have a suite in common. -/
theorem reoffer_iff (f : SessionFactory) (r : Runtime) (options : MediaSessionOptions)
    (current : Option SessionDescription) (hr : r.Works) (hroom : Room options current)
    (hsecure : f.secure ≠ .disabled) (hdtls : f.transport.secure = .disabled)
    (hsome : ∃ type, options.has type = true) :
    (f.createOffer r options current).isSome = true ↔
      (options.bundleEnabled = true →
        ∃ suite, ∀ type, options.has type = true → suite ∈ offeredSuites current type) := by
  obtain ⟨pre, hpre⟩ := createOfferContents_isSome hr hsecure hdtls hroom
  have hspec := createOfferContents_spec hpre
  rw [SessionFactory.createOffer, hpre, Option.bind_some]
  by_cases hbundle : options.bundleEnabled = true
  · rw [if_pos hbundle]
    have hnames := (bundleGroup_all hspec.names_nodup).trans (Offered.names hspec.contents)
    obtain ⟨type₀, types, htypes⟩ : ∃ t ts, selectedTypes options = t :: ts := by
      obtain ⟨type, htype⟩ := hsome
      exact List.exists_cons_of_ne_nil (List.ne_nil_of_mem (mem_selectedTypes.mpr htype))
    have hmem₀ : type₀ ∈ selectedTypes options := htypes ▸ List.mem_cons_self
    obtain ⟨a₀, hfind₀, ha₀⟩ := hspec.find (selectedTypes_nodup options) hmem₀
    have hsuites₀ := offerCryptos_suites hsecure ha₀.cryptos
    have hne : a₀.description.cryptos ≠ [] := fun hnil =>
      offeredSuites_ne_nil current type₀ (by rw [← hsuites₀, hnil]; rfl)
    have hinfo : (pre.getTransportInfoByName (defaultContentName type₀)).isSome = true := by
      have hmem : defaultContentName type₀ ∈ pre.transportInfos.map TransportInfo.contentName := by
        rw [hspec.transports, Offered.names hspec.contents]
        exact List.mem_map_of_mem hmem₀
      obtain ⟨t, ht, heq⟩ := List.mem_map.mp hmem
      exact List.find?_isSome.mpr ⟨t, ht, decide_eq_true heq⟩
    have hall : ∀ n ∈ types.map defaultContentName, (getCryptosByName pre n).isSome = true := by
      intro n hn
      obtain ⟨type, htype, rfl⟩ := List.mem_map.mp hn
      obtain ⟨a, hfind, ha⟩ := hspec.find (selectedTypes_nodup options)
        (htypes ▸ List.mem_cons_of_mem _ htype)
      rw [ha.getCryptos hfind]
      rfl
    rw [bundleContents_isSome_iff (hnames.trans (congrArg (List.map defaultContentName) htypes))
      hinfo (ha₀.getCryptos hfind₀) hne hall, hnames]
    constructor
    · rintro ⟨k, -, hk⟩ _
      refine ⟨k.cipherSuite, fun type htype => ?_⟩
      have hsel := mem_selectedTypes.mpr htype
      exact (hspec.hasSuite_iff hsecure hsel _).mp (hk _ (List.mem_map_of_mem hsel))
    · intro hex
      obtain ⟨suite, hsuite⟩ := hex hbundle
      have hmem := hsuite type₀ (mem_selectedTypes.mp hmem₀)
      rw [← hsuites₀] at hmem
      obtain ⟨k, hk, rfl⟩ := List.mem_map.mp hmem
      refine ⟨k, hk, fun n hn => ?_⟩
      obtain ⟨type, hsel, rfl⟩ := List.mem_map.mp hn
      exact (hspec.hasSuite_iff hsecure hsel _).mpr (hsuite type (mem_selectedTypes.mp hsel))
  · rw [if_neg hbundle]
    exact ⟨fun _ h => (hbundle h).elim, fun _ => rfl⟩

/-! ### A second round -/

/-- A content with a crypto for each of some suites. -/
def suitesContent (type : MediaType) (suites : List Text) : ContentInfo :=
  cryptoContent (defaultContentName type) type (suites.map fun suite => ⟨1, suite, [], []⟩)

/-- Two kinds of media that have a suite in common. -/
def commonSuite : SessionDescription :=
  ⟨[suitesContent .audio [csAesCm128HmacSha1_32, csAesCm128HmacSha1_80],
    suitesContent .video [csAesCm128HmacSha1_80]], [], []⟩

theorem reoffer_iff_commonSuite :
    ((plainFactory .enabled).createOffer (countingRuntime 0) (plainOptions true)
      (some commonSuite)).isSome = true :=
  (reoffer_iff (plainFactory .enabled) (countingRuntime 0) (plainOptions true) (some commonSuite)
    (countingRuntime_works 0) (by unfold Room; decide) (by decide) (by decide)
    ⟨.audio, rfl⟩).mpr fun _ => ⟨csAesCm128HmacSha1_80, by rintro (_ | _ | _) _ <;> decide +kernel⟩

/-- An answer without BUNDLE takes up the 32 bit suite for audio and the 80 bit suite for video. The
same factory can then make no offer with BUNDLE. -/
theorem no_bundled_reoffer :
    ∃ offer answer,
      (plainFactory .enabled).createOffer (countingRuntime 1) (plainOptions false) none =
        some offer ∧
      (plainFactory .enabled).createAnswer (countingRuntime 0) offer (plainOptions false) none =
        some answer ∧
      (plainFactory .enabled).createOffer (countingRuntime 2) (plainOptions true) (some answer) =
        none := by
  have hrounds : (((plainFactory .enabled).createOffer (countingRuntime 1) (plainOptions false)
      none).bind fun offer => (plainFactory .enabled).createAnswer (countingRuntime 0) offer
        (plainOptions false) none).map (fun answer => ((plainFactory .enabled).createOffer
          (countingRuntime 2) (plainOptions true) (some answer)).isSome) = some false := by
    decide +kernel
  obtain ⟨answer, hanswer, hnone⟩ := Option.map_eq_some_iff.mp hrounds
  obtain ⟨offer, hoffer, hanswer⟩ := Option.bind_eq_some_iff.mp hanswer
  refine ⟨offer, answer, hoffer, hanswer, Option.not_isSome_iff_eq_none.mp ?_⟩
  rw [hnone]
  exact Bool.false_ne_true

end Libjingle.Media
