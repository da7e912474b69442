import Libjingle.Media.Answers

/-!
# The cryptos of an answer

Each content of an answer takes up one crypto of the same content of the offer. The merge for BUNDLE
then gives all contents of the group the crypto of the first one, and compares suites but not tags.

* **`answer_cryptos_offered_iff`**: the cryptos of the answer are those of the offer exactly if the
  tags in the offer agree (`TagsShared`).
-/

namespace Libjingle.Media

open Lib Sdp

/-! ## One content -/

theorem cryptoMatches_iff {a b : CryptoParams} :
    cryptoMatches a b = true ↔ a.tag = b.tag ∧ a.cipherSuite = b.cipherSuite := by
  rw [cryptoMatches, Bool.and_eq_true, decide_eq_true_eq, decide_eq_true_eq]

theorem findMatchingCrypto_matches (cryptos : List CryptoParams) (crypto : CryptoParams) :
    cryptoMatches (findMatchingCrypto cryptos crypto) crypto = true := by
  rw [findMatchingCrypto]
  cases hfind : cryptos.find? (cryptoMatches crypto) with
  | none => exact cryptoMatches_iff.mpr ⟨rfl, rfl⟩
  | some x =>
    have hx := cryptoMatches_iff.mp (List.find?_some hfind)
    exact cryptoMatches_iff.mpr ⟨hx.1.symm, hx.2.symm⟩

section

variable (f : SessionFactory) (r : Runtime) (offer : SessionDescription)
  (options : MediaSessionOptions)

/-- The crypto of the offer that the answer to a content takes up: SDES is in use, a suite is
supported, and there is a key for it. -/
def negotiatedCrypto (c : ContentInfo) : Option CryptoParams :=
  if answerPolicy f offer c.name = .disabled then none
  else if (r.string (.key c.description.type 0) srtpMasterKeyBase64Len).isSome then
    selectedCrypto c.description (bundleEnabled offer options)
  else none

end

variable {f : SessionFactory} {r : Runtime} {offer : SessionDescription}
  {options : MediaSessionOptions} {current : Option SessionDescription}

variable {c : ContentInfo} {k : CryptoParams}

theorem negotiatedCrypto_mem
    (h : negotiatedCrypto f r offer options c = some k) : k ∈ c.description.cryptos := by
  rw [negotiatedCrypto] at h
  split at h
  · cases h
  · split at h
    · exact List.mem_of_find?_eq_some h
    · cases h

theorem negotiatedCrypto_supported
    (h : negotiatedCrypto f r offer options c = some k) : supportedSuite k.cipherSuite = true := by
  rw [negotiatedCrypto] at h
  split at h
  · cases h
  · split at h
    · have hsuite := List.find?_some h
      rw [Bool.or_eq_true, Bool.and_eq_true, Bool.and_eq_true] at hsuite
      rw [supportedSuite, Bool.or_eq_true]
      exact hsuite.imp id fun h => h.1.1
    · cases h

variable {a : ContentInfo}

theorem Answered.cryptos_eq (h : Answered f r offer options current c a) :
    match negotiatedCrypto f r offer options c with
    | none => a.description.cryptos = []
    | some k => ∃ k', a.description.cryptos = [k'] ∧ cryptoMatches k' k = true := by
  rw [h.cryptos, answerCryptos, negotiatedCrypto]
  by_cases hpolicy : answerPolicy f offer c.name = .disabled
  · rw [if_pos hpolicy, if_pos hpolicy]
  · rw [if_neg hpolicy, if_neg hpolicy, selectCrypto]
    cases hkey : r.string (.key c.description.type 0) srtpMasterKeyBase64Len with
    | none =>
      cases selectedCrypto c.description (bundleEnabled offer options) <;>
        simp [createCryptoParams, hkey]
    | some key =>
      cases selectedCrypto c.description (bundleEnabled offer options) with
      | none => simp
      | some k =>
        simp only [Option.isSome_some, if_true, Option.bind_some, createCryptoParams, hkey,
          Option.map_some, Option.toList_some]
        refine ⟨_, rfl, ?_⟩
        have hfound := cryptoMatches_iff.mp (findMatchingCrypto_matches
          ((currentCryptos current c.description.type).getD [])
          ⟨k.tag, k.cipherSuite, "inline:".toList ++ key, []⟩)
        exact cryptoMatches_iff.mpr hfound

/-- The cryptos of a content of the answer are those of the offer: each has the tag and the suite of
one of them, and the filter accepts it. -/
def FromOffer (c a : ContentInfo) : Prop :=
  (∀ k ∈ a.description.cryptos, ∃ k' ∈ c.description.cryptos,
      k.tag = k'.tag ∧ k.cipherSuite = k'.cipherSuite) ∧
    (a.description.cryptos ≠ [] → ∀ filter : SrtpFilter,
      filter.offerParams = c.description.cryptos →
        (filter.negotiateParams a.description.cryptos).isSome = true)

theorem fromOffer_nil (h : a.description.cryptos = []) : FromOffer c a := by
  refine ⟨fun k hk => ?_, fun hne => (hne h).elim⟩
  rw [h] at hk
  cases hk

theorem fromOffer_singleton (h : a.description.cryptos = [k]) :
    FromOffer c a ↔ ∃ k' ∈ c.description.cryptos, cryptoMatches k k' = true := by
  simp only [cryptoMatches_iff]
  constructor
  · intro hfrom
    exact hfrom.1 k (by rw [h]; exact List.mem_singleton_self k)
  · intro hex
    refine ⟨fun x hx => ?_, fun _ filter hfilter => ?_⟩
    · rw [h, List.mem_singleton] at hx
      rw [hx]
      exact hex
    · obtain ⟨k', hmem, hmatch⟩ := hex
      rw [h, SrtpFilter.negotiateParams, hfilter, List.find?_isSome]
      exact ⟨k', hmem, cryptoMatches_iff.mpr hmatch⟩

theorem Answered.fromOffer (h : Answered f r offer options current c a) : FromOffer c a := by
  have hcryptos := h.cryptos_eq
  cases hk : negotiatedCrypto f r offer options c with
  | none =>
    rw [hk] at hcryptos
    exact fromOffer_nil hcryptos
  | some k =>
    rw [hk] at hcryptos
    obtain ⟨k', heq, hmatch⟩ := hcryptos
    exact (fromOffer_singleton heq).mpr ⟨k, negotiatedCrypto_mem hk, hmatch⟩

/-! ## The merge -/

section

variable (f : SessionFactory) (r : Runtime) (offer : SessionDescription)
  (options : MediaSessionOptions)

/-- The names that the answer bundles: those of accepted contents in the offer's group. -/
def bundledNames : List Text :=
  match offer.getGroupByName groupTypeBundle, options.bundleEnabled with
  | some b, true => (bundleGroup (fun c => accepts options c && c.name ∈ b.contentNames)
      (firstContents offer)).contentNames
  | _, _ => []

/-- The content that is answered under a name. -/
def answeredContent (name : Text) : Option ContentInfo :=
  (firstContents offer).find? fun c => c.name = name

/-- Each accepted content that is bundled has the tag and the suite which the first one takes up. -/
def TagsShared : Prop :=
  ∀ first ∈ (bundledNames offer options).head?, ∀ b ∈ answeredContent offer first,
    ∀ k ∈ negotiatedCrypto f r offer options b,
      ∀ n ∈ bundledNames offer options, ∀ c ∈ answeredContent offer n, accepts options c = true →
        ∃ k' ∈ c.description.cryptos, cryptoMatches k k' = true

end

variable {pre : SessionDescription}

theorem answerGroup_names {b : ContentGroup} (hpre : AnswerSpec f r offer options current pre)
    (hoffer : offer.getGroupByName groupTypeBundle = some b)
    (hoptions : options.bundleEnabled = true) :
    (SessionFactory.answerGroup b pre.contents).contentNames = bundledNames offer options := by
  rw [bundledNames, hoffer, hoptions, SessionFactory.answerGroup]
  dsimp only
  rw [bundleGroup_congr]
  refine hpre.contents.imp fun c a ha => ⟨ha.name, ?_⟩
  rw [ha.rejected, ha.name, Bool.not_not]

theorem bundledNames_eq_nil_of_none (hpre : AnswerSpec f r offer options current pre)
    (hno : ∀ b, offer.getGroupByName groupTypeBundle = some b → options.bundleEnabled = true →
      (SessionFactory.answerGroup b pre.contents).contentNames = []) :
    bundledNames offer options = [] := by
  cases hoffer : offer.getGroupByName groupTypeBundle with
  | none =>
    rw [bundledNames, hoffer]
  | some b =>
    cases hoptions : options.bundleEnabled with
    | false => rw [bundledNames, hoffer, hoptions]
    | true => rw [← answerGroup_names hpre hoffer hoptions, hno b hoffer hoptions]

theorem answeredContent_rel (hpre : AnswerSpec f r offer options current pre) (n : Text) :
    Option.Rel (Answered f r offer options current) (answeredContent offer n)
      (getContentByName pre n) :=
  forall₂_find (fun ha => ha.name) hpre.contents n

variable {n : Text}

theorem getCryptosByName_answered
    (hpre : AnswerSpec f r offer options current pre) {cryptos : List CryptoParams}
    (h : getCryptosByName pre n = some cryptos) :
    ∃ c a, answeredContent offer n = some c ∧ Answered f r offer options current c a ∧
      getContentByName pre n = some a ∧ a.description.cryptos = cryptos := by
  have hrel := answeredContent_rel hpre n
  rw [getCryptosByName] at h
  generalize hc : answeredContent offer n = oc at hrel
  generalize ha : getContentByName pre n = oa at hrel h
  cases hrel with
  | none => cases h
  | @some c a hca =>
    simp only [hca.type, if_true] at h
    exact ⟨c, a, rfl, hca, rfl, Option.some.inj h⟩

theorem filter_singleton_of_ne_nil {p : CryptoParams → Bool}
    (h : [k].filter p ≠ []) : [k].filter p = [k] := by
  rw [List.filter_singleton] at h ⊢
  cases hp : p k with
  | true => rfl
  | false =>
    rw [hp] at h
    exact (h rfl).elim

/-- A content of the answer is the one of the offer, and when it is accepted so are its cryptos. -/
def MirrorsCryptos (c a : ContentInfo) : Prop :=
  a.name = c.name ∧ a.description.type = c.description.type ∧ (a.rejected = false → FromOffer c a)

theorem Answered.mirrorsCryptos (h : Answered f r offer options current c a) : MirrorsCryptos c a :=
  ⟨h.name, h.mediaType, fun _ => h.fromOffer⟩

/-- A content that the merge has given the crypto `k'`. -/
theorem mirrorsCryptos_set_iff {k' : CryptoParams} (h : Answered f r offer options current c a) :
    MirrorsCryptos c (setCryptos [k'] a) ↔
      (accepts options c = true → ∃ x ∈ c.description.cryptos, cryptoMatches k' x = true) := by
  rw [setCryptos_media h.type]
  have hrejected : a.rejected = false ↔ accepts options c = true := by
    rw [h.rejected, Bool.not_eq_false']
  constructor
  · rintro ⟨-, -, hfrom⟩ haccepts
    exact (fromOffer_singleton rfl).mp (hfrom (hrejected.mpr haccepts))
  · intro hex
    exact ⟨h.name, h.mediaType, fun hrej =>
      (fromOffer_singleton rfl).mpr (hex (hrejected.mp hrej))⟩

theorem answered_of_find (hpre : AnswerSpec f r offer options current pre)
    (hc : answeredContent offer n = some c)
    (ha : getContentByName pre n = some a) : Answered f r offer options current c a := by
  have hrel := answeredContent_rel hpre n
  rw [hc, ha] at hrel
  cases hrel with
  | some hca => exact hca

theorem exists_answered (hpre : AnswerSpec f r offer options current pre)
    (hc : answeredContent offer n = some c) :
    ∃ a, getContentByName pre n = some a ∧ Answered f r offer options current c a := by
  have hrel := answeredContent_rel hpre n
  rw [hc] at hrel
  generalize getContentByName pre n = found at hrel
  cases hrel with
  | some hca => exact ⟨_, rfl, hca⟩

/-- What the merge does to the contents of an answer: nothing when the first one takes up no crypto,
and otherwise they all get that crypto. -/
inductive SharedCrypto (f : SessionFactory) (r : Runtime) (offer : SessionDescription)
    (options : MediaSessionOptions) (pre answer : SessionDescription) : Prop where
  | kept (hnone : ∀ first ∈ (bundledNames offer options).head?, ∀ c ∈ answeredContent offer first,
        negotiatedCrypto f r offer options c = none)
      (hsame : answer.contents = pre.contents)
  | merged {first : Text} {c : ContentInfo} {k k' : CryptoParams}
      (hfirst : (bundledNames offer options).head? = some first)
      (hc : answeredContent offer first = some c)
      (hk : negotiatedCrypto f r offer options c = some k) (hmatch : cryptoMatches k' k = true)
      (hsame : answer.contents =
        mapFirsts (fun n => n ∈ bundledNames offer options) (setCryptos [k']) pre.contents)

/-- **The merge of an answer.** -/
theorem createAnswer_merge {answer : SessionDescription}
    (h : f.createAnswer r offer options current = some answer) :
    ∃ pre, AnswerSpec f r offer options current pre ∧
      SharedCrypto f r offer options pre answer := by
  obtain ⟨pre, -, hpre, hmerge⟩ := createAnswer_cases h
  refine ⟨pre, hpre, ?_⟩
  cases hmerge with
  | none hno heq =>
    refine .kept (fun first hfirst => ?_) (by rw [heq])
    rw [bundledNames_eq_nil_of_none hpre hno] at hfirst
    cases hfirst
  | bundle b hoffer hoptions hmerge =>
    obtain ⟨first, names, -, cryptos, hnames, -, hcryptos, -, -, -, hcontents⟩ :=
      bundleContents_spec hmerge
    rw [answerGroup_names hpre hoffer hoptions] at hnames hcontents
    have hfirst : (bundledNames offer options).head? = some first := by
      rw [hnames]
      rfl
    obtain ⟨c, a, hc, hanswered, -, rfl⟩ := getCryptosByName_answered hpre hcryptos
    have heq := hanswered.cryptos_eq
    cases hk : negotiatedCrypto f r offer options c with
    | none =>
      rw [hk] at heq
      cases hcontents with
      | kept _ hsame =>
        refine .kept (fun x hx c' hc' => ?_) hsame
        obtain rfl := Option.some.inj (hfirst.symm.trans hx)
        obtain rfl := Option.some.inj (hc.symm.trans hc')
        exact hk
      | merged common hcommon hsome _ => exact (hsome (by rw [hcommon, heq]; rfl)).elim
    | some k =>
      rw [hk] at heq
      obtain ⟨k', hsingle, hmatch⟩ := heq
      cases hcontents with
      | kept hnone _ => exact absurd (hsingle.symm.trans hnone) (List.cons_ne_nil _ _)
      | merged common hcommon hsome hsame =>
        have hcommon' : common = [k'] := by
          rw [hcommon, hsingle] at hsome ⊢
          exact filter_singleton_of_ne_nil hsome
        exact .merged hfirst hc hk hmatch (hcommon' ▸ hsame)

theorem cryptoMatches_congr {k k' : CryptoParams} (h : cryptoMatches k' k = true)
    (x : CryptoParams) : cryptoMatches k' x = cryptoMatches k x := by
  obtain ⟨htag, hsuite⟩ := cryptoMatches_iff.mp h
  rw [cryptoMatches, cryptoMatches, htag, hsuite]

/-- **The cryptos of an answer.** In every accepted content they have the tag and the suite of a
crypto in the same content of the offer, exactly when each accepted content that is bundled offers
the tag and suite which the first bundled content takes up. -/
theorem answer_cryptos_offered_iff (f : SessionFactory) (r : Runtime)
    (offer : SessionDescription) (options : MediaSessionOptions)
    (current : Option SessionDescription) (answer : SessionDescription)
    (h : f.createAnswer r offer options current = some answer) :
    List.Forall₂ MirrorsCryptos (firstContents offer) answer.contents ↔
      TagsShared f r offer options := by
  obtain ⟨pre, hpre, hmerge⟩ := createAnswer_merge h
  cases hmerge with
  | kept hnone hsame =>
    refine ⟨fun _ first hfirst c hc k hk => ?_, fun _ => ?_⟩
    · rw [hnone first hfirst c hc] at hk
      cases hk
    · rw [hsame]
      exact hpre.contents.imp fun c a ha => ha.mirrorsCryptos
  | @merged first c₀ k k' hfirst hc₀ hk hmatch hsame =>
    rw [hsame, forall₂_mapFirsts (fun ha => ha.name) (fun ha => ha.mirrorsCryptos) hpre.contents]
    constructor
    · intro hall first' hfirst' c₁ hc₁ k₁ hk₁ n hn c hc haccepts
      obtain rfl := Option.some.inj (hfirst.symm.trans hfirst')
      obtain rfl := Option.some.inj (hc₀.symm.trans hc₁)
      obtain rfl := Option.some.inj (hk.symm.trans hk₁)
      obtain ⟨a, ha, hca⟩ := exists_answered hpre hc
      have hmirror := hall n c a (decide_eq_true hn) hc ha
      obtain ⟨x, hx, hxm⟩ := (mirrorsCryptos_set_iff hca).mp hmirror haccepts
      exact ⟨x, hx, (cryptoMatches_congr hmatch x).symm.trans hxm⟩
    · intro htags n c a hn hc ha
      refine (mirrorsCryptos_set_iff (answered_of_find hpre hc ha)).mpr fun haccepts => ?_
      obtain ⟨x, hx, hxm⟩ :=
        htags first hfirst c₀ hc₀ k hk n (of_decide_eq_true hn) c hc haccepts
      exact ⟨x, hx, (cryptoMatches_congr hmatch x).trans hxm⟩

/-! ### Two offers -/

def taggedCrypto (tag : I32) (suite : Text) : CryptoParams :=
  ⟨tag, suite, "inline:WVNfX19zZW1jdGwgKCkgewkyMjA7fQp9CnVubGVz".toList, []⟩

/-- An offer that bundles an audio and a video content. -/
def bundledOffer (audio video : List CryptoParams) : SessionDescription :=
  ⟨[cryptoContent "audio".toList .audio audio, cryptoContent "video".toList .video video], [],
    [⟨groupTypeBundle, ["audio".toList, "video".toList]⟩]⟩

/-- An offer whose audio content has tag 1. -/
def taggedOffer (videoTag : I32) : SessionDescription :=
  bundledOffer [taggedCrypto 1 csAesCm128HmacSha1_80] [taggedCrypto videoTag csAesCm128HmacSha1_80]

/-- A section with the tags and suites of its cryptos. -/
structure SectionCryptos where
  name : Text
  rejected : Bool
  tags : List (I32 × Text)
  deriving DecidableEq

/-- The sections of a description with their cryptos. -/
def cryptoTags (d : SessionDescription) : List SectionCryptos :=
  d.contents.map fun c =>
    ⟨c.name, c.rejected, c.description.cryptos.map fun k => (k.tag, k.cipherSuite)⟩

theorem answer_cryptos_offered_iff_sameTags :
    ∃ answer, (plainFactory .enabled).createAnswer (countingRuntime 0) (taggedOffer 1)
        (plainOptions true) none = some answer ∧
      (List.Forall₂ MirrorsCryptos (firstContents (taggedOffer 1)) answer.contents ↔
        TagsShared (plainFactory .enabled) (countingRuntime 0) (taggedOffer 1)
          (plainOptions true)) := by
  obtain ⟨answer, h⟩ := Option.isSome_iff_exists.mp (show ((plainFactory .enabled).createAnswer
    (countingRuntime 0) (taggedOffer 1) (plainOptions true) none).isSome = true by decide +kernel)
  exact ⟨answer, h, answer_cryptos_offered_iff _ _ _ _ _ _ h⟩

theorem video_answered_with_audio_tag :
    cryptoTags (taggedOffer 2) = [⟨"audio".toList, false, [(1, csAesCm128HmacSha1_80)]⟩,
        ⟨"video".toList, false, [(2, csAesCm128HmacSha1_80)]⟩] ∧
      ((plainFactory .enabled).createAnswer (countingRuntime 0) (taggedOffer 2) (plainOptions true)
          none).map cryptoTags =
        some [⟨"audio".toList, false, [(1, csAesCm128HmacSha1_80)]⟩,
          ⟨"video".toList, false, [(1, csAesCm128HmacSha1_80)]⟩] := by
  decide +kernel

end Libjingle.Media
