import Libjingle.Media.AnswerCryptos
import Libjingle.Media.Offers

/-!
# What a BUNDLE group shares

The contents of a group are to be accepted, and to share their credentials and cryptos. The merge
returns early when the first of them has no cryptos, whatever the others have; and it finds contents
by names, which a peer may use twice.

* **`bundle_consistent_iff`**: offers are always consistent, and when answers are.
-/

namespace Libjingle.Media

open Lib Sdp

/-- The contents of a group exist and are accepted, have the same credentials, and the same cryptos,
of which each suite was available in all of them before the merge. -/
structure Consistent (pre d : SessionDescription) (g : ContentGroup) : Prop where
  present : ∀ n ∈ g.contentNames, ∃ c ∈ d.contents, c.name = n
  accepted : ∀ c ∈ d.contents, c.name ∈ g.contentNames → c.rejected = false
  credentials : ∃ ufrag pwd, ∀ n ∈ g.contentNames, ∃ t, d.getTransportInfoByName n = some t ∧
    t.description.iceUfrag = ufrag ∧ t.description.icePwd = pwd
  cryptos : ∃ cryptos,
    (∀ c ∈ d.contents, c.name ∈ g.contentNames → c.description.cryptos = cryptos) ∧
    ∀ k ∈ cryptos, ∀ c ∈ pre.contents, c.name ∈ g.contentNames →
      ∃ k' ∈ c.description.cryptos, k'.cipherSuite = k.cipherSuite

/-! ## The merge -/

theorem shareCredentials_name (names : List Text) (first : Text) (info t : TransportInfo) :
    (shareCredentials names first info t).contentName = t.contentName := by
  unfold shareCredentials
  split <;> rfl

variable {d d' : SessionDescription} {names : List Text}

variable {first : Text} {info : TransportInfo}

theorem find_shareCredentials
    (hinfos : d'.transportInfos = d.transportInfos.map (shareCredentials names first info))
    (n : Text) : d'.getTransportInfoByName n =
      (d.getTransportInfoByName n).map (shareCredentials names first info) := by
  have hcomp : (fun t : TransportInfo => decide (t.contentName = n)) ∘
      shareCredentials names first info = fun t => decide (t.contentName = n) := by
    funext t
    rw [Function.comp_apply, shareCredentials_name]
  rw [SessionDescription.getTransportInfoByName, SessionDescription.getTransportInfoByName, hinfos,
    List.find?_map, hcomp]

theorem credentials_shared (hfirst : d.getTransportInfoByName first = some info)
    (hinfos : d'.transportInfos = d.transportInfos.map (shareCredentials names first info))
    (hall : ∀ n ∈ names, (d.getTransportInfoByName n).isSome = true) :
    ∃ ufrag pwd, ∀ n ∈ names, ∃ t, d'.getTransportInfoByName n = some t ∧
      t.description.iceUfrag = ufrag ∧ t.description.icePwd = pwd := by
  refine ⟨info.description.iceUfrag, info.description.icePwd, fun n hn => ?_⟩
  obtain ⟨t, ht⟩ := Option.isSome_iff_exists.mp (hall n hn)
  have hname : t.contentName = n := by simpa using List.find?_some ht
  have hfind : d'.getTransportInfoByName n = some (shareCredentials names first info t) := by
    rw [find_shareCredentials hinfos, ht]
    rfl
  refine ⟨_, hfind, ?_⟩
  unfold shareCredentials
  by_cases heq : t.contentName = first
  · rw [if_neg fun h => h.2 heq]
    rw [← hname, heq, hfirst] at ht
    obtain rfl := Option.some.inj ht
    exact ⟨rfl, rfl⟩
  · rw [if_pos ⟨hname ▸ hn, heq⟩]
    exact ⟨rfl, rfl⟩

variable {c : ContentInfo}

variable {contents : List ContentInfo}

theorem find_of_unique (p : Text → Bool)
    (hnodup : ((contents.filter fun c => p c.name).map ContentInfo.name).Nodup)
    (hc : c ∈ contents) (hp : p c.name = true) :
    contents.find? (fun x => x.name = c.name) = some c := by
  obtain ⟨x, hx⟩ : ∃ x, contents.find? (fun x => x.name = c.name) = some x :=
    Option.isSome_iff_exists.mp (List.find?_isSome.mpr ⟨c, hc, decide_eq_true rfl⟩)
  have hname : x.name = c.name := by simpa using List.find?_some hx
  have hxmem : x ∈ contents.filter fun c => p c.name :=
    List.mem_filter.mpr ⟨List.mem_of_find?_eq_some hx, hname.symm ▸ hp⟩
  have hcmem : c ∈ contents.filter fun c => p c.name := List.mem_filter.mpr ⟨hc, hp⟩
  rw [hx, List.inj_on_of_nodup_map hnodup hxmem hcmem hname]

variable {g : ContentGroup}

theorem getCryptosByName_of_unique (hrtp : ∀ c ∈ d.contents, c.type = nsJingleRtp)
    (hnodup : ((d.contents.filter fun c => c.name ∈ g.contentNames).map ContentInfo.name).Nodup)
    (hc : c ∈ d.contents) (hmem : c.name ∈ g.contentNames) :
    getCryptosByName d c.name = some c.description.cryptos := by
  have hfound := find_of_unique (fun n => decide (n ∈ g.contentNames)) hnodup hc
    (decide_eq_true hmem)
  rw [getCryptosByName, getContentByName, hfound]
  exact if_pos (hrtp c hc)

theorem consistent_of_merged (hrtp : ∀ c ∈ d.contents, c.type = nsJingleRtp)
    (hpresent : ∀ n ∈ g.contentNames, ∃ c ∈ d.contents, c.name = n)
    (haccepted : ∀ c ∈ d.contents, c.name ∈ g.contentNames → c.rejected = false)
    (hnodup : ((d.contents.filter fun c => c.name ∈ g.contentNames).map ContentInfo.name).Nodup)
    (hcredentials : ∃ ufrag pwd, ∀ n ∈ g.contentNames, ∃ t, d'.getTransportInfoByName n = some t ∧
      t.description.iceUfrag = ufrag ∧ t.description.icePwd = pwd)
    {common : List CryptoParams}
    (hcommon : ∀ k ∈ common, g.contentNames.all (hasSuite d k.cipherSuite) = true)
    (hsame : d'.contents = mapFirsts (fun n => n ∈ g.contentNames) (setCryptos common) d.contents) :
    Consistent d d' g := by
  rw [mapFirsts_eq_map _ hnodup] at hsame
  have hmerged : ∀ c ∈ d'.contents, c.name ∈ g.contentNames →
      c.rejected = false ∧ c.description.cryptos = common := by
    intro c hc hmem
    rw [hsame] at hc
    obtain ⟨x, hx, rfl⟩ := List.mem_map.mp hc
    by_cases hp : x.name ∈ g.contentNames
    · rw [if_pos (decide_eq_true hp), setCryptos_media (hrtp x hx)]
      exact ⟨haccepted x hx hp, rfl⟩
    · rw [if_neg (by simp [hp])] at hmem
      exact absurd hmem hp
  refine ⟨fun n hn => ?_, fun c hc hmem => (hmerged c hc hmem).1, hcredentials, common,
    fun c hc hmem => (hmerged c hc hmem).2, fun k hk c hc hmem => ?_⟩
  · obtain ⟨c, hc, rfl⟩ := hpresent n hn
    rw [hsame]
    refine ⟨_, List.mem_map_of_mem hc, ?_⟩
    split
    · exact setCryptos_name common c
    · rfl
  · have hsuite := List.all_eq_true.mp (hcommon k hk) c.name hmem
    rw [hasSuite, getCryptosByName_of_unique hrtp hnodup hc hmem, Option.any_some,
      List.any_eq_true] at hsuite
    obtain ⟨k', hk', heq⟩ := hsuite
    exact ⟨k', hk', of_decide_eq_true heq⟩

/-- **The merge of contents that no others share their names with.** It is right unless the first
one has no cryptos while another one has some. -/
theorem consistent_iff_of_unique
    (h : bundleContents g d = some d') (hrtp : ∀ c ∈ d.contents, c.type = nsJingleRtp)
    (hpresent : ∀ n ∈ g.contentNames, ∃ c ∈ d.contents, c.name = n)
    (haccepted : ∀ c ∈ d.contents, c.name ∈ g.contentNames → c.rejected = false)
    (hnodup : ((d.contents.filter fun c => c.name ∈ g.contentNames).map ContentInfo.name).Nodup)
    (htransports : ∀ n ∈ g.contentNames, (d.getTransportInfoByName n).isSome = true) :
    Consistent d d' g ↔
      ∀ first ∈ g.contentNames.head?, getCryptosByName d first = some [] →
        ∀ c ∈ d.contents, c.name ∈ g.contentNames → c.description.cryptos = [] := by
  obtain ⟨first, names, info, cryptos, hnames, hinfo, hcryptos, -, -, hinfos, hcontents⟩ :=
    bundleContents_spec h
  have hcredentials := credentials_shared hinfo hinfos htransports
  have hfirst : first ∈ g.contentNames := hnames ▸ List.mem_cons_self
  have hhead : (∀ x ∈ g.contentNames.head?, getCryptosByName d x = some [] →
      ∀ c ∈ d.contents, c.name ∈ g.contentNames → c.description.cryptos = []) ↔
      (cryptos = [] → ∀ c ∈ d.contents, c.name ∈ g.contentNames → c.description.cryptos = []) := by
    rw [hnames]
    simp [hcryptos]
  rw [hhead]
  cases hcontents with
  | kept hnone hsame =>
    constructor
    · rintro ⟨-, -, -, shared, hshared, -⟩ - c hc hmem
      obtain ⟨c₀, hc₀, rfl⟩ := hpresent first hfirst
      rw [getCryptosByName_of_unique hrtp hnodup hc₀ hfirst, hnone, Option.some.injEq] at hcryptos
      rw [hsame] at hshared
      rw [hshared c hc hmem, ← hshared c₀ hc₀ hfirst, hcryptos]
    · intro hempty
      rw [← hsame] at hpresent haccepted
      refine ⟨hpresent, haccepted, hcredentials, [], ?_, List.forall_mem_nil _⟩
      rw [hsame]
      exact hempty hnone
  | merged common hcommon hsome hsame =>
    refine ⟨fun _ hnone => (hsome (by rw [hcommon, hnone]; rfl)).elim, fun _ => ?_⟩
    refine consistent_of_merged hrtp hpresent haccepted hnodup hcredentials (fun k hk => ?_) hsame
    rw [hcommon] at hk
    exact (List.mem_filter.mp hk).2

theorem getGroupByName_bundle {g g' : ContentGroup}
    (hgroups : d.groups = []) (hd : d'.groups = d.groups ++ [g])
    (hsemantics : g.semantics = groupTypeBundle)
    (h : d'.getGroupByName groupTypeBundle = some g') : g' = g := by
  rw [SessionDescription.getGroupByName, hd, hgroups, List.nil_append, List.find?_singleton,
    if_pos (by rw [hsemantics]; exact decide_eq_true rfl)] at h
  exact (Option.some.inj h).symm

variable {f : SessionFactory} {r : Runtime} {options : MediaSessionOptions}
  {current : Option SessionDescription}

/-! ## Offers -/

variable {a : ContentInfo}

variable {types : List MediaType}

theorem Offered.of_mem (h : List.Forall₂ (Offered f r current) types contents) (ha : a ∈ contents) :
    ∃ type, Offered f r current type a := by
  induction h with
  | nil => cases ha
  | @cons type a' _ _ ha' _ ih =>
    rcases List.mem_cons.mp ha with rfl | ha
    · exact ⟨type, ha'⟩
    · exact ih ha

theorem OfferSpec.cryptos_nil {offer : SessionDescription}
    (h : OfferSpec f r current types offer) {a b : ContentInfo} (ha : a ∈ offer.contents)
    (hb : b ∈ offer.contents) (hnil : a.description.cryptos = []) :
    b.description.cryptos = [] := by
  obtain ⟨type, hoffered⟩ := Offered.of_mem h.contents ha
  obtain ⟨type', hoffered'⟩ := Offered.of_mem h.contents hb
  have hdisabled : f.secure = .disabled := by
    by_contra hsecure
    have hsuites := offerCryptos_suites hsecure hoffered.cryptos
    rw [hnil] at hsuites
    exact offeredSuites_ne_nil current type hsuites.symm
  have hcryptos := hoffered'.cryptos
  rw [offerCryptos, if_pos hdisabled] at hcryptos
  exact (Option.some.inj hcryptos).symm

/-- **Offers are consistent.** -/
theorem offer_consistent {offer : SessionDescription}
    (h : f.createOffer r options current = some offer)
    (hg : offer.getGroupByName groupTypeBundle = some g) :
    ∃ pre, f.createOfferContents r options current = some pre ∧ Consistent pre offer g := by
  obtain ⟨pre, hpre, h⟩ := Option.bind_eq_some_iff.mp h
  refine ⟨pre, hpre, ?_⟩
  have hspec := createOfferContents_spec hpre
  have hoffered : ∀ a ∈ pre.contents, ∃ type, Offered f r current type a := fun a ha =>
    Offered.of_mem hspec.contents ha
  split at h
  · obtain ⟨_, _, _, _, _, _, _, _, hgroups, -, -⟩ := bundleContents_spec h
    obtain rfl := getGroupByName_bundle hspec.groups hgroups (bundleGroup_semantics _ _) hg
    have hnames := bundleGroup_all hspec.names_nodup
    refine (consistent_iff_of_unique h ?_ ?_ ?_ ?_ ?_).mpr ?_
    · intro a ha
      obtain ⟨type, ho⟩ := hoffered a ha
      exact ho.type
    · intro n hn
      rw [hnames] at hn
      exact List.mem_map.mp hn
    · intro a ha _
      obtain ⟨type, ho⟩ := hoffered a ha
      exact ho.rejected
    · exact hspec.names_nodup.sublist (List.filter_sublist.map _)
    · intro n hn
      rw [hnames, ← hspec.transports] at hn
      obtain ⟨t, ht, heq⟩ := List.mem_map.mp hn
      exact List.find?_isSome.mpr ⟨t, ht, decide_eq_true heq⟩
    · intro first _ hnil c hc _
      rw [getCryptosByName] at hnil
      split at hnil
      · rename_i a ha
        split at hnil
        · exact hspec.cryptos_nil (List.mem_of_find?_eq_some ha) hc (Option.some.inj hnil)
        · cases hnil
      · cases hnil
  · obtain rfl := Option.some.inj h
    rw [SessionDescription.getGroupByName, hspec.groups] at hg
    cases hg

theorem offer_all_bundled {offer : SessionDescription}
    (h : f.createOffer r options current = some offer)
    (hg : offer.getGroupByName groupTypeBundle = some g) :
    ∀ c ∈ offer.contents, c.name ∈ g.contentNames := by
  obtain ⟨pre, hpre, h⟩ := Option.bind_eq_some_iff.mp h
  have hspec := createOfferContents_spec hpre
  split at h
  · obtain ⟨_, _, _, _, _, _, _, _, hgroups, -, hcontents⟩ := bundleContents_spec h
    obtain rfl := getGroupByName_bundle hspec.groups hgroups (bundleGroup_semantics _ _) hg
    intro c hc
    rw [bundleGroup_all hspec.names_nodup, ← hcontents.map_eq setCryptos_name]
    exact List.mem_map_of_mem hc
  · obtain rfl := Option.some.inj h
    rw [SessionDescription.getGroupByName, hspec.groups] at hg
    cases hg

/-! ## Answers -/

/-- What the merge of an answer needs: no content that is not accepted shares a name with one that
is bundled, and when the first bundled content takes up no crypto no other one does. -/
structure MergeWorks (f : SessionFactory) (r : Runtime) (offer : SessionDescription)
    (options : MediaSessionOptions) : Prop where
  accepted : ∀ c ∈ firstContents offer, c.name ∈ bundledNames offer options →
    accepts options c = true
  cryptos : ∀ first ∈ (bundledNames offer options).head?, ∀ b ∈ answeredContent offer first,
    negotiatedCrypto f r offer options b = none → ∀ c ∈ firstContents offer,
      c.name ∈ bundledNames offer options → negotiatedCrypto f r offer options c = none

variable {offer : SessionDescription}

theorem Answered.cryptos_nil_iff (h : Answered f r offer options current c a) :
    a.description.cryptos = [] ↔ negotiatedCrypto f r offer options c = none := by
  have heq := h.cryptos_eq
  cases hk : negotiatedCrypto f r offer options c with
  | none =>
    rw [hk] at heq
    exact ⟨fun _ => rfl, fun _ => heq⟩
  | some k =>
    rw [hk] at heq
    obtain ⟨k', hsingle, -⟩ := heq
    rw [hsingle]
    exact ⟨nofun, nofun⟩

theorem forall_answered_iff {l l' : List ContentInfo} {P Q : ContentInfo → Prop}
    (h : List.Forall₂ (Answered f r offer options current) l l')
    (hPQ : ∀ c a, Answered f r offer options current c a → (P a ↔ Q c)) :
    (∀ a ∈ l', P a) ↔ ∀ c ∈ l, Q c := by
  induction h with
  | nil => simp
  | cons ha _ ih => rw [List.forall_mem_cons, List.forall_mem_cons, ih, hPQ _ _ ha]

variable {pre : SessionDescription}

theorem exists_accepted_of_bundled {b : ContentGroup} {n : Text}
    (hn : n ∈ (SessionFactory.answerGroup b pre.contents).contentNames) :
    ∃ a ∈ pre.contents, a.rejected = false ∧ a.name = n := by
  obtain ⟨a, ha, hp, hname⟩ := (mem_bundleGroup _ _ n).mp hn
  rw [Bool.and_eq_true, Bool.not_eq_true'] at hp
  exact ⟨a, ha, hp.1, hname⟩

theorem AnswerSpec.transport_isSome
    (hpre : AnswerSpec f r offer options current pre) (ha : a ∈ pre.contents)
    (haccepted : a.rejected = false) : (pre.getTransportInfoByName a.name).isSome = true := by
  have hmem : a.name ∈ transportNames pre := by
    rw [hpre.transports]
    exact List.mem_map_of_mem (List.mem_filter.mpr ⟨ha, by rw [haccepted]; rfl⟩)
  obtain ⟨t, ht, heq⟩ := List.mem_map.mp hmem
  exact List.find?_isSome.mpr ⟨t, ht, decide_eq_true heq⟩

theorem AnswerSpec.nodup_of_accepted
    (hpre : AnswerSpec f r offer options current pre) (p : Text → Bool)
    (haccepted : ∀ a ∈ pre.contents, p a.name = true → a.rejected = false) :
    ((pre.contents.filter fun a => p a.name).map ContentInfo.name).Nodup := by
  have hsame : (pre.contents.filter fun a => p a.name) =
      (pre.contents.filter fun a => !a.rejected).filter fun a => p a.name := by
    rw [List.filter_filter]
    refine List.filter_congr fun a ha => ?_
    by_cases hp : p a.name = true
    · rw [hp, haccepted a ha hp]
      rfl
    · rw [Bool.eq_false_iff.mpr hp]
      rfl
  rw [hsame]
  refine List.Nodup.sublist (List.filter_sublist.map _) ?_
  rw [← hpre.transports]
  exact hpre.distinct

theorem AnswerSpec.first_nil_iff (hpre : AnswerSpec f r offer options current pre) (first : Text) :
    getCryptosByName pre first = some [] ↔
      ∃ b ∈ answeredContent offer first, negotiatedCrypto f r offer options b = none := by
  have hrel := answeredContent_rel hpre first
  rw [getCryptosByName]
  generalize answeredContent offer first = oc at hrel
  generalize getContentByName pre first = oa at hrel
  cases hrel with
  | none => simp
  | @some c a hca => simp [hca.type, hca.cryptos_nil_iff]

theorem accepted_of_merged {pre answer : SessionDescription}
    {cryptos : List CryptoParams} (hmerged : MergedContents names cryptos pre answer)
    (haccepted : ∀ a ∈ answer.contents, a.name ∈ names → a.rejected = false) :
    ∀ a ∈ pre.contents, a.name ∈ names → a.rejected = false := by
  intro a ha hmem
  have hsame : answer.contents.map (fun c => (c.name, c.rejected)) =
      pre.contents.map fun c => (c.name, c.rejected) := by
    refine hmerged.map_eq fun cryptos c => ?_
    unfold setCryptos
    split <;> rfl
  have hpair : (a.name, a.rejected) ∈ answer.contents.map fun c => (c.name, c.rejected) := by
    rw [hsame]
    exact List.mem_map_of_mem ha
  obtain ⟨x, hx, heq⟩ := List.mem_map.mp hpair
  obtain ⟨hname, hrejected⟩ := Prod.mk.inj heq
  rw [← hrejected]
  exact haccepted x hx (hname ▸ hmem)

/-- **When an answer is consistent.** -/
theorem answer_consistent_iff {answer : SessionDescription}
    (h : f.createAnswer r offer options current = some answer)
    (hg : answer.getGroupByName groupTypeBundle = some g) :
    ∃ pre, f.createAnswerContents r offer options current = some pre ∧
      (Consistent pre answer g ↔ MergeWorks f r offer options) := by
  obtain ⟨pre, hcontents, hpre, hmerge⟩ := createAnswer_cases h
  refine ⟨pre, hcontents, ?_⟩
  cases hmerge with
  | none _ heq =>
    rw [heq, SessionDescription.getGroupByName, hpre.groups] at hg
    cases hg
  | bundle b hoffer hoptions hmerge =>
    obtain ⟨_, _, _, _, _, _, _, _, hgroups, -, hmerged⟩ := bundleContents_spec hmerge
    obtain rfl := getGroupByName_bundle hpre.groups hgroups (bundleGroup_semantics _ _) hg
    have hnames := answerGroup_names hpre hoffer hoptions
    have haccepted : (∀ a ∈ pre.contents, a.name ∈ bundledNames offer options →
        a.rejected = false) ↔ ∀ c ∈ firstContents offer, c.name ∈ bundledNames offer options →
          accepts options c = true := by
      refine forall_answered_iff hpre.contents fun c a ha => ?_
      rw [ha.name, ha.rejected, Bool.not_eq_false']
    have hnil : (∀ a ∈ pre.contents, a.name ∈ bundledNames offer options →
        a.description.cryptos = []) ↔ ∀ c ∈ firstContents offer,
          c.name ∈ bundledNames offer options → negotiatedCrypto f r offer options c = none := by
      refine forall_answered_iff hpre.contents fun c a ha => ?_
      rw [ha.name, ha.cryptos_nil_iff]
    by_cases hall : ∀ a ∈ pre.contents, a.name ∈ bundledNames offer options → a.rejected = false
    · have hrtp : ∀ a ∈ pre.contents, a.type = nsJingleRtp :=
        (forall_answered_iff hpre.contents fun c a ha =>
          (iff_true_intro ha.type : a.type = nsJingleRtp ↔ True)).mpr fun _ _ => trivial
      have hpresent : ∀ n ∈ (SessionFactory.answerGroup b pre.contents).contentNames,
          ∃ a ∈ pre.contents, a.name = n := by
        intro n hn
        obtain ⟨a, ha, -, hname⟩ := exists_accepted_of_bundled hn
        exact ⟨a, ha, hname⟩
      have htransports : ∀ n ∈ (SessionFactory.answerGroup b pre.contents).contentNames,
          (pre.getTransportInfoByName n).isSome = true := by
        intro n hn
        obtain ⟨a, ha, hacc, rfl⟩ := exists_accepted_of_bundled hn
        exact hpre.transport_isSome ha hacc
      have hall' := hall
      rw [← hnames] at hall'
      have hnodup := hpre.nodup_of_accepted
        (fun n => decide (n ∈ (SessionFactory.answerGroup b pre.contents).contentNames))
        fun a ha hp => hall' a ha (of_decide_eq_true hp)
      rw [consistent_iff_of_unique hmerge hrtp hpresent hall' hnodup htransports, hnames, hnil]
      constructor
      · intro hcond
        refine ⟨haccepted.mp hall, fun first hfirst b hb hnone => ?_⟩
        exact hcond first hfirst ((hpre.first_nil_iff first).mpr ⟨b, hb, hnone⟩)
      · rintro ⟨-, hcond⟩ first hfirst hempty
        obtain ⟨b, hb, hnone⟩ := (hpre.first_nil_iff first).mp hempty
        exact hcond first hfirst b hb hnone
    · constructor
      · intro hconsistent
        refine (hall ?_).elim
        have := accepted_of_merged hmerged hconsistent.accepted
        rwa [hnames] at this
      · intro hworks
        exact (hall (haccepted.mpr hworks.accepted)).elim

/-- **What a BUNDLE group shares.** Every offer is consistent. An answer is exactly when no content
that is not accepted shares a name with one that is bundled, and the first bundled content takes up
a crypto or none of them does. -/
theorem bundle_consistent_iff (f : SessionFactory) (r : Runtime)
    (options : MediaSessionOptions) (current : Option SessionDescription) :
    (∀ offer g, f.createOffer r options current = some offer →
        offer.getGroupByName groupTypeBundle = some g →
        ∃ pre, f.createOfferContents r options current = some pre ∧ Consistent pre offer g) ∧
      ∀ offer answer g, f.createAnswer r offer options current = some answer →
        answer.getGroupByName groupTypeBundle = some g →
        ∃ pre, f.createAnswerContents r offer options current = some pre ∧
          (Consistent pre answer g ↔ MergeWorks f r offer options) :=
  ⟨fun _ _ h hg => offer_consistent h hg, fun _ _ _ h hg => answer_consistent_iff h hg⟩

/-! ### An offer and two answers -/

theorem bundle_consistent_iff_sample :
    (∃ offer g, (plainFactory .enabled).createOffer (countingRuntime 0) (plainOptions true) none =
          some offer ∧ offer.getGroupByName groupTypeBundle = some g ∧
        ∃ pre, Consistent pre offer g) ∧
      ∃ answer g, (plainFactory .enabled).createAnswer (countingRuntime 0) (taggedOffer 1)
          (plainOptions true) none = some answer ∧
        answer.getGroupByName groupTypeBundle = some g ∧ ∃ pre, (Consistent pre answer g ↔
          MergeWorks (plainFactory .enabled) (countingRuntime 0) (taggedOffer 1)
            (plainOptions true)) := by
  have hmain := bundle_consistent_iff (plainFactory .enabled) (countingRuntime 0)
    (plainOptions true) none
  have hoffer : (((plainFactory .enabled).createOffer (countingRuntime 0) (plainOptions true)
      none).bind fun d => d.getGroupByName groupTypeBundle).isSome = true := by decide +kernel
  have hanswer : (((plainFactory .enabled).createAnswer (countingRuntime 0) (taggedOffer 1)
      (plainOptions true) none).bind fun d => d.getGroupByName groupTypeBundle).isSome = true := by
    decide +kernel
  obtain ⟨g, hg⟩ := Option.isSome_iff_exists.mp hoffer
  obtain ⟨offer, h, hg⟩ := Option.bind_eq_some_iff.mp hg
  obtain ⟨g', hg'⟩ := Option.isSome_iff_exists.mp hanswer
  obtain ⟨answer, h', hg'⟩ := Option.bind_eq_some_iff.mp hg'
  obtain ⟨pre, -, hconsistent⟩ := hmain.1 offer g h hg
  obtain ⟨pre', -, hiff⟩ := hmain.2 _ answer g' h' hg'
  exact ⟨⟨offer, g, h, hg, pre, hconsistent⟩, answer, g', h', hg', pre', hiff⟩

/-- An offer whose audio content has the suite that BUNDLE excludes. -/
def shortTagOffer : SessionDescription :=
  bundledOffer [taggedCrypto 1 csAesCm128HmacSha1_32] [taggedCrypto 1 csAesCm128HmacSha1_80]

theorem bundled_cryptos_differ :
    ((plainFactory .enabled).createAnswer (countingRuntime 0) shortTagOffer (plainOptions true)
          none).map SessionDescription.groups =
        some [⟨groupTypeBundle, ["audio".toList, "video".toList]⟩] ∧
      ((plainFactory .enabled).createAnswer (countingRuntime 0) shortTagOffer (plainOptions true)
          none).map cryptoTags =
        some [⟨"audio".toList, false, []⟩,
          ⟨"video".toList, false, [(1, csAesCm128HmacSha1_80)]⟩] := by
  decide +kernel

end Libjingle.Media
