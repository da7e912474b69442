import Libjingle.Media.BundleConsistency
import Libjingle.Media.SrtpRuns

/-!
# SDES key agreement

Two factories take turns in making offers and answers, and at each end every content has a filter
that is fed with the cryptos of both. Contents that are not accepted may be left alone, lose their
filter, or be fed all the same.

* **`keys_agree`**: after every round both ends of an accepted content have the same keys.
-/

namespace Libjingle.Media

open Lib Sdp

/-! ## Keys that can be parsed -/

/-- The key of a crypto can be parsed. -/
def GoodKey (k : CryptoParams) : Prop := (parseKeyParams k.keyParams).isSome = true

/-- All keys of a description can be parsed. -/
def GoodKeys (d : SessionDescription) : Prop :=
  ∀ c ∈ d.contents, ∀ k ∈ c.description.cryptos, GoodKey k

variable {k : CryptoParams}

theorem createCryptoParams_good {r : Runtime} {draw : Draw} {tag : I32} {cipher : Text}
    (h : createCryptoParams r draw tag cipher = some k) : GoodKey k := by
  obtain ⟨key, hkey, rfl⟩ := Option.map_eq_some_iff.mp h
  obtain ⟨hlen, hchars⟩ := RandomSource.string_spec hkey
  obtain ⟨bytes, hbytes, hdecode⟩ := Base64.decode_quanta Base64.doStrict (k := 10) hlen hchars
  have hparse : parseKeyParams ("inline:".toList ++ key) = some bytes := by
    have hprefix : "inline:".toList.isPrefixOf ("inline:".toList ++ key) = true := by
      rw [List.isPrefixOf_iff_prefix]
      exact List.prefix_append _ _
    have hdrop : ("inline:".toList ++ key).drop 7 = key := List.drop_left' rfl
    rw [parseKeyParams, if_pos hprefix, hdrop, hdecode]
    exact if_pos hbytes
  rw [GoodKey, hparse]
  rfl

variable {f : SessionFactory} {r : Runtime} {offer : SessionDescription}
  {options : MediaSessionOptions} {current : Option SessionDescription}

variable {cryptos : List CryptoParams}

theorem createMediaCryptos_good {type : MediaType} {l : List (Text × Nat)}
    (h : (l.mapM fun s => createCryptoParams r (.key type s.2) (BitVec.ofNat 32 s.2) s.1) =
      some cryptos) : ∀ k ∈ cryptos, GoodKey k := by
  induction l generalizing cryptos with
  | nil =>
    obtain rfl := Option.some.inj h
    nofun
  | cons s l ih =>
    rw [List.mapM_cons] at h
    obtain ⟨k, hk, h⟩ := Option.bind_eq_some_iff.mp h
    obtain ⟨rest, hrest, h⟩ := Option.bind_eq_some_iff.mp h
    obtain rfl := Option.some.inj h
    rw [List.forall_mem_cons]
    exact ⟨createCryptoParams_good hk, ih hrest⟩

theorem currentCryptos_good (hcurrent : ∀ d ∈ current, GoodKeys d) (type : MediaType) :
    ∀ k ∈ (currentCryptos current type).getD [], GoodKey k := by
  intro k hk
  rw [currentCryptos] at hk
  cases hfirst : current.bind fun d => d.getFirstMediaContent type with
  | none =>
    rw [hfirst] at hk
    cases hk
  | some c =>
    rw [hfirst] at hk
    obtain ⟨d, hd, hc⟩ := Option.bind_eq_some_iff.mp hfirst
    exact hcurrent d hd c (getFirst_spec hc).1 k hk

theorem Offered.good {kind : MediaType} {a : ContentInfo} (ha : Offered f r current kind a)
    (hcurrent : ∀ d ∈ current, GoodKeys d) : ∀ k ∈ a.description.cryptos, GoodKey k := by
  have hcryptos := ha.cryptos
  rw [offerCryptos] at hcryptos
  split at hcryptos
  · rw [← Option.some.inj hcryptos]
    exact List.forall_mem_nil _
  · split at hcryptos
    · exact createMediaCryptos_good hcryptos
    · rw [← Option.some.inj hcryptos]
      exact currentCryptos_good hcurrent kind

theorem Answered.good {c a : ContentInfo} (ha : Answered f r offer options current c a)
    (hcurrent : ∀ d ∈ current, GoodKeys d) : ∀ k ∈ a.description.cryptos, GoodKey k := by
  rw [ha.cryptos, answerCryptos]
  split
  · exact List.forall_mem_nil _
  · intro k hk
    rw [Option.mem_toList] at hk
    obtain ⟨new, hnew, rfl⟩ := Option.map_eq_some_iff.mp hk
    obtain ⟨selected, -, hmade⟩ := Option.bind_eq_some_iff.mp hnew
    rw [findMatchingCrypto]
    cases hfind : ((currentCryptos current c.description.type).getD []).find?
        (cryptoMatches new) with
    | none => exact createCryptoParams_good hmade
    | some x => exact currentCryptos_good hcurrent _ x (List.mem_of_find?_eq_some hfind)

variable {contents : List ContentInfo}

theorem mem_mapFirsts {p : Text → Bool} {g : ContentInfo → ContentInfo}
    {x : ContentInfo} (h : x ∈ mapFirsts p g contents) : ∃ c ∈ contents, x = c ∨ x = g c := by
  induction contents generalizing p with
  | nil => cases h
  | cons c rest ih =>
    rcases List.mem_cons.mp h with rfl | h
    · refine ⟨c, List.mem_cons_self, ?_⟩
      split
      · exact .inr rfl
      · exact .inl rfl
    · obtain ⟨c', hc', hx⟩ := ih h
      exact ⟨c', List.mem_cons_of_mem _ hc', hx⟩

variable {d : SessionDescription} {n : Text}

theorem mem_of_getCryptosByName (h : getCryptosByName d n = some cryptos) :
    ∃ c ∈ d.contents, c.name = n ∧ c.description.cryptos = cryptos := by
  rw [getCryptosByName] at h
  split at h
  · rename_i c hc
    split at h
    · have hname : c.name = n := by simpa using List.find?_some hc
      exact ⟨c, List.mem_of_find?_eq_some hc, hname, Option.some.inj h⟩
    · cases h
  · cases h

variable {P : CryptoParams → Prop}

theorem bundleContents_forall {g : ContentGroup}
    {d d' : SessionDescription} (h : bundleContents g d = some d')
    (hd : ∀ c ∈ d.contents, ∀ k ∈ c.description.cryptos, P k) :
    ∀ c ∈ d'.contents, ∀ k ∈ c.description.cryptos, P k := by
  obtain ⟨first, names, info, cryptos, -, -, hcryptos, -, -, -, hcontents⟩ := bundleContents_spec h
  obtain ⟨c₀, hc₀, -, rfl⟩ := mem_of_getCryptosByName hcryptos
  cases hcontents with
  | kept _ hsame =>
    rw [hsame]
    exact hd
  | merged common hcommon _ hsame =>
    rw [hsame]
    intro x hx k hk
    obtain ⟨c, hc, rfl | rfl⟩ := mem_mapFirsts hx
    · exact hd x hc k hk
    · rw [setCryptos] at hk
      split at hk
      · rw [hcommon] at hk
        exact hd c₀ hc₀ k (List.mem_of_mem_filter hk)
      · exact hd c hc k hk

theorem createOffer_good (h : f.createOffer r options current = some offer)
    (hcurrent : ∀ d ∈ current, GoodKeys d) : GoodKeys offer := by
  obtain ⟨pre, hpre, h⟩ := Option.bind_eq_some_iff.mp h
  have hgood : GoodKeys pre := by
    intro c hc
    obtain ⟨type, ho⟩ := Offered.of_mem (createOfferContents_spec hpre).contents hc
    exact ho.good hcurrent
  split at h
  · exact bundleContents_forall h hgood
  · exact Option.some.inj h ▸ hgood

variable {answer : SessionDescription}

theorem createAnswer_forall (h : f.createAnswer r offer options current = some answer)
    (hP : ∀ c a, Answered f r offer options current c a → ∀ k ∈ a.description.cryptos, P k) :
    ∀ a ∈ answer.contents, ∀ k ∈ a.description.cryptos, P k := by
  obtain ⟨pre, -, hpre, hmerge⟩ := createAnswer_cases h
  have hbefore : ∀ a ∈ pre.contents, ∀ k ∈ a.description.cryptos, P k :=
    (forall_answered_iff hpre.contents fun c a ha =>
      (iff_true_intro (hP c a ha) : (∀ k ∈ a.description.cryptos, P k) ↔ True)).mpr
        fun _ _ => trivial
  cases hmerge with
  | none _ heq => exact heq ▸ hbefore
  | bundle b _ _ hmerge => exact bundleContents_forall hmerge hbefore

theorem createAnswer_good (h : f.createAnswer r offer options current = some answer)
    (hcurrent : ∀ d ∈ current, GoodKeys d) : GoodKeys answer :=
  createAnswer_forall h fun _ _ ha => ha.good hcurrent

theorem createAnswer_supported (h : f.createAnswer r offer options current = some answer) :
    ∀ a ∈ answer.contents, ∀ k ∈ a.description.cryptos, supportedSuite k.cipherSuite = true := by
  refine createAnswer_forall h fun c a ha k hk => ?_
  have heq := ha.cryptos_eq
  cases hneg : negotiatedCrypto f r offer options c with
  | none =>
    rw [hneg] at heq
    rw [heq] at hk
    cases hk
  | some selected =>
    rw [hneg] at heq
    obtain ⟨k', hsingle, hmatch⟩ := heq
    rw [hsingle, List.mem_singleton] at hk
    rw [hk, (cryptoMatches_iff.mp hmatch).2]
    exact negotiatedCrypto_supported hneg

/-! ## What an answer takes up -/

theorem createOffer_uniform (h : f.createOffer r options current = some offer)
    (hgroup : (offer.getGroupByName groupTypeBundle).isSome = true) :
    ∀ c ∈ offer.contents, ∀ c' ∈ offer.contents,
      c.description.cryptos = c'.description.cryptos := by
  obtain ⟨g, hg⟩ := Option.isSome_iff_exists.mp hgroup
  obtain ⟨pre, hpre, hconsistent⟩ := offer_consistent h hg
  obtain ⟨cryptos, hshared, -⟩ := hconsistent.cryptos
  have hmem : ∀ c ∈ offer.contents, c.name ∈ g.contentNames := offer_all_bundled h hg
  intro c hc c' hc'
  rw [hshared c hc (hmem c hc), hshared c' hc' (hmem c' hc')]

/-- When all contents of a bundled offer have the same cryptos, every content of an answer takes up
its own, whether it is accepted or not. -/
theorem answer_fromOffer_of_uniform (h : f.createAnswer r offer options current = some answer)
    (huniform : (offer.getGroupByName groupTypeBundle).isSome = true →
      ∀ c ∈ offer.contents, ∀ c' ∈ offer.contents,
        c.description.cryptos = c'.description.cryptos) :
    List.Forall₂ (fun c a => a.name = c.name ∧ FromOffer c a) (firstContents offer)
      answer.contents := by
  obtain ⟨pre, hpre, hmerge⟩ := createAnswer_merge h
  have hmem : ∀ {n c}, answeredContent offer n = some c → c ∈ offer.contents := fun hc =>
    (getFirst_spec (mem_firstContents.mp (List.mem_of_find?_eq_some hc))).1
  cases hmerge with
  | kept _ hsame =>
    rw [hsame]
    exact hpre.contents.imp fun c a ha => ⟨ha.name, ha.fromOffer⟩
  | @merged first c₀ k k' hfirst hc₀ hk hmatch hsame =>
    have hgroup : (offer.getGroupByName groupTypeBundle).isSome = true := by
      cases hoffer : offer.getGroupByName groupTypeBundle with
      | none =>
        rw [bundledNames, hoffer] at hfirst
        cases hfirst
      | some b => rfl
    rw [hsame, forall₂_mapFirsts (fun ha => ha.name) (fun ha => ⟨ha.name, ha.fromOffer⟩)
      hpre.contents]
    intro n c a _ hc ha
    have hca := answered_of_find hpre hc ha
    rw [setCryptos_media hca.type]
    refine ⟨hca.name, (fromOffer_singleton rfl).mpr ⟨k, ?_, hmatch⟩⟩
    rw [huniform hgroup c (hmem hc) c₀ (hmem hc₀)]
    exact negotiatedCrypto_mem hk

/-! ## The filters -/

namespace SrtpFilter

/-- A filter that is not in the middle of a negotiation. -/
def Settled (f : SrtpFilter) : Prop := f.state = .init ∨ f.state = .active

/-- What libsrtp answers when it creates a session with a key. -/
def srtpResults (created : SrtpKey → Bool) (f : SrtpFilter) (params : List CryptoParams)
    (source : ContentSource) : SrtpResults :=
  match f.answerKeys params source with
  | some (send, recv) => ⟨created send, created recv⟩
  | none => ⟨true, true⟩

/-- An offer and its answer, for the end that makes the offer or for the other one. -/
def exchange (created : SrtpKey → Bool) (f : SrtpFilter) (offer answer : List CryptoParams)
    (offers : Bool) : Bool × SrtpFilter :=
  let offerSource : ContentSource := if offers then .csLocal else .csRemote
  let answerSource : ContentSource := if offers then .csRemote else .csLocal
  let (accepted, f) := f.setOffer offer offerSource
  let (answered, f) :=
    f.setAnswer answer answerSource (srtpResults created f answer answerSource)
  (accepted && answered, f)

theorem setOffer_settled {f : SrtpFilter} (h : f.Settled) (params : List CryptoParams)
    (source : ContentSource) :
    f.setOffer params source = (true, f.storeParams params source) := by
  have hexpect : f.expectOffer source = true := by
    rcases h with h | h <;> rw [expectOffer, h]
  rw [setOffer, if_pos hexpect]

theorem expectAnswer_storeParams (f : SrtpFilter) (params : List CryptoParams) (offers : Bool) :
    (f.storeParams params (if offers then .csLocal else .csRemote)).expectAnswer
      (if offers then .csRemote else .csLocal) = true := by
  by_cases h : f.state = .init <;> cases offers <;> simp [storeParams, h, expectAnswer]

theorem exchange_eq (created : SrtpKey → Bool) {f : SrtpFilter} (h : f.Settled)
    (offer answer : List CryptoParams) (offers : Bool) :
    f.exchange created offer answer offers =
      (f.storeParams offer (if offers then .csLocal else .csRemote)).doSetAnswer answer
        (if offers then .csRemote else .csLocal) true
        (srtpResults created (f.storeParams offer (if offers then .csLocal else .csRemote)) answer
          (if offers then .csRemote else .csLocal)) := by
  rw [exchange, setOffer_settled h]
  rfl

theorem exchange_nil (created : SrtpKey → Bool) {f : SrtpFilter} (h : f.Settled)
    (offer : List CryptoParams) (offers : Bool) :
    f.exchange created offer [] offers = (true, { f with offerParams := [], state := .init }) := by
  rw [exchange_eq created h]
  rcases doSetAnswer_cases (f.storeParams offer (if offers then .csLocal else .csRemote)) []
    (if offers then .csRemote else .csLocal) true _ with
    ⟨-, -, heq⟩ | ⟨_, -, hne, -⟩ | ⟨_, -, hne, -⟩ | ⟨hno, -⟩
  · rw [heq]
    rfl
  · exact (hne rfl).elim
  · exact (hne rfl).elim
  · exact ((hno (expectAnswer_storeParams f offer offers)).1 rfl).elim

theorem parseKeyParams_length {text : Text} {key : List U8} (h : parseKeyParams text = some key) :
    key.length = srtpMasterKeyLen := by
  rw [parseKeyParams] at h
  split at h
  · split at h
    · split at h
      · rename_i hlen
        rw [← Option.some.inj h]
        exact hlen
      · cases h
    · cases h
  · cases h

/-- The keys of the send and the receive session, for the end that makes the offer or for the other
one. -/
def endKeys (offered answered : SrtpKey) (offers : Bool) : SrtpKey × SrtpKey :=
  if offers then (offered, answered) else (answered, offered)

/-- **An answer that takes up a crypto keys both sessions.** -/
theorem exchange_single {created : SrtpKey → Bool}
    (hcreated : ∀ k, supportedSuite k.cipherSuite = true → k.key.length = srtpMasterKeyLen →
      created k = true)
    {f : SrtpFilter} (h : f.Settled) {offer : List CryptoParams} {answer selected : CryptoParams}
    (hselected : offer.find? (cryptoMatches answer) = some selected)
    (hsupported : supportedSuite answer.cipherSuite = true) {offered answered : List U8}
    (hoffered : parseKeyParams selected.keyParams = some offered)
    (hanswered : parseKeyParams answer.keyParams = some answered) (offers : Bool) :
    f.exchange created offer [answer] offers =
      (true, { f with
        offerParams := [], state := .active
        sendSession := some ⟨some (endKeys ⟨answer.cipherSuite, offered⟩
          ⟨answer.cipherSuite, answered⟩ offers).1⟩
        recvSession := some ⟨some (endKeys ⟨answer.cipherSuite, offered⟩
          ⟨answer.cipherSuite, answered⟩ offers).2⟩ }) := by
  have hsuite : selected.cipherSuite = answer.cipherSuite := by
    have hmatch := List.find?_some hselected
    rw [cryptoMatches_iff] at hmatch
    exact hmatch.2.symm
  have hkeys : (f.storeParams offer (if offers then .csLocal else .csRemote)).answerKeys [answer]
      (if offers then .csRemote else .csLocal) =
      some (endKeys ⟨answer.cipherSuite, offered⟩ ⟨answer.cipherSuite, answered⟩ offers) := by
    have hneg : ∀ source, (f.storeParams offer source).negotiateParams [answer] = some selected :=
      fun _ => hselected
    cases offers
    · simp [answerKeys, sessionParams, hneg, hoffered, hanswered, hsuite, endKeys]
    · simp [answerKeys, sessionParams, hneg, hoffered, hanswered, hsuite, endKeys]
  have hok : ∀ key : List U8, key.length = srtpMasterKeyLen →
      keyable ⟨answer.cipherSuite, key⟩ (created ⟨answer.cipherSuite, key⟩) = true := by
    intro key hlen
    rw [keyable, hsupported, hcreated _ hsupported hlen, Bool.true_and, Bool.and_true]
    exact decide_eq_true hlen
  have hkeyable : Keyable (endKeys ⟨answer.cipherSuite, offered⟩ ⟨answer.cipherSuite, answered⟩
      offers) (srtpResults created (f.storeParams offer
        (if offers then .csLocal else .csRemote)) [answer]
        (if offers then .csRemote else .csLocal)) := by
    rw [srtpResults, hkeys]
    have hboth := And.intro (hok offered (parseKeyParams_length hoffered))
      (hok answered (parseKeyParams_length hanswered))
    cases offers
    · exact hboth.symm
    · exact hboth
  rw [exchange_eq created h]
  rcases doSetAnswer_cases (f.storeParams offer (if offers then .csLocal else .csRemote)) [answer]
    (if offers then .csRemote else .csLocal) true (srtpResults created (f.storeParams offer
      (if offers then .csLocal else .csRemote)) [answer]
      (if offers then .csRemote else .csLocal)) with
    ⟨-, hnil, -⟩ | ⟨keys, -, -, hk, -, heq⟩ | ⟨keys, -, -, hk, hno, -⟩ | ⟨hno, -⟩
  · cases hnil
  · rw [hkeys] at hk
    obtain rfl := Option.some.inj hk
    rw [heq]
    rfl
  · rw [hkeys] at hk
    obtain rfl := Option.some.inj hk
    exact (hno hkeyable).elim
  · have hnone := (hno (expectAnswer_storeParams f offer offers)).2
    rw [hkeys] at hnone
    cases hnone

end SrtpFilter

/-! ## Rounds -/

inductive Peer where
  | one
  | two
  deriving DecidableEq

def Peer.other : Peer → Peer
  | .one => .two
  | .two => .one

/-- What becomes of the filter of a content that is not accepted: it stays, goes with its channel,
or is fed all the same. -/
inductive Unaccepted where
  | kept
  | destroyed
  | fed
  deriving DecidableEq

/-- An end: its current local description and the filters of its contents. -/
structure Side where
  description : Option SessionDescription
  filters : Text → SrtpFilter

structure Round where
  offerer : Peer
  offerOptions : MediaSessionOptions
  answerOptions : MediaSessionOptions
  offerRandom : Runtime
  answerRandom : Runtime
  unaccepted : Peer → Text → Unaccepted

section

variable (factory : Peer → SessionFactory) (created : SrtpKey → Bool)

/-- The offer and the answer of a round, when both can be made. -/
def roundDescriptions (sides : Peer → Side) (round : Round) :
    Option (SessionDescription × SessionDescription) :=
  ((factory round.offerer).createOffer round.offerRandom round.offerOptions
    (sides round.offerer).description).bind fun offer =>
      ((factory round.offerer.other).createAnswer round.answerRandom offer round.answerOptions
        (sides round.offerer.other).description).map fun answer => (offer, answer)

def cryptosOf (d : SessionDescription) (name : Text) : List CryptoParams :=
  (getCryptosByName d name).getD []

/-- A filter is fed with the cryptos of its content. -/
def feed (offer answer : SessionDescription) (name : Text) (offers : Bool) (f : SrtpFilter) :
    Bool × SrtpFilter :=
  f.exchange created (cryptosOf offer name) (cryptosOf answer name) offers

/-- The filter of a content after a round. -/
def filterAfter (offer answer : SessionDescription) (unaccepted : Unaccepted) (name : Text)
    (offers : Bool) (f : SrtpFilter) : SrtpFilter :=
  if (getContentByName answer name).any fun a => !a.rejected then
    (feed created offer answer name offers f).2
  else
    match unaccepted with
    | .kept => f
    | .destroyed => .new
    | .fed => (feed created offer answer name offers f).2

/-- The end `peer` after a round. -/
def sideAfter (sides : Peer → Side) (round : Round) (offer answer : SessionDescription)
    (peer : Peer) : Side :=
  let offers := peer = round.offerer
  ⟨some (if offers then offer else answer), fun name =>
    filterAfter created offer answer (round.unaccepted peer name) name offers
      ((sides peer).filters name)⟩

/-- Both ends after a round in which both creations succeed. -/
def play (sides : Peer → Side) (round : Round) : Option (Peer → Side) :=
  (roundDescriptions factory sides round).map fun d => sideAfter created sides round d.1 d.2

def run (rounds : List Round) (sides : Peer → Side) : Option (Peer → Side) :=
  rounds.foldlM (play factory created) sides

/-- Both ends before the first round. -/
def newSides : Peer → Side := fun _ => ⟨none, fun _ => .new⟩

end

/-! ## One round -/

theorem Offered.kinds {types : List MediaType}
    (h : List.Forall₂ (Offered f r current) types contents) :
    contents.map (fun c => (c.type, c.description.type)) = types.map fun t => (nsJingleRtp, t) := by
  induction h with
  | nil => rfl
  | cons ha _ ih => rw [List.map_cons, List.map_cons, ih, ha.type, ha.mediaType]

theorem createOffer_kinds (h : f.createOffer r options current = some offer) :
    offer.contents.map (fun c => (c.type, c.description.type)) =
      (selectedTypes options).map fun t => (nsJingleRtp, t) := by
  obtain ⟨pre, hpre, h⟩ := Option.bind_eq_some_iff.mp h
  have hspec := createOfferContents_spec hpre
  rw [← Offered.kinds hspec.contents]
  split at h
  · obtain ⟨_, _, _, _, _, _, _, _, _, -, hcontents⟩ := bundleContents_spec h
    refine hcontents.map_eq fun cryptos c => ?_
    unfold setCryptos
    split <;> rfl
  · rw [Option.some.inj h]

theorem createOffer_rtp (h : f.createOffer r options current = some offer) :
    ∀ c ∈ offer.contents, c.type = nsJingleRtp := by
  intro c hc
  have hmem : (c.type, c.description.type) ∈
      offer.contents.map fun c => (c.type, c.description.type) := List.mem_map_of_mem hc
  rw [createOffer_kinds h] at hmem
  obtain ⟨t, -, heq⟩ := List.mem_map.mp hmem
  exact (Prod.mk.inj heq).1.symm

theorem createOffer_firstContents (h : f.createOffer r options current = some offer) :
    firstContents offer = offer.contents := by
  refine firstContents_eq_self (createOffer_rtp h) ?_
  have hkinds := congrArg (List.map Prod.snd) (createOffer_kinds h)
  rw [List.map_map, List.map_map] at hkinds
  have htypes : offer.contents.map (fun c => c.description.type) = selectedTypes options := by
    refine Eq.trans hkinds ?_
    exact List.map_id _
  rw [htypes]
  exact List.filter_sublist

theorem negotiateParams_eq_some {filter : SrtpFilter} {params : List CryptoParams}
    {selected : CryptoParams} (h : filter.negotiateParams params = some selected) :
    ∃ k, params = [k] ∧ filter.offerParams.find? (cryptoMatches k) = some selected := by
  match params, h with
  | [k], h => exact ⟨k, rfl, h⟩

variable {f' : SessionFactory} {r' : Runtime} {options' : MediaSessionOptions}
  {current' : Option SessionDescription}

theorem round_takes_up (h : f.createOffer r options current = some offer)
    (h' : f'.createAnswer r' offer options' current' = some answer) (n : Text) :
    cryptosOf answer n = [] ∨ ∃ k selected, cryptosOf answer n = [k] ∧
      (cryptosOf offer n).find? (cryptoMatches k) = some selected := by
  have hall := answer_fromOffer_of_uniform h' fun hgroup => createOffer_uniform h hgroup
  rw [createOffer_firstContents h] at hall
  have hrel := forall₂_find (fun ha => ha.1) hall n
  cases hfound : getContentByName answer n with
  | none =>
    left
    rw [cryptosOf, getCryptosByName, hfound]
    rfl
  | some a =>
    rw [getContentByName] at hfound
    rw [hfound] at hrel
    generalize hoffered : offer.contents.find? (fun c => c.name = n) = oc at hrel
    cases hrel with
    | @some c _ hca =>
      have hoffer : cryptosOf offer n = c.description.cryptos := by
        rw [cryptosOf, getCryptosByName, getContentByName, hoffered]
        simp [createOffer_rtp h c (List.mem_of_find?_eq_some hoffered)]
      rw [hoffer, cryptosOf, getCryptosByName, getContentByName, hfound]
      dsimp only
      by_cases hrtp : a.type = nsJingleRtp
      · rw [if_pos hrtp, Option.getD_some]
        by_cases hnil : a.description.cryptos = []
        · exact .inl hnil
        · right
          obtain ⟨selected, hsel⟩ := Option.isSome_iff_exists.mp
            (hca.2.2 hnil ⟨.init, c.description.cryptos, none, none⟩ rfl)
          obtain ⟨k, heq, hfind⟩ := negotiateParams_eq_some hsel
          exact ⟨k, selected, heq, hfind⟩
      · exact .inl (by rw [if_neg hrtp]; rfl)

theorem mem_cryptosOf (h : k ∈ cryptosOf d n) : ∃ c ∈ d.contents, k ∈ c.description.cryptos := by
  rw [cryptosOf] at h
  cases hcryptos : getCryptosByName d n with
  | none =>
    rw [hcryptos] at h
    cases h
  | some cryptos =>
    rw [hcryptos] at h
    obtain ⟨c, hc, -, rfl⟩ := mem_of_getCryptosByName hcryptos
    exact ⟨c, hc, h⟩

/-- Both ends are in the same state, and each receives with the key that the other one sends with.
-/
structure Agrees (x y : SrtpFilter) : Prop where
  status : x.isActive = y.isActive
  keys : x.isActive = true → ∃ there back : SrtpKey, there.cipherSuite = back.cipherSuite ∧
    x.sendSession = some ⟨some there⟩ ∧ y.recvSession = some ⟨some there⟩ ∧
    y.sendSession = some ⟨some back⟩ ∧ x.recvSession = some ⟨some back⟩

theorem feed_agrees {created : SrtpKey → Bool}
    (hcreated : ∀ k, supportedSuite k.cipherSuite = true → k.key.length = srtpMasterKeyLen →
      created k = true)
    (h : f.createOffer r options current = some offer)
    (h' : f'.createAnswer r' offer options' current' = some answer) (hgood : GoodKeys offer)
    (hgood' : GoodKeys answer) (n : Text) {x y : SrtpFilter} (hx : x.Settled) (hy : y.Settled) :
    (feed created offer answer n true x).1 = true ∧ (feed created offer answer n false y).1 = true ∧
      (feed created offer answer n true x).2.Settled ∧
      (feed created offer answer n false y).2.Settled ∧
      Agrees (feed created offer answer n true x).2 (feed created offer answer n false y).2 := by
  rcases round_takes_up h h' n with hnil | ⟨k, selected, hsingle, hselected⟩
  · rw [feed, feed, hnil, SrtpFilter.exchange_nil created hx, SrtpFilter.exchange_nil created hy]
    exact ⟨rfl, rfl, .inl rfl, .inl rfl, rfl, nofun⟩
  · obtain ⟨a, ha, hk⟩ := mem_cryptosOf (hsingle ▸ List.mem_singleton_self k)
    obtain ⟨c, hc, hsel⟩ := mem_cryptosOf (List.mem_of_find?_eq_some hselected)
    obtain ⟨offered, hoffered⟩ := Option.isSome_iff_exists.mp (hgood c hc selected hsel)
    obtain ⟨answered, hanswered⟩ := Option.isSome_iff_exists.mp (hgood' a ha k hk)
    have hsupported := createAnswer_supported h' a ha k hk
    rw [feed, feed, hsingle,
      SrtpFilter.exchange_single hcreated hx hselected hsupported hoffered hanswered,
      SrtpFilter.exchange_single hcreated hy hselected hsupported hoffered hanswered]
    exact ⟨rfl, rfl, .inr rfl, .inr rfl, rfl, fun _ => ⟨⟨k.cipherSuite, offered⟩,
      ⟨k.cipherSuite, answered⟩, rfl, rfl, rfl, rfl, rfl⟩⟩

/-! ## All rounds -/

/-- Every key can be parsed, and no filter is in the middle of a negotiation. -/
structure Ready (sides : Peer → Side) : Prop where
  keys : ∀ p, ∀ d ∈ (sides p).description, GoodKeys d
  filters : ∀ p n, ((sides p).filters n).Settled

theorem ready_newSides : Ready newSides :=
  ⟨fun _ _ => nofun, fun _ _ => .inl rfl⟩

variable {factory : Peer → SessionFactory} {created : SrtpKey → Bool}

theorem filterAfter_settled {offer answer : SessionDescription} {unaccepted : Unaccepted}
    {offers : Bool} {f : SrtpFilter} (hf : f.Settled)
    (hfed : (feed created offer answer n offers f).2.Settled) :
    (filterAfter created offer answer unaccepted n offers f).Settled := by
  unfold filterAfter
  split
  · exact hfed
  · cases unaccepted with
    | kept => exact hf
    | destroyed => exact .inl rfl
    | fed => exact hfed

variable {sides : Peer → Side} {round : Round}

theorem roundDescriptions_eq_some {offer answer : SessionDescription}
    (h : roundDescriptions factory sides round = some (offer, answer)) :
    (factory round.offerer).createOffer round.offerRandom round.offerOptions
        (sides round.offerer).description = some offer ∧
      (factory round.offerer.other).createAnswer round.answerRandom offer round.answerOptions
        (sides round.offerer.other).description = some answer := by
  obtain ⟨offer', hoffer, hmap⟩ := Option.bind_eq_some_iff.mp h
  obtain ⟨answer', hanswer, hpair⟩ := Option.map_eq_some_iff.mp hmap
  obtain ⟨rfl, rfl⟩ := Prod.mk.inj hpair
  exact ⟨hoffer, hanswer⟩

variable {sides' : Peer → Side}

/-- **One round.** -/
theorem play_ready
    (hcreated : ∀ k, supportedSuite k.cipherSuite = true → k.key.length = srtpMasterKeyLen →
      created k = true)
    (hsides : Ready sides)
    (h : play factory created sides round = some sides') : Ready sides' := by
  obtain ⟨⟨offer, answer⟩, hd, rfl⟩ := Option.map_eq_some_iff.mp h
  obtain ⟨hoffer, hanswer⟩ := roundDescriptions_eq_some hd
  have hgood := createOffer_good hoffer (hsides.keys _)
  have hgood' := createAnswer_good hanswer (hsides.keys _)
  refine ⟨fun p d hmem => ?_, fun p n => ?_⟩
  · obtain rfl := Option.some.inj hmem
    split
    · exact hgood
    · exact hgood'
  · have hfed := feed_agrees hcreated hoffer hanswer hgood hgood' n (hsides.filters p n)
      (hsides.filters p n)
    refine filterAfter_settled (hsides.filters p n) ?_
    cases decide (p = round.offerer) with
    | true => exact hfed.2.2.1
    | false => exact hfed.2.2.2.1

theorem run_ready
    (hcreated : ∀ k, supportedSuite k.cipherSuite = true → k.key.length = srtpMasterKeyLen →
      created k = true)
    {rounds : List Round} (hsides : Ready sides)
    (h : run factory created rounds sides = some sides') : Ready sides' := by
  induction rounds generalizing sides with
  | nil => exact Option.some.inj h ▸ hsides
  | cons round rounds ih =>
    obtain ⟨sides₁, h₁, h⟩ := Option.bind_eq_some_iff.mp h
    exact ih (play_ready hcreated hsides h₁) h

theorem round_names_nodup (h : f.createOffer r options current = some offer)
    (h' : f'.createAnswer r' offer options' current' = some answer) :
    (answer.contents.map ContentInfo.name).Nodup := by
  have hnames : answer.contents.map ContentInfo.name = offer.contents.map ContentInfo.name := by
    have hsections := congrArg (List.map Prod.fst) (answer_sections h')
    rw [createOffer_firstContents h, List.map_map, List.map_map] at hsections
    exact hsections
  rw [hnames]
  obtain ⟨pre, hpre, h⟩ := Option.bind_eq_some_iff.mp h
  have hnodup := (createOfferContents_spec hpre).names_nodup
  split at h
  · obtain ⟨_, _, _, _, _, _, _, _, _, -, hcontents⟩ := bundleContents_spec h
    rw [hcontents.map_eq setCryptos_name]
    exact hnodup
  · exact Option.some.inj h ▸ hnodup

theorem Peer.other_ne (p : Peer) : p.other ≠ p := by
  cases p <;> decide

/-- **SDES key agreement.** Whatever rounds went before, when the offer and the answer of a round
can be made, at each content that is accepted both filters accept the offer and the answer, are
active or not together, and when they are active each one receives with the key that the other one
sends with. -/
theorem keys_agree (factory : Peer → SessionFactory) (created : SrtpKey → Bool)
    (hcreated : ∀ k, supportedSuite k.cipherSuite = true → k.key.length = srtpMasterKeyLen →
      created k = true)
    (rounds : List Round) (sides : Peer → Side)
    (hrun : run factory created rounds newSides = some sides) (round : Round)
    (offer answer : SessionDescription)
    (hround : roundDescriptions factory sides round = some (offer, answer)) (a : ContentInfo)
    (ha : a ∈ answer.contents) (haccepted : a.rejected = false) :
    (feed created offer answer a.name true ((sides round.offerer).filters a.name)).1 = true ∧
      (feed created offer answer a.name false
        ((sides round.offerer.other).filters a.name)).1 = true ∧
      Agrees ((sideAfter created sides round offer answer round.offerer).filters a.name)
        ((sideAfter created sides round offer answer round.offerer.other).filters a.name) := by
  have hready := run_ready hcreated ready_newSides hrun
  obtain ⟨hoffer, hanswer⟩ := roundDescriptions_eq_some hround
  have hfed := feed_agrees hcreated hoffer hanswer (createOffer_good hoffer (hready.keys _))
    (createAnswer_good hanswer (hready.keys _)) a.name (hready.filters round.offerer a.name)
    (hready.filters round.offerer.other a.name)
  refine ⟨hfed.1, hfed.2.1, ?_⟩
  have hactive : ((getContentByName answer a.name).any fun a => !a.rejected) = true := by
    rw [getContentByName, find_of_mem (round_names_nodup hoffer hanswer) ha, Option.any_some,
      haccepted]
    rfl
  have hother := decide_eq_false (Peer.other_ne round.offerer)
  simp only [sideAfter, filterAfter, hactive, if_true, decide_true, hother]
  exact hfed.2.2.2.2

/-! ### Two rounds -/

/-- A round with or without BUNDLE. -/
def plainRound (offerer : Peer) (bundle : Bool) (seed : Nat) : Round :=
  ⟨offerer, plainOptions bundle, plainOptions bundle, countingRuntime seed,
    countingRuntime (seed + 1), fun _ _ => .kept⟩

theorem keys_agree_secondRound :
    ∃ sides offer answer a,
      run (fun _ => plainFactory .required) (fun _ => true) [plainRound .one true 0] newSides =
        some sides ∧
      roundDescriptions (fun _ => plainFactory .required) sides (plainRound .two true 2) =
        some (offer, answer) ∧ a ∈ answer.contents ∧ a.rejected = false ∧
      ((sideAfter (fun _ => true) sides (plainRound .two true 2) offer answer .two).filters
        a.name).isActive = true ∧
      Agrees ((sideAfter (fun _ => true) sides (plainRound .two true 2) offer answer .two).filters
          a.name)
        ((sideAfter (fun _ => true) sides (plainRound .two true 2) offer answer .one).filters
          a.name) := by
  have hsome : ((run (fun _ => plainFactory .required) (fun _ => true) [plainRound .one true 0]
      newSides).any fun sides => (roundDescriptions (fun _ => plainFactory .required) sides
        (plainRound .two true 2)).any fun d => d.2.contents.any fun a => !a.rejected &&
          ((sideAfter (fun _ => true) sides (plainRound .two true 2) d.1 d.2 .two).filters
            a.name).isActive) = true := by
    decide +kernel
  obtain ⟨sides, hrun, hsome⟩ := (Option.any_eq_true _ _).mp hsome
  obtain ⟨⟨offer, answer⟩, hround, hsome⟩ := (Option.any_eq_true _ _).mp hsome
  obtain ⟨a, ha, hboth⟩ := List.any_eq_true.mp hsome
  rw [Bool.and_eq_true, Bool.not_eq_true'] at hboth
  exact ⟨sides, offer, answer, a, hrun, hround, ha, hboth.1, hboth.2,
    (keys_agree _ _ (fun _ _ _ => rfl) _ sides hrun _ offer answer hround a ha hboth.1).2.2⟩

end Libjingle.Media
