import Libjingle.Base.Helpers
import Libjingle.Media.Codecs
import Libjingle.Media.SrtpFilter
import Libjingle.Sdp.Deserialize
import Libjingle.Lib.Objects

/-!
# The session factory (`session/media/mediasession.cc`, `p2p/base/transportdescriptionfactory.cc`)

How offers and answers are made: for each of the three kinds of media a content with codecs,
streams, cryptos and a transport, and in the end a merge of what a BUNDLE group has to share. The
build has SRTP, and the factory has a transport factory.

What the random generator delivers and what `std::sort` makes of codecs are parameters of each
call. The draws are named by the place where their value is used; `none` stands for a generator
that fails, and for a loop that goes on for more rounds than are followed.
-/

namespace Libjingle.Media

open Lib Sdp

/-! ## Random values -/

/-- The place where a random value is used. -/
inductive Draw where
  | key (type : MediaType) (index : Nat)
  | iceUfrag (type : MediaType)
  | icePwd (type : MediaType)
  | cname (type : MediaType) (index : Nat)
  | ssrc (type : MediaType) (index : Nat) (fid : Bool)
  deriving DecidableEq

/-- What the code gets from outside during one call. -/
structure Runtime extends RandomSource Draw where
  /-- What `std::sort` makes of codecs. -/
  sort : CodecSort

namespace Runtime

variable (r : Runtime)

/-- The loop of `GenerateCname`, given the names in use. -/
def cname (d : Draw) (used : List Text) : Option Text :=
  (redraw (r.createRandomString d 16) (fun s => s ∈ used) r.rounds 0).map Prod.fst

/-- The loop of `GenerateSsrcs` for one number, given the numbers in use. -/
def ssrc (d : Draw) (used : List U32) : Option U32 :=
  (redraw (r.createRandomNonZeroId d) (fun id => id ∈ used) r.rounds 0).map Prod.fst

variable {r}

/-- A name that is drawn is not in use. -/
theorem cname_notMem {d : Draw} {used : List Text} {s : Text} (h : r.cname d used = some s) :
    s ∉ used := by
  obtain ⟨p, hp, rfl⟩ := Option.map_eq_some_iff.mp h
  exact of_decide_eq_false (redraw_spec hp).1

/-- A number that is drawn is not in use, and not zero. -/
theorem ssrc_spec {d : Draw} {used : List U32} {x : U32} (h : r.ssrc d used = some x) :
    x ≠ 0 ∧ x ∉ used := by
  obtain ⟨p, hp, rfl⟩ := Option.map_eq_some_iff.mp h
  obtain ⟨hnew, n, hn⟩ := redraw_spec hp
  exact ⟨RandomSource.createRandomNonZeroId_ne_zero hn, of_decide_eq_false hnew⟩

/-- The generator works: no draw fails, and while there are values that are not in use, one of the
draws of the rounds that are followed is such a value. -/
structure Works (r : Runtime) : Prop where
  bytes : ∀ d n, (r.bytes d n).isSome = true
  name : ∀ d (used : List Text), used.length < 2 ^ 32 - 1 →
    ∃ n < r.rounds, ∀ bytes, r.bytes d n = some bytes → randomText 16 bytes ∉ used
  id : ∀ d (used : List U32), used.length < 2 ^ 32 - 1 →
    ∃ n < r.rounds, r.id d n ≠ 0 ∧ r.id d n ∉ used

theorem Works.string (h : r.Works) (d : Draw) (len : Nat) : (r.string d len).isSome = true := by
  simp [RandomSource.string, RandomSource.createRandomString, h.bytes d 0]

theorem Works.cname (h : r.Works) (d : Draw) (used : List Text)
    (hused : used.length < 2 ^ 32 - 1) : (r.cname d used).isSome = true := by
  obtain ⟨k, hk, hnew⟩ := h.name d used hused
  choose bytes hbytes using fun n => Option.isSome_iff_exists.mp (h.bytes d n)
  have hdraw : ∀ n ≤ k, ∃ m, r.createRandomString d 16 n = some (randomText 16 (bytes m), m + 1) ∧
      n ≤ m ∧ m ≤ k := fun n hn => by
    refine ⟨n, ?_, le_refl n, hn⟩
    rw [RandomSource.createRandomString, hbytes n, Option.map_some]
  obtain ⟨m, hm, -⟩ : ∃ m, redraw (r.createRandomString d 16) (fun s => s ∈ used) r.rounds 0 =
      some (randomText 16 (bytes m), m + 1) ∧ 0 ≤ m ∧ m ≤ k :=
    redraw_within (decide_eq_false (hnew _ (hbytes k))) hdraw (Nat.zero_le k) (by omega)
  rw [Runtime.cname, hm]
  rfl

theorem Works.ssrc (h : r.Works) (d : Draw) (used : List U32)
    (hused : used.length < 2 ^ 32 - 1) : (r.ssrc d used).isSome = true := by
  obtain ⟨k, hk, hzero, hnew⟩ := h.id d used hused
  obtain ⟨m, hm, -⟩ : ∃ m, redraw (r.createRandomNonZeroId d) (fun id => id ∈ used) r.rounds 0 =
      some (r.id d m, m + 1) ∧ 0 ≤ m ∧ m ≤ k :=
    redraw_within (decide_eq_false hnew)
      (fun n hn => RandomSource.createRandomNonZeroId_within hzero hn hk) (Nat.zero_le k) (by omega)
  rw [Runtime.ssrc, hm]
  rfl

end Runtime

/-! ### A generator that counts -/

/-- The digits of a number to the base of 16, from the last one on, counted from another number. -/
def digitBytes (n k : Nat) : Nat → U8 := fun i => BitVec.ofNat 8 ((n + k / 16 ^ i) % 16)

theorem eq_of_digits {m a b : Nat} (ha : a < 16 ^ m) (hb : b < 16 ^ m)
    (h : ∀ i < m, a / 16 ^ i % 16 = b / 16 ^ i % 16) : a = b := by
  induction m generalizing a b with
  | zero => omega
  | succ m ih =>
    have hlast := h 0 (Nat.succ_pos m)
    rw [Nat.pow_zero, Nat.div_one, Nat.div_one] at hlast
    have hrest : a / 16 = b / 16 := ih (by omega) (by omega) fun i hi => by
      have hi := h (i + 1) (by omega)
      rwa [Nat.pow_succ', ← Nat.div_div_eq_div_mul, ← Nat.div_div_eq_div_mul] at hi
    omega

theorem randomText_injective {n a b : Nat} (ha : a < 16 ^ 16) (hb : b < 16 ^ 16)
    (h : randomText 16 (digitBytes n a) = randomText 16 (digitBytes n b)) : a = b := by
  have hinj : ∀ i < 16, ∀ j < 16, kBase64.getD i 'A' = kBase64.getD j 'A' → i = j := by
    decide +kernel
  have hbyte : ∀ k i, (digitBytes n k i).toNat % 64 = (n + k / 16 ^ i) % 16 := fun k i => by
    rw [digitBytes, BitVec.toNat_ofNat]
    omega
  refine eq_of_digits ha hb fun i hi => ?_
  have hchar := List.map_inj_left.mp h i (List.mem_range.mpr hi)
  rw [hbyte, hbyte] at hchar
  have hdigit := hinj _ (Nat.mod_lt _ (by decide)) _ (Nat.mod_lt _ (by decide)) hchar
  omega

/-- Texts that start with one letter, and numbers that start with `1`. -/
def countingRuntime (n : Nat) : Runtime where
  bytes _ k := some (digitBytes n k)
  id _ k := BitVec.ofNat 32 (k + 1)
  rounds := 2 ^ 32
  sort := stableCodecSort

theorem countingRuntime_works (n : Nat) : (countingRuntime n).Works := by
  refine ⟨fun _ _ => rfl, fun d used hlen => ?_, fun d used hlen => ?_⟩
  · have hnodup : ((List.range (used.length + 1)).map fun k =>
        randomText 16 (digitBytes n k)).Nodup := by
      refine List.Nodup.map_on (fun a ha b hb hab => ?_) List.nodup_range
      rw [List.mem_range] at ha hb
      exact randomText_injective (by omega) (by omega) hab
    obtain ⟨s, hs, hnew⟩ := exists_notMem_of_length_lt used hnodup (by simp)
    obtain ⟨k, hk, rfl⟩ := List.mem_map.mp hs
    rw [List.mem_range] at hk
    exact ⟨k, show k < 2 ^ 32 by omega, fun _ h => Option.some.inj h ▸ hnew⟩
  · have hnat : ∀ k < 2 ^ 32 - 1, (BitVec.ofNat 32 (k + 1)).toNat = k + 1 := fun k hk => by
      rw [BitVec.toNat_ofNat]
      omega
    have hnodup : ((List.range (used.length + 1)).map fun k => BitVec.ofNat 32 (k + 1)).Nodup := by
      refine List.Nodup.map_on (fun a ha b hb hab => ?_) List.nodup_range
      rw [List.mem_range] at ha hb
      have heq := congrArg BitVec.toNat hab
      rw [hnat a (by omega), hnat b (by omega)] at heq
      omega
    obtain ⟨x, hx, hnew⟩ := exists_notMem_of_length_lt used hnodup (by simp)
    obtain ⟨k, hk, rfl⟩ := List.mem_map.mp hx
    rw [List.mem_range] at hk
    refine ⟨k, show k < 2 ^ 32 by omega, fun hzero => ?_, hnew⟩
    have heq := congrArg BitVec.toNat hzero
    change (BitVec.ofNat 32 (k + 1)).toNat = 0 at heq
    rw [hnat k (by omega)] at heq
    cases heq

/-! ## Transports -/

/-- `SecurePolicy`, for SDES and for DTLS. -/
inductive SecurePolicy where
  | disabled
  | enabled
  | required
  deriving DecidableEq

/-- `TransportProtocol`. -/
inductive TransportProtocol where
  | google
  | hybrid
  | rfc5245
  deriving DecidableEq

/-- `TransportDescriptionFactory`; the fingerprint is the one of its identity, when there is one. -/
structure TransportDescriptionFactory where
  protocol : TransportProtocol
  secure : SecurePolicy
  fingerprint : Option SSLFingerprint
  deriving DecidableEq

def nsGingleP2p : Text := "http://www.google.com/transport/p2p".toList
def iceOptionGice : Text := "google-ice".toList
def iceUfragLength : Nat := 16
def icePwdLength : Nat := 24

namespace TransportDescriptionFactory

variable (t : TransportDescriptionFactory) (r : Runtime) (type : MediaType)

/-- The credentials, which are only new when there are none or ICE is restarted. -/
def setCredentials (iceRestart : Bool) (current : Option TransportDescription)
    (desc : TransportDescription) : TransportDescription :=
  match iceRestart, current with
  | false, some current =>
    { desc with iceUfrag := current.iceUfrag, icePwd := current.icePwd }
  | _, _ =>
    { desc with
      iceUfrag := (r.string (.iceUfrag type) iceUfragLength).getD []
      icePwd := (r.string (.icePwd type) icePwdLength).getD [] }

/-- `CreateIdentityDigest`: adds the fingerprint. -/
def createIdentityDigest (desc : TransportDescription) : Option TransportDescription :=
  t.fingerprint.map fun f => { desc with identityFingerprint := some f }

/-- `TransportDescriptionFactory::CreateOffer`. -/
def createOffer (iceRestart : Bool) (current : Option TransportDescription) :
    Option TransportDescription :=
  let desc : TransportDescription :=
    match t.protocol with
    | .rfc5245 => ⟨nsJingleIceUdp, [], [], [], none⟩
    | .hybrid => ⟨nsJingleIceUdp, [iceOptionGice], [], [], none⟩
    | .google => ⟨nsGingleP2p, [], [], [], none⟩
  let desc := setCredentials r type iceRestart current desc
  if t.secure ≠ .disabled then t.createIdentityDigest desc else some desc

/-- The transport type of an answer. -/
def answerTransportType (offer : Option TransportDescription) : Option Text :=
  let ice := offer.any fun o => o.transportType = nsJingleIceUdp
  if ice ∧ t.protocol ≠ .google then some nsJingleIceUdp
  else if ice ∧ (offer.any fun o => iceOptionGice ∈ o.transportOptions) ∧ t.protocol = .google then
    some nsGingleP2p
  else if (offer.all fun o => o.transportType = nsGingleP2p) ∧ t.protocol ≠ .rfc5245 then
    some nsGingleP2p
  else none

/-- `TransportDescriptionFactory::CreateAnswer`. -/
def createAnswer (offer : Option TransportDescription) (iceRestart : Bool)
    (current : Option TransportDescription) : Option TransportDescription :=
  match t.answerTransportType offer with
  | none => none
  | some transportType =>
    let desc := setCredentials r type iceRestart current ⟨transportType, [], [], [], none⟩
    if (offer.bind TransportDescription.identityFingerprint).isSome then
      if t.secure ≠ .disabled then t.createIdentityDigest desc else some desc
    else if t.secure = .required then none
    else some desc

end TransportDescriptionFactory

/-! ## Cryptos -/

def srtpMasterKeyBase64Len : Nat := 40

/-- `CreateCryptoParams`: a random key for one suite. -/
def createCryptoParams (r : Runtime) (draw : Draw) (tag : I32) (cipher : Text) :
    Option CryptoParams :=
  (r.string draw srtpMasterKeyBase64Len).map fun key => ⟨tag, cipher, "inline:".toList ++ key, []⟩

/-- `GetSupportedAudioCryptoSuites`, `GetSupportedVideoCryptoSuites` and
`GetSupportedDataCryptoSuites`. -/
def supportedCryptoSuites : MediaType → List Text
  | .audio => [csAesCm128HmacSha1_32, csAesCm128HmacSha1_80]
  | .video => [csAesCm128HmacSha1_80]
  | .data => [csAesCm128HmacSha1_80]

/-- `CreateMediaCryptos`: a crypto for each suite. -/
def createMediaCryptos (r : Runtime) (type : MediaType) (suites : List Text) :
    Option (List CryptoParams) :=
  suites.zipIdx.mapM fun s => createCryptoParams r (.key type s.2) (BitVec.ofNat 32 s.2) s.1

/-- `FindMatchingCrypto`; what it finds takes the place of `crypto`. -/
def findMatchingCrypto (cryptos : List CryptoParams) (crypto : CryptoParams) : CryptoParams :=
  (cryptos.find? (cryptoMatches crypto)).getD crypto

/-- The offered crypto that `SelectCrypto` picks. -/
def selectedCrypto (offer : MediaContentDescription) (bundle : Bool) : Option CryptoParams :=
  offer.cryptos.find? fun c => c.cipherSuite = csAesCm128HmacSha1_80 ||
    (c.cipherSuite = csAesCm128HmacSha1_32 && offer.type = .audio && !bundle)

/-- `SelectCrypto`: a new key for the crypto that is taken up. -/
def selectCrypto (r : Runtime) (offer : MediaContentDescription) (bundle : Bool) :
    Option CryptoParams :=
  (selectedCrypto offer bundle).bind fun c =>
    createCryptoParams r (.key offer.type 0) c.tag c.cipherSuite

/-! ## Streams -/

/-- `MediaSessionOptions::Stream`. -/
structure StreamOptions where
  type : MediaType
  name : Text
  syncLabel : Text
  deriving DecidableEq

def kFidSsrcGroupSemantics : Text := "FID".toList

/-- `GetStreamByNickAndName`. -/
def getStreamByNickAndName (streams : List StreamParams) (nick name : Text) :
    Option StreamParams :=
  streams.find? fun s => s.nick = nick ∧ s.name = name

/-- A stream with one number, or with one and that of its retransmissions. -/
def streamWithSsrcs (primary : U32) (fid : Option U32) : StreamParams :=
  match fid with
  | none => ⟨[], [], [primary], [], [], []⟩
  | some fid =>
    ⟨[], [], [primary, fid], [⟨kFidSsrcGroupSemantics, [primary, fid]⟩], [], []⟩

section

variable (r : Runtime) (type : MediaType)

/-- `GenerateSsrcs`, with the stream that has these numbers. -/
def generateSsrcs (index : Nat) (current : List StreamParams) (includeRtxStream : Bool) :
    Option StreamParams :=
  let used := current.flatMap StreamParams.ssrcs
  match r.ssrc (.ssrc type index false) used with
  | none => none
  | some primary =>
    if includeRtxStream then
      (r.ssrc (.ssrc type index true) (used ++ [primary])).map fun fid =>
        streamWithSsrcs primary (some fid)
    else some (streamWithSsrcs primary none)

/-- `GenerateCname`: that of the streams to be synchronised with, or a new one. -/
def generateCname (index : Nat) (current : List StreamParams) (streams : List StreamOptions)
    (syncLabel : Text) : Option Text :=
  let synched := streams.findSome? fun s =>
    if s.syncLabel = syncLabel then getStreamByNickAndName current [] s.name else none
  match synched with
  | some param => some param.cname
  | none => r.cname (.cname type index) (current.map StreamParams.cname)

/-- The loop of `AddStreamParams`: the streams of the content, and all streams known then. -/
def addStreams (all : List StreamOptions) (includeRtxStream : Bool) :
    List (StreamOptions × Nat) → List StreamParams → Option (List StreamParams × List StreamParams)
  | [], current => some ([], current)
  | (s, i) :: rest, current =>
    if s.type ≠ type then addStreams all includeRtxStream rest current
    else
      match getStreamByNickAndName current [] s.name with
      | some param =>
        (addStreams all includeRtxStream rest current).map fun p => (param :: p.1, p.2)
      | none =>
        match generateCname r type i current all s.syncLabel,
          generateSsrcs r type i current includeRtxStream with
        | some cname, some stream =>
          let param := { stream with name := s.name, cname := cname, syncLabel := s.syncLabel }
          (addStreams all includeRtxStream rest (current ++ [param])).map fun p =>
            (param :: p.1, p.2)
        | _, _ => none

/-- `AddStreamParams`: a content's streams, known or new. -/
def addStreamParams (streams : List StreamOptions) (current : List StreamParams)
    (codecs : List Codec) (addLegacyStream : Bool) :
    Option (List StreamParams × List StreamParams) :=
  let includeRtxStream := containsRtxCodec codecs
  if streams = [] ∧ addLegacyStream then
    (generateSsrcs r type 0 current includeRtxStream).map fun stream => ([stream], current)
  else addStreams r type streams includeRtxStream streams.zipIdx current

end

/-- `GetCurrentStreamParams`: all streams of the current description. -/
def getCurrentStreamParams (current : Option SessionDescription) : List StreamParams :=
  match current with
  | none => []
  | some d => (d.contents.filter fun c => c.type = nsJingleRtp).flatMap fun c =>
      c.description.streams

/-! ## BUNDLE -/

/-- `GetContentByName`. -/
def getContentByName (d : SessionDescription) (name : Text) : Option ContentInfo :=
  d.contents.find? fun c => c.name = name

/-- `UpdateTransportInfoForBundle`: the group gets the first content's credentials. -/
def updateTransportInfoForBundle (bundle : ContentGroup) (d : SessionDescription) :
    Option SessionDescription :=
  match bundle.contentNames with
  | [] => none
  | selected :: _ =>
    match d.getTransportInfoByName selected with
    | none => none
    | some info =>
      some { d with transportInfos := d.transportInfos.map fun t =>
        if t.contentName ∈ bundle.contentNames ∧ t.contentName ≠ selected then
          { t with description := { t.description with
            iceUfrag := info.description.iceUfrag
            icePwd := info.description.icePwd } }
        else t }

/-- `GetCryptosByName`. -/
def getCryptosByName (d : SessionDescription) (name : Text) : Option (List CryptoParams) :=
  match getContentByName d name with
  | some c => if c.type = nsJingleRtp then some c.description.cryptos else none
  | none => none

/-- `PruneCryptos`: what of `target` has a suite of `filter`. -/
def pruneCryptos (filter target : List CryptoParams) : List CryptoParams :=
  target.filter fun c => filter.any fun x => x.cipherSuite = c.cipherSuite

/-- The first content of a name is changed. -/
def modifyContent (contents : List ContentInfo) (name : Text) (g : ContentInfo → ContentInfo) :
    List ContentInfo :=
  match contents with
  | [] => []
  | c :: rest => if c.name = name then g c :: rest else c :: modifyContent rest name g

/-- `set_cryptos` of a content, when it is a media content. -/
def setCryptos (cryptos : List CryptoParams) (c : ContentInfo) : ContentInfo :=
  if c.type = nsJingleRtp then { c with description := { c.description with cryptos := cryptos } }
  else c

/-- The common cryptos of the other contents of a group. -/
def commonCryptos (d : SessionDescription) : List Text → List CryptoParams →
    Option (List CryptoParams)
  | [], common => some common
  | name :: names, common =>
    match getCryptosByName d name with
    | none => none
    | some cryptos => commonCryptos d names (pruneCryptos cryptos common)

/-- `UpdateCryptoParamsForBundle`: the group gets the cryptos common to all. -/
def updateCryptoParamsForBundle (bundle : ContentGroup) (d : SessionDescription) :
    Option SessionDescription :=
  match bundle.contentNames with
  | [] => none
  | first :: names =>
    match getCryptosByName d first with
    | none => none
    | some [] => some d
    | some common =>
      match commonCryptos d names common with
      | none => none
      | some [] => none
      | some common =>
        some { d with contents :=
          bundle.contentNames.foldl (fun contents name => modifyContent contents name
            (setCryptos common)) d.contents }

/-- A group is added, and what it has to share is merged. -/
def bundleContents (bundle : ContentGroup) (d : SessionDescription) : Option SessionDescription :=
  (updateTransportInfoForBundle bundle { d with groups := d.groups ++ [bundle] }).bind
    (updateCryptoParamsForBundle bundle)

/-- The group of the contents that satisfy a condition. -/
def bundleGroup (p : ContentInfo → Bool) (contents : List ContentInfo) : ContentGroup :=
  (contents.filter p).foldl (fun g c => g.addContentName c.name) ⟨groupTypeBundle, []⟩

/-! ## The factory -/

/-- `MediaSessionOptions`. -/
structure MediaSessionOptions where
  hasAudio : Bool
  hasVideo : Bool
  hasData : Bool
  rtcpMuxEnabled : Bool
  bundleEnabled : Bool
  videoBandwidth : I32
  dataBandwidth : I32
  iceRestart : Bool
  streams : List StreamOptions
  deriving DecidableEq

/-- The option that selects a kind of media. -/
def MediaSessionOptions.has (o : MediaSessionOptions) : MediaType → Bool
  | .audio => o.hasAudio
  | .video => o.hasVideo
  | .data => o.hasData

/-- The bandwidth of a kind of media; none is set for audio. -/
def MediaSessionOptions.bandwidth (o : MediaSessionOptions) : MediaType → I32
  | .audio => kAutoBandwidth
  | .video => o.videoBandwidth
  | .data => o.dataBandwidth

/-- `MediaSessionDescriptionFactory`. -/
structure SessionFactory where
  codecs : CodecLists
  secure : SecurePolicy
  addLegacy : Bool
  transport : TransportDescriptionFactory

/-- The order in which `CreateOffer` and `CreateAnswer` handle the kinds of media. -/
def mediaOrder : List MediaType := [.audio, .video, .data]

/-- The contents made so far, and the streams known then. -/
structure Negotiation where
  streams : List StreamParams
  description : SessionDescription

/-- Nothing is negotiated yet. -/
def Negotiation.start (current : Option SessionDescription) : Negotiation :=
  ⟨getCurrentStreamParams current, ⟨[], [], []⟩⟩

/-- `AddContent`. -/
def addContent (d : SessionDescription) (c : ContentInfo) : SessionDescription :=
  { d with contents := d.contents ++ [c] }

/-- `GetCryptos` of the first content of a kind. -/
def currentCryptos (current : Option SessionDescription) (type : MediaType) :
    Option (List CryptoParams) :=
  (current.bind fun d => d.getFirstMediaContent type).map fun c => c.description.cryptos

/-- `GetTransportDescription`. -/
def getTransportDescription (name : Text) (current : Option SessionDescription) :
    Option TransportDescription :=
  (current.bind fun d => d.getTransportInfoByName name).map TransportInfo.description

def kMediaProtocolAvpf : Text := "RTP/AVPF".toList
def kMediaProtocolSavpf : Text := "RTP/SAVPF".toList

/-- `SetMediaProtocol`. -/
def setMediaProtocol (secureTransport : Bool) (m : MediaContentDescription) :
    MediaContentDescription :=
  { m with protocol :=
    if m.cryptos ≠ [] ∨ secureTransport then kMediaProtocolSavpf else kMediaProtocolAvpf }

/-- `IsMediaProtocolSupported`. -/
def isMediaProtocolSupported (protocol : Text) : Bool :=
  protocol = kMediaProtocolAvpf || protocol = kMediaProtocolSavpf || protocol = []

/-! ## Offers -/

/-- The cryptos of `CreateMediaContentOffer`: the current ones, or new ones. -/
def offerCryptos (r : Runtime) (type : MediaType) (policy : SecurePolicy)
    (current : Option (List CryptoParams)) (suites : List Text) : Option (List CryptoParams) :=
  if policy = .disabled then some []
  else if current.getD [] = [] then createMediaCryptos r type suites
  else some (current.getD [])

/-- `CreateMediaContentOffer`. -/
def createMediaContentOffer (r : Runtime) (type : MediaType) (options : MediaSessionOptions)
    (codecs : List Codec) (policy : SecurePolicy) (current : Option (List CryptoParams))
    (suites : List Text) (addLegacyStream : Bool) (streams : List StreamParams) :
    Option (MediaContentDescription × List StreamParams) :=
  let offer := { MediaContentDescription.new type with
    codecs := codecs
    cryptoRequired := decide (policy = SecurePolicy.required)
    rtcpMux := options.rtcpMuxEnabled }.sortCodecs r.sort
  match addStreamParams r type options.streams streams offer.codecs addLegacyStream,
    offerCryptos r type policy current suites with
  | some (added, streams), some cryptos =>
    if offer.cryptoRequired ∧ cryptos = [] then none
    else some ({ offer with streams := added, cryptos := cryptos }, streams)
  | _, _ => none

namespace SessionFactory

variable (f : SessionFactory) (r : Runtime)

/-- `AddTransportOffer`. -/
def addTransportOffer (type : MediaType) (name : Text) (options : MediaSessionOptions)
    (current : Option SessionDescription) (d : SessionDescription) : Option SessionDescription :=
  (f.transport.createOffer r type options.iceRestart (getTransportDescription name current)).bind
    fun t => d.addTransportInfo ⟨name, t⟩

/-- One kind of media in `CreateOffer`. -/
def offerMedia (options : MediaSessionOptions) (current : Option SessionDescription)
    (n : Negotiation) (type : MediaType) : Option Negotiation :=
  if !options.has type then some n
  else
    match createMediaContentOffer r type options
      ((getCodecsToOffer f.codecs current).of type) f.secure (currentCryptos current type)
      (supportedCryptoSuites type) f.addLegacy n.streams with
    | none => none
    | some (media, streams) =>
      let media := setMediaProtocol (f.transport.secure ≠ .disabled)
        { media with bandwidth := options.bandwidth type }
      (f.addTransportOffer r type (defaultContentName type) options current
        (addContent n.description ⟨defaultContentName type, nsJingleRtp, false, media⟩)).map
          fun d => ⟨streams, d⟩

/-- The contents of an offer, before the merge. -/
def createOfferContents (options : MediaSessionOptions) (current : Option SessionDescription) :
    Option SessionDescription :=
  (mediaOrder.foldlM (f.offerMedia r options current) (.start current)).map Negotiation.description

/-- `MediaSessionDescriptionFactory::CreateOffer`. -/
def createOffer (options : MediaSessionOptions) (current : Option SessionDescription) :
    Option SessionDescription :=
  (f.createOfferContents r options current).bind fun offer =>
    if options.bundleEnabled then bundleContents (bundleGroup (fun _ => true) offer.contents) offer
    else some offer

end SessionFactory

/-! ## Answers -/

/-- The cryptos of `CreateMediaContentAnswer`. -/
def answerCryptos (r : Runtime) (offer : MediaContentDescription) (policy : SecurePolicy)
    (current : Option (List CryptoParams)) (bundle : Bool) : List CryptoParams :=
  if policy = .disabled then []
  else ((selectCrypto r offer bundle).map (findMatchingCrypto (current.getD []))).toList

/-- `CreateMediaContentAnswer`. -/
def createMediaContentAnswer (r : Runtime) (offer : MediaContentDescription)
    (options : MediaSessionOptions) (localCodecs : List Codec) (policy : SecurePolicy)
    (current : Option (List CryptoParams)) (streams : List StreamParams) (addLegacyStream : Bool)
    (bundle : Bool) : Option (MediaContentDescription × List StreamParams) :=
  let answer := { MediaContentDescription.new offer.type with
    codecs := negotiateCodecs offer.type localCodecs offer.codecs
    protocol := offer.protocol
    rtcpMux := options.rtcpMuxEnabled && offer.rtcpMux
    cryptos := answerCryptos r offer policy current bundle }.sortCodecs r.sort
  if answer.cryptos = [] ∧ (offer.cryptoRequired ∨ policy = .required) then none
  else
    (addStreamParams r offer.type options.streams streams answer.codecs addLegacyStream).map
      fun s => ({ answer with streams := s.1 }, s.2)

/-- Both the offer and the options ask for BUNDLE. -/
def bundleEnabled (offer : SessionDescription) (options : MediaSessionOptions) : Bool :=
  (offer.getGroupByName groupTypeBundle).isSome && options.bundleEnabled

namespace SessionFactory

variable (f : SessionFactory) (r : Runtime)

/-- `CreateTransportAnswer`. -/
def createTransportAnswer (type : MediaType) (name : Text) (offer : SessionDescription)
    (options : MediaSessionOptions) (current : Option SessionDescription) :
    Option TransportDescription :=
  f.transport.createAnswer r type (getTransportDescription name (some offer)) options.iceRestart
    (getTransportDescription name current)

/-- SDES is not used with a secure transport. -/
def sdesPolicy (transport : TransportDescription) : SecurePolicy :=
  if transport.identityFingerprint.isSome then .disabled else f.secure

/-- The media of an answer is not accepted. -/
def rejects (options : MediaSessionOptions) (type : MediaType) (protocol : Text) : Bool :=
  !options.has type || !isMediaProtocolSupported protocol

/-- A content is added to the answer, with its transport when it is accepted. That the transport
cannot be added is not noticed for audio. -/
def addAnswer (options : MediaSessionOptions) (type : MediaType) (content : ContentInfo)
    (transport : TransportDescription) (media : MediaContentDescription) (d : SessionDescription) :
    Option SessionDescription :=
  if rejects options type media.protocol then
    some (addContent d ⟨content.name, content.type, true, media⟩)
  else
    let accepted : ContentInfo := ⟨content.name, content.type, false,
      { media with bandwidth := options.bandwidth type }⟩
    match d.addTransportInfo ⟨content.name, transport⟩, type with
    | some d, _ => some (addContent d accepted)
    | none, .audio => some (addContent d accepted)
    | none, _ => none

/-- One kind of media in `CreateAnswer`. -/
def answerMedia (offer : SessionDescription) (options : MediaSessionOptions)
    (current : Option SessionDescription) (n : Negotiation) (type : MediaType) :
    Option Negotiation :=
  match offer.getFirstMediaContent type with
  | none => some n
  | some content =>
    match f.createTransportAnswer r type content.name offer options current with
    | none => none
    | some transport =>
      match createMediaContentAnswer r content.description options (f.codecs.of type)
        (f.sdesPolicy transport) (currentCryptos current type) n.streams f.addLegacy
        (bundleEnabled offer options) with
      | none => none
      | some (media, streams) =>
        (addAnswer options type content transport media n.description).map fun d => ⟨streams, d⟩

/-- The contents of an answer, before the merge. -/
def createAnswerContents (offer : SessionDescription) (options : MediaSessionOptions)
    (current : Option SessionDescription) : Option SessionDescription :=
  (mediaOrder.foldlM (f.answerMedia r offer options current) (.start current)).map
    Negotiation.description

/-- The accepted contents of the group of the offer. -/
def answerGroup (offerBundle : ContentGroup) (contents : List ContentInfo) : ContentGroup :=
  bundleGroup (fun c => !c.rejected && c.name ∈ offerBundle.contentNames) contents

/-- `MediaSessionDescriptionFactory::CreateAnswer`. -/
def createAnswer (offer : SessionDescription) (options : MediaSessionOptions)
    (current : Option SessionDescription) : Option SessionDescription :=
  (f.createAnswerContents r offer options current).bind fun answer =>
    match offer.getGroupByName groupTypeBundle, options.bundleEnabled with
    | some offerBundle, true =>
      let bundle := answerGroup offerBundle answer.contents
      if bundle.contentNames = [] then some answer else bundleContents bundle answer
    | _, _ => some answer

end SessionFactory

/-! ### A factory -/

/-- A factory with a policy for SDES, without codecs and DTLS. -/
def plainFactory (secure : SecurePolicy) : SessionFactory :=
  ⟨⟨[], [], []⟩, secure, true, ⟨.google, .disabled, none⟩⟩

/-- Options without streams that select all media. -/
def plainOptions (bundle : Bool) : MediaSessionOptions :=
  ⟨true, true, true, true, bundle, kAutoBandwidth, kAutoBandwidth, false, []⟩

def cryptoContent (name : Text) (type : MediaType) (cryptos : List CryptoParams) : ContentInfo :=
  ⟨name, nsJingleRtp, false, { MediaContentDescription.new type with cryptos := cryptos }⟩

end Libjingle.Media
