import Libjingle.Media.BundleConsistency

/-!
# The ICE credentials of an answer (`CreateAnswer`, `UpdateTransportInfoForBundle`)

Each transport of an answer keeps the credentials of the local description, unless it has none there
or ICE is restarted; the transports of a BUNDLE group then take those of its first content.

* **`createAnswer_credentials`**: all credentials of an answer.
-/

namespace Libjingle.Media

open Lib Sdp

/-- The user name fragment and the password of a transport. -/
def credentials (t : TransportDescription) : Text × Text := (t.iceUfrag, t.icePwd)

/-- What `CreateRandomString` makes for a transport. -/
def drawnCredentials (r : Runtime) (type : MediaType) : Text × Text :=
  ((r.string (.iceUfrag type) iceUfragLength).getD [],
    (r.string (.icePwd type) icePwdLength).getD [])

/-- The credentials that a transport gets before the merge. -/
def answerCredentials (r : Runtime) (type : MediaType) (iceRestart : Bool)
    (current : Option TransportDescription) : Text × Text :=
  match iceRestart, current with
  | false, some current => credentials current
  | _, _ => drawnCredentials r type

/-- The content whose credentials a content has in a description with BUNDLE. -/
def bundleSource (d : SessionDescription) (n : Text) : Text :=
  match d.getGroupByName groupTypeBundle with
  | none => n
  | some g => if n ∈ g.contentNames then g.contentNames.head?.getD n else n

/-! ## Before the merge -/

variable {f : SessionFactory} {r : Runtime} {offer : SessionDescription}
  {options : MediaSessionOptions} {current : Option SessionDescription}

theorem credentials_setCredentials (type : MediaType) (iceRestart : Bool)
    (old : Option TransportDescription) (desc : TransportDescription) :
    credentials (TransportDescriptionFactory.setCredentials r type iceRestart old desc) =
      answerCredentials r type iceRestart old := by
  cases iceRestart <;> cases old <;> rfl

theorem credentials_createIdentityDigest {t : TransportDescriptionFactory}
    {desc d : TransportDescription} (h : t.createIdentityDigest desc = some d) :
    credentials d = credentials desc := by
  obtain ⟨fingerprint, -, rfl⟩ := Option.map_eq_some_iff.mp h
  rfl

variable {type : MediaType}

theorem credentials_createTransportAnswer {name : Text} {t : TransportDescription}
    (h : f.createTransportAnswer r type name offer options current = some t) :
    credentials t = answerCredentials r type options.iceRestart
      (getTransportDescription name current) := by
  rw [SessionFactory.createTransportAnswer, TransportDescriptionFactory.createAnswer] at h
  split at h
  · cases h
  · dsimp only at h
    split at h
    · split at h
      · exact (credentials_createIdentityDigest h).trans (credentials_setCredentials _ _ _ _)
      · obtain rfl := Option.some.inj h
        exact credentials_setCredentials _ _ _ _
    · split at h
      · cases h
      · obtain rfl := Option.some.inj h
        exact credentials_setCredentials _ _ _ _

/-- All transports have the credentials of their own content. -/
def Credentialed (r : Runtime) (options : MediaSessionOptions)
    (current : Option SessionDescription) (d : SessionDescription) : Prop :=
  ∀ t ∈ d.transportInfos, ∃ type, credentials t.description =
    answerCredentials r type options.iceRestart (getTransportDescription t.contentName current)

variable {t : TransportInfo}

variable {d d' : SessionDescription}

theorem Credentialed.addTransportInfo (h : Credentialed r options current d)
    (ht : credentials t.description = answerCredentials r type options.iceRestart
      (getTransportDescription t.contentName current))
    (hadd : d.addTransportInfo t = some d') : Credentialed r options current d' := by
  obtain ⟨-, rfl⟩ := addTransportInfo_spec hadd
  intro x hx
  rcases List.mem_append.mp hx with hx | hx
  · exact h x hx
  · obtain rfl := List.mem_singleton.mp hx
    exact ⟨type, ht⟩

theorem credentialed_addAnswer {content : ContentInfo}
    {t : TransportDescription} {media : MediaContentDescription}
    (h : Credentialed r options current d)
    (ht : credentials t = answerCredentials r type options.iceRestart
      (getTransportDescription content.name current))
    (hadd : SessionFactory.addAnswer options type content t media d = some d') :
    Credentialed r options current d' := by
  rw [SessionFactory.addAnswer] at hadd
  split at hadd
  · obtain rfl := Option.some.inj hadd
    exact h
  · cases htransport : d.addTransportInfo ⟨content.name, t⟩ with
    | some d₁ =>
      simp only [htransport] at hadd
      obtain rfl := Option.some.inj hadd
      have hadded : Credentialed r options current d₁ := h.addTransportInfo ht htransport
      exact hadded
    | none =>
      simp only [htransport] at hadd
      split at hadd
      · rename_i hcontra _
        cases hcontra
      · obtain rfl := Option.some.inj hadd
        exact h
      · cases hadd

variable {n n' : Negotiation}

theorem credentialed_answerMedia (h : Credentialed r options current n.description)
    (hmedia : f.answerMedia r offer options current n type = some n') :
    Credentialed r options current n'.description := by
  rw [SessionFactory.answerMedia] at hmedia
  split at hmedia
  · obtain rfl := Option.some.inj hmedia
    exact h
  · split at hmedia
    · cases hmedia
    · rename_i t ht
      split at hmedia
      · cases hmedia
      · obtain ⟨d, hd, rfl⟩ := Option.map_eq_some_iff.mp hmedia
        exact credentialed_addAnswer h (credentials_createTransportAnswer ht) hd

theorem credentialed_foldlM {types : List MediaType}
    (h : Credentialed r options current n.description)
    (hfold : types.foldlM (f.answerMedia r offer options current) n = some n') :
    Credentialed r options current n'.description := by
  induction types generalizing n with
  | nil =>
    obtain rfl := Option.some.inj hfold
    exact h
  | cons type types ih =>
    obtain ⟨n₁, h₁, hfold⟩ := Option.bind_eq_some_iff.mp hfold
    exact ih (credentialed_answerMedia h h₁) hfold

theorem credentialed_createAnswerContents {pre : SessionDescription}
    (h : f.createAnswerContents r offer options current = some pre) :
    Credentialed r options current pre := by
  obtain ⟨n, hn, rfl⟩ := Option.map_eq_some_iff.mp h
  have hstart : Credentialed r options current (Negotiation.start current).description :=
    fun _ ht => absurd ht List.not_mem_nil
  exact credentialed_foldlM hstart hn

/-! ## After it -/

theorem Credentialed.find (h : Credentialed r options current d) {n : Text}
    (ht : d.getTransportInfoByName n = some t) :
    ∃ type, credentials t.description = answerCredentials r type options.iceRestart
      (getTransportDescription n current) := by
  obtain ⟨type, htype⟩ := h t (List.mem_of_find?_eq_some ht)
  have hname : t.contentName = n := by simpa using List.find?_some ht
  exact ⟨type, hname ▸ htype⟩

/-- **The credentials of an answer**: those of the local description for the content that they are
taken from, or new ones. -/
theorem createAnswer_credentials {answer : SessionDescription}
    (h : f.createAnswer r offer options current = some answer) {n : Text}
    (ht : answer.getTransportInfoByName n = some t) :
    ∃ type, credentials t.description = answerCredentials r type options.iceRestart
      (getTransportDescription (bundleSource answer n) current) := by
  obtain ⟨pre, hpre, hspec, hmerge⟩ := createAnswer_cases h
  have hcredentialed := credentialed_createAnswerContents hpre
  cases hmerge with
  | none _ heq =>
    subst heq
    have hsource : bundleSource answer n = n := by
      rw [bundleSource, SessionDescription.getGroupByName, hspec.groups]
      rfl
    rw [hsource]
    exact hcredentialed.find ht
  | bundle offerBundle _ _ hmerge =>
    obtain ⟨first, names, info, cryptos, hnames, hinfo, -, -, hgroups, hinfos, -⟩ :=
      bundleContents_spec hmerge
    have hgroup : answer.getGroupByName groupTypeBundle =
        some (SessionFactory.answerGroup offerBundle pre.contents) := by
      rw [SessionDescription.getGroupByName, hgroups, hspec.groups, List.nil_append,
        List.find?_singleton]
      exact if_pos (decide_eq_true (bundleGroup_semantics _ _))
    rw [find_shareCredentials hinfos] at ht
    obtain ⟨t₀, ht₀, rfl⟩ := Option.map_eq_some_iff.mp ht
    have hname : t₀.contentName = n := by simpa using List.find?_some ht₀
    rw [bundleSource, hgroup]
    dsimp only
    rw [shareCredentials, hname]
    by_cases hmem : n ∈ (SessionFactory.answerGroup offerBundle pre.contents).contentNames
    · rw [if_pos hmem, hnames, List.head?_cons, Option.getD_some]
      by_cases hfirst : n = first
      · rw [if_neg fun hne => hne.2 hfirst]
        exact hcredentialed.find (hfirst ▸ ht₀)
      · rw [if_pos ⟨hnames ▸ hmem, hfirst⟩]
        obtain ⟨type, htype⟩ := hcredentialed.find hinfo
        exact ⟨type, htype⟩
    · rw [if_neg hmem, if_neg fun hin => hmem hin.1]
      exact hcredentialed.find ht₀

end Libjingle.Media
