import Libjingle.Media.SrtpFilter

/-!
# Runs of the SRTP filter

An active filter is to have the two sessions that its last answer keyed. Two calls break this: a
second offer before the first answer, which counts as an update of a filter that is not active, and
an answer that fails when the sessions have already been replaced.

* **`sessions_keyed_iff`**: exactly the runs without these calls keep it in every state.
* **`failed_answer_keeps_iff`**: when a failed answer leaves everything as it was.
-/

namespace Libjingle.Media.SrtpFilter

open Lib Sdp

/-! ## Calls -/

inductive Call where
  | setOffer (params : List CryptoParams) (source : ContentSource)
  | answer (params : List CryptoParams) (source : ContentSource) (final : Bool)
      (results : SrtpResults)
  deriving DecidableEq

/-- The filter after a call, with what the call returned. -/
def call (f : SrtpFilter) : Call → Bool × SrtpFilter
  | .setOffer params source => f.setOffer params source
  | .answer params source true results => f.setAnswer params source results
  | .answer params source false results => f.setProvisionalAnswer params source results

theorem call_answer (f : SrtpFilter) (params : List CryptoParams) (source : ContentSource)
    (final : Bool) (results : SrtpResults) :
    f.call (.answer params source final results) = f.doSetAnswer params source final results := by
  cases final <;> rfl

/-- What an answer asks the send and the receive session to be keyed with. -/
def answerKeys (f : SrtpFilter) (params : List CryptoParams) (source : ContentSource) :
    Option (SrtpKey × SrtpKey) :=
  match f.sessionParams params source with
  | none => none
  | some (send, recv) =>
    match parseKeyParams send.keyParams, parseKeyParams recv.keyParams with
    | some sendKey, some recvKey => some (⟨send.cipherSuite, sendKey⟩, ⟨recv.cipherSuite, recvKey⟩)
    | _, _ => none

/-- A session can be created with a key. -/
def keyable (k : SrtpKey) (created : Bool) : Bool :=
  supportedSuite k.cipherSuite && k.key.length = srtpMasterKeyLen && created

theorem setKey_new (k : SrtpKey) (created : Bool) :
    SrtpSession.new.setKey k.cipherSuite k.key created =
      if keyable k created then some ⟨some k⟩ else none := by
  simp [SrtpSession.setKey, SrtpSession.new, keyable, and_assoc]

def Keyable (keys : SrtpKey × SrtpKey) (results : SrtpResults) : Prop :=
  keyable keys.1 results.send = true ∧ keyable keys.2 results.recv = true

instance (keys : SrtpKey × SrtpKey) (results : SrtpResults) : Decidable (Keyable keys results) :=
  inferInstanceAs (Decidable (_ ∧ _))

/-- The filter with the sessions that `ApplyParams` leaves when it fails. -/
def broken (f : SrtpFilter) (keys : SrtpKey × SrtpKey) (results : SrtpResults) : SrtpFilter :=
  { f with
    sendSession := some ⟨if keyable keys.1 results.send then some keys.1 else none⟩
    recvSession := some .new }

/-- The filter with both sessions keyed. -/
def keyed (f : SrtpFilter) (keys : SrtpKey × SrtpKey) : SrtpFilter :=
  { f with sendSession := some ⟨some keys.1⟩, recvSession := some ⟨some keys.2⟩ }

/-- The state behind a successful answer with parameters. -/
def answered (f : SrtpFilter) (source : ContentSource) (final : Bool) : SrtpFilter :=
  if final then { f with offerParams := [], state := .active }
  else { f with state := if source = .csLocal then .sentPrAnswer else .receivedPrAnswer }

/-- The state behind an answer without parameters. -/
def declined (f : SrtpFilter) (source : ContentSource) (final : Bool) : SrtpFilter :=
  if final then f.resetParams
  else { f with state :=
    if source = .csLocal then .sentPrAnswerNoCrypto else .receivedPrAnswerNoCrypto }

variable {f : SrtpFilter}

/-- `ApplyParams` behind the keys. -/
theorem applyParams_eq {send recv : CryptoParams} {results : SrtpResults}
    {sendKey recvKey : List U8} (hsend : parseKeyParams send.keyParams = some sendKey)
    (hrecv : parseKeyParams recv.keyParams = some recvKey) :
    f.applyParams send recv results =
      let keys := (SrtpKey.mk send.cipherSuite sendKey, SrtpKey.mk recv.cipherSuite recvKey)
      if Keyable keys results then (true, f.keyed keys) else (false, f.broken keys results) := by
  have hs := setKey_new ⟨send.cipherSuite, sendKey⟩ results.send
  have hr := setKey_new ⟨recv.cipherSuite, recvKey⟩ results.recv
  rw [applyParams, hsend, hrecv]
  simp only at hs hr ⊢
  rw [hs, hr]
  by_cases h₁ : keyable ⟨send.cipherSuite, sendKey⟩ results.send = true
  · by_cases h₂ : keyable ⟨recv.cipherSuite, recvKey⟩ results.recv = true
    · simp [h₁, h₂, Keyable, createSrtpSessions, keyed]
    · simp [h₁, h₂, Keyable, createSrtpSessions, broken]
  · simp [h₁, Keyable, createSrtpSessions, broken, SrtpSession.new]

/-- **Everything that an answer can do.** -/
theorem doSetAnswer_cases (f : SrtpFilter) (params : List CryptoParams) (source : ContentSource)
    (final : Bool) (results : SrtpResults) :
    (f.expectAnswer source = true ∧ params = [] ∧
      f.doSetAnswer params source final results = (true, f.declined source final)) ∨
    (∃ keys, f.expectAnswer source = true ∧ params ≠ [] ∧ f.answerKeys params source = some keys ∧
      Keyable keys results ∧
      f.doSetAnswer params source final results = (true, (f.keyed keys).answered source final)) ∨
    (∃ keys, f.expectAnswer source = true ∧ params ≠ [] ∧ f.answerKeys params source = some keys ∧
      ¬ Keyable keys results ∧
      f.doSetAnswer params source final results = (false, f.broken keys results)) ∨
    ((f.expectAnswer source = true → params ≠ [] ∧ f.answerKeys params source = none) ∧
      f.doSetAnswer params source final results = (false, f)) := by
  by_cases hexpect : f.expectAnswer source = true
  · by_cases hparams : params = []
    · refine .inl ⟨hexpect, hparams, ?_⟩
      cases final <;> simp [doSetAnswer, hexpect, hparams, declined]
    · right
      unfold doSetAnswer answerKeys
      rw [if_neg (by simp [hexpect]), if_neg hparams]
      cases hs : f.sessionParams params source with
      | none => exact .inr (.inr ⟨fun _ => ⟨hparams, rfl⟩, rfl⟩)
      | some p =>
        obtain ⟨send, recv⟩ := p
        simp only
        cases hsend : parseKeyParams send.keyParams with
        | none => exact .inr (.inr ⟨fun _ => ⟨hparams, rfl⟩, by simp [applyParams, hsend]⟩)
        | some sendKey =>
          cases hrecv : parseKeyParams recv.keyParams with
          | none => exact .inr (.inr ⟨fun _ => ⟨hparams, rfl⟩, by simp [applyParams, hsend, hrecv]⟩)
          | some recvKey =>
            rw [applyParams_eq hsend hrecv]
            by_cases hkey :
              Keyable (⟨send.cipherSuite, sendKey⟩, ⟨recv.cipherSuite, recvKey⟩) results
            · refine .inl ⟨_, hexpect, hparams, rfl, hkey, ?_⟩
              cases final <;> simp [hkey, answered]
            · refine .inr (.inl ⟨_, hexpect, hparams, rfl, hkey, ?_⟩)
              simp [hkey]
  · refine .inr (.inr (.inr ⟨fun h => absurd h hexpect, ?_⟩))
    simp [doSetAnswer, hexpect]

theorem answerKeys_nil (f : SrtpFilter) (source : ContentSource) :
    f.answerKeys [] source = none := rfl

/-! ## Runs -/

/-- A filter, and what the last successful answer asked its sessions to be keyed with. -/
structure Watched where
  filter : SrtpFilter
  keys : Option (SrtpKey × SrtpKey)

/-- A filter that has seen no call. -/
def Watched.new : Watched := ⟨.new, none⟩

/-- A call, with note of the answer. -/
def Watched.step (w : Watched) (c : Call) : Watched :=
  let (ok, f) := w.filter.call c
  ⟨f, match c with
    | .setOffer _ _ => w.keys
    | .answer params source _ _ => if ok then w.filter.answerKeys params source else w.keys⟩

def Watched.run (w : Watched) (cs : List Call) : Watched := cs.foldl Watched.step w

/-- An active filter has the sessions of the last successful answer, and no packet meets a session
that is missing or has no key. -/
structure Watched.Sound (w : Watched) : Prop where
  keyed : w.filter.isActive = true → ∃ keys, w.keys = some keys ∧
    w.filter.sendSession = some ⟨some keys.1⟩ ∧ w.filter.recvSession = some ⟨some keys.2⟩
  protect : w.filter.protectRtp = .refused ∨ ∃ key, w.filter.protectRtp = .keyed key
  unprotect : w.filter.unprotectRtp = .refused ∨ ∃ key, w.filter.unprotectRtp = .keyed key

/-- The filter is not active, or it takes the call without losing its sessions: an offer is not a
second one before the first answer, and the sessions that an answer replaces can be created. -/
def Allowed (f : SrtpFilter) : Call → Prop
  | .setOffer _ source =>
    ¬ (f.state = .sentOffer ∧ source = .csLocal) ∧
      ¬ (f.state = .receivedOffer ∧ source = .csRemote)
  | .answer params source _ results =>
    f.isActive = true → f.expectAnswer source = true →
      ∀ keys, f.answerKeys params source = some keys → Keyable keys results

/-- Every call of a run is allowed where it happens. -/
def Watched.AllowedRun (w : Watched) : List Call → Prop
  | [] => True
  | c :: cs => w.filter.Allowed c ∧ (w.step c).AllowedRun cs

/-- A filter that is not active has no answer to go by. -/
def Watched.Idle (w : Watched) : Prop := w.filter.isActive = false → w.keys = none

theorem isActive_of_state {s : State} (h : f.state = s) :
    f.isActive = decide (State.active.rank ≤ s.rank) := by
  rw [isActive, h]

theorem access_keyed {session : Option SrtpSession}
    (h : f.isActive = true → ∃ key, session = some ⟨some key⟩) :
    f.access session = .refused ∨ ∃ key, f.access session = .keyed key := by
  unfold access
  by_cases hactive : f.isActive = true
  · obtain ⟨key, rfl⟩ := h hactive
    exact .inr ⟨key, by simp [hactive]⟩
  · exact .inl (by simp [hactive])

theorem Watched.sound_iff {w : Watched} :
    w.Sound ↔ (w.filter.isActive = true → ∃ keys, w.keys = some keys ∧
      w.filter.sendSession = some ⟨some keys.1⟩ ∧
      w.filter.recvSession = some ⟨some keys.2⟩) := by
  constructor
  · intro h
    exact h.keyed
  · intro h
    refine ⟨h, access_keyed fun ha => ?_, access_keyed fun ha => ?_⟩
    · obtain ⟨keys, -, hsend, -⟩ := h ha
      exact ⟨keys.1, hsend⟩
    · obtain ⟨keys, -, -, hrecv⟩ := h ha
      exact ⟨keys.2, hrecv⟩

theorem Watched.sound_of_inactive {w : Watched} (h : w.filter.isActive = false) : w.Sound :=
  sound_iff.mpr fun ha => absurd ha (by simp [h])

/-! ## Offers -/

theorem isActive_storeParams (f : SrtpFilter) (params : List CryptoParams)
    (source : ContentSource) :
    (f.storeParams params source).isActive = decide (f.state ≠ .init) := by
  cases source <;> by_cases h : f.state = .init <;>
    simp [storeParams, isActive, h, State.rank]

theorem expectOffer_inactive {source : ContentSource}
    (h : f.expectOffer source = true) (hactive : f.isActive = false) :
    f.state = .init ∨ (f.state = .sentOffer ∧ source = .csLocal) ∨
      (f.state = .receivedOffer ∧ source = .csRemote) := by
  unfold expectOffer at h
  unfold isActive at hactive
  cases hstate : f.state <;> simp_all [State.rank]

variable {w : Watched}

theorem Watched.Idle.setOffer (h : w.Idle) (params : List CryptoParams) (source : ContentSource) :
    (w.step (.setOffer params source)).Idle := by
  intro hactive
  simp only [step, call, SrtpFilter.setOffer] at hactive ⊢
  split at hactive
  · rw [isActive_storeParams] at hactive
    have hinit : w.filter.state = .init := by simpa using hactive
    exact h (isActive_of_state hinit)
  · exact h hactive

theorem Watched.sound_setOffer_iff (hs : w.Sound) (hi : w.Idle) (params : List CryptoParams)
    (source : ContentSource) :
    (w.step (.setOffer params source)).Sound ↔ w.filter.Allowed (.setOffer params source) := by
  have hkeys : (w.step (.setOffer params source)).keys = w.keys := rfl
  by_cases hexpect : w.filter.expectOffer source = true
  · have hfilter : (w.step (.setOffer params source)).filter =
        w.filter.storeParams params source := by
      simp [step, call, SrtpFilter.setOffer, hexpect]
    cases hactive : w.filter.isActive with
    | true =>
      refine ⟨fun _ => ?_, fun _ => ?_⟩
      · constructor <;> rintro ⟨hstate, -⟩ <;>
          simp [isActive, hstate, State.rank] at hactive
      · rw [sound_iff, hkeys, hfilter]
        exact fun _ => hs.keyed hactive
    | false =>
      rcases expectOffer_inactive hexpect hactive with hstate | hstate
      · refine ⟨fun _ => by simp [Allowed, hstate], fun _ => sound_of_inactive ?_⟩
        rw [hfilter, isActive_storeParams, hstate]
        rfl
      · have hnot : ¬ w.filter.Allowed (.setOffer params source) := by
          rintro ⟨h₁, h₂⟩
          exact hstate.elim h₁ h₂
        refine ⟨fun hsound => ?_, fun hallowed => absurd hallowed hnot⟩
        -- the filter is active now, and no answer has keyed its sessions
        have hne : w.filter.state ≠ .init := by
          rcases hstate with ⟨hstate, -⟩ | ⟨hstate, -⟩ <;> simp [hstate]
        have hnow : (w.step (.setOffer params source)).filter.isActive = true := by
          rw [hfilter, isActive_storeParams]
          exact decide_eq_true hne
        obtain ⟨keys, hsome, -⟩ := hsound.keyed hnow
        rw [hkeys, hi hactive] at hsome
        cases hsome
  · have hfilter : (w.step (.setOffer params source)).filter = w.filter := by
      simp [step, call, SrtpFilter.setOffer, hexpect]
    refine ⟨fun _ => ?_, fun _ => ?_⟩
    · constructor <;> rintro ⟨hstate, rfl⟩ <;> simp [expectOffer, hstate] at hexpect
    · rw [sound_iff, hkeys, hfilter]
      exact hs.keyed

/-! ## Answers -/

theorem isActive_declined (f : SrtpFilter) (source : ContentSource) (final : Bool) :
    (f.declined source final).isActive = false := by
  cases final <;> cases source <;> rfl

theorem isActive_answered (f : SrtpFilter) (source : ContentSource) (final : Bool) :
    (f.answered source final).isActive = true := by
  cases final <;> cases source <;> rfl

theorem answered_sessions (f : SrtpFilter) (source : ContentSource) (final : Bool) :
    (f.answered source final).sendSession = f.sendSession ∧
      (f.answered source final).recvSession = f.recvSession := by
  cases final <;> exact ⟨rfl, rfl⟩

theorem Watched.step_answer (w : Watched) (params : List CryptoParams) (source : ContentSource)
    (final : Bool) (results : SrtpResults) {ok : Bool}
    (h : w.filter.doSetAnswer params source final results = (ok, f)) :
    w.step (.answer params source final results) =
      ⟨f, if ok then w.filter.answerKeys params source else w.keys⟩ := by
  rw [step, call_answer, h]

theorem Watched.Idle.answer (h : w.Idle) (params : List CryptoParams) (source : ContentSource)
    (final : Bool) (results : SrtpResults) :
    (w.step (.answer params source final results)).Idle := by
  obtain ⟨-, hparams, heq⟩ | ⟨keys, -, -, -, -, heq⟩ | ⟨keys, -, -, -, -, heq⟩ | ⟨-, heq⟩ :=
    w.filter.doSetAnswer_cases params source final results
  · rw [w.step_answer _ _ _ _ heq, hparams]
    exact fun _ => rfl
  · rw [w.step_answer _ _ _ _ heq]
    intro hactive
    rw [isActive_answered] at hactive
    cases hactive
  · rw [w.step_answer _ _ _ _ heq]
    exact h
  · rw [w.step_answer _ _ _ _ heq]
    exact h

theorem Watched.sound_answer_iff (hs : w.Sound) (params : List CryptoParams)
    (source : ContentSource) (final : Bool) (results : SrtpResults) :
    (w.step (.answer params source final results)).Sound ↔
      w.filter.Allowed (.answer params source final results) := by
  obtain ⟨-, hparams, heq⟩ | ⟨keys, -, -, hkeys, hkeyable, heq⟩ |
    ⟨keys, hexpect, -, hkeys, hkeyable, heq⟩ | ⟨hnone, heq⟩ :=
    w.filter.doSetAnswer_cases params source final results
  · rw [w.step_answer _ _ _ _ heq]
    refine ⟨fun _ _ _ keys hkeys => ?_, fun _ => sound_of_inactive (isActive_declined _ _ _)⟩
    rw [hparams, answerKeys_nil] at hkeys
    cases hkeys
  · rw [w.step_answer _ _ _ _ heq]
    refine ⟨fun _ _ _ keys' hkeys' => ?_, fun _ => sound_iff.mpr fun _ => ⟨keys, hkeys, ?_⟩⟩
    · rw [hkeys] at hkeys'
      cases hkeys'
      exact hkeyable
    · exact answered_sessions _ _ _
  · rw [w.step_answer _ _ _ _ heq]
    cases hactive : w.filter.isActive with
    | false =>
      exact ⟨fun _ ha => absurd ha (by simp [hactive]), fun _ => sound_of_inactive hactive⟩
    | true =>
      refine ⟨fun hsound => ?_, fun hallowed => ?_⟩
      · -- the receive session is there without a key
        obtain ⟨_, -, -, hrecv⟩ := hsound.keyed hactive
        cases hrecv
      · exact absurd (hallowed hactive hexpect keys hkeys) hkeyable
  · rw [w.step_answer _ _ _ _ heq]
    refine ⟨fun _ _ hexpect keys hkeys => ?_, fun _ => sound_iff.mpr hs.keyed⟩
    rw [(hnone hexpect).2] at hkeys
    cases hkeys

/-! ## Whole runs -/

theorem Watched.Idle.step (h : w.Idle) (c : Call) : (w.step c).Idle := by
  cases c with
  | setOffer params source => exact h.setOffer params source
  | answer params source final results => exact h.answer params source final results

/-- **A call keeps the sessions of an active filter exactly if it is allowed.** -/
theorem Watched.sound_step_iff (hs : w.Sound) (hi : w.Idle) (c : Call) :
    (w.step c).Sound ↔ w.filter.Allowed c := by
  cases c with
  | setOffer params source => exact sound_setOffer_iff hs hi params source
  | answer params source final results => exact sound_answer_iff hs params source final results

theorem Watched.sound_run_iff (hs : w.Sound) (hi : w.Idle) (cs : List Call) :
    (∀ n, (w.run (cs.take n)).Sound) ↔ w.AllowedRun cs := by
  induction cs generalizing w with
  | nil =>
    refine ⟨fun _ => trivial, fun _ n => ?_⟩
    rw [List.take_nil]
    exact hs
  | cons c cs ih =>
    constructor
    · intro hall
      have hstep : (w.step c).Sound := hall 1
      refine ⟨(sound_step_iff hs hi c).mp hstep, ?_⟩
      exact (ih hstep (hi.step c)).mp fun n => hall (n + 1)
    · rintro ⟨hallowed, hrest⟩ n
      have hstep : (w.step c).Sound := (sound_step_iff hs hi c).mpr hallowed
      cases n with
      | zero => exact hs
      | succ n => exact (ih hstep (hi.step c)).mpr hrest n

/-- **Srtp filter activation.** In every state of a run of calls, an active filter has the sessions
that the last successful answer keyed, exactly if no offer is set again before the first answer and
every answer that replaces the sessions of an active filter can create them. -/
theorem sessions_keyed_iff (cs : List Call) :
    (∀ n, (Watched.new.run (cs.take n)).Sound) ↔ Watched.new.AllowedRun cs :=
  Watched.sound_run_iff (Watched.sound_of_inactive rfl) (fun _ => rfl) cs

theorem second_offer_activates :
    ¬ ∀ (cs : List Call) (n : Nat), (Watched.new.run (cs.take n)).Sound := by
  intro hall
  have hs := hall [.setOffer [] .csLocal, .setOffer [] .csLocal] 2
  obtain ⟨_, hkeys, -⟩ := hs.keyed rfl
  cases hkeys

/-- The next packet meets a missing session. -/
example :
    (Watched.new.run [.setOffer [] .csLocal, .setOffer [] .csLocal]).filter.protectRtp = .missing :=
  rfl

/-! ## Failed answers -/

def sendKey (f : SrtpFilter) : Option SrtpKey := f.sendSession.bind SrtpSession.session

/-- The key of the receive session. -/
def recvKey (f : SrtpFilter) : Option SrtpKey := f.recvSession.bind SrtpSession.session

/-- The negotiation and the keys in use are the same. -/
structure Unchanged (f f' : SrtpFilter) : Prop where
  state : f'.state = f.state
  offerParams : f'.offerParams = f.offerParams
  sendKey : f'.sendKey = f.sendKey
  recvKey : f'.recvKey = f.recvKey

theorem unchanged_broken_iff (f : SrtpFilter) (keys : SrtpKey × SrtpKey) (results : SrtpResults) :
    f.Unchanged (f.broken keys results) ↔
      f.recvKey = none ∧ f.sendKey = if keyable keys.1 results.send then some keys.1 else none := by
  constructor
  · intro h
    exact ⟨h.recvKey.symm, h.sendKey.symm⟩
  · rintro ⟨hrecv, hsend⟩
    exact ⟨rfl, rfl, hsend.symm, hrecv.symm⟩

/-- **A failed answer keeps the running keys** exactly if it fails before the sessions are replaced,
or what it leaves in their place is what was there: no key to receive with, and the key it got to.
-/
theorem failed_answer_keeps_iff (f : SrtpFilter) (params : List CryptoParams)
    (source : ContentSource) (final : Bool) (results : SrtpResults) :
    ((f.call (.answer params source final results)).1 = false →
      f.Unchanged (f.call (.answer params source final results)).2) ↔
    ∀ keys, f.expectAnswer source = true → f.answerKeys params source = some keys →
      ¬ Keyable keys results → f.recvKey = none ∧
        f.sendKey = if keyable keys.1 results.send then some keys.1 else none := by
  rw [call_answer]
  obtain ⟨-, hparams, heq⟩ | ⟨keys, -, -, hkeys, hkeyable, heq⟩ |
    ⟨keys, hexpect, -, hkeys, hkeyable, heq⟩ | ⟨hnone, heq⟩ :=
    f.doSetAnswer_cases params source final results
  · rw [heq]
    refine ⟨fun _ keys _ hkeys => ?_, fun _ h => by cases h⟩
    rw [hparams, answerKeys_nil] at hkeys
    cases hkeys
  · rw [heq]
    refine ⟨fun _ keys' _ hkeys' hnot => ?_, fun _ h => by cases h⟩
    rw [hkeys] at hkeys'
    cases hkeys'
    exact absurd hkeyable hnot
  · rw [heq, unchanged_broken_iff]
    refine ⟨fun h keys' _ hkeys' _ => ?_, fun h _ => h keys hexpect hkeys hkeyable⟩
    rw [hkeys] at hkeys'
    cases hkeys'
    exact h rfl
  · rw [heq]
    refine ⟨fun _ keys hexpect hkeys => ?_, fun _ _ => ⟨rfl, rfl, rfl, rfl⟩⟩
    rw [(hnone hexpect).2] at hkeys
    cases hkeys

theorem failed_answer_drops_keys :
    ¬ ∀ (cs : List Call) (params : List CryptoParams) (source : ContentSource) (final : Bool)
      (results : SrtpResults),
      let f := (Watched.new.run cs).filter
      f.state = .sentUpdatedOffer ∨ f.state = .receivedUpdatedOffer →
      (f.call (.answer params source final results)).1 = false →
      f.Unchanged (f.call (.answer params source final results)).2 := by
  intro hall
  let key : Text := "inline:YUJDZGVmZ2hpSktMbW9QUXJzVHVWd3l6MTIzNDU2".toList
  let known : CryptoParams := ⟨1, csAesCm128HmacSha1_80, key, []⟩
  let unknown : CryptoParams := ⟨1, "F8_128_HMAC_SHA1_80".toList, key, []⟩
  have h := hall [.setOffer [known] .csLocal, .answer [known] .csRemote true ⟨true, true⟩,
    .setOffer [unknown] .csLocal] [unknown] .csRemote true ⟨true, true⟩ (.inl (by decide +kernel))
    (by decide +kernel)
  exact absurd h.recvKey (by decide +kernel)

end Libjingle.Media.SrtpFilter
