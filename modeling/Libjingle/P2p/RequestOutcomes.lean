import Libjingle.P2p.StunRequest
import Libjingle.Lib.Objects

/-!
# The outcome of a STUN request (`stunrequest.cc`)

A request ends with a response, an error response, a timeout or `Clear`. Each of these deletes it,
and its destructor takes it out of `requests_` and cancels its timer.

## Results

* **`request_outcomes`**: a request is sent at most `MAX_SENDS` times and has at most one outcome;
  then it is gone.
-/

namespace Libjingle

open Lib StunMessage

namespace StunRequestManager

/-! ## The property -/

/-- The requests that an event sends. -/
def Event.added : Event → List NewRequest
  | .send _ request _ => [request]
  | .packet _ _ added | .message _ _ added | .timer _ _ added => added.map Prod.fst
  | .clear => []

/-- The requests have transaction ids of their own, as `SendDelayed` asserts. -/
def Fresh (m : StunRequestManager) (added : List NewRequest) : Prop :=
  (added.map NewRequest.id).Nodup ∧ ∀ r ∈ added, r.id ∉ m.requests.map Prod.fst

/-- A run in which the requests have distinct transaction ids: none is sent with the id of another
that is still in `requests_`. -/
def Distinct (m : StunRequestManager) : List Event → Prop
  | [] => True
  | e :: es => m.Fresh e.added ∧ ∀ m' out, m.step e = some (m', out) → m'.Distinct es

instance (m : StunRequestManager) (added : List NewRequest) : Decidable (m.Fresh added) :=
  inferInstanceAs (Decidable ((added.map NewRequest.id).Nodup ∧
    ∀ r ∈ added, r.id ∉ m.requests.map Prod.fst))

instance decidableDistinct : ∀ (m : StunRequestManager) (es : List Event),
    Decidable (m.Distinct es)
  | _, [] => isTrue trivial
  | m, e :: es =>
    match h : m.step e with
    | none => decidable_of_iff (m.Fresh e.added)
        ⟨fun hf => ⟨hf, fun _ _ hs => (Option.some_ne_none _ (hs.symm.trans h)).elim⟩, And.left⟩
    | some (m', out) =>
      have := decidableDistinct m' es
      decidable_of_iff (m.Fresh e.added ∧ m'.Distinct es)
        ⟨fun hd => ⟨hd.1, fun _ _ hs => by
          obtain ⟨rfl, -⟩ := Prod.mk.inj (Option.some.inj (h.symm.trans hs))
          exact hd.2⟩, fun hd => ⟨hd.1, hd.2 m' out h⟩⟩

def isTransmission (uid : Nat) : RequestOutput → Bool
  | .transmitted uid' _ => uid' = uid
  | _ => false

/-- A handler of a request is called. -/
def isOutcome (uid : Nat) : RequestOutput → Bool
  | .response uid' _ | .errorResponse uid' _ | .timeout uid' => uid' = uid
  | .transmitted .. => false

def sends (uid : Nat) (log : List RequestOutput) : Nat := log.countP (isTransmission uid)

/-- How often a handler of a request is called. -/
def outcomes (uid : Nat) (log : List RequestOutput) : Nat := log.countP (isOutcome uid)

/-- How many timers of a request are pending. -/
def timers (m : StunRequestManager) (uid : Nat) : Nat := m.pending.countP fun t => t.1 = uid

/-- The request waits for its response: it is in `requests_` and has one timer. -/
structure Waiting (m : StunRequestManager) (uid : Nat) : Prop where
  listed : (m.requests.map Prod.snd).count uid = 1
  timer : m.timers uid = 1

/-- The request is out of `requests_`, it has no timer and it is deleted. -/
structure Gone (m : StunRequestManager) (uid : Nat) : Prop where
  unlisted : uid ∉ m.requests.map Prod.snd
  timer : m.timers uid = 0
  deleted : m.object uid = none

/-- A message is a response of one of the two types to a request that is waiting. -/
def Expects (m : StunRequestManager) (msg : StunMessage) : Prop :=
  ∃ r ∈ m.objects, msg.transactionId = r.id ∧
    (some msg.type = getStunSuccessResponseType r.msg.type ∨
      some msg.type = getStunErrorResponseType r.msg.type)

/-- A packet is such a message, for the request's class of messages. -/
def Answers (m : StunRequestManager) (data : List U8) : Prop :=
  ∃ r ∈ m.objects, ∃ msg, (StunMessage.new r.msg.cls).read data = some msg ∧
    msg.transactionId = r.id ∧ (some msg.type = getStunSuccessResponseType r.msg.type ∨
      some msg.type = getStunErrorResponseType r.msg.type)

/-! ## Counting -/

section

variable {uid : Nat} {log : List RequestOutput} {o : RequestOutput}

theorem sends_concat :
    sends uid (log ++ [o]) = sends uid log + if isTransmission uid o then 1 else 0 := by
  unfold sends
  rw [List.countP_append, List.countP_singleton]

theorem outcomes_concat :
    outcomes uid (log ++ [o]) = outcomes uid log + if isOutcome uid o then 1 else 0 := by
  unfold outcomes
  rw [List.countP_append, List.countP_singleton]

end

end StunRequestManager

namespace StunRequest

variable {r : StunRequest} {n : Nat}

/-- A request that has been sent this often. It times out after the last time. -/
def Counted (r : StunRequest) (n : Nat) : Prop :=
  match r.cls with
  | .base => n = r.count ∧ r.count ≤ maxSends ∧ (r.timeout = true ↔ r.count = maxSends)
  | .allocate => n = r.count ∧ r.count ≤ 5 ∧ (r.timeout = true ↔ r.count = 5)
  | .connection => n = if r.timeout then 1 else 0

theorem Counted.le (h : r.Counted n) : n ≤ maxSends := by
  unfold Counted at h
  cases hc : r.cls <;> simp only [hc] at h
  · omega
  · exact Nat.le_trans (by omega : n ≤ 5) (by decide)
  · split at h
    · exact h ▸ (by decide)
    · exact h ▸ (by decide)

/-- `GetNextDelay` after one more time. -/
theorem Counted.next (h : r.Counted n) (ht : r.timeout = false) :
    r.getNextDelay.2.Counted (n + 1) := by
  unfold Counted at h ⊢
  unfold getNextDelay
  cases hc : r.cls <;> simp only [hc, ht, Bool.false_eq_true, false_iff, if_false] at h ⊢
  · obtain ⟨rfl, hle, hne⟩ := h
    refine ⟨rfl, by omega, ?_⟩
    split <;> simp_all
  · obtain ⟨rfl, hle, hne⟩ := h
    refine ⟨rfl, by omega, ?_⟩
    split <;> simp_all
  · rw [h]
    rfl

theorem getNextDelay_eq (r : StunRequest) :
    r.getNextDelay.2.uid = r.uid ∧ r.getNextDelay.2.toNewRequest = r.toNewRequest := by
  unfold getNextDelay
  cases r.cls <;> exact ⟨rfl, rfl⟩

end StunRequest

namespace StunRequestManager

variable {m m' : StunRequestManager} {log out : List RequestOutput} {dying : Option Nat}
  {r : StunRequest}

/-! ## The invariant -/

/-- `requests_` lists the requests that exist. Each has one timer, no handler of it has been called
and it has been sent as often as it has counted, except one that is about to be deleted. -/
structure Sound (dying : Option Nat) (m : StunRequestManager) (log : List RequestOutput) :
    Prop where
  uids : (m.objects.map StunRequest.uid).Nodup
  ids : (m.objects.map fun r => r.id).Nodup
  requests : m.requests = m.objects.map fun r => (r.id, r.uid)
  fresh : ∀ r ∈ m.objects, r.uid < m.nextUid
  waiting : ∀ r ∈ m.objects, dying ≠ some r.uid →
    m.timers r.uid = 1 ∧ outcomes r.uid log = 0 ∧ r.Counted (sends r.uid log)
  idle : ∀ uid, m.object uid = none → m.timers uid = 0
  unborn : ∀ uid, m.nextUid ≤ uid → sends uid log = 0 ∧ outcomes uid log = 0
  bounded : ∀ uid, sends uid log ≤ maxSends ∧ outcomes uid log ≤ 1

theorem sound_new : new.Sound none [] where
  uids := List.nodup_nil
  ids := List.nodup_nil
  requests := rfl
  fresh := List.forall_mem_nil _
  waiting := List.forall_mem_nil _
  idle _ _ := rfl
  unborn _ _ := ⟨rfl, rfl⟩
  bounded _ := ⟨Nat.zero_le _, Nat.zero_le _⟩

theorem object_eq_none {uid : Nat} : m.object uid = none ↔ ∀ r ∈ m.objects, r.uid ≠ uid := by
  unfold object
  rw [List.find?_eq_none]
  simp only [decide_eq_true_eq]

variable {id : List U8}

theorem find_eq_none : m.find id = none ↔ id ∉ m.requests.map Prod.fst := by
  unfold find
  rw [Option.map_eq_none_iff, List.find?_eq_none]
  simp only [decide_eq_true_eq, List.mem_map, not_exists, not_and]

theorem Sound.object (h : m.Sound dying log) (hr : r ∈ m.objects) : m.object r.uid = some r :=
  find_of_mem h.uids hr

/-- A lookup in `requests_` finds an object. -/
theorem Sound.find (h : m.Sound dying log) {uid : Nat} (hf : m.find id = some uid) :
    ∃ r ∈ m.objects, r.uid = uid ∧ r.id = id := by
  obtain ⟨e, he, rfl⟩ := Option.map_eq_some_iff.mp hf
  have hmem := List.mem_of_find?_eq_some he
  rw [h.requests] at hmem
  obtain ⟨r, hr, rfl⟩ := List.mem_map.mp hmem
  exact ⟨r, hr, rfl, by simpa using List.find?_some he⟩

theorem Sound.find_of_mem (h : m.Sound dying log) (hr : r ∈ m.objects) :
    m.find r.id = some r.uid := by
  have hlist : (r.id, r.uid) ∈ m.requests := by
    rw [h.requests]
    exact List.mem_map.mpr ⟨r, hr, rfl⟩
  have hkeys : (m.requests.map Prod.fst).Nodup := by
    rw [h.requests, List.map_map]
    exact h.ids
  unfold StunRequestManager.find
  rw [Lib.find_of_mem hkeys hlist]
  rfl

theorem Sound.dying_of_none (h : m.Sound none log) (uid : Nat) : m.Sound (some uid) log :=
  { h with waiting := fun r hr _ => h.waiting r hr (Option.some_ne_none _).symm }

/-! ## Sending -/

theorem Sound.sendDelayed (h : m.Sound dying log) (now : U32) {request : NewRequest} (delay : U32)
    (hid : request.id ∉ m.requests.map Prod.fst) :
    (m.sendDelayed now request delay).Sound dying log := by
  have hnone : m.object m.nextUid = none :=
    object_eq_none.mpr fun r hr => Nat.ne_of_lt (h.fresh r hr)
  have hunborn := h.unborn m.nextUid (Nat.le_refl _)
  have hkeys : m.requests.map Prod.fst = m.objects.map fun r => r.id := by
    rw [h.requests, List.map_map]
    rfl
  have htimers : ∀ uid, (m.sendDelayed now request delay).timers uid =
      m.timers uid + if m.nextUid = uid then 1 else 0 := by
    intro uid
    unfold timers StunRequestManager.sendDelayed
    rw [List.countP_append, List.countP_singleton]
    simp only [decide_eq_true_eq]
  refine ⟨?_, ?_, ?_, fun r hr => ?_, fun r hr hd => ?_, fun uid hnew => ?_, fun uid hle => ?_,
    h.bounded⟩
  · simp only [StunRequestManager.sendDelayed, List.map_append, List.map_cons, List.map_nil]
    refine List.nodup_append.mpr ⟨h.uids, List.nodup_singleton _, ?_⟩
    rintro _ hx _ hy rfl
    obtain ⟨r, hr, heq⟩ := List.mem_map.mp hx
    exact Nat.ne_of_lt (h.fresh r hr) (heq.trans (List.mem_singleton.mp hy))
  · simp only [StunRequestManager.sendDelayed, List.map_append, List.map_cons, List.map_nil]
    refine List.nodup_append.mpr ⟨h.ids, List.nodup_singleton _, ?_⟩
    rintro _ hx _ hy rfl
    rw [hkeys] at hid
    exact hid (List.mem_singleton.mp hy ▸ hx)
  · simp only [StunRequestManager.sendDelayed, if_pos (find_eq_none.mpr hid), h.requests,
      List.map_append, List.map_cons, List.map_nil]
  · rcases List.mem_append.mp hr with hr | hr
    · exact Nat.lt_succ_of_lt (h.fresh r hr)
    · obtain rfl := List.mem_singleton.mp hr
      exact Nat.lt_succ_self _
  · rcases List.mem_append.mp hr with hr | hr
    · rw [htimers, if_neg (Nat.ne_of_gt (h.fresh r hr))]
      exact h.waiting r hr hd
    · obtain rfl := List.mem_singleton.mp hr
      rw [htimers, if_pos rfl, h.idle _ hnone, hunborn.1, hunborn.2]
      refine ⟨rfl, rfl, ?_⟩
      unfold StunRequest.Counted
      cases request.cls
      · exact ⟨rfl, Nat.zero_le _, iff_of_false Bool.false_ne_true (Nat.zero_ne_add_one 8)⟩
      · exact ⟨rfl, Nat.zero_le _, iff_of_false Bool.false_ne_true (Nat.zero_ne_add_one 4)⟩
      · rfl
  · have hne := object_eq_none.mp hnew
    have hlast : m.nextUid ≠ uid :=
      hne _ (List.mem_append_right _ (List.mem_singleton_self _))
    rw [htimers, if_neg hlast, h.idle uid]
    exact object_eq_none.mpr fun r hr => hne r (List.mem_append_left _ hr)
  · exact h.unborn uid (Nat.le_of_succ_le hle)

theorem Fresh.tail {now delay : U32} {a : NewRequest} {added : List NewRequest}
    (h : m.Fresh (a :: added)) : (m.sendDelayed now a delay).Fresh added := by
  obtain ⟨hnodup, hnew⟩ := h
  rw [List.map_cons, List.nodup_cons] at hnodup
  refine ⟨hnodup.2, fun r hr hmem => ?_⟩
  unfold StunRequestManager.sendDelayed at hmem
  simp only [if_pos (find_eq_none.mpr (hnew a List.mem_cons_self)), List.map_append, List.map_cons,
    List.map_nil] at hmem
  rcases List.mem_append.mp hmem with hmem | hmem
  · exact hnew r (List.mem_cons_of_mem _ hr) hmem
  · exact hnodup.1 (List.mem_singleton.mp hmem ▸ List.mem_map_of_mem hr)

variable {added : List (NewRequest × U32)}

theorem Sound.sendAll {now : U32} : ∀ {m : StunRequestManager},
    m.Sound dying log → m.Fresh (added.map Prod.fst) →
    (m.sendAll now added).Sound dying log ∧
      ∀ r ∈ m.objects, r ∈ (m.sendAll now added).objects := by
  induction added with
  | nil => exact fun h _ => ⟨h, fun r hr => hr⟩
  | cons a added ih =>
    intro m h hfresh
    have hsent := h.sendDelayed now a.2 (hfresh.2 a.1 List.mem_cons_self)
    obtain ⟨hall, hkept⟩ := ih hsent (Fresh.tail hfresh)
    exact ⟨hall, fun r hr => hkept r (List.mem_append_left _ hr)⟩

/-! ## Deleting -/

theorem Sound.delete_eq (h : m.Sound dying log) (hr : r ∈ m.objects) : m.delete r =
    { m with
      requests := m.requests.filter fun e => e.1 ≠ r.id
      pending := m.pending.filter fun t => t.1 ≠ r.uid
      objects := m.objects.filter fun o => o.uid ≠ r.uid } := by
  unfold delete remove clearTimers
  rw [h.find_of_mem hr]
  simp only [List.filter_filter, Bool.and_self]

/-- What is deleted is out of `requests_`, and its timer is cancelled. -/
theorem Sound.delete (h : m.Sound (some r.uid) log) (hr : r ∈ m.objects) :
    (m.delete r).Sound none log := by
  have hsame : ∀ o ∈ m.objects, o.id = r.id ↔ o.uid = r.uid := by
    intro o ho
    constructor
    · intro heq
      have hfind := h.find_of_mem ho
      rw [heq, h.find_of_mem hr] at hfind
      exact (Option.some.inj hfind).symm
    · intro heq
      have hobj := h.object ho
      rw [heq, h.object hr] at hobj
      rw [Option.some.inj hobj]
  have hother : ∀ uid, uid ≠ r.uid → (m.delete r).timers uid = m.timers uid := by
    intro uid hne
    rw [h.delete_eq hr]
    unfold timers
    rw [List.countP_filter]
    refine List.countP_congr fun t _ => ?_
    simp only [Bool.and_eq_true, decide_eq_true_eq]
    exact ⟨fun ht => ht.1, fun ht => ⟨ht, fun hr => hne (ht.symm.trans hr)⟩⟩
  have hself : (m.delete r).timers r.uid = 0 := by
    rw [h.delete_eq hr]
    unfold timers
    rw [List.countP_filter, List.countP_eq_zero]
    intro t _
    simp
  have hobjects : ∀ o ∈ (m.delete r).objects, o ∈ m.objects ∧ o.uid ≠ r.uid := by
    intro o ho
    rw [h.delete_eq hr] at ho
    exact ⟨(List.mem_filter.mp ho).1, by simpa using (List.mem_filter.mp ho).2⟩
  have hsub : (m.delete r).objects.Sublist m.objects := by
    rw [h.delete_eq hr]
    exact List.filter_sublist
  have hnext : (m.delete r).nextUid = m.nextUid := by rw [h.delete_eq hr]
  refine ⟨h.uids.sublist (hsub.map _), h.ids.sublist (hsub.map _), ?_, fun o ho => ?_,
    fun o ho _ => ?_, fun uid hnone => ?_, ?_, h.bounded⟩
  · rw [h.delete_eq hr]
    simp only
    rw [h.requests, List.filter_map]
    congr 1
    refine List.filter_congr fun o ho => ?_
    simp only [Function.comp_apply, ne_eq, hsame o ho]
  · rw [hnext]
    exact h.fresh o (hobjects o ho).1
  · obtain ⟨hmem, hne⟩ := hobjects o ho
    rw [hother _ hne]
    exact h.waiting o hmem fun heq => hne (Option.some.inj heq).symm
  · by_cases huid : uid = r.uid
    · rw [huid, hself]
    · rw [hother uid huid]
      refine h.idle uid (object_eq_none.mpr fun o ho heq => ?_)
      refine object_eq_none.mp hnone o ?_ heq
      rw [h.delete_eq hr]
      exact List.mem_filter.mpr ⟨ho, by simpa [heq] using huid⟩
  · rw [hnext]
    exact h.unborn

theorem Sound.deleteAll {uids : List Nat} : ∀ {m : StunRequestManager}, m.Sound none log →
    m.objects.map StunRequest.uid = uids →
    ∃ m', m.deleteAll uids = some m' ∧ m'.Sound none log ∧ m'.objects = [] := by
  induction uids with
  | nil => exact fun h huids => ⟨_, rfl, h, List.map_eq_nil_iff.mp huids⟩
  | cons uid uids ih =>
    intro m h huids
    obtain ⟨r, rest, hobjects, rfl, hrest⟩ := List.map_eq_cons_iff.mp huids
    have hr : r ∈ m.objects := hobjects ▸ List.mem_cons_self
    have hnodup := h.uids
    rw [huids, List.nodup_cons] at hnodup
    have hleft : (m.delete r).objects.map StunRequest.uid = uids := by
      rw [h.delete_eq hr]
      simp only [hobjects, ne_eq, not_true_eq_false, decide_false, Bool.false_eq_true,
        not_false_eq_true, List.filter_cons_of_neg]
      rw [List.filter_eq_self.mpr, hrest]
      intro o ho
      simp only [decide_eq_true_eq]
      rintro heq
      exact hnodup.1 (heq ▸ hrest ▸ List.mem_map_of_mem ho)
    obtain ⟨m', hm', hs, hnil⟩ := ih ((h.dying_of_none r.uid).delete hr) hleft
    refine ⟨m', ?_, hs, hnil⟩
    rw [StunRequestManager.deleteAll, h.object hr, Option.bind_some, hm']

theorem Sound.pending_nil (h : m.Sound dying log) (hnil : m.objects = []) :
    m.requests = [] ∧ m.pending = [] := by
  constructor
  · rw [h.requests, hnil]
    rfl
  · refine List.eq_nil_iff_forall_not_mem.mpr fun t ht => ?_
    have hidle := h.idle t.1 (object_eq_none.mpr (by rw [hnil]; exact List.forall_mem_nil _))
    exact List.countP_eq_zero.mp hidle t ht (decide_eq_true rfl)

/-- **`Clear`** deletes every request. -/
theorem Sound.clear (h : m.Sound none log) :
    ∃ m', m.clear = some m' ∧ m'.Sound none log ∧ m'.objects = [] := by
  refine h.deleteAll ?_
  rw [h.requests, List.map_map]
  rfl

/-! ## Outcomes -/

theorem Sound.outcome (h : m.Sound none log) (hr : r ∈ m.objects) {o : RequestOutput}
    (hout : ∀ uid, isOutcome uid o = decide (r.uid = uid))
    (hsent : ∀ uid, isTransmission uid o = false) : m.Sound (some r.uid) (log ++ [o]) := by
  have hs : ∀ uid, sends uid (log ++ [o]) = sends uid log := by
    intro uid
    rw [sends_concat, hsent, if_neg Bool.false_ne_true, Nat.add_zero]
  have ho : ∀ uid, outcomes uid (log ++ [o]) = outcomes uid log + if r.uid = uid then 1 else 0 := by
    intro uid
    rw [outcomes_concat, hout]
    simp only [decide_eq_true_eq]
  refine ⟨h.uids, h.ids, h.requests, h.fresh, fun o' ho' hd => ?_, h.idle, fun uid hle => ?_,
    fun uid => ?_⟩
  · rw [hs, ho, if_neg fun heq => hd (congrArg some heq)]
    exact h.waiting o' ho' (Option.some_ne_none _).symm
  · rw [hs, ho, if_neg (Nat.ne_of_lt (Nat.lt_of_lt_of_le (h.fresh r hr) hle))]
    exact h.unborn uid hle
  · rw [hs, ho]
    refine ⟨(h.bounded uid).1, ?_⟩
    split
    · rename_i heq
      rw [← heq, (h.waiting r hr (Option.some_ne_none _).symm).2.1]
    · exact (h.bounded uid).2

theorem Sound.finish (h : m.Sound (some r.uid) log) (hr : r ∈ m.objects) (now : U32)
    (hfresh : m.Fresh (added.map Prod.fst)) :
    ((m.sendAll now added).delete r).Sound none log := by
  obtain ⟨hall, hkept⟩ := h.sendAll hfresh
  exact hall.delete (hkept r hr)

/-- **`CheckResponse`** of a message has a result. -/
theorem Sound.checkResponse (h : m.Sound none log) (now : U32) (msg : StunMessage)
    (hfresh : m.Fresh (added.map Prod.fst)) :
    ∃ m' out, m.checkResponse now msg added = some (m', out) ∧ m'.Sound none (log ++ out) := by
  unfold StunRequestManager.checkResponse
  cases hf : m.find msg.transactionId with
  | none => exact ⟨m, [], rfl, by rwa [List.append_nil]⟩
  | some uid =>
    obtain ⟨r, hr, rfl, hid⟩ := h.find hf
    simp only [h.object hr, Option.map_some, Option.some.injEq]
    split
    · refine ⟨_, _, rfl, ?_⟩
      exact (h.outcome hr (fun _ => rfl) fun _ => rfl).finish hr now hfresh
    split
    · refine ⟨_, _, rfl, ?_⟩
      exact (h.outcome hr (fun _ => rfl) fun _ => rfl).finish hr now hfresh
    · exact ⟨m, [], rfl, by rwa [List.append_nil]⟩

theorem Sound.checkPacket (h : m.Sound none log) (now : U32) (data : List U8)
    (hfresh : m.Fresh (added.map Prod.fst)) :
    ∃ m' out, m.checkPacket now data added = some (m', out) ∧ m'.Sound none (log ++ out) := by
  have hsame : m.Sound none (log ++ []) := by rwa [List.append_nil]
  unfold StunRequestManager.checkPacket
  split
  · exact ⟨m, [], rfl, hsame⟩
  split
  · exact ⟨m, [], rfl, hsame⟩
  · rename_i uid hf
    obtain ⟨r, hr, rfl, hid⟩ := h.find hf
    rw [h.object hr, Option.bind_some]
    split
    · exact ⟨m, [], rfl, hsame⟩
    · exact h.checkResponse now _ hfresh

/-! ## Timers -/

variable {t : Nat × U32}

theorem Sound.eraseTimer {uid : Nat} (h : m.Sound (some uid) log)
    (ht : t ∈ m.pending) (htuid : t.1 = uid) :
    Sound (some uid) { m with pending := m.pending.erase t } log := by
  have hother : ∀ u, u ≠ uid →
      timers { m with pending := m.pending.erase t } u = m.timers u := by
    intro u hne
    have hperm := (List.perm_cons_erase ht).countP_eq fun t => decide (t.1 = u)
    rw [List.countP_cons_of_neg (by simpa [htuid] using Ne.symm hne)] at hperm
    exact hperm.symm
  refine ⟨h.uids, h.ids, h.requests, h.fresh, fun r hr hd => ?_, fun u hnone => ?_, h.unborn,
    h.bounded⟩
  · rw [hother r.uid fun heq => hd (congrArg some heq.symm)]
    exact h.waiting r hr hd
  · exact Nat.le_zero.mp
      (Nat.le_trans (List.erase_sublist.countP_le) (Nat.le_of_eq (h.idle u hnone)))

theorem Sound.transmit (h : m.Sound none log) (hr : r ∈ m.objects) (hlive : r.timeout = false)
    (ht : t ∈ m.pending) (htuid : t.1 = r.uid) (now : U32)
    (added : List (NewRequest × U32)) :
    (onMessage { m with pending := m.pending.erase t } now r added).1.Sound none
      (log ++ (onMessage { m with pending := m.pending.erase t } now r added).2) := by
  obtain ⟨huid, hnew⟩ := StunRequest.getNextDelay_eq { r with tstamp := now }
  obtain ⟨htimer, hquiet, hcounted⟩ := h.waiting r hr (Option.some_ne_none _).symm
  have hcounted : StunRequest.Counted { r with tstamp := now } (sends r.uid log) := hcounted
  have hnext := hcounted.next hlive
  unfold onMessage
  rw [if_neg (by rw [hlive]; exact Bool.false_ne_true)]
  simp only
  generalize StunRequest.getNextDelay { r with tstamp := now } = d at huid hnew hnext ⊢
  simp only at huid hnew
  -- the objects are the same ones, and each keeps its transaction id
  have hkept : ∀ o ∈ m.objects, (if o.uid = r.uid then d.2 else o).uid = o.uid ∧
      (if o.uid = r.uid then d.2 else o).id = o.id := by
    intro o ho
    split
    · rename_i heq
      have hobj := h.object ho
      rw [heq, h.object hr] at hobj
      rw [← Option.some.inj hobj, hnew]
      exact ⟨huid, rfl⟩
    · exact ⟨rfl, rfl⟩
  have hpending : ∀ u, (m.pending.erase t ++ [(r.uid, now + BitVec.ofNat 32 d.1)]).countP
      (fun t => t.1 = u) = m.timers u := by
    intro u
    unfold timers
    rw [(List.perm_cons_erase ht).countP_eq, List.countP_append, List.countP_singleton,
      List.countP_cons, htuid]
  have hs : ∀ u, sends u (log ++ [.transmitted r.uid r.msg.write]) =
      sends u log + if r.uid = u then 1 else 0 := by
    intro u
    rw [sends_concat]
    simp only [isTransmission, decide_eq_true_eq]
  have ho : ∀ u, outcomes u (log ++ [.transmitted r.uid r.msg.write]) = outcomes u log := by
    intro u
    rw [outcomes_concat]
    rfl
  refine ⟨?_, ?_, ?_, fun o hmem => ?_, fun o hmem _ => ?_, fun u hnone => ?_, fun u hle => ?_,
    fun u => ?_⟩
  · simp only [List.map_map, Function.comp_def]
    rw [List.map_congr_left fun o ho => (hkept o ho).1]
    exact h.uids
  · simp only [List.map_map, Function.comp_def]
    rw [List.map_congr_left fun o ho => (hkept o ho).2]
    exact h.ids
  · rw [List.map_map, h.requests]
    refine List.map_congr_left fun o ho => ?_
    simp only [Function.comp_apply, (hkept o ho).1, (hkept o ho).2]
  · obtain ⟨o', ho', rfl⟩ := List.mem_map.mp hmem
    rw [(hkept o' ho').1]
    exact h.fresh o' ho'
  · obtain ⟨o', ho', rfl⟩ := List.mem_map.mp hmem
    rw [(hkept o' ho').1, ho, hs]
    obtain ⟨htimer', hquiet', hcounted'⟩ := h.waiting o' ho' (Option.some_ne_none _).symm
    refine ⟨(hpending _).trans htimer', hquiet', ?_⟩
    by_cases heq : o'.uid = r.uid
    · rw [if_pos heq, heq, if_pos rfl]
      exact hnext
    · rw [if_neg heq, if_neg (Ne.symm heq)]
      exact hcounted'
  · refine (hpending u).trans (h.idle u (object_eq_none.mpr fun o ho heq => ?_))
    refine object_eq_none.mp hnone _ (List.mem_map_of_mem ho) ?_
    rw [(hkept o ho).1, heq]
  · rw [hs, ho, if_neg (Nat.ne_of_lt (Nat.lt_of_lt_of_le (h.fresh r hr) hle))]
    exact h.unborn u hle
  · rw [hs, ho]
    refine ⟨?_, (h.bounded u).2⟩
    split
    · rename_i heq
      exact heq ▸ hnext.le
    · exact (h.bounded u).1

/-! ## Runs -/

/-- **Every event** has a result and keeps the invariant. -/
theorem Sound.step (h : m.Sound none log) (e : Event) (hfresh : m.Fresh e.added) :
    ∃ m' out, m.step e = some (m', out) ∧ m'.Sound none (log ++ out) := by
  cases e with
  | send now request delay =>
    refine ⟨_, [], rfl, ?_⟩
    rw [List.append_nil]
    exact h.sendDelayed now delay (hfresh.2 request List.mem_cons_self)
  | packet now data added => exact h.checkPacket now data hfresh
  | message now msg added => exact h.checkResponse now msg hfresh
  | timer now uid added =>
    simp only [StunRequestManager.step]
    cases hf : m.pending.find? fun t => t.1 = uid ∧ 0 ≤ timeDiff now t.2 with
    | none => exact ⟨m, [], rfl, by rwa [List.append_nil]⟩
    | some t =>
      have ht : t ∈ m.pending := List.mem_of_find?_eq_some hf
      have htuid : t.1 = uid := by
        have hp := List.find?_some hf
        simp only [decide_eq_true_eq] at hp
        exact hp.1
      obtain ⟨r, hobj⟩ : ∃ r, m.object uid = some r := by
        by_contra hnone
        have hidle := h.idle uid (Option.eq_none_iff_forall_ne_some.mpr fun r hr => hnone ⟨r, hr⟩)
        exact List.countP_eq_zero.mp hidle t ht (decide_eq_true htuid)
      have hr : r ∈ m.objects := List.mem_of_find?_eq_some hobj
      obtain rfl : r.uid = uid := by simpa using List.find?_some hobj
      simp only [hobj, Option.map_some, Option.some.injEq]
      refine ⟨(onMessage { m with pending := m.pending.erase t } now r added).1,
        (onMessage { m with pending := m.pending.erase t } now r added).2, rfl, ?_⟩
      by_cases hdone : r.timeout = true
      · unfold onMessage
        rw [if_pos hdone]
        have hout := h.outcome hr (o := .timeout r.uid) (fun _ => rfl) fun _ => rfl
        exact (hout.eraseTimer ht htuid).finish hr now hfresh
      · exact h.transmit hr (by simpa using hdone) ht htuid now added
  | clear =>
    obtain ⟨m', hm', hs, -⟩ := h.clear
    refine ⟨m', [], ?_, by rwa [List.append_nil]⟩
    simp only [StunRequestManager.step, hm', Option.map_some]

theorem Sound.run {es : List Event} : ∀ {m : StunRequestManager} {log : List RequestOutput},
    m.Sound none log → m.Distinct es →
    ∃ m' out, m.run es = some (m', out) ∧ m'.Sound none (log ++ out) := by
  induction es with
  | nil => exact fun {m log} h _ => ⟨m, [], rfl, by rwa [List.append_nil]⟩
  | cons e es ih =>
    intro m log h hd
    obtain ⟨m₁, out₁, hstep, h₁⟩ := h.step e hd.1
    obtain ⟨m₂, out₂, hrun, h₂⟩ := ih h₁ (hd.2 m₁ out₁ hstep)
    refine ⟨m₂, out₁ ++ out₂, ?_, by rwa [← List.append_assoc]⟩
    simp only [StunRequestManager.run, hstep, Option.bind_some, hrun, Option.map_some]

/-! ## What is ignored -/

theorem Sound.checkResponse_ignored (h : m.Sound none log) (now : U32) {msg : StunMessage}
    (hno : ¬ m.Expects msg) (added : List (NewRequest × U32)) :
    m.checkResponse now msg added = some (m, []) := by
  unfold StunRequestManager.checkResponse
  cases hf : m.find msg.transactionId with
  | none => rfl
  | some uid =>
    obtain ⟨r, hr, rfl, hid⟩ := h.find hf
    have hsuccess := fun ht => hno ⟨r, hr, hid.symm, Or.inl ht⟩
    have herror := fun ht => hno ⟨r, hr, hid.symm, Or.inr ht⟩
    simp only [h.object hr, Option.map_some, if_neg hsuccess, if_neg herror]

/-- **A packet that is no response to a request that is waiting changes nothing.** -/
theorem Sound.checkPacket_ignored (h : m.Sound none log) (now : U32) {data : List U8}
    (hno : ¬ m.Answers data) (added : List (NewRequest × U32)) :
    m.checkPacket now data added = some (m, []) := by
  unfold StunRequestManager.checkPacket
  split
  · rfl
  split
  · rfl
  · rename_i uid hf
    obtain ⟨r, hr, rfl, hid⟩ := h.find hf
    rw [h.object hr, Option.bind_some]
    split
    · rfl
    · rename_i response hread
      refine h.checkResponse_ignored now (fun ⟨r', hr', hid', htype⟩ => hno ?_) added
      -- the id that was read is the one that was looked up
      have hplace := StunMessage.read_transactionId hread (by rw [hid']; exact r'.idLength)
      have heq : r' = r := by
        have hfind := h.find_of_mem hr'
        rw [← hid', hplace, ← hid, h.find_of_mem hr] at hfind
        have hobj := h.object hr'
        rw [← Option.some.inj hfind, h.object hr] at hobj
        exact (Option.some.inj hobj).symm
      subst heq
      exact ⟨r', hr', response, hread, hid', htype⟩

/-! ## The outcome of a request -/

theorem Sound.waiting_or_gone (h : m.Sound none log) (uid : Nat) :
    m.Waiting uid ∧ outcomes uid log = 0 ∨ m.Gone uid := by
  have hlist : m.requests.map Prod.snd = m.objects.map StunRequest.uid := by
    rw [h.requests, List.map_map]
    rfl
  cases hobj : m.object uid with
  | some r =>
    have hr : r ∈ m.objects := List.mem_of_find?_eq_some hobj
    obtain rfl : r.uid = uid := by simpa using List.find?_some hobj
    obtain ⟨htimer, hquiet, -⟩ := h.waiting r hr (Option.some_ne_none _).symm
    refine Or.inl ⟨⟨?_, htimer⟩, hquiet⟩
    rw [hlist]
    exact List.count_eq_one_of_mem h.uids (List.mem_map_of_mem hr)
  | none =>
    refine Or.inr ⟨?_, h.idle uid hobj, hobj⟩
    rw [hlist]
    intro hmem
    obtain ⟨r, hr, heq⟩ := List.mem_map.mp hmem
    exact object_eq_none.mp hobj r hr heq

/-- **The outcome of a STUN request**, in every run in which the requests have distinct transaction
ids. No deleted request is accessed. A request is sent at most `MAX_SENDS` times, at most one of its
handlers is called, and then it is gone; until then it waits, and `Clear` makes every request gone.
A packet or a message that is no response to a request that waits changes nothing. -/
theorem request_outcomes {es : List Event} (h : new.Distinct es) :
    ∃ m log, new.run es = some (m, log) ∧
      (∀ uid, sends uid log ≤ maxSends ∧ outcomes uid log ≤ 1) ∧
      (∀ uid, m.Waiting uid ∧ outcomes uid log = 0 ∨ m.Gone uid) ∧
      (∃ m', m.step .clear = some (m', []) ∧ ∀ uid, m'.Gone uid) ∧
      (∀ now data added, ¬ m.Answers data → m.step (.packet now data added) = some (m, [])) ∧
      ∀ now msg added, ¬ m.Expects msg → m.step (.message now msg added) = some (m, []) := by
  obtain ⟨m, log, hrun, hs⟩ := sound_new.run h
  rw [List.nil_append] at hs
  refine ⟨m, log, hrun, hs.bounded, hs.waiting_or_gone, ?_, ?_, ?_⟩
  · obtain ⟨m', hclear, hs', hnil⟩ := hs.clear
    refine ⟨m', ?_, fun uid => ?_⟩
    · simp only [StunRequestManager.step, hclear, Option.map_some]
    · obtain ⟨hrequests, hpending⟩ := hs'.pending_nil hnil
      refine ⟨?_, ?_, ?_⟩
      · rw [hrequests]
        exact List.not_mem_nil
      · unfold timers
        rw [hpending]
        rfl
      · unfold StunRequestManager.object
        rw [hnil]
        rfl
  · exact fun now data added hno => hs.checkPacket_ignored now hno added
  · exact fun now msg added hno => hs.checkResponse_ignored now hno added

/-- A binding request with a transaction id of twelve times this character. -/
def bindingRequest (ch : U8) : NewRequest :=
  ⟨.base, ⟨.stun, stunBindingRequest, 0, List.replicate 12 ch, []⟩, by
    rw [List.length_replicate]
    rfl⟩

/-- The response to the first request. -/
def bindingResponse : List U8 :=
  [0x01, 0x01, 0x00, 0x00, 0x21, 0x12, 0xa4, 0x42] ++ List.replicate 12 0x41

/-- Two requests are sent; the first is answered, and its handler sends a third; what is left is
cleared. -/
def sampleRun : List Event :=
  [.send 0 (bindingRequest 0x41) 0, .send 0 (bindingRequest 0x42) 50, .timer 10 0 [],
   .packet 20 bindingResponse [(bindingRequest 0x43, 100)], .timer 60 1 [], .clear]

theorem request_outcomes_sample : ∃ m log, new.run sampleRun = some (m, log) ∧
    (∀ uid, sends uid log ≤ maxSends ∧ outcomes uid log ≤ 1) ∧ log.length = 3 := by
  have hd : new.Distinct sampleRun := by decide +kernel
  obtain ⟨m, log, hrun, hbounded, -⟩ := request_outcomes hd
  refine ⟨m, log, hrun, hbounded, ?_⟩
  have hlength : (new.run sampleRun).map (fun r => r.2.length) = some 3 := by decide +kernel
  rw [hrun] at hlength
  exact Option.some.inj hlength

end StunRequestManager

end Libjingle
