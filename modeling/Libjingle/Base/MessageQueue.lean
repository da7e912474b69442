import Libjingle.Base.TimeUtils
import Libjingle.Lib.Heap
import Mathlib.Data.Prod.Lex

/-!
# `MessageQueue` (`base/messagequeue.h`, `base/messagequeue.cc`)

A message waits in one of three places: the peek slot `msgPeek_`, the list `msgq_` of ready messages
and the heap `dmsgq_` of delayed ones. `Get` moves the delayed messages that are due to the list and
takes the front of the list.

* Handlers and message data are addresses. Every message has an `origin`, which the code has not and
  does not look at: it tells the messages apart.
* `msgPeek_` stands for the flag `fPeekKeep_` and the message together.
* The heap algorithms of the standard library are a parameter: nothing depends on how they order a
  heap beyond what is specified.
* `Get` is cut at its calls of `Wait`, since the queue may be used meanwhile: `turn` is what it does
  from one call to the next. The socket server that waits is outside. `ReceiveSends` does nothing
  in this class, and logging is left out.
-/

namespace Libjingle

open Lib

def mqidAny : U32 := -1
def mqidDispose : U32 := -2
def kForever : Int := -1
def kMaxMsgLatency : U32 := 150

/-- Which call a message comes from: the number of the `Post`, or the trigger time of a delayed post
and the number it was given. -/
inductive Origin
  | posted (serial : Nat)
  | delayed (trigger num : U32)
deriving DecidableEq

structure Message where
  phandler : Option Nat
  message_id : U32
  pdata : Option Nat
  ts_sensitive : U32
  origin : Origin
deriving DecidableEq

/-- `Message::Match`. -/
def Message.matches (m : Message) (handler : Option Nat) (id : U32) : Bool :=
  (handler = none || handler = m.phandler) && (id = mqidAny || id = m.message_id)

structure DelayedMessage where
  cmsDelay_ : Int
  msTrigger_ : U32
  num_ : U32
  msg_ : Message
deriving DecidableEq

namespace DelayedMessage

/-- `operator<`: the message that is served later is the smaller one. -/
def less (a b : DelayedMessage) : Prop :=
  b.msTrigger_ < a.msTrigger_ ∨ (b.msTrigger_ = a.msTrigger_ ∧ b.num_ < a.num_)

/-- The trigger time, and the number among messages with the same time. -/
def key (d : DelayedMessage) : ℕ ×ₗ ℕ := toLex (d.msTrigger_.toNat, d.num_.toNat)

theorem less_iff (a b : DelayedMessage) : a.less b ↔ b.key < a.key := by
  simp only [less, key, Prod.Lex.toLex_lt_toLex, BitVec.lt_def, BitVec.toNat_inj]

end DelayedMessage

structure MessageQueue where
  fStop_ : Bool
  msgPeek_ : Option Message
  active_ : Bool
  msgq_ : List Message
  dmsgq_ : List DelayedMessage
  dmsgq_next_num_ : U32
  /-- How many messages `Post` has accepted. -/
  posts : Nat
deriving DecidableEq

namespace MessageQueue

def create : MessageQueue := ⟨false, none, false, [], [], 0, 0⟩

/-- A `Get` that waits: what it was asked for, when it began, and for how long it waits now. -/
structure Wait where
  cmsWait : Int
  msStart : U32
  cmsNext : Int
deriving DecidableEq

/-- How far a `Get` or a `Peek` has come. -/
inductive Outcome
  | returned (m : Message)
  | failed
  | waiting (w : Wait)
deriving DecidableEq

def quit (q : MessageQueue) : MessageQueue := { q with fStop_ := true }

def ensureActive (q : MessageQueue) : MessageQueue := { q with active_ := true }

/-- The message of a `Post`. -/
def postedMessage (q : MessageQueue) (phandler : Option Nat) (id : U32) (pdata : Option Nat)
    (timeSensitive : Bool) (now : U32) : Message :=
  ⟨phandler, id, pdata, if timeSensitive then now + kMaxMsgLatency else 0, .posted q.posts⟩

def post (q : MessageQueue) (phandler : Option Nat) (id : U32) (pdata : Option Nat)
    (timeSensitive : Bool) (now : U32) : MessageQueue :=
  if q.fStop_ then q
  else
    { q.ensureActive with
      msgq_ := q.msgq_ ++ [q.postedMessage phandler id pdata timeSensitive now]
      posts := q.posts + 1 }

/-- The entry of a `DoDelayPost`. -/
def delayedMessage (q : MessageQueue) (cmsDelay : Int) (tstamp : U32) (phandler : Option Nat)
    (id : U32) (pdata : Option Nat) : DelayedMessage :=
  ⟨cmsDelay, tstamp, q.dmsgq_next_num_,
    ⟨phandler, id, pdata, 0, .delayed tstamp q.dmsgq_next_num_⟩⟩

variable (heap : HeapAlgorithms DelayedMessage.key)

def doDelayPost (q : MessageQueue) (cmsDelay : Int) (tstamp : U32) (phandler : Option Nat)
    (id : U32)
    (pdata : Option Nat) : MessageQueue :=
  if q.fStop_ then q
  else
    { q.ensureActive with
      dmsgq_ := heap.push q.dmsgq_ (q.delayedMessage cmsDelay tstamp phandler id pdata)
      dmsgq_next_num_ := q.dmsgq_next_num_ + 1 }

/-- `PostDelayed`; `TimeAfter` adds the delay to the time. -/
def postDelayed (q : MessageQueue) (cmsDelay : Int) (phandler : Option Nat) (id : U32)
    (pdata : Option Nat) (now : U32) : MessageQueue :=
  q.doDelayPost heap cmsDelay (now + BitVec.ofInt 32 cmsDelay) phandler id pdata

def postAt (q : MessageQueue) (tstamp : U32) (phandler : Option Nat) (id : U32)
    (pdata : Option Nat) (now : U32) : MessageQueue :=
  q.doDelayPost heap (timeDiff tstamp now) tstamp phandler id pdata

/-- The delayed messages that are due go to the list, and the time to the next one is found. Each
round takes one of the `n` messages. -/
def moveDue (msCurrent : U32) :
    Nat → List Message → List DelayedMessage → List Message × List DelayedMessage × Int
  | n + 1, msgq, top :: dmsgq =>
    if timeIsLater msCurrent top.msTrigger_ then
      (msgq, top :: dmsgq, timeDiff top.msTrigger_ msCurrent)
    else moveDue msCurrent n (msgq ++ [top.msg_]) (heap.pop (top :: dmsgq))
  | _, msgq, dmsgq => (msgq, dmsgq, kForever)

/-- The first ready message; messages that dispose of an object are deleted on the way. -/
def takeReady : List Message → Option Message × List Message
  | [] => (none, [])
  | m :: msgq => if m.message_id = mqidDispose then takeReady msgq else (some m, msgq)

/-- The queue after the delayed messages that are due have become ready. -/
def ready (q : MessageQueue) (msCurrent : U32) : MessageQueue :=
  let (msgq, dmsgq, _) := moveDue heap msCurrent q.dmsgq_.length q.msgq_ q.dmsgq_
  { q with msgq_ := msgq, dmsgq_ := dmsgq }

/-- The time to the next delayed message. -/
def delayNext (q : MessageQueue) (msCurrent : U32) : Int :=
  (moveDue heap msCurrent q.dmsgq_.length q.msgq_ q.dmsgq_).2.2

/-- How long a `Get` is going to wait. -/
def nextWait (cmsWait cmsElapsed cmsDelayNext : Int) : Int :=
  if cmsWait = kForever then cmsDelayNext
  else
    let cmsNext := max 0 (cmsWait - cmsElapsed)
    if cmsDelayNext ≠ kForever ∧ cmsDelayNext < cmsNext then cmsDelayNext else cmsNext

/-- A turn of the loop of `Get`, up to its call of `Wait`. -/
def turn (q : MessageQueue) (cmsWait : Int) (msStart : U32) (cmsElapsed : Int) (msCurrent : U32) :
    MessageQueue × Outcome :=
  let r := q.ready heap msCurrent
  let (m, msgq) := takeReady r.msgq_
  let q' := { r with msgq_ := msgq }
  m.elim
    (if q'.fStop_ then (q', .failed)
      else (q',
        .waiting ⟨cmsWait, msStart, nextWait cmsWait cmsElapsed (q.delayNext heap msCurrent)⟩))
    fun m => (q', .returned m)

/-- `Get`, up to its first call of `Wait`. -/
def get (q : MessageQueue) (cmsWait : Int) (now : U32) : MessageQueue × Outcome :=
  q.msgPeek_.elim (q.turn heap cmsWait now 0 now) fun m =>
    ({ q with msgPeek_ := none }, .returned m)

/-- `Get` from where it waits: `Wait` has returned `ok` and the time is `now`. -/
def wake (q : MessageQueue) (w : Wait) (ok : Bool) (now : U32) : MessageQueue × Outcome :=
  if !ok then (q, .failed)
  else if w.cmsWait ≠ kForever ∧ timeDiff now w.msStart ≥ w.cmsWait then (q, .failed)
  else q.turn heap w.cmsWait w.msStart (timeDiff now w.msStart) now

/-- What `Peek` does with the message that its `Get` returns. -/
def keepPeek : MessageQueue × Outcome → MessageQueue × Outcome
  | (q, .returned m) => ({ q with msgPeek_ := some m }, .returned m)
  | r => r

/-- `Peek`, up to the first call of `Wait`. -/
def peek (q : MessageQueue) (cmsWait : Int) (now : U32) : MessageQueue × Outcome :=
  q.msgPeek_.elim (keepPeek (q.get heap cmsWait now)) fun m => (q, .returned m)

/-- The pass of `Clear` over the elements of the heap: those it keeps, and those it removes. -/
def compact (phandler : Option Nat) (id : U32) (container : List DelayedMessage) :
    List DelayedMessage × List Message :=
  container.foldl
    (fun r it => if it.msg_.matches phandler id then (r.1, r.2 ++ [it.msg_])
      else (r.1 ++ [it], r.2))
    ([], [])

/-- `Clear`: the queue after it and the messages it removes, which go to `removed` if there is such
a list and lose their data otherwise. -/
def clear (q : MessageQueue) (phandler : Option Nat) (id : U32) : MessageQueue × List Message :=
  let (kept, removed) := compact phandler id q.dmsgq_
  ({ q with
      msgPeek_ := q.msgPeek_.filter fun m => !m.matches phandler id
      msgq_ := q.msgq_.filter fun m => !m.matches phandler id
      dmsgq_ := heap.makeHeap kept },
    (q.msgPeek_.toList ++ q.msgq_).filter (fun m => m.matches phandler id) ++ removed)

/-! ## The order of the messages -/

def front (q : MessageQueue) : List Message := q.msgPeek_.toList ++ q.msgq_

/-- The delayed messages as they are served. -/
def back (q : MessageQueue) : List Message := (ranked DelayedMessage.key q.dmsgq_).map (·.msg_)

/-- The messages that wait, in the order in which `Get` returns them as time goes on. -/
def order (q : MessageQueue) : List Message := q.front ++ q.back

/-- A heap of delayed messages with different numbers, each as it was posted, and no message that
disposes of an object in the peek slot. -/
structure Valid (q : MessageQueue) : Prop where
  isHeap : IsHeap DelayedMessage.key q.dmsgq_
  keys : (q.dmsgq_.map DelayedMessage.key).Nodup
  nums : ∀ d ∈ q.dmsgq_, d.num_ < q.dmsgq_next_num_
  origins : ∀ d ∈ q.dmsgq_, d.msg_.origin = .delayed d.msTrigger_ d.num_
  peeked : ∀ m ∈ q.msgPeek_, m.message_id ≠ mqidDispose

variable {now : U32}

theorem moveDue_spec {n : Nat} (msgq : List Message) {c : List DelayedMessage}
    (hc : IsHeap DelayedMessage.key c) (hkeys : (c.map DelayedMessage.key).Nodup)
    (hn : c.length ≤ n) :
    ∃ due, (moveDue heap now n msgq c).1 = msgq ++ due.map (·.msg_) ∧
      ranked DelayedMessage.key c =
        due ++ ranked DelayedMessage.key (moveDue heap now n msgq c).2.1 ∧
      IsHeap DelayedMessage.key (moveDue heap now n msgq c).2.1 ∧
      (∀ d ∈ due, timeIsLater now d.msTrigger_ = false) ∧
      ∀ d ∈ (moveDue heap now n msgq c).2.1.head?, timeIsLater now d.msTrigger_ = true := by
  induction n generalizing msgq c with
  | zero =>
    obtain rfl := List.length_eq_zero_iff.mp (Nat.le_zero.mp hn)
    exact ⟨[], (List.append_nil _).symm, rfl, hc, List.forall_mem_nil _, fun _ h => by cases h⟩
  | succ n ih =>
    cases c with
    | nil => exact ⟨[], (List.append_nil _).symm, rfl, hc, List.forall_mem_nil _,
      fun _ h => by cases h⟩
    | cons top c =>
      by_cases hlater : timeIsLater now top.msTrigger_ = true
      · rw [moveDue, if_pos hlater]
        refine ⟨[], (List.append_nil _).symm, rfl, hc, List.forall_mem_nil _, ?_⟩
        rintro d ⟨⟩
        exact hlater
      · rw [moveDue, if_neg hlater]
        obtain ⟨hperm, hheap⟩ := HeapAlgorithms.pop_spec (h := heap) hc
        have hlen := hperm.length_eq
        have hkeys' : ((heap.pop (top :: c)).map DelayedMessage.key).Nodup :=
          ((hperm.map _).nodup_iff).mpr (List.nodup_cons.mp hkeys).2
        obtain ⟨due, hmsgq, hranked, hrest, hdue, hhead⟩ :=
          ih (msgq ++ [top.msg_]) hheap hkeys' (by rw [hlen]; simpa using hn)
        refine ⟨top :: due, ?_, ?_, hrest, ?_, hhead⟩
        · rw [hmsgq, List.append_assoc]
          rfl
        · rw [HeapAlgorithms.ranked_pop (h := heap) hc hkeys, hranked, List.cons_append]
        · exact List.forall_mem_cons.mpr ⟨Bool.eq_false_iff.mpr hlater, hdue⟩

/-- No trigger time of a delayed message lies half the range of times away from the clock or more.
-/
def Windowed (q : MessageQueue) (now : U32) : Prop :=
  ∀ d ∈ q.dmsgq_, now.toNat ≤ d.msTrigger_.toNat + 2 ^ 31 ∧ d.msTrigger_.toNat < now.toNat + 2 ^ 31

instance (q : MessageQueue) (now : U32) : Decidable (q.Windowed now) :=
  inferInstanceAs (Decidable (∀ _ ∈ _, _))

variable {q : MessageQueue}

theorem Valid.of_subset (h : q.Valid) {c : List DelayedMessage}
    (hheap : IsHeap DelayedMessage.key c) (hkeys : (c.map DelayedMessage.key).Nodup)
    (hsub : ∀ d ∈ c, d ∈ q.dmsgq_) (msgq : List Message) {peek : Option Message}
    (hpeek : ∀ m ∈ peek, m.message_id ≠ mqidDispose) :
    ({ q with msgPeek_ := peek, msgq_ := msgq, dmsgq_ := c } : MessageQueue).Valid :=
  ⟨hheap, hkeys, fun d hd => h.nums d (hsub d hd), fun d hd => h.origins d (hsub d hd), hpeek⟩

theorem Valid.with (h : q.Valid) (msgq : List Message) {peek : Option Message}
    (hpeek : ∀ m ∈ peek, m.message_id ≠ mqidDispose) :
    ({ q with msgPeek_ := peek, msgq_ := msgq } : MessageQueue).Valid :=
  h.of_subset h.isHeap h.keys (fun _ hd => hd) msgq hpeek

theorem ready_spec (h : q.Valid) {now : U32} (hw : q.Windowed now) :
    (q.ready heap now).order = q.order ∧ (q.ready heap now).Valid ∧
      (∀ d ∈ (q.ready heap now).dmsgq_, d ∈ q.dmsgq_ ∧ now < d.msTrigger_) ∧
      ∃ due : List DelayedMessage, (q.ready heap now).msgq_ = q.msgq_ ++ due.map (·.msg_) ∧
        ∀ d ∈ due, d ∈ q.dmsgq_ ∧ d.msTrigger_ ≤ now := by
  obtain ⟨due, hmsgq, hranked, hheap, hdue, hhead⟩ :=
    moveDue_spec heap q.msgq_ h.isHeap h.keys le_rfl
  generalize hr : moveDue heap now q.dmsgq_.length q.msgq_ q.dmsgq_ = r at *
  have hready : q.ready heap now = { q with msgq_ := r.1, dmsgq_ := r.2.1 } := by
    rw [ready, hr]
  have hmem : ∀ d, d ∈ due ∨ d ∈ r.2.1 → d ∈ q.dmsgq_ := by
    intro d hd
    have hd' : d ∈ ranked DelayedMessage.key q.dmsgq_ := by
      rw [hranked, List.mem_append, mem_ranked]
      exact hd
    exact mem_ranked.mp hd'
  have hperm : (due ++ r.2.1).Perm q.dmsgq_ :=
    ((ranked_perm _).symm.append_left due).trans (hranked ▸ ranked_perm q.dmsgq_)
  have hkeys : (r.2.1.map DelayedMessage.key).Nodup :=
    ((hperm.map _).nodup_iff.mpr h.keys).sublist ((List.sublist_append_right due r.2.1).map _)
  rw [hready]
  refine ⟨?_, h.of_subset hheap hkeys (fun d hd => hmem d (.inr hd)) _ h.peeked, ?_, due, hmsgq, ?_⟩
  · simp only [order, front, back, hmsgq, hranked, List.map_append, List.append_assoc]
  · intro d hd
    refine ⟨hmem d (.inr hd), ?_⟩
    have hne : r.2.1 ≠ [] := List.ne_nil_of_mem hd
    obtain ⟨top, c, hc⟩ := List.exists_cons_of_ne_nil hne
    rw [hc] at hheap hhead
    have hd' : d ∈ top :: c := by rwa [← hc]
    have htop := hhead top rfl
    have hwtop := hw top (hmem top (.inr (by rw [hc]; exact List.mem_cons_self)))
    have hle := hheap.head_le d hd'
    have hlt := (timeIsLater_iff hwtop.1 hwtop.2).mp htop
    rw [BitVec.lt_def] at hlt ⊢
    have hfirst : top.msTrigger_.toNat ≤ d.msTrigger_.toNat :=
      (Prod.Lex.toLex_le_toLex.mp hle).elim le_of_lt fun h => h.1.le
    omega
  · intro d hd
    have hwd := hw d (hmem d (.inl hd))
    have hnot := hdue d hd
    refine ⟨hmem d (.inl hd), BitVec.not_lt.mp fun hlt => ?_⟩
    rw [(timeIsLater_iff hwd.1 hwd.2).mpr hlt] at hnot
    cases hnot

theorem takeReady_spec (msgq : List Message) :
    ∃ gone, (∀ m ∈ gone, m.message_id = mqidDispose) ∧
      msgq = gone ++ (takeReady msgq).1.toList ++ (takeReady msgq).2 ∧
      (∀ m ∈ (takeReady msgq).1, m.message_id ≠ mqidDispose) ∧
      ((takeReady msgq).1 = none → (takeReady msgq).2 = []) := by
  induction msgq with
  | nil => exact ⟨[], List.forall_mem_nil _, rfl, fun _ h => (Option.not_mem_none _ h).elim,
    fun _ => rfl⟩
  | cons m msgq ih =>
    by_cases hm : m.message_id = mqidDispose
    · obtain ⟨gone, hgone, hmsgq, htaken, hnone⟩ := ih
      rw [takeReady, if_pos hm]
      exact ⟨m :: gone, List.forall_mem_cons.mpr ⟨hm, hgone⟩, congrArg (m :: ·) hmsgq, htaken,
        hnone⟩
    · rw [takeReady, if_neg hm]
      refine ⟨[], List.forall_mem_nil _, rfl, ?_, fun h => by cases h⟩
      rintro _ ⟨⟩
      exact hm

def Outcome.message : Outcome → Option Message
  | .returned m => some m
  | _ => none

/-- What a call of `Get` or `Peek`, or a part of it up to the next `Wait`, does to the queue. The
messages stay in their order, except that one may be taken from the front, and that those in front
of it which dispose of objects are deleted. -/
structure Serves (now : U32) (q q' : MessageQueue) (out : Option Message) : Prop where
  order : ∃ gone, (∀ m ∈ gone, m.message_id = mqidDispose) ∧
    q.order = gone ++ out.toList ++ q'.order
  taken : ∀ m ∈ out, m.message_id ≠ mqidDispose
  valid : q'.Valid
  fStop : q'.fStop_ = q.fStop_
  nextNum : q'.dmsgq_next_num_ = q.dmsgq_next_num_
  posts : q'.posts = q.posts
  subset : ∀ d ∈ q'.dmsgq_, d ∈ q.dmsgq_
  /-- What is taken or ready was ready before or is due. -/
  mature : ∀ m ∈ out.toList ++ q'.front, m ∈ q.front ∨ ∃ d ∈ q.dmsgq_, d.msg_ = m ∧
    d.msTrigger_ ≤ now

theorem Serves.refl {now : U32} (h : q.Valid) : Serves now q q none where
  order := ⟨[], List.forall_mem_nil _, rfl⟩
  taken := fun _ hm => (Option.not_mem_none _ hm).elim
  valid := h
  fStop := rfl
  nextNum := rfl
  posts := rfl
  subset _ hd := hd
  mature _ hm := .inl hm

/-- Nothing is left that could be returned. -/
def Idle (q : MessageQueue) (now : U32) : Prop :=
  q.msgPeek_ = none ∧ q.msgq_ = [] ∧ ∀ d ∈ q.dmsgq_, now < d.msTrigger_

/-- **A turn of `Get`** takes the first message of those that are ready or due. -/
theorem turn_serves (h : q.Valid) {now : U32} (hw : q.Windowed now)
    (hpeek : q.msgPeek_ = none) (cmsWait : Int) (msStart : U32) (cmsElapsed : Int) :
    Serves now q (q.turn heap cmsWait msStart cmsElapsed now).1
        (q.turn heap cmsWait msStart cmsElapsed now).2.message ∧
      (q.turn heap cmsWait msStart cmsElapsed now).1.msgPeek_ = none ∧
      ((q.turn heap cmsWait msStart cmsElapsed now).2.message = none →
        (q.turn heap cmsWait msStart cmsElapsed now).1.Idle now) := by
  obtain ⟨horder, hvalid, hlater, due, hmsgq, hdue⟩ := ready_spec heap h hw
  obtain ⟨gone, hgone, hsplit, htaken, hempty⟩ := takeReady_spec (q.ready heap now).msgq_
  have hslot : (q.ready heap now).msgPeek_ = none := hpeek
  generalize ht : takeReady (q.ready heap now).msgq_ = t at hsplit htaken hempty
  obtain ⟨m, msgq⟩ := t
  have hq : (q.turn heap cmsWait msStart cmsElapsed now).1 =
        { q.ready heap now with msgq_ := msgq } ∧
      (q.turn heap cmsWait msStart cmsElapsed now).2.message = m := by
    simp only [turn, ht]
    cases m with
    | none =>
      simp only [Option.elim_none]
      split <;> exact ⟨rfl, rfl⟩
    | some m => exact ⟨rfl, rfl⟩
  rw [hq.1, hq.2]
  refine ⟨⟨⟨gone, hgone, ?_⟩, htaken, hvalid.with _ hvalid.peeked, rfl, rfl, rfl,
    fun d hd => (hlater d hd).1, ?_⟩, hslot, fun hnone =>
      ⟨hslot, hempty hnone, fun d hd => (hlater d hd).2⟩⟩
  · rw [← horder]
    simp only [MessageQueue.order, front, back, hslot, Option.toList_none, List.nil_append, hsplit,
      List.append_assoc]
  · intro m hmem
    have hmem : m ∈ (q.ready heap now).msgq_ := by
      rw [hsplit, List.append_assoc]
      exact List.mem_append_right gone (by simpa [front, hslot] using hmem)
    rw [hmsgq, List.mem_append, List.mem_map] at hmem
    rcases hmem with hmem | ⟨d, hd, rfl⟩
    · exact .inl (List.mem_append_right _ hmem)
    · exact .inr ⟨d, (hdue d hd).1, rfl, (hdue d hd).2⟩

/-- **`Get`** takes the first message of those that are ready or due. -/
theorem get_serves (h : q.Valid) {now : U32}
    (hw : q.msgPeek_ = none → q.Windowed now) (cmsWait : Int) :
    Serves now q (q.get heap cmsWait now).1 (q.get heap cmsWait now).2.message ∧
      (q.get heap cmsWait now).1.msgPeek_ = none ∧
      ((q.get heap cmsWait now).2.message = none → (q.get heap cmsWait now).1.Idle now) := by
  unfold get
  cases hslot : q.msgPeek_ with
  | none => exact turn_serves heap h (hw hslot) hslot cmsWait now 0
  | some m =>
    refine ⟨⟨⟨[], List.forall_mem_nil _, ?_⟩, ?_, h.with _ ?_, rfl, rfl, rfl, fun _ hd => hd, ?_⟩,
      rfl, fun hnone => by cases hnone⟩
    · simp [order, front, back, hslot, Outcome.message]
    · rintro _ ⟨⟩
      exact h.peeked m hslot
    · exact fun _ hm => (Option.not_mem_none _ hm).elim
    · intro x hx
      exact .inl (by simpa [Outcome.message, front, hslot] using hx)

theorem wake_serves (h : q.Valid) {now : U32} (hw : q.Windowed now)
    (hpeek : q.msgPeek_ = none) (w : Wait) (ok : Bool) :
    Serves now q (q.wake heap w ok now).1 (q.wake heap w ok now).2.message ∧
      (q.wake heap w ok now).1.msgPeek_ = none := by
  unfold wake
  split
  · exact ⟨.refl h, hpeek⟩
  split
  · exact ⟨.refl h, hpeek⟩
  · have hturn := turn_serves heap h hw hpeek w.cmsWait w.msStart (timeDiff now w.msStart)
    exact ⟨hturn.1, hturn.2.1⟩

variable {r : MessageQueue × Outcome}

/-- `Peek` holds back the message that its `Get` returns. -/
theorem keepPeek_serves {now : U32}
    (h : Serves now q r.1 r.2.message) (hslot : r.1.msgPeek_ = none) :
    Serves now q (keepPeek r).1 none ∧ (keepPeek r).1.msgPeek_ = (keepPeek r).2.message := by
  obtain ⟨q', out⟩ := r
  cases out with
  | failed => exact ⟨h, hslot⟩
  | waiting w => exact ⟨h, hslot⟩
  | returned m =>
    replace hslot : q'.msgPeek_ = none := hslot
    obtain ⟨gone, hgone, horder⟩ := h.order
    refine ⟨⟨⟨gone, hgone, ?_⟩, ?_, h.valid.with _ h.taken, h.fStop, h.nextNum, h.posts, h.subset,
      ?_⟩, rfl⟩
    · rw [horder]
      simp only [order, front, back, hslot, Outcome.message, keepPeek, Option.toList_none,
        Option.toList_some, List.append_nil, List.nil_append, List.append_assoc]
    · exact fun _ hm => (Option.not_mem_none _ hm).elim
    · intro x hx
      refine h.mature x ?_
      simpa [keepPeek, Outcome.message, front, hslot] using hx

/-- **`Peek`** takes no message: it shows the first of those that are ready or due. -/
theorem peek_serves (h : q.Valid) {now : U32}
    (hw : q.msgPeek_ = none → q.Windowed now) (cmsWait : Int) :
    Serves now q (q.peek heap cmsWait now).1 none ∧
      (q.peek heap cmsWait now).1.msgPeek_ = (q.peek heap cmsWait now).2.message ∧
      ((q.peek heap cmsWait now).2.message = none → (q.peek heap cmsWait now).1.Idle now) := by
  unfold peek
  cases hslot : q.msgPeek_ with
  | none =>
    obtain ⟨hserves, hempty, hidle⟩ := get_serves heap h hw cmsWait
    obtain ⟨hkeep, hshown⟩ := keepPeek_serves hserves hempty
    refine ⟨hkeep, hshown, ?_⟩
    simp only [Option.elim_none]
    generalize q.get heap cmsWait now = r at *
    obtain ⟨q', out⟩ := r
    cases out with
    | returned m => exact fun hnone => by cases hnone
    | failed => exact hidle
    | waiting w => exact hidle
  | some m => exact ⟨.refl h, hslot, fun hnone => by cases hnone⟩

variable {m : Message}

/-- A message that a `Peek` returns is in the peek slot. -/
theorem keepPeek_shown (h : (keepPeek r).2 = .returned m) : (keepPeek r).1.msgPeek_ = some m := by
  obtain ⟨q, out⟩ := r
  cases out with
  | returned m' =>
    cases h
    rfl
  | failed => cases h
  | waiting wait => cases h

theorem peek_shown {cmsWait : Int} (h : (q.peek heap cmsWait now).2 = .returned m) :
    (q.peek heap cmsWait now).1.msgPeek_ = some m := by
  unfold peek at h ⊢
  cases hslot : q.msgPeek_ with
  | none =>
    rw [hslot] at h
    exact keepPeek_shown h
  | some m' =>
    rw [hslot] at h
    cases h
    exact hslot

/-- What is shown is what the next `Get` returns. -/
theorem get_of_peeked (h : q.msgPeek_ = some m) (cmsWait : Int)
    (now : U32) : q.get heap cmsWait now = ({ q with msgPeek_ := none }, .returned m) := by
  rw [get, h, Option.elim_some]

theorem compact_eq (phandler : Option Nat) (id : U32) (c : List DelayedMessage) :
    compact phandler id c = (c.filter (fun d => !d.msg_.matches phandler id),
      (c.map (·.msg_)).filter fun m => m.matches phandler id) := by
  have hfold : ∀ kept removed, c.foldl
      (fun r it => if it.msg_.matches phandler id then (r.1, r.2 ++ [it.msg_])
        else (r.1 ++ [it], r.2)) (kept, removed) =
      (kept ++ c.filter (fun d => !d.msg_.matches phandler id),
        removed ++ (c.map (·.msg_)).filter fun m => m.matches phandler id) := by
    induction c with
    | nil => simp
    | cons d c ih =>
      intro kept removed
      by_cases hd : d.msg_.matches phandler id <;> simp [hd, ih]
  exact hfold [] []

theorem clear_front (q : MessageQueue) (phandler : Option Nat) (id : U32) :
    (q.clear heap phandler id).1.front = q.front.filter fun m => !m.matches phandler id := by
  have hslot : (q.msgPeek_.filter fun m => !m.matches phandler id).toList =
      q.msgPeek_.toList.filter fun m => !m.matches phandler id := by
    cases q.msgPeek_ with
    | none => rfl
    | some m => by_cases hm : m.matches phandler id <;> simp [hm]
  simp only [front, clear, hslot, List.filter_append]

/-- **`Clear`** removes what matches and leaves the rest in its order. -/
theorem clear_spec (h : q.Valid) (phandler : Option Nat) (id : U32) :
    (q.clear heap phandler id).1.order = q.order.filter (fun m => !m.matches phandler id) ∧
      (q.clear heap phandler id).2.Perm (q.order.filter fun m => m.matches phandler id) ∧
      (q.clear heap phandler id).1.Valid ∧
      (∀ d ∈ (q.clear heap phandler id).1.dmsgq_, d ∈ q.dmsgq_) := by
  have hkept : (compact phandler id q.dmsgq_).1 =
      q.dmsgq_.filter fun d => !d.msg_.matches phandler id := by rw [compact_eq]
  have hperm := heap.makeHeap_perm (compact phandler id q.dmsgq_).1
  have hsub : ∀ d ∈ (q.clear heap phandler id).1.dmsgq_, d ∈ q.dmsgq_ := by
    intro d hd
    have hd' : d ∈ (compact phandler id q.dmsgq_).1 := hperm.mem_iff.mp hd
    rw [hkept] at hd'
    exact (List.mem_filter.mp hd').1
  have hkeys : ((heap.makeHeap (compact phandler id q.dmsgq_).1).map DelayedMessage.key).Nodup := by
    rw [(hperm.map _).nodup_iff, hkept]
    exact h.keys.sublist (List.filter_sublist.map _)
  refine ⟨?_, ?_, h.of_subset (heap.makeHeap_isHeap _) hkeys hsub _ ?_, hsub⟩
  · rw [order, order, List.filter_append, clear_front, back, back, List.filter_map]
    have hrest : ranked DelayedMessage.key (q.clear heap phandler id).1.dmsgq_ =
        (ranked DelayedMessage.key q.dmsgq_).filter fun d => !d.msg_.matches phandler id := by
      rw [← HeapAlgorithms.ranked_reheap_filter (h := heap) h.keys, ← hkept]
      rfl
    rw [hrest]
    rfl
  · simp only [order, front, back, clear, compact_eq, List.filter_append]
    exact (((ranked_perm q.dmsgq_).map _).filter _).symm.append_left _
  · intro m hm
    exact h.peeked m (Option.filter_eq_some_iff.mp hm).1

/-- **`Post`** puts its message behind those that are ready. -/
theorem post_spec (h : q.Valid) (hstop : q.fStop_ = false)
    (phandler : Option Nat) (id : U32) (pdata : Option Nat) (timeSensitive : Bool) (now : U32) :
    (q.post phandler id pdata timeSensitive now).front =
        q.front ++ [q.postedMessage phandler id pdata timeSensitive now] ∧
      (q.post phandler id pdata timeSensitive now).back = q.back ∧
      (q.post phandler id pdata timeSensitive now).Valid := by
  rw [post, if_neg (by rw [hstop]; exact Bool.false_ne_true)]
  exact ⟨(List.append_assoc ..).symm, rfl, ⟨h.isHeap, h.keys, h.nums, h.origins, h.peeked⟩⟩

/-- **A delayed post** puts its message among the delayed ones. -/
theorem doDelayPost_spec (h : q.Valid) (hstop : q.fStop_ = false)
    (hnum : q.dmsgq_next_num_.toNat + 1 < 2 ^ 32) (cmsDelay : Int) (tstamp : U32)
    (phandler : Option Nat) (id : U32) (pdata : Option Nat) :
    (q.doDelayPost heap cmsDelay tstamp phandler id pdata).front = q.front ∧
      (∃ earlier later, q.back = earlier ++ later ∧
        (q.doDelayPost heap cmsDelay tstamp phandler id pdata).back =
          earlier ++ (q.delayedMessage cmsDelay tstamp phandler id pdata).msg_ :: later) ∧
      (q.doDelayPost heap cmsDelay tstamp phandler id pdata).Valid ∧
      (∀ d, d ∈ (q.doDelayPost heap cmsDelay tstamp phandler id pdata).dmsgq_ ↔
        d = q.delayedMessage cmsDelay tstamp phandler id pdata ∨ d ∈ q.dmsgq_) := by
  generalize hd : q.delayedMessage cmsDelay tstamp phandler id pdata = d
  have hdnum : d.num_ = q.dmsgq_next_num_ := by rw [← hd]; rfl
  have hnew : ∀ e ∈ q.dmsgq_, e.key ≠ d.key := by
    intro e he heq
    have hlt := BitVec.lt_def.mp (h.nums e he)
    have hnums := congrArg (fun k => (ofLex k).2) heq
    simp only [DelayedMessage.key, ofLex_toLex, hdnum] at hnums
    omega
  have hkeys : ((d :: q.dmsgq_).map DelayedMessage.key).Nodup := by
    refine List.nodup_cons.mpr ⟨fun hmem => ?_, h.keys⟩
    obtain ⟨e, he, heq⟩ := List.mem_map.mp hmem
    exact hnew e he heq
  have hq : q.doDelayPost heap cmsDelay tstamp phandler id pdata =
      { q.ensureActive with
        dmsgq_ := heap.push q.dmsgq_ d
        dmsgq_next_num_ := q.dmsgq_next_num_ + 1 } := by
    rw [doDelayPost, if_neg (by rw [hstop]; exact Bool.false_ne_true), hd]
  have hmem : ∀ e, e ∈ heap.push q.dmsgq_ d ↔ e = d ∨ e ∈ q.dmsgq_ := fun e => by
    rw [(HeapAlgorithms.push_perm q.dmsgq_ d).mem_iff, List.mem_cons]
  have hnext : (q.dmsgq_next_num_ + 1).toNat = q.dmsgq_next_num_.toNat + 1 := by
    rw [BitVec.toNat_add, Nat.mod_eq_of_lt (by exact hnum)]
    rfl
  rw [hq]
  refine ⟨rfl, ?_, ⟨heap.pushHeap_isHeap _ _ h.isHeap, ?_, ?_, ?_, h.peeked⟩, hmem⟩
  · obtain ⟨earlier, later, hold, hpush⟩ := HeapAlgorithms.ranked_push (h := heap) hkeys
    refine ⟨earlier.map (·.msg_), later.map (·.msg_), ?_, ?_⟩
    · rw [back, hold, List.map_append]
    · simp only [back, hpush, List.map_append, List.map_cons]
  · exact ((HeapAlgorithms.push_perm q.dmsgq_ d).map _).nodup_iff.mpr hkeys
  · intro e he
    rw [BitVec.lt_def, hnext]
    rcases (hmem e).mp he with rfl | he
    · rw [hdnum]
      omega
    · have hlt := BitVec.lt_def.mp (h.nums e he)
      omega
  · intro e he
    rcases (hmem e).mp he with rfl | he
    · rw [← hd]
      rfl
    · exact h.origins e he

end MessageQueue

end Libjingle
