import Libjingle.Base.MessageQueue

/-!
# Delayed messages across the wrap of the clock

The clock is a counter of 32 bits that wraps after 49.7 days. `Get` tests whether a delayed
message is due by the sign of a difference of times, which a wrap does not disturb; the heap is
ordered by `DelayedMessage::operator<`, which compares the trigger times as numbers. A trigger
behind the wrap is therefore served before one in front of it, and keeps the latter from being
seen while it is not due itself.

* `timeDiff` of a trigger and the time is where the trigger lies in serial-number order: not later
  than now if it is at most 0.
* Two queues are compared whose pending messages are the same up to a shift of the clock
  (`Shifted`); each has a heap of its own.

## Results

* `served_across_wrap_iff`: when in addition a shift of the clock makes no difference to the
  messages that become ready, their order, the message returned, what is left and the delay.
-/

namespace Libjingle.DelayedMessage

/-- The same message on a clock that is `k` ahead; what it carries stays. -/
def shift (k : U32) (d : DelayedMessage) : DelayedMessage :=
  { d with msTrigger_ := d.msTrigger_ + k }

@[simp] theorem shift_msTrigger (k : U32) (d : DelayedMessage) :
    (d.shift k).msTrigger_ = d.msTrigger_ + k := rfl

@[simp] theorem shift_msg (k : U32) (d : DelayedMessage) : (d.shift k).msg_ = d.msg_ := rfl

end Libjingle.DelayedMessage

namespace Libjingle.MessageQueue

open Lib

/-! ## `GetDelay` -/

/-- `GetDelay`; `TimeUntil` is the difference to the time at the call. -/
def getDelay (q : MessageQueue) (now : U32) : Int :=
  if q.msgq_ ≠ [] then 0
  else
    match q.dmsgq_ with
    | [] => kForever
    | top :: _ =>
      let delay := timeDiff top.msTrigger_ now
      if delay < 0 then 0 else delay

/-- The queue when all ready messages are taken. -/
def drained (q : MessageQueue) : MessageQueue := { q with msgq_ := [] }

/-- The trigger is not later than now. -/
def isDue (now : U32) (d : DelayedMessage) : Bool := timeDiff d.msTrigger_ now ≤ 0

/-- The time to the earliest trigger. -/
def IsEarliest (now : U32) (pending : List DelayedMessage) (delay : Int) : Prop :=
  (pending = [] ∧ delay = kForever) ∨
    ∃ d ∈ pending, timeDiff d.msTrigger_ now = delay ∧
      ∀ e ∈ pending, delay ≤ timeDiff e.msTrigger_ now

variable (heap : HeapAlgorithms DelayedMessage.key)

/-- **A `Get` deals with the delayed messages by their times.** -/
structure ServesDelayed (q : MessageQueue) (cmsWait : Int) (now : U32) : Prop where
  moved : ∃ due : List DelayedMessage, (q.ready heap now).msgq_ = q.msgq_ ++ due.map (·.msg_) ∧
    due.Perm (q.dmsgq_.filter (isDue now))
  rest : (q.get heap cmsWait now).1.dmsgq_.Perm (q.dmsgq_.filter fun d => !isDue now d)
  delay : IsEarliest now (q.get heap cmsWait now).1.dmsgq_
    ((q.get heap cmsWait now).1.drained.getDelay now)

/-- The queue `q'` holds what `q` holds, with all triggers shifted by `k`. -/
structure Shifted (k : U32) (q q' : MessageQueue) : Prop where
  msgPeek : q'.msgPeek_ = q.msgPeek_
  msgq : q'.msgq_ = q.msgq_
  dmsgq : q'.dmsgq_.Perm (q.dmsgq_.map (·.shift k))
  isHeap : IsHeap DelayedMessage.key q'.dmsgq_

/-- The clock's shift makes no difference to a `Get`: the same messages become ready in the same
order, the first one is returned, and the others stay as far away as they were. -/
structure SameOutcome (q q' : MessageQueue) (cmsWait : Int) (now k : U32) : Prop where
  ready : (q'.ready heap (now + k)).msgq_ = (q.ready heap now).msgq_
  message : (q'.get heap cmsWait (now + k)).2.message = (q.get heap cmsWait now).2.message
  rest : (q'.get heap cmsWait (now + k)).1.dmsgq_.Perm
    ((q.get heap cmsWait now).1.dmsgq_.map (·.shift k))
  delay : (q'.get heap cmsWait (now + k)).1.drained.getDelay (now + k) =
    (q.get heap cmsWait now).1.drained.getDelay now

/-- **No message to come is numerically before one that is served before it.** -/
def InOrder (q : MessageQueue) (now : U32) : Prop :=
  ∀ d ∈ q.dmsgq_, ∀ e ∈ q.dmsgq_, isDue now e = false →
    timeDiff d.msTrigger_ now < timeDiff e.msTrigger_ now → d.msTrigger_ < e.msTrigger_

/-- **The shift does not turn round the numeric order of due messages.** -/
def KeepsOrder (q : MessageQueue) (now k : U32) : Prop :=
  ∀ d ∈ q.dmsgq_, ∀ e ∈ q.dmsgq_, isDue now d = true → isDue now e = true →
    (d.msTrigger_ < e.msTrigger_ ↔ d.msTrigger_ + k < e.msTrigger_ + k)

/-! ## Serial-number order -/

theorem timeIsLater_iff_timeDiff (now t : U32) : timeIsLater now t = true ↔ 0 < timeDiff t now := by
  have hhalf : half.toNat = 2 ^ 31 := rfl
  simp only [timeIsLater, timeDiff, Bool.and_eq_true, decide_eq_true_eq, gt_iff_lt, BitVec.lt_def,
    hhalf, BitVec.toInt_eq_toNat_cond]
  omega

theorem isDue_eq (now : U32) (d : DelayedMessage) :
    isDue now d = !timeIsLater now d.msTrigger_ := by
  rw [Bool.eq_iff_iff, Bool.not_eq_true', ← Bool.not_eq_true, timeIsLater_iff_timeDiff]
  simp [isDue]

theorem isDue_eq_false {now : U32} {d : DelayedMessage} :
    isDue now d = false ↔ 0 < timeDiff d.msTrigger_ now := by
  rw [isDue, decide_eq_false_iff_not, Int.not_le]

@[simp] theorem timeDiff_shift (t now k : U32) : timeDiff (t + k) (now + k) = timeDiff t now := by
  rw [timeDiff, timeDiff]
  congr 1
  exact add_sub_add_right_eq_sub t now k

@[simp] theorem isDue_shift (now k : U32) (d : DelayedMessage) :
    isDue (now + k) (d.shift k) = isDue now d := by
  rw [isDue, isDue, DelayedMessage.shift_msTrigger, timeDiff_shift]

/-- Among triggers to come, one that is numerically before another without being earlier lies behind
the wrap, and so does everything numerically before it. -/
theorem timeDiff_lt_of_wrapped {now d e t : U32} (ht : 0 < timeDiff t now)
    (hlt : timeDiff d now < timeDiff e now) (hwrap : e < d) (hle : t ≤ e) :
    timeDiff d now < timeDiff t now := by
  have hd' := d.isLt
  have ht' := t.isLt
  have he' := e.isLt
  have hnow := now.isLt
  simp only [timeDiff, BitVec.toInt_eq_toNat_cond, BitVec.toNat_sub, BitVec.lt_def,
    BitVec.le_def] at *
  omega


theorem trigger_le_of_key {d e : DelayedMessage} (h : d.key ≤ e.key) :
    d.msTrigger_ ≤ e.msTrigger_ :=
  (Prod.Lex.toLex_le_toLex.mp h).elim le_of_lt fun h => h.1.le

/-! ## One `Get` -/

section Get

variable {q : MessageQueue}

/-- What a `Get` leaves of the delayed messages is what its look at them leaves. -/
theorem get_dmsgq (hpeek : q.msgPeek_ = none) (cmsWait : Int) (now : U32) :
    (q.get heap cmsWait now).1.dmsgq_ = (q.ready heap now).dmsgq_ := by
  rw [get, hpeek, Option.elim_none, turn]
  cases takeReady (q.ready heap now).msgq_ with
  | mk m msgq =>
    cases m with
    | some m => rfl
    | none =>
      simp only [Option.elim_none]
      split <;> rfl

/-- What a `Get` returns is the first ready message. -/
theorem get_message (hpeek : q.msgPeek_ = none) (cmsWait : Int) (now : U32) :
    (q.get heap cmsWait now).2.message = (takeReady (q.ready heap now).msgq_).1 := by
  rw [get, hpeek, Option.elim_none, turn]
  cases takeReady (q.ready heap now).msgq_ with
  | mk m msgq =>
    cases m with
    | some m => rfl
    | none =>
      simp only [Option.elim_none]
      split <;> rfl

theorem getDelay_drained (q : MessageQueue) (now : U32) :
    q.drained.getDelay now =
      q.dmsgq_.head?.elim kForever fun top => max 0 (timeDiff top.msTrigger_ now) := by
  simp only [getDelay, drained, ne_eq, not_true_eq_false, if_false]
  cases q.dmsgq_ with
  | nil => rfl
  | cons top pending =>
    simp only [List.head?_cons, Option.elim_some]
    split <;> omega

/-- What the look at the delayed messages does: the heap in its numeric order is cut in front of the
first message that is not due. -/
structure Cut (q : MessageQueue) (now : U32) (due rest : List DelayedMessage) : Prop where
  ranked : ranked DelayedMessage.key q.dmsgq_ = due ++ ranked DelayedMessage.key rest
  isHeap : IsHeap DelayedMessage.key rest
  due : ∀ d ∈ due, isDue now d = true
  top : ∀ d ∈ rest.head?, isDue now d = false

theorem ready_cut (hheap : IsHeap DelayedMessage.key q.dmsgq_)
    (hkeys : (q.dmsgq_.map DelayedMessage.key).Nodup) (now : U32) :
    ∃ due, (q.ready heap now).msgq_ = q.msgq_ ++ due.map (·.msg_) ∧
      Cut q now due (q.ready heap now).dmsgq_ := by
  obtain ⟨due, hmsgq, hranked, hrest, hdue, htop⟩ :=
    @moveDue_spec heap now _ q.msgq_ _ hheap hkeys le_rfl
  refine ⟨due, hmsgq, hranked, hrest, fun d hd => ?_, fun d hd => ?_⟩
  · rw [isDue_eq, hdue d hd, Bool.not_false]
  · rw [isDue_eq, htop d hd, Bool.not_true]

namespace Cut

variable {now : U32} {due rest : List DelayedMessage} (h : Cut q now due rest)
include h

theorem perm : (due ++ rest).Perm q.dmsgq_ :=
  ((ranked_perm rest).symm.append_left due).trans (h.ranked ▸ ranked_perm q.dmsgq_)

variable {d : DelayedMessage}

theorem mem_iff : d ∈ q.dmsgq_ ↔ d ∈ due ∨ d ∈ rest := by
  rw [← h.perm.mem_iff, List.mem_append]

theorem le {d e : DelayedMessage} (hd : d ∈ due) (he : e ∈ rest) :
    d.msTrigger_ ≤ e.msTrigger_ := by
  have hsorted : (Lib.ranked DelayedMessage.key q.dmsgq_).Pairwise fun d e => d.key ≤ e.key :=
    ranked_pairwise _
  rw [h.ranked, List.pairwise_append] at hsorted
  exact trigger_le_of_key (hsorted.2.2 d hd e (mem_ranked.mpr he))

theorem top_le {top d : DelayedMessage} (htop : top ∈ rest.head?) (hd : d ∈ rest) :
    top.msTrigger_ ≤ d.msTrigger_ := by
  obtain ⟨pending, rfl⟩ := List.head?_eq_some_iff.mp htop
  exact trigger_le_of_key (h.isHeap.head_le d hd)

theorem late (horder : q.InOrder now) (hd : d ∈ rest) : isDue now d = false := by
  by_contra hdue
  rw [Bool.not_eq_false] at hdue
  obtain ⟨top, pending, rfl⟩ := List.exists_cons_of_ne_nil (List.ne_nil_of_mem hd)
  have htop := h.top top rfl
  have hlt := horder d (h.mem_iff.mpr (.inr hd)) top (h.mem_iff.mpr (.inr List.mem_cons_self)) htop
    (by
      have htop' := isDue_eq_false.mp htop
      have hdue' : timeDiff d.msTrigger_ now ≤ 0 := of_decide_eq_true hdue
      omega)
  exact absurd (h.top_le rfl hd) (BitVec.not_le.mpr hlt)

theorem due_eq (hrest : ∀ d ∈ rest, isDue now d = false) :
    due = (Lib.ranked DelayedMessage.key q.dmsgq_).filter (isDue now) := by
  rw [h.ranked, List.filter_append, List.filter_eq_self.mpr h.due,
    List.filter_eq_nil_iff.mpr fun d hd => ?_, List.append_nil]
  rw [hrest d (mem_ranked.mp hd)]
  exact Bool.false_ne_true

theorem rest_perm (hrest : ∀ d ∈ rest, isDue now d = false) :
    rest.Perm (q.dmsgq_.filter fun d => !isDue now d) := by
  have hperm := h.perm.filter fun d => !isDue now d
  rwa [List.filter_append, List.filter_eq_nil_iff.mpr fun d hd => by simp [h.due d hd],
    List.nil_append, List.filter_eq_self.mpr fun d hd => by simp [hrest d hd]] at hperm

variable {r : MessageQueue}

theorem delay_eq (hr : r.dmsgq_ = rest) :
    r.drained.getDelay now = rest.head?.elim kForever fun top => timeDiff top.msTrigger_ now := by
  rw [getDelay_drained, hr]
  cases rest with
  | nil => rfl
  | cons top pending =>
    have htop := isDue_eq_false.mp (h.top top rfl)
    exact max_eq_right htop.le

theorem earliest (horder : q.InOrder now) (hr : r.dmsgq_ = rest) :
    IsEarliest now rest (r.drained.getDelay now) := by
  rw [h.delay_eq hr]
  cases rest with
  | nil => exact .inl ⟨rfl, rfl⟩
  | cons top pending =>
    refine .inr ⟨top, List.mem_cons_self, rfl, fun e he => ?_⟩
    by_contra hlt
    have htop := h.top top rfl
    exact absurd (h.top_le rfl he) (BitVec.not_le.mpr
      (horder e (h.mem_iff.mpr (.inr he)) top (h.mem_iff.mpr (.inr List.mem_cons_self)) htop
        (Int.not_le.mp hlt)))

/-- What is left gives the order away: a disorder between a due message and one to come keeps the
due one in the heap, a disorder among those to come shows in the delay. -/
theorem inOrder (hrest : ∀ d ∈ rest, isDue now d = false) (hr : r.dmsgq_ = rest)
    (hdelay : IsEarliest now rest (r.drained.getDelay now)) : q.InOrder now := by
  intro d hd e he hlate hlt
  have he' : e ∈ rest := (h.mem_iff.mp he).resolve_left fun hdue => by
    rw [h.due e hdue] at hlate
    cases hlate
  rcases h.mem_iff.mp hd with hdue | hd'
  · refine BitVec.lt_of_le_ne (h.le hdue he') fun heq => ?_
    rw [heq] at hlt
    exact lt_irrefl _ hlt
  · by_contra hnot
    obtain ⟨top, pending, rfl⟩ := List.exists_cons_of_ne_nil (List.ne_nil_of_mem hd')
    rw [h.delay_eq hr] at hdelay
    obtain ⟨hnil, -⟩ | ⟨_, -, -, hmin⟩ := hdelay
    · cases hnil
    · have hwrap : e.msTrigger_ < d.msTrigger_ := by
        refine BitVec.lt_of_le_ne (BitVec.not_lt.mp hnot) fun heq => ?_
        rw [heq] at hlt
        exact lt_irrefl _ hlt
      have htop := isDue_eq_false.mp (h.top top rfl)
      have hbehind := timeDiff_lt_of_wrapped htop hlt hwrap (h.top_le rfl he')
      exact absurd (hmin d hd') (Int.not_le.mpr hbehind)

end Cut

/-- **A `Get` deals with the delayed messages by their times** exactly if no message to come is
numerically before one that is served before it. -/
theorem servesDelayed_iff (hheap : IsHeap DelayedMessage.key q.dmsgq_)
    (hkeys : (q.dmsgq_.map DelayedMessage.key).Nodup) (hpeek : q.msgPeek_ = none) (cmsWait : Int)
    (now : U32) : ServesDelayed heap q cmsWait now ↔ q.InOrder now := by
  obtain ⟨due, hmsgq, hcut⟩ := ready_cut heap hheap hkeys now
  have hget := get_dmsgq heap hpeek cmsWait now
  constructor
  · intro h
    refine hcut.inOrder (fun d hd => ?_) hget (hget ▸ h.delay)
    have hmem := h.rest.mem_iff.mp (hget ▸ hd)
    simpa using (List.mem_filter.mp hmem).2
  · intro horder
    have hrest := fun d => hcut.late horder (d := d)
    refine ⟨⟨due, hmsgq, ?_⟩, hget ▸ hcut.rest_perm hrest, hget ▸ hcut.earliest horder hget⟩
    rw [hcut.due_eq hrest]
    exact (ranked_perm _).filter _

end Get

/-! ## Two clocks -/

section Shift

variable {q q' : MessageQueue} {now k : U32}

theorem IsEarliest.unique {pending : List DelayedMessage} {delay delay' : Int}
    (h : IsEarliest now pending delay) (h' : IsEarliest now pending delay') : delay = delay' := by
  rcases h with ⟨rfl, rfl⟩ | ⟨d, hd, rfl, hmin⟩
  · rcases h' with ⟨-, rfl⟩ | ⟨_, hd, -⟩
    · rfl
    · cases hd
  · rcases h' with ⟨rfl, -⟩ | ⟨d', hd', rfl, hmin'⟩
    · cases hd
    · exact le_antisymm (hmin d' hd') (hmin' d hd)

theorem IsEarliest.shift {pending pending' : List DelayedMessage} {delay : Int}
    (h : IsEarliest now pending delay) (hperm : pending'.Perm (pending.map (·.shift k))) :
    IsEarliest (now + k) pending' delay := by
  rcases h with ⟨rfl, rfl⟩ | ⟨d, hd, rfl, hmin⟩
  · exact .inl ⟨hperm.eq_nil, rfl⟩
  · refine .inr ⟨d.shift k, hperm.mem_iff.mpr (List.mem_map_of_mem hd), ?_, fun e he => ?_⟩
    · exact timeDiff_shift ..
    · obtain ⟨e₀, he₀, rfl⟩ := List.mem_map.mp (hperm.mem_iff.mp he)
      rw [DelayedMessage.shift_msTrigger, timeDiff_shift]
      exact hmin e₀ he₀

variable {d e : DelayedMessage}

theorem key_shift_inj : (d.shift k).key = (e.shift k).key ↔ d.key = e.key := by
  simp only [DelayedMessage.key, DelayedMessage.shift, EmbeddingLike.apply_eq_iff_eq, Prod.mk.injEq,
    BitVec.toNat_inj, BitVec.add_left_inj]

theorem Valid.msg_inj (h : q.Valid) (hd : d ∈ q.dmsgq_) (he : e ∈ q.dmsgq_)
    (hmsg : d.msg_ = e.msg_) : d = e := by
  have horigin := h.origins d hd
  rw [hmsg, h.origins e he, Origin.delayed.injEq] at horigin
  refine List.inj_on_of_nodup_map h.keys hd he ?_
  rw [DelayedMessage.key, DelayedMessage.key, horigin.1, horigin.2]

namespace Shifted

variable (h : Shifted k q q')
include h

theorem keys (hkeys : (q.dmsgq_.map DelayedMessage.key).Nodup) :
    (q'.dmsgq_.map DelayedMessage.key).Nodup := by
  rw [(h.dmsgq.map _).nodup_iff, List.map_map]
  refine List.Nodup.map_on (fun d hd e he heq => ?_) hkeys.of_map
  exact List.inj_on_of_nodup_map hkeys hd he (key_shift_inj.mp heq)

theorem filter (p : Bool → Bool) :
    (q'.dmsgq_.filter fun d => p (isDue (now + k) d)).Perm
      ((q.dmsgq_.filter fun d => p (isDue now d)).map (·.shift k)) := by
  refine (h.dmsgq.filter _).trans (List.Perm.of_eq ?_)
  rw [List.filter_map]
  congr 2
  funext d
  exact congrArg p (isDue_shift now k d)

theorem due_eq (hq : q.Valid) {due due' : List DelayedMessage} (hdue : ∀ d ∈ due, d ∈ q.dmsgq_)
    (hdue' : ∀ d ∈ due', d ∈ q'.dmsgq_) (hmsg : due'.map (·.msg_) = due.map (·.msg_)) :
    due' = due.map (·.shift k) := by
  induction due' generalizing due with
  | nil =>
    rw [List.map_eq_nil_iff.mp hmsg.symm]
    rfl
  | cons d' due' ih =>
    cases due with
    | nil => cases hmsg
    | cons d due =>
      obtain ⟨hhead, htail⟩ := List.cons_eq_cons.mp hmsg
      obtain ⟨e, he, rfl⟩ := List.mem_map.mp (h.dmsgq.mem_iff.mp (hdue' d' List.mem_cons_self))
      rw [hq.msg_inj he (hdue d List.mem_cons_self) hhead, List.map_cons,
        ih (fun d hd => hdue d (List.mem_cons_of_mem _ hd))
          (fun d hd => hdue' d (List.mem_cons_of_mem _ hd)) htail]

end Shifted

theorem keepsOrder_iff {due : List DelayedMessage}
    (hdue : due = (ranked DelayedMessage.key q.dmsgq_).filter (isDue now)) :
    q.KeepsOrder now k ↔
      (due.map (·.shift k)).Pairwise fun d e => d.key ≤ e.key := by
  have hmem : ∀ d, d ∈ due ↔ d ∈ q.dmsgq_ ∧ isDue now d = true := fun d => by
    rw [hdue, List.mem_filter, mem_ranked]
  have hsorted : due.Pairwise fun d e => d.key ≤ e.key := hdue ▸ (ranked_pairwise _).filter _
  rw [List.pairwise_map]
  constructor
  · intro h
    refine hsorted.imp_of_mem fun {d e} hd he hle => ?_
    have hiff := h d ((hmem d).mp hd).1 e ((hmem e).mp he).1 ((hmem d).mp hd).2 ((hmem e).mp he).2
    rcases Prod.Lex.toLex_le_toLex.mp hle with hlt | ⟨heq, hnum⟩
    · exact Prod.Lex.toLex_le_toLex.mpr (.inl (hiff.mp hlt))
    · refine Prod.Lex.toLex_le_toLex.mpr (.inr ⟨?_, hnum⟩)
      exact congrArg (fun t : U32 => (t + k).toNat) (BitVec.eq_of_toNat_eq heq)
  · intro h d hd e he hdued hduee
    have hboth := List.pairwise_and_iff.mpr ⟨hsorted, h⟩
    have hpair : ∀ d e : DelayedMessage, d.key ≤ e.key ∧ (d.shift k).key ≤ (e.shift k).key →
        (d.msTrigger_ < e.msTrigger_ ↔ d.msTrigger_ + k < e.msTrigger_ + k) ∧
          (e.msTrigger_ < d.msTrigger_ ↔ e.msTrigger_ + k < d.msTrigger_ + k) := by
      intro d e hle
      have hle' := trigger_le_of_key hle.1
      have hshift : d.msTrigger_ + k ≤ e.msTrigger_ + k := trigger_le_of_key hle.2
      have heq : d.msTrigger_ + k = e.msTrigger_ + k ↔ d.msTrigger_ = e.msTrigger_ :=
        BitVec.add_left_inj k
      rw [← BitVec.toNat_inj, ← BitVec.toNat_inj] at heq
      rw [BitVec.le_def] at hle' hshift
      simp only [BitVec.lt_def]
      omega
    exact List.Pairwise.forall_of_forall_of_flip (fun d _ => by simp)
      (hboth.imp fun {d e} hle => (hpair d e hle).1) (hboth.imp fun {d e} hle => (hpair d e hle).2)
      ((hmem d).mpr ⟨hd, hdued⟩) ((hmem e).mpr ⟨he, hduee⟩)

/-- **The clock's shift makes no difference** to a queue that serves by its times, if it still does
so and the due messages are served in the same order. -/
theorem sameOutcome_iff (hq : q.Valid) (hpeek : q.msgPeek_ = none) (hs : Shifted k q q')
    (cmsWait : Int) (hserves : ServesDelayed heap q cmsWait now) :
    SameOutcome heap q q' cmsWait now k ↔ q'.InOrder (now + k) ∧ q.KeepsOrder now k := by
  have hpeek' : q'.msgPeek_ = none := hs.msgPeek.trans hpeek
  have hkeys' := hs.keys hq.keys
  have hget := get_dmsgq heap hpeek cmsWait now
  have hget' := get_dmsgq heap hpeek' cmsWait (now + k)
  obtain ⟨due, hmsgq, hcut⟩ := ready_cut heap hq.isHeap hq.keys now
  obtain ⟨due', hmsgq', hcut'⟩ := ready_cut heap hs.isHeap hkeys' (now + k)
  have horder := (servesDelayed_iff heap hq.isHeap hq.keys hpeek cmsWait now).mp hserves
  have hdue := hcut.due_eq fun d => hcut.late horder (d := d)
  constructor
  · intro h
    have horder' : q'.InOrder (now + k) := by
      refine hcut'.inOrder (fun d hd => ?_) hget' ?_
      · obtain ⟨e, he, rfl⟩ := List.mem_map.mp (h.rest.mem_iff.mp (hget' ▸ hd))
        rw [isDue_shift]
        exact hcut.late horder (hget ▸ he)
      · rw [h.delay, ← hget']
        exact hserves.delay.shift h.rest
    refine ⟨horder', (keepsOrder_iff hdue).mpr ?_⟩
    have hmsg : due'.map (·.msg_) = due.map (·.msg_) := by
      have hready := h.ready
      rwa [hmsgq, hmsgq', hs.msgq, List.append_cancel_left_eq] at hready
    have hdue' := hcut'.due_eq fun d => hcut'.late horder' (d := d)
    rw [← hs.due_eq hq (fun d hd => hcut.mem_iff.mpr (.inl hd))
      (fun d hd => hcut'.mem_iff.mpr (.inl hd)) hmsg, hdue']
    exact (ranked_pairwise _).filter _
  · rintro ⟨horder', hkeeps⟩
    have hserves' := (servesDelayed_iff heap hs.isHeap hkeys' hpeek' cmsWait (now + k)).mpr horder'
    have hdue' : due' = due.map (·.shift k) := by
      rw [hcut'.due_eq fun d => hcut'.late horder' (d := d), ← ranked_filter hkeys']
      refine (eq_ranked (hkeys'.sublist (List.filter_sublist.map _)) ?_
        ((keepsOrder_iff hdue).mp hkeeps)).symm
      refine List.Perm.trans ?_ (hs.filter id).symm
      rw [hdue]
      exact ((ranked_perm _).filter _).map _
    have hready : (q'.ready heap (now + k)).msgq_ = (q.ready heap now).msgq_ := by
      rw [hmsgq, hmsgq', hs.msgq, hdue', List.map_map]
      rfl
    have hrest : (q'.get heap cmsWait (now + k)).1.dmsgq_.Perm
        ((q.get heap cmsWait now).1.dmsgq_.map (·.shift k)) :=
      hserves'.rest.trans ((hs.filter not).trans (hserves.rest.map _).symm)
    refine ⟨hready, ?_, hrest, (hserves'.delay.unique (hserves.delay.shift hrest))⟩
    rw [get_message heap hpeek', get_message heap hpeek, hready]

/-- **Delayed messages are served by their times, whatever the clock shows,** exactly if no message
to come is numerically before one that is served before it, on this clock and on the shifted one,
and the shift does not turn round due messages. -/
theorem served_across_wrap_iff (hq : q.Valid) (hpeek : q.msgPeek_ = none) (hs : Shifted k q q')
    (cmsWait : Int) (now : U32) :
    ServesDelayed heap q cmsWait now ∧ SameOutcome heap q q' cmsWait now k ↔
      q.InOrder now ∧ q'.InOrder (now + k) ∧ q.KeepsOrder now k := by
  have hserves := servesDelayed_iff heap hq.isHeap hq.keys hpeek cmsWait now
  constructor
  · rintro ⟨h, hsame⟩
    exact ⟨hserves.mp h, (sameOutcome_iff heap hq hpeek hs cmsWait h).mp hsame⟩
  · rintro ⟨horder, hboth⟩
    have h := hserves.mpr horder
    exact ⟨h, (sameOutcome_iff heap hq hpeek hs cmsWait h).mpr hboth⟩

end Shift

/-- A queue with two posts, made at `now` for the times `t` and `t'`. -/
def twoPosts (now t t' : U32) : MessageQueue :=
  (create.postAt (.sorting DelayedMessage.key) t (some 1) 7 none now).postAt (.sorting _) t'
    (some 1) 8 none now

theorem served_across_wrap_before :
    ServesDelayed (.sorting _) (twoPosts 0 10 30) 0 20 ∧
      SameOutcome (.sorting _) (twoPosts 0 10 30)
        { twoPosts 0 10 30 with dmsgq_ := (twoPosts 0 10 30).dmsgq_.map (·.shift 1000) } 0 20
        1000 := by
  have hq : (twoPosts 0 10 30).Valid :=
    ⟨isHeap_of_pairwise (by decide +kernel), by decide +kernel, by decide +kernel,
      by decide +kernel, by decide +kernel⟩
  have hs : Shifted 1000 (twoPosts 0 10 30)
      { twoPosts 0 10 30 with dmsgq_ := (twoPosts 0 10 30).dmsgq_.map (·.shift 1000) } :=
    ⟨rfl, rfl, .refl _, isHeap_of_pairwise (by decide +kernel)⟩
  exact (served_across_wrap_iff _ hq rfl hs 0 20).mpr
    ⟨by unfold InOrder; decide +kernel, by unfold InOrder; decide +kernel,
      by unfold KeepsOrder; decide +kernel⟩

/-- **A due message in front of the wrap stays behind one that is not due.** Five milliseconds after
the first trigger, and ten before the second one, no message is ready. -/
theorem wrapped_message_hidden :
    ((twoPosts 4294967276 4294967286 5).dmsgq_.map fun d => timeDiff d.msTrigger_ 4294967291) =
        [10, -5] ∧
      ((twoPosts 4294967276 4294967286 5).get (.sorting _) 0 4294967291).2.message = none ∧
      ¬ ServesDelayed (.sorting _) (twoPosts 4294967276 4294967286 5) 0 4294967291 := by
  refine ⟨by decide +kernel, by decide +kernel, fun h => ?_⟩
  have hlength := h.rest.length_eq
  revert hlength
  decide +kernel

end Libjingle.MessageQueue
