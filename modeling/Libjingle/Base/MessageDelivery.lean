import Libjingle.Base.MessageQueue
import Libjingle.Lib.Lineup

/-!
# What a `MessageQueue` delivers

A queue under any sequence of calls, with a clock that does not go back. What has been accepted,
returned and removed is recorded beside it. A `Get` or `Peek` that waits may be woken at any time,
and the queue may be used meanwhile; there is one reader.

* A call inserts its message somewhere in `Traffic.line`, or removes messages from it; the others
  stay in their order.

## Results

* `messages_delivered`: what `Get` returns, in every run that is timely.
-/

namespace Libjingle

open Lib

/-- The number of a message of `Post`. -/
def Message.serial (m : Message) : Option Nat :=
  match m.origin with
  | .posted s => some s
  | .delayed _ _ => none

theorem Message.serial_eq_some {m : Message} {s : Nat} :
    m.serial = some s ↔ m.origin = .posted s := by
  unfold Message.serial
  cases m.origin with
  | posted s' => simp
  | delayed t n => simp

/-- The message disposes of an object. -/
def Message.disposes (m : Message) : Bool := m.message_id = mqidDispose

namespace MessageQueue

/-- A queue, the call of `Peek` (`true`) or `Get` that waits, the clock, and what has happened so
far: the messages accepted, those returned by `Get` with the time, and those removed by `Clear`. -/
structure Traffic where
  queue : MessageQueue
  call : Option (Bool × Wait)
  clock : U32
  accepted : List Message
  returned : List (U32 × Message)
  removed : List Message
deriving DecidableEq

namespace Traffic

def start (clock : U32) : Traffic := ⟨create, none, clock, [], [], []⟩

/-- A call, with the time at which it reads the clock; `wake` is the return of a call of `Wait`. -/
inductive Event
  | post (phandler : Option Nat) (id : U32) (pdata : Option Nat) (timeSensitive : Bool) (now : U32)
  | postDelayed (cmsDelay : Int) (phandler : Option Nat) (id : U32) (pdata : Option Nat) (now : U32)
  | postAt (tstamp : U32) (phandler : Option Nat) (id : U32) (pdata : Option Nat) (now : U32)
  | get (cmsWait : Int) (now : U32)
  | peek (cmsWait : Int) (now : U32)
  | wake (ok : Bool) (now : U32)
  | clear (phandler : Option Nat) (id : U32)
  | quit
deriving DecidableEq

/-- The numbers of delayed messages do not wrap. -/
def Numbers (w : Traffic) : Prop :=
  w.queue.fStop_ = false → w.queue.dmsgq_next_num_.toNat + 1 < 2 ^ 32

instance (w : Traffic) : Decidable w.Numbers := inferInstanceAs (Decidable (_ → _))

/-- The clock does not go back, there is one reader, a delay is one that `TimeAfter` admits, and
neither trigger times nor numbers of delayed messages wrap. -/
def Allowed (w : Traffic) : Event → Prop
  | .post _ _ _ _ now => w.clock ≤ now
  | .postDelayed cmsDelay _ _ _ now => w.clock ≤ now ∧ w.Numbers ∧
      0 ≤ cmsDelay ∧ cmsDelay < half.toNat ∧ now.toNat + cmsDelay < 2 ^ 32
  | .postAt _ _ _ _ now => w.clock ≤ now ∧ w.Numbers
  | .get _ now => w.clock ≤ now ∧ w.call = none
  | .peek _ now => w.clock ≤ now ∧ w.call = none
  | .wake _ now => w.clock ≤ now ∧ w.call ≠ none
  | .clear _ _ => True
  | .quit => True

instance (w : Traffic) : DecidablePred w.Allowed
  | .post .. => inferInstanceAs (Decidable (_ ≤ _))
  | .postDelayed .. => inferInstanceAs (Decidable (_ ∧ _ ∧ _ ∧ _ ∧ _))
  | .postAt .. => inferInstanceAs (Decidable (_ ∧ _))
  | .get .. => inferInstanceAs (Decidable (_ ∧ _))
  | .peek .. => inferInstanceAs (Decidable (_ ∧ _))
  | .wake .. => inferInstanceAs (Decidable (_ ∧ _))
  | .clear .. => instDecidableTrue
  | .quit => instDecidableTrue

variable (heap : HeapAlgorithms DelayedMessage.key)

/-- A message is accepted unless the queue has been stopped. -/
def accept (w : Traffic) (m : Message) : List Message :=
  if w.queue.fStop_ then w.accepted else w.accepted ++ [m]

/-- The end of a call of `Peek` or `Get`, or of a part of it. -/
def finish (w : Traffic) (peeks : Bool) (r : MessageQueue × Outcome) (now : U32) : Traffic :=
  { w with
    queue := r.1
    clock := now
    call := match r.2 with
      | .waiting wait => some (peeks, wait)
      | _ => none
    returned := w.returned ++ if peeks then [] else r.2.message.toList.map (now, ·) }

def apply (w : Traffic) : Event → Traffic
  | .post phandler id pdata timeSensitive now =>
    { w with
      queue := w.queue.post phandler id pdata timeSensitive now
      clock := now
      accepted := w.accept (w.queue.postedMessage phandler id pdata timeSensitive now) }
  | .postDelayed cmsDelay phandler id pdata now =>
    { w with
      queue := w.queue.postDelayed heap cmsDelay phandler id pdata now
      clock := now
      accepted := w.accept
        (w.queue.delayedMessage cmsDelay (now + BitVec.ofInt 32 cmsDelay) phandler id pdata).msg_ }
  | .postAt tstamp phandler id pdata now =>
    { w with
      queue := w.queue.postAt heap tstamp phandler id pdata now
      clock := now
      accepted := w.accept
        (w.queue.delayedMessage (timeDiff tstamp now) tstamp phandler id pdata).msg_ }
  | .get cmsWait now => w.finish false (w.queue.get heap cmsWait now) now
  | .peek cmsWait now => w.finish true (w.queue.peek heap cmsWait now) now
  | .wake ok now =>
    match w.call with
    | none => w
    | some (true, wait) => w.finish true (keepPeek (w.queue.wake heap wait ok now)) now
    | some (false, wait) => w.finish false (w.queue.wake heap wait ok now) now
  | .clear phandler id =>
    { w with
      queue := (w.queue.clear heap phandler id).1
      removed := w.removed ++ (w.queue.clear heap phandler id).2 }
  | .quit => { w with queue := w.queue.quit }

/-- The state after a call, if it is allowed. -/
def step (w : Traffic) (e : Event) : Option Traffic :=
  if w.Allowed e then some (w.apply heap e) else none

/-- The state after a sequence of calls. -/
def run (w : Traffic) : List Event → Option Traffic
  | [] => some w
  | e :: events => (w.step heap e).bind fun w' => w'.run events

/-- A call that looks at the delayed messages does so at a time within 2^31 of their trigger times.
-/
def Timely (w : Traffic) : Event → Prop
  | .get _ now => w.queue.msgPeek_ = none → w.queue.Windowed now
  | .peek _ now => w.queue.msgPeek_ = none → w.queue.Windowed now
  | .wake _ now => w.queue.Windowed now
  | _ => True

instance (w : Traffic) : DecidablePred w.Timely
  | .post .. => instDecidableTrue
  | .postDelayed .. => instDecidableTrue
  | .postAt .. => instDecidableTrue
  | .get .. => inferInstanceAs (Decidable (_ → _))
  | .peek .. => inferInstanceAs (Decidable (_ → _))
  | .wake _ now => inferInstanceAs (Decidable (Windowed _ now))
  | .clear .. => instDecidableTrue
  | .quit => instDecidableTrue

/-- Every call of a sequence is timely. -/
def TimelyRun (w : Traffic) : List Event → Prop
  | [] => True
  | e :: events => w.Timely e ∧ TimelyRun (w.apply heap e) events

instance decidableTimelyRun : ∀ (w : Traffic) (events : List Event),
    Decidable (w.TimelyRun heap events)
  | _, [] => instDecidableTrue
  | w, e :: events =>
    have := decidableTimelyRun (w.apply heap e) events
    inferInstanceAs (Decidable (w.Timely e ∧ TimelyRun heap (w.apply heap e) events))

/-- The messages that `Get` has returned. -/
def delivered (w : Traffic) : List Message := w.returned.map Prod.snd

/-- The messages returned so far and those that wait, in their order. -/
def line (w : Traffic) : List Message := w.delivered ++ w.queue.order

/-! ## The invariant -/

/-- A message that has been accepted bears a number that was given out. -/
def Numbered (q : MessageQueue) (m : Message) : Prop :=
  (∀ s, m.origin = .posted s → s < q.posts) ∧
    ∀ t n, m.origin = .delayed t n → n < q.dmsgq_next_num_

structure Sound (w : Traffic) : Prop where
  valid : w.queue.Valid
  reader : w.call ≠ none → w.queue.msgPeek_ = none
  /-- Every message accepted is in the line, was removed, or disposed of an object. -/
  account : ∃ disposed : List Message, (∀ m ∈ disposed, m.disposes = true) ∧
    w.accepted.Perm (w.line ++ w.removed ++ disposed)
  unique : (w.accepted.map Message.origin).Nodup
  numbered : ∀ m ∈ w.accepted, Numbered w.queue m
  mature : ∀ m ∈ w.queue.front, ∀ t n, m.origin = .delayed t n → t ≤ w.clock
  onTime : ∀ r ∈ w.returned, ∀ t n, r.2.origin = .delayed t n → t ≤ r.1
  taken : ∀ m ∈ w.delivered, m.disposes = false
  posted : (w.line.filterMap Message.serial).Pairwise (· < ·)

variable {w w' : Traffic}

theorem sound_start (clock : U32) : (start clock).Sound where
  valid := ⟨isHeap_nil, List.nodup_nil, List.forall_mem_nil _, List.forall_mem_nil _,
    fun _ hm => (Option.not_mem_none _ hm).elim⟩
  reader _ := rfl
  account := ⟨[], List.forall_mem_nil _, .refl _⟩
  unique := List.nodup_nil
  numbered := List.forall_mem_nil _
  mature := List.forall_mem_nil _
  onTime := List.forall_mem_nil _
  taken := List.forall_mem_nil _
  posted := List.Pairwise.nil

variable {m : Message}

theorem Sound.mem_accepted (h : w.Sound) (hm : m ∈ w.line) : m ∈ w.accepted := by
  obtain ⟨disposed, -, hperm⟩ := h.account
  exact hperm.mem_iff.mpr (List.mem_append_left _ (List.mem_append_left _ hm))

theorem Sound.accepted_nodup (h : w.Sound) : w.accepted.Nodup := List.Nodup.of_map _ h.unique

theorem Sound.parts_nodup (h : w.Sound) : (w.line ++ w.removed).Nodup := by
  obtain ⟨disposed, -, hperm⟩ := h.account
  exact (List.nodup_append.mp (hperm.nodup_iff.mp h.accepted_nodup)).1

theorem Sound.line_nodup (h : w.Sound) : w.line.Nodup := (List.nodup_append.mp h.parts_nodup).1

variable {q : MessageQueue}

/-- Delayed messages that wait in the heap are not messages of `Post`. -/
theorem back_serials (h : q.Valid) : q.back.filterMap Message.serial = [] := by
  refine List.filterMap_eq_nil_iff.mpr fun m hm => ?_
  obtain ⟨d, hd, rfl⟩ := List.mem_map.mp hm
  rw [Message.serial, h.origins d (mem_ranked.mp hd)]

/-! ## What the calls do to the line -/

theorem line_eq (w : Traffic) : w.line = (w.delivered ++ w.queue.front) ++ w.queue.back :=
  (List.append_assoc ..).symm

theorem delivered_finish (w : Traffic) (peeks : Bool) (r : MessageQueue × Outcome) (now : U32) :
    (w.finish peeks r now).delivered =
      w.delivered ++ if peeks then [] else r.2.message.toList := by
  cases peeks with
  | true => simp [finish, delivered]
  | false => simp [finish, delivered, Function.comp_def]

variable {now : U32}

variable {peeks : Bool} {r : MessageQueue × Outcome}

theorem line_finish (h : Serves now w.queue r.1 (if peeks then none else r.2.message)) :
    ∃ gone : List Message, (∀ m ∈ gone, m.disposes = true) ∧
      w.line.Perm ((w.finish peeks r now).line ++ gone) ∧
        (w.finish peeks r now).line.Sublist w.line := by
  obtain ⟨gone, hgone, horder⟩ := h.order
  have hnew : (w.finish peeks r now).line =
      w.delivered ++ ((if peeks then none else r.2.message).toList ++ r.1.order) := by
    rw [line, delivered_finish, List.append_assoc]
    cases peeks <;> rfl
  refine ⟨gone, fun m hm => decide_eq_true (hgone m hm), ?_, ?_⟩
  · rw [hnew, line, horder, List.append_assoc gone, List.append_assoc w.delivered]
    exact (List.perm_append_comm).append_left _
  · rw [hnew, line, horder, List.append_assoc gone]
    exact (List.sublist_append_right gone _).append_left _

theorem Sound.due (h : w.Sound) {out : Option Message}
    (hs : Serves now w.queue q out) (hclock : w.clock ≤ now) :
    ∀ m ∈ out.toList ++ q.front, ∀ t n, m.origin = .delayed t n → t ≤ now := by
  intro m hm t n ho
  rcases hs.mature m hm with hold | ⟨d, hd, rfl, hdue⟩
  · exact BitVec.le_trans (h.mature m hold t n ho) hclock
  · rw [h.valid.origins d hd] at ho
    cases ho
    exact hdue

/-- **Serving messages keeps the invariant.** -/
theorem Sound.finish (h : w.Sound)
    (hs : Serves now w.queue r.1 (if peeks then none else r.2.message)) (hclock : w.clock ≤ now)
    (hslot : ∀ wait, r.2 = .waiting wait → r.1.msgPeek_ = none) : (w.finish peeks r now).Sound := by
  obtain ⟨gone, hgone, hperm, hsub⟩ := line_finish hs
  have hnew : (w.finish peeks r now).returned =
      w.returned ++ (if peeks then none else r.2.message).toList.map (now, ·) := by
    cases peeks <;> rfl
  refine ⟨hs.valid, ?_, ?_, h.unique, ?_, ?_, ?_, ?_, ?_⟩
  · intro hcall
    rw [Traffic.finish] at hcall ⊢
    cases hr : r.2 with
    | waiting wait => exact hslot wait hr
    | returned m => exact absurd (by rw [hr]) hcall
    | failed => exact absurd (by rw [hr]) hcall
  · obtain ⟨disposed, hdisposed, haccount⟩ := h.account
    refine ⟨gone ++ disposed, List.forall_mem_append.mpr ⟨hgone, hdisposed⟩, haccount.trans ?_⟩
    have hmove := (hperm.append_right w.removed).append_right disposed
    refine hmove.trans ?_
    have hswap : (gone ++ w.removed).Perm (w.removed ++ gone) := List.perm_append_comm
    have hline := (hswap.append_left (w.finish peeks r now).line).append_right disposed
    have hremoved : (w.finish peeks r now).removed = w.removed := rfl
    simpa only [hremoved, List.append_assoc] using hline
  · intro m hm
    have hold := h.numbered m hm
    rw [Numbered, show (w.finish peeks r now).queue = r.1 from rfl, hs.posts, hs.nextNum]
    exact hold
  · intro m hm
    exact h.due hs hclock m (List.mem_append_right _ hm)
  · rw [hnew]
    refine List.forall_mem_append.mpr ⟨h.onTime, fun p hp => ?_⟩
    obtain ⟨m, hm, rfl⟩ := List.mem_map.mp hp
    exact h.due hs hclock m (List.mem_append_left _ hm)
  · rw [delivered, hnew, List.map_append]
    refine List.forall_mem_append.mpr ⟨h.taken, fun m hm => ?_⟩
    obtain ⟨p, hp, rfl⟩ := List.mem_map.mp hm
    obtain ⟨m, hout, rfl⟩ := List.mem_map.mp hp
    exact decide_eq_false (hs.taken m (Option.mem_toList.mp hout))
  · exact h.posted.sublist (hsub.filterMap _)

theorem unique_accept (h : w.Sound) (hm : ¬ Numbered w.queue m) :
    ((w.accepted ++ [m]).map Message.origin).Nodup := by
  rw [List.map_append, List.nodup_append]
  refine ⟨h.unique, List.nodup_singleton _, fun a ha b hb heq => hm ?_⟩
  obtain ⟨x, hx, rfl⟩ := List.mem_map.mp ha
  obtain rfl := List.mem_singleton.mp hb
  have hnum := h.numbered x hx
  rw [Numbered] at hnum ⊢
  rwa [← heq]

theorem account_accept (h : w.Sound) {a b : List Message} (hline : w.line = a ++ b) (m : Message) :
    ∃ disposed : List Message, (∀ x ∈ disposed, x.disposes = true) ∧
      (w.accepted ++ [m]).Perm (a ++ m :: b ++ w.removed ++ disposed) := by
  obtain ⟨disposed, hdisposed, haccount⟩ := h.account
  refine ⟨disposed, hdisposed, ?_⟩
  rw [hline] at haccount
  refine (List.perm_append_comm.trans (haccount.cons m)).trans ?_
  simpa only [List.append_assoc, List.cons_append] using List.perm_middle.symm

theorem accept_eq (hstop : w.queue.fStop_ = false) (m : Message) :
    w.accept m = w.accepted ++ [m] := by
  rw [accept, if_neg (by rw [hstop]; exact Bool.false_ne_true)]

theorem accept_stopped (hstop : w.queue.fStop_ = true) (m : Message) : w.accept m = w.accepted := by
  rw [accept, if_pos hstop]

theorem Sound.tick (h : w.Sound) (hclock : w.clock ≤ now) : Sound { w with clock := now } :=
  ⟨h.valid, h.reader, h.account, h.unique, h.numbered,
    fun m hm t n ho => BitVec.le_trans (h.mature m hm t n ho) hclock, h.onTime, h.taken, h.posted⟩

/-- **A post keeps the invariant.** -/
theorem Sound.post (h : w.Sound) {phandler : Option Nat} {id : U32} {pdata : Option Nat}
    {timeSensitive : Bool} (hclock : w.clock ≤ now) :
    (w.apply heap (.post phandler id pdata timeSensitive now)).Sound := by
  simp only [Traffic.apply]
  by_cases hstop : w.queue.fStop_ = true
  · rw [accept_stopped hstop, MessageQueue.post, if_pos hstop]
    exact h.tick hclock
  rw [Bool.not_eq_true] at hstop
  obtain ⟨hfront, hback, hvalid⟩ :=
    post_spec h.valid hstop phandler id pdata timeSensitive now
  have hposts : (w.queue.post phandler id pdata timeSensitive now).posts = w.queue.posts + 1 ∧
      (w.queue.post phandler id pdata timeSensitive now).dmsgq_next_num_ =
        w.queue.dmsgq_next_num_ ∧
      (w.queue.post phandler id pdata timeSensitive now).msgPeek_ = w.queue.msgPeek_ := by
    rw [MessageQueue.post, if_neg (by rw [hstop]; exact Bool.false_ne_true)]
    exact ⟨rfl, rfl, rfl⟩
  have horigin : (w.queue.postedMessage phandler id pdata timeSensitive now).origin =
      .posted w.queue.posts := rfl
  generalize w.queue.postedMessage phandler id pdata timeSensitive now = m at *
  generalize w.queue.post phandler id pdata timeSensitive now = q at *
  rw [accept_eq hstop]
  have hline : w.delivered ++ q.order = (w.delivered ++ w.queue.front) ++ m :: w.queue.back := by
    rw [order, hfront, hback]
    simp only [List.append_assoc, List.singleton_append]
  refine ⟨hvalid, fun hc => hposts.2.2.trans (h.reader hc), ?_, unique_accept h ?_, ?_, ?_,
    h.onTime, h.taken, ?_⟩
  · have haccount := account_accept h (line_eq w) m
    rwa [← hline] at haccount
  · exact fun hnum => (hnum.1 _ horigin).false
  · refine List.forall_mem_append.mpr ⟨fun x hx => ?_, List.forall_mem_singleton.mpr ?_⟩
    · obtain ⟨hserial, hnum⟩ := h.numbered x hx
      refine ⟨fun s hs => ?_, fun t n hn => ?_⟩
      · rw [hposts.1]
        exact Nat.lt_succ_of_lt (hserial s hs)
      · rw [hposts.2.1]
        exact hnum t n hn
    · refine ⟨fun s hs => ?_, fun t n hn => ?_⟩
      · rw [horigin] at hs
        cases hs
        rw [hposts.1]
        exact Nat.lt_succ_self _
      · rw [horigin] at hn
        cases hn
  · intro x hx t n ho
    rw [show (_ : Traffic).queue.front = q.front from rfl, hfront, List.mem_append,
      List.mem_singleton] at hx
    rcases hx with hx | rfl
    · exact BitVec.le_trans (h.mature x hx t n ho) hclock
    · rw [horigin] at ho
      cases ho
  · have hserial : m.serial = some w.queue.posts := Message.serial_eq_some.mpr horigin
    have hold := h.posted
    rw [line_eq, List.filterMap_append, back_serials h.valid, List.append_nil] at hold
    rw [show (_ : Traffic).line = w.delivered ++ q.order from rfl, hline, List.filterMap_append,
      List.filterMap_cons_some hserial, back_serials h.valid]
    refine List.pairwise_append.mpr ⟨hold, List.pairwise_singleton _ _, fun s hs b hb => ?_⟩
    obtain rfl := List.mem_singleton.mp hb
    obtain ⟨x, hx, hxs⟩ := List.mem_filterMap.mp hs
    have hmem : x ∈ w.accepted := h.mem_accepted (by rw [line_eq]; exact List.mem_append_left _ hx)
    exact (h.numbered x hmem).1 s (Message.serial_eq_some.mp hxs)

/-- **A delayed post keeps the invariant.** -/
theorem Sound.doDelayPost (h : w.Sound) (hclock : w.clock ≤ now) (hnums : w.Numbers)
    (cmsDelay : Int) (tstamp : U32) (phandler : Option Nat) (id : U32) (pdata : Option Nat) :
    Sound { w with
      queue := w.queue.doDelayPost heap cmsDelay tstamp phandler id pdata
      clock := now
      accepted := w.accept (w.queue.delayedMessage cmsDelay tstamp phandler id pdata).msg_ } := by
  by_cases hstop : w.queue.fStop_ = true
  · rw [accept_stopped hstop, MessageQueue.doDelayPost, if_pos hstop]
    exact h.tick hclock
  rw [Bool.not_eq_true] at hstop
  obtain ⟨hfront, ⟨earlier, later, hback, hback'⟩, hvalid, -⟩ :=
    doDelayPost_spec heap h.valid hstop (hnums hstop) cmsDelay tstamp phandler id pdata
  have hposts : (w.queue.doDelayPost heap cmsDelay tstamp phandler id pdata).posts =
        w.queue.posts ∧
      (w.queue.doDelayPost heap cmsDelay tstamp phandler id pdata).dmsgq_next_num_.toNat =
        w.queue.dmsgq_next_num_.toNat + 1 ∧
      (w.queue.doDelayPost heap cmsDelay tstamp phandler id pdata).msgPeek_ =
        w.queue.msgPeek_ := by
    rw [MessageQueue.doDelayPost, if_neg (by rw [hstop]; exact Bool.false_ne_true)]
    refine ⟨rfl, ?_, rfl⟩
    exact (BitVec.toNat_add _ _).trans (Nat.mod_eq_of_lt (hnums hstop))
  have horigin : (w.queue.delayedMessage cmsDelay tstamp phandler id pdata).msg_.origin =
      .delayed tstamp w.queue.dmsgq_next_num_ := rfl
  generalize (w.queue.delayedMessage cmsDelay tstamp phandler id pdata).msg_ = m at *
  generalize w.queue.doDelayPost heap cmsDelay tstamp phandler id pdata = q at *
  rw [accept_eq hstop]
  have hold : w.line = (w.delivered ++ w.queue.front ++ earlier) ++ later := by
    rw [line_eq, hback]
    simp only [List.append_assoc]
  have hline :
      w.delivered ++ q.order = (w.delivered ++ w.queue.front ++ earlier) ++ m :: later := by
    rw [order, hfront, hback']
    simp only [List.append_assoc]
  have hnext : ∀ n : U32, n < w.queue.dmsgq_next_num_ → n < q.dmsgq_next_num_ := by
    intro n hn
    rw [BitVec.lt_def] at hn ⊢
    omega
  refine ⟨hvalid, fun hc => hposts.2.2.trans (h.reader hc), ?_, unique_accept h ?_, ?_, ?_,
    h.onTime, h.taken, ?_⟩
  · have haccount := account_accept h hold m
    rwa [← hline] at haccount
  · exact fun hnum => absurd (hnum.2 _ _ horigin) (BitVec.lt_irrefl _)
  · refine List.forall_mem_append.mpr ⟨fun x hx => ?_, List.forall_mem_singleton.mpr ?_⟩
    · obtain ⟨hserial, hnum⟩ := h.numbered x hx
      exact ⟨fun s hs => by rw [hposts.1]; exact hserial s hs, fun t n hn => hnext n (hnum t n hn)⟩
    · refine ⟨fun s hs => ?_, fun t n hn => ?_⟩
      · rw [horigin] at hs
        cases hs
      · rw [horigin] at hn
        cases hn
        rw [BitVec.lt_def, hposts.2.1]
        exact Nat.lt_succ_self _
  · intro x hx t n ho
    rw [show (_ : Traffic).queue.front = q.front from rfl, hfront] at hx
    exact BitVec.le_trans (h.mature x hx t n ho) hclock
  · have hserial : m.serial = none := by rw [Message.serial, horigin]
    have hposted := h.posted
    rw [hold, List.filterMap_append] at hposted
    rw [show (_ : Traffic).line = w.delivered ++ q.order from rfl, hline, List.filterMap_append,
      List.filterMap_cons_none hserial]
    exact hposted

/-- **Clearing keeps the invariant.** -/
theorem Sound.clear (h : w.Sound) (phandler : Option Nat) (id : U32) :
    (w.apply heap (.clear phandler id)).Sound := by
  obtain ⟨horder, hremoved, hvalid, -⟩ := clear_spec heap h.valid phandler id
  have hsub : (w.delivered ++ (w.queue.clear heap phandler id).1.order).Sublist w.line := by
    rw [horder, line]
    exact List.filter_sublist.append_left _
  refine ⟨hvalid, fun hc => ?_, ?_, h.unique, h.numbered, ?_, h.onTime, h.taken,
    h.posted.sublist (hsub.filterMap _)⟩
  · have hslot := h.reader hc
    show w.queue.msgPeek_.filter _ = none
    rw [hslot]
    rfl
  · obtain ⟨disposed, hdisposed, haccount⟩ := h.account
    refine ⟨disposed, hdisposed, haccount.trans (List.Perm.append_right _ ?_)⟩
    have hsplit : w.queue.order.Perm ((w.queue.clear heap phandler id).1.order ++
        (w.queue.clear heap phandler id).2) := by
      rw [horder]
      refine List.Perm.trans ?_ (hremoved.symm.append_left _)
      have hfilter := (List.filter_append_perm (fun m => !m.matches phandler id) w.queue.order).symm
      simpa only [Bool.not_not] using hfilter
    have hmove := (hsplit.append_left w.delivered).append_right w.removed
    refine hmove.trans ?_
    have hswap : ((w.queue.clear heap phandler id).2 ++ w.removed).Perm
        (w.removed ++ (w.queue.clear heap phandler id).2) := List.perm_append_comm
    have hline := hswap.append_left (w.delivered ++ (w.queue.clear heap phandler id).1.order)
    simpa only [Traffic.apply, line, delivered, List.append_assoc] using hline
  · intro m hm t n ho
    refine h.mature m ?_ t n ho
    rw [show (_ : Traffic).queue.front = (w.queue.clear heap phandler id).1.front from rfl,
      clear_front] at hm
    exact (List.mem_filter.mp hm).1

variable {e : Event}

/-- What a part of a call of `Get` or `Peek` does: the ways in which events serve messages. -/
theorem Sound.apply_cases (h : w.Sound) (he : w.Allowed e) (ht : w.Timely e) :
    (∃ peeks r now, w.clock ≤ now ∧ w.apply heap e = w.finish peeks r now ∧
      Serves now w.queue r.1 (if peeks then none else r.2.message) ∧
      ∀ wait, r.2 = .waiting wait → r.1.msgPeek_ = none) ∨
    (∃ phandler id pdata timeSensitive now, w.clock ≤ now ∧
      e = .post phandler id pdata timeSensitive now) ∨
    (∃ cmsDelay tstamp phandler id pdata now, w.clock ≤ now ∧ w.Numbers ∧
      w.apply heap e = { w with
        queue := w.queue.doDelayPost heap cmsDelay tstamp phandler id pdata
        clock := now
        accepted := w.accept (w.queue.delayedMessage cmsDelay tstamp phandler id pdata).msg_ }) ∨
    (∃ phandler id, e = .clear phandler id) ∨ e = .quit := by
  cases e with
  | post phandler id pdata timeSensitive now =>
    exact .inr (.inl ⟨phandler, id, pdata, timeSensitive, now, he, rfl⟩)
  | postDelayed cmsDelay phandler id pdata now =>
    exact .inr (.inr (.inl ⟨_, _, _, _, _, now, he.1, he.2.1, rfl⟩))
  | postAt tstamp phandler id pdata now =>
    exact .inr (.inr (.inl ⟨_, _, _, _, _, now, he.1, he.2, rfl⟩))
  | get cmsWait now =>
    obtain ⟨hs, hslot, -⟩ := get_serves heap h.valid ht cmsWait
    exact .inl ⟨false, _, now, he.1, rfl, hs, fun _ _ => hslot⟩
  | peek cmsWait now =>
    obtain ⟨hs, hslot, -⟩ := peek_serves heap h.valid ht cmsWait
    refine .inl ⟨true, _, now, he.1, rfl, hs, fun wait hw => ?_⟩
    rw [hslot, hw]
    rfl
  | wake ok now =>
    obtain ⟨⟨peeks, wait⟩, hcall⟩ := Option.ne_none_iff_exists'.mp he.2
    have hempty := h.reader he.2
    obtain ⟨hs, hslot⟩ := wake_serves heap h.valid ht hempty wait ok
    cases peeks with
    | true =>
      obtain ⟨hkeep, hshown⟩ := keepPeek_serves hs hslot
      refine .inl ⟨true, _, now, he.1, by rw [Traffic.apply, hcall], hkeep, fun wait hw => ?_⟩
      rw [hshown, hw]
      rfl
    | false => exact .inl ⟨false, _, now, he.1, by rw [Traffic.apply, hcall], hs, fun _ _ => hslot⟩
  | clear phandler id => exact .inr (.inr (.inr (.inl ⟨phandler, id, rfl⟩)))
  | quit => exact .inr (.inr (.inr (.inr rfl)))

/-- **Every call keeps the invariant.** -/
theorem Sound.apply (h : w.Sound) (he : w.Allowed e) (ht : w.Timely e) :
    (w.apply heap e).Sound := by
  rcases h.apply_cases heap he ht with ⟨peeks, r, now, hclock, heq, hs, hslot⟩ |
    ⟨phandler, id, pdata, timeSensitive, now, hclock, rfl⟩ |
    ⟨cmsDelay, tstamp, phandler, id, pdata, now, hclock, hnums, heq⟩ | ⟨phandler, id, rfl⟩ | rfl
  · exact heq ▸ h.finish hs hclock hslot
  · exact h.post heap hclock
  · exact heq ▸ h.doDelayPost heap hclock hnums cmsDelay tstamp phandler id pdata
  · exact h.clear heap phandler id
  · exact ⟨⟨h.valid.isHeap, h.valid.keys, h.valid.nums, h.valid.origins, h.valid.peeked⟩, h.reader,
      h.account, h.unique, h.numbered, h.mature, h.onTime, h.taken, h.posted⟩

/-- How the line changes: a message is inserted, or messages leave it that dispose of objects or are
removed by `Clear`. -/
inductive Evolves (w w' : Traffic) : Prop
  | gains (m : Message) (a b : List Message) (h : w.line = a ++ b) (h' : w'.line = a ++ m :: b)
      (hremoved : w'.removed = w.removed)
  | loses (gone : List Message) (h : w.line.Perm (w'.line ++ gone)) (h' : w'.line.Sublist w.line)
      (hgone : ∀ m ∈ gone, m.disposes = true ∨ m ∈ w'.removed)
      (hremoved : ∀ m ∈ w.removed, m ∈ w'.removed)

theorem Evolves.same (hline : w'.line = w.line) (hremoved : w'.removed = w.removed) :
    Evolves w w' :=
  .loses [] (by rw [hline, List.append_nil]) (by rw [hline]) (List.forall_mem_nil _)
    (fun m hm => by rwa [hremoved])

theorem Sound.evolves (h : w.Sound) (he : w.Allowed e) (ht : w.Timely e) :
    Evolves w (w.apply heap e) := by
  rcases h.apply_cases heap he ht with ⟨peeks, r, now, -, heq, hs, -⟩ |
    ⟨phandler, id, pdata, timeSensitive, now, -, rfl⟩ |
    ⟨cmsDelay, tstamp, phandler, id, pdata, now, -, hnums, heq⟩ | ⟨phandler, id, rfl⟩ | rfl
  · obtain ⟨gone, hgone, hperm, hsub⟩ := line_finish hs
    rw [heq]
    exact .loses gone hperm hsub (fun m hm => .inl (hgone m hm)) fun m hm => hm
  · by_cases hstop : w.queue.fStop_ = true
    · refine .same ?_ rfl
      simp only [line, delivered, Traffic.apply, MessageQueue.post, if_pos hstop]
    rw [Bool.not_eq_true] at hstop
    obtain ⟨hfront, hback, -⟩ := post_spec h.valid hstop phandler id pdata timeSensitive now
    refine .gains (w.queue.postedMessage phandler id pdata timeSensitive now) _ _ (line_eq w) ?_ rfl
    rw [line, order]
    simp only [Traffic.apply, delivered, hfront, hback, List.append_assoc, List.singleton_append]
  · rw [heq]
    by_cases hstop : w.queue.fStop_ = true
    · refine .same ?_ rfl
      simp only [line, delivered, MessageQueue.doDelayPost, if_pos hstop]
    rw [Bool.not_eq_true] at hstop
    obtain ⟨hfront, ⟨earlier, later, hback, hback'⟩, -, -⟩ :=
      doDelayPost_spec heap h.valid hstop (hnums hstop) cmsDelay tstamp phandler id pdata
    refine .gains (w.queue.delayedMessage cmsDelay tstamp phandler id pdata).msg_
      (w.delivered ++ w.queue.front ++ earlier) later ?_ ?_ rfl
    · rw [line_eq, hback]
      simp only [List.append_assoc]
    · rw [line, order]
      simp only [delivered, hfront, hback', List.append_assoc]
  · obtain ⟨horder, hremoved, -, -⟩ := clear_spec heap h.valid phandler id
    refine .loses (w.queue.order.filter fun m => m.matches phandler id) ?_ ?_ ?_ ?_
    · have hfilter := (List.filter_append_perm (fun m => !m.matches phandler id) w.queue.order).symm
      rw [line, line, List.append_assoc]
      refine List.Perm.append_left _ ?_
      rw [show (w.apply heap (.clear phandler id)).queue.order = _ from horder]
      simpa only [Bool.not_not] using hfilter
    · refine List.Sublist.append_left ?_ w.delivered
      rw [show (w.apply heap (.clear phandler id)).queue.order = _ from horder]
      exact List.filter_sublist
    · exact fun m hm => .inr (List.mem_append_right _ (hremoved.mem_iff.mpr hm))
    · exact fun m hm => List.mem_append_left _ hm
  · exact .same rfl rfl

/-! ## Runs -/

theorem step_eq_some (h : w.step heap e = some w') : w.Allowed e ∧ w' = w.apply heap e := by
  unfold step at h
  split at h
  · rename_i he
    exact ⟨he, (Option.some.inj h).symm⟩
  · cases h

variable {events : List Event}

theorem Sound.run (h : w.Sound) (hrun : w.run heap events = some w')
    (ht : w.TimelyRun heap events) : w'.Sound := by
  induction events generalizing w with
  | nil =>
    cases hrun
    exact h
  | cons e events ih =>
    obtain ⟨w₁, hstep, hrun⟩ := Option.bind_eq_some_iff.mp hrun
    obtain ⟨he, rfl⟩ := step_eq_some heap hstep
    exact ih (h.apply heap he ht.1) hrun ht.2

/-- Two messages stand in this order, unless one of them has been removed. -/
def InOrder (w : Traffic) (x y : Message) : Prop :=
  x ∈ w.removed ∨ y ∈ w.removed ∨ [x, y].Sublist w.line

variable {x y : Message}

theorem InOrder.evolves (h : w.InOrder x y) (hw : w.Sound) (he : Evolves w w')
    (hx : x.disposes = false) (hy : y.disposes = false) : w'.InOrder x y := by
  cases he with
  | gains m a b hline hline' hremoved =>
    rw [InOrder, hremoved, hline']
    refine h.imp_right (Or.imp_right fun hxy => pair_insert ?_ m)
    rwa [← hline]
  | loses gone hperm hsub hgone hremoved =>
    rcases h with hgx | hgy | hxy
    · exact .inl (hremoved x hgx)
    · exact .inr (.inl (hremoved y hgy))
    have hstays : ∀ m ∈ w.line, m.disposes = false → m ∈ w'.removed ∨ m ∈ w'.line := by
      intro m hm hkeep
      rcases List.mem_append.mp (hperm.mem_iff.mp hm) with hm | hm
      · exact .inr hm
      · rcases hgone m hm with hdisposes | hremoved
        · rw [hkeep] at hdisposes
          cases hdisposes
        · exact .inl hremoved
    rcases hstays x (hxy.subset (by simp)) hx with hx | hx
    · exact .inl hx
    rcases hstays y (hxy.subset (by simp)) hy with hy | hy
    · exact .inr (.inl hy)
    · exact .inr (.inr (pair_of_sublist hsub hw.line_nodup hxy hx hy))

theorem InOrder.run (h : w.InOrder x y) (hw : w.Sound)
    (hrun : w.run heap events = some w') (ht : w.TimelyRun heap events)
    (hx : x.disposes = false) (hy : y.disposes = false) : w'.InOrder x y := by
  induction events generalizing w with
  | nil =>
    cases hrun
    exact h
  | cons e events ih =>
    obtain ⟨w₁, hstep, hrun⟩ := Option.bind_eq_some_iff.mp hrun
    obtain ⟨he, rfl⟩ := step_eq_some heap hstep
    exact ih (h.evolves hw (hw.evolves heap he ht.1) hx hy) (hw.apply heap he ht.1) hrun ht.2

theorem InOrder.delivered (h : w.InOrder x y) (hw : w.Sound)
    (hy : y ∈ w.delivered) : x ∈ w.removed ∨ [x, y].Sublist w.delivered := by
  rcases h with hx | hgone | hxy
  · exact .inl hx
  · have hline : y ∈ w.line := List.mem_append_left _ hy
    exact absurd rfl ((List.nodup_append.mp hw.parts_nodup).2.2 y hline y hgone)
  · exact .inr (pair_left hw.line_nodup hxy hy)

theorem Sound.delayed_inOrder (h : w.Sound) (hx : x ∈ w.queue.order)
    (hy : y ∈ w.queue.order) {tx nx ty ny : U32} (hox : x.origin = .delayed tx nx)
    (hoy : y.origin = .delayed ty ny) (htx : w.clock < tx) (hty : w.clock < ty)
    (hlt : tx < ty ∨ (tx = ty ∧ nx < ny)) : w.InOrder x y := by
  have hback : ∀ m ∈ w.queue.order, ∀ t n, m.origin = .delayed t n → w.clock < t →
      ∃ d ∈ w.queue.dmsgq_, d.msg_ = m ∧ d.msTrigger_ = t ∧ d.num_ = n := by
    intro m hm t n ho ht
    rcases List.mem_append.mp hm with hm | hm
    · exact absurd (h.mature m hm t n ho) (BitVec.not_le.mpr ht)
    · obtain ⟨d, hd, rfl⟩ := List.mem_map.mp hm
      have hd := mem_ranked.mp hd
      rw [h.valid.origins d hd] at ho
      cases ho
      exact ⟨d, hd, rfl, rfl, rfl⟩
  obtain ⟨d, hd, rfl, rfl, rfl⟩ := hback x hx tx nx hox htx
  obtain ⟨e, he, rfl, rfl, rfl⟩ := hback y hy ty ny hoy hty
  have hkey : d.key < e.key :=
    (DelayedMessage.less_iff e d).mp (hlt.imp_right fun hh => ⟨hh.1, hh.2⟩)
  have hne : d ≠ e := fun heq => absurd hkey (heq ▸ lt_irrefl _)
  refine .inr (.inr ?_)
  have hpair : [d, e].Sublist (ranked DelayedMessage.key w.queue.dmsgq_) := by
    have hd' : d ∈ ranked DelayedMessage.key w.queue.dmsgq_ := mem_ranked.mpr hd
    have he' : e ∈ ranked DelayedMessage.key w.queue.dmsgq_ := mem_ranked.mpr he
    rcases pair_total hne hd' he' with hde | hed
    · exact hde
    · have hle : [e, d].Pairwise fun a b => a.key ≤ b.key :=
        (ranked_pairwise w.queue.dmsgq_).sublist hed
      exact absurd ((List.pairwise_pair.mp hle).trans_lt hkey) (lt_irrefl _)
  rw [line_eq]
  exact (hpair.map (·.msg_)).trans (List.sublist_append_right _ _)

/-! ## Everything that is due is returned -/

/-- The messages that wait and that `Get` is going to return. -/
def waiting (w : Traffic) : List Message := w.queue.order.filter fun m => !m.disposes

def AllDue (w : Traffic) (now : U32) : Prop :=
  ∀ d ∈ w.queue.dmsgq_, d.msTrigger_ ≤ now ∧ now.toNat ≤ d.msTrigger_.toNat + 2 ^ 31

theorem AllDue.windowed (h : w.AllDue now) : w.queue.Windowed now := by
  intro d hd
  obtain ⟨hdue, hrange⟩ := h d hd
  rw [BitVec.le_def] at hdue
  exact ⟨hrange, by omega⟩

theorem order_of_idle (hidle : q.Idle now)
    (hdue : ∀ d ∈ q.dmsgq_, d.msTrigger_ ≤ now) : q.order = [] := by
  obtain ⟨hslot, hlist, hlater⟩ := hidle
  have hnil : q.dmsgq_ = [] := List.eq_nil_iff_forall_not_mem.mpr fun d hd =>
    BitVec.not_lt.mpr (hdue d hd) (hlater d hd)
  rw [order, front, back, hslot, hlist, hnil]
  rfl

/-- A `Get` when everything is due returns the first message. -/
theorem Sound.get_first (h : w.Sound) (hdue : w.AllDue now) {rest : List Message}
    (hwaiting : w.waiting = m :: rest) :
    (w.apply heap (.get 0 now)).delivered = w.delivered ++ [m] ∧
      (w.apply heap (.get 0 now)).waiting = rest ∧ (w.apply heap (.get 0 now)).call = none ∧
      (w.apply heap (.get 0 now)).AllDue now := by
  obtain ⟨hs, -, hidle⟩ := get_serves heap h.valid (fun _ => hdue.windowed) 0
  obtain ⟨gone, hgone, horder⟩ := hs.order
  have hnone : (gone.filter fun m => !m.disposes) = [] :=
    List.filter_eq_nil_iff.mpr fun m hm => by simp [Message.disposes, hgone m hm]
  generalize hr : w.queue.get heap 0 now = r at *
  have happly : w.apply heap (.get 0 now) = w.finish false r now := by rw [Traffic.apply, hr]
  have hdue' : (w.finish false r now).AllDue now := fun d hd => hdue d (hs.subset d hd)
  rw [waiting, horder, List.filter_append, List.filter_append, hnone, List.nil_append] at hwaiting
  obtain ⟨q, out⟩ := r
  cases out with
  | returned m' =>
    have hm' : m'.disposes = false := decide_eq_false (hs.taken m' rfl)
    have hcons : m' :: q.order.filter (fun m => !m.disposes) = m :: rest := by
      simpa [Outcome.message, hm'] using hwaiting
    obtain ⟨rfl, hrest⟩ := List.cons.inj hcons
    rw [happly]
    exact ⟨delivered_finish w false _ now, hrest, rfl, hdue'⟩
  | failed =>
    rw [order_of_idle (hidle rfl) fun d hd => (hdue' d hd).1] at hwaiting
    cases hwaiting
  | waiting wait =>
    rw [order_of_idle (hidle rfl) fun d hd => (hdue' d hd).1] at hwaiting
    cases hwaiting

/-- **Everything that waits is returned**, in its order, once it is due and `Get` is called. -/
theorem Sound.get_all (h : w.Sound) (hcall : w.call = none) (hclock : w.clock ≤ now)
    (hdue : w.AllDue now) :
    ∃ w', w.run heap (List.replicate w.waiting.length (.get 0 now)) = some w' ∧
      w'.delivered = w.delivered ++ w.waiting := by
  generalize hwaiting : w.waiting = l
  induction l generalizing w with
  | nil => exact ⟨w, rfl, (List.append_nil _).symm⟩
  | cons m rest ih =>
    have hallowed : w.Allowed (.get 0 now) := ⟨hclock, hcall⟩
    have htimely : w.Timely (.get 0 now) := fun _ => hdue.windowed
    obtain ⟨hfirst, hrest, hcall', hdue'⟩ := h.get_first heap hdue hwaiting
    obtain ⟨w', hrun, hdelivered⟩ :=
      ih (h.apply heap hallowed htimely) hcall' (BitVec.le_refl now) hdue' hrest
    refine ⟨w', ?_, ?_⟩
    · rw [List.length_cons, List.replicate_succ, Traffic.run, step, if_pos hallowed,
        Option.bind_some, hrun]
    · rw [hdelivered, hfirst, List.append_assoc, List.singleton_append]

/-! ## What a queue promises -/

/-- A call of `Peek`, or what follows its call of `Wait`. -/
def Peeks (w : Traffic) : Event → Prop
  | .peek _ _ => True
  | .wake _ _ => ∃ wait, w.call = some (true, wait)
  | _ => False

/-- What a queue promises about the messages it has accepted. -/
structure Delivers (w : Traffic) : Prop where
  /-- The accepted messages bear different numbers. Each has been returned, waits, has been removed
  by `Clear` or disposed of an object, and only one of these. -/
  exactlyOnce : (w.accepted.map Message.origin).Nodup ∧
    ∃ disposed : List Message, (∀ m ∈ disposed, m.disposes = true) ∧
      w.accepted.Perm (w.delivered ++ w.queue.order ++ w.removed ++ disposed)
  /-- What waits is returned when `Get` is called after it is due. -/
  served : ∀ now, w.call = none → w.clock ≤ now → w.AllDue now →
    ∃ w', w.run heap (List.replicate w.waiting.length (.get 0 now)) = some w' ∧
      w'.delivered = w.delivered ++ w.waiting
  onTime : ∀ r ∈ w.returned, ∀ t n, r.2.origin = .delayed t n → t ≤ r.1
  inPostingOrder : (w.delivered.filterMap Message.serial).Pairwise (· < ·)
  /-- Two delayed messages that wait and are not due are returned by trigger time and number. -/
  byTrigger : ∀ events w', w.run heap events = some w' → w.TimelyRun heap events →
    ∀ x ∈ w.queue.order, ∀ y ∈ w.queue.order, x.disposes = false → y.disposes = false →
    ∀ tx nx ty ny, x.origin = .delayed tx nx → y.origin = .delayed ty ny →
      w.clock < tx → w.clock < ty → tx < ty ∨ (tx = ty ∧ nx < ny) →
      y ∈ w'.delivered → x ∈ w'.removed ∨ [x, y].Sublist w'.delivered
  /-- A `Peek` takes no message and leaves those that wait in their order. -/
  peek : ∀ e w', w.Peeks e → w.Timely e → w.step heap e = some w' →
    w'.delivered = w.delivered ∧ w'.removed = w.removed ∧
      ∃ gone : List Message, (∀ m ∈ gone, m.disposes = true) ∧
        w.queue.order = gone ++ w'.queue.order
  /-- The message that `Peek` shows is the next one that `Get` returns. -/
  shown : (∀ cmsWait now m, (w.queue.peek heap cmsWait now).2 = .returned m →
      (w.queue.peek heap cmsWait now).1.msgPeek_ = some m) ∧
    (∀ wait ok now m, (keepPeek (w.queue.wake heap wait ok now)).2 = .returned m →
      (keepPeek (w.queue.wake heap wait ok now)).1.msgPeek_ = some m) ∧
    ∀ m, w.queue.msgPeek_ = some m → w.queue.order.head? = some m ∧
      ∀ cmsWait now, (w.queue.get heap cmsWait now).2 = .returned m
  /-- `Clear` removes what matches and leaves the rest in its order. -/
  clear : ∀ phandler id,
    (w.queue.clear heap phandler id).1.order =
        w.queue.order.filter (fun m => !m.matches phandler id) ∧
      (w.queue.clear heap phandler id).2.Perm
        (w.queue.order.filter fun m => m.matches phandler id)

theorem Sound.peek_event (h : w.Sound) (hpeek : w.Peeks e) (ht : w.Timely e)
    (hstep : w.step heap e = some w') :
    w'.delivered = w.delivered ∧ w'.removed = w.removed ∧
      ∃ gone : List Message, (∀ m ∈ gone, m.disposes = true) ∧
        w.queue.order = gone ++ w'.queue.order := by
  obtain ⟨he, rfl⟩ := step_eq_some heap hstep
  have hfinish : ∃ r now, w.apply heap e = w.finish true r now ∧ Serves now w.queue r.1 none := by
    cases e with
    | peek cmsWait now => exact ⟨_, now, rfl, (peek_serves heap h.valid ht cmsWait).1⟩
    | wake ok now =>
      obtain ⟨wait, hcall⟩ := hpeek
      obtain ⟨hs, hslot⟩ := wake_serves heap h.valid ht (h.reader he.2) wait ok
      exact ⟨_, now, by rw [Traffic.apply, hcall], (keepPeek_serves hs hslot).1⟩
    | _ => exact hpeek.elim
  obtain ⟨r, now, heq, hs⟩ := hfinish
  obtain ⟨gone, hgone, horder⟩ := hs.order
  rw [heq, delivered_finish]
  refine ⟨List.append_nil _, rfl, gone, fun m hm => decide_eq_true (hgone m hm), ?_⟩
  rw [horder, Option.toList_none, List.append_nil]
  rfl

theorem Sound.delivers (h : w.Sound) : w.Delivers heap where
  exactlyOnce := ⟨h.unique, h.account.imp fun disposed hd => ⟨hd.1, hd.2⟩⟩
  served now hcall hclock hdue := h.get_all heap hcall hclock hdue
  onTime := h.onTime
  inPostingOrder := h.posted.sublist ((List.sublist_append_left _ _).filterMap _)
  byTrigger events w' hrun ht x hx y hy hdx hdy tx nx ty ny hox hoy htx hty hlt hdelivered :=
    ((h.delayed_inOrder hx hy hox hoy htx hty hlt).run heap h hrun ht hdx hdy).delivered
      (h.run heap hrun ht) hdelivered
  peek e w' hpeek ht hstep := h.peek_event heap hpeek ht hstep
  shown := by
    refine ⟨fun _ _ _ hm => peek_shown heap hm, fun _ _ _ _ hm => keepPeek_shown hm,
      fun m hm => ⟨?_, fun cmsWait now => ?_⟩⟩
    · rw [order, front, hm]
      rfl
    · rw [get_of_peeked heap hm]
  clear phandler id := by
    obtain ⟨horder, hremoved, -, -⟩ := clear_spec heap h.valid phandler id
    exact ⟨horder, hremoved⟩

/-- **A queue delivers what it has accepted**, in every run that is timely, whatever the heap
algorithms are. -/
theorem messages_delivered {clock : U32} {events : List Event}
    (hrun : (start clock).run heap events = some w) (ht : (start clock).TimelyRun heap events) :
    w.Delivers heap :=
  ((sound_start clock).run heap hrun ht).delivers heap

/-- Posts of every kind, a `Peek`, a `Get` that waits and is woken, a `Clear`, and a `Quit`. -/
def mixed : List Event :=
  [.postDelayed 5 (some 1) 7 none 0, .postAt 3 (some 1) 8 none 0, .post (some 2) 9 none true 1,
    .peek 0 2, .get 0 3, .post none mqidDispose (some 4) false 3, .get 0 3, .get kForever 4,
    .postDelayed 9 (some 2) 7 none 4, .wake true 6, .clear (some 2) mqidAny, .quit, .get 0 20]

theorem messages_delivered_mixed :
    ((start 0).run (.sorting DelayedMessage.key) mixed).isSome = true ∧
      ∀ w ∈ (start 0).run (.sorting DelayedMessage.key) mixed, w.Delivers (.sorting _) :=
  ⟨by decide +kernel, fun _ hw => messages_delivered _ hw (by decide +kernel)⟩

/-- **A message may be returned before its time, and a `Peek` may change what `Get` returns.** A
time that lies half the range ahead counts as past. A delayed message that a `Peek` finds due comes
before a message posted after the `Peek`; without the `Peek` it comes after it. -/
theorem untimely_and_reordered :
    (∀ w ∈ (start 0).run (.sorting DelayedMessage.key)
      [.postAt 3000000000 (some 1) 7 none 0, .get 0 0],
      ∃ r ∈ w.returned, r.1 = 0 ∧ r.2.origin = .delayed 3000000000 0) ∧
    ((start 0).run (.sorting DelayedMessage.key)
      [.postAt 3000000000 (some 1) 7 none 0, .get 0 0]).isSome ∧
    ((start 0).run (.sorting DelayedMessage.key) [.postDelayed 5 (some 1) 7 none 0, .peek 0 10,
      .post (some 1) 8 none false 10, .get 0 10]).map
        (fun w => w.delivered.map Message.message_id) = some [7] ∧
    ((start 0).run (.sorting DelayedMessage.key) [.postDelayed 5 (some 1) 7 none 0,
      .post (some 1) 8 none false 10, .get 0 10]).map
        (fun w => w.delivered.map Message.message_id) = some [8] := by
  refine ⟨?_, by decide +kernel, by decide +kernel, by decide +kernel⟩
  rintro w ⟨⟩
  exact ⟨_, List.mem_cons_self, rfl, rfl⟩

end Traffic

end MessageQueue

end Libjingle
