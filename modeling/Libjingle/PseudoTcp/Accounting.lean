import Libjingle.PseudoTcp.SendSteps

/-!
# The sender's accounting

* `Lengths` is the accounting of lengths: the entries of `m_slist` add up to the buffered bytes,
  the transmitted ones come first and add up to `m_snd_nxt - m_snd_una`. It needs no sequence
  numbers of entries, and survives an acknowledgement inside an entry.
* `Lengths.steps`, `Accounts.steps`: every sequence of steps keeps them.
-/

namespace Libjingle

open Lib

/-! ## The accounting of lengths -/

def bytes (l : List SSegment) : Nat := (l.map fun e => e.len.toNat).sum

/-- The bytes of the entries transmitted at least once. -/
def sentBytes (l : List SSegment) : Nat :=
  (l.map fun e => if e.xmit = 0 then 0 else e.len.toNat).sum

/-- Transmitted entries come before the others. -/
def SentFirst (l : List SSegment) : Prop := l.Pairwise fun a b => a.xmit = 0 → b.xmit = 0

@[simp] theorem bytes_nil : bytes [] = 0 := rfl
@[simp] theorem sentBytes_nil : sentBytes [] = 0 := rfl

@[simp] theorem bytes_cons (e : SSegment) (l : List SSegment) :
    bytes (e :: l) = e.len.toNat + bytes l := by
  simp [bytes]

@[simp] theorem sentBytes_cons (e : SSegment) (l : List SSegment) :
    sentBytes (e :: l) = (if e.xmit = 0 then 0 else e.len.toNat) + sentBytes l := by
  simp [sentBytes]

@[simp] theorem bytes_append (l₁ l₂ : List SSegment) :
    bytes (l₁ ++ l₂) = bytes l₁ + bytes l₂ := by
  simp [bytes]

@[simp] theorem sentBytes_append (l₁ l₂ : List SSegment) :
    sentBytes (l₁ ++ l₂) = sentBytes l₁ + sentBytes l₂ := by
  simp [sentBytes]

theorem sentBytes_of_unsent : ∀ {l : List SSegment}, (∀ e ∈ l, e.xmit = 0) → sentBytes l = 0
  | [], _ => rfl
  | e :: l, h => by
    rw [sentBytes_cons, if_pos (h e (by simp)), sentBytes_of_unsent fun x hx => h x (by simp [hx])]

theorem sentBytes_of_sent : ∀ {l : List SSegment}, (∀ e ∈ l, e.xmit ≠ 0) → sentBytes l = bytes l
  | [], _ => rfl
  | e :: l, h => by
    rw [sentBytes_cons, bytes_cons, if_neg (h e (by simp)),
      sentBytes_of_sent fun x hx => h x (by simp [hx])]

theorem sentBytes_le_bytes : ∀ l : List SSegment, sentBytes l ≤ bytes l
  | [] => le_refl _
  | e :: l => by
    have ih := sentBytes_le_bytes l
    rw [sentBytes_cons, bytes_cons]
    split <;> omega

structure Lengths (o : Outgoing) : Prop where
  opened : o.sbuf.state = .opened
  total : bytes o.slist = o.sbuf.dataLength
  sentFirst : SentFirst o.slist
  inFlight : sentBytes o.slist = (o.sndNxt - o.sndUna).toNat

theorem Lengths.inFlight_le {o : Outgoing} (h : Lengths o) :
    (o.sndNxt - o.sndUna).toNat ≤ o.sbuf.dataLength := by
  rw [← h.inFlight, ← h.total]
  exact sentBytes_le_bytes _

/-! ### What an acknowledgement does -/

/-- Freeing `nFree` acknowledged bytes of a list that has them drops entries from the front and
shortens the next one. -/
theorem freeAcked_cases : ∀ (l : List SSegment) (nFree largest : U32), nFree.toNat ≤ bytes l →
    (freeAcked l nFree largest).2.2 = true ∧
      ∃ l₁ l₂, l = l₁ ++ l₂ ∧
        (((freeAcked l nFree largest).1 = l₂ ∧ bytes l₁ = nFree.toNat) ∨
          ∃ seg l₃ m, l₂ = seg :: l₃ ∧ m ≠ 0 ∧ m < seg.len ∧
            bytes l₁ + m.toNat = nFree.toNat ∧
            (freeAcked l nFree largest).1 = { seg with len := seg.len - m } :: l₃)
  | [], nFree, largest, h => by
    have h0 : nFree = 0 := by simp only [bytes_nil] at h; bv_omega
    exact ⟨by simp [freeAcked, h0], [], [], rfl, Or.inl ⟨rfl, by simp [h0]⟩⟩
  | seg :: rest, nFree, largest, h => by
    rw [bytes_cons] at h
    unfold freeAcked
    by_cases h0 : nFree = 0
    · rw [if_pos h0]
      exact ⟨rfl, [], seg :: rest, rfl, Or.inl ⟨rfl, by simp [h0]⟩⟩
    rw [if_neg h0]
    by_cases hlt : nFree < seg.len
    · rw [if_pos hlt]
      exact ⟨rfl, [], seg :: rest, rfl, Or.inr ⟨seg, rest, nFree, rfl, h0, hlt, by simp, rfl⟩⟩
    · rw [if_neg hlt]
      have hsub : (nFree - seg.len).toNat = nFree.toNat - seg.len.toNat := by bv_omega
      have hle : seg.len.toNat ≤ nFree.toNat := by bv_omega
      obtain ⟨hf, l₁, l₂, hl, hcase⟩ := freeAcked_cases rest (nFree - seg.len)
        (if seg.len > largest then seg.len else largest) (by omega)
      refine ⟨hf, seg :: l₁, l₂, by rw [hl]; rfl, ?_⟩
      rcases hcase with ⟨hr, hb⟩ | ⟨seg', l₃, m, hl₂, hm, hlt', hb, hr⟩
      · exact Or.inl ⟨hr, by rw [bytes_cons]; omega⟩
      · exact Or.inr ⟨seg', l₃, m, hl₂, hm, hlt', by rw [bytes_cons]; omega, hr⟩

variable {ack : U32}

theorem acked_eq {o : Outgoing} (h : Lengths o) (h₁ : o.sndUna < ack)
    (h₂ : ack ≤ o.sndNxt) (w now : U32) :
    ∃ b, o.sbuf.consumeReadData (ack - o.sndUna).toNat = some b ∧
      o.acked ack w now =
        { o with
          sndWnd := w
          sndUna := ack
          rtoBase := if ack = o.sndNxt then 0 else now
          sbuf := b
          slist := (freeAcked o.slist (ack - o.sndUna) o.largest).1
          largest := (freeAcked o.slist (ack - o.sndUna) o.largest).2.1 } := by
  have hle := h.inFlight_le
  have hacked : (ack - o.sndUna).toNat ≤ (o.sndNxt - o.sndUna).toNat := by bv_omega
  have hd : (ack - o.sndUna).toNat ≤ o.sbuf.dataLength := by omega
  obtain ⟨b, hb⟩ := FifoBuffer.consumeReadData_isSome hd
  have hf := (freeAcked_cases o.slist (ack - o.sndUna) o.largest (by rw [h.total]; exact hd)).1
  refine ⟨b, hb, ?_⟩
  simp only [Outgoing.acked, Outgoing.releaseAcked, Outgoing.assert, hb, hf, hd, decide_true,
    if_true, Option.getD_some]

/-! ### Every step keeps the accounting -/

variable {r : Rely} {o o' : Outgoing}

theorem sentFirst_nil : SentFirst [] := List.Pairwise.nil

variable {l₁ l₂ : List SSegment}

theorem sentFirst_append : SentFirst (l₁ ++ l₂) ↔ SentFirst l₁ ∧ SentFirst l₂ ∧
      ∀ a ∈ l₁, ∀ b ∈ l₂, a.xmit = 0 → b.xmit = 0 :=
  List.pairwise_append

variable {e : SSegment} {l : List SSegment}

theorem sentFirst_cons : SentFirst (e :: l) ↔ (∀ b ∈ l, e.xmit = 0 → b.xmit = 0) ∧ SentFirst l :=
  List.pairwise_cons

variable {seg : SSegment}

theorem Lengths.cut (h : Lengths o) (hl : o.slist = l₁ ++ seg :: l₂) (hx : seg.xmit = 0) (n : U32) :
    Lengths (o.cut l₁.length n) := by
  obtain ⟨hopen, htotal, hfirst, hflight⟩ := h
  rw [cut_eq hl]
  split
  · rename_i hn
    rw [hl] at htotal hfirst hflight
    refine ⟨hopen, ?_, ?_, ?_⟩
    · have : n.toNat + (seg.len - n).toNat = seg.len.toNat := by bv_omega
      simp only [bytes_append, bytes_cons, bytes_nil] at htotal ⊢
      omega
    · simp only [sentFirst_append, sentFirst_cons] at hfirst ⊢
      grind [sentFirst_nil]
    · simpa [hx] using hflight
  · exact ⟨hopen, htotal, hfirst, hflight⟩

variable {n : U32}

theorem Lengths.transmitted (h : Lengths o)
    (hl : o.slist = l₁ ++ seg :: l₂) (hsent : ∀ e ∈ l₁, e.xmit ≠ 0) (hx : seg.xmit < 30)
    (hn : n ≤ seg.len) (now : U32) : Lengths (o.transmitted l₁.length seg n now) := by
  have hd := o.sbuf.dataLength_le
  have hb := o.sbuf.bufferLength_lt
  obtain ⟨hopen, htotal, hfirst, hflight⟩ := h
  rw [hl] at htotal hfirst hflight
  have hx1 : seg.xmit + 1 ≠ 0 := by bv_omega
  have hsum : n.toNat + (seg.len - n).toNat = seg.len.toNat := by bv_omega
  have hle := sentBytes_le_bytes l₂
  rw [transmitted_eq hl hn]
  refine ⟨hopen, ?_, ?_, ?_⟩
  · simp only [bytes_append, bytes_cons] at htotal ⊢
    split
    · simp only [bytes_cons, bytes_nil]
      omega
    · have : n = seg.len := by bv_omega
      simp only [bytes_nil, this]
      omega
  · simp only [sentFirst_append, sentFirst_cons] at hfirst ⊢
    split <;> grind [sentFirst_nil, sentFirst_cons]
  · have hs₁ := sentBytes_of_sent hsent
    have hle₁ := sentBytes_le_bytes l₁
    simp only [sentBytes_append, sentBytes_cons, bytes_append, bytes_cons, if_neg hx1]
      at hflight htotal ⊢
    by_cases h0 : seg.xmit = 0
    · simp only [h0, if_true] at hflight ⊢
      have hsub : sentBytes (if n < seg.len then [⟨seg.seq + n, seg.len - n, 0, seg.bCtrl⟩] else [])
          = 0 := by split <;> simp
      have hun : sentBytes l₂ = 0 := by
        refine sentBytes_of_unsent fun e he => ?_
        exact (sentFirst_cons.mp (sentFirst_append.mp hfirst).2.1).1 e he h0
      rw [hsub]
      bv_omega
    · simp only [if_neg h0] at hflight ⊢
      split
      · simp only [sentBytes_cons, sentBytes_nil, if_neg h0]
        omega
      · have : n = seg.len := by bv_omega
        simp only [sentBytes_nil, this]
        omega

theorem Lengths.queue (h : Lengths o) (data : Nat → U8) (len : U32) (bCtrl : Bool) :
    Lengths (o.queue data len bCtrl).1 := by
  have hd := o.sbuf.dataLength_le
  have hb := o.sbuf.bufferLength_lt
  have hclip := clip_toNat o len
  unfold FifoBuffer.getWriteRemaining at hclip
  obtain ⟨hopen, htotal, hfirst, hflight⟩ := h
  obtain ⟨-, w1, w2, -⟩ := queue_write o hopen data len
  rcases pushSegment_cases o.slist ⟨o.sndUna + BitVec.ofNat 32 o.sbuf.dataLength, o.clip len, 0,
    bCtrl⟩
    with ⟨l₁, last, hl, hc, hx, hp⟩ | ⟨hp, -⟩
  · rw [hl] at htotal hfirst hflight
    have hle : bytes l₁ + last.len.toNat = o.sbuf.dataLength := by simpa using htotal
    have hlen : (last.len + o.clip len).toNat = last.len.toNat + (o.clip len).toNat := by
      rw [BitVec.toNat_add, Nat.mod_eq_of_lt (by omega)]
    refine ⟨w1, ?_, ?_, ?_⟩ <;> simp only [Outgoing.queue, hp]
    · simp only [bytes_append, bytes_cons, bytes_nil, hlen, w2]
      omega
    · simp only [sentFirst_append, sentFirst_cons] at hfirst ⊢
      grind [sentFirst_nil]
    · simpa [hx, Outgoing.assert] using hflight
  · refine ⟨w1, ?_, ?_, ?_⟩ <;> simp only [Outgoing.queue, hp]
    · simp only [bytes_append, bytes_cons, bytes_nil, w2, htotal]
      omega
    · simp only [sentFirst_append, sentFirst_cons]
      grind [sentFirst_nil]
    · simpa [Outgoing.assert] using hflight

theorem Lengths.acked (h : Lengths o) (h₁ : o.sndUna < ack) (h₂ : ack ≤ o.sndNxt)
    (w now : U32) : Lengths (o.acked ack w now) := by
  obtain ⟨b, hb, he⟩ := acked_eq h h₁ h₂ w now
  have hflight_le := h.inFlight_le
  obtain ⟨hopen, htotal, hfirst, hflight⟩ := h
  obtain ⟨hd, -, g1, g2, -⟩ := FifoBuffer.consumeReadData_eq_some hb
  have hflight' : (o.sndNxt - ack).toNat = (o.sndNxt - o.sndUna).toNat - (ack - o.sndUna).toNat ∧
      (ack - o.sndUna).toNat ≤ (o.sndNxt - o.sndUna).toNat := by bv_omega
  obtain ⟨-, l₁, l₂, hl, hcase⟩ := freeAcked_cases o.slist (ack - o.sndUna) o.largest
    (by rw [htotal]; exact hd)
  rw [hl] at htotal hfirst hflight
  have hle₁ := sentBytes_le_bytes l₁
  obtain ⟨-, hfirst₂, hcross⟩ := sentFirst_append.mp hfirst
  -- what is freed has been sent: unsent entries in it would leave too few sent bytes behind it
  have hsent₁ : bytes l₁ ≤ (ack - o.sndUna).toNat → sentBytes l₁ = bytes l₁ := by
    intro hb₁
    by_cases hall : ∀ e ∈ l₁, e.xmit ≠ 0
    · exact sentBytes_of_sent hall
    · simp only [not_forall, not_not] at hall
      obtain ⟨e, he, hx⟩ := hall
      have : sentBytes l₂ = 0 := sentBytes_of_unsent fun b hb => hcross e he b hb hx
      rw [sentBytes_append] at hflight
      omega
  rw [bytes_append] at htotal
  rw [sentBytes_append] at hflight
  rw [he]
  rcases hcase with ⟨hr, hb₁⟩ | ⟨seg, l₃, m, rfl, hm, hlt, hb₁, hr⟩
  · refine ⟨g1.trans hopen, ?_, ?_, ?_⟩ <;> simp only [hr]
    · omega
    · exact hfirst₂
    · have := hsent₁ (by omega)
      omega
  · have hseg : (seg.len - m).toNat = seg.len.toNat - m.toNat ∧ m.toNat < seg.len.toNat ∧
        0 < m.toNat := by bv_omega
    have hx : seg.xmit ≠ 0 := by
      intro hx
      have : sentBytes (seg :: l₃) = 0 := by
        refine sentBytes_of_unsent ?_
        rintro b hb
        rcases List.mem_cons.mp hb with rfl | hb
        · exact hx
        · exact (sentFirst_cons.mp hfirst₂).1 b hb hx
      omega
    have := hsent₁ (by omega)
    simp only [bytes_cons] at htotal
    simp only [sentBytes_cons, if_neg hx] at hflight
    refine ⟨g1.trans hopen, ?_, ?_, ?_⟩ <;> simp only [hr]
    · simp only [bytes_cons]
      omega
    · have := sentFirst_cons.mp hfirst₂
      exact sentFirst_cons.mpr this
    · simp only [sentBytes_cons, if_neg hx]
      omega

theorem Lengths.resize (h : Lengths o) (mem : Nat → U8) {size : Nat} (hs : size < 2 ^ 32) :
    Lengths { o with sbuf := (o.sbuf.setCapacity mem size hs).2 } := by
  obtain ⟨-, c1, c2, -⟩ := FifoBuffer.setCapacity_spec o.sbuf mem hs
  have hlen := congrArg List.length c1
  rw [FifoBuffer.readable_length, FifoBuffer.readable_length] at hlen
  exact ⟨c2.trans h.opened, h.total.trans hlen.symm, h.sentFirst, h.inFlight⟩

/-- **Every step keeps the accounting of lengths.** -/
theorem Lengths.step (h : Lengths o) (hs : SendStep r o o') : Lengths o' := by
  cases hs with
  | note e he => exact ⟨h.opened, h.total, h.sentFirst, h.inFlight⟩
  | emit p w hh hp => exact ⟨h.opened, h.total, h.sentFirst, h.inFlight⟩
  | cut l₁ l₂ seg n hl hx hn => exact h.cut hl hx n
  | transmit l₁ l₂ seg n now p w hl hsent hx hh hp hc hwhy =>
    have h' : Lengths { o with written := ⟨p, w⟩ :: o.written } :=
      ⟨h.opened, h.total, h.sentFirst, h.inFlight⟩
    exact h'.transmitted hl hsent hx hp.le now
  | queue data len bCtrl hn hq => exact h.queue data len bCtrl
  | greet w hw hq => exact ⟨h.opened, h.total, h.sentFirst, h.inFlight⟩
  | window w ha => exact ⟨h.opened, h.total, h.sentFirst, h.inFlight⟩
  | ack ack w now h₁ h₂ hc ha => exact h.acked h₁ h₂ w now
  | timer now hr hc => exact ⟨h.opened, h.total, h.sentFirst, h.inFlight⟩
  | resize mem size hsz => exact h.resize mem hsz

theorem Lengths.steps (h : Lengths o) (hs : SendSteps r o o') : Lengths o' :=
  hs.induct (fun _ _ step ih => ih.step step) h

/-! ## The sender's assertions -/

/-- Every entry but the last is sent or not empty. -/
def EmptyLast (l : List SSegment) : Prop := l.Pairwise fun a _ => a.xmit = 0 → a.len ≠ 0

/-- The accounting that keeps the sender's assertions. -/
structure Accounts (o : Outgoing) : Prop extends Lengths o where
  emptyLast : EmptyLast o.slist
  ctrl : ∀ e ∈ o.slist, e.bCtrl = true → e.xmit = 0 → e.len ≠ 0
  timer : o.rtoBase ≠ 0 → o.sndUna ≠ o.sndNxt
  clean : ∀ e ∈ o.log, e.breaks = false

theorem emptyLast_nil : EmptyLast [] := List.Pairwise.nil

theorem emptyLast_cons : EmptyLast (e :: l) ↔ (∀ b ∈ l, e.xmit = 0 → e.len ≠ 0) ∧ EmptyLast l :=
  List.pairwise_cons

theorem emptyLast_append : EmptyLast (l₁ ++ l₂) ↔ EmptyLast l₁ ∧ EmptyLast l₂ ∧
      ∀ a ∈ l₁, ∀ b ∈ l₂, a.xmit = 0 → a.len ≠ 0 :=
  List.pairwise_append

theorem Accounts.first_unsent (h : Accounts o)
    (hl : o.slist = l₁ ++ seg :: l₂) (hsent : ∀ e ∈ l₁, e.xmit ≠ 0) (hf : Fresh o seg) :
    seg.len ≠ 0 := by
  intro h0
  have hempty := h.emptyLast
  have htotal := h.total
  have hflight := h.inFlight
  have hdata := hf.data
  rw [hl] at hempty htotal hflight
  have hl₂ : l₂ = [] := by
    rcases l₂ with _ | ⟨b, l₂⟩
    · rfl
    · have := (emptyLast_cons.mp (emptyLast_append.mp hempty).2.1).1 b (by simp) hf.unsent
      exact absurd h0 this
  subst hl₂
  simp only [bytes_append, bytes_cons, bytes_nil, h0] at htotal
  simp only [sentBytes_append, sentBytes_cons, sentBytes_nil, sentBytes_of_sent hsent, hf.unsent,
    if_true] at hflight
  have hd : o.sbuf.dataLength = (o.sndNxt - o.sndUna).toNat := by simpa [hflight] using htotal.symm
  rw [hd, BitVec.ofNat_toNat, BitVec.setWidth_eq, BitVec.sub_self] at hdata
  exact hdata rfl

theorem Lengths.front_sent (h : Lengths o) (hne : o.sndUna ≠ o.sndNxt) :
    ∃ front rest, o.slist = front :: rest ∧ front.xmit ≠ 0 := by
  have hfirst := h.sentFirst
  have hflight := h.inFlight
  have hpos : 0 < (o.sndNxt - o.sndUna).toNat := by bv_omega
  rcases hs : o.slist with _ | ⟨front, rest⟩
  · rw [hs, sentBytes_nil] at hflight
    omega
  · rw [hs] at hflight hfirst
    refine ⟨front, rest, rfl, fun hx => ?_⟩
    have := sentBytes_of_unsent (l := rest) fun b hb => (sentFirst_cons.mp hfirst).1 b hb hx
    rw [sentBytes_cons, if_pos hx] at hflight
    omega

theorem Accounts.transmitted (h : Accounts o)
    (hl : o.slist = l₁ ++ seg :: l₂) (hsent : ∀ e ∈ l₁, e.xmit ≠ 0) (hx : seg.xmit < 30)
    (hn : n ≤ seg.len)
    (hwhy : Fresh o seg ∧ (seg.len ≠ 0 → n ≠ 0) ∨ l₁ = [] ∧ o.sndUna ≠ o.sndNxt) (now : U32) :
    Accounts (o.transmitted l₁.length seg n now) := by
  have hlen := h.toLengths.transmitted hl hsent hx hn now
  have hx1 : seg.xmit + 1 ≠ 0 := by bv_omega
  have hctrl := h.ctrl
  have hempty := h.emptyLast
  have hle := hlen.inFlight_le
  have hd := o.sbuf.dataLength_le
  have hb := o.sbuf.bufferLength_lt
  rw [hl] at hctrl hempty
  rw [transmitted_eq hl hn] at hlen hle ⊢
  simp only at hle
  refine ⟨hlen, ?_, ?_, ?_, h.clean⟩
  · simp only [emptyLast_append, emptyLast_cons] at hempty ⊢
    split
    · have : seg.len - n ≠ 0 := by bv_omega
      grind [emptyLast_nil, emptyLast_cons]
    · grind [emptyLast_nil]
  · simp only at hctrl ⊢
    split
    · have : seg.len - n ≠ 0 := by bv_omega
      grind
    · grind
  · intro _
    rcases hwhy with ⟨hf, hn0⟩ | ⟨rfl, hne⟩
    · have h1 := hn0 (h.first_unsent hl hsent hf)
      have h2 := h.toLengths.inFlight_le
      have h3 := hlen.inFlight
      have h4 := h.inFlight
      rw [hl] at h4
      simp only [sentBytes_append, sentBytes_cons, hf.unsent, if_true] at h3 h4 hle ⊢
      have h5 : ¬ (0 : U8) + 1 = 0 := by decide
      rw [if_neg h5] at h3
      have h6 : 0 < n.toNat := by bv_omega
      intro he
      rw [← he, BitVec.sub_self, BitVec.toNat_zero] at h3
      omega
    · obtain ⟨front, rest, hfr, hfx⟩ := h.toLengths.front_sent hne
      rw [hl] at hfr
      obtain ⟨rfl, rfl⟩ := List.cons.inj hfr
      simp only [if_neg hfx]
      exact hne

theorem Accounts.cut (h : Accounts o)
    (hl : o.slist = l₁ ++ seg :: l₂) (hx : seg.xmit = 0) (hn : n ≠ 0) :
    Accounts (o.cut l₁.length n) := by
  have hlen := h.toLengths.cut hl hx n
  have hctrl := h.ctrl
  have hempty := h.emptyLast
  rw [hl] at hctrl hempty
  rw [cut_eq hl] at hlen ⊢
  split
  · rename_i hlt
    rw [if_pos hlt] at hlen
    have : seg.len - n ≠ 0 := by bv_omega
    refine ⟨hlen, ?_, ?_, h.timer, h.clean⟩
    · simp only [emptyLast_append, emptyLast_cons] at hempty ⊢
      grind [emptyLast_nil]
    · simp only at hctrl ⊢
      grind
  · exact h

theorem Accounts.queue (h : Accounts o) (data : Nat → U8) {len : U32} {bCtrl : Bool}
    (hq : bCtrl = true → o.slist = [] ∧ len ≠ 0 ∧ len.toNat ≤ o.sbuf.getWriteRemaining) :
    Accounts (o.queue data len bCtrl).1 := by
  have hlen := h.toLengths.queue data len bCtrl
  have hctrl := h.ctrl
  have hempty := h.emptyLast
  have hclip := clip_toNat o len
  have hclean : ∀ e ∈ (o.queue data len bCtrl).1.log, e.breaks = false := by
    intro e he
    simp only [Outgoing.queue, Outgoing.assert] at he
    split at he
    · exact h.clean e he
    · rcases List.mem_cons.mp he with rfl | he
      · rfl
      · exact h.clean e he
  rcases pushSegment_cases o.slist ⟨o.sndUna + BitVec.ofNat 32 o.sbuf.dataLength, o.clip len, 0,
    bCtrl⟩
    with ⟨l₁, last, hl, hc, hx, hp⟩ | ⟨hp, hlast⟩
  · have hb : bCtrl = false := by
      cases bCtrl with
      | false => rfl
      | true =>
        rw [(hq rfl).1] at hl
        exact absurd hl (by simp)
    rw [hl] at hctrl hempty
    refine ⟨hlen, ?_, ?_, h.timer, hclean⟩ <;> simp only [Outgoing.queue, hp]
    · simp only [emptyLast_append, emptyLast_cons] at hempty ⊢
      grind [emptyLast_nil]
    · grind
  · refine ⟨hlen, ?_, ?_, h.timer, hclean⟩ <;> simp only [Outgoing.queue, hp]
    · rw [emptyLast_append]
      refine ⟨hempty, List.pairwise_singleton _ _, fun a ha _ _ hx => ?_⟩
      -- only the last entry could be empty, and then it is a control message
      rcases List.eq_nil_or_concat o.slist with hnil | ⟨l₁, last, hl⟩
      · rw [hnil] at ha
        exact absurd ha (by simp)
      · rw [List.concat_eq_append] at hl
        rw [hl] at ha hlast hempty hctrl
        rcases List.mem_append.mp ha with ha | ha
        · exact (emptyLast_append.mp hempty).2.2 a ha last (by simp) hx
        · obtain rfl := List.mem_singleton.mp ha
          refine hctrl a (by simp) ?_ hx
          cases bCtrl with
          | false =>
            by_contra hne
            exact hlast a (by simp) (by simpa using hne) hx
          | true =>
            rw [(hq rfl).1] at hl
            exact absurd hl (by simp)
    · intro e he hb hx
      rcases List.mem_append.mp he with he | he
      · exact hctrl e he hb hx
      · obtain rfl := List.mem_singleton.mp he
        obtain ⟨-, hne, hfit⟩ := hq hb
        intro h0
        simp only at h0
        rw [h0] at hclip
        bv_omega

theorem Accounts.acked (h : Accounts o) (h₁ : o.sndUna < ack) (h₂ : ack ≤ o.sndNxt)
    (w now : U32) : Accounts (o.acked ack w now) := by
  have hlen := h.toLengths.acked h₁ h₂ w now
  obtain ⟨b, hb, he⟩ := acked_eq h.toLengths h₁ h₂ w now
  have hd := (FifoBuffer.consumeReadData_eq_some hb).1
  have hctrl := h.ctrl
  have hempty := h.emptyLast
  obtain ⟨-, l₁, l₂, hl, hcase⟩ := freeAcked_cases o.slist (ack - o.sndUna) o.largest
    (by rw [h.total]; exact hd)
  rw [hl] at hctrl hempty
  rw [he] at hlen ⊢
  have htimer : (if ack = o.sndNxt then (0 : U32) else now) ≠ 0 → ack ≠ o.sndNxt := by
    intro hne heq
    exact hne (if_pos heq)
  rcases hcase with ⟨hr, -⟩ | ⟨seg, l₃, m, rfl, hm, hlt, -, hr⟩
  · refine ⟨hlen, ?_, ?_, htimer, h.clean⟩ <;> simp only [hr]
    · exact (emptyLast_append.mp hempty).2.1
    · exact fun e he => hctrl e (by simp [he])
  · have hne : seg.len - m ≠ 0 := by bv_omega
    refine ⟨hlen, ?_, ?_, htimer, h.clean⟩ <;> simp only [hr]
    · exact emptyLast_cons.mpr
        ⟨fun _ _ _ => hne, (emptyLast_cons.mp (emptyLast_append.mp hempty).2.1).2⟩
    · intro e he hb hx
      rcases List.mem_cons.mp he with rfl | he
      · exact hne
      · exact hctrl e (by simp [he]) hb hx

/-- **Every step under the sender's accounting keeps it**: none breaks an assertion. -/
theorem Accounts.step (h : Accounts o) (hr : r.strict) (hs : SendStep r o o') : Accounts o' := by
  have hlen := h.toLengths.step hs
  cases hs with
  | note e he =>
    refine ⟨hlen, h.emptyLast, h.ctrl, h.timer, ?_⟩
    rintro e' he'
    rcases List.mem_cons.mp he' with rfl | he'
    · exact he hr
    · exact h.clean e' he'
  | emit p w hh hp => exact ⟨hlen, h.emptyLast, h.ctrl, h.timer, h.clean⟩
  | cut l₁ l₂ seg n hl hx hn => exact h.cut hl hx hn
  | transmit l₁ l₂ seg n now p w hl hsent hx hh hp hc hwhy =>
    have h' : Accounts { o with written := ⟨p, w⟩ :: o.written } :=
      ⟨⟨h.opened, h.total, h.sentFirst, h.inFlight⟩, h.emptyLast, h.ctrl, h.timer, h.clean⟩
    refine h'.transmitted hl hsent hx hp.le ?_ now
    rcases hwhy with ⟨hf, hn⟩ | ⟨hnil, hne⟩
    · exact Or.inl ⟨⟨hf.unsent, hf.room, hf.data⟩, hn⟩
    · exact Or.inr ⟨hnil, hne hr⟩
  | queue data len bCtrl hn hq => exact h.queue data (hq hr)
  | greet w hw hq => exact ⟨hlen, h.emptyLast, h.ctrl, h.timer, h.clean⟩
  | window w ha => exact ⟨hlen, h.emptyLast, h.ctrl, h.timer, h.clean⟩
  | ack ack w now h₁ h₂ hc ha => exact h.acked h₁ h₂ w now
  | timer now hb hc => exact ⟨hlen, h.emptyLast, h.ctrl, fun _ => h.timer hb, h.clean⟩
  | resize mem size hsz => exact ⟨hlen, h.emptyLast, h.ctrl, h.timer, h.clean⟩

theorem Accounts.steps (h : Accounts o) (hr : r.strict) (hs : SendSteps r o o') : Accounts o' :=
  hs.induct (fun _ _ step ih => ih.step hr step) h

/-! ## `m_recover` -/

/-- While sequence numbers do not wrap, the bound is not past `m_snd_nxt`. -/
def Ahead (bound : U32) (o : Outgoing) : Prop := o.sndUna ≤ o.sndNxt → bound ≤ o.sndNxt

theorem Ahead.step {bound : U32} (h : Ahead bound o) (hlen : Lengths o) (hs : SendStep r o o') :
    Ahead bound o' := by
  have hlen' := hlen.step hs
  cases hs with
  | note e he => exact h
  | emit p w hh hp => exact h
  | cut l₁ l₂ seg n hl hx hn =>
    rw [cut_eq hl]
    split <;> exact h
  | transmit l₁ l₂ seg n now p w hl hsent hx hh hp hc hwhy =>
    have hle := hlen.inFlight_le
    have hflight := hlen.inFlight
    have htotal := hlen.total
    have hd := o.sbuf.dataLength_le
    have hb := o.sbuf.bufferLength_lt
    have hn := hp.le
    have hs₁ := sentBytes_of_sent hsent
    rw [transmitted_eq (o := { o with written := ⟨p, w⟩ :: o.written }) hl hn]
    unfold Ahead at h ⊢
    simp only
    split
    · rename_i hx0
      -- the bytes in flight and the new ones are all buffered, so the sum does not wrap
      have hun : sentBytes l₂ = 0 := by
        have hfirst := hlen.sentFirst
        rw [hl] at hfirst
        refine sentBytes_of_unsent fun e he => ?_
        exact (sentFirst_cons.mp (sentFirst_append.mp hfirst).2.1).1 e he hx0
      rw [hl] at hflight htotal
      simp only [sentBytes_append, sentBytes_cons, hx0, if_true, hun, hs₁] at hflight
      simp only [bytes_append, bytes_cons] at htotal
      bv_omega
    · exact h
  | queue data len bCtrl hn hq => exact h
  | greet w hw hq => exact h
  | window w ha => exact h
  | ack ack w now h₁ h₂ hc ha =>
    obtain ⟨b, -, he⟩ := acked_eq hlen h₁ h₂ w now
    rw [he]
    exact fun _ => h (by bv_omega)
  | timer now hb hc => exact h
  | resize mem size hsz => exact h

theorem Ahead.steps {bound : U32} (h : Ahead bound o) (hlen : Lengths o)
    (hs : SendSteps r o o') : Ahead bound o' :=
  (hs.induct (P := fun o => Ahead bound o ∧ Lengths o)
    (fun _ _ step ih => ⟨ih.1.step ih.2 step, ih.2.step step⟩) ⟨h, hlen⟩).1

end Libjingle
