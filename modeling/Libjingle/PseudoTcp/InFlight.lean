import Libjingle.PseudoTcp.SegmentList

/-!
# What a sender has in flight

The sender's half of a connection, as its peer will need it. `edge` is the end of the peer's
receive window.

* A `Mark` lasts (`Mark.step`), so a peer that only knows marks only acknowledges marks.
* `Underway edge o`: all of it, with nothing sent beyond `edge`. `SendSteps.underway` keeps it
  over the steps of a call whose acknowledgements are marks and whose windows end at `edge`.
-/

namespace Libjingle

open Lib

variable {o o' : Outgoing} {r : Rely} {edge : Nat}

/-! ## Positions -/

/-- While the stream does not wrap, the unacknowledged part of it starts at `m_snd_una`. -/
theorem Buffered.una_toNat (h : Buffered o) (hw : o.queued.length < 2 ^ 32) :
    o.sndUna.toNat = o.queued.length - o.sbuf.dataLength := by
  have hle := h.le
  have := congrArg BitVec.toNat h.una
  rw [BitVec.toNat_add, BitVec.toNat_ofNat, BitVec.toNat_ofNat] at this
  omega

variable {seg : SSegment}

variable {l₁ l₂ : List SSegment}

theorem Listed.position (h : Listed o) (hw : o.queued.length < 2 ^ 32)
    (hl : o.slist = l₁ ++ seg :: l₂) :
    seg.seq.toNat = o.sndUna.toNat + bytes l₁ ∧
      o.sndUna.toNat + bytes l₁ + seg.len.toNat + bytes l₂ = o.queued.length := by
  have hle := h.le
  have huna := h.toBuffered.una_toNat hw
  have htotal := h.total
  have ht := h.tiles
  rw [hl] at htotal ht
  simp only [bytes_append, bytes_cons] at htotal
  have hseq : seg.seq = o.sndUna + BitVec.ofNat 32 (bytes l₁) := (segmentTiles_append.mp ht).2.1
  refine ⟨?_, by omega⟩
  rw [hseq, BitVec.toNat_add, BitVec.toNat_ofNat]
  omega

theorem Listed.next_toNat (h : Listed o) (hw : o.queued.length < 2 ^ 32) :
    o.sndNxt.toNat = o.sndUna.toNat + sentBytes o.slist ∧ o.sndNxt.toNat ≤ o.queued.length := by
  have hle := h.le
  have huna := h.toBuffered.una_toNat hw
  have htotal := h.total
  have hsent := sentBytes_le_bytes o.slist
  have hflight := h.inFlight
  constructor <;> bv_omega

theorem payload_length (o : Outgoing) (mem : Nat → U8) (offset len : U32) :
    (o.payload mem offset len).length = len.toNat := by
  unfold Outgoing.payload
  split
  · rename_i h0
    rw [h0]
    rfl
  · have hle : (o.sbuf.readOffset len.toNat offset.toNat).2.length ≤ len.toNat := by
      by_cases h : offset.toNat < o.sbuf.dataLength
      · rw [FifoBuffer.readOffset_success len.toNat h]
        simp
      · rw [FifoBuffer.readOffset_block len.toNat (by omega)]
        split <;> simp
    simp only [List.length_append, fetch_length]
    omega

/-! ## Marks -/

/-- What is acknowledged, or what is transmitted, ends at `e`. -/
def Mark (o : Outgoing) (e : Nat) : Prop :=
  e ≤ o.sndUna.toNat ∨ ∃ l₁ l₂, o.slist = l₁ ++ l₂ ∧ (∀ x ∈ l₁, x.xmit ≠ 0) ∧
    e = o.sndUna.toNat + bytes l₁

variable {e : Nat}

theorem Mark.le_next (h : Listed o) (hw : o.queued.length < 2 ^ 32) (hm : Mark o e) :
    e ≤ o.sndNxt.toNat := by
  have hnxt := (h.next_toNat hw).1
  rcases hm with hle | ⟨l₁, l₂, hl, hsent, rfl⟩
  · omega
  · rw [hl, sentBytes_append, sentBytes_of_sent hsent] at hnxt
    omega

theorem Mark.onBoundary {ack : U32} (h : Mark o ack.toNat) (hlt : o.sndUna < ack) :
    OnBoundary o ack := by
  rcases h with hle | ⟨l₁, l₂, hl, hsent, he⟩
  · bv_omega
  · exact ⟨l₁, l₂, hl, hsent, by bv_omega⟩

theorem sent_before {l₁ l₂ k₁ k₂ : List SSegment} (h : l₁ ++ l₂ = k₁ ++ seg :: k₂)
    (hsent : ∀ x ∈ l₁, x.xmit ≠ 0) (hx : seg.xmit = 0) : ∃ k, k₁ = l₁ ++ k := by
  rcases List.append_eq_append_iff.mp h with ⟨a, rfl, -⟩ | ⟨a, rfl, ha⟩
  · exact ⟨a, rfl⟩
  · cases a with
    | nil => exact ⟨[], by simp⟩
    | cons e a =>
      obtain ⟨rfl, -⟩ := List.cons.inj ha
      exact absurd hx (hsent _ (by simp))

theorem Mark.cut (h : Mark o e)
    (hl : o.slist = l₁ ++ seg :: l₂) (hx : seg.xmit = 0) (n : U32) :
    Mark (o.cut l₁.length n) e := by
  rcases h with hle | ⟨k₁, k₂, hk, hsent, he⟩
  · left
    rw [cut_eq hl]
    split <;> exact hle
  · obtain ⟨k, rfl⟩ := sent_before (hk.symm.trans hl) hsent hx
    right
    rw [cut_eq hl]
    split
    · exact ⟨k₁, _, by simp only [List.append_assoc]; rfl, hsent, he⟩
    · exact ⟨k₁, k₂, hk, hsent, he⟩

theorem Mark.transmitted {l₁ l₂ : List SSegment} {seg : SSegment} (hl : o.slist = l₁ ++ seg :: l₂)
    (hsent : ∀ x ∈ l₁, x.xmit ≠ 0) (hx : seg.xmit < 30) {n : U32} (hn : n ≤ seg.len) (now : U32) :
    (∀ e, Mark o e → Mark (o.transmitted l₁.length seg n now) e) ∧
      Mark (o.transmitted l₁.length seg n now) (o.sndUna.toNat + bytes l₁ + n.toNat) := by
  have hx' : seg.xmit + 1 ≠ 0 := by bv_omega
  rw [transmitted_eq hl hn]
  constructor
  · rintro e (hle | ⟨k₁, k₂, hk, hks, he⟩)
    · exact Or.inl hle
    right
    rcases List.append_eq_append_iff.mp (hk.symm.trans hl) with ⟨a, rfl, -⟩ | ⟨a, rfl, ha⟩
    · exact ⟨k₁, _, by simp only [List.append_assoc]; rfl, hks, he⟩
    cases a with
    | nil => exact ⟨l₁, _, by simp only [List.append_assoc]; rfl, hsent, by simpa using he⟩
    | cons x a =>
      -- the entry was transmitted before, so the rest of it counts as transmitted too
      obtain ⟨rfl, rfl⟩ := List.cons.inj ha
      have hxs : seg.xmit ≠ 0 := hks seg (by simp)
      by_cases hlt : n < seg.len
      · refine ⟨l₁ ++ { seg with len := n, xmit := seg.xmit + 1 } ::
          ⟨seg.seq + n, seg.len - n, seg.xmit, seg.bCtrl⟩ :: a, k₂, ?_, ?_, ?_⟩
        · simp [hlt]
        · intro y hy
          simp only [List.mem_append, List.mem_cons] at hy
          rcases hy with hy | rfl | rfl | hy
          · exact hsent y hy
          · exact hx'
          · exact hxs
          · exact hks y (by simp [hy])
        · rw [he]
          simp only [bytes_append, bytes_cons]
          bv_omega
      · refine ⟨l₁ ++ { seg with len := n, xmit := seg.xmit + 1 } :: a, k₂, ?_, ?_, ?_⟩
        · simp [hlt]
        · intro y hy
          simp only [List.mem_append, List.mem_cons] at hy
          rcases hy with hy | rfl | hy
          · exact hsent y hy
          · exact hx'
          · exact hks y (by simp [hy])
        · rw [he]
          simp only [bytes_append, bytes_cons]
          bv_omega
  · right
    refine ⟨l₁ ++ [{ seg with len := n, xmit := seg.xmit + 1 }],
      (if n < seg.len then [⟨seg.seq + n, seg.len - n, seg.xmit, seg.bCtrl⟩] else []) ++ l₂,
      by simp, ?_, ?_⟩
    · intro y hy
      rcases List.mem_append.mp hy with hy | hy
      · exact hsent y hy
      · obtain rfl := List.mem_singleton.mp hy
        exact hx'
    · simp only [bytes_append, bytes_cons, bytes_nil]
      omega

theorem Mark.acked (h : Lengths o) {ack : U32} (h₁ : o.sndUna < ack) (h₂ : ack ≤ o.sndNxt)
    (hon : OnBoundary o ack) (w now : U32) (hm : Mark o e) :
    Mark (o.acked ack w now) e := by
  obtain ⟨b, hb, he⟩ := acked_eq h h₁ h₂ w now
  obtain ⟨hd, -⟩ := FifoBuffer.consumeReadData_eq_some hb
  have hdiff : (ack - o.sndUna).toNat = ack.toNat - o.sndUna.toNat := by bv_omega
  have hlt : o.sndUna.toNat < ack.toNat := h₁
  obtain ⟨-, l₁, l₂, hl, hcase⟩ := freeAcked_cases o.slist (ack - o.sndUna) o.largest
    (by rw [h.total]; exact hd)
  rcases hcase with ⟨hr, hb₁⟩ | ⟨seg, l₃, m, rfl, hm', hlt', hb₁, hr⟩
  · rw [he]
    rcases hm with hle | ⟨k₁, k₂, hk, hks, hke⟩
    · exact Or.inl (by simp only; omega)
    · rcases List.append_eq_append_iff.mp (hk.symm.trans hl) with ⟨a, rfl, -⟩ | ⟨a, rfl, ha⟩
      · left
        rw [bytes_append] at hb₁
        simp only
        omega
      · right
        refine ⟨a, k₂, by simp only [hr, ha], fun x hx => hks x (by simp [hx]), ?_⟩
        rw [bytes_append] at hke
        simp only
        omega
  · obtain ⟨k₁, k₂, hk, -, hbk⟩ := hon
    rw [hl] at hk
    have := bytes_cut hk.symm
    bv_omega

/-! ## Marks last -/

/-- **A mark is never lost.** -/
theorem Mark.step (hr : r.Aligned) (h : Lengths o) (hs : SendStep r o o') {e : Nat}
    (hm : Mark o e) : Mark o' e := by
  cases hs with
  | note ev he => exact hm
  | emit p w hh hp => exact hm
  | cut l₁ l₂ seg n hl hx hn => exact hm.cut hl hx n
  | transmit l₁ l₂ seg n now p w hl hsent hx hh hp hc hwhy =>
    exact (Mark.transmitted (o := { o with written := ⟨p, w⟩ :: o.written }) hl hsent hx hp.le
      now).1 e hm
  | queue data len bCtrl hn hq =>
    rcases hm with hle | ⟨l₁, l₂, hl, hsent, he⟩
    · exact Or.inl hle
    · obtain ⟨l₃, hl₃⟩ := PseudoTcp.onBoundary_pushSegment hl hsent
        ⟨o.sndUna + BitVec.ofNat 32 o.sbuf.dataLength, o.clip len, 0, bCtrl⟩
      exact Or.inr ⟨l₁, l₃, hl₃, hsent, he⟩
  | greet w hw hq => exact hm
  | window w ha => exact hm
  | ack ack w now h₁ h₂ hc ha => exact hm.acked h h₁ h₂ (hr o ack w ha h₁ h₂) w now
  | timer now hb hc => exact hm
  | resize mem size hsz => exact hm

/-! ## Packets -/

/-- A packet on its way: a piece of the CONNECT message in front of sequence number 4, a piece of
data behind it, or an acknowledgement only. -/
structure Sent (o : Outgoing) (p : Packet) : Prop where
  flags : p.flags = 0 ∨ p.flags = flagCtl
  mark : p.payload ≠ [] → Mark o (p.seq.toNat + p.payload.length)
  control : p.flags = flagCtl → p.seq.toNat + p.payload.length ≤ 4
  data : p.flags = 0 → p.payload ≠ [] → 4 ≤ p.seq.toNat

theorem Sent.mono {p : Packet} (h : Sent o p) (hm : ∀ e, Mark o e → Mark o' e) : Sent o' p :=
  ⟨h.flags, fun hp => hm _ (h.mark hp), h.control, h.data⟩

/-- The entries are pieces of the CONNECT message or of data. -/
def Kinds (l : List SSegment) : Prop :=
  ∀ e ∈ l, (e.bCtrl = true → e.seq.toNat + e.len.toNat ≤ 4) ∧ (e.bCtrl = false → 4 ≤ e.seq.toNat)

/-- What a sender has in flight, its packets included; nothing of it is beyond `edge`. -/
structure Underway (edge : Nat) (o : Outgoing) : Prop where
  listed : Listed o
  accounts : Accounts o
  kinds : Kinds o.slist
  window : o.sndUna.toNat + o.sndWnd.toNat ≤ edge
  next : o.sndNxt.toNat ≤ edge
  sent : ∀ w ∈ o.written, w.result = .success → Sent o w.packet

theorem Underway.mono {edge' : Nat} (h : Underway edge o)
    (hle : edge ≤ edge') : Underway edge' o :=
  ⟨h.listed, h.accounts, h.kinds, h.window.trans hle, h.next.trans hle, h.sent⟩

/-- The steps of an endpoint in a connection: the headers are `H`, the acknowledgements it takes
end at entries and their windows at `edge`, the CONNECT message comes first and is four bytes
long, data comes behind it. -/
def flowRely (edge : Nat) (H : U32 → U32 → U16 → Prop) : Rely where
  header := H
  clock _ := True
  accepts o ack w :=
    (o.sndUna < ack → ack ≤ o.sndNxt → OnBoundary o ack) ∧ ack.toNat + w.toNat ≤ edge
  queues q len bCtrl := if bCtrl then q = [] ∧ len = 4 else 4 ≤ q.length
  strict := True

variable {H : U32 → U32 → U16 → Prop}

theorem flowRely_aligned : (flowRely edge H).Aligned := fun _ _ _ h => h.1

theorem SendStep.queued (hs : SendStep r o o') : o.queued <+: o'.queued := by
  cases hs with
  | cut l₁ l₂ seg n hl hx hn =>
    rw [cut_eq hl]
    split <;> exact List.prefix_refl _
  | queue data len bCtrl hn hq => exact List.prefix_append _ _
  | _ => exact List.prefix_refl _

/-- Every packet a step writes has a header of `r`. -/
theorem SendStep.headers (hs : SendStep r o o') : ∀ w ∈ o'.written,
    w ∈ o.written ∨ r.header w.packet.conv w.packet.ack w.packet.wnd := by
  cases hs with
  | cut l₁ l₂ seg n hl hx hn =>
    rw [cut_eq hl]
    split <;> exact fun w hw => Or.inl hw
  | emit p w hh hp =>
    intro w' hw'
    rcases List.mem_cons.mp hw' with rfl | hw'
    · exact Or.inr hh
    · exact Or.inl hw'
  | transmit l₁ l₂ seg n now p w hl hsent hx hh hp hc hwhy =>
    intro w' hw'
    rcases List.mem_cons.mp hw' with rfl | hw'
    · exact Or.inr hh
    · exact Or.inl hw'
  | _ => exact fun w hw => Or.inl hw

/-! ## The steps of a connection -/

/-- `e` is a piece of `seg`. -/
structure Piece (seg e : SSegment) : Prop where
  kind : e.bCtrl = seg.bCtrl
  start : seg.seq.toNat ≤ e.seq.toNat
  stop : e.seq.toNat + e.len.toNat ≤ seg.seq.toNat + seg.len.toNat

theorem Kinds.pieces {l₁ l₂ m : List SSegment} {seg : SSegment} (h : Kinds (l₁ ++ seg :: l₂))
    (hm : ∀ e ∈ m, Piece seg e) : Kinds (l₁ ++ m ++ l₂) := by
  intro e he
  obtain ⟨hc, hd⟩ := h seg (by simp)
  rw [List.append_assoc, List.mem_append, List.mem_append] at he
  rcases he with he | he | he
  · exact h e (by simp [he])
  · obtain ⟨hk, hs, ht⟩ := hm e he
    rw [hk]
    exact ⟨fun hb => by have := hc hb; omega, fun hb => by have := hd hb; omega⟩
  · exact h e (by simp [he])

theorem Kinds.queue (h : Listed o) (hk : Kinds o.slist) (data : Nat → U8) {len : U32} {bCtrl : Bool}
    (hq : if bCtrl then o.queued = [] ∧ len = 4 else 4 ≤ o.queued.length)
    (hnil : bCtrl = true → o.slist = [])
    (hw : (o.queue data len bCtrl).1.queued.length < 2 ^ 32) :
    Kinds (o.queue data len bCtrl).1.slist := by
  have hq0 : o.queued.length < 2 ^ 32 := by
    simp only [Outgoing.queue, List.length_append] at hw
    omega
  have huna := h.toBuffered.una
  have hclip := clip_toNat o len
  have hseq : (o.sndUna + BitVec.ofNat 32 o.sbuf.dataLength).toNat = o.queued.length := by
    rw [huna, BitVec.toNat_ofNat, Nat.mod_eq_of_lt hq0]
  intro e he
  rcases pushSegment_cases o.slist ⟨o.sndUna + BitVec.ofNat 32 o.sbuf.dataLength, o.clip len, 0,
    bCtrl⟩ with ⟨l₁, last, hl, hb, -, hp⟩ | ⟨hp, -⟩
  · replace he : e ∈ l₁ ++ [{ last with len := last.len + o.clip len }] := hp ▸ he
    rcases List.mem_append.mp he with he | he
    · exact hk e (by rw [hl]; simp [he])
    · obtain rfl := List.mem_singleton.mp he
      simp only at hb ⊢
      cases bCtrl with
      | true => exact absurd (hnil rfl) (by simp [hl])
      | false =>
        refine ⟨fun h => absurd (hb.symm.trans h) (by simp), fun h => ?_⟩
        exact (hk last (by simp [hl])).2 h
  · replace he : e ∈ o.slist ++ [⟨o.sndUna + BitVec.ofNat 32 o.sbuf.dataLength, o.clip len, 0,
      bCtrl⟩] := hp ▸ he
    rcases List.mem_append.mp he with he | he
    · exact hk e he
    · obtain rfl := List.mem_singleton.mp he
      simp only [hseq, hclip]
      cases bCtrl with
      | true =>
        obtain ⟨h0, rfl⟩ := hq
        refine ⟨fun _ => ?_, fun h => absurd h (by simp)⟩
        rw [h0]
        exact Nat.le_trans (Nat.add_le_add_left (Nat.min_le_left _ _) _) (by decide)
      | false => exact ⟨fun h => absurd h (by simp), fun _ => hq⟩

theorem Kinds.step (h : Underway edge o) (hs : SendStep (flowRely edge H) o o')
    (hw : o'.queued.length < 2 ^ 32) : Kinds o'.slist := by
  have hw0 : o.queued.length < 2 ^ 32 := lt_of_le_of_lt hs.queued.length_le hw
  have hk := h.kinds
  cases hs with
  | cut l₁ l₂ seg n hl hx hn =>
    have hpos := h.listed.position hw0 hl
    rw [cut_eq hl]
    split
    · rename_i hgt
      rw [hl] at hk
      refine hk.pieces fun e he => ?_
      simp only [List.mem_cons, List.not_mem_nil, or_false] at he
      rcases he with rfl | rfl
      · exact ⟨rfl, le_refl _, by bv_omega⟩
      · exact ⟨rfl, by bv_omega, by bv_omega⟩
    · exact hk
  | transmit l₁ l₂ seg n now p w hl hsent hx hh hp hc hwhy =>
    have hpos := h.listed.position hw0 hl
    have hle := hp.le
    rw [transmitted_eq (o := { o with written := ⟨p, w⟩ :: o.written }) hl hle]
    rw [hl] at hk
    refine hk.pieces fun e he => ?_
    rcases List.mem_cons.mp he with rfl | he
    · exact ⟨rfl, le_refl _, by bv_omega⟩
    · split at he
      · obtain rfl := List.mem_singleton.mp he
        exact ⟨rfl, by bv_omega, by bv_omega⟩
      · exact absurd he (by simp)
  | queue data len bCtrl hn hq =>
    exact hk.queue h.listed data hn (fun hb => (hq trivial hb).1) hw
  | ack ack w now h₁ h₂ hc ha =>
    obtain ⟨b, hb, he⟩ := acked_eq h.accounts.toLengths h₁ h₂ w now
    obtain ⟨hd, -⟩ := FifoBuffer.consumeReadData_eq_some hb
    obtain ⟨-, l₁, l₂, hl, hcase⟩ := freeAcked_cases o.slist (ack - o.sndUna) o.largest
      (by rw [h.accounts.total]; exact hd)
    rw [he]
    rcases hcase with ⟨hr, -⟩ | ⟨seg, l₃, m, rfl, hm, hlt, hb₁, hr⟩
    · simp only [hr]
      exact fun e he => hk e (by rw [hl]; simp [he])
    · obtain ⟨k₁, k₂, hk', -, hbk⟩ := ha.1 h₁ h₂
      rw [hl] at hk'
      have := bytes_cut hk'.symm
      bv_omega
  | _ => exact hk

theorem Underway.edge_step (h4 : 4 ≤ edge) (h : Underway edge o)
    (hs : SendStep (flowRely edge H) o o') (hw : o.queued.length < 2 ^ 32) :
    o'.sndUna.toNat + o'.sndWnd.toNat ≤ edge ∧ o'.sndNxt.toNat ≤ edge := by
  have hwnd := h.window
  have hnxt := h.next
  cases hs with
  | cut l₁ l₂ seg n hl hx hn =>
    rw [cut_eq hl]
    split <;> exact ⟨hwnd, hnxt⟩
  | transmit l₁ l₂ seg n now p w hl hsent hx hh hp hc hwhy =>
    rw [transmitted_eq (o := { o with written := ⟨p, w⟩ :: o.written }) hl hp.le]
    refine ⟨hwnd, ?_⟩
    simp only
    split
    · rename_i h0
      rcases hwhy with ⟨hf, -⟩ | ⟨rfl, hne⟩
      · -- a fresh transmission fits the window
        have hroom := hf.room
        have hle := hp.le
        have hnext := h.listed.next_toNat hw
        bv_omega
      · -- a retransmission is of an entry that was sent before
        obtain ⟨front, rest, hfr, hx0⟩ := h.accounts.toLengths.front_sent (hne trivial)
        rw [hl] at hfr
        obtain ⟨rfl, -⟩ := List.cons.inj hfr
        exact absurd h0 hx0
    · exact hnxt
  | greet w hw4 hq =>
    obtain ⟨hnil, hq0⟩ := hq trivial
    have huna := h.listed.toBuffered.una_toNat hw
    rw [hq0] at huna
    simp only [List.length_nil, Nat.zero_sub] at huna
    refine ⟨?_, hnxt⟩
    simp only
    bv_omega
  | window w ha => exact ⟨ha.2, hnxt⟩
  | ack ack w now h₁ h₂ hc ha => exact ⟨ha.2, hnxt⟩
  | _ => exact ⟨hwnd, hnxt⟩

/-- **One step of a connection.** -/
theorem Underway.step (h4 : 4 ≤ edge) (h : Underway edge o)
    (hs : SendStep (flowRely edge H) o o') (hw : o'.queued.length < 2 ^ 32) :
    Underway edge o' := by
  have hw0 : o.queued.length < 2 ^ 32 := lt_of_le_of_lt hs.queued.length_le hw
  have hmarks : ∀ e, Mark o e → Mark o' e :=
    fun e => Mark.step flowRely_aligned h.accounts.toLengths hs
  obtain ⟨hwnd, hnxt⟩ := h.edge_step h4 hs hw0
  refine ⟨h.listed.step flowRely_aligned hs, h.accounts.step trivial hs, Kinds.step h hs hw, hwnd,
    hnxt, ?_⟩
  have hold : ∀ w ∈ o.written, w.result = .success → Sent o' w.packet :=
    fun w hmem hres => (h.sent w hmem hres).mono hmarks
  cases hs with
  | emit p w hh hp =>
    intro w' hw' hres
    rcases List.mem_cons.mp hw' with rfl | hw'
    · rcases hp with ⟨hf, hnil⟩ | ⟨hne, -⟩
      · refine ⟨Or.inl hf, fun hp => absurd hnil hp, fun hc => ?_, fun _ hp => absurd hnil hp⟩
        exact absurd (hf.symm.trans hc) (by decide)
      · exact absurd hres hne
    · exact hold w' hw' hres
  | transmit l₁ l₂ seg n now p w hl hsent hx hh hp hc hwhy =>
    intro w' hw' hres
    rcases List.mem_cons.mp hw' with rfl | hw'
    · obtain ⟨mem, hpay⟩ := hp.payload
      have hlen : p.payload.length = n.toNat := by rw [hpay, payload_length]
      have hpos := h.listed.position hw0 hl
      have hle : n.toNat ≤ seg.len.toNat := hp.le
      obtain ⟨hc1, hd1⟩ := h.kinds seg (by rw [hl]; simp)
      have hmark := (Mark.transmitted (o := { o with written := ⟨p, w⟩ :: o.written }) hl hsent hx
        hp.le now).2
      have hflags := hp.flags
      have hseq := hp.seq
      refine ⟨?_, fun _ => ?_, fun hf => ?_, fun hf _ => ?_⟩
      · rw [hflags]
        split
        · exact Or.inr rfl
        · exact Or.inl rfl
      · rw [hseq, hlen, hpos.1]
        exact hmark
      · rw [hseq, hlen]
        cases hb : seg.bCtrl with
        | true =>
          have := hc1 hb
          omega
        | false =>
          rw [hflags, hb] at hf
          exact absurd hf (by decide)
      · rw [hseq]
        cases hb : seg.bCtrl with
        | true =>
          rw [hflags, hb] at hf
          exact absurd hf (by decide)
        | false => exact hd1 hb
    · exact hold w' hw' hres
  | cut l₁ l₂ seg n hl hx hn =>
    have hwr : (o.cut l₁.length n).written = o.written := by
      rw [cut_eq hl]
      split <;> rfl
    rw [hwr]
    exact hold
  | _ => exact hold

/-! ## Calls -/

theorem SendSteps.queued (hs : SendSteps r o o') : o.queued <+: o'.queued :=
  SendSteps.induct (P := fun x => o.queued <+: x.queued) (fun _ _ h hp => hp.trans h.queued) hs
    (List.prefix_refl _)

theorem SendSteps.headers (hs : SendSteps r o o') : ∀ w ∈ o'.written,
    w ∈ o.written ∨ r.header w.packet.conv w.packet.ack w.packet.wnd :=
  SendSteps.induct (P := fun x => ∀ w ∈ x.written,
    w ∈ o.written ∨ r.header w.packet.conv w.packet.ack w.packet.wnd)
    (fun _ _ h hp w hw => (h.headers w hw).elim (hp w) Or.inr) hs fun _ hw => Or.inl hw

/-- **What a sender has in flight stays in order over a call**, and its marks last. -/
theorem SendSteps.underway (h4 : 4 ≤ edge) (hs : SendSteps (flowRely edge H) o o')
    (h : Underway edge o) (hw : o'.queued.length < 2 ^ 32) :
    Underway edge o' ∧ ∀ e, Mark o e → Mark o' e := by
  induction hs with
  | refl => exact ⟨h, fun _ hm => hm⟩
  | tail _ hstep ih =>
    obtain ⟨hu, hm⟩ := ih (lt_of_le_of_lt hstep.queued.length_le hw)
    exact ⟨hu.step h4 hstep hw,
      fun e he => Mark.step flowRely_aligned hu.accounts.toLengths hstep (hm e he)⟩

end Libjingle
