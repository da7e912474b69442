import Libjingle.PseudoTcp.Calls

/-!
# The segment list tiles the unacknowledged stream

`queued` is every byte the sender ever put into `m_sbuf`: the stream it sends, in order.

* `slist_tiles`: `m_slist` tiles what is unacknowledged of it, and packets carry its bytes, in
  every state reached by calls whose acknowledgements end where an entry ends (`AckOnBoundary`).
-/

namespace Libjingle

open Lib

/-- The entries lie end to end from `a` on. -/
abbrev SegmentTiles (a : U32) (l : List SSegment) : Prop :=
  Tiles (fun e : SSegment => e.seq) (fun e => e.len) a l

/-- `m_slist` tiles the unacknowledged stream. -/
structure Tiled (o : Outgoing) : Prop where
  /-- The first entry is at `m_snd_una`, each other one where the one before it ends. -/
  tiles : SegmentTiles o.sndUna o.slist
  /-- The lengths sum to the buffered bytes. -/
  total : bytes o.slist = o.sbuf.dataLength
  /-- The transmitted entries are first, and their lengths sum to `m_snd_nxt - m_snd_una`. -/
  sent : ∃ l₁ l₂, o.slist = l₁ ++ l₂ ∧ (∀ e ∈ l₁, e.xmit ≠ 0) ∧ (∀ e ∈ l₂, e.xmit = 0) ∧
    bytes l₁ = (o.sndNxt - o.sndUna).toNat

/-- Every packet carries at its sequence number the bytes of the stream at that position. -/
def Faithful (o : Outgoing) : Prop :=
  ∀ w ∈ o.written, ∀ k, k < w.packet.payload.length →
    o.queued[w.packet.seq.toNat + k]? = w.packet.payload[k]?

/-- `ack` ends where a transmitted entry ends. -/
def OnBoundary (o : Outgoing) (ack : U32) : Prop :=
  ∃ l₁ l₂, o.slist = l₁ ++ l₂ ∧ (∀ e ∈ l₁, e.xmit ≠ 0) ∧ (ack - o.sndUna).toNat = bytes l₁

/-! ## The invariant -/

/-- The buffered bytes are the end of the stream. -/
structure Buffered (o : Outgoing) : Prop where
  le : o.sbuf.dataLength ≤ o.queued.length
  una : o.sndUna + BitVec.ofNat 32 o.sbuf.dataLength = BitVec.ofNat 32 o.queued.length
  content : ∀ k, k < o.sbuf.dataLength →
    o.queued[o.queued.length - o.sbuf.dataLength + k]? = some (o.sbuf.peek k)

/-- The sender's list, buffer and packets agree with its stream. -/
structure Listed (o : Outgoing) : Prop extends Lengths o, Buffered o where
  tiles : SegmentTiles o.sndUna o.slist
  faithful : o.queued.length < 2 ^ 32 → Faithful o

/-- The acknowledgements `r` takes end where entries end. -/
def Rely.Aligned (r : Rely) : Prop :=
  ∀ o ack w, r.accepts o ack w → o.sndUna < ack → ack ≤ o.sndNxt → OnBoundary o ack

/-- A sender whose acknowledgements end where entries end. -/
def alignedRely : Rely where
  header _ _ _ := True
  clock _ := True
  accepts o ack _ := o.sndUna < ack → ack ≤ o.sndNxt → OnBoundary o ack
  queues _ _ _ := True
  strict := False

variable {o o' : Outgoing} {r : Rely}

theorem sum_len (l : List SSegment) :
    (l.map fun e => e.len).sum = BitVec.ofNat 32 (bytes l) := by
  induction l with
  | nil => rfl
  | cons e l ih =>
    rw [List.map_cons, List.sum_cons, ih, bytes_cons, BitVec.ofNat_add, BitVec.ofNat_toNat,
      BitVec.setWidth_eq]

variable {l₁ l₂ : List SSegment}

theorem segmentTiles_append {a : U32} : SegmentTiles a (l₁ ++ l₂) ↔
      SegmentTiles a l₁ ∧ SegmentTiles (a + BitVec.ofNat 32 (bytes l₁)) l₂ := by
  rw [← sum_len]
  exact tiles_append _ _ a l₁ l₂

variable {seg : SSegment}

variable {n : U32} {p : Packet}

theorem Carries.faithful (h : Lengths o) (hb : Buffered o) (ht : SegmentTiles o.sndUna o.slist)
    (hwrap : o.queued.length < 2 ^ 32)
    (hl : o.slist = l₁ ++ seg :: l₂) (hp : Carries o seg n p) {k : Nat}
    (hk : k < p.payload.length) : o.queued[p.seq.toNat + k]? = p.payload[k]? := by
  obtain ⟨mem, hpay⟩ := hp.payload
  have hle := hb.le
  have hna : n.toNat ≤ seg.len.toNat := hp.le
  have htotal := h.total
  rw [hl] at htotal ht
  simp only [bytes_append, bytes_cons] at htotal
  have hseq : seg.seq = o.sndUna + BitVec.ofNat 32 (bytes l₁) := (segmentTiles_append.mp ht).2.1
  -- no position wraps
  have huna : o.sndUna.toNat = o.queued.length - o.sbuf.dataLength := by
    have := congrArg BitVec.toNat hb.una
    rw [BitVec.toNat_add, BitVec.toNat_ofNat, BitVec.toNat_ofNat] at this
    omega
  have hoff : (seg.seq - o.sndUna).toNat = bytes l₁ := by
    rw [hseq, add_sub_cancel_left, BitVec.toNat_ofNat, Nat.mod_eq_of_lt (by omega)]
  have hpos : p.seq.toNat = o.queued.length - o.sbuf.dataLength + bytes l₁ := by
    rw [hp.seq, hseq, BitVec.toNat_add, BitVec.toNat_ofNat, huna]
    omega
  by_cases hn : n = 0
  · rw [hpay, hn] at hk
    exact absurd hk (by simp [Outgoing.payload])
  have hread : (o.sbuf.readOffset n.toNat (bytes l₁)).2 =
      fetch (fun i => o.sbuf.peek (bytes l₁ + i)) n.toNat := by
    rw [FifoBuffer.readOffset_success n.toNat (by bv_omega)]
    simp only
    congr 1
    omega
  have hpay' : p.payload = fetch (fun i => o.sbuf.peek (bytes l₁ + i)) n.toNat := by
    rw [hpay, Outgoing.payload, if_neg hn, hoff, hread]
    simp
  rw [hpay', fetch_length] at hk
  rw [hpay', getElem?_fetch hk, hpos, Nat.add_assoc]
  exact hb.content _ (by omega)

theorem Buffered.queue (h : Lengths o) (hb : Buffered o) (data : Nat → U8) (len : U32)
    (bCtrl : Bool) : Buffered (o.queue data len bCtrl).1 := by
  obtain ⟨w0, -, w2, w3⟩ := queue_write o h.opened data len
  have hclip := clip_toNat o len
  unfold FifoBuffer.getWriteRemaining at hclip
  have hd := o.sbuf.dataLength_le
  have hle := hb.le
  have hlen : (o.queued ++ fetch data (o.clip len).toNat).length =
      o.queued.length + (o.clip len).toNat := by simp
  refine ⟨?_, ?_, ?_⟩ <;> simp only [Outgoing.queue, Outgoing.assert, w0, w2, hlen]
  · omega
  · rw [BitVec.ofNat_add, BitVec.ofNat_add, ← hb.una, BitVec.add_assoc]
  · intro k hk
    rw [w3 k (by omega), show o.queued.length + (o.clip len).toNat -
      (o.sbuf.dataLength + (o.clip len).toNat) = o.queued.length - o.sbuf.dataLength by omega]
    by_cases hold : k < o.sbuf.dataLength
    · rw [if_neg (by omega), List.getElem?_append_left (by omega)]
      exact hb.content k hold
    · rw [if_pos (by omega), List.getElem?_append_right (by omega), getElem?_fetch (by omega)]
      congr 2
      omega

theorem segmentTiles_pushSegment (h : Lengths o) (ht : SegmentTiles o.sndUna o.slist)
    (len : U32) (bCtrl : Bool) : SegmentTiles o.sndUna (Outgoing.pushSegment o.slist
      ⟨o.sndUna + BitVec.ofNat 32 o.sbuf.dataLength, len, 0, bCtrl⟩) := by
  rcases pushSegment_cases o.slist ⟨o.sndUna + BitVec.ofNat 32 o.sbuf.dataLength, len, 0, bCtrl⟩
    with ⟨l₁, last, hl, -, -, hp⟩ | ⟨hp, -⟩
  · rw [hl] at ht
    rw [hp, segmentTiles_append]
    obtain ⟨h1, h2, -⟩ := segmentTiles_append.mp ht
    exact ⟨h1, h2, trivial⟩
  · rw [hp, segmentTiles_append, h.total]
    exact ⟨ht, rfl, trivial⟩

theorem bytes_cut {l₁ l₂ l₃ l₄ : List SSegment}
    (h : l₁ ++ l₂ = l₃ ++ seg :: l₄) :
    bytes l₁ ≤ bytes l₃ ∨ bytes l₃ + seg.len.toNat ≤ bytes l₁ := by
  rcases List.append_eq_append_iff.mp h with ⟨a, rfl, -⟩ | ⟨a, rfl, ha⟩
  · left
    rw [bytes_append]
    omega
  · rcases a with _ | ⟨e, a⟩
    · left
      simp
    · obtain ⟨rfl, -⟩ := List.cons.inj ha
      right
      rw [bytes_append, bytes_cons]
      omega

theorem Listed.acked (h : Listed o) {ack : U32} (h₁ : o.sndUna < ack) (h₂ : ack ≤ o.sndNxt)
    (hon : OnBoundary o ack) (w now : U32) : Listed (o.acked ack w now) := by
  have hlen := h.toLengths.acked h₁ h₂ w now
  obtain ⟨b, hb, he⟩ := acked_eq h.toLengths h₁ h₂ w now
  obtain ⟨hd, -, -, g2, g3⟩ := FifoBuffer.consumeReadData_eq_some hb
  have hle := h.le
  have hack : o.sndUna + BitVec.ofNat 32 (ack - o.sndUna).toNat = ack := by
    rw [BitVec.ofNat_toNat, BitVec.setWidth_eq]
    exact add_sub_cancel _ _
  rw [he] at hlen ⊢
  refine ⟨hlen, ⟨?_, ?_, ?_⟩, ?_, h.faithful⟩
  · simp only [g2]
    omega
  · simp only [g2]
    have hsplit : BitVec.ofNat 32 o.sbuf.dataLength = BitVec.ofNat 32 (ack - o.sndUna).toNat +
        BitVec.ofNat 32 (o.sbuf.dataLength - (ack - o.sndUna).toNat) := by
      rw [← BitVec.ofNat_add]
      congr 1
      omega
    rw [← h.una, hsplit, ← add_assoc, hack]
  · intro k hk
    simp only [g2] at hk ⊢
    rw [g3 k, show o.queued.length - (o.sbuf.dataLength - (ack - o.sndUna).toNat) + k =
      o.queued.length - o.sbuf.dataLength + ((ack - o.sndUna).toNat + k) by omega]
    exact h.content _ (by omega)
  · obtain ⟨-, l₁, l₂, hl, hcase⟩ := freeAcked_cases o.slist (ack - o.sndUna) o.largest
      (by rw [h.total]; exact hd)
    rcases hcase with ⟨hr, hb₁⟩ | ⟨seg, l₃, m, rfl, hm, hlt, hb₁, hr⟩
    · simp only [hr]
      have ht := h.tiles
      rw [hl, segmentTiles_append, hb₁, hack] at ht
      exact ht.2
    · -- the loop does not stop inside an entry
      obtain ⟨k₁, k₂, hk, -, hbk⟩ := hon
      rw [hl] at hk
      have := bytes_cut hk.symm
      bv_omega

theorem Listed.emit (h : Listed o) (hl : o.slist = l₁ ++ seg :: l₂) (hp : Carries o seg n p)
    (w : WriteResult) : Listed { o with written := ⟨p, w⟩ :: o.written } := by
  refine ⟨⟨h.opened, h.total, h.sentFirst, h.inFlight⟩, ⟨h.le, h.una, h.content⟩, h.tiles, ?_⟩
  intro hwrap w' hw' k hk
  rcases List.mem_cons.mp hw' with rfl | hw'
  · exact hp.faithful h.toLengths h.toBuffered h.tiles hwrap hl hk
  · exact h.faithful hwrap w' hw' k hk

theorem Listed.cut (h : Listed o) (hl : o.slist = l₁ ++ seg :: l₂) (hx : seg.xmit = 0) (n : U32) :
    Listed (o.cut l₁.length n) := by
  have hlen := h.toLengths.cut hl hx n
  have ht := h.tiles
  rw [cut_eq hl] at hlen ⊢
  split
  · rename_i hgt
    rw [if_pos hgt] at hlen
    refine ⟨hlen, ⟨h.le, h.una, h.content⟩, ?_, h.faithful⟩
    rw [hl, segmentTiles_append] at ht
    obtain ⟨h1, h2, h3⟩ := ht
    have hsum : seg.seq + n + (seg.len - n) = seg.seq + seg.len := by
      rw [add_assoc, add_sub_cancel]
    simp only at h2 h3
    rw [List.append_assoc, segmentTiles_append]
    refine ⟨h1, h2, by simp only [h2], ?_⟩
    simp only
    rw [← h2, hsum, h2]
    exact h3
  · exact h

theorem Listed.transmitted (h : Listed o)
    (hl : o.slist = l₁ ++ seg :: l₂) (hsent : ∀ e ∈ l₁, e.xmit ≠ 0) (hx : seg.xmit < 30)
    (hn : n ≤ seg.len) (now : U32) : Listed (o.transmitted l₁.length seg n now) := by
  have hlen := h.toLengths.transmitted hl hsent hx hn now
  have ht := h.tiles
  rw [transmitted_eq hl hn] at hlen ⊢
  refine ⟨hlen, ⟨h.le, h.una, h.content⟩, ?_, h.faithful⟩
  rw [hl, segmentTiles_append] at ht
  obtain ⟨h1, h2, h3⟩ := ht
  simp only at h2 h3 ⊢
  rw [List.append_assoc, segmentTiles_append]
  split
  · have hsum : seg.seq + n + (seg.len - n) = seg.seq + seg.len := by
      rw [add_assoc, add_sub_cancel]
    refine ⟨h1, h2, by simp only [h2], ?_⟩
    simp only
    rw [← h2, hsum, h2]
    exact h3
  · have hwhole : n = seg.len := by bv_omega
    subst hwhole
    exact ⟨h1, h2, h3⟩

theorem Listed.queue (h : Listed o) (data : Nat → U8) (len : U32) (bCtrl : Bool) :
    Listed (o.queue data len bCtrl).1 := by
  refine ⟨h.toLengths.queue data len bCtrl, h.toBuffered.queue h.toLengths data len bCtrl,
    segmentTiles_pushSegment h.toLengths h.tiles _ bCtrl, ?_⟩
  intro hwrap w hw k hk
  simp only [Outgoing.queue, List.length_append] at hwrap
  have hold : o.queued[w.packet.seq.toNat + k]? = w.packet.payload[k]? :=
    h.faithful (by omega) w hw k hk
  have hlt : w.packet.seq.toNat + k < o.queued.length := by
    by_contra hge
    rw [List.getElem?_eq_none (by omega), List.getElem?_eq_getElem hk] at hold
    exact absurd hold (by simp)
  simp only [Outgoing.queue]
  rw [List.getElem?_append_left hlt]
  exact hold

theorem Listed.resize (h : Listed o) (mem : Nat → U8) {size : Nat} (hs : size < 2 ^ 32) :
    Listed { o with sbuf := (o.sbuf.setCapacity mem size hs).2 } := by
  obtain ⟨-, c1, -, -⟩ := FifoBuffer.setCapacity_spec o.sbuf mem hs
  have hlen := congrArg List.length c1
  rw [FifoBuffer.readable_length, FifoBuffer.readable_length] at hlen
  refine ⟨h.toLengths.resize mem hs, ⟨?_, ?_, fun k hk => ?_⟩, h.tiles, h.faithful⟩
  · simp only [hlen]
    exact h.le
  · simp only [hlen]
    exact h.una
  · simp only [hlen] at hk ⊢
    rw [h.content k hk]
    have hpeek := congrArg (fun l => l[k]?) c1
    simp only [FifoBuffer.readable, hlen, getElem?_fetch hk] at hpeek
    exact hpeek.symm

/-- **Every step whose acknowledgement ends where an entry ends keeps the list in step.** -/
theorem Listed.step (hr : r.Aligned) (h : Listed o) (hs : SendStep r o o') : Listed o' := by
  cases hs with
  | note e he =>
    exact ⟨⟨h.opened, h.total, h.sentFirst, h.inFlight⟩, ⟨h.le, h.una, h.content⟩, h.tiles,
      h.faithful⟩
  | emit p w hh hp =>
    rcases hp with ⟨-, hnil⟩ | ⟨-, seg, hm, n, hc⟩
    · refine ⟨⟨h.opened, h.total, h.sentFirst, h.inFlight⟩, ⟨h.le, h.una, h.content⟩, h.tiles, ?_⟩
      intro hwrap w' hw' k hk
      rcases List.mem_cons.mp hw' with rfl | hw'
      · rw [hnil] at hk
        exact absurd hk (by simp)
      · exact h.faithful hwrap w' hw' k hk
    · obtain ⟨l₁, l₂, hl⟩ := List.append_of_mem hm
      exact h.emit hl hc w
  | cut l₁ l₂ seg n hl hx hn => exact h.cut hl hx n
  | transmit l₁ l₂ seg n now p w hl hsent hx hh hp hc hwhy =>
    exact (h.emit hl hp w).transmitted hl hsent hx hp.le now
  | queue data len bCtrl hn hq => exact h.queue data len bCtrl
  | greet w hw hq =>
    exact ⟨⟨h.opened, h.total, h.sentFirst, h.inFlight⟩, ⟨h.le, h.una, h.content⟩, h.tiles,
      h.faithful⟩
  | window w ha =>
    exact ⟨⟨h.opened, h.total, h.sentFirst, h.inFlight⟩, ⟨h.le, h.una, h.content⟩, h.tiles,
      h.faithful⟩
  | ack ack w now h₁ h₂ hc ha => exact h.acked h₁ h₂ (hr o ack w ha h₁ h₂) w now
  | timer now hb hc =>
    exact ⟨⟨h.opened, h.total, h.sentFirst, h.inFlight⟩, ⟨h.le, h.una, h.content⟩, h.tiles,
      h.faithful⟩
  | resize mem size hsz => exact h.resize mem hsz

theorem SentFirst.split : ∀ {l : List SSegment}, SentFirst l →
    ∃ l₁ l₂, l = l₁ ++ l₂ ∧ (∀ e ∈ l₁, e.xmit ≠ 0) ∧ ∀ e ∈ l₂, e.xmit = 0
  | [], _ => ⟨[], [], rfl, by simp, by simp⟩
  | e :: l, h => by
    obtain ⟨he, hrest⟩ := sentFirst_cons.mp h
    by_cases hx : e.xmit = 0
    · refine ⟨[], e :: l, rfl, by simp, ?_⟩
      rintro b hb
      rcases List.mem_cons.mp hb with rfl | hb
      · exact hx
      · exact he b hb hx
    · obtain ⟨l₁, l₂, rfl, h₁, h₂⟩ := SentFirst.split hrest
      refine ⟨e :: l₁, l₂, rfl, ?_, h₂⟩
      rintro b hb
      rcases List.mem_cons.mp hb with rfl | hb
      · exact hx
      · exact h₁ b hb

theorem Listed.tiled (h : Listed o) : Tiled o := by
  refine ⟨h.tiles, h.total, ?_⟩
  obtain ⟨l₁, l₂, hl, h₁, h₂⟩ := h.sentFirst.split
  refine ⟨l₁, l₂, hl, h₁, h₂, ?_⟩
  have hflight := h.inFlight
  rw [hl, sentBytes_append, sentBytes_of_sent h₁, sentBytes_of_unsent h₂] at hflight
  exact hflight

/-! ## Runs -/

namespace PseudoTcp

variable {s : PseudoTcp}

/-- An acknowledgement in `(m_snd_una, m_snd_nxt]` that `process` takes ends where a transmitted
entry ends. -/
def AckOnBoundary (env : Env) (s : PseudoTcp) (c : Call) : Prop :=
  ∀ buffer, c = .notifyPacket buffer → Arrives buffer → Admits s (wire env buffer) →
    s.sndUna < (wire env buffer).ack → (wire env buffer).ack ≤ s.sndNxt →
    OnBoundary s.toOutgoing (wire env buffer).ack

theorem onBoundary_pushSegment {l l₁ l₂ : List SSegment} (hl : l = l₁ ++ l₂)
    (hsent : ∀ e ∈ l₁, e.xmit ≠ 0) (fresh : SSegment) :
    ∃ l₃, Outgoing.pushSegment l fresh = l₁ ++ l₃ := by
  rcases pushSegment_cases l fresh with ⟨k, last, hk, -, hx, hp⟩ | ⟨hp, -⟩
  · rcases List.eq_nil_or_concat l₂ with rfl | ⟨l₃, last', rfl⟩
    · rw [List.append_nil] at hl
      have : last ∈ l₁ := by rw [← hl, hk]; simp
      exact absurd hx (hsent last this)
    · rw [List.concat_eq_append, ← List.append_assoc] at hl
      rw [hl] at hk
      obtain ⟨hk, -⟩ := List.append_inj' hk rfl
      exact ⟨l₃ ++ [{ last with len := last.len + fresh.len }], by rw [hp, ← hk]; simp⟩
  · exact ⟨l₂ ++ [fresh], by rw [hp, hl]; simp⟩

theorem onBoundary_controlled {env : Env} {seg : Segment} {ack : U32}
    (h : OnBoundary s.toOutgoing ack) (L : List Event) :
    OnBoundary { (s.controlled env seg).toOutgoing with log := L } ack := by
  obtain ⟨l₁, l₂, hl, hsent, hb⟩ := h
  have hc : Controls (s.arrive env) (s.controlled env seg) := processControl_controls env _ seg
  cases hc with
  | keeps L' out state =>
    rw [out]
    exact ⟨l₁, l₂, hl, hsent, hb⟩
  | answers L' listen state out =>
    rw [out]
    obtain ⟨l₃, hl₃⟩ := onBoundary_pushSegment hl hsent
      ⟨s.sndUna + BitVec.ofNat 32 s.sbuf.dataLength,
        Outgoing.clip { s.toOutgoing with log := L' }
          (BitVec.ofNat 32 (s.controlled env seg).connectMessage.length), 0, true⟩
    exact ⟨l₁, l₃, hl₃, hsent, hb⟩

theorem listed_new (conv now : U32) (rmem smem : Nat → U8) :
    Listed (new conv now rmem smem).toOutgoing := by
  refine ⟨(good_new conv now rmem smem).accounts.toLengths, ⟨Nat.le_refl 0, rfl, ?_⟩, trivial, ?_⟩
  · intro k hk
    exact absurd hk (by simp [new, FifoBuffer.new])
  · intro _ w hw
    exact absurd hw (by simp [new])

/-- **`m_slist` tiles the unacknowledged stream in every run** whose acknowledgements end where
entries end, and while sequence numbers do not wrap every packet carries at its sequence number
the bytes of the stream at that position. -/
theorem slist_tiles (hr : Reach AckOnBoundary s) :
    Tiled s.toOutgoing ∧ (s.queued.length < 2 ^ 32 → Faithful s.toOutgoing) := by
  have h : Listed s.toOutgoing := by
    refine (hr.steps_induct (r := alignedRely) (P := Listed) (fun env s c hc => ?_) listed_new
      (fun h => h.elim) fun _ _ hs h => h.step (fun _ _ _ ha => ha) hs).1
    refine ⟨fun _ _ _ => trivial, fun _ => trivial, fun _ _ => trivial, ?_, fun _ _ _ => trivial,
      fun h => h.elim⟩
    intro buffer hb harr hadm L h₁ h₂
    simp only [(controlled_sndNxt env s (wire env buffer)).1,
      (controlled_sndNxt env s (wire env buffer)).2] at h₁ h₂
    exact onBoundary_controlled (hc buffer hb harr hadm h₁ h₂) L
  exact ⟨h.tiled, h.faithful⟩

theorem slist_tiles_acked : Reach AckOnBoundary acked ∧ Tiled acked.toOutgoing := by
  have hr : Reach AckOnBoundary acked := by
    refine .call _ _ (.call _ _ (.call _ _ (.call _ _ (.fresh 1 1 _ _) ?_) ?_) ?_) ?_
    · exact fun _ h => absurd h (by simp)
    · rintro buffer h - - - -
      cases h
      exact ⟨connecting.slist, [], (List.append_nil _).symm, by decide, by decide⟩
    · exact fun _ h => absurd h (by simp)
    · rintro buffer h - - - -
      cases h
      exact ⟨(established.call (still 1) (.send (fun _ => 7) 1)).slist, [],
        (List.append_nil _).symm, by decide, by decide⟩
  exact ⟨hr, (slist_tiles hr).1⟩

/-- A packet that acknowledges the first two bytes. -/
def halfAck : List U8 :=
  Packet.bytes ⟨1, 0, 2, 0, 1000, 1, 1, []⟩

/-- **An acknowledgement inside the first entry breaks the tiling**: the entry keeps sequence
number 0 while `m_snd_una` is 2. -/
theorem partial_ack_breaks_tiling :
    ∃ s, Reach Always s ∧ s.queued.length < 2 ^ 32 ∧ ¬ Tiled s.toOutgoing := by
  refine ⟨connecting.call (still 2) (.notifyPacket halfAck),
    .call _ _ (.call _ _ (.fresh 1 1 _ _) trivial) trivial, by decide, fun h => ?_⟩
  have hl : (connecting.call (still 2) (.notifyPacket halfAck)).slist = [⟨0, 2, 1, true⟩] := by
    decide
  have hu : (connecting.call (still 2) (.notifyPacket halfAck)).sndUna = 2 := by decide
  have ht := h.tiles
  rw [hl, hu] at ht
  exact absurd ht.1 (by decide)

end PseudoTcp

end Libjingle
