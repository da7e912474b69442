import Libjingle.PseudoTcp.Calls

/-!
# Reassembly of the incoming stream

`S` is a byte stream indexed by sequence number.

* `recv_reassembles`: in every run of segments that agree with `S` and of `Recv` calls, the bytes
  returned are the bytes unread at the start followed by `S`.
-/

namespace Libjingle

open Lib

variable {S : Nat → U8} {i i' : Incoming}

/-! ## The invariant -/

/-- The byte at position `p`, not yet readable, is in the ring. -/
def Has (S : Nat → U8) (i : Incoming) (p : Nat) : Prop :=
  i.rbuf.dataLength + (p - i.rcvNxt.toNat) < i.rbuf.bufferLength ∧
    i.rbuf.peek (i.rbuf.dataLength + (p - i.rcvNxt.toNat)) = S p

/-- The bytes of an entry of `m_rlist` that are not readable yet are in the ring. -/
def Stored (S : Nat → U8) (i : Incoming) (r : RSegment) : Prop :=
  r.seq.toNat + r.len.toNat < 2 ^ 32 ∧
    ∀ p, i.rcvNxt.toNat ≤ p → r.seq.toNat ≤ p → p < r.seq.toNat + r.len.toNat → Has S i p

/-- What the receiver remembers is in the ring. -/
structure Assembled (S : Nat → U8) (i : Incoming) : Prop where
  opened : i.rbuf.state = .opened
  sorted : i.rlist.Pairwise fun a b => a.seq ≤ b.seq
  ahead : ∀ r ∈ i.rlist, i.rcvNxt < r.seq
  stored : ∀ r ∈ i.rlist, Stored S i r

/-- The readable bytes grew by the stream up to the new `m_rcv_nxt`. -/
structure Extends (S : Nat → U8) (i i' : Incoming) : Prop where
  le : i.rcvNxt.toNat ≤ i'.rcvNxt.toNat
  readable : i'.rbuf.readable =
    i.rbuf.readable ++ fetch (fun k => S (i.rcvNxt.toNat + k)) (i'.rcvNxt.toNat - i.rcvNxt.toNat)

theorem Extends.refl (S : Nat → U8) (h : i'.rcvNxt = i.rcvNxt)
    (hr : i'.rbuf.readable = i.rbuf.readable) : Extends S i i' := by
  refine ⟨by rw [h], ?_⟩
  rw [h, hr, Nat.sub_self, fetch_zero, List.append_nil]

theorem Extends.trans {i'' : Incoming} (h : Extends S i i') (h' : Extends S i' i'') :
    Extends S i i'' := by
  have hle := h.le
  have hle' := h'.le
  refine ⟨hle.trans hle', ?_⟩
  rw [h'.readable, h.readable, List.append_assoc, fetch_chain S hle hle']

/-! ## Storing -/

theorem commit_assembles {n : U32} (hn : n ≠ 0) (hend : i.rcvNxt.toNat + n.toNat < 2 ^ 32)
    (hhas : ∀ p, i.rcvNxt.toNat ≤ p → p < i.rcvNxt.toNat + n.toNat → Has S i p) :
    Extends S i (i.commit n) ∧ (i.commit n).rbuf.state = i.rbuf.state ∧
      (i.commit n).rcvNxt.toNat = i.rcvNxt.toNat + n.toNat ∧
      ∀ r, Stored S i r → Stored S (i.commit n) r := by
  have hpos : 0 < n.toNat := by bv_omega
  have hfit : n.toNat ≤ i.rbuf.getWriteRemaining := by
    have := (hhas (i.rcvNxt.toNat + n.toNat - 1) (by omega) (by omega)).1
    unfold FifoBuffer.getWriteRemaining
    omega
  obtain ⟨b, hc, h1, h2, h3, h4⟩ := Incoming.commit_spec hfit
  have hnxt : (i.rcvNxt + n).toNat = i.rcvNxt.toNat + n.toNat := by bv_omega
  rw [hc]
  refine ⟨⟨by simp only [hnxt]; omega, ?_⟩, h1, hnxt, fun r hr => ⟨hr.1, fun p hp hs he => ?_⟩⟩
  · simp only [hnxt, FifoBuffer.readable, h3, Nat.add_sub_cancel_left]
    rw [fetch_congr (p := b.peek) (q := i.rbuf.peek) fun k _ => h4 k, ← fetch_append]
    congr 1
    refine fetch_congr fun k hk => ?_
    have := (hhas (i.rcvNxt.toNat + k) (by omega) (by omega)).2
    rwa [Nat.add_sub_cancel_left] at this
  · simp only [hnxt] at hp
    obtain ⟨hlt, hpeek⟩ := hr.2 p (by omega) hs he
    unfold Has
    simp only [hnxt, h2, h3, h4]
    rw [show i.rbuf.dataLength + n.toNat + (p - (i.rcvNxt.toNat + n.toNat)) =
      i.rbuf.dataLength + (p - i.rcvNxt.toNat) by omega]
    exact ⟨hlt, hpeek⟩

/-- The loop over `m_rlist`: entries that `m_rcv_nxt` has reached become readable. -/
theorem drain_assembles : ∀ (l : List RSegment) (i : Incoming), i.rbuf.state = .opened →
    l.Pairwise (fun a b => a.seq ≤ b.seq) → (∀ r ∈ l, Stored S i r) →
    Assembled S (i.drain l).1 ∧ Extends S i (i.drain l).1
  | [], i, ho, _, _ =>
    ⟨⟨ho, List.Pairwise.nil, by simp [Incoming.drain], by simp [Incoming.drain]⟩,
      Extends.refl S rfl rfl⟩
  | r :: rest, i, ho, hsort, hst => by
    obtain ⟨hfirst, hrest⟩ := List.pairwise_cons.mp hsort
    have hr := hst r (by simp)
    have hst' : ∀ x ∈ rest, Stored S i x := fun x hx => hst x (by simp [hx])
    have hend : (r.seq + r.len).toNat = r.seq.toNat + r.len.toNat := by
      have := hr.1
      bv_omega
    unfold Incoming.drain
    split
    · rename_i hle
      split
      · rename_i hgt
        have hn : (r.seq + r.len - i.rcvNxt).toNat =
            r.seq.toNat + r.len.toNat - i.rcvNxt.toNat := by bv_omega
        have h1 := hr.1
        obtain ⟨he, hs, -, hkeep⟩ := commit_assembles (S := S) (n := r.seq + r.len - i.rcvNxt)
          (by bv_omega) (by bv_omega) fun p hp hlt => hr.2 p hp (by bv_omega) (by bv_omega)
        have ih := drain_assembles rest (i.commit (r.seq + r.len - i.rcvNxt)) (hs.trans ho) hrest
          fun x hx => hkeep x (hst' x hx)
        exact ⟨ih.1, he.trans ih.2⟩
      · exact drain_assembles rest i ho hrest hst'
    · rename_i hgt
      refine ⟨⟨ho, hsort, fun x hx => ?_, hst⟩, Extends.refl S rfl rfl⟩
      rcases List.mem_cons.mp hx with rfl | hx
      · bv_omega
      · have := hfirst x hx
        simp only
        bv_omega

/-- The payload of a segment is the stream's, and its end does not reach `2 ^ 32`. -/
structure Agrees (S : Nat → U8) (seg : Segment) : Prop where
  data : ∀ k, k < seg.len.toNat → seg.data k = S (seg.seq.toNat + k)
  noWrap : seg.seq.toNat + seg.len.toNat < 2 ^ 32

variable {seg : Segment}

theorem placed_has (ho : i.rbuf.state = .opened) (hlen : seg.len ≠ 0)
    (hseq : i.rcvNxt.toNat ≤ seg.seq.toNat)
    (hend : seg.seq.toNat + seg.len.toNat ≤ i.rcvNxt.toNat + i.rbuf.getWriteRemaining)
    (hdata : ∀ k, k < seg.len.toNat → seg.data k = S (seg.seq.toNat + k)) {p : Nat}
    (hp : i.rcvNxt.toNat ≤ p)
    (h : Has S i p ∨ seg.seq.toNat ≤ p ∧ p < seg.seq.toNat + seg.len.toNat) :
    Has S { i with rbuf := i.placed seg } p := by
  obtain ⟨-, -, h2, h3, h4⟩ := Incoming.placed_spec ho hlen hseq hend
  have hd := i.rbuf.dataLength_le
  unfold FifoBuffer.getWriteRemaining at hend
  have hlt : i.rbuf.dataLength + (p - i.rcvNxt.toNat) < i.rbuf.bufferLength := by
    rcases h with h | ⟨hs, he⟩
    · exact h.1
    · omega
  unfold Has
  simp only [h2, h3]
  refine ⟨hlt, ?_⟩
  rw [h4 _ hlt]
  by_cases hin : seg.seq.toNat ≤ p ∧ p < seg.seq.toNat + seg.len.toNat
  · rw [if_pos (by omega), hdata _ (by omega)]
    congr 1
    omega
  · rw [if_neg (by omega)]
    exact (h.resolve_right hin).2

/-- **Storing a segment that agrees with the stream** keeps what is stored and extends what is
readable by the stream. -/
theorem receive_assembles (h : Assembled S i) (ha : Agrees S seg) (sflags : SendFlags) :
    Assembled S (i.receive false seg sflags).inc ∧
      Extends S i (i.receive false seg sflags).inc := by
  unfold Incoming.receive
  have htrim := i.trim_cases ha.noWrap
  have hdata : ∀ k, k < (i.trimNew (i.trimOld seg)).len.toNat →
      (i.trimNew (i.trimOld seg)).len ≠ 0 →
      (i.trimNew (i.trimOld seg)).data k = S ((i.trimNew (i.trimOld seg)).seq.toNat + k) := by
    intro k hk h0
    obtain ⟨h1, h2, h3⟩ := htrim.resolve_left h0
    rw [h3, ha.data _ (by omega)]
    congr 1
    omega
  have hin : (i.trimNew (i.trimOld seg)).len = 0 ∨
      i.rcvNxt.toNat ≤ (i.trimNew (i.trimOld seg)).seq.toNat ∧
        (i.trimNew (i.trimOld seg)).seq.toNat + (i.trimNew (i.trimOld seg)).len.toNat ≤
          i.rcvNxt.toNat + i.rbuf.getWriteRemaining := by
    rcases htrim with h0 | ⟨h1, h2, -⟩
    · exact Or.inl h0
    · exact Or.inr ⟨by omega, by omega⟩
  have hwrap : (i.trimNew (i.trimOld seg)).len ≠ 0 →
      (i.trimNew (i.trimOld seg)).seq.toNat + (i.trimNew (i.trimOld seg)).len.toNat < 2 ^ 32 := by
    intro h0
    obtain ⟨-, h2, -⟩ := htrim.resolve_left h0
    have := ha.noWrap
    omega
  generalize i.trimNew (i.trimOld seg) = t at hdata hin hwrap ⊢
  rcases Incoming.store_cases h.opened false sflags hin with
    ⟨he, -⟩ | ⟨-, hf, -⟩ | ⟨h0, -, hlt, he⟩ | ⟨h0, -, hs, he⟩
  · rw [he]
    exact ⟨h, Extends.refl S rfl rfl⟩
  · exact absurd hf (by simp)
  all_goals
    obtain ⟨hseq, hend⟩ := hin.resolve_left h0
    obtain ⟨-, g1, g2, g3, g4⟩ := Incoming.placed_spec h.opened h0 hseq hend
    have hhas : ∀ p, i.rcvNxt.toNat ≤ p →
        (Has S i p ∨ t.seq.toNat ≤ p ∧ p < t.seq.toNat + t.len.toNat) →
        Has S { i with rbuf := i.placed t } p :=
      fun p => placed_has h.opened h0 hseq hend fun k hk => hdata k hk h0
    have hkeep : ∀ r, Stored S i r → Stored S { i with rbuf := i.placed t } r :=
      fun r hr => ⟨hr.1, fun p hp hs he => hhas p hp (Or.inl (hr.2 p hp hs he))⟩
    have hread : ({ i with rbuf := i.placed t } : Incoming).rbuf.readable = i.rbuf.readable := by
      simp only [FifoBuffer.readable, g3]
      refine fetch_congr fun k hk => ?_
      have hd := i.rbuf.dataLength_le
      rw [g4 k (by omega), if_neg (by omega)]
    rw [he]
  · -- out of order: the segment joins m_rlist
    refine ⟨⟨g1, sorted_insertRSegment h.sorted, fun r hr => ?_, fun r hr => ?_⟩,
      Extends.refl S rfl hread⟩
    · rcases mem_insertRSegment.mp hr with rfl | hr
      · exact hlt
      · exact h.ahead r hr
    · rcases mem_insertRSegment.mp hr with rfl | hr
      · exact ⟨hwrap h0, fun p hp hs he => hhas p hp (Or.inr ⟨hs, he⟩)⟩
      · exact hkeep r (h.stored r hr)
  · -- in order: commit it, then take what follows it off m_rlist
    have hw := hwrap h0
    obtain ⟨hext, hst, -, hkeep'⟩ := commit_assembles (S := S)
      (i := { i with rbuf := i.placed t }) h0 (by simp only; rw [← hs]; exact hw)
      fun p hp hlt => hhas p hp (Or.inr ⟨by rw [hs]; exact hp, by rw [hs]; exact hlt⟩)
    have hd := drain_assembles (S := S) i.rlist ({ i with rbuf := i.placed t }.commit t.len)
      (hst.trans g1) h.sorted fun r hr => hkeep' r (hkeep r (h.stored r hr))
    have hfirst : Extends S i { i with rbuf := i.placed t } := Extends.refl S rfl hread
    exact ⟨hd.1, hfirst.trans (hext.trans hd.2)⟩

/-! ## Reading -/

theorem recv_assembles (h : Assembled S i) {n : Nat} {b : FifoBuffer (2 ^ 32)}
    (hb : i.rbuf.consumeReadData n = some b) (mss : U32) :
    Assembled S (PseudoTcp.reopen { i with rbuf := b } mss) ∧
      i.rbuf.readable = fetch i.rbuf.peek n ++ b.readable := by
  obtain ⟨hn, h1, h2, h3, h4⟩ := FifoBuffer.consumeReadData_eq_some hb
  have hhas : ∀ r ∈ i.rlist, Stored S { i with rbuf := b } r := by
    intro r hr
    refine ⟨(h.stored r hr).1, fun p hp hs he => ?_⟩
    obtain ⟨hlt, hpeek⟩ := (h.stored r hr).2 p hp hs he
    unfold Has
    simp only [h1, h3, h4]
    rw [show n + (i.rbuf.dataLength - n + (p - i.rcvNxt.toNat)) =
      i.rbuf.dataLength + (p - i.rcvNxt.toNat) by omega]
    exact ⟨by omega, hpeek⟩
  constructor
  · unfold PseudoTcp.reopen
    split <;> exact ⟨h2.trans h.opened, h.sorted, h.ahead, hhas⟩
  · simp only [FifoBuffer.readable]
    rw [h3, fetch_congr (p := b.peek) (q := fun k => i.rbuf.peek (n + k)) fun k _ => h4 k,
      fetch_append]
    congr 1
    omega

/-! ## Runs -/

namespace PseudoTcp

/-- Segments without control data or reset, whose payload is the stream's and whose ends do not
pass `lim`, and `Recv` calls, in any order from `s₀` on; `out` are the bytes returned. -/
inductive Exchange (lim : Nat) (S : Nat → U8) (s₀ : PseudoTcp) : PseudoTcp → List U8 → Prop
  | start : Exchange lim S s₀ s₀ []
  | segment {s : PseudoTcp} {out : List U8} (env : Env) (seg : Segment)
      (h : Exchange lim S s₀ s out) (hctl : seg.flags &&& flagCtl = 0)
      (hrst : seg.flags &&& flagRst = 0)
      (hdata : ∀ k, k < seg.len.toNat → seg.data k = S (seg.seq.toNat + k))
      (hlim : seg.seq.toNat + seg.len.toNat ≤ lim) :
      Exchange lim S s₀ (s.process env seg).1 out
  | recv {s : PseudoTcp} {out : List U8} (env : Env) (len : Nat) (h : Exchange lim S s₀ s out) :
      Exchange lim S s₀ (s.recv env len).1 (out ++ (s.recv env len).2.getD [])

/-- The state `s` and the bytes `out` returned since `s₀`, when `before` comes before the stream. -/
structure Reassembled (before : List U8) (S : Nat → U8) (s₀ s : PseudoTcp) (out : List U8) :
    Prop where
  /-- The bytes returned are the stream's from the first `m_rcv_nxt` on. -/
  returned : ∃ n, out <+: before ++ fetch (fun k => S (s₀.rcvNxt.toNat + k)) n
  /-- `m_rcv_nxt` has moved by the bytes made readable. -/
  next : s.rcvNxt =
    s₀.rcvNxt + BitVec.ofNat 32 (out.length + s.rbuf.dataLength - s₀.rbuf.dataLength)
  /-- An entry of `m_rlist` that `m_rcv_nxt` has not passed is in the buffer at its offset. -/
  stored : ∀ r ∈ s.rlist, s.rcvNxt.toNat < r.seq.toNat + r.len.toNat →
    ∀ k, k < r.len.toNat →
      s.rbuf.dataLength + (r.seq - s.rcvNxt).toNat + k < s.rbuf.bufferLength ∧
      s.rbuf.peek (s.rbuf.dataLength + (r.seq - s.rcvNxt).toNat + k) = S (r.seq.toNat + k)
  sorted : s.rlist.Pairwise fun a b => a.seq ≤ b.seq

variable {s s₀ : PseudoTcp} {out : List U8} {env : Env}

structure Exchanged (S : Nat → U8) (s₀ s : PseudoTcp) (out : List U8) : Prop where
  assembled : Assembled S s.toIncoming
  shutdown : s.shutdown = .none
  le : s₀.rcvNxt.toNat ≤ s.rcvNxt.toNat
  bytes : out ++ s.rbuf.readable = s₀.rbuf.readable ++
    fetch (fun k => S (s₀.rcvNxt.toNat + k)) (s.rcvNxt.toNat - s₀.rcvNxt.toNat)

theorem Exchanged.segment (h : Exchanged S s₀ s out) (env : Env) {seg : Segment}
    (hctl : seg.flags &&& flagCtl = 0) (ha : Agrees S seg) :
    Exchanged S s₀ (s.process env seg).1 out := by
  obtain ⟨hm, hst⟩ := process_moves False.elim (meets_anyRely env s seg)
  have hcontrol : (s.controlled env seg).toIncoming = s.toIncoming := by
    unfold controlled processControl
    rw [if_pos hctl]
    rfl
  have hign : s.ignoresData seg = false := by
    simp [ignoresData, hctl, h.shutdown]
  have key : Assembled S (s.process env seg).1.toIncoming ∧
      Extends S s.toIncoming (s.process env seg).1.toIncoming := by
    generalize (s.process env seg).1.toIncoming = i at hst
    generalize (s.process env seg).2 = ok at hst
    cases hst with
    | rejected => exact ⟨h.assembled, Extends.refl S rfl rfl⟩
    | controlled _ =>
      rw [hcontrol]
      exact ⟨h.assembled, Extends.refl S rfl rfl⟩
    | stored _ =>
      rw [hcontrol, hign]
      exact receive_assembles h.assembled ha .none
  refine ⟨key.1, hm.shutdown.trans h.shutdown, h.le.trans key.2.le, ?_⟩
  rw [key.2.readable, ← List.append_assoc, h.bytes, List.append_assoc,
    fetch_chain S h.le key.2.le]

theorem Exchanged.recv (h : Exchanged S s₀ s out) (env : Env) (len : Nat) :
    Exchanged S s₀ (s.recv env len).1 (out ++ (s.recv env len).2.getD []) := by
  obtain ⟨hm, hr, -⟩ := recv_moves (r := anyRely) env False.elim (fun _ => trivial) len
    h.assembled.opened fun _ _ _ => trivial
  have hshut := hm.shutdown.trans h.shutdown
  generalize s.recv env len = q at hr hshut ⊢
  obtain ⟨s', res⟩ := q
  simp only at hr hshut ⊢
  generalize hi : s'.toIncoming = i at hr
  cases hr with
  | nothing _ =>
    refine ⟨hi ▸ h.assembled, hshut, hi ▸ h.le, ?_⟩
    rw [hi]
    simpa using h.bytes
  | bytes b _ _ hb =>
    obtain ⟨ha, hread⟩ := recv_assembles h.assembled hb s.mss
    have hnxt : (reopen { s.toIncoming with rbuf := b } s.mss).rcvNxt = s.rcvNxt := by
      unfold reopen
      split <;> rfl
    have hbuf : (reopen { s.toIncoming with rbuf := b } s.mss).rbuf = b := by
      unfold reopen
      split <;> rfl
    refine ⟨hi ▸ ha, hshut, ?_, ?_⟩
    · rw [hi, hnxt]
      exact h.le
    · rw [hi, hnxt, hbuf, ← h.bytes, hread, List.append_assoc]
      rfl

theorem exchange_exchanged (ho : s₀.rbuf.state = .opened) (hl : s₀.rlist = [])
    (hs : s₀.shutdown = .none) (hr : Exchange (2 ^ 32 - 1) S s₀ s out) : Exchanged S s₀ s out := by
  induction hr with
  | start =>
    refine ⟨⟨ho, by simp [hl], by simp [hl], by simp [hl]⟩, hs, le_refl _, ?_⟩
    rw [Nat.sub_self, fetch_zero, List.append_nil, List.nil_append]
  | segment env seg _ hctl _ hdata hlim ih => exact ih.segment env hctl ⟨hdata, by omega⟩
  | recv env len _ ih => exact ih.recv env len

/-- **The receiver reassembles the stream.** In every run of segments that agree with `S` and
`Recv` calls, the bytes returned are those unread at the start and then `S` from the first
`m_rcv_nxt` on, and everything remembered of other segments is in the buffer. -/
theorem recv_reassembles (ho : s₀.rbuf.state = .opened) (hl : s₀.rlist = [])
    (hs : s₀.shutdown = .none) (hr : Exchange (2 ^ 32 - 1) S s₀ s out) :
    Reassembled s₀.rbuf.readable S s₀ s out := by
  have h := exchange_exchanged ho hl hs hr
  have hlen := congrArg List.length h.bytes
  simp only [List.length_append, fetch_length, FifoBuffer.readable_length] at hlen
  refine ⟨⟨s.rcvNxt.toNat - s₀.rcvNxt.toNat, ?_⟩, ?_, fun r hr' _ k hk => ?_, h.assembled.sorted⟩
  · rw [← h.bytes]
    exact List.prefix_append _ _
  · have hle := h.le
    have hsum : out.length + s.rbuf.dataLength - s₀.rbuf.dataLength =
        s.rcvNxt.toNat - s₀.rcvNxt.toNat := by omega
    rw [hsum]
    bv_omega
  · have hahead := h.assembled.ahead r hr'
    obtain ⟨hw, hst⟩ := h.assembled.stored r hr'
    have hsub : (r.seq - s.rcvNxt).toNat = r.seq.toNat - s.rcvNxt.toNat := by bv_omega
    have hlt : s.rcvNxt.toNat < r.seq.toNat := by bv_omega
    have hd := s.rbuf.dataLength_le
    have hat : s.rbuf.dataLength + (r.seq - s.rcvNxt).toNat + k =
        s.rbuf.dataLength + (r.seq.toNat + k - s.rcvNxt.toNat) := by omega
    rw [hat]
    exact hst (r.seq.toNat + k) (by omega) (by omega) (by omega)

/-- An open connection at sequence number `next`. -/
def openAt (next : U32) : PseudoTcp :=
  { new 1 1 (fun _ => 0) (fun _ => 0) with state := .established, rcvNxt := next }

/-- A segment of `len` bytes, all `b`. -/
def plain (seq : U32) (b : U8) (len : U32) : Segment := ⟨1, seq, 0, 0, 1000, fun _ => b, len, 1, 1⟩

theorem recv_reassembles_reordered :
    Reassembled (openAt 4).rbuf.readable (fun _ => 7) (openAt 4)
      ((((openAt 4).process (still 1) (plain 6 7 3)).1.process (still 1) (plain 4 7 4)).1.recv
        (still 1) 5).1
      ([] ++ ((((openAt 4).process (still 1) (plain 6 7 3)).1.process (still 1)
        (plain 4 7 4)).1.recv (still 1) 5).2.getD []) :=
  recv_reassembles rfl rfl rfl
    (.recv _ _ (.segment _ _ (.segment _ _ .start (by decide) (by decide) (fun _ _ => rfl)
      (by decide)) (by decide) (by decide) (fun _ _ => rfl) (by decide)))

/-- **Two conditions are needed.** Bytes unread at the start are returned first. And a segment
that ends at `2 ^ 32` makes `m_rcv_nxt` wrap to 0, below the entries of `m_rlist` it covers, which
stay there for good. -/
theorem reassembly_fails_as_stated :
    (∃ S s₀ s out, s₀.state = .established ∧ s₀.rlist = [] ∧ s₀.shutdown = .none ∧
        Exchange (2 ^ 32) S s₀ s out ∧ ¬ ∃ n, out <+: fetch (fun k => S (s₀.rcvNxt.toNat + k)) n) ∧
      ∃ S s₀ s out, s₀.state = .established ∧ s₀.rlist = [] ∧ s₀.shutdown = .none ∧
        s₀.rbuf.dataLength = 0 ∧ Exchange (2 ^ 32) S s₀ s out ∧ ¬ Reassembled [] S s₀ s out := by
  constructor
  · refine ⟨fun _ => 9, ((openAt 4).process (still 1) (plain 4 7 1)).1, _, _, by decide, by decide,
      by decide, .recv (still 1) 5 .start, ?_⟩
    rintro ⟨n, hp⟩
    have hout : ([] ++ (((openAt 4).process (still 1) (plain 4 7 1)).1.recv (still 1) 5).2.getD
        [] : List U8) = [7] := by decide
    rw [hout] at hp
    have h7 := hp.subset (show (7 : U8) ∈ [7] by simp)
    obtain ⟨k, -, hk⟩ := List.mem_map.mp h7
    exact absurd (show (9 : U8) = 7 from hk) (by decide)
  · refine ⟨fun _ => 7, openAt (BitVec.ofNat 32 (2 ^ 32 - 4)), _, _, rfl, rfl, rfl, rfl,
      .segment (still 1) (plain (BitVec.ofNat 32 (2 ^ 32 - 4)) 7 4)
        (.segment (still 1) (plain (BitVec.ofNat 32 (2 ^ 32 - 2)) 7 1) .start (by decide)
          (by decide) (fun _ _ => rfl) (by decide)) (by decide) (by decide) (fun _ _ => rfl)
        (by decide), fun h => ?_⟩
    have hbad := (h.stored ⟨BitVec.ofNat 32 (2 ^ 32 - 2), 1⟩ (by decide) (by decide) 0
      (by decide)).1
    exact absurd hbad (by decide)

end PseudoTcp

end Libjingle
