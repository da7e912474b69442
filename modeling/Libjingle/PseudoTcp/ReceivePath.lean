import Libjingle.PseudoTcp.Input

/-!
# What the receive path does, one lemma for each part
-/

namespace Libjingle

open Lib

/-! ## `m_rlist` -/

theorem mem_insertRSegment {r x : RSegment} : ∀ {l : List RSegment},
    x ∈ insertRSegment r l ↔ x = r ∨ x ∈ l
  | [] => by simp [insertRSegment]
  | e :: l => by
    unfold insertRSegment
    split
    · rw [List.mem_cons, mem_insertRSegment, List.mem_cons]
      constructor
      · rintro (h | h | h)
        · exact Or.inr (Or.inl h)
        · exact Or.inl h
        · exact Or.inr (Or.inr h)
      · rintro (h | h | h)
        · exact Or.inr (Or.inl h)
        · exact Or.inl h
        · exact Or.inr (Or.inr h)
    · rw [List.mem_cons]

theorem sorted_insertRSegment {r : RSegment} : ∀ {l : List RSegment},
    l.Pairwise (fun a b => a.seq ≤ b.seq) →
    (insertRSegment r l).Pairwise fun a b => a.seq ≤ b.seq
  | [], _ => List.pairwise_singleton _ _
  | e :: l, h => by
    obtain ⟨hfirst, hrest⟩ := List.pairwise_cons.mp h
    unfold insertRSegment
    split
    · rename_i hlt
      refine List.pairwise_cons.mpr ⟨fun x hx => ?_, sorted_insertRSegment hrest⟩
      rcases mem_insertRSegment.mp hx with rfl | hx
      · bv_omega
      · exact hfirst x hx
    · rename_i hge
      refine List.pairwise_cons.mpr ⟨fun x hx => ?_, h⟩
      rcases List.mem_cons.mp hx with rfl | hx
      · bv_omega
      · have := hfirst x hx
        bv_omega

namespace Incoming

variable {i : Incoming}

/-- The parts storing a segment leaves alone. -/
def shape (i : Incoming) : U32 × U8 × StreamState × Nat :=
  (i.rbufLen, i.rwndScale, i.rbuf.state, i.rbuf.bufferLength)

theorem commit_shape (i : Incoming) (n : U32) : (i.commit n).shape = i.shape := by
  simp only [shape, commit, Incoming.assert]
  cases h : i.rbuf.consumeWriteBuffer n.toNat with
  | none => rfl
  | some b =>
    obtain ⟨-, h1, h2, -⟩ := FifoBuffer.consumeWriteBuffer_eq_some h
    simp only [Option.getD_some, h1, h2]

theorem drain_shape : ∀ (l : List RSegment) (i : Incoming), (i.drain l).1.shape = i.shape
  | [], _ => rfl
  | e :: l, i => by
    unfold drain
    split
    · split
      · rw [drain_shape l, commit_shape]
      · exact drain_shape l i
    · rfl

/-- Storing a segment changes neither the buffer's size nor the scale. -/
theorem receive_shape (i : Incoming) (bIgnoreData : Bool) (seg : Segment) (sflags : SendFlags) :
    (i.receive bIgnoreData seg sflags).inc.shape = i.shape := by
  unfold receive store
  generalize i.trimNew (i.trimOld seg) = seg
  simp only
  split
  · rfl
  split
  · split <;> rfl
  obtain ⟨h1, -, -, h4⟩ := FifoBuffer.writeOffset_frame i.rbuf seg.data seg.len.toNat
    (seg.seq - i.rcvNxt).toNat
  have hshape : ({ i.assert (decide ((i.rbuf.writeOffset seg.data seg.len.toNat
      (seg.seq - i.rcvNxt).toNat).1 = .success)) .receiveWrite with
      rbuf := (i.rbuf.writeOffset seg.data seg.len.toNat
        (seg.seq - i.rcvNxt).toNat).2.2 } : Incoming).shape = i.shape := by
    simp only [shape, Incoming.assert, h1, h4]
  split
  · rw [drain_shape, commit_shape]
    exact hshape
  · exact hshape

/-! ## Trimming -/

variable {seg : Segment}

/-- What is left of a segment lies between `m_rcv_nxt` and the end of the free space. -/
theorem trim_cases (i : Incoming) (hend : seg.seq.toNat + seg.len.toNat < 2 ^ 32) :
    (i.trimNew (i.trimOld seg)).len = 0 ∨
      ((i.trimNew (i.trimOld seg)).seq.toNat = max seg.seq.toNat i.rcvNxt.toNat ∧
        (i.trimNew (i.trimOld seg)).seq.toNat + (i.trimNew (i.trimOld seg)).len.toNat =
          min (seg.seq.toNat + seg.len.toNat) (i.rcvNxt.toNat + i.rbuf.getWriteRemaining) ∧
        ∀ k, (i.trimNew (i.trimOld seg)).data k =
          seg.data ((i.trimNew (i.trimOld seg)).seq.toNat - seg.seq.toNat + k)) := by
  have hold : (i.trimOld seg).len = 0 ∨
      ((i.trimOld seg).seq.toNat = max seg.seq.toNat i.rcvNxt.toNat ∧
        (i.trimOld seg).seq.toNat + (i.trimOld seg).len.toNat =
          seg.seq.toNat + seg.len.toNat ∧
        ∀ k, (i.trimOld seg).data k =
          seg.data ((i.trimOld seg).seq.toNat - seg.seq.toNat + k)) := by
    unfold trimOld
    simp only
    split
    · rename_i hlt
      split
      · rename_i hadj
        right
        simp only
        have hseq : seg.seq + (i.rcvNxt - seg.seq) = i.rcvNxt := by bv_omega
        rw [hseq]
        refine ⟨by bv_omega, by bv_omega, fun k => ?_⟩
        congr 1
        bv_omega
      · left
        rfl
    · rename_i hge
      right
      refine ⟨by bv_omega, rfl, fun k => ?_⟩
      congr 1
      omega
  generalize i.trimOld seg = t at hold ⊢
  have hfree : (BitVec.ofNat 32 i.rbuf.getWriteRemaining).toNat = i.rbuf.getWriteRemaining := by
    have hl := i.rbuf.bufferLength_lt
    unfold FifoBuffer.getWriteRemaining
    rw [BitVec.toNat_ofNat, Nat.mod_eq_of_lt (by omega)]
  unfold trimNew
  simp only
  rcases hold with h0 | ⟨hs, he, hd⟩
  · left
    split
    · rw [if_neg (by rw [h0]; bv_omega)]
    · exact h0
  · have hsum : (t.seq + t.len - i.rcvNxt).toNat =
        seg.seq.toNat + seg.len.toNat - i.rcvNxt.toNat := by bv_omega
    split
    · rename_i hgt
      rw [gt_iff_lt, BitVec.lt_def, hsum, hfree] at hgt
      have hadj : (t.seq + t.len - i.rcvNxt - BitVec.ofNat 32 i.rbuf.getWriteRemaining).toNat =
          seg.seq.toNat + seg.len.toNat - i.rcvNxt.toNat - i.rbuf.getWriteRemaining := by
        rw [BitVec.toNat_sub, hsum, hfree]
        omega
      split
      · rename_i hlt
        right
        rw [BitVec.lt_def, hadj] at hlt
        have hlen : (t.len - (t.seq + t.len - i.rcvNxt -
            BitVec.ofNat 32 i.rbuf.getWriteRemaining)).toNat = t.len.toNat -
            (seg.seq.toNat + seg.len.toNat - i.rcvNxt.toNat - i.rbuf.getWriteRemaining) := by
          rw [BitVec.toNat_sub, hadj]
          omega
        simp only [hlen]
        exact ⟨hs, by omega, hd⟩
      · left
        rfl
    · rename_i hle
      rw [gt_iff_lt, BitVec.lt_def, hsum, hfree] at hle
      exact Or.inr ⟨hs, by omega, hd⟩

/-! ## Storing -/

/-- The buffer with the segment written at its offset. -/
def placed (i : Incoming) (seg : Segment) : FifoBuffer (2 ^ 32) :=
  (i.rbuf.writeOffset seg.data seg.len.toNat (seg.seq - i.rcvNxt).toNat).2.2

/-- It is written at its offset, and nothing else changes. -/
theorem placed_spec (ho : i.rbuf.state = .opened) (hlen : seg.len ≠ 0)
    (hseq : i.rcvNxt.toNat ≤ seg.seq.toNat)
    (hend : seg.seq.toNat + seg.len.toNat ≤ i.rcvNxt.toNat + i.rbuf.getWriteRemaining) :
    (i.rbuf.writeOffset seg.data seg.len.toNat (seg.seq - i.rcvNxt).toNat).1 = .success ∧
      (i.placed seg).state = .opened ∧ (i.placed seg).bufferLength = i.rbuf.bufferLength ∧
      (i.placed seg).dataLength = i.rbuf.dataLength ∧
      ∀ k, k < i.rbuf.bufferLength → (i.placed seg).peek k =
        if i.rbuf.dataLength + (seg.seq.toNat - i.rcvNxt.toNat) ≤ k ∧
            k < i.rbuf.dataLength + (seg.seq.toNat - i.rcvNxt.toNat) + seg.len.toNat then
          seg.data (k - (i.rbuf.dataLength + (seg.seq.toNat - i.rcvNxt.toNat)))
        else i.rbuf.peek k := by
  have hoff : (seg.seq - i.rcvNxt).toNat = seg.seq.toNat - i.rcvNxt.toNat := by bv_omega
  have hpos : 0 < seg.len.toNat := by bv_omega
  have hl := i.rbuf.bufferLength_lt
  unfold FifoBuffer.getWriteRemaining at hend
  unfold placed
  rw [hoff]
  have hin : i.rbuf.dataLength + (seg.seq.toNat - i.rcvNxt.toNat) < i.rbuf.bufferLength := by omega
  obtain ⟨h1, h2⟩ := FifoBuffer.writeOffset_success (by omega) seg.data seg.len.toNat
    (b := i.rbuf) (by rw [ho]; decide) hin
  obtain ⟨f1, f2, -, f4⟩ := FifoBuffer.writeOffset_frame i.rbuf seg.data seg.len.toNat
    (seg.seq.toNat - i.rcvNxt.toNat)
  refine ⟨h1, f4.trans ho, f1, f2, fun k hk => ?_⟩
  rw [FifoBuffer.peek_writeOffset (by omega) i.rbuf seg.data seg.len.toNat (by omega) hk, h2]
  congr 2
  rw [Nat.min_eq_left (by omega)]

/-- Committing bytes that fit moves `m_rcv_nxt`, `m_rcv_wnd` and the readable end. -/
theorem commit_spec {n : U32} (hn : n.toNat ≤ i.rbuf.getWriteRemaining) :
    ∃ b, i.commit n = { i with rbuf := b, rcvNxt := i.rcvNxt + n, rcvWnd := i.rcvWnd - n } ∧
      b.state = i.rbuf.state ∧ b.bufferLength = i.rbuf.bufferLength ∧
      b.dataLength = i.rbuf.dataLength + n.toNat ∧ ∀ k, b.peek k = i.rbuf.peek k := by
  obtain ⟨b, hb⟩ := FifoBuffer.consumeWriteBuffer_isSome hn
  obtain ⟨-, h1, h2, h3, h4⟩ := FifoBuffer.consumeWriteBuffer_eq_some hb
  refine ⟨b, ?_, h2, h1, h3, h4⟩
  simp only [commit, Incoming.assert, hn, decide_true, if_true, hb, Option.getD_some]

/-- What storing a trimmed segment does: nothing, only count its sequence numbers, write it ahead,
or write it in order and take what follows it off `m_rlist`. -/
theorem store_cases (ho : i.rbuf.state = .opened) (bIgnoreData : Bool) (sflags : SendFlags)
    (hin : seg.len = 0 ∨ i.rcvNxt.toNat ≤ seg.seq.toNat ∧
      seg.seq.toNat + seg.len.toNat ≤ i.rcvNxt.toNat + i.rbuf.getWriteRemaining) :
    ((i.store bIgnoreData seg sflags).inc = i ∧ (seg.len = 0 ∨ bIgnoreData = true)) ∨
      (seg.len ≠ 0 ∧ bIgnoreData = true ∧ seg.seq = i.rcvNxt ∧
        (i.store bIgnoreData seg sflags).inc = { i with rcvNxt := i.rcvNxt + seg.len }) ∨
      (seg.len ≠ 0 ∧ bIgnoreData = false ∧ i.rcvNxt < seg.seq ∧
        (i.store bIgnoreData seg sflags).inc =
          { i with
            rbuf := i.placed seg
            rlist := insertRSegment ⟨seg.seq, seg.len⟩ i.rlist }) ∨
      (seg.len ≠ 0 ∧ bIgnoreData = false ∧ seg.seq = i.rcvNxt ∧
        (i.store bIgnoreData seg sflags).inc =
          (({ i with rbuf := i.placed seg }.commit seg.len).drain i.rlist).1) := by
  unfold store
  split
  · rename_i h0
    exact Or.inl ⟨rfl, Or.inl h0⟩
  rename_i h0
  cases bIgnoreData with
  | true =>
    simp only [if_true]
    split
    · rename_i hs
      exact Or.inr (Or.inl ⟨h0, trivial, hs, rfl⟩)
    · exact Or.inl ⟨rfl, Or.inr trivial⟩
  | false =>
    obtain ⟨hseq, hend⟩ := hin.resolve_left h0
    obtain ⟨hsucc, -⟩ := placed_spec ho h0 hseq hend
    simp only [Bool.false_eq_true, if_false, hsucc, decide_true, Incoming.assert, if_true]
    split
    · rename_i hs
      exact Or.inr (Or.inr (Or.inr ⟨h0, trivial, hs, rfl⟩))
    · rename_i hs
      exact Or.inr (Or.inr (Or.inl ⟨h0, trivial, by bv_omega, rfl⟩))

/-! ## Where `m_rcv_nxt` can get -/

/-- Draining moves `m_rcv_nxt` to the end of an entry, if at all, and leaves the end of the window
alone. -/
theorem drain_next : ∀ (l : List RSegment) (i : Incoming),
    ((i.drain l).1.rcvNxt = i.rcvNxt ∨ ∃ r ∈ l, (i.drain l).1.rcvNxt = r.seq + r.len) ∧
      (∀ r ∈ (i.drain l).1.rlist, r ∈ l) ∧
      (i.drain l).1.rcvNxt + (i.drain l).1.rcvWnd = i.rcvNxt + i.rcvWnd
  | [], _ => ⟨Or.inl rfl, fun _ h => h, rfl⟩
  | e :: l, i => by
    unfold drain
    split
    · split
      · obtain ⟨h1, h2, h3⟩ := drain_next l (i.commit (e.seq + e.len - i.rcvNxt))
        have hnxt : (i.commit (e.seq + e.len - i.rcvNxt)).rcvNxt = e.seq + e.len :=
          add_sub_cancel i.rcvNxt (e.seq + e.len)
        refine ⟨?_, fun r hr => List.mem_cons_of_mem e (h2 r hr), h3.trans ?_⟩
        · rcases h1 with h | ⟨r, hr, h⟩
          · exact Or.inr ⟨e, by simp, h.trans hnxt⟩
          · exact Or.inr ⟨r, by simp [hr], h⟩
        · show i.rcvNxt + _ + (i.rcvWnd - _) = _
          rw [add_add_sub_cancel]
      · obtain ⟨h1, h2, h3⟩ := drain_next l i
        refine ⟨h1.imp id ?_, fun r hr => List.mem_cons_of_mem e (h2 r hr), h3⟩
        rintro ⟨r, hr, h⟩
        exact ⟨r, by simp [hr], h⟩
    · exact ⟨Or.inl rfl, fun _ h => h, rfl⟩

/-- Storing a segment moves `m_rcv_nxt` to its end or to the end of an entry, if at all, and leaves
the end of the window alone. -/
theorem store_next (i : Incoming) (seg : Segment) (sflags : SendFlags) :
    ((i.store false seg sflags).inc.rcvNxt = i.rcvNxt ∨
        seg.len ≠ 0 ∧ (i.store false seg sflags).inc.rcvNxt = seg.seq + seg.len ∨
        ∃ r ∈ i.rlist, (i.store false seg sflags).inc.rcvNxt = r.seq + r.len) ∧
      (∀ r ∈ (i.store false seg sflags).inc.rlist,
        r ∈ i.rlist ∨ seg.len ≠ 0 ∧ r = ⟨seg.seq, seg.len⟩) ∧
      (i.store false seg sflags).inc.rcvNxt + (i.store false seg sflags).inc.rcvWnd =
        i.rcvNxt + i.rcvWnd := by
  unfold store
  by_cases h0 : seg.len = 0
  · rw [if_pos h0]
    exact ⟨Or.inl rfl, fun _ h => Or.inl h, rfl⟩
  rw [if_neg h0]
  simp only [Bool.false_eq_true, if_false]
  split
  · rename_i hs
    simp only [Incoming.assert] at hs ⊢
    generalize hc : Incoming.commit _ seg.len = j
    have hnxt : j.rcvNxt = seg.seq + seg.len := by
      rw [← hc, hs]
      rfl
    have hsum : j.rcvNxt + j.rcvWnd = i.rcvNxt + i.rcvWnd := by
      rw [← hc]
      exact add_add_sub_cancel i.rcvNxt i.rcvWnd seg.len
    obtain ⟨h1, h2, h3⟩ := drain_next i.rlist j
    refine ⟨?_, fun r hr => Or.inl (h2 r hr), h3.trans hsum⟩
    rcases h1 with h | h
    · exact Or.inr (Or.inl ⟨h0, h.trans hnxt⟩)
    · exact Or.inr (Or.inr h)
  · refine ⟨Or.inl rfl, fun r hr => ?_, rfl⟩
    rcases mem_insertRSegment.mp hr with rfl | hr
    · exact Or.inr ⟨h0, rfl⟩
    · exact Or.inl hr

end Incoming

end Libjingle
