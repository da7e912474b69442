import Libjingle.PseudoTcp.SendPath

/-!
# `attemptSend` stops

A round of `attemptSend` that goes on transmits the first unsent entry, or a piece of it, and so
lowers `backlog`. `attemptSend_rounds` concludes that the bound on the rounds in the model is no
restriction: with any larger one the result is the same.
-/

namespace Libjingle.PseudoTcp

open Lib

variable {env : Env} {s : PseudoTcp}

@[simp] theorem backlog_nil : backlog [] = 0 := rfl

@[simp] theorem backlog_cons (e : SSegment) (l : List SSegment) :
    backlog (e :: l) = (if e.xmit = 0 then 2 * e.len.toNat + 1 else 0) + backlog l := by
  simp [backlog]

@[simp] theorem backlog_append (l₁ l₂ : List SSegment) :
    backlog (l₁ ++ l₂) = backlog l₁ + backlog l₂ := by
  simp [backlog]

variable {l₁ l₂ : List SSegment} {seg : SSegment}

theorem cut_backlog {o : Outgoing}
    (hl : o.slist = l₁ ++ seg :: l₂) (hx : seg.xmit = 0) {n : U32} (hn : n ≠ 0) :
    ∃ seg' l₂', (o.cut l₁.length n).slist = l₁ ++ seg' :: l₂' ∧ seg'.xmit = 0 ∧ seg'.len ≤ n ∧
      backlog l₁ + backlog l₂' + 2 * seg'.len.toNat ≤ backlog o.slist ∧
      (seg'.len = 0 → backlog l₁ + backlog l₂' < backlog o.slist) := by
  rw [cut_eq hl, hl]
  simp only [backlog_append, backlog_cons, hx, if_true]
  split
  · rename_i hgt
    refine ⟨{ seg with len := n }, ⟨seg.seq + n, seg.len - n, 0, seg.bCtrl⟩ :: l₂, by simp [hx], hx,
      BitVec.le_refl n, ?_, fun h0 => absurd h0 hn⟩
    simp only [backlog_cons, if_true]
    bv_omega
  · refine ⟨seg, l₂, hl, hx, by bv_omega, by omega, fun _ => by omega⟩

theorem transmit_backlog (env : Env) (now : U32)
    (hl : s.slist = l₁ ++ seg :: l₂) (hx : seg.xmit = 0) (hmss : seg.len ≤ s.mss) {b : Nat}
    (h₁ : backlog l₁ + backlog l₂ + 2 * seg.len.toNat ≤ b)
    (h₂ : seg.len = 0 → backlog l₁ + backlog l₂ < b)
    (ht : (s.transmit env l₁.length now).2 = true) :
    backlog (s.transmit env l₁.length now).1.slist < b := by
  have hi : s.slist[l₁.length]? = some seg := by simp [hl]
  have hv : Serves anyRely env s := ⟨trivial, fun _ => trivial⟩
  unfold transmit at ht ⊢
  rw [hi] at ht ⊢
  simp only at ht ⊢
  by_cases hlim : seg.xmit ≥ (if s.state = .established then 15 else 30)
  · rw [if_pos hlim] at ht
    exact absurd ht (by simp)
  rw [if_neg hlim] at ht ⊢
  have hmem : seg ∈ s.slist := by simp [hl]
  rcases transmitPacket_cases hv hmem with ⟨n, hn, hpos, htr⟩ | ⟨hn, -⟩
  · generalize s.transmitPacket env seg = q at hn htr ht ⊢
    obtain ⟨s₂, m⟩ := q
    obtain rfl := hn
    obtain ⟨L, W, p, w, -, hout, -, hcarry⟩ := htr.out
    have hl₂ : s₂.slist = l₁ ++ seg :: l₂ := by
      simp only at hout
      rw [hout]
      exact hl
    have hle := hcarry.le
    have hn0 : seg.len ≠ 0 → n ≠ 0 := by
      intro h0
      refine hpos fun hmin => ?_
      have := umin_toNat seg.len s.mss
      rw [hmin] at this
      bv_omega
    simp only
    rw [transmitted_eq hl₂ hle]
    simp only [backlog_append, backlog_cons, hx]
    have hx1 : ¬ (0 : U8) + 1 = 0 := by decide
    rw [if_neg hx1]
    split
    · simp only [backlog_cons, backlog_nil, if_true]
      have : n ≠ 0 := hn0 (by bv_omega)
      bv_omega
    · by_cases h0 : seg.len = 0
      · have := h₂ h0
        simp only [backlog_nil]
        omega
      · simp only [backlog_nil]
        bv_omega
  · generalize s.transmitPacket env seg = q at hn ht ⊢
    obtain ⟨s₂, m⟩ := q
    obtain rfl := hn
    exact absurd ht (by simp)

theorem attemptSendLoop_stable {now : U32} : ∀ (fuel : Nat) (s : PseudoTcp) (sflags : SendFlags),
    backlog s.slist < fuel →
      attemptSendLoop env now (fuel + 1) s sflags = attemptSendLoop env now fuel s sflags
  | 0, _, _, h => absurd h (by omega)
  | fuel + 1, s, sflags, h => by
    rw [attemptSendLoop.eq_2, attemptSendLoop.eq_2]
    simp only
    split
    · rfl
    rename_i hq
    split
    · rfl
    split
    · rfl
    · rename_i i hfind
      obtain ⟨l₁, seg, l₂, hl, rfl, hx, -⟩ := exists_append_of_findIdx? hfind
      obtain ⟨seg', l₂', hl', hx', hlen, hb, hb0⟩ := cut_backlog hl (by simpa using hx) hq
      have hmss := (sendQuota_spec hq).1
      have ht := transmit_backlog env now (b := backlog s.slist)
        (s := { s with toOutgoing := s.toOutgoing.cut l₁.length s.sendQuota }) hl' hx'
        (BitVec.le_trans hlen hmss) hb hb0
      generalize ({ s with toOutgoing := s.toOutgoing.cut l₁.length s.sendQuota }).transmit env
        l₁.length now = q at ht ⊢
      obtain ⟨s₂, ok⟩ := q
      cases ok with
      | false => rfl
      | true =>
        have := ht rfl
        exact attemptSendLoop_stable fuel s₂ .none (by simp only at this; omega)

/-- **The bound on the rounds of `attemptSend` is no restriction.** -/
theorem attemptSend_rounds {now : U32} (s : PseudoTcp) (sflags : SendFlags) (extra : Nat) :
    attemptSendLoop env now (backlog s.slist + 1 + extra) s sflags =
      attemptSendLoop env now (backlog s.slist + 1) s sflags := by
  induction extra with
  | zero => rfl
  | succ extra ih =>
    rw [← ih, ← Nat.add_assoc]
    exact attemptSendLoop_stable _ s sflags (by omega)

end Libjingle.PseudoTcp
