import Libjingle.PseudoTcp.Window

/-!
# Window scaling (`resizeReceiveBuffer`, `parseOptions`)

Our scale comes from the size of the receive buffer, the peer's from its CONNECT message.

## Results

* **`window_scaling`**: with it, the send window is exact just when the peer's scale is at most 16.
  `applyWindowScaleOption` takes any scale.
-/

namespace Libjingle.PseudoTcp

open Lib

variable {env : Env} {s : PseudoTcp}

/-! ## The options of the peer -/

/-- The options, kinds and contents, and whether no length among them was invalid. -/
def optionList : Nat → List U8 → List (U8 × List U8) × Bool
  | 0, _ => ([], true)
  | _ + 1, [] => ([], true)
  | fuel + 1, kind :: buf =>
    if kind = tcpOptEol then ([], true)
    else if kind = tcpOptNoop then optionList fuel buf
    else
      let optLen := (buf.headD 0).toNat
      if optLen ≤ buf.tail.length then
        let rest := optionList fuel (buf.tail.drop optLen)
        ((kind, buf.tail.take optLen) :: rest.1, rest.2)
      else ([], false)

/-- The factor of a valid window scale option. -/
def scaleOf (opt : U8 × List U8) : Option U8 :=
  if opt.1 = tcpOptWndScale ∧ opt.2.length = 1 then opt.2.head? else none

/-- The last window scale that the payload offers. -/
def offeredScale (data : List U8) : Option U8 :=
  ((optionList data.length data).1.filterMap scaleOf).getLast?

/-- The payload has no window scale option, and our receive buffer goes back to its default. -/
def Declines (s : PseudoTcp) (data : List U8) : Prop :=
  (optionList data.length data).2 = true ∧
    tcpOptWndScale ∉ (optionList data.length data).1.map Prod.fst ∧ s.rwndScale > 0

theorem applyOption_scale (s : PseudoTcp) (kind : U8) (data : List U8) :
    (s.applyOption kind data).swndScale = (scaleOf (kind, data)).getD s.swndScale := by
  unfold applyOption scaleOf
  by_cases hkind : kind = tcpOptWndScale
  · rw [if_pos hkind]
    match data with
    | [] => simp
    | [scale] => simp [hkind]
    | _ :: _ :: _ => simp
  · rw [if_neg hkind, if_neg fun h => hkind h.1]
    rfl

theorem parseOptionsLoop_options : ∀ (fuel : Nat) (s : PseudoTcp) (buf seen : List U8),
    (parseOptionsLoop fuel s buf seen).1.swndScale =
        (((optionList fuel buf).1.filterMap scaleOf).getLast?).getD s.swndScale ∧
      (parseOptionsLoop fuel s buf seen).2 =
        if (optionList fuel buf).2 then
          some (((optionList fuel buf).1.map Prod.fst).reverse ++ seen) else none
  | 0, _, _, _ => ⟨rfl, rfl⟩
  | _ + 1, _, [], _ => ⟨rfl, rfl⟩
  | fuel + 1, s, kind :: buf, seen => by
    unfold parseOptionsLoop optionList
    by_cases heol : kind = tcpOptEol
    · rw [if_pos heol, if_pos heol]
      exact ⟨rfl, rfl⟩
    rw [if_neg heol, if_neg heol]
    by_cases hnoop : kind = tcpOptNoop
    · rw [if_pos hnoop, if_pos hnoop]
      exact parseOptionsLoop_options fuel s buf seen
    rw [if_neg hnoop, if_neg hnoop]
    simp only
    by_cases hlen : (buf.headD 0).toNat ≤ buf.tail.length
    · rw [if_pos hlen, if_pos hlen]
      obtain ⟨hscale, hseen⟩ := parseOptionsLoop_options fuel
        (s.applyOption kind (buf.tail.take (buf.headD 0).toNat))
        (buf.tail.drop (buf.headD 0).toNat) (kind :: seen)
      refine ⟨?_, ?_⟩
      · rw [hscale, applyOption_scale, List.filterMap_cons]
        cases scaleOf (kind, buf.tail.take (buf.headD 0).toNat) with
        | none => rfl
        | some scale =>
          simp only [List.getLast?_cons, Option.getD_some]
      · rw [hseen, List.map_cons, List.reverse_cons, List.append_assoc]
        rfl
    · rw [if_neg hlen, if_neg hlen]
      exact ⟨rfl, rfl⟩

/-- **The scale after `parseOptions`.** -/
theorem parseOptions_scale (env : Env) (s : PseudoTcp) (data : List U8) :
    (Declines s data → (s.parseOptions env data).swndScale = 0) ∧
      (¬ Declines s data →
        (s.parseOptions env data).swndScale = (offeredScale data).getD s.swndScale) := by
  obtain ⟨hscale, hseen⟩ := parseOptionsLoop_options data.length s data []
  obtain ⟨x, hx⟩ := parseOptionsLoop_eq data.length s data []
  unfold parseOptions Declines offeredScale
  rw [List.append_nil] at hseen
  generalize parseOptionsLoop data.length s data [] = q at hscale hseen hx ⊢
  obtain ⟨s₁, seen⟩ := q
  simp only at hscale hseen hx
  by_cases hvalid : (optionList data.length data).2 = true
  · rw [if_pos hvalid] at hseen
    subst hseen
    have hours : s₁.rwndScale = s.rwndScale := by rw [hx]
    have hcond : tcpOptWndScale ∉ ((optionList data.length data).1.map Prod.fst).reverse ∧
        s₁.rwndScale > 0 ↔
          tcpOptWndScale ∉ (optionList data.length data).1.map Prod.fst ∧ s.rwndScale > 0 := by
      rw [List.mem_reverse, hours]
    simp only
    refine ⟨fun h => ?_, fun h => ?_⟩
    · rw [if_pos (hcond.mpr h.2)]
    · rw [if_neg fun hdecline => h ⟨hvalid, hcond.mp hdecline⟩]
      exact hscale
  · rw [if_neg hvalid] at hseen
    subst hseen
    exact ⟨fun h => absurd h.1 hvalid, fun _ => hscale⟩

/-! ## The send window -/

/-- The send window computed from a window field is its multiple by 2^`m_swnd_scale`, as a number:
no bit is lost, and the shift is in range. -/
def WindowExact (s : PseudoTcp) : Prop := ∀ seg : Segment,
  s.swndScale.toNat < 32 ∧
    (s.scaledWnd seg).toNat = seg.wnd.toNat * 2 ^ s.swndScale.toNat ∧
    seg.wnd.toNat * 2 ^ s.swndScale.toNat < 2 ^ 32

theorem windowExact_iff (s : PseudoTcp) : WindowExact s ↔ s.swndScale.toNat ≤ 16 := by
  unfold WindowExact scaledWnd
  constructor
  · intro h
    by_contra hlarge
    -- the largest window a peer may advertise
    obtain ⟨-, -, hlt⟩ := h ⟨0, 0, 0, 0, 0xFFFF, fun _ => 0, 0, 0, 0⟩
    have hle : 0xFFFF * 2 ^ 17 ≤ 0xFFFF * 2 ^ s.swndScale.toNat :=
      Nat.mul_le_mul_left _ (Nat.pow_le_pow_right (by omega) (by omega))
    exact absurd (hle.trans_lt hlt) (by decide)
  · intro h seg
    have hwnd : seg.wnd.toNat ≤ 0xFFFF := by
      have := seg.wnd.isLt
      omega
    have hlt : seg.wnd.toNat * 2 ^ s.swndScale.toNat < 2 ^ 32 :=
      calc seg.wnd.toNat * 2 ^ s.swndScale.toNat ≤ 0xFFFF * 2 ^ 16 :=
            Nat.mul_le_mul hwnd (Nat.pow_le_pow_right (by omega) h)
        _ < 2 ^ 32 := by decide
    refine ⟨by omega, ?_, hlt⟩
    rw [Nat.mod_eq_of_lt (by omega : s.swndScale.toNat < 32), BitVec.toNat_shiftLeft,
      BitVec.toNat_setWidth, Nat.shiftLeft_eq, Nat.mod_eq_of_lt (by omega : seg.wnd.toNat < 2 ^ 32),
      Nat.mod_eq_of_lt hlt]

/-- The scale that the payload leaves is at most 16: there is none in it and our buffer goes back to
its default, or the last valid one, else the one from before, is. -/
def ScaleFits (s : PseudoTcp) (data : List U8) : Prop :=
  Declines s data ∨ ((offeredScale data).getD s.swndScale).toNat ≤ 16

/-! ## The receive buffer -/

/-- **`resizeReceiveBuffer`** rounds the size down to a multiple of the scale. -/
theorem resize_scaled (env : Env) (s : PseudoTcp) (size : U32) :
    (s.resizeReceiveBuffer env size).rbufLen ≤ size ∧
      size.toNat - (s.resizeReceiveBuffer env size).rbufLen.toNat <
        2 ^ (s.resizeReceiveBuffer env size).rwndScale.toNat ∧
      (s.resizeReceiveBuffer env size).rbufLen.toNat >>>
        (s.resizeReceiveBuffer env size).rwndScale.toNat ≤ 0xFFFF := by
  obtain ⟨k, hk, h1, h2, h3⟩ := scaleFor_spec 16 size 0
  have hscale : (s.resizeReceiveBuffer env size).rwndScale.toNat = k := by
    show (scaleFor 16 size 0).2.toNat = k
    rw [h2, zero_add, BitVec.toNat_ofNat]
    omega
  have hsize := h3 (by have := size.isLt; omega)
  have hdiv : (size >>> k).toNat = size.toNat / 2 ^ k := by
    rw [BitVec.toNat_ushiftRight, Nat.shiftRight_eq_div_pow]
  have hle : size.toNat / 2 ^ k * 2 ^ k ≤ size.toNat := Nat.div_mul_le_self _ _
  have hlen : (s.resizeReceiveBuffer env size).rbufLen.toNat = size.toNat / 2 ^ k * 2 ^ k := by
    show ((scaleFor 16 size 0).1 <<< (scaleFor 16 size 0).2.toNat).toNat = _
    have hscale' : (scaleFor 16 size 0).2.toNat = k := hscale
    rw [hscale', h1, BitVec.toNat_shiftLeft, hdiv, Nat.shiftLeft_eq]
    exact Nat.mod_eq_of_lt (hle.trans_lt size.isLt)
  have hpos : 0 < 2 ^ k := Nat.two_pow_pos k
  rw [BitVec.le_def, hscale, hlen, Nat.shiftRight_eq_div_pow, Nat.mul_div_cancel _ hpos]
  refine ⟨hle, ?_, hdiv ▸ hsize⟩
  have hmod := Nat.mod_lt size.toNat hpos
  have hsplit := Nat.div_add_mod' size.toNat (2 ^ k)
  omega

/-! ## Both directions -/

/-- **Window scaling.** Our side is exact for every size; the peer's side is exact just when the
scale it offers fits. -/
theorem window_scaling (env : Env) (s : PseudoTcp) :
    (∀ size : U32, (s.resizeReceiveBuffer env size).rbufLen ≤ size ∧
      size.toNat - (s.resizeReceiveBuffer env size).rbufLen.toNat <
        2 ^ (s.resizeReceiveBuffer env size).rwndScale.toNat ∧
      (s.resizeReceiveBuffer env size).rbufLen.toNat >>>
        (s.resizeReceiveBuffer env size).rwndScale.toNat ≤ 0xFFFF) ∧
    ∀ data : List U8, WindowExact (s.parseOptions env data) ↔ ScaleFits s data := by
  refine ⟨resize_scaled env s, fun data => ?_⟩
  obtain ⟨hdeclined, hoffered⟩ := parseOptions_scale env s data
  rw [windowExact_iff]
  unfold ScaleFits
  by_cases hdecline : Declines s data
  · rw [hdeclined hdecline]
    exact ⟨fun _ => .inl hdecline, fun _ => Nat.zero_le _⟩
  · rw [hoffered hdecline]
    exact ⟨.inr, fun h => h.resolve_left hdecline⟩

theorem scale_from_wire : ¬ WindowExact (connecting.parseOptions (still 1) [3, 1, 17]) := by
  intro h
  obtain ⟨-, -, hlt⟩ := h ⟨0, 0, 0, 0, 0xFFFF, fun _ => 0, 0, 0, 0⟩
  have hscale : (connecting.parseOptions (still 1) [3, 1, 17]).swndScale = 17 := by decide
  rw [hscale] at hlt
  exact absurd hlt (by decide)

end Libjingle.PseudoTcp
