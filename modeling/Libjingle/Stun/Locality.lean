import Libjingle.Stun.Framing

/-!
# What `Read` makes of a body depends on what lies in front

In a body that is a multiple of four bytes long, with the magic cookie in the header, each round
of `Read`'s loop takes the header and the padded value of one attribute and looks at nothing
behind.
-/

namespace Libjingle

open Lib ByteBuffer

variable {transactionId buf rest : List U8}

/-! ## Padding -/

variable {length : U16}

theorem consumePadding_takes {p : List U8} (h : p.length = paddingSize length) :
    (consumePadding length).Consumes p () := by
  intro t
  unfold consumePadding consume
  rw [if_neg (by rw [List.length_append]; omega), ← h, List.drop_left]
  rfl

theorem consumePadding_local (h : paddingSize length ≤ buf.length) :
    (consumePadding length).Local buf := by
  intro a t ht
  unfold consumePadding consume at ht
  rw [if_neg (by omega)] at ht
  obtain ⟨-, rfl⟩ := Prod.mk.inj (Option.some.inj ht)
  refine ⟨buf.take (paddingSize length), (List.take_append_drop _ _).symm, ?_⟩
  exact consumePadding_takes (by rw [List.length_take, Nat.min_eq_left h])

theorem paddingSize_le (hmod : buf.length % 4 = 0)
    (hl : length.toNat ≤ buf.length) : paddingSize length ≤ (buf.drop length.toNat).length := by
  rw [List.length_drop]
  unfold paddingSize
  split <;> omega

theorem consumePadding_length (hmod : buf.length % 4 = 0) (hl : length.toNat ≤ buf.length)
    (h : consumePadding length (buf.drop length.toNat) = some ((), rest)) :
    rest.length + StunMessage.padded length.toNat = buf.length := by
  have hpad := paddingSize_le hmod hl
  unfold consumePadding consume at h
  rw [if_neg (by omega)] at h
  obtain ⟨-, rfl⟩ := Prod.mk.inj (Option.some.inj h)
  rw [List.length_drop] at hpad
  simp only [Option.elim_some, List.length_drop, padded_eq]
  omega

/-! ## One value -/

theorem readNumber_local (w n : Nat) (l : List U8) : (readNumber w n).Local l :=
  (Reader.Local.take n l).return

theorem readAddress_local (length : U16) (l : List U8) : (readAddress length).Local l := by
  unfold readAddress
  refine (readNumber_local 8 1 l).bind fun _ l₁ _ => (readNumber_local 8 1 l₁).bind fun f l₂ _ =>
    (readNumber_local 16 2 l₂).bind fun _ l₃ _ => ?_
  split
  · split
    · exact Reader.Local.failure _
    · exact (readNumber_local 32 4 l₃).return
  split
  · split
    · exact Reader.Local.failure _
    · exact (readNumber_local 128 16 l₃).return
  · exact Reader.Local.failure _

variable {valueType : StunAttributeValueType} {reader : Reader U8 StunValue}

theorem create_local (hc : StunValue.create valueType length transactionId = some reader)
    (hmod : buf.length % 4 = 0) : reader.Local buf := by
  cases valueType with
  | unknown => cases hc
  | address =>
    obtain rfl := Option.some.inj hc
    exact (readAddress_local length buf).return
  | xorAddress =>
    obtain rfl := Option.some.inj hc
    exact (readAddress_local length buf).return.return
  | uint32 =>
    obtain rfl := Option.some.inj hc
    exact (readNumber_local 32 4 buf).return
  | uint64 =>
    obtain rfl := Option.some.inj hc
    exact (readNumber_local 64 8 buf).return
  | byteString =>
    obtain rfl := Option.some.inj hc
    refine Reader.Local.return ((Reader.Local.take _ _).bind fun a t h => ?_)
    obtain ⟨hl, -, rfl⟩ := Reader.take_eq_some.mp h
    exact (consumePadding_local (paddingSize_le hmod hl)).return
  | errorCode =>
    obtain rfl := Option.some.inj hc
    unfold readErrorCode
    split
    · exact Reader.Local.failure _
    rename_i h4
    refine (readNumber_local 32 4 buf).bind fun a t h => ?_
    obtain ⟨hl4, -, rfl⟩ := readNumber_eq_some.mp h
    refine (Reader.Local.take _ _).bind fun a t h => ?_
    obtain ⟨hl, -, rfl⟩ := Reader.take_eq_some.mp h
    have hsum : 4 + (length.toNat - 4) = length.toNat := by bv_omega
    rw [List.length_drop] at hl
    rw [List.drop_drop, hsum]
    exact (consumePadding_local (paddingSize_le hmod (by omega))).return
  | uint16List =>
    obtain rfl := Option.some.inj hc
    refine Reader.Local.return ?_
    unfold readUInt16List
    split
    · exact Reader.Local.failure _
    rename_i h2
    refine (Reader.Local.times (readNumber_local 16 2) _ _).bind fun a t h => ?_
    obtain ⟨hl, rfl, -⟩ := Reader.times_eq_some (k := 2) (fun l a t h => by
      obtain ⟨h1, -, h2⟩ := readNumber_eq_some.mp h
      exact ⟨h1, h2⟩) h
    have hsum : 2 * (length.toNat / 2) = length.toNat := by omega
    rw [hsum] at hl ⊢
    exact (consumePadding_local (paddingSize_le hmod hl)).return

theorem readAddress_length {addr : SocketAddress} (h : readAddress length buf = some (addr, rest)) :
    rest.length + length.toNat = buf.length := by
  obtain ⟨dummy, b₁, h₁, h⟩ := Reader.bind_eq_some.mp h
  obtain ⟨family, b₂, h₂, h⟩ := Reader.bind_eq_some.mp h
  obtain ⟨port, b₃, h₃, h⟩ := Reader.bind_eq_some.mp h
  obtain ⟨hl₁, -, rfl⟩ := readNumber_eq_some.mp h₁
  obtain ⟨hl₂, -, rfl⟩ := readNumber_eq_some.mp h₂
  obtain ⟨hl₃, -, rfl⟩ := readNumber_eq_some.mp h₃
  split at h
  · split at h
    · cases h
    rename_i hlen
    obtain ⟨a, b₄, h₄, h⟩ := Reader.bind_eq_some.mp h
    obtain ⟨hl₄, -, rfl⟩ := readNumber_eq_some.mp h₄
    obtain ⟨-, rfl⟩ := Prod.mk.inj (Option.some.inj h)
    obtain rfl : length = 8 := by simpa using hlen
    have h8 : (8 : U16).toNat = 8 := rfl
    simp only [List.length_drop] at *
    omega
  split at h
  · split at h
    · cases h
    rename_i hlen
    obtain ⟨a, b₄, h₄, h⟩ := Reader.bind_eq_some.mp h
    obtain ⟨hl₄, -, rfl⟩ := readNumber_eq_some.mp h₄
    obtain ⟨-, rfl⟩ := Prod.mk.inj (Option.some.inj h)
    obtain rfl : length = 20 := by simpa using hlen
    have h20 : (20 : U16).toNat = 20 := rfl
    simp only [List.length_drop] at *
    omega
  · cases h

theorem create_length {value : StunValue}
    (hc : StunValue.create valueType length transactionId = some reader)
    (hid : transactionId.length = kStunTransactionIdLength) (hmod : buf.length % 4 = 0)
    (hr : reader buf = some (value, rest)) :
    rest.length + StunMessage.padded value.length.toNat = buf.length := by
  -- except for the two integers, the length recorded is the one on the wire
  have hspec := (StunMessage.create_spec hc hr).1
  have haddress : ∀ {addr : SocketAddress}, readAddress length buf = some (addr, rest) →
      rest.length + StunMessage.padded length.toNat = buf.length := by
    intro addr h
    obtain ⟨-, -, h4, -⟩ := StunMessage.readAddress_eq_some h
    rw [StunMessage.padded, if_neg (by omega)]
    exact readAddress_length h
  cases valueType with
  | unknown => cases hc
  | address =>
    rw [hspec.mpr trivial]
    obtain rfl := Option.some.inj hc
    obtain ⟨addr, b, h, h'⟩ := Reader.bind_eq_some.mp hr
    obtain ⟨-, rfl⟩ := Prod.mk.inj (Option.some.inj h')
    exact haddress h
  | xorAddress =>
    rw [hspec.mpr fun _ => hid]
    obtain rfl := Option.some.inj hc
    obtain ⟨addr, b, h, h'⟩ := Reader.bind_eq_some.mp hr
    obtain ⟨-, rfl⟩ := Prod.mk.inj (Option.some.inj h')
    obtain ⟨addr', b', h₁, h₂⟩ := Reader.bind_eq_some.mp h
    obtain ⟨-, rfl⟩ := Prod.mk.inj (Option.some.inj h₂)
    exact haddress h₁
  | uint32 =>
    obtain rfl := Option.some.inj hc
    obtain ⟨x, b, h, h'⟩ := Reader.bind_eq_some.mp hr
    obtain ⟨rfl, rfl⟩ := Prod.mk.inj (Option.some.inj h')
    obtain ⟨hl, -, rfl⟩ := readNumber_eq_some.mp h
    have h4 : StunMessage.padded (StunValue.uint32 x).length.toNat = 4 := by
      simp [StunValue.length, StunMessage.padded]
    rw [h4, List.length_drop]
    omega
  | uint64 =>
    obtain rfl := Option.some.inj hc
    obtain ⟨x, b, h, h'⟩ := Reader.bind_eq_some.mp hr
    obtain ⟨rfl, rfl⟩ := Prod.mk.inj (Option.some.inj h')
    obtain ⟨hl, -, rfl⟩ := readNumber_eq_some.mp h
    have h8 : StunMessage.padded (StunValue.uint64 x).length.toNat = 8 := by
      simp [StunValue.length, StunMessage.padded]
    rw [h8, List.length_drop]
    omega
  | byteString =>
    rw [hspec.mpr trivial]
    obtain rfl := Option.some.inj hc
    obtain ⟨bytes, b, h, h'⟩ := Reader.bind_eq_some.mp hr
    obtain ⟨-, rfl⟩ := Prod.mk.inj (Option.some.inj h')
    obtain ⟨-, hl, hpad⟩ := StunMessage.readByteString_eq_some h
    exact consumePadding_length hmod hl hpad
  | errorCode =>
    rw [hspec.mpr trivial]
    obtain rfl := Option.some.inj hc
    obtain ⟨-, hl, hpad⟩ := StunMessage.readErrorCode_eq_some hr
    exact consumePadding_length hmod hl hpad
  | uint16List =>
    rw [hspec.mpr trivial]
    obtain rfl := Option.some.inj hc
    obtain ⟨types, b, h, h'⟩ := Reader.bind_eq_some.mp hr
    obtain ⟨-, rfl⟩ := Prod.mk.inj (Option.some.inj h')
    obtain ⟨-, hl, hpad⟩ := StunMessage.readUInt16List_eq_some h
    exact consumePadding_length hmod hl hpad

namespace StunMessage

variable {c : MessageClass}

/-! ## One round -/

/-- Where in the body the attribute of a visit ends, with its padding. -/
def Visit.stop (v : Visit) : Nat :=
  v.offset + 4 + match v.attr with
    | some a => padded a.value.length.toNat
    | none => (skipLength v.length).toNat

/-- The visits that end at `e` or earlier. -/
def settled (e : Nat) (visits : List Visit) : List Visit := visits.takeWhile fun v => v.stop ≤ e

/-- The visits from the first on that ends behind `e`. -/
def unsettled (e : Nat) (visits : List Visit) : List Visit := visits.dropWhile fun v => v.stop ≤ e

theorem consume_local (size : Nat) (l : List U8) : (consume size).Local l := by
  intro a t h
  obtain ⟨hl, rfl⟩ := consume_eq_some.mp h
  refine ⟨l.take size, (List.take_append_drop _ _).symm, fun rest => ?_⟩
  have hlen : (l.take size).length = size := by rw [List.length_take, Nat.min_eq_left hl]
  rw [consume_eq_some, List.length_append, hlen]
  exact ⟨by omega, (List.drop_left' hlen).symm⟩

/-- One round; it ends at `Visit.stop`. -/
theorem readAttribute_local (hmod : buf.length % 4 = 0) (p : Nat) :
    (readAttribute c transactionId p).Local buf := by
  unfold readAttribute
  refine (readNumber_local 16 2 buf).bind fun type t h => ?_
  obtain ⟨hl₁, -, rfl⟩ := readNumber_eq_some.mp h
  refine (readNumber_local 16 2 _).bind fun length t h => ?_
  obtain ⟨hl₂, -, rfl⟩ := readNumber_eq_some.mp h
  rw [List.length_drop] at hl₂
  rw [List.drop_drop]
  cases hc : StunValue.create (c.getAttributeValueType type) length transactionId with
  | none => exact (consume_local _ _).return
  | some reader => exact (create_local hc (by rw [List.length_drop]; omega)).return

variable {p : Nat} {v : Visit}

theorem readAttribute_stop
    (hid : transactionId.length = kStunTransactionIdLength) (hmod : buf.length % 4 = 0)
    (h : readAttribute c transactionId p buf = some (v, rest)) :
    p + 4 ≤ v.stop ∧ rest.length + (v.stop - p) = buf.length ∧ rest.length % 4 = 0 := by
  obtain ⟨type, b₁, h₁, h⟩ := Reader.bind_eq_some.mp h
  obtain ⟨length, b₂, h₂, h⟩ := Reader.bind_eq_some.mp h
  obtain ⟨hl₁, -, rfl⟩ := readNumber_eq_some.mp h₁
  obtain ⟨hl₂, -, rfl⟩ := readNumber_eq_some.mp h₂
  rw [List.length_drop] at hl₂
  rw [List.drop_drop] at h
  cases hc : StunValue.create (c.getAttributeValueType type) length transactionId with
  | none =>
    simp only [hc] at h
    obtain ⟨u, b₃, h₃, h⟩ := Reader.bind_eq_some.mp h
    obtain ⟨hskip, rfl⟩ := consume_eq_some.mp h₃
    obtain ⟨rfl, rfl⟩ := Prod.mk.inj (Option.some.inj h)
    rw [List.length_drop] at hskip
    have h4 : (skipLength length).toNat % 4 = 0 := by
      rw [skipLength_toNat]
      unfold padded
      split
      · rfl
      · split <;> omega
    simp only [Visit.stop, List.length_drop]
    omega
  | some reader =>
    simp only [hc] at h
    obtain ⟨value, b₃, h₃, h⟩ := Reader.bind_eq_some.mp h
    obtain ⟨rfl, rfl⟩ := Prod.mk.inj (Option.some.inj h)
    have hlen := create_length hc hid (by rw [List.length_drop]; omega) h₃
    have h4 : padded value.length.toNat % 4 = 0 := by
      unfold padded
      split <;> omega
    rw [List.length_drop] at hlen
    simp only [Visit.stop]
    omega

variable {e : Nat}

/-- A visit that ends at `e` or earlier is the same in every buffer that agrees up to there. -/
theorem readAttribute_agree {b₁ b₂ r₁ : List U8}
    (hid : transactionId.length = kStunTransactionIdLength) (hmod : b₁.length % 4 = 0)
    (h : readAttribute c transactionId p b₁ = some (v, r₁)) (hstop : v.stop ≤ e)
    (hagree : b₁.take (e - p) = b₂.take (e - p)) :
    ∃ r₂, readAttribute c transactionId p b₂ = some (v, r₂) ∧
      r₁.take (e - v.stop) = r₂.take (e - v.stop) := by
  obtain ⟨q, rfl, hq⟩ := readAttribute_local hmod p v r₁ h
  obtain ⟨hp, hlen, -⟩ := readAttribute_stop hid hmod h
  rw [List.length_append] at hlen
  have hql : q.length = v.stop - p := by omega
  have hsum : e - p = q.length + (e - v.stop) := by omega
  rw [hsum, List.take_length_add_append] at hagree
  have hb₂ : b₂ = q ++ b₂.drop q.length := by
    have hfront : b₂.take q.length = q := by
      have htake := congrArg (List.take q.length) hagree
      rwa [List.take_left, List.take_take, Nat.min_eq_left (by omega), eq_comm] at htake
    conv_lhs => rw [← List.take_append_drop q.length b₂, hfront]
  rw [hb₂] at hagree ⊢
  refine ⟨_, hq _, ?_⟩
  rw [List.take_length_add_append] at hagree
  exact List.append_cancel_left hagree

/-! ## The loop -/

theorem settled_head {e fuel₁ fuel₂ p : Nat} {b₁ b₂ : List U8} {vs₁ vs₂ : List Visit}
    (hid : transactionId.length = kStunTransactionIdLength) (hm₁ : b₁.length % 4 = 0)
    (hm₂ : b₂.length % 4 = 0) (hagree : b₁.take (e - p) = b₂.take (e - p))
    (h₁ : readAttributes c transactionId fuel₁ p b₁ = some (v :: vs₁)) (hstop : v.stop ≤ e)
    (h₂ : readAttributes c transactionId fuel₂ p b₂ = some vs₂) :
    ∃ k₁ k₂ r₁ r₂ vs', fuel₁ = k₁ + 1 ∧ fuel₂ = k₂ + 1 ∧ vs₂ = v :: vs' ∧
      readAttributes c transactionId k₁ v.stop r₁ = some vs₁ ∧
      readAttributes c transactionId k₂ v.stop r₂ = some vs' ∧ r₁.length % 4 = 0 ∧
      r₂.length % 4 = 0 ∧ r₁.take (e - v.stop) = r₂.take (e - v.stop) := by
  have hne₁ : b₁ ≠ [] := by
    rintro rfl
    cases fuel₁ <;> cases h₁
  obtain ⟨k₁, v₁, r₁, vs, rfl, hv₁, hrest₁, hvs⟩ := readAttributes_ne_nil hne₁ h₁
  obtain ⟨rfl, rfl⟩ := List.cons.inj hvs
  obtain ⟨r₂, hv₂, hr⟩ := readAttribute_agree hid hm₁ hv₁ hstop hagree
  obtain ⟨hp₁, hlen₁, hr₁⟩ := readAttribute_stop hid hm₁ hv₁
  obtain ⟨hp₂, hlen₂, hr₂⟩ := readAttribute_stop hid hm₂ hv₂
  have hne₂ : b₂ ≠ [] := by
    rintro rfl
    rw [List.length_nil] at hlen₂
    omega
  obtain ⟨k₂, v₂, r', vs', rfl, hv', hrest₂, rfl⟩ := readAttributes_ne_nil hne₂ h₂
  obtain ⟨rfl, rfl⟩ := Prod.mk.inj (Option.some.inj (hv₂.symm.trans hv'))
  rw [show p + (b₁.length - r₁.length) = v.stop by omega] at hrest₁
  rw [show p + (b₂.length - r₂.length) = v.stop by omega] at hrest₂
  exact ⟨k₁, k₂, r₁, r₂, vs', rfl, rfl, rfl, hrest₁, hrest₂, hr₁, hr₂, hr⟩

theorem settled_eq_nil {vs : List Visit} :
    settled e vs = [] ↔ ∀ v vs', vs = v :: vs' → ¬ v.stop ≤ e := by
  cases vs with
  | nil => simp [settled]
  | cons v vs =>
    constructor
    · intro h w vs' heq hstop
      obtain ⟨rfl, rfl⟩ := List.cons.inj heq
      simp [settled, hstop] at h
    · intro h
      have hstop := h v vs rfl
      simp [settled, hstop]

/-- **Two bodies that agree up to `e` have the same visits that end at `e` or earlier.** -/
theorem settled_eq (hid : transactionId.length = kStunTransactionIdLength) (e : Nat) :
    ∀ (fuel₁ fuel₂ p : Nat) (b₁ b₂ : List U8) (vs₁ vs₂ : List Visit), b₁.length % 4 = 0 →
      b₂.length % 4 = 0 → b₁.take (e - p) = b₂.take (e - p) →
      readAttributes c transactionId fuel₁ p b₁ = some vs₁ →
      readAttributes c transactionId fuel₂ p b₂ = some vs₂ → settled e vs₁ = settled e vs₂ := by
  intro fuel₁
  induction fuel₁ with
  | zero =>
    intro fuel₂ p b₁ b₂ vs₁ vs₂ hm₁ hm₂ hagree h₁ h₂
    have hnil₁ : settled e vs₁ = [] := settled_eq_nil.mpr fun v vs' hvs hstop => by
      obtain ⟨_, _, _, _, _, hf, -⟩ := settled_head hid hm₁ hm₂ hagree (hvs ▸ h₁) hstop h₂
      exact absurd hf (by omega)
    have hnil₂ : settled e vs₂ = [] := settled_eq_nil.mpr fun v vs' hvs hstop => by
      obtain ⟨_, _, _, _, _, -, hf, -⟩ :=
        settled_head hid hm₂ hm₁ hagree.symm (hvs ▸ h₂) hstop h₁
      exact absurd hf (by omega)
    rw [hnil₁, hnil₂]
  | succ fuel₁ ih =>
    intro fuel₂ p b₁ b₂ vs₁ vs₂ hm₁ hm₂ hagree h₁ h₂
    by_cases hnil : settled e vs₁ = []
    · rw [hnil, eq_comm, settled_eq_nil]
      intro v vs' hvs hstop
      obtain ⟨_, _, _, _, vs'', -, -, rfl, -⟩ :=
        settled_head hid hm₂ hm₁ hagree.symm (hvs ▸ h₂) hstop h₁
      exact settled_eq_nil.mp hnil v vs'' rfl hstop
    · obtain ⟨v, vs, hvs, hstop⟩ : ∃ v vs', vs₁ = v :: vs' ∧ v.stop ≤ e := by
        by_contra h
        exact hnil (settled_eq_nil.mpr fun v vs' hvs hstop => h ⟨v, vs', hvs, hstop⟩)
      subst hvs
      obtain ⟨k₁, k₂, r₁, r₂, vs', hk₁, rfl, rfl, hr₁, hr₂, hmr₁, hmr₂, hr⟩ :=
        settled_head hid hm₁ hm₂ hagree h₁ hstop h₂
      obtain rfl : fuel₁ = k₁ := by omega
      have htail := ih k₂ v.stop r₁ r₂ vs vs' hmr₁ hmr₂ hr hr₁ hr₂
      unfold settled at htail ⊢
      rw [List.takeWhile_cons_of_pos (by simpa using hstop),
        List.takeWhile_cons_of_pos (by simpa using hstop), htail]

end StunMessage

end Libjingle
