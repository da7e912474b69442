import Libjingle.Stun.RoundTrip

/-!
# The attributes `Read` visits

`tlvWalk` is the walk RFC 5389 describes: an attribute header at `p` with length `n` is followed by
the next header at `p + 4 + n`, rounded up to a multiple of 4. `Framed` says that `Read` keeps to
it: it visits the same headers, records attributes with the length on the wire, and visits the
positions that `ValidateMessageIntegrity` visits.

* `framed_iff`: `Read` keeps to the walk exactly when every header on it is `Regular`. It does not
  for an integer attribute of another length than its own, for an unknown attribute whose length
  wraps to 0 when it is rounded up, and for a masked IPv6 address in a message without the magic
  cookie.
-/

namespace Libjingle.StunMessage

open Lib ByteBuffer

variable {c : MessageClass} {transactionId body buf rest : List U8}

/-! ## The walk -/

/-- An attribute header: its offset in the body and its two fields. -/
structure Tlv where
  offset : Nat
  type : U16
  length : U16
  deriving DecidableEq

/-- The number in the two bytes at `p`. -/
def uint16At (body : List U8) (p : Nat) : U16 := BitVec.ofNat 16 (ofBE ((body.drop p).take 2))

/-- The attribute headers of the body from `p` on. -/
def tlvWalk (body : List U8) : Nat → Nat → List Tlv
  | 0, _ => []
  | fuel + 1, p =>
    if p + 4 ≤ body.length then
      ⟨p, uint16At body p, uint16At body (p + 2)⟩ ::
        tlvWalk body fuel (p + 4 + padded (uint16At body (p + 2)).toNat)
    else []

def Visit.tlv (v : Visit) : Tlv := ⟨v.offset, v.type, v.length⟩

/-- The visits up to the first MESSAGE-INTEGRITY. -/
def untilIntegrity : List Tlv → List Tlv
  | [] => []
  | h :: rest => if h.type = stunAttrMessageIntegrity then [h] else h :: untilIntegrity rest

def bodyOf (buf : List U8) : List U8 := buf.drop 20

/-- `Read` of `buf` into `m` with these visits keeps to the walk. -/
structure Framed (buf : List U8) (m : StunMessage) (visits : List Visit) : Prop where
  recorded : m.attrs = visits.filterMap Visit.attr
  walk : visits.map Visit.tlv = tlvWalk (bodyOf buf) (bodyOf buf).length 0
  lengths : ∀ v ∈ visits, ∀ a, v.attr = some a → a.value.length = v.length
  integrity : buf.length % 4 = 0 → ∀ mem : Nat → U8,
    integrityWalk (fun i => buf[i]?.getD (mem i)) buf.length buf.length 20 =
      (untilIntegrity (visits.map Visit.tlv)).map fun h => 20 + h.offset

/-- What a header on the walk must be like: the length of an integer is its size, an IPv6 address
is masked only in a message with the magic cookie, and an unknown attribute whose length wraps when
it is rounded up ends the body. -/
def Regular (c : MessageClass) (cookie : Prop) (body : List U8) (h : Tlv) : Prop :=
  match c.getAttributeValueType h.type with
  | .uint32 => h.length = 4
  | .uint64 => h.length = 8
  | .xorAddress => body[h.offset + 5]? = some StunAddressFamily.ipv6.code → cookie
  | .unknown => 65533 ≤ h.length.toNat → h.offset + 4 = body.length
  | _ => True

/-! ## One round -/

/-- What `Create` and `Read` need to record the length on the wire. -/
def Exact (valueType : StunAttributeValueType) (length : U16) (transactionId buf : List U8) :
    Prop :=
  match valueType with
  | .uint32 => length = 4
  | .uint64 => length = 8
  | .xorAddress => buf[1]? = some StunAddressFamily.ipv6.code →
      transactionId.length = kStunTransactionIdLength
  | _ => True

variable {length : U16}

theorem consumePadding_spec (h : consumePadding length (buf.drop length.toNat) = some ((), rest)) :
    rest = buf.drop (padded length.toNat) ∨ 0 < rest.length ∧ rest.length < 4 := by
  obtain rfl := (Prod.mk.inj (Option.some.inj h)).2
  have hpad : padded length.toNat = length.toNat + paddingSize length := padded_eq length
  have hlt : paddingSize length < 4 := by
    unfold paddingSize
    split <;> omega
  unfold consume
  split
  · rename_i hgt
    simp only [Option.elim_none, List.length_drop] at hgt ⊢
    by_cases h0 : buf.length - length.toNat = 0
    · left
      rw [List.drop_eq_nil_of_le (by omega), List.drop_eq_nil_of_le (by omega)]
    · right
      omega
  · left
    rw [hpad, ← List.drop_drop]
    rfl

/-! ### Values with padding -/

theorem readByteString_eq_some {bytes : List U8}
    (h : readByteString length buf = some (bytes, rest)) :
    (StunValue.byteString bytes).length = length ∧ length.toNat ≤ buf.length ∧
      consumePadding length (buf.drop length.toNat) = some ((), rest) := by
  obtain ⟨bytes', b, h₁, h₂⟩ := Reader.bind_eq_some.mp h
  obtain ⟨hl, rfl, rfl⟩ := Reader.take_eq_some.mp h₁
  obtain ⟨u, b', hpad, h₃⟩ := Reader.bind_eq_some.mp h₂
  obtain ⟨rfl, rfl⟩ := Prod.mk.inj (Option.some.inj h₃)
  refine ⟨?_, hl, hpad⟩
  rw [StunValue.length, List.length_take, Nat.min_eq_left hl, BitVec.ofNat_toNat,
    BitVec.setWidth_eq]

variable {value : StunValue}

theorem readErrorCode_eq_some (h : readErrorCode length buf = some (value, rest)) :
    value.length = length ∧ length.toNat ≤ buf.length ∧
      consumePadding length (buf.drop length.toNat) = some ((), rest) := by
  unfold readErrorCode at h
  split at h
  · cases h
  rename_i h4
  obtain ⟨val, b, h₁, h⟩ := Reader.bind_eq_some.mp h
  obtain ⟨hl4, -, rfl⟩ := readNumber_eq_some.mp h₁
  obtain ⟨reason, b', h₂, h⟩ := Reader.bind_eq_some.mp h
  obtain ⟨hl, rfl, rfl⟩ := Reader.take_eq_some.mp h₂
  have hsum : 4 + (length.toNat - 4) = length.toNat := by bv_omega
  rw [List.drop_drop, hsum] at h
  obtain ⟨u, b', hpad, h₃⟩ := Reader.bind_eq_some.mp h
  obtain ⟨rfl, rfl⟩ := Prod.mk.inj (Option.some.inj h₃)
  refine ⟨?_, ?_, hpad⟩
  · rw [StunValue.length, List.length_take, Nat.min_eq_left hl]
    bv_omega
  · rw [List.length_drop] at hl
    omega

theorem readUInt16List_eq_some {types : List U16}
    (h : readUInt16List length buf = some (types, rest)) :
    (StunValue.uint16List types).length = length ∧ length.toNat ≤ buf.length ∧
      consumePadding length (buf.drop length.toNat) = some ((), rest) := by
  unfold readUInt16List at h
  split at h
  · cases h
  rename_i h2
  obtain ⟨types', b, h₁, h₂⟩ := Reader.bind_eq_some.mp h
  obtain ⟨hl, rfl, hcount⟩ := Reader.times_eq_some (k := 2) (fun l a t h => by
    obtain ⟨h1, -, h2⟩ := readNumber_eq_some.mp h
    exact ⟨h1, h2⟩) h₁
  have hsum : 2 * (length.toNat / 2) = length.toNat := by omega
  rw [hsum] at hl h₂
  obtain ⟨u, b', hpad, h₃⟩ := Reader.bind_eq_some.mp h₂
  obtain ⟨rfl, rfl⟩ := Prod.mk.inj (Option.some.inj h₃)
  refine ⟨?_, hl, hpad⟩
  rw [StunValue.length, hcount, Nat.mul_comm, hsum, BitVec.ofNat_toNat, BitVec.setWidth_eq]

theorem readAddress_eq_some {addr : SocketAddress}
    (h : readAddress length buf = some (addr, rest)) :
    rest = buf.drop length.toNat ∧ StunValue.addressLength addr = length ∧
      length.toNat % 4 = 0 ∧
      (addr.family = .ipv6 ↔ buf[1]? = some StunAddressFamily.ipv6.code) := by
  obtain ⟨dummy, b₁, h₁, h⟩ := Reader.bind_eq_some.mp h
  obtain ⟨family, b₂, h₂, h⟩ := Reader.bind_eq_some.mp h
  obtain ⟨port, b₃, h₃, h⟩ := Reader.bind_eq_some.mp h
  obtain ⟨hl₁, -, rfl⟩ := readNumber_eq_some.mp h₁
  obtain ⟨hl₂, hfam, rfl⟩ := readNumber_eq_some.mp h₂
  obtain ⟨-, -, rfl⟩ := readNumber_eq_some.mp h₃
  have hbyte : buf[1]? = some family := by
    rw [List.length_drop] at hl₂
    have h1 : 1 < buf.length := by omega
    have htake : (buf.drop 1).take 1 = [buf[1]] := by
      rw [List.drop_eq_getElem_cons h1, List.take_succ_cons, List.take_zero]
    rw [List.getElem?_eq_getElem h1, hfam, htake]
    simp [ofBE]
  rw [hbyte]
  split at h
  · rename_i hf
    split at h
    · cases h
    rename_i hlen
    obtain ⟨a, b₄, h₄, h⟩ := Reader.bind_eq_some.mp h
    obtain ⟨-, -, rfl⟩ := readNumber_eq_some.mp h₄
    obtain ⟨rfl, rfl⟩ := Prod.mk.inj (Option.some.inj h)
    obtain rfl : length = 8 := by simpa using hlen
    refine ⟨by simp only [List.drop_drop]; rfl, rfl, rfl, ?_⟩
    rw [hf]
    simp [SocketAddress.family, StunAddressFamily.code]
  split at h
  · rename_i hf
    split at h
    · cases h
    rename_i hlen
    obtain ⟨a, b₄, h₄, h⟩ := Reader.bind_eq_some.mp h
    obtain ⟨-, -, rfl⟩ := readNumber_eq_some.mp h₄
    obtain ⟨rfl, rfl⟩ := Prod.mk.inj (Option.some.inj h)
    obtain rfl : length = 20 := by simpa using hlen
    refine ⟨by simp only [List.drop_drop]; rfl, rfl, rfl, ?_⟩
    rw [hf]
    simp [SocketAddress.family]
  · cases h

/-- **What a recorded attribute takes.** Its length is the one on the wire exactly in the cases of
`Exact`, and then it takes that many bytes and their padding, unless the padding is cut short. -/
theorem create_spec {valueType : StunAttributeValueType} {reader : Reader U8 StunValue}
    (hc : StunValue.create valueType length transactionId = some reader)
    (hr : reader buf = some (value, rest)) :
    (value.length = length ↔ Exact valueType length transactionId buf) ∧
      (value.length = length →
        rest = buf.drop (padded length.toNat) ∨ 0 < rest.length ∧ rest.length < 4) := by
  cases valueType with
  | unknown => cases hc
  | address =>
    obtain rfl := Option.some.inj hc
    obtain ⟨addr, b, h, h'⟩ := Reader.bind_eq_some.mp hr
    obtain ⟨rfl, rfl⟩ := Prod.mk.inj (Option.some.inj h')
    obtain ⟨hrest, hlen, h4, -⟩ := readAddress_eq_some h
    refine ⟨⟨fun _ => trivial, fun _ => hlen⟩, fun _ => Or.inl ?_⟩
    rw [hrest, padded, if_neg (by omega)]
  | xorAddress =>
    obtain rfl := Option.some.inj hc
    obtain ⟨addr, b, h, h'⟩ := Reader.bind_eq_some.mp hr
    obtain ⟨rfl, rfl⟩ := Prod.mk.inj (Option.some.inj h')
    obtain ⟨addr', b', h₁, h₂⟩ := Reader.bind_eq_some.mp h
    obtain ⟨rfl, rfl⟩ := Prod.mk.inj (Option.some.inj h₂)
    obtain ⟨hrest, hlen, h4, h6⟩ := readAddress_eq_some h₁
    refine ⟨?_, fun _ => Or.inl (by rw [hrest, padded, if_neg (by omega)])⟩
    show StunValue.addressLength (xored transactionId addr') = length ↔
      (buf[1]? = some StunAddressFamily.ipv6.code → _)
    rw [← h6]
    constructor
    · -- without a mask the address is undefined, and its length 0
      intro hx hfam
      by_contra hid
      obtain ⟨ip, port⟩ := addr'
      cases ip with
      | unspec => cases hfam
      | ipv4 a => cases hfam
      | ipv6 a =>
        simp only [xored, getXoredIP, if_neg hid] at hx
        rw [← hlen] at hx
        exact absurd hx (by simp [StunValue.addressLength, SocketAddress.family])
    · intro hid
      unfold StunValue.addressLength at hlen ⊢
      rw [xored_family hid]
      exact hlen
  | uint32 =>
    obtain rfl := Option.some.inj hc
    obtain ⟨x, b, h, h'⟩ := Reader.bind_eq_some.mp hr
    obtain ⟨rfl, rfl⟩ := Prod.mk.inj (Option.some.inj h')
    obtain ⟨-, -, rfl⟩ := readNumber_eq_some.mp h
    refine ⟨⟨Eq.symm, Eq.symm⟩, fun hl => Or.inl ?_⟩
    rw [← hl]
    simp [padded, StunValue.length]
  | uint64 =>
    obtain rfl := Option.some.inj hc
    obtain ⟨x, b, h, h'⟩ := Reader.bind_eq_some.mp hr
    obtain ⟨rfl, rfl⟩ := Prod.mk.inj (Option.some.inj h')
    obtain ⟨-, -, rfl⟩ := readNumber_eq_some.mp h
    refine ⟨⟨Eq.symm, Eq.symm⟩, fun hl => Or.inl ?_⟩
    rw [← hl]
    simp [padded, StunValue.length]
  | byteString =>
    obtain rfl := Option.some.inj hc
    obtain ⟨bytes, b, h, h'⟩ := Reader.bind_eq_some.mp hr
    obtain ⟨rfl, rfl⟩ := Prod.mk.inj (Option.some.inj h')
    obtain ⟨hlen, -, hpad⟩ := readByteString_eq_some h
    exact ⟨⟨fun _ => trivial, fun _ => hlen⟩, fun _ => consumePadding_spec hpad⟩
  | errorCode =>
    obtain rfl := Option.some.inj hc
    obtain ⟨hlen, -, hpad⟩ := readErrorCode_eq_some hr
    exact ⟨⟨fun _ => trivial, fun _ => hlen⟩, fun _ => consumePadding_spec hpad⟩
  | uint16List =>
    obtain rfl := Option.some.inj hc
    obtain ⟨types, b, h, h'⟩ := Reader.bind_eq_some.mp hr
    obtain ⟨rfl, rfl⟩ := Prod.mk.inj (Option.some.inj h')
    obtain ⟨hlen, -, hpad⟩ := readUInt16List_eq_some h
    exact ⟨⟨fun _ => trivial, fun _ => hlen⟩, fun _ => consumePadding_spec hpad⟩

/-- **What one round takes.** -/
theorem readAttribute_spec {p : Nat} {v : Visit}
    (h : readAttribute c transactionId p buf = some (v, rest)) :
    4 ≤ buf.length ∧ v.tlv = ⟨p, uint16At buf 0, uint16At buf 2⟩ ∧
      (c.getAttributeValueType v.type = .unknown ∧ v.attr = none ∧
          (skipLength v.length).toNat ≤ (buf.drop 4).length ∧
          rest = (buf.drop 4).drop (skipLength v.length).toNat ∨
        c.getAttributeValueType v.type ≠ .unknown ∧ ∃ value, v.attr = some ⟨v.type, value⟩ ∧
          (value.length = v.length ↔
            Exact (c.getAttributeValueType v.type) v.length transactionId (buf.drop 4)) ∧
          (value.length = v.length → rest = (buf.drop 4).drop (padded v.length.toNat) ∨
            0 < rest.length ∧ rest.length < 4)) := by
  obtain ⟨type, b₁, h₁, h⟩ := Reader.bind_eq_some.mp h
  obtain ⟨length, b₂, h₂, h⟩ := Reader.bind_eq_some.mp h
  obtain ⟨hl₁, htype, rfl⟩ := readNumber_eq_some.mp h₁
  obtain ⟨hl₂, hlen, rfl⟩ := readNumber_eq_some.mp h₂
  rw [List.length_drop] at hl₂
  rw [List.drop_drop] at h
  refine ⟨by omega, ?_⟩
  cases hc : StunValue.create (c.getAttributeValueType type) length transactionId with
  | none =>
    simp only [hc] at h
    obtain ⟨u, b₃, h₃, h⟩ := Reader.bind_eq_some.mp h
    obtain ⟨hskip, rfl⟩ := consume_eq_some.mp h₃
    obtain ⟨rfl, rfl⟩ := Prod.mk.inj (Option.some.inj h)
    refine ⟨by rw [Visit.tlv, htype, hlen]; rfl, Or.inl ⟨?_, rfl, hskip, rfl⟩⟩
    cases hv : c.getAttributeValueType type <;> simp [StunValue.create, hv] at hc ⊢
  | some reader =>
    simp only [hc] at h
    obtain ⟨value, b₃, h₃, h⟩ := Reader.bind_eq_some.mp h
    obtain ⟨rfl, rfl⟩ := Prod.mk.inj (Option.some.inj h)
    refine ⟨by rw [Visit.tlv, htype, hlen]; rfl,
      Or.inr ⟨fun hu => ?_, value, rfl, create_spec hc h₃⟩⟩
    simp only at hu
    rw [hu] at hc
    cases hc

theorem skipLength_toNat (n : U16) :
    (skipLength n).toNat = if 65533 ≤ n.toNat then 0 else padded n.toNat := by
  unfold skipLength padded
  have hn := n.isLt
  have hmod : (n % 4).toNat = n.toNat % 4 := rfl
  split
  · rename_i h
    have h' : n.toNat % 4 ≠ 0 := fun h0 => h (BitVec.eq_of_toNat_eq (hmod.trans h0))
    rw [if_pos h']
    generalize n % 4 = r at hmod
    split <;> bv_omega
  · rename_i h
    have h' : n.toNat % 4 = 0 := by
      have := congrArg BitVec.toNat (not_not.mp h)
      rwa [hmod] at this
    rw [if_neg (by omega), if_neg (by omega)]

/-! ## The loop -/

/-- The lengths recorded are those on the wire. -/
def Recorded (visits : List Visit) : Prop :=
  ∀ v ∈ visits, ∀ a, v.attr = some a → a.value.length = v.length

variable {visits : List Visit}

theorem recorded_cons {v : Visit} :
    Recorded (v :: visits) ↔ (∀ a, v.attr = some a → a.value.length = v.length) ∧
      Recorded visits := List.forall_mem_cons

theorem readAttributes_nil (fuel p : Nat) : readAttributes c transactionId fuel p [] = some [] := by
  cases fuel <;> rfl

theorem readAttributes_ne_nil {fuel p : Nat} (hne : buf ≠ [])
    (h : readAttributes c transactionId fuel p buf = some visits) :
    ∃ k v rest more, fuel = k + 1 ∧ readAttribute c transactionId p buf = some (v, rest) ∧
      readAttributes c transactionId k (p + (buf.length - rest.length)) rest = some more ∧
      visits = v :: more := by
  obtain ⟨b, buf, rfl⟩ := List.exists_cons_of_ne_nil hne
  cases fuel with
  | zero => cases h
  | succ k =>
    obtain ⟨⟨v, rest⟩, h₁, h⟩ := Option.bind_eq_some_iff.mp h
    obtain ⟨more, h₂, h⟩ := Option.bind_eq_some_iff.mp h
    exact ⟨k, v, rest, more, rfl, h₁, h₂, (Option.some.inj h).symm⟩

theorem tlvWalk_end {fuel p : Nat} (h : body.length < p + 4) : tlvWalk body fuel p = [] := by
  cases fuel with
  | zero => rfl
  | succ k => rw [tlvWalk, if_neg (by omega)]

theorem uint16At_drop (p q : Nat) : uint16At (body.drop p) q = uint16At body (p + q) := by
  unfold uint16At
  rw [List.drop_drop]

theorem readAttributes_eq_nil {fuel p : Nat}
    (h : readAttributes c transactionId fuel p buf = some visits) : visits = [] ↔ buf = [] := by
  constructor
  · rintro rfl
    by_contra hne
    obtain ⟨_, _, _, _, -, -, -, hcons⟩ := readAttributes_ne_nil hne h
    cases hcons
  · rintro rfl
    rw [readAttributes_nil] at h
    exact (Option.some.inj h).symm

/-- The visits from `p` on keep to the walk exactly when every header on it is regular. -/
def FramedFrom (c : MessageClass) (cookie : Prop) (body : List U8) (fuel p : Nat)
    (visits : List Visit) : Prop :=
  visits.map Visit.tlv = tlvWalk body fuel p ∧ Recorded visits ↔
    ∀ h ∈ tlvWalk body fuel p, Regular c cookie body h

section

variable {cookie : Prop} {fuel p : Nat} {v : Visit} {more : List Visit}

theorem framedFrom_of_end (h : tlvWalk body fuel p = []) : FramedFrom c cookie body fuel p [] := by
  rw [FramedFrom, h]
  exact ⟨fun _ => List.forall_mem_nil _, fun _ => ⟨rfl, List.forall_mem_nil _⟩⟩

theorem tlvWalk_cons (h4 : p + 4 ≤ body.length)
    (htlv : v.tlv = ⟨p, uint16At body p, uint16At body (p + 2)⟩) :
    tlvWalk body (fuel + 1) p = v.tlv :: tlvWalk body fuel (p + 4 + padded v.length.toNat) := by
  have hlen : uint16At body (p + 2) = v.length := (congrArg Tlv.length htlv).symm
  rw [tlvWalk, if_pos h4, ← htlv, hlen]

theorem framedFrom_cons
    (hwalk : tlvWalk body (fuel + 1) p =
      v.tlv :: tlvWalk body fuel (p + 4 + padded v.length.toNat))
    (hregular : Regular c cookie body v.tlv ↔ ∀ a, v.attr = some a → a.value.length = v.length)
    (hmore : FramedFrom c cookie body fuel (p + 4 + padded v.length.toNat) more) :
    FramedFrom c cookie body (fuel + 1) p (v :: more) := by
  rw [FramedFrom] at hmore ⊢
  rw [hwalk, List.map_cons, List.cons.injEq, recorded_cons, List.forall_mem_cons, hregular, ← hmore]
  constructor
  · rintro ⟨⟨-, hm⟩, hrecorded, hr⟩
    exact ⟨hrecorded, hm, hr⟩
  · rintro ⟨hrecorded, hm, hr⟩
    exact ⟨⟨rfl, hm⟩, hrecorded, hr⟩

theorem framedFrom_wrapped
    (hwalk : tlvWalk body (fuel + 1) p =
      v.tlv :: tlvWalk body fuel (p + 4 + padded v.length.toNat))
    (hregular : Regular c cookie body v.tlv ↔ more = []) (hattr : v.attr = none)
    (hfar : body.length < p + 4 + padded v.length.toNat + 4) :
    FramedFrom c cookie body (fuel + 1) p (v :: more) := by
  have hnone : ∀ a, v.attr = some a → a.value.length = v.length := by
    intro a ha
    rw [hattr] at ha
    cases ha
  rw [FramedFrom, hwalk, tlvWalk_end hfar, List.map_cons, List.cons.injEq, recorded_cons,
    List.forall_mem_singleton, hregular]
  constructor
  · rintro ⟨⟨-, hm⟩, -, -⟩
    exact List.map_eq_nil_iff.mp hm
  · rintro rfl
    exact ⟨⟨rfl, rfl⟩, hnone, List.forall_mem_nil _⟩

theorem regular_of_unknown (hu : c.getAttributeValueType v.type = .unknown)
    (hoff : v.tlv.offset = p) :
    Regular c cookie body v.tlv ↔ (65533 ≤ v.length.toNat → p + 4 = body.length) := by
  unfold Regular
  simp only [show v.tlv.type = v.type from rfl, hu, hoff]
  rfl

theorem regular_of_known (hid : transactionId.length = kStunTransactionIdLength ↔ cookie)
    (hu : c.getAttributeValueType v.type ≠ .unknown) (hoff : v.tlv.offset = p) :
    Regular c cookie body v.tlv ↔
      Exact (c.getAttributeValueType v.type) v.length transactionId ((body.drop p).drop 4) := by
  unfold Regular Exact
  rw [show v.tlv.type = v.type from rfl, show v.tlv.length = v.length from rfl, hoff]
  have hbyte : ((body.drop p).drop 4)[1]? = body[p + 5]? := by
    rw [List.drop_drop, List.getElem?_drop]
  cases hv : c.getAttributeValueType v.type with
  | unknown => exact absurd hv hu
  | xorAddress => rw [hbyte, hid]
  | _ => exact Iff.rfl

theorem framedFrom_of_length_ne
    (hwalk : tlvWalk body (fuel + 1) p =
      v.tlv :: tlvWalk body fuel (p + 4 + padded v.length.toNat))
    (hregular : ¬ Regular c cookie body v.tlv) {a : StunAttribute} (hattr : v.attr = some a)
    (hlen : a.value.length ≠ v.length) : FramedFrom c cookie body (fuel + 1) p (v :: more) := by
  rw [FramedFrom, hwalk, recorded_cons, List.forall_mem_cons]
  constructor
  · rintro ⟨-, hrec, -⟩
    exact absurd (hrec a hattr) hlen
  · rintro ⟨h, -⟩
    exact absurd h hregular

end

/-- **The loop keeps to the walk exactly when every header on it is regular.** -/
theorem readAttributes_framed {cookie : Prop}
    (hid : transactionId.length = kStunTransactionIdLength ↔ cookie) (hmax : body.length < 2 ^ 16)
    {fuel p : Nat} (hp : p ≤ body.length)
    (h : readAttributes c transactionId fuel p (body.drop p) = some visits) :
    FramedFrom c cookie body fuel p visits := by
  induction fuel generalizing p visits with
  | zero =>
    by_cases hnil : body.drop p = []
    · obtain rfl := (readAttributes_eq_nil h).mpr hnil
      exact framedFrom_of_end rfl
    · obtain ⟨k, _, _, _, hk, -⟩ := readAttributes_ne_nil hnil h
      cases hk
  | succ k ih =>
    by_cases hnil : body.drop p = []
    · obtain rfl := (readAttributes_eq_nil h).mpr hnil
      have hend : body.length ≤ p := List.drop_eq_nil_iff.mp hnil
      exact framedFrom_of_end (tlvWalk_end (by omega))
    obtain ⟨k', v, rest, more, hk, hone, hmore, rfl⟩ := readAttributes_ne_nil hnil h
    obtain rfl : k = k' := by omega
    obtain ⟨h4, htlv, hcases⟩ := readAttribute_spec hone
    rw [List.length_drop] at h4 hmore
    rw [uint16At_drop, uint16At_drop, Nat.add_zero] at htlv
    have hwalk := @tlvWalk_cons body k p v (by omega) htlv
    have hoff : v.tlv.offset = p := congrArg Tlv.offset htlv
    -- what is behind a round that takes what the walk skips
    have htail : rest = (body.drop p).drop (4 + padded v.length.toNat) →
        FramedFrom c cookie body k (p + 4 + padded v.length.toNat) more := by
      intro hrest
      rw [List.drop_drop, ← Nat.add_assoc] at hrest
      by_cases hle : p + 4 + padded v.length.toNat ≤ body.length
      · have hlen : rest.length = body.length - (p + 4 + padded v.length.toNat) := by
          rw [hrest, List.length_drop]
        rw [show p + (body.length - p - rest.length) = p + 4 + padded v.length.toNat by omega,
          hrest] at hmore
        exact ih hle hmore
      · rw [List.drop_eq_nil_of_le (by omega)] at hrest
        obtain rfl := (readAttributes_eq_nil hmore).mpr hrest
        exact framedFrom_of_end (tlvWalk_end (by omega))
    rcases hcases with ⟨hu, hattr, hskip, hrest⟩ | ⟨hu, value, hattr, hexact, htake⟩
    · have hregular := @regular_of_unknown c body cookie p v hu hoff
      rw [skipLength_toNat] at hrest hskip
      by_cases hbig : 65533 ≤ v.length.toNat
      · rw [if_pos hbig, List.drop_zero, List.drop_drop] at hrest
        have hfar : body.length < p + 4 + padded v.length.toNat + 4 := by
          have := le_padded v.length.toNat
          unfold padded
          split <;> omega
        refine framedFrom_wrapped hwalk ?_ hattr hfar
        rw [hregular, readAttributes_eq_nil hmore, hrest, List.drop_eq_nil_iff]
        exact ⟨fun hend => (hend hbig).ge, fun hle _ => by omega⟩
      · rw [if_neg hbig] at hrest
        refine framedFrom_cons hwalk ?_ (htail (by rw [hrest, List.drop_drop]))
        rw [hregular, hattr]
        exact ⟨fun _ a ha => absurd ha (Option.some_ne_none a).symm, fun _ h => absurd h hbig⟩
    · have hregular : Regular c cookie body v.tlv ↔ value.length = v.length := by
        rw [regular_of_known hid hu hoff, hexact]
      by_cases hlen : value.length = v.length
      · rcases htake hlen with hrest | ⟨hpos, hlt⟩
        · refine framedFrom_cons hwalk ?_ (htail (by rw [hrest, List.drop_drop]))
          rw [hregular, hattr]
          exact ⟨fun _ a ha => Option.some.inj ha ▸ hlen, fun _ => hlen⟩
        · -- fewer than four bytes are left, and another round fails
          obtain ⟨_, _, _, _, -, hlast, -⟩ :=
            readAttributes_ne_nil (List.ne_nil_of_length_pos hpos) hmore
          have := (readAttribute_spec hlast).1
          omega
      · exact framedFrom_of_length_ne hwalk (fun h => hlen (hregular.mp h)) hattr hlen

/-! ## The walk of `ValidateMessageIntegrity` -/

theorem uint16At_toNat {p : Nat} (h : p + 2 ≤ body.length) :
    (uint16At body p).toNat = ofBE ((body.drop p).take 2) := by
  have hlt := ofBE_lt ((body.drop p).take 2)
  have hlen : ((body.drop p).take 2).length = 2 := by
    rw [List.length_take, List.length_drop]
    omega
  rw [hlen] at hlt
  unfold uint16At
  rw [BitVec.toNat_ofNat]
  exact Nat.mod_eq_of_lt hlt

theorem fetch_uint16At (mem : Nat → U8) {q : Nat} (h : q + 2 ≤ buf.length) :
    ofBE (fetch (fun i => buf[q + i]?.getD (mem (q + i))) 2) = (uint16At buf q).toNat := by
  rw [uint16At_toNat h]
  congr 1
  refine fetch_eq_of_getElem? ?_ fun i hi => ?_
  · rw [List.length_take, List.length_drop]
    omega
  · rw [List.getElem?_take_of_lt hi, List.getElem?_drop, List.getElem?_eq_getElem (by omega)]
    rfl

theorem integrityWalk_eq (mem : Nat → U8) (h20 : 20 ≤ buf.length) (h4 : buf.length % 4 = 0) :
    ∀ {f g p : Nat}, p % 4 = 0 → (bodyOf buf).length ≤ p + f → (bodyOf buf).length ≤ p + g →
      integrityWalk (fun i => buf[i]?.getD (mem i)) buf.length f (20 + p) =
        (untilIntegrity (tlvWalk (bodyOf buf) g p)).map fun h => 20 + h.offset := by
  have hbody : (bodyOf buf).length = buf.length - 20 := List.length_drop
  intro f
  induction f with
  | zero =>
    intro g p _ hf _
    rw [tlvWalk_end (by omega)]
    rfl
  | succ f ih =>
    intro g p hp hf hg
    unfold integrityWalk
    by_cases hlt : 20 + p < buf.length
    · obtain ⟨g, rfl⟩ : ∃ k, g = k + 1 := ⟨g - 1, by omega⟩
      have hat : ∀ q, uint16At (bodyOf buf) q = uint16At buf (20 + q) :=
        fun q => uint16At_drop 20 q
      simp only [if_pos hlt]
      rw [tlvWalk, if_pos (show p + 4 ≤ (bodyOf buf).length by omega), hat, hat,
        fetch_uint16At mem (by omega), fetch_uint16At mem (by omega)]
      simp only [untilIntegrity, BitVec.toNat_inj, ← Nat.add_assoc]
      split
      · rfl
      · rw [List.map_cons]
        congr 1
        have hpad : padded (uint16At buf (20 + p + 2)).toNat % 4 = 0 := by
          unfold padded
          split <;> omega
        rw [show 20 + p + 4 + padded (uint16At buf (20 + p + 2)).toNat =
          20 + (p + 4 + padded (uint16At buf (20 + p + 2)).toNat) by omega]
        exact ih (by omega) (by omega) (by omega)
    · rw [if_neg hlt, tlvWalk_end (by omega)]
      rfl

/-! ## Messages -/

/-- The buffer has the magic cookie. -/
def HasCookie (buf : List U8) : Prop := (buf.drop 4).take 4 = writeUInt32 kStunMagicCookie

theorem readHeader_eq_some {h : Header} (hr : readHeader buf = some (h, rest)) :
    20 ≤ buf.length ∧ rest = bodyOf buf ∧ uint16At buf 0 &&& 0x8000 = 0 ∧
      h.type = uint16At buf 0 ∧ h.length = uint16At buf 2 ∧
      (h.transactionId.length = kStunTransactionIdLength ↔ HasCookie buf) := by
  obtain ⟨type, b₁, h₁, hr⟩ := Reader.bind_eq_some.mp hr
  obtain ⟨hl₁, htype, rfl⟩ := readNumber_eq_some.mp h₁
  split at hr
  · cases hr
  rename_i hmsb
  obtain ⟨length, b₂, h₂, hr⟩ := Reader.bind_eq_some.mp hr
  obtain ⟨hl₂, hlen, rfl⟩ := readNumber_eq_some.mp h₂
  obtain ⟨cookie, b₃, h₃, hr⟩ := Reader.bind_eq_some.mp hr
  obtain ⟨hl₃, hcookie, rfl⟩ := Reader.take_eq_some.mp h₃
  obtain ⟨id, b₄, h₄, hr⟩ := Reader.bind_eq_some.mp hr
  obtain ⟨hl₄, hid, rfl⟩ := Reader.take_eq_some.mp h₄
  obtain ⟨rfl, rfl⟩ := Prod.mk.inj (Option.some.inj hr)
  simp only [List.drop_drop, List.length_drop, kStunTransactionIdLength] at hl₂ hl₃ hl₄ hcookie hid
  refine ⟨by omega, by simp only [List.drop_drop]; rfl, ?_, htype, hlen, ?_⟩
  · rw [show uint16At buf 0 = type from htype.symm]
    simpa using hmsb
  · have hclen : cookie.length = 4 := by
      rw [hcookie, List.length_take, List.length_drop]
      omega
    have hilen : id.length = 12 := by
      rw [hid, List.length_take, List.length_drop]
      omega
    have hiff : ofBE cookie = kStunMagicCookie.toNat ↔ HasCookie buf := by
      unfold HasCookie
      rw [← hcookie]
      constructor
      · intro h
        rw [← toBE_ofBE cookie, hclen, h]
        rfl
      · intro h
        rw [h]
        exact ofBE_magicCookie
    rw [← hiff]
    simp only
    split
    · rename_i hne
      rw [List.length_append, hclen, hilen]
      exact ⟨fun h => absurd h (by decide), fun h => absurd h hne⟩
    · rename_i he
      exact ⟨fun _ => not_not.mp he, fun _ => hilen⟩

variable {m m' : StunMessage}

theorem parse_eq_some (h : m.parse buf = some (m', visits)) :
    ∃ hd, readHeader buf = some (hd, bodyOf buf) ∧ hd.length.toNat = (bodyOf buf).length ∧
      readAttributes m.cls hd.transactionId (bodyOf buf).length 0 (bodyOf buf) = some visits ∧
      m' = ⟨m.cls, hd.type, hd.length, hd.transactionId, visits.filterMap Visit.attr⟩ := by
  obtain ⟨⟨hd, body⟩, h₁, h⟩ := Option.bind_eq_some_iff.mp h
  obtain ⟨-, rfl, -⟩ := readHeader_eq_some h₁
  simp only at h
  split at h
  · cases h
  rename_i hlen
  obtain ⟨vs, h₂, h⟩ := Option.bind_eq_some_iff.mp h
  obtain ⟨rfl, rfl⟩ := Prod.mk.inj (Option.some.inj h)
  exact ⟨hd, h₁, by simpa using hlen, h₂, rfl⟩

theorem read_transactionId (h : m.read buf = some m')
    (hid : m'.transactionId.length = kStunTransactionIdLength) :
    m'.transactionId = (buf.drop 8).take kStunTransactionIdLength := by
  obtain ⟨⟨m', visits⟩, hparse, rfl⟩ := Option.map_eq_some_iff.mp h
  obtain ⟨hd, hhead, -, -, rfl⟩ := parse_eq_some hparse
  obtain ⟨type, b₁, h₁, hr⟩ := Reader.bind_eq_some.mp hhead
  obtain ⟨-, -, rfl⟩ := readNumber_eq_some.mp h₁
  split at hr
  · cases hr
  obtain ⟨length, b₂, h₂, hr⟩ := Reader.bind_eq_some.mp hr
  obtain ⟨-, -, rfl⟩ := readNumber_eq_some.mp h₂
  obtain ⟨cookie, b₃, h₃, hr⟩ := Reader.bind_eq_some.mp hr
  obtain ⟨hl₃, hcookie, rfl⟩ := Reader.take_eq_some.mp h₃
  obtain ⟨id, b₄, h₄, hr⟩ := Reader.bind_eq_some.mp hr
  obtain ⟨hl₄, rfl, rfl⟩ := Reader.take_eq_some.mp h₄
  obtain ⟨rfl, -⟩ := Prod.mk.inj (Option.some.inj hr)
  simp only at hid ⊢
  split
  · -- with the cookie in front the id has 16 bytes
    rename_i hne
    rw [if_pos hne, hcookie] at hid
    simp only [List.length_append, List.length_take, List.length_drop,
      kStunTransactionIdLength] at hid hl₃ hl₄
    omega
  · simp only [List.drop_drop]

/-- **`Read` keeps to the walk of RFC 5389 exactly when every header on the walk is regular.** -/
theorem framed_iff {m m' : StunMessage} {visits : List Visit}
    (h : m.parse buf = some (m', visits)) :
    Framed buf m' visits ↔ ∀ t ∈ tlvWalk (bodyOf buf) (bodyOf buf).length 0,
      Regular m.cls (HasCookie buf) (bodyOf buf) t := by
  obtain ⟨hd, hhead, hlen, hread, rfl⟩ := parse_eq_some h
  obtain ⟨h20, -, -, -, -, hid⟩ := readHeader_eq_some hhead
  have hmax : (bodyOf buf).length < 2 ^ 16 := hlen ▸ hd.length.isLt
  have hiff := readAttributes_framed (c := m.cls) hid hmax (Nat.zero_le _)
    (by rw [List.drop_zero]; exact hread)
  constructor
  · intro hf
    exact hiff.mp ⟨hf.walk, hf.lengths⟩
  · intro hall
    obtain ⟨hwalk, hrec⟩ := hiff.mpr hall
    refine ⟨rfl, hwalk, hrec, fun h4 mem => ?_⟩
    have hbody : (bodyOf buf).length = buf.length - 20 := List.length_drop
    rw [hwalk, ← integrityWalk_eq mem h20 h4 (f := buf.length) rfl (by omega) (by omega)]

/-- A message with USERNAME of five bytes and FINGERPRINT. -/
def regularBuffer : List U8 :=
  [0x00, 0x01, 0x00, 0x14, 0x21, 0x12, 0xA4, 0x42] ++ List.replicate 12 0x41 ++
    [0x00, 0x06, 0x00, 0x05, 0x61, 0x62, 0x63, 0x64, 0x65, 0x00, 0x00, 0x00] ++
    [0x80, 0x28, 0x00, 0x04, 0x01, 0x02, 0x03, 0x04]

theorem framed_iff_regularBuffer : ∃ m' visits,
    (StunMessage.new .stun).parse regularBuffer = some (m', visits) ∧
      Framed regularBuffer m' visits := by
  obtain ⟨⟨m', visits⟩, h⟩ := Option.isSome_iff_exists.mp
    (show ((StunMessage.new .stun).parse regularBuffer).isSome by decide)
  refine ⟨m', visits, h, (framed_iff h).mpr ?_⟩
  have hwalk : tlvWalk (bodyOf regularBuffer) (bodyOf regularBuffer).length 0 =
      [⟨0, 0x0006, 5⟩, ⟨12, 0x8028, 4⟩] := by decide
  rw [hwalk]
  intro t ht
  simp only [List.mem_cons, List.not_mem_nil, or_false] at ht
  rcases ht with rfl | rfl
  · trivial
  · rfl

/-- FINGERPRINT with length 0, and an empty USERNAME behind it. -/
def hidingBuffer : List U8 :=
  [0x00, 0x01, 0x00, 0x08, 0x21, 0x12, 0xA4, 0x42] ++ List.replicate 12 0x41 ++
    [0x80, 0x28, 0x00, 0x00] ++ [0x00, 0x06, 0x00, 0x00]

/-- **An integer attribute takes its bytes whatever its length is.** The header behind a FINGERPRINT
of length 0 is read as its value, and never visited. -/
theorem fingerprint_hides_attribute : ∃ m' visits,
    (StunMessage.new .stun).parse hidingBuffer = some (m', visits) ∧
      ¬ Framed hidingBuffer m' visits := by
  refine ⟨⟨.stun, 1, 8, List.replicate 12 0x41, [⟨0x8028, .uint32 0x00060000⟩]⟩,
    [⟨0, 0x8028, 0, some ⟨0x8028, .uint32 0x00060000⟩⟩], by decide, fun h => ?_⟩
  exact absurd h.walk (by decide)

end Libjingle.StunMessage
