import Libjingle.Stun.Message

/-!
# Reading back a written message

`StunValue.round_trip` is the round trip of one attribute: what `Write` appends is as long as
`length()` says, padding included, and what `Create` makes for that length reads it back. The
attributes follow by induction (`writeAttributes_read`); `length_` counts them as `AddAttribute`
adds them (`Built.counts`).

`write_read`: every message built by the public methods is read back as it is.
-/

namespace Libjingle

open Lib ByteBuffer

/-! ## Padding -/

theorem padded_eq (length : U16) :
    StunMessage.padded length.toNat = length.toNat + paddingSize length := by
  unfold StunMessage.padded paddingSize
  split
  · rw [if_pos (by omega)]
  · rw [if_neg (by omega), Nat.add_zero]

theorem writePadding_length (length : U16) : (writePadding length).length = paddingSize length :=
  List.length_replicate

theorem consumePadding_consumes (length : U16) :
    (consumePadding length).Consumes (writePadding length) () := by
  intro rest
  have h : consume (paddingSize length) (writePadding length ++ rest) = some ((), rest) := by
    rw [consume_eq_some, List.length_append, writePadding_length]
    exact ⟨by omega, (List.drop_left' (writePadding_length length)).symm⟩
  unfold consumePadding
  rw [h]
  rfl

/-! ## Addresses -/

variable {addr : SocketAddress}

theorem writeAddress_read (h : addr.family ≠ .undef) : ∃ body, writeAddress addr = some body ∧
      body.length = (StunValue.addressLength addr).toNat ∧
      (readAddress (StunValue.addressLength addr)).Consumes body addr := by
  obtain ⟨ip, port⟩ := addr
  cases ip with
  | unspec => exact absurd rfl h
  | ipv4 a =>
    refine ⟨_, rfl, by simp [writeUInt8, writeUInt16]; rfl, ?_⟩
    simp only [List.append_assoc]
    refine (readUInt8_consumes 0).bind ((readUInt8_consumes 1).bind
      ((readUInt16_consumes port).bind ?_))
    exact (readNumber_consumes (by decide) a).return
  | ipv6 a =>
    refine ⟨_, rfl, by simp [writeUInt8, writeUInt16]; rfl, ?_⟩
    simp only [List.append_assoc]
    refine (readUInt8_consumes 0).bind ((readUInt8_consumes 2).bind
      ((readUInt16_consumes port).bind ?_))
    exact (readNumber_consumes (by decide) a).return

theorem xorPort_xorPort (port : U16) : xorPort (xorPort port) = port := by
  unfold xorPort
  rw [BitVec.xor_assoc, BitVec.xor_self, BitVec.xor_zero]

variable {transactionId : List U8}

theorem xored_family (h : addr.family = .ipv6 → transactionId.length = kStunTransactionIdLength) :
    (xored transactionId addr).family = addr.family := by
  obtain ⟨ip, port⟩ := addr
  cases ip with
  | unspec => rfl
  | ipv4 a => rfl
  | ipv6 a =>
    unfold xored getXoredIP
    simp only [if_pos (h rfl)]
    rfl

theorem xored_xored (h : addr.family = .ipv6 → transactionId.length = kStunTransactionIdLength) :
    xored transactionId (xored transactionId addr) = addr := by
  obtain ⟨ip, port⟩ := addr
  unfold xored
  simp only [xorPort_xorPort]
  congr 1
  cases ip with
  | unspec => rfl
  | ipv4 a =>
    unfold getXoredIP
    simp only
    rw [BitVec.xor_assoc, BitVec.xor_self, BitVec.xor_zero]
  | ipv6 a =>
    unfold getXoredIP
    simp only [if_pos (h rfl)]
    rw [BitVec.xor_assoc, BitVec.xor_self, BitVec.xor_zero]

/-! ## One attribute -/

/-- The number of bytes of a value, which `length()` is when it fits in 16 bits. -/
def StunValue.size : StunValue → Nat
  | .byteString bytes => bytes.length
  | .errorCode _ _ reason => 4 + reason.length
  | .uint16List types => types.length * 2
  | v => v.length.toNat

variable {v : StunValue}

theorem StunValue.length_toNat (h : v.size < 2 ^ 16) : v.length.toNat = v.size := by
  cases v with
  | byteString bytes =>
    unfold size at h
    unfold length size
    rw [BitVec.toNat_ofNat, Nat.mod_eq_of_lt h]
  | errorCode eclass number reason =>
    unfold size at h
    unfold length size
    bv_omega
  | uint16List types =>
    unfold size at h
    unfold length size
    rw [BitVec.toNat_ofNat, Nat.mod_eq_of_lt h]
  | _ => rfl

/-- The values a message with this transaction id can carry: addresses of a defined family, masked
IPv6 addresses with a 12-byte id only, error codes up to 799. -/
def StunValue.Writable (transactionId : List U8) : StunValue → Prop
  | .address addr => addr.family ≠ .undef
  | .xorAddress addr => addr.family ≠ .undef ∧
      (addr.family = .ipv6 → transactionId.length = kStunTransactionIdLength)
  | .errorCode eclass number reason => (errorCode eclass number reason).code ≤ 799
  | _ => True

instance (transactionId : List U8) (v : StunValue) : Decidable (v.Writable transactionId) :=
  match v with
  | .address addr => inferInstanceAs (Decidable (addr.family ≠ .undef))
  | .xorAddress addr => inferInstanceAs (Decidable (addr.family ≠ .undef ∧
      (addr.family = .ipv6 → transactionId.length = kStunTransactionIdLength)))
  | .errorCode eclass number reason =>
    inferInstanceAs (Decidable ((StunValue.errorCode eclass number reason).code ≤ 799))
  | .uint32 _ | .uint64 _ | .byteString _ | .uint16List _ => inferInstanceAs (Decidable True)

theorem errorCode_toNat (eclass number : U8) :
    (eclass.setWidth 32 <<< 8 ||| number.setWidth 32 : U32).toNat =
      eclass.toNat * 2 ^ 8 + number.toNat := by
  have hc := eclass.isLt
  have hn := number.isLt
  rw [BitVec.toNat_or, BitVec.toNat_shiftLeft, BitVec.toNat_setWidth, BitVec.toNat_setWidth,
    Nat.mod_eq_of_lt (a := eclass.toNat) (by omega),
    Nat.mod_eq_of_lt (a := number.toNat) (by omega),
    Nat.mod_eq_of_lt (by rw [Nat.shiftLeft_eq]; omega), ← Nat.shiftLeft_add_eq_or_of_lt hn,
    Nat.shiftLeft_eq]

theorem errorCode_fields {eclass number : U8} (h : eclass.toNat * 100 + number.toNat ≤ 799) :
    ((eclass.setWidth 32 <<< 8 ||| number.setWidth 32 : U32) >>> 8 &&& 0x7).setWidth 8 = eclass ∧
      ((eclass.setWidth 32 <<< 8 ||| number.setWidth 32 : U32) &&& 0xff).setWidth 8 = number := by
  have hval := errorCode_toNat eclass number
  generalize (eclass.setWidth 32 <<< 8 ||| number.setWidth 32 : U32) = val at hval ⊢
  have hn := number.isLt
  constructor
  · apply BitVec.eq_of_toNat_eq
    have h7 : (val >>> 8 &&& 0x7).toNat = val.toNat >>> 8 % 2 ^ 3 := by
      rw [BitVec.toNat_and, BitVec.toNat_ushiftRight]
      exact Nat.and_two_pow_sub_one_eq_mod _ 3
    rw [BitVec.toNat_setWidth, h7, hval, Nat.shiftRight_eq_div_pow]
    omega
  · apply BitVec.eq_of_toNat_eq
    have hff : (val &&& 0xff).toNat = val.toNat % 2 ^ 8 := by
      rw [BitVec.toNat_and]
      exact Nat.and_two_pow_sub_one_eq_mod _ 8
    rw [BitVec.toNat_setWidth, hff, hval]
    omega

/-- **The round trip of one attribute.** -/
theorem StunValue.round_trip (hw : v.Writable transactionId) (hs : v.size < 2 ^ 16) :
    ∃ body reader, v.write transactionId = some body ∧
      body.length = StunMessage.padded v.length.toNat ∧
      create v.valueType v.length transactionId = some reader ∧ reader.Consumes body v := by
  have hlen := length_toNat hs
  rw [padded_eq]
  cases v with
  | address addr =>
    obtain ⟨body, hb, hbl, hr⟩ := writeAddress_read hw
    refine ⟨body, _, hb, ?_, rfl, hr.return⟩
    rw [hbl, length]
    cases hf : addr.family <;> simp [addressLength, hf, paddingSize]
  | xorAddress addr =>
    obtain ⟨hdef, h6⟩ := hw
    have hfam := xored_family h6
    have hlen' : addressLength (xored transactionId addr) = addressLength addr := by
      unfold addressLength
      rw [hfam]
    have hdef' : (xored transactionId addr).family ≠ .undef := by
      rw [hfam]
      exact hdef
    obtain ⟨body, hb, hbl, hr⟩ := writeAddress_read hdef'
    rw [hlen'] at hbl hr
    have hx := hr.return (g := xored transactionId)
    rw [xored_xored h6] at hx
    refine ⟨body, _, hb, ?_, rfl, hx.return⟩
    rw [hbl, length]
    cases hf : addr.family <;> simp [addressLength, hf, paddingSize]
  | uint32 bits =>
    exact ⟨_, _, rfl, by simp [writeUInt32, length, paddingSize], rfl,
      (readUInt32_consumes bits).return⟩
  | uint64 bits =>
    exact ⟨_, _, rfl, by simp [writeUInt64, length, paddingSize], rfl,
      (readUInt64_consumes bits).return⟩
  | byteString bytes =>
    have htake : bytes.take (byteString bytes).length.toNat = bytes := by
      rw [hlen]
      exact List.take_length
    refine ⟨_, _, rfl, ?_, rfl, ?_⟩
    · rw [htake, List.length_append, writePadding_length, hlen]
      rfl
    · rw [htake]
      refine Reader.Consumes.return ?_
      exact (Reader.take_consumes hlen.symm).bind (consumePadding_consumes _).return
  | errorCode eclass number reason =>
    obtain ⟨hc, hn⟩ := errorCode_fields hw
    have hsize : (errorCode eclass number reason).length.toNat = 4 + reason.length := hlen
    refine ⟨_, _, rfl, ?_, rfl, ?_⟩
    · rw [List.length_append, List.length_append, writePadding_length, hlen]
      rfl
    · have h4 : ¬ (errorCode eclass number reason).length < 4 := by bv_omega
      unfold readErrorCode
      rw [if_neg h4, List.append_assoc]
      refine (readUInt32_consumes _).bind ?_
      refine (Reader.take_consumes (by omega)).bind ?_
      have h := (consumePadding_consumes (errorCode eclass number reason).length).return
        (g := fun _ => errorCode eclass number reason)
      simpa only [hc, hn] using h
  | uint16List types =>
    have hsize : (uint16List types).length.toNat = types.length * 2 := hlen
    refine ⟨_, _, rfl, ?_, rfl, ?_⟩
    · rw [List.length_append, writePadding_length, hlen, List.length_flatMap]
      simp [writeUInt16, size]
    · refine Reader.Consumes.return ?_
      unfold readUInt16List
      rw [if_neg (by omega), hsize, Nat.mul_div_cancel _ (by decide)]
      exact (Reader.Consumes.times readUInt16_consumes types).bind
        (consumePadding_consumes _).return

namespace StunMessage

variable {c : MessageClass} {m : StunMessage}

/-! ## The attributes -/

/-- The bytes the attributes take, with their headers. -/
def totalSize (attrs : List StunAttribute) : Nat :=
  (attrs.map fun a => padded a.value.size + 4).sum

theorem le_padded (n : Nat) : n ≤ padded n := by
  unfold padded
  split <;> omega

theorem size_lt_of_mem {attrs : List StunAttribute} {n : Nat} (h : totalSize attrs < n) :
    ∀ a ∈ attrs, a.value.size < n := by
  intro a ha
  obtain ⟨l₁, l₂, rfl⟩ := List.append_of_mem ha
  simp only [totalSize, List.map_append, List.sum_append, List.map_cons, List.sum_cons] at h
  have := le_padded a.value.size
  omega

/-- The loop of `Read` takes one attribute after another. -/
theorem readAttributes_append {transactionId body rest : List U8} {v : Visit} {vs : List Visit}
    {fuel offset : Nat} (h : (readAttribute c transactionId offset).Consumes body v)
    (hpos : 0 < body.length) (hf : body.length + rest.length ≤ fuel + 1)
    (hrest : readAttributes c transactionId fuel (offset + body.length) rest = some vs) :
    readAttributes c transactionId (fuel + 1) offset (body ++ rest) = some (v :: vs) := by
  obtain ⟨b, body', rfl⟩ := List.exists_cons_of_length_pos hpos
  have hone := h rest
  rw [List.cons_append] at hone ⊢
  unfold readAttributes
  rw [hone]
  have hoff : (b :: (body' ++ rest)).length - rest.length = (b :: body').length := by
    simp only [List.length_cons, List.length_append]
    omega
  show (readAttributes c transactionId fuel _ rest).bind _ = _
  rw [hoff, hrest]
  rfl

/-- **The round trip of the attributes.** -/
theorem writeAttributes_read {transactionId : List U8} : ∀ {attrs : List StunAttribute},
    (∀ a ∈ attrs, a.value.valueType = c.getAttributeValueType a.type) →
    (∀ a ∈ attrs, a.value.Writable transactionId) → (∀ a ∈ attrs, a.value.size < 2 ^ 16) →
    ∃ body, writeAttributes transactionId attrs = some body ∧ body.length = totalSize attrs ∧
      ∀ fuel offset, body.length ≤ fuel →
        ∃ visits, readAttributes c transactionId fuel offset body = some visits ∧
          visits.filterMap Visit.attr = attrs
  | [], _, _, _ => ⟨[], rfl, rfl, fun fuel offset _ => ⟨[], by cases fuel <;> rfl, rfl⟩⟩
  | a :: rest, ht, hw, hs => by
    obtain ⟨more, hmore, hlen, hread⟩ := writeAttributes_read
      (fun b (hb : b ∈ rest) => ht b (by simp [hb])) (fun b hb => hw b (by simp [hb]))
      (fun b hb => hs b (by simp [hb]))
    have hsize := hs a (by simp)
    obtain ⟨body, reader, hb, hbl, hcreate, hcons⟩ :=
      StunValue.round_trip (hw a (by simp)) hsize
    rw [ht a (by simp)] at hcreate
    have hlength : (writeUInt16 a.type ++ writeUInt16 a.value.length ++ body).length =
        padded a.value.size + 4 := by
      rw [List.length_append, List.length_append, hbl, StunValue.length_toNat hsize]
      simp only [writeUInt16, toBE_length]
      omega
    refine ⟨writeUInt16 a.type ++ writeUInt16 a.value.length ++ body ++ more, ?_, ?_, ?_⟩
    · simp only [writeAttributes, hb, hmore]
      rfl
    · rw [List.length_append, hlength, hlen]
      simp [totalSize]
    · intro fuel offset hf
      rw [List.length_append] at hf
      obtain ⟨fuel, rfl⟩ : ∃ k, fuel = k + 1 := ⟨fuel - 1, by omega⟩
      obtain ⟨visits, hv, hattrs⟩ := hread fuel
        (offset + (writeUInt16 a.type ++ writeUInt16 a.value.length ++ body).length) (by omega)
      have hone : (readAttribute c transactionId offset).Consumes
          (writeUInt16 a.type ++ writeUInt16 a.value.length ++ body)
          ⟨offset, a.type, a.value.length, some a⟩ := by
        rw [List.append_assoc]
        refine (readUInt16_consumes a.type).bind ((readUInt16_consumes a.value.length).bind ?_)
        simp only [hcreate]
        exact hcons.return
      refine ⟨_, readAttributes_append hone (by omega) (by omega) hv, ?_⟩
      rw [List.filterMap_cons]
      simp only [hattrs]

/-! ## The header -/

/-- The transaction ids a reader takes for what they are: 12 bytes, or 16 bytes that do not start
with the magic cookie. -/
def Readable (id : List U8) : Prop :=
  id.length = kStunTransactionIdLength ∨
    id.length = kStunLegacyTransactionIdLength ∧ id.take 4 ≠ writeUInt32 kStunMagicCookie

theorem type_msb {type : U16} (h : type.toNat < 0x8000) : type &&& 0x8000 = 0 := by
  apply BitVec.eq_of_toNat_eq
  rw [BitVec.toNat_and]
  have h15 : type.toNat &&& 2 ^ 15 = 0 := by
    refine Nat.eq_of_testBit_eq fun i => ?_
    rw [Nat.testBit_and, Nat.testBit_two_pow, Nat.zero_testBit]
    by_cases hi : 15 = i
    · rw [← hi, Nat.testBit_lt_two_pow h, Bool.false_and]
    · rw [decide_eq_false hi, Bool.and_false]
  exact h15

theorem ofBE_magicCookie : ofBE (writeUInt32 kStunMagicCookie) = kStunMagicCookie.toNat := by
  decide

theorem writeHeader_read (ht : m.type.toNat < 0x8000) (hid : Readable m.transactionId) :
    readHeader.Consumes m.writeHeader ⟨m.type, m.length, m.transactionId⟩ ∧
      m.writeHeader.length = 20 := by
  unfold writeHeader isLegacy
  rcases hid with hlen | ⟨hlen, hne⟩
  · rw [if_neg (by rw [hlen]; decide)]
    constructor
    · rw [List.append_assoc, List.append_assoc]
      refine (readUInt16_consumes m.type).bind ?_
      rw [if_neg (by simpa using type_msb ht)]
      refine (readUInt16_consumes m.length).bind ?_
      refine (Reader.take_consumes (toBE_length 4 _)).bind ?_
      have h := (Reader.take_consumes hlen).return (g := fun id => Header.mk m.type m.length
        (if ofBE (writeUInt32 kStunMagicCookie) ≠ kStunMagicCookie.toNat
          then writeUInt32 kStunMagicCookie ++ id else id))
      rwa [if_neg (not_not_intro ofBE_magicCookie)] at h
    · simp only [List.length_append, writeUInt16, writeUInt32, toBE_length, hlen]
      rfl
  · rw [if_pos (by rw [hlen]; decide)]
    have hlen' : m.transactionId.length = 16 := hlen
    have hcookie : ofBE (m.transactionId.take 4) ≠ kStunMagicCookie.toNat := by
      intro h
      apply hne
      rw [← toBE_ofBE (m.transactionId.take 4), h, List.length_take, hlen']
      rfl
    constructor
    · rw [List.append_nil, List.append_assoc, ← List.take_append_drop 4 m.transactionId]
      refine (readUInt16_consumes m.type).bind ?_
      rw [if_neg (by simpa using type_msb ht)]
      refine (readUInt16_consumes m.length).bind ?_
      refine (Reader.take_consumes (by rw [List.length_take, hlen']; rfl)).bind ?_
      have h := (Reader.take_consumes (show (m.transactionId.drop 4).length =
        kStunTransactionIdLength by rw [List.length_drop, hlen']; rfl)).return
        (g := fun id => Header.mk m.type m.length
          (if ofBE (m.transactionId.take 4) ≠ kStunMagicCookie.toNat
            then m.transactionId.take 4 ++ id else id))
      rwa [if_pos hcookie] at h
    · simp only [List.length_append, writeUInt16, toBE_length, hlen, List.length_nil]
      rfl

/-! ## Messages -/

/-- The messages of a class that the public methods build. -/
inductive Built (c : MessageClass) : StunMessage → Prop
  | new : Built c (.new c)
  | setType {m : StunMessage} (type : U16) (h : Built c m) : Built c (m.setType type)
  | setTransactionID {m m' : StunMessage} (id : List U8) (h : Built c m)
      (hid : m.setTransactionID id = some m') : Built c m'
  | addAttribute {m m' : StunMessage} (a : StunAttribute) (h : Built c m)
      (ha : m.addAttribute a = some m') : Built c m'

/-- What holds of every message that is built: its class's tables accept its attributes, and
`length_` counts them. -/
structure Counts (c : MessageClass) (m : StunMessage) : Prop where
  cls : m.cls = c
  valueTypes : ∀ a ∈ m.attrs, a.value.valueType = c.getAttributeValueType a.type
  length : m.length =
    BitVec.ofNat 16 (m.attrs.map fun a => padded a.value.length.toNat + 4).sum

theorem addAttribute_eq_some {m' : StunMessage} {a : StunAttribute} :
    m.addAttribute a = some m' ↔ a.value.valueType = m.cls.getAttributeValueType a.type ∧
      m' = { m with
        attrs := m.attrs ++ [a]
        length := m.length + BitVec.ofNat 16 (padded a.value.length.toNat + 4) } := by
  unfold addAttribute
  split
  · rename_i h
    constructor
    · intro h'
      cases h'
    · rintro ⟨h', -⟩
      exact absurd h' h
  · rename_i h
    constructor
    · intro h'
      exact ⟨by simpa using h, (Option.some.inj h').symm⟩
    · rintro ⟨-, rfl⟩
      rfl

theorem Built.counts (h : Built c m) : Counts c m := by
  induction h with
  | new => exact ⟨rfl, by simp [StunMessage.new], rfl⟩
  | setType type _ ih => exact ⟨ih.cls, ih.valueTypes, ih.length⟩
  | setTransactionID id _ hid ih =>
    unfold StunMessage.setTransactionID at hid
    split at hid
    · cases hid
      exact ⟨ih.cls, ih.valueTypes, ih.length⟩
    · cases hid
  | addAttribute a _ ha ih =>
    obtain ⟨htype, rfl⟩ := addAttribute_eq_some.mp ha
    refine ⟨ih.cls, fun b hb => ?_, ?_⟩
    · rcases List.mem_append.mp hb with hb | hb
      · exact ih.valueTypes b hb
      · obtain rfl := List.mem_singleton.mp hb
        rw [htype, ih.cls]
    · simp only [List.map_append, List.sum_append, List.map_cons, List.map_nil, List.sum_cons,
        List.sum_nil, Nat.add_zero]
      rw [ih.length, ← BitVec.ofNat_add]

theorem Built.addAttributes : ∀ {l : List StunAttribute} {m m' : StunMessage}, Built c m →
    m.addAttributes l = some m' → Built c m'
  | [], m, m', h, hl => by
    obtain rfl := Option.some.inj hl
    exact h
  | a :: l, m, m', h, hl => by
    obtain ⟨m₁, h₁, h₂⟩ := Option.bind_eq_some_iff.mp hl
    exact (h.addAttribute a h₁).addAttributes h₂

/-- `length()` is the size of the attributes. -/
theorem Counts.length_toNat (h : Counts c m) (hs : totalSize m.attrs < 2 ^ 16) :
    m.length.toNat = totalSize m.attrs := by
  have hsum : (m.attrs.map fun a => padded a.value.length.toNat + 4).sum = totalSize m.attrs := by
    unfold totalSize
    congr 1
    refine List.map_congr_left fun a ha => ?_
    rw [StunValue.length_toNat (size_lt_of_mem hs a ha)]
  rw [h.length, hsum, BitVec.toNat_ofNat, Nat.mod_eq_of_lt hs]

/-- **The round trip of a message.** A message of any class that the public methods build, with a
type below `0x8000`, a readable transaction id, values that can be written and a total size below
`2 ^ 16`, is written as 20 bytes and its `length()`, and a fresh message of its class reads the same
message back: type, length, transaction id (and with it the legacy flag) and attributes. -/
theorem write_read (h : Built c m) (ht : m.type.toNat < 0x8000) (hid : Readable m.transactionId)
    (hw : ∀ a ∈ m.attrs, a.value.Writable m.transactionId)
    (hs : totalSize m.attrs < 2 ^ 16) :
    ∃ bytes, m.write = some bytes ∧ bytes.length = 20 + m.length.toNat ∧
      (StunMessage.new c).read bytes = some m := by
  have hc := h.counts
  have hlen := hc.length_toNat hs
  obtain ⟨body, hb, hbl, hread⟩ := writeAttributes_read (c := c) hc.valueTypes hw
    (size_lt_of_mem hs)
  obtain ⟨hhead, h20⟩ := writeHeader_read ht hid
  obtain ⟨visits, hv, hattrs⟩ := hread body.length 0 (le_refl _)
  refine ⟨m.writeHeader ++ body, ?_, ?_, ?_⟩
  · unfold write
    rw [hb]
    rfl
  · rw [List.length_append, h20, hbl, hlen]
  · unfold read parse
    rw [hhead body]
    show Option.map _ (if m.length.toNat ≠ body.length then none else _) = _
    rw [if_neg (by rw [hlen, hbl]; simp)]
    show Option.map _ ((readAttributes c m.transactionId body.length 0 body).bind _) = _
    rw [hv]
    show some _ = some m
    rw [hattrs, ← hc.cls]
    rfl

/-- A message whose attributes take `2 ^ 16` bytes or more is written with a `length()` that has
wrapped, and cannot be read back. -/
theorem write_overlong (h : Built c m) (ht : m.type.toNat < 0x8000) (hid : Readable m.transactionId)
    (hw : ∀ a ∈ m.attrs, a.value.Writable m.transactionId)
    (hs : ∀ a ∈ m.attrs, a.value.size < 2 ^ 16) (hlong : 2 ^ 16 ≤ totalSize m.attrs) :
    ∃ bytes, m.write = some bytes ∧ (StunMessage.new c).read bytes = none := by
  obtain ⟨body, hb, hbl, -⟩ := writeAttributes_read (c := c) h.counts.valueTypes hw hs
  obtain ⟨hhead, -⟩ := writeHeader_read ht hid
  refine ⟨m.writeHeader ++ body, ?_, ?_⟩
  · unfold write
    rw [hb]
    rfl
  · have hne : m.length.toNat ≠ body.length := by
      have hlt := m.length.isLt
      omega
    unfold read parse
    rw [hhead body]
    show Option.map _ (if m.length.toNat ≠ body.length then none else _) = _
    rw [if_pos hne]
    rfl

/-- Attributes of all seven classes. -/
def sampleAttributes : List StunAttribute :=
  [⟨0x0006, .byteString [0x61, 0x62, 0x63, 0x64, 0x65]⟩,
   ⟨0x0001, .address ⟨.ipv4 0x7f000001, 3478⟩⟩,
   ⟨0x0020, .xorAddress ⟨.ipv6 0x20010db8000000000000000000000001, 3478⟩⟩,
   ⟨0x0009, .ofCode 487 [0x52, 0x6f, 0x6c, 0x65]⟩,
   ⟨0x000a, .uint16List [1, 2, 3]⟩,
   ⟨0x0024, .uint32 1862270975⟩,
   ⟨0x8029, .uint64 0x0102030405060708⟩]

/-- An ICE message that carries them. -/
def sampleMessage : StunMessage :=
  ⟨.ice, 0x0111, 92, List.replicate 12 0x41, sampleAttributes⟩

theorem write_read_sample : Built .ice sampleMessage ∧ ∃ bytes, sampleMessage.write = some bytes ∧
    bytes.length = 112 ∧ (StunMessage.new .ice).read bytes = some sampleMessage := by
  have h : Built .ice sampleMessage :=
    Built.addAttributes (l := sampleAttributes)
      (m := ⟨.ice, 0x0111, 0, List.replicate 12 0x41, []⟩)
      ((Built.new.setType 0x0111).setTransactionID (List.replicate 12 0x41) rfl) (by decide)
  exact ⟨h, write_read h (by decide) (Or.inl rfl) (by decide) (by decide)⟩

end StunMessage

end Libjingle
