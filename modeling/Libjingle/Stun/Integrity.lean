import Libjingle.Base.Crc32
import Libjingle.Stun.Framing

/-!
# MESSAGE-INTEGRITY and FINGERPRINT (`p2p/base/stun.cc`)

`hmac key data` is the digest `ComputeHmac` puts into its 20-byte output for SHA-1; nothing else is
assumed of it. The validators work on raw memory: `data` is the pointer, `size` the number of bytes
that belong to the message.

* `integrity_complete`: what `AddMessageIntegrity`, further attributes and `AddFingerprint` produce
  passes both validators, and another password passes exactly when the digests agree.
-/

namespace Libjingle.StunMessage

open Lib ByteBuffer

def kStunMessageIntegritySize : Nat := 20

def stunAttrFingerprint : U16 := 0x8028

def stunFingerprintXorValue : U32 := 0x5354554E

abbrev Digest := { l : List U8 // l.length = kStunMessageIntegritySize }

def getBE16 (data : Nat → U8) (pos : Nat) : Nat := ofBE (fetch (fun i => data (pos + i)) 2)

def getBE32 (data : Nat → U8) (pos : Nat) : Nat := ofBE (fetch (fun i => data (pos + i)) 4)

/-- `ValidateMessageIntegrity`: the position of a well-formed MESSAGE-INTEGRITY. -/
def findMessageIntegrity (data : Nat → U8) (size : Nat) : Nat → Nat → Option Nat
  | 0, _ => none
  | fuel + 1, currentPos =>
    if currentPos < size then
      let attrType := getBE16 data currentPos
      let attrLength := getBE16 data (currentPos + 2)
      -- If M-I, sanity check it, and break out.
      if attrType = stunAttrMessageIntegrity.toNat then
        if attrLength ≠ kStunMessageIntegritySize ∨ currentPos + attrLength > size then none
        else some currentPos
      -- Otherwise, skip to the next attribute.
      else findMessageIntegrity data size fuel (currentPos + 4 + padded attrLength)
    else none

/-- `SetBE16(temp + 2, length)`. -/
def setLength (temp : List U8) (length : Nat) : List U8 :=
  temp.take 2 ++ toBE 2 length ++ temp.drop 4

/-- `ValidateMessageIntegrity`: the bytes the digest covers, with the length adjusted when other
attributes follow. -/
def covered (data : Nat → U8) (size miPos : Nat) : List U8 :=
  if size > miPos + 4 + kStunMessageIntegritySize then
    let extraOffset := size - (miPos + 4 + kStunMessageIntegritySize)
    setLength (fetch data miPos) (size - extraOffset - 20)
  else fetch data miPos

variable (hmac : List U8 → List U8 → Digest)

def validateMessageIntegrity (data : Nat → U8) (size : Nat) (password : List U8) : Bool :=
  if size % 4 ≠ 0 then false
  else if size ≠ getBE16 data 2 + 20 then false
  else
    match findMessageIntegrity data size size 20 with
    | none => false
    | some miPos =>
      fetch (fun i => data (miPos + 4 + i)) kStunMessageIntegritySize =
        (hmac password (covered data size miPos)).1

/-- `AddMessageIntegrity`; `none` when it returns `false`. -/
def addMessageIntegrity (m : StunMessage) (key : List U8) : Option StunMessage := do
  -- Add the attribute with a dummy value.
  let m' ← m.addAttribute ⟨stunAttrMessageIntegrity,
    .byteString (List.replicate kStunMessageIntegritySize 0x30)⟩
  let buf ← m'.write
  let digest := hmac key (buf.take (buf.length - 4 - kStunMessageIntegritySize))
  return { m' with attrs := m.attrs ++ [⟨stunAttrMessageIntegrity, .byteString digest.1⟩] }

def validateFingerprint (data : Nat → U8) (size : Nat) : Bool :=
  if size % 4 ≠ 0 ∨ size < 20 + 8 then false
  else if getBE32 data 4 ≠ kStunMagicCookie.toNat then false
  else if getBE16 data (size - 8) ≠ stunAttrFingerprint.toNat ∨ getBE16 data (size - 8 + 2) ≠ 4 then
    false
  else
    BitVec.ofNat 32 (getBE32 data (size - 8 + 4)) ^^^ stunFingerprintXorValue =
      computeCrc32 (fetch data (size - 8))

/-- `AddFingerprint`; `none` when it returns `false`. -/
def addFingerprint (m : StunMessage) : Option StunMessage := do
  let m' ← m.addAttribute ⟨stunAttrFingerprint, .uint32 0⟩
  let buf ← m'.write
  let c := computeCrc32 (buf.take (buf.length - 4 - 4))
  return { m' with
    attrs := m.attrs ++ [⟨stunAttrFingerprint, .uint32 (c ^^^ stunFingerprintXorValue)⟩] }

/-! ## Reading through the pointer -/

/-- The memory behind a pointer to these bytes. -/
def view (bytes : List U8) (mem : Nat → U8) : Nat → U8 := fun i => bytes[i]?.getD (mem i)

variable {c : MessageClass} {m : StunMessage} {bytes a b z : List U8} {mem : Nat → U8}
  {transactionId : List U8}

theorem fetch_view (h : bytes = a ++ b ++ z) {k : Nat} (hk : b.length = k) :
    fetch (fun i => view bytes mem (a.length + i)) k = b := by
  subst h hk
  exact fetch_piece a b z mem

theorem fetch_view_front (h : bytes = b ++ z) {k : Nat} (hk : b.length = k) :
    fetch (view bytes mem) k = b := by
  have h' : fetch (fun i => view bytes mem ([].length + i)) k = b :=
    fetch_view (z := z) (by rw [h, List.nil_append]) hk
  simpa using h'

theorem getBE16_view (x : U16) (h : bytes = a ++ writeUInt16 x ++ z) :
    getBE16 (view bytes mem) a.length = x.toNat := by
  unfold getBE16
  rw [fetch_view h (toBE_length 2 _)]
  exact ofBE_toBE x.isLt

theorem getBE32_view (x : U32) (h : bytes = a ++ writeUInt32 x ++ z) :
    getBE32 (view bytes mem) a.length = x.toNat := by
  unfold getBE32
  rw [fetch_view h (toBE_length 4 _)]
  exact ofBE_toBE x.isLt

/-! ## Written attributes -/

theorem writeAttributes_append : ∀ {l₁ l₂ : List StunAttribute} {x y : List U8},
    writeAttributes transactionId l₁ = some x → writeAttributes transactionId l₂ = some y →
      writeAttributes transactionId (l₁ ++ l₂) = some (x ++ y)
  | [], l₂, x, y, h₁, h₂ => by
    obtain rfl := Option.some.inj h₁
    exact h₂
  | e :: l₁, l₂, x, y, h₁, h₂ => by
    obtain ⟨body, hb, h₁⟩ := Option.bind_eq_some_iff.mp h₁
    obtain ⟨more, hm, h₁⟩ := Option.bind_eq_some_iff.mp h₁
    obtain rfl := Option.some.inj h₁
    have ih := writeAttributes_append hm h₂
    show (e.value.write transactionId).bind _ = _
    rw [hb]
    show (writeAttributes transactionId (l₁ ++ l₂)).bind _ = _
    rw [ih]
    simp

theorem totalSize_append (l₁ l₂ : List StunAttribute) :
    totalSize (l₁ ++ l₂) = totalSize l₁ + totalSize l₂ := by
  simp [totalSize]

theorem padded_mod (n : Nat) : padded n % 4 = 0 := by
  unfold padded
  split <;> omega

theorem totalSize_mod (l : List StunAttribute) : totalSize l % 4 = 0 := by
  induction l with
  | nil => rfl
  | cons e l ih =>
    have := padded_mod e.value.size
    have hc : totalSize (e :: l) = padded e.value.size + 4 + totalSize l := by simp [totalSize]
    omega

theorem length_le_totalSize (l : List StunAttribute) : l.length ≤ totalSize l := by
  induction l with
  | nil => exact Nat.zero_le _
  | cons e l ih =>
    have hc : totalSize (e :: l) = padded e.value.size + 4 + totalSize l := by simp [totalSize]
    rw [hc, List.length_cons]
    omega

theorem find_skip : ∀ {l : List StunAttribute} {body a z : List U8} (fuel : Nat),
    (∀ e ∈ l, e.type ≠ stunAttrMessageIntegrity) →
    (∀ e ∈ l, e.value.Writable transactionId) → (∀ e ∈ l, e.value.size < 2 ^ 16) →
    writeAttributes transactionId l = some body → bytes = a ++ body ++ z →
    findMessageIntegrity (view bytes mem) bytes.length (l.length + fuel) a.length =
      findMessageIntegrity (view bytes mem) bytes.length fuel (a ++ body).length
  | [], body, a, z, fuel, _, _, _, hb, _ => by
    obtain rfl := Option.some.inj hb
    rw [List.length_nil, Nat.zero_add, List.append_nil]
  | e :: l, body, a, z, fuel, hno, hw, hs, hb, hbytes => by
    obtain ⟨value, reader, hv, hvl, -, -⟩ :=
      StunValue.round_trip (hw e (by simp)) (hs e (by simp))
    obtain ⟨_, hv', hb⟩ := Option.bind_eq_some_iff.mp hb
    obtain rfl := Option.some.inj (hv.symm.trans hv')
    obtain ⟨more, hm, hb⟩ := Option.bind_eq_some_iff.mp hb
    obtain rfl := Option.some.inj hb
    have htype : getBE16 (view bytes mem) a.length = e.type.toNat :=
      getBE16_view (z := writeUInt16 e.value.length ++ value ++ more ++ z) e.type
        (by rw [hbytes]; simp)
    have hlen : getBE16 (view bytes mem) (a.length + 2) = e.value.length.toNat := by
      have h : getBE16 (view bytes mem) (a ++ writeUInt16 e.type).length =
          e.value.length.toNat :=
        getBE16_view (z := value ++ more ++ z) e.value.length (by rw [hbytes]; simp)
      rwa [List.length_append, writeUInt16, toBE_length] at h
    have hlt : a.length < bytes.length := by
      rw [hbytes]
      simp only [List.length_append, writeUInt16, toBE_length]
      omega
    have hne : ¬ e.type.toNat = stunAttrMessageIntegrity.toNat :=
      fun h => hno e (by simp) (BitVec.eq_of_toNat_eq h)
    have hnext : a.length + 4 + padded e.value.length.toNat =
        (a ++ (writeUInt16 e.type ++ writeUInt16 e.value.length ++ value)).length := by
      simp only [List.length_append, writeUInt16, toBE_length, hvl]
      omega
    rw [List.length_cons, show l.length + 1 + fuel = l.length + fuel + 1 by omega,
      findMessageIntegrity, if_pos hlt]
    simp only [htype, hlen, if_neg hne]
    rw [hnext, find_skip fuel (fun x hx => hno x (by simp [hx])) (fun x hx => hw x (by simp [hx]))
      (fun x hx => hs x (by simp [hx])) hm (z := z) (by rw [hbytes]; simp)]
    simp

/-! ## The two attributes -/

/-- The bytes of MESSAGE-INTEGRITY with this digest. -/
def integrityBytes (digest : List U8) : List U8 :=
  writeUInt16 stunAttrMessageIntegrity ++ writeUInt16 20 ++ digest

variable {digest : List U8}

theorem writeAttributes_integrity (hd : digest.length = kStunMessageIntegritySize) :
    writeAttributes transactionId [⟨stunAttrMessageIntegrity, .byteString digest⟩] =
      some (integrityBytes digest) := by
  have hlen : (StunValue.byteString digest).length = 20 := by
    show BitVec.ofNat 16 digest.length = 20
    rw [hd]
    rfl
  have htake : digest.take 20 = digest := by
    rw [← show digest.length = 20 from hd]
    exact List.take_length
  show some (writeUInt16 _ ++ writeUInt16 (StunValue.byteString digest).length ++
    (digest.take (StunValue.byteString digest).length.toNat ++
      writePadding (StunValue.byteString digest).length) ++ []) = _
  rw [hlen]
  show some (_ ++ _ ++ (digest.take 20 ++ []) ++ []) = _
  rw [htake, List.append_nil, List.append_nil]
  rfl

/-- The bytes of FINGERPRINT with this value. -/
def fingerprintBytes (value : U32) : List U8 :=
  writeUInt16 stunAttrFingerprint ++ writeUInt16 4 ++ writeUInt32 value

theorem writeAttributes_fingerprint (value : U32) :
    writeAttributes transactionId [⟨stunAttrFingerprint, .uint32 value⟩] =
      some (fingerprintBytes value) := by
  show some (_ ++ _ ++ writeUInt32 value ++ []) = _
  rw [List.append_nil]
  rfl

theorem integrityBytes_length
    (hd : digest.length = kStunMessageIntegritySize) : (integrityBytes digest).length = 24 := by
  unfold integrityBytes
  rw [List.length_append, List.length_append, hd]
  simp [writeUInt16, kStunMessageIntegritySize]

theorem fingerprintBytes_length (value : U32) : (fingerprintBytes value).length = 8 := by
  simp [fingerprintBytes, writeUInt16, writeUInt32]

theorem writeHeader_eq (hid : m.transactionId.length = kStunTransactionIdLength) :
    m.writeHeader = writeUInt16 m.type ++ writeUInt16 m.length ++
      (writeUInt32 kStunMagicCookie ++ m.transactionId) := by
  unfold writeHeader isLegacy
  rw [if_neg (by rw [hid]; decide), List.append_assoc]

theorem setLength_header (type length : U16) (z : List U8) (n : Nat) :
    setLength (writeUInt16 type ++ writeUInt16 length ++ z) n =
      writeUInt16 type ++ toBE 2 n ++ z := by
  unfold setLength
  have h2 : (writeUInt16 type).length = 2 := toBE_length 2 _
  have h4 : (writeUInt16 type ++ writeUInt16 length).length = 4 := by
    simp [writeUInt16]
  rw [← h4, List.drop_left, List.append_assoc (writeUInt16 type), ← h2, List.take_left]

/-- **`AddMessageIntegrity`** adds the attribute with the digest of what is written in front of
it. -/
theorem addMessageIntegrity_eq (key : List U8)
    (hb : writeAttributes m.transactionId m.attrs = some b) :
    ∃ m₁, m.addMessageIntegrity hmac key = some m₁ ∧
      m.addAttribute ⟨stunAttrMessageIntegrity, .byteString
        (hmac key ({ m with length := m.length + 24 }.writeHeader ++ b)).1⟩ = some m₁ := by
  have hvalue : ∀ digest : List U8, (StunValue.byteString digest).valueType =
      m.cls.getAttributeValueType stunAttrMessageIntegrity := by
    intro digest
    cases m.cls <;> rfl
  have hadd : ∀ digest : List U8, digest.length = kStunMessageIntegritySize →
      m.addAttribute ⟨stunAttrMessageIntegrity, .byteString digest⟩ = some
        { m with
          attrs := m.attrs ++ [⟨stunAttrMessageIntegrity, .byteString digest⟩]
          length := m.length + 24 } := by
    intro digest hd
    rw [addAttribute_eq_some]
    refine ⟨hvalue digest, ?_⟩
    simp only [StunValue.length, hd]
    rfl
  refine ⟨_, ?_, hadd _ (hmac _ _).2⟩
  unfold addMessageIntegrity
  have hdummy : (List.replicate kStunMessageIntegritySize (0x30 : U8)).length =
      kStunMessageIntegritySize := List.length_replicate
  rw [hadd _ hdummy]
  have hwrite := writeAttributes_append hb (writeAttributes_integrity hdummy)
  show (Option.bind (Option.bind (writeAttributes m.transactionId (m.attrs ++ _)) _) _) = _
  rw [hwrite]
  show some _ = some _
  simp only
  congr 6
  rw [← List.append_assoc, List.length_append, integrityBytes_length hdummy,
    show ∀ n, n + 24 - 4 - kStunMessageIntegritySize = n from fun n => by
      simp [kStunMessageIntegritySize], List.take_left]
  rfl

/-- **`AddFingerprint`** adds the attribute with the checksum of what is written in front of it. -/
theorem addFingerprint_eq (hb : writeAttributes m.transactionId m.attrs = some b) :
    ∃ m₁, m.addFingerprint = some m₁ ∧
      m.addAttribute ⟨stunAttrFingerprint, .uint32 (computeCrc32
        ({ m with length := m.length + 8 }.writeHeader ++ b) ^^^ stunFingerprintXorValue)⟩ =
          some m₁ := by
  have hadd : ∀ value : U32, m.addAttribute ⟨stunAttrFingerprint, .uint32 value⟩ = some
      { m with
        attrs := m.attrs ++ [⟨stunAttrFingerprint, .uint32 value⟩]
        length := m.length + 8 } := by
    intro value
    rw [addAttribute_eq_some]
    refine ⟨?_, ?_⟩
    · cases m.cls <;> rfl
    · simp [StunValue.length, padded]
  refine ⟨_, ?_, hadd _⟩
  unfold addFingerprint
  rw [hadd]
  have hwrite := writeAttributes_append hb (writeAttributes_fingerprint 0)
  show (Option.bind (Option.bind (writeAttributes m.transactionId (m.attrs ++ _)) _) _) = _
  rw [hwrite]
  show some _ = some _
  simp only
  congr 6
  rw [← List.append_assoc, List.length_append, fingerprintBytes_length,
    show ∀ n, n + 8 - 4 - 4 = n from fun n => by omega, List.take_left]
  rfl

/-! ## The validators on written bytes -/

variable {attrs : List StunAttribute}

/-- The validator finds MESSAGE-INTEGRITY among written attributes. -/
theorem find_written (mem : Nat → U8) {front body digest z : List U8}
    (hno : ∀ e ∈ attrs, e.type ≠ stunAttrMessageIntegrity)
    (hw : ∀ e ∈ attrs, e.value.Writable transactionId) (hs : totalSize attrs < 2 ^ 16)
    (hb : writeAttributes transactionId attrs = some body) (hbl : body.length = totalSize attrs)
    (hfront : front.length = 20) (hd : digest.length = kStunMessageIntegritySize)
    (hbytes : bytes = front ++ body ++ integrityBytes digest ++ z) :
    findMessageIntegrity (view bytes mem) bytes.length bytes.length 20 =
      some (front ++ body).length := by
  have hlen : bytes.length = (front ++ body).length + 24 + z.length := by
    rw [hbytes, List.length_append, List.length_append, integrityBytes_length hd]
  have hfuel : bytes.length = attrs.length + (bytes.length - attrs.length - 1 + 1) := by
    have hl := length_le_totalSize attrs
    rw [List.length_append] at hlen
    omega
  have hsplit : bytes = front ++ body ++ (integrityBytes digest ++ z) := by
    rw [hbytes, List.append_assoc _ _ z]
  have hskip : findMessageIntegrity (view bytes mem) bytes.length
      (attrs.length + (bytes.length - attrs.length - 1 + 1)) front.length = _ :=
    find_skip _ hno hw (size_lt_of_mem hs) hb hsplit
  rw [← hfuel, hfront] at hskip
  rw [hskip, findMessageIntegrity, if_pos (by omega)]
  have htype : getBE16 (view bytes mem) (front ++ body).length =
      stunAttrMessageIntegrity.toNat :=
    getBE16_view (z := writeUInt16 20 ++ digest ++ z) _
      (by rw [hbytes, integrityBytes]; simp only [List.append_assoc])
  have hlength : getBE16 (view bytes mem) ((front ++ body).length + 2) = 20 := by
    have h : getBE16 (view bytes mem)
        (front ++ body ++ writeUInt16 stunAttrMessageIntegrity).length = 20 :=
      getBE16_view (z := digest ++ z) 20
        (by rw [hbytes, integrityBytes]; simp only [List.append_assoc])
    rwa [List.length_append, writeUInt16, toBE_length] at h
  simp only [htype, hlength, if_true]
  rw [if_neg]
  rintro (h | h)
  · exact h rfl
  · omega

theorem validateMessageIntegrity_iff {data : Nat → U8} {size miPos : Nat} (hmod : size % 4 = 0)
    (hlen : size = getBE16 data 2 + 20)
    (hfind : findMessageIntegrity data size size 20 = some miPos)
    (password : List U8) :
    validateMessageIntegrity hmac data size password = true ↔
      fetch (fun i => data (miPos + 4 + i)) kStunMessageIntegritySize =
        (hmac password (covered data size miPos)).1 := by
  unfold validateMessageIntegrity
  rw [if_neg (by omega), if_neg (by omega), hfind]
  exact decide_eq_true_iff

variable {type length : U16}

/-- The digest is taken over the header and the attributes in front, as if the message ended with
MESSAGE-INTEGRITY. -/
theorem covered_written (mem : Nat → U8) {rest body tail : List U8}
    (hfront : (writeUInt16 type ++ writeUInt16 length ++ rest).length = 20)
    (hbytes : bytes = writeUInt16 type ++ writeUInt16 length ++ rest ++ body ++ tail)
    (hlength : length.toNat + 20 = bytes.length) (htail : 24 ≤ tail.length) :
    covered (view bytes mem) bytes.length
        (writeUInt16 type ++ writeUInt16 length ++ rest ++ body).length =
      writeUInt16 type ++ toBE 2 (body.length + 24) ++ rest ++ body := by
  have hlen : bytes.length = 20 + body.length + tail.length := by
    rw [hbytes, List.length_append, List.length_append, hfront]
  have hpos : (writeUInt16 type ++ writeUInt16 length ++ rest ++ body).length =
      20 + body.length := by
    rw [List.length_append, hfront]
  unfold covered
  rw [fetch_view_front hbytes rfl, hpos]
  split
  · rename_i h
    have hadj : bytes.length - (bytes.length - (20 + body.length + 4 + kStunMessageIntegritySize)) -
        20 = body.length + 24 := by
      unfold kStunMessageIntegritySize at h ⊢
      omega
    simp only [hadj]
    rw [List.append_assoc _ rest body, setLength_header, List.append_assoc _ rest body]
  · rename_i h
    have hn : length.toNat = body.length + 24 := by
      unfold kStunMessageIntegritySize at h
      omega
    rw [← hn]
    rfl

theorem validateFingerprint_written (front x y : List U8)
    (hfront : front = x ++ writeUInt32 kStunMagicCookie ++ y) (hx : x.length = 4)
    (hlen : 20 ≤ front.length) (hmod : front.length % 4 = 0)
    (hbytes : bytes = front ++
      fingerprintBytes (computeCrc32 front ^^^ stunFingerprintXorValue)) :
    validateFingerprint (view bytes mem) bytes.length = true := by
  have hsize : bytes.length = front.length + 8 := by
    rw [hbytes, List.length_append, fingerprintBytes_length]
  have h8 : bytes.length - 8 = front.length := by omega
  have hcookie : getBE32 (view bytes mem) 4 = kStunMagicCookie.toNat := by
    rw [← hx]
    exact getBE32_view (z := y ++ fingerprintBytes _) _
      (by rw [hbytes]; nth_rewrite 1 [hfront]; rw [List.append_assoc _ y])
  have htype : getBE16 (view bytes mem) front.length = stunAttrFingerprint.toNat :=
    getBE16_view (z := writeUInt16 4 ++ writeUInt32 _) _
      (by rw [hbytes, fingerprintBytes]; simp only [List.append_assoc]; rfl)
  have hlength : getBE16 (view bytes mem) (front.length + 2) = 4 := by
    have h : getBE16 (view bytes mem) (front ++ writeUInt16 stunAttrFingerprint).length = 4 :=
      getBE16_view (z := writeUInt32 _) 4
        (by rw [hbytes, fingerprintBytes]; simp only [List.append_assoc]; rfl)
    rwa [List.length_append, writeUInt16, toBE_length] at h
  have hvalue : getBE32 (view bytes mem) (front.length + 4) =
      (computeCrc32 front ^^^ stunFingerprintXorValue).toNat := by
    have h : getBE32 (view bytes mem)
        (front ++ (writeUInt16 stunAttrFingerprint ++ writeUInt16 4)).length =
          (computeCrc32 front ^^^ stunFingerprintXorValue).toNat :=
      getBE32_view (z := []) _
        (by rw [hbytes, fingerprintBytes]; simp only [List.append_assoc, List.append_nil])
    rwa [List.length_append, List.length_append, writeUInt16, writeUInt16, toBE_length,
      toBE_length] at h
  unfold validateFingerprint
  rw [h8, if_neg (by omega), if_neg (by rw [hcookie]; simp), if_neg (by rw [htype, hlength]; simp),
    hvalue, fetch_view_front hbytes rfl, BitVec.ofNat_toNat, BitVec.setWidth_eq, BitVec.xor_assoc,
    BitVec.xor_self, BitVec.xor_zero]
  exact decide_eq_true rfl

/-! ## Completeness -/

theorem addAttributes_fields : ∀ {l : List StunAttribute} {m m' : StunMessage},
    m.addAttributes l = some m' → m'.attrs = m.attrs ++ l ∧ m'.type = m.type ∧
      m'.transactionId = m.transactionId
  | [], m, m', h => by
    obtain rfl := Option.some.inj h
    exact ⟨(List.append_nil _).symm, rfl, rfl⟩
  | a :: l, m, m', h => by
    obtain ⟨m₁, h₁, h₂⟩ := Option.bind_eq_some_iff.mp h
    obtain ⟨-, rfl⟩ := addAttribute_eq_some.mp h₁
    obtain ⟨ha, ht, hid⟩ := addAttributes_fields h₂
    refine ⟨?_, ht, hid⟩
    rw [ha, List.append_assoc]
    rfl

/-- What both validators make of a packet that ends with FINGERPRINT and has MESSAGE-INTEGRITY
behind the first attributes: the digest is compared with the one of the header and these attributes
alone. -/
theorem validate_written (mem : Nat → U8) {id body more : List U8}
    {digest : Digest} (hno : ∀ e ∈ attrs, e.type ≠ stunAttrMessageIntegrity)
    (hw : ∀ e ∈ attrs, e.value.Writable transactionId) (hs : totalSize attrs < 2 ^ 16)
    (hb : writeAttributes transactionId attrs = some body) (hbl : body.length = totalSize attrs)
    (hid : id.length = kStunTransactionIdLength) (hmod : more.length % 4 = 0)
    (hlength : length.toNat = body.length + 24 + more.length + 8)
    (front : List U8) (hfront : front = writeUInt16 type ++ writeUInt16 length ++
      (writeUInt32 kStunMagicCookie ++ id) ++ (body ++ integrityBytes digest.1 ++ more))
    (hbytes : bytes = front ++ fingerprintBytes (computeCrc32 front ^^^ stunFingerprintXorValue)) :
    validateFingerprint (view bytes mem) bytes.length = true ∧
      findMessageIntegrity (view bytes mem) bytes.length bytes.length 20 =
        some (20 + body.length) ∧
      covered (view bytes mem) bytes.length (20 + body.length) =
        writeUInt16 type ++ toBE 2 (body.length + 24) ++ (writeUInt32 kStunMagicCookie ++ id) ++
          body ∧
      ∀ q, validateMessageIntegrity hmac (view bytes mem) bytes.length q = true ↔
        digest = hmac q (covered (view bytes mem) bytes.length (20 + body.length)) := by
  have hibl := integrityBytes_length digest.2
  have hfbl := fingerprintBytes_length (computeCrc32 front ^^^ stunFingerprintXorValue)
  have h20 : (writeUInt16 type ++ writeUInt16 length ++
      (writeUInt32 kStunMagicCookie ++ id)).length = 20 := by
    simp only [List.length_append, writeUInt16, writeUInt32, toBE_length, hid]
    rfl
  have hpos : (writeUInt16 type ++ writeUInt16 length ++ (writeUInt32 kStunMagicCookie ++ id) ++
      body).length = 20 + body.length := by rw [List.length_append, h20]
  have hfl : front.length = 20 + body.length + 24 + more.length := by
    rw [hfront, List.length_append, h20, List.length_append, List.length_append, hibl]
    omega
  have hsize : bytes.length = length.toNat + 20 := by
    rw [hbytes, List.length_append, hfl, hfbl]
    omega
  have hbodymod := totalSize_mod attrs
  -- the packet from the header and the first attributes on
  have hsplit : bytes = writeUInt16 type ++ writeUInt16 length ++ (writeUInt32 kStunMagicCookie ++
      id) ++ body ++ integrityBytes digest.1 ++ (more ++ fingerprintBytes (computeCrc32 front ^^^
        stunFingerprintXorValue)) := by
    nth_rewrite 1 [hbytes, hfront]
    simp only [List.append_assoc]
  have hfind := find_written mem hno hw hs hb hbl h20 digest.2 hsplit
  have hcov := covered_written mem h20 (hsplit.trans (List.append_assoc _ _ _))
    hsize.symm (by rw [List.length_append, hibl]; omega)
  rw [hpos] at hfind hcov
  have hstored : fetch (fun i => view bytes mem (20 + body.length + 4 + i))
      kStunMessageIntegritySize = digest.1 := by
    have hfetch : fetch (fun i => view bytes mem ((writeUInt16 type ++ writeUInt16 length ++
        (writeUInt32 kStunMagicCookie ++ id) ++ body ++
          (writeUInt16 stunAttrMessageIntegrity ++ writeUInt16 20)).length + i))
            kStunMessageIntegritySize = digest.1 := by
      refine fetch_view (z := more ++ fingerprintBytes (computeCrc32 front ^^^
        stunFingerprintXorValue)) (hsplit.trans ?_) digest.2
      simp only [integrityBytes, List.append_assoc]
    have h4 : (writeUInt16 stunAttrMessageIntegrity ++ writeUInt16 20).length = 4 := by
      simp only [List.length_append, writeUInt16, toBE_length]
    rwa [List.length_append, h4, hpos] at hfetch
  have hlen2 : bytes.length = getBE16 (view bytes mem) 2 + 20 := by
    have h2 : getBE16 (view bytes mem) (writeUInt16 type).length = length.toNat := by
      refine getBE16_view (z := writeUInt32 kStunMagicCookie ++ id ++ body ++
        integrityBytes digest.1 ++ (more ++ fingerprintBytes (computeCrc32 front ^^^
          stunFingerprintXorValue))) length (hsplit.trans ?_)
      simp only [List.append_assoc]
    rw [writeUInt16, toBE_length] at h2
    rw [h2, hsize]
  refine ⟨?_, hfind, hcov, fun q => ?_⟩
  · refine validateFingerprint_written front (writeUInt16 type ++ writeUInt16 length)
      (id ++ (body ++ integrityBytes digest.1 ++ more)) ?_ ?_ (by omega) (by omega) hbytes
    · rw [hfront]
      simp only [List.append_assoc]
    · simp only [List.length_append, writeUInt16, toBE_length]
  · rw [validateMessageIntegrity_iff hmac (by omega) hlen2 hfind, hstored, Subtype.ext_iff]

/-- **Both validators accept what the writer produces.** Take a message that the public methods
build, with a type below `0x8000`, a 12-byte transaction id, values that can be written and no
MESSAGE-INTEGRITY. `AddMessageIntegrity` with any password succeeds on it; after any further
`AddAttribute` calls without MESSAGE-INTEGRITY so does `AddFingerprint`; and where the attributes
take less than `2 ^ 16` bytes, the message written passes both validators, and passes
`ValidateMessageIntegrity` under another password exactly when the two digests of the covered bytes
agree. -/
theorem integrity_complete (h : Built c m)
    (hid : m.transactionId.length = kStunTransactionIdLength) (l : List StunAttribute)
    (hw : ∀ a ∈ m.attrs ++ l, a.value.Writable m.transactionId)
    (hno : ∀ a ∈ m.attrs ++ l, a.type ≠ stunAttrMessageIntegrity)
    (hs : totalSize m.attrs + 24 + totalSize l + 8 < 2 ^ 16) (p : List U8) :
    ∃ m₁, m.addMessageIntegrity hmac p = some m₁ ∧
      ∀ m₂, m₁.addAttributes l = some m₂ →
        ∃ m₃ bytes miPos, m₂.addFingerprint = some m₃ ∧ m₃.write = some bytes ∧
          ∀ mem, let data := view bytes mem
            validateMessageIntegrity hmac data bytes.length p = true ∧
            validateFingerprint data bytes.length = true ∧
            findMessageIntegrity data bytes.length bytes.length 20 = some miPos ∧
            ∀ q, validateMessageIntegrity hmac data bytes.length q = true ↔
              hmac q (covered data bytes.length miPos) =
                hmac p (covered data bytes.length miPos) := by
  have hc := h.counts
  have hw₀ : ∀ a ∈ m.attrs, a.value.Writable m.transactionId := fun a ha => hw a (by simp [ha])
  have hw₁ : ∀ a ∈ l, a.value.Writable m.transactionId := fun a ha => hw a (by simp [ha])
  have hlen := hc.length_toNat (by omega)
  obtain ⟨body, hb, hbl, -⟩ := writeAttributes_read (c := c) hc.valueTypes hw₀
    (size_lt_of_mem (by omega))
  obtain ⟨m₁, hm₁, hadd₁⟩ := addMessageIntegrity_eq hmac p hb
  refine ⟨m₁, hm₁, fun m₂ hm₂ => ?_⟩
  have hbuilt₁ := h.addAttribute _ hadd₁
  have hbuilt₂ := hbuilt₁.addAttributes hm₂
  obtain ⟨-, rfl⟩ := addAttribute_eq_some.mp hadd₁
  obtain ⟨hattrs₂, htype₂, hid₂⟩ := addAttributes_fields hm₂
  simp only at hattrs₂ htype₂ hid₂
  generalize hdig : hmac p _ = digest at hattrs₂ hm₁ hadd₁ hm₂ hbuilt₁
  -- The attributes behind MESSAGE-INTEGRITY.
  obtain ⟨more, hmore, hmorel, -⟩ := writeAttributes_read (c := c)
    (fun a ha => hbuilt₂.counts.valueTypes a (by rw [hattrs₂]; simp [ha])) hw₁
    (size_lt_of_mem (by omega))
  have hb₂ : writeAttributes m₂.transactionId m₂.attrs =
      some (body ++ integrityBytes digest.1 ++ more) := by
    rw [hattrs₂, hid₂]
    exact writeAttributes_append (writeAttributes_append hb (writeAttributes_integrity digest.2))
      hmore
  obtain ⟨m₃, hm₃, hadd₃⟩ := addFingerprint_eq hb₂
  have hbuilt₃ := hbuilt₂.addAttribute _ hadd₃
  obtain ⟨-, hfields₃⟩ := addAttribute_eq_some.mp hadd₃
  have hattrs₃ := congrArg attrs hfields₃
  have hid₃ : m₃.transactionId = m.transactionId := (congrArg transactionId hfields₃).trans hid₂
  have hhead₃ : { m₂ with length := m₂.length + 8 }.writeHeader = m₃.writeHeader := by
    rw [hfields₃]
    simp [writeHeader, isLegacy, StunValue.length, padded]
  rw [hhead₃] at hattrs₃
  generalize hcrc : computeCrc32 _ = crc at hattrs₃
  -- The bytes.
  have hwrite₃ : m₃.write = some (m₃.writeHeader ++ (body ++ integrityBytes digest.1 ++ more ++
      fingerprintBytes (crc ^^^ stunFingerprintXorValue))) := by
    unfold write
    rw [hattrs₃, hid₃]
    rw [hid₂] at hb₂
    rw [writeAttributes_append hb₂ (writeAttributes_fingerprint _)]
    rfl
  have hsize₃ : totalSize m₃.attrs = totalSize m.attrs + 24 + totalSize l + 8 := by
    rw [hattrs₃, hattrs₂]
    simp only [totalSize_append]
    have hi : totalSize [⟨stunAttrMessageIntegrity, .byteString digest.1⟩] = 24 := by
      simp [totalSize, StunValue.size, digest.2, kStunMessageIntegritySize, padded]
    have hf : totalSize [⟨stunAttrFingerprint, .uint32 (crc ^^^ stunFingerprintXorValue)⟩] = 8 := by
      simp [totalSize, StunValue.size, StunValue.length, padded]
    rw [hi, hf]
  have hlen₃ := hbuilt₃.counts.length_toNat (by omega)
  have hheader := writeHeader_eq (m := m₃) (by rw [hid₃]; exact hid)
  have htype₃ : m₃.type = m.type := (congrArg type hfields₃).trans htype₂
  have hmod := totalSize_mod l
  generalize hbytes : m₃.writeHeader ++ _ = bytes at hwrite₃
  refine ⟨m₃, bytes, 20 + body.length, hm₃, hwrite₃, fun mem => ?_⟩
  have hsplit : bytes = m₃.writeHeader ++ (body ++ integrityBytes digest.1 ++ more) ++
      fingerprintBytes
        (computeCrc32 (m₃.writeHeader ++ (body ++ integrityBytes digest.1 ++ more)) ^^^
        stunFingerprintXorValue) := by
    rw [hcrc, List.append_assoc, hbytes]
  have hfront : m₃.writeHeader ++ (body ++ integrityBytes digest.1 ++ more) = _ :=
    congrArg (· ++ (body ++ integrityBytes digest.1 ++ more)) hheader
  obtain ⟨hfinger, hfind, hcov, hiff⟩ := validate_written hmac mem
    (fun a ha => hno a (by simp [ha])) hw₀ (by omega) hb hbl (hid₃ ▸ hid) (by omega)
    (hlen₃.trans (by omega)) _ hfront hsplit
  -- the bytes under the digest are those it was taken of
  have hdigest : digest = hmac p (covered (view bytes mem) bytes.length (20 + body.length)) := by
    have hbody : toBE 2 (body.length + 24) = writeUInt16 (m.length + 24) := by
      unfold writeUInt16
      rw [hbl, ← hlen]
      congr 1
      bv_omega
    have hheader₁ := writeHeader_eq (m := { m with length := m.length + 24 }) hid
    rw [hcov, ← hdig, hheader₁, hbody, hid₃, htype₃]
  have hiff' : ∀ q, validateMessageIntegrity hmac (view bytes mem) bytes.length q = true ↔
      hmac q (covered (view bytes mem) bytes.length (20 + body.length)) =
        hmac p (covered (view bytes mem) bytes.length (20 + body.length)) := by
    intro q
    rw [hiff q, ← hdigest]
    exact eq_comm
  exact ⟨(hiff' p).mpr rfl, hfinger, hfind, hiff'⟩

/-- `kRfc5769SampleRequestWithoutMI` of the tests. -/
def sampleRequest : StunMessage :=
  ⟨.ice, 0x0001, 56, [0xb7, 0xe7, 0xa7, 0x01, 0xbc, 0x34, 0xd6, 0x86, 0xfa, 0x87, 0xdf, 0xae],
    [⟨0x8022, .byteString [0x53, 0x54, 0x55, 0x4e, 0x20, 0x74, 0x65, 0x73, 0x74, 0x20, 0x63, 0x6c,
        0x69, 0x65, 0x6e, 0x74]⟩,
     ⟨0x0024, .uint32 0x6e0001ff⟩,
     ⟨0x8029, .uint64 0x932ff9b151263b36⟩,
     ⟨0x0006, .byteString [0x65, 0x76, 0x74, 0x6a, 0x3a, 0x68, 0x36, 0x76, 0x59]⟩]⟩

/-- `kRfc5769SampleMsgPassword` of the tests. -/
def samplePassword : List U8 :=
  [0x56, 0x4f, 0x6b, 0x4a, 0x78, 0x62, 0x52, 0x6c, 0x31, 0x52, 0x6d, 0x54, 0x78, 0x55, 0x6b, 0x2f,
    0x57, 0x76, 0x4a, 0x78, 0x42, 0x74]

/-- `kCalculatedHmac1` of the tests: the digest of the request under the password. -/
def sampleDigest : Digest :=
  ⟨[0x79, 0x07, 0xc2, 0xd2, 0xed, 0xbf, 0xea, 0x48, 0x0e, 0x4c, 0x76, 0xd8, 0x29, 0x62, 0xd5, 0xc3,
    0x74, 0x2a, 0xf9, 0xe3], rfl⟩

theorem integrity_complete_sample : ∃ m₁ m₂ m₃ bytes,
    sampleRequest.addMessageIntegrity (fun _ _ => sampleDigest) samplePassword = some m₁ ∧
      m₁.addAttributes [⟨0xFF00, .uint32 0⟩] = some m₂ ∧ m₂.addFingerprint = some m₃ ∧
      m₃.write = some bytes ∧
      ∀ mem, validateMessageIntegrity (fun _ _ => sampleDigest) (view bytes mem) bytes.length
          samplePassword = true ∧
        validateFingerprint (view bytes mem) bytes.length = true := by
  have h : Built .ice sampleRequest :=
    Built.addAttributes (l := sampleRequest.attrs)
      (m := ⟨.ice, 0x0001, 0, sampleRequest.transactionId, []⟩)
      ((Built.new.setType 0x0001).setTransactionID sampleRequest.transactionId rfl) (by decide)
  obtain ⟨m₁, h₁, hrest⟩ := integrity_complete (fun _ _ => sampleDigest) h rfl
    [⟨0xFF00, .uint32 0⟩] (by decide) (by decide) (by decide) samplePassword
  have hcls : m₁.cls = .ice := by
    unfold addMessageIntegrity at h₁
    obtain ⟨m', hm', h₁⟩ := Option.bind_eq_some_iff.mp h₁
    obtain ⟨-, rfl⟩ := addAttribute_eq_some.mp hm'
    obtain ⟨_, -, h₁⟩ := Option.bind_eq_some_iff.mp h₁
    rw [← Option.some.inj h₁]
    rfl
  obtain ⟨m₂, h₂⟩ : ∃ m₂, m₁.addAttributes [⟨0xFF00, .uint32 0⟩] = some m₂ := by
    unfold addAttributes addAttribute
    rw [hcls]
    exact ⟨_, rfl⟩
  obtain ⟨m₃, bytes, _, h₃, hwrite, hall⟩ := hrest m₂ h₂
  exact ⟨m₁, m₂, m₃, bytes, h₁, h₂, h₃, hwrite, fun mem => ⟨(hall mem).1, (hall mem).2.1⟩⟩

end Libjingle.StunMessage
