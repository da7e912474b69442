import Libjingle.P2p.Port
import Libjingle.Stun.Locality

/-!
# What a port acts on, and what MESSAGE-INTEGRITY covers (`Port::GetStunMessage`)

The digest covers a packet up to MESSAGE-INTEGRITY; `GetAttribute` searches all of its attributes.
A packet is accepted when `GetStunMessage` returns it as a binding request in RFC 5245 mode.

* `agree_iff`: two accepted packets that agree up to and including MESSAGE-INTEGRITY agree on the
  attributes the port acts on exactly when, of each type missing in front, both carry the same
  first attribute behind. `useCandidate_behind_integrity`: they need not.
-/

namespace Libjingle

open Lib ByteBuffer StunMessage

variable {hmac : List U8 → List U8 → Digest} {p : Port} {x y : List U8} {mem : Nat → U8}
  {m n : StunMessage} {ufrag : List U8}

/-! ## Accepted packets -/

/-- The packet is accepted as the binding request `m`. -/
def Accepted (hmac : List U8 → List U8 → Digest) (p : Port) (bytes : List U8) (mem : Nat → U8)
    (m : StunMessage) : Prop :=
  p.iceProtocol = .rfc5245 ∧ m.type = stunBindingRequest ∧
    ∃ remoteUfrag, p.getStunMessage hmac bytes mem = .message m remoteUfrag

/-- **What an accepted packet went through.** -/
theorem getStunMessage_request (h : Accepted hmac p x mem m) :
    validateFingerprint (view x mem) x.length = true ∧ (StunMessage.new .ice).read x = some m ∧
      validateMessageIntegrity hmac (view x mem) x.length p.password = true := by
  obtain ⟨hproto, htype, ufrag, h⟩ := h
  unfold Port.getStunMessage at h
  split at h
  · cases h
  rename_i hfp
  have hfp : validateFingerprint (view x mem) x.length = true := by
    by_contra hne
    exact hfp ⟨hproto, hne⟩
  refine ⟨hfp, ?_⟩
  cases hread : (StunMessage.new .ice).read x with
  | none =>
    rw [hread] at h
    cases h
  | some msg =>
    rw [hread] at h
    simp only at h
    split at h
    · split at h
      · cases h
      cases hparse : p.parseStunUsername msg with
      | none =>
        rw [hparse] at h
        cases h
      | some ufrags =>
        rw [hparse] at h
        simp only at h
        split at h
        · cases h
        split at h
        · cases h
        rename_i hmi
        obtain ⟨rfl, -⟩ := Port.StunResult.message.inj h
        refine ⟨rfl, ?_⟩
        by_contra hne
        exact hmi ⟨hproto, hne⟩
    · -- the other message types are returned without a check of MESSAGE-INTEGRITY
      rename_i hne
      have hother : ∀ {u}, Port.StunResult.message msg u = .message m ufrag → False := by
        intro u h
        obtain ⟨rfl, -⟩ := Port.StunResult.message.inj h
        exact hne htype
      split at h
      · exact (hother h).elim
      split at h
      · split at h
        · cases h
        · exact (hother h).elim
      split at h
      · exact (hother h).elim
      · cases h

theorem Accepted.of_checks {remoteUfrag : List U8} (hproto : p.iceProtocol = .rfc5245)
    (hfp : validateFingerprint (view x mem) x.length = true)
    (hread : (StunMessage.new .ice).read x = some m) (htype : m.type = stunBindingRequest)
    (hmi : m.getByteString stunAttrMessageIntegrity ≠ none)
    (hparse : p.parseStunUsername m = some (p.usernameFragment, remoteUfrag))
    (hval : validateMessageIntegrity hmac (view x mem) x.length p.password = true) :
    Accepted hmac p x mem m := by
  have hname : m.getByteString stunAttrUsername ≠ none := by
    intro h
    unfold Port.parseStunUsername at hparse
    rw [h] at hparse
    cases hparse
  refine ⟨hproto, htype, remoteUfrag, ?_⟩
  unfold Port.getStunMessage
  rw [if_neg (by simp [hfp]), hread]
  simp only
  rw [if_pos htype, if_neg (by simp [hname, hmi]), hparse]
  simp only [ne_eq, not_true_eq_false, if_false, hval, and_false]

/-- The visits of `Read`'s loop over a packet. -/
def visitsOf (bytes : List U8) : List Visit :=
  (((StunMessage.new .ice).parse bytes).map Prod.snd).getD []

theorem validateFingerprint_cookie (h : validateFingerprint (view x mem) x.length = true) :
    x.length % 4 = 0 ∧ 28 ≤ x.length ∧ HasCookie x := by
  unfold validateFingerprint at h
  split at h
  · cases h
  rename_i hsize
  split at h
  · cases h
  rename_i hcookie
  refine ⟨by omega, by omega, ?_⟩
  have hpieces : x = x.take 4 ++ (x.drop 4).take 4 ++ x.drop 8 := by
    rw [List.append_assoc, ← List.drop_drop (i := 4) (j := 4), List.take_append_drop,
      List.take_append_drop]
  have hlen : ((x.drop 4).take 4).length = 4 := by
    rw [List.length_take, List.length_drop]
    omega
  have h4 : (x.take 4).length = 4 := by
    rw [List.length_take]
    omega
  have hfetch : fetch (fun i => view x mem ((x.take 4).length + i)) 4 = (x.drop 4).take 4 :=
    fetch_view hpieces hlen
  rw [h4] at hfetch
  have hnumber : ofBE ((x.drop 4).take 4) = kStunMagicCookie.toNat := by
    rw [← hfetch]
    exact not_not.mp hcookie
  unfold HasCookie
  rw [← toBE_ofBE ((x.drop 4).take 4), hlen, hnumber]
  rfl

theorem readHeader_transactionId {hd : Header} {rest : List U8}
    (h : readHeader x = some (hd, rest)) (hcookie : HasCookie x) :
    hd.transactionId = (x.drop 8).take kStunTransactionIdLength := by
  obtain ⟨type, b₁, h₁, h⟩ := Reader.bind_eq_some.mp h
  obtain ⟨-, -, rfl⟩ := readNumber_eq_some.mp h₁
  split at h
  · cases h
  obtain ⟨length, b₂, h₂, h⟩ := Reader.bind_eq_some.mp h
  obtain ⟨-, -, rfl⟩ := readNumber_eq_some.mp h₂
  obtain ⟨cookie, b₃, h₃, h⟩ := Reader.bind_eq_some.mp h
  obtain ⟨-, hc, rfl⟩ := Reader.take_eq_some.mp h₃
  obtain ⟨id, b₄, h₄, h⟩ := Reader.bind_eq_some.mp h
  obtain ⟨-, hid, rfl⟩ := Reader.take_eq_some.mp h₄
  obtain ⟨rfl, -⟩ := Prod.mk.inj (Option.some.inj h)
  simp only [List.drop_drop] at hc hid
  have hnumber : ofBE cookie = kStunMagicCookie.toNat := by
    rw [hc, show (x.drop (2 + 2)).take 4 = writeUInt32 kStunMagicCookie from hcookie]
    exact ofBE_magicCookie
  simp only [hnumber, ne_eq, not_true_eq_false, if_false]
  exact hid

theorem Accepted.parsed (h : Accepted hmac p x mem m) :
    20 ≤ x.length ∧ x.length % 4 = 0 ∧
      readAttributes .ice ((x.drop 8).take kStunTransactionIdLength) (bodyOf x).length 0
        (bodyOf x) = some (visitsOf x) ∧
      m.attrs = (visitsOf x).filterMap Visit.attr := by
  obtain ⟨hfp, hread, -⟩ := getStunMessage_request h
  obtain ⟨h4, h28, hcookie⟩ := validateFingerprint_cookie hfp
  obtain ⟨⟨m', visits⟩, hparse, rfl⟩ := Option.map_eq_some_iff.mp hread
  have hvisits : visitsOf x = visits := by
    unfold visitsOf
    rw [hparse]
    rfl
  obtain ⟨hd, hhead, -, hattrs, rfl⟩ := parse_eq_some hparse
  rw [readHeader_transactionId hhead hcookie] at hattrs
  rw [hvisits]
  exact ⟨by omega, h4, hattrs, rfl⟩

/-! ## In front of MESSAGE-INTEGRITY and behind it -/

/-- The attribute types a port acts on. -/
def actedOn : List U16 :=
  [stunAttrUsername, stunAttrPriority, stunAttrUseCandidate, stunAttrIceControlling,
    stunAttrIceControlled]

/-- The first attribute of this type that visits record. -/
def firstOf (type : U16) (visits : List Visit) : Option StunAttribute :=
  (visits.filterMap Visit.attr).find? fun a => a.type == type

/-- The first attribute of this type among those that end where a MESSAGE-INTEGRITY at `miPos` does
or earlier. -/
def inFront (bytes : List U8) (miPos : Nat) (type : U16) : Option StunAttribute :=
  firstOf type (settled (miPos + 4) (visitsOf bytes))

/-- The first attribute of this type among the others. -/
def behind (bytes : List U8) (miPos : Nat) (type : U16) : Option StunAttribute :=
  firstOf type (unsettled (miPos + 4) (visitsOf bytes))

/-- The packets agree up to and including a MESSAGE-INTEGRITY at `miPos`, the length field of the
header aside. -/
structure AgreeUpTo (miPos : Nat) (x y : List U8) : Prop where
  type : x.take 2 = y.take 2
  rest : (x.take (miPos + 4 + kStunMessageIntegritySize)).drop 4 =
    (y.take (miPos + 4 + kStunMessageIntegritySize)).drop 4

/-- A lookup finds the first attribute in front, and if there is none the first behind. -/
theorem lookup_eq (h : Accepted hmac p x mem m) (miPos : Nat) (type : U16) :
    m.getAttribute type = (inFront x miPos type).or (behind x miPos type) := by
  obtain ⟨-, -, -, hattrs⟩ := h.parsed
  unfold getAttribute inFront behind firstOf
  rw [hattrs, ← List.find?_append, ← List.filterMap_append]
  unfold settled unsettled
  rw [List.takeWhile_append_dropWhile]

theorem drop_take_agree {i e : Nat} (h : (x.take e).drop 4 = (y.take e).drop 4) (hi : 4 ≤ i) :
    (x.drop i).take (e - i) = (y.drop i).take (e - i) := by
  have h' := congrArg (List.drop (i - 4)) h
  rw [List.drop_drop, List.drop_drop, show 4 + (i - 4) = i by omega, List.drop_take,
    List.drop_take] at h'
  exact h'

theorem inFront_eq {mem' : Nat → U8} (hx : Accepted hmac p x mem m)
    (hy : Accepted hmac p y mem' n) {miPos : Nat} (h20 : 20 ≤ miPos) (hagree : AgreeUpTo miPos x y)
    (type : U16) : inFront x miPos type = inFront y miPos type := by
  obtain ⟨hx20, hx4, hxa, -⟩ := hx.parsed
  obtain ⟨hy20, hy4, hya, -⟩ := hy.parsed
  have hid :
      (x.drop 8).take kStunTransactionIdLength = (y.drop 8).take kStunTransactionIdLength := by
    have h := congrArg (List.take kStunTransactionIdLength) (drop_take_agree hagree.rest
      (i := 8) (by omega))
    rwa [List.take_take, List.take_take, Nat.min_eq_left] at h
    unfold kStunTransactionIdLength kStunMessageIntegritySize
    omega
  have hidl : ((y.drop 8).take kStunTransactionIdLength).length = kStunTransactionIdLength := by
    rw [List.length_take, List.length_drop, Nat.min_eq_left]
    unfold kStunTransactionIdLength
    omega
  have hbody : (bodyOf x).take (miPos + 4 - 0) = (bodyOf y).take (miPos + 4 - 0) := by
    have h := drop_take_agree hagree.rest (i := 20) (by omega)
    rwa [show miPos + 4 + kStunMessageIntegritySize - 20 = miPos + 4 - 0 by
      unfold kStunMessageIntegritySize; omega] at h
  rw [hid] at hxa
  unfold inFront
  rw [settled_eq hidl (miPos + 4) _ _ 0 _ _ _ _ (by rw [bodyOf, List.length_drop]; omega)
    (by rw [bodyOf, List.length_drop]; omega) hbody hxa hya]

theorem findMessageIntegrity_ge {data : Nat → U8} {size : Nat} : ∀ {fuel pos q : Nat},
    findMessageIntegrity data size fuel pos = some q → pos ≤ q
  | 0, pos, q, h => by cases h
  | fuel + 1, pos, q, h => by
    unfold findMessageIntegrity at h
    split at h
    · simp only at h
      split at h
      · split at h
        · cases h
        · exact le_of_eq (Option.some.inj h)
      · have := findMessageIntegrity_ge h
        omega
    · cases h

/-- **When uncovered bytes do not matter.** Two accepted packets that agree up to and including the
first MESSAGE-INTEGRITY agree on the attributes the port acts on exactly when, of each type of which
there is none in front, they carry the same first attribute behind it, or none. -/
theorem agree_iff {mem' : Nat → U8} (hx : Accepted hmac p x mem m)
    (hy : Accepted hmac p y mem' n) {miPos : Nat}
    (hfind : findMessageIntegrity (view x mem) x.length x.length 20 = some miPos)
    (hagree : AgreeUpTo miPos x y) :
    (∀ type ∈ actedOn, m.getAttribute type = n.getAttribute type) ↔
      ∀ type ∈ actedOn, inFront x miPos type = none →
        behind x miPos type = behind y miPos type := by
  refine forall₂_congr fun type _ => ?_
  rw [lookup_eq hx miPos, lookup_eq hy miPos,
    inFront_eq hx hy (findMessageIntegrity_ge hfind) hagree]
  cases inFront y miPos type with
  | none => simp
  | some a => simp

/-! ## A nomination that is not authenticated -/

/-- The port the sample request of the tests is for. -/
def samplePort : Port :=
  ⟨.rfc5245, 1, [0x65, 0x76, 0x74, 0x6a], samplePassword, .controlled, 1, false⟩

/-- The header of the sample request, with this length. -/
def sampleHeader (length : U8) : List U8 :=
  [0x00, 0x01, 0x00, length, 0x21, 0x12, 0xa4, 0x42, 0xb7, 0xe7, 0xa7, 0x01, 0xbc, 0x34, 0xd6,
    0x86, 0xfa, 0x87, 0xdf, 0xae]

/-- SOFTWARE, PRIORITY and ICE-CONTROLLED. -/
def sampleRole : List U8 :=
  [0x80, 0x22, 0x00, 0x10, 0x53, 0x54, 0x55, 0x4e, 0x20, 0x74, 0x65, 0x73, 0x74, 0x20, 0x63, 0x6c,
    0x69, 0x65, 0x6e, 0x74, 0x00, 0x24, 0x00, 0x04, 0x6e, 0x00, 0x01, 0xff, 0x80, 0x29, 0x00, 0x08,
    0x93, 0x2f, 0xf9, 0xb1, 0x51, 0x26, 0x3b, 0x36]

/-- USERNAME and MESSAGE-INTEGRITY. -/
def sampleCredentials : List U8 :=
  [0x00, 0x06, 0x00, 0x09, 0x65, 0x76, 0x74, 0x6a, 0x3a, 0x68, 0x36, 0x76, 0x59, 0x00, 0x00, 0x00,
    0x00, 0x08, 0x00, 0x14] ++ sampleDigest.1

/-- The sample request up to and including MESSAGE-INTEGRITY, with this length. -/
def sampleFront (length : U8) : List U8 :=
  sampleHeader length ++ sampleRole ++ sampleCredentials

/-- The request, with FINGERPRINT behind MESSAGE-INTEGRITY. -/
def plainPacket : List U8 := sampleFront 88 ++ fingerprintBytes 0xe352928d

/-- The request, with USE-CANDIDATE and FINGERPRINT behind MESSAGE-INTEGRITY. -/
def nominatingPacket : List U8 :=
  sampleFront 92 ++ [0x00, 0x25, 0x00, 0x00] ++ fingerprintBytes 0x770b1141

/-- What the first of them reads as. -/
def plainMessage : StunMessage :=
  ⟨.ice, 0x0001, 88, sampleRequest.transactionId, sampleRequest.attrs ++
    [⟨0x0008, .byteString sampleDigest.1⟩, ⟨0x8028, .uint32 0xe352928d⟩]⟩

/-- What the second of them reads as. -/
def nominatingMessage : StunMessage :=
  ⟨.ice, 0x0001, 92, sampleRequest.transactionId, sampleRequest.attrs ++
    [⟨0x0008, .byteString sampleDigest.1⟩, ⟨0x0025, .byteString []⟩,
      ⟨0x8028, .uint32 0x770b1141⟩]⟩

/-- HMAC-SHA1 on the request and its password. -/
def sampleHmac : List U8 → List U8 → Digest := fun _ _ => sampleDigest

theorem plainPacket_accepted :
    Accepted sampleHmac samplePort plainPacket (fun _ => 0) plainMessage := by
  have hcrc : computeCrc32 (sampleFront 88) ^^^ stunFingerprintXorValue = 0xe352928d := by
    have h₁ : updateCrc32 0 (sampleHeader 88) = 0xe4b507c5 := by decide +kernel
    have h₂ : updateCrc32 0xe4b507c5 sampleRole = 0x91545e9a := by decide +kernel
    have h₃ : updateCrc32 0x91545e9a sampleCredentials = 0xb006c7c3 := by decide +kernel
    unfold computeCrc32 sampleFront
    rw [updateCrc32_append, updateCrc32_append, h₁, h₂, h₃]
    rfl
  refine Accepted.of_checks rfl ?_ (by decide) rfl (by decide)
    (show _ = some (_, [0x68, 0x36, 0x76, 0x59]) by decide) (by decide)
  refine validateFingerprint_written (sampleFront 88) ((sampleFront 88).take 4)
    ((sampleFront 88).drop 8) (by decide) (by decide) (by decide) (by decide) ?_
  rw [hcrc]
  rfl

theorem nominatingPacket_accepted :
    Accepted sampleHmac samplePort nominatingPacket (fun _ => 0) nominatingMessage := by
  have hcrc : computeCrc32 (sampleFront 92 ++ [0x00, 0x25, 0x00, 0x00]) ^^^
      stunFingerprintXorValue = 0x770b1141 := by
    have h₁ : updateCrc32 0 (sampleHeader 92) = 0x97bd200a := by decide +kernel
    have h₂ : updateCrc32 0x97bd200a sampleRole = 0xf3ff170a := by decide +kernel
    have h₃ : updateCrc32 0xf3ff170a sampleCredentials = 0xbda155c6 := by decide +kernel
    have h₄ : updateCrc32 0xbda155c6 [0x00, 0x25, 0x00, 0x00] = 0x245f440f := by decide +kernel
    unfold computeCrc32 sampleFront
    rw [updateCrc32_append, updateCrc32_append, updateCrc32_append, h₁, h₂, h₃, h₄]
    rfl
  refine Accepted.of_checks rfl ?_ (by decide) rfl (by decide)
    (show _ = some (_, [0x68, 0x36, 0x76, 0x59]) by decide) (by decide)
  refine validateFingerprint_written (sampleFront 92 ++ [0x00, 0x25, 0x00, 0x00])
    ((sampleFront 92).take 4) ((sampleFront 92).drop 8 ++ [0x00, 0x25, 0x00, 0x00])
    (by decide) (by decide) (by decide) (by decide) ?_
  rw [hcrc]
  rfl

/-- **A nomination behind MESSAGE-INTEGRITY counts.** The two packets agree up to and including
MESSAGE-INTEGRITY, and both are accepted; USE-CANDIDATE is found in one of them. -/
theorem useCandidate_behind_integrity : ∃ x y m n miPos,
    Accepted sampleHmac samplePort x (fun _ => 0) m ∧
      Accepted sampleHmac samplePort y (fun _ => 0) n ∧
      findMessageIntegrity (view x fun _ => 0) x.length x.length 20 = some miPos ∧
      AgreeUpTo miPos x y ∧
      ¬ ∀ type ∈ actedOn, m.getAttribute type = n.getAttribute type := by
  refine ⟨plainPacket, nominatingPacket, plainMessage, nominatingMessage, 76,
    plainPacket_accepted, nominatingPacket_accepted, by decide, ⟨by decide, by decide⟩, ?_⟩
  intro h
  exact absurd (h stunAttrUseCandidate (by decide)) (by decide)

theorem agree_iff_nominatingPacket : ¬ ∀ type ∈ actedOn, inFront plainPacket 76 type = none →
    behind plainPacket 76 type = behind nominatingPacket 76 type := by
  rw [← agree_iff plainPacket_accepted nominatingPacket_accepted (by decide)
    ⟨by decide, by decide⟩]
  intro h
  exact absurd (h stunAttrUseCandidate (by decide)) (by decide)

end Libjingle
