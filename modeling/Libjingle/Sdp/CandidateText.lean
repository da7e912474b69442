import Libjingle.Sdp.AttributeLines
import Libjingle.Sdp.MediaSections

/-!
# The two text forms of a candidate (`SdpSerializeCandidate`, `SdpDeserializeCandidate`)

A candidate is written as a line `a=candidate:…`. It is read from that line, and from its raw form
without `a=` and the line break. The raw form is told by `IsRawCandidate`, which takes a second
colon for a second candidate.

## Results

* **`forms_agree_iff`**: the forms of a candidate agree just if it is plain.
-/

namespace Libjingle.Sdp

open Lib

/-! ## The two forms -/

/-- The address is an IPv6 address. -/
def isIPv6 : IPAddress → Bool
  | .ipv6 _ => true
  | _ => false

/-- `inet_ntop` and `inet_pton` on an address; only the text of an IPv6 address has colons. -/
structure InetText.Prints (inet : InetText) (ip : IPAddress) : Prop extends inet.Reads ip where
  colon : ':' ∈ inet.toString ip ↔ isIPv6 ip = true

section

variable (inet : InetText)

def sdpSerializeCandidate (c : Candidate) : Text := message [candidateLine inet c]

def sdpDeserializeCandidate (text : Text) : Parsed Candidate := parseCandidate inet text true

/-- A line without its first two characters and its line break. -/
def rawForm (text : Text) : Text := text.dropLast.dropLast.drop 2

/-- The candidates differ in nothing but the id and the credentials. -/
structure Candidate.Same (a b : Candidate) : Prop where
  component : a.component = b.component
  protocol : a.protocol = b.protocol
  address : a.address.equal b.address = true
  priority : a.priority = b.priority
  type : a.type = b.type
  generation : a.generation = b.generation
  foundation : a.foundation = b.foundation
  relatedAddress : a.relatedAddress.equal b.relatedAddress = true

/-- Both forms of the candidate are read as the candidate. -/
def FormsAgree (c : Candidate) : Prop :=
  (∃ c', sdpDeserializeCandidate inet (sdpSerializeCandidate inet c) = .ok c' ∧ c'.Same c) ∧
    ∃ c', sdpDeserializeCandidate inet (rawForm (sdpSerializeCandidate inet c)) = .ok c' ∧
      c'.Same c

/-- A wildcard address has its text as its name. -/
def WildcardNamed (a : HostAddress) : Prop := ipIsAny a.ip = true → a.hostname = inet.toString a.ip

/-- A candidate of which all parts are read as they are written. -/
structure PlainCandidate (c : Candidate) : Prop where
  colon : ':' ∉ c.foundation
  newline : '\n' ∉ c.foundation
  protocol : c.protocol ∈ protoNames
  address : isIPv6 c.address.ip = false
  relatedAddress : isIPv6 c.relatedAddress.ip = false
  wildcard : WildcardNamed inet c.address
  relatedWildcard : WildcardNamed inet c.relatedAddress

end

/-! ## What is accepted -/

section

variable {inet : InetText} {c : Candidate}

theorem parseCandidate_accepted {text : Text} {isRaw : Bool}
    (h : parseCandidate inet text isRaw = .ok c) :
    (isRawCandidate (getFirstLine text) = true ∨ isLineType (getFirstLine text) 'a' = true) ∧
      8 ≤ (((getFirstLine text).drop
        (if isRawCandidate (getFirstLine text) then 0 else 2)).splitOn ' ').length ∧
      c.protocol ∈ protoNames := by
  unfold parseCandidate at h
  dsimp only at h
  split at h
  · split at h
    · exact absurd h parseFailedAt_ne_ok
    · exact absurd h parseFailedAt_ne_ok
  · rename_i hform
    split at h
    · rename_i hfields
      rw [hfields]
      split at h
      · exact absurd h parseFailedAt_ne_ok
      · obtain ⟨foundation, -, h⟩ := Parsed.bind_ok h
        split at h
        · exact absurd h parseFailedAt_ne_ok
        · rename_i protocol hprotocol
          split at h
          · exact absurd h parseFailedAt_ne_ok
          · obtain rfl := Except.ok.inj h
            refine ⟨?_, by simp, List.mem_of_find?_eq_some hprotocol⟩
            by_contra hno
            rw [not_or, Bool.not_eq_true, Bool.not_eq_true] at hno
            rw [hno.1, hno.2] at hform
            exact hform rfl
    · exact absurd h parseFailedAt_ne_ok

/-! ## The line -/

theorem chomp_append {s t : Text} (hs : s.getLast? ≠ some '\r') :
    chomp (s ++ t) = s ++ chomp t := by
  cases t with
  | nil =>
    rw [List.append_nil, chomp, if_neg hs]
    exact (List.append_nil s).symm
  | cons x t =>
    have hlast : (s ++ x :: t).getLast? = (x :: t).getLast? := by
      rw [List.getLast?_append, List.getLast?_cons]
      rfl
    unfold chomp
    rw [hlast]
    split
    · exact List.dropLast_append_of_ne_nil (List.cons_ne_nil x t)
    · rfl

theorem mem_of_mem_chomp {t : Text} {x : Char} (h : x ∈ chomp t) : x ∈ t := by
  unfold chomp at h
  split at h
  · exact List.mem_of_mem_dropLast h
  · exact h

theorem getFirstLine_newline {a b : Text} (hfoundation : c.foundation = a ++ '\n' :: b)
    (ha : '\n' ∉ a) :
    getFirstLine (sdpSerializeCandidate inet c) =
      initAttrLine (kAttributeCandidate ++ [':']) ++ chomp a := by
  have hnewline : '\n' ∉ initAttrLine (kAttributeCandidate ++ [':']) ++ a := by
    rw [List.mem_append, not_or]
    exact ⟨by decide, ha⟩
  have htext : ∃ rest, sdpSerializeCandidate inet c =
      (initAttrLine (kAttributeCandidate ++ [':']) ++ a) ++ '\n' :: rest := by
    rw [sdpSerializeCandidate, message_cons, candidateLine_eq, hfoundation]
    exact ⟨_, by simp [attrLine, initAttrLine, initLine]; rfl⟩
  obtain ⟨rest, htext⟩ := htext
  have hget : getLine (sdpSerializeCandidate inet c) =
      some (initAttrLine (kAttributeCandidate ++ [':']) ++ chomp a, rest) := by
    rw [getLine, htext, splitFirst_append hnewline]
    simp only [chomp_append (by decide : (initAttrLine (kAttributeCandidate ++ [':'])).getLast? ≠
      _)]
    exact if_pos rfl
  rw [getFirstLine, hget]

variable {c' : Candidate}

theorem newline_notMem_of_accepted (hspace : ' ' ∉ c.foundation)
    (h : sdpDeserializeCandidate inet (sdpSerializeCandidate inet c) = .ok c') :
    '\n' ∉ c.foundation := by
  cases hsplit : splitFirst '\n' c.foundation with
  | none => exact notMem_of_splitFirst_none hsplit
  | some p =>
    obtain ⟨hfoundation, ha⟩ := eq_append_of_splitFirst hsplit
    have hlength := (parseCandidate_accepted h).2.1
    rw [getFirstLine_newline hfoundation ha] at hlength
    -- The first line ends inside of the foundation, so it is one field.
    have hfield : ' ' ∉ initAttrLine (kAttributeCandidate ++ [':']) ++ chomp p.1 := by
      rw [List.mem_append, not_or]
      refine ⟨by decide, fun hmem => hspace ?_⟩
      rw [hfoundation]
      exact List.mem_append_left _ (mem_of_mem_chomp hmem)
    rw [List.splitOn_eq_singleton fun hmem => hfield (List.mem_of_mem_drop hmem)] at hlength
    rw [List.length_singleton] at hlength
    omega

/-- **The line of a candidate is read.** -/
theorem deserialize_line (h : CandidatePrintable inet c) (hspace : ' ' ∉ c.foundation)
    (hnewline : '\n' ∉ c.foundation) :
    sdpDeserializeCandidate inet (sdpSerializeCandidate inet c) = .ok (readCandidate inet c) := by
  have hget := getLine_message (line_candidateLine h hnewline) [] []
  rw [List.append_nil] at hget
  have hfirst : getFirstLine (sdpSerializeCandidate inet c) = candidateLine inet c := by
    rw [getFirstLine, sdpSerializeCandidate, hget]
  obtain ⟨hraw, hform⟩ := attribute_candidateLine inet c
  refine parseCandidate_fields hfirst (.inr hform) ?_ h
  rw [hraw, if_neg Bool.false_ne_true, drop_candidateLine]
  exact splitOn_candidateText h hspace

/-! ## The raw form -/

theorem rawForm_serialize (inet : InetText) (c : Candidate) :
    rawForm (sdpSerializeCandidate inet c) = candidateText inet c := by
  rw [rawForm, sdpSerializeCandidate, message_cons, message_nil, List.dropLast_append_cons]
  rw [← drop_candidateLine]
  congr 1
  exact List.dropLast_concat

theorem getFirstLine_candidateText (h : CandidatePrintable inet c)
    (hnewline : '\n' ∉ c.foundation) :
    getFirstLine (candidateText inet c) = candidateText inet c := by
  apply getFirstLine_of_notMem
  rw [candidateText, List.append_assoc, List.mem_append, not_or]
  refine ⟨by decide, ?_⟩
  rw [List.cons_append, List.mem_cons, not_or]
  exact ⟨by decide, newline_notMem_candidateLine h hnewline⟩

theorem isRawCandidate_candidateText (inet : InetText) (c : Candidate) :
    isRawCandidate (candidateText inet c) = true ↔
      ':' ∉ c.foundation ∧ ∀ f ∈ candidateFields inet c, ':' ∉ f := by
  have hprefix : kAttributeCandidate.isPrefixOf (candidateText inet c) = true := by
    rw [candidateText, List.append_assoc]
    exact List.isPrefixOf_iff_prefix.mpr (List.prefix_append _ _)
  have hcount : (candidateText inet c).count ':' =
      1 + (c.foundation ++ (candidateFields inet c).flatMap fun f => ' ' :: f).count ':' := by
    rw [candidateText, List.append_assoc, List.count_append, List.cons_append, List.count_cons_self]
    have hzero : kAttributeCandidate.count ':' = 0 := by decide
    omega
  rw [isRawCandidate, hprefix, Bool.true_and, decide_eq_true_eq, hcount]
  rw [Nat.add_eq_left, List.count_eq_zero, List.mem_append, not_or]
  refine and_congr_right fun _ => ⟨fun h f hf hmem => h ?_, notMem_flatMap_cons (by decide)⟩
  exact List.mem_flatMap.mpr ⟨f, hf, List.mem_cons_of_mem _ hmem⟩

theorem deserialize_rawForm (h : CandidatePrintable inet c) (hspace : ' ' ∉ c.foundation)
    (hnewline : '\n' ∉ c.foundation) (hraw : isRawCandidate (candidateText inet c) = true) :
    sdpDeserializeCandidate inet (rawForm (sdpSerializeCandidate inet c)) =
      .ok (readCandidate inet c) := by
  rw [rawForm_serialize]
  refine parseCandidate_fields (getFirstLine_candidateText h hnewline) (.inl hraw) ?_ h
  rw [hraw, if_pos rfl, List.drop_zero]
  exact splitOn_candidateText h hspace

/-- The raw form does not begin with `a=`, so it is read as a raw candidate or not at all. -/
theorem isRawCandidate_of_accepted (hprintable : CandidatePrintable inet c)
    (hnewline : '\n' ∉ c.foundation)
    (h : sdpDeserializeCandidate inet (rawForm (sdpSerializeCandidate inet c)) = .ok c') :
    isRawCandidate (candidateText inet c) = true := by
  have hform := (parseCandidate_accepted h).1
  rw [rawForm_serialize, getFirstLine_candidateText hprintable hnewline] at hform
  have hnotype : isLineType (candidateText inet c) 'a' = false := rfl
  rwa [hnotype, or_iff_left Bool.false_ne_true] at hform

/-! ## Candidates that are the same -/

theorem readAddress_equal (a : HostAddress) :
    (readAddress inet a).equal a = true ↔ WildcardNamed inet a := by
  unfold WildcardNamed
  cases hany : ipIsAny a.ip with
  | false => simp [HostAddress.equal, readAddress, hany]
  | true => simp [HostAddress.equal, readAddress, hany, eq_comm]

theorem readRelated_equal (a : HostAddress) :
    HostAddress.equal (if a.isNil then .nil else readAddress inet a) a = true ↔
      WildcardNamed inet a := by
  by_cases hnil : a.isNil = true
  · have hparts := hnil
    rw [HostAddress.isNil, Bool.and_eq_true, Bool.and_eq_true] at hparts
    obtain ⟨⟨hname, hip⟩, hport⟩ := hparts
    rw [if_pos hnil]
    simp [WildcardNamed, HostAddress.equal, HostAddress.nil, of_decide_eq_true hip,
      of_decide_eq_true hport, ipIsAny]
  · rw [if_neg hnil]
    exact readAddress_equal a

theorem readCandidate_same (inet : InetText) (c : Candidate) :
    (readCandidate inet c).Same c ↔
      WildcardNamed inet c.address ∧ WildcardNamed inet c.relatedAddress := by
  rw [← readAddress_equal, ← readRelated_equal]
  exact ⟨fun h => ⟨h.address, h.relatedAddress⟩, fun h => ⟨rfl, rfl, h.1, rfl, rfl, rfl, rfl, h.2⟩⟩

/-! ## Both forms -/

/-- **The forms of a candidate agree just if it is plain.** -/
theorem forms_agree_iff (htype : c.type ∈ [localPortType, stunPortType, relayPortType])
    (hspace : ' ' ∉ c.foundation) (haddress : inet.Prints c.address.ip)
    (hrelated : inet.Prints c.relatedAddress.ip) :
    FormsAgree inet c ↔ PlainCandidate inet c := by
  have hcolons (hprotocol : c.protocol ∈ protoNames) :
      (∀ f ∈ candidateFields inet c, ':' ∉ f) ↔
        isIPv6 c.address.ip = false ∧ isIPv6 c.relatedAddress.ip = false := by
    rw [notMem_candidateFields_iff hprotocol htype (by decide), haddress.colon, hrelated.colon]
    rw [Bool.not_eq_true, Bool.not_eq_true]
  constructor
  · rintro ⟨⟨c₁, hline, hsame₁⟩, c₂, hraw, -⟩
    have hprotocol : c.protocol ∈ protoNames := by
      rw [← hsame₁.protocol]
      exact (parseCandidate_accepted hline).2.2
    have hnewline := newline_notMem_of_accepted hspace hline
    have hprintable : CandidatePrintable inet c :=
      ⟨hprotocol, htype, haddress.toReads, hrelated.toReads⟩
    -- The line is read as the candidate, whatever it is compared with.
    have hread := deserialize_line hprintable hspace hnewline
    obtain rfl : readCandidate inet c = c₁ := Except.ok.inj (hread.symm.trans hline)
    obtain ⟨hwildcard, hrelatedWildcard⟩ := (readCandidate_same inet c).mp hsame₁
    have hform := isRawCandidate_of_accepted hprintable hnewline hraw
    obtain ⟨hcolon, hfields⟩ := (isRawCandidate_candidateText inet c).mp hform
    obtain ⟨hipv6, hrelatedIPv6⟩ := (hcolons hprotocol).mp hfields
    exact ⟨hcolon, hnewline, hprotocol, hipv6, hrelatedIPv6, hwildcard, hrelatedWildcard⟩
  · intro h
    have hprintable : CandidatePrintable inet c :=
      ⟨h.protocol, htype, haddress.toReads, hrelated.toReads⟩
    have hsame := (readCandidate_same inet c).mpr ⟨h.wildcard, h.relatedWildcard⟩
    have hraw := (isRawCandidate_candidateText inet c).mpr
      ⟨h.colon, (hcolons h.protocol).mpr ⟨h.address, h.relatedAddress⟩⟩
    exact ⟨⟨_, deserialize_line hprintable hspace h.newline, hsame⟩,
      _, deserialize_rawForm hprintable hspace h.newline hraw, hsame⟩

end

/-! ## An IPv6 address -/

/-- `inet_ntop` and `inet_pton` on three addresses. -/
def threeAddresses : InetText where
  ntop
    | .ipv6 _ => "2001:db8::1".toList
    | ip => dottedQuad.ntop ip
  pton text :=
    [("192.0.2.1", .ipv4 0xC0000201), ("10.0.0.1", .ipv4 0x0A000001),
     ("2001:db8::1", .ipv6 0x20010db8000000000000000000000001)].lookup (String.ofList text)

/-- A reflexive candidate with a related address. -/
def reflexiveCandidate : Candidate :=
  { id := [], component := 1, protocol := "udp".toList, address := ⟨[], .ipv4 0xC0000201, 4000⟩
    priority := 1694498815, username := [], password := [], type := stunPortType, generation := 0
    foundation := "842163049".toList, relatedAddress := ⟨[], .ipv4 0x0A000001, 5000⟩ }

/-- A host candidate with an IPv6 address. -/
def ipv6Candidate : Candidate :=
  { reflexiveCandidate with
    type := localPortType, relatedAddress := .nil
    address := ⟨[], .ipv6 0x20010db8000000000000000000000001, 4000⟩ }

theorem forms_agree_reflexive :
    FormsAgree threeAddresses reflexiveCandidate ↔
      PlainCandidate threeAddresses reflexiveCandidate :=
  forms_agree_iff (by decide) (by decide) ⟨⟨by decide, by decide, by decide⟩, by decide⟩
    ⟨⟨by decide, by decide, by decide⟩, by decide⟩

/-- **The raw form of a candidate with an IPv6 address is rejected.** -/
theorem raw_ipv6_rejected :
    (∃ c', sdpDeserializeCandidate threeAddresses
        (sdpSerializeCandidate threeAddresses ipv6Candidate) = .ok c' ∧ c'.Same ipv6Candidate) ∧
      (¬ ∃ c', sdpDeserializeCandidate threeAddresses
        (rawForm (sdpSerializeCandidate threeAddresses ipv6Candidate)) = .ok c') ∧
      ¬ FormsAgree threeAddresses ipv6Candidate := by
  have hprintable : CandidatePrintable threeAddresses ipv6Candidate :=
    ⟨by decide, by decide, ⟨by decide, by decide, by decide⟩, ⟨by decide, by decide, by decide⟩⟩
  have hnewline : '\n' ∉ ipv6Candidate.foundation := by decide
  have hrejected : ¬ ∃ c', sdpDeserializeCandidate threeAddresses
      (rawForm (sdpSerializeCandidate threeAddresses ipv6Candidate)) = .ok c' := by
    rintro ⟨c', h⟩
    have hraw := isRawCandidate_of_accepted hprintable hnewline h
    rw [isRawCandidate_candidateText] at hraw
    exact absurd
      (hraw.2 (threeAddresses.toString ipv6Candidate.address.ip) (by simp [candidateFields]))
      (by decide)
  refine ⟨⟨_, deserialize_line hprintable (by decide) hnewline, ?_⟩, hrejected, ?_⟩
  · exact (readCandidate_same _ _).mpr
      ⟨fun h => absurd h (by decide), fun h => absurd h (by decide)⟩
  · rintro ⟨-, c', h, -⟩
    exact hrejected ⟨c', h⟩

end Libjingle.Sdp
