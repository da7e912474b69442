import Libjingle.Sdp.Lines

/-!
# Candidate lines that were written are read

* `getValue_append`, `getValue_field`: the value of an attribute line.
-/

namespace Libjingle.Sdp

open Lib

/-! ## Parts of a line -/

theorem getValue_append (before : Text) {name : Text} (hbefore : ':' ∉ before)
    (hname : Keyword name)
    (value : Text) : getValue (before ++ name ++ ':' :: value) name = .ok value := by
  have hleft : ':' ∉ before ++ name := by simp [hbefore, hname.colon]
  have hsuffix : name.isSuffixOf (before ++ name) = true :=
    List.isSuffixOf_iff_suffix.mpr (List.suffix_append _ _)
  rw [getValue, splitFirst_append hleft]
  simp only [hsuffix, if_true]

theorem getValue_field (name : Text) (hname : Keyword name) (value : Text) :
    getValue (name ++ ':' :: value) name = .ok value :=
  getValue_append [] List.not_mem_nil hname value

/-! ## Candidates -/

/-- `inet_pton` reads what `inet_ntop` writes for an address. -/
structure InetText.Reads (inet : InetText) (ip : IPAddress) : Prop where
  pton : (inet.pton (inet.toString ip)).getD .unspec = ip
  space : ' ' ∉ inet.toString ip
  newline : '\n' ∉ inet.toString ip

/-- What the parser makes of an address. -/
def readAddress (inet : InetText) (a : HostAddress) : HostAddress :=
  { a with hostname := inet.toString a.ip }

/-- What the parser makes of a candidate. -/
def readCandidate (inet : InetText) (c : Candidate) : Candidate :=
  { c with
    id := []
    address := readAddress inet c.address
    username := []
    password := []
    relatedAddress :=
      if c.relatedAddress.isNil then .nil else readAddress inet c.relatedAddress }

/-- What the parts of a candidate behind its foundation may look like. -/
structure CandidatePrintable (inet : InetText) (c : Candidate) : Prop where
  protocol : c.protocol ∈ protoNames
  type : c.type ∈ [localPortType, stunPortType, relayPortType]
  address : inet.Reads c.address.ip
  relatedAddress : inet.Reads c.relatedAddress.ip

theorem stringToProto_of_mem {p : Text} (h : p ∈ protoNames) : stringToProto p = some p := by
  revert p
  decide

theorem candidateType_text {t : Text} (h : t ∈ [localPortType, stunPortType, relayPortType]) :
    candidateType (candidateTypeText t) = some t := by
  revert t
  decide

section

variable {inet : InetText} {c : Candidate}

/-- The fields of a related address. -/
def relatedFields (inet : InetText) (a : HostAddress) : List Text :=
  if a.isNil then []
  else [kAttributeCandidateRaddr, inet.toString a.ip, kAttributeCandidateRport,
    natText a.port.toNat]

/-- The fields of a candidate behind its foundation. -/
def candidateFields (inet : InetText) (c : Candidate) : List Text :=
  [intText c.component, c.protocol, natText c.priority.toNat, inet.toString c.address.ip,
   natText c.address.port.toNat, kAttributeCandidateTyp, candidateTypeText c.type] ++
  relatedFields inet c.relatedAddress ++
  [kAttributeCandidateGeneration, natText c.generation.toNat]

theorem candidateLine_eq (inet : InetText) (c : Candidate) :
    candidateLine inet c = attrLine kAttributeCandidate
      (c.foundation ++ (candidateFields inet c).flatMap fun f => ' ' :: f) := by
  by_cases hnil : c.relatedAddress.isNil = true
  · simp [candidateLine, candidateFields, relatedFields, hnil]
  · simp [candidateLine, candidateFields, relatedFields, hnil]

theorem notMem_candidateFields_iff (hprotocol : c.protocol ∈ protoNames)
    (htype : c.type ∈ [localPortType, stunPortType, relayPortType]) {x : Char}
    (hx : x ∈ [' ', '\n', ':']) :
    (∀ f ∈ candidateFields inet c, x ∉ f) ↔
      x ∉ inet.toString c.address.ip ∧ x ∉ inet.toString c.relatedAddress.ip := by
  have hdelimiter : x = ' ' ∨ x = '\n' ∨ x = ':' := by simpa using hx
  have hdigit : x.isDigit = false := by
    rcases hdelimiter with rfl | rfl | rfl <;> rfl
  have hminus : x ≠ '-' := by
    rcases hdelimiter with rfl | rfl | rfl <;> decide
  have hint : ∀ n : I32, x ∉ intText n := fun n => notMem_intText hdigit hminus
  have hnat : ∀ n : Nat, x ∉ natText n := fun n => notMem_natText hdigit
  have hproto : ∀ p ∈ protoNames, x ∉ p := by
    rcases hdelimiter with rfl | rfl | rfl <;> decide
  have htypes : ∀ t ∈ [localPortType, stunPortType, relayPortType], x ∉ candidateTypeText t := by
    rcases hdelimiter with rfl | rfl | rfl <;> decide
  obtain ⟨htyp, hraddr, hrport, hgeneration⟩ : x ∉ kAttributeCandidateTyp ∧
      x ∉ kAttributeCandidateRaddr ∧ x ∉ kAttributeCandidateRport ∧
      x ∉ kAttributeCandidateGeneration := by
    rcases hdelimiter with rfl | rfl | rfl <;> decide
  have hrelated : (∀ f ∈ relatedFields inet c.relatedAddress, x ∉ f) ↔
      x ∉ inet.toString c.relatedAddress.ip := by
    unfold relatedFields
    by_cases hnil : c.relatedAddress.isNil = true
    · have hip : c.relatedAddress.ip = .unspec := by
        rw [HostAddress.isNil, Bool.and_eq_true, Bool.and_eq_true] at hnil
        exact of_decide_eq_true hnil.1.2
      simp [hnil, hip, InetText.toString]
    · simp [hnil, hraddr, hrport, hnat]
  rw [candidateFields, List.forall_mem_append, List.forall_mem_append, hrelated]
  simp [hint, hnat, htyp, hgeneration, hproto _ hprotocol, htypes _ htype]

theorem notMem_candidateFields (h : CandidatePrintable inet c) {x : Char}
    (hx : x = ' ' ∨ x = '\n') :
    ∀ f ∈ candidateFields inet c, x ∉ f := by
  have hmem : x ∈ [' ', '\n', ':'] := by rcases hx with rfl | rfl <;> decide
  refine (notMem_candidateFields_iff h.protocol h.type hmem).mpr ?_
  rcases hx with rfl | rfl
  · exact ⟨h.address.space, h.relatedAddress.space⟩
  · exact ⟨h.address.newline, h.relatedAddress.newline⟩

/-- What `BuildCandidate` writes behind `a=`. -/
def candidateText (inet : InetText) (c : Candidate) : Text :=
  kAttributeCandidate ++ ':' :: c.foundation ++ (candidateFields inet c).flatMap fun f => ' ' :: f

theorem drop_candidateLine (inet : InetText) (c : Candidate) :
    (candidateLine inet c).drop 2 = candidateText inet c := by
  rw [candidateLine_eq, candidateText]
  simp [attrLine, initAttrLine, initLine]

theorem splitOn_candidateText (h : CandidatePrintable inet c) (hspace : ' ' ∉ c.foundation) :
    (candidateText inet c).splitOn ' ' =
      (kAttributeCandidate ++ ':' :: c.foundation) :: candidateFields inet c := by
  refine splitOn_append_flatMap ?_ (notMem_candidateFields h (.inl rfl))
  rw [List.mem_append, List.mem_cons, not_or, not_or]
  exact ⟨by decide, by decide, hspace⟩

theorem newline_notMem_candidateLine (h : CandidatePrintable inet c)
    (hnewline : '\n' ∉ c.foundation) :
    '\n' ∉ c.foundation ++ (candidateFields inet c).flatMap fun f => ' ' :: f := by
  rw [List.mem_append, not_or]
  exact ⟨hnewline, notMem_flatMap_cons (by decide) (notMem_candidateFields h (.inr rfl))⟩

theorem line_candidateLine (h : CandidatePrintable inet c) (hnewline : '\n' ∉ c.foundation) :
    Line (candidateLine inet c) := by
  rw [candidateLine_eq]
  exact Line.attr (by decide) (newline_notMem_candidateLine h hnewline)

theorem getFirstLine_of_notMem {line : Text} (h : '\n' ∉ line) : getFirstLine line = line := by
  rw [getFirstLine, getLine, splitFirst_of_notMem h]

theorem setPort_natText (a : HostAddress) (port : U16) :
    a.setPort (readInt (natText port.toNat)) = { a with port } := by
  have hlt := port.isLt
  rw [readInt_natText (by omega), HostAddress.setPort]
  simp

theorem setIP_toString (a : HostAddress) {ip : IPAddress} (h : inet.Reads ip) :
    a.setIP inet (inet.toString ip) = { a with hostname := inet.toString ip, ip } := by
  rw [HostAddress.setIP, h.pton]

theorem takeField_keyword (keyword value : Text) (rest : List Text) :
    takeField keyword (keyword :: value :: rest) = some (value, rest) := by
  rw [takeField, if_pos rfl]

theorem parseRelatedAddress_fields (a : HostAddress) (h : inet.Reads a.ip) (generation : Text) :
    parseRelatedAddress inet (relatedFields inet a ++
      [kAttributeCandidateGeneration, generation]) =
    (if a.isNil then .nil else readAddress inet a,
      [kAttributeCandidateGeneration, generation]) := by
  unfold relatedFields
  by_cases hnil : a.isNil = true
  · rw [if_pos hnil, if_pos hnil]
    rfl
  · rw [if_neg hnil, if_neg hnil]
    rw [List.cons_append, List.cons_append, parseRelatedAddress, takeField_keyword]
    simp only [List.cons_append, List.nil_append, takeField_keyword, setIP_toString _ h,
      setPort_natText]
    rfl

theorem candidateExtensions_generation (generation : U32) :
    candidateExtensions [kAttributeCandidateGeneration, natText generation.toNat] (0, [], []) =
      (generation, [], []) := by
  simp [candidateExtensions, readU32_natText]

/-- **A candidate is read from its fields**, whichever form of a line they come from. -/
theorem parseCandidate_fields {text line : Text} {isRaw : Bool} (hfirst : getFirstLine text = line)
    (hform : isRawCandidate line = true ∨
      isLineType line 'a' = true ∧ hasAttribute line kAttributeCandidate = true)
    (hfields : (line.drop (if isRawCandidate line then 0 else 2)).splitOn ' ' =
      (kAttributeCandidate ++ ':' :: c.foundation) :: candidateFields inet c)
    (h : CandidatePrintable inet c) :
    parseCandidate inet text isRaw = .ok (readCandidate inet c) := by
  have hno : (!isRawCandidate line &&
      (!isLineType line 'a' || !hasAttribute line kAttributeCandidate)) = false := by
    rcases hform with hraw | ⟨htype, hattr⟩
    · rw [hraw]
      rfl
    · rw [htype, hattr]
      exact Bool.and_false _
  rw [candidateFields, List.append_assoc] at hfields
  rw [parseCandidate, hfirst]
  dsimp only
  rw [hno, if_neg Bool.false_ne_true, hfields]
  simp only [List.cons_append, List.nil_append, ne_eq, not_true_eq_false, if_false,
    getValue_field kAttributeCandidate (by decide), stringToProto_of_mem h.protocol,
    candidateType_text h.type, parseRelatedAddress_fields _ h.relatedAddress]
  change Except.ok _ = _
  rw [setIP_toString _ h.address, setPort_natText, readInt_intText, readU32_natText]
  rw [candidateExtensions_generation]
  rfl

theorem attribute_candidateLine (inet : InetText) (c : Candidate) :
    isRawCandidate (candidateLine inet c) = false ∧ isLineType (candidateLine inet c) 'a' = true ∧
      hasAttribute (candidateLine inet c) kAttributeCandidate = true := by
  rw [candidateLine_eq]
  exact ⟨rfl, rfl, rfl⟩

end

end Libjingle.Sdp
