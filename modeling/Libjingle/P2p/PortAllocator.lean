import Libjingle.Lib.Text

/-!
# The port allocator session (`p2p/client/basicportallocator.h`, `basicportallocator.cc`)

A `BasicPortAllocatorSession` has an `AllocationSequence` for each network. A sequence creates ports
in phases and enables the protocols one after another. A port signals its candidates, and that it is
ready or has failed. The session passes on the candidates whose protocol is enabled.

* A candidate is of any type; only its protocol is read.
* Which ports a phase can create, and what they signal while it does, is part of the event.
* A sequence is its number in the order of creation, and so is a port. A sequence is kept for good;
  `listed` says that it is in `sequences_`.
* `log` is a history of the session: the four signals, and what has caused them.
-/

namespace Libjingle

open Lib

/-! ## Protocols and phases -/

/-- `ProtocolType`. -/
inductive ProtocolType where
  | udp
  | tcp
  | ssltcp
  deriving DecidableEq

def protoNames : List (ProtocolType × Text) :=
  [(.udp, "udp".toList), (.tcp, "tcp".toList), (.ssltcp, "ssltcp".toList)]

/-- `StringToProto` of a C string. It compares with `_stricmp`. -/
def stringToProto (value : Text) : Option ProtocolType :=
  let value := value.takeWhile fun c => c ≠ Char.ofNat 0
  (protoNames.find? fun p => p.2.map Char.toLower = value.map Char.toLower).map Prod.fst

/-- `PHASE_UDP`, `PHASE_RELAY`, `PHASE_TCP`, `PHASE_SSLTCP`. -/
inductive AllocationPhase where
  | udp
  | relay
  | tcp
  | ssltcp
  deriving DecidableEq

def AllocationPhase.all : List AllocationPhase := [.udp, .relay, .tcp, .ssltcp]

def AllocationPhase.index : AllocationPhase → Nat
  | udp => 0
  | relay => 1
  | tcp => 2
  | ssltcp => 3

/-! ## Data -/

/-- `PortData::State`. -/
inductive PortDataState where
  | init
  | ready
  | error
  deriving DecidableEq

/-- `PortData`, with the `Candidates()` of its port. -/
structure PortData (κ : Type*) where
  port : Nat
  sequence : Nat
  state : PortDataState
  candidates : List κ
  deriving DecidableEq

/-- The port has gathered its candidates, or failed. -/
def PortData.complete {κ : Type*} (d : PortData κ) : Bool := d.state = .ready || d.state = .error

/-- `AllocationSequence::State`. -/
inductive SequenceState where
  | init
  | running
  | stopped
  | completed
  deriving DecidableEq

/-- `AllocationSequence`. `pending` counts its `MSG_ALLOCATION_PHASE` messages. -/
structure AllocationSequence where
  state : SequenceState
  step : Nat
  lastPhaseInStepZero : Nat
  protocols : List ProtocolType
  pending : Nat
  listed : Bool
  deriving DecidableEq

def AllocationSequence.stepOfPhase (q : AllocationSequence) (phase : AllocationPhase) : Nat :=
  phase.index - q.lastPhaseInStepZero

/-- What happens in a session: a port is added for a sequence; it produces a candidate, `complete`
or not; a protocol is enabled for a sequence; a port is destroyed. And the signals:
`SignalCandidatesReady`, `SignalPortReady`, `SignalCandidatesAllocationDone`. -/
inductive AllocatorEntry (κ : Type*) where
  | portAdded (port sequence : Nat)
  | produced (port : Nat) (candidate : κ) (complete : Bool)
  | enabled (sequence : Nat) (proto : ProtocolType)
  | portDestroyed (port : Nat)
  | candidatesReady (candidates : List κ)
  | portReady (port : Nat)
  | allocationDone
  deriving DecidableEq

/-- `BasicPortAllocatorSession`. -/
structure AllocatorSession (κ : Type*) where
  running : Bool
  sequencesCreated : Bool
  sequences : List AllocationSequence
  ports : List (PortData κ)
  nextPort : Nat
  log : List (AllocatorEntry κ)
  deriving DecidableEq

/-- What a port does: it is created and added to the session; `AddAddress`; `SignalAddressReady`,
`SignalAddressError`, `SignalDestroyed`. -/
inductive PortAction (κ : Type*) where
  | addAllocatedPort (sequence : Nat)
  | addAddress (port : Nat) (candidate : κ) (final : Bool)
  | addressReady (port : Nat)
  | addressError (port : Nat)
  | destroyed (port : Nat)
  deriving DecidableEq

namespace AllocatorSession

variable {κ : Type*}

def new : AllocatorSession κ := ⟨false, false, [], [], 0, []⟩

/-- An entry of the history. -/
def record (s : AllocatorSession κ) (e : AllocatorEntry κ) : AllocatorSession κ :=
  { s with log := s.log ++ [e] }

/-- A change to a sequence. -/
def setSequence (s : AllocatorSession κ) (seq : Nat)
    (f : AllocationSequence → AllocationSequence) : AllocatorSession κ :=
  { s with sequences := s.sequences.modify seq f }

/-- A change to a port. -/
def setPort (s : AllocatorSession κ) (port : Nat) (f : PortData κ → PortData κ) :
    AllocatorSession κ :=
  { s with ports := s.ports.map fun d => if d.port = port then f d else d }

/-- `FindPort`. -/
def findPort (s : AllocatorSession κ) (port : Nat) : Option (PortData κ) :=
  s.ports.find? fun d => d.port = port

/-! ## The end of the allocation -/

/-- `MaybeSignalCandidatesAllocationDone`. -/
def maybeSignalCandidatesAllocationDone (s : AllocatorSession κ) : AllocatorSession κ :=
  -- Send signal only if all required AllocationSequence objects are created.
  if ¬ s.sequencesCreated then s
  -- Check that all port allocation sequences are complete.
  else if s.sequences.any fun q => q.listed && q.state = .running then s
  else if s.ports.any fun d => !d.complete then s
  else s.record .allocationDone

/-! ## Signals of a port -/

section

variable (protocol : κ → Text)

/-- `ProtocolEnabled` of a sequence. -/
def protocolEnabled (s : AllocatorSession κ) (seq : Nat) (proto : ProtocolType) : Bool :=
  (s.sequences[seq]?).any fun q => decide (proto ∈ q.protocols)

/-- `OnCandidateReady`. -/
def onCandidateReady (s : AllocatorSession κ) (port : Nat) (c : κ) : AllocatorSession κ :=
  match s.findPort port with
  | none => s
  | some data =>
    -- Discarding any candidate signal if port allocation status is already in completed state.
    if data.complete then s
    -- Send candidates whose protocol is enabled.
    else if (stringToProto (protocol c)).any (s.protocolEnabled data.sequence) then
      s.record (.candidatesReady [c])
    else s

/-- `OnPortReady`. -/
def onPortReady (s : AllocatorSession κ) (port : Nat) : AllocatorSession κ :=
  match s.findPort port with
  | none => s
  | some data =>
    -- Ignore any late signals.
    if data.complete then s
    else
      let s := s.setPort port fun d => { d with state := .ready }
      (s.record (.portReady port)).maybeSignalCandidatesAllocationDone

/-- `OnAddressError`. -/
def onAddressError (s : AllocatorSession κ) (port : Nat) : AllocatorSession κ :=
  match s.findPort port with
  | none => s
  | some data =>
    -- We might have already given up on this port and stopped it.
    if data.complete then s
    else (s.setPort port fun d => { d with state := .error }).maybeSignalCandidatesAllocationDone

/-- `OnPortDestroyed`. -/
def onPortDestroyed (s : AllocatorSession κ) (port : Nat) : AllocatorSession κ :=
  match s.findPort port with
  | none => s
  | some _ =>
    { s with ports := s.ports.filter fun d => d.port ≠ port }.record (.portDestroyed port)

/-- `Port::AddAddress`. -/
def addAddress (s : AllocatorSession κ) (port : Nat) (c : κ) (final : Bool) : AllocatorSession κ :=
  match s.findPort port with
  | none => s
  | some data =>
    let s := s.setPort port fun d => { d with candidates := d.candidates ++ [c] }
    let s := (s.record (.produced port c data.complete)).onCandidateReady protocol port c
    if final then s.onPortReady port else s

/-- `AddAllocatedPort`. -/
def addAllocatedPort (s : AllocatorSession κ) (seq : Nat) : AllocatorSession κ :=
  if seq < s.sequences.length then
    let data : PortData κ := ⟨s.nextPort, seq, .init, []⟩
    let s := s.record (.portAdded s.nextPort seq)
    { s with ports := s.ports ++ [data], nextPort := s.nextPort + 1 }
  else s

/-- What a port does, and what the session makes of it. -/
def act (s : AllocatorSession κ) : PortAction κ → AllocatorSession κ
  | .addAllocatedPort seq => s.addAllocatedPort seq
  | .addAddress port c final => s.addAddress protocol port c final
  | .addressReady port => s.onPortReady port
  | .addressError port => s.onAddressError port
  | .destroyed port => s.onPortDestroyed port

/-! ## Phases -/

/-- `OnProtocolEnabled`. -/
def onProtocolEnabled (s : AllocatorSession κ) (seq : Nat) (proto : ProtocolType) :
    AllocatorSession κ :=
  let candidates := (s.ports.filter fun d => d.sequence = seq).flatMap fun d =>
    d.candidates.filter fun c => stringToProto (protocol c) = some proto
  if candidates ≠ [] then s.record (.candidatesReady candidates) else s

/-- `EnableProtocol`. -/
def enableProtocol (s : AllocatorSession κ) (seq : Nat) (proto : ProtocolType) :
    AllocatorSession κ :=
  if seq < s.sequences.length ∧ ¬ s.protocolEnabled seq proto then
    let s := s.setSequence seq fun q => { q with protocols := q.protocols ++ [proto] }
    (s.record (.enabled seq proto)).onProtocolEnabled protocol seq proto
  else s

/-- `AllocationSequence::OnMessage`: one phase, with what the ports do that it creates. -/
def perform (s : AllocatorSession κ) (seq : Nat) (phase : AllocationPhase)
    (created : List (PortAction κ)) : AllocatorSession κ :=
  match phase with
  | .udp => (created.foldl (act protocol) s).enableProtocol protocol seq .udp
  | .relay => created.foldl (act protocol) s
  | .tcp => (created.foldl (act protocol) s).enableProtocol protocol seq .tcp
  | .ssltcp =>
    let s := s.setSequence seq fun q => { q with state := .completed }
    let s := s.enableProtocol protocol seq .ssltcp
    -- All phases in AllocationSequence are completed. Canceling pending signal.
    let s := s.setSequence seq fun q => { q with pending := 0, state := .completed }
    -- `SignalPortAllocationComplete` is connected after `Init`.
    if (s.sequences[seq]?).any fun q => q.listed then s.maybeSignalCandidatesAllocationDone else s

/-- `AllocationSequence::OnMessage`: one phase. -/
def onMessage (s : AllocatorSession κ) (seq : Nat)
    (created : AllocationPhase → List (PortAction κ)) : AllocatorSession κ :=
  match s.sequences[seq]? with
  | none => s
  | some q =>
    -- Perform all of the phases in the current step.
    let s := AllocationPhase.all.foldl (fun s phase =>
      if q.stepOfPhase phase = q.step then s.perform protocol seq phase (created phase) else s) s
    s.setSequence seq fun q => { q with
      step := q.step + 1
      pending := if q.state = .running then q.pending + 1 else q.pending }

/-- `AllocationSequence::Start`. -/
def startSequence (q : AllocationSequence) : AllocationSequence :=
  { q with state := .running, pending := q.pending + 1 }

/-- `AllocationSequence::Stop`. -/
def stopSequence (q : AllocationSequence) : AllocationSequence :=
  -- If the port is completed, don't set it to stopped.
  if q.state = .running then { q with state := .stopped, pending := 0 } else q

/-- `DoAllocate`: one new sequence, with its constructor and `Init`. -/
def newSequence (s : AllocatorSession κ) (bestWritablePhase : Int)
    (created : AllocationPhase → List (PortAction κ)) : AllocatorSession κ :=
  let seq := s.sequences.length
  let sequence : AllocationSequence := ⟨.init, 0, bestWritablePhase.toNat, [], 0, false⟩
  let s := { s with sequences := s.sequences ++ [sequence] }
  -- Immediately perform phase 0.
  let s := s.onMessage protocol seq created
  s.setSequence seq fun q => { (if s.running then startSequence q else q) with listed := true }

/-! ## The session -/

/-- `StartGetAllPorts`. -/
def startGetAllPorts (s : AllocatorSession κ) : AllocatorSession κ :=
  { s with
    running := true
    sequences := s.sequences.map fun q => if q.listed then startSequence q else q }

/-- `StopGetAllPorts`; it posts `MSG_CONFIG_STOP`. -/
def stopGetAllPorts (s : AllocatorSession κ) : AllocatorSession κ :=
  { s with
    running := false
    sequences := s.sequences.map fun q => if q.listed then stopSequence q else q }

/-- `OnConfigStop`. -/
def onConfigStop (s : AllocatorSession κ) : AllocatorSession κ :=
  -- If any of the allocated ports have not completed the candidates allocation, mark those as
  -- error.
  let sendSignal := s.ports.any (fun d => !d.complete) ||
    s.sequences.any fun q => q.listed && q.state = .stopped
  let s := { s with ports := s.ports.map fun d =>
    if d.complete then d else { d with state := .error } }
  -- If we stopped anything that was running, send a done signal now.
  if sendSignal then s.maybeSignalCandidatesAllocationDone else s

/-- `OnAllocationSequenceObjectsCreated`. -/
def onSequencesCreated (s : AllocatorSession κ) : AllocatorSession κ :=
  { s with sequencesCreated := true }.maybeSignalCandidatesAllocationDone

/-- What happens to a session. -/
inductive Event (κ : Type*) where
  | newSequence (bestWritablePhase : Int) (created : AllocationPhase → List (PortAction κ))
  | phase (seq : Nat) (created : AllocationPhase → List (PortAction κ))
  | port (action : PortAction κ)
  | enableProtocol (seq : Nat) (proto : ProtocolType)
  | sequencesCreated
  | start
  | stop
  | configStop

/-- One event. A phase needs its message. -/
def step (s : AllocatorSession κ) : Event κ → AllocatorSession κ
  | .newSequence best created => s.newSequence protocol best created
  | .phase seq created =>
    if (s.sequences[seq]?).any fun q => decide (0 < q.pending) then
      let s := s.setSequence seq fun q => { q with pending := q.pending - 1 }
      s.onMessage protocol seq created
    else s
  | .port action => s.act protocol action
  | .enableProtocol seq proto => s.enableProtocol protocol seq proto
  | .sequencesCreated => s.onSequencesCreated
  | .start => s.startGetAllPorts
  | .stop => s.stopGetAllPorts
  | .configStop => s.onConfigStop

/-- Events one after another. -/
def run (s : AllocatorSession κ) (es : List (Event κ)) : AllocatorSession κ :=
  es.foldl (step protocol) s

end

end AllocatorSession

end Libjingle
