import Libjingle.P2p.TurnPort

/-!
# STUN requests (`p2p/base/stunrequest.h`, `stunrequest.cc`)

A `StunRequestManager` sends requests again and again until they are answered or time out. The
requests are objects: `requests_` points to them, and so do the messages that they have posted to
the thread. A step that follows a pointer to a deleted request has no result, `none`.

* The order of `requests_` is not observed.
* `OnResponse`, `OnErrorResponse` and `OnTimeout` are those of the subclasses. They may send further
  requests, which are part of the event; none of them deletes one.
* `GetNextDelay` is overridden by two subclasses (`relayport.cc`, `port.cc`).
-/

namespace Libjingle

open StunMessage

/-! ## Requests -/

def maxSends : Nat := 9
def delayUnit : Nat := 100
def delayMaxFactor : Nat := 16
def connectionResponseTimeout : Nat := 5 * 1000

/-- The class whose `GetNextDelay` a request has: its own, that of `AllocateRequest` or that of
`ConnectionRequest`. -/
inductive StunRequestClass where
  | base
  | allocate
  | connection
  deriving DecidableEq

/-- A new request: its message as `Construct` leaves it, with the transaction id that the
constructor has set. -/
structure NewRequest where
  cls : StunRequestClass
  msg : StunMessage
  idLength : msg.transactionId.length = kStunTransactionIdLength
  deriving DecidableEq

/-- `StunRequest`. `uid` stands for its address. -/
structure StunRequest extends NewRequest where
  uid : Nat
  count : Nat
  timeout : Bool
  tstamp : U32
  deriving DecidableEq

def NewRequest.id (r : NewRequest) : List U8 := r.msg.transactionId

namespace StunRequest

def getNextDelay (r : StunRequest) : Nat × StunRequest :=
  match r.cls with
  | .base => (delayUnit * min (1 <<< r.count) delayMaxFactor, { r with
      count := r.count + 1
      timeout := if r.count + 1 = maxSends then true else r.timeout })
  | .allocate => (100 * max (1 <<< r.count) 2, { r with
      count := r.count + 1
      timeout := if r.count + 1 = 5 then true else r.timeout })
  -- Each request is sent only once. After a single delay, the request will time out.
  | .connection => (connectionResponseTimeout, { r with timeout := true })

end StunRequest

/-- What the manager does to the outside: it sends a packet, with the bytes of `Write` if that
returns `true`, or calls a handler of a request. -/
inductive RequestOutput where
  | transmitted (uid : Nat) (packet : Option (List U8))
  | response (uid : Nat) (msg : StunMessage)
  | errorResponse (uid : Nat) (msg : StunMessage)
  | timeout (uid : Nat)
  deriving DecidableEq

/-- `StunRequestManager`: `requests_`, the requests that exist, and what they have posted to the
thread with the time it is due at. -/
structure StunRequestManager where
  requests : List (List U8 × Nat)
  objects : List StunRequest
  pending : List (Nat × U32)
  nextUid : Nat
  deriving DecidableEq

namespace StunRequestManager

/-! ## Operations -/

def new : StunRequestManager := ⟨[], [], [], 0⟩

def object (m : StunRequestManager) (uid : Nat) : Option StunRequest :=
  m.objects.find? fun r => r.uid = uid

def find (m : StunRequestManager) (id : List U8) : Option Nat :=
  (m.requests.find? fun e => e.1 = id).map Prod.snd

/-- `Thread::Clear`. -/
def clearTimers (m : StunRequestManager) (uid : Nat) : StunRequestManager :=
  { m with pending := m.pending.filter fun t => t.1 ≠ uid }

/-- `SendDelayed`, with the constructor of the request. -/
def sendDelayed (m : StunRequestManager) (now : U32) (request : NewRequest) (delay : U32) :
    StunRequestManager :=
  { requests := if m.find request.id = none then m.requests ++ [(request.id, m.nextUid)]
      else m.requests.map fun e => if e.1 = request.id then (e.1, m.nextUid) else e
    objects := m.objects ++ [⟨request, m.nextUid, 0, false, 0⟩]
    pending := m.pending ++ [(m.nextUid, now + delay)]
    nextUid := m.nextUid + 1 }

/-- Requests that are sent one after another. -/
def sendAll (m : StunRequestManager) (now : U32) (added : List (NewRequest × U32)) :
    StunRequestManager := added.foldl (fun m a => m.sendDelayed now a.1 a.2) m

def remove (m : StunRequestManager) (r : StunRequest) : StunRequestManager :=
  match m.find r.id with
  | none => m
  | some _ => clearTimers { m with requests := m.requests.filter fun e => e.1 ≠ r.id } r.uid

/-- `delete` of a request, with its destructor. -/
def delete (m : StunRequestManager) (r : StunRequest) : StunRequestManager :=
  let m := (m.remove r).clearTimers r.uid
  { m with objects := m.objects.filter fun o => o.uid ≠ r.uid }

/-- `delete` of the requests that these pointers point to. -/
def deleteAll (m : StunRequestManager) : List Nat → Option StunRequestManager
  | [] => some m
  | uid :: uids => (m.object uid).bind fun r => (m.delete r).deleteAll uids

def clear (m : StunRequestManager) : Option StunRequestManager :=
  m.deleteAll (m.requests.map Prod.snd)

/-- `CheckResponse` of a message. -/
def checkResponse (m : StunRequestManager) (now : U32) (msg : StunMessage)
    (added : List (NewRequest × U32)) : Option (StunRequestManager × List RequestOutput) :=
  match m.find msg.transactionId with
  | none => some (m, [])
  | some uid => (m.object uid).map fun r =>
    if some msg.type = getStunSuccessResponseType r.msg.type then
      ((m.sendAll now added).delete r, [.response uid msg])
    else if some msg.type = getStunErrorResponseType r.msg.type then
      ((m.sendAll now added).delete r, [.errorResponse uid msg])
    else (m, [])

/-- `CheckResponse` of a packet. -/
def checkPacket (m : StunRequestManager) (now : U32) (data : List U8)
    (added : List (NewRequest × U32)) : Option (StunRequestManager × List RequestOutput) :=
  -- Check the appropriate bytes of the stream to see if they match the transaction ID of a response
  -- we are expecting.
  if data.length < 20 then some (m, [])
  else match m.find ((data.drop 8).take kStunTransactionIdLength) with
  | none => some (m, [])
  | some uid => (m.object uid).bind fun r =>
    -- Parse the STUN message and continue processing as usual.
    match (StunMessage.new r.msg.cls).read data with
    | none => some (m, [])
    | some response => m.checkResponse now response added

/-- `OnMessage`, when the message has left the queue. -/
def onMessage (m : StunRequestManager) (now : U32) (r : StunRequest)
    (added : List (NewRequest × U32)) : StunRequestManager × List RequestOutput :=
  if r.timeout then ((m.sendAll now added).delete r, [.timeout r.uid])
  else
    let (delay, r') := { r with tstamp := now }.getNextDelay
    ({ m with
        objects := m.objects.map fun o => if o.uid = r.uid then r' else o
        pending := m.pending ++ [(r.uid, now + BitVec.ofNat 32 delay)] },
      [.transmitted r.uid r.msg.write])

/-- What can happen to a manager: a request is sent; a packet or a message comes in; the timer of a
request fires; and `Clear`. `added` is what a handler sends. -/
inductive Event where
  | send (now : U32) (request : NewRequest) (delay : U32)
  | packet (now : U32) (data : List U8) (added : List (NewRequest × U32))
  | message (now : U32) (msg : StunMessage) (added : List (NewRequest × U32))
  | timer (now : U32) (uid : Nat) (added : List (NewRequest × U32))
  | clear
  deriving DecidableEq

/-- One event. A timer that is not pending or not due does not fire. -/
def step (m : StunRequestManager) : Event → Option (StunRequestManager × List RequestOutput)
  | .send now request delay => some (m.sendDelayed now request delay, [])
  | .packet now data added => m.checkPacket now data added
  | .message now msg added => m.checkResponse now msg added
  | .timer now uid added =>
    match m.pending.find? fun t => t.1 = uid ∧ 0 ≤ timeDiff now t.2 with
    | none => some (m, [])
    | some t => (m.object uid).map fun r =>
      { m with pending := m.pending.erase t }.onMessage now r added
  | .clear => m.clear.map fun m => (m, [])

/-- Events one after another, and what comes of them. -/
def run (m : StunRequestManager) : List Event → Option (StunRequestManager × List RequestOutput)
  | [] => some (m, [])
  | e :: es => (m.step e).bind fun r => (r.1.run es).map fun r' => (r'.1, r.2 ++ r'.2)

end StunRequestManager

end Libjingle
