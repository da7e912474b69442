import Libjingle.P2p.TurnServer
import Libjingle.Lib.Objects

/-!
# The permissions of a TURN allocation (`turnserver.cc`)

A run of one allocation: authorized messages, channel data, packets from peers and timers, in any
order. Beside the allocation runs the list of the peers that should have a permission: those for
which one was installed, and whose timer has not fired since the last refresh.

* `permissions_exact`: `perms_` has one entry for each of these peers and no other, in every run
  in which no timer of a permission fires.
-/

namespace Libjingle

open Lib StunMessage

/-! ## Runs -/

/-- What can happen to an allocation. -/
inductive AllocationEvent where
  | message (now : U32) (msg : StunMessage)
  | channelData (data : List U8)
  | external (data : List U8) (addr : SocketAddress) (transactionId : List U8)
  | permissionTimeout (now : U32) (id : Nat)
  | channelTimeout (now : U32) (uid : Nat)
  | timeout (now : U32)
  deriving DecidableEq

/-- An allocation in a run, with the peers that should have a permission; or it is deleted; or a
deleted permission was accessed. -/
inductive AllocationState where
  | alive (a : Allocation) (permitted : List IPAddress)
  | deleted
  | undefined
  deriving DecidableEq

namespace Allocation

/-- The peer for which a message installs or refreshes a permission. -/
def grantedPeer (a : Allocation) (msg : StunMessage) : Option IPAddress :=
  if msg.type = turnCreatePermissionRequest then
    (msg.getAddress stunAttrXorPeerAddress).map SocketAddress.ip
  else if msg.type = turnChannelBindRequest then
    match msg.getUInt32 stunAttrChannelNumber, msg.getAddress stunAttrXorPeerAddress with
    | some number, some peer =>
      let id := (number >>> 16).toNat
      if kMinChannelNumber ≤ id ∧ id ≤ kMaxChannelNumber ∧
          (a.findChannelId id).map TurnChannel.uid = (a.findChannelPeer peer).map TurnChannel.uid
      then some peer.ip else none
    | _, _ => none
  else none

/-- A permission that fires its timer now. -/
def expiring (a : Allocation) (now : U32) (id : Nat) : Option Permission :=
  a.permissions.find? fun o => o.id = id ∧ TurnServer.due now o.timeout

/-- The peers that should have a permission after an event. -/
def permit (a : Allocation) (permitted : List IPAddress) : AllocationEvent → List IPAddress
  | .message _ msg =>
    match a.grantedPeer msg with
    | some ip => if ip ∈ permitted then permitted else permitted ++ [ip]
    | none => permitted
  | .permissionTimeout now id =>
    match a.expiring now id with
    | some o => permitted.filter (· ≠ o.peer)
    | none => permitted
  | _ => permitted

variable (hmac : List U8 → List U8 → Digest) (cfg : TurnConfig)

/-- The allocation after an event that does not delete it; `none` when a deleted permission is
accessed. -/
def after (a : Allocation) : AllocationEvent → Option Allocation
  | .message now msg => (a.handleTurnMessage hmac cfg now msg).map Prod.fst
  | .external data addr transactionId =>
    (a.onExternalPacket cfg data addr transactionId).map fun _ => a
  | .permissionTimeout now id =>
    some (if (a.expiring now id).isSome then a.onPermissionTimeout id else a)
  | .channelTimeout now uid =>
    some (if a.channels.any fun c => c.uid = uid ∧ TurnServer.due now c.timeout then
      a.onChannelTimeout uid else a)
  | .channelData _ | .timeout _ => some a

/-- The destructor can delete all that `perms_` points to. -/
def intact (a : Allocation) : Bool := a.perms.all fun p => a.permissions.any fun o => o.id = p

/-- The timer of the allocation fires. -/
def expires (a : Allocation) : AllocationEvent → Bool
  | .timeout now => a.timeouts.any fun t => TurnServer.due now t
  | _ => false

end Allocation

namespace AllocationState

variable (hmac : List U8 → List U8 → Digest) (cfg : TurnConfig)

def step : AllocationState → AllocationEvent → AllocationState
  | .alive a permitted, e =>
    if a.expires e then if a.intact then .deleted else .undefined
    else match a.after hmac cfg e with
    | some a' => .alive a' (a.permit permitted e)
    | none => .undefined
  | s, _ => s

def run (s : AllocationState) : List AllocationEvent → AllocationState
  | [] => s
  | e :: es => (s.step hmac cfg e).run es

/-- A new allocation, before it handles its request. -/
def new (client relayed : SocketAddress) (key : List U8) : AllocationState :=
  .alive ⟨client, relayed, key, [], [], [], [], [], [], 0⟩ []

/-- `CheckAuthorization` lets no request without a username through. -/
def Authorized : AllocationEvent → Prop
  | .message _ msg => isStunRequestType msg.type = true → msg.getByteString stunAttrUsername ≠ none
  | _ => True

instance : DecidablePred Authorized
  | .message _ msg => inferInstanceAs
      (Decidable (isStunRequestType msg.type = true → msg.getByteString stunAttrUsername ≠ none))
  | .channelData _ | .external .. | .permissionTimeout .. | .channelTimeout .. | .timeout _ =>
    isTrue trivial

/-- No timer of a permission fires in this event. -/
def Keeps : AllocationState → AllocationEvent → Prop
  | .alive a _, .permissionTimeout now id => a.expiring now id = none
  | _, _ => True

instance (s : AllocationState) (e : AllocationEvent) : Decidable (s.Keeps e) :=
  match s, e with
  | .alive a _, .permissionTimeout now id => inferInstanceAs (Decidable (a.expiring now id = none))
  | .alive .., .message .. | .alive .., .channelData _ | .alive .., .external .. => isTrue trivial
  | .alive .., .channelTimeout .. | .alive .., .timeout _ => isTrue trivial
  | .deleted, _ | .undefined, _ => isTrue trivial

/-- A run in which no timer of a permission fires. -/
def KeepsAll (s : AllocationState) : List AllocationEvent → Prop
  | [] => True
  | e :: es => s.Keeps e ∧ (s.step hmac cfg e).KeepsAll es

end AllocationState

/-! ## The property -/

namespace Allocation

/-- The number of entries of `perms_` for a peer. -/
def entries (a : Allocation) (ip : IPAddress) : Nat :=
  a.perms.countP fun p => a.permissions.any fun o => o.id = p ∧ o.peer = ip

/-- `perms_` has exactly one entry for each permitted peer, its objects exist, and `HasPermission`
answers accordingly. -/
structure Exact (a : Allocation) (permitted : List IPAddress) : Prop where
  entries : ∀ ip, a.entries ip = if ip ∈ permitted then 1 else 0
  referenced : ∀ p ∈ a.perms, ∃ o ∈ a.permissions, o.id = p
  hasPermission : ∀ ip, a.hasPermission ip = some (decide (ip ∈ permitted))

end Allocation

/-- The property of a state in a run: no deleted permission was accessed, and while the allocation
exists its permissions are exact. -/
def AllocationState.Exact : AllocationState → Prop
  | .alive a permitted => a.Exact permitted
  | .deleted => True
  | .undefined => False

/-! ## The invariant -/

namespace Allocation

variable {a : Allocation} {permitted : List IPAddress}

/-- `perms_` points to the permissions that exist, in order; their peers are the permitted ones. -/
structure Linked (a : Allocation) (permitted : List IPAddress) : Prop where
  perms : a.perms = a.permissions.map Permission.id
  peers : a.permissions.map Permission.peer = permitted
  nodup : permitted.Nodup
  ids : (a.permissions.map Permission.id).Nodup
  fresh : ∀ o ∈ a.permissions, o.id < a.nextId

/-- `FindPermission` is a lookup among the objects. -/
theorem Linked.findPermission (h : a.Linked permitted) (addr : IPAddress) :
    a.findPermission addr = some (a.permissions.find? fun o => o.peer = addr) := by
  unfold Allocation.findPermission
  rw [h.perms]
  have hwalk : ∀ l : List Permission, (∀ o ∈ l, o ∈ a.permissions) →
      findPermissionIn a.permissions addr (l.map Permission.id) =
        some (l.find? fun o => o.peer = addr) := by
    intro l
    induction l with
    | nil => exact fun _ => rfl
    | cons o l ih =>
      intro hl
      have ho : a.permissions.find? (fun o' => o'.id = o.id) = some o :=
        find_of_mem h.ids (hl o List.mem_cons_self)
      rw [List.map_cons, findPermissionIn, ho, List.find?_cons]
      by_cases hp : o.peer = addr
      · simp [hp]
      · simp only [hp, if_false, decide_false]
        exact ih fun o' ho' => hl o' (List.mem_cons_of_mem _ ho')
  exact hwalk a.permissions fun _ ho => ho

theorem Linked.hasPermission (h : a.Linked permitted) (ip : IPAddress) :
    a.hasPermission ip = some (decide (ip ∈ permitted)) := by
  unfold Allocation.hasPermission
  rw [h.findPermission, Option.map_some, ← h.peers]
  congr 1
  rw [Bool.eq_iff_iff, List.find?_isSome]
  simp

theorem Linked.exact (h : a.Linked permitted) : a.Exact permitted := by
  refine ⟨fun ip => ?_, fun p hp => ?_, h.hasPermission⟩
  · unfold Allocation.entries
    rw [h.perms, List.countP_map]
    have hcount : a.permissions.countP ((fun p => a.permissions.any fun o =>
        decide (o.id = p ∧ o.peer = ip)) ∘ Permission.id) =
          (a.permissions.map Permission.peer).count ip := by
      rw [List.count, List.countP_map]
      refine List.countP_congr fun o ho => ?_
      simp only [Function.comp_apply, List.any_eq_true, decide_eq_true_eq, beq_iff_eq]
      constructor
      · rintro ⟨o', ho', hid, hpeer⟩
        have := (find_of_mem h.ids ho').symm.trans (hid ▸ find_of_mem h.ids ho)
        rw [← Option.some.inj this]
        exact hpeer
      · exact fun hpeer => ⟨o, ho, rfl, hpeer⟩
    rw [hcount, h.peers]
    split
    · rename_i hmem
      exact List.count_eq_one_of_mem h.nodup hmem
    · rename_i hmem
      exact List.count_eq_zero_of_not_mem hmem
  · rw [h.perms] at hp
    obtain ⟨o, ho, rfl⟩ := List.mem_map.mp hp
    exact ⟨o, ho, rfl⟩

theorem Linked.of_eq {a' : Allocation} (h : a.Linked permitted) (hp : a'.perms = a.perms)
    (ho : a'.permissions = a.permissions) (hn : a.nextId ≤ a'.nextId) : a'.Linked permitted := by
  refine ⟨?_, ?_, h.nodup, ?_, ?_⟩
  · rw [hp, ho, h.perms]
  · rw [ho, h.peers]
  · rw [ho]
    exact h.ids
  · rw [ho]
    exact fun o hmem => Nat.lt_of_lt_of_le (h.fresh o hmem) hn

/-- **`AddPermission`** adds an object for a new peer, and refreshes the one of a permitted peer. -/
theorem Linked.addPermission (h : a.Linked permitted) (now : U32) (addr : IPAddress) :
    ∃ a', a.addPermission now addr = some a' ∧
      a'.Linked (if addr ∈ permitted then permitted else permitted ++ [addr]) := by
  unfold Allocation.addPermission
  rw [h.findPermission, Option.map_some]
  refine ⟨_, rfl, ?_⟩
  cases hf : a.permissions.find? fun o => o.peer = addr with
  | none =>
    have hnot : addr ∉ permitted := by
      rw [← h.peers]
      intro hmem
      obtain ⟨o, ho, heq⟩ := List.mem_map.mp hmem
      exact absurd (List.find?_eq_none.mp hf o ho) (by simpa using heq)
    rw [if_neg hnot]
    refine ⟨?_, ?_, ?_, ?_, ?_⟩
    · simp [h.perms]
    · simp [h.peers]
    · exact List.nodup_append.mpr ⟨h.nodup, List.nodup_singleton _, by
        rintro x hx y hy rfl
        exact hnot (List.mem_singleton.mp hy ▸ hx)⟩
    · rw [List.map_append]
      refine List.nodup_append.mpr ⟨h.ids, List.nodup_singleton _, ?_⟩
      rintro x hx y hy rfl
      obtain ⟨o, ho, heq⟩ := List.mem_map.mp hx
      have hlt := h.fresh o ho
      rw [heq, List.mem_singleton.mp hy] at hlt
      exact absurd hlt (Nat.lt_irrefl _)
    · intro o ho
      rcases List.mem_append.mp ho with ho | ho
      · exact Nat.lt_succ_of_lt (h.fresh o ho)
      · obtain rfl := List.mem_singleton.mp ho
        exact Nat.lt_succ_self _
  | some perm =>
    have hmem : addr ∈ permitted := by
      rw [← h.peers]
      exact List.mem_map.mpr ⟨perm, List.mem_of_find?_eq_some hf, by simpa using List.find?_some hf⟩
    rw [if_pos hmem]
    have hid : ∀ o : Permission, (if o.id = perm.id then
        { o with timeout := now + kPermissionTimeout } else o).id = o.id := fun o => by
      split <;> rfl
    have hpeer : ∀ o : Permission, (if o.id = perm.id then
        { o with timeout := now + kPermissionTimeout } else o).peer = o.peer := fun o => by
      split <;> rfl
    refine ⟨?_, ?_, h.nodup, ?_, ?_⟩
    · simp only [List.map_map, Function.comp_def, hid]
      exact h.perms
    · simp only [List.map_map, Function.comp_def, hpeer]
      exact h.peers
    · simp only [List.map_map, Function.comp_def, hid]
      exact h.ids
    · intro o ho
      obtain ⟨o', ho', rfl⟩ := List.mem_map.mp ho
      rw [hid]
      exact h.fresh o' ho'

theorem bindChannel_linked (h : a.Linked permitted) (now : U32) (id : Nat) (peer : SocketAddress) :
    (a.bindChannel now id peer).Linked permitted := by
  unfold bindChannel
  split
  · exact h.of_eq rfl rfl (Nat.le_succ _)
  · exact h.of_eq rfl rfl (Nat.le_refl _)

variable (hmac : List U8 → List U8 → Digest) (cfg : TurnConfig)

/-- **A message to an allocation** whose permissions are linked: it has a result, and afterwards the
peer it names is permitted too. -/
theorem Linked.message (h : a.Linked permitted) (now : U32) {msg : StunMessage}
    (hauth : isStunRequestType msg.type = true → msg.getByteString stunAttrUsername ≠ none) :
    ∃ a', a.after hmac cfg (.message now msg) = some a' ∧
      a'.Linked (a.permit permitted (.message now msg)) := by
  unfold after handleTurnMessage permit grantedPeer
  by_cases halloc : msg.type = stunAllocateRequest
  · have hname := hauth (by rw [halloc]; decide)
    obtain ⟨username, hname⟩ := Option.ne_none_iff_exists'.mp hname
    simp only [halloc, if_true, handleAllocateRequest, hname]
    exact ⟨_, rfl, h.of_eq rfl rfl (Nat.le_refl _)⟩
  by_cases hrefresh : msg.type = turnRefreshRequest
  · simp only [hrefresh]
    exact ⟨_, rfl, h.of_eq rfl rfl (Nat.le_refl _)⟩
  by_cases hsend : msg.type = turnSendIndication
  · have hout : ∃ out, a.handleSendIndication msg = some out := by
      unfold handleSendIndication
      split
      · rw [h.hasPermission]
        exact ⟨_, rfl⟩
      · exact ⟨_, rfl⟩
    obtain ⟨out, hout⟩ := hout
    simp only [hsend, hout]
    exact ⟨a, rfl, h⟩
  by_cases hcreate : msg.type = turnCreatePermissionRequest
  · cases hpeer : msg.getAddress stunAttrXorPeerAddress with
    | none =>
      simp only [hcreate, handleCreatePermissionRequest, hpeer]
      exact ⟨a, rfl, h⟩
    | some peer =>
      obtain ⟨a', ha', hl⟩ := h.addPermission now peer.ip
      simp only [hcreate, handleCreatePermissionRequest, hpeer, ha']
      exact ⟨a', rfl, hl⟩
  by_cases hbind : msg.type = turnChannelBindRequest
  · simp only [if_neg halloc, if_neg hrefresh, if_neg hsend, if_neg hcreate, if_pos hbind]
    unfold handleChannelBindRequest
    cases hnumber : msg.getUInt32 stunAttrChannelNumber with
    | none => exact ⟨a, rfl, h⟩
    | some number =>
    cases hpeer : msg.getAddress stunAttrXorPeerAddress with
    | none => exact ⟨a, rfl, h⟩
    | some peer =>
    simp only
    by_cases hrange : (number >>> 16).toNat < kMinChannelNumber ∨
        (number >>> 16).toNat > kMaxChannelNumber
    · rw [if_pos hrange, if_neg (by omega)]
      exact ⟨a, rfl, h⟩
    by_cases huid : (a.findChannelId (number >>> 16).toNat).map TurnChannel.uid =
        (a.findChannelPeer peer).map TurnChannel.uid
    · obtain ⟨a', ha', hl⟩ :=
        (bindChannel_linked h now (number >>> 16).toNat peer).addPermission now peer.ip
      rw [if_neg hrange, if_neg (not_not.mpr huid), if_pos ⟨by omega, by omega, huid⟩, ha']
      exact ⟨a', rfl, hl⟩
    · rw [if_neg hrange, if_pos huid, if_neg fun hc => huid hc.2.2]
      exact ⟨a, rfl, h⟩
  · simp only [if_neg halloc, if_neg hrefresh, if_neg hsend, if_neg hcreate, if_neg hbind]
    exact ⟨a, rfl, h⟩

/-- **One event** that is not the timer of the allocation, and fires no timer of a permission. -/
theorem Linked.after (h : a.Linked permitted) {e : AllocationEvent}
    (hauth : AllocationState.Authorized e)
    (hkeeps : (AllocationState.alive a permitted).Keeps e) :
    ∃ a', a.after hmac cfg e = some a' ∧ a'.Linked (a.permit permitted e) := by
  cases e with
  | message now msg => exact h.message hmac cfg now hauth
  | channelData data => exact ⟨a, rfl, h⟩
  | external data addr transactionId =>
    have hout : ∃ out, a.onExternalPacket cfg data addr transactionId = some out := by
      unfold onExternalPacket
      split
      · exact ⟨_, rfl⟩
      · rw [h.hasPermission]
        exact ⟨_, rfl⟩
    obtain ⟨out, hout⟩ := hout
    refine ⟨a, ?_, h⟩
    simp only [Allocation.after, hout, Option.map_some]
  | permissionTimeout now id =>
    have hnone : a.expiring now id = none := hkeeps
    refine ⟨a, ?_, ?_⟩
    · simp [Allocation.after, hnone]
    · simpa only [permit, hnone] using h
  | channelTimeout now uid =>
    simp only [Allocation.after, permit]
    split
    · exact ⟨_, rfl, h.of_eq rfl rfl (Nat.le_refl _)⟩
    · exact ⟨_, rfl, h⟩
  | timeout now => exact ⟨a, rfl, h⟩

theorem Linked.intact (h : a.Linked permitted) : a.intact = true := by
  unfold Allocation.intact
  rw [List.all_eq_true]
  intro p hp
  obtain ⟨o, ho, hid⟩ := h.exact.referenced p hp
  exact List.any_eq_true.mpr ⟨o, ho, by simpa using hid⟩

end Allocation

/-! ## Runs -/

namespace AllocationState

variable {hmac : List U8 → List U8 → Digest} {cfg : TurnConfig} {s : AllocationState}

def Linked : AllocationState → Prop
  | .alive a permitted => a.Linked permitted
  | .deleted => True
  | .undefined => False

theorem Linked.step (h : s.Linked) {e : AllocationEvent} (hauth : Authorized e)
    (hkeeps : s.Keeps e) : (s.step hmac cfg e).Linked := by
  cases s with
  | alive a permitted =>
    simp only [AllocationState.step]
    split
    · rw [if_pos (Allocation.Linked.intact h)]
      trivial
    · obtain ⟨a', ha', hl⟩ := Allocation.Linked.after hmac cfg h hauth hkeeps
      rw [ha']
      exact hl
  | deleted => trivial
  | undefined => exact h

theorem Linked.not_exact (h : s.Linked) {e : AllocationEvent} (hfires : ¬ s.Keeps e) :
    ¬ (s.step hmac cfg e).Exact := by
  cases s with
  | deleted => exact absurd trivial hfires
  | undefined => exact absurd h id
  | alive a permitted =>
  cases e with
  | permissionTimeout now id =>
    obtain ⟨o, ho⟩ := Option.ne_none_iff_exists'.mp (show a.expiring now id ≠ none from hfires)
    have hid : o.id = id := by
      have hfound := List.find?_some (p := fun o : Permission =>
        decide (o.id = id ∧ TurnServer.due now o.timeout = true)) ho
      exact (decide_eq_true_eq.mp hfound).1
    have hmem : o ∈ a.permissions := List.mem_of_find?_eq_some ho
    have hstep : (alive a permitted).step hmac cfg (.permissionTimeout now id) =
        .alive (a.onPermissionTimeout id) (permitted.filter (· ≠ o.peer)) := by
      simp [AllocationState.step, Allocation.expires, Allocation.after, Allocation.permit, ho]
    rw [hstep]
    intro hexact
    -- the pointer is still in the list
    have hp : id ∈ (a.onPermissionTimeout id).perms := by
      show id ∈ a.perms
      rw [Allocation.Linked.perms h, ← hid]
      exact List.mem_map_of_mem hmem
    obtain ⟨o', ho', hid'⟩ := Allocation.Exact.referenced hexact id hp
    exact absurd hid' (by simpa using (List.mem_filter.mp ho').2)
  | _ => exact absurd trivial hfires

theorem Linked.exact (h : s.Linked) : s.Exact := by
  cases s with
  | alive a permitted => exact Allocation.Linked.exact h
  | deleted => trivial
  | undefined => exact h

/-- In every state of a run the permissions are exact, if and only if no timer of a permission
fires. -/
theorem Linked.run_iff {es : List AllocationEvent} : ∀ {s : AllocationState}, s.Linked →
    (∀ e ∈ es, Authorized e) →
      ((∀ n, (s.run hmac cfg (es.take n)).Exact) ↔ s.KeepsAll hmac cfg es) := by
  induction es with
  | nil =>
    intro s h _
    refine ⟨fun _ => trivial, fun _ n => ?_⟩
    rw [List.take_nil]
    exact h.exact
  | cons e es ih =>
    intro s h hauth
    have he := hauth e List.mem_cons_self
    have hes := fun e' he' => hauth e' (List.mem_cons_of_mem _ he')
    constructor
    · intro hall
      by_cases hkeeps : s.Keeps e
      · refine ⟨hkeeps, (ih (h.step he hkeeps) hes).mp fun n => ?_⟩
        exact hall (n + 1)
      · exact absurd (hall 1) (h.not_exact hkeeps)
    · rintro ⟨hkeeps, hrest⟩ n
      cases n with
      | zero => exact h.exact
      | succ n => exact (ih (h.step he hkeeps) hes).mpr hrest n

theorem new_linked (client relayed : SocketAddress) (key : List U8) :
    (new client relayed key).Linked :=
  ⟨rfl, rfl, List.nodup_nil, List.nodup_nil, nofun⟩

/-- **The permissions are exact in every state of a run, if and only if no timer of a permission
fires in it**: `perms_` has one entry for each peer with a permission and no other, all its entries
refer to objects that exist, and `HasPermission` answers accordingly. -/
theorem permissions_exact (hmac : List U8 → List U8 → Digest) (cfg : TurnConfig)
    (client relayed : SocketAddress) (key : List U8) {es : List AllocationEvent}
    (hauth : ∀ e ∈ es, Authorized e) :
    (∀ n, ((new client relayed key).run hmac cfg (es.take n)).Exact) ↔
      (new client relayed key).KeepsAll hmac cfg es :=
  (new_linked client relayed key).run_iff hauth

/-- The client, the relayed address and a peer. -/
def sampleAddress (n : U32) : SocketAddress := ⟨.ipv4 (0x0a000000 + n), 5000⟩

def createPermission (peer : SocketAddress) : StunMessage :=
  ⟨.turn, turnCreatePermissionRequest, 20, List.replicate 12 0x41,
    [⟨stunAttrUsername, .byteString [0x75, 0x73, 0x65, 0x72]⟩,
      ⟨stunAttrXorPeerAddress, .xorAddress peer⟩]⟩

/-- Permissions for two peers, and one of them again. -/
def refreshingRun : List AllocationEvent :=
  [.message 1000 (createPermission (sampleAddress 3)),
    .message 2000 (createPermission (sampleAddress 4)),
    .message 200000 (createPermission (sampleAddress 3)),
    .permissionTimeout 301000 0]

theorem permissions_exact_refreshing :
    ((new (sampleAddress 1) (sampleAddress 2) [0x6b]).run (fun _ _ => sampleDigest)
      ⟨[], [], []⟩ refreshingRun).Exact := by
  have hauth : ∀ e ∈ refreshingRun, Authorized e := by decide
  have h := (permissions_exact (fun _ _ => sampleDigest) ⟨[], [], []⟩ (sampleAddress 1)
    (sampleAddress 2) [0x6b] hauth).mpr ⟨trivial, trivial, trivial, by decide, trivial⟩
  exact h 4

/-- A permission is installed, and its timer fires. -/
def expiringRun : List AllocationEvent :=
  [.message 1000 (createPermission (sampleAddress 3)), .permissionTimeout 301000 0]

/-- **The entry of an expired permission dangles.** -/
theorem expired_permission_dangles :
    (∀ e ∈ expiringRun, Authorized e) ∧
      ¬ ((new (sampleAddress 1) (sampleAddress 2) [0x6b]).run (fun _ _ => sampleDigest)
        ⟨[], [], []⟩ expiringRun).Exact := by
  refine ⟨by decide, fun h => ?_⟩
  obtain ⟨o, ho, -⟩ := Allocation.Exact.referenced h 0 (by decide)
  cases ho

end AllocationState

end Libjingle
