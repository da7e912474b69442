import Libjingle.P2p.TurnAuthorization
import Libjingle.Lib.Objects

/-!
# The channels of a TURN server (`turnserver.cc`)

`HandleChannelBindRequest` looks a channel up by its number and by its peer, and takes the request
only if it finds the same channel, or none, both ways.
-/

namespace Libjingle

open Lib StunMessage

/-! ## One allocation -/

namespace Allocation

variable {hmac : List U8 → List U8 → Digest} {cfg : TurnConfig} {a a' : Allocation}
  {out : List TurnOutput} {now : U32} {msg : StunMessage}

/-- The channels have distinct numbers in range and distinct peers. -/
structure Bound (a : Allocation) : Prop where
  ids : (a.channels.map TurnChannel.id).Nodup
  peers : (a.channels.map TurnChannel.peer).Nodup
  range : ∀ c ∈ a.channels, kMinChannelNumber ≤ c.id ∧ c.id ≤ kMaxChannelNumber

theorem Bound.of_channels (h : a.Bound) (hc : a'.channels = a.channels) : a'.Bound := by
  refine ⟨?_, ?_, ?_⟩ <;> rw [hc]
  · exact h.ids
  · exact h.peers
  · exact h.range

theorem Bound.of_sublist (h : a.Bound) (hc : a'.channels.Sublist a.channels) : a'.Bound :=
  ⟨h.ids.sublist (hc.map _), h.peers.sublist (hc.map _), fun c hmem => h.range c (hc.subset hmem)⟩

variable {c : TurnChannel}

theorem Bound.findChannelId (h : a.Bound) (hc : c ∈ a.channels) :
    a.findChannelId c.id = some c := find_of_mem h.ids hc

theorem Bound.findChannelPeer (h : a.Bound) (hc : c ∈ a.channels) :
    a.findChannelPeer c.peer = some c := find_of_mem h.peers hc

theorem addPermission_channels {addr : IPAddress} (h : a.addPermission now addr = some a') :
    a'.channels = a.channels ∧ a.nextId ≤ a'.nextId := by
  obtain ⟨perm, -, rfl⟩ := Option.map_eq_some_iff.mp h
  cases perm with
  | none => exact ⟨rfl, Nat.le_succ _⟩
  | some perm => exact ⟨rfl, le_rfl⟩

theorem Bound.bindChannel (h : a.Bound) {id : Nat} {peer : SocketAddress}
    (hrange : kMinChannelNumber ≤ id ∧ id ≤ kMaxChannelNumber)
    (huid : (a.findChannelId id).map TurnChannel.uid =
      (a.findChannelPeer peer).map TurnChannel.uid) : (a.bindChannel now id peer).Bound := by
  unfold Allocation.bindChannel
  split
  · rename_i hnone
    have hid : ∀ c ∈ a.channels, c.id ≠ id := fun c hc => by
      simpa using List.find?_eq_none.mp hnone c hc
    have hpeer : ∀ c ∈ a.channels, c.peer ≠ peer := fun c hc => by
      rw [hnone, Option.map_none] at huid
      simpa using List.find?_eq_none.mp (Option.map_eq_none_iff.mp huid.symm) c hc
    refine ⟨?_, ?_, fun c hc => ?_⟩
    · rw [List.map_append]
      exact List.nodup_append.mpr ⟨h.ids, List.nodup_singleton _, by
        rintro _ hx _ hy rfl
        obtain ⟨c, hc, heq⟩ := List.mem_map.mp hx
        exact hid c hc (heq.trans (List.mem_singleton.mp hy))⟩
    · rw [List.map_append]
      exact List.nodup_append.mpr ⟨h.peers, List.nodup_singleton _, by
        rintro _ hx _ hy rfl
        obtain ⟨c, hc, heq⟩ := List.mem_map.mp hx
        exact hpeer c hc (heq.trans (List.mem_singleton.mp hy))⟩
    · rcases List.mem_append.mp hc with hc | hc
      · exact h.range c hc
      · obtain rfl := List.mem_singleton.mp hc
        exact hrange
  · rename_i channel _
    have hid : ∀ c : TurnChannel, (if c.uid = channel.uid then
        { c with timeout := now + kChannelTimeout } else c).id = c.id := fun c => by split <;> rfl
    have hpeer : ∀ c : TurnChannel, (if c.uid = channel.uid then
        { c with timeout := now + kChannelTimeout } else c).peer = c.peer := fun c => by
      split <;> rfl
    refine ⟨?_, ?_, fun c hc => ?_⟩
    · simp only [List.map_map, Function.comp_def, hid]
      exact h.ids
    · simp only [List.map_map, Function.comp_def, hpeer]
      exact h.peers
    · obtain ⟨c', hc', rfl⟩ := List.mem_map.mp hc
      rw [hid]
      exact h.range c' hc'

/-- **What a message does to the channels**: one is bound, or they stay as they are. -/
theorem handleTurnMessage_channels
    (hmsg : a.handleTurnMessage hmac cfg now msg = some (a', out)) :
    (a'.channels = a.channels ∧ a.nextId ≤ a'.nextId) ∨
      ∃ id peer, (kMinChannelNumber ≤ id ∧ id ≤ kMaxChannelNumber) ∧
        (a.findChannelId id).map TurnChannel.uid =
          (a.findChannelPeer peer).map TurnChannel.uid ∧
        a'.channels = (a.bindChannel now id peer).channels ∧
        (a.bindChannel now id peer).nextId ≤ a'.nextId := by
  have hsame : ∀ o, some (a, o) = some (a', out) →
      a'.channels = a.channels ∧ a.nextId ≤ a'.nextId := by
    intro o he
    obtain ⟨rfl, -⟩ := Prod.mk.inj (Option.some.inj he)
    exact ⟨rfl, le_rfl⟩
  unfold Allocation.handleTurnMessage at hmsg
  split at hmsg
  · unfold handleAllocateRequest at hmsg
    split at hmsg
    · cases hmsg
    · obtain ⟨rfl, -⟩ := Prod.mk.inj (Option.some.inj hmsg)
      exact Or.inl ⟨rfl, le_rfl⟩
  split at hmsg
  · obtain ⟨rfl, -⟩ := Prod.mk.inj (Option.some.inj hmsg)
    exact Or.inl ⟨rfl, le_rfl⟩
  split at hmsg
  · obtain ⟨_, -, hmsg⟩ := Option.map_eq_some_iff.mp hmsg
    obtain ⟨rfl, -⟩ := Prod.mk.inj hmsg
    exact Or.inl ⟨rfl, le_rfl⟩
  split at hmsg
  · unfold handleCreatePermissionRequest at hmsg
    split at hmsg
    · exact Or.inl (hsame _ hmsg)
    · obtain ⟨_, hadd, hmsg⟩ := Option.map_eq_some_iff.mp hmsg
      obtain ⟨rfl, -⟩ := Prod.mk.inj hmsg
      exact Or.inl (addPermission_channels hadd)
  split at hmsg
  · unfold handleChannelBindRequest at hmsg
    split at hmsg
    · rename_i number peer _ _
      simp only at hmsg
      split at hmsg
      · exact Or.inl (hsame _ hmsg)
      rename_i hrange
      split at hmsg
      · exact Or.inl (hsame _ hmsg)
      rename_i huid
      obtain ⟨_, hadd, hmsg⟩ := Option.map_eq_some_iff.mp hmsg
      obtain ⟨rfl, -⟩ := Prod.mk.inj hmsg
      exact Or.inr ⟨(number >>> 16).toNat, peer, by omega, not_not.mp huid,
        addPermission_channels hadd⟩
    · exact Or.inl (hsame _ hmsg)
  · exact Or.inl (hsame _ hmsg)

/-- **A message keeps the channels distinct.** -/
theorem Bound.handleTurnMessage (h : a.Bound)
    (hmsg : a.handleTurnMessage hmac cfg now msg = some (a', out)) : a'.Bound := by
  rcases handleTurnMessage_channels hmsg with ⟨hc, -⟩ | ⟨id, peer, hrange, huid, hc, -⟩
  · exact h.of_channels hc
  · exact (h.bindChannel hrange huid).of_channels hc

end Allocation

/-! ## The server -/

namespace TurnServer

variable {hmac : List U8 → List U8 → Digest} {hmacMd5 : List U8 → List U8 → List U8}
  {authKey : List U8 → List U8 → List U8} {cfg : TurnConfig} {s s' : TurnServer}
  {out : List TurnOutput} {src : SocketAddress} {msg : StunMessage} {a : Allocation}

/-- The channels of all allocations are distinct. -/
def Bound (s : TurnServer) : Prop := ∀ a ∈ s.allocations, a.Bound

theorem Bound.setAllocation (h : s.Bound) (ha : a.Bound) : (s.setAllocation src a).Bound := by
  intro b hb
  obtain ⟨b', hb', rfl⟩ := List.mem_map.mp hb
  split
  · exact ha
  · exact h b' hb'

theorem Bound.handleAuthorized (h : s.Bound) {now : U32} {key : List U8}
    {socket : Option SocketAddress}
    (hmsg : s.handleAuthorized hmac now src msg key socket = some (s', out)) : s'.Bound := by
  have hsame : ∀ o, some (s, o) = some (s', out) → s'.Bound := by
    intro o he
    obtain ⟨rfl, -⟩ := Prod.mk.inj (Option.some.inj he)
    exact h
  unfold TurnServer.handleAuthorized at hmsg
  split at hmsg
  · split at hmsg
    · unfold handleAllocateRequest at hmsg
      split at hmsg
      · exact hsame _ hmsg
      split at hmsg
      · exact hsame _ hmsg
      split at hmsg
      · exact hsame _ hmsg
      · obtain ⟨⟨a', _⟩, ha', hmsg⟩ := Option.map_eq_some_iff.mp hmsg
        obtain ⟨rfl, -⟩ := Prod.mk.inj hmsg
        have hnew : a'.Bound := by
          refine Allocation.Bound.handleTurnMessage ?_ ha'
          exact ⟨List.nodup_nil, List.nodup_nil, List.forall_mem_nil _⟩
        intro b hb
        rcases List.mem_append.mp hb with hb | hb
        · exact h b hb
        · rw [List.mem_singleton.mp hb]
          exact hnew
    · exact hsame _ hmsg
  · rename_i a hfind
    split at hmsg
    · split at hmsg
      · exact hsame _ hmsg
      · obtain ⟨⟨a', _⟩, ha', hmsg⟩ := Option.map_eq_some_iff.mp hmsg
        obtain ⟨rfl, -⟩ := Prod.mk.inj hmsg
        exact h.setAllocation ((h a (findAllocation_some hfind).1).handleTurnMessage ha')
    · exact hsame _ hmsg

/-- **Every event keeps the channels distinct.** -/
theorem Bound.step (h : s.Bound) {e : TurnEvent}
    (hstep : s.step hmac hmacMd5 authKey e = some (s', out)) : s'.Bound := by
  have hsame : ∀ o, some (s, o) = some (s', out) → s'.Bound := by
    intro o he
    obtain ⟨rfl, -⟩ := Prod.mk.inj (Option.some.inj he)
    exact h
  cases e with
  | internal now src data mem socket =>
    simp only [TurnServer.step, onInternalPacket] at hstep
    split at hstep
    · exact hsame _ hstep
    split at hstep
    · unfold handleStunMessage at hstep
      split at hstep
      · exact hsame _ hstep
      split at hstep
      · exact hsame _ hstep
      simp only at hstep
      split at hstep
      · split at hstep
        · exact hsame _ hstep
        · exact h.handleAuthorized hstep
      · exact h.handleAuthorized hstep
    split at hstep
    · exact hsame _ hstep
    · exact hsame _ hstep
  | external client data addr transactionId =>
    simp only [TurnServer.step] at hstep
    split at hstep
    · exact hsame _ hstep
    · obtain ⟨_, -, hstep⟩ := Option.map_eq_some_iff.mp hstep
      exact hsame _ (congrArg some hstep)
  | permissionTimeout now client id =>
    simp only [TurnServer.step] at hstep
    split at hstep
    · exact hsame _ hstep
    · rename_i a hfind
      split at hstep
      · obtain ⟨rfl, -⟩ := Prod.mk.inj (Option.some.inj hstep)
        exact h.setAllocation ((h a (findAllocation_some hfind).1).of_channels rfl)
      · exact hsame _ hstep
  | channelTimeout now client uid =>
    simp only [TurnServer.step] at hstep
    split at hstep
    · exact hsame _ hstep
    · rename_i a hfind
      split at hstep
      · obtain ⟨rfl, -⟩ := Prod.mk.inj (Option.some.inj hstep)
        exact h.setAllocation ((h a (findAllocation_some hfind).1).of_sublist List.filter_sublist)
      · exact hsame _ hstep
  | allocationTimeout now client =>
    simp only [TurnServer.step] at hstep
    split at hstep
    · exact hsame _ hstep
    · split at hstep
      · obtain ⟨t, ht, hstep⟩ := Option.map_eq_some_iff.mp hstep
        obtain ⟨rfl, -⟩ := Prod.mk.inj hstep
        unfold onAllocationTimeout at ht
        split at ht
        · obtain rfl := Option.some.inj ht
          exact fun b hb => h b (List.mem_filter.mp hb).1
        · cases ht
      · exact hsame _ hstep

/-- So it is for every allocation, in every run. -/
theorem Bound.run {es : List TurnEvent} : ∀ {s s' : TurnServer}, s.Bound →
    s.run hmac hmacMd5 authKey es = some s' → s'.Bound := by
  induction es with
  | nil =>
    intro s s' h hrun
    obtain rfl := Option.some.inj hrun
    exact h
  | cons e es ih =>
    intro s s' h hrun
    obtain ⟨⟨t, out⟩, hstep, hrun⟩ := Option.bind_eq_some_iff.mp hrun
    exact ih (h.step hstep) hrun

end TurnServer

end Libjingle
