import Libjingle.P2p.TurnRelay
import Libjingle.P2p.TurnPermissions

/-!
# Channel numbers and peers (`turnserver.cc`)

One list, `channels_`, is looked up by two keys. A `ChannelBind` request is accepted when both
lookups give the same pointer, and a channel leaves the list by a timer of its own. The pointers are
the `uid`s of the channels.

## Results

* **`channels_bijective`**: numbers and peers correspond in every state of every run; a request that
  would break it changes nothing; what comes back on the channel of a peer goes to that peer, as
  long as the channel lives.
-/

namespace Libjingle

open Lib StunMessage

namespace Allocation

variable {hmac : List U8 → List U8 → Digest} {cfg : TurnConfig} {a a' a'' : Allocation}
  {now : U32} {id : Nat} {peer : SocketAddress}

/-! ## The invariant -/

/-- The channels are bound, and each is an object of its own. -/
structure Registered (a : Allocation) : Prop extends a.Bound where
  uids : (a.channels.map TurnChannel.uid).Nodup
  fresh : ∀ c ∈ a.channels, c.uid < a.nextId

/-- A channel of the later allocation is one of the earlier, or a new object. -/
structure Descends (a a' : Allocation) : Prop where
  nextId : a.nextId ≤ a'.nextId
  channels : ∀ c' ∈ a'.channels,
    (∃ c ∈ a.channels, c.uid = c'.uid ∧ c.id = c'.id ∧ c.peer = c'.peer) ∨ a.nextId ≤ c'.uid

theorem Descends.of_subset (hn : a.nextId ≤ a'.nextId) (hc : a'.channels ⊆ a.channels) :
    a.Descends a' := ⟨hn, fun c hmem => Or.inl ⟨c, hc hmem, rfl, rfl, rfl⟩⟩

theorem Descends.of_channels (hc : a'.channels = a.channels) (hn : a.nextId ≤ a'.nextId) :
    a.Descends a' := by
  refine .of_subset hn ?_
  rw [hc]
  exact List.Subset.refl _

theorem Descends.refl (a : Allocation) : a.Descends a := .of_channels rfl le_rfl

theorem Descends.trans (h : a.Descends a') (h' : a'.Descends a'') : a.Descends a'' := by
  refine ⟨h.nextId.trans h'.nextId, fun c'' hc'' => ?_⟩
  rcases h'.channels c'' hc'' with ⟨c', hc', huid, hid, hpeer⟩ | hnew
  · rcases h.channels c' hc' with ⟨c, hc, huid', hid', hpeer'⟩ | hnew
    · exact Or.inl ⟨c, hc, huid'.trans huid, hid'.trans hid, hpeer'.trans hpeer⟩
    · exact Or.inr (huid ▸ hnew)
  · exact Or.inr (h.nextId.trans hnew)

theorem Registered.of_channels (h : a.Registered) (hc : a'.channels = a.channels)
    (hn : a.nextId ≤ a'.nextId) : a'.Registered := by
  refine ⟨h.toBound.of_channels hc, ?_, ?_⟩
  · rw [hc]
    exact h.uids
  · rw [hc]
    exact fun c hmem => Nat.lt_of_lt_of_le (h.fresh c hmem) hn

theorem Registered.eq_of_uid (h : a.Registered) {c d : TurnChannel} (hc : c ∈ a.channels)
    (hd : d ∈ a.channels) (huid : c.uid = d.uid) : c = d :=
  List.inj_on_of_nodup_map h.uids hc hd huid

/-- **A channel that lives on keeps its number and its peer.** -/
theorem Registered.same_channel (h : a.Registered) (hd : a.Descends a') {c c' : TurnChannel}
    (hc : c ∈ a.channels) (hc' : c' ∈ a'.channels) (huid : c'.uid = c.uid) :
    c'.id = c.id ∧ c'.peer = c.peer := by
  rcases hd.channels c' hc' with ⟨d, hmem, hsame, hid, hpeer⟩ | hnew
  · obtain rfl := h.eq_of_uid hmem hc (hsame.trans huid)
    exact ⟨hid.symm, hpeer.symm⟩
  · have hlt := h.fresh c hc
    omega

/-! ## One event -/

theorem Registered.bindChannel (h : a.Registered) (now : U32)
    (hrange : kMinChannelNumber ≤ id ∧ id ≤ kMaxChannelNumber)
    (huid : (a.findChannelId id).map TurnChannel.uid =
      (a.findChannelPeer peer).map TurnChannel.uid) :
    (a.bindChannel now id peer).Registered ∧ a.Descends (a.bindChannel now id peer) := by
  have hbound : (a.bindChannel now id peer).Bound := h.toBound.bindChannel hrange huid
  unfold Allocation.bindChannel at hbound ⊢
  cases hfind : a.findChannelId id with
  | none =>
    simp only [hfind] at hbound ⊢
    refine ⟨⟨hbound, ?_, fun c hc => ?_⟩, Nat.le_succ _, fun c hc => ?_⟩
    · rw [List.map_append]
      refine List.nodup_append.mpr ⟨h.uids, List.nodup_singleton _, ?_⟩
      rintro x hx y hy rfl
      obtain ⟨c, hc, rfl⟩ := List.mem_map.mp hx
      have hlt := h.fresh c hc
      rw [List.mem_singleton.mp hy] at hlt
      exact absurd hlt (Nat.lt_irrefl _)
    · rcases List.mem_append.mp hc with hc | hc
      · exact Nat.lt_succ_of_lt (h.fresh c hc)
      · obtain rfl := List.mem_singleton.mp hc
        exact Nat.lt_succ_self _
    · rcases List.mem_append.mp hc with hc | hc
      · exact Or.inl ⟨c, hc, rfl, rfl, rfl⟩
      · obtain rfl := List.mem_singleton.mp hc
        exact Or.inr le_rfl
  | some channel =>
    simp only [hfind] at hbound ⊢
    have hsame : ∀ c : TurnChannel, (if c.uid = channel.uid then
        { c with timeout := now + kChannelTimeout } else c).uid = c.uid := fun c => by
      split <;> rfl
    refine ⟨⟨hbound, ?_, fun c hc => ?_⟩, le_rfl, fun c hc => ?_⟩
    · simp only [List.map_map, Function.comp_def, hsame]
      exact h.uids
    · obtain ⟨c', hc', rfl⟩ := List.mem_map.mp hc
      rw [hsame]
      exact h.fresh c' hc'
    · obtain ⟨c', hc', rfl⟩ := List.mem_map.mp hc
      refine Or.inl ⟨c', hc', (hsame c').symm, ?_, ?_⟩
      · split <;> rfl
      · split <;> rfl

/-- **An event keeps the channels registered, and every channel what it is.** -/
theorem Registered.after (h : a.Registered) {e : AllocationEvent}
    (he : a.after hmac cfg e = some a') : a'.Registered ∧ a.Descends a' := by
  unfold Allocation.after at he
  cases e with
  | message now msg =>
    obtain ⟨⟨a₁, out⟩, hmsg, rfl⟩ := Option.map_eq_some_iff.mp he
    rcases handleTurnMessage_channels hmsg with ⟨hc, hn⟩ | ⟨id, peer, hrange, huid, hc, hn⟩
    · exact ⟨h.of_channels hc hn, .of_channels hc hn⟩
    · obtain ⟨hbind, hd⟩ := h.bindChannel now hrange huid
      exact ⟨hbind.of_channels hc hn, hd.trans (.of_channels hc hn)⟩
  | external data addr transactionId =>
    obtain ⟨_, -, rfl⟩ := Option.map_eq_some_iff.mp he
    exact ⟨h, .refl a⟩
  | permissionTimeout now id =>
    obtain rfl := Option.some.inj he
    split
    · exact ⟨h.of_channels rfl le_rfl, .of_channels rfl le_rfl⟩
    · exact ⟨h, .refl a⟩
  | channelTimeout now uid =>
    obtain rfl := Option.some.inj he
    split
    · have hsub : (a.onChannelTimeout uid).channels.Sublist a.channels := List.filter_sublist
      refine ⟨⟨h.toBound.of_sublist hsub, h.uids.sublist (hsub.map _), fun c hc => ?_⟩,
        .of_subset le_rfl hsub.subset⟩
      exact h.fresh c (hsub.subset hc)
    · exact ⟨h, .refl a⟩
  | channelData data =>
    obtain rfl := Option.some.inj he
    exact ⟨h, .refl a⟩
  | timeout now =>
    obtain rfl := Option.some.inj he
    exact ⟨h, .refl a⟩

/-! ## Requests that are rejected -/

/-- The number is bound to another peer, or the peer to another number. -/
def Conflicts (a : Allocation) (id : Nat) (peer : SocketAddress) : Prop :=
  ∃ c ∈ a.channels, (c.id = id ∧ c.peer ≠ peer) ∨ (c.peer = peer ∧ c.id ≠ id)

/-- **The two lookups differ exactly if the request conflicts with a channel.** -/
theorem Registered.lookups_ne_iff (h : a.Registered) :
    (a.findChannelId id).map TurnChannel.uid ≠ (a.findChannelPeer peer).map TurnChannel.uid ↔
      a.Conflicts id peer := by
  have hnumber : ∀ {c}, a.findChannelId id = some c → c ∈ a.channels ∧ c.id = id := fun hc =>
    ⟨List.mem_of_find?_eq_some hc, by simpa using List.find?_some hc⟩
  have hpeer : ∀ {c}, a.findChannelPeer peer = some c → c ∈ a.channels ∧ c.peer = peer :=
    fun hc => ⟨List.mem_of_find?_eq_some hc, by simpa using List.find?_some hc⟩
  constructor
  · intro hne
    cases hid : a.findChannelId id with
    | some c =>
      obtain ⟨hc, rfl⟩ := hnumber hid
      refine ⟨c, hc, Or.inl ⟨rfl, fun hsame => hne ?_⟩⟩
      rw [hid, ← hsame, h.toBound.findChannelPeer hc]
    | none =>
      cases hp : a.findChannelPeer peer with
      | none =>
        rw [hid, hp] at hne
        exact absurd rfl hne
      | some c =>
        obtain ⟨hc, rfl⟩ := hpeer hp
        refine ⟨c, hc, Or.inr ⟨rfl, fun hsame => ?_⟩⟩
        rw [← hsame, h.toBound.findChannelId hc] at hid
        cases hid
  · rintro ⟨c, hc, ⟨rfl, hother⟩ | ⟨rfl, hother⟩⟩ hsame
    · rw [h.toBound.findChannelId hc] at hsame
      obtain ⟨d, hd, huid⟩ := Option.map_eq_some_iff.mp hsame.symm
      obtain ⟨hmem, hdpeer⟩ := hpeer hd
      obtain rfl := h.eq_of_uid hmem hc huid
      exact hother hdpeer
    · rw [h.toBound.findChannelPeer hc] at hsame
      obtain ⟨d, hd, huid⟩ := Option.map_eq_some_iff.mp hsame
      obtain ⟨hmem, hdid⟩ := hnumber hd
      obtain rfl := h.eq_of_uid hmem hc huid
      exact hother hdid

/-- A `ChannelBind` request that conflicts with a channel is answered with an error, and changes
nothing. -/
theorem Registered.rejects (h : a.Registered) {msg : StunMessage} {number : U32}
    (htype : msg.type = turnChannelBindRequest)
    (hnumber : msg.getUInt32 stunAttrChannelNumber = some number)
    (hpeer : msg.getAddress stunAttrXorPeerAddress = some peer)
    (hconflict : a.Conflicts (number >>> 16).toNat peer) :
    a.handleTurnMessage hmac cfg now msg = some (a, [a.sendBadRequestResponse cfg msg]) := by
  have hother : ∀ type : U16, turnChannelBindRequest ≠ type → msg.type ≠ type := by
    intro type hne hsame
    exact hne (htype.symm.trans hsame)
  unfold Allocation.handleTurnMessage
  rw [if_neg (hother _ (by decide)), if_neg (hother _ (by decide)), if_neg (hother _ (by decide)),
    if_neg (hother _ (by decide)), if_pos htype]
  unfold handleChannelBindRequest
  rw [hnumber, hpeer]
  dsimp only
  rw [if_pos (h.lookups_ne_iff.mpr hconflict), ite_self]

/-! ## Relayed data -/

variable {c : TurnChannel}

theorem Registered.onExternalPacket (h : a.Registered) (hc : c ∈ a.channels)
    (data transactionId : List U8) : a.onExternalPacket cfg data c.peer transactionId =
      some [.channelData a.client (channelMessage c.id data)] := by
  unfold Allocation.onExternalPacket
  rw [h.toBound.findChannelPeer hc]
  rfl

theorem Registered.handleChannelData (h : a.Registered) (hc : c ∈ a.channels) (data : List U8) :
    a.handleChannelData (channelMessage c.id data) = [.relay a.relayed c.peer data] := by
  have hmax : c.id ≤ 0x7FFF := (h.range c hc).2
  unfold Allocation.handleChannelData
  rw [channelMessage_id (by omega), h.toBound.findChannelId hc, channelMessage_data]

end Allocation

/-! ## Runs -/

namespace AllocationState

variable {hmac : List U8 → List U8 → Digest} {cfg : TurnConfig}

open Allocation

theorem step_alive {s : AllocationState} {e : AllocationEvent} {a' : Allocation}
    {permitted' : List IPAddress} (h : s.step hmac cfg e = .alive a' permitted') :
    ∃ a permitted, s = .alive a permitted ∧ a.after hmac cfg e = some a' := by
  cases s with
  | alive a permitted =>
    refine ⟨a, permitted, rfl, ?_⟩
    unfold AllocationState.step at h
    dsimp only at h
    split at h
    · split at h <;> cases h
    · split at h
      · rename_i a₁ hafter
        cases h
        exact hafter
      · cases h
  | deleted => cases h
  | undefined => cases h

theorem run_alive {es : List AllocationEvent} : ∀ {s : AllocationState} {a' : Allocation}
    {permitted' : List IPAddress}, s.run hmac cfg es = .alive a' permitted' →
    ∃ a permitted, s = .alive a permitted ∧ (a.Registered → a'.Registered ∧ a.Descends a') := by
  induction es with
  | nil => exact fun h => ⟨_, _, h, fun hr => ⟨hr, .refl _⟩⟩
  | cons e es ih =>
    intro s a' permitted' h
    obtain ⟨a₁, permitted₁, hstep, hrest⟩ := ih h
    obtain ⟨a, permitted, rfl, hafter⟩ := step_alive hstep
    refine ⟨a, permitted, rfl, fun hr => ?_⟩
    obtain ⟨hr₁, hd₁⟩ := hr.after hafter
    obtain ⟨hr', hd'⟩ := hrest hr₁
    exact ⟨hr', hd₁.trans hd'⟩

/-- **Channel numbers and peers correspond** in every state of every run; a request for a number or
a peer that is bound otherwise changes nothing; and what is sent on the channel of a peer goes to
that peer, as long as the channel lives. -/
theorem channels_bijective (hmac : List U8 → List U8 → Digest) (cfg : TurnConfig)
    (client relayed : SocketAddress) (key : List U8) {es : List AllocationEvent} {a : Allocation}
    {permitted : List IPAddress}
    (hrun : (new client relayed key).run hmac cfg es = .alive a permitted) :
    ((a.channels.map TurnChannel.id).Nodup ∧ (a.channels.map TurnChannel.peer).Nodup ∧
      ∀ c ∈ a.channels, 0x4000 ≤ c.id ∧ c.id ≤ 0x7FFF) ∧
    (∀ now msg (number : U32) peer, msg.type = turnChannelBindRequest →
      msg.getUInt32 stunAttrChannelNumber = some number →
      msg.getAddress stunAttrXorPeerAddress = some peer →
      a.Conflicts (number >>> 16).toNat peer →
      a.handleTurnMessage hmac cfg now msg = some (a, [a.sendBadRequestResponse cfg msg])) ∧
    ∀ later a' permitted', (alive a permitted).run hmac cfg later = .alive a' permitted' →
      ∀ c ∈ a.channels, ∀ c' ∈ a'.channels, c'.uid = c.uid → ∀ data transactionId reply,
        a.onExternalPacket cfg data c.peer transactionId =
            some [.channelData a.client (channelMessage c.id data)] ∧
          a'.handleChannelData (channelMessage c.id reply) = [.relay a'.relayed c.peer reply] := by
  have hr : a.Registered := by
    obtain ⟨a₀, permitted₀, hnew, h⟩ := run_alive hrun
    cases hnew
    exact (h ⟨⟨List.nodup_nil, List.nodup_nil, nofun⟩, List.nodup_nil, nofun⟩).1
  refine ⟨⟨hr.ids, hr.peers, hr.range⟩, fun now msg number peer => hr.rejects,
    fun later a' permitted' hlater c hc c' hc' huid data transactionId reply => ?_⟩
  obtain ⟨_, _, hstart, h⟩ := run_alive hlater
  cases hstart
  obtain ⟨hr', hd⟩ := h hr
  obtain ⟨hid, hpeer⟩ := hr.same_channel hd hc hc' huid
  refine ⟨hr.onExternalPacket hc data transactionId, ?_⟩
  rw [← hid, ← hpeer]
  exact hr'.handleChannelData hc' reply

def channelBind (number : U32) (peer : SocketAddress) : StunMessage :=
  ⟨.turn, turnChannelBindRequest, 20, List.replicate 12 0x41,
    [⟨stunAttrChannelNumber, .uint32 (number <<< 16)⟩, ⟨stunAttrXorPeerAddress, .xorAddress peer⟩]⟩

/-- Two channels are bound, and one of them expires. -/
def bindingRun : List AllocationEvent :=
  [.message 1000 (channelBind 0x4000 (sampleAddress 3)),
    .message 2000 (channelBind 0x4001 (sampleAddress 4)),
    .channelTimeout 601000 0]

def boundAllocation : Allocation :=
  ⟨sampleAddress 1, sampleAddress 2, [0x6b], [], [], [], [1, 3],
    [⟨1, (sampleAddress 3).ip, 301000⟩, ⟨3, (sampleAddress 4).ip, 302000⟩],
    [⟨2, 0x4001, sampleAddress 4, 602000⟩], 4⟩

theorem channels_bijective_refusal :
    boundAllocation.handleTurnMessage (fun _ _ => sampleDigest) ⟨[], [], []⟩ 601500
        (channelBind 0x4001 (sampleAddress 3)) =
      some (boundAllocation, [boundAllocation.sendBadRequestResponse ⟨[], [], []⟩
        (channelBind 0x4001 (sampleAddress 3))]) := by
  have hrun : (new (sampleAddress 1) (sampleAddress 2) [0x6b]).run (fun _ _ => sampleDigest)
      ⟨[], [], []⟩ bindingRun =
        .alive boundAllocation [(sampleAddress 3).ip, (sampleAddress 4).ip] := by decide +kernel
  have hconflict : boundAllocation.Conflicts ((0x4001 <<< 16 : U32) >>> 16).toNat
      (sampleAddress 3) :=
    ⟨⟨2, 0x4001, sampleAddress 4, 602000⟩, by decide, Or.inl ⟨by decide, by decide⟩⟩
  exact (channels_bijective _ _ _ _ _ hrun).2.1 601500 _ _ _ rfl rfl rfl hconflict

end AllocationState

end Libjingle
