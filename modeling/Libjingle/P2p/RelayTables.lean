import Libjingle.Lib.Objects
import Libjingle.P2p.RelayServer

/-!
# The tables of the relay server

What the two maps and the bindings' lists say, without sockets, locks and times. Every event
leaves these tables as they are, adds a connection or a binding with its first connection, or
removes a binding with all of its connections.
-/

namespace Libjingle

open Lib StunMessage

/-! ## The abstract tables -/

/-- A connection, as the tables know it. -/
structure ConnectionKey where
  uid : Nat
  binding : Nat
  addrPair : SocketAddressPair
  deriving DecidableEq

/-- A binding, as the tables know it. -/
structure BindingKey where
  uid : Nat
  username : List U8
  internal : List ConnectionKey
  external : List ConnectionKey
  deriving DecidableEq

structure RelayTables where
  bindings : AList fun _ : List U8 => Nat
  connections : AList fun _ : SocketAddressPair => Nat
  objects : List BindingKey
  nextUid : Nat

def BindingKey.connections (b : BindingKey) : List ConnectionKey := b.internal ++ b.external

/-- A connection is added to one of the two lists. -/
def BindingKey.push (internal : Bool) (c : ConnectionKey) (b : BindingKey) : BindingKey :=
  if internal then { b with internal := b.internal ++ [c] }
  else { b with external := b.external ++ [c] }

namespace RelayTables

/-- The connections listed in all bindings. -/
def listed (t : RelayTables) : List ConnectionKey := t.objects.flatMap BindingKey.connections

/-- `connections_` maps each address pair to the connection that has it, no two connections have the
same pair, and `bindings_` maps each username to its binding. -/
structure Exact (t : RelayTables) : Prop where
  connections : ∀ ap uid, t.connections.lookup ap = some uid ↔
    ∃ c ∈ t.listed, c.addrPair = ap ∧ c.uid = uid
  pairs : (t.listed.map ConnectionKey.addrPair).Nodup
  bindings : ∀ username uid, t.bindings.lookup username = some uid ↔
    ∃ b ∈ t.objects, b.username = username ∧ b.uid = uid

/-- The objects are distinct, a connection belongs to the binding that lists it, and every binding
has an internal connection. -/
structure WellFormed (t : RelayTables) : Prop where
  bindingUids : (t.objects.map BindingKey.uid).Nodup
  connectionUids : (t.listed.map ConnectionKey.uid).Nodup
  bindingFresh : ∀ b ∈ t.objects, b.uid < t.nextUid
  connectionFresh : ∀ c ∈ t.listed, c.uid < t.nextUid
  owner : ∀ b ∈ t.objects, ∀ c ∈ b.connections, c.binding = b.uid
  internal : ∀ b ∈ t.objects, b.internal ≠ []

/-- `WellFormed` and `Exact`. -/
structure Valid (t : RelayTables) : Prop extends WellFormed t, Exact t

/-- A connection of a binding is created. -/
def addConnection (t : RelayTables) (internal : Bool) (binding : Nat) (ap : SocketAddressPair) :
    RelayTables :=
  { t with
    connections := t.connections.insert ap t.nextUid
    objects := t.objects.map fun b =>
      if b.uid = binding then b.push internal ⟨t.nextUid, binding, ap⟩ else b
    nextUid := t.nextUid + 1 }

/-- A binding is created with its first connection. -/
def addBinding (t : RelayTables) (username : List U8) (ap : SocketAddressPair) : RelayTables :=
  { bindings := t.bindings.insert username t.nextUid
    connections := t.connections.insert ap (t.nextUid + 1)
    objects := t.objects ++ [⟨t.nextUid, username, [⟨t.nextUid + 1, t.nextUid, ap⟩], []⟩]
    nextUid := t.nextUid + 2 }

/-- A binding and its connections are deleted; `connections` is what is left of the map. -/
def removeBinding (t : RelayTables) (b : BindingKey)
    (connections : AList fun _ : SocketAddressPair => Nat) : RelayTables :=
  { t with
    bindings := t.bindings.erase b.username
    connections := connections
    objects := t.objects.filter fun b' => b'.uid ≠ b.uid }

/-! ## A new connection -/

variable {t : RelayTables} {internal : Bool} {binding : Nat} {ap : SocketAddressPair}

theorem push_uid (c : ConnectionKey) (b : BindingKey) : (b.push internal c).uid = b.uid := by
  unfold BindingKey.push
  split <;> rfl

theorem push_username (c : ConnectionKey) (b : BindingKey) :
    (b.push internal c).username = b.username := by
  unfold BindingKey.push
  split <;> rfl

theorem push_connections (c : ConnectionKey) (b : BindingKey) :
    (b.push internal c).connections.Perm (c :: b.connections) := by
  unfold BindingKey.push BindingKey.connections
  split
  · rw [List.append_assoc]
    exact List.perm_middle
  · rw [← List.append_assoc]
    exact List.perm_append_singleton c _

variable {b : BindingKey}

theorem push_internal (c : ConnectionKey) (h : b.internal ≠ []) :
    (b.push internal c).internal ≠ [] := by
  unfold BindingKey.push
  split
  · exact List.append_ne_nil_of_left_ne_nil h _
  · exact h

theorem listed_addConnection (internal : Bool) (ap : SocketAddressPair) (h : t.WellFormed)
    (hb : binding ∈ t.objects.map BindingKey.uid) :
    (t.addConnection internal binding ap).listed.Perm (⟨t.nextUid, binding, ap⟩ :: t.listed) :=
  flatMap_update_perm h.bindingUids hb (push_connections _)

theorem uids_addConnection (t : RelayTables) (internal : Bool) (binding : Nat)
    (ap : SocketAddressPair) :
    (t.addConnection internal binding ap).objects.map BindingKey.uid
      = t.objects.map BindingKey.uid := by
  unfold RelayTables.addConnection
  rw [List.map_map]
  refine List.map_congr_left fun b _ => ?_
  simp only [Function.comp_apply]
  split
  · exact push_uid _ b
  · rfl

theorem Exact.notMem_pairs (h : t.Exact) (hap : t.connections.lookup ap = none) :
    ap ∉ t.listed.map ConnectionKey.addrPair := by
  intro hmem
  obtain ⟨c, hc, hpair⟩ := List.mem_map.mp hmem
  have hlookup := (h.connections ap c.uid).mpr ⟨c, hc, hpair, rfl⟩
  rw [hap] at hlookup
  cases hlookup

theorem Exact.mem_pairs (h : t.Exact) {uid : Nat} (hap : t.connections.lookup ap = some uid) :
    ap ∈ t.listed.map ConnectionKey.addrPair := by
  obtain ⟨c, hc, hpair, -⟩ := (h.connections ap uid).mp hap
  exact List.mem_map.mpr ⟨c, hc, hpair⟩

theorem WellFormed.addConnection (h : t.WellFormed)
    (hb : binding ∈ t.objects.map BindingKey.uid) :
    (t.addConnection internal binding ap).WellFormed := by
  have hlisted := listed_addConnection internal ap h hb
  have huids := uids_addConnection t internal binding ap
  refine ⟨huids ▸ h.bindingUids, ?_, fun b hb' => ?_, fun c hc => ?_, fun b hb' c hc => ?_,
    fun b hb' => ?_⟩
  · rw [(hlisted.map _).nodup_iff, List.map_cons, List.nodup_cons]
    refine ⟨fun hmem => ?_, h.connectionUids⟩
    obtain ⟨c, hc, huid⟩ := List.mem_map.mp hmem
    exact absurd huid (Nat.ne_of_lt (h.connectionFresh c hc))
  · have hmem : b.uid ∈ t.objects.map BindingKey.uid := huids ▸ List.mem_map_of_mem hb'
    obtain ⟨b', hb'', huid⟩ := List.mem_map.mp hmem
    exact huid ▸ Nat.lt_succ_of_lt (h.bindingFresh b' hb'')
  · rcases List.mem_cons.mp (hlisted.mem_iff.mp hc) with rfl | hc
    · exact Nat.lt_succ_self _
    · exact Nat.lt_succ_of_lt (h.connectionFresh c hc)
  · obtain ⟨b', hb'', rfl⟩ := List.mem_map.mp hb'
    split at hc
    · rename_i hu
      rw [if_pos hu, push_uid]
      rcases List.mem_cons.mp ((push_connections _ b').mem_iff.mp hc) with rfl | hc
      · exact hu.symm
      · exact h.owner b' hb'' c hc
    · rename_i hu
      rw [if_neg hu]
      exact h.owner b' hb'' c hc
  · obtain ⟨b', hb'', rfl⟩ := List.mem_map.mp hb'
    split
    · exact push_internal _ (h.internal b' hb'')
    · exact h.internal b' hb''

/-- **A connection with a new address pair keeps the tables exact.** -/
theorem Valid.addConnection (internal : Bool) (h : t.Valid)
    (hb : binding ∈ t.objects.map BindingKey.uid) (hap : t.connections.lookup ap = none) :
    (t.addConnection internal binding ap).Valid := by
  have hlisted := listed_addConnection internal ap h.toWellFormed hb
  refine ⟨h.toWellFormed.addConnection hb, fun ap' uid => ?_, ?_, fun username uid => ?_⟩
  · have hmem : (∃ c ∈ (t.addConnection internal binding ap).listed,
        c.addrPair = ap' ∧ c.uid = uid) ↔
        (ap = ap' ∧ t.nextUid = uid) ∨ ∃ c ∈ t.listed, c.addrPair = ap' ∧ c.uid = uid := by
      simp only [hlisted.mem_iff, List.mem_cons, exists_eq_or_imp]
    rw [hmem, ← h.connections ap' uid]
    by_cases heq : ap = ap'
    · subst heq
      simp [RelayTables.addConnection, hap]
    · simp [RelayTables.addConnection, AList.lookup_insert_ne (Ne.symm heq), heq]
  · rw [(hlisted.map _).nodup_iff, List.map_cons, List.nodup_cons]
    exact ⟨h.toExact.notMem_pairs hap, h.pairs⟩
  · rw [show (t.addConnection internal binding ap).bindings = t.bindings from rfl,
      h.bindings username uid]
    constructor
    · rintro ⟨b, hb', hname, huid⟩
      refine ⟨_, List.mem_map_of_mem hb', ?_⟩
      split
      · exact ⟨(push_username _ b).trans hname, (push_uid _ b).trans huid⟩
      · exact ⟨hname, huid⟩
    · rintro ⟨_, hb', hname, huid⟩
      obtain ⟨b, hb'', rfl⟩ := List.mem_map.mp hb'
      refine ⟨b, hb'', ?_⟩
      split at hname
      · rename_i hu
        rw [if_pos hu, push_uid] at huid
        exact ⟨(push_username _ b).symm.trans hname, huid⟩
      · rename_i hu
        rw [if_neg hu] at huid
        exact ⟨hname, huid⟩

/-- **A connection with a pair that is in the map makes two with the same pair.** -/
theorem Valid.not_exact_addConnection (h : t.Valid)
    (hb : binding ∈ t.objects.map BindingKey.uid) {uid : Nat}
    (hap : t.connections.lookup ap = some uid) :
    ¬ (t.addConnection internal binding ap).Exact := by
  intro hexact
  have hpairs := hexact.pairs
  rw [((listed_addConnection internal ap h.toWellFormed hb).map _).nodup_iff, List.map_cons,
    List.nodup_cons] at hpairs
  exact hpairs.1 (h.toExact.mem_pairs hap)

/-! ## A new binding -/

theorem listed_addBinding (username : List U8) (ap : SocketAddressPair) :
    (t.addBinding username ap).listed = t.listed ++ [⟨t.nextUid + 1, t.nextUid, ap⟩] := by
  unfold listed RelayTables.addBinding
  rw [List.flatMap_append, List.flatMap_singleton]
  rfl

theorem WellFormed.addBinding (h : t.WellFormed) (username : List U8) :
    (t.addBinding username ap).WellFormed := by
  refine ⟨?_, ?_, fun b hb => ?_, fun c hc => ?_, fun b hb c hc => ?_, fun b hb => ?_⟩
  · simp only [RelayTables.addBinding, List.map_append, List.map_cons, List.map_nil]
    refine List.nodup_append.mpr ⟨h.bindingUids, List.nodup_singleton _, ?_⟩
    rintro a ha b hb rfl
    obtain ⟨b', hb', rfl⟩ := List.mem_map.mp ha
    exact absurd (List.mem_singleton.mp hb) (Nat.ne_of_lt (h.bindingFresh b' hb'))
  · rw [listed_addBinding, List.map_append]
    refine List.nodup_append.mpr ⟨h.connectionUids, List.nodup_singleton _, ?_⟩
    rintro a ha b hb rfl
    obtain ⟨c, hc, rfl⟩ := List.mem_map.mp ha
    have hlt := h.connectionFresh c hc
    exact absurd (List.mem_singleton.mp hb) (by simp only; omega)
  · rcases List.mem_append.mp hb with hb | hb
    · exact Nat.lt_succ_of_lt (Nat.lt_succ_of_lt (h.bindingFresh b hb))
    · obtain rfl := List.mem_singleton.mp hb
      exact Nat.lt_succ_of_lt (Nat.lt_succ_self _)
  · rw [listed_addBinding] at hc
    rcases List.mem_append.mp hc with hc | hc
    · exact Nat.lt_succ_of_lt (Nat.lt_succ_of_lt (h.connectionFresh c hc))
    · obtain rfl := List.mem_singleton.mp hc
      exact Nat.lt_succ_self _
  · rcases List.mem_append.mp hb with hb | hb
    · exact h.owner b hb c hc
    · obtain rfl := List.mem_singleton.mp hb
      obtain rfl := List.mem_singleton.mp hc
      rfl
  · rcases List.mem_append.mp hb with hb | hb
    · exact h.internal b hb
    · obtain rfl := List.mem_singleton.mp hb
      exact List.cons_ne_nil _ _

/-- **A binding with a new name and a new pair keeps the tables exact.** -/
theorem Valid.addBinding (h : t.Valid) {username : List U8}
    (hname : t.bindings.lookup username = none) (hap : t.connections.lookup ap = none) :
    (t.addBinding username ap).Valid := by
  refine ⟨h.toWellFormed.addBinding username, fun ap' uid => ?_, ?_, fun username' uid => ?_⟩
  · rw [listed_addBinding]
    simp only [List.mem_append, or_and_right, exists_or, List.mem_singleton, exists_eq_left]
    rw [← h.connections ap' uid]
    by_cases heq : ap = ap'
    · subst heq
      simp [RelayTables.addBinding, hap]
    · simp [RelayTables.addBinding, AList.lookup_insert_ne (Ne.symm heq), heq]
  · rw [listed_addBinding, List.map_append]
    refine List.nodup_append.mpr ⟨h.pairs, List.nodup_singleton _, ?_⟩
    rintro a ha b hb rfl
    have heq : a = ap := List.mem_singleton.mp hb
    exact h.toExact.notMem_pairs hap (heq ▸ ha)
  · simp only [RelayTables.addBinding, List.mem_append, or_and_right, exists_or,
      List.mem_singleton, exists_eq_left]
    rw [← h.bindings username' uid]
    by_cases heq : username = username'
    · subst heq
      simp [hname]
    · simp [AList.lookup_insert_ne (Ne.symm heq), heq]

/-! ## A binding goes -/

theorem listed_removeBinding (h : t.WellFormed) (hb : b ∈ t.objects)
    (m : AList fun _ : SocketAddressPair => Nat) :
    t.listed.Perm (b.connections ++ (t.removeBinding b m).listed) :=
  flatMap_remove_perm h.bindingUids hb

variable {m : AList fun _ : SocketAddressPair => Nat}

theorem mem_removeBinding {b b' : BindingKey} :
    b' ∈ (t.removeBinding b m).objects ↔ b' ∈ t.objects ∧ b'.uid ≠ b.uid := by
  unfold RelayTables.removeBinding
  simp only [List.mem_filter, decide_eq_true_eq]

theorem WellFormed.removeBinding (h : t.WellFormed) (hb : b ∈ t.objects)
    (m : AList fun _ : SocketAddressPair => Nat) : (t.removeBinding b m).WellFormed := by
  have hlisted := listed_removeBinding h hb m
  refine ⟨?_, ?_, fun b' hb' => ?_, fun c hc => ?_, fun b' hb' => ?_, fun b' hb' => ?_⟩
  · exact h.bindingUids.sublist (List.filter_sublist.map _)
  · have huids := h.connectionUids
    rw [(hlisted.map _).nodup_iff, List.map_append] at huids
    exact (List.nodup_append.mp huids).2.1
  · exact h.bindingFresh b' (mem_removeBinding.mp hb').1
  · exact h.connectionFresh c (hlisted.mem_iff.mpr (List.mem_append_right _ hc))
  · exact h.owner b' (mem_removeBinding.mp hb').1
  · exact h.internal b' (mem_removeBinding.mp hb').1

theorem Valid.binding_unique (h : t.Valid) {b b' : BindingKey} (hb : b ∈ t.objects)
    (hb' : b' ∈ t.objects) (hname : b'.username = b.username) : b'.uid = b.uid := by
  have hlookup := (h.bindings b.username b.uid).mpr ⟨b, hb, rfl, rfl⟩
  have hlookup' := (h.bindings b.username b'.uid).mpr ⟨b', hb', hname, rfl⟩
  rw [hlookup] at hlookup'
  exact (Option.some.inj hlookup').symm

/-- **A binding that goes with all of its pairs keeps the tables exact.** -/
theorem Valid.removeBinding (h : t.Valid) (hb : b ∈ t.objects)
    (hm : ∀ ap, m.lookup ap = if ap ∈ b.connections.map ConnectionKey.addrPair then none
      else t.connections.lookup ap) : (t.removeBinding b m).Valid := by
  have hlisted := listed_removeBinding h.toWellFormed hb m
  have hpairs := h.pairs
  rw [(hlisted.map _).nodup_iff, List.map_append] at hpairs
  obtain ⟨-, hrest, hdisjoint⟩ := List.nodup_append.mp hpairs
  refine ⟨h.toWellFormed.removeBinding hb m, fun ap uid => ?_, hrest, fun username uid => ?_⟩
  · rw [show (t.removeBinding b m).connections = m from rfl, hm]
    by_cases hap : ap ∈ b.connections.map ConnectionKey.addrPair
    · rw [if_pos hap]
      refine ⟨nofun, ?_⟩
      rintro ⟨c, hc, rfl, -⟩
      exact absurd rfl (hdisjoint _ hap _ (List.mem_map_of_mem hc))
    · rw [if_neg hap, h.connections ap uid]
      simp only [hlisted.mem_iff, List.mem_append]
      constructor
      · rintro ⟨c, hc | hc, hpair, huid⟩
        · exact absurd (List.mem_map.mpr ⟨c, hc, hpair⟩) hap
        · exact ⟨c, hc, hpair, huid⟩
      · rintro ⟨c, hc, hpair, huid⟩
        exact ⟨c, .inr hc, hpair, huid⟩
  · simp only [mem_removeBinding]
    by_cases hname : username = b.username
    · subst hname
      rw [show (t.removeBinding b m).bindings = t.bindings.erase b.username from rfl,
        AList.lookup_erase]
      refine ⟨nofun, ?_⟩
      rintro ⟨b', ⟨hb', hne⟩, hname, -⟩
      exact absurd (h.binding_unique hb hb' hname) hne
    · rw [show (t.removeBinding b m).bindings = t.bindings.erase b.username from rfl,
        AList.lookup_erase_ne hname, h.bindings username uid]
      constructor
      · rintro ⟨b', hb', rfl, huid⟩
        refine ⟨b', ⟨hb', fun heq => hname ?_⟩, rfl, huid⟩
        exact congrArg BindingKey.username (List.inj_on_of_nodup_map h.bindingUids hb' hb heq)
      · rintro ⟨b', ⟨hb', -⟩, hname', huid⟩
        exact ⟨b', hb', hname', huid⟩

end RelayTables

/-! ## The tables of a server -/

/-- What the tables know of a connection. -/
def RelayServerConnection.key (c : RelayServerConnection) : ConnectionKey :=
  ⟨c.uid, c.binding, c.addrPair⟩

/-- What the tables know of a binding. -/
def RelayServerBinding.key (b : RelayServerBinding) : BindingKey :=
  ⟨b.uid, b.username, b.internalConnections.map RelayServerConnection.key,
    b.externalConnections.map RelayServerConnection.key⟩

theorem RelayServerBinding.key_connections (b : RelayServerBinding) :
    b.key.connections = b.connections.map RelayServerConnection.key :=
  List.map_append.symm

namespace RelayServer

def tables (s : RelayServer) : RelayTables :=
  ⟨s.bindings, s.connections, s.objects.map RelayServerBinding.key, s.nextUid⟩

variable {s : RelayServer}

/-! ### Operations that leave the tables as they are -/

variable {f : RelayServerBinding → RelayServerBinding}

theorem tables_updateBinding
    (hf : ∀ b, (f b).key = b.key) (uid : Nat) : (s.updateBinding uid f).tables = s.tables := by
  unfold updateBinding tables
  rw [List.map_map]
  congr 1
  refine List.map_congr_left fun b _ => ?_
  simp only [Function.comp_apply]
  split
  · exact hf b
  · rfl

theorem tables_updateConnection {f : RelayServerConnection → RelayServerConnection}
    (hf : ∀ c, (f c).key = c.key) (uid : Nat) :
    (s.updateConnection uid f).tables = s.tables := by
  have hkey : ∀ c, (if c.uid = uid then f c else c).key = c.key := by
    intro c
    split
    · exact hf c
    · rfl
  unfold updateConnection tables
  rw [List.map_map]
  congr 1
  refine List.map_congr_left fun b _ => ?_
  simp only [Function.comp_apply, RelayServerBinding.key, List.map_map, BindingKey.mk.injEq,
    true_and]
  exact ⟨List.map_congr_left fun c _ => hkey c, List.map_congr_left fun c _ => hkey c⟩

@[simp] theorem tables_noteUsed (uid : Nat) (now : U32) :
    (s.noteUsed uid now).tables = s.tables := by
  unfold noteUsed
  refine tables_updateBinding (fun b => ?_) uid
  rfl

@[simp] theorem tables_lock (uid : Nat) : (s.lock uid).tables = s.tables := by
  unfold lock
  refine tables_updateConnection (fun c => ?_) uid
  rfl

@[simp] theorem tables_setDefaultDestination (uid : Nat) (addr : SocketAddress) :
    (s.setDefaultDestination uid addr).tables = s.tables := by
  unfold setDefaultDestination
  refine tables_updateConnection (fun c => ?_) uid
  rfl

@[simp] theorem tables_onLifetimeTimer (now : U32) (uid : Nat) :
    (s.onLifetimeTimer now uid).tables = s.tables := by
  unfold onLifetimeTimer
  refine tables_updateBinding (fun b => ?_) uid
  split <;> rfl

@[simp] theorem tables_handleStunAllocate (now : U32) (c : RelayServerConnection)
    (b : RelayServerBinding) (request : StunMessage) :
    (s.handleStunAllocate now c b request).1.tables = s.tables :=
  tables_noteUsed b.uid now

@[simp] theorem tables_forward (now : U32) (c : RelayServerConnection) (b : RelayServerBinding)
    (bytes : List U8) : (s.forward now c b bytes).1.tables = s.tables := by
  unfold forward
  split
  · split
    · split
      · exact tables_noteUsed _ now
      · rfl
    · rfl
  · rfl

/-! ### Operations that change them -/

theorem tables_addTo {c : RelayServerConnection}
    {internal : Bool} (hf : ∀ b, (f b).key = b.key.push internal c.key) (hc : c.uid = s.nextUid)
    (now : U32) : (((s.noteUsed c.binding now).updateBinding c.binding f).addConnection c).tables
      = s.tables.addConnection internal c.binding c.addrPair := by
  unfold RelayServer.addConnection tables RelayTables.addConnection noteUsed updateBinding
  simp only [List.map_map, hc]
  congr 1
  refine List.map_congr_left fun b _ => ?_
  simp only [Function.comp_apply]
  by_cases hb : b.uid = c.binding
  · rw [if_pos hb, if_pos (show ({ b with lastUsed := now } : RelayServerBinding).uid = _ from hb),
      if_pos (show b.key.uid = _ from hb), hf]
    simp only [RelayServerBinding.key, RelayServerConnection.key, hc]
  · rw [if_neg hb, if_neg hb, if_neg (show b.key.uid ≠ _ from hb)]

theorem tables_newInternalConnection (now : U32) (binding : Nat) (ap : SocketAddressPair)
    (socket : PacketSocket) :
    (s.newInternalConnection now (s.newConnection binding ap socket)).tables
      = s.tables.addConnection true binding ap := by
  refine tables_addTo (fun b => ?_) rfl now
  simp only [RelayServerBinding.key, BindingKey.push, List.map_append, List.map_cons, List.map_nil,
    if_true]

theorem tables_newExternalConnection (now : U32) (binding : Nat) (ap : SocketAddressPair)
    (socket : PacketSocket) :
    (s.newExternalConnection now (s.newConnection binding ap socket)).tables
      = s.tables.addConnection false binding ap := by
  refine tables_addTo (fun b => ?_) rfl now
  simp only [RelayServerBinding.key, BindingKey.push, List.map_append, List.map_cons, List.map_nil,
    Bool.false_eq_true, if_false]

theorem tables_newBinding (h : s.tables.WellFormed) (now : U32) (username : List U8)
    (lifetime : U32) (ap : SocketAddressPair) :
    (s.newBinding now username lifetime).tables.addConnection true s.nextUid ap
      = s.tables.addBinding username ap := by
  have hold : s.nextUid ∉ s.tables.objects.map BindingKey.uid := by
    intro hmem
    obtain ⟨b, hb, huid⟩ := List.mem_map.mp hmem
    exact absurd huid (Nat.ne_of_lt (h.bindingFresh b hb))
  have hobjects : (s.newBinding now username lifetime).tables.objects
      = s.tables.objects ++ [⟨s.nextUid, username, [], []⟩] := by
    simp only [newBinding, tables, List.map_append, List.map_cons, List.map_nil,
      RelayServerBinding.key]
  unfold RelayTables.addConnection RelayTables.addBinding
  rw [hobjects, List.map_append, map_update_of_notMem hold]
  simp only [newBinding, tables, BindingKey.push, List.map_cons, List.map_nil, if_true,
    List.nil_append]

theorem tables_removeConnections {cs : List RelayServerConnection}
    (hmem : ∀ c ∈ cs, c.addrPair ∈ s.connections)
    (hnodup : (cs.map RelayServerConnection.addrPair).Nodup) :
    ∃ m, s.removeConnections cs = some { s with connections := m } ∧ ∀ ap, m.lookup ap =
      if ap ∈ cs.map RelayServerConnection.addrPair then none else s.connections.lookup ap := by
  induction cs generalizing s with
  | nil => exact ⟨s.connections, rfl, fun ap => by simp⟩
  | cons c cs ih =>
    rw [List.map_cons, List.nodup_cons] at hnodup
    have hrest : ∀ c' ∈ cs, c'.addrPair ∈ s.connections.erase c.addrPair := by
      intro c' hc'
      refine AList.mem_erase.mpr ⟨fun heq => hnodup.1 ?_, hmem c' (List.mem_cons_of_mem _ hc')⟩
      exact heq ▸ List.mem_map_of_mem hc'
    obtain ⟨m, hm, hlookup⟩ :=
      ih (s := { s with connections := s.connections.erase c.addrPair }) hrest hnodup.2
    refine ⟨m, ?_, fun ap => ?_⟩
    · rw [removeConnections, removeConnection, if_pos (hmem c List.mem_cons_self)]
      exact hm
    · rw [hlookup, List.map_cons]
      by_cases hap : ap = c.addrPair
      · subst hap
        simp
      · simp [hap, AList.lookup_erase_ne hap]

end RelayServer

end Libjingle
