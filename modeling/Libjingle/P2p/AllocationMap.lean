import Libjingle.Lib.StdMap
import Libjingle.Base.Network
import Libjingle.P2p.TurnServer

/-!
# The allocations of a TURN server by their connections (`turnserver.cc`)

`allocations_` is a `std::map` whose keys are connections: source, destination and protocol of a
client. `Connection::operator<` says that one connection is less than another one if any of the
three is.

## Results

* **`allocations_found_iff`**: the comparison orders the connections, and `FindAllocation` finds
  just the allocations that exist, exactly if of two connections one is at most the other one.
-/

namespace Libjingle

open Lib Sdp

/-! ## Addresses -/

/-- What IP addresses are ordered by: the family, then the number. -/
def IPAddress.key : IPAddress → ℕ ×ₗ ℕ
  | .unspec => toLex (0, 0)
  | .ipv4 addr => toLex (1, addr.toNat)
  | .ipv6 addr => toLex (2, addr.toNat)

theorem IPAddress.lt_iff (a b : IPAddress) : a.lt b = true ↔ a.key < b.key := by
  cases a <;> cases b <;> simp [IPAddress.lt, IPAddress.key, Prod.Lex.toLex_lt_toLex]

theorem IPAddress.key_inj {a b : IPAddress} : a.key = b.key ↔ a = b := by
  cases a <;> cases b <;> simp [IPAddress.key, BitVec.toNat_inj]

namespace Sdp.HostAddress

/-- `operator<`. -/
def lt (a b : HostAddress) : Bool :=
  if a.ip.lt b.ip then true
  else if b.ip.lt a.ip then false
  -- We only check hostnames if both IPs are zero.
  else if ipIsAny b.ip ∧ a.hostname < b.hostname then true
  else if ipIsAny b.ip ∧ b.hostname < a.hostname then false
  else a.port < b.port

/-- The host name, where it counts. -/
def name (a : HostAddress) : Text := if ipIsAny a.ip then a.hostname else []

def key (a : HostAddress) : (ℕ ×ₗ ℕ) ×ₗ Text ×ₗ ℕ :=
  toLex (a.ip.key, toLex (a.name, a.port.toNat))

variable {a b : HostAddress}

theorem name_lt_iff (h : a.ip = b.ip) :
    a.name < b.name ↔ ipIsAny b.ip = true ∧ a.hostname < b.hostname := by
  unfold name
  rw [h]
  split
  · rename_i hany
    exact ⟨fun hlt => ⟨hany, hlt⟩, fun hlt => hlt.2⟩
  · rename_i hany
    exact iff_of_false (lt_irrefl _) fun hlt => hany hlt.1

theorem name_eq_iff (h : a.ip = b.ip) :
    a.name = b.name ↔ (¬ ipIsAny b.ip = true ∨ a.hostname = b.hostname) := by
  unfold name
  rw [h]
  split
  · rename_i hany
    exact ⟨Or.inr, fun hor => hor.resolve_left (not_not.mpr hany)⟩
  · rename_i hany
    exact iff_of_true rfl (Or.inl hany)

/-- **`operator<` is the order of the key.** -/
theorem lt_iff : a.lt b = true ↔ a.key < b.key := by
  unfold lt key
  rw [Prod.Lex.toLex_lt_toLex, Prod.Lex.toLex_lt_toLex]
  dsimp only
  by_cases hab : a.ip.lt b.ip = true
  · rw [if_pos hab]
    exact iff_of_true rfl (Or.inl ((IPAddress.lt_iff _ _).mp hab))
  rw [if_neg hab]
  rw [IPAddress.lt_iff] at hab
  by_cases hba : b.ip.lt a.ip = true
  · rw [if_pos hba]
    rw [IPAddress.lt_iff] at hba
    refine iff_of_false Bool.false_ne_true ?_
    rintro (hlt | ⟨heq, -⟩)
    · exact hab hlt
    · exact absurd heq (ne_of_gt hba)
  rw [if_neg hba]
  rw [IPAddress.lt_iff] at hba
  have hkey : a.ip.key = b.ip.key := le_antisymm (not_lt.mp hba) (not_lt.mp hab)
  have hip : a.ip = b.ip := IPAddress.key_inj.mp hkey
  have hless := name_lt_iff hip
  have hmore : b.name < a.name ↔ ipIsAny b.ip = true ∧ b.hostname < a.hostname := by
    rw [name_lt_iff hip.symm, hip]
  simp only [← hless, ← hmore]
  by_cases hname : a.name < b.name
  · rw [if_pos hname]
    exact iff_of_true rfl (Or.inr ⟨hkey, Or.inl hname⟩)
  rw [if_neg hname]
  by_cases hname' : b.name < a.name
  · rw [if_pos hname']
    refine iff_of_false Bool.false_ne_true ?_
    rintro (hlt | ⟨-, hlt | ⟨heq, -⟩⟩)
    · exact hab hlt
    · exact hname hlt
    · exact absurd heq (ne_of_gt hname')
  rw [if_neg hname', decide_eq_true_eq, BitVec.lt_def]
  constructor
  · exact fun hlt => Or.inr ⟨hkey, Or.inr ⟨le_antisymm (not_lt.mp hname') (not_lt.mp hname), hlt⟩⟩
  · rintro (hlt | ⟨-, hlt | ⟨-, hlt⟩⟩)
    · exact absurd hlt hab
    · exact absurd hlt hname
    · exact hlt

/-- **`operator==` is the equality of the key.** -/
theorem equal_iff : a.equal b = true ↔ a.key = b.key := by
  have hkey : a.key = b.key ↔ a.ip.key = b.ip.key ∧ a.name = b.name ∧
      a.port.toNat = b.port.toNat := by
    unfold key
    rw [toLex_inj, Prod.mk.injEq, toLex_inj, Prod.mk.injEq]
  rw [hkey, IPAddress.key_inj, BitVec.toNat_inj]
  unfold equal
  simp only [Bool.and_eq_true, Bool.or_eq_true, Bool.not_eq_true', decide_eq_true_eq]
  constructor
  · rintro ⟨⟨hip, hname⟩, hport⟩
    refine ⟨hip, (name_eq_iff hip).mpr ?_, hport⟩
    rw [← hip, Bool.not_eq_true]
    exact hname
  · rintro ⟨hip, hname, hport⟩
    have hname := (name_eq_iff hip).mp hname
    rw [← hip, Bool.not_eq_true] at hname
    exact ⟨⟨hip, hname⟩, hport⟩

end Sdp.HostAddress

/-! ## Connections -/

/-- `TurnServer::ProtocolType`. -/
inductive TurnProtocolType where
  | unknown
  | udp
  | tcp
  | ssltcp
  deriving DecidableEq

def TurnProtocolType.value : TurnProtocolType → Nat
  | unknown => 0
  | udp => 1
  | tcp => 2
  | ssltcp => 3

/-- `TurnServer::Connection`. -/
structure TurnConnection where
  src : HostAddress
  dst : HostAddress
  proto : TurnProtocolType
  deriving DecidableEq

namespace TurnConnection

/-- `operator==`. -/
def equal (a b : TurnConnection) : Bool :=
  a.src.equal b.src && a.dst.equal b.dst && decide (a.proto = b.proto)

/-- `operator<`. -/
def lt (a b : TurnConnection) : Bool :=
  a.src.lt b.src || a.dst.lt b.dst || decide (a.proto.value < b.proto.value)

/-- No field of the first connection is greater than that of the second one. -/
def AtMost (a b : TurnConnection) : Prop :=
  b.src.lt a.src = false ∧ b.dst.lt a.dst = false ∧ a.proto.value ≤ b.proto.value

/-- The fields, by what they are ordered by. -/
def fields (c : TurnConnection) :
    ((ℕ ×ₗ ℕ) ×ₗ Text ×ₗ ℕ) × ((ℕ ×ₗ ℕ) ×ₗ Text ×ₗ ℕ) × ℕ := (c.src.key, c.dst.key, c.proto.value)

variable {a b : TurnConnection} {S : Set TurnConnection}

theorem atMost_iff : a.AtMost b ↔ a.fields ≤ b.fields := by
  have hle : ∀ x y : HostAddress, x.key ≤ y.key ↔ y.lt x = false := fun x y => by
    rw [← not_lt, ← HostAddress.lt_iff, Bool.not_eq_true]
  unfold AtMost fields
  rw [Prod.mk_le_mk, Prod.mk_le_mk, hle, hle]

theorem lt_iff : a.lt b = true ↔ AnyLess fields a b := by
  have hno : ¬ b.AtMost a ↔ a.lt b = true := by
    unfold AtMost lt
    rw [Bool.or_eq_true, Bool.or_eq_true, decide_eq_true_eq, not_and_or, not_and_or,
      Bool.not_eq_false, Bool.not_eq_false, not_le, or_assoc]
  rw [← hno, atMost_iff]
  rfl

theorem value_inj {x y : TurnProtocolType} : x.value = y.value ↔ x = y := by
  cases x <;> cases y <;> decide

theorem equal_iff : a.equal b = true ↔ a.fields = b.fields := by
  unfold equal fields
  rw [Bool.and_eq_true, Bool.and_eq_true, HostAddress.equal_iff, HostAddress.equal_iff,
    decide_eq_true_eq, Prod.mk.injEq, Prod.mk.injEq, value_inj, and_assoc]

theorem same_iff : Same lt a b ↔ a.equal b = true := by
  rw [equal_iff, ← anyLess_incomp_iff, ← lt_iff, ← lt_iff, Bool.not_eq_true, Bool.not_eq_true]
  rfl

/-- **When `operator<` orders connections.** -/
theorem orders_iff : Orders lt S ↔ ∀ a ∈ S, ∀ b ∈ S, a.AtMost b ∨ b.AtMost a := by
  unfold Orders
  rw [weakOrderOn_congr fun a _ b _ => lt_iff, weakOrderOn_anyLess_iff]
  simp only [atMost_iff]

end TurnConnection

/-! ## The map -/

/-- `allocations_`, with the allocations that exist and the connection `conn_` of each. -/
structure AllocationMap where
  map : StdMap TurnConnection.lt Nat
  objects : List (Nat × TurnConnection)
  nextId : Nat

/-- What happens to the map: an allocate request comes in from a connection; an allocation ends. -/
inductive AllocationMapEvent where
  | allocate (conn : TurnConnection)
  | destroy (id : Nat)

namespace AllocationMap

def new : AllocationMap := ⟨.empty, [], 0⟩

/-- `FindAllocation`; `none` when the behaviour of the map is undefined. -/
def findAllocation (s : AllocationMap) (conn : TurnConnection) : Option (Option Nat) :=
  s.map.find conn

def createAllocation (s : AllocationMap) (conn : TurnConnection) : Option AllocationMap :=
  (s.map.set conn s.nextId).map fun map => ⟨map, s.objects ++ [(s.nextId, conn)], s.nextId + 1⟩

def onAllocationDestroyed (s : AllocationMap) (conn : TurnConnection) : Option AllocationMap :=
  (s.map.find conn).bind fun found =>
    if found = none then some s else (s.map.erase conn).map fun map => { s with map := map }

/-- One event. A connection that has an allocation gets no other one (`HandleStunMessage`). -/
def step (s : AllocationMap) : AllocationMapEvent → Option AllocationMap
  | .allocate conn => (s.findAllocation conn).bind fun found =>
    if found = none then s.createAllocation conn else some s
  | .destroy id =>
    match s.objects.find? fun o => o.1 = id with
    | none => some s
    | some o => (s.onAllocationDestroyed o.2).map fun s =>
      { s with objects := s.objects.filter fun o => o.1 ≠ id }

def run (s : AllocationMap) : List AllocationMapEvent → Option AllocationMap
  | [] => some s
  | e :: es => (s.step e).bind fun s => s.run es

/-- The connections of a run lie in `S`. -/
def From (S : Set TurnConnection) (es : List AllocationMapEvent) : Prop :=
  ∀ conn, .allocate conn ∈ es → conn ∈ S

/-- `FindAllocation` is defined for the connections in `S`, and finds the allocation of an equal
connection that exists. -/
def Finds (s : AllocationMap) (S : Set TurnConnection) : Prop :=
  ∀ conn ∈ S, ∃ found, s.findAllocation conn = some found ∧
    ∀ id, found = some id ↔ ∃ c, (id, c) ∈ s.objects ∧ c.equal conn = true

/-! ## Runs -/

variable {s s' : AllocationMap} {S : Set TurnConnection} {conn : TurnConnection}

open TurnConnection

/-- The map has the allocations that exist, each under its connection. -/
structure Good (s : AllocationMap) (S : Set TurnConnection) : Prop where
  within : s.map.Within S
  conns : ∀ o ∈ s.objects, o.2 ∈ S
  ids : (s.objects.map Prod.fst).Nodup
  fresh : ∀ o ∈ s.objects, o.1 < s.nextId
  found : ∀ conn ∈ S, ∀ id,
    s.findAllocation conn = some (some id) ↔ ∃ c, (id, c) ∈ s.objects ∧ Same lt c conn

theorem good_new (h : Orders lt S) : new.Good S := by
  refine ⟨StdMap.within_empty S, nofun, List.nodup_nil, nofun, fun conn hconn id => ?_⟩
  unfold findAllocation new
  rw [StdMap.find_empty h hconn]
  refine iff_of_false (fun heq => ?_) fun ⟨c, hc, _⟩ => List.not_mem_nil hc
  cases heq

theorem Good.defined (hs : s.Good S) (h : Orders lt S) (hconn : conn ∈ S) :
    ∃ found, s.findAllocation conn = some found := ⟨_, hs.within.find_eq h hconn⟩

theorem Good.finds (hs : s.Good S) (h : Orders lt S) : s.Finds S := by
  intro conn hconn
  obtain ⟨found, hfound⟩ := hs.defined h hconn
  refine ⟨found, hfound, fun id => ?_⟩
  have hiff := hs.found conn hconn id
  rw [hfound, Option.some.injEq] at hiff
  simp only [same_iff] at hiff
  exact hiff

/-- **`CreateAllocation`**, for a connection that has none. -/
theorem Good.createAllocation (hs : s.Good S) (h : Orders lt S) (hconn : conn ∈ S)
    (hnone : s.findAllocation conn = some none) :
    ∃ s', s.createAllocation conn = some s' ∧ s'.Good S := by
  obtain ⟨map, hset, hwithin, hfind⟩ := hs.within.set_eq h hconn s.nextId
  unfold AllocationMap.createAllocation
  rw [hset]
  refine ⟨_, rfl, hwithin, fun o ho => ?_, ?_, fun o ho => ?_, fun conn' hconn' id => ?_⟩
  · rcases List.mem_append.mp ho with ho | ho
    · exact hs.conns o ho
    · obtain rfl := List.mem_singleton.mp ho
      exact hconn
  · rw [List.map_append]
    refine List.nodup_append.mpr ⟨hs.ids, List.nodup_singleton _, ?_⟩
    rintro x hx y hy rfl
    obtain ⟨o, ho, rfl⟩ := List.mem_map.mp hx
    have hlt := hs.fresh o ho
    rw [List.mem_singleton.mp hy] at hlt
    exact absurd hlt (Nat.lt_irrefl _)
  · rcases List.mem_append.mp ho with ho | ho
    · exact Nat.lt_succ_of_lt (hs.fresh o ho)
    · obtain rfl := List.mem_singleton.mp ho
      exact Nat.lt_succ_self _
  · unfold findAllocation
    rw [hfind conn' hconn']
    by_cases hsame : Same lt conn conn'
    · rw [if_pos hsame]
      constructor
      · intro heq
        obtain rfl := Option.some.inj (Option.some.inj heq)
        exact ⟨conn, List.mem_append_right _ (List.mem_singleton_self _), hsame⟩
      · rintro ⟨c, hc, hc'⟩
        rcases List.mem_append.mp hc with hc | hc
        · -- An older allocation of this connection would have been found.
          have hold := (hs.found conn hconn id).mpr
            ⟨c, hc, h.same_trans (hs.conns _ hc) hconn' hconn hc' hsame.symm⟩
          rw [hnone] at hold
          cases hold
        · cases List.mem_singleton.mp hc
          rfl
    · rw [if_neg hsame]
      refine (hs.found conn' hconn' id).trans ⟨fun ⟨c, hc, hc'⟩ =>
        ⟨c, List.mem_append_left _ hc, hc'⟩, fun ⟨c, hc, hc'⟩ => ?_⟩
      rcases List.mem_append.mp hc with hc | hc
      · exact ⟨c, hc, hc'⟩
      · cases List.mem_singleton.mp hc
        exact absurd hc' hsame

/-- **`OnAllocationDestroyed`**, for an allocation that exists. -/
theorem Good.destroy (hs : s.Good S) (h : Orders lt S) {id : Nat}
    (hobject : (id, conn) ∈ s.objects) :
    ∃ s', s.onAllocationDestroyed conn = some s' ∧
      Good { s' with objects := s'.objects.filter fun o => o.1 ≠ id } S := by
  have hconn : conn ∈ S := hs.conns _ hobject
  have hfound : s.findAllocation conn = some (some id) :=
    (hs.found conn hconn id).mpr ⟨conn, hobject, h.same_refl hconn⟩
  obtain ⟨map, herase, hwithin, hfind⟩ := hs.within.erase_eq h hconn
  have hstep : s.onAllocationDestroyed conn = some { s with map := map } := by
    unfold onAllocationDestroyed
    unfold findAllocation at hfound
    rw [hfound, Option.bind_some, if_neg (by simp), herase]
    rfl
  refine ⟨_, hstep, hwithin, fun o ho => hs.conns o (List.mem_filter.mp ho).1, ?_,
    fun o ho => hs.fresh o (List.mem_filter.mp ho).1, fun conn' hconn' id' => ?_⟩
  · exact hs.ids.sublist (List.filter_sublist.map _)
  · have hmem : ∀ c, (id', c) ∈ s.objects.filter (fun o => o.1 ≠ id) ↔
        (id', c) ∈ s.objects ∧ id' ≠ id := fun c => by
      rw [List.mem_filter, decide_eq_true_eq]
    unfold findAllocation
    rw [hfind conn' hconn']
    simp only [hmem]
    by_cases hsame : Same lt conn conn'
    · rw [if_pos hsame]
      refine iff_of_false (fun heq => by cases heq) ?_
      rintro ⟨c, ⟨hc, hne⟩, hc'⟩
      have hother := (hs.found conn hconn id').mpr
        ⟨c, hc, h.same_trans (hs.conns _ hc) hconn' hconn hc' hsame.symm⟩
      rw [hfound] at hother
      exact hne (Option.some.inj (Option.some.inj hother)).symm
    · rw [if_neg hsame]
      refine (hs.found conn' hconn' id').trans ⟨fun ⟨c, hc, hc'⟩ => ⟨c, ⟨hc, ?_⟩, hc'⟩,
        fun ⟨c, hc, hc'⟩ => ⟨c, hc.1, hc'⟩⟩
      rintro rfl
      have heq : (id', c) = (id', conn) := List.inj_on_of_nodup_map hs.ids hc hobject rfl
      rw [(Prod.mk.inj heq).2] at hc'
      exact hsame hc'

/-- **Every event keeps the map and the allocations together.** -/
theorem Good.step (hs : s.Good S) (h : Orders lt S) {e : AllocationMapEvent} (he : From S [e]) :
    ∃ s', s.step e = some s' ∧ s'.Good S := by
  cases e with
  | allocate conn =>
    have hconn : conn ∈ S := he conn (List.mem_singleton_self _)
    obtain ⟨found, hfound⟩ := hs.defined h hconn
    simp only [AllocationMap.step, hfound, Option.bind_some]
    split
    · rename_i hnone
      exact hs.createAllocation h hconn (hnone ▸ hfound)
    · exact ⟨s, rfl, hs⟩
  | destroy id =>
    simp only [AllocationMap.step]
    split
    · exact ⟨s, rfl, hs⟩
    · rename_i o ho
      have hid : o.1 = id := by simpa using List.find?_some ho
      have hobject : (id, o.2) ∈ s.objects := hid ▸ List.mem_of_find?_eq_some ho
      obtain ⟨s', hs', hgood⟩ := hs.destroy h hobject
      rw [hs']
      exact ⟨_, rfl, hgood⟩

theorem Good.run (h : Orders lt S) {es : List AllocationMapEvent} : ∀ {s : AllocationMap},
    s.Good S → From S es → ∃ s', s.run es = some s' ∧ s'.Good S := by
  induction es with
  | nil => exact fun hs _ => ⟨_, rfl, hs⟩
  | cons e es ih =>
    intro s hs hes
    obtain ⟨s₁, hstep, hs₁⟩ := hs.step h fun conn hc =>
      hes conn (List.mem_singleton.mp hc ▸ List.mem_cons_self)
    obtain ⟨s', hrun, hs'⟩ := ih hs₁ fun conn hc => hes conn (List.mem_cons_of_mem _ hc)
    refine ⟨s', ?_, hs'⟩
    unfold AllocationMap.run
    rw [hstep]
    exact hrun

/-- **When connections are ordered and found**: exactly if of two of them one is at most the other
one in all three fields. -/
theorem allocations_found_iff (S : Set TurnConnection) :
    ((Orders lt S ∧ ∀ a ∈ S, ∀ b ∈ S, Same lt a b ↔ a.equal b = true) ∧
      ∀ es, From S es → ∃ s, new.run es = some s ∧ s.Finds S) ↔
    ∀ a ∈ S, ∀ b ∈ S, a.AtMost b ∨ b.AtMost a := by
  constructor
  · exact fun h => orders_iff.mp h.1.1
  · intro hchain
    have h : Orders lt S := orders_iff.mpr hchain
    refine ⟨⟨h, fun a _ b _ => same_iff⟩, fun es hes => ?_⟩
    obtain ⟨s, hrun, hs⟩ := (good_new h).run h hes
    exact ⟨s, hrun, hs.finds h⟩

/-- A client at the first address, for the second address of the server. -/
def sampleConnection (client server : U32) : TurnConnection :=
  ⟨⟨[], .ipv4 client, 5000⟩, ⟨[], .ipv4 server, 3478⟩, .udp⟩

theorem connections_unordered :
    (sampleConnection 1 2).lt (sampleConnection 2 1) = true ∧
      (sampleConnection 2 1).lt (sampleConnection 1 2) = true ∧
      ¬ Orders lt Set.univ ∧
      (new.run [.allocate (sampleConnection 1 2), .allocate (sampleConnection 2 1)]).isNone := by
  have hless : (sampleConnection 1 2).lt (sampleConnection 2 1) = true := by decide
  have hmore : (sampleConnection 2 1).lt (sampleConnection 1 2) = true := by decide
  refine ⟨hless, hmore, fun h => h.asymm _ trivial _ trivial hless hmore, ?_⟩
  decide

end AllocationMap

end Libjingle
