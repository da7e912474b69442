import Libjingle.Lib.Grouping
import Libjingle.Sdp.Serialize

/-!
# `NetworkManagerBase::MergeNetworkList` (`base/network.cc`)

Each call gets a list of new `Network` objects. The entries that share a key (name, address range
and its length) are consolidated, and a key that was seen before keeps its object, which gets the
addresses.

* `object` is the identity of a `Network`; the objects that are deleted are the new ones that are
  not kept.
* `CompareNetworks` is not a strict weak order: networks of one name with different range lengths
  compare as equal, also to networks that differ. `std::sort` is a parameter that may leave any
  rearrangement of the list.
* `inet_ntop` is a parameter. It writes different addresses differently, without `%` and `/`.
-/

namespace Libjingle

open Lib Sdp

/-- `IPAddress::operator<`. -/
def IPAddress.lt : IPAddress → IPAddress → Bool
  | .unspec, .unspec => false
  | .unspec, _ => true
  | .ipv4 _, .unspec => false
  | .ipv4 a, .ipv4 b => a.toNat < b.toNat
  | .ipv4 _, .ipv6 _ => true
  | .ipv6 a, .ipv6 b => a.toNat < b.toNat
  | .ipv6 _, _ => false

/-- A `Network`, with its identity. -/
structure Network where
  object : Nat
  name : Text
  prefix_ : IPAddress
  prefix_length : I32
  ips_ : List IPAddress
deriving DecidableEq

namespace Network

def makeNetworkKey (inet : InetText) (n : Network) : Text :=
  n.name ++ '%' :: (inet.toString n.prefix_ ++ '/' :: intText n.prefix_length)

def compareNetworks (a b : Network) : Bool :=
  if a.prefix_length = b.prefix_length ∧ a.name = b.name then a.prefix_.lt b.prefix_
  else a.name < b.name

/-- `SetIPs`: the network after it, and whether the addresses changed. -/
def setIPs (n : Network) (ips : List IPAddress) (changed : Bool) : Network × Bool :=
  ({ n with ips_ := ips },
    changed || ips.length ≠ n.ips_.length || ips.any fun ip => ip ∉ n.ips_)

/-- The name, the address range and its length. -/
def key (n : Network) : Text × IPAddress × I32 := (n.name, n.prefix_, n.prefix_length)

end Network

open Network

/-- The networks of the last list, and all networks seen, by their keys. -/
structure NetworkManagerBase where
  networks_ : List Network
  networks_map_ : SortedMap Text Network
deriving DecidableEq

namespace NetworkManagerBase

def create : NetworkManagerBase := ⟨[], SortedMap.empty⟩

/-- The networks merged so far, the map, and whether anything has changed. -/
structure Merging where
  networks_map_ : SortedMap Text Network
  merged_list : List Network
  changed : Bool

/-- The entry of a key is new, or its existing network is used. -/
def mergeEntry (s : Merging) (e : Text × Network × List IPAddress) : Merging :=
  match s.networks_map_.get? e.1 with
  | none => ⟨s.networks_map_.set e.1 e.2.1, s.merged_list ++ [e.2.1], true⟩
  | some existing =>
    let r := existing.setIPs e.2.2 s.changed
    ⟨s.networks_map_.set e.1 r.1, s.merged_list ++ [r.1], r.2⟩

variable (inet : InetText) (sort : (Network → Network → Bool) → List Network → List Network)

/-- `MergeNetworkList`: the manager after it, and `changed`. -/
def mergeNetworkList (m : NetworkManagerBase) (new_networks : List Network) :
    NetworkManagerBase × Bool :=
  let list := sort compareNetworks new_networks
  let address_map := groups (makeNetworkKey inet) ips_ list
  let r := address_map.entries.foldl mergeEntry
    ⟨m.networks_map_, [], m.networks_.length ≠ list.length⟩
  (⟨r.merged_list, r.networks_map_⟩, r.changed)

end NetworkManagerBase

/-! ## Keys -/

/-- What `inet_ntop` writes is another text for another address, and has no delimiter of a key. -/
structure Prints (inet : InetText) : Prop where
  injective : Function.Injective inet.toString
  percent : ∀ ip, '%' ∉ inet.toString ip
  slash : ∀ ip, '/' ∉ inet.toString ip

theorem intText_injective : Function.Injective intText := fun a b h => by
  rw [← readInt_intText a, h, readInt_intText b]

theorem append_cons_inj_of_notMem {d : Char} {a b x y : Text} (hx : d ∉ x) (hy : d ∉ y)
    (h : a ++ d :: x = b ++ d :: y) : a = b ∧ x = y := by
  have hrev : x.reverse ++ d :: a.reverse = y.reverse ++ d :: b.reverse := by
    have := congrArg List.reverse h
    simpa [List.reverse_append] using this
  have hsplit := congrArg (splitFirst d) hrev
  rw [splitFirst_append (fun hmem => hx (List.mem_reverse.mp hmem)),
    splitFirst_append (fun hmem => hy (List.mem_reverse.mp hmem))] at hsplit
  obtain ⟨hxy, hab⟩ := Prod.mk.inj (Option.some.inj hsplit)
  exact ⟨List.reverse_injective hab, List.reverse_injective hxy⟩

variable {inet : InetText}

/-- **A key is the text of a name, an address range and its length.** -/
theorem Network.makeNetworkKey_inj (hinet : Prints inet) {a b : Network} :
    makeNetworkKey inet a = makeNetworkKey inet b ↔ a.key = b.key := by
  have hpercent :
      ∀ n : Network, '%' ∉ inet.toString n.prefix_ ++ '/' :: intText n.prefix_length := by
    intro n
    rw [List.mem_append, List.mem_cons, not_or, not_or]
    exact ⟨hinet.percent _, by decide, notMem_intText (by decide) (by decide)⟩
  constructor
  · intro h
    obtain ⟨hname, hrest⟩ := append_cons_inj_of_notMem (hpercent a) (hpercent b) h
    have hsplit := congrArg (splitFirst '/') hrest
    rw [splitFirst_append (hinet.slash _), splitFirst_append (hinet.slash _)] at hsplit
    obtain ⟨hrange, hlength⟩ := Prod.mk.inj (Option.some.inj hsplit)
    rw [key, key, hname, hinet.injective hrange, intText_injective hlength]
  · intro h
    obtain ⟨hname, hrest⟩ := Prod.mk.inj h
    obtain ⟨hrange, hlength⟩ := Prod.mk.inj hrest
    rw [makeNetworkKey, makeNetworkKey, hname, hrange, hlength]

/-! ## One call -/

namespace NetworkManagerBase

/-- The network that a call lists for an entry. -/
def placed (networks_map_ : SortedMap Text Network) (e : Text × Network × List IPAddress) :
    Network :=
  (networks_map_.get? e.1).elim e.2.1 fun existing => { existing with ips_ := e.2.2 }

/-- An entry is new, or its addresses differ from those of the existing network. -/
def differs (networks_map_ : SortedMap Text Network) (e : Text × Network × List IPAddress) : Bool :=
  (networks_map_.get? e.1).elim true fun existing => (existing.setIPs e.2.2 false).2

theorem mergeEntry_eq (s : Merging) (e : Text × Network × List IPAddress) : mergeEntry s e =
    ⟨s.networks_map_.set e.1 (placed s.networks_map_ e),
      s.merged_list ++ [placed s.networks_map_ e], s.changed || differs s.networks_map_ e⟩ := by
  unfold mergeEntry placed differs
  split
  · rename_i h
    rw [h, Option.elim_none, Option.elim_none, Bool.or_true]
  · rename_i existing h
    rw [h, Option.elim_some, Option.elim_some, setIPs, setIPs, Bool.false_or, Bool.or_assoc]

theorem foldl_mergeEntry {entries : List (Text × Network × List IPAddress)}
    (hnodup : (entries.map Prod.fst).Nodup) (s : Merging) :
    (entries.foldl mergeEntry s).merged_list =
        s.merged_list ++ entries.map (placed s.networks_map_) ∧
      (entries.foldl mergeEntry s).changed =
        (s.changed || entries.any (differs s.networks_map_)) ∧
      (∀ k, k ∉ entries.map Prod.fst →
        (entries.foldl mergeEntry s).networks_map_.get? k = s.networks_map_.get? k) ∧
      ∀ e ∈ entries,
        (entries.foldl mergeEntry s).networks_map_.get? e.1 = some (placed s.networks_map_ e) := by
  induction entries generalizing s with
  | nil =>
    refine ⟨?_, ?_, fun k _ => rfl, List.forall_mem_nil _⟩
    · rw [List.foldl_nil, List.map_nil, List.append_nil]
    · rw [List.foldl_nil, List.any_nil, Bool.or_false]
  | cons e entries ih =>
    rw [List.map_cons, List.nodup_cons] at hnodup
    obtain ⟨hmerged, hchanged, hother, hplaced⟩ := ih hnodup.2 (mergeEntry s e)
    rw [mergeEntry_eq] at hmerged hchanged hother hplaced
    rw [List.foldl_cons, mergeEntry_eq]
    -- the network of the first key is not looked up any more
    have hget : ∀ e' ∈ entries, (s.networks_map_.set e.1 (placed s.networks_map_ e)).get? e'.1 =
        s.networks_map_.get? e'.1 := fun e' he' =>
      SortedMap.get?_set_of_ne _
        (fun heq : e'.1 = e.1 => hnodup.1 (heq ▸ List.mem_map_of_mem he')) _
    have hsame : ∀ e' ∈ entries, placed (s.networks_map_.set e.1 (placed s.networks_map_ e)) e' =
        placed s.networks_map_ e' := fun e' he' => by rw [placed, hget e' he', ← placed]
    refine ⟨?_, ?_, fun k hk => ?_, fun e' he' => ?_⟩
    · rw [hmerged, List.map_congr_left hsame, List.map_cons, List.append_assoc]
      rfl
    · have hdiffers : entries.any
          (differs (s.networks_map_.set e.1 (placed s.networks_map_ e))) =
          entries.any (differs s.networks_map_) := by
        rw [Bool.eq_iff_iff, List.any_eq_true, List.any_eq_true]
        refine exists_congr fun e' => and_congr_right fun he' => ?_
        rw [differs, hget e' he', ← differs]
      rw [hchanged, hdiffers, List.any_cons, Bool.or_assoc]
    · rw [List.map_cons, List.mem_cons, not_or] at hk
      rw [hother k hk.2]
      exact SortedMap.get?_set_of_ne _ hk.1 _
    · rcases List.mem_cons.mp he' with rfl | he'
      · rw [hother _ hnodup.1]
        exact SortedMap.get?_set _ _ _
      · rw [hplaced e' he', hsame e' he']

/-- The entries of a list, as `MergeNetworkList` consolidates them. -/
def consolidated (inet : InetText) (list : List Network) : List (Text × Network × List IPAddress) :=
  (groups (makeNetworkKey inet) ips_ list).entries

variable {sort : (Network → Network → Bool) → List Network → List Network}

/-- **What a call does**, in terms of the consolidated entries of the sorted list. -/
theorem mergeNetworkList_spec (hsort : ∀ cmp l, (sort cmp l).Perm l) (m : NetworkManagerBase)
    (l : List Network) :
    let entries := consolidated inet (sort compareNetworks l)
    let r := m.mergeNetworkList inet sort l
    r.1.networks_ = entries.map (placed m.networks_map_) ∧
      r.2 = (decide (m.networks_.length ≠ l.length) || entries.any (differs m.networks_map_)) ∧
      (∀ k, k ∉ entries.map Prod.fst → r.1.networks_map_.get? k = m.networks_map_.get? k) ∧
      ∀ e ∈ entries, r.1.networks_map_.get? e.1 = some (placed m.networks_map_ e) := by
  intro entries r
  have hnodup : (entries.map Prod.fst).Nodup :=
    (groups (makeNetworkKey inet) ips_ (sort compareNetworks l)).sorted.imp fun hlt => ne_of_lt hlt
  have hfold := foldl_mergeEntry hnodup
    ⟨m.networks_map_, [], m.networks_.length ≠ (sort compareNetworks l).length⟩
  rw [(hsort compareNetworks l).length_eq] at hfold
  have hr : r = (⟨(entries.foldl mergeEntry
        ⟨m.networks_map_, [], m.networks_.length ≠ l.length⟩).merged_list,
      (entries.foldl mergeEntry
        ⟨m.networks_map_, [], m.networks_.length ≠ l.length⟩).networks_map_⟩,
      (entries.foldl mergeEntry ⟨m.networks_map_, [], m.networks_.length ≠ l.length⟩).changed) := by
    rw [← (hsort compareNetworks l).length_eq]
    rfl
  rw [hr]
  exact hfold

/-- A list of networks: none is without an address, and no address is listed twice under a key. -/
structure Proper (l : List Network) : Prop where
  addressed : ∀ n ∈ l, n.ips_ ≠ []
  distinct : ∀ n ∈ l, ((l.filter fun n' => n'.key = n.key).flatMap ips_).Nodup

instance : DecidablePred Proper := fun l => decidable_of_iff
  ((∀ n ∈ l, n.ips_ ≠ []) ∧ ∀ n ∈ l, ((l.filter fun n' => n'.key = n.key).flatMap ips_).Nodup)
  ⟨fun h => ⟨h.1, h.2⟩, fun h => ⟨h.1, h.2⟩⟩

/-- What an entry of a consolidated list is. -/
structure EntryOf (inet : InetText) (l : List Network) (e : Text × Network × List IPAddress) :
    Prop where
  mem : e.2.1 ∈ l
  keyed : makeNetworkKey inet e.2.1 = e.1
  union : ∀ ip, ip ∈ e.2.2 ↔ ∃ n ∈ l, n.key = e.2.1.key ∧ ip ∈ n.ips_
  first_nodup : e.2.1.ips_.Nodup
  union_nodup : e.2.2.Nodup
  alone : (∀ ip, ip ∈ e.2.1.ips_ ↔ ip ∈ e.2.2) ↔
    (l.filter fun n => n.key = e.2.1.key).length ≤ 1

theorem withKey_perm (hinet : Prints inet) (hsort : ∀ cmp l, (sort cmp l).Perm l)
    (l : List Network) (n : Network) :
    (withKey (makeNetworkKey inet) (sort compareNetworks l) (makeNetworkKey inet n)).Perm
      (l.filter fun n' => n'.key = n.key) := by
  rw [withKey_eq_filter _ fun n' => makeNetworkKey_inj hinet]
  exact (hsort compareNetworks l).filter _

/-- What the entries of a list are, however it is sorted. -/
theorem entryOf_mem (hinet : Prints inet) (hsort : ∀ cmp l, (sort cmp l).Perm l)
    {l : List Network} (hl : Proper l) {e : Text × Network × List IPAddress}
    (he : e ∈ consolidated inet (sort compareNetworks l)) : EntryOf inet l e := by
  obtain ⟨k, first, addresses⟩ := e
  have hget := SortedMap.mem_entries_iff.mp he
  rw [get?_groups] at hget
  obtain ⟨first', hhead, heq⟩ := Option.map_eq_some_iff.mp hget
  obtain ⟨rfl, rfl⟩ := Prod.mk.inj heq
  obtain ⟨rest, hgroup⟩ := List.head?_eq_some_iff.mp hhead
  have hmem : first' ∈ withKey (makeNetworkKey inet) (sort compareNetworks l) k :=
    hgroup ▸ List.mem_cons_self
  obtain ⟨hlist, rfl⟩ := (mem_withKey _).mp hmem
  have hl' : first' ∈ l := (hsort compareNetworks l).subset hlist
  have hperm := withKey_perm hinet hsort l first'
  have hflat := hperm.flatMap_right ips_
  have hnodup := hflat.nodup_iff.mpr (hl.distinct first' hl')
  rw [hgroup] at hnodup hperm hflat ⊢
  rw [List.flatMap_cons] at hnodup
  refine ⟨hl', rfl, fun ip => ?_, (List.nodup_append.mp hnodup).1, hnodup, ?_⟩
  · rw [hflat.mem_iff, List.mem_flatMap]
    simp only [List.mem_filter, decide_eq_true_eq, and_assoc]
  · rw [← hperm.length_eq, List.length_cons]
    cases rest with
    | nil => simp
    | cons second rest =>
      have hsecond : second ∈ l := (List.mem_filter.mp (hperm.subset
        (List.mem_cons_of_mem _ List.mem_cons_self))).1
      obtain ⟨ip, hip⟩ := List.exists_mem_of_ne_nil _ (hl.addressed second hsecond)
      refine ⟨fun hsame => absurd ((hsame ip).mpr ?_) fun hfirst => ?_, fun hle => ?_⟩
      · rw [List.flatMap_cons, List.flatMap_cons]
        exact List.mem_append_right _ (List.mem_append_left _ hip)
      · rw [List.flatMap_cons] at hnodup
        exact (List.nodup_append.mp hnodup).2.2 ip hfirst ip (List.mem_append_left _ hip) rfl
      · rw [List.length_cons] at hle
        omega

theorem exists_entry (hsort : ∀ cmp l, (sort cmp l).Perm l) {l : List Network} {n : Network}
    (hn : n ∈ l) :
    ∃ e ∈ consolidated inet (sort compareNetworks l), e.1 = makeNetworkKey inet n := by
  cases hget : (groups (makeNetworkKey inet) ips_ (sort compareNetworks l)).get?
      (makeNetworkKey inet n) with
  | none =>
    have hno := (get?_groups_eq_none_iff _ _ _ _).mp hget
    exact absurd rfl (hno n ((hsort compareNetworks l).symm.subset hn))
  | some v => exact ⟨(makeNetworkKey inet n, v), SortedMap.mem_entries_iff.mpr hget, rfl⟩

end NetworkManagerBase

end Libjingle
