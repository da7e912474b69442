import Libjingle.Base.Network
import Libjingle.Lib.History
import Libjingle.Sdp.Lines

/-!
# What `MergeNetworkList` reports (`base/network.cc`)

Over a sequence of lists: which networks are listed, with which object and addresses, and whether
`changed` says that something changed.

* The history of a run are the networks that the calls before have listed.

## Results

* `networks_merged`: the networks and objects in every run, and when all addresses and reports of
  it are right.
-/

namespace Libjingle.NetworkManagerBase

open Lib Sdp Network NetworkManagerBase

variable {inet : InetText} {sort : (Network → Network → Bool) → List Network → List Network}

structure Sound (inet : InetText) (m : NetworkManagerBase) : Prop where
  keyed : ∀ k n, m.networks_map_.get? k = some n → makeNetworkKey inet n = k
  nodup : ∀ k n, m.networks_map_.get? k = some n → n.ips_.Nodup
  listed : ∀ n ∈ m.networks_, m.networks_map_.get? (makeNetworkKey inet n) = some n
  once : (m.networks_.map (makeNetworkKey inet)).Nodup

theorem sound_create : create.Sound inet where
  keyed k n h := by cases h
  nodup k n h := by cases h
  listed := List.forall_mem_nil _
  once := List.nodup_nil

variable {e : Text × Network × List IPAddress}

theorem Sound.keyed_placed {m : NetworkManagerBase} (h : m.Sound inet) {l : List Network}
    (he : EntryOf inet l e) :
    makeNetworkKey inet (placed m.networks_map_ e) = e.1 := by
  unfold placed
  cases hget : m.networks_map_.get? e.1 with
  | none => exact he.keyed
  | some existing => exact h.keyed e.1 existing hget

theorem Sound.nodup_placed {m : NetworkManagerBase} {l : List Network} (he : EntryOf inet l e) :
    (placed m.networks_map_ e).ips_.Nodup := by
  unfold placed
  cases m.networks_map_.get? e.1 with
  | none => exact he.first_nodup
  | some existing => exact he.union_nodup

/-- **A call keeps the networks sound.** -/
theorem Sound.mergeNetworkList {m : NetworkManagerBase} (h : m.Sound inet) (hinet : Prints inet)
    (hsort : ∀ cmp l, (sort cmp l).Perm l) {l : List Network} (hl : Proper l) :
    (m.mergeNetworkList inet sort l).1.Sound inet := by
  obtain ⟨hnetworks, -, hother, hplaced⟩ := @mergeNetworkList_spec inet sort hsort m l
  have hentry := fun e he => entryOf_mem hinet hsort hl (e := e) he
  have hget : ∀ k n, (m.mergeNetworkList inet sort l).1.networks_map_.get? k = some n →
      m.networks_map_.get? k = some n ∨
        ∃ e ∈ consolidated inet (sort compareNetworks l), e.1 = k ∧
          placed m.networks_map_ e = n := by
    intro k n hget
    by_cases hk : k ∈ (consolidated inet (sort compareNetworks l)).map Prod.fst
    · obtain ⟨e, he, rfl⟩ := List.mem_map.mp hk
      exact .inr ⟨e, he, rfl, Option.some.inj ((hplaced e he).symm.trans hget)⟩
    · exact .inl ((hother k hk).symm.trans hget)
  refine ⟨fun k n hn => ?_, fun k n hn => ?_, fun n hn => ?_, ?_⟩
  · obtain hn | ⟨e, he, rfl, rfl⟩ := hget k n hn
    · exact h.keyed k n hn
    · exact h.keyed_placed (hentry e he)
  · obtain hn | ⟨e, he, rfl, rfl⟩ := hget k n hn
    · exact h.nodup k n hn
    · exact Sound.nodup_placed (hentry e he)
  · rw [hnetworks] at hn
    obtain ⟨e, he, rfl⟩ := List.mem_map.mp hn
    rw [h.keyed_placed (hentry e he)]
    exact hplaced e he
  · have hkeys : (m.mergeNetworkList inet sort l).1.networks_.map (makeNetworkKey inet) =
        (consolidated inet (sort compareNetworks l)).map Prod.fst := by
      rw [hnetworks, List.map_map]
      exact List.map_congr_left fun e he => h.keyed_placed (hentry e he)
    rw [hkeys]
    exact (groups (makeNetworkKey inet) ips_ (sort compareNetworks l)).sorted.imp
      fun hlt => ne_of_lt hlt

/-- `SetIPs` notices whether the addresses are others. -/
theorem setIPs_changed_iff {n : Network} {ips : List IPAddress} (hn : n.ips_.Nodup)
    (hips : ips.Nodup) :
    (n.setIPs ips false).2 = true ↔ ¬ ∀ ip, ip ∈ n.ips_ ↔ ip ∈ ips := by
  rw [setIPs]
  simp only [Bool.false_or, Bool.or_eq_true, decide_eq_true_eq, List.any_eq_true]
  constructor
  · rintro (hlen | ⟨ip, hip, hnot⟩) hsame
    · exact hlen ((List.perm_ext_iff_of_nodup hips hn).mpr fun ip => (hsame ip).symm).length_eq
    · exact hnot ((hsame ip).mpr hip)
  · intro hdiffer
    by_contra hno
    rw [not_or] at hno
    obtain ⟨hlen, hall⟩ := hno
    have hsub : ips ⊆ n.ips_ := fun ip hip => by
      by_contra hnot
      exact hall ⟨ip, hip, hnot⟩
    have hperm := (List.subperm_of_subset hips hsub).perm_of_length_le (by omega)
    exact hdiffer fun ip => hperm.mem_iff.symm

/-! ## One call -/

/-- The keys and addresses of the networks. -/
def addresses (m : NetworkManagerBase) : Finset ((Text × IPAddress × I32) × Finset IPAddress) :=
  (m.networks_.map fun n => (n.key, n.ips_.toFinset)).toFinset

/-- A call of `MergeNetworkList`. -/
structure Call where
  before : NetworkManagerBase
  list : List Network
  after : NetworkManagerBase
  changed : Bool

namespace Call

def of (inet : InetText) (sort : (Network → Network → Bool) → List Network → List Network)
    (m : NetworkManagerBase) (l : List Network) : Call :=
  ⟨m, l, (m.mergeNetworkList inet sort l).1, (m.mergeNetworkList inet sort l).2⟩

/-- There is one network for each key of the list. -/
def ListsOnce (c : Call) : Prop :=
  (c.after.networks_.map Network.key).Nodup ∧
    ∀ k, k ∈ c.after.networks_.map Network.key ↔ k ∈ c.list.map Network.key

/-- The network of a key that was listed before is the same object. -/
def KeepsObjects (listed : List Network) (c : Call) : Prop :=
  ∀ n ∈ c.after.networks_, ∀ n' ∈ listed, n'.key = n.key → n'.object = n.object

/-- Every network has the addresses that the list has for its key. -/
def Unites (c : Call) : Prop :=
  ∀ n ∈ c.after.networks_, ∀ ip, ip ∈ n.ips_ ↔ ∃ n' ∈ c.list, n'.key = n.key ∧ ip ∈ n'.ips_

/-- The call reports a change if and only if there is one. -/
def Flags (c : Call) : Prop := c.changed = true ↔ c.after.addresses ≠ c.before.addresses

/-- No two networks of the list share a key that was never seen. -/
def Unshared (inet : InetText) (c : Call) : Prop :=
  ∀ n ∈ c.list, c.before.networks_map_.get? (makeNetworkKey inet n) = none →
    (c.list.filter fun n' => n'.key = n.key).length ≤ 1

/-- Every key of the list was seen, and its network has the addresses that the list has for it. -/
def Known (inet : InetText) (c : Call) : Prop :=
  ∀ n ∈ c.list, ∃ existing,
    c.before.networks_map_.get? (makeNetworkKey inet n) = some existing ∧
      ∀ ip, ip ∈ existing.ips_ ↔ ∃ n' ∈ c.list, n'.key = n.key ∧ ip ∈ n'.ips_

/-- Where nothing is new, the list is as long as the one before has networks if and only if it has
the same keys. -/
def Counted (inet : InetText) (c : Call) : Prop :=
  c.Known inet → (c.list.length = c.before.networks_.length ↔
    ∀ k, k ∈ c.list.map Network.key ↔ k ∈ c.before.networks_.map Network.key)

variable {e : Text × Network × List IPAddress}

theorem differs_iff {m : NetworkManagerBase} (hm : m.Sound inet) {l : List Network}
    (hentry : EntryOf inet l e) :
    differs m.networks_map_ e = false ↔ ∃ existing, m.networks_map_.get? e.1 = some existing ∧
      ∀ ip, ip ∈ existing.ips_ ↔ ip ∈ e.2.2 := by
  unfold differs
  cases hget : m.networks_map_.get? e.1 with
  | none =>
    refine ⟨fun h => (Bool.false_ne_true h.symm).elim, ?_⟩
    rintro ⟨existing, hsome, -⟩
    cases hsome
  | some existing =>
    rw [Option.elim_some, ← Bool.not_eq_true,
      setIPs_changed_iff (hm.nodup e.1 existing hget) hentry.union_nodup, not_not]
    constructor
    · exact fun hsame => ⟨existing, rfl, hsame⟩
    · rintro ⟨existing', hsome, hsame⟩
      cases hsome
      exact hsame

variable (hinet : Prints inet) (hsort : ∀ cmp l, (sort cmp l).Perm l) {m : NetworkManagerBase}
  (hm : m.Sound inet) {l : List Network} (hl : Proper l)

include hinet hsort hm hl

theorem mem_networks_iff {n : Network} : n ∈ (of inet sort m l).after.networks_ ↔
    ∃ e ∈ consolidated inet (sort compareNetworks l), EntryOf inet l e ∧ n.key = e.2.1.key ∧
      n = placed m.networks_map_ e := by
  have hnetworks := (@mergeNetworkList_spec inet sort hsort m l).1
  show n ∈ (m.mergeNetworkList inet sort l).1.networks_ ↔ _
  rw [hnetworks, List.mem_map]
  refine exists_congr fun e => and_congr_right fun he => ?_
  have hentry := entryOf_mem hinet hsort hl he
  constructor
  · rintro rfl
    have hkey := (hm.keyed_placed hentry).trans hentry.keyed.symm
    exact ⟨hentry, (makeNetworkKey_inj hinet).mp hkey, rfl⟩
  · rintro ⟨-, -, rfl⟩
    rfl

theorem listsOnce : (of inet sort m l).ListsOnce := by
  constructor
  · have honce := (hm.mergeNetworkList hinet hsort hl).once
    refine List.Nodup.of_map (fun k : Text × IPAddress × I32 =>
      makeNetworkKey inet ⟨0, k.1, k.2.1, k.2.2, []⟩) ?_
    rw [List.map_map]
    exact honce
  · intro k
    constructor
    · intro hk
      obtain ⟨n, hn, rfl⟩ := List.mem_map.mp hk
      obtain ⟨e, -, hentry, hkey, -⟩ := (mem_networks_iff hinet hsort hm hl).mp hn
      exact List.mem_map.mpr ⟨e.2.1, hentry.mem, hkey.symm⟩
    · intro hk
      obtain ⟨n, hn, rfl⟩ := List.mem_map.mp hk
      obtain ⟨e, he, hfirst⟩ := @exists_entry inet sort hsort l n hn
      have hentry := entryOf_mem hinet hsort hl he
      have hkey : e.2.1.key = n.key :=
        (makeNetworkKey_inj hinet).mp (hentry.keyed.trans hfirst)
      have hplaced : (placed m.networks_map_ e).key = e.2.1.key :=
        (makeNetworkKey_inj hinet).mp ((hm.keyed_placed hentry).trans hentry.keyed.symm)
      exact List.mem_map.mpr ⟨placed m.networks_map_ e,
        (mem_networks_iff hinet hsort hm hl).mpr ⟨e, he, hentry, hplaced, rfl⟩,
        hplaced.trans hkey⟩

/-- **Addresses are merged** unless networks share a key that was never seen: such a network keeps
the addresses of the first of them. -/
theorem unites_iff : (of inet sort m l).Unites ↔ (of inet sort m l).Unshared inet := by
  constructor
  · intro hunites n hn hnew
    obtain ⟨e, he, hfirst⟩ := @exists_entry inet sort hsort l n hn
    have hentry := entryOf_mem hinet hsort hl he
    have hkey : e.2.1.key = n.key := (makeNetworkKey_inj hinet).mp (hentry.keyed.trans hfirst)
    have hplaced : placed m.networks_map_ e = e.2.1 := by
      have hget : m.networks_map_.get? e.1 = none := hfirst ▸ hnew
      rw [placed, hget, Option.elim_none]
    have hmem : e.2.1 ∈ (of inet sort m l).after.networks_ :=
      (mem_networks_iff hinet hsort hm hl).mpr ⟨e, he, hentry, rfl, hplaced.symm⟩
    have halone := hentry.alone.mp fun ip =>
      (hunites e.2.1 hmem ip).trans (hentry.union ip).symm
    rw [hkey] at halone
    exact halone
  · intro hunshared n hn ip
    obtain ⟨e, he, hentry, hkey, rfl⟩ := (mem_networks_iff hinet hsort hm hl).mp hn
    rw [hkey]
    refine Iff.trans ?_ (hentry.union ip)
    unfold placed
    cases hget : m.networks_map_.get? e.1 with
    | none =>
      have hnew : m.networks_map_.get? (makeNetworkKey inet e.2.1) = none := hentry.keyed ▸ hget
      exact hentry.alone.mpr (hunshared e.2.1 hentry.mem hnew) ip
    | some existing => exact Iff.rfl

theorem known_iff : (of inet sort m l).Known inet ↔
    ∀ e ∈ consolidated inet (sort compareNetworks l), differs m.networks_map_ e = false := by
  constructor
  · intro hknown e he
    have hentry := entryOf_mem hinet hsort hl he
    obtain ⟨existing, hget, hsame⟩ := hknown e.2.1 hentry.mem
    refine (differs_iff hm hentry).mpr ⟨existing, hentry.keyed ▸ hget, fun ip => ?_⟩
    exact (hsame ip).trans (hentry.union ip).symm
  · intro hsame n hn
    obtain ⟨e, he, hfirst⟩ := @exists_entry inet sort hsort l n hn
    have hentry := entryOf_mem hinet hsort hl he
    have hkey : e.2.1.key = n.key := (makeNetworkKey_inj hinet).mp (hentry.keyed.trans hfirst)
    obtain ⟨existing, hget, hips⟩ := (differs_iff hm hentry).mp (hsame e he)
    refine ⟨existing, hfirst ▸ hget, fun ip => (hips ip).trans ?_⟩
    rw [← hkey]
    exact hentry.union ip

theorem addresses_ne
    (he : e ∈ consolidated inet (sort compareNetworks l))
    (hdiffers : differs m.networks_map_ e = true) :
    (of inet sort m l).after.addresses ≠ m.addresses := by
  have hentry := entryOf_mem hinet hsort hl he
  intro heq
  have hafter : placed m.networks_map_ e ∈ (of inet sort m l).after.networks_ :=
    (mem_networks_iff hinet hsort hm hl).mpr ⟨e, he, hentry,
      (makeNetworkKey_inj hinet).mp ((hm.keyed_placed hentry).trans hentry.keyed.symm), rfl⟩
  have hmem : ((placed m.networks_map_ e).key, (placed m.networks_map_ e).ips_.toFinset) ∈
      m.addresses := by
    rw [← heq, addresses, List.mem_toFinset]
    exact List.mem_map.mpr ⟨_, hafter, rfl⟩
  rw [addresses, List.mem_toFinset] at hmem
  obtain ⟨n, hn, hpair⟩ := List.mem_map.mp hmem
  obtain ⟨hkey, hips⟩ := Prod.mk.inj hpair
  have hget : m.networks_map_.get? e.1 = some n := by
    rw [← hm.keyed_placed hentry, ← (makeNetworkKey_inj hinet).mpr hkey]
    exact hm.listed n hn
  have hsame : differs m.networks_map_ e = false :=
    (differs_iff hm hentry).mpr ⟨n, hget, fun ip => by
      have hplaced : (placed m.networks_map_ e).ips_ = e.2.2 := by
        rw [placed, hget, Option.elim_some]
      rw [← List.mem_toFinset, hips, List.mem_toFinset, hplaced]⟩
  exact Bool.false_ne_true (hsame.symm.trans hdiffers)

theorem ips_eq (hknown : (of inet sort m l).Known inet) {n n' : Network}
    (hn : n ∈ (of inet sort m l).after.networks_) (hn' : n' ∈ m.networks_) (hkey : n.key = n'.key) :
    n.ips_.toFinset = n'.ips_.toFinset := by
  obtain ⟨e, he, hentry, hkey', rfl⟩ := (mem_networks_iff hinet hsort hm hl).mp hn
  have hsame := (known_iff hinet hsort hm hl).mp hknown e he
  obtain ⟨existing, hget, hips⟩ := (differs_iff hm hentry).mp hsame
  have hlisted := hm.listed n' hn'
  rw [(makeNetworkKey_inj hinet).mpr (hkey.symm.trans hkey'), hentry.keyed, hget] at hlisted
  obtain rfl := Option.some.inj hlisted
  rw [placed, hget, Option.elim_some]
  ext ip
  rw [List.mem_toFinset, List.mem_toFinset, hips ip]

theorem addresses_eq_iff (hknown : (of inet sort m l).Known inet) :
    (of inet sort m l).after.addresses = m.addresses ↔
      ∀ k, k ∈ l.map Network.key ↔ k ∈ m.networks_.map Network.key := by
  have hkeys : ∀ k, k ∈ (of inet sort m l).after.networks_.map Network.key ↔
      k ∈ l.map Network.key := (listsOnce hinet hsort hm hl).2
  have hfst : ∀ (m : NetworkManagerBase) k,
      k ∈ m.networks_.map Network.key ↔ k ∈ m.addresses.image Prod.fst := by
    intro m k
    simp [addresses]
  constructor
  · intro heq k
    rw [← hkeys k, hfst, heq, ← hfst]
  · intro hsame
    ext p
    rw [addresses, addresses, List.mem_toFinset, List.mem_toFinset, List.mem_map, List.mem_map]
    constructor
    · rintro ⟨n, hn, rfl⟩
      obtain ⟨n', hn', hkey⟩ := List.mem_map.mp
        ((hsame n.key).mp ((hkeys n.key).mp (List.mem_map_of_mem hn)))
      exact ⟨n', hn', by rw [hkey, ips_eq hinet hsort hm hl hknown hn hn' hkey.symm]⟩
    · rintro ⟨n', hn', rfl⟩
      obtain ⟨n, hn, hkey⟩ := List.mem_map.mp
        ((hkeys n'.key).mpr ((hsame n'.key).mpr (List.mem_map_of_mem hn')))
      exact ⟨n, hn, by rw [hkey, ips_eq hinet hsort hm hl hknown hn hn' hkey]⟩

/-- **A call reports rightly** unless nothing is new and the length of the list does not tell
whether networks are missing. -/
theorem flags_iff : (of inet sort m l).Flags ↔ (of inet sort m l).Counted inet := by
  have hchanged : (of inet sort m l).changed = (decide (m.networks_.length ≠ l.length) ||
      (consolidated inet (sort compareNetworks l)).any (differs m.networks_map_)) :=
    (@mergeNetworkList_spec inet sort hsort m l).2.1
  rw [Flags, hchanged, Bool.or_eq_true, decide_eq_true_eq, List.any_eq_true]
  by_cases hknown : (of inet sort m l).Known inet
  · have hsame := (known_iff hinet hsort hm hl).mp hknown
    have hno : ¬ ∃ e ∈ consolidated inet (sort compareNetworks l),
        differs m.networks_map_ e = true := by
      rintro ⟨e, he, hdiffers⟩
      exact Bool.false_ne_true ((hsame e he).symm.trans hdiffers)
    rw [or_iff_left hno, not_iff_not]
    rw [show (of inet sort m l).before = m from rfl, addresses_eq_iff hinet hsort hm hl hknown,
      Counted, imp_iff_right hknown]
    exact iff_congr eq_comm Iff.rfl
  · have hdiffers : ∃ e ∈ consolidated inet (sort compareNetworks l),
        differs m.networks_map_ e = true := by
      by_contra hno
      refine hknown ((known_iff hinet hsort hm hl).mpr fun e he => ?_)
      by_contra htrue
      exact hno ⟨e, he, Bool.eq_true_of_not_eq_false htrue⟩
    obtain ⟨e, he, htrue⟩ := hdiffers
    exact ⟨fun _ hno => absurd hno hknown, fun _ =>
      ⟨fun _ => addresses_ne hinet hsort hm hl he htrue, fun _ => .inr ⟨e, he, htrue⟩⟩⟩

end Call

/-! ## Runs -/

/-- The calls with a sequence of lists. -/
def calls (inet : InetText) (sort : (Network → Network → Bool) → List Network → List Network) :
    NetworkManagerBase → List (List Network) → List Call
  | _, [] => []
  | m, l :: lists => Call.of inet sort m l :: calls inet sort (Call.of inet sort m l).after lists

/-- The networks that have been listed, after another call. -/
def addListed (listed : List Network) (c : Call) : List Network := listed ++ c.after.networks_

/-- The objects of the networks that have been listed are in the map. -/
def Remembers (inet : InetText) (m : NetworkManagerBase) (listed : List Network) : Prop :=
  ∀ n ∈ listed, ∃ existing, m.networks_map_.get? (makeNetworkKey inet n) = some existing ∧
    existing.object = n.object

variable (hinet : Prints inet) (hsort : ∀ cmp l, (sort cmp l).Perm l) {m : NetworkManagerBase}
  {listed : List Network}

include hinet hsort

theorem Remembers.call (hm : m.Sound inet) (h : m.Remembers inet listed) {l : List Network}
    (hl : Proper l) : (Call.of inet sort m l).KeepsObjects listed ∧
      (Call.of inet sort m l).after.Remembers inet (addListed listed (Call.of inet sort m l)) := by
  obtain ⟨-, -, hother, hplaced⟩ := @mergeNetworkList_spec inet sort hsort m l
  constructor
  · intro n hn n' hn' hkey
    obtain ⟨e, he, hentry, hkey', rfl⟩ := (Call.mem_networks_iff hinet hsort hm hl).mp hn
    obtain ⟨existing, hget, hobject⟩ := h n' hn'
    rw [(makeNetworkKey_inj hinet).mpr (hkey.trans hkey'), hentry.keyed] at hget
    rw [placed, hget, Option.elim_some, hobject]
  · refine List.forall_mem_append.mpr ⟨fun n hn => ?_, fun n hn => ?_⟩
    · obtain ⟨existing, hget, hobject⟩ := h n hn
      by_cases hk : makeNetworkKey inet n ∈
          (consolidated inet (sort compareNetworks l)).map Prod.fst
      · obtain ⟨e, he, hfirst⟩ := List.mem_map.mp hk
        refine ⟨placed m.networks_map_ e, hfirst ▸ hplaced e he, ?_⟩
        rw [placed, hfirst, hget, Option.elim_some, hobject]
      · exact ⟨existing, (hother _ hk).trans hget, hobject⟩
    · exact ⟨n, (hm.mergeNetworkList hinet hsort hl).listed n hn, rfl⟩

/-- **Lists are merged.** In every run each call lists one network for each key, and the object of a
key that was listed before. All its addresses and reports are right if and only if in every call no
two networks share a key that was never seen, and the length of a list that has nothing new tells
whether networks are missing. -/
theorem networks_merged {lists : List (List Network)} (hlists : ∀ l ∈ lists, Proper l) :
    Along addListed (fun listed c => c.ListsOnce ∧ c.KeepsObjects listed) []
        (calls inet sort create lists) ∧
      (Along addListed
          (fun listed c => (c.ListsOnce ∧ c.KeepsObjects listed) ∧ c.Unites ∧ c.Flags) []
          (calls inet sort create lists) ↔
        Along addListed (fun _ c => c.Unshared inet ∧ c.Counted inet) []
          (calls inet sort create lists)) := by
  have hrun : ∀ lists : List (List Network), (∀ l ∈ lists, Proper l) → ∀ m listed,
      m.Sound inet → m.Remembers inet listed →
      Along addListed (fun listed c => c.ListsOnce ∧ c.KeepsObjects listed) listed
          (calls inet sort m lists) ∧
        (Along addListed
            (fun listed c => (c.ListsOnce ∧ c.KeepsObjects listed) ∧ c.Unites ∧ c.Flags) listed
            (calls inet sort m lists) ↔
          Along addListed (fun _ c => c.Unshared inet ∧ c.Counted inet) listed
            (calls inet sort m lists)) := by
    intro lists
    induction lists with
    | nil => exact fun _ m listed _ _ => ⟨trivial, Iff.rfl⟩
    | cons l lists ih =>
      intro hlists m listed hm hlisted
      rw [List.forall_mem_cons] at hlists
      obtain ⟨hkeeps, hnext⟩ := hlisted.call hinet hsort hm hlists.1
      have honce := Call.listsOnce hinet hsort hm hlists.1
      obtain ⟨halways, hiff⟩ := ih hlists.2 _ _ (hm.mergeNetworkList hinet hsort hlists.1) hnext
      have hcall := and_congr (Call.unites_iff hinet hsort hm hlists.1)
        (Call.flags_iff hinet hsort hm hlists.1)
      exact ⟨⟨⟨honce, hkeeps⟩, halways⟩,
        and_congr ((and_iff_right ⟨honce, hkeeps⟩).trans hcall) hiff⟩
  exact hrun lists hlists create [] sound_create (List.forall_mem_nil _)

omit hinet hsort

/-- A table of addresses that prints those of IPv4. -/
def quad : InetText where
  ntop
    | .ipv6 a => ':' :: natText a.toNat
    | ip => dottedQuad.ntop ip
  pton _ := none

theorem natText_injective : Function.Injective natText := fun a b h => by
  rw [← ofDigitChars_natText a, h, ofDigitChars_natText]

theorem notMem_dottedQuad {c : Char} (hdigit : c.isDigit = false) (hdot : c ≠ '.') (a : U32) :
    c ∉ dottedQuad.ntop (.ipv4 a) := by
  simp [dottedQuad, notMem_natText hdigit, hdot]

theorem dottedQuad_injective {a b : U32}
    (h : dottedQuad.ntop (.ipv4 a) = dottedQuad.ntop (.ipv4 b)) :
    a = b := by
  have hdot : ∀ n, '.' ∉ natText n := fun n => notMem_natText (by decide)
  obtain ⟨h, h4⟩ := append_cons_inj_of_notMem (hdot _) (hdot _) h
  obtain ⟨h, h3⟩ := append_cons_inj_of_notMem (hdot _) (hdot _) h
  obtain ⟨h1, h2⟩ := append_cons_inj_of_notMem (hdot _) (hdot _) h
  have h1 := natText_injective h1
  have h2 := natText_injective h2
  have h3 := natText_injective h3
  have h4 := natText_injective h4
  exact BitVec.eq_of_toNat_eq (by omega)

theorem dottedQuad_ne_nil (a : U32) : dottedQuad.ntop (.ipv4 a) ≠ [] :=
  List.append_ne_nil_of_right_ne_nil _ (List.cons_ne_nil _ _)

theorem prints_quad : Prints quad where
  injective a b h := by
    have hcolon : ∀ (a : U32) (s : Text), dottedQuad.ntop (.ipv4 a) ≠ ':' :: s := by
      intro a s heq
      exact notMem_dottedQuad (by decide) (by decide) a (heq ▸ List.mem_cons_self)
    cases a with
    | unspec =>
      cases b with
      | unspec => rfl
      | ipv4 b => exact absurd h.symm (dottedQuad_ne_nil b)
      | ipv6 b => exact absurd h.symm (List.cons_ne_nil _ _)
    | ipv4 a =>
      cases b with
      | unspec => exact absurd h (dottedQuad_ne_nil a)
      | ipv4 b => exact congrArg IPAddress.ipv4 (dottedQuad_injective h)
      | ipv6 b => exact absurd h (hcolon a _)
    | ipv6 a =>
      cases b with
      | unspec => exact absurd h (List.cons_ne_nil _ _)
      | ipv4 b => exact absurd h.symm (hcolon b _)
      | ipv6 b =>
        exact congrArg IPAddress.ipv6
          (BitVec.eq_of_toNat_eq (natText_injective (List.cons.inj h).2))
  percent ip := by
    cases ip with
    | unspec => exact List.not_mem_nil
    | ipv4 a => exact notMem_dottedQuad (by decide) (by decide) a
    | ipv6 a => exact List.not_mem_cons_of_ne_of_not_mem (by decide) (notMem_natText (by decide))
  slash ip := by
    cases ip with
    | unspec => exact List.not_mem_nil
    | ipv4 a => exact notMem_dottedQuad (by decide) (by decide) a
    | ipv6 a => exact List.not_mem_cons_of_ne_of_not_mem (by decide) (notMem_natText (by decide))

/-- Two interfaces of one machine, the first one with an address or with another one. -/
def eth (object : Nat) (ip : U32) : Network :=
  ⟨object, "eth0".toList, .ipv4 0xC0A80100, 24, [.ipv4 ip]⟩

def wlan (object : Nat) : Network :=
  ⟨object, "wlan0".toList, .ipv4 0xC0A80200, 24, [.ipv4 0xC0A80205]⟩

/-- A network gets another address beside a new network. -/
def moving : List (List Network) := [[eth 1 0xC0A80101], [eth 2 0xC0A80102, wlan 3]]

theorem networks_merged_moving :
    ((calls quad (fun _ l => l) create moving).map
      fun c => (c.changed, c.after.networks_.map fun n => (n.object, n.ips_))) =
        [(true, [(1, [.ipv4 0xC0A80101])]),
          (true, [(1, [.ipv4 0xC0A80102]), (3, [.ipv4 0xC0A80205])])] ∧
      Along addListed (fun listed c => c.ListsOnce ∧ c.KeepsObjects listed) []
        (calls quad (fun _ l => l) create moving) :=
  ⟨by decide +kernel,
    (networks_merged prints_quad (fun _ _ => List.Perm.refl _) (by decide)).1⟩

/-- A network goes and comes back as it was. -/
def returning : List (List Network) := [[eth 1 0xC0A80101], [wlan 2], [eth 3 0xC0A80101]]

/-- Two networks share a key, once and again. -/
def sharing : List (List Network) :=
  [[eth 1 0xC0A80101, eth 2 0xC0A80102], [eth 3 0xC0A80101, eth 4 0xC0A80102],
    [eth 5 0xC0A80101, eth 6 0xC0A80102]]

/-- A network that returns is not reported; the addresses of networks that share a new key are lost;
and networks that share a known key are reported each time. -/
theorem unreported :
    ((∀ l ∈ returning, Proper l) ∧ (calls quad (fun _ l => l) create returning).map
        (fun c => (c.changed, decide (c.after.addresses = c.before.addresses))) =
      [(true, false), (true, false), (false, false)]) ∧
    ((∀ l ∈ sharing, Proper l) ∧ (calls quad (fun _ l => l) create sharing).map
        (fun c => (c.changed, decide (c.after.addresses = c.before.addresses),
          c.after.networks_.map Network.ips_)) =
      [(true, false, [[.ipv4 0xC0A80101]]),
        (true, false, [[.ipv4 0xC0A80101, .ipv4 0xC0A80102]]),
        (true, true, [[.ipv4 0xC0A80101, .ipv4 0xC0A80102]])]) :=
  ⟨⟨by decide, by decide +kernel⟩, ⟨by decide, by decide +kernel⟩⟩

end Libjingle.NetworkManagerBase
