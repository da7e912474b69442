import Libjingle.Base.Network
import Libjingle.Sdp.Lines

/-!
# `SocketAddress` (`base/socketaddress.h`, `base/socketaddress.cc`)

An IP address and a port, and the host name the address was made from or is still to be resolved
from. Socket addresses are compared for equality, and ordered as the keys of maps, by two
functions that are written apart. Both look at the host name only where the IP address is the
wildcard.

* `literal_` says that the host name is the text of an IP address.
* A text is read as an IP address up to its first NUL, as a C string.

## Results

* **`comparesNames_iff`**: the comparisons are an equivalence and a strict weak order that agree,
  on any set of addresses; they tell unresolved addresses apart by their names exactly if the
  ports do so already.
-/

namespace Libjingle.Base

open Lib Sdp

structure SocketAddress where
  hostname_ : Text
  ip_ : IPAddress
  port_ : U16
  scope_id_ : I32
  literal_ : Bool
deriving DecidableEq

def ipIsUnspec (ip : IPAddress) : Bool := ip = .unspec

/-- `c_str`: a string up to its first NUL. -/
def cStr (s : Text) : Text := s.takeWhile (· ≠ '\x00')

namespace SocketAddress

/-! ## Constructors and setters -/

/-- The constructor without arguments, and `Clear`. -/
def clear : SocketAddress := ⟨[], .unspec, 0, 0, false⟩

/-- `SetIP` of an IP address. -/
def setIP (a : SocketAddress) (ip : IPAddress) : SocketAddress :=
  { a with hostname_ := [], literal_ := false, ip_ := ip, scope_id_ := 0 }

/-- `SetIP` of a host name. `IPFromString` leaves an unspecified address where it fails. -/
def setHost (inet : InetText) (a : SocketAddress) (hostname : Text) : SocketAddress :=
  { a with
    hostname_ := hostname
    literal_ := (inet.pton (cStr hostname)).isSome
    ip_ := (inet.pton (cStr hostname)).getD .unspec
    scope_id_ := 0 }

def setResolvedIP (a : SocketAddress) (ip : IPAddress) : SocketAddress :=
  { a with ip_ := ip, scope_id_ := 0 }

/-- `SetPort`; an `int` that is no port is cut to 16 bits. -/
def setPort (a : SocketAddress) (port : Int) : SocketAddress :=
  { a with port_ := BitVec.ofInt 16 port }

def setScopeID (a : SocketAddress) (id : I32) : SocketAddress := { a with scope_id_ := id }

/-- The constructor with a host name. -/
def ofHost (inet : InetText) (hostname : Text) (port : Int) : SocketAddress :=
  (clear.setHost inet hostname).setPort port

/-- The constructor with an IP address. -/
def ofIP (ip : IPAddress) (port : Int) : SocketAddress := (clear.setIP ip).setPort port

/-- `FromSockAddr`, of an address of the family `AF_INET`. -/
def fromSockAddr (a : SocketAddress) (addr : U32) (port : U16) : SocketAddress :=
  { (a.setIP (.ipv4 addr)).setPort port.toNat with literal_ := false }

/-- What the constructors and the setters make. -/
inductive Reachable (inet : InetText) : SocketAddress → Prop
  | clear : Reachable inet clear
  | setIP {a} (h : Reachable inet a) (ip) : Reachable inet (a.setIP ip)
  | setHost {a} (h : Reachable inet a) (hostname) : Reachable inet (a.setHost inet hostname)
  | setResolvedIP {a} (h : Reachable inet a) (ip) : Reachable inet (a.setResolvedIP ip)
  | setPort {a} (h : Reachable inet a) (port) : Reachable inet (a.setPort port)
  | setScopeID {a} (h : Reachable inet a) (id) : Reachable inet (a.setScopeID id)
  | fromSockAddr {a} (h : Reachable inet a) (addr port) : Reachable inet (a.fromSockAddr addr port)

def isAnyIP (a : SocketAddress) : Bool := ipIsAny a.ip_

def isUnresolvedIP (a : SocketAddress) : Bool :=
  ipIsUnspec a.ip_ && !a.literal_ && a.hostname_ ≠ []

/-! ## Comparisons -/

def equalIPs (a b : SocketAddress) : Bool :=
  a.ip_ = b.ip_ && (!ipIsAny a.ip_ || a.hostname_ = b.hostname_)

def equalPorts (a b : SocketAddress) : Bool := a.port_ = b.port_

/-- `operator==`. -/
def equal (a b : SocketAddress) : Bool := a.equalIPs b && a.equalPorts b

/-- `operator<`. -/
def less (a b : SocketAddress) : Bool :=
  if a.ip_.lt b.ip_ then true
  else if b.ip_.lt a.ip_ then false
  else if b.isAnyIP ∧ a.hostname_ < b.hostname_ then true
  else if b.isAnyIP ∧ b.hostname_ < a.hostname_ then false
  else a.port_ < b.port_

/-- The family of an IP address, and the address as a number. -/
def ipKey : IPAddress → ℕ ×ₗ ℕ
  | .unspec => toLex (0, 0)
  | .ipv4 a => toLex (1, a.toNat)
  | .ipv6 a => toLex (2, a.toNat)

/-- The IP address, the host name of a wildcard address, and the port. -/
def key (a : SocketAddress) : (ℕ ×ₗ ℕ) ×ₗ Text ×ₗ ℕ :=
  toLex (ipKey a.ip_, toLex (if a.isAnyIP then a.hostname_ else [], a.port_.toNat))

theorem ipKey_injective : Function.Injective ipKey := by
  intro a b h
  cases a <;> cases b <;> simp_all [ipKey, BitVec.toNat_inj]

theorem lt_iff (a b : IPAddress) : a.lt b = true ↔ ipKey a < ipKey b := by
  cases a <;> cases b <;> simp [IPAddress.lt, ipKey, Prod.Lex.toLex_lt_toLex]

variable {a b : SocketAddress}

theorem less_of_ip_ne (h : a.ip_ ≠ b.ip_) : a.less b = true ↔ ipKey a.ip_ < ipKey b.ip_ := by
  have hne : ipKey a.ip_ ≠ ipKey b.ip_ := fun heq => h (ipKey_injective heq)
  unfold less
  by_cases hlt : a.ip_.lt b.ip_ = true
  · rw [if_pos hlt]
    exact iff_of_true rfl ((lt_iff _ _).mp hlt)
  · have hgt : b.ip_.lt a.ip_ = true :=
      (lt_iff _ _).mpr (lt_of_le_of_ne (not_lt.mp fun hlt' => hlt ((lt_iff _ _).mpr hlt')) hne.symm)
    rw [if_neg hlt, if_pos hgt, ← lt_iff]
    exact iff_of_false Bool.false_ne_true hlt

theorem less_of_ip_eq (h : a.ip_ = b.ip_) :
    a.less b = true ↔ (b.isAnyIP = true ∧ a.hostname_ < b.hostname_) ∨
      (b.isAnyIP = true → a.hostname_ = b.hostname_) ∧ a.port_ < b.port_ := by
  have hirrefl : b.ip_.lt b.ip_ = false := by
    rw [← Bool.not_eq_true, lt_iff]
    exact lt_irrefl _
  unfold less
  rw [h, hirrefl, if_neg Bool.false_ne_true, if_neg Bool.false_ne_true]
  by_cases hany : b.isAnyIP = true
  · simp only [hany, true_and, forall_const]
    rcases lt_trichotomy a.hostname_ b.hostname_ with hlt | heq | hgt
    · simp [hlt]
    · simp [heq]
    · simp [hgt, hgt.not_gt, hgt.ne']
  · simp [hany]

/-- **The order is that of the keys.** -/
theorem less_iff (a b : SocketAddress) : a.less b = true ↔ a.key < b.key := by
  rw [key, key, Prod.Lex.toLex_lt_toLex]
  by_cases h : a.ip_ = b.ip_
  · have hany : a.isAnyIP = b.isAnyIP := by rw [isAnyIP, isAnyIP, h]
    rw [less_of_ip_eq h, h, hany]
    by_cases hb : b.isAnyIP = true
    · simp [hb, Prod.Lex.toLex_lt_toLex, BitVec.lt_def]
    · simp [hb, Prod.Lex.toLex_lt_toLex, BitVec.lt_def]
  · rw [less_of_ip_ne h]
    have hne : ipKey a.ip_ ≠ ipKey b.ip_ := fun heq => h (ipKey_injective heq)
    simp [hne]

/-- **Equality is that of the keys.** -/
theorem equal_iff (a b : SocketAddress) : a.equal b = true ↔ a.key = b.key := by
  simp only [equal, equalIPs, equalPorts, key, Bool.and_eq_true, decide_eq_true_eq,
    EmbeddingLike.apply_eq_iff_eq, Prod.mk.injEq, ipKey_injective.eq_iff, BitVec.toNat_inj,
    Bool.or_eq_true, Bool.not_eq_true']
  by_cases h : a.ip_ = b.ip_
  · have hany : b.isAnyIP = ipIsAny a.ip_ := by rw [isAnyIP, h]
    rw [hany, isAnyIP]
    cases ipIsAny a.ip_ <;> simp [h]
  · simp [h]

/-! ## What the comparisons are -/

/-- **The comparisons are fit for the keys of a map, and tell host names apart.** -/
structure ComparesNames (S : Set SocketAddress) : Prop where
  refl : ∀ a ∈ S, a.equal a = true
  symm : ∀ a ∈ S, ∀ b ∈ S, a.equal b = true → b.equal a = true
  trans : ∀ a ∈ S, ∀ b ∈ S, ∀ c ∈ S, a.equal b = true → b.equal c = true → a.equal c = true
  order : WeakOrderOn (fun a b => a.less b = true) S
  incomp : ∀ a ∈ S, ∀ b ∈ S,
    (¬ a.less b = true ∧ ¬ b.less a = true) ↔ a.equal b = true
  names : ∀ a ∈ S, ∀ b ∈ S, a.isUnresolvedIP = true → b.isUnresolvedIP = true →
    a.hostname_ ≠ b.hostname_ → a.equal b = false

theorem equal_of_unresolved (ha : a.isUnresolvedIP = true)
    (hb : b.isUnresolvedIP = true) : a.equal b = decide (a.port_ = b.port_) := by
  simp only [isUnresolvedIP, ipIsUnspec, Bool.and_eq_true, decide_eq_true_eq] at ha hb
  rw [equal, equalIPs, equalPorts, ha.1.1, hb.1.1]
  rfl

/-- **The comparisons are an equivalence and a strict weak order that agree**, and unresolved
addresses with different names are told apart exactly if their ports differ. -/
theorem comparesNames_iff (S : Set SocketAddress) :
    ComparesNames S ↔ ∀ a ∈ S, ∀ b ∈ S, a.isUnresolvedIP = true → b.isUnresolvedIP = true →
      a.hostname_ ≠ b.hostname_ → a.port_ ≠ b.port_ := by
  constructor
  · intro h a ha b hb hua hub hne hport
    have hequal := h.names a ha b hb hua hub hne
    rw [equal_of_unresolved hua hub] at hequal
    exact of_decide_eq_false hequal hport
  · intro h
    refine ⟨fun a _ => (equal_iff a a).mpr rfl, fun a _ b _ hab => ?_,
      fun a _ b _ c _ hab hbc => ?_,
      weakOrderOn_of_key key fun a _ b _ => less_iff a b, fun a _ b _ => ?_,
      fun a ha b hb hua hub hne => ?_⟩
    · exact (equal_iff b a).mpr ((equal_iff a b).mp hab).symm
    · exact (equal_iff a c).mpr (((equal_iff a b).mp hab).trans ((equal_iff b c).mp hbc))
    · rw [less_iff, less_iff, equal_iff, not_lt, not_lt]
      exact ⟨fun h => le_antisymm h.2 h.1, fun h => ⟨h.ge, h.le⟩⟩
    · rw [equal_of_unresolved hua hub]
      exact decide_eq_false (h a ha b hb hua hub hne)

/-- **Two unresolved host names with one port are the same address**, since the unspecified address
is no wildcard. -/
theorem unresolved_names_equal :
    (∃ a b, a = ofHost dottedQuad "alpha.example".toList 3478 ∧
      b = ofHost dottedQuad "beta.example".toList 3478 ∧ a.isUnresolvedIP = true ∧
      b.isUnresolvedIP = true ∧ a.hostname_ ≠ b.hostname_ ∧ a.equal b = true) ∧
    ¬ ComparesNames {a | Reachable dottedQuad a} := by
  have hequal : (ofHost dottedQuad "alpha.example".toList 3478).equal
      (ofHost dottedQuad "beta.example".toList 3478) = true := by decide +kernel
  refine ⟨⟨_, _, rfl, rfl, by decide +kernel, by decide +kernel, by decide +kernel, hequal⟩,
    fun h => ?_⟩
  have hnames := h.names _ ((Reachable.clear.setHost "alpha.example".toList).setPort 3478) _
    ((Reachable.clear.setHost "beta.example".toList).setPort 3478) (by decide +kernel)
    (by decide +kernel) (by decide +kernel)
  exact Bool.false_ne_true (hnames.symm.trans hequal)

end SocketAddress

end Libjingle.Base
