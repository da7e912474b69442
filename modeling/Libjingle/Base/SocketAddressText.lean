import Libjingle.Base.SocketAddress
import Libjingle.Lib.Numerals

/-!
# The text of a socket address (`base/socketaddress.cc`: `ToString`, `FromString`)

An address is written as its host and its port with a colon between them, and an IPv6 address stands
in brackets. `FromString` looks for the brackets and the colon and takes what is around them.

* `FromString` is called on an address, which it changes. `std::string::at` throws on an empty
  string: then there is no result.
* What `inet_ntop` and `inet_pton` do with the address that is written is a hypothesis (`Inverts`).

## Results

* **`roundTrips_iff`**: an address is read as it was written exactly if no host name with a colon,
  or with a bracket in front, is written.
* **`sound_iff`**: a text is read or refused as it should be exactly if it is not empty, has no
  bracket that stays open, and has a port where one should stand.
-/

namespace Libjingle.Base

open Lib Sdp

/-! ## Strings -/

def find (s : Text) (d : Char) (pos : Nat) : Option Nat :=
  ((s.drop pos).findIdx? (· = d)).map (pos + ·)

def rfind (s : Text) (d : Char) : Option Nat :=
  (s.reverse.findIdx? (· = d)).map fun i => s.length - 1 - i

/-- `strtoul` with base 10: 0 without digits, and the greatest number out of range. -/
def strtoul10 (s : Text) : U64 :=
  let (negative, digits) := numeral s
  let n : Nat := Nat.ofDigitChars 10 digits 0
  if n ≥ 2 ^ 64 then -1 else if negative then -BitVec.ofNat 64 n else BitVec.ofNat 64 n

variable {d : Char}

theorem findIdx?_append_cons {a : Text} (ha : d ∉ a) (b : Text) :
    (a ++ d :: b).findIdx? (· = d) = some a.length := by
  have hnone : a.findIdx? (fun x => decide (x = d)) = none := by
    rw [List.findIdx?_eq_none_iff]
    exact fun x hx => decide_eq_false fun h => ha (h ▸ hx)
  rw [List.findIdx?_append, hnone, List.findIdx?_cons, decide_eq_true rfl]
  simp

theorem find_append (a b t : Text) (hb : d ∉ b) :
    find (a ++ (b ++ d :: t)) d a.length = some (a.length + b.length) := by
  rw [find, List.drop_left, findIdx?_append_cons hb]
  rfl

variable {b : Text}

theorem find_of_notMem (a : Text) (hb : d ∉ b) : find (a ++ b) d a.length = none := by
  rw [find, List.drop_left, Option.map_eq_none_iff, List.findIdx?_eq_none_iff]
  exact fun x hx => decide_eq_false fun h => hb (h ▸ hx)

theorem rfind_append (a : Text) (hb : d ∉ b) : rfind (a ++ d :: b) d = some a.length := by
  have hreverse : (a ++ d :: b).reverse = b.reverse ++ d :: a.reverse := by simp
  rw [rfind, hreverse, findIdx?_append_cons (fun h => hb (List.mem_reverse.mp h))]
  simp

theorem rfind_of_notMem {s : Text} (h : d ∉ s) : rfind s d = none := by
  rw [rfind, Option.map_eq_none_iff, List.findIdx?_eq_none_iff]
  exact fun x hx => decide_eq_false fun heq => h (heq ▸ List.mem_reverse.mp hx)

theorem eq_append_last {s : Text} (h : d ∈ s) : ∃ a b, s = a ++ d :: b ∧ d ∉ b := by
  obtain ⟨a, b, hs, ha⟩ := List.eq_append_cons_of_mem (List.mem_reverse.mpr h)
  refine ⟨b.reverse, a.reverse, ?_, fun hmem => ha (List.mem_reverse.mp hmem)⟩
  rw [← List.reverse_reverse s, hs]
  simp

theorem append_last_inj {a b a' b' : Text} (h : a ++ d :: b = a' ++ d :: b') (hb : d ∉ b)
    (hb' : d ∉ b') : a = a' ∧ b = b' := by
  have hlength : some a.length = some a'.length := by
    rw [← rfind_append a hb, h, rfind_append a' hb']
  obtain ⟨ha, hrest⟩ := List.append_inj h (Option.some.inj hlength)
  exact ⟨ha, (List.cons.inj hrest).2⟩

namespace SocketAddress

variable (inet : InetText)

/-! ## Writing and reading -/

def hostAsURIString (a : SocketAddress) : Text :=
  if !a.literal_ && a.hostname_ ≠ [] then a.hostname_
  else
    match a.ip_ with
    | .ipv6 _ => '[' :: inet.toString a.ip_ ++ [']']
    | _ => inet.toString a.ip_

def toString (a : SocketAddress) : Text := a.hostAsURIString inet ++ ':' :: natText a.port_.toNat

/-- The port from a text, and the host from another one. -/
def setParts (a : SocketAddress) (host port : Text) : SocketAddress :=
  (a.setPort ((strtoul10 (cStr port)).setWidth 32).toInt).setHost inet host

/-- `FromString`: what it returns and the address after it. -/
def fromString (a : SocketAddress) (str : Text) : Option (Bool × SocketAddress) :=
  match str with
  | [] => none
  | '[' :: _ =>
    match rfind str ']' with
    | some closebracket =>
      match find str ':' closebracket with
      | some colon =>
        if colon > closebracket then
          some (true, a.setParts inet ((str.drop 1).take (closebracket - 1)) (str.drop (colon + 1)))
        else some (false, a)
      | none => some (false, a)
    | none => some (true, a)
  | _ =>
    match find str ':' 0 with
    | some pos => some (true, a.setParts inet (str.take pos) (str.drop (pos + 1)))
    | none => some (false, a)

/-- Where host and port stand: around the first colon, or, behind an opening bracket, in front of
the last closing one and behind the first colon after it. -/
inductive IsParts : Text → Text → Text → Prop
  | plain {host port : Text} (hbracket : (host ++ ':' :: port).head? ≠ some '[')
      (hcolon : ':' ∉ host) : IsParts (host ++ ':' :: port) host port
  | bracketed {host mid port : Text} (hbracket : ']' ∉ mid ++ ':' :: port)
      (hcolon : ':' ∉ mid) :
      IsParts ('[' :: host ++ ']' :: (mid ++ ':' :: port)) host port

/-- A decimal numeral of at most 65535, and its value. -/
def Port (s : Text) (n : Nat) : Prop :=
  s ≠ [] ∧ s.all Char.isDigit = true ∧ n = Nat.ofDigitChars 10 s 0 ∧ n ≤ 65535

variable {inet}

variable {s host port : Text}

/-- **Host and port are taken from where they stand.** -/
theorem fromString_parts (a : SocketAddress) (h : IsParts s host port) :
    a.fromString inet s = some (true, a.setParts inet host port) := by
  cases h with
  | plain hbracket hcolon =>
    have hfind : find (host ++ ':' :: port) ':' 0 = some host.length := by
      simpa using find_append [] host port hcolon
    unfold fromString
    split
    · rename_i heq
      exact absurd heq (List.append_ne_nil_of_right_ne_nil _ (List.cons_ne_nil _ _))
    · rename_i heq
      rw [heq] at hbracket
      exact absurd rfl hbracket
    · rw [hfind]
      simp
  | @bracketed _ mid _ hbracket hcolon =>
    have hrfind := rfind_append ('[' :: host) hbracket
    have hcolon' : ':' ∉ ']' :: mid := List.not_mem_cons_of_ne_of_not_mem (by decide) hcolon
    have hfind := find_append ('[' :: host) (']' :: mid) port hcolon'
    have hhost : (host ++ ']' :: (mid ++ ':' :: port)).take host.length = host := List.take_left
    have hport : (host ++ ']' :: (mid ++ ':' :: port)).drop (host.length + (mid.length + 1 + 1)) =
        port := by
      rw [List.drop_length_add_append]
      simp
    simp only [List.cons_append, List.length_cons] at hrfind hfind ⊢
    rw [fromString, hrfind]
    simp only [hfind]
    rw [if_pos (by omega)]
    have hindex : host.length + 1 + (mid.length + 1) + 1 =
        host.length + (mid.length + 1 + 1) + 1 := by
      omega
    rw [hindex, List.drop_succ_cons, List.drop_succ_cons, List.drop_zero, Nat.add_sub_cancel, hhost,
      hport]

theorem fromString_none (a : SocketAddress) (hne : s ≠ [])
    (hopen : s.head? = some '[' → ']' ∈ s) (hparts : ∀ host port, ¬ IsParts s host port) :
    a.fromString inet s = some (false, a) := by
  unfold fromString
  split
  · exact absurd rfl hne
  · rename_i t
    obtain ⟨u, v, hs, hv⟩ := eq_append_last (hopen rfl)
    obtain ⟨host, rfl⟩ : ∃ host, u = '[' :: host := by
      cases u with
      | nil => cases hs
      | cons x host => exact ⟨host, by rw [(List.cons.inj hs).1]⟩
    have hcolon : ':' ∉ v := by
      intro hmem
      obtain ⟨mid, port, rfl, hmid⟩ := List.eq_append_cons_of_mem hmem
      exact hparts host port (hs ▸ .bracketed hv hmid)
    have hcolon' : ':' ∉ ']' :: v := List.not_mem_cons_of_ne_of_not_mem (by decide) hcolon
    rw [hs, rfind_append _ hv]
    simp only [find_of_notMem _ hcolon']
  · rename_i hbracket
    have hcolon : ':' ∉ s := by
      intro hmem
      obtain ⟨host, port, rfl, hhost⟩ := List.eq_append_cons_of_mem hmem
      refine hparts host port (.plain (fun hhead => ?_) hhost)
      obtain ⟨t, ht⟩ := List.head?_eq_some_iff.mp hhead
      exact hbracket t ht
    have hfind : find s ':' 0 = none := by simpa using find_of_notMem [] hcolon
    rw [hfind]

theorem fromString_open (a : SocketAddress) {t : Text} (h : ']' ∉ '[' :: t) :
    a.fromString inet ('[' :: t) = some (true, a) := by
  rw [fromString, rfind_of_notMem h]

theorem IsParts.unique {s host port host' port' : Text} (h : IsParts s host port)
    (h' : IsParts s host' port') : host = host' ∧ port = port' := by
  cases h with
  | plain hbracket hcolon =>
    generalize hs : host ++ ':' :: port = s at *
    cases h' with
    | plain hbracket' hcolon' =>
      have hsplit := splitFirst_append hcolon port
      rw [hs, splitFirst_append hcolon' port'] at hsplit
      obtain ⟨rfl, rfl⟩ := Prod.mk.inj (Option.some.inj hsplit)
      exact ⟨rfl, rfl⟩
    | bracketed hbracket' hcolon' => exact absurd rfl hbracket
  | @bracketed _ mid _ hbracket hcolon =>
    generalize hs : '[' :: host ++ ']' :: (mid ++ ':' :: port) = s at *
    cases h' with
    | plain hbracket' hcolon' =>
      rw [← hs] at hbracket'
      exact absurd rfl hbracket'
    | @bracketed _ mid' _ hbracket' hcolon' =>
      obtain ⟨hhost, hrest⟩ := append_last_inj hs hbracket hbracket'
      have hsplit := splitFirst_append hcolon port
      rw [hrest, splitFirst_append hcolon' port'] at hsplit
      obtain ⟨-, rfl⟩ := Prod.mk.inj (Option.some.inj hsplit)
      exact ⟨(List.cons.inj hhost).2, rfl⟩

theorem IsParts.closed (h : IsParts s host port) (hhead : s.head? = some '[') : ']' ∈ s := by
  cases h with
  | plain hbracket hcolon => exact absurd hhead hbracket
  | bracketed hbracket hcolon => simp

/-! ## Round trip -/

/-- `inet_pton` reads what `inet_ntop` writes, a C string, which is dotted for an IPv4 address. -/
structure Inverts (inet : InetText) (ip : IPAddress) : Prop where
  pton : inet.pton (inet.ntop ip) = some ip
  nul : '\x00' ∉ inet.ntop ip
  dotted : ∀ addr, ip = .ipv4 addr → ∀ d ∈ inet.ntop ip, d.isDigit = true ∨ d = '.'

/-- The address is written with its host name. -/
def named (a : SocketAddress) : Bool := !a.literal_ && a.hostname_ ≠ []

/-- **The address is read as it was written**, whatever the address it is read into. -/
def RoundTrips (inet : InetText) (a : SocketAddress) : Prop :=
  ∀ b : SocketAddress, ∃ b', b.fromString inet (a.toString inet) = some (true, b') ∧
    b'.port_ = a.port_ ∧ if a.named then b'.hostname_ = a.hostname_ else b'.ip_ = a.ip_

theorem cStr_of_notMem (h : '\x00' ∉ s) : cStr s = s :=
  List.takeWhile_eq_self_iff.mpr fun _ hd => decide_eq_true fun heq => h (heq ▸ hd)

variable {n : Nat}

theorem strtoul10_natText (h : n < 2 ^ 64) : strtoul10 (natText n) = BitVec.ofNat 64 n := by
  rw [strtoul10, numeral_natText]
  simp only [ofDigitChars_natText, Bool.false_eq_true, if_false]
  rw [if_neg (by omega)]

theorem setParts_of_port (b : SocketAddress) (host : Text)
    (hport : strtoul10 (cStr port) = BitVec.ofNat 64 n) (hn : n ≤ 65535) :
    b.setParts inet host port = (b.setPort n).setHost inet host := by
  have hint : (((BitVec.ofNat 64 n).setWidth 32).toInt : Int) = n := by
    rw [BitVec.setWidth_ofNat_of_le (by decide), BitVec.toInt_ofNat', Int.bmod_eq_of_le] <;> omega
  rw [setParts, hport, hint]

theorem fromString_written (inet : InetText) (b : SocketAddress) (port : U16)
    (h : IsParts s host (natText port.toNat)) :
    b.fromString inet s = some (true, (b.setPort port.toNat).setHost inet host) := by
  have hlt := port.isLt
  have hnul : '\x00' ∉ natText port.toNat := notMem_natText (by decide)
  have hport : strtoul10 (cStr (natText port.toNat)) = BitVec.ofNat 64 port.toNat := by
    rw [cStr_of_notMem hnul, strtoul10_natText (by omega)]
  rw [fromString_parts b h, setParts_of_port b host hport (by omega)]

theorem setPort_toNat (b : SocketAddress) (port : U16) :
    (b.setPort port.toNat).port_ = port := by
  rw [setPort, BitVec.ofInt_natCast, BitVec.ofNat_toNat, BitVec.setWidth_eq]

variable {a : SocketAddress}

theorem not_named (h : a.named = false) : ¬ (!a.literal_ && decide (a.hostname_ ≠ [])) = true := by
  rw [named] at h
  rw [h]
  exact Bool.false_ne_true

theorem toString_ipv4 (hnamed : a.named = false) {addr : U32} (hip : a.ip_ = .ipv4 addr) :
    a.toString inet = inet.ntop (.ipv4 addr) ++ ':' :: natText a.port_.toNat := by
  rw [toString, hostAsURIString, if_neg (not_named hnamed), hip]
  rfl

theorem toString_ipv6 (hnamed : a.named = false) {addr : BitVec 128} (hip : a.ip_ = .ipv6 addr) :
    a.toString inet =
      '[' :: inet.ntop (.ipv6 addr) ++ ']' :: ([] ++ ':' :: natText a.port_.toNat) := by
  rw [toString, hostAsURIString, if_neg (not_named hnamed), hip]
  simp [InetText.toString]

theorem toString_of_named (hnamed : a.named = true) :
    a.toString inet = a.hostname_ ++ ':' :: natText a.port_.toNat := by
  rw [named] at hnamed
  rw [toString, hostAsURIString, if_pos hnamed]

theorem isParts_of_not_named (hnamed : a.named = false)
    (hip : a.ip_ ≠ .unspec) (hinet : Inverts inet a.ip_) :
    IsParts (a.toString inet) (inet.ntop a.ip_) (natText a.port_.toNat) := by
  cases haddr : a.ip_ with
  | unspec => exact absurd haddr hip
  | ipv4 addr =>
    have hdotted : ∀ d : Char, d.isDigit = false → d ≠ '.' → d ∉ inet.ntop (.ipv4 addr) := by
      intro d hdigit hdot hmem
      rcases (haddr ▸ hinet.dotted addr haddr) d hmem with h | h
      · rw [hdigit] at h
        cases h
      · exact hdot h
    rw [toString_ipv4 hnamed haddr]
    refine .plain (fun hhead => ?_) (hdotted ':' (by decide) (by decide))
    cases htext : inet.ntop (.ipv4 addr) with
    | nil =>
      rw [htext] at hhead
      cases hhead
    | cons c t =>
      rw [htext, List.cons_append, List.head?_cons, Option.some.injEq] at hhead
      exact hdotted '[' (by decide) (by decide) (by rw [htext, hhead]; exact List.mem_cons_self)
  | ipv6 addr =>
    rw [toString_ipv6 hnamed haddr]
    exact .bracketed (List.not_mem_cons_of_ne_of_not_mem (by decide) (notMem_natText (by decide)))
      List.not_mem_nil

/-- **When an address is read as it was written**: exactly if it is not written with a host name
that has a colon or begins with a bracket. -/
theorem roundTrips_iff (a : SocketAddress) (hip : a.ip_ ≠ .unspec ∨ a.named = true)
    (hinet : a.ip_ ≠ .unspec → Inverts inet a.ip_) :
    RoundTrips inet a ↔ (a.named = true → ':' ∉ a.hostname_ ∧ a.hostname_.head? ≠ some '[') := by
  constructor
  · intro h hnamed
    have hname : a.hostname_ ≠ [] := by
      simp only [named, Bool.and_eq_true, decide_eq_true_eq] at hnamed
      exact hnamed.2
    obtain ⟨b', hread, -, hsame⟩ := h clear
    rw [if_pos hnamed] at hsame
    rw [toString_of_named hnamed] at hread
    have hopen : (a.hostname_ ++ ':' :: natText a.port_.toNat).head? = some '[' →
        ']' ∈ a.hostname_ ++ ':' :: natText a.port_.toNat := by
      intro hhead
      by_contra hclose
      obtain ⟨t, ht⟩ := List.head?_eq_some_iff.mp hhead
      rw [ht] at hread hclose
      rw [fromString_open clear hclose] at hread
      cases hread
      exact hname hsame.symm
    have hparts : ∃ host port, IsParts (a.hostname_ ++ ':' :: natText a.port_.toNat) host port := by
      by_contra hno
      simp only [not_exists] at hno
      rw [fromString_none clear (by simp) hopen hno] at hread
      cases hread
    obtain ⟨host, port, hparts⟩ := hparts
    rw [fromString_parts clear hparts] at hread
    cases hread
    replace hsame : host = a.hostname_ := hsame
    generalize hs : a.hostname_ ++ ':' :: natText a.port_.toNat = s at hparts
    rw [← hsame] at hs hname ⊢
    cases hparts with
    | plain hbracket hcolon =>
      rw [List.head?_append_of_ne_nil _ hname] at hbracket
      exact ⟨hcolon, hbracket⟩
    | @bracketed _ mid port hbracket hcolon =>
      -- The name would be behind a bracket and in front of a colon at once.
      have happend : (host ++ [':']) ++ natText a.port_.toNat =
          ('[' :: host) ++ ']' :: (mid ++ ':' :: port) := by
        rw [List.append_assoc]
        exact hs
      have hboth := (List.append_inj happend (by simp)).1
      have hcount := congrArg (List.count '[') hboth
      simp at hcount
  · intro h b
    cases hnamed : a.named with
    | true =>
      obtain ⟨hcolon, hbracket⟩ := h hnamed
      have hname : a.hostname_ ≠ [] := by
        simp only [named, Bool.and_eq_true, decide_eq_true_eq] at hnamed
        exact hnamed.2
      have hparts : IsParts (a.toString inet) a.hostname_ (natText a.port_.toNat) := by
        rw [toString_of_named hnamed]
        refine .plain ?_ hcolon
        rwa [List.head?_append_of_ne_nil _ hname]
      exact ⟨_, fromString_written inet b a.port_ hparts, setPort_toNat b a.port_, rfl⟩
    | false =>
      have hip' : a.ip_ ≠ .unspec := hip.resolve_right (by simp [hnamed])
      have hparts := isParts_of_not_named hnamed hip' (hinet hip')
      have hread := fromString_written inet b a.port_ hparts
      refine ⟨_, hread, setPort_toNat b a.port_, ?_⟩
      rw [if_neg Bool.false_ne_true]
      change (inet.pton (cStr (inet.ntop a.ip_))).getD .unspec = a.ip_
      rw [cStr_of_notMem (hinet hip').nul, (hinet hip').pton, Option.getD_some]

/-! ## Any text -/

/-- **A text is refused and the address stays, or host and port are set from it.** -/
def Sound (inet : InetText) (a : SocketAddress) (s : Text) : Prop :=
  a.fromString inet s = some (false, a) ∨
    ∃ host port n, IsParts s host port ∧ Port port n ∧
      a.fromString inet s = some (true, (a.setPort n).setHost inet host)

theorem strtoul10_of_port (h : Port s n) : strtoul10 (cStr s) = BitVec.ofNat 64 n := by
  obtain ⟨hne, hdigits, rfl, hn⟩ := h
  have hnul : '\x00' ∉ s := fun hmem => by
    have hdigit := List.all_eq_true.mp hdigits _ hmem
    cases hdigit
  rw [cStr_of_notMem hnul, strtoul10, numeral_of_digits hne hdigits]
  simp only [Bool.false_eq_true, if_false]
  rw [if_neg (by omega)]

/-- **When a text is dealt with as it should be**: exactly if it is not empty, no bracket stays
open, and what stands in the place of a port is one. -/
theorem sound_iff (inet : InetText) (a : SocketAddress) (s : Text) :
    Sound inet a s ↔ s ≠ [] ∧ (s.head? = some '[' → ']' ∈ s) ∧
      ∀ host port, IsParts s host port → ∃ n, Port port n := by
  constructor
  · intro h
    refine ⟨?_, fun hhead => ?_, fun host port hparts => ?_⟩
    · rintro rfl
      rcases h with h | ⟨_, _, _, -, -, h⟩ <;> cases h
    · by_contra hclose
      rcases h with h | ⟨host, port, n, hparts, -, -⟩
      · obtain ⟨t, rfl⟩ := List.head?_eq_some_iff.mp hhead
        rw [fromString_open a hclose] at h
        cases h
      · exact hclose (hparts.closed hhead)
    · rcases h with h | ⟨host', port', n, hparts', hn, -⟩
      · rw [fromString_parts a hparts] at h
        cases h
      · exact ⟨n, (hparts.unique hparts').2 ▸ hn⟩
  · rintro ⟨hne, hopen, hport⟩
    by_cases hparts : ∃ host port, IsParts s host port
    · obtain ⟨host, port, hparts⟩ := hparts
      obtain ⟨n, hn⟩ := hport host port hparts
      refine .inr ⟨host, port, n, hparts, hn, ?_⟩
      rw [fromString_parts a hparts, setParts_of_port a host (strtoul10_of_port hn) hn.2.2.2]
    · simp only [not_exists] at hparts
      exact .inl (fromString_none a hne hopen hparts)

/-- **Socket addresses and their texts**: an address is read as it was written and a text is dealt
with as it should be, exactly if no host name with a colon or a bracket in front is written, and the
text has a host and a port where it seems to have them. -/
theorem text_iff {a : SocketAddress} (hip : a.ip_ ≠ .unspec ∨ a.named = true)
    (hinet : a.ip_ ≠ .unspec → Inverts inet a.ip_) (b : SocketAddress) (s : Text) :
    RoundTrips inet a ∧ Sound inet b s ↔
      (a.named = true → ':' ∉ a.hostname_ ∧ a.hostname_.head? ≠ some '[') ∧
        s ≠ [] ∧ (s.head? = some '[' → ']' ∈ s) ∧
          ∀ host port, IsParts s host port → ∃ n, Port port n :=
  and_congr (roundTrips_iff a hip hinet) (sound_iff inet b s)

/-- `inet_ntop` and `inet_pton` on one address. -/
def oneAddress : InetText where
  ntop := dottedQuad.ntop
  pton s := if s = "192.0.2.1".toList then some (.ipv4 0xC0000201) else none

theorem text_of_one :
    RoundTrips oneAddress (ofIP (.ipv4 0xC0000201) 3478) ∧
      Sound oneAddress clear "192.0.2.1:3478".toList := by
  have hinet : Inverts oneAddress (.ipv4 0xC0000201) :=
    ⟨by decide, by decide, fun _ _ d hd => by
      have hall :
          ((oneAddress.ntop (.ipv4 0xC0000201)).all fun d => d.isDigit || d = '.') = true := by
        decide +kernel
      simpa using List.all_eq_true.mp hall d hd⟩
  refine (text_iff (.inl (by decide)) (fun _ => hinet) clear _).mpr
    ⟨by decide, by decide, by decide, fun host port hparts => ?_⟩
  have hplain : IsParts "192.0.2.1:3478".toList "192.0.2.1".toList "3478".toList :=
    @IsParts.plain "192.0.2.1".toList "3478".toList (by decide) (by decide)
  obtain ⟨-, rfl⟩ := hparts.unique hplain
  exact ⟨3478, by decide, by decide, by decide, by decide⟩

/-- **Texts that are let pass or not dealt with**: one with an open bracket changes nothing, one
without a port sets it to 0, one with a port out of range to what is left of it, and the empty one
throws. -/
theorem malformed_accepted :
    clear.fromString oneAddress "[192.0.2.1:3478".toList = some (true, clear) ∧
      (clear.fromString oneAddress "192.0.2.1:stun".toList).map (fun r => (r.1, r.2.port_)) =
        some (true, 0) ∧
      (clear.fromString oneAddress "192.0.2.1:70000".toList).map (fun r => (r.1, r.2.port_)) =
        some (true, 4464) ∧
      clear.fromString oneAddress [] = none ∧
      ¬ Sound oneAddress clear "[192.0.2.1:3478".toList := by
  refine ⟨by decide, by decide +kernel, by decide +kernel, by decide, fun h => ?_⟩
  exact absurd ((sound_iff ..).mp h).2.1 (by decide)

end SocketAddress

end Libjingle.Base
