import Mathlib.Data.List.Basic

/-!
# Readers: taking values off the front of a list

A reader returns a value and what it leaves of the list, or fails.
-/

namespace Libjingle.Lib

/-- A reader of an `α` from a list of `σ`. -/
abbrev Reader (σ α : Type) := StateT (List σ) Option α

namespace Reader

variable {σ α β : Type} {r : Reader σ α} {f : α → Reader σ β}

/-- `r` takes exactly `l` and returns `a`, whatever follows `l`. -/
def Consumes (r : Reader σ α) (l : List σ) (a : α) : Prop :=
  ∀ rest, r (l ++ rest) = some (a, rest)

/-- A sequence of two succeeds when both do. -/
theorem bind_eq_some {l t : List σ} {b : β} :
    (r >>= f) l = some (b, t) ↔ ∃ a m, r l = some (a, m) ∧ f a m = some (b, t) := by
  show (r l).bind (fun x => f x.1 x.2) = some (b, t) ↔ _
  rw [Option.bind_eq_some_iff]
  constructor
  · rintro ⟨⟨a, m⟩, h, h'⟩
    exact ⟨a, m, h, h'⟩
  · rintro ⟨a, m, h, h'⟩
    exact ⟨(a, m), h, h'⟩

theorem Consumes.pure (a : α) : (pure a : Reader σ α).Consumes [] a := fun _ => rfl

variable {a : α}

theorem Consumes.bind {l m : List σ} {b : β} (hr : r.Consumes l a)
    (hf : (f a).Consumes m b) : (r >>= f).Consumes (l ++ m) b := by
  intro rest
  rw [bind_eq_some, List.append_assoc]
  exact ⟨a, m ++ rest, hr _, hf rest⟩

variable {l : List σ} {g : α → β}

/-- The last reader of a sequence only returns a value. -/
theorem Consumes.return (hr : r.Consumes l a) :
    (r >>= fun x => Pure.pure (g x)).Consumes l (g a) := by
  have h := hr.bind (f := fun x => Pure.pure (g x)) (Consumes.pure (g a))
  rwa [List.append_nil] at h

/-! ## A fixed number of elements -/

/-- The next `n` elements. -/
def take (n : Nat) : Reader σ (List σ) := fun l =>
  if n > l.length then none else some (l.take n, l.drop n)

theorem take_eq_some {n : Nat} {l a t : List σ} :
    (take n : Reader σ _) l = some (a, t) ↔ n ≤ l.length ∧ a = l.take n ∧ t = l.drop n := by
  unfold take
  split
  · rename_i h
    constructor
    · intro h'
      cases h'
    · rintro ⟨h', -⟩
      omega
  · rename_i h
    constructor
    · intro h'
      obtain ⟨rfl, rfl⟩ := Prod.mk.inj (Option.some.inj h')
      exact ⟨by omega, rfl, rfl⟩
    · rintro ⟨-, rfl, rfl⟩
      rfl

theorem take_consumes {n : Nat} (h : l.length = n) : (take n : Reader σ _).Consumes l l := by
  intro rest
  rw [take_eq_some]
  subst h
  exact ⟨by simp, by simp, by simp⟩

/-! ## Locality -/

/-- If `r` reads `l`, it takes a front part of `l` and would read the same in front of anything
else. -/
def Local (r : Reader σ α) (l : List σ) : Prop :=
  ∀ a t, r l = some (a, t) → ∃ p, l = p ++ t ∧ r.Consumes p a

theorem Local.pure (a : α) (l : List σ) : (pure a : Reader σ α).Local l := by
  intro b t h
  obtain ⟨rfl, rfl⟩ := Prod.mk.inj (Option.some.inj h)
  exact ⟨[], rfl, Consumes.pure _⟩

theorem Local.bind (hr : r.Local l)
    (hf : ∀ a t, r l = some (a, t) → (f a).Local t) : (r >>= f).Local l := by
  intro b t h
  obtain ⟨a, m, h₁, h₂⟩ := bind_eq_some.mp h
  obtain ⟨p, rfl, hp⟩ := hr a m h₁
  obtain ⟨q, rfl, hq⟩ := hf a m h₁ b t h₂
  exact ⟨p ++ q, (List.append_assoc p q t).symm, hp.bind hq⟩

theorem Local.return (hr : r.Local l) : (r >>= fun x => Pure.pure (g x)).Local l :=
  hr.bind fun _ _ _ => Local.pure _ _

theorem Local.failure (l : List σ) : (failure : Reader σ α).Local l := by
  intro a t h
  cases h

theorem Local.take (n : Nat) (l : List σ) : (take n : Reader σ _).Local l := by
  intro a t h
  obtain ⟨hn, rfl, rfl⟩ := take_eq_some.mp h
  refine ⟨l.take n, (List.take_append_drop n l).symm, take_consumes ?_⟩
  rw [List.length_take, Nat.min_eq_left hn]

/-- What a reader makes of the part of its input that has arrived: it needs all it takes, and no
more. -/
theorem Consumes.of_append {p arrived pending rest : List σ} (hr : r.Consumes p a)
    (hlocal : r.Local arrived) (h : arrived ++ pending = p ++ rest) :
    r arrived = if p.length ≤ arrived.length then some (a, arrived.drop p.length) else none := by
  split
  · rename_i hle
    have hprefix : p <+: arrived :=
      List.prefix_of_prefix_length_le ⟨rest, h.symm⟩ ⟨pending, rfl⟩ hle
    obtain ⟨t, rfl⟩ := hprefix
    rw [hr t, List.drop_left]
  · rename_i hlt
    cases hread : r arrived with
    | none => rfl
    | some x =>
      obtain ⟨q, harrived, hq⟩ := hlocal x.1 x.2 hread
      have hwhole := hq (x.2 ++ pending)
      rw [← List.append_assoc, ← harrived, h, hr rest] at hwhole
      obtain ⟨-, rfl⟩ := Prod.mk.inj (Option.some.inj hwhole)
      have hlen := congrArg List.length h
      simp only [List.length_append] at hlen
      omega

/-! ## Repetition -/

/-- `n` values, one after another. -/
def times (r : Reader σ α) : Nat → Reader σ (List α)
  | 0 => pure []
  | n + 1 => do
    let a ← r
    let l ← times r n
    return a :: l

theorem Consumes.times {e : α → List σ} (h : ∀ a, r.Consumes (e a) a) :
    ∀ l : List α, (r.times l.length).Consumes (l.flatMap e) l
  | [] => Consumes.pure []
  | a :: l => by
    rw [List.flatMap_cons]
    exact (h a).bind (Consumes.times h l).return

theorem Local.times (h : ∀ l, r.Local l) : ∀ (n : Nat) (l : List σ), (r.times n).Local l
  | 0, l => Local.pure [] l
  | n + 1, l => (h l).bind fun _ t _ => (Local.times h n t).return

/-- `n` values of `k` elements each. -/
theorem times_eq_some {k : Nat} (h : ∀ l a t, r l = some (a, t) → k ≤ l.length ∧ t = l.drop k) :
    ∀ {n : Nat} {l t : List σ} {as : List α}, r.times n l = some (as, t) →
      k * n ≤ l.length ∧ t = l.drop (k * n) ∧ as.length = n
  | 0, l, t, as, hr => by
    obtain ⟨rfl, rfl⟩ := Prod.mk.inj (Option.some.inj hr)
    exact ⟨by simp, by simp, rfl⟩
  | n + 1, l, t, as, hr => by
    obtain ⟨a, m, h₁, h₂⟩ := bind_eq_some.mp hr
    obtain ⟨as', t', h₃, h₄⟩ := bind_eq_some.mp h₂
    obtain ⟨rfl, rfl⟩ := Prod.mk.inj (Option.some.inj h₄)
    obtain ⟨hk, rfl⟩ := h _ _ _ h₁
    obtain ⟨hn, rfl, hlen⟩ := times_eq_some h h₃
    rw [List.length_drop] at hn
    rw [List.drop_drop, Nat.mul_succ]
    exact ⟨by omega, by rw [Nat.add_comm], by rw [List.length_cons, hlen]⟩

end Reader

end Libjingle.Lib
