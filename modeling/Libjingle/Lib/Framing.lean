import Mathlib.Data.List.Basic

/-!
# Messages framed on a byte stream

A framing writes each message as a non-empty piece of a stream and takes one message off the front
of a stream once it has arrived whole. What a receiver reads does not depend on how the stream is
cut.
-/

namespace Libjingle.Lib

variable {β P : Type*}

/-- How messages are written on a stream and taken off it again. -/
structure Framing (β P : Type*) where
  encode : P → List β
  next : List β → Option (P × List β)
  /-- The messages that are written as they are read. -/
  Valid : P → Prop
  encode_ne_nil : ∀ p, encode p ≠ []
  next_encode : ∀ {p}, Valid p → ∀ t, next (encode p ++ t) = some (p, t)
  encode_next : ∀ {s p r}, next s = some (p, r) → Valid p ∧ s = encode p ++ r

namespace Framing

variable (f : Framing β P)

/-- The messages one after the other. -/
def frames (ps : List P) : List β := ps.flatMap f.encode

@[simp] theorem frames_nil : f.frames [] = [] := rfl

@[simp] theorem frames_cons (p : P) (ps : List P) :
    f.frames (p :: ps) = f.encode p ++ f.frames ps :=
  rfl

@[simp] theorem frames_append (ps qs : List P) :
    f.frames (ps ++ qs) = f.frames ps ++ f.frames qs :=
  List.flatMap_append

variable {f}

variable {s r : List β} {p : P}

theorem next_shrinks (h : f.next s = some (p, r)) : r.length < s.length := by
  have hpos := List.length_pos_of_ne_nil (f.encode_ne_nil p)
  rw [(f.encode_next h).2, List.length_append]
  omega

theorem next_append (h : f.next s = some (p, r)) (t : List β) :
    f.next (s ++ t) = some (p, r ++ t) := by
  obtain ⟨hp, rfl⟩ := f.encode_next h
  rw [List.append_assoc, f.next_encode hp]

variable (f)

/-- The messages that have arrived whole, in order, and what is left of the stream. -/
def drain (s : List β) : List P × List β :=
  match _h : f.next s with
  | none => ([], s)
  | some (p, r) => (p :: (drain r).1, (drain r).2)
termination_by s.length
decreasing_by all_goals exact next_shrinks _h

variable {f}

theorem drain_none (h : f.next s = none) : f.drain s = ([], s) := by
  rw [drain]
  split
  · rfl
  · rename_i heq
    rw [h] at heq
    cases heq

theorem drain_some (h : f.next s = some (p, r)) :
    f.drain s = (p :: (f.drain r).1, (f.drain r).2) := by
  rw [drain]
  split
  · rename_i heq
    rw [h] at heq
    cases heq
  · rename_i heq
    rw [h] at heq
    cases heq
    rfl

variable (f)

/-- What is left holds no whole message. -/
theorem next_drain (s : List β) : f.next (f.drain s).2 = none := by
  induction s using drain.induct f with
  | case1 s h =>
    rw [drain_none h]
    exact h
  | case2 s p r h ih =>
    rw [drain_some h]
    exact ih

theorem frames_drain (s : List β) : f.frames (f.drain s).1 ++ (f.drain s).2 = s := by
  induction s using drain.induct f with
  | case1 s h => rw [drain_none h, frames_nil, List.nil_append]
  | case2 s p r h ih =>
    rw [drain_some h, frames_cons, List.append_assoc, ih]
    exact (f.encode_next h).2.symm

/-- **The cut of the stream does not matter**: what the rest leaves is read with what follows. -/
theorem drain_append (s t : List β) :
    f.drain (s ++ t) =
      ((f.drain s).1 ++ (f.drain ((f.drain s).2 ++ t)).1, (f.drain ((f.drain s).2 ++ t)).2) := by
  induction s using drain.induct f with
  | case1 s h => rw [drain_none h, List.nil_append]
  | case2 s p r h ih => rw [drain_some (next_append h t), ih, drain_some h, List.cons_append]

variable {f}

variable {ps : List P}

/-- **What was written is what is read.** -/
theorem drain_frames (h : ∀ p ∈ ps, f.Valid p) (t : List β) :
    f.drain (f.frames ps ++ t) = (ps ++ (f.drain t).1, (f.drain t).2) := by
  induction ps with
  | nil => rfl
  | cons p ps ih =>
    rw [frames_cons, List.append_assoc, drain_some (f.next_encode (h p List.mem_cons_self) _),
      ih fun q hq => h q (List.mem_cons_of_mem p hq), List.cons_append]

/-- A piece of the stream that holds no whole message is shorter than the first one. -/
theorem length_lt_encode {s t : List β} (hp : f.Valid p)
    (h : f.frames (p :: ps) = s ++ t) (hs : f.next s = none) : s.length < (f.encode p).length := by
  by_contra hle
  have hpre : f.encode p <+: s ++ t := h ▸ List.prefix_append _ _
  obtain ⟨r, rfl⟩ :=
    List.prefix_of_prefix_length_le hpre (List.prefix_append s t) (Nat.not_lt.mp hle)
  rw [f.next_encode hp] at hs
  cases hs

/-- A message that is not written as it is read is never read in its place. -/
theorem drain_frames_iff (h : ∀ p t, f.next (f.encode p ++ t) ≠ none) (hnil : f.next [] = none)
    (ps : List P) :
    (f.drain (f.frames ps)).1 = ps ↔ ∀ p ∈ ps, f.Valid p := by
  induction ps with
  | nil => simp [drain_none hnil]
  | cons p ps ih =>
    obtain ⟨⟨q, r⟩, hq⟩ := Option.ne_none_iff_exists'.mp (h p (f.frames ps))
    rw [frames_cons, drain_some hq, List.forall_mem_cons]
    constructor
    · intro heq
      obtain ⟨rfl, hps⟩ := List.cons.inj heq
      obtain ⟨hv, happ⟩ := f.encode_next hq
      rw [← List.append_cancel_left happ, ih] at hps
      exact ⟨hv, hps⟩
    · rintro ⟨hv, hps⟩
      rw [f.next_encode hv] at hq
      cases hq
      rw [ih.mpr hps]

end Framing

end Libjingle.Lib
