import Mathlib.Data.List.Basic

/-!
# Transcoding in turns

A transcoder takes its input in turns. Each turn looks at what is left of the input and at the room
that is left for output, takes something off the front and writes something, or ends the work.

## Results

* **`transcode_decodes`**: what an encoder wrote, cut short where the room ended, is decoded to a
  front part of its input, and to all of it if there was room for everything.
-/

namespace Libjingle.Lib

variable {α β : Type}

/-- A turn, from what is left of the input and of the room: what is written, and how much is
taken. -/
abbrev Turn (α β : Type) := List α → Nat → Option (List β × Nat)

/-- All turns, at most `n` of them. -/
def turns [DecidableEq α] (turn : Turn α β) : Nat → Nat → List α → List β
  | 0, _, _ => []
  | n + 1, room, rest =>
    if rest = [] ∨ room = 0 then []
    else
      match turn rest room with
      | none => []
      | some (out, taken) => out ++ turns turn n (room - out.length) (rest.drop taken)

/-- The output of all turns; each takes something. -/
def transcode [DecidableEq α] (turn : Turn α β) (room : Nat) (s : List α) : List β :=
  turns turn s.length room s

/-- Turns that take something of what is there. -/
def Turn.Takes (turn : Turn α β) : Prop :=
  ∀ rest room out taken, rest ≠ [] → turn rest room = some (out, taken) →
    0 < taken ∧ taken ≤ rest.length

/-- Turns that keep to the room. -/
def Turn.Fits (turn : Turn α β) : Prop :=
  ∀ rest room out taken, rest ≠ [] → room ≠ 0 → turn rest room = some (out, taken) →
    out.length ≤ room

section

variable [DecidableEq α] {turn : Turn α β}

/-- There are no more turns than elements. -/
theorem turns_eq (htakes : turn.Takes) {n : Nat} (room : Nat) {rest : List α}
    (hn : rest.length ≤ n) : turns turn n room rest = transcode turn room rest := by
  induction n using Nat.strongRecOn generalizing room rest with
  | ind n ih =>
    unfold transcode
    cases rest with
    | nil => cases n <;> simp [turns]
    | cons a rest =>
      obtain ⟨m, rfl⟩ : ∃ m, n = m + 1 := ⟨n - 1, by rw [List.length_cons] at hn; omega⟩
      rw [List.length_cons] at hn ⊢
      rw [turns, turns]
      split
      · rfl
      cases hturn : turn (a :: rest) room with
      | none => rfl
      | some r =>
        obtain ⟨hpos, hle⟩ := htakes _ room r.1 r.2 (List.cons_ne_nil _ _) hturn
        have hdrop : ((a :: rest).drop r.2).length ≤ rest.length := by
          rw [List.length_drop, List.length_cons]
          omega
        simp only
        rw [ih m (by omega) _ (by omega)]
        rcases Nat.lt_or_ge rest.length (m + 1) with hlt | hge
        · rw [ih rest.length hlt _ hdrop]
        · omega

theorem transcode_nil (room : Nat) : transcode turn room [] = [] := rfl

variable {room : Nat} {s : List α}

theorem transcode_of_none (h : turn s room = none) : transcode turn room s = [] := by
  cases s with
  | nil => rfl
  | cons a s =>
    rw [transcode, List.length_cons, turns, h]
    split <;> rfl

theorem transcode_of_some (htakes : turn.Takes) (hs : s ≠ [])
    (hroom : room ≠ 0) {out : List β} {taken : Nat} (h : turn s room = some (out, taken)) :
    transcode turn room s = out ++ transcode turn (room - out.length) (s.drop taken) := by
  obtain ⟨hpos, -⟩ := htakes s room out taken hs h
  obtain ⟨a, t, rfl⟩ := List.exists_cons_of_ne_nil hs
  rw [transcode, List.length_cons, turns, if_neg (not_or.mpr ⟨hs, hroom⟩), h]
  simp only
  rw [turns_eq htakes]
  rw [List.length_drop, List.length_cons]
  omega

end

/-! ## Units -/

/-- A turn of an encoder: the unit for the front of the input, if there is room for all of it. -/
def unitTurn (code : List α → List β × Nat) : Turn α β := fun rest room =>
  if (code rest).1.length ≤ room then some (code rest) else none

theorem unitTurn_fits (code : List α → List β × Nat) : (unitTurn code).Fits := by
  intro rest room out taken _ _ h
  unfold unitTurn at h
  split at h
  · rename_i hle
    rw [Option.some.inj h] at hle
    exact hle
  · cases h

theorem unitTurn_takes {code : List α → List β × Nat}
    (h : ∀ rest, rest ≠ [] → 0 < (code rest).2 ∧ (code rest).2 ≤ rest.length) :
    (unitTurn code).Takes := by
  intro rest room out taken hne hturn
  unfold unitTurn at hturn
  split at hturn
  · have htaken := h rest hne
    rw [Option.some.inj hturn] at htaken
    exact htaken
  · cases hturn

/-- **A turn of a decoder reads units back**, from inputs of a kind that stays when a unit is taken.
A unit is no shorter than what it stands for, and no longer than `worst` times as long. -/
structure Decodes (P : List α → Prop) (code : List α → List β × Nat) (worst : Nat)
    (turn : Turn β α) : Prop where
  takes : ∀ rest, P rest → rest ≠ [] → 0 < (code rest).2 ∧ (code rest).2 ≤ rest.length
  longer : ∀ rest, P rest → rest ≠ [] → (code rest).2 ≤ (code rest).1.length
  worst : ∀ rest, P rest → rest ≠ [] → (code rest).1.length ≤ worst * (code rest).2
  stays : ∀ rest, P rest → rest ≠ [] → P (rest.drop (code rest).2)
  reads : ∀ rest, P rest → rest ≠ [] → ∀ tail room, (code rest).1.length + tail.length ≤ room →
    turn ((code rest).1 ++ tail) room = some (rest.take (code rest).2, (code rest).1.length)

/-- **What an encoder wrote is decoded to a front part of its input**, however short it was cut, and
to all of it if there was room for everything. -/
theorem transcode_decodes [DecidableEq α] [DecidableEq β] {P : List α → Prop}
    {code : List α → List β × Nat} {worst : Nat} {decoder : Turn β α}
    (h : Decodes P code worst decoder) (hcode : (unitTurn code).Takes) (hdecoder : decoder.Takes)
    (room : Nat) {s : List α} (hs : P s) :
    ∃ k ≤ s.length, (worst * s.length ≤ room → k = s.length) ∧
      ∀ room', (transcode (unitTurn code) room s).length ≤ room' →
        transcode decoder room' (transcode (unitTurn code) room s) = s.take k := by
  generalize hn : s.length = n
  induction n using Nat.strongRecOn generalizing room s with
  | ind n ih =>
    subst hn
    by_cases hnil : s = []
    · subst hnil
      exact ⟨0, Nat.le_refl 0, fun _ => rfl, fun _ _ => rfl⟩
    obtain ⟨hpos, hle⟩ := h.takes s hs hnil
    have hlonger := h.longer s hs hnil
    have hworst := h.worst s hs hnil
    have hmul : worst * s.length =
        worst * (code s).2 + worst * (s.drop (code s).2).length := by
      rw [← Nat.mul_add, List.length_drop, Nat.add_sub_cancel' hle]
    by_cases hfits : (code s).1.length ≤ room
    · have hturn : unitTurn code s room = some ((code s).1, (code s).2) := if_pos hfits
      have hdrop : (s.drop (code s).2).length < s.length := by
        rw [List.length_drop]
        omega
      obtain ⟨k, hk, hall, hread⟩ := ih _ hdrop (room - (code s).1.length) (h.stays s hs hnil) rfl
      rw [List.length_drop] at hk hall
      rw [List.length_drop] at hmul
      refine ⟨(code s).2 + k, by omega, fun hroom => ?_, fun room' hroom' => ?_⟩
      · rw [hall (by omega)]
        omega
      rw [transcode_of_some hcode hnil (by omega) hturn] at hroom' ⊢
      generalize transcode (unitTurn code) (room - (code s).1.length) (s.drop (code s).2) = tail
        at hread hroom' ⊢
      rw [List.length_append] at hroom'
      have hunit : (code s).1 ++ tail ≠ [] := by
        intro heq
        rw [(List.append_eq_nil_iff.mp heq).1, List.length_nil] at hlonger
        omega
      rw [transcode_of_some hdecoder hunit (by omega) (h.reads s hs hnil tail room' hroom'),
        List.drop_left, hread _ (by rw [List.length_take]; omega), List.take_add]
    · have hturn : unitTurn code s room = none := if_neg hfits
      refine ⟨0, Nat.zero_le _, fun hroom => ?_, fun room' _ => ?_⟩
      · omega
      · rw [transcode_of_none hturn, transcode_nil, List.take_zero]

end Libjingle.Lib
