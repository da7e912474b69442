import Libjingle.Base.Base64
import Libjingle.Lib.Redraws

/-!
# Random values (`base/helpers.cc`)

What the random generator delivers is a parameter. The code that draws from it names the place, and
the draws at a place are numbered.
-/

namespace Libjingle

open Lib

/-- What the generator delivers at the places `ι`. -/
structure RandomSource (ι : Type) where
  /-- The bytes of each `Generate` for a string, unless it fails. -/
  bytes : ι → Nat → Option (Nat → U8)
  /-- What each `CreateRandomId` returns, which is any number when the generator fails. -/
  id : ι → Nat → U32
  /-- For how many rounds a loop is followed. -/
  rounds : Nat

/-- The table of `CreateRandomString`. -/
def kBase64 : Text := "ABCDEFGHIJKLMNOPQRSTUVWXYZabcdefghijklmnopqrstuvwxyz0123456789+/".toList

/-- The text that is made of random bytes. -/
def randomText (len : Nat) (bytes : Nat → U8) : Text :=
  (List.range len).map fun i => kBase64.getD ((bytes i).toNat % 64) 'A'

namespace RandomSource

variable {ι : Type} (r : RandomSource ι) (place : ι)

/-- `CreateRandomString` of a length, with the draw `n`. -/
def createRandomString (len n : Nat) : Option (Text × Nat) :=
  (r.bytes place n).map fun bytes => (randomText len bytes, n + 1)

/-- `CreateRandomId` with the draw `n`. -/
def createRandomId (n : Nat) : Option (U32 × Nat) := some (r.id place n, n + 1)

/-- `CreateRandomNonZeroId` from the draw `n` on. -/
def createRandomNonZeroId (n : Nat) : Option (U32 × Nat) :=
  redraw (r.createRandomId place) (fun id => id = 0) r.rounds n

/-- `CreateRandomString` of a length, as the only draw. -/
def string (len : Nat) : Option Text := (r.createRandomString place len 0).map Prod.fst

variable {r place}

theorem randomText_spec (len : Nat) (bytes : Nat → U8) :
    (randomText len bytes).length = len ∧
      ∀ c ∈ randomText len bytes, Base64.isBase64Char c = true := by
  have htable : ∀ i < 64, Base64.isBase64Char (kBase64.getD i 'A') = true := by decide +kernel
  refine ⟨by simp [randomText], fun c hc => ?_⟩
  obtain ⟨i, -, rfl⟩ := List.mem_map.mp hc
  exact htable _ (Nat.mod_lt _ (by decide))

theorem string_spec {len : Nat} {s : Text} (h : r.string place len = some s) :
    s.length = len ∧ ∀ c ∈ s, Base64.isBase64Char c = true := by
  obtain ⟨p, hp, rfl⟩ := Option.map_eq_some_iff.mp h
  obtain ⟨bytes, -, rfl⟩ := Option.map_eq_some_iff.mp hp
  exact randomText_spec len bytes

theorem createRandomNonZeroId_ne_zero {n : Nat} {p : U32 × Nat}
    (h : r.createRandomNonZeroId place n = some p) : p.1 ≠ 0 :=
  of_decide_eq_false (redraw_spec h).1

/-- The loop of `CreateRandomNonZeroId` ends at a draw that is not zero at the latest. -/
theorem createRandomNonZeroId_within {n k : Nat} (hk : r.id place k ≠ 0) (hn : n ≤ k)
    (hrounds : k < r.rounds) :
    ∃ m, r.createRandomNonZeroId place n = some (r.id place m, m + 1) ∧ n ≤ m ∧ m ≤ k :=
  redraw_within (decide_eq_false hk) (fun i hi => ⟨i, rfl, le_refl i, hi⟩) hn (by omega)

end RandomSource

end Libjingle
