import Libjingle.Lib.Superseding
import Libjingle.Webrtc.RemoteCandidates

/-!
# Candidates remembered for ports to come (`P2PTransportChannel::RememberRemoteCandidate`)

A transport channel keeps the candidates of the other side for the ports that it will get. They come
by signalling and with pings, in any order. A candidate drops those of older generations, and is
itself kept whatever its generation, unless an equivalent one is there.

* **`remembered_iff`**: the candidates that are remembered.
* **`remembers_newest_iff`**: they are those of the newest generation, one of each kind, just if the
  last arrival is of it.
-/

namespace Libjingle.P2PTransportChannel

open Lib Sdp Webrtc

/-- A candidate and the port where it was found, or none if it was signalled. -/
structure RemoteCandidate where
  candidate : Candidate
  originPort : Option Nat

def rememberRemoteCandidate (remoteCandidates : List RemoteCandidate) (c : RemoteCandidate) :
    List RemoteCandidate :=
  let kept := remoteCandidates.filter fun x => ¬ x.candidate.generation < c.candidate.generation
  if kept.any fun x => x.candidate.isEquivalent c.candidate then kept else kept ++ [c]

theorem equivalent_refl (a : Candidate) : Equivalent a a :=
  ⟨rfl, rfl, rfl, hostAddress_equal_refl _, rfl, rfl, rfl, rfl, rfl, hostAddress_equal_refl _⟩

theorem equivalent_symm {a b : Candidate} (h : Equivalent a b) : Equivalent b a :=
  ⟨h.id.symm, h.component.symm, h.protocol.symm, hostAddress_equal_symm h.address, h.username.symm,
    h.password.symm, h.type.symm, h.generation.symm, h.foundation.symm,
    hostAddress_equal_symm h.relatedAddress⟩

theorem equivalent_trans {a b c : Candidate} (h : Equivalent a b) (h' : Equivalent b c) :
    Equivalent a c :=
  ⟨h.id.trans h'.id, h.component.trans h'.component, h.protocol.trans h'.protocol,
    hostAddress_equal_trans h.address h'.address, h.username.trans h'.username,
    h.password.trans h'.password, h.type.trans h'.type, h.generation.trans h'.generation,
    h.foundation.trans h'.foundation, hostAddress_equal_trans h.relatedAddress h'.relatedAddress⟩

/-- Equivalent candidates are the same, and a newer generation ranks higher. -/
def generations : Superseding RemoteCandidate Nat where
  same a b := a.candidate.isEquivalent b.candidate
  rank a := a.candidate.generation.toNat
  refl _ := (isEquivalent_iff _ _).mpr (equivalent_refl _)
  symm h := (isEquivalent_iff _ _).mpr (equivalent_symm ((isEquivalent_iff _ _).mp h))
  trans h h' := (isEquivalent_iff _ _).mpr
    (equivalent_trans ((isEquivalent_iff _ _).mp h) ((isEquivalent_iff _ _).mp h'))
  rank_eq h := congrArg BitVec.toNat ((isEquivalent_iff _ _).mp h).generation

/-- `remote_candidates_` after some arrivals. -/
def remembered (arrived : List RemoteCandidate) : List RemoteCandidate :=
  arrived.foldl rememberRemoteCandidate []

/-- **What is remembered.** Whatever arrives in whatever order, a candidate is remembered just if an
equivalent one has arrived and none of a newer generation after it. -/
theorem remembered_iff (arrived : List RemoteCandidate) (c : RemoteCandidate) :
    (∃ x ∈ remembered arrived, x.candidate.isEquivalent c.candidate = true) ↔
      generations.Stands arrived c :=
  generations.exists_mem_iff

/-- **Only the newest generation** is remembered, each candidate of it once, just if the last
arrival is of that generation: a late candidate of an older one is remembered as well. -/
theorem remembers_newest_iff (arrived : List RemoteCandidate) :
    generations.RepresentsNewest arrived (remembered arrived) ↔
      ∀ last ∈ arrived.getLast?, ∀ c ∈ arrived,
        c.candidate.generation.toNat ≤ last.candidate.generation.toNat :=
  generations.represents_newest_iff

end Libjingle.P2PTransportChannel
