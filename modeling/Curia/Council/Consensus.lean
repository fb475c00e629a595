import Curia.Council.Error
import Curia.Time.Json

/-!
The result of counting the votes of a session. A draft becomes a consensus only if its parts agree
with each other.
-/

namespace Curia

namespace Consensus

/-- How many archons deliberate in a session. -/
def archonsPerSession : Nat := 3

/-- How many votes an outcome needs. -/
def threshold : Nat := 2

/-- The rule by which the votes were counted. -/
def algorithm : String := "supermajority-2of3/1.0.0"

structure Draft where
  session : SessionId
  petition : PetitionId
  status : Status
  winner : Option Outcome
  distribution : SortedMap Outcome Nat
  majority : SortedSet Archon
  dissenter : Option Archon
  resolvedAt : Instant
  deriving DecidableEq

namespace Draft

def majoritySize : Status → Nat
  | .unanimous => archonsPerSession
  | _ => threshold

/-- The first flaw of a resolved draft in which the given outcome has won. -/
def winnerFlaw? (d : Draft) (winner : Outcome) : Option Flaw :=
  if d.majority.size ≠ majoritySize d.status then some .majoritySize
  else if d.distribution.get? winner ≠ some d.majority.size then some .majorityCount
  else match d.status, d.dissenter with
    | .unanimous, some _ => some .unanimousDissent
    | .unanimous, none => none
    | _, none => some .splitWithoutDissent
    | _, some a => if d.majority.contains a then some .dissenterInMajority else none

/-- The first thing that is wrong with a draft, if anything is. -/
def flaw? (d : Draft) : Option Flaw :=
  match d.status with
  | .unanimous | .achieved => match d.winner with
    | none => some .noWinner
    | some winner => d.winnerFlaw? winner
  | .notReached | .invalid =>
    if d.winner.isSome ∨ d.dissenter.isSome then some .unresolvedWinner else none

end Draft

end Consensus

structure Consensus extends Consensus.Draft where
  flawless : toDraft.flaw? = none
  deriving DecidableEq

namespace Consensus

def ofDraft (d : Draft) : Except CouncilError Consensus :=
  match h : d.flaw? with
  | none => .ok ⟨d, h⟩
  | some flaw => .error (.invalidConsensus d.session flaw)

def hasDissent (c : Consensus) : Bool := c.dissenter.isSome

def toJson (c : Consensus) : Json :=
  .record
    [("session_id", c.session.toJson),
     ("petition_id", c.petition.toJson),
     ("status", Named.toJson c.status),
     ("winning_outcome", .ofOption Named.toJson c.winner),
     ("vote_distribution", .object (c.distribution.toList.map fun e => (e.1.name, .nat e.2))),
     ("majority_archons", .array (c.majority.toList.map Archon.toJson)),
     ("dissent_archon_id", .ofOption Archon.toJson c.dissenter),
     ("algorithm_version", .string algorithm),
     ("resolved_at", c.resolvedAt.toJson)]

end Consensus

end Curia
