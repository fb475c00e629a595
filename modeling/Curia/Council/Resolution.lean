import Curia.Council.Session

/-!
Counting the votes of a session: an outcome wins with two of the three votes, provided that exactly
the assigned archons have voted and all for permitted outcomes.
-/

namespace Curia

/-- The votes given for a session. -/
abbrev Ballot := SortedMap Archon Outcome

/-- How many votes each outcome has, for those that have any. -/
def Ballot.distribution (votes : Ballot) : SortedMap Outcome Nat :=
  votes.values.foldl (fun counts o => counts.insert o ((counts.get? o).getD 0 + 1)) ∅

/-- The first outcome with enough votes. -/
def Ballot.winner? (votes : Ballot) : Option Outcome :=
  (votes.distribution.toList.find? fun e => Consensus.threshold ≤ e.2).map (·.1)

/-- Those who voted for an outcome. -/
def Ballot.votersFor (votes : Ballot) (o : Outcome) : SortedSet Archon :=
  (SortedSet.ofKeys votes).filter fun a => votes.get? a = some o

/-- Those who voted for any other outcome. -/
def Ballot.votersAgainst (votes : Ballot) (o : Outcome) : SortedSet Archon :=
  (SortedSet.ofKeys votes).filter fun a => votes.get? a ≠ some o

/-- Whether the votes could win, whoever cast them. -/
def Ballot.canWin (votes : Ballot) : Bool :=
  votes.size = Consensus.archonsPerSession &&
    votes.distribution.values.any fun n => Consensus.threshold ≤ n

/-- The outcomes that votes may be cast for. -/
structure Resolver where
  permitted : SortedSet Outcome
  deriving DecidableEq

namespace Resolver

def default : Resolver := ⟨SortedSet.ofList Outcome.all⟩

def check (r : Resolver) (s : Session) (votes : Ballot) : VoteCheck where
  unauthorized := (SortedSet.ofKeys votes).filter fun a => !s.isAssigned a
  missing := (SortedSet.ofList s.archons).filter fun a => !votes.contains a
  invalid := (SortedSet.ofKeys votes).filter fun a =>
    (votes.get? a).any fun o => !r.permitted.contains o

def draft (s : Session) (votes : Ballot) (winner : Outcome) (now : Instant) : Consensus.Draft :=
  let majority := votes.votersFor winner
  let unanimous := majority.size = Consensus.archonsPerSession
  { session := s.id
    petition := s.petition
    status := if unanimous then .unanimous else .achieved
    winner := some winner
    distribution := votes.distribution
    majority
    dissenter := if unanimous then none else (votes.votersAgainst winner).toList.head?
    resolvedAt := now }

def resolve (r : Resolver) (s : Session) (votes : Ballot) (now : Instant) :
    Except CouncilError Consensus :=
  let check := r.check s votes
  if !check.isValid then .error (.voteValidation s.id check)
  else match votes.winner? with
    | none => .error (.noConsensus s.id s.petition votes.size Consensus.threshold)
    | some winner => Consensus.ofDraft (draft s votes winner now)

end Resolver

namespace VoteCheck

def toJson (c : VoteCheck) : Json :=
  let archons (s : SortedSet Archon) : Json := .array (s.toList.map Archon.toJson)
  .record
    [("is_valid", .bool c.isValid),
     ("status", .string c.status.name),
     ("unauthorized_archons", archons c.unauthorized),
     ("missing_archons", archons c.missing),
     ("invalid_outcome_archons", archons c.invalid)]

end VoteCheck

end Curia
