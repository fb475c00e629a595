import Curia.Council.Outcome
import Curia.Ids
import Curia.Ledger.Error

/-!
What a session, its votes and its dissents can be refused for, with the wording of each refusal.
-/

namespace Curia

/-- How far a consensus has come. -/
inductive Consensus.Status where
  | unanimous
  | achieved
  | notReached
  | invalid
  deriving DecidableEq

namespace Consensus.Status

def all : List Status := [unanimous, achieved, notReached, invalid]

def name : Status → String
  | unanimous => "UNANIMOUS"
  | achieved => "ACHIEVED"
  | notReached => "NOT_REACHED"
  | invalid => "INVALID"

def label : Status → String
  | unanimous => "Unanimous"
  | achieved => "Achieved"
  | notReached => "NotReached"
  | invalid => "Invalid"

instance : Named Status := ⟨all, name, label⟩

def isResolved : Status → Bool
  | unanimous | achieved => true
  | notReached | invalid => false

end Consensus.Status

/-- What is wrong with a draft of a consensus. -/
inductive Consensus.Flaw where
  | noWinner
  | majoritySize
  | majorityCount
  | unanimousDissent
  | splitWithoutDissent
  | dissenterInMajority
  | unresolvedWinner
  deriving DecidableEq

def Consensus.Flaw.message : Consensus.Flaw → String
  | noWinner => "resolved status without winning outcome"
  | majoritySize => "majority size does not match status"
  | majorityCount => "majority size disagrees with distribution"
  | unanimousDissent => "unanimous result with dissenter"
  | splitWithoutDissent => "2-1 split without dissenter"
  | dissenterInMajority => "dissenter is in the majority"
  | unresolvedWinner => "unresolved status with winner or dissenter"

inductive VoteCheck.Status where
  | valid
  | missingVotes
  | unauthorizedVoter
  | invalidOutcome
  deriving DecidableEq

namespace VoteCheck.Status

def name : Status → String
  | valid => "VALID"
  | missingVotes => "MISSING_VOTES"
  | unauthorizedVoter => "UNAUTHORIZED_VOTER"
  | invalidOutcome => "INVALID_OUTCOME"

def label : Status → String
  | valid => "Valid"
  | missingVotes => "MissingVotes"
  | unauthorizedVoter => "UnauthorizedVoter"
  | invalidOutcome => "InvalidOutcome"

end VoteCheck.Status

/-- The votes that were given against what was asked for: who may not vote, who has not voted, and
whose vote is for an outcome that is not permitted. -/
structure VoteCheck where
  unauthorized : SortedSet Archon
  missing : SortedSet Archon
  invalid : SortedSet Archon
  deriving DecidableEq

namespace VoteCheck

/-- The first kind of fault that there is. -/
def status (c : VoteCheck) : Status :=
  if !c.unauthorized.isEmpty then .unauthorizedVoter
  else if !c.missing.isEmpty then .missingVotes
  else if !c.invalid.isEmpty then .invalidOutcome
  else .valid

def isValid (c : VoteCheck) : Bool := c.status = .valid

end VoteCheck

inductive RationaleFlaw where
  | hashLength (given : Nat)
  | hashMismatch
  deriving DecidableEq

def RationaleFlaw.message : RationaleFlaw → String
  | hashLength n => Digest.wrongLengthMessage n
  | hashMismatch => "hash does not match rationale"

inductive CouncilError where
  | unknownOutcome (text : String)
  | archonCount (session : SessionId) (count : Nat)
  | duplicateArchon (session : SessionId) (archon : Archon)
  | unauthorizedArchon (session : SessionId) (archon : Archon)
  | duplicateVote (session : SessionId) (archon : Archon)
  | sessionComplete (session : SessionId)
  | unwitnessedPhase (session : SessionId) (phase : Phase)
  | voteValidation (session : SessionId) (check : VoteCheck)
  | noConsensus (session : SessionId) (petition : PetitionId) (received required : Nat)
  | invalidConsensus (session : SessionId) (flaw : Consensus.Flaw)
  | sessionMismatch (expected actual : SessionId)
  | unresolved (session : SessionId) (status : Consensus.Status)
  | ambiguousDissent (session : SessionId) (archon : Archon) (candidates : List Outcome)
  | dissentWithMajority (session : SessionId) (archon : Archon) (outcome : Outcome)
  | dissentRecorded (session : SessionId)
  | invalidRationale (session : SessionId) (flaw : RationaleFlaw)
  | storeUnavailable
  | ledger (error : LedgerError)
  deriving DecidableEq

namespace CouncilError

/-- The name under which a caller tells errors apart; for an error of the ledger, the way to it. -/
def kind : CouncilError → String
  | unknownOutcome .. => "UnknownOutcome"
  | archonCount .. => "InvalidArchonCount"
  | duplicateArchon .. => "DuplicateArchon"
  | unauthorizedArchon .. => "UnauthorizedArchon"
  | duplicateVote .. => "DuplicateVote"
  | sessionComplete .. => "SessionComplete"
  | unwitnessedPhase .. => "InvalidPhase"
  | voteValidation .. => "VoteValidation"
  | noConsensus .. => "ConsensusNotReached"
  | invalidConsensus .. => "InvalidConsensusResult"
  | sessionMismatch .. => "SessionMismatch"
  | unresolved .. => "ConsensusNotResolved"
  | ambiguousDissent .. => "AmbiguousDissent"
  | dissentWithMajority .. => "DissentMatchesMajority"
  | dissentRecorded .. => "DissentAlreadyRecorded"
  | invalidRationale .. => "InvalidRationaleHash"
  | storeUnavailable => "Storage"
  | ledger e => s!"Ledger.{e.kind}"

def archonList (s : SortedSet Archon) : String :=
  ", ".intercalate (s.toList.map Archon.name)

def outcomeList (os : List Outcome) : String :=
  "[" ++ ", ".intercalate (os.map Outcome.label) ++ "]"

def message : CouncilError → String
  | unknownOutcome s => s!"Unknown disposition outcome '{s}'"
  | archonCount s n => s!"Session {s.toString} requires exactly 3 archons, got {n}"
  | duplicateArchon s a => s!"Archon '{a.name}' assigned twice to session {s.toString}"
  | unauthorizedArchon s a => s!"Archon '{a.name}' is not assigned to session {s.toString}"
  | duplicateVote s a => s!"Archon '{a.name}' already voted in session {s.toString}"
  | sessionComplete s => s!"Session {s.toString} is already complete"
  | unwitnessedPhase s p => s!"Phase {p.label} cannot be witnessed in session {s.toString}"
  | voteValidation s c =>
    s!"Vote validation failed for session {s.toString} ({c.status.label}): "
      ++ s!"unauthorized=[{archonList c.unauthorized}], missing=[{archonList c.missing}], "
      ++ s!"invalid_outcome=[{archonList c.invalid}]"
  | noConsensus s p received required =>
    s!"Consensus not reached for session {s.toString} (petition {p.toString}): {received} votes, "
      ++ s!"no outcome with {required}"
  | invalidConsensus s f => s!"Invalid consensus result for session {s.toString}: {f.message}"
  | sessionMismatch expected actual =>
    s!"Session mismatch: expected {expected.toString}, got {actual.toString}"
  | unresolved s status => s!"Consensus for session {s.toString} is not resolved ({status.label})"
  | ambiguousDissent s a candidates =>
    s!"Cannot determine vote of dissenter '{a.name}' in session {s.toString}: "
      ++ s!"candidates {outcomeList candidates}"
  | dissentWithMajority s a o =>
    s!"Dissenter '{a.name}' in session {s.toString} voted with the majority ({o.name})"
  | dissentRecorded s => s!"Dissent already recorded for session {s.toString}"
  | invalidRationale s f => s!"Invalid rationale hash for session {s.toString}: {f.message}"
  | storeUnavailable => "Dissent storage error: store unavailable"
  | ledger e => s!"Ledger error: {e.message}"

end CouncilError

end Curia
