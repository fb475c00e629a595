import Curia.Council.Error
import Curia.Router.Pipeline
import Curia.Text.Quoted

/-!
What an emission can be refused for, with the wording of each refusal.
-/

namespace Curia

/-- What is wrong with a report of a completed deliberation. -/
inductive Completion.Flaw where
  | witnessLength (given : Nat)
  | voteCount (given : Nat)
  | noSupermajority (outcome : Outcome)
  /-- The dissenter that is named is not the one whose vote differs. -/
  | dissenter (named actual : Option Archon)
  deriving DecidableEq

namespace Completion.Flaw

def archonText : Option Archon → String
  | none => "None"
  | some a => s!"Some(ArchonId({Quoted.quote a.name}))"

def message : Flaw → String
  | witnessLength n => s!"vote witness hash: {Digest.wrongLengthMessage n}"
  | voteCount n => s!"vote breakdown has {n} entries, expected 3"
  | noSupermajority o => s!"outcome {o.name} lacks a supermajority"
  | dissenter named actual =>
    s!"dissent field {archonText named} disagrees with breakdown dissenter {archonText actual}"

end Completion.Flaw

inductive RoutingError where
  | incompleteWitness (session : SessionId) (petition : PetitionId) (missing : List Phase)
  | petitionState (petition : PetitionId) (actual expected : Petition.State)
  | unmapped (session : SessionId) (petition : PetitionId) (outcome : Outcome)
  | unresolved (session : SessionId) (status : Consensus.Status)
  | sessionMismatch (expected actual : SessionId)
  | petitionMismatch (session : SessionId) (expected actual : PetitionId)
  | invalidEvent (session : SessionId) (flaw : Completion.Flaw)
  | alreadyRouted (petition : PetitionId) (session : SessionId)
  deriving DecidableEq

/-- The name under which a caller tells errors apart. -/
def RoutingError.kind : RoutingError → String
  | incompleteWitness .. => "IncompleteWitnessChain"
  | petitionState .. => "InvalidPetitionState"
  | unmapped .. => "UnmappedOutcome"
  | unresolved .. => "ConsensusNotResolved"
  | sessionMismatch .. => "SessionMismatch"
  | petitionMismatch .. => "PetitionMismatch"
  | invalidEvent .. => "InvalidEvent"
  | alreadyRouted .. => "PetitionAlreadyRouted"

def RoutingError.message : RoutingError → String
  | incompleteWitness s p missing =>
    let names := ", ".intercalate (missing.map Phase.name)
    s!"Incomplete witness chain for session {s.toString} (petition {p.toString}): missing {names}"
  | petitionState p actual expected =>
    s!"Petition {p.toString} is {actual.label}, expected {expected.label}"
  | unmapped s p o =>
    s!"No pipeline mapped for outcome {o.name} (session {s.toString}, petition {p.toString})"
  | unresolved s status => s!"Consensus for session {s.toString} is not resolved ({status.label})"
  | sessionMismatch expected actual =>
    s!"Session mismatch: expected {expected.toString}, got {actual.toString}"
  | petitionMismatch s expected actual =>
    s!"Session {s.toString} deliberated petition {expected.toString}, not {actual.toString}"
  | invalidEvent s f => s!"Invalid routing event for session {s.toString}: {f.message}"
  | alreadyRouted p s => s!"Petition {p.toString} was already routed by session {s.toString}"

end Curia
