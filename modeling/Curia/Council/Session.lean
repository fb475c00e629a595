import Curia.Council.Consensus
import Curia.Data.Repeated

/-!
A session in which three archons deliberate on a petition: the transcripts witnessed so far, the
votes cast, and in the end the outcome. Each operation gives its answer and beside it the session
that it leaves, whether or not it has been refused.
-/

namespace Curia

structure Vote where
  outcome : Outcome
  rationale : String
  deriving DecidableEq

namespace Vote

def toJson (v : Vote) : Json :=
  .record [("outcome", Named.toJson v.outcome), ("rationale", .string v.rationale)]

def ofJson (j : Json) : Decoded Vote := do
  let r ← Record.read ["outcome", "rationale"] j
  return ⟨← r.required "outcome" Named.ofJson, ← r.required "rationale" Json.asString⟩

end Vote

structure Session where
  id : SessionId
  petition : PetitionId
  archons : List Archon
  phase : Phase
  transcripts : SortedMap Phase Digest
  votes : SortedMap Archon Vote
  outcome : Option Outcome
  dissenter : Option Archon
  completedAt : Option Instant
  deriving DecidableEq

namespace Session

def start (id : SessionId) (petition : PetitionId) (archons : List Archon) :
    Except CouncilError Session :=
  if archons.length ≠ Consensus.archonsPerSession then .error (.archonCount id archons.length)
  else match firstRepeated? archons with
    | some a => .error (.duplicateArchon id a)
    | none => .ok
      { id, petition, archons
        phase := .assessment
        transcripts := ∅
        votes := ∅
        outcome := none
        dissenter := none
        completedAt := none }

def isAssigned (s : Session) (a : Archon) : Bool := a ∈ s.archons

def transcript? (s : Session) (p : Phase) : Option Digest := s.transcripts.get? p

/-- The witnessed phases of which there is no transcript. -/
def missingPhases (s : Session) : List Phase :=
  Phase.witnessed.filter fun p => !s.transcripts.contains p

def voteOf? (s : Session) (a : Archon) : Option Outcome := (s.votes.get? a).map Vote.outcome

def rationaleOf? (s : Session) (a : Archon) : Option String := (s.votes.get? a).map Vote.rationale

/-- The votes without their reasons. -/
def voteMap (s : Session) : SortedMap Archon Outcome := s.votes.map Vote.outcome

def isComplete (s : Session) : Bool := s.phase = .complete

def recordTranscript (s : Session) (p : Phase) (hash : Digest) :
    Except CouncilError Unit × Session :=
  if s.isComplete then (.error (.sessionComplete s.id), s)
  else if p = .complete then (.error (.unwitnessedPhase s.id p), s)
  else (.ok (), { s with transcripts := s.transcripts.insert p hash, phase := s.phase.later p })

def castVote (s : Session) (a : Archon) (v : Vote) : Except CouncilError Unit × Session :=
  if s.isComplete then (.error (.sessionComplete s.id), s)
  else if !s.isAssigned a then (.error (.unauthorizedArchon s.id a), s)
  else if s.votes.contains a then (.error (.duplicateVote s.id a), s)
  else (.ok (), { s with votes := s.votes.insert a v, phase := s.phase.later .vote })

/-- Ends the session with a consensus that is resolved and its own. -/
def complete (s : Session) (c : Consensus) : Except CouncilError Unit × Session :=
  if s.isComplete then (.error (.sessionComplete s.id), s)
  else if c.session ≠ s.id then (.error (.sessionMismatch s.id c.session), s)
  else match c.winner with
    | none => (.error (.unresolved s.id c.status), s)
    | some outcome => (.ok (),
      { s with
        outcome := some outcome
        dissenter := c.dissenter
        completedAt := some c.resolvedAt
        phase := .complete })

def transcriptsJson (s : Session) : Json :=
  .object (s.transcripts.toList.map fun e => (e.1.name, .string e.2.toHex))

def votesJson (s : Session) : Json :=
  .object (s.votes.toList.map fun e => (e.1.name, e.2.toJson))

def toJson (s : Session) : Json :=
  .record
    [("session_id", s.id.toJson),
     ("petition_id", s.petition.toJson),
     ("assigned_archons", .array (s.archons.map Archon.toJson)),
     ("phase", Named.toJson s.phase),
     ("phase_transcripts", s.transcriptsJson),
     ("votes", s.votesJson),
     ("outcome", .ofOption Named.toJson s.outcome),
     ("dissent_archon_id", .ofOption Archon.toJson s.dissenter),
     ("completed_at", .ofOption Instant.toJson s.completedAt)]

end Session

end Curia
