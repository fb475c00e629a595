import Curia.Council.Session
import Curia.Ledger.Event
import Curia.Router.Error

/-!
The report that a deliberation is completed, with the votes, and the report that its petition goes
to a pipeline.
-/

namespace Curia

structure Completion where
  id : EventId
  session : SessionId
  petition : PetitionId
  outcome : Outcome
  votes : SortedMap Archon Vote
  dissenter : Option Archon
  /-- What the dissenter voted for. -/
  dissent : Option Outcome
  voteWitness : Digest
  completedAt : Instant
  deriving DecidableEq

namespace Completion

/-- Those who did not vote for the outcome. -/
def dissenters (votes : SortedMap Archon Vote) (outcome : Outcome) : List Archon :=
  (votes.toList.filter fun e => e.2.outcome ≠ outcome).map (·.1)

/-- Three votes of which at most one is not for the outcome; the dissenter that is named, if any,
must be the one who cast it. -/
def new (id : EventId) (session : SessionId) (petition : PetitionId) (outcome : Outcome)
    (votes : SortedMap Archon Vote) (dissenter : Option Archon) (witness : List UInt8)
    (completedAt : Instant) : Except RoutingError Completion :=
  if h : witness.length ≠ 32 then
    .error (.invalidEvent session (.witnessLength witness.length))
  else if votes.size ≠ Consensus.archonsPerSession then
    .error (.invalidEvent session (.voteCount votes.size))
  else
    let against := dissenters votes outcome
    if 1 < against.length then .error (.invalidEvent session (.noSupermajority outcome))
    else if dissenter ≠ against.head? then
      .error (.invalidEvent session (.dissenter dissenter against.head?))
    else .ok
      { id, session, petition, outcome, votes, dissenter
        dissent := dissenter.bind fun a => (votes.get? a).map Vote.outcome
        voteWitness := ⟨witness, Decidable.not_not.1 h⟩
        completedAt }

def hasDissent (c : Completion) : Bool := c.dissenter.isSome

def toJson (c : Completion) : Json :=
  .record
    [("event_id", c.id.toJson),
     ("session_id", c.session.toJson),
     ("petition_id", c.petition.toJson),
     ("outcome", Named.toJson c.outcome),
     ("vote_breakdown", .record (c.votes.toList.map fun e => (e.1.name, e.2.toJson))),
     ("dissent_present", .bool c.hasDissent),
     ("dissent_archon_id", .ofOption Archon.toJson c.dissenter),
     ("dissent_disposition", .ofOption Named.toJson c.dissent),
     ("vote_witness_hash", .string c.voteWitness.toHex),
     ("completed_at", c.completedAt.toJson)]

def eventKind : String := "deliberation.completed"

def event (c : Completion) : Event :=
  ⟨c.id, eventKind, Event.currentSchema, c.completedAt, c.toJson⟩

end Completion

/-- The report that a petition goes to a pipeline. -/
structure Routing where
  id : EventId
  completion : EventId
  session : SessionId
  petition : PetitionId
  outcome : Outcome
  pipeline : Pipeline
  priority : Priority
  routedAt : Instant
  deriving DecidableEq

namespace Routing

def ofCompletion (id : EventId) (c : Completion) (pipeline : Pipeline) (priority : Priority)
    (routedAt : Instant) : Routing :=
  { id, pipeline, priority, routedAt
    completion := c.id
    session := c.session
    petition := c.petition
    outcome := c.outcome }

def toJson (r : Routing) : Json :=
  .record
    [("event_id", r.id.toJson),
     ("completion_event_id", r.completion.toJson),
     ("session_id", r.session.toJson),
     ("petition_id", r.petition.toJson),
     ("outcome", Named.toJson r.outcome),
     ("pipeline", Named.toJson r.pipeline),
     ("priority", Named.toJson r.priority),
     ("routed_at", r.routedAt.toJson)]

def eventKind : String := "disposition.pipeline_routed"

def event (r : Routing) : Event :=
  ⟨r.id, eventKind, Event.currentSchema, r.routedAt, r.toJson⟩

end Routing

end Curia
