import Curia.Router.Queue

/-!
The router sends the petition of a completed deliberation to the pipeline of its outcome. It does so
once for each session and once for each petition; asked again, it gives the same answer.
-/

namespace Curia

/-- What an emission has produced. -/
structure Disposition where
  completion : Completion
  routing : Routing
  pipeline : Pipeline
  pending : Pending
  petitionState : Petition.State
  deriving DecidableEq

def Disposition.toJson (d : Disposition) : Json :=
  .record
    [("completion_event", d.completion.toJson),
     ("routing_event", d.routing.toJson),
     ("pipeline", Named.toJson d.pipeline),
     ("pending", d.pending.toJson),
     ("petition_state", Named.toJson d.petitionState)]

structure Router where
  table : RoutingTable
  emitted : SortedMap SessionId Disposition
  /-- The session that routed each petition. -/
  reserved : SortedMap PetitionId SessionId
  queues : Queues
  /-- How many petitions have been routed. -/
  sequence : Nat
  deriving DecidableEq

namespace Router

def new (table : RoutingTable) : Router := ⟨table, ∅, ∅, .empty, 0⟩

/-- What can be checked before anything is built: the outcome and its pipeline. -/
def validate (r : Router) (s : Session) (c : Consensus) (p : Petition) :
    Except RoutingError (Outcome × Pipeline) :=
  if s.missingPhases ≠ [] then .error (.incompleteWitness s.id s.petition s.missingPhases)
  else if c.session ≠ s.id then .error (.sessionMismatch s.id c.session)
  else if p.id ≠ s.petition then .error (.petitionMismatch s.id s.petition p.id)
  else if p.state ≠ .deliberating then .error (.petitionState p.id p.state .deliberating)
  else match c.winner with
    | none => .error (.unresolved s.id c.status)
    | some outcome => match r.table.get? outcome with
      | none => .error (.unmapped s.id p.id outcome)
      | some pipeline => match r.reserved.get? p.id with
        | none => .ok (outcome, pipeline)
        | some other =>
          if other ≠ s.id then .error (.alreadyRouted p.id other) else .ok (outcome, pipeline)

/-- The pipeline of an earlier emission, or else of one that passes the checks. Nothing changes. -/
def precheck (r : Router) (s : Session) (c : Consensus) (p : Petition) :
    Except RoutingError Pipeline :=
  match r.emitted.get? s.id with
  | some d => .ok d.pipeline
  | none => (r.validate s c p).map (·.2)

/-- The report of the completion, which needs the transcript of the vote. -/
def completionOf (s : Session) (c : Consensus) (p : Petition) (outcome : Outcome) (id : EventId) :
    Except RoutingError Completion :=
  match s.transcript? .vote with
  | none => .error (.incompleteWitness s.id p.id [.vote])
  | some witness =>
    Completion.new id s.id p.id outcome s.votes c.dissenter witness.bytes c.resolvedAt

def dispositionOf (r : Router) (completion : Completion) (pipeline : Pipeline) (p : Petition)
    (now : Instant) (routingId : EventId) : Disposition where
  completion := completion
  routing := .ofCompletion routingId completion pipeline p.priority now
  pipeline := pipeline
  pending :=
    { petition := p.id
      session := completion.session
      pipeline
      outcome := completion.outcome
      priority := p.priority
      routing := routingId
      enqueuedAt := now
      sequence := r.sequence }
  petitionState := .routed

/-- Reserves the petition for its session, puts it into its queue and keeps the result. -/
def commit (r : Router) (d : Disposition) : Router :=
  { r with
    emitted := r.emitted.insert d.pending.session d
    reserved := r.reserved.insert d.pending.petition d.pending.session
    queues := r.queues.push d.pending
    sequence := r.sequence + 1 }

def emit (r : Router) (s : Session) (c : Consensus) (p : Petition) (now : Instant)
    (completionId routingId : EventId) : Except RoutingError Disposition × Router :=
  match r.emitted.get? s.id with
  | some d => (.ok d, r)
  | none => match r.validate s c p with
    | .error e => (.error e, r)
    | .ok (outcome, pipeline) => match completionOf s c p outcome completionId with
      | .error e => (.error e, r)
      | .ok completion => match r.reserved.get? p.id with
        | some other => (.error (.alreadyRouted p.id other), r)
        | none =>
          let d := r.dispositionOf completion pipeline p now routingId
          (.ok d, r.commit d)

/-- The first entries waiting in a pipeline. -/
def pending (r : Router) (p : Pipeline) (limit : Nat) : List Pending :=
  (r.queues.get p).take limit

def pendingCount (r : Router) (p : Pipeline) : Nat := (r.queues.get p).length

/-- Takes a petition out of a queue. The answer tells whether it was there. -/
def acknowledge (r : Router) (petition : PetitionId) (p : Pipeline) : Bool × Router :=
  let q := r.queues.get p
  (q.holds petition, { r with queues := r.queues.set p (q.remove petition) })

def isEmitted (r : Router) (s : SessionId) : Bool := r.emitted.contains s

end Router

end Curia
