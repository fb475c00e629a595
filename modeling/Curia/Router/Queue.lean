import Curia.Router.Completion

/-!
Petitions waiting in a pipeline: those of higher priority first, among equals the earlier one.
-/

namespace Curia

structure Pending where
  petition : PetitionId
  session : SessionId
  pipeline : Pipeline
  outcome : Outcome
  priority : Priority
  routing : EventId
  enqueuedAt : Instant
  /-- How many petitions had been routed before this one. -/
  sequence : Nat
  deriving DecidableEq

namespace Pending

/-- Priority from high to low, then time, then sequence. -/
def compare (a b : Pending) : Ordering :=
  (Ord.compare b.priority.rank a.priority.rank).then
    ((Instant.compare a.enqueuedAt b.enqueuedAt).then (Ord.compare a.sequence b.sequence))

def toJson (p : Pending) : Json :=
  .record
    [("petition_id", p.petition.toJson),
     ("session_id", p.session.toJson),
     ("pipeline", Named.toJson p.pipeline),
     ("outcome", Named.toJson p.outcome),
     ("priority", Named.toJson p.priority),
     ("routing_event_id", p.routing.toJson),
     ("enqueued_at", p.enqueuedAt.toJson),
     ("sequence", .nat p.sequence)]

end Pending

/-- The entries of a pipeline in the order in which they are served. -/
abbrev Queue := List Pending

namespace Queue

/-- Puts an entry behind all that are not after it. -/
def push (q : Queue) (e : Pending) : Queue :=
  q.takeWhile (fun x => (x.compare e).isLE) ++ e :: q.dropWhile (fun x => (x.compare e).isLE)

/-- Takes out the first entry for a petition, if there is one. -/
def remove (q : Queue) (p : PetitionId) : Queue :=
  q.eraseP fun e => e.petition = p

def holds (q : Queue) (p : PetitionId) : Bool := q.any fun e => e.petition = p

end Queue

/-- One queue for each pipeline. -/
structure Queues where
  acknowledgment : Queue
  referral : Queue
  escalation : Queue
  deriving DecidableEq

namespace Queues

def empty : Queues := ⟨[], [], []⟩

def get (qs : Queues) : Pipeline → Queue
  | .acknowledgment => qs.acknowledgment
  | .referral => qs.referral
  | .escalation => qs.escalation

def set (qs : Queues) (p : Pipeline) (q : Queue) : Queues :=
  match p with
  | .acknowledgment => { qs with acknowledgment := q }
  | .referral => { qs with referral := q }
  | .escalation => { qs with escalation := q }

/-- Puts an entry into the queue of its pipeline. -/
def push (qs : Queues) (e : Pending) : Queues :=
  qs.set e.pipeline ((qs.get e.pipeline).push e)

@[simp] theorem get_set_self (qs : Queues) (p : Pipeline) (q : Queue) : (qs.set p q).get p = q := by
  cases p <;> rfl

theorem get_set_of_ne (qs : Queues) {p p' : Pipeline} (q : Queue) (h : p ≠ p') :
    (qs.set p q).get p' = qs.get p' := by
  cases p <;> cases p' <;> first | rfl | exact absurd rfl h

end Queues

end Curia
