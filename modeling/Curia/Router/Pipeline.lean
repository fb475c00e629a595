import Curia.Council.Outcome
import Curia.Ids
import Curia.Time.Json

/-!
Pipelines, the table that says which outcome goes to which pipeline, and petitions.
-/

namespace Curia

inductive Pipeline where
  | acknowledgment
  | referral
  | escalation
  deriving DecidableEq

namespace Pipeline

def all : List Pipeline := [acknowledgment, referral, escalation]

def name : Pipeline → String
  | acknowledgment => "ACKNOWLEDGMENT"
  | referral => "REFERRAL"
  | escalation => "ESCALATION"

def label : Pipeline → String
  | acknowledgment => "Acknowledgment"
  | referral => "Referral"
  | escalation => "Escalation"

instance : Named Pipeline := ⟨all, name, label⟩

end Pipeline

/-- The pipeline of each outcome that has one. -/
abbrev RoutingTable := SortedMap Outcome Pipeline

namespace RoutingTable

def standard : RoutingTable :=
  .ofList [(.acknowledge, .acknowledgment), (.refer, .referral), (.escalate, .escalation)]

/-- The outcomes without a pipeline. -/
def unmapped (t : RoutingTable) : List Outcome :=
  Outcome.all.filter fun o => !SortedMap.contains t o

def toJson (t : RoutingTable) : Json :=
  .record (t.toList.map fun e => (e.1.name, Named.toJson e.2))

/-- Of several pipelines for one outcome the last counts. -/
def ofJson (v : Json) : Decoded RoutingTable := do
  let entries ← (← v.asObject).mapM fun m => do
    return (← Named.ofKey m.1, ← Named.ofJson m.2)
  return .ofList entries

end RoutingTable

inductive Petition.State where
  | received
  | deliberating
  | routed
  | withdrawn
  deriving DecidableEq

namespace Petition.State

def all : List State := [received, deliberating, routed, withdrawn]

def name : State → String
  | received => "RECEIVED"
  | deliberating => "DELIBERATING"
  | routed => "ROUTED"
  | withdrawn => "WITHDRAWN"

def label : State → String
  | received => "Received"
  | deliberating => "Deliberating"
  | routed => "Routed"
  | withdrawn => "Withdrawn"

instance : Named State := ⟨all, name, label⟩

end Petition.State

inductive Priority where
  | low
  | normal
  | high
  | critical
  deriving DecidableEq

namespace Priority

def all : List Priority := [low, normal, high, critical]

def name : Priority → String
  | low => "LOW"
  | normal => "NORMAL"
  | high => "HIGH"
  | critical => "CRITICAL"

def label : Priority → String
  | low => "Low"
  | normal => "Normal"
  | high => "High"
  | critical => "Critical"

def rank : Priority → Nat
  | low => 0
  | normal => 1
  | high => 2
  | critical => 3

instance : Named Priority := ⟨all, name, label⟩

end Priority

structure Petition where
  id : PetitionId
  state : Petition.State
  priority : Priority
  submittedAt : Instant
  deriving DecidableEq

namespace Petition

def toJson (p : Petition) : Json :=
  .record
    [("petition_id", p.id.toJson),
     ("state", Named.toJson p.state),
     ("priority", Named.toJson p.priority),
     ("submitted_at", p.submittedAt.toJson)]

def ofJson (v : Json) : Decoded Petition := do
  let r ← Record.read ["petition_id", "state", "priority", "submitted_at"] v
  return {
    id := ← r.required "petition_id" PetitionId.ofJson
    state := ← r.required "state" Named.ofJson
    priority := ← r.required "priority" Named.ofJson
    submittedAt := ← r.required "submitted_at" Instant.ofJson }

end Petition

end Curia
