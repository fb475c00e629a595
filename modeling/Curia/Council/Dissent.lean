import Curia.Council.Session
import Curia.Digest.Basic
import Curia.Ledger.Event

/-!
The record of a dissent: who voted against the majority and why. The reason is kept with its digest,
by which it can be checked; the event on the ledger carries the digest alone.
-/

namespace Curia

structure Dissent where
  id : DissentId
  session : SessionId
  petition : PetitionId
  archon : Archon
  outcome : Outcome
  majority : Outcome
  rationale : String
  rationaleHash : Digest
  recordedAt : Instant
  deriving DecidableEq

namespace Dissent

def new (id : DissentId) (session : SessionId) (petition : PetitionId) (archon : Archon)
    (outcome majority : Outcome) (rationale : String) (recordedAt : Instant) :
    Except CouncilError Dissent :=
  if outcome = majority then .error (.dissentWithMajority session archon outcome)
  else .ok
    { id, session, petition, archon, outcome, majority, rationale
      rationaleHash := Digest.ofText rationale
      recordedAt }

/-- Rebuilds a record from its parts. The bytes must be the digest of the reason. -/
def restore (id : DissentId) (session : SessionId) (petition : PetitionId) (archon : Archon)
    (outcome majority : Outcome) (rationale : String) (hash : List UInt8) (recordedAt : Instant) :
    Except CouncilError Dissent :=
  if hash.length ≠ Digest.size then
    .error (.invalidRationale session (.hashLength hash.length))
  else match new id session petition archon outcome majority rationale recordedAt with
    | .error e => .error e
    | .ok d =>
      if d.rationaleHash.bytes = hash then .ok d
      else .error (.invalidRationale session .hashMismatch)

/-- Whether a text is the reason that was recorded, as far as its digest tells. -/
def verifies (d : Dissent) (text : String) : Bool := Digest.ofText text = d.rationaleHash

def isIntact (d : Dissent) : Bool := d.verifies d.rationale

def toJson (d : Dissent) : Json :=
  .record
    [("dissent_id", d.id.toJson),
     ("session_id", d.session.toJson),
     ("petition_id", d.petition.toJson),
     ("dissent_archon_id", d.archon.toJson),
     ("dissent_disposition", Named.toJson d.outcome),
     ("rationale_text", .string d.rationale),
     ("rationale_hash", .string d.rationaleHash.toHex),
     ("majority_disposition", Named.toJson d.majority),
     ("recorded_at", d.recordedAt.toJson)]

def eventKind : String := "deliberation.dissent_recorded"

def event (d : Dissent) (id : EventId) : Event where
  id
  kind := eventKind
  schemaVersion := Event.currentSchema
  occurredAt := d.recordedAt
  payload := .record
    [("event_id", id.toJson),
     ("dissent_id", d.id.toJson),
     ("session_id", d.session.toJson),
     ("petition_id", d.petition.toJson),
     ("dissent_archon_id", d.archon.toJson),
     ("dissent_disposition", Named.toJson d.outcome),
     ("majority_disposition", Named.toJson d.majority),
     ("rationale_hash", .string d.rationaleHash.toHex),
     ("recorded_at", d.recordedAt.toJson)]

theorem restore_new {id : DissentId} {s : SessionId} {p : PetitionId} {a : Archon} {o m : Outcome}
    {r : String} {t : Instant} {d : Dissent} (h : new id s p a o m r t = .ok d) :
    restore id s p a o m r d.rationaleHash.bytes t = .ok d := by
  simp [restore, h, Digest.size, d.rationaleHash.size_eq]

end Dissent

end Curia
