import Curia.Ids
import Curia.Time.Json

/-!
Events as they are kept on the ledger, whatever they report.
-/

namespace Curia

structure Event where
  id : EventId
  /-- The dotted name of what happened. -/
  kind : String
  schemaVersion : Nat
  occurredAt : Instant
  payload : Json
  deriving DecidableEq

namespace Event

/-- The version of the payloads written here. -/
def currentSchema : Nat := 1

/-- How deep a payload may be nested that is read from a text: the text as a whole may be nested
127 deep, and the payload stands inside of an object. -/
def payloadDepth : Nat := 126

/-- The members of an event in the order in which they are stored. -/
def members (e : Event) : List (String × Json) :=
  [("event_id", e.id.toJson),
   ("event_type", .string e.kind),
   ("schema_version", .nat e.schemaVersion),
   ("occurred_at", e.occurredAt.toJson),
   ("payload", e.payload)]

def toJson (e : Event) : Json := .record e.members

def ofJson (v : Json) : Decoded Event := do
  let r ← Record.read ["event_id", "event_type", "schema_version", "occurred_at", "payload"] v
  return {
    id := ← r.required "event_id" EventId.ofJson
    kind := ← r.required "event_type" Json.asString
    schemaVersion := ← r.required "schema_version" (Json.asNat UInt32.size)
    occurredAt := ← r.required "occurred_at" Instant.ofJson
    payload := ← r.required "payload" (Json.asValue payloadDepth) }

end Event

end Curia
