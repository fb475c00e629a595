import Curia.Filter.Library
import Curia.Time.Json

/-!
What the filter has to say about a message: it is accepted, possibly changed, or it has to be
rewritten, or it is withheld.
-/

namespace Curia

inductive FilterDecision where
  | accepted
  | rejected
  | blocked
  deriving DecidableEq

namespace FilterDecision

def all : List FilterDecision := [accepted, rejected, blocked]

def name : FilterDecision → String
  | accepted => "ACCEPTED"
  | rejected => "REJECTED"
  | blocked => "BLOCKED"

def label : FilterDecision → String
  | accepted => "Accepted"
  | rejected => "Rejected"
  | blocked => "Blocked"

instance : Named FilterDecision := ⟨all, name, label⟩

end FilterDecision

/-- A piece of a message that a rule has replaced. -/
structure Change where
  rule : String
  pattern : String
  found : String
  replacement : String
  /-- The number of characters before the piece, in the text that the rule was given. -/
  position : Nat
  deriving DecidableEq

namespace Change

def toJson (c : Change) : Json :=
  .record
    [("rule_id", .string c.rule),
     ("matched_pattern", .string c.pattern),
     ("original_text", .string c.found),
     ("replacement_text", .string c.replacement),
     ("position", .nat c.position)]

def ofJson (v : Json) : Decoded Change := do
  let r ← Record.read
    ["rule_id", "matched_pattern", "original_text", "replacement_text", "position"] v
  return {
    rule := ← r.required "rule_id" Json.asString
    pattern := ← r.required "matched_pattern" Json.asString
    found := ← r.required "original_text" Json.asString
    replacement := ← r.required "replacement_text" Json.asString
    position := ← r.required "position" (Json.asNat UInt64.size) }

end Change

inductive Verdict (α : Type) where
  | accepted (content : α) (changes : List Change)
  | rejected (reason : Reason)
  | blocked (violation : Violation) (details : String)
  deriving DecidableEq

namespace Verdict

def decision : Verdict α → FilterDecision
  | accepted _ _ => .accepted
  | rejected _ => .rejected
  | blocked _ _ => .blocked

def map (f : α → β) : Verdict α → Verdict β
  | accepted content changes => accepted (f content) changes
  | rejected reason => rejected reason
  | blocked violation details => blocked violation details

def content? : Verdict α → Option α
  | accepted content _ => some content
  | _ => none

def changes : Verdict α → List Change
  | accepted _ changes => changes
  | _ => []

def reason? : Verdict α → Option Reason
  | rejected reason => some reason
  | _ => none

def violation? : Verdict α → Option Violation
  | blocked violation _ => some violation
  | _ => none

def toJson (contentJson : α → Json) (v : Verdict α) : Json :=
  .record (("decision", Named.toJson v.decision) :: match v with
    | accepted content changes =>
      [("content", contentJson content), ("transformations", .array (changes.map Change.toJson))]
    | rejected reason => [("reason", Named.toJson reason), ("guidance", .string reason.guidance)]
    | blocked violation details =>
      [("violation", Named.toJson violation), ("details", .string details)])

end Verdict

/-- A text that the filter has let pass, with the digest of what was submitted. Only such a text may
be delivered. -/
structure Released where
  text : String
  submittedHash : Digest
  filterVersion : String
  filteredAt : Instant
  deriving DecidableEq

def Released.toJson (r : Released) : Json :=
  .record
    [("content", .string r.text),
     ("original_hash", .string r.submittedHash.toHex),
     ("filter_version", .string r.filterVersion),
     ("filtered_at", r.filteredAt.toJson)]

structure FilterResult (α : Type) where
  filterVersion : String
  /-- The library that was used, if there was one. -/
  library : Option LibraryVersion
  timestamp : Instant
  verdict : Verdict α
  deriving DecidableEq

namespace FilterResult

def map (f : α → β) (r : FilterResult α) : FilterResult β :=
  { r with verdict := r.verdict.map f }

def toJson (contentJson : α → Json) (r : FilterResult α) : Json :=
  .record
    [("filter_version", .string r.filterVersion),
     ("library_version", .ofOption LibraryVersion.toJson r.library),
     ("timestamp", r.timestamp.toJson),
     ("outcome", r.verdict.toJson contentJson)]

end FilterResult

end Curia
