import Curia.Filter.Verdict
import Curia.Ledger.Event

/-!
The log of the decisions that the filter has taken. Entries hold digests of texts and no text.
-/

namespace Curia

/-- A change of which only the digest of what was found is kept. -/
structure ChangeRecord where
  rule : String
  pattern : String
  foundHash : Digest
  replacement : String
  position : Nat
  deriving DecidableEq

namespace ChangeRecord

def ofChange (c : Change) : ChangeRecord :=
  ⟨c.rule, c.pattern, Digest.ofText c.found, c.replacement, c.position⟩

def toJson (c : ChangeRecord) : Json :=
  .record
    [("rule_id", .string c.rule),
     ("matched_pattern", .string c.pattern),
     ("original_hash", .string c.foundHash.toHex),
     ("replacement_text", .string c.replacement),
     ("position", .nat c.position)]

end ChangeRecord

inductive DecisionPayload where
  | accepted (outputHash : Digest) (changes : List ChangeRecord)
  | rejected (reason : Reason)
  | blocked (violation : Violation) (details : String)
  deriving DecidableEq

namespace DecisionPayload

def ofVerdict : Verdict Released → DecisionPayload
  | .accepted content changes =>
    accepted (Digest.ofText content.text) (changes.map .ofChange)
  | .rejected reason => rejected reason
  | .blocked violation details => blocked violation details

def decision : DecisionPayload → FilterDecision
  | accepted _ _ => .accepted
  | rejected _ => .rejected
  | blocked _ _ => .blocked

def outputHash? : DecisionPayload → Option Digest
  | accepted hash _ => some hash
  | _ => none

def toJson (p : DecisionPayload) : Json :=
  .record (("decision", Named.toJson p.decision) :: match p with
    | accepted hash changes =>
      [("output_hash", .string hash.toHex),
       ("transformations", .array (changes.map ChangeRecord.toJson))]
    | rejected reason => [("reason", Named.toJson reason), ("guidance", .string reason.guidance)]
    | blocked violation details =>
      [("violation", Named.toJson violation), ("details", .string details)])

end DecisionPayload

/-- An entry of the log. -/
structure Decision where
  id : DecisionId
  inputHash : Digest
  filterVersion : String
  libraryVersion : Option String
  kind : MessageKind
  submitter : String
  timestamp : Instant
  payload : DecisionPayload
  deriving DecidableEq

namespace Decision

def ofResult (id : DecisionId) (r : FilterResult Released) (input : String) (kind : MessageKind)
    (submitter : String) : Decision :=
  { id, kind, submitter
    inputHash := Digest.ofText input
    filterVersion := r.filterVersion
    libraryVersion := r.library.map LibraryVersion.semver
    timestamp := r.timestamp
    payload := .ofVerdict r.verdict }

def decision (d : Decision) : FilterDecision := d.payload.decision

def toJson (d : Decision) : Json :=
  .record
    [("decision_id", d.id.toJson),
     ("input_hash", .string d.inputHash.toHex),
     ("filter_version", .string d.filterVersion),
     ("library_version", .ofOption .string d.libraryVersion),
     ("message_kind", Named.toJson d.kind),
     ("submitter_id", .string d.submitter),
     ("timestamp", d.timestamp.toJson),
     ("payload", d.payload.toJson)]

def eventKind : String := "coercion_filter.decision_logged"

def event (d : Decision) : Event :=
  ⟨⟨d.id.uuid⟩, eventKind, Event.currentSchema, d.timestamp, d.toJson⟩

end Decision

/-- The entries in the order in which they were appended. An append may find the log out of reach;
then nothing is appended. -/
structure DecisionLog where
  entries : List Decision
  /-- How many times an append was attempted. -/
  attempts : Nat
  /-- Which attempts find the log out of reach; the first has number one. -/
  refuses : Nat → Bool

namespace DecisionLog

def empty : DecisionLog := ⟨[], 0, fun _ => false⟩

def append (l : DecisionLog) (d : Decision) : Except FilterError Unit × DecisionLog :=
  let l := { l with attempts := l.attempts + 1 }
  if l.refuses l.attempts then (.error (.storeUnavailable d.id), l)
  else if l.entries.any fun e => e.id = d.id then (.error (.alreadyLogged d.id), l)
  else (.ok (), { l with entries := l.entries ++ [d] })

/-- What entries are asked for; absent conditions hold of all. -/
structure Query where
  submitter : Option String
  decision : Option FilterDecision
  /-- The earliest time. -/
  since : Option Instant
  /-- The time before which entries were made. -/
  before : Option Instant
  limit : Option Nat

def Query.matches (q : Query) (d : Decision) : Bool :=
  q.submitter.all (fun s => d.submitter = s) && q.decision.all (fun k => d.decision = k) &&
    q.since.all (fun t => !decide (d.timestamp < t)) && q.before.all (fun t => decide (d.timestamp < t))

/-- The first matching entries, as many as the query allows. -/
def query (l : DecisionLog) (q : Query) : List Decision :=
  let found := l.entries.filter q.matches
  match q.limit with
  | some n => found.take n
  | none => found

def get? (l : DecisionLog) (id : DecisionId) : Option Decision :=
  l.entries.find? fun d => d.id = id

end DecisionLog

end Curia
