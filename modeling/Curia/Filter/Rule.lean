import Curia.Ids

/-!
The rules of the filter: what a message is searched for and what is done with it.
-/

namespace Curia

/-- What a rule does with a message in which it finds something, the stages in their order. -/
inductive Severity where
  | block
  | reject
  | transform
  deriving DecidableEq

namespace Severity

def all : List Severity := [block, reject, transform]

def name : Severity → String
  | block => "BLOCK"
  | reject => "REJECT"
  | transform => "TRANSFORM"

def label : Severity → String
  | block => "Block"
  | reject => "Reject"
  | transform => "Transform"

def rank : Severity → Nat
  | block => 0
  | reject => 1
  | transform => 2

instance : Named Severity := ⟨all, name, label⟩

end Severity

inductive Category where
  | threat
  | intimidation
  | demand
  | guilt
  | falseScarcity
  | urgency
  deriving DecidableEq

namespace Category

def all : List Category := [threat, intimidation, demand, guilt, falseScarcity, urgency]

def name : Category → String
  | threat => "THREAT"
  | intimidation => "INTIMIDATION"
  | demand => "DEMAND"
  | guilt => "GUILT"
  | falseScarcity => "FALSE_SCARCITY"
  | urgency => "URGENCY"

def label : Category → String
  | threat => "Threat"
  | intimidation => "Intimidation"
  | demand => "Demand"
  | guilt => "Guilt"
  | falseScarcity => "FalseScarcity"
  | urgency => "Urgency"

def rank : Category → Nat
  | threat => 0
  | intimidation => 1
  | demand => 2
  | guilt => 3
  | falseScarcity => 4
  | urgency => 5

instance : Named Category := ⟨all, name, label⟩

end Category

/-- Why a message is withheld for good. -/
inductive Violation where
  | explicitThreat
  | blackmail
  | harassment
  deriving DecidableEq

namespace Violation

def all : List Violation := [explicitThreat, blackmail, harassment]

def name : Violation → String
  | explicitThreat => "EXPLICIT_THREAT"
  | blackmail => "BLACKMAIL"
  | harassment => "HARASSMENT"

def label : Violation → String
  | explicitThreat => "ExplicitThreat"
  | blackmail => "Blackmail"
  | harassment => "Harassment"

instance : Named Violation := ⟨all, name, label⟩

end Violation

/-- Why a message has to be rewritten or sent again. -/
inductive Reason where
  | commandingLanguage
  | guiltInduction
  | falseScarcity
  | processingTimeout
  | internalFault
  deriving DecidableEq

namespace Reason

def all : List Reason :=
  [commandingLanguage, guiltInduction, falseScarcity, processingTimeout, internalFault]

def name : Reason → String
  | commandingLanguage => "COMMANDING_LANGUAGE"
  | guiltInduction => "GUILT_INDUCTION"
  | falseScarcity => "FALSE_SCARCITY"
  | processingTimeout => "PROCESSING_TIMEOUT"
  | internalFault => "INTERNAL_FAULT"

def label : Reason → String
  | commandingLanguage => "CommandingLanguage"
  | guiltInduction => "GuiltInduction"
  | falseScarcity => "FalseScarcity"
  | processingTimeout => "ProcessingTimeout"
  | internalFault => "InternalFault"

instance : Named Reason := ⟨all, name, label⟩

/-- What the sender is told to do. -/
def guidance : Reason → String
  | commandingLanguage => "Rephrase demands as requests; the recipient must remain free to decline."
  | guiltInduction =>
    "Remove appeals to obligation or past favours; state the request on its merits."
  | falseScarcity => "Remove artificial deadlines; state the actual timeline if one exists."
  | processingTimeout => "The message could not be checked in time. Shorten it and resubmit."
  | internalFault => "The message could not be checked. Resubmit later; the filter fails closed."

/-- Whether the fault lies with the filter and not with the message. -/
def isFault : Reason → Bool
  | processingTimeout | internalFault => true
  | _ => false

end Reason

inductive MessageKind where
  | taskActivation
  | reminder
  | deliberationSummary
  | dispositionNotice
  | correspondence
  deriving DecidableEq

namespace MessageKind

def all : List MessageKind :=
  [taskActivation, reminder, deliberationSummary, dispositionNotice, correspondence]

def name : MessageKind → String
  | taskActivation => "TASK_ACTIVATION"
  | reminder => "REMINDER"
  | deliberationSummary => "DELIBERATION_SUMMARY"
  | dispositionNotice => "DISPOSITION_NOTICE"
  | correspondence => "CORRESPONDENCE"

def label : MessageKind → String
  | taskActivation => "TaskActivation"
  | reminder => "Reminder"
  | deliberationSummary => "DeliberationSummary"
  | dispositionNotice => "DispositionNotice"
  | correspondence => "Correspondence"

instance : Named MessageKind := ⟨all, name, label⟩

end MessageKind

structure Rule where
  id : String
  category : Category
  severity : Severity
  pattern : String
  description : String
  /-- What takes the place of what a rule for transforming finds. -/
  replacement : Option String
  /-- Why a rule for rejecting rejects. -/
  reason : Option Reason
  /-- Why a rule for blocking blocks. -/
  violation : Option Violation
  caseSensitive : Bool
  deriving DecidableEq

namespace Rule

def block (id : String) (category : Category) (pattern : String) (violation : Violation)
    (description : String) : Rule :=
  ⟨id, category, .block, pattern, description, none, none, some violation, false⟩

def reject (id : String) (category : Category) (pattern : String) (reason : Reason)
    (description : String) : Rule :=
  ⟨id, category, .reject, pattern, description, none, some reason, none, false⟩

def transform (id : String) (category : Category) (pattern replacement : String)
    (description : String) : Rule :=
  ⟨id, category, .transform, pattern, description, some replacement, none, none, false⟩

/-- Whether the rule says what its severity needs to be told. -/
def hasAction (r : Rule) : Bool :=
  match r.severity with
  | .block => r.violation.isSome
  | .reject => r.reason.isSome
  | .transform => r.replacement.isSome

/-- The order in which rules are tried: by severity, category and name. -/
def compare (a b : Rule) : Ordering :=
  (Ord.compare a.severity.rank b.severity.rank).then
    ((Ord.compare a.category.rank b.category.rank).then (Ord.compare a.id b.id))

def toJson (r : Rule) : Json :=
  .record
    [("id", .string r.id),
     ("category", Named.toJson r.category),
     ("severity", Named.toJson r.severity),
     ("pattern", .string r.pattern),
     ("description", .string r.description),
     ("replacement", .ofOption .string r.replacement),
     ("rejection_reason", .ofOption Named.toJson r.reason),
     ("violation_type", .ofOption Named.toJson r.violation),
     ("case_sensitive", .bool r.caseSensitive)]

def fieldNames : List String :=
  ["id", "category", "severity", "pattern", "description", "replacement", "rejection_reason",
    "violation_type", "case_sensitive"]

def ofJson (v : Json) : Decoded Rule := do
  let r ← Record.read fieldNames v
  return {
    id := ← r.required "id" Json.asString
    category := ← r.required "category" Named.ofJson
    severity := ← r.required "severity" Named.ofJson
    pattern := ← r.required "pattern" Json.asString
    description := ← r.required "description" Json.asString
    replacement := ← r.withDefault "replacement" none (Json.asOption Json.asString)
    reason := ← r.withDefault "rejection_reason" none (Json.asOption Named.ofJson)
    violation := ← r.withDefault "violation_type" none (Json.asOption Named.ofJson)
    caseSensitive := ← r.withDefault "case_sensitive" false Json.asBool }

end Rule

end Curia
