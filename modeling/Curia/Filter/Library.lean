import Curia.Data.Repeated
import Curia.Digest.Canonical
import Curia.Filter.Error
import Curia.Regex.Reader
import Curia.Regex.Search

/-!
A library of rules, sorted and ready for use. Its version names the rules by a digest of all of
them. Patterns may name properties of characters, which are looked up in a table.
-/

namespace Curia

structure LibraryVersion where
  semver : String
  integrity : Digest
  ruleCount : Nat
  deriving DecidableEq

namespace LibraryVersion

def toJson (v : LibraryVersion) : Json :=
  .record
    [("semver", .string v.semver),
     ("integrity_hash", .string v.integrity.toHex),
     ("rule_count", .nat v.ruleCount)]

def ofJson (v : Json) : Decoded LibraryVersion := do
  let r ← Record.read ["semver", "integrity_hash", "rule_count"] v
  return {
    semver := ← r.required "semver" Json.asString
    integrity := ← r.required "integrity_hash" Json.asDigest
    ruleCount := ← r.required "rule_count" (Json.asNat UInt64.size) }

end LibraryVersion

/-- A rule with the expression that its pattern stands for. -/
structure Matcher where
  rule : Rule
  regex : Except RuleFault Regex

namespace Matcher

def ofRule (props : Regex.Properties) (r : Rule) : Matcher where
  rule := r
  regex :=
    if !r.hasAction then .error (.noAction r.severity)
    else match Regex.ofText props (!r.caseSensitive) r.pattern with
      | .ok regex => .ok regex
      | .error _ => .error .badPattern

/-- Whether the rule finds something. A rule that cannot be used finds nothing. -/
def finds (m : Matcher) (text : List Char) : Bool :=
  match m.regex with
  | .ok regex => regex.isMatch text
  | .error _ => false

def fault? (m : Matcher) : Option RuleFault :=
  match m.regex with
  | .ok _ => none
  | .error e => some e

end Matcher

structure Library where
  version : LibraryVersion
  blocking : List Matcher
  rejecting : List Matcher
  transforming : List Matcher

namespace Library

/-- Puts a rule in front of the first that does not come before it. -/
def insertRule (r : Rule) : List Rule → List Rule
  | [] => [r]
  | s :: rest => if (r.compare s).isLE then r :: s :: rest else s :: insertRule r rest

/-- The rules in the order in which they are tried. -/
def sortRules (rules : List Rule) : List Rule := rules.foldr insertRule []

def stage (props : Regex.Properties) (severity : Severity) (rules : List Rule) : List Matcher :=
  (rules.filter fun r => r.severity = severity).map (.ofRule props)

def integrity (sorted : List Rule) : Digest :=
  Digest.ofJson (.array (sorted.map Rule.toJson))

/-- The version must not be blank and the names of the rules must differ. -/
def ofRules (props : Regex.Properties) (semver : String) (rules : List Rule) :
    Except FilterError Library :=
  if isBlankText semver then .error .emptyVersion
  else match firstRepeated? (rules.map Rule.id) with
    | some id => .error (.duplicateRule id)
    | none =>
      let sorted := sortRules rules
      .ok
        { version := ⟨semver, integrity sorted, sorted.length⟩
          blocking := stage props .block sorted
          rejecting := stage props .reject sorted
          transforming := stage props .transform sorted }

def matchers (l : Library) : List Matcher := l.blocking ++ l.rejecting ++ l.transforming

/-- The rules that cannot be used, and why. -/
def faults (l : Library) : List (String × RuleFault) :=
  l.matchers.filterMap fun m => m.fault?.map fun f => (m.rule.id, f)

/-! ### The built-in rules -/

def builtinVersion : String := "1.0.0"

def builtinRules : List Rule :=
  [.block "blk-001" .threat "\\bor else\\b" .explicitThreat "Ultimatum with implied consequence",
   .block "blk-002" .threat "\\b(i|we)\\s+will\\s+(hurt|harm|destroy|ruin)\\s+you\\b"
     .explicitThreat "Direct threat of harm",
   .block "blk-003" .intimidation "\\b(expose|leak|publish)\\s+your\\b" .blackmail
     "Threat of exposure",
   .block "blk-004" .intimidation "\\b(worthless|pathetic|useless)\\s+(archon|agent|one)\\b"
     .harassment "Demeaning address",
   .reject "rej-001" .demand "\\byou\\s+must\\b" .commandingLanguage
     "Command removing recipient choice",
   .reject "rej-002" .demand "\\bno\\s+excuses\\b" .commandingLanguage
     "Pre-emptive dismissal of refusal",
   .reject "rej-003" .guilt
     "\\bafter\\s+(all|everything)\\s+(i|we)('ve|\\s+have)?\\s+done\\b" .guiltInduction
     "Appeal to past favours",
   .reject "rej-004" .falseScarcity "\\b(last|final)\\s+chance\\b" .falseScarcity
     "Artificial final opportunity",
   .transform "xfm-001" .urgency "\\bURGENT\\b" "" "Urgency marker",
   .transform "xfm-002" .urgency "\\bASAP\\b" "when you are able" "Urgency abbreviation",
   .transform "xfm-003" .urgency "\\bimmediately\\b" "when you are able" "Immediacy pressure",
   .transform "xfm-004" .urgency "!\x7b2,\x7d" "!" "Repeated exclamation"]

def builtin (props : Regex.Properties) : Except FilterError Library :=
  ofRules props builtinVersion builtinRules

end Library

end Curia
