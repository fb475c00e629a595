import Curia.Council.Resolution
import Curia.Filter.Basic
import Curia.Json.Reader
import Curia.Router.Pipeline

/-!
The settings of a chamber, read from a JSON text. Every section may be left out and then has its
standard value.
-/

namespace Curia

structure FilterConfig where
  version : String
  budget : Nat
  deriving DecidableEq

structure Config where
  permitted : SortedSet Outcome
  filter : FilterConfig
  routing : RoutingTable
  /-- Where the ledger is kept on disk, if it is. -/
  ledgerPath : Option String
  deriving DecidableEq

/-- What is wrong with settings. -/
inductive ConfigFault where
  | unreadable
  | noOutcomes
  | blankVersion
  | zeroBudget
  | unrouted (outcomes : List Outcome)
  deriving DecidableEq

def ConfigFault.message : ConfigFault → String
  | unreadable => "invalid configuration"
  | noOutcomes => "consensus.permitted_outcomes must not be empty"
  | blankVersion => "filter.filter_version must not be empty"
  | zeroBudget => "filter.processing_budget_ms must be greater than zero"
  | unrouted os =>
    let names := ", ".intercalate (os.map Outcome.name)
    s!"permitted outcomes without a pipeline: {names}"

namespace FilterConfig

def standard : FilterConfig := ⟨Filter.standardVersion, Filter.standardBudget⟩

def toJson (c : FilterConfig) : Json :=
  .record [("filter_version", .string c.version), ("processing_budget_ms", .nat c.budget)]

def ofJson (v : Json) : Decoded FilterConfig := do
  let r ← Record.read ["filter_version", "processing_budget_ms"] v
  return {
    version := ← r.withDefault "filter_version" standard.version Json.asString
    budget := ← r.withDefault "processing_budget_ms" standard.budget (Json.asNat UInt64.size) }

end FilterConfig

namespace Config

def standard : Config := ⟨Resolver.default.permitted, .standard, .standard, none⟩

def consensusJson (permitted : SortedSet Outcome) : Json :=
  .record [("permitted_outcomes", .array (permitted.toList.map Named.toJson))]

def consensusOfJson (v : Json) : Decoded (SortedSet Outcome) := do
  let r ← Record.read ["permitted_outcomes"] v
  return .ofList (← r.required "permitted_outcomes" (Json.asList Named.ofJson))

def routerJson (routing : RoutingTable) : Json := .record [("routing", routing.toJson)]

def routerOfJson (v : Json) : Decoded RoutingTable := do
  let r ← Record.read ["routing"] v
  r.required "routing" RoutingTable.ofJson

def ledgerJson (path : Option String) : Json := .record [("db_path", .ofOption .string path)]

def ledgerOfJson (v : Json) : Decoded (Option String) := do
  let r ← Record.read ["db_path"] v
  r.optional "db_path" Json.asString

def toJson (c : Config) : Json :=
  .record
    [("consensus", consensusJson c.permitted),
     ("filter", c.filter.toJson),
     ("router", routerJson c.routing),
     ("ledger", ledgerJson c.ledgerPath)]

def ofJson (v : Json) : Decoded Config := do
  let r ← Record.read ["consensus", "filter", "router", "ledger"] v
  return {
    permitted := ← r.withDefault "consensus" standard.permitted consensusOfJson
    filter := ← r.withDefault "filter" standard.filter FilterConfig.ofJson
    routing := ← r.withDefault "router" standard.routing routerOfJson
    ledgerPath := ← r.withDefault "ledger" standard.ledgerPath ledgerOfJson }

def ofText (text : String) : Except ConfigFault Config :=
  match Json.parse text with
  | none => .error .unreadable
  | some v => match ofJson v with
    | .ok c => .ok c
    | .error _ => .error .unreadable

/-- The permitted outcomes that no petition could be routed for. -/
def unrouted (c : Config) : List Outcome :=
  c.permitted.toList.filter fun o => !SortedMap.contains c.routing o

/-- The first thing that is wrong with the settings, if anything is. -/
def fault? (c : Config) : Option ConfigFault :=
  if c.permitted.isEmpty then some .noOutcomes
  else if isBlankText c.filter.version then some .blankVersion
  else if c.filter.budget = 0 then some .zeroBudget
  else if c.unrouted ≠ [] then some (.unrouted c.unrouted)
  else none

end Config

end Curia
