import Curia.Filter.Rule
import Curia.Ledger.Error

/-!
What the filter can fail with besides refusing a message, with the wording of each failure.
-/

namespace Curia

/-- Why a rule cannot be used. -/
inductive RuleFault where
  /-- The rule does not say what its severity needs to be told. -/
  | noAction (severity : Severity)
  /-- The text of the pattern cannot be read. -/
  | badPattern
  deriving DecidableEq

def RuleFault.message : RuleFault → String
  | noAction s => s!"{s.label} pattern is missing its action field"
  | badPattern => "regex"

inductive FilterError where
  | emptyVersion
  | duplicateRule (id : String)
  | alreadyLogged (id : DecisionId)
  | storeUnavailable (id : DecisionId)
  | ledger (error : LedgerError)
  deriving DecidableEq

namespace FilterError

/-- The name under which a caller tells errors apart; for an error of the ledger, the way to it. -/
def kind : FilterError → String
  | emptyVersion => "EmptyLibraryVersion"
  | duplicateRule _ => "DuplicatePattern"
  | alreadyLogged _ => "DecisionStore"
  | storeUnavailable _ => "DecisionStore"
  | ledger e => s!"Ledger.{e.kind}"

def storeMessage (id : DecisionId) (detail : String) : String :=
  s!"Decision log storage error for decision {id.uuid.toString}: {detail}"

def message : FilterError → String
  | emptyVersion => "Pattern library version must not be empty"
  | duplicateRule id => s!"Duplicate pattern id '{id}' in pattern library"
  | alreadyLogged id => storeMessage id "decision already logged"
  | storeUnavailable id => storeMessage id "store unavailable"
  | ledger e => s!"Ledger error: {e.message}"

end FilterError

end Curia
