import Curia.Chamber.Config
import Curia.Router.Error

/-!
Everything that a chamber can fail with.
-/

namespace Curia

inductive DeliveryError where
  | unknownRecipient (recipient : String)
  | linkDown (recipient : String)
  deriving DecidableEq

/-- The name under which a caller tells errors apart. -/
def DeliveryError.kind : DeliveryError → String
  | unknownRecipient _ => "UnknownRecipient"
  | linkDown _ => "Transport"

def DeliveryError.message : DeliveryError → String
  | unknownRecipient r => s!"Recipient '{r}' is unknown"
  | linkDown r => s!"Delivery to '{r}' failed: link down"

inductive ChamberError where
  | config (fault : ConfigFault)
  /-- There is no file of settings. -/
  | noFile
  | council (error : CouncilError)
  | filter (error : FilterError)
  | routing (error : RoutingError)
  | ledger (error : LedgerError)
  | delivery (error : DeliveryError)
  deriving DecidableEq

/-- The way to the kind of error, from the part of the chamber that it comes from. -/
def ChamberError.kind : ChamberError → String
  | config _ => "Config"
  | noFile => "Io.Os"
  | council e => s!"Council.{e.kind}"
  | filter e => s!"Filter.{e.kind}"
  | routing e => s!"Routing.{e.kind}"
  | ledger e => s!"Ledger.{e.kind}"
  | delivery e => s!"Delivery.{e.kind}"

def ChamberError.message : ChamberError → String
  | config f => s!"Configuration error: {f.message}"
  | noFile => "I/O error: No such file or directory (os error 2)"
  | council e => s!"Council error: {e.message}"
  | filter e => s!"Filter error: {e.message}"
  | routing e => s!"Routing error: {e.message}"
  | ledger e => s!"Ledger error: {e.message}"
  | delivery e => s!"Delivery error: {e.message}"

end Curia
