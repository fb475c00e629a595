import Curia.Proofs.Chamber.Delivery
import Curia.Proofs.Chamber.Reasons
import Curia.Proofs.Chamber.Refusals
import Curia.Proofs.Chamber.Timing
import Curia.Proofs.Council.Attribution
import Curia.Proofs.Council.History
import Curia.Proofs.Council.Integrity
import Curia.Proofs.Council.Majority
import Curia.Proofs.Council.Roll
import Curia.Proofs.Council.Witnessing
import Curia.Proofs.Filter.Cleanness
import Curia.Proofs.Filter.Listing
import Curia.Proofs.Filter.Observers
import Curia.Proofs.Filter.Previews
import Curia.Proofs.Filter.Replaying
import Curia.Proofs.Filter.Secrecy
import Curia.Proofs.Filter.Settling
import Curia.Proofs.Filter.Spacing
import Curia.Proofs.Ledger.Archive
import Curia.Proofs.Locks
import Curia.Proofs.Router.Faithful
import Curia.Proofs.Router.Precheck
import Curia.Proofs.Router.Repetition
import Curia.Proofs.Router.Reporting
import Curia.Proofs.Router.Serving
import Curia.Proofs.Router.Traffic
import Curia.Proofs.Council.Indexes
import Curia.Proofs.Filter.Queries
import Curia.Proofs.Ledger.Corruption
import Curia.Proofs.Json.Canonical
import Curia.Proofs.Filter.Fingerprints
import Curia.Proofs.Hexadecimal
import Curia.Proofs.Records
import Curia.Proofs.Chamber.Settings
