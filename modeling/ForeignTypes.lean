import ForeignTypes.Inspect
import ForeignTypes.Ledger.Bench
import ForeignTypes.Ledger.Task
import ForeignTypes.Session.Command
import ForeignTypes.Proofs.Values
import ForeignTypes.Proofs.Custody
import ForeignTypes.Proofs.Posting
import ForeignTypes.Proofs.Running
import ForeignTypes.Proofs.Bookkeeping
import ForeignTypes.Proofs.Lending
import ForeignTypes.Proofs.Operations
import ForeignTypes.Proofs.Simulation
import ForeignTypes.Proofs.References
import ForeignTypes.Proofs.Pending
import ForeignTypes.Proofs.RoundTrip
import ForeignTypes.Proofs.Room
import ForeignTypes.Proofs.Sweeping
import ForeignTypes.Proofs.Layouts
import ForeignTypes.Proofs.Nesting
import ForeignTypes.Proofs.Placement
import ForeignTypes.Proofs.Alignment
import ForeignTypes.Proofs.Records
import ForeignTypes.Proofs.Course
import ForeignTypes.Proofs.Readiness
import ForeignTypes.Proofs.Depth
import ForeignTypes.Proofs.Typing
import ForeignTypes.Proofs.Tuning
import ForeignTypes.Proofs.Thresholds
import ForeignTypes.Proofs.Stores
import ForeignTypes.Proofs.Classes
import ForeignTypes.Proofs.Coverage
import ForeignTypes.Proofs.Contexts
import ForeignTypes.Proofs.Protocol
import ForeignTypes.Proofs.Termination
import ForeignTypes.Proofs.Stability
import ForeignTypes.Proofs.Mapping
import ForeignTypes.Proofs.Upkeep
import ForeignTypes.Proofs.Sizes
import ForeignTypes.Proofs.Outstanding
import ForeignTypes.Proofs.Agreement
import ForeignTypes.Proofs.WayBack
import ForeignTypes.Proofs.Normal
import ForeignTypes.Proofs.Reliance
import ForeignTypes.Proofs.Crossing
import ForeignTypes.Proofs.Failures
import ForeignTypes.Proofs.Owned
import ForeignTypes.Proofs.LayoutRules
import ForeignTypes.Proofs.Overflow
import ForeignTypes.Proofs.Magnitude
import ForeignTypes.Proofs.Packing
import ForeignTypes.Proofs.Tickets
import ForeignTypes.Proofs.Registrations
import ForeignTypes.Proofs.Shares
import ForeignTypes.Proofs.Initialization
import ForeignTypes.Proofs.Acceptance
import ForeignTypes.Proofs.Callables
import ForeignTypes.Proofs.Hashing
import ForeignTypes.Proofs.Grammar
import ForeignTypes.Proofs.Scanning
import ForeignTypes.Proofs.Arrangement
import ForeignTypes.Proofs.Provenance
import ForeignTypes.Proofs.Lookups
