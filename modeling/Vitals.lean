import Vitals.Main
import Vitals.Proofs.Aggregation
import Vitals.Proofs.CommandLine.Binding
import Vitals.Proofs.CommandLine.ExitCodes
import Vitals.Proofs.Config.Enrolment
import Vitals.Proofs.Config.Missing
import Vitals.Proofs.Config.References
import Vitals.Proofs.Config.Replacing
import Vitals.Proofs.Config.RoundTrip
import Vitals.Proofs.Config.Substitution
import Vitals.Proofs.Config.Validity
import Vitals.Proofs.Data.Documents
import Vitals.Proofs.Data.Entries
import Vitals.Proofs.Data.Reordering
import Vitals.Proofs.Decimal.Order
import Vitals.Proofs.Execution.Race
import Vitals.Proofs.Execution.Records
import Vitals.Proofs.Polling.Charges
import Vitals.Proofs.Polling.Effects
import Vitals.Proofs.Polling.Fate
import Vitals.Proofs.Polling.Names
import Vitals.Proofs.Polling.Ownership
import Vitals.Proofs.Polling.Pace
import Vitals.Proofs.Polling.Regularity
import Vitals.Proofs.Polling.Runs
import Vitals.Proofs.Polling.Silence
import Vitals.Proofs.Polling.Splitting
import Vitals.Proofs.Polling.Timers
import Vitals.Proofs.Polling.Turns
import Vitals.Proofs.Probes.Mounts
import Vitals.Proofs.Probes.Redirects
import Vitals.Proofs.Registry.Coherence
import Vitals.Proofs.Registry.FanOut
import Vitals.Proofs.Registry.Inquiries
import Vitals.Proofs.Registry.Isolation
import Vitals.Proofs.Registry.Names
import Vitals.Proofs.Registry.OnDemand
import Vitals.Proofs.Registry.Order
import Vitals.Proofs.Registry.Ownership
import Vitals.Proofs.Registry.Pace
import Vitals.Proofs.Registry.Provenance
import Vitals.Proofs.Registry.Refusal
import Vitals.Proofs.Registry.Runs
import Vitals.Proofs.Registry.Teardown
import Vitals.Proofs.Registry.Timeline
import Vitals.Proofs.Registry.Verdict
import Vitals.Proofs.Reports.RoundTrip
import Vitals.Proofs.Text.Digits
import Vitals.Proofs.Text.Parts
import Vitals.Proofs.Time.Calendar
import Vitals.Proofs.Time.Timestamps
import Vitals.Proofs.Web.Addresses
import Vitals.Proofs.Web.Literals
import Vitals.Proofs.Web.Reports
import Vitals.Proofs.Text.Parts
import Vitals.Proofs.Web.Literals
