import TaskFleet.Audit
import TaskFleet.Config.Environment
import TaskFleet.Error
import TaskFleet.Ledger.View
import TaskFleet.Preemption
import TaskFleet.Rehearsal.Drill
import TaskFleet.Rehearsal.Session
import TaskFleet.Proofs.Ledger.Operations
import TaskFleet.Proofs.Ledger.Ownership
import TaskFleet.Proofs.Ledger.Lifecycle
import TaskFleet.Proofs.Dispatch.Tracker
import TaskFleet.Proofs.Dispatch.Pool
import TaskFleet.Proofs.Dispatch.Workshop
import TaskFleet.Proofs.Dispatch.Order
import TaskFleet.Proofs.Reuse
import TaskFleet.Proofs.Preemption
import TaskFleet.Proofs.Ledger.Takings
import TaskFleet.Proofs.Ledger.Shedding
import TaskFleet.Proofs.Scheduler.Walk
import TaskFleet.Proofs.Scheduler.Conservation
import TaskFleet.Proofs.Scheduler.Decision
import TaskFleet.Proofs.Scheduler.Events
import TaskFleet.Proofs.Scheduler.Operations
import TaskFleet.Proofs.Scheduler.Run
import TaskFleet.Proofs.Scheduler.Protocol
import TaskFleet.Proofs.Scheduler.Away
import TaskFleet.Proofs.Scheduler.Returned
import TaskFleet.Proofs.Scheduler.RequestLife
import TaskFleet.Proofs.Scheduler.Submission
import TaskFleet.Proofs.Scheduler.Allocation
import TaskFleet.Proofs.Rehearsal.Session
import TaskFleet.Proofs.Ledger.Outstanding
import TaskFleet.Proofs.Ledger.Matching
import TaskFleet.Proofs.Scheduler.Grants
import TaskFleet.Proofs.Scheduler.Locality
import TaskFleet.Proofs.Scheduler.Courier
import TaskFleet.Proofs.Scheduler.Flush
import TaskFleet.Proofs.Scheduler.Fate
import TaskFleet.Proofs.Scheduler.Notices
import TaskFleet.Proofs.Scheduler.Unheard
import TaskFleet.Proofs.Scheduler.Filing
import TaskFleet.Proofs.Scheduler.Trail
import TaskFleet.Proofs.Ledger.History
import TaskFleet.Proofs.Dispatch.Closed
import TaskFleet.Proofs.Scheduler.Silence
import TaskFleet.Proofs.Scheduler.Stopped
import TaskFleet.Proofs.Scheduler.Race
import TaskFleet.Proofs.Scheduler.Fitting
import TaskFleet.Proofs.Identifier
import TaskFleet.Proofs.Fit
import TaskFleet.Proofs.Ranking
import TaskFleet.Proofs.Plan
import TaskFleet.Proofs.Superfluous
import TaskFleet.Proofs.Scheduler.Offer
import TaskFleet.Proofs.Ledger.Nearest
import TaskFleet.Proofs.Ledger.Refusals
import TaskFleet.Proofs.Scheduler.Failure
import TaskFleet.Proofs.Ledger.Tenancy
import TaskFleet.Proofs.Ledger.Identity
import TaskFleet.Proofs.Ledger.Totals
import TaskFleet.Proofs.Ledger.Independence
import TaskFleet.Proofs.Scheduler.Draining
import TaskFleet.Proofs.Scheduler.Expiry
import TaskFleet.Proofs.Dispatch.Counters
import TaskFleet.Proofs.Scheduler.Spared
import TaskFleet.Proofs.Scheduler.Postbox
import TaskFleet.Proofs.Scheduler.Reports
import TaskFleet.Proofs.Interchange
import TaskFleet.Proofs.Text.Reading
import TaskFleet.Proofs.Json.Token
import TaskFleet.Proofs.Json.Document
import TaskFleet.Proofs.Json.Codec
import TaskFleet.Proofs.Json.Values
import TaskFleet.Proofs.Config.Settings
import TaskFleet.Proofs.Config.Document
import TaskFleet.Proofs.Config.Environment
import TaskFleet.Proofs.Audit
import TaskFleet.Proofs.Budget
