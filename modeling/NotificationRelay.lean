import NotificationRelay.Gateway.Router
import NotificationRelay.Main
import NotificationRelay.Query.Search
import NotificationRelay.Proofs.Run.Trace
import NotificationRelay.Proofs.Run.Weave
import NotificationRelay.Proofs.Run.Aspect
import NotificationRelay.Proofs.Run.Calls
import NotificationRelay.Proofs.Run.History
import NotificationRelay.Proofs.Run.Course
import NotificationRelay.Proofs.Run.Discipline
import NotificationRelay.Proofs.Store.Coherence
import NotificationRelay.Proofs.Store.Operations
import NotificationRelay.Proofs.Flow.Standing
import NotificationRelay.Proofs.Flow.Ledger
import NotificationRelay.Proofs.Flow.Passes
import NotificationRelay.Proofs.Flow.Settling
import NotificationRelay.Proofs.Flow.Recovery
import NotificationRelay.Proofs.Flow.Repetition
import NotificationRelay.Proofs.Store.Index
import NotificationRelay.Proofs.Flow.Indexing
import NotificationRelay.Proofs.Store.Origin
import NotificationRelay.Proofs.Session.Binding
import NotificationRelay.Proofs.Address.NormalForm
import NotificationRelay.Proofs.Query.Scan
import NotificationRelay.Proofs.Broadcast.Watermark
import NotificationRelay.Proofs.Broadcast.Order
import NotificationRelay.Proofs.Broadcast.Publishing
import NotificationRelay.Proofs.Session.Addressing
import NotificationRelay.Proofs.Flow.Overtaking
import NotificationRelay.Proofs.Flow.Filing
import NotificationRelay.Proofs.Run.Roles
import NotificationRelay.Proofs.Flow.Exclusion
import NotificationRelay.Proofs.Flow.Flight
import NotificationRelay.Proofs.Run.Script
import NotificationRelay.Proofs.Run.Likeness
import NotificationRelay.Proofs.Session.Isolation
import NotificationRelay.Proofs.Flow.Handling
import NotificationRelay.Proofs.Session.Roster
import NotificationRelay.Proofs.Flow.Delivery
import NotificationRelay.Proofs.Flow.Telling
import NotificationRelay.Proofs.Run.Interleaving
import NotificationRelay.Proofs.Broadcast.Linearization
import NotificationRelay.Proofs.Store.Reachability
import NotificationRelay.Proofs.Flow.Acts
import NotificationRelay.Proofs.Flow.Adding
import NotificationRelay.Proofs.Flow.Abandonment
import NotificationRelay.Proofs.Broadcast.Republication
import NotificationRelay.Proofs.Query.Drawing
import NotificationRelay.Proofs.Flow.Deletion
import NotificationRelay.Proofs.Flow.Residue
import NotificationRelay.Proofs.Run.Promise
import NotificationRelay.Proofs.Flow.Lifetime
import NotificationRelay.Proofs.Flow.Assurance
import NotificationRelay.Proofs.Session.Admission
import NotificationRelay.Proofs.Session.Joining
import NotificationRelay.Proofs.Session.Waiting
import NotificationRelay.Proofs.Run.Portion
import NotificationRelay.Proofs.Session.Offering
import NotificationRelay.Proofs.Session.Stream
import NotificationRelay.Proofs.Session.Membership
import NotificationRelay.Proofs.Address.Spelling
import NotificationRelay.Proofs.Flow.Lifecycle
import NotificationRelay.Proofs.Flow.Indifference
import NotificationRelay.Proofs.Flow.Batching
import NotificationRelay.Proofs.Json.Order
import NotificationRelay.Proofs.Payload.Format
import NotificationRelay.Proofs.Query.Export
import NotificationRelay.Proofs.Flow.Account
import NotificationRelay.Proofs.Session.Dispatching
import NotificationRelay.Proofs.Session.Rebinding
import NotificationRelay.Proofs.Flow.Draining
import NotificationRelay.Proofs.Flow.Entries
import NotificationRelay.Proofs.Flow.Waking
import NotificationRelay.Proofs.Run.Beginning
import NotificationRelay.Proofs.Flow.Retrying
import NotificationRelay.Proofs.Flow.Exhaustion
import NotificationRelay.Proofs.Flow.Sweeping
import NotificationRelay.Proofs.Text.Trimming
import NotificationRelay.Proofs.Text.Lowering
import NotificationRelay.Proofs.Text.Casing
import NotificationRelay.Proofs.Address.Identity
import NotificationRelay.Proofs.Query.Searching
import NotificationRelay.Proofs.Query.Slicing
import NotificationRelay.Proofs.Query.Occurrence
import NotificationRelay.Proofs.Flow.Acceptance
import NotificationRelay.Proofs.Query.Recasing
import NotificationRelay.Proofs.Query.Browsing
import NotificationRelay.Proofs.Query.Subscribing
import NotificationRelay.Proofs.Calendar.Windows
