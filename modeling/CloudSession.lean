import CloudSession.Http.Rehearsal
import CloudSession.Inspect
import CloudSession.Proofs.Activity.Behavior
import CloudSession.Schedule
import CloudSession.Session
import CloudSession.Signing.Stage
import CloudSession.Proofs.TokenManager.Refresh
import CloudSession.Proofs.TokenManager.Tasks
import CloudSession.Proofs.CredentialsCache.Retrieve
import CloudSession.Proofs.Schedule.Orderly
import CloudSession.Proofs.Schedule.Turn
import CloudSession.Proofs.Interplay.Operation
import CloudSession.Proofs.Interplay.Run
import CloudSession.Proofs.Interplay.Soundness
import CloudSession.Proofs.Interplay.Story
import CloudSession.Proofs.TokenManager.Success
import CloudSession.Proofs.Interplay.LastSuccess
import CloudSession.Proofs.Interplay.SingleFlight
import CloudSession.Proofs.Interplay.Expiry
import CloudSession.Proofs.Interplay.Freshness
import CloudSession.Proofs.Text.Blank
import CloudSession.Proofs.Profile.Grammar
import CloudSession.Proofs.Table
import CloudSession.Proofs.Profile.Written
import CloudSession.Proofs.Profile.Printed
import CloudSession.Proofs.Session.Rules
import CloudSession.Proofs.Session.Settings
import CloudSession.Proofs.Session.Precedence
import CloudSession.Proofs.CredentialsCache.Stage
import CloudSession.Proofs.Interleaving.Run
import CloudSession.Proofs.Interplay.Threads
import CloudSession.Proofs.Interleaving.Scene
import CloudSession.Proofs.Interleaving.Staging
import CloudSession.Proofs.Interleaving.NoExpiryLost
import CloudSession.Proofs.Schedule.Stride
import CloudSession.Proofs.Profile.LastDefinition
import CloudSession.Proofs.Profile.Merged
import CloudSession.Proofs.Profile.Loaded
import CloudSession.Proofs.Profile.AnyOrder
import CloudSession.Proofs.Activity.Spares
import CloudSession.Proofs.Role.Stage
import CloudSession.Proofs.Role.Scene
import CloudSession.Proofs.Role.Staging
import CloudSession.Proofs.Role.NeverExpired
import CloudSession.Proofs.Session.Outcome
import CloudSession.Proofs.Session.ListedFiles
import CloudSession.Proofs.Session.RoleDirectives
import CloudSession.Proofs.Activity.Territory
import CloudSession.Proofs.Interleaving.Reach
import CloudSession.Proofs.Interleaving.Callers
import CloudSession.Proofs.Interleaving.Admission
import CloudSession.Proofs.Interleaving.Decisions
import CloudSession.Proofs.Chain.Retrieval
import CloudSession.Proofs.Chain.Conclusion
import CloudSession.Proofs.Chain.Provenance
import CloudSession.Proofs.Background.Loop
import CloudSession.Proofs.Background.Tended
import CloudSession.Proofs.Interplay.Discarded
import CloudSession.Proofs.Interplay.Lifecycle
import CloudSession.Proofs.Activity.Contract
import CloudSession.Proofs.Signing.AllOrNothing
import CloudSession.Proofs.Activity.Law
import CloudSession.Proofs.Background.Frame
import CloudSession.Proofs.Interplay.Remaining
import CloudSession.Proofs.TokenManager.Faults
import CloudSession.Proofs.TokenManager.DefaultTimes
import CloudSession.Proofs.Interplay.RefreshTimes
import CloudSession.Proofs.Background.Advice
import CloudSession.Proofs.Interplay.Advice
import CloudSession.Proofs.Schedule.Asleep
import CloudSession.Proofs.Background.Attempt
import CloudSession.Proofs.Background.Pace
import CloudSession.Proofs.Interplay.Bystander
import CloudSession.Proofs.Interplay.Pace
import CloudSession.Proofs.Text.Replace
import CloudSession.Proofs.Endpoint.Scheme
import CloudSession.Proofs.Endpoint.Template
import CloudSession.Proofs.Session.Copies
import CloudSession.Proofs.Session.FirstFailure
import CloudSession.Proofs.Interleaving.Interruption
import CloudSession.Proofs.Interleaving.Noted
import CloudSession.Proofs.Interleaving.Dropped
import CloudSession.Proofs.Certificate.Occurrence
import CloudSession.Proofs.Certificate.Scan
import CloudSession.Proofs.Certificate.Dashless
