import Supplementary.Review.Aggregate
import Supplementary.Review.Feasible
import Supplementary.Review.Quoting
import Supplementary.Review.Content
import Supplementary.Provider.BudgetRuns
import Supplementary.Gateway.OneShot
import Supplementary.Gateway.Preflight
import Supplementary.Gateway.Guard
import Supplementary.Gateway.Streams
import Supplementary.Keycloak.Frame
import Supplementary.Caller.OneSend
import Supplementary.Atomic.UnlinkOutcome
import Supplementary.Atomic.PathAgree
import Supplementary.Atomic.Workspace
import Supplementary.Atomic.Walk
import Supplementary.Native.Election
import Supplementary.Native.Paging
import Supplementary.Continuation.Consumed
import Supplementary.Recovery.Workers
import Supplementary.Promotion.Snapshot
import Supplementary.Push.Exact
import Supplementary.Push.Fingerprint
import Supplementary.Push.Untracked
import Supplementary.Push.Terms
import Supplementary.Push.Filter
import Supplementary.Push.Quoting
import Supplementary.Materialize.Output
import Supplementary.Receipt.OneRun
import Supplementary.Security.Stages
import Supplementary.Security.Contract
import Supplementary.Security.Manifest
import Supplementary.Roles.Executed
import Supplementary.Release.Prepared
import Supplementary.Release.Export
import Supplementary.Release.Classify
import Supplementary.Release.BackSync
import Supplementary.Quality.Selected
import Supplementary.Evidence.Install
import Supplementary.Evidence.Verdict
import Supplementary.Evidence.Structured
import Supplementary.Reconcile.Search
import Supplementary.Archive.Replayed
import Supplementary.Evidence.Gate
import Supplementary.Recovery.Authority
import Supplementary.Nexus.Exact
import Supplementary.Nexus.Accepted
import Supplementary.Reconcile.Granted
