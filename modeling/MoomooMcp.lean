import MoomooMcp.Machine
import MoomooMcp.CriticalSection
import MoomooMcp.Table
import MoomooMcp.Broker
import MoomooMcp.OrderErrors
import MoomooMcp.ExecutionStore
import MoomooMcp.System
import MoomooMcp.Commits
import MoomooMcp.Transitions
import MoomooMcp.AtMostOnce
import MoomooMcp.Blocking
import MoomooMcp.NotSent
import MoomooMcp.Visibility
import MoomooMcp.Lockout
import MoomooMcp.Accounting
import MoomooMcp.Executor
import MoomooMcp.Moves
import MoomooMcp.Frames
import MoomooMcp.Ownership
import MoomooMcp.Invariant
import MoomooMcp.Preservation
import MoomooMcp.Guards
import MoomooMcp.Rows
import MoomooMcp.Blame
import MoomooMcp.Backoff
import MoomooMcp.Schedule
import MoomooMcp.LateOrders
import MoomooMcp.Decimal
import MoomooMcp.Intent
import MoomooMcp.TradingControls
import MoomooMcp.Reservations
import MoomooMcp.Budget
import MoomooMcp.Gateway
import MoomooMcp.Threads
import MoomooMcp.Window
import MoomooMcp.AtRest
import MoomooMcp.Halt
import MoomooMcp.Pauses
import MoomooMcp.ControlContext
import MoomooMcp.Backing
import MoomooMcp.StateMachine
import MoomooMcp.RollingWindow
import MoomooMcp.Numbers
import MoomooMcp.RateLimit
import MoomooMcp.Quota
import MoomooMcp.QuotaRuns
import MoomooMcp.BrokerDispatch
import MoomooMcp.RequestPools
import MoomooMcp.DispatchLease
import MoomooMcp.LeaseMoves
import MoomooMcp.Custody
import MoomooMcp.Retention
import MoomooMcp.LeaseRuns
import MoomooMcp.OrderRules
import MoomooMcp.ClientAuthorization
import MoomooMcp.Accounts
import MoomooMcp.OrderContract
import MoomooMcp.PaperRequests
import MoomooMcp.WindowedLog
import MoomooMcp.TradeEvents
import MoomooMcp.EventReaders
import MoomooMcp.EventWindow
import MoomooMcp.EventDelivery
import MoomooMcp.RecoveryEvidence
import MoomooMcp.Checks
import MoomooMcp.EvidenceRows
import MoomooMcp.Rounding
import MoomooMcp.RowOrder
import MoomooMcp.AccountedRows
import MoomooMcp.MutationAccounting
import MoomooMcp.PlacementAccounting
import MoomooMcp.OwnOrder
import MoomooMcp.CrashPoints
import MoomooMcp.StoreOpening
import MoomooMcp.Reopening
import MoomooMcp.StoreCalls
import MoomooMcp.ControlsOpening
import MoomooMcp.Initialisation
import MoomooMcp.CanonicalNumbers
import MoomooMcp.JsonText
import MoomooMcp.Json
import MoomooMcp.JsonRoundTrip
import MoomooMcp.Readings
import MoomooMcp.RealIdentity
import MoomooMcp.ValueEquality
import MoomooMcp.PaperIdentity
import MoomooMcp.Raising
import MoomooMcp.PreDispatch
import MoomooMcp.PaperBoundary
import MoomooMcp.RealBoundary
import MoomooMcp.WriteBoundary
import MoomooMcp.ApprovalIntent
import MoomooMcp.Magnitude
import MoomooMcp.PriceGrid
import MoomooMcp.TradingPolicy
import MoomooMcp.Valuation
import MoomooMcp.Chronicle
import MoomooMcp.Supervisor
import MoomooMcp.SupervisorRuns
import MoomooMcp.RestartPolicy
import MoomooMcp.PaperAdmission
import MoomooMcp.OrderedDict
import MoomooMcp.InstrumentMetadata
import MoomooMcp.MetadataCache
import MoomooMcp.ConstantProvider
import MoomooMcp.QuerySnapshots
import MoomooMcp.Pagination
import MoomooMcp.SnapshotWalk
import MoomooMcp.TradeConnection
import MoomooMcp.ConnectionOwners
import MoomooMcp.Base64
import MoomooMcp.Calendar
import MoomooMcp.Continuation
import MoomooMcp.KlineCursor
import MoomooMcp.KlineTraversal
import MoomooMcp.ReadBounds
import MoomooMcp.Waiters
import MoomooMcp.BudgetSums
import MoomooMcp.Serialization
import MoomooMcp.Doubles
import MoomooMcp.TradePreparation
import MoomooMcp.TradeExecution
import MoomooMcp.ReviewedOrders
import MoomooMcp.Approvals
import MoomooMcp.ApprovedExecution
import MoomooMcp.Words
import MoomooMcp.BoundedProbe
import MoomooMcp.Health
import MoomooMcp.RecoveryWorker
import MoomooMcp.KnownOperations
import MoomooMcp.Sessions
import MoomooMcp.ReadScope
import MoomooMcp.Trail
import MoomooMcp.ToolErrors
import MoomooMcp.AgentServer
import MoomooMcp.Ledger
import MoomooMcp.LedgerRefinement
import MoomooMcp.AwaitFutures
import MoomooMcp.Settings
import MoomooMcp.HttpServer
import MoomooMcp.Deployments
import MoomooMcp.QueryContracts
import MoomooMcp.ServiceLifecycle
import MoomooMcp.TradingCapabilities
import MoomooMcp.AdmissionPlans
