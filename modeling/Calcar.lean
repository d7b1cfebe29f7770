import Calcar.Lib.Prog
import Calcar.Lib.Conc
import Calcar.Lib.TtlMap
import Calcar.Trust
import Calcar.Store.Pg
import Calcar.Store.Rd
import Calcar.World
import Calcar.Store.Postgres
import Calcar.Store.Combined
import Calcar.Api.Calls
import Calcar.Api.Mux
import Calcar.Api.Pairing
import Calcar.Api.Routes
import Calcar.Store.PgSteps
import Calcar.Verified.Issues
import Calcar.Verified.Rules
import Calcar.Store.Rows
import Calcar.Verified.Revocation
import Calcar.Verified.Requests
import Calcar.Verified.Tokens
import Calcar.Verified.Handlers
import Calcar.Verified.Stores
import Calcar.Verified.Registration
import Calcar.Agent.Catalog
import Calcar.Lib.Drain
import Calcar.Lib.Window
import Calcar.Verified.Outbox
import Calcar.Verified.Replay
import Calcar.Verified.Sockets
import Calcar.Agent.Machine
import Calcar.Agent.Requests
import Calcar.Agent.Server
import Calcar.Verified.Approvals
import Calcar.Lib.Wire
import Calcar.Phone.Signer
import Calcar.Verified.Signing
import Calcar.Phone.Pairing
import Calcar.Verified.Expiry
import Calcar.Verified.RequestTime
import Calcar.Phone.Inputs
import Calcar.Verified.Composing
import Calcar.Verified.Decisions
import Calcar.Verified.PendingRequests
import Calcar.Agent.Lifecycle
import Calcar.Verified.WorkflowStates
import Calcar.Verified.LifecycleLog
import Calcar.Verified.Recovery
import Calcar.Verified.Trail
import Calcar.Verified.Atomicity
import Calcar.Verified.Challenges
import Calcar.Verified.Permissions
import Calcar.Verified.PendingList
import Calcar.Verified.ApprovalIdentity
import Calcar.Verified.AdapterStream
import Calcar.Verified.RevokeMarks
import Calcar.Verified.HubDelivery
import Calcar.Verified.OneOwner
import Calcar.Verified.Presence
import Calcar.Verified.Rotation
import Calcar.Verified.OwnerSetup
import Calcar.Verified.Shutdown
import Calcar.Verified.TerminalStages
import Calcar.Store.Memory
import Calcar.Store.Migrate
import Calcar.Store.MigrateSteps
import Calcar.Lib.Newest
import Calcar.Agent.Exec
import Calcar.Verified.ExecTail
import Calcar.Verified.Migrations
import Calcar.Verified.MigrationFiles
import Calcar.Verified.TwoStores
import Calcar.Verified.Restore
import Calcar.Phone.Buffers
import Calcar.Phone.Workflow
import Calcar.Phone.DeviceList
import Calcar.Phone.Socket
import Calcar.Phone.Realtime
import Calcar.Phone.Reconnect
import Calcar.Phone.Update
import Calcar.Verified.WorkflowOrder
import Calcar.Verified.SingleResolve
import Calcar.Verified.StickyRevocation
import Calcar.Verified.InboundDelivery
import Calcar.Verified.Rotations
import Calcar.Verified.Banner
import Calcar.Verified.UpdateFlow
import Calcar.Verified.SessionCoherence
import Calcar.Lib.JsonText
import Calcar.Agent.Json
import Calcar.Verified.JsonGrammar
import Calcar.Verified.JsonRoundTrip
import Calcar.Verified.JsonLanguage
import Calcar.Verified.Chunks
import Calcar.Lib.Argv
import Calcar.Agent.CommandLine
import Calcar.Verified.CommandLine
import Calcar.Agent.Generic
import Calcar.Verified.GenericDrain
import Calcar.Verified.FailedSpawn
import Calcar.Verified.Bindings
import Calcar.Lib.WinPath
import Calcar.Verified.Tails
import Calcar.Agent.Registry
import Calcar.Verified.Registry
import Calcar.Verified.FailedDecisions
import Calcar.Lib.Segments
import Calcar.Agent.Routing
import Calcar.Phone.AgentUrl
import Calcar.Verified.LossyText
import Calcar.Verified.AgentRoutes
import Calcar.Lib.Walk
import Calcar.Agent.JsonBytes
import Calcar.Verified.JsonBytes
import Calcar.Verified.JsonPositions
import Calcar.Lib.Utf8
import Calcar.Lib.TextWalk
import Calcar.Verified.GrantRows
import Calcar.Verified.GrantBinding
import Calcar.Lib.Bits
import Calcar.Verified.NonceText
import Calcar.Lib.Decimal
import Calcar.Lib.Keyed
import Calcar.Trust.SeenIds
import Calcar.Trust.Approvals
import Calcar.Verified.ReplayCache
import Calcar.Verified.ApprovalRegistry
import Calcar.Verified.AttentionQueue
import Calcar.Verified.ContextBinding
import Calcar.Verified.DecisionWindow
import Calcar.Verified.SessionCrash
import Calcar.Phone.SnapshotSource
import Calcar.Verified.DeviceRows
import Calcar.Verified.DecisionKeys
import Calcar.Verified.Renames
import Calcar.Verified.Capture
import Calcar.Verified.PercentDecode
import Calcar.Verified.Upserts
import Calcar.Lib.Budget
import Calcar.Verified.Truncation
import Calcar.Lib.Utf16
import Calcar.Phone.Caps
import Calcar.Verified.TerminalCap
import Calcar.Verified.DiffCap
import Calcar.Lib.Percent
import Calcar.Phone.DeepLink
import Calcar.Verified.DeepLinks
import Calcar.Phone.Cache
import Calcar.Verified.CacheTransparency
import Calcar.Lib.Aligned
import Calcar.Phone.Backoff
import Calcar.Verified.Backoff
import Calcar.Verified.Dialer
