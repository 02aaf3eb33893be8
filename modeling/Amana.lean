import Amana.Lib.Store
import Amana.Lib.MachineInt
import Amana.Lib.Guard
import Amana.Lib.Machine
import Amana.Lib.Token
import Amana.Escrow.Types
import Amana.Escrow.Events
import Amana.Escrow.State
import Amana.Escrow.Admin
import Amana.Escrow.Lifecycle
import Amana.Escrow.Dispute
import Amana.Escrow.Evidence
import Amana.Escrow.Timelock
import Amana.Escrow.Contract
import Amana.Escrow.Effect
import Amana.Escrow.WellFormed
import Amana.Escrow.Records
import Amana.Escrow.Identifiers
import Amana.Escrow.Offers
import Amana.Escrow.Vault
import Amana.Escrow.StateMachine
import Amana.Escrow.MoneyFlow
import Amana.Escrow.Solvency
import Amana.Escrow.Conservation
import Amana.Escrow.Accounting
import Amana.Escrow.PathPayment
import Amana.Escrow.Funding
import Amana.Escrow.Pause
import Amana.Escrow.ClawbackParity
import Amana.Escrow.Operations
import Amana.Escrow.TimelockSafety
import Amana.Escrow.Deadlines
import Amana.Escrow.ExtensionStatus
import Amana.Escrow.Folder
import Amana.Escrow.History
import Amana.Escrow.ReleaseSequence
import Amana.Escrow.Freshness
import Amana.Escrow.Counters
import Amana.Escrow.Mediation
import Amana.Escrow.Wrap
import Amana.Escrow.Quorum
import Amana.Escrow.Fallback
import Amana.Escrow.Plurality
import Amana.Escrow.Limits
import Amana.Escrow.Settlement
import Amana.Escrow.AuditTrail
import Amana.Escrow.Authorization
import Amana.Escrow.StreamAccounting
import Amana.Backend.Decoder
import Amana.Backend.PendingTrades
import Amana.Lib.Database
import Amana.Backend.Schema
import Amana.Backend.Handlers
import Amana.Escrow.Emission
import Amana.Backend.Projection
import Amana.Backend.ChainStatus
import Amana.Backend.Reordering
import Amana.Backend.Disputes
import Amana.Lib.ReadCommitted
import Amana.Lib.ReadCommittedRules
import Amana.Backend.Workers
import Amana.Backend.TerminalTrades
import Amana.Backend.Outbox
import Amana.Backend.Listener
import Amana.Backend.Attempts
import Amana.Backend.Cursor
import Amana.Lib.Text
import Amana.Lib.Jobs
import Amana.Backend.PayoutIntents
import Amana.Backend.MilestoneRelease
import Amana.Backend.PayoutFinality
import Amana.Backend.AppliedPayouts
import Amana.Backend.LivePayouts
import Amana.Lib.Expiring
import Amana.Backend.Redis
import Amana.Backend.AuthStore
import Amana.Backend.AdminSessions
import Amana.Backend.Auth
import Amana.Backend.AuthRoutes
import Amana.Backend.AuthFrame
import Amana.Backend.Revocation
import Amana.Backend.TokenFamilies
import Amana.Lib.Timeline
import Amana.Backend.TradeHistory
import Amana.Backend.Money
import Amana.Backend.TradeIntake
import Amana.Backend.StoredAmounts
import Amana.Backend.WalletIdentity
import Amana.Lib.HashChain
import Amana.Backend.AuditChain
import Amana.Backend.AuditWriters
import Amana.Backend.DisputeVersions
import Amana.Backend.Idempotency
import Amana.Backend.IdempotentReplay
import Amana.Backend.IdempotentExecution
import Amana.Backend.IdempotentCallers
import Amana.Backend.ClawbackLock
import Amana.Backend.SessionRevocation
import Amana.Backend.RefreshOnce
import Amana.Backend.ClawbackMirror
import Amana.Backend.Fees
import Amana.Backend.MediatorQuorum
import Amana.Backend.QuorumForecast
import Amana.Backend.StreamTermination
import Amana.Backend.ReleaseSchedule
import Amana.Backend.ReleasedMilestones
import Amana.Backend.ExpiryReport
import Amana.Backend.Lockout
import Amana.Backend.DeadlineExtension
import Amana.Backend.DustLedger
import Amana.Backend.LossAllocation
import Amana.Backend.Rounding
import Amana.Lib.Bytes
import Amana.Backend.WebhookSignature
import Amana.Lib.Pages
import Amana.Backend.CursorPagination
import Amana.Backend.CursorWalk
import Amana.Backend.AuditPages
import Amana.Backend.DecimalAmounts
import Amana.Backend.Numbers
import Amana.Frontend.Assets
import Amana.Frontend.DisplayedAmounts
import Amana.Backend.QuoteSlippage
import Amana.Backend.DriftSweep
import Amana.Backend.PayoutKeys
import Amana.Lib.Slices
import Amana.Backend.Watchlist
import Amana.Backend.UserTrades
import Amana.Lib.Replay
import Amana.Frontend.OfflineQueue
import Amana.Lib.Documents
import Amana.Backend.LogRedaction
import Amana.Backend.BreakerProbes
import Amana.Backend.CircuitBreaker
import Amana.Lib.Patterns
import Amana.Backend.DeviceContext
import Amana.Lib.Joined
import Amana.Lib.TopBits
import Amana.Lib.Capped
import Amana.Lib.OrderedMap
import Amana.Frontend.OfflineCache
import Amana.Lib.Supply
import Amana.Escrow.Governance
import Amana.Escrow.Progress
import Amana.Lib.Retry
import Amana.Backend.Retry
import Amana.Backend.WebhookDelivery
import Amana.Lib.Keyed
import Amana.Lib.FixedWindow
import Amana.Backend.AdminQuota
import Amana.Backend.FailureMonitor
import Amana.Backend.Alerts
import Amana.Backend.JobHeartbeats
import Amana.Frontend.FlagCache
import Amana.Frontend.TradeStore
import Amana.Lib.Encodings
import Amana.Backend.Encryption
import Amana.Backend.RequestBodies
import Amana.Backend.TradeNotes
import Amana.Backend.FeatureFlags
