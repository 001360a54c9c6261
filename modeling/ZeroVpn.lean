import ZeroVpn.Library.Machine
import ZeroVpn.Library.Program
import ZeroVpn.Library.Pool
import ZeroVpn.Db.Schema
import ZeroVpn.Db.Calendar
import ZeroVpn.Api.Commands
import ZeroVpn.Api.Accounts
import ZeroVpn.Api.Maintenance
import ZeroVpn.Api.Fleet
import ZeroVpn.Api.Effects
import ZeroVpn.Api.AccountEffects
import ZeroVpn.Api.FleetChanges
import ZeroVpn.Api.TunnelAccess
import ZeroVpn.Api.HostAgentController
import ZeroVpn.Db.PeerUsageCheckpoints
import ZeroVpn.Db.UsageLedger
import ZeroVpn.Api.AddressOwnership
import ZeroVpn.HostAgent.Apply
import ZeroVpn.HostAgent.ApplyAtomicity
import ZeroVpn.HostAgent.JournalInvariant
import ZeroVpn.Api.Reconcile
import ZeroVpn.Library.PrefixCode
import ZeroVpn.Api.ReconcileSafety
import ZeroVpn.Api.AdminFloor
import ZeroVpn.Api.Revocation
import ZeroVpn.Api.ManualPause
import ZeroVpn.Db.Months
import ZeroVpn.Api.QuotaSweep
import ZeroVpn.Api.MonthlyCycle
import ZeroVpn.HostAgent.Cutover
import ZeroVpn.HostAgent.CutoverRollback
import ZeroVpn.Api.Sessions
import ZeroVpn.Api.KeyRotation
import ZeroVpn.HostAgent.Generation
import ZeroVpn.Worker.WgPoller
import ZeroVpn.Worker.Billing
import ZeroVpn.Api.Forwarding
import ZeroVpn.Api.DefaultDeny
import ZeroVpn.Api.HostAccess
import ZeroVpn.Api.HostAccessAuthority
import ZeroVpn.HostAgent.TunnelFence
import ZeroVpn.HostAgent.Socket
import ZeroVpn.Api.AddressLeaks
import ZeroVpn.Api.DeviceLimit
import ZeroVpn.Api.RecoveryCodes
import ZeroVpn.Api.SecondFactor
import ZeroVpn.Api.SignOut
import ZeroVpn.Api.InvitationActivation
import ZeroVpn.Api.InvitationRevocation
import ZeroVpn.Api.Invitations
import ZeroVpn.Wg.IpAllocRuns
import ZeroVpn.HostAgent.FirewallUndo
import ZeroVpn.HostAgent.FirewallVerify
import ZeroVpn.Api.LiveEvents
import ZeroVpn.Api.SessionList
import ZeroVpn.Worker.ConnectionSessions
import ZeroVpn.Library.Rollups
import ZeroVpn.Db.Bandwidth
import ZeroVpn.Worker.Aggregator
import ZeroVpn.Worker.ByteHistory
import ZeroVpn.Db.Candles
import ZeroVpn.Worker.CandleHistory
import ZeroVpn.Library.Json
import ZeroVpn.HostAgent.Wire
import ZeroVpn.HostAgent.WireText
import ZeroVpn.HostAgent.Preflight
import ZeroVpn.Library.JsonText
import ZeroVpn.Library.Text
import ZeroVpn.Library.Ini
import ZeroVpn.HostAgent.WgConfig
import ZeroVpn.HostAgent.WgVerify
import ZeroVpn.HostAgent.Admission
import ZeroVpn.HostAgent.Startup
import ZeroVpn.HostAgent.GenerationHistory
import ZeroVpn.HostAgent.Framing
import ZeroVpn.Library.JsonBytes
import ZeroVpn.HostAgent.Capacity
import ZeroVpn.HostAgent.WgDump
import ZeroVpn.Wg.Control
import ZeroVpn.Api.ServerConf
import ZeroVpn.Worker.SessionBytes
import ZeroVpn.Db.CandleQueries
import ZeroVpn.Library.Pages
import ZeroVpn.Worker.CandleFold
import ZeroVpn.Db.CandleConsistency
import ZeroVpn.Worker.CandleTables
import ZeroVpn.Db.CoarseCandles
import ZeroVpn.Worker.Retention
import ZeroVpn.Db.Erasure
import ZeroVpn.Db.ErasureCompleteness
import ZeroVpn.Library.ForeignKeys
import ZeroVpn.Api.MonthlyUsage
import ZeroVpn.Worker.QuotaNotices
import ZeroVpn.Api.Connections
import ZeroVpn.Api.Conntrack
import ZeroVpn.Api.ConnectionSecrecy
import ZeroVpn.Worker.DestinationIngest
import ZeroVpn.Worker.DockerStats
import ZeroVpn.Worker.ChunkedBody
import ZeroVpn.Api.RateLimiter
import ZeroVpn.Library.SlidingWindow
import ZeroVpn.Library.Records
import ZeroVpn.Web.LiveStats
import ZeroVpn.Web.AggregateFrames
import ZeroVpn.Web.HistoryHydration
import ZeroVpn.Api.RecoveryCodeStrength
import ZeroVpn.Api.OauthStates
import ZeroVpn.Library.Base64
