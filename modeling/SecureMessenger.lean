import SecureMessenger.Client.SyncManager
import SecureMessenger.Client.SyncContract
import SecureMessenger.Client.CommitPage
import SecureMessenger.Client.Runtime
import SecureMessenger.Client.Prefix
import SecureMessenger.Client.DeliveryEvidence
import SecureMessenger.Client.IndexedQueues
import SecureMessenger.Client.ReceiptOrder
import SecureMessenger.Client.Convergence
import SecureMessenger.Client.SessionSafety
import SecureMessenger.Client.ChatRuns
import SecureMessenger.Client.HistoryCache
import SecureMessenger.Client.HistoryRuns
import SecureMessenger.Client.HistoryMethods
import SecureMessenger.Client.ApiSessions
import SecureMessenger.Client.OutgoingManager
import SecureMessenger.Client.RecoveryScopes
import SecureMessenger.Client.Transmissions
import SecureMessenger.Client.ShownRuns
import SecureMessenger.Client.InboxOperations
import SecureMessenger.Client.SocketRequests
import SecureMessenger.Client.DeviceAgreement
import SecureMessenger.Client.ScopeIsolation
import SecureMessenger.Server.Models
import SecureMessenger.Server.MessageService
import SecureMessenger.Server.AuthService
import SecureMessenger.Server.World
import SecureMessenger.Server.Effects
import SecureMessenger.Server.Requests
import SecureMessenger.Server.Alone
import SecureMessenger.Server.SendGuarantees
import SecureMessenger.Server.Recipients
import SecureMessenger.Server.SessionGuarantees
import SecureMessenger.Server.EnvelopeLifecycle
import SecureMessenger.EndToEnd.NoLoss
import SecureMessenger.EndToEnd.Line
import SecureMessenger.EndToEnd.LineInvariant
import SecureMessenger.Server.LockPlans
import SecureMessenger.Server.ReadService
import SecureMessenger.Server.ReadTransactions
import SecureMessenger.Server.ReadCursors
import SecureMessenger.Server.DirectChats
import SecureMessenger.Server.ChatReadMigration
import SecureMessenger.Server.HandlerEquivalence
import SecureMessenger.Client.HistoryWalks
import SecureMessenger.Client.CommitMerges
import SecureMessenger.Server.Payloads
import SecureMessenger.EndToEnd.TextCodec
import SecureMessenger.Client.MessengerService
import SecureMessenger.Client.ContentErrors
import SecureMessenger.Client.MessageOrder
import SecureMessenger.Client.ReadCursorManager
import SecureMessenger.Lib.Triples
import SecureMessenger.Client.ReadStates
import SecureMessenger.Client.ReadRuns
import SecureMessenger.Lib.Outcomes
import SecureMessenger.Lib.KeysetRuns
import SecureMessenger.Server.KeysetPages
import SecureMessenger.EndToEnd.PageWalks
import SecureMessenger.Client.SyncOperations
import SecureMessenger.Client.SequenceBackfill
import SecureMessenger.Lib.Absorb
import SecureMessenger.Lib.Ghost
import SecureMessenger.Client.RowUpdates
import SecureMessenger.Client.MergeRows
import SecureMessenger.Client.MergeStability
import SecureMessenger.Client.MergeByChat
import SecureMessenger.Lib.Parts
import SecureMessenger.Server.ChatMembers
import SecureMessenger.EndToEnd.RecoveryWalks
import SecureMessenger.EndToEnd.UnreadFilter
import SecureMessenger.Lib.JsonValue
import SecureMessenger.Client.Mappers
import SecureMessenger.Client.MapperContracts
import SecureMessenger.Server.SocketCommands
import SecureMessenger.EndToEnd.JsonWire
import SecureMessenger.EndToEnd.Frames
import SecureMessenger.Server.Realtime
import SecureMessenger.Server.RealtimeRuns
import SecureMessenger.Server.RealtimeGuarantees
import SecureMessenger.Lib.Halting
import SecureMessenger.EndToEnd.Synchronization
import SecureMessenger.EndToEnd.Progress
import SecureMessenger.EndToEnd.Termination
import SecureMessenger.Lib.Simulation
import SecureMessenger.Server.MailboxReplies
import SecureMessenger.EndToEnd.ServedDevice
import SecureMessenger.EndToEnd.Reception
import SecureMessenger.Client.ChatPreferences
