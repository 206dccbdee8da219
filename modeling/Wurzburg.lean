import Wurzburg.Lib.Acts
import Wurzburg.Lib.Binary64
import Wurzburg.Lib.DoubleEntry
import Wurzburg.Lib.Overlay
import Wurzburg.Lib.Paging
import Wurzburg.Lib.Prog
import Wurzburg.Lib.Reorder
import Wurzburg.Lib.Wrapping
import Wurzburg.Lib.Hoare
import Wurzburg.Lib.Pool
import Wurzburg.Lib.Alone
import Wurzburg.Lib.History
import Wurzburg.Lib.Budget
import Wurzburg.Lib.Protocol
import Wurzburg.Lib.Bank
import Wurzburg.Lib.Retry
import Wurzburg.Lib.Expand
import Wurzburg.Base
import Wurzburg.TigerBeetle.Models
import Wurzburg.TigerBeetle.Server
import Wurzburg.TigerBeetle.Worker
import Wurzburg.TigerBeetle.WorkerInv
import Wurzburg.TigerBeetle.Batching
import Wurzburg.TigerBeetle.ExactlyOnce
import Wurzburg.TigerBeetle.LedgerInv
import Wurzburg.TigerBeetle.OneCommand
import Wurzburg.TigerBeetle.Overtaking
import Wurzburg.TigerBeetle.ReadYourWrites
import Wurzburg.TigerBeetle.Shutdown
import Wurzburg.TigerBeetle.LedgerBook
import Wurzburg.Db.Models
import Wurzburg.Db.Sql
import Wurzburg.Db.Repository
import Wurzburg.Db.RepositorySpec
import Wurzburg.Db.PrioritySpec
import Wurzburg.Db.Tables
import Wurzburg.Db.PriorityRows
import Wurzburg.Db.Lifecycle
import Wurzburg.Db.Admission
import Wurzburg.Db.Sessions
import Wurzburg.Db.Constraints
import Wurzburg.Db.Faults
import Wurzburg.Db.LinkStages
import Wurzburg.Db.Stages
import Wurzburg.Db.LinkStatements
import Wurzburg.Db.Statements
import Wurzburg.Db.Serial
import Wurzburg.Db.Interleavings
import Wurzburg.Db.SerialPriorities
import Wurzburg.Db.Audit
import Wurzburg.Db.Trail
import Wurzburg.Db.LinkRaces
import Wurzburg.Db.SerialLinks
import Wurzburg.Db.PriorityList
import Wurzburg.Db.SoftDeletion
import Wurzburg.Db.UserView
import Wurzburg.Api.Pagination
import Wurzburg.Api.Figures
import Wurzburg.Api.Handler
import Wurzburg.Api.Priority
import Wurzburg.Api.Provider
import Wurzburg.Api.Transaction
import Wurzburg.Api.User
import Wurzburg.Bootstrap
import Wurzburg.Kafka.Admin
import Wurzburg.Kafka.Broker
import Wurzburg.Kafka.Nuremberg
import Wurzburg.System.World
import Wurzburg.System.Client
import Wurzburg.System.Service
import Wurzburg.System.Inv
import Wurzburg.System.Rest
import Wurzburg.System.Workload
import Wurzburg.System.Handlers
import Wurzburg.System.Schedule
import Wurzburg.System.Settle
import Wurzburg.System.Histories
import Wurzburg.System.Journal
import Wurzburg.System.ProviderCreation
import Wurzburg.System.Seeding
import Wurzburg.System.Balances
import Wurzburg.System.Linking
import Wurzburg.System.PriorityCache
import Wurzburg.System.Recovery
import Wurzburg.System.Duplicates
import Wurzburg.System.LostRaces
import Wurzburg.System.Priorities
import Wurzburg.System.Provisioning
import Wurzburg.System.ReportedBalances
import Wurzburg.System.FigureBounds
import Wurzburg.System.NewAndExisting
import Wurzburg.System.PriorityRequests
import Wurzburg.System.PriorityExpiry
import Wurzburg.System.PriorityReplay
import Wurzburg.System.DebitPriority
import Wurzburg.System.PriorityReplacement
import Wurzburg.System.RedisFailures
import Wurzburg.System.RefusedDebit
import Wurzburg.System.PriorityAdmission
import Wurzburg.System.Bank
import Wurzburg.System.Reconciliation
import Wurzburg.System.Scrolling
import Wurzburg.System.Footprint
import Wurzburg.System.Isolation
import Wurzburg.System.CacheContents
import Wurzburg.System.AuditTrail
import Wurzburg.System.Completion
import Wurzburg.System.Linearizable
import Wurzburg.System.KafkaTenants
import Wurzburg.System.KafkaScripts
import Wurzburg.System.KafkaAccess
