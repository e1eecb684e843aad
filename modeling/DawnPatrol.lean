import DawnPatrol.Api.Records
import DawnPatrol.Api.Services
import DawnPatrol.Db.AllOrNothing
import DawnPatrol.Db.AssociationService
import DawnPatrol.Db.ConcurrentFirstOrCreate
import DawnPatrol.Db.Databases
import DawnPatrol.Db.EventInserts
import DawnPatrol.Db.EventService
import DawnPatrol.Db.NestedAssociations
import DawnPatrol.Execution.Calls
import DawnPatrol.Foundation.BinarySearch
import DawnPatrol.Foundation.BlockSwap
import DawnPatrol.Foundation.Calendar
import DawnPatrol.Foundation.Changes
import DawnPatrol.Foundation.DecimalOrder
import DawnPatrol.Foundation.Delimiters
import DawnPatrol.Foundation.Interleaving
import DawnPatrol.Foundation.JsonText
import DawnPatrol.Foundation.KeyedRows
import DawnPatrol.Foundation.Programs
import DawnPatrol.Foundation.Promises
import DawnPatrol.Foundation.Ranks
import DawnPatrol.Foundation.SchemaFrames
import DawnPatrol.Foundation.Schemas
import DawnPatrol.Foundation.WildcardSearch
import DawnPatrol.Go.Fmt
import DawnPatrol.Go.Rfc3339
import DawnPatrol.Go.Runes
import DawnPatrol.Go.Time
import DawnPatrol.Go.Values
import DawnPatrol.Go.Zones
import DawnPatrol.Goji.Pat
import DawnPatrol.Goji.Router
import DawnPatrol.Goji.Trie
import DawnPatrol.Gorm.Statements
import DawnPatrol.Http.EventJSON
import DawnPatrol.Http.FailedReads
import DawnPatrol.Http.Handlers
import DawnPatrol.Http.Hosts
import DawnPatrol.Http.IndexBody
import DawnPatrol.Http.Mux
import DawnPatrol.Http.Panics
import DawnPatrol.Http.RequestLog
import DawnPatrol.Logfmt.Decoder
import DawnPatrol.Logfmt.Encoder
import DawnPatrol.Logfmt.Loggers
import DawnPatrol.Logfmt.Logs
import DawnPatrol.Logfmt.RoundTrip
import DawnPatrol.MySQL.Dsn
import DawnPatrol.Postgres.HostPattern
import DawnPatrol.Postgres.Migrations
import DawnPatrol.Postgres.Schema
import DawnPatrol.Postgres.Seed
import DawnPatrol.Postgres.Store
import DawnPatrol.Pq.ConnectionStrings
import DawnPatrol.Pq.Dial
import DawnPatrol.Pq.DialOpen
import DawnPatrol.Rails.Records
import DawnPatrol.RailsDb.CopyAlone
import DawnPatrol.RailsDb.CopyEffect
import DawnPatrol.RailsDb.DataSourceNames
import DawnPatrol.RailsDb.FaultlessCopy
import DawnPatrol.RailsDb.RaceDays
import DawnPatrol.RailsDb.RacingAssociations
import DawnPatrol.RailsDb.WallClock
import DawnPatrol.Raven.Accounts
import DawnPatrol.Raven.Captures
import DawnPatrol.Raven.Deliveries
import DawnPatrol.Raven.Packets
import DawnPatrol.Requests.Capitalisation
import DawnPatrol.Requests.Commuting
import DawnPatrol.Requests.CopySteps
import DawnPatrol.Requests.DefaultAssociation
import DawnPatrol.Requests.Drivers
import DawnPatrol.Requests.Operations
import DawnPatrol.Requests.OtherAssociations
import DawnPatrol.Requests.Pools
import DawnPatrol.Requests.Repeats
import DawnPatrol.Requests.StoredAssociation
import DawnPatrol.Server.Collected
import DawnPatrol.Server.CompleteCopies
import DawnPatrol.Server.Provenance
import DawnPatrol.Server.Replies
import DawnPatrol.Server.Visits
import DawnPatrol.Shmig.Actions
import DawnPatrol.Shmig.Files
import DawnPatrol.Shmig.Outcomes
import DawnPatrol.Shmig.Repository
import DawnPatrol.Shmig.Runs
import DawnPatrol.Shmig.Sessions
import DawnPatrol.Shmig.Upgrades
import DawnPatrol.Web.Page
