import BoilerplateExpress.Ws.Server
import BoilerplateExpress.Security.ClientCertificate
import BoilerplateExpress.Idempotency.ClaimLease
import BoilerplateExpress.Idempotency.Middleware
import BoilerplateExpress.Redis.SingleHandling
import BoilerplateExpress.Redis.WorkerLoop
import BoilerplateExpress.Redis.DeliveryCeiling
import BoilerplateExpress.Redis.NoLostEntry
import BoilerplateExpress.Outbox.AtLeastOnce
import BoilerplateExpress.Users.CachedReads
import BoilerplateExpress.Crypto.Rotation
import BoilerplateExpress.Db.VersionedRepository
import BoilerplateExpress.Sse.Resumption
import BoilerplateExpress.Streams.CsvRoundTrip
import BoilerplateExpress.Ingest.Accounting
import BoilerplateExpress.Users.ImportRetry
import BoilerplateExpress.Http.Negotiation
import BoilerplateExpress.Upload.Download
import BoilerplateExpress.Http.IfRange
import BoilerplateExpress.Lib.Pagination
import BoilerplateExpress.Resilience.ReadableResponse
import BoilerplateExpress.Auth.FamilyLinear
import BoilerplateExpress.Logging.NonInterference
import BoilerplateExpress.Webhooks.SignRequest
import BoilerplateExpress.Workers.TaskSettlement
import BoilerplateExpress.Db.LockCustody
import BoilerplateExpress.Db.ReleasedClean
import BoilerplateExpress.Events.Isolation
import BoilerplateExpress.Redis.OneLoop
import BoilerplateExpress.Redis.PendingPages
import BoilerplateExpress.Redis.StreamEnvelope
import BoilerplateExpress.Users.LockOrder
import BoilerplateExpress.Logging.AccountNumbers
import BoilerplateExpress.Users.ExhaustiveRotation
import BoilerplateExpress.Resilience.SlidingWindow
import BoilerplateExpress.Resilience.OpenPause
import BoilerplateExpress.Workers.WorkerRuntime
import BoilerplateExpress.Streams.CsvRecordLimit
import BoilerplateExpress.Logging.Idempotence
import BoilerplateExpress.Health.RunCheck
import BoilerplateExpress.Pipeline.FromRequestHandler
import BoilerplateExpress.Queue.DeadLetter
import BoilerplateExpress.Db.BulkInsert
import BoilerplateExpress.Health.PostgresCheck
import BoilerplateExpress.Idempotency.MemoryStore
import BoilerplateExpress.Shutdown.GracefulShutdown
import BoilerplateExpress.Auth.MagicLinkSignIn
import BoilerplateExpress.Logging.CardNumbers
