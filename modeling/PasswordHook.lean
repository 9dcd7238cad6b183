import PasswordHook.Lib.Prog
import PasswordHook.Lib.Interleave
import PasswordHook.Go.Errors
import PasswordHook.Go.Text
import PasswordHook.Go.Time
import PasswordHook.Lib.Register
import PasswordHook.SyncStatus.Status
import PasswordHook.SyncStatus.OrderIndependence
import PasswordHook.Go.TimeFormat
import PasswordHook.Lib.Hex
import PasswordHook.Lib.Simulation
import PasswordHook.SyncStatus.Redis
import PasswordHook.SyncStatus.Refinement
import PasswordHook.Go.Json
import PasswordHook.Lib.Base64
import PasswordHook.Crypto.Codec
import PasswordHook.Migration.Identity
import PasswordHook.Migration.Message
import PasswordHook.Migration.Service
import PasswordHook.Queue.ServiceBus
import PasswordHook.Worker.Decode
import PasswordHook.Worker.Process
import PasswordHook.Worker.Settlement
import PasswordHook.Worker.Shutdown
import PasswordHook.Delivery.Agreement
import PasswordHook.Graph.Client
import PasswordHook.Graph.Processor
import PasswordHook.Delivery.Redirection
import PasswordHook.Migration.Order
import PasswordHook.Pipeline.System
import PasswordHook.Pipeline.Invariants
import PasswordHook.Pipeline.Memory
import PasswordHook.Pipeline.Progress
import PasswordHook.Lib.Expiry
import PasswordHook.Middleware.HMAC
import PasswordHook.Middleware.Freshness
import PasswordHook.Middleware.Authenticity
import PasswordHook.Middleware.Replay
import PasswordHook.Middleware.Noninterference
import PasswordHook.Lib.JsonString
import PasswordHook.Go.Runes
import PasswordHook.Handler.PasswordBytes
import PasswordHook.Handler.Unquote
import PasswordHook.Graph.Bodies
import PasswordHook.Go.Net
import PasswordHook.Lib.Keyed
import PasswordHook.Lib.Window
import PasswordHook.Middleware.RateLimit
import PasswordHook.Middleware.Windows
import PasswordHook.Config.HTTP
import PasswordHook.Config.Overlap
import PasswordHook.Middleware.TrustBoundary
import PasswordHook.Delivery.Script
import PasswordHook.Delivery.Retries
import PasswordHook.Config.Unrestricted
import PasswordHook.Go.Readers
import PasswordHook.Lib.Buffers
import PasswordHook.SensitiveInput.ReadAll
import PasswordHook.Middleware.BodyLimit
import PasswordHook.Worker.Lifetimes
import PasswordHook.Graph.Residue
import PasswordHook.Handler.Buffers
import PasswordHook.Handler.Serve
import PasswordHook.Lib.Lockstep
import PasswordHook.Worker.Confidentiality
import PasswordHook.Migration.Outcome
import PasswordHook.Go.Slog
import PasswordHook.Logger.Masking
import PasswordHook.Queue.Receiver
import PasswordHook.SyncStatus.Credentials
import PasswordHook.Pipeline.PendingWindow
import PasswordHook.Pipeline.Redis
import PasswordHook.AzureMonitor.Metrics
import PasswordHook.AzureMonitor.Keys
import PasswordHook.AzureMonitor.Payloads
import PasswordHook.AzureMonitor.Aggregation
import PasswordHook.AzureMonitor.Flusher
import PasswordHook.AzureMonitor.Conservation
import PasswordHook.App.Wiring
import PasswordHook.Lib.Ownership
import PasswordHook.App.Channels
import PasswordHook.App.Configured
import PasswordHook.App.Goroutines
import PasswordHook.App.Ownership
import PasswordHook.App.Progress
import PasswordHook.App.Shutdown
import PasswordHook.Http.Accepted
import PasswordHook.Http.Handler
