import GatewaySystem.Lib.Transition
import GatewaySystem.Protocol.Message
import GatewaySystem.Protocol.Codec
import GatewaySystem.Concurrent.BlockQueue
import GatewaySystem.Concurrent.Monitor
import GatewaySystem.Control.RuntimeConfig
import GatewaySystem.Lib.Json
import GatewaySystem.Lib.Search
import GatewaySystem.Control.HttpResponseParser
import GatewaySystem.Business.Handlers
import GatewaySystem.Business.LogStorage
import GatewaySystem.Net.Server
import GatewaySystem.Net.Gateway
import GatewaySystem.Net.Ledger
import GatewaySystem.Net.Session
import GatewaySystem.Net.Provenance
import GatewaySystem.Net.Conservation
import GatewaySystem.Lib.Pool
import GatewaySystem.Net.Refinement
import GatewaySystem.Net.Accounting
import GatewaySystem.Net.Effects
import GatewaySystem.Net.Lifecycle
import GatewaySystem.Net.Isolation
import GatewaySystem.Net.Tables
import GatewaySystem.Net.ConnectionCap
import GatewaySystem.Net.AuthTrail
import GatewaySystem.Net.Cancellation
import GatewaySystem.Net.ConfigPuller
import GatewaySystem.Net.SlowClient
import GatewaySystem.Lib.Countdown
import GatewaySystem.Net.Drain
import GatewaySystem.Lib.ExpiringCounter
import GatewaySystem.Lib.FixedWindow
import GatewaySystem.Net.RateLimit
import GatewaySystem.Net.Windows
import GatewaySystem.Net.Statistics
import GatewaySystem.Protocol.RoundTrip
import GatewaySystem.Protocol.Reading
import GatewaySystem.Net.Segmentation
import GatewaySystem.Net.Buffers
import GatewaySystem.Net.Interest
import GatewaySystem.Net.Loop
import GatewaySystem.Net.Dispatch
import GatewaySystem.Net.Wakeup
import GatewaySystem.Net.Deadline
import GatewaySystem.Lib.Decimal
import GatewaySystem.Lib.FlatJson
import GatewaySystem.Lib.Double
import GatewaySystem.Lib.Redis
import GatewaySystem.Lib.Program
import GatewaySystem.App.Types
import GatewaySystem.App.Store
import GatewaySystem.App.MemoryStore
import GatewaySystem.App.RedisStore
import GatewaySystem.App.Handlers
import GatewaySystem.App.Backend
import GatewaySystem.App.Contents
import GatewaySystem.App.ControlPlane
import GatewaySystem.App.Rotation
import GatewaySystem.App.TokenList
import GatewaySystem.App.ConfigUpdates
import GatewaySystem.App.Lockout
import GatewaySystem.App.Interchange
import GatewaySystem.App.SequentialLockout
import GatewaySystem.App.ConfigInterchange
import GatewaySystem.App.StartupConfig
import GatewaySystem.App.FailureWindow
import GatewaySystem.App.TokenLifecycle
import GatewaySystem.App.Secrecy
import GatewaySystem.EndToEnd.Handshake
import GatewaySystem.Control.HttpGrammar
import GatewaySystem.Control.ControlPlaneClient
import GatewaySystem.Control.SocketDeadline
import GatewaySystem.Control.Segments
import GatewaySystem.Control.ParserMemory
import GatewaySystem.Control.StartupConfig
import GatewaySystem.EndToEnd.Documents
import GatewaySystem.EndToEnd.Transport
import GatewaySystem.EndToEnd.Deployment
import GatewaySystem.EndToEnd.ConfigAgreement
import GatewaySystem.EndToEnd.Authentication
import GatewaySystem.Lib.Liveness
import GatewaySystem.Lib.Table
import GatewaySystem.Net.Progress
import GatewaySystem.Net.Completion
import GatewaySystem.Control.Connect
