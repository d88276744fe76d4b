import PoolLb.Interaction
import PoolLb.Handler
import PoolLb.Tally
import PoolLb.TimerWheel
import PoolLb.TimerWheelDrain
import PoolLb.DeadlineMap
import PoolLb.Config
import PoolLb.Endpoint
import PoolLb.RateLimiter
import PoolLb.ShardSection
import PoolLb.LeasePinning
import PoolLb.PendingBuffer
import PoolLb.Validator
import PoolLb.Router
import PoolLb.ProxyProtocol
import PoolLb.Session
import PoolLb.ReactorCalls
import PoolLb.SessionIo
import PoolLb.UpstreamConnect
import PoolLb.ClientFraming
import PoolLb.Relay
import PoolLb.Reactor
import PoolLb.Outside
import PoolLb.SessionMoves
import PoolLb.IoMoves
import PoolLb.ConnectMoves
import PoolLb.FramingMoves
import PoolLb.RelayMoves
import PoolLb.SessionRun
import PoolLb.Scenario
import PoolLb.FramingFold
import PoolLb.FramingRun
import PoolLb.OpeningLine
import PoolLb.UpstreamOrder
import PoolLb.Draining
import PoolLb.FlowControl
import PoolLb.Interleaving
import PoolLb.QueueLedger
import PoolLb.Gcra
import PoolLb.GlobalRate
import PoolLb.ShardSteps
import PoolLb.TrackedClients
import PoolLb.SequentialLimiter
import PoolLb.RefusedAdmission
import PoolLb.GlobalSaturation
import PoolLb.TokenConformance
import PoolLb.IdleClient
import PoolLb.Forgetting
import PoolLb.SequencingGate
import PoolLb.ServiceConfig
import PoolLb.RoutingRefresh
import PoolLb.CarriedOver
import PoolLb.Service
import PoolLb.Reload
import PoolLb.TlsMaterial
import PoolLb.Hysteresis
import PoolLb.StallDetection
import PoolLb.ConnectPlan
import PoolLb.ByteQueue
import PoolLb.EndpointText
import PoolLb.RateLimitKey
import PoolLb.ProxyHeader
import PoolLb.BackendChoice
import PoolLb.HealthMonitor
import PoolLb.Streaks
import PoolLb.HealthHysteresis
import PoolLb.ProbeSegments
import PoolLb.JsonText
import PoolLb.Nesting
import PoolLb.Reactions
import PoolLb.ConnectRun
import PoolLb.ConnectLife
import PoolLb.HangingConnect
import PoolLb.ClientFrames
import PoolLb.TlsRetry
import PoolLb.Interests
import PoolLb.Books
import PoolLb.SessionCalls
import PoolLb.Worker
import PoolLb.WorkerRun
import PoolLb.WorkerTimers
import PoolLb.SetupDeadlines
import PoolLb.TimelyWorker
import PoolLb.Berths
import PoolLb.Workers
import PoolLb.Connections
