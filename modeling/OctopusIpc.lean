import OctopusIpc.Base.BigEndian
import OctopusIpc.Base.BoundedFifo
import OctopusIpc.Base.DescriptorTable
import OctopusIpc.Base.KeyedSet
import OctopusIpc.Base.Loop
import OctopusIpc.Base.Numeral
import OctopusIpc.Base.PrefixCode
import OctopusIpc.Base.StepSystem
import OctopusIpc.Base.Traced
import OctopusIpc.Protocol.DataMessage
import OctopusIpc.Socket.Query
import OctopusIpc.Socket.EdgeTriggered
import OctopusIpc.Socket.Send
import OctopusIpc.Socket.HangUp
import OctopusIpc.Pool.TaskQueue
import OctopusIpc.Pool.ThreadPool
import OctopusIpc.Pool.Fifo
import OctopusIpc.Pool.Waiting
import OctopusIpc.Pool.Shutdown
import OctopusIpc.Pool.Front
import OctopusIpc.Pool.Carried
import OctopusIpc.Pool.Accounting
import OctopusIpc.Pool.Submission
import OctopusIpc.Pool.HealthCheck
import OctopusIpc.Server.Otsm
import OctopusIpc.Server.Registry
import OctopusIpc.Server.Handlers
import OctopusIpc.Server.HandlerInvariant
import OctopusIpc.Server.ClientEvent
import OctopusIpc.Server.Threads
import OctopusIpc.Server.HandlerSteps
import OctopusIpc.Server.HandlerEffects
import OctopusIpc.Server.Descriptors
import OctopusIpc.Server.RegistryAccuracy
import OctopusIpc.Server.PayloadSafety
import OctopusIpc.Server.Initialization
import OctopusIpc.Server.WireFormat
import OctopusIpc.Server.Subscriptions
import OctopusIpc.Server.ConfigIp
import OctopusIpc.Server.Writers
import OctopusIpc.Server.Broadcast
import OctopusIpc.Client.Packet
import OctopusIpc.Client.Drain
import OctopusIpc.Client.ReceiveLoop
import OctopusIpc.Client.Connection
import OctopusIpc.Client.Callbacks
import OctopusIpc.Client.Resync
import OctopusIpc.Client.Residue
import OctopusIpc.Client.SendApi
import OctopusIpc.Client.SendQueue
import OctopusIpc.Client.CallbackOrder
import OctopusIpc.Client.Eviction
import OctopusIpc.Client.Cleanup
import OctopusIpc.Cli.Arguments
import OctopusIpc.Cli.Answer
import OctopusIpc.Serial.SerialPort
import OctopusIpc.Serial.ReadLoop
import OctopusIpc.Base.KeyedMap
import OctopusIpc.Server.ClientMap
import OctopusIpc.Socket.QueryWithEpoll
import OctopusIpc.Base.LockOrder
import OctopusIpc.Base.Lifecycle
import OctopusIpc.Base.Tally
import OctopusIpc.Base.LinePieces
import OctopusIpc.Server.Replay
import OctopusIpc.Server.Isolation
import OctopusIpc.Server.Startup
import OctopusIpc.Client.StreamAccount
import OctopusIpc.Client.Capacity
import OctopusIpc.Client.Mutexes
import OctopusIpc.Client.OpenSockets
import OctopusIpc.Client.Recovery
import OctopusIpc.Client.ServerProcess
import OctopusIpc.Pool.Fates
import OctopusIpc.Pool.Progress
import OctopusIpc.Pool.Scaling
import OctopusIpc.System.Connection
import OctopusIpc.System.Downlink
import OctopusIpc.System.Subscription
import OctopusIpc.System.Uplink
import OctopusIpc.Serial.Delivery
import OctopusIpc.Client.Exit
import OctopusIpc.Cli.Handled
import OctopusIpc.Server.Backpressure
import OctopusIpc.Client.Deliveries
