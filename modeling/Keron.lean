import Keron.Library.TraceMachines
import Keron.Library.ProducerQueues
import Keron.Library.TicketQueues
import Keron.Library.AtomicQueues
import Keron.Library.Matching
import Keron.Library.OrderedStores
import Keron.Library.Binary64
import Keron.Library.LittleEndian
import Keron.Library.FlatBuffersFormat
import Keron.Schema.NetMessages
import Keron.Schema.WireFormat
import Keron.Server.Packets
import Keron.Server.Handlers
import Keron.Server.MessageSafety
import Keron.Server.Datastore
import Keron.Server.Relay
import Keron.Server.Steps
import Keron.Server.Traces
import Keron.Server.Outgoings
import Keron.Server.PacketLedger
import Keron.Server.Observations
import Keron.Server.Shutdown
import Keron.Server.PayloadOwnership
import Keron.Server.Generations
import Keron.Server.Reference
import Keron.Server.Ordering
import Keron.Server.Interference
import Keron.Server.Draining
import Keron.Server.Termination
import Keron.Server.ConnectionCounts
import Keron.Server.Timestamps
import Keron.Server.Startup
import Keron.Client.Connexion
import Keron.Client.ChatWindow
import Keron.Client.ConnexionWindow
import Keron.Client.HostLifecycle
import Keron.Client.Sessions
import Keron.Client.ServerAddress
import Keron.System.ChatAgreement
import Keron.System.VerifiedRelay
import Keron.Queue.Indices
import Keron.Queue.ImplicitProducer
import Keron.Queue.ConcurrentQueue
import Keron.Queue.Layouts
import Keron.Queue.Soundness
import Keron.Queue.Dequeueing
import Keron.Queue.Enqueueing
import Keron.Queue.Ownership
import Keron.Queue.Health
import Keron.Queue.Linearization
import Keron.Queue.NullBlockIndex
import Keron.Queue.Destruction
import Keron.Queue.FreeList
import Keron.Queue.FreeListSafety
import Keron.Queue.ProducerHash
import Keron.Queue.ProducerHashSafety
