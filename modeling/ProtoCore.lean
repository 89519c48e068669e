import ProtoCore.Library.Machine
import ProtoCore.Library.CompactedLog
import ProtoCore.Discovery.Registrar
import ProtoCore.Discovery.ViewConvergence
import ProtoCore.Discovery.Handlers
import ProtoCore.Library.FixedWidth
import ProtoCore.Library.FrameStream
import ProtoCore.Topic.Serialization
import ProtoCore.Topic.FramingRoundTrip
import ProtoCore.Topic.TCPClient
import ProtoCore.Topic.StreamIntegrity
import ProtoCore.Service.ServiceServer
import ProtoCore.Service.OutstandingWrites
import ProtoCore.Service.ReplyGrammar
import ProtoCore.Service.ServiceClient
import ProtoCore.Service.FuturePairing
import ProtoCore.Service.Session
import ProtoCore.Library.ParentForest
import ProtoCore.Transform.TransformTree
import ProtoCore.Transform.RelativePose
import ProtoCore.Routing.TopicConnection
import ProtoCore.Routing.TypeSafety
import ProtoCore.Params.ParamServer
import ProtoCore.Params.Watchers
import ProtoCore.Params.WakeUps
import ProtoCore.Params.ConstantParams
import ProtoCore.Discovery.UniqueNames
import ProtoCore.Topic.LatchedMessages
import ProtoCore.Transform.StaticGossip
import ProtoCore.Transform.AncestorCache
import ProtoCore.Library.RetainedSeries
import ProtoCore.Transform.ArrivalOrder
import ProtoCore.Routing.Delivery
import ProtoCore.Routing.CallbackCalls
import ProtoCore.Routing.FrameDelivery
import ProtoCore.Routing.ConnectionRequests
import ProtoCore.Routing.PendingConnections
import ProtoCore.Routing.ServiceAddresses
import ProtoCore.Routing.ServiceProgress
import ProtoCore.Topic.DecodeBounds
import ProtoCore.Params.ParamClient
import ProtoCore.Params.RemoteReads
import ProtoCore.Params.RemoteAnswers
import ProtoCore.Params.RemoteMirror
import ProtoCore.Params.CallbackOrder
import ProtoCore.Params.ClientClub
import ProtoCore.Service.StreamPool
import ProtoCore.Service.StreamIds
import ProtoCore.Service.StreamRecycling
import ProtoCore.Service.StreamIsolation
import ProtoCore.Topic.SocketAddress
import ProtoCore.Topic.TCPServer
import ProtoCore.Topic.ConnectionIsolation
import ProtoCore.Library.FrameReader
import ProtoCore.Topic.Redelivery
import ProtoCore.Topic.Fanout
import ProtoCore.Topic.Backlog
import ProtoCore.Library.WindowedSeries
import ProtoCore.Transform.Tolerance
import ProtoCore.Transform.Retention
import ProtoCore.Transform.LookupOutcome
import ProtoCore.Library.ParentWalk
import ProtoCore.Transform.LookupTermination
import ProtoCore.Transform.ParentConflict
import ProtoCore.Params.TypedParams
import ProtoCore.Params.TransferStatus
import ProtoCore.Params.DeclaredTypes
import ProtoCore.Service.ClientThread
import ProtoCore.Topic.ClientSockets
import ProtoCore.Topic.FdIndices
import ProtoCore.Topic.SocketLedger
import ProtoCore.Routing.ConnectionKeys
import ProtoCore.Topic.AddressClaims
import ProtoCore.Routing.TopicHandshake
import ProtoCore.Routing.HandshakeReplies
import ProtoCore.Library.Simulation
import ProtoCore.Library.Broadcast
import ProtoCore.Library.FrameRoundTrip
import ProtoCore.Topic.FrameWindow
import ProtoCore.Topic.StreamGrowth
import ProtoCore.Topic.MessageChannel
import ProtoCore.Topic.ChannelRefinement
import ProtoCore.Topic.ChannelProgress
import ProtoCore.Topic.EventLoop
import ProtoCore.Topic.ServerDelivery
import ProtoCore.Discovery.PeerClubs
import ProtoCore.Library.MarkedLog
import ProtoCore.Discovery.HandlerConvergence
import ProtoCore.Discovery.UndividedSteps
import ProtoCore.Discovery.RegistServer
import ProtoCore.Discovery.RegistProgress
import ProtoCore.Transform.ListenerNetwork
import ProtoCore.Service.RemoteCalls
import ProtoCore.Service.CallProgress
import ProtoCore.Transform.ListenerLookups
import ProtoCore.Service.StreamView
import ProtoCore.Service.StreamProjection
import ProtoCore.Service.StreamAnswers
import ProtoCore.Service.StreamMemory
