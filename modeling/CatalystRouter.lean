import CatalystRouter.Envoy.PortAllocator
import CatalystRouter.Library.ModifyFirst
import CatalystRouter.Library.PathVector.Withdrawal
import CatalystRouter.Library.PathVector.Protocol
import CatalystRouter.Network.Model
import CatalystRouter.Network.PathVector
import CatalystRouter.Orchestrator.Attribution
import CatalystRouter.Orchestrator.Bus
import CatalystRouter.Orchestrator.Notify
import CatalystRouter.Orchestrator.Ports
import CatalystRouter.Orchestrator.Rpc
import CatalystRouter.Routing.Currency
import CatalystRouter.Routing.Plan
import CatalystRouter.Routing.Runs
import CatalystRouter.Routing.Rib
import CatalystRouter.Routing.State
import CatalystRouter.Routing.Update
import CatalystRouter.Library.PathVector.Flood
import CatalystRouter.Routing.ChangeKeys
import CatalystRouter.Orchestrator.KeyMessages
import CatalystRouter.Orchestrator.KeyEffect
import CatalystRouter.Network.Abstraction
import CatalystRouter.Routing.Sessions
import CatalystRouter.Network.Convergence
import CatalystRouter.Network.Withdrawal
import CatalystRouter.Library.PathVector.Feasible
import CatalystRouter.Network.LoopFreedom
import CatalystRouter.Orchestrator.Allocation
import CatalystRouter.Orchestrator.Isolation
import CatalystRouter.Orchestrator.Stamping
import CatalystRouter.Envoy.Resources
import CatalystRouter.Envoy.RpcServer
import CatalystRouter.DataPlane.Model
import CatalystRouter.DataPlane.HopAgreement
import CatalystRouter.Library.KeyedLog
import CatalystRouter.Orchestrator.Advertised
import CatalystRouter.Orchestrator.DeltaSync
import CatalystRouter.Orchestrator.SyncAgreement
import CatalystRouter.Orchestrator.PeerSession
import CatalystRouter.Library.WaitGraph
import CatalystRouter.Network.Pipeline
import CatalystRouter.Network.Deadlock
import CatalystRouter.Routing.Views
import CatalystRouter.Routing.PeerTokens
import CatalystRouter.Routing.Orphans
import CatalystRouter.Routing.HoldTimer
import CatalystRouter.Routing.StaleRoutes
import CatalystRouter.Routing.GracefulRestart
import CatalystRouter.Orchestrator.KeepAlive
import CatalystRouter.Journal.ActionLog
import CatalystRouter.Journal.Compaction
import CatalystRouter.Journal.Replay
import CatalystRouter.Envoy.PortPool
import CatalystRouter.Orchestrator.PortLeaks
import CatalystRouter.Orchestrator.PortExclusivity
import CatalystRouter.Orchestrator.Attributes
import CatalystRouter.Network.Attributes
import CatalystRouter.Envoy.SnapshotShape
import CatalystRouter.DataPlane.SnapshotNames
import CatalystRouter.DataPlane.Delivery
import CatalystRouter.Envoy.ChannelSchema
import CatalystRouter.Envoy.ControlPlane
import CatalystRouter.Envoy.AdsFreshness
import CatalystRouter.Envoy.AdsOrdering
import CatalystRouter.Library.PromiseQueue
import CatalystRouter.Orchestrator.Linearizability
import CatalystRouter.Orchestrator.ReconnectManager
import CatalystRouter.Orchestrator.Service
import CatalystRouter.Orchestrator.Reconnect
import CatalystRouter.Authorization.KeyManager
import CatalystRouter.Authorization.KeyStore
import CatalystRouter.Authorization.KeyLedger
import CatalystRouter.Authorization.GracePeriod
import CatalystRouter.Authorization.KeyRecovery
import CatalystRouter.Orchestrator.PeerTokens
import CatalystRouter.Orchestrator.Noninterference
import CatalystRouter.Library.Earliest
import CatalystRouter.Routing.BestPath
import CatalystRouter.Library.ListPatch
import CatalystRouter.Library.Fifo
import CatalystRouter.Library.Glob
import CatalystRouter.Library.JsonStrings
import CatalystRouter.Routing.ExactDiff
import CatalystRouter.Routing.TickAbsorption
import CatalystRouter.Orchestrator.GatewayMirror
import CatalystRouter.Orchestrator.HoldNegotiation
import CatalystRouter.Orchestrator.TickManager
import CatalystRouter.Orchestrator.KeepaliveCadence
import CatalystRouter.Orchestrator.ReconnectCancel
import CatalystRouter.Orchestrator.AdapterHealth
import CatalystRouter.Orchestrator.HealthConvergence
import CatalystRouter.Authorization.TokenStore
import CatalystRouter.Authorization.SanRevocation
import CatalystRouter.Journal.InboundPolicy
import CatalystRouter.Orchestrator.Repeats
import CatalystRouter.Journal.AppendFailure
import CatalystRouter.Envoy.PortHistory
import CatalystRouter.Library.Json
import CatalystRouter.Library.JsonLayout
import CatalystRouter.Routing.Documents
import CatalystRouter.Journal.ActionLogs
import CatalystRouter.Journal.LogAgreement
import CatalystRouter.Network.Quiescence
import CatalystRouter.Library.Cedar
import CatalystRouter.Authorization.Policies
import CatalystRouter.Authorization.TokenFactory
import CatalystRouter.Authorization.TokenLifecycle
import CatalystRouter.Authorization.Permissions
import CatalystRouter.Authorization.Authority
import CatalystRouter.Orchestrator.Access
import CatalystRouter.Library.Protobuf
import CatalystRouter.Envoy.ProtoEncoding
import CatalystRouter.Envoy.AdsClient
import CatalystRouter.Envoy.AdsDelivery
import CatalystRouter.DataPlane.Forwarding
import CatalystRouter.DataPlane.EndToEnd
import CatalystRouter.Gateway.Mirrored
import CatalystRouter.Service.Shutdown
