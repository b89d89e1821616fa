import Mathlib.Data.List.Basic

namespace CatalystRouter

/-- `DataChannelProtocolEnum`. -/
inductive DataChannelProtocol where
  | http
  | httpGraphql
  | httpGql
  | httpGrpc
  | tcp
  deriving DecidableEq, Repr

inductive HealthStatus where
  | up
  | down
  deriving DecidableEq, Repr

/-- `DataChannelDefinition`. An absent optional field is `none`;
    `responseTimeMs` is both nullable and optional, so it nests two options. -/
structure DataChannelDefinition where
  name : String
  protocol : DataChannelProtocol
  endpoint : Option String := none
  region : Option String := none
  tags : Option (List String) := none
  envoyPort : Option Int := none
  envoyAddress : Option String := none
  healthStatus : Option HealthStatus := none
  responseTimeMs : Option (Option Int) := none
  lastChecked : Option String := none
  deriving DecidableEq, Repr

/-- Route identity key: name only. -/
def routeKey (route : DataChannelDefinition) : String := route.name

/-- `NodeConfigSchema`, which is also `PeerInfoSchema`. -/
structure PeerInfo where
  name : String
  domains : List String := []
  endpoint : Option String := none
  labels : Option (List (String × String)) := none
  peerToken : Option String := none
  envoyAddress : Option String := none
  deriving DecidableEq, Repr

/-- The optional fields of a `PeerInfo`. -/
inductive PeerField where
  | endpoint
  | labels
  | peerToken
  | envoyAddress
  deriving DecidableEq, Repr

/-- The payload of `LocalPeerUpdate`. `cleared` are the fields that it has with the value
    `undefined`; the others without a value are absent. Only this payload is spread over
    what is there, so in the others the two are the same. -/
structure PeerUpdate extends PeerInfo where
  cleared : List PeerField := []
  deriving DecidableEq, Repr

inductive PeerConnectionStatus where
  | initializing
  | connected
  | closed
  deriving DecidableEq, Repr

/-- A configured peer with its session fields. Clock readings and hold times
    are milliseconds. -/
structure PeerRecord extends PeerInfo where
  connectionStatus : PeerConnectionStatus
  lastConnected : Int := 0
  holdTime : Int := 90000
  lastSent : Int := 0
  lastReceived : Int := 0
  deriving DecidableEq, Repr

structure InternalRoute extends DataChannelDefinition where
  peer : PeerInfo
  nodePath : List String
  originNode : String
  isStale : Bool := false
  deriving DecidableEq, Repr

/-- The table is flattened: `localRoutes` is `local.routes`, `peers` and
    `internalRoutes` are `internal.peers` and `internal.routes`. -/
@[ext]
structure RouteTable where
  localRoutes : List DataChannelDefinition
  peers : List PeerRecord
  internalRoutes : List InternalRoute
  deriving DecidableEq, Repr

def newRouteTable : RouteTable := ⟨[], [], []⟩

/-- The identity under which the update handler looks internal routes up. -/
def InternalRoute.key (route : InternalRoute) : String × String :=
  (routeKey route.toDataChannelDefinition, route.originNode)

inductive UpdateAction where
  | add
  | remove
  deriving DecidableEq, Repr

/-- One entry of `UpdateMessage.updates`. -/
structure UpdateItem where
  action : UpdateAction
  route : DataChannelDefinition
  nodePath : List String
  originNode : String
  deriving DecidableEq, Repr

def UpdateItem.key (item : UpdateItem) : String × String := (routeKey item.route, item.originNode)

/-- `LocalRouteHealthUpdate` payload. -/
structure RouteHealth where
  name : String
  healthStatus : HealthStatus
  responseTimeMs : Option Int
  lastChecked : String
  deriving DecidableEq, Repr

namespace CloseCodes

/-- `CloseCodes.NORMAL`; the others follow in the source's order. -/
def normal : Int := 1
def holdExpired : Int := 2
def transportError : Int := 3
def adminShutdown : Int := 4
def protocolError : Int := 5

end CloseCodes

/-- The twelve actions. The delete payloads carry only the name, the one field
    their handlers read. -/
inductive Action where
  | localPeerCreate (data : PeerInfo)
  | localPeerUpdate (data : PeerUpdate)
  | localPeerDelete (name : String)
  | localRouteCreate (data : DataChannelDefinition)
  | localRouteDelete (name : String)
  | localRouteHealthUpdate (data : RouteHealth)
  | internalProtocolOpen (peerInfo : PeerInfo) (holdTime : Option Int)
  | internalProtocolConnected (peerInfo : PeerInfo)
  | internalProtocolClose (peerInfo : PeerInfo) (code : Int)
  | internalProtocolUpdate (peerInfo : PeerInfo) (updates : List UpdateItem)
  | internalProtocolKeepalive (peerInfo : PeerInfo)
  | tick (now : Int)
  deriving DecidableEq, Repr

/-- The route of a change: `DataChannelDefinition | InternalRoute`. -/
inductive ChangedRoute where
  | channel (route : DataChannelDefinition)
  | internal (route : InternalRoute)
  deriving DecidableEq, Repr

inductive RouteChangeType where
  | added
  | removed
  | updated
  deriving DecidableEq, Repr

structure RouteChange where
  type : RouteChangeType
  route : ChangedRoute
  deriving DecidableEq, Repr

inductive PortOperation where
  | allocate (routeKey : String) (port : Int)
  | release (routeKey : String) (port : Int)
  deriving DecidableEq, Repr

/-- `sameReference` records that `newState` is the very object `prevState`,
    the way every handler reports a no-op. -/
structure PlanResult where
  prevState : RouteTable
  newState : RouteTable
  portOps : List PortOperation := []
  routeChanges : List RouteChange := []
  sameReference : Bool := false
  deriving DecidableEq, Repr

/-- `RoutePolicy`: pure per-peer filters. -/
structure RoutePolicy where
  canSend : PeerRecord → List InternalRoute → List InternalRoute
  canReceive : PeerRecord → List DataChannelDefinition → List DataChannelDefinition

end CatalystRouter
