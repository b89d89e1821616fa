import CatalystRouter.Routing.State

namespace CatalystRouter

/-- `Omit<InternalRoute['peer'], 'peerToken'>`. -/
structure PublicPeerInfo where
  name : String
  domains : List String
  endpoint : Option String
  labels : Option (List (String × String))
  envoyAddress : Option String
  deriving DecidableEq, Repr

/-- Public peer shape: credentials and internal bookkeeping stripped. -/
structure PublicPeer extends PublicPeerInfo where
  connectionStatus : PeerConnectionStatus
  lastConnected : Int
  deriving DecidableEq, Repr

/-- Public internal route shape: credentials and internal flags stripped. -/
structure PublicInternalRoute extends DataChannelDefinition where
  peer : PublicPeerInfo
  nodePath : List String
  originNode : String
  deriving DecidableEq, Repr

structure PublicRoutes where
  localRoutes : List DataChannelDefinition
  internalRoutes : List PublicInternalRoute
  deriving DecidableEq, Repr

/-- Public route table, safe for API exposure. -/
structure PublicRouteTable where
  routes : PublicRoutes
  peers : List PublicPeer
  deriving DecidableEq, Repr

/-- A peer without its token. -/
def PeerInfo.safePeer (peer : PeerInfo) : PublicPeerInfo :=
  { name := peer.name
    domains := peer.domains
    endpoint := peer.endpoint
    labels := peer.labels
    envoyAddress := peer.envoyAddress }

/-- `PeerView.toPublic`. -/
def PeerView.toPublic (data : PeerRecord) : PublicPeer :=
  { data.safePeer with connectionStatus := data.connectionStatus, lastConnected := data.lastConnected }

/-- `InternalRouteView.toPublic`. -/
def InternalRouteView.toPublic (data : InternalRoute) : PublicInternalRoute :=
  { data.toDataChannelDefinition with
    peer := data.peer.safePeer
    nodePath := data.nodePath
    originNode := data.originNode }

/-- `RouteTableView.toPublic`. -/
def RouteTableView.toPublic (state : RouteTable) : PublicRouteTable :=
  { routes := ⟨state.localRoutes, state.internalRoutes.map InternalRouteView.toPublic⟩
    peers := state.peers.map PeerView.toPublic }

/-! ### Changing the tokens -/

section MapTokens

variable (f : String → String)

/-- The same peer with its token, if any, changed by `f`. -/
def PeerInfo.mapToken (peer : PeerInfo) : PeerInfo := { peer with peerToken := peer.peerToken.map f }

def PeerUpdate.mapToken (data : PeerUpdate) : PeerUpdate := { data with peerToken := data.peerToken.map f }

def PeerRecord.mapToken (peer : PeerRecord) : PeerRecord := { peer with peerToken := peer.peerToken.map f }

def InternalRoute.mapToken (route : InternalRoute) : InternalRoute := { route with peer := route.peer.mapToken f }

def RouteTable.mapTokens (state : RouteTable) : RouteTable :=
  { state with
    peers := state.peers.map (·.mapToken f)
    internalRoutes := state.internalRoutes.map (·.mapToken f) }

def Action.mapToken : Action → Action
  | .localPeerCreate data => .localPeerCreate (data.mapToken f)
  | .localPeerUpdate data => .localPeerUpdate (data.mapToken f)
  | .internalProtocolOpen peerInfo holdTime => .internalProtocolOpen (peerInfo.mapToken f) holdTime
  | .internalProtocolConnected peerInfo => .internalProtocolConnected (peerInfo.mapToken f)
  | .internalProtocolClose peerInfo code => .internalProtocolClose (peerInfo.mapToken f) code
  | .internalProtocolUpdate peerInfo updates => .internalProtocolUpdate (peerInfo.mapToken f) updates
  | .internalProtocolKeepalive peerInfo => .internalProtocolKeepalive (peerInfo.mapToken f)
  | action => action

def ChangedRoute.mapToken : ChangedRoute → ChangedRoute
  | .channel route => .channel route
  | .internal route => .internal (route.mapToken f)

def RouteChange.mapToken (change : RouteChange) : RouteChange := { change with route := change.route.mapToken f }

def PlanResult.mapTokens (plan : PlanResult) : PlanResult :=
  { plan with
    prevState := plan.prevState.mapTokens f
    newState := plan.newState.mapTokens f
    routeChanges := plan.routeChanges.map (·.mapToken f) }

variable {f}

@[simp] theorem PeerInfo.mapToken_name (peer : PeerInfo) : (peer.mapToken f).name = peer.name := rfl

@[simp] theorem PeerUpdate.mapToken_name (data : PeerUpdate) : (data.mapToken f).name = data.name := rfl

@[simp] theorem PeerRecord.mapToken_name (peer : PeerRecord) : (peer.mapToken f).name = peer.name := rfl

@[simp] theorem PeerView.toPublic_mapToken (peer : PeerRecord) : toPublic (peer.mapToken f) = toPublic peer := rfl

@[simp] theorem InternalRouteView.toPublic_mapToken (route : InternalRoute) :
    toPublic (route.mapToken f) = toPublic route := rfl

/-- The public table does not show the tokens. -/
@[simp] theorem RouteTableView.toPublic_mapTokens (state : RouteTable) :
    toPublic (state.mapTokens f) = toPublic state := by
  simp [toPublic, RouteTable.mapTokens, Function.comp_def]

end MapTokens

end CatalystRouter
