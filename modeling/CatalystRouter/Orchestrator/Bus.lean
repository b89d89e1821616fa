import CatalystRouter.Routing.Rib
import CatalystRouter.Envoy.PortAllocator

namespace CatalystRouter

/-- The parts of the bus's constructor options its dispatch reads; the optional
    clients only matter by their presence. -/
structure BusConfig where
  node : PeerInfo
  routePolicy : Option RoutePolicy := none
  gatewayClient : Bool := false
  envoyClient : Bool := false

/-- The mutable state of an `OrchestratorBus`. `lastKeepaliveSent` reads 0
    for a peer that was never sent a keepalive. -/
structure Bus where
  state : RouteTable
  portAllocator : Option PortAllocator := none
  lastKeepaliveSent : String → Int := fun _ => 0

/-- Payload of `EnvoyClient.updateRoutes`. -/
structure EnvoyRouteConfig where
  localRoutes : List DataChannelDefinition
  internalRoutes : List InternalRoute
  portAllocations : Option (List (String × Int))
  deriving DecidableEq, Repr

/-- A call the post-commit phase awaits. -/
inductive Effect where
  | sendUpdate (peer : PeerRecord) (updates : List UpdateItem)
  | sendKeepalive (peer : PeerRecord)
  | closePeer (peer : PeerRecord) (code : Int)
  | updateConfig (services : List (String × Option String))
  | updateRoutes (config : EnvoyRouteConfig)
  deriving DecidableEq, Repr

/-- JavaScript truthiness of an optional port. -/
def truthyPort (port : Option Int) : Bool :=
  match port with
  | some p => p != 0
  | none => false

def egressKey (routeName peerName : String) : String := "egress_" ++ routeName ++ "_via_" ++ peerName

def InternalRoute.egressKey (r : InternalRoute) : String := CatalystRouter.egressKey r.name r.peer.name

/-- `BusTransforms.toDataChannel`: the definition's own fields, with the
    address overridden when an override is given. -/
def toDataChannel (route : DataChannelDefinition) (envoyAddress : Option String) : DataChannelDefinition :=
  { route with envoyAddress := envoyAddress <|> route.envoyAddress }

namespace Bus

/-- Whitespace and line terminators, the characters `String.prototype.trim` strips. -/
def isTrimmed (c : Char) : Bool :=
  c ∈ ['\t', '\n', '\x0b', '\x0c', '\r', ' ', '\u00a0', '\u1680', '\u2028', '\u2029', '\u202f',
    '\u205f', '\u3000', '\ufeff'] || ('\u2000' ≤ c && c ≤ '\u200a')

/-- `!peerToken?.trim()`. -/
def blankToken (peerToken : Option String) : Bool :=
  match peerToken with
  | some token => token.toList.all isTrimmed
  | none => true

/-- Step 1 of `dispatch`: a peer created without a token is invalid. -/
def lacksPeerToken (action : Action) : Bool :=
  match action with
  | .localPeerCreate data => blankToken data.peerToken
  | _ => false

/-- `none` reports that every received route was rejected. -/
def applyInboundPolicy (config : BusConfig) (state : RouteTable) (action : Action) : Option Action :=
  match action, config.routePolicy with
  | .internalProtocolUpdate peerInfo updates, some policy =>
    match state.peers.find? (hasName peerInfo.name) with
    | none => some action
    | some peer =>
      let allowed := policy.canReceive peer (updates.map (·.route))
      let filteredUpdates := updates.filter fun u => allowed.any fun r => r.name == u.route.name
      if filteredUpdates = [] then none else some (.internalProtocolUpdate peerInfo filteredUpdates)
  | _, _ => some action

/-! ### Port allocation -/

/-- Release `key` if it is allocated, recording the operation. -/
def releaseKey (key : String) (alloc : PortAllocator) : PortAllocator × List PortOperation :=
  match alloc.getPort key with
  | some port => (alloc.release key, [.release key port])
  | none => (alloc, [])

/-- Phase 1 for one change: a removed route frees its own name and, when it is
    internal, its egress key. -/
def releaseRemoved (alloc : PortAllocator) (change : RouteChange) : PortAllocator × List PortOperation :=
  match change.type, change.route with
  | .removed, .channel route => releaseKey route.name alloc
  | .removed, .internal route =>
    let (alloc, localOps) := releaseKey route.name alloc
    let (alloc, egressOps) := releaseKey route.egressKey alloc
    (alloc, localOps ++ egressOps)
  | _, _ => (alloc, [])

def releaseAllRemoved : PortAllocator → List RouteChange → PortAllocator × List PortOperation
  | alloc, [] => (alloc, [])
  | alloc, change :: rest =>
    let (alloc, ops) := releaseRemoved alloc change
    let (alloc, others) := releaseAllRemoved alloc rest
    (alloc, ops ++ others)

/-- The release operations the RIB generated itself. -/
def releaseRibOps : PortAllocator → List PortOperation → PortAllocator × List PortOperation
  | alloc, [] => (alloc, [])
  | alloc, .release key port :: rest =>
    let (alloc, others) := releaseRibOps (alloc.release key) rest
    (alloc, .release key port :: others)
  | alloc, .allocate _ _ :: rest => releaseRibOps alloc rest

/-- Result of an allocation phase: stamped routes, the name-to-port map kept
    for the change list, and the operations. -/
structure Stamped (α : Type) where
  alloc : PortAllocator
  routes : List α
  portMap : List (String × Int)
  portOps : List PortOperation

/-- Phase 2: ingress ports for local routes without one. -/
def allocateLocal : PortAllocator → List DataChannelDefinition → Stamped DataChannelDefinition
  | alloc, [] => ⟨alloc, [], [], []⟩
  | alloc, route :: rest =>
    if truthyPort route.envoyPort then
      let tail := allocateLocal alloc rest
      { tail with routes := route :: tail.routes }
    else
      match alloc.allocate route.name with
      | (none, alloc) =>
        let tail := allocateLocal alloc rest
        { tail with routes := route :: tail.routes }
      | (some port, alloc) =>
        let tail := allocateLocal alloc rest
        { tail with
          routes := { route with envoyPort := some port } :: tail.routes
          portMap := (route.name, port) :: tail.portMap
          portOps := .allocate route.name port :: tail.portOps }

/-- Phase 3: egress ports for every internal route. -/
def allocateEgress : PortAllocator → List InternalRoute → Stamped InternalRoute
  | alloc, [] => ⟨alloc, [], [], []⟩
  | alloc, route :: rest =>
    match alloc.allocate route.egressKey with
    | (none, alloc) =>
      let tail := allocateEgress alloc rest
      { tail with routes := route :: tail.routes }
    | (some port, alloc) =>
      let tail := allocateEgress alloc rest
      { tail with
        routes := { route with envoyPort := some port } :: tail.routes
        portMap := (route.egressKey, port) :: tail.portMap
        portOps := if route.envoyPort = some port then tail.portOps
          else .allocate route.egressKey port :: tail.portOps }

/-- Phase 5: the port a change's route was given, when it differs. -/
def stampChange (localPortMap egressPortMap : List (String × Int)) (change : RouteChange) : RouteChange :=
  match change.type, change.route with
  | .removed, _ => change
  | _, .internal route =>
    match egressPortMap.lookup route.egressKey with
    | some port =>
      if route.envoyPort = some port then change
      else { change with route := .internal { route with envoyPort := some port } }
    | none => change
  | _, .channel route =>
    match localPortMap.lookup route.name with
    | some port =>
      if truthyPort route.envoyPort then change
      else { change with route := .channel { route with envoyPort := some port } }
    | none => change

def planPortAllocations (alloc : PortAllocator) (plan : PlanResult) : PlanResult × PortAllocator :=
  let (alloc, removedOps) := releaseAllRemoved alloc plan.routeChanges
  let (alloc, ribOps) := releaseRibOps alloc plan.portOps
  let ingress := allocateLocal alloc plan.newState.localRoutes
  let egress := allocateEgress ingress.alloc plan.newState.internalRoutes
  ({ plan with
      newState := { plan.newState with
        localRoutes := ingress.routes
        internalRoutes := egress.routes }
      portOps := removedOps ++ ribOps ++ ingress.portOps ++ egress.portOps
      routeChanges := plan.routeChanges.map (stampChange ingress.portMap egress.portMap)
      sameReference := false },
    egress.alloc)

/-- Step 3 of `dispatch`: a bus without an allocator keeps the RIB's plan. -/
def planPorts (portAllocator : Option PortAllocator) (plan : PlanResult) :
    PlanResult × Option PortAllocator :=
  match portAllocator with
  | none => (plan, none)
  | some alloc =>
    let (plan, alloc) := planPortAllocations alloc plan
    (plan, some alloc)

/-! ### Advertisements -/

/-- The two guards shared by the initial sync and the delta fan-out. -/
def exportGuards (peer : PeerRecord) (route : InternalRoute) : Bool :=
  route.peer.name != peer.name && !route.nodePath.contains peer.name

def policyAllowsSend (config : BusConfig) (peer : PeerRecord) (route : InternalRoute) : Bool :=
  match config.routePolicy with
  | none => true
  | some policy => policy.canSend peer [route] != []

def localItem (config : BusConfig) (action : UpdateAction) (route : DataChannelDefinition) : UpdateItem :=
  { action
    route := toDataChannel route config.node.envoyAddress
    nodePath := [config.node.name]
    originNode := config.node.name }

def internalItem (config : BusConfig) (action : UpdateAction) (route : InternalRoute) : UpdateItem :=
  { action
    route := toDataChannel route.toDataChannelDefinition config.node.envoyAddress
    nodePath := config.node.name :: route.nodePath
    originNode := route.originNode }

/-- The internal routes a full sync advertises. -/
def syncable (config : BusConfig) (peer : PeerRecord) (route : InternalRoute) : Bool :=
  !route.isStale && exportGuards peer route && policyAllowsSend config peer route

/-- The update list `syncRoutesToPeer` builds. -/
def syncUpdates (config : BusConfig) (peer : PeerRecord) (state : RouteTable) : List UpdateItem :=
  state.localRoutes.map (localItem config .add) ++
    (state.internalRoutes.filter (syncable config peer)).map (internalItem config .add)

def changeAction (type : RouteChangeType) : UpdateAction :=
  match type with
  | .removed => .remove
  | _ => .add

/-- The entry one route change contributes to a peer's delta, if any. -/
def changeItem (config : BusConfig) (peer : PeerRecord) (change : RouteChange) : Option UpdateItem :=
  match change.route with
  | .internal route =>
    -- the policy is consulted for non-removal changes only
    if exportGuards peer route && (change.type == .removed || policyAllowsSend config peer route) then
      some (internalItem config (changeAction change.type) route)
    else none
  | .channel route => some (localItem config (changeAction change.type) route)

def buildUpdatesForPeer (config : BusConfig) (peer : PeerRecord) (plan : PlanResult) : List UpdateItem :=
  plan.routeChanges.filterMap (changeItem config peer)

def connectedPeers (state : RouteTable) : List PeerRecord :=
  state.peers.filter fun p => p.connectionStatus == .connected

/-- An update is sent only when it has entries. -/
def sendUpdate (peer : PeerRecord) (updates : List UpdateItem) : List Effect :=
  if updates = [] then [] else [.sendUpdate peer updates]

/-- Delta fan-out: one send per connected peer, all started together. -/
def fanOut (config : BusConfig) (plan : PlanResult) (state : RouteTable) : List Effect :=
  (connectedPeers state).flatMap fun peer => sendUpdate peer (buildUpdatesForPeer config peer plan)

/-- The awaited stages of `handleBGPNotify`; the sends of one stage run
    concurrently and all settle before the next stage. -/
def handleBGPNotify (config : BusConfig) (action : Action) (plan : PlanResult) (state : RouteTable) :
    List (List Effect) :=
  match action with
  | .internalProtocolConnected peerInfo =>
    match (connectedPeers state).find? (hasName peerInfo.name) with
    | some peer => [sendUpdate peer (syncUpdates config peer state)]
    | none => []
  | .localPeerDelete name =>
    (match plan.prevState.peers.find? (hasName name) with
      | some deletedPeer => [[.closePeer deletedPeer CloseCodes.normal]]
      | none => []) ++
      if plan.routeChanges = [] then [] else [fanOut config plan state]
  | _ => if plan.routeChanges = [] then [] else [fanOut config plan state]

/-! ### Gateway, envoy and keepalives -/

def isGraphql (route : DataChannelDefinition) : Bool :=
  route.protocol == .httpGraphql || route.protocol == .httpGql

def handleGraphqlGatewaySync (config : BusConfig) (state : RouteTable) : List (List Effect) :=
  let graphqlRoutes :=
    (state.localRoutes ++ state.internalRoutes.map (·.toDataChannelDefinition)).filter isGraphql
  if config.gatewayClient = false ∨ graphqlRoutes = [] then []
  else [[.updateConfig (graphqlRoutes.map fun r => (r.name, r.endpoint))]]

def handleEnvoySync (config : BusConfig) (alloc : Option PortAllocator) (state : RouteTable) :
    List (List Effect) :=
  if config.envoyClient then
    [[.updateRoutes ⟨state.localRoutes, state.internalRoutes, alloc.map (·.allocations)⟩]]
  else []

/-- `now - lastSent > holdTime / 3`, cleared of the division. -/
def needsKeepalive (lastKeepaliveSent : String → Int) (now : Int) (p : PeerRecord) : Bool :=
  p.connectionStatus == .connected && 0 < p.holdTime &&
    p.holdTime < 3 * (now - lastKeepaliveSent p.name)

def handleKeepalives (bus : Bus) (state : RouteTable) (now : Int) : List (List Effect) :=
  [(state.peers.filter (needsKeepalive bus.lastKeepaliveSent now)).map .sendKeepalive]

def tickKeepalives (bus : Bus) (action : Action) (state : RouteTable) : List (List Effect) :=
  match action with
  | .tick now => handleKeepalives bus state now
  | _ => []

def handlePostCommit (config : BusConfig) (bus : Bus) (action : Action) (plan : PlanResult) :
    List (List Effect) :=
  let committedState := bus.state
  handleBGPNotify config action plan committedState ++
    (if plan.routeChanges = [] then [] else handleGraphqlGatewaySync config committedState) ++
    (if plan.routeChanges = [] ∧ plan.portOps = [] then []
      else handleEnvoySync config bus.portAllocator committedState) ++
    tickKeepalives bus action committedState

/-! ### Dispatch -/

/-- What one queue slot does before its first await: the plan it committed, if
    any, its outcome, and the stages it then awaits. -/
structure DispatchResult where
  bus : Bus
  outcome : Except String RouteTable
  committed : Option PlanResult := none
  stages : List (List Effect) := []

/-- One slot of `OrchestratorBus.dispatch` at clock reading `now`. -/
def dispatch (config : BusConfig) (bus : Bus) (now : Int) (action : Action) : DispatchResult :=
  if lacksPeerToken action then
    { bus, outcome := .error "peerToken is required when creating a peer" }
  else
    match applyInboundPolicy config bus.state action with
    | none => { bus, outcome := .error "All routes rejected by inbound policy" }
    | some filteredAction =>
      let ribPlan := Rib.plan config.node.name now filteredAction bus.state
      if Rib.stateChanged ribPlan then
        let (plan, portAllocator) := planPorts bus.portAllocator ribPlan
        let committed := { bus with state := plan.newState, portAllocator }
        { bus := committed
          outcome := .ok plan.newState
          committed := some plan
          stages := handlePostCommit config committed action plan }
      else
        -- a Tick with no expired peers still fires keepalives
        { bus, outcome := .error "No state change", stages := tickKeepalives bus action bus.state }

/-- A keepalive that settled successfully is remembered for the next Tick. -/
def keepaliveSent (bus : Bus) (peerName : String) (now : Int) : Bus :=
  { bus with lastKeepaliveSent := Function.update bus.lastKeepaliveSent peerName now }

end Bus

end CatalystRouter
