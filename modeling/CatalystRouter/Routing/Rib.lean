import CatalystRouter.Library.ModifyFirst
import CatalystRouter.Routing.State

namespace CatalystRouter

def noChange (state : RouteTable) : PlanResult :=
  { prevState := state, newState := state, sameReference := true }

/-- The release operations of removed routes that carry an `envoyPort`. -/
def releaseOps (removedRoutes : List InternalRoute) : List PortOperation :=
  removedRoutes.filterMap fun r =>
    r.envoyPort.map fun port => .release (routeKey r.toDataChannelDefinition) port

def removedChanges (removedRoutes : List InternalRoute) : List RouteChange :=
  removedRoutes.map fun r => ⟨.removed, .internal r⟩

def hasName (name : String) (p : PeerRecord) : Bool := p.name == name

/-- Rewrite the first peer record of that name, the one `findIndex` finds. -/
def RouteTable.updatePeer (state : RouteTable) (name : String) (f : PeerRecord → PeerRecord) :
    List PeerRecord :=
  state.peers.modifyFirst (hasName name) f

namespace Rib

def planLocalPeerCreate (data : PeerInfo) (state : RouteTable) : PlanResult :=
  if state.peers.any (hasName data.name) then noChange state
  else
    let newPeer : PeerRecord :=
      { data with
        connectionStatus := .initializing
        lastConnected := 0
        holdTime := 90000
        lastSent := 0
        lastReceived := 0 }
    { prevState := state, newState := { state with peers := state.peers ++ [newPeer] } }

/-- The value of an optional field in `{ ...existing, ...data }`: a field absent from `data`
    keeps its old value, and one that is there without a value loses it. -/
def spreadField {α : Type} (data : PeerUpdate) (field : PeerField) (value old : Option α) : Option α :=
  value <|> if field ∈ data.cleared then none else old

/-- `{ ...existing, ...data }` with the session fields of `existing`. -/
def mergePeerInfo (existing : PeerRecord) (data : PeerUpdate) : PeerRecord :=
  { existing with
    name := data.name
    domains := data.domains
    endpoint := spreadField data .endpoint data.endpoint existing.endpoint
    labels := spreadField data .labels data.labels existing.labels
    peerToken := spreadField data .peerToken data.peerToken existing.peerToken
    envoyAddress := spreadField data .envoyAddress data.envoyAddress existing.envoyAddress }

def planLocalPeerUpdate (data : PeerUpdate) (state : RouteTable) : PlanResult :=
  match state.peers.find? (hasName data.name) with
  | none => noChange state
  | some existing =>
    { prevState := state
      newState := { state with
        peers := state.updatePeer data.name fun _ => mergePeerInfo existing data } }

def planLocalPeerDelete (name : String) (state : RouteTable) : PlanResult :=
  let peers := state.peers.filter fun p => p.name != name
  if peers.length = state.peers.length then noChange state
  else
    let removedRoutes := state.internalRoutes.filter fun r => r.peer.name == name
    let routes := state.internalRoutes.filter fun r => r.peer.name != name
    { prevState := state
      newState := { state with peers, internalRoutes := routes }
      portOps := releaseOps removedRoutes
      routeChanges := removedChanges removedRoutes }

def planLocalRouteCreate (data : DataChannelDefinition) (state : RouteTable) : PlanResult :=
  if state.localRoutes.any fun r => r.name == data.name then noChange state
  else
    { prevState := state
      newState := { state with localRoutes := state.localRoutes ++ [data] }
      routeChanges := [⟨.added, .channel data⟩] }

def planLocalRouteDelete (name : String) (state : RouteTable) : PlanResult :=
  match state.localRoutes.find? fun r => r.name == name with
  | none => noChange state
  | some route =>
    { prevState := state
      newState := { state with localRoutes := state.localRoutes.filter fun r => r.name != name }
      portOps := match route.envoyPort with
        | some port => [.release (routeKey route) port]
        | none => []
      routeChanges := [⟨.removed, .channel route⟩] }

def planLocalRouteHealthUpdate (data : RouteHealth) (state : RouteTable) : PlanResult :=
  match state.localRoutes.find? fun r => r.name == data.name with
  | none => noChange state
  | some existing =>
    -- identical health fields are a no-op, to prevent iBGP churn
    if existing.healthStatus = some data.healthStatus ∧
        existing.responseTimeMs = some data.responseTimeMs ∧
        existing.lastChecked = some data.lastChecked then noChange state
    else
      let updated := { existing with
        healthStatus := some data.healthStatus
        responseTimeMs := some data.responseTimeMs
        lastChecked := some data.lastChecked }
      { prevState := state
        newState := { state with
          localRoutes := state.localRoutes.modifyFirst (fun r => r.name == data.name) fun _ => updated }
        routeChanges := [⟨.updated, .channel updated⟩] }

/-- `now` is the handler's reading of `Date.now()`. -/
def planInternalProtocolOpen (now : Int) (peerInfo : PeerInfo) (holdTime : Option Int)
    (state : RouteTable) : PlanResult :=
  match state.peers.find? (hasName peerInfo.name) with
  | none => noChange state
  | some existing =>
    let negotiatedHoldTime := match holdTime with
      | some offered => min existing.holdTime offered
      | none => existing.holdTime
    let updated := { existing with
      connectionStatus := .connected
      holdTime := negotiatedHoldTime
      lastReceived := now }
    { prevState := state
      newState := { state with peers := state.updatePeer peerInfo.name fun _ => updated } }

def planInternalProtocolConnected (now : Int) (peerInfo : PeerInfo) (state : RouteTable) : PlanResult :=
  match state.peers.find? (hasName peerInfo.name) with
  | none => noChange state
  | some existing =>
    let updated := { existing with
      connectionStatus := .connected
      lastConnected := now
      lastReceived := now
      holdTime := 90000
      lastSent := 0 }
    { prevState := state
      newState := { state with peers := state.updatePeer peerInfo.name fun _ => updated } }

def markStale (name : String) (r : InternalRoute) : InternalRoute :=
  if r.peer.name == name then { r with isStale := true } else r

def planInternalProtocolClose (peerInfo : PeerInfo) (code : Int) (state : RouteTable) : PlanResult :=
  if state.peers.any (hasName peerInfo.name) then
    let peerRoutes := state.internalRoutes.filter fun r => r.peer.name == peerInfo.name
    let peers := state.updatePeer peerInfo.name fun p => { p with connectionStatus := .closed }
    if code = CloseCodes.transportError then
      { prevState := state
        newState := { state with
          peers
          internalRoutes := state.internalRoutes.map (markStale peerInfo.name) }
        routeChanges := peerRoutes.map fun r => ⟨.updated, .internal { r with isStale := true }⟩ }
    else
      { prevState := state
        newState := { state with
          peers
          internalRoutes := state.internalRoutes.filter fun r => r.peer.name != peerInfo.name }
        portOps := releaseOps peerRoutes
        routeChanges := removedChanges peerRoutes }
  else noChange state

/-- What the update loop carries from one entry to the next: the running
    routes, and the changes and releases pushed so far. -/
structure UpdatePlan where
  routes : List InternalRoute
  routeChanges : List RouteChange := []
  portOps : List PortOperation := []
  deriving DecidableEq, Repr

def itemRoute (peerInfo : PeerInfo) (item : UpdateItem) : InternalRoute :=
  { item.route with
    peer := peerInfo
    nodePath := item.nodePath
    originNode := item.originNode
    isStale := false }

def sameKey (item : UpdateItem) (r : InternalRoute) : Bool := r.key == item.key

/-- One turn of the update loop over the running routes. -/
def planUpdateItem (nodeId : String) (peerInfo : PeerInfo) (routes : List InternalRoute)
    (item : UpdateItem) : UpdatePlan :=
  match item.action with
  | .add =>
    -- loop detection: the advertisement already passed through this node
    if nodeId ∈ item.nodePath then { routes }
    else
      let newRoute := itemRoute peerInfo item
      match routes.find? (sameKey item) with
      | some existing =>
        if item.nodePath.length < existing.nodePath.length ∨ existing.isStale = true then
          { routes := routes.modifyFirst (sameKey item) fun _ => newRoute
            routeChanges := [⟨.updated, .internal newRoute⟩] }
        else { routes }
      | none =>
        { routes := routes ++ [newRoute]
          routeChanges := [⟨.added, .internal newRoute⟩] }
  | .remove =>
    -- the entry's own peer is not consulted here
    match routes.find? (sameKey item) with
    | some removed =>
      { routes := routes.filter fun r => !sameKey item r
        routeChanges := [⟨.removed, .internal removed⟩]
        portOps := match removed.envoyPort with
          | some port => [.release (routeKey item.route) port]
          | none => [] }
    | none => { routes }

def planUpdateItems (nodeId : String) (peerInfo : PeerInfo) :
    List InternalRoute → List UpdateItem → UpdatePlan
  | routes, [] => { routes }
  | routes, item :: rest =>
    let first := planUpdateItem nodeId peerInfo routes item
    let others := planUpdateItems nodeId peerInfo first.routes rest
    { routes := others.routes
      routeChanges := first.routeChanges ++ others.routeChanges
      portOps := first.portOps ++ others.portOps }

def planInternalProtocolUpdate (nodeId : String) (now : Int) (peerInfo : PeerInfo)
    (updates : List UpdateItem) (state : RouteTable) : PlanResult :=
  let plan := planUpdateItems nodeId peerInfo state.internalRoutes updates
  let known := state.peers.any (hasName peerInfo.name)
  if plan.routeChanges = [] ∧ known = false then noChange state
  else
    { prevState := state
      newState := { state with
        peers := state.updatePeer peerInfo.name fun p => { p with lastReceived := now }
        internalRoutes := plan.routes }
      portOps := plan.portOps
      routeChanges := plan.routeChanges }

def planInternalProtocolKeepalive (now : Int) (peerInfo : PeerInfo) (state : RouteTable) : PlanResult :=
  if state.peers.any (hasName peerInfo.name) then
    { prevState := state
      newState := { state with
        peers := state.updatePeer peerInfo.name fun p => { p with lastReceived := now } } }
  else noChange state

/-- The hold-timer test shared by expiry and stale purge. -/
def holdElapsed (now : Int) (p : PeerRecord) : Bool :=
  0 < p.holdTime && 0 < p.lastReceived && p.holdTime < now - p.lastReceived

def expired (now : Int) (p : PeerRecord) : Bool :=
  p.connectionStatus == .connected && holdElapsed now p

/-- Close the peers whose hold timer has run out. -/
def expirePeer (now : Int) (p : PeerRecord) : PeerRecord :=
  if expired now p then { p with connectionStatus := .closed } else p

def hasStaleRoutes (routes : List InternalRoute) (name : String) : Bool :=
  routes.any fun r => r.peer.name == name && r.isStale

/-- The names whose routes a Tick removes: peers expiring now, and closed peers
    past the same limit that still hold a stale route. -/
def purgedPeerNames (now : Int) (state : RouteTable) : List String :=
  let peers := state.peers.map (expirePeer now)
  (state.peers.filter (expired now)).map (·.name) ++
    (peers.filter fun p => p.connectionStatus == .closed && holdElapsed now p &&
      hasStaleRoutes state.internalRoutes p.name).map (·.name)

def planTick (now : Int) (state : RouteTable) : PlanResult :=
  let purged := purgedPeerNames now state
  if purged = [] then noChange state
  else
    let removedRoutes := state.internalRoutes.filter fun r => purged.contains r.peer.name
    let routes := state.internalRoutes.filter fun r => !purged.contains r.peer.name
    { prevState := state
      newState := { state with
        peers := state.peers.map (expirePeer now)
        internalRoutes := routes }
      portOps := releaseOps removedRoutes
      routeChanges := removedChanges removedRoutes }

/-- `RoutingInformationBase.plan` of node `nodeId` at clock reading `now`. -/
def plan (nodeId : String) (now : Int) (action : Action) (state : RouteTable) : PlanResult :=
  match action with
  | .localPeerCreate data => planLocalPeerCreate data state
  | .localPeerUpdate data => planLocalPeerUpdate data state
  | .localPeerDelete name => planLocalPeerDelete name state
  | .localRouteCreate data => planLocalRouteCreate data state
  | .localRouteDelete name => planLocalRouteDelete name state
  | .localRouteHealthUpdate data => planLocalRouteHealthUpdate data state
  | .internalProtocolOpen peerInfo holdTime => planInternalProtocolOpen now peerInfo holdTime state
  | .internalProtocolConnected peerInfo => planInternalProtocolConnected now peerInfo state
  | .internalProtocolClose peerInfo code => planInternalProtocolClose peerInfo code state
  | .internalProtocolUpdate peerInfo updates => planInternalProtocolUpdate nodeId now peerInfo updates state
  | .internalProtocolKeepalive peerInfo => planInternalProtocolKeepalive now peerInfo state
  | .tick tickNow => planTick tickNow state

def stateChanged (plan : PlanResult) : Bool := !plan.sameReference

end Rib

end CatalystRouter
