import CatalystRouter.Orchestrator.Bus
import CatalystRouter.Routing.PeerTokens

namespace CatalystRouter

section MapTokens

variable (f : String → String)

def EnvoyRouteConfig.mapTokens (config : EnvoyRouteConfig) : EnvoyRouteConfig :=
  { config with internalRoutes := config.internalRoutes.map (·.mapToken f) }

def Effect.mapTokens : Effect → Effect
  | .sendUpdate peer updates => .sendUpdate (peer.mapToken f) updates
  | .sendKeepalive peer => .sendKeepalive (peer.mapToken f)
  | .closePeer peer code => .closePeer (peer.mapToken f) code
  | .updateConfig services => .updateConfig services
  | .updateRoutes config => .updateRoutes (config.mapTokens f)

def Bus.mapTokens (bus : Bus) : Bus := { bus with state := bus.state.mapTokens f }

def Bus.DispatchResult.mapTokens (result : Bus.DispatchResult) : Bus.DispatchResult :=
  { bus := result.bus.mapTokens f
    outcome := result.outcome.map (·.mapTokens f)
    committed := result.committed.map (·.mapTokens f)
    stages := result.stages.map (·.map (·.mapTokens f)) }

end MapTokens

namespace Bus

variable {f : String → String} {config : BusConfig}

/-! ### Ports -/

theorem releaseRemoved_mapToken (alloc : PortAllocator) (change : RouteChange) :
    releaseRemoved alloc (change.mapToken f) = releaseRemoved alloc change := by
  obtain ⟨type, route⟩ := change
  cases type <;> cases route <;> rfl

theorem releaseAllRemoved_mapTokens (alloc : PortAllocator) (changes : List RouteChange) :
    releaseAllRemoved alloc (changes.map (·.mapToken f)) = releaseAllRemoved alloc changes := by
  induction changes generalizing alloc with
  | nil => rfl
  | cons change rest ih => simp only [List.map_cons, releaseAllRemoved, releaseRemoved_mapToken, ih]

theorem allocateEgress_mapTokens (alloc : PortAllocator) (routes : List InternalRoute) :
    allocateEgress alloc (routes.map (·.mapToken f)) =
      { allocateEgress alloc routes with routes := (allocateEgress alloc routes).routes.map (·.mapToken f) } := by
  induction routes generalizing alloc with
  | nil => rfl
  | cons route rest ih =>
    rw [List.map_cons]
    simp only [allocateEgress, show (route.mapToken f).egressKey = route.egressKey from rfl]
    obtain ⟨port, alloc⟩ := alloc.allocate route.egressKey
    cases port <;> simp only [ih] <;> rfl

theorem stampChange_mapToken (localPortMap egressPortMap : List (String × Int)) (change : RouteChange) :
    stampChange localPortMap egressPortMap (change.mapToken f) =
      (stampChange localPortMap egressPortMap change).mapToken f := by
  obtain ⟨type, route⟩ := change
  cases route with
  | channel route =>
    cases type with
    | removed => rfl
    | added | updated =>
      simp only [stampChange, RouteChange.mapToken, ChangedRoute.mapToken]
      cases localPortMap.lookup route.name with
      | none => rfl
      | some port =>
        dsimp only
        split <;> rfl
  | internal route =>
    cases type with
    | removed => rfl
    | added | updated =>
      simp only [stampChange, RouteChange.mapToken, ChangedRoute.mapToken,
        show (route.mapToken f).egressKey = route.egressKey from rfl]
      cases egressPortMap.lookup route.egressKey with
      | none => rfl
      | some port =>
        dsimp only
        rw [show (route.mapToken f).envoyPort = route.envoyPort from rfl]
        split <;> rfl

/-- Ports are planned alike whatever the tokens are. -/
theorem planPortAllocations_mapTokens (alloc : PortAllocator) (plan : PlanResult) :
    planPortAllocations alloc (plan.mapTokens f) =
      ((planPortAllocations alloc plan).1.mapTokens f, (planPortAllocations alloc plan).2) := by
  simp only [planPortAllocations, PlanResult.mapTokens, RouteTable.mapTokens, releaseAllRemoved_mapTokens,
    allocateEgress_mapTokens, List.map_map]
  simp [Function.comp_def, stampChange_mapToken]

theorem planPorts_mapTokens (portAllocator : Option PortAllocator) (plan : PlanResult) :
    planPorts portAllocator (plan.mapTokens f) =
      ((planPorts portAllocator plan).1.mapTokens f, (planPorts portAllocator plan).2) := by
  cases portAllocator with
  | none => rfl
  | some alloc => simp only [planPorts, planPortAllocations_mapTokens]

/-! ### Messages -/

section Messages

variable (hpolicy : config.routePolicy = none)

include hpolicy

/-- A full sync says the same. -/
theorem syncUpdates_mapTokens (peer : PeerRecord) (state : RouteTable) :
    syncUpdates config (peer.mapToken f) (state.mapTokens f) = syncUpdates config peer state := by
  have hsyncable : ∀ r : InternalRoute, syncable config (peer.mapToken f) (r.mapToken f) = syncable config peer r := by
    intro r
    simp only [syncable, policyAllowsSend, hpolicy]
    rfl
  simp only [syncUpdates, RouteTable.mapTokens, List.filter_map, List.map_map, Function.comp_def, hsyncable]
  rfl

theorem changeItem_mapToken (peer : PeerRecord) (change : RouteChange) :
    changeItem config (peer.mapToken f) (change.mapToken f) = changeItem config peer change := by
  obtain ⟨type, route⟩ := change
  cases route with
  | channel => rfl
  | internal route =>
    simp only [changeItem, RouteChange.mapToken, ChangedRoute.mapToken, policyAllowsSend, hpolicy]
    rfl

/-- So do the deltas of a dispatch. -/
theorem buildUpdatesForPeer_mapTokens (peer : PeerRecord) (plan : PlanResult) :
    buildUpdatesForPeer config (peer.mapToken f) (plan.mapTokens f) = buildUpdatesForPeer config peer plan := by
  simp [buildUpdatesForPeer, PlanResult.mapTokens, List.filterMap_map, changeItem_mapToken hpolicy]

end Messages

theorem connectedPeers_mapTokens (state : RouteTable) :
    connectedPeers (state.mapTokens f) = (connectedPeers state).map (·.mapToken f) := by
  simp only [connectedPeers, RouteTable.mapTokens, List.filter_map]
  rfl

theorem sendUpdate_mapToken (peer : PeerRecord) (updates : List UpdateItem) :
    sendUpdate (peer.mapToken f) updates = (sendUpdate peer updates).map (·.mapTokens f) := by
  unfold sendUpdate
  split <;> rfl

/-- The fan-out reaches the same peers with the same items. -/
theorem fanOut_mapTokens (hpolicy : config.routePolicy = none) (plan : PlanResult) (state : RouteTable) :
    fanOut config (plan.mapTokens f) (state.mapTokens f) = (fanOut config plan state).map (·.mapTokens f) := by
  simp [fanOut, connectedPeers_mapTokens, List.flatMap_map, List.map_flatMap, buildUpdatesForPeer_mapTokens hpolicy,
    sendUpdate_mapToken]

/-- The delta stage, left out when the plan has no route change. -/
theorem fanOutStage_mapTokens (hpolicy : config.routePolicy = none) (plan : PlanResult) (state : RouteTable) :
    (if (plan.mapTokens f).routeChanges = [] then []
      else [fanOut config (plan.mapTokens f) (state.mapTokens f)]) =
      (if plan.routeChanges = [] then [] else [fanOut config plan state]).map (·.map (·.mapTokens f)) := by
  rw [fanOut_mapTokens hpolicy]
  simp only [show (plan.mapTokens f).routeChanges = [] ↔ plan.routeChanges = [] from List.map_eq_nil_iff]
  split <;> rfl

/-- So does the whole notification. -/
theorem handleBGPNotify_mapTokens (hpolicy : config.routePolicy = none) (action : Action) (plan : PlanResult)
    (state : RouteTable) :
    handleBGPNotify config (action.mapToken f) (plan.mapTokens f) (state.mapTokens f) =
      (handleBGPNotify config action plan state).map (·.map (·.mapTokens f)) := by
  cases action with
  | internalProtocolConnected peerInfo =>
    simp only [Action.mapToken, handleBGPNotify, connectedPeers_mapTokens, PeerInfo.mapToken_name, List.find?_map]
    rw [show hasName peerInfo.name ∘ (fun p => PeerRecord.mapToken f p) = hasName peerInfo.name from rfl]
    cases (connectedPeers state).find? (hasName peerInfo.name) with
    | none => rfl
    | some peer => simp [syncUpdates_mapTokens hpolicy, sendUpdate_mapToken]
  | localPeerDelete name =>
    simp only [Action.mapToken, handleBGPNotify, List.map_append, fanOutStage_mapTokens hpolicy]
    rw [show (plan.mapTokens f).prevState = plan.prevState.mapTokens f from rfl, Rib.find?_hasName_mapTokens]
    cases plan.prevState.peers.find? (hasName name) <;> rfl
  | _ => exact fanOutStage_mapTokens hpolicy plan state

/-- The gateway is told the same. -/
theorem handleGraphqlGatewaySync_mapTokens (state : RouteTable) :
    handleGraphqlGatewaySync config (state.mapTokens f) =
      (handleGraphqlGatewaySync config state).map (·.map (·.mapTokens f)) := by
  have hroutes : (state.mapTokens f).internalRoutes.map (·.toDataChannelDefinition) =
      state.internalRoutes.map (·.toDataChannelDefinition) := by
    simp [RouteTable.mapTokens, InternalRoute.mapToken]
  simp only [handleGraphqlGatewaySync, hroutes, show (state.mapTokens f).localRoutes = state.localRoutes from rfl]
  split <;> rfl

/-- So is Envoy. -/
theorem handleEnvoySync_mapTokens (alloc : Option PortAllocator) (state : RouteTable) :
    handleEnvoySync config alloc (state.mapTokens f) =
      (handleEnvoySync config alloc state).map (·.map (·.mapTokens f)) := by
  unfold handleEnvoySync
  split <;> rfl

/-- Keepalives go to the same peers. -/
theorem tickKeepalives_mapTokens (bus : Bus) (action : Action) (state : RouteTable) :
    tickKeepalives (bus.mapTokens f) (action.mapToken f) (state.mapTokens f) =
      (tickKeepalives bus action state).map (·.map (·.mapTokens f)) := by
  cases action with
  | tick now =>
    simp only [Action.mapToken, tickKeepalives, handleKeepalives, RouteTable.mapTokens, List.filter_map, List.map_map,
      List.map_cons, List.map_nil]
    rfl
  | _ => rfl

/-- All effects after a commit are the same up to the tokens. -/
theorem handlePostCommit_mapTokens (hpolicy : config.routePolicy = none) (bus : Bus) (action : Action)
    (plan : PlanResult) :
    handlePostCommit config (bus.mapTokens f) (action.mapToken f) (plan.mapTokens f) =
      (handlePostCommit config bus action plan).map (·.map (·.mapTokens f)) := by
  simp only [handlePostCommit, List.map_append, show (bus.mapTokens f).state = bus.state.mapTokens f from rfl,
    handleBGPNotify_mapTokens hpolicy, handleGraphqlGatewaySync_mapTokens, tickKeepalives_mapTokens,
    show (bus.mapTokens f).portAllocator = bus.portAllocator from rfl, handleEnvoySync_mapTokens,
    show (plan.mapTokens f).routeChanges = [] ↔ plan.routeChanges = [] from List.map_eq_nil_iff,
    show (plan.mapTokens f).portOps = plan.portOps from rfl]
  congr 2
  · congr 1
    split <;> rfl
  · split <;> rfl

/-! ### Dispatch -/

/-- Without a policy every received route passes. -/
theorem applyInboundPolicy_none (hpolicy : config.routePolicy = none) (state : RouteTable) (action : Action) :
    applyInboundPolicy config state action = some action := by
  cases action <;> simp [applyInboundPolicy, hpolicy]

/-- A renaming that keeps blank tokens blank keeps what is refused for want of one. -/
theorem lacksPeerToken_mapToken (hblank : ∀ token, blankToken (some (f token)) = blankToken (some token))
    (action : Action) : lacksPeerToken (action.mapToken f) = lacksPeerToken action := by
  cases action with
  | localPeerCreate data =>
    simp only [Action.mapToken, lacksPeerToken, PeerInfo.mapToken]
    cases data.peerToken with
    | none => rfl
    | some token => exact hblank token
  | _ => rfl

/-- Changing the tokens of the action and of the bus, blank ones into blank ones,
    changes those in the result of a slot, and nothing else. -/
theorem dispatch_mapTokens (hpolicy : config.routePolicy = none)
    (hblank : ∀ token, blankToken (some (f token)) = blankToken (some token)) (bus : Bus) (now : Int)
    (action : Action) :
    dispatch config (bus.mapTokens f) now (action.mapToken f) = (dispatch config bus now action).mapTokens f := by
  simp only [dispatch, lacksPeerToken_mapToken hblank, applyInboundPolicy_none hpolicy]
  split
  · rfl
  · rw [show (bus.mapTokens f).state = bus.state.mapTokens f from rfl,
      show (bus.mapTokens f).portAllocator = bus.portAllocator from rfl, Rib.plan_mapTokens, planPorts_mapTokens]
    generalize Rib.plan config.node.name now action bus.state = plan
    rw [show Rib.stateChanged (plan.mapTokens f) = Rib.stateChanged plan from rfl]
    split
    · obtain ⟨stamped, portAllocator⟩ := planPorts bus.portAllocator plan
      have hstages := handlePostCommit_mapTokens (f := f) hpolicy
        { bus with state := stamped.newState, portAllocator } action stamped
      simp only [DispatchResult.mapTokens, ← hstages]
      rfl
    · have hstages := tickKeepalives_mapTokens (f := f) bus action bus.state
      simp only [DispatchResult.mapTokens, ← hstages]
      rfl

end Bus

end CatalystRouter
