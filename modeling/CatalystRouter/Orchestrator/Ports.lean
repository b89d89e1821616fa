import CatalystRouter.Orchestrator.Bus
import CatalystRouter.Routing.Plan

namespace CatalystRouter

/-! Port planning rewrites `envoyPort` fields and nothing else. -/

def DataChannelDefinition.unstamped (route : DataChannelDefinition) : DataChannelDefinition :=
  { route with envoyPort := none }

def InternalRoute.unstamped (route : InternalRoute) : InternalRoute := { route with envoyPort := none }

def ChangedRoute.unstamped : ChangedRoute → ChangedRoute
  | .channel route => .channel route.unstamped
  | .internal route => .internal route.unstamped

def RouteChange.unstamped (change : RouteChange) : RouteChange :=
  { change with route := change.route.unstamped }

@[simp] theorem DataChannelDefinition.unstamped_stamp (route : DataChannelDefinition) (port : Option Int) :
    DataChannelDefinition.unstamped { route with envoyPort := port } = route.unstamped := rfl

@[simp] theorem InternalRoute.unstamped_stamp (route : InternalRoute) (port : Option Int) :
    InternalRoute.unstamped { route with envoyPort := port } = route.unstamped := rfl

namespace InternalRoute

variable {r s : InternalRoute} (h : r.unstamped = s.unstamped)

include h in
/-- Routes that agree up to their port have the same key. -/
theorem key_eq_of_unstamped : r.key = s.key :=
  have heq := congrArg InternalRoute.key h
  heq

include h in
theorem peer_eq_of_unstamped : r.peer = s.peer :=
  have heq := congrArg InternalRoute.peer h
  heq

include h in
theorem nodePath_eq_of_unstamped : r.nodePath = s.nodePath :=
  have heq := congrArg InternalRoute.nodePath h
  heq

include h in
theorem originNode_eq_of_unstamped : r.originNode = s.originNode :=
  have heq := congrArg InternalRoute.originNode h
  heq

include h in
theorem isStale_eq_of_unstamped : r.isStale = s.isStale :=
  have heq := congrArg InternalRoute.isStale h
  heq

end InternalRoute

/-- `plan'` is `plan` with other ports. -/
structure PortsOnly (plan plan' : PlanResult) : Prop where
  prevState : plan'.prevState = plan.prevState
  peers : plan'.newState.peers = plan.newState.peers
  localRoutes : plan'.newState.localRoutes.map DataChannelDefinition.unstamped =
    plan.newState.localRoutes.map DataChannelDefinition.unstamped
  internalRoutes : plan'.newState.internalRoutes.map InternalRoute.unstamped =
    plan.newState.internalRoutes.map InternalRoute.unstamped
  routeChanges : plan'.routeChanges.map RouteChange.unstamped = plan.routeChanges.map RouteChange.unstamped

/-- Every route of the table with ports is, up to its port, one of the plan. -/
theorem PortsOnly.exists_planned {ribPlan plan : PlanResult} (honly : PortsOnly ribPlan plan) {r : InternalRoute}
    (hr : r ∈ plan.newState.internalRoutes) :
    ∃ planned ∈ ribPlan.newState.internalRoutes, planned.unstamped = r.unstamped := by
  have hmem : r.unstamped ∈ plan.newState.internalRoutes.map InternalRoute.unstamped := List.mem_map_of_mem hr
  rw [honly.internalRoutes] at hmem
  exact List.mem_map.mp hmem

namespace Bus

/-- An allocation for local routes changes ports only. -/
theorem allocateLocal_unstamped (routes : List DataChannelDefinition) :
    ∀ alloc, (allocateLocal alloc routes).routes.map DataChannelDefinition.unstamped =
      routes.map DataChannelDefinition.unstamped := by
  induction routes with
  | nil => exact fun _ => rfl
  | cons route rest ih =>
    intro alloc
    rw [allocateLocal]
    split
    · simp [ih]
    · split <;> simp [ih]

/-- So does one for internal routes. -/
theorem allocateEgress_unstamped (routes : List InternalRoute) :
    ∀ alloc, (allocateEgress alloc routes).routes.map InternalRoute.unstamped =
      routes.map InternalRoute.unstamped := by
  induction routes with
  | nil => exact fun _ => rfl
  | cons route rest ih =>
    intro alloc
    rw [allocateEgress]
    split <;> simp [ih]

/-- So does stamping a change. -/
@[simp] theorem stampChange_unstamped (localPortMap egressPortMap : List (String × Int))
    (change : RouteChange) :
    (stampChange localPortMap egressPortMap change).unstamped = change.unstamped := by
  obtain ⟨type, route⟩ := change
  unfold stampChange
  cases type <;> cases route <;> dsimp only <;> (try split) <;> (try split) <;> rfl

/-- Planning ports changes ports only. -/
theorem planPorts_portsOnly (portAllocator : Option PortAllocator) (plan : PlanResult) :
    PortsOnly plan (planPorts portAllocator plan).1 := by
  cases portAllocator with
  | none => exact ⟨rfl, rfl, rfl, rfl, rfl⟩
  | some alloc =>
    exact ⟨rfl, rfl, allocateLocal_unstamped _ _, allocateEgress_unstamped _ _,
      by simp [planPorts, planPortAllocations, Function.comp_def]⟩

/-- The same of a plan with ports that is given. -/
theorem portsOnly_of_planPorts {portAllocator portAllocator' : Option PortAllocator} {ribPlan plan : PlanResult}
    (hports : planPorts portAllocator ribPlan = (plan, portAllocator')) : PortsOnly ribPlan plan := by
  have honly := planPorts_portsOnly portAllocator ribPlan
  rw [hports] at honly
  exact honly

/-! ### What one queue slot does -/

/-- The outcomes of `dispatch`: rejected before planning, planned without a
    state change, or committed. -/
inductive DispatchShape (config : BusConfig) (bus : Bus) (now : Int) (action : Action) :
    DispatchResult → Prop where
  | rejected (error : String)
      (hreason : lacksPeerToken action = true ∨ applyInboundPolicy config bus.state action = none) :
      DispatchShape config bus now action { bus, outcome := .error error }
  | idle (filteredAction : Action) (hfiltered : applyInboundPolicy config bus.state action = some filteredAction)
      (hsame : (Rib.plan config.node.name now filteredAction bus.state).sameReference = true) :
      DispatchShape config bus now action
        { bus, outcome := .error "No state change", stages := tickKeepalives bus action bus.state }
  | committed (filteredAction : Action) (plan : PlanResult) (portAllocator : Option PortAllocator)
      (hfiltered : applyInboundPolicy config bus.state action = some filteredAction)
      (hchanged : (Rib.plan config.node.name now filteredAction bus.state).sameReference = false)
      (hports : planPorts bus.portAllocator (Rib.plan config.node.name now filteredAction bus.state) =
        (plan, portAllocator)) :
      DispatchShape config bus now action
        { bus := { bus with state := plan.newState, portAllocator }
          outcome := .ok plan.newState
          committed := some plan
          stages := handlePostCommit config { bus with state := plan.newState, portAllocator } action plan }

/-- A dispatch takes one of the shapes of `DispatchShape`. -/
theorem dispatch_shape (config : BusConfig) (bus : Bus) (now : Int) (action : Action) :
    DispatchShape config bus now action (dispatch config bus now action) := by
  unfold dispatch
  dsimp only
  split
  · rename_i htoken
    exact .rejected _ (.inl htoken)
  · cases hfiltered : applyInboundPolicy config bus.state action with
    | none => exact .rejected _ (.inr hfiltered)
    | some filteredAction =>
      dsimp only
      cases hsame : (Rib.plan config.node.name now filteredAction bus.state).sameReference with
      | true =>
        simp only [Rib.stateChanged, hsame]
        exact .idle filteredAction hfiltered hsame
      | false =>
        simp only [Rib.stateChanged, hsame]
        exact .committed filteredAction _ _ hfiltered hsame rfl

/-- A plan that reports no change leaves the table as it was. -/
theorem plan_newState_of_sameReference {nodeId : String} {now : Int} {action : Action} {state : RouteTable}
    (h : (Rib.plan nodeId now action state).sameReference = true) :
    (Rib.plan nodeId now action state).newState = state := by
  have hshape := Rib.plan_shape nodeId now action state
  generalize Rib.plan nodeId now action state = result at hshape h ⊢
  cases hshape with
  | unchanged => rfl
  | session | stale | created | deleted | health | update => simp at h
  | withdraw => simp [Rib.withdrawPlan] at h

/-- Without a policy every action passes. -/
theorem applyInboundPolicy_of_no_policy {config : BusConfig} (h : config.routePolicy = none) (state : RouteTable)
    (action : Action) : applyInboundPolicy config state action = some action := by
  unfold applyInboundPolicy
  split
  · rename_i hsome
    rw [h] at hsome
    cases hsome
  · rfl

/-- The inbound policy only ever thins out an update's entries. -/
theorem applyInboundPolicy_cases {config : BusConfig} {state : RouteTable} {action filteredAction : Action}
    (h : applyInboundPolicy config state action = some filteredAction) :
    filteredAction = action ∨ ∃ peerInfo updates filteredUpdates,
      action = .internalProtocolUpdate peerInfo updates ∧
      filteredAction = .internalProtocolUpdate peerInfo filteredUpdates ∧
      filteredUpdates.Sublist updates := by
  unfold applyInboundPolicy at h
  split at h
  · split at h
    · exact .inl (by simpa using h.symm)
    · dsimp only at h
      split at h
      · cases h
      · exact .inr ⟨_, _, _, rfl, (Option.some.inj h).symm, List.filter_sublist⟩
  · exact .inl (by simpa using h.symm)

end Bus

end CatalystRouter
