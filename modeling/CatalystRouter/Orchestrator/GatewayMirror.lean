import Mathlib.Data.List.Induction
import CatalystRouter.Orchestrator.Notify
import CatalystRouter.Orchestrator.Runs

namespace CatalystRouter

/-- The service list that an effect pushes to the gateway, if it is such a push. -/
def Effect.services : Effect → Option (List (String × Option String))
  | .updateConfig services => some services
  | _ => none

/-- The GraphQL services of a table, local routes first. -/
def graphqlServices (state : RouteTable) : List (String × Option String) :=
  ((state.localRoutes ++ state.internalRoutes.map (·.toDataChannelDefinition)).filter Bus.isGraphql).map fun r =>
    (r.name, r.endpoint)

/-- A bus and the service list that its gateway has been given last. -/
structure GatewayedBus where
  bus : Bus
  services : List (String × Option String) := []

namespace GatewayedBus

/-- The service lists that a queue slot pushes, in order. -/
def serviceLists (stages : List (List Effect)) : List (List (String × Option String)) :=
  stages.flatten.filterMap Effect.services

/-- Every push of a slot reaches the gateway. -/
def step (config : BusConfig) (s : GatewayedBus) : Bus.Event → GatewayedBus
  | .dispatch now action =>
    let result := Bus.dispatch config s.bus now action
    { bus := result.bus, services := (serviceLists result.stages).getLast?.getD s.services }
  | .keepaliveSent peerName now => { s with bus := Bus.keepaliveSent s.bus peerName now }

abbrev run (config : BusConfig) (s : GatewayedBus) (events : List Bus.Event) : GatewayedBus :=
  Runs.run (step config) s events

/-- A bus on an empty table, and a gateway that was never given anything. -/
def start (portAllocator : Option PortAllocator) : GatewayedBus := { bus := { state := newRouteTable, portAllocator } }

variable {config : BusConfig} {portAllocator : Option PortAllocator}

theorem serviceLists_keepalives (bus : Bus) (action : Action) (state : RouteTable) :
    serviceLists (Bus.tickKeepalives bus action state) = [] := by
  refine List.filterMap_eq_nil_iff.mpr fun effect h => ?_
  obtain ⟨peer, rfl⟩ := Bus.mem_keepalives_cases h
  rfl

theorem serviceLists_gateway (hclient : config.gatewayClient = true) (state : RouteTable) :
    serviceLists (Bus.handleGraphqlGatewaySync config state) =
      if graphqlServices state = [] then [] else [graphqlServices state] := by
  have hservices : graphqlServices state = [] ↔
      (state.localRoutes ++ state.internalRoutes.map (·.toDataChannelDefinition)).filter Bus.isGraphql = [] :=
    List.map_eq_nil_iff
  simp only [Bus.handleGraphqlGatewaySync, hclient, hservices, reduceCtorEq, false_or]
  split <;> rfl

/-- A commit that changes routes pushes the services of its table, if there are any. -/
theorem serviceLists_postCommit (hclient : config.gatewayClient = true) (bus : Bus) (action : Action)
    (plan : PlanResult) :
    serviceLists (Bus.handlePostCommit config bus action plan) =
      if plan.routeChanges = [] ∨ graphqlServices bus.state = [] then [] else [graphqlServices bus.state] := by
  have hnotify : serviceLists (Bus.handleBGPNotify config action plan bus.state) = [] := by
    refine List.filterMap_eq_nil_iff.mpr fun effect h => ?_
    obtain ⟨peer, updates, rfl⟩ | ⟨peer, code, rfl⟩ := Bus.mem_notify_cases h <;> rfl
  have henvoy : serviceLists (if plan.routeChanges = [] ∧ plan.portOps = [] then []
      else Bus.handleEnvoySync config bus.portAllocator bus.state) = [] := by
    unfold Bus.handleEnvoySync
    split
    · rfl
    · split <;> rfl
  have happend (first second : List (List Effect)) :
      serviceLists (first ++ second) = serviceLists first ++ serviceLists second := by simp [serviceLists]
  unfold Bus.handlePostCommit
  dsimp only
  rw [happend, happend, happend, hnotify, henvoy, serviceLists_keepalives, List.nil_append, List.append_nil,
    List.append_nil]
  by_cases hquiet : plan.routeChanges = []
  · simp [hquiet, serviceLists]
  · simp only [hquiet, false_or]
    exact serviceLists_gateway hclient bus.state

/-- Ports do not show in the services. -/
theorem graphqlServices_of_unstamped {state state' : RouteTable}
    (hlocal : state'.localRoutes.map DataChannelDefinition.unstamped =
      state.localRoutes.map DataChannelDefinition.unstamped)
    (hinternal : state'.internalRoutes.map InternalRoute.unstamped = state.internalRoutes.map InternalRoute.unstamped) :
    graphqlServices state' = graphqlServices state := by
  have hreads (state : RouteTable) : graphqlServices state =
      ((state.localRoutes.map DataChannelDefinition.unstamped ++
        (state.internalRoutes.map InternalRoute.unstamped).map (·.toDataChannelDefinition)).filter Bus.isGraphql).map
          fun r => (r.name, r.endpoint) := by
    unfold graphqlServices
    simp only [List.filter_append, List.filter_map, List.map_append, List.map_map]
    rfl
  rw [hreads, hreads, hlocal, hinternal]

/-- The gateway has been given the services of the table, if there are any. -/
def Mirrors (s : GatewayedBus) : Prop :=
  graphqlServices s.bus.state ≠ [] → s.services = graphqlServices s.bus.state

/-- After a slot the gateway has the services of the table, and where there are none
    it has what it had. -/
theorem step_services (hclient : config.gatewayClient = true) {s : GatewayedBus} (h : s.Mirrors) (event : Bus.Event) :
    (step config s event).Mirrors ∧
      (graphqlServices (step config s event).bus.state = [] → (step config s event).services = s.services) := by
  cases event with
  | keepaliveSent peerName now => exact ⟨h, fun _ => rfl⟩
  | dispatch now action =>
    have hshape := Bus.dispatch_shape config s.bus now action
    simp only [step, Mirrors]
    generalize Bus.dispatch config s.bus now action = result at hshape ⊢
    cases hshape with
    | rejected => exact ⟨h, fun _ => rfl⟩
    | idle =>
      rw [serviceLists_keepalives]
      exact ⟨h, fun _ => rfl⟩
    | committed filteredAction plan portAllocator hfiltered hchanged hports =>
      rw [serviceLists_postCommit hclient]
      by_cases hquiet : plan.routeChanges = []
      · have honly := Bus.portsOnly_of_planPorts hports
        have hribQuiet : (Rib.plan config.node.name now filteredAction s.bus.state).routeChanges = [] := by
          have hchanges := honly.routeChanges
          rw [hquiet] at hchanges
          exact List.map_eq_nil_iff.mp hchanges.symm
        obtain ⟨hlocal, hinternal⟩ := Rib.plan_quiet hribQuiet
        have hsame : graphqlServices plan.newState = graphqlServices s.bus.state := by
          refine graphqlServices_of_unstamped ?_ ?_
          · rw [honly.localRoutes, hlocal]
          · rw [honly.internalRoutes, hinternal]
        rw [if_pos (.inl hquiet), hsame]
        exact ⟨h, fun _ => rfl⟩
      · constructor
        · intro hsome
          rw [if_neg (not_or.mpr ⟨hquiet, hsome⟩)]
          rfl
        · intro hnone
          rw [if_pos (.inr hnone)]
          rfl

/-- Along a run the gateway mirrors every table with services, and it has been given
    something exactly when some table had one. -/
theorem run_services (hclient : config.gatewayClient = true) (portAllocator : Option PortAllocator)
    (events : List Bus.Event) :
    (run config (start portAllocator) events).Mirrors ∧
      ((run config (start portAllocator) events).services = [] ↔
        ∀ early late, events = early ++ late →
          graphqlServices (run config (start portAllocator) early).bus.state = []) := by
  induction events using List.reverseRecOn with
  | nil =>
    refine ⟨fun hsome => absurd rfl hsome, fun _ early late hsplit => ?_, fun _ => rfl⟩
    rw [(List.nil_eq_append_iff.mp hsplit).1]
    rfl
  | append_singleton events event ih =>
    obtain ⟨hmirrors, hempty⟩ := ih
    obtain ⟨hnext, hkept⟩ := step_services hclient hmirrors event
    have hrun : run config (start portAllocator) (events ++ [event]) =
        step config (run config (start portAllocator) events) event := Runs.run_concat _ _ _ _
    rw [hrun]
    refine ⟨hnext, ?_, ?_⟩
    · intro hnone early late hsplit
      have hlast : graphqlServices (step config (run config (start portAllocator) events) event).bus.state = [] := by
        by_contra hsome
        exact hsome ((hnext hsome).symm.trans hnone)
      rcases List.append_eq_append_iff.mp hsplit with ⟨middle, rfl, hrest⟩ | ⟨middle, rfl, hrest⟩
      · rcases List.append_eq_singleton_iff.mp hrest.symm with ⟨rfl, rfl⟩ | ⟨rfl, rfl⟩
        · rw [List.append_nil]
          exact hempty.mp ((hkept hlast).symm.trans hnone) events [] (List.append_nil events).symm
        · rw [hrun]
          exact hlast
      · exact hempty.mp ((hkept hlast).symm.trans hnone) early middle rfl
    · intro hnone
      have hlast := hnone (events ++ [event]) [] (List.append_nil _).symm
      rw [hrun] at hlast
      refine (hkept hlast).trans (hempty.mpr fun early late hsplit => ?_)
      exact hnone early (late ++ [event]) (by rw [hsplit, List.append_assoc])

/-- The gateway's list is the table's exactly while the table has a GraphQL route, or
    none has had one so far. -/
theorem run_mirrors_iff (hclient : config.gatewayClient = true) (portAllocator : Option PortAllocator)
    (events : List Bus.Event) :
    (run config (start portAllocator) events).services =
        graphqlServices (run config (start portAllocator) events).bus.state ↔
      (graphqlServices (run config (start portAllocator) events).bus.state ≠ [] ∨
        ∀ early late, events = early ++ late →
          graphqlServices (run config (start portAllocator) early).bus.state = []) := by
  obtain ⟨hmirrors, hempty⟩ := run_services hclient portAllocator events
  rw [← hempty]
  by_cases hnone : graphqlServices (run config (start portAllocator) events).bus.state = []
  · simp [hnone]
  · simp [hnone, hmirrors hnone]

/-- A GraphQL service is registered, and deleted again. -/
def usersService : List Bus.Event :=
  [.dispatch 1 (.localRouteCreate
      { name := "users-gql", protocol := .httpGraphql, endpoint := some "http://users-svc:8080/graphql" }),
    .dispatch 2 (.localRouteDelete "users-gql")]

def gatewayNode : BusConfig := { node := { name := "node-a" }, gatewayClient := true }

theorem mirrors_users :
    (run gatewayNode (start none) (usersService.take 1)).services =
      graphqlServices (run gatewayNode (start none) (usersService.take 1)).bus.state :=
  (run_mirrors_iff rfl none _).mpr (.inl (by decide))

/-- The deletion of the last service is not pushed. -/
theorem users_linger :
    (run gatewayNode (start none) usersService).services ≠
      graphqlServices (run gatewayNode (start none) usersService).bus.state := by decide

end GatewayedBus

end CatalystRouter
