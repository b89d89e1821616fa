import CatalystRouter.Envoy.RpcServer
import CatalystRouter.Network.PathVector
import CatalystRouter.Orchestrator.KeyEffect
import CatalystRouter.Orchestrator.Stamping

namespace CatalystRouter

/-- The config an effect pushes to the Envoy service, if it is a push. -/
def Effect.routeConfig : Effect → Option EnvoyRouteConfig
  | .updateRoutes config => some config
  | _ => none

namespace Bus

/-- The configs that a queue slot pushes. -/
def DispatchResult.pushes (result : DispatchResult) : List EnvoyRouteConfig :=
  result.stages.flatten.filterMap Effect.routeConfig

/-- The config that describes a bus. -/
def routeConfig (bus : Bus) : EnvoyRouteConfig :=
  ⟨bus.state.localRoutes, bus.state.internalRoutes, bus.portAllocator.map (·.allocations)⟩

/-- A notification of peers is no push to Envoy. -/
theorem routeConfig_of_notify {config : BusConfig} {action : Action} {plan : PlanResult} {state : RouteTable}
    {effect : Effect} (h : effect ∈ (handleBGPNotify config action plan state).flatten) :
    effect.routeConfig = none := by
  obtain ⟨peer, updates, rfl⟩ | ⟨peer, code, rfl⟩ := mem_notify_cases h <;> rfl

/-- Nor are keepalives. -/
theorem routeConfig_of_keepalives {bus : Bus} {action : Action} {state : RouteTable} {effect : Effect}
    (h : effect ∈ (tickKeepalives bus action state).flatten) : effect.routeConfig = none := by
  obtain ⟨peer, rfl⟩ := mem_keepalives_cases h
  rfl

/-- Nor is a push to the gateway. -/
theorem routeConfig_of_gateway {config : BusConfig} {state : RouteTable} {effect : Effect}
    (h : effect ∈ (handleGraphqlGatewaySync config state).flatten) : effect.routeConfig = none := by
  unfold handleGraphqlGatewaySync at h
  dsimp only at h
  split at h
  · cases h
  · obtain rfl : effect = _ := by simpa using h
    rfl

/-- A commit pushes the new state, unless neither a route nor a port moved. -/
theorem pushes_postCommit {config : BusConfig} (henvoy : config.envoyClient = true) (bus : Bus) (action : Action)
    (plan : PlanResult) :
    (handlePostCommit config bus action plan).flatten.filterMap Effect.routeConfig =
      if plan.routeChanges = [] ∧ plan.portOps = [] then [] else [bus.routeConfig] := by
  have hnotify : (handleBGPNotify config action plan bus.state).flatten.filterMap Effect.routeConfig = [] :=
    List.filterMap_eq_nil_iff.mpr fun effect h => routeConfig_of_notify h
  have hgateway : ((if plan.routeChanges = [] then [] else handleGraphqlGatewaySync config bus.state).flatten).filterMap
      Effect.routeConfig = [] := by
    refine List.filterMap_eq_nil_iff.mpr fun effect h => ?_
    split at h
    · cases h
    · exact routeConfig_of_gateway h
  have hkeepalives : (tickKeepalives bus action bus.state).flatten.filterMap Effect.routeConfig = [] :=
    List.filterMap_eq_nil_iff.mpr fun effect h => routeConfig_of_keepalives h
  simp only [handlePostCommit, List.flatten_append, List.filterMap_append, hnotify, hgateway, hkeepalives,
    List.nil_append, List.append_nil]
  split
  · rfl
  · simp [handleEnvoySync, henvoy, Effect.routeConfig, routeConfig]

end Bus

/-! ### One node: a bus and its Envoy service -/

/-- Feed the pushes of a queue slot to the service, in order. -/
def EnvoyRpcServer.receive (runtime : XdsRuntime) (self : EnvoyRpcServer) (configs : List EnvoyRouteConfig) :
    EnvoyRpcServer :=
  configs.foldl (fun server config => (server.updateRoutes runtime config).1) self

/-- The snapshot that the service publishes was built from the tables and
    allocations of the bus. -/
structure Publishes (runtime : XdsRuntime) (bus : Bus) (server : EnvoyRpcServer)
    (input : Envoy.BuildXdsSnapshotInput) (snapshot : XdsSnapshot) : Prop where
  published : server.previousSnapshot = some snapshot
  built : Envoy.buildXdsSnapshot runtime input = .ok snapshot
  localRoutes : input.localRoutes = bus.state.localRoutes
  internalRoutes : input.internalRoutes = bus.state.internalRoutes
  portOf : ∀ key, input.portOf key = Bus.heldPort bus.portAllocator key

/-- What a node with an allocator and an Envoy service keeps: settled ports,
    and a published snapshot of its tables once there are any routes. -/
structure Provisioned (runtime : XdsRuntime) (bus : Bus) (server : EnvoyRpcServer) : Prop where
  keyed : Rib.RouteTable.WellKeyed bus.state
  allocator : bus.portAllocator ≠ none
  saturated : Bus.Saturated bus.portAllocator bus.state
  publishes : (bus.state.localRoutes = [] ∧ bus.state.internalRoutes = []) ∨
    ∃ input snapshot, Publishes runtime bus server input snapshot

section Slot

variable {runtime : XdsRuntime} {config : BusConfig} {bus : Bus} {server : EnvoyRpcServer}

theorem Bus.saturated_congr {portAllocator : Option PortAllocator} {state state' : RouteTable}
    (hlocal : state'.localRoutes = state.localRoutes) (hinternal : state'.internalRoutes = state.internalRoutes)
    (h : Bus.Saturated portAllocator state) : Bus.Saturated portAllocator state' :=
  ⟨by rw [hlocal]; exact h.localRoutes, by rw [hinternal]; exact h.internalRoutes⟩

/-- Only the tables and the allocator matter. -/
theorem Provisioned.congr (h : Provisioned runtime bus server) {bus' : Bus}
    (hlocal : bus'.state.localRoutes = bus.state.localRoutes)
    (hinternal : bus'.state.internalRoutes = bus.state.internalRoutes)
    (hports : bus'.portAllocator = bus.portAllocator) : Provisioned runtime bus' server := by
  refine ⟨⟨hlocal ▸ h.keyed.localNames, hinternal ▸ h.keyed.internalKeys⟩, hports ▸ h.allocator, ?_, ?_⟩
  · rw [hports]
    exact Bus.saturated_congr hlocal hinternal h.saturated
  · rw [hlocal, hinternal]
    refine h.publishes.imp_right ?_
    rintro ⟨input, snapshot, hpublishes⟩
    exact ⟨input, snapshot, hpublishes.published, hpublishes.built, hpublishes.localRoutes.trans hlocal.symm,
      hpublishes.internalRoutes.trans hinternal.symm, hports ▸ hpublishes.portOf⟩

/-- An allocation that is found is in the list. -/
theorem mem_of_lookup {allocations : List (String × Int)} {key : String} {port : Int}
    (h : allocations.lookup key = some port) : (key, port) ∈ allocations := by
  induction allocations with
  | nil => cases h
  | cons entry rest ih =>
    obtain ⟨name, other⟩ := entry
    by_cases hkey : key = name
    · subst hkey
      simp_all
    · have hother : (key == name) = false := beq_eq_false_iff_ne.mpr hkey
      exact List.mem_cons_of_mem _ (ih (by simpa [List.lookup_cons, hother] using h))

/-- A served push publishes the bus it describes. -/
theorem publishes_of_serves (hallocator : bus.portAllocator ≠ none)
    (hserves : EnvoyRpcServer.Serves runtime bus.routeConfig) :
    ∃ input snapshot, Publishes runtime bus (server.receive runtime [bus.routeConfig]) input snapshot := by
  obtain ⟨snapshot, hbuilt, hpublished⟩ : ∃ snapshot,
      Envoy.buildXdsSnapshot runtime (server.snapshotInput bus.routeConfig) = .ok snapshot ∧
        (server.updateRoutes runtime bus.routeConfig).1.previousSnapshot = some snapshot :=
    EnvoyRpcServer.updateRoutes_of_serves hserves
  refine ⟨_, snapshot, hpublished, hbuilt, rfl, rfl, fun key => ?_⟩
  obtain ⟨alloc, halloc⟩ := Option.ne_none_iff_exists'.mp hallocator
  have hports : ∀ entry ∈ alloc.allocations, 1 ≤ entry.2 := by
    intro entry hmem
    have hwellFormed := hserves.wellFormed
    simp only [EnvoyRouteConfig.wellFormed, Bus.routeConfig, halloc, Option.map_some, Option.getD_some,
      Bool.and_eq_true, List.all_eq_true, decide_eq_true_eq] at hwellFormed
    exact (hwellFormed.2 entry hmem).1
  simp only [Envoy.BuildXdsSnapshotInput.portOf, EnvoyRpcServer.snapshotInput, Bus.routeConfig, halloc,
    Option.map_some, Option.getD_some, Bus.heldPort_some, PortAllocator.getPort]
  cases hlookup : alloc.allocations.lookup key with
  | none => rfl
  | some port =>
    have hpositive := hports (key, port) (mem_of_lookup hlookup)
    exact Envoy.nonZero_eq_some_iff.mpr ⟨rfl, by omega⟩

/-- A bus with an allocator keeps one. -/
theorem planPorts_allocator {portAllocator : Option PortAllocator} (h : portAllocator ≠ none) (plan : PlanResult) :
    (Bus.planPorts portAllocator plan).2 ≠ none := by
  cases portAllocator with
  | none => exact absurd rfl h
  | some alloc => simp [Bus.planPorts]

/-- A queue slot whose push can be served keeps its node provisioned. -/
theorem dispatch_provisioned (h : Provisioned runtime bus server) (henvoy : config.envoyClient = true) {now : Int}
    {action : Action}
    (hserves : ∀ pushed ∈ (Bus.dispatch config bus now action).pushes, EnvoyRpcServer.Serves runtime pushed) :
    Provisioned runtime (Bus.dispatch config bus now action).bus
      (server.receive runtime (Bus.dispatch config bus now action).pushes) := by
  have hkeyed := Bus.dispatch_wellKeyed config now action h.keyed
  have hshape := Bus.dispatch_shape config bus now action
  generalize Bus.dispatch config bus now action = result at hshape hserves hkeyed ⊢
  cases hshape with
  | rejected => exact h
  | idle =>
    have hnone : (Bus.tickKeepalives bus action bus.state).flatten.filterMap Effect.routeConfig = [] :=
      List.filterMap_eq_nil_iff.mpr fun effect heffect => Bus.routeConfig_of_keepalives heffect
    simp only [Bus.DispatchResult.pushes, hnone]
    exact h
  | committed filteredAction plan portAllocator hfiltered hchanged hports =>
    simp only [Bus.DispatchResult.pushes, Bus.pushes_postCommit henvoy] at hserves ⊢
    have hallocator := planPorts_allocator h.allocator
      (Rib.plan config.node.name now filteredAction bus.state)
    have hsaturated := Bus.planPorts_saturated bus.portAllocator
      (Rib.plan config.node.name now filteredAction bus.state)
    by_cases hquiet : plan.routeChanges = [] ∧ plan.portOps = []
    · rw [if_pos hquiet]
      have hribQuiet : (Rib.plan config.node.name now filteredAction bus.state).routeChanges = [] := by
        have hmap := Bus.planPorts_routeChanges bus.portAllocator
          (Rib.plan config.node.name now filteredAction bus.state)
        rw [hports, hquiet.1] at hmap
        exact List.map_eq_nil_iff.mp hmap.symm
      obtain ⟨hlocal, hinternal⟩ := Rib.plan_quiet hribQuiet
      obtain ⟨hkept, hstate⟩ := Bus.planPorts_quiet (Bus.saturated_congr hlocal hinternal h.saturated) hribQuiet
        (by rw [hports]; exact hquiet.2)
      rw [hports] at hkept hstate
      exact h.congr ((congrArg RouteTable.localRoutes hstate).trans hlocal)
        ((congrArg RouteTable.internalRoutes hstate).trans hinternal) hkept
    · rw [if_neg hquiet] at hserves ⊢
      rw [hports] at hallocator hsaturated
      exact ⟨hkeyed, hallocator, hsaturated, .inr (publishes_of_serves hallocator (hserves _ (by simp)))⟩

/-- Where the routes of a queue slot's table were learned: where they were
    before, or from the peer whose update was dispatched. -/
theorem dispatch_peer {now : Int} {action : Action} {r : InternalRoute}
    (hr : r ∈ (Bus.dispatch config bus now action).bus.state.internalRoutes) :
    (∃ old ∈ bus.state.internalRoutes, r.peer = old.peer) ∨
      ∃ updates, action = .internalProtocolUpdate r.peer updates := by
  have hshape := Bus.dispatch_shape config bus now action
  generalize Bus.dispatch config bus now action = result at hshape hr
  cases hshape with
  | rejected | idle => exact .inl ⟨r, hr, rfl⟩
  | committed filteredAction plan portAllocator hfiltered hchanged hports =>
    have hstamps := Bus.planPorts_stamps bus.portAllocator
      (Rib.plan config.node.name now filteredAction bus.state)
    rw [hports] at hstamps
    rw [show r ∈ plan.newState.internalRoutes ↔ _ from by rw [hstamps.internalRoutes]] at hr
    obtain ⟨planned, hplanned, rfl⟩ := List.mem_map.mp hr
    have hpeer := InternalRoute.peer_eq_of_unstamped (Bus.stampEgress_unstamped portAllocator planned)
    rw [hpeer]
    cases Rib.plan_provenance config.node.name now filteredAction bus.state (.inl hplanned) with
    | kept hmem => exact .inl ⟨planned, hmem, rfl⟩
    | marked peerInfo old haction hmem hmarked => exact .inl ⟨old, hmem, by rw [hmarked]⟩
    | accepted peerInfo updates item haction hmem hadd hloop hroute =>
      subst hroute
      right
      obtain rfl | ⟨sender, received, passed, rfl, rfl, -⟩ := Bus.applyInboundPolicy_cases hfiltered
      · exact ⟨updates, haction⟩
      · cases haction
        exact ⟨received, rfl⟩

end Slot

/-! ### The network of nodes -/

/-- A network whose nodes each have an Envoy service. -/
structure DataPlane where
  net : Network
  envoy : String → EnvoyRpcServer

namespace DataPlane

/-- The configs that a move's node pushes. -/
def pushes (fabric : Fabric) (net : Network) (move : Move) : List EnvoyRouteConfig :=
  match move with
  | .act node now action => (Bus.dispatch (fabric.config node) (net.bus node) now action).pushes
  | .deliver i now =>
    match net.inFlight[i]? with
    | some env =>
      (Bus.dispatch (fabric.config env.receiver) (net.bus env.receiver) now
        (.internalProtocolUpdate env.peerInfo env.updates)).pushes
    | none => []
  | _ => []

/-- A move of the network, and the pushes it leads to. -/
def step (fabric : Fabric) (runtime : XdsRuntime) (s : DataPlane) (move : Move) : DataPlane where
  net := s.net.step fabric move
  envoy node := if node ∈ s.net.actor move then (s.envoy node).receive runtime (pushes fabric s.net move)
    else s.envoy node

def initial (alloc : String → Option PortAllocator) (peers : String → List PeerRecord) : DataPlane where
  net := .initial alloc peers
  envoy _ := {}

/-- The runs whose moves are all `Allowed`. -/
inductive Reachable (fabric : Fabric) (runtime : XdsRuntime) (start : DataPlane)
    (Allowed : Network → Move → Prop) : DataPlane → Prop where
  | start : Reachable fabric runtime start Allowed start
  | step {s : DataPlane} (h : Reachable fabric runtime start Allowed s) (move : Move)
      (hallowed : Allowed s.net move) : Reachable fabric runtime start Allowed (s.step fabric runtime move)

def run (fabric : Fabric) (runtime : XdsRuntime) (s : DataPlane) (moves : List Move) : DataPlane :=
  moves.foldl (step fabric runtime) s

/-- What a reachable data plane runs to is reachable. -/
theorem Reachable.run {fabric : Fabric} {runtime : XdsRuntime} {start : DataPlane}
    {Allowed : Network → Move → Prop} (moves : List Move) :
    ∀ {s : DataPlane}, Reachable fabric runtime start Allowed s → Network.EachMove fabric Allowed s.net moves →
      Reachable fabric runtime start Allowed (s.run fabric runtime moves) := by
  induction moves with
  | nil => exact fun h _ => h
  | cons move rest ih => exact fun h hall => ih (h.step move hall.1) hall.2

/-- The network of a reachable data plane is reachable. -/
theorem Reachable.net {fabric : Fabric} {runtime : XdsRuntime} {start : DataPlane}
    {Allowed : Network → Move → Prop} {s : DataPlane} (h : Reachable fabric runtime start Allowed s) :
    Network.Reachable fabric start.net Allowed s.net := by
  induction h with
  | start => exact .start
  | step _ move hallowed ih => exact ih.step move hallowed

/-- Every push of the node `node` can be served. -/
def ServedAt (fabric : Fabric) (runtime : XdsRuntime) (node : String) (net : Network) (move : Move) : Prop :=
  node ∈ net.actor move → ∀ pushed ∈ pushes fabric net move, EnvoyRpcServer.Serves runtime pushed

variable {fabric : Fabric} {runtime : XdsRuntime} {s : DataPlane} {node : String}

/-- Every served move keeps Envoy provisioned with the table. -/
theorem step_provisioned (h : Provisioned runtime (s.net.bus node) (s.envoy node))
    (henvoy : (fabric.config node).envoyClient = true) {move : Move} (hserved : ServedAt fabric runtime node s.net move) :
    Provisioned runtime ((s.step fabric runtime move).net.bus node) ((s.step fabric runtime move).envoy node) := by
  by_cases hactor : node ∈ s.net.actor move
  · have hserves := hserved hactor
    simp only [step, if_pos hactor]
    cases move with
    | act other now action =>
      obtain rfl : other = node := Option.some.inj hactor
      rw [Network.step, Network.dispatch_bus_self]
      exact dispatch_provisioned h henvoy hserves
    | deliver i now =>
      simp only [Network.actor, Option.mem_def, Option.map_eq_some_iff] at hactor
      obtain ⟨env, henv, rfl⟩ := hactor
      simp only [pushes, henv] at hserves ⊢
      simp only [Network.step, henv, Network.dispatch_bus_self, Network.take_bus]
      exact dispatch_provisioned h henvoy hserves
    | keepaliveSent other peer now =>
      obtain rfl : other = node := Option.some.inj hactor
      refine h.congr ?_ ?_ ?_
      · simp [Network.step, Bus.keepaliveSent]
      · simp [Network.step, Bus.keepaliveSent]
      · simp [Network.step, Bus.keepaliveSent]
    | duplicate | drop => cases hactor
  · simp only [step, if_neg hactor, Network.step_bus_of_ne hactor]
    exact h

/-- Envoy is provisioned in every reachable state. -/
theorem reachable_provisioned {alloc : String → Option PortAllocator} {peers : String → List PeerRecord}
    {Allowed : Network → Move → Prop} (halloc : alloc node ≠ none)
    (henvoy : (fabric.config node).envoyClient = true)
    (hserved : ∀ net move, Allowed net move → ServedAt fabric runtime node net move)
    (h : Reachable fabric runtime (initial alloc peers) Allowed s) :
    Provisioned runtime (s.net.bus node) (s.envoy node) := by
  induction h with
  | start =>
    refine ⟨⟨List.nodup_nil, List.nodup_nil⟩, halloc, ⟨?_, ?_⟩, .inl ⟨rfl, rfl⟩⟩
    · exact fun route hmem => nomatch hmem
    · exact fun route hmem => nomatch hmem
  | step _ move hallowed ih => exact step_provisioned ih henvoy (hserved _ _ hallowed)

end DataPlane

namespace Network

/-- Peers are known by the `localNodeInfo` they present, in the tables and on
    the wires. -/
structure Presented (fabric : Fabric) (s : Network) : Prop where
  routes : ∀ node, ∀ r ∈ (s.bus node).state.internalRoutes, ∃ sender, r.peer = (fabric.config sender).localNodeInfo
  wires : ∀ env ∈ s.inFlight, ∃ sender, env.peerInfo = (fabric.config sender).localNodeInfo

/-- A dispatch sends and installs only routes of the peers as they are configured. -/
theorem dispatch_presented {fabric : Fabric} {s : Network} (h : s.Presented fabric) {node : String} {action : Action}
    (hin : ∀ peerInfo updates, action = .internalProtocolUpdate peerInfo updates →
      ∃ sender, peerInfo = (fabric.config sender).localNodeInfo) (now : Int) :
    (s.dispatch fabric node now action).Presented fabric := by
  constructor
  · intro other r hr
    by_cases hother : other = node
    · subst hother
      rw [dispatch_bus_self] at hr
      obtain ⟨old, hold, hpeer⟩ | ⟨updates, haction⟩ := dispatch_peer hr
      · exact hpeer ▸ h.routes other old hold
      · exact hin r.peer updates haction
    · rw [dispatch_bus_of_ne fabric s hother] at hr
      exact h.routes other r hr
  · intro env henv
    obtain henv | henv := List.mem_append.mp henv
    · exact h.wires env henv
    · obtain ⟨message, -, rfl⟩ := List.mem_map.mp henv
      exact ⟨node, rfl⟩

/-- So does a step that adds no route and no envelope. -/
theorem presented_of_subset {fabric : Fabric} {s s' : Network} (h : s.Presented fabric)
    (hroutes : ∀ node, (s'.bus node).state.internalRoutes = (s.bus node).state.internalRoutes)
    (hsubset : ∀ env ∈ s'.inFlight, env ∈ s.inFlight) : s'.Presented fabric :=
  ⟨fun node r hr => h.routes node r (hroutes node ▸ hr), fun env henv => h.wires env (hsubset env henv)⟩

/-- So does every local move. -/
theorem step_presented {fabric : Fabric} {s : Network} (h : s.Presented fabric) {move : Move}
    (hlocal : move.isLocal = true) : (s.step fabric move).Presented fabric := by
  refine step_preserves presented_of_subset (fun node now action hupdate => ?_) (fun env henv s' now hs' => ?_) h hlocal
  · refine dispatch_presented h (fun peerInfo updates haction => ?_) now
    rw [haction] at hupdate
    cases hupdate
  · refine dispatch_presented hs' (fun peerInfo updates haction => ?_) now
    cases haction
    exact h.wires env henv

/-- So it is in every reachable network. -/
theorem reachable_presented {fabric : Fabric} {alloc : String → Option PortAllocator}
    {peers : String → List PeerRecord} {Allowed : Network → Move → Prop}
    (hlocal : ∀ s move, Allowed s move → move.isLocal = true) {s : Network}
    (h : Reachable fabric (initial alloc peers) Allowed s) : s.Presented fabric := by
  induction h with
  | start => exact ⟨fun node r hr => (nomatch hr), fun env henv => (nomatch henv)⟩
  | step _ move hallowed ih => exact step_presented ih (hlocal _ _ hallowed)

end Network

end CatalystRouter
