import CatalystRouter.DataPlane.SnapshotNames
import CatalystRouter.Envoy.ChannelSchema
import CatalystRouter.Orchestrator.PortLeaks

namespace CatalystRouter

/-! Which pushes get through to Envoy. -/

/-- Every channel that an action brings in is valid. -/
def Action.BringsValid (runtime : XdsRuntime) : Action → Prop
  | .localRouteCreate data => runtime.validChannel data = true
  | .internalProtocolUpdate _ updates => ∀ item ∈ updates, item.action = .add → runtime.validChannel item.route = true
  | _ => True

def Bus.Event.BringsValid (runtime : XdsRuntime) : Bus.Event → Prop
  | .dispatch _ action => action.BringsValid runtime
  | .keepaliveSent _ _ => True

variable {runtime : XdsRuntime}

namespace Rib

/-- A plan has the valid channels of the table and those that the action brings. -/
theorem plan_validChannels (hlawful : runtime.Lawful) (nodeId : String) (now : Int) {action : Action}
    {state : RouteTable} (haction : action.BringsValid runtime)
    (hlocal : ∀ route ∈ state.localRoutes, runtime.validChannel route = true)
    (hinternal : ∀ route ∈ state.internalRoutes, runtime.validChannel route.toDataChannelDefinition = true) :
    (∀ route ∈ (plan nodeId now action state).newState.localRoutes, runtime.validChannel route = true) ∧
      ∀ route ∈ (plan nodeId now action state).newState.internalRoutes,
        runtime.validChannel route.toDataChannelDefinition = true := by
  constructor
  · have hshape := plan_shape nodeId now action state
    generalize plan nodeId now action state = result at hshape ⊢
    cases hshape with
    | unchanged | session | withdraw | stale | update => exact hlocal
    | created data =>
      intro route hmem
      obtain hold | hnew := List.mem_append.mp hmem
      · exact hlocal route hold
      · rw [List.mem_singleton.mp hnew]
        exact haction
    | deleted => exact fun route hmem => hlocal route (List.mem_filter.mp hmem).1
    | health data existing updated hfound hupdated =>
      intro route hmem
      obtain hold | ⟨-, -, -, rfl⟩ := List.mem_modifyFirst hmem
      · exact hlocal route hold
      · rw [hupdated]
        exact hlawful.checked existing data (hlocal existing (List.mem_of_find?_eq_some hfound))
  · intro route hmem
    cases plan_provenance nodeId now action state (.inl hmem) with
    | kept hold => exact hinternal route hold
    | marked peerInfo old _ hold hmarked =>
      subst hmarked
      exact hinternal old hold
    | accepted peerInfo updates item hupdate hitem hadd _ haccepted =>
      subst hupdate haccepted
      exact haction item hitem hadd

end Rib

namespace Bus

variable {config : BusConfig} {bus : Bus}

theorem bringsValid_filtered {action filteredAction : Action} (h : action.BringsValid runtime)
    (hfiltered : applyInboundPolicy config bus.state action = some filteredAction) :
    filteredAction.BringsValid runtime := by
  obtain rfl | ⟨peerInfo, updates, filteredUpdates, rfl, rfl, hsublist⟩ := applyInboundPolicy_cases hfiltered
  · exact h
  · exact fun item hitem => h item (hsublist.subset hitem)

theorem stampLocal_valid (hlawful : runtime.Lawful) (portAllocator : Option PortAllocator)
    {route : DataChannelDefinition} (h : runtime.validChannel route = true) :
    runtime.validChannel (stampLocal portAllocator route) = true := by
  unfold stampLocal
  split
  · exact h
  · split
    · exact hlawful.stamped route _ h
    · exact h

theorem stampEgress_valid (hlawful : runtime.Lawful) (portAllocator : Option PortAllocator)
    {route : InternalRoute} (h : runtime.validChannel route.toDataChannelDefinition = true) :
    runtime.validChannel (stampEgress portAllocator route).toDataChannelDefinition = true := by
  unfold stampEgress
  split
  · exact hlawful.stamped route.toDataChannelDefinition _ h
  · exact h

theorem step_validChannels (hlawful : runtime.Lawful) {event : Event} (hevent : event.BringsValid runtime)
    (h : bus.routeConfig.ValidChannels runtime) : (step config bus event).routeConfig.ValidChannels runtime := by
  cases event with
  | keepaliveSent => exact ⟨h.localRoutes, h.internalRoutes⟩
  | dispatch now action =>
    change (dispatch config bus now action).bus.routeConfig.ValidChannels runtime
    obtain hsame | ⟨filteredAction, hfiltered, hstate, -⟩ := dispatch_planned config bus now action
    · rwa [hsame]
    · have hstamps := planPorts_stamps bus.portAllocator (Rib.plan config.node.name now filteredAction bus.state)
      obtain ⟨hlocal, hinternal⟩ := Rib.plan_validChannels hlawful config.node.name now
        (bringsValid_filtered hevent hfiltered) h.localRoutes h.internalRoutes
      constructor
      · intro stamped hmem
        change stamped ∈ (dispatch config bus now action).bus.state.localRoutes at hmem
        rw [hstate, hstamps.localRoutes] at hmem
        obtain ⟨route, hroute, rfl⟩ := List.mem_map.mp hmem
        exact stampLocal_valid hlawful _ (hlocal route hroute)
      · intro stamped hmem
        change stamped ∈ (dispatch config bus now action).bus.state.internalRoutes at hmem
        rw [hstate, hstamps.internalRoutes] at hmem
        obtain ⟨route, hroute, rfl⟩ := List.mem_map.mp hmem
        exact stampEgress_valid hlawful _ (hinternal route hroute)

/-- The ports that a pooled bus pushes come from its pool. -/
theorem ports_mem_pool {pool : List Int} (h : Pooled pool bus) :
    ∀ entry ∈ bus.routeConfig.portAllocations.getD [], entry.2 ∈ pool := by
  intro entry hentry
  obtain ⟨alloc, halloc⟩ := Option.ne_none_iff_exists'.mp h.allocator
  rw [routeConfig, halloc] at hentry
  have hports := (h.conserves alloc halloc).ports
  exact hports.mem_iff.mp (List.mem_append_left _ (List.mem_map_of_mem hentry))

/-- In every run a push gets through exactly when every channel of its table is
    valid, and so do all pushes of a run that brings in valid channels only. -/
theorem pushed_delivers_iff (hlawful : runtime.Lawful) {portRange : List PortEntry}
    (hrange : ∀ port ∈ portPool portRange, 1 ≤ port ∧ port ≤ 65535) (events : List Event) {now : Int} {action : Action}
    {routeConfig : EnvoyRouteConfig}
    (hpush : routeConfig ∈ (dispatch config (run config (withPorts portRange) events) now action).pushes)
    (server : EnvoyRpcServer) :
    (server.Delivers runtime routeConfig ↔ routeConfig.ValidChannels runtime) ∧
      ((∀ event ∈ events ++ [.dispatch now action], event.BringsValid runtime) →
        server.Delivers runtime routeConfig) := by
  have hpool : (portPool portRange).Nodup := eraseDups_nodup _
  have hstart : Pooled (portPool portRange) (withPorts portRange) := by
    refine ⟨Rib.newRouteTable_wellKeyed, by simp [withPorts], fun alloc hmem => ?_⟩
    obtain rfl := Option.some.inj hmem
    exact createPortAllocator_conserves portRange [] List.nodup_nil
  have hpooled : Pooled (portPool portRange) (run config (withPorts portRange) (events ++ [.dispatch now action])) :=
    run_pooled hpool hstart _
  have hcommitted : routeConfig = (run config (withPorts portRange) (events ++ [.dispatch now action])).routeConfig := by
    rw [eq_routeConfig_of_mem_pushes hpush]
    exact congrArg Bus.routeConfig (Runs.run_concat (step config) (withPorts portRange) events (.dispatch now action)).symm
  subst hcommitted
  have hiff : server.Delivers runtime _ ↔ EnvoyRouteConfig.ValidChannels runtime _ :=
    (EnvoyRpcServer.delivers_iff hlawful).trans
      (EnvoyRpcServer.wellFormed_iff_validChannels fun entry hentry => hrange _ (ports_mem_pool hpooled entry hentry))
  refine ⟨hiff, fun hbrings => hiff.mpr ?_⟩
  refine Runs.run_induct (C := fun _ event => Event.BringsValid runtime event)
    (I := fun bus : Bus => bus.routeConfig.ValidChannels runtime) (fun bus event => step_validChannels hlawful) ?_ ?_
  · exact Runs.eachStep_of_forall (step config) (fun event hmem _ => hbrings event hmem) _
  · constructor
    · intro route hmem
      cases hmem
    · intro route hmem
      cases hmem

/-- The service with its channel schema. -/
def schemaRuntime : XdsRuntime where
  parseUrl endpoint := if endpoint = "http://books:5001" then .ok ⟨"http:", "books", some 5001⟩ else .error "Invalid URL"
  isIP _ := false
  validChannel := channelSchema fun endpoint =>
    if endpoint = "http://books:5001" then .ok ⟨"http:", "books", some 5001⟩ else .error "Invalid URL"

theorem schemaRuntime_lawful : schemaRuntime.Lawful := lawful_of_channelSchema rfl

/-- `node-b` advertises channels of these names. -/
def advertises (names : List String) : Action :=
  .internalProtocolUpdate { name := "node-b", envoyAddress := some "envoy.node-b" } (names.map fun name =>
    { action := .add, route := { name, protocol := .http }, nodePath := ["node-b"], originNode := "node-b" })

theorem pushed_delivers_books :
    ∃ routeConfig ∈ (dispatch envoyNode (run envoyNode (withPorts [.range 10000 10009]) []) 1
        (advertises ["books"])).pushes, ({} : EnvoyRpcServer).Delivers schemaRuntime routeConfig := by
  have hrange : ∀ port ∈ portPool [.range 10000 10009], 1 ≤ port ∧ port ≤ 65535 := by decide
  have hpush : _ ∈ (dispatch envoyNode (run envoyNode (withPorts [.range 10000 10009]) []) 1
      (advertises ["books"])).pushes := List.mem_of_getElem? (i := 0) rfl
  refine ⟨_, hpush, (pushed_delivers_iff schemaRuntime_lawful hrange [] hpush {}).2 fun event hmem => ?_⟩
  obtain rfl := List.mem_singleton.mp hmem
  intro item hitem _
  obtain rfl := List.mem_singleton.mp hitem
  decide

/-- The channel `my books`, which does not fit the schema, keeps the listener of
    the valid `books` from Envoy. -/
theorem badName_blocks :
    ∃ routeConfig ∈ (dispatch envoyNode (run envoyNode (withPorts [.range 10000 10009]) []) 1
        (advertises ["books", "my books"])).pushes,
      (∃ route ∈ routeConfig.internalRoutes, schemaRuntime.validChannel route.toDataChannelDefinition = true ∧
        (Envoy.remoteResources schemaRuntime (({} : EnvoyRpcServer).snapshotInput routeConfig) route).isSome = true) ∧
      ¬ ({} : EnvoyRpcServer).Delivers schemaRuntime routeConfig := by
  refine ⟨_, List.mem_of_getElem? (i := 0) rfl, by decide, fun h => ?_⟩
  have haccepted := h.accepted
  revert haccepted
  decide

end Bus

end CatalystRouter
