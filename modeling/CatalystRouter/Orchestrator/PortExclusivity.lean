import CatalystRouter.Envoy.PortPool
import CatalystRouter.Journal.Compaction
import CatalystRouter.Orchestrator.Runs
import CatalystRouter.Orchestrator.Stamping

namespace CatalystRouter

/-! Which routes of a table share a port. -/

/-- What tells the routes of a table apart. -/
inductive RouteIdentity where
  | channel (name : String)
  | internal (name originNode : String)
  deriving DecidableEq, Repr

/-- A route that carries an allocated port, with the name it is allocated to. -/
structure PortHolder where
  identity : RouteIdentity
  allocatorName : String
  port : Int
  deriving DecidableEq, Repr

namespace Bus

def localHolder (route : DataChannelDefinition) : Option PortHolder :=
  route.envoyPort.map fun port => ⟨.channel route.name, route.name, port⟩

/-- The port that an internal route arrives with is another node's. -/
def egressHolder (portAllocator : Option PortAllocator) (route : InternalRoute) : Option PortHolder :=
  match heldPort portAllocator route.egressKey with
  | some port =>
    if route.envoyPort = some port then some ⟨.internal route.name route.originNode, route.egressKey, port⟩ else none
  | none => none

def portHolders (bus : Bus) : List PortHolder :=
  bus.state.localRoutes.filterMap localHolder ++ bus.state.internalRoutes.filterMap (egressHolder bus.portAllocator)

/-- The port of a local route is the one held for its name. -/
def LocalsHold (bus : Bus) : Prop :=
  ∀ route ∈ bus.state.localRoutes, ∀ port, route.envoyPort = some port →
    heldPort bus.portAllocator route.name = some port

theorem portHolders_held {bus : Bus} (h : LocalsHold bus) {holder : PortHolder} (hmem : holder ∈ bus.portHolders) :
    heldPort bus.portAllocator holder.allocatorName = some holder.port := by
  obtain hlocal | hegress := List.mem_append.mp hmem
  · obtain ⟨route, hroute, hholder⟩ := List.mem_filterMap.mp hlocal
    obtain ⟨port, hport, rfl⟩ := Option.map_eq_some_iff.mp hholder
    exact h route hroute port hport
  · obtain ⟨route, -, hholder⟩ := List.mem_filterMap.mp hegress
    unfold egressHolder at hholder
    split at hholder
    · rename_i port hport
      split at hholder
      · obtain rfl := Option.some.inj hholder
        exact hport
      · cases hholder
    · cases hholder

/-! ### The pool under port planning -/

variable {pool : List Int} {alloc : PortAllocator}

theorem planPorts_conserves (hpool : pool.Nodup) {portAllocator : Option PortAllocator} (plan : PlanResult)
    (h : ∀ alloc ∈ portAllocator, PortAllocator.Conserves pool alloc) :
    ∀ alloc ∈ (planPorts portAllocator plan).2, PortAllocator.Conserves pool alloc := by
  cases portAllocator with
  | none => exact fun alloc hmem => by cases hmem
  | some alloc =>
    intro alloc' hmem
    rw [planPorts_alloc] at hmem
    obtain rfl := Option.some.inj hmem
    apply PortAllocator.allocateAll_conserves
    exact PortAllocator.releaseAll_conserves (h alloc rfl) hpool plan.releases

end Bus

/-! ### The ports of local routes -/

/-- A local route is created without a port. -/
def Action.CreatesBare : Action → Prop
  | .localRouteCreate data => data.envoyPort = none
  | _ => True

namespace Rib

/-- A planned local route was there under its name with its port, or it is the
    one created. -/
theorem plan_localRoute {nodeId : String} {now : Int} {action : Action} {state : RouteTable}
    {route : DataChannelDefinition} (hmem : route ∈ (plan nodeId now action state).newState.localRoutes) :
    (∃ old ∈ state.localRoutes, old.name = route.name ∧ old.envoyPort = route.envoyPort) ∨
      action = .localRouteCreate route := by
  have hshape := plan_shape nodeId now action state
  generalize plan nodeId now action state = result at hshape hmem
  cases hshape with
  | unchanged | session | withdraw | stale | update => exact .inl ⟨route, hmem, rfl, rfl⟩
  | created data =>
    obtain hold | hnew := List.mem_append.mp hmem
    · exact .inl ⟨route, hold, rfl, rfl⟩
    · exact .inr (by rw [List.mem_singleton.mp hnew])
  | deleted => exact .inl ⟨route, (List.mem_filter.mp hmem).1, rfl, rfl⟩
  | health data existing updated hfound hupdated =>
    obtain hold | ⟨-, -, -, rfl⟩ := List.mem_modifyFirst hmem
    · exact .inl ⟨route, hold, rfl, rfl⟩
    · exact .inl ⟨existing, List.mem_of_find?_eq_some hfound, by rw [hupdated], by rw [hupdated]⟩

end Rib

/-- No local route of the table carries a port. -/
def RouteTable.BareLocals (state : RouteTable) : Prop := ∀ route ∈ state.localRoutes, route.envoyPort = none

/-- Neither the snapshot nor the entries of a journal give a local route a port. -/
structure ActionLog.BareLocals (journal : ActionLog) : Prop where
  snapshot : ∀ snapshot ∈ journal.snapshot, snapshot.state.BareLocals
  entries : ∀ entry ∈ journal.entries, entry.action.CreatesBare

theorem replayEntries_bareLocals {nodeId : String} {clock : ActionLogEntry → Int} (entries : List ActionLogEntry) :
    ∀ state : RouteTable, (∀ entry ∈ entries, entry.action.CreatesBare) → state.BareLocals →
      (replayEntries nodeId clock state entries).BareLocals := by
  induction entries with
  | nil => exact fun _ _ h => h
  | cons entry rest ih =>
    intro state hentries h
    apply ih _ fun other hother => hentries other (List.mem_cons_of_mem entry hother)
    rw [replayEntry_eq]
    intro route hmem
    obtain ⟨old, hold, -, hport⟩ | hcreate := Rib.plan_localRoute hmem
    · rw [← hport, h old hold]
    · have hbare := hentries entry List.mem_cons_self
      rw [hcreate] at hbare
      exact hbare

theorem recover_bareLocals {nodeId : String} {clock : ActionLogEntry → Int} {journal : ActionLog}
    (h : journal.BareLocals) : (recover nodeId clock journal).BareLocals := by
  have hreplay (afterSeq : Int) : ∀ entry ∈ journal.replay afterSeq, entry.action.CreatesBare :=
    fun entry hmem => h.entries entry (List.mem_filter.mp hmem).1
  unfold recover
  split
  · rename_i snapshot hsnapshot
    exact replayEntries_bareLocals _ _ (hreplay _) (h.snapshot snapshot hsnapshot)
  · exact replayEntries_bareLocals _ _ (hreplay _) fun route hmem => by cases hmem

namespace Bus

/-- The service's bus over the state recovered from a journal; from an empty
    journal it starts empty. -/
def recovered (nodeId : String) (clock : ActionLogEntry → Int) (journal : ActionLog) (portRange : List PortEntry)
    (existing : List (String × Int)) : Bus :=
  { state := recover nodeId clock journal, portAllocator := some (createPortAllocator portRange existing) }

/-- Local routes are created without a port, and no removal frees the name of a
    local route that stays. -/
def SparesLocals (config : BusConfig) (bus : Bus) : Event → Prop
  | .dispatch now action => action.CreatesBare ∧
      ∀ filteredAction ∈ applyInboundPolicy config bus.state action,
        ∀ change ∈ (Rib.plan config.node.name now filteredAction bus.state).routeChanges,
          ∀ route ∈ (Rib.plan config.node.name now filteredAction bus.state).newState.localRoutes,
            route.name ∉ change.frees
  | .keepaliveSent _ _ => True

/-- A name that holds a port and is not freed holds it after planning. -/
theorem planPorts_heldPort {portAllocator : Option PortAllocator} {nodeId : String} {now : Int} {action : Action}
    {state : RouteTable} {key : String} {port : Int} (hheld : heldPort portAllocator key = some port)
    (hkept : ∀ change ∈ (Rib.plan nodeId now action state).routeChanges, key ∉ change.frees) :
    heldPort (planPorts portAllocator (Rib.plan nodeId now action state)).2 key = some port := by
  cases portAllocator with
  | none => cases hheld
  | some alloc =>
    have hnotNone : alloc.getPort key ≠ none := by
      rw [← heldPort_some, hheld]
      simp
    have hkeeps : KeepsName alloc (Rib.plan nodeId now action state).routeChanges key :=
      ⟨hkept, fun hnone => absurd hnone hnotNone⟩
    rw [planPorts_keepsName hkeeps (fun _ _ => Rib.plan_portOps) fun hnone => absurd hnone hnotNone]
    exact hheld

theorem stampLocal_port {portAllocator : Option PortAllocator} {route : DataChannelDefinition} {port : Int}
    (h : route.envoyPort = some port → heldPort portAllocator route.name = some port)
    (hport : (stampLocal portAllocator route).envoyPort = some port) : heldPort portAllocator route.name = some port := by
  unfold stampLocal at hport
  split at hport
  · exact h hport
  · split at hport
    · rename_i held hheld
      rw [hheld, ← hport]
    · exact h hport

variable {config : BusConfig} {bus : Bus}

theorem step_localsHold {event : Event} (hspares : SparesLocals config bus event) (h : LocalsHold bus) :
    LocalsHold (step config bus event) := by
  cases event with
  | keepaliveSent peerName now => exact h
  | dispatch now action =>
    change LocalsHold (dispatch config bus now action).bus
    obtain hsame | ⟨filteredAction, hfiltered, hstate, halloc⟩ := dispatch_planned config bus now action
    · rwa [hsame]
    · obtain ⟨hcreates, hkept⟩ := hspares
      have hstamps := planPorts_stamps bus.portAllocator (Rib.plan config.node.name now filteredAction bus.state)
      intro stamped hstamped port hport
      rw [hstate, hstamps.localRoutes] at hstamped
      obtain ⟨route, hroute, rfl⟩ := List.mem_map.mp hstamped
      rw [halloc, stampLocal_name]
      refine stampLocal_port (fun hcarried => ?_) hport
      apply planPorts_heldPort
      · obtain ⟨old, hold, hname, holdPort⟩ | hcreate := Rib.plan_localRoute hroute
        · rw [← hname]
          exact h old hold port (holdPort.trans hcarried)
        · have hsame : action = filteredAction := by
            obtain hsame | ⟨_, _, _, -, hupdate, -⟩ := applyInboundPolicy_cases hfiltered
            · exact hsame.symm
            · rw [hcreate] at hupdate
              cases hupdate
          rw [hsame, hcreate] at hcreates
          rw [show route.envoyPort = none from hcreates] at hcarried
          cases hcarried
      · exact fun change hchange => hkept filteredAction hfiltered change hchange route hroute

theorem step_conserves {pool : List Int} (hpool : pool.Nodup) (event : Event)
    (h : ∀ alloc ∈ bus.portAllocator, PortAllocator.Conserves pool alloc) :
    ∀ alloc ∈ (step config bus event).portAllocator, PortAllocator.Conserves pool alloc := by
  cases event with
  | keepaliveSent peerName now => exact h
  | dispatch now action =>
    change ∀ alloc ∈ (dispatch config bus now action).bus.portAllocator, PortAllocator.Conserves pool alloc
    obtain hsame | ⟨filteredAction, -, -, halloc⟩ := dispatch_planned config bus now action
    · rwa [hsame]
    · rw [halloc]
      exact planPorts_conserves hpool _ h

/-- Two routes that carry an allocated port carry the same one exactly when their
    allocator names are the same. -/
def ExclusiveByName (bus : Bus) : Prop :=
  ∀ first ∈ bus.portHolders, ∀ second ∈ bus.portHolders,
    first.port = second.port ↔ first.allocatorName = second.allocatorName

theorem exclusiveByName {pool : List Int} (hpool : pool.Nodup)
    (hconserves : ∀ alloc ∈ bus.portAllocator, PortAllocator.Conserves pool alloc) (h : LocalsHold bus) :
    ExclusiveByName bus := by
  intro first hfirst second hsecond
  have hfirst := portHolders_held h hfirst
  have hsecond := portHolders_held h hsecond
  constructor
  · intro hport
    obtain ⟨alloc, halloc, hheld⟩ := Option.bind_eq_some_iff.mp hfirst
    obtain ⟨other, hother, hheld'⟩ := Option.bind_eq_some_iff.mp hsecond
    obtain rfl := Option.some.inj (halloc.symm.trans hother)
    rw [← hport] at hheld'
    exact (hconserves alloc halloc).getPort_inj hpool hheld hheld'
  · intro hname
    rw [hname, hsecond] at hfirst
    exact (Option.some.inj hfirst).symm

/-- On a node that starts empty or from a journal that gives local routes no
    ports, whose removals spare the local routes that stay, a port is shared
    under one allocator name only. -/
theorem run_exclusiveByName {nodeId : String} {clock : ActionLogEntry → Int} {journal : ActionLog}
    {portRange : List PortEntry} {existing : List (String × Int)} {events : List Event}
    (hexisting : (existing.map Prod.fst).Nodup) (hjournal : journal.BareLocals)
    (hsteps : EachStep config (SparesLocals config) (recovered nodeId clock journal portRange existing) events)
    (early late : List Event) (hevents : events = early ++ late) :
    ExclusiveByName (run config (recovered nodeId clock journal portRange existing) early) := by
  subst hevents
  have hearly := ((Runs.eachStep_append _).mp hsteps).1
  have hpool : (portPool portRange).Nodup := eraseDups_nodup _
  have hlocals : LocalsHold (recovered nodeId clock journal portRange existing) := by
    intro route hmem port hport
    rw [recover_bareLocals hjournal route hmem] at hport
    cases hport
  have hconserves : ∀ alloc ∈ (recovered nodeId clock journal portRange existing).portAllocator,
      PortAllocator.Conserves (portPool portRange) alloc := by
    intro alloc hmem
    obtain rfl := Option.some.inj hmem
    exact createPortAllocator_conserves portRange existing hexisting
  have hrun := Runs.run_induct (I := fun bus => LocalsHold bus ∧
    ∀ alloc ∈ bus.portAllocator, PortAllocator.Conserves (portPool portRange) alloc)
    (fun bus event hspares h => ⟨step_localsHold hspares h.1, step_conserves hpool event h.2⟩) hearly ⟨hlocals, hconserves⟩
  exact exclusiveByName hpool hrun.2 hrun.1

/-- Two routes that carry an allocated port carry the same one only when they are
    one route. -/
def ExclusiveByIdentity (bus : Bus) : Prop :=
  ∀ first ∈ bus.portHolders, ∀ second ∈ bus.portHolders, first.port = second.port → first.identity = second.identity

instance (bus : Bus) : Decidable (ExclusiveByIdentity bus) :=
  inferInstanceAs (Decidable (∀ first ∈ bus.portHolders, ∀ second ∈ bus.portHolders,
    first.port = second.port → first.identity = second.identity))

instance (bus : Bus) : Decidable (ExclusiveByName bus) :=
  inferInstanceAs (Decidable (∀ first ∈ bus.portHolders, ∀ second ∈ bus.portHolders,
    first.port = second.port ↔ first.allocatorName = second.allocatorName))

instance : ∀ action : Action, Decidable action.CreatesBare
  | .localRouteCreate data => inferInstanceAs (Decidable (data.envoyPort = none))
  | .localPeerCreate _ | .localPeerUpdate _ | .localPeerDelete _ | .localRouteDelete _ | .localRouteHealthUpdate _
  | .internalProtocolOpen _ _ | .internalProtocolConnected _ | .internalProtocolClose _ _
  | .internalProtocolUpdate _ _ | .internalProtocolKeepalive _ | .tick _ => inferInstanceAs (Decidable True)

instance (config : BusConfig) (bus : Bus) : ∀ event, Decidable (SparesLocals config bus event)
  | .dispatch now action => inferInstanceAs (Decidable (action.CreatesBare ∧
      ∀ filteredAction ∈ applyInboundPolicy config bus.state action,
        ∀ change ∈ (Rib.plan config.node.name now filteredAction bus.state).routeChanges,
          ∀ route ∈ (Rib.plan config.node.name now filteredAction bus.state).newState.localRoutes,
            route.name ∉ change.frees))
  | .keepaliveSent _ _ => inferInstanceAs (Decidable True)

/-- `node-a` creates a route and hears of `books` of two origins from `node-b`. -/
def booksTwice (name : String) : List Event :=
  [.dispatch 1 (.localPeerCreate { name := "node-b", peerToken := some "token" }),
    .dispatch 1 (.internalProtocolConnected { name := "node-b" }),
    .dispatch 1 (.localRouteCreate { name, protocol := .http }),
    .dispatch 2 (.internalProtocolUpdate { name := "node-b" } (["node-d", "node-e"].map fun originNode =>
      { action := .add, route := { name := "books", protocol := .http }, nodePath := ["node-b", originNode], originNode }))]

theorem run_exclusiveByName_books :
    ExclusiveByName (run { node := { name := "node-a" } } (recovered "node-a" (fun _ => 0) {} [.range 10000 10009] [])
      (booksTwice "films")) := by
  have hsteps : EachStep { node := { name := "node-a" } } (SparesLocals { node := { name := "node-a" } })
      (recovered "node-a" (fun _ => 0) {} [.range 10000 10009] []) (booksTwice "films") := by decide
  exact run_exclusiveByName (by simp) ⟨by simp, by simp⟩ hsteps _ [] (by simp)

/-- The removal of `node-d`'s `books` frees the name of the local `books`, whose
    port `films` is given. -/
example : ¬ ExclusiveByName (run { node := { name := "node-a" } }
    (recovered "node-a" (fun _ => 0) {} [.range 10000 10001] [])
    [.dispatch 1 (.localRouteCreate { name := "books", protocol := .http }),
      .dispatch 2 (.internalProtocolUpdate { name := "node-b" }
        [{ action := .add, route := { name := "books", protocol := .http }, nodePath := ["node-b", "node-d"],
           originNode := "node-d" }]),
      .dispatch 3 (.internalProtocolUpdate { name := "node-b" }
        [{ action := .remove, route := { name := "books", protocol := .http }, nodePath := ["node-b", "node-d"],
           originNode := "node-d" }]),
      .dispatch 4 (.localRouteCreate { name := "films", protocol := .http })]) := by
  decide

/-- The routes of both origins share the port of `egress_books_via_node-b`. -/
theorem books_share_port :
    ¬ ExclusiveByIdentity (run { node := { name := "node-a" } }
      (recovered "node-a" (fun _ => 0) {} [.range 10000 10009] []) (booksTwice "films")) := by
  decide

end Bus

end CatalystRouter
