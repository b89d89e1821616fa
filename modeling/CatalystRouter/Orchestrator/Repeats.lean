import CatalystRouter.Orchestrator.Allocation
import CatalystRouter.Orchestrator.Runs

namespace CatalystRouter

namespace Rib

/-! Actions that tell a table what it already holds. -/

/-- The entry does nothing to the routes: an advertisement that does not take effect,
    or a withdrawal of nothing. -/
def PassedOver (nodeId : String) (routes : List InternalRoute) (item : UpdateItem) : Prop :=
  match item.action with
  | .add => ¬ TakesEffect nodeId routes item
  | .remove => installedAt routes item.key = none

/-- The action names a peer whose record it leaves as it is, and it finds the routes
    as it would leave them. -/
def Repeats (nodeId : String) (now : Int) (state : RouteTable) (action : Action) : Prop :=
  (∃ name ∈ namedPeer action, ∀ p ∈ state.peerAt name, touchPeer now action p = p) ∧
    match action with
    | .internalProtocolClose peerInfo code => ∀ r ∈ state.internalRoutes, r.peer.name = peerInfo.name →
        code = CloseCodes.transportError ∧ r.isStale = true
    | .internalProtocolUpdate _ updates => ∀ item ∈ updates, PassedOver nodeId state.internalRoutes item
    | _ => True

variable {nodeId : String} {now : Int} {state : RouteTable} {action : Action}

theorem planUpdateItem_passedOver {peerInfo : PeerInfo} {routes : List InternalRoute} {item : UpdateItem}
    (h : PassedOver nodeId routes item) : planUpdateItem nodeId peerInfo routes item = { routes } := by
  have hstep := planUpdateItem_step nodeId peerInfo routes item
  generalize planUpdateItem nodeId peerInfo routes item = turn at hstep
  cases hstep with
  | looped | kept | absent => rfl
  | replaced existing hadd hloop hfound hbetter =>
    simp only [PassedOver, hadd] at h
    exact absurd ⟨hadd, hloop, by simpa [hfound] using hbetter⟩ h
  | installed hadd hloop hfound =>
    simp only [PassedOver, hadd] at h
    exact absurd ⟨hadd, hloop, by simp [hfound]⟩ h
  | withdrawn removed hremove hfound =>
    simp only [PassedOver, hremove, hfound, reduceCtorEq] at h

theorem planUpdateItems_passedOver {peerInfo : PeerInfo} {routes : List InternalRoute} {updates : List UpdateItem}
    (h : ∀ item ∈ updates, PassedOver nodeId routes item) :
    planUpdateItems nodeId peerInfo routes updates = { routes } := by
  induction updates with
  | nil => rfl
  | cons item rest ih =>
    have hfirst : planUpdateItem nodeId peerInfo routes item = { routes } :=
      planUpdateItem_passedOver (h item List.mem_cons_self)
    simp only [planUpdateItems, hfirst, ih fun other hmem => h other (List.mem_cons_of_mem _ hmem),
      List.nil_append]

theorem updatePeer_eq_self {name : String} {f : PeerRecord → PeerRecord} (h : ∀ p ∈ state.peerAt name, f p = p) :
    state.updatePeer name f = state.peers := List.modifyFirst_eq_self h

/-- A handler that writes the record of a known peer, and writes back what it found. -/
theorem writeBack_repeats {name : String} {touch : PeerRecord → PeerRecord}
    (htouch : ∀ p ∈ state.peerAt name, touch p = p) {result : PlanResult}
    (hresult : result = match state.peers.find? (hasName name) with
      | none => noChange state
      | some existing =>
        { prevState := state, newState := { state with peers := state.updatePeer name fun _ => touch existing } }) :
    result.newState = state ∧ result.portOps = [] ∧ ∀ change ∈ result.routeChanges, change.type ≠ .removed := by
  subst hresult
  cases hfound : state.peers.find? (hasName name) with
  | none => exact ⟨rfl, rfl, fun _ hmem => absurd hmem List.not_mem_nil⟩
  | some existing =>
    have hpeers : state.updatePeer name (fun _ => touch existing) = state.peers := by
      refine updatePeer_eq_self fun p hp => ?_
      obtain rfl := Option.some.inj (hfound.symm.trans hp)
      exact htouch existing hfound
    exact ⟨RouteTable.ext rfl hpeers rfl, rfl, fun _ hmem => absurd hmem List.not_mem_nil⟩

/-- Planned on a table that it repeats, an action makes the same table, and nothing
    of it is removed. -/
theorem plan_repeats (h : Repeats nodeId now state action) :
    (plan nodeId now action state).newState = state ∧ (plan nodeId now action state).portOps = [] ∧
      ∀ change ∈ (plan nodeId now action state).routeChanges, change.type ≠ .removed := by
  obtain ⟨⟨name, hname, htouch⟩, hroutes⟩ := h
  have hquiet : ∀ change ∈ ([] : List RouteChange), change.type ≠ .removed :=
    fun _ hmem => absurd hmem List.not_mem_nil
  cases action with
  | localPeerCreate | localPeerDelete | localRouteCreate | localRouteDelete | localRouteHealthUpdate | tick =>
    cases hname
  | localPeerUpdate | internalProtocolOpen | internalProtocolConnected =>
    obtain rfl := Option.some.inj hname
    exact writeBack_repeats htouch rfl
  | internalProtocolClose peerInfo code =>
    obtain rfl := Option.some.inj hname
    have hpeers : state.updatePeer peerInfo.name (fun p => { p with connectionStatus := .closed }) = state.peers :=
      updatePeer_eq_self htouch
    simp only [plan, planInternalProtocolClose, hpeers]
    split
    · split
      · have hmarked : state.internalRoutes.map (markStale peerInfo.name) = state.internalRoutes := by
          refine (List.map_congr_left fun r hr => ?_).trans (List.map_id _)
          unfold markStale
          split
          · rename_i hpeer
            have hstale := (hroutes r hr (beq_iff_eq.mp hpeer)).2
            rw [← hstale]
            rfl
          · rfl
        refine ⟨RouteTable.ext rfl rfl hmarked, rfl, fun change hmem => ?_⟩
        obtain ⟨r, -, rfl⟩ := List.mem_map.mp hmem
        simp
      · rename_i hcode
        have hnone : ∀ r ∈ state.internalRoutes, r.peer.name ≠ peerInfo.name :=
          fun r hr hpeer => hcode (hroutes r hr hpeer).1
        have hkept : state.internalRoutes.filter (fun r => r.peer.name != peerInfo.name) = state.internalRoutes :=
          List.filter_eq_self.mpr fun r hr => by simpa using hnone r hr
        have hremoved : state.internalRoutes.filter (fun r => r.peer.name == peerInfo.name) = [] :=
          List.filter_eq_nil_iff.mpr fun r hr => by simpa using hnone r hr
        rw [hkept, hremoved]
        exact ⟨rfl, rfl, hquiet⟩
    · exact ⟨rfl, rfl, hquiet⟩
  | internalProtocolUpdate peerInfo updates =>
    obtain rfl := Option.some.inj hname
    have hpeers : state.updatePeer peerInfo.name (fun p => { p with lastReceived := now }) = state.peers :=
      updatePeer_eq_self htouch
    simp only [plan, planInternalProtocolUpdate, planUpdateItems_passedOver hroutes, hpeers]
    split <;> exact ⟨rfl, rfl, hquiet⟩
  | internalProtocolKeepalive peerInfo =>
    obtain rfl := Option.some.inj hname
    have hpeers : state.updatePeer peerInfo.name (fun p => { p with lastReceived := now }) = state.peers :=
      updatePeer_eq_self htouch
    simp only [plan, planInternalProtocolKeepalive, hpeers]
    split <;> exact ⟨rfl, rfl, hquiet⟩

/-- Some entry of the update does something to the routes, and all together leave
    them as they were, up to ports. -/
def Cancels (nodeId : String) (state : RouteTable) (action : Action) : Prop :=
  ∃ peerInfo updates, action = .internalProtocolUpdate peerInfo updates ∧
    (∃ item ∈ updates, ¬ PassedOver nodeId state.internalRoutes item) ∧
    (planUpdateItems nodeId peerInfo state.internalRoutes updates).routes.map InternalRoute.unstamped =
      state.internalRoutes.map InternalRoute.unstamped

/-- A planned table with the peers of the old one was made without touching a record. -/
theorem touchPeer_of_same (hpeers : (plan nodeId now action state).newState.peers = state.peers) {name : String}
    (hname : namedPeer action = some name) : ∀ p ∈ state.peerAt name, touchPeer now action p = p := by
  intro p hp
  have hat := plan_peerAt nodeId now action state name
  have hsame : (plan nodeId now action state).newState.peerAt name = some p := by
    unfold RouteTable.peerAt
    rw [hpeers]
    exact hp
  have hafter : peerAfter now action name (some p) = some (touchPeer now action p) := by
    cases action <;> first | (cases hname; done) | simp only [peerAfter, hname, if_true, Option.map_some]
  rw [hsame, Option.mem_def.mp hp, hafter] at hat
  exact (Option.some.inj hat).symm

/-- An action that plans a change, but whose table is the old one up to ports,
    repeats that table or cancels out. -/
theorem repeats_of_same (hchanged : (plan nodeId now action state).sameReference = false)
    (hpeers : (plan nodeId now action state).newState.peers = state.peers)
    (hlocal : (plan nodeId now action state).newState.localRoutes.map DataChannelDefinition.unstamped =
      state.localRoutes.map DataChannelDefinition.unstamped)
    (hinternal : (plan nodeId now action state).newState.internalRoutes.map InternalRoute.unstamped =
      state.internalRoutes.map InternalRoute.unstamped) :
    Repeats nodeId now state action ∨ Cancels nodeId state action := by
  have htouch {name : String} (hname : namedPeer action = some name) := touchPeer_of_same hpeers hname
  have hlength := congrArg List.length hinternal
  have hlocalLength := congrArg List.length hlocal
  simp only [List.length_map] at hlength hlocalLength
  cases action with
  | localPeerUpdate | internalProtocolOpen | internalProtocolConnected | internalProtocolKeepalive =>
    exact .inl ⟨⟨_, rfl, htouch rfl⟩, trivial⟩
  | localPeerCreate data =>
    simp only [plan, planLocalPeerCreate] at hchanged hpeers
    split at hpeers
    · rename_i hsame
      simp [hsame, noChange] at hchanged
    · simp at hpeers
  | localPeerDelete name =>
    simp only [plan, planLocalPeerDelete] at hchanged hpeers
    split at hpeers
    · rename_i hsame
      simp [hsame, noChange] at hchanged
    · rename_i hfewer
      exact absurd (congrArg List.length hpeers) hfewer
  | localRouteCreate data =>
    simp only [plan, planLocalRouteCreate] at hchanged hlocalLength
    split at hlocalLength
    · rename_i hsame
      simp [hsame, noChange] at hchanged
    · simp at hlocalLength
  | localRouteDelete name =>
    simp only [plan, planLocalRouteDelete] at hchanged hlocalLength
    cases hfound : state.localRoutes.find? (fun r => r.name == name) with
    | none => simp [hfound, noChange] at hchanged
    | some route =>
      simp only [hfound] at hlocalLength
      have hkept := List.length_filter_eq_length_iff.mp hlocalLength route (List.mem_of_find?_eq_some hfound)
      have hname : route.name = name := by simpa using List.find?_some hfound
      simp [hname] at hkept
  | localRouteHealthUpdate data =>
    simp only [plan, planLocalRouteHealthUpdate] at hchanged hlocal
    cases hfound : state.localRoutes.find? (fun r => r.name == data.name) with
    | none => simp [hfound, noChange] at hchanged
    | some existing =>
      simp only [hfound] at hchanged hlocal
      split at hchanged
      · simp [noChange] at hchanged
      · rename_i hdiffers
        rw [if_neg hdiffers] at hlocal
        have hhealth := List.map_modifyFirst_eq_iff.mp hlocal existing hfound
        have hstatus := congrArg DataChannelDefinition.healthStatus hhealth
        have hresponse := congrArg DataChannelDefinition.responseTimeMs hhealth
        have hchecked := congrArg DataChannelDefinition.lastChecked hhealth
        exact absurd ⟨hstatus.symm, hresponse.symm, hchecked.symm⟩ hdiffers
  | internalProtocolClose peerInfo code =>
    refine .inl ⟨⟨_, rfl, htouch rfl⟩, fun r hr hpeer => ?_⟩
    simp only [plan, planInternalProtocolClose] at hchanged hinternal hlength
    split at hchanged
    · rename_i hknown
      rw [if_pos hknown] at hinternal hlength
      by_cases hcode : code = CloseCodes.transportError
      · simp only [if_pos hcode, List.map_map] at hinternal
        have hmark := congrArg InternalRoute.isStale (List.map_inj_left.mp hinternal r hr)
        refine ⟨hcode, ?_⟩
        simpa [markStale, hpeer, InternalRoute.unstamped] using hmark.symm
      · simp only [if_neg hcode] at hlength
        have hkept := List.length_filter_eq_length_iff.mp hlength r hr
        simp [hpeer] at hkept
    · simp [noChange] at hchanged
  | internalProtocolUpdate peerInfo updates =>
    by_cases hover : ∀ item ∈ updates, PassedOver nodeId state.internalRoutes item
    · exact .inl ⟨⟨_, rfl, htouch rfl⟩, hover⟩
    · refine .inr ⟨peerInfo, updates, rfl, by simpa using hover, ?_⟩
      simp only [plan, planInternalProtocolUpdate] at hchanged hinternal
      split at hchanged
      · simp [noChange] at hchanged
      · rename_i hsome
        rwa [if_neg hsome] at hinternal
  | tick tickNow =>
    refine absurd ⟨by rw [hpeers], hlength⟩ (tick_changes nodeId now fun hnone => ?_)
    simp [plan, planTick, hnone, noChange] at hchanged

end Rib

namespace Bus

/-- Asking for the port of `key` gives the one that its route shows, or none because
    the pool is empty. -/
def Served (alloc : PortAllocator) (key : String) (shown : Option Int) : Prop :=
  (∃ port, alloc.getPort key = some port ∧ shown = some port) ∨ (alloc.getPort key = none ∧ alloc.Exhausted)

/-- The allocator has nothing new for the routes of the table. -/
def Supplied (portAllocator : Option PortAllocator) (state : RouteTable) : Prop :=
  ∀ alloc ∈ portAllocator,
    (∀ route ∈ state.localRoutes, truthyPort route.envoyPort = true ∨ Served alloc route.name route.envoyPort) ∧
      ∀ r ∈ state.internalRoutes, Served alloc r.egressKey r.envoyPort

variable {alloc : PortAllocator}

theorem served_iff {key : String} {shown : Option Int} :
    Served alloc key shown ↔
      (alloc.allocate key).2 = alloc ∧ ∀ port, (alloc.allocate key).1 = some port → shown = some port := by
  unfold Served PortAllocator.allocate PortAllocator.Exhausted
  cases hheld : alloc.getPort key with
  | some port => simp
  | none =>
    cases hfree : alloc.available with
    | nil => simp
    | cons port rest =>
      have hne : ({ available := rest, allocations := alloc.allocations ++ [(key, port)] } : PortAllocator) ≠ alloc := by
        intro heq
        have hlength := congrArg (fun a => a.allocations.length) heq
        simp at hlength
      simp [hne]

/-- Giving ports to local routes changes nothing exactly when they are served. -/
theorem allocateLocal_same_iff (routes : List DataChannelDefinition) :
    (allocateLocal alloc routes).alloc = alloc ∧ (allocateLocal alloc routes).routes = routes ↔
      ∀ route ∈ routes, truthyPort route.envoyPort = true ∨ Served alloc route.name route.envoyPort := by
  induction routes with
  | nil => simp [allocateLocal]
  | cons route rest ih =>
    rw [List.forall_mem_cons, ← ih, served_iff, allocateLocal]
    by_cases htruthy : truthyPort route.envoyPort = true
    · simp [htruthy]
    · rw [if_neg htruthy]
      cases hgiven : alloc.allocate route.name with
      | mk given next =>
        cases given with
        | none =>
          obtain ⟨rfl, -⟩ := PortAllocator.allocate_refused hgiven
          simp
        | some port =>
          constructor
          · rintro ⟨hsame, hroutes⟩
            obtain rfl : next = alloc := PortAllocator.allocate_eq_self hgiven (by rwa [allocateLocal_alloc] at hsame)
            obtain ⟨hroute, hrest⟩ := List.cons.inj hroutes
            have hport : some port = route.envoyPort := congrArg DataChannelDefinition.envoyPort hroute
            exact ⟨.inr ⟨rfl, fun other hother => hport.symm.trans hother⟩, hsame, hrest⟩
          · rintro ⟨htrue | ⟨rfl, hport⟩, hsame, hrest⟩
            · exact absurd htrue htruthy
            · exact ⟨hsame, List.cons_eq_cons.mpr ⟨by rw [← hport port rfl], hrest⟩⟩

/-- So does giving ports to internal routes. -/
theorem allocateEgress_same_iff (routes : List InternalRoute) :
    (allocateEgress alloc routes).alloc = alloc ∧ (allocateEgress alloc routes).routes = routes ↔
      ∀ r ∈ routes, Served alloc r.egressKey r.envoyPort := by
  induction routes with
  | nil => simp [allocateEgress]
  | cons route rest ih =>
    rw [List.forall_mem_cons, ← ih, served_iff, allocateEgress]
    cases hgiven : alloc.allocate route.egressKey with
    | mk given next =>
      cases given with
      | none =>
        obtain ⟨rfl, -⟩ := PortAllocator.allocate_refused hgiven
        simp
      | some port =>
        constructor
        · rintro ⟨hsame, hroutes⟩
          obtain rfl : next = alloc := PortAllocator.allocate_eq_self hgiven (by rwa [allocateEgress_alloc] at hsame)
          obtain ⟨hroute, hrest⟩ := List.cons.inj hroutes
          have hport : some port = route.envoyPort := congrArg (·.envoyPort) hroute
          exact ⟨⟨rfl, fun other hother => hport.symm.trans hother⟩, hsame, hrest⟩
        · rintro ⟨⟨rfl, hport⟩, hsame, hrest⟩
          exact ⟨hsame, List.cons_eq_cons.mpr ⟨by rw [← hport port rfl], hrest⟩⟩

/-- Planning the ports of a table from which nothing is removed leaves the table and
    the allocator as they were exactly when the table is supplied. -/
theorem planPorts_same_iff {portAllocator : Option PortAllocator} {plan : PlanResult} (hops : plan.portOps = [])
    (hkept : ∀ change ∈ plan.routeChanges, change.type ≠ .removed) :
    ((planPorts portAllocator plan).1.newState = plan.newState ∧ (planPorts portAllocator plan).2 = portAllocator) ↔
      Supplied portAllocator plan.newState := by
  cases portAllocator with
  | none => simp [planPorts, Supplied]
  | some alloc =>
    have hfrees : plan.routeChanges.flatMap RouteChange.frees = [] := by
      refine List.flatMap_eq_nil_iff.mpr fun change hmem => ?_
      obtain ⟨type, route⟩ := change
      cases type with
      | removed => exact absurd rfl (hkept _ hmem)
      | added | updated => cases route <;> rfl
    have hreleased : (releaseRibOps (releaseAllRemoved alloc plan.routeChanges).1 plan.portOps).1 = alloc := by
      rw [releaseRibOps_alloc, releaseAllRemoved_alloc, hfrees, hops]
      rfl
    have hsupplied : Supplied (some alloc) plan.newState ↔
        ((allocateLocal alloc plan.newState.localRoutes).alloc = alloc ∧
            (allocateLocal alloc plan.newState.localRoutes).routes = plan.newState.localRoutes) ∧
          (allocateEgress alloc plan.newState.internalRoutes).alloc = alloc ∧
            (allocateEgress alloc plan.newState.internalRoutes).routes = plan.newState.internalRoutes := by
      rw [allocateLocal_same_iff, allocateEgress_same_iff]
      simp [Supplied]
    rw [hsupplied]
    simp only [planPorts, planPortAllocations, hreleased, Option.some.injEq]
    constructor
    · rintro ⟨hstate, halloc⟩
      have hlocal : (allocateLocal alloc plan.newState.localRoutes).alloc = alloc := by
        rw [allocateEgress_alloc, allocateLocal_alloc, ← PortAllocator.allocateAll_append] at halloc
        rw [allocateLocal_alloc]
        exact PortAllocator.allocateAll_eq_self halloc
      rw [hlocal] at hstate halloc
      have hlocals := congrArg RouteTable.localRoutes hstate
      have hinternals := congrArg RouteTable.internalRoutes hstate
      exact ⟨⟨hlocal, hlocals⟩, halloc, hinternals⟩
    · rintro ⟨⟨hlocal, hlocals⟩, halloc, hinternals⟩
      rw [hlocal]
      exact ⟨RouteTable.ext hlocals rfl hinternals, halloc⟩

end Bus

end CatalystRouter
