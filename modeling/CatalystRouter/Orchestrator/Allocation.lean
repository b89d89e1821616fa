import CatalystRouter.Envoy.PortBatch
import CatalystRouter.Orchestrator.Ports

namespace CatalystRouter

/-! Which ports a plan moves: only those of the names its removals free. -/

/-- The allocator names that a change frees. -/
def RouteChange.frees (change : RouteChange) : List String :=
  match change.type, change.route with
  | .removed, .channel route => [route.name]
  | .removed, .internal route => [route.name, route.egressKey]
  | _, _ => []

namespace Rib

theorem planUpdateItem_portOps {nodeId : String} {peerInfo : PeerInfo} {routes : List InternalRoute}
    {item : UpdateItem} {key : String} {port : Int}
    (h : .release key port ∈ (planUpdateItem nodeId peerInfo routes item).portOps) :
    ∃ change ∈ (planUpdateItem nodeId peerInfo routes item).routeChanges, key ∈ change.frees := by
  have hstep := planUpdateItem_step nodeId peerInfo routes item
  generalize planUpdateItem nodeId peerInfo routes item = turn at hstep h ⊢
  cases hstep with
  | looped | kept | replaced | installed | absent => cases h
  | withdrawn removed hremove hfound =>
    refine ⟨⟨.removed, .internal removed⟩, by simp, ?_⟩
    have hname : removed.name = item.route.name := congrArg Prod.fst (installedAt_key hfound)
    cases hport : removed.envoyPort with
    | none => simp [hport] at h
    | some port' =>
      simp only [hport, List.mem_singleton, PortOperation.release.injEq] at h
      simp [RouteChange.frees, h.1, routeKey, hname]

theorem planUpdateItems_portOps {nodeId : String} {peerInfo : PeerInfo} {key : String} {port : Int}
    (updates : List UpdateItem) :
    ∀ routes, .release key port ∈ (planUpdateItems nodeId peerInfo routes updates).portOps →
      ∃ change ∈ (planUpdateItems nodeId peerInfo routes updates).routeChanges, key ∈ change.frees := by
  induction updates with
  | nil =>
    intro routes h
    cases h
  | cons item rest ih =>
    intro routes h
    simp only [planUpdateItems, List.mem_append] at h ⊢
    obtain h | h := h
    · obtain ⟨change, hmem, hfrees⟩ := planUpdateItem_portOps h
      exact ⟨change, .inl hmem, hfrees⟩
    · obtain ⟨change, hmem, hfrees⟩ := ih _ h
      exact ⟨change, .inr hmem, hfrees⟩

/-- A plan only releases names that its removals free. -/
theorem plan_portOps {nodeId : String} {now : Int} {action : Action} {state : RouteTable} {key : String}
    {port : Int} (h : .release key port ∈ (plan nodeId now action state).portOps) :
    ∃ change ∈ (plan nodeId now action state).routeChanges, key ∈ change.frees := by
  have hshape := plan_shape nodeId now action state
  generalize plan nodeId now action state = result at hshape h ⊢
  cases hshape with
  | unchanged | session | stale | created | health => cases h
  | withdraw =>
    obtain ⟨r, hr, hop⟩ := List.mem_filterMap.mp h
    refine ⟨⟨.removed, .internal r⟩, List.mem_map.mpr ⟨r, hr, rfl⟩, ?_⟩
    obtain ⟨_, -, hrelease⟩ := Option.map_eq_some_iff.mp hop
    obtain ⟨rfl, -⟩ := PortOperation.release.inj hrelease
    exact List.mem_cons_self
  | deleted route ops hfound hops =>
    subst hops
    refine ⟨⟨.removed, .channel route⟩, by simp, ?_⟩
    cases hport : route.envoyPort with
    | none => simp [hport] at h
    | some port' =>
      simp only [hport, List.mem_singleton, PortOperation.release.injEq] at h
      simp [RouteChange.frees, h.1, routeKey]
  | update peerInfo updates => exact planUpdateItems_portOps updates _ h

end Rib

/-- The allocator name that an operation of the RIB releases. -/
def PortOperation.released : PortOperation → Option String
  | .release key _ => some key
  | .allocate _ _ => none

/-- The names of the local routes that have no port yet. -/
def bareNames (routes : List DataChannelDefinition) : List String :=
  (routes.filter fun route => !truthyPort route.envoyPort).map (·.name)

/-- The names that planning the ports releases, in order. -/
def PlanResult.releases (plan : PlanResult) : List String :=
  plan.routeChanges.flatMap RouteChange.frees ++ plan.portOps.filterMap PortOperation.released

/-- The names that it then asks a port for. -/
def PlanResult.requests (plan : PlanResult) : List String :=
  bareNames plan.newState.localRoutes ++ plan.newState.internalRoutes.map (·.egressKey)

theorem exists_of_released {ops : List PortOperation} {key : String}
    (h : key ∈ ops.filterMap PortOperation.released) : ∃ port, .release key port ∈ ops := by
  obtain ⟨op, hop, hkey⟩ := List.mem_filterMap.mp h
  cases op with
  | allocate => cases hkey
  | release name port =>
    obtain rfl := Option.some.inj hkey
    exact ⟨port, hop⟩

/-- When the RIB releases only what its changes free, so does planning the
    ports. -/
theorem exists_frees_of_mem_releases {plan : PlanResult} {key : String}
    (hops : ∀ port, .release key port ∈ plan.portOps → ∃ change ∈ plan.routeChanges, key ∈ change.frees)
    (hmem : key ∈ plan.releases) : ∃ change ∈ plan.routeChanges, key ∈ change.frees := by
  obtain hremoved | hop := List.mem_append.mp hmem
  · exact List.mem_flatMap.mp hremoved
  · obtain ⟨port, hop⟩ := exists_of_released hop
    exact hops port hop

theorem mem_bareNames {routes : List DataChannelDefinition} {route : DataChannelDefinition} (hmem : route ∈ routes)
    (hbare : truthyPort route.envoyPort = false) : route.name ∈ bareNames routes :=
  List.mem_map_of_mem (List.mem_filter.mpr ⟨hmem, by simp [hbare]⟩)

namespace Bus

variable {alloc : PortAllocator} {key : String} {port : Int}

theorem releaseKey_alloc (name : String) (alloc : PortAllocator) : (releaseKey name alloc).1 = alloc.release name := by
  unfold releaseKey
  split
  · rfl
  · rename_i hnone
    simp [PortAllocator.release, hnone]

theorem releaseRemoved_alloc (alloc : PortAllocator) (change : RouteChange) :
    (releaseRemoved alloc change).1 = alloc.releaseAll change.frees := by
  obtain ⟨type, route⟩ := change
  cases type with
  | added | updated => cases route <;> rfl
  | removed =>
    cases route with
    | channel route => exact releaseKey_alloc route.name alloc
    | internal route =>
      simp only [releaseRemoved, releaseKey_alloc]
      rfl

theorem releaseAllRemoved_alloc (changes : List RouteChange) :
    ∀ alloc, (releaseAllRemoved alloc changes).1 = alloc.releaseAll (changes.flatMap RouteChange.frees) := by
  induction changes with
  | nil => exact fun _ => rfl
  | cons change rest ih =>
    intro alloc
    simp only [releaseAllRemoved, ih, releaseRemoved_alloc, List.flatMap_cons, PortAllocator.releaseAll_append]

theorem releaseRibOps_alloc (ops : List PortOperation) :
    ∀ alloc, (releaseRibOps alloc ops).1 = alloc.releaseAll (ops.filterMap PortOperation.released) := by
  induction ops with
  | nil => exact fun _ => rfl
  | cons op rest ih =>
    intro alloc
    cases op with
    | allocate => exact ih alloc
    | release name port => exact ih (alloc.release name)

/-- Phase 2 asks for the names of the routes without a port. -/
theorem allocateLocal_allocateAll (routes : List DataChannelDefinition) : ∀ alloc,
    ((allocateLocal alloc routes).alloc, (allocateLocal alloc routes).portMap) = alloc.allocateAll (bareNames routes) := by
  induction routes with
  | nil => exact fun _ => rfl
  | cons route rest ih =>
    intro alloc
    rw [allocateLocal]
    split
    · rename_i htruthy
      have hskip : bareNames (route :: rest) = bareNames rest := by simp [bareNames, htruthy]
      rw [hskip]
      exact ih alloc
    · rename_i hbare
      have hnext : bareNames (route :: rest) = route.name :: bareNames rest := by simp [bareNames, hbare]
      rw [hnext, PortAllocator.allocateAll]
      obtain ⟨given, alloc'⟩ := alloc.allocate route.name
      cases given with
      | none => exact ih alloc'
      | some port =>
        obtain ⟨halloc, hmap⟩ := Prod.ext_iff.mp (ih alloc')
        exact Prod.ext halloc (congrArg (List.cons (route.name, port)) hmap)

/-- Phase 3 asks for the egress keys. -/
theorem allocateEgress_allocateAll (routes : List InternalRoute) : ∀ alloc,
    ((allocateEgress alloc routes).alloc, (allocateEgress alloc routes).portMap) =
      alloc.allocateAll (routes.map (·.egressKey)) := by
  induction routes with
  | nil => exact fun _ => rfl
  | cons route rest ih =>
    intro alloc
    rw [allocateEgress, List.map_cons, PortAllocator.allocateAll]
    obtain ⟨given, alloc'⟩ := alloc.allocate route.egressKey
    cases given with
    | none => exact ih alloc'
    | some port =>
      obtain ⟨halloc, hmap⟩ := Prod.ext_iff.mp (ih alloc')
      exact Prod.ext halloc (congrArg (List.cons (route.egressKey, port)) hmap)

theorem allocateLocal_alloc (alloc : PortAllocator) (routes : List DataChannelDefinition) :
    (allocateLocal alloc routes).alloc = (alloc.allocateAll (bareNames routes)).1 :=
  congrArg Prod.fst (allocateLocal_allocateAll routes alloc)

theorem allocateEgress_alloc (alloc : PortAllocator) (routes : List InternalRoute) :
    (allocateEgress alloc routes).alloc = (alloc.allocateAll (routes.map (·.egressKey))).1 :=
  congrArg Prod.fst (allocateEgress_allocateAll routes alloc)

/-- The allocator that planning the ports leaves behind. -/
theorem planPorts_alloc (alloc : PortAllocator) (plan : PlanResult) :
    (planPorts (some alloc) plan).2 = some ((alloc.releaseAll plan.releases).allocateAll plan.requests).1 := by
  simp only [planPorts, planPortAllocations, allocateEgress_alloc, allocateLocal_alloc, releaseRibOps_alloc,
    releaseAllRemoved_alloc, PlanResult.releases, PlanResult.requests, PortAllocator.releaseAll_append,
    PortAllocator.allocateAll_append]

/-- A route that already carries the port of its egress key is left as it is. -/
theorem mem_allocateEgress {r : InternalRoute} (hstamped : r.envoyPort = some port)
    (routes : List InternalRoute) (hmem : r ∈ routes) :
    ∀ alloc : PortAllocator, alloc.getPort r.egressKey = some port → r ∈ (allocateEgress alloc routes).routes := by
  induction routes with
  | nil => cases hmem
  | cons route rest ih =>
    intro alloc h
    have hkept := PortAllocator.getPort_allocate h route.egressKey
    have hgiven := PortAllocator.getPort_allocate_self alloc route.egressKey
    rw [allocateEgress]
    obtain rfl | hmem := List.mem_cons.mp hmem
    · split
      · simp
      · rename_i port' alloc' heq
        rw [hkept, heq] at hgiven
        obtain rfl := Option.some.inj hgiven
        simp [← hstamped]
    · split
      · rename_i heq
        rw [heq] at hkept
        exact List.mem_cons_of_mem _ (ih hmem _ hkept)
      · rename_i heq
        rw [heq] at hkept
        exact List.mem_cons_of_mem _ (ih hmem _ hkept)

/-- The port a route carries is the one allocated to its egress key. -/
def Settled (portAllocator : Option PortAllocator) (r : InternalRoute) : Prop :=
  ∀ alloc ∈ portAllocator, ∃ port, alloc.getPort r.egressKey = some port ∧ r.envoyPort = some port

/-- A settled route whose egress key nothing frees stays settled, and in the
    table if it was there. -/
theorem planPorts_settled {portAllocator : Option PortAllocator} {plan : PlanResult} {r : InternalRoute}
    (hsettled : Settled portAllocator r)
    (hchanges : portAllocator ≠ none → ∀ change ∈ plan.routeChanges, r.egressKey ∉ change.frees)
    (hops : ∀ port, .release r.egressKey port ∈ plan.portOps →
      ∃ change ∈ plan.routeChanges, r.egressKey ∈ change.frees) :
    Settled (planPorts portAllocator plan).2 r ∧ (r ∈ plan.newState.internalRoutes →
      r ∈ (planPorts portAllocator plan).1.newState.internalRoutes) := by
  cases portAllocator with
  | none => exact ⟨hsettled, id⟩
  | some alloc =>
    obtain ⟨port, hport, hstamped⟩ := hsettled alloc rfl
    have hkept : r.egressKey ∉ plan.releases := by
      intro hmem
      obtain ⟨change, hchange, hfrees⟩ := exists_frees_of_mem_releases hops hmem
      exact hchanges (by simp) change hchange hfrees
    have hreleased : (alloc.releaseAll plan.releases).getPort r.egressKey = some port :=
      (PortAllocator.releaseAll_getPort hkept alloc).trans hport
    refine ⟨fun alloc' halloc' => ?_, fun hmem => mem_allocateEgress hstamped _ hmem _ ?_⟩
    · rw [planPorts_alloc] at halloc'
      obtain rfl := Option.some.inj halloc'
      exact ⟨port, PortAllocator.allocateAll_getPort _ hreleased, hstamped⟩
    · rw [allocateLocal_alloc, releaseRibOps_alloc, releaseAllRemoved_alloc, ← PortAllocator.releaseAll_append]
      exact PortAllocator.allocateAll_getPort _ hreleased

end Bus

end CatalystRouter
