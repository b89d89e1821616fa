import CatalystRouter.Orchestrator.Allocation

namespace CatalystRouter

/-! Port planning as a function of the allocator it leaves behind. -/

namespace Bus

/-- The port that a bus holds for a name, if it has an allocator at all. -/
def heldPort (portAllocator : Option PortAllocator) (key : String) : Option Int :=
  portAllocator.bind fun alloc => alloc.getPort key

@[simp] theorem heldPort_some (alloc : PortAllocator) (key : String) :
    heldPort (some alloc) key = alloc.getPort key := rfl

@[simp] theorem heldPort_none (key : String) : heldPort none key = none := rfl

/-- A local route without a port takes the one held for its name. -/
def stampLocal (portAllocator : Option PortAllocator) (route : DataChannelDefinition) : DataChannelDefinition :=
  if truthyPort route.envoyPort then route
  else
    match heldPort portAllocator route.name with
    | some port => { route with envoyPort := some port }
    | none => route

/-- An internal route takes the port held for its egress key. -/
def stampEgress (portAllocator : Option PortAllocator) (route : InternalRoute) : InternalRoute :=
  match heldPort portAllocator route.egressKey with
  | some port => { route with envoyPort := some port }
  | none => route

@[simp] theorem stampLocal_none (route : DataChannelDefinition) : stampLocal none route = route := by
  simp [stampLocal]

@[simp] theorem stampEgress_none (route : InternalRoute) : stampEgress none route = route := rfl

/-- A local route that carries the port that the allocator holds for it is left as it is. -/
theorem stampLocal_eq_self {portAllocator : Option PortAllocator} {route : DataChannelDefinition}
    (h : truthyPort route.envoyPort = false →
      ∀ port, heldPort portAllocator route.name = some port → route.envoyPort = some port) :
    stampLocal portAllocator route = route := by
  unfold stampLocal
  split
  · rfl
  · rename_i hbare
    split
    · rename_i port hport
      rw [← h (by simpa using hbare) port hport]
    · rfl

/-- So is an internal route. -/
theorem stampEgress_eq_self {portAllocator : Option PortAllocator} {route : InternalRoute}
    (h : ∀ port, heldPort portAllocator route.egressKey = some port → route.envoyPort = some port) :
    stampEgress portAllocator route = route := by
  unfold stampEgress
  split
  · rename_i port hport
    rw [← h port hport]
  · rfl

@[simp] theorem stampLocal_name (portAllocator : Option PortAllocator) (route : DataChannelDefinition) :
    (stampLocal portAllocator route).name = route.name := by
  unfold stampLocal
  split
  · rfl
  · split <;> rfl

/-- Stamping changes the port of a route only. -/
@[simp] theorem stampEgress_unstamped (portAllocator : Option PortAllocator) (route : InternalRoute) :
    (stampEgress portAllocator route).unstamped = route.unstamped := by
  unfold stampEgress
  split <;> rfl

@[simp] theorem stampEgress_key (portAllocator : Option PortAllocator) (route : InternalRoute) :
    (stampEgress portAllocator route).key = route.key :=
  InternalRoute.key_eq_of_unstamped (stampEgress_unstamped portAllocator route)

@[simp] theorem stampEgress_egressKey (portAllocator : Option PortAllocator) (route : InternalRoute) :
    (stampEgress portAllocator route).egressKey = route.egressKey := by
  unfold stampEgress
  split <;> rfl

/-- The egress phase stamps every route with what the allocator it leaves
    behind holds for the route. -/
theorem allocateEgress_routes (routes : List InternalRoute) :
    ∀ alloc, (allocateEgress alloc routes).routes =
      routes.map (stampEgress (some (allocateEgress alloc routes).alloc)) := by
  induction routes with
  | nil => exact fun _ => rfl
  | cons route rest ih =>
    intro alloc
    rw [allocateEgress]
    split
    · rename_i alloc' heq
      have hhead : stampEgress (some (allocateEgress alloc' rest).alloc) route = route := by
        unfold stampEgress
        rw [heldPort_some, allocateEgress_alloc, PortAllocator.allocateAll_refused heq]
      simp only [List.map_cons, hhead, ih]
    · rename_i port alloc' heq
      have hhead : stampEgress (some (allocateEgress alloc' rest).alloc) route = { route with envoyPort := some port } := by
        unfold stampEgress
        rw [heldPort_some, allocateEgress_alloc, PortAllocator.allocateAll_getPort _ (PortAllocator.allocate_granted heq)]
      simp only [List.map_cons, hhead, ih]

/-- The local routes after the allocation are those before, stamped with the ports that the
    allocator then holds. -/
theorem allocateLocal_routes (routes : List DataChannelDefinition) :
    ∀ alloc, (allocateLocal alloc routes).routes =
      routes.map (stampLocal (some (allocateLocal alloc routes).alloc)) := by
  induction routes with
  | nil => exact fun _ => rfl
  | cons route rest ih =>
    intro alloc
    rw [allocateLocal]
    split
    · rename_i htruthy
      have hhead : stampLocal (some (allocateLocal alloc rest).alloc) route = route := by
        simp [stampLocal, htruthy]
      simp only [List.map_cons, hhead, ih]
    · rename_i htruthy
      split
      · rename_i alloc' heq
        have hhead : stampLocal (some (allocateLocal alloc' rest).alloc) route = route := by
          simp [stampLocal, htruthy, allocateLocal_alloc, PortAllocator.allocateAll_refused heq]
        simp only [List.map_cons, hhead, ih]
      · rename_i port alloc' heq
        have hhead : stampLocal (some (allocateLocal alloc' rest).alloc) route =
            { route with envoyPort := some port } := by
          simp [stampLocal, htruthy, allocateLocal_alloc,
            PortAllocator.allocateAll_getPort _ (PortAllocator.allocate_granted heq)]
        simp only [List.map_cons, hhead, ih]

/-- For the routes of the table the port maps are complete. -/
theorem allocateEgress_lookup {route : InternalRoute} {routes : List InternalRoute} (hmem : route ∈ routes)
    (alloc : PortAllocator) : (allocateEgress alloc routes).portMap.lookup route.egressKey =
      (allocateEgress alloc routes).alloc.getPort route.egressKey := by
  have hlookup := PortAllocator.allocateAll_lookup_of_mem (List.mem_map_of_mem (f := (·.egressKey)) hmem) alloc
  rw [← allocateEgress_allocateAll] at hlookup
  exact hlookup

/-- The map of local ports lists what the allocator holds for every route that came without a
    port. -/
theorem allocateLocal_lookup {route : DataChannelDefinition} {routes : List DataChannelDefinition}
    (hmem : route ∈ routes) (hbare : truthyPort route.envoyPort = false) (alloc : PortAllocator) :
    (allocateLocal alloc routes).portMap.lookup route.name = (allocateLocal alloc routes).alloc.getPort route.name := by
  have hlookup := PortAllocator.allocateAll_lookup_of_mem (mem_bareNames hmem hbare) alloc
  rw [← allocateLocal_allocateAll] at hlookup
  exact hlookup

/-! ### The whole planning step -/

/-- What port planning does to a change. -/
def stampOf (portAllocator : Option PortAllocator) (plan : PlanResult) (change : RouteChange) : RouteChange :=
  match portAllocator with
  | none => change
  | some alloc =>
    let alloc := (releaseRibOps (releaseAllRemoved alloc plan.routeChanges).1 plan.portOps).1
    let ingress := allocateLocal alloc plan.newState.localRoutes
    let egress := allocateEgress ingress.alloc plan.newState.internalRoutes
    stampChange ingress.portMap egress.portMap change

/-- The planned tables, stamped with the ports of the allocator left behind. -/
structure Stamps (portAllocator : Option PortAllocator) (plan : PlanResult) (newState : RouteTable) : Prop where
  peers : newState.peers = plan.newState.peers
  localRoutes : newState.localRoutes = plan.newState.localRoutes.map (stampLocal portAllocator)
  internalRoutes : newState.internalRoutes = plan.newState.internalRoutes.map (stampEgress portAllocator)

/-- Two allocators that hold the same port for a route stamp it alike. -/
theorem stampLocal_congr {portAllocator portAllocator' : Option PortAllocator} {route : DataChannelDefinition}
    (h : truthyPort route.envoyPort = false →
      heldPort portAllocator route.name = heldPort portAllocator' route.name) :
    stampLocal portAllocator route = stampLocal portAllocator' route := by
  unfold stampLocal
  split
  · rfl
  · rename_i hbare
    rw [h (by simpa using hbare)]

/-- The egress phase leaves the local routes the ports of the ingress phase. -/
theorem allocateEgress_heldPort {alloc : PortAllocator} {route : DataChannelDefinition}
    {localRoutes : List DataChannelDefinition} (hmem : route ∈ localRoutes)
    (hbare : truthyPort route.envoyPort = false) (routes : List InternalRoute) :
    (allocateEgress (allocateLocal alloc localRoutes).alloc routes).alloc.getPort route.name =
      (allocateLocal alloc localRoutes).alloc.getPort route.name := by
  rw [allocateEgress_alloc]
  cases hport : (allocateLocal alloc localRoutes).alloc.getPort route.name with
  | some port => exact PortAllocator.allocateAll_getPort _ hport
  | none =>
    rw [allocateLocal_alloc] at hport ⊢
    have hexhausted := PortAllocator.allocateAll_complete (mem_bareNames hmem hbare) hport
    rw [PortAllocator.allocateAll_of_exhausted hexhausted]
    exact hport

/-- Phase by phase, the state after `planPorts` is the planned one with the ports of the
    allocator that it leaves. -/
theorem planPorts_stamps (portAllocator : Option PortAllocator) (plan : PlanResult) :
    Stamps (planPorts portAllocator plan).2 plan (planPorts portAllocator plan).1.newState := by
  cases portAllocator with
  | none =>
    exact ⟨rfl, (List.map_id'' stampLocal_none _).symm, (List.map_id'' stampEgress_none _).symm⟩
  | some alloc =>
    refine ⟨rfl, (allocateLocal_routes _ _).trans ?_, allocateEgress_routes _ _⟩
    refine List.map_congr_left fun route hmem => stampLocal_congr fun hbare => ?_
    exact (allocateEgress_heldPort hmem hbare _).symm

/-- The changes after `planPorts` are the planned ones, stamped. -/
theorem planPorts_routeChanges (portAllocator : Option PortAllocator) (plan : PlanResult) :
    (planPorts portAllocator plan).1.routeChanges = plan.routeChanges.map (stampOf portAllocator plan) := by
  cases portAllocator with
  | none => exact (List.map_id'' (fun _ => rfl) plan.routeChanges).symm
  | some alloc => rfl

/-- A stamped change is the same change up to its port. -/
@[simp] theorem stampOf_unstamped (portAllocator : Option PortAllocator) (plan : PlanResult)
    (change : RouteChange) : (stampOf portAllocator plan change).unstamped = change.unstamped := by
  cases portAllocator with
  | none => rfl
  | some alloc => exact stampChange_unstamped _ _ _

/-- A removal is passed on as it was planned. -/
theorem stampOf_removed (portAllocator : Option PortAllocator) (plan : PlanResult) (route : ChangedRoute) :
    stampOf portAllocator plan ⟨.removed, route⟩ = ⟨.removed, route⟩ := by
  cases portAllocator with
  | none => rfl
  | some alloc => cases route <;> rfl

/-- What port planning does to an internal route that a change announces. -/
def stampAnnounced (portAllocator : Option PortAllocator) (plan : PlanResult) (route : InternalRoute) :
    InternalRoute :=
  match portAllocator with
  | none => route
  | some alloc =>
    let alloc := (releaseRibOps (releaseAllRemoved alloc plan.routeChanges).1 plan.portOps).1
    let ingress := allocateLocal alloc plan.newState.localRoutes
    match (allocateEgress ingress.alloc plan.newState.internalRoutes).portMap.lookup route.egressKey with
    | some port => { route with envoyPort := some port }
    | none => route

theorem stampAnnounced_port (portAllocator : Option PortAllocator) (plan : PlanResult) (route : InternalRoute) :
    ∃ port, stampAnnounced portAllocator plan route = { route with envoyPort := port } := by
  unfold stampAnnounced
  split
  · exact ⟨_, rfl⟩
  · dsimp only
    split
    · exact ⟨_, rfl⟩
    · exact ⟨_, rfl⟩

theorem stampChange_internal (localPortMap egressPortMap : List (String × Int)) {type : RouteChangeType}
    (htype : type ≠ .removed) (route : InternalRoute) :
    stampChange localPortMap egressPortMap ⟨type, .internal route⟩ =
      ⟨type, .internal (match egressPortMap.lookup route.egressKey with
        | some port => { route with envoyPort := some port }
        | none => route)⟩ := by
  unfold stampChange
  cases hport : egressPortMap.lookup route.egressKey with
  | none => cases type <;> simp [hport]
  | some port =>
    by_cases hsame : route.envoyPort = some port
    · have hroute : { route with envoyPort := some port } = route := by rw [← hsame]
      cases type <;> simp [hport, hsame, hroute]
    · cases type with
      | removed => exact absurd rfl htype
      | added | updated => simp [hport, hsame]

theorem stampOf_internal (portAllocator : Option PortAllocator) (plan : PlanResult) {type : RouteChangeType}
    (htype : type ≠ .removed) (route : InternalRoute) :
    stampOf portAllocator plan ⟨type, .internal route⟩ =
      ⟨type, .internal (stampAnnounced portAllocator plan route)⟩ := by
  cases portAllocator with
  | none => rfl
  | some alloc => exact stampChange_internal _ _ htype route

/-- A route of the planned table is announced as the table stores it. -/
theorem stampAnnounced_of_mem {portAllocator : Option PortAllocator} {plan : PlanResult} {route : InternalRoute}
    (hmem : route ∈ plan.newState.internalRoutes) :
    stampAnnounced portAllocator plan route = stampEgress (planPorts portAllocator plan).2 route := by
  cases portAllocator with
  | none => rfl
  | some alloc =>
    simp only [stampAnnounced, allocateEgress_lookup hmem]
    rfl

theorem stampChange_channel {localPortMap egressPortMap : List (String × Int)} {alloc : PortAllocator}
    {type : RouteChangeType} (htype : type ≠ .removed) {route : DataChannelDefinition}
    (h : truthyPort route.envoyPort = false → localPortMap.lookup route.name = alloc.getPort route.name) :
    stampChange localPortMap egressPortMap ⟨type, .channel route⟩ =
      ⟨type, .channel (stampLocal (some alloc) route)⟩ := by
  unfold stampChange stampLocal
  cases hbare : truthyPort route.envoyPort with
  | true =>
    cases hport : localPortMap.lookup route.name with
    | none => cases type <;> simp [hport]
    | some port => cases type <;> simp [hport, hbare]
  | false =>
    rw [heldPort_some, ← h hbare]
    cases hport : localPortMap.lookup route.name with
    | none => cases type <;> simp [hport]
    | some port =>
      cases type with
      | removed => exact absurd rfl htype
      | added | updated => simp [hport, hbare]

/-- So is a local route. -/
theorem stampOf_channel {portAllocator : Option PortAllocator} {plan : PlanResult} {type : RouteChangeType}
    (htype : type ≠ .removed) {route : DataChannelDefinition} (hmem : route ∈ plan.newState.localRoutes) :
    stampOf portAllocator plan ⟨type, .channel route⟩ =
      ⟨type, .channel (stampLocal (planPorts portAllocator plan).2 route)⟩ := by
  cases portAllocator with
  | none => simp [stampOf, planPorts]
  | some alloc =>
    refine stampChange_channel htype fun hbare => ?_
    exact (allocateLocal_lookup hmem hbare _).trans (allocateEgress_heldPort hmem hbare _).symm

/-! ### Tables whose ports are settled -/

/-- The port a route carries is the one held for its name, and no port is held
    only if the pool had none left. -/
structure HoldsPort (portAllocator : Option PortAllocator) (key : String) (port : Option Int) : Prop where
  held : ∀ p, heldPort portAllocator key = some p → port = some p
  refused : ∀ alloc ∈ portAllocator, alloc.getPort key = none → alloc.Exhausted

/-- Every table that port planning has gone over is like this. -/
structure Saturated (portAllocator : Option PortAllocator) (state : RouteTable) : Prop where
  localRoutes : ∀ route ∈ state.localRoutes,
    truthyPort route.envoyPort = false → HoldsPort portAllocator route.name route.envoyPort
  internalRoutes : ∀ route ∈ state.internalRoutes, HoldsPort portAllocator route.egressKey route.envoyPort

/-- A name that planning asks a port for has one, unless the pool has run dry. -/
theorem planPorts_refused {portAllocator : Option PortAllocator} {plan : PlanResult} {key : String}
    (hmem : key ∈ plan.requests) {alloc : PortAllocator} (halloc : alloc ∈ (planPorts portAllocator plan).2)
    (hnone : alloc.getPort key = none) : alloc.Exhausted := by
  cases portAllocator with
  | none => cases halloc
  | some before =>
    rw [planPorts_alloc] at halloc
    obtain rfl := Option.some.inj halloc
    exact PortAllocator.allocateAll_complete hmem hnone

/-- After `planPorts` every route has the port that the allocator holds for it; one goes without
    only where the pool has run dry. -/
theorem planPorts_saturated (portAllocator : Option PortAllocator) (plan : PlanResult) :
    Saturated (planPorts portAllocator plan).2 (planPorts portAllocator plan).1.newState := by
  have hstamps := planPorts_stamps portAllocator plan
  constructor
  · intro route hmem hbare
    rw [hstamps.localRoutes] at hmem
    obtain ⟨original, horiginal, rfl⟩ := List.mem_map.mp hmem
    have hbareOriginal : truthyPort original.envoyPort = false := by
      cases htruthy : truthyPort original.envoyPort with
      | false => rfl
      | true => simp [stampLocal, htruthy] at hbare
    rw [stampLocal_name]
    constructor
    · intro port hport
      simp [stampLocal, hbareOriginal, hport]
    · intro alloc halloc hnone
      have hrequested := mem_bareNames horiginal hbareOriginal
      exact planPorts_refused (List.mem_append_left _ hrequested) halloc hnone
  · intro route hmem
    rw [hstamps.internalRoutes] at hmem
    obtain ⟨original, horiginal, rfl⟩ := List.mem_map.mp hmem
    rw [stampEgress_egressKey]
    constructor
    · intro port hport
      simp [stampEgress, hport]
    · intro alloc halloc hnone
      exact planPorts_refused (List.mem_append_right _ (List.mem_map_of_mem horiginal)) halloc hnone

/-! ### Planning without operations -/

/-- If nothing was released the allocator is the same. -/
theorem releaseRibOps_quiet (ops : List PortOperation) :
    ∀ alloc, (releaseRibOps alloc ops).2 = [] → (releaseRibOps alloc ops).1 = alloc := by
  induction ops with
  | nil => exact fun _ _ => rfl
  | cons op rest ih =>
    intro alloc hquiet
    cases op with
    | allocate => exact ih alloc hquiet
    | release => cases hquiet

/-- If nothing was allocated the allocator is the same. -/
theorem allocateLocal_quiet (routes : List DataChannelDefinition) :
    ∀ alloc, (allocateLocal alloc routes).portOps = [] → (allocateLocal alloc routes).alloc = alloc := by
  induction routes with
  | nil => exact fun _ _ => rfl
  | cons route rest ih =>
    intro alloc
    rw [allocateLocal]
    split
    · exact ih alloc
    · split
      · rename_i alloc' heq
        obtain ⟨rfl, -, -⟩ := PortAllocator.allocate_refused heq
        exact ih alloc'
      · intro hquiet
        cases hquiet

/-- An egress phase over a saturated table that records no operation moves
    nothing. -/
theorem allocateEgress_quiet (routes : List InternalRoute) : ∀ alloc : PortAllocator,
    (∀ route ∈ routes, alloc.getPort route.egressKey = none → alloc.Exhausted) →
      (allocateEgress alloc routes).portOps = [] → (allocateEgress alloc routes).alloc = alloc := by
  induction routes with
  | nil => exact fun _ _ _ => rfl
  | cons route rest ih =>
    intro alloc hsaturated
    have hrest := fun other hmem => hsaturated other (List.mem_cons_of_mem route hmem)
    rw [allocateEgress]
    split
    · rename_i alloc' heq
      obtain ⟨rfl, -, -⟩ := PortAllocator.allocate_refused heq
      exact ih alloc' hrest
    · rename_i port alloc' heq
      have hsame : alloc' = alloc := by
        cases hport : alloc.getPort route.egressKey with
        | some port' =>
          simp only [PortAllocator.allocate, hport] at heq
          exact (congrArg Prod.snd heq).symm
        | none =>
          have hexhausted := hsaturated route (by simp) hport
          have hkept := PortAllocator.allocate_of_exhausted hexhausted route.egressKey
          rwa [heq] at hkept
      subst hsame
      dsimp only
      split
      · exact ih alloc' hrest
      · intro hquiet
        cases hquiet

/-- Port planning that neither sees a change nor records an operation leaves a
    saturated table and its allocator as they were. -/
theorem planPorts_quiet {portAllocator : Option PortAllocator} {plan : PlanResult}
    (hsaturated : Saturated portAllocator plan.newState) (hchanges : plan.routeChanges = [])
    (hops : (planPorts portAllocator plan).1.portOps = []) :
    (planPorts portAllocator plan).2 = portAllocator ∧
      (planPorts portAllocator plan).1.newState = plan.newState := by
  have hstamps := planPorts_stamps portAllocator plan
  have hsame : (planPorts portAllocator plan).2 = portAllocator := by
    cases portAllocator with
    | none => rfl
    | some alloc =>
      simp only [planPorts, planPortAllocations, hchanges, releaseAllRemoved, List.nil_append,
        List.append_eq_nil_iff] at hops ⊢
      obtain ⟨⟨hrib, hingress⟩, hegress⟩ := hops
      rw [releaseRibOps_quiet _ _ hrib] at hingress hegress ⊢
      rw [allocateLocal_quiet _ _ hingress] at hegress ⊢
      rw [allocateEgress_quiet _ _ _ hegress]
      exact fun route hmem => (hsaturated.internalRoutes route hmem).refused alloc rfl
  refine ⟨hsame, ?_⟩
  rw [hsame] at hstamps
  refine RouteTable.ext (hstamps.localRoutes.trans ?_) hstamps.peers (hstamps.internalRoutes.trans ?_)
  · refine (List.map_congr_left fun route hmem => ?_).trans (List.map_id _)
    exact stampLocal_eq_self fun hbare port => (hsaturated.localRoutes route hmem hbare).held port
  · refine (List.map_congr_left fun route hmem => ?_).trans (List.map_id _)
    exact stampEgress_eq_self fun port => (hsaturated.internalRoutes route hmem).held port

/-! ### Names that a plan leaves alone -/

/-- The changes free neither a name that holds a port nor, for a name that was
    refused one, any other port. -/
structure KeepsName (alloc : PortAllocator) (changes : List RouteChange) (key : String) : Prop where
  kept : ∀ change ∈ changes, key ∉ change.frees
  refused : alloc.getPort key = none → ∀ change ∈ changes, ∀ freed ∈ change.frees, alloc.getPort freed = none

/-- A name that the plan leaves alone holds the port it held. -/
theorem planPorts_keepsName {alloc : PortAllocator} {plan : PlanResult} {key : String}
    (hkeeps : KeepsName alloc plan.routeChanges key)
    (hops : ∀ name port, .release name port ∈ plan.portOps → ∃ change ∈ plan.routeChanges, name ∈ change.frees)
    (hexhausted : alloc.getPort key = none → alloc.Exhausted) :
    heldPort (planPorts (some alloc) plan).2 key = alloc.getPort key := by
  rw [planPorts_alloc, heldPort_some]
  cases hport : alloc.getPort key with
  | some port =>
    have hkept : key ∉ plan.releases := by
      intro hmem
      obtain ⟨change, hchange, hfrees⟩ := exists_frees_of_mem_releases (hops key) hmem
      exact hkeeps.kept change hchange hfrees
    apply PortAllocator.allocateAll_getPort
    rw [PortAllocator.releaseAll_getPort hkept]
    exact hport
  | none =>
    have hunheld : ∀ name ∈ plan.releases, alloc.getPort name = none := by
      intro name hmem
      obtain ⟨change, hchange, hfrees⟩ := exists_frees_of_mem_releases (hops name) hmem
      exact hkeeps.refused hport change hchange name hfrees
    rw [PortAllocator.releaseAll_of_unheld hunheld, PortAllocator.allocateAll_of_exhausted (hexhausted hport)]
    exact hport

end Bus

end CatalystRouter
