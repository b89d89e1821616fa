import CatalystRouter.Orchestrator.KeyEffect
import CatalystRouter.Orchestrator.Runs
import CatalystRouter.Orchestrator.Stamping

namespace CatalystRouter

/-! Which routes the ports of an allocator belong to. -/

/-- A route of the table has its port under this allocator name. -/
def RouteTable.NamesPort (state : RouteTable) (key : String) : Prop :=
  (∃ route ∈ state.localRoutes, route.name = key) ∨ ∃ route ∈ state.internalRoutes, route.egressKey = key

instance (state : RouteTable) (key : String) : Decidable (state.NamesPort key) :=
  inferInstanceAs (Decidable ((∃ route ∈ state.localRoutes, route.name = key) ∨
    ∃ route ∈ state.internalRoutes, route.egressKey = key))

namespace Rib

/-- An entry that switches an identity from another peer's path to its own peer's
    leaves the egress name of that path to some other route, if a port is held
    for it. -/
def LeavesUser (nodeId : String) (peerInfo : PeerInfo) (state : RouteTable) (held : List String)
    (routes : List InternalRoute) (item : UpdateItem) : Prop :=
  TakesEffect nodeId routes item → ∀ existing ∈ installedAt routes item.key,
    existing.peer.name ≠ peerInfo.name → existing.egressKey ∈ held →
      state.hasLocal existing.egressKey = true ∨
        ∃ other ∈ routes, other.key ≠ item.key ∧ other.egressKey = existing.egressKey

instance (nodeId : String) (peerInfo : PeerInfo) (state : RouteTable) (held : List String)
    (routes : List InternalRoute) (item : UpdateItem) : Decidable (LeavesUser nodeId peerInfo state held routes item) :=
  inferInstanceAs (Decidable (TakesEffect nodeId routes item → ∀ existing ∈ installedAt routes item.key,
    existing.peer.name ≠ peerInfo.name → existing.egressKey ∈ held →
      state.hasLocal existing.egressKey = true ∨
        ∃ other ∈ routes, other.key ≠ item.key ∧ other.egressKey = existing.egressKey))

variable {nodeId : String} {peerInfo : PeerInfo} {state : RouteTable} {held : List String} {key : String}

/-- A turn that frees no port of an egress name leaves the name a user. -/
theorem planUpdateItem_user {routes : List InternalRoute} {item : UpdateItem}
    (hnodup : (routes.map (·.key)).Nodup) (hleaves : LeavesUser nodeId peerInfo state held routes item)
    (hheld : key ∈ held) (hlocal : state.hasLocal key = false)
    (hkept : ∀ change ∈ (planUpdateItem nodeId peerInfo routes item).routeChanges, key ∉ change.frees)
    (h : ∃ r ∈ routes, r.egressKey = key) :
    ∃ r ∈ (planUpdateItem nodeId peerInfo routes item).routes, r.egressKey = key := by
  have hother (r : InternalRoute) (hr : r ∈ routes) (hne : r.key ≠ item.key) :
      r ∈ (planUpdateItem nodeId peerInfo routes item).routes := by
    have hinstalled := (installedAt_eq_some_iff hnodup).mpr ⟨hr, rfl⟩
    rw [← planUpdateItem_installedAt_of_ne nodeId peerInfo routes hne.symm] at hinstalled
    exact mem_of_installedAt hinstalled
  obtain ⟨r, hr, rfl⟩ := h
  by_cases hkey : r.key = item.key
  · have hinstalled : installedAt routes item.key = some r := (installedAt_eq_some_iff hnodup).mpr ⟨hr, hkey⟩
    have hafter := planUpdateItem_installedAt nodeId peerInfo routes item
    cases haction : item.action with
    | remove =>
      have hremoved : (⟨.removed, .internal r⟩ : RouteChange) ∈
          (planUpdateItem nodeId peerInfo routes item).routeChanges := by
        simp [planUpdateItem_changes, itemChange, haction, hinstalled]
      exact absurd (by simp [RouteChange.frees]) (hkept _ hremoved)
    | add =>
      rw [receiveItem_add haction] at hafter
      split at hafter
      · rename_i heffect
        by_cases hpeer : r.peer.name = peerInfo.name
        · refine ⟨itemRoute peerInfo item, mem_of_installedAt hafter, ?_⟩
          have hname : r.name = item.route.name := congrArg Prod.fst hkey
          simp [InternalRoute.egressKey, itemRoute, hname, hpeer]
        · obtain hsame | ⟨other, hmem, hne, hegress⟩ := hleaves heffect r hinstalled hpeer hheld
          · rw [hlocal] at hsame
            cases hsame
          · exact ⟨other, hother other hmem hne, hegress⟩
      · exact ⟨r, mem_of_installedAt (hafter.trans hinstalled), rfl⟩
  · exact ⟨r, hother r hr hkey, rfl⟩

theorem planUpdateItems_user (updates : List UpdateItem) (hheld : key ∈ held) (hlocal : state.hasLocal key = false) :
    ∀ routes : List InternalRoute, (routes.map (·.key)).Nodup →
      EachTurn nodeId peerInfo (LeavesUser nodeId peerInfo state held) routes updates →
      (∀ change ∈ (planUpdateItems nodeId peerInfo routes updates).routeChanges, key ∉ change.frees) →
      (∃ r ∈ routes, r.egressKey = key) →
      ∃ r ∈ (planUpdateItems nodeId peerInfo routes updates).routes, r.egressKey = key := by
  induction updates with
  | nil => exact fun _ _ _ _ h => h
  | cons item rest ih =>
    intro routes hnodup hturns hkept h
    have hfirst := planUpdateItem_user hnodup hturns.1 hheld hlocal
      (fun change hmem => hkept change (List.mem_append_left _ hmem)) h
    exact ih _ (planUpdateItem_keys_nodup item hnodup) hturns.2
      (fun change hmem => hkept change (List.mem_append_right _ hmem)) hfirst

/-- A name in use that the plan does not free stays in use. -/
theorem plan_namesPort {now : Int} {action : Action} (hkeyed : RouteTable.WellKeyed state)
    (hleaves : ∀ peerInfo updates, action = .internalProtocolUpdate peerInfo updates →
      EachTurn nodeId peerInfo (LeavesUser nodeId peerInfo state held) state.internalRoutes updates)
    (hheld : key ∈ held) (hkept : ∀ change ∈ (plan nodeId now action state).routeChanges, key ∉ change.frees)
    (h : state.NamesPort key) : (plan nodeId now action state).newState.NamesPort key := by
  have hshape := plan_shape nodeId now action state
  generalize plan nodeId now action state = result at hshape hkept ⊢
  cases hshape with
  | unchanged | session => exact h
  | withdraw =>
    refine h.imp_right fun huser => ?_
    obtain ⟨r, hr, hegress⟩ := huser
    refine ⟨r, List.mem_filter.mpr ⟨hr, ?_⟩, hegress⟩
    by_contra hgone
    have hremoved : r ∈ routesOf (withdrawnPeers state action) state := List.mem_filter.mpr ⟨hr, by simpa using hgone⟩
    exact hkept _ (List.mem_map.mpr ⟨r, hremoved, rfl⟩) (by simp [RouteChange.frees, hegress])
  | stale peerInfo =>
    refine h.imp_right fun huser => ?_
    obtain ⟨r, hr, hegress⟩ := huser
    refine ⟨markStale peerInfo.name r, List.mem_map_of_mem hr, ?_⟩
    unfold markStale
    split <;> exact hegress
  | created =>
    refine h.imp_left fun hlocal => ?_
    obtain ⟨r, hr, hname⟩ := hlocal
    exact ⟨r, List.mem_append_left _ hr, hname⟩
  | deleted route =>
    refine h.imp_left fun hlocal => ?_
    obtain ⟨r, hr, hname⟩ := hlocal
    refine ⟨r, List.mem_filter.mpr ⟨hr, ?_⟩, hname⟩
    have hnot := hkept ⟨.removed, .channel route⟩ (by simp)
    simp only [RouteChange.frees, List.mem_singleton] at hnot
    exact bne_iff_ne.mpr fun heq => hnot (hname.symm.trans heq)
  | health data existing updated hfound hupdated =>
    have hexisting : existing.name = data.name := by simpa using List.find?_some hfound
    have hnames : (state.localRoutes.modifyFirst (fun r => r.name == data.name) fun _ => updated).map (·.name) =
        state.localRoutes.map (·.name) := by
      rw [List.map_modifyFirst]
      intro r _ hr
      rw [hupdated]
      exact hexisting.trans (beq_iff_eq.mp hr).symm
    refine h.imp_left fun hlocal => ?_
    obtain ⟨r, hr, hname⟩ := hlocal
    have hmem : key ∈ state.localRoutes.map (·.name) := List.mem_map.mpr ⟨r, hr, hname⟩
    rw [← hnames] at hmem
    exact List.mem_map.mp hmem
  | update peerInfo updates =>
    cases hlocal : state.hasLocal key with
    | true => exact .inl (hasLocal_eq_true_iff.mp hlocal)
    | false =>
      obtain hmem | huser := h
      · rw [hasLocal_eq_true_iff.mpr hmem] at hlocal
        cases hlocal
      · exact .inr (planUpdateItems_user updates hheld hlocal _ hkeyed.internalKeys (hleaves _ _ rfl) hkept huser)

end Rib

namespace Bus

variable {alloc : PortAllocator} {key : String}

/-- A name holds a port after planning only if it did before and was not freed,
    or if a route of the planned table has it. -/
theorem planPorts_heldNames {plan : PlanResult} {alloc' : PortAllocator}
    (halloc : (planPorts (some alloc) plan).2 = some alloc') (h : key ∈ alloc'.heldNames) :
    (key ∈ alloc.heldNames ∧ ∀ change ∈ plan.routeChanges, key ∉ change.frees) ∨ plan.newState.NamesPort key := by
  rw [planPorts_alloc] at halloc
  obtain rfl := Option.some.inj halloc
  obtain hreleased | hrequested := PortAllocator.mem_heldNames_allocateAll h
  · obtain ⟨hheld, hkept⟩ := PortAllocator.mem_heldNames_releaseAll hreleased
    refine .inl ⟨hheld, fun change hchange hfrees => hkept ?_⟩
    exact List.mem_append_left _ (List.mem_flatMap.mpr ⟨change, hchange, hfrees⟩)
  · obtain hlocal | hegress := List.mem_append.mp hrequested
    · obtain ⟨route, hroute, hname⟩ := List.mem_map.mp hlocal
      exact .inr (.inl ⟨route, (List.mem_filter.mp hroute).1, hname⟩)
    · obtain ⟨route, hroute, hname⟩ := List.mem_map.mp hegress
      exact .inr (.inr ⟨route, hroute, hname⟩)

/-- Stamping a table renames nothing. -/
theorem namesPort_planPorts (portAllocator : Option PortAllocator) (plan : PlanResult) :
    (planPorts portAllocator plan).1.newState.NamesPort key ↔ plan.newState.NamesPort key := by
  have hstamps := planPorts_stamps portAllocator plan
  simp [RouteTable.NamesPort, hstamps.localRoutes, hstamps.internalRoutes]

/-- Every name that holds a port belongs to a route of the table. -/
def NoLeak (bus : Bus) : Prop := ∀ alloc ∈ bus.portAllocator, ∀ key ∈ alloc.heldNames, bus.state.NamesPort key

instance (bus : Bus) : Decidable (NoLeak bus) :=
  inferInstanceAs (Decidable (∀ alloc ∈ bus.portAllocator, ∀ key ∈ alloc.heldNames, bus.state.NamesPort key))

/-- Every entry of an update that takes over an identity from another peer leaves
    the egress name that goes out of use there a user. -/
def LeavesUsers (config : BusConfig) (bus : Bus) : Event → Prop
  | .dispatch _ (.internalProtocolUpdate peerInfo updates) => ∀ alloc ∈ bus.portAllocator,
      Rib.EachTurn config.node.name peerInfo
        (Rib.LeavesUser config.node.name peerInfo bus.state alloc.heldNames)
        bus.state.internalRoutes (receivedUpdates config bus.state peerInfo updates)
  | _ => True

instance (config : BusConfig) (bus : Bus) : ∀ event, Decidable (LeavesUsers config bus event)
  | .dispatch _ (.internalProtocolUpdate peerInfo updates) =>
    inferInstanceAs (Decidable (∀ alloc ∈ bus.portAllocator,
      Rib.EachTurn config.node.name peerInfo
        (Rib.LeavesUser config.node.name peerInfo bus.state alloc.heldNames)
        bus.state.internalRoutes (receivedUpdates config bus.state peerInfo updates)))
  | .dispatch _ (.localPeerCreate _) | .dispatch _ (.localPeerUpdate _) | .dispatch _ (.localPeerDelete _)
  | .dispatch _ (.localRouteCreate _) | .dispatch _ (.localRouteDelete _) | .dispatch _ (.localRouteHealthUpdate _)
  | .dispatch _ (.internalProtocolOpen _ _) | .dispatch _ (.internalProtocolConnected _)
  | .dispatch _ (.internalProtocolClose _ _) | .dispatch _ (.internalProtocolKeepalive _) | .dispatch _ (.tick _)
  | .keepaliveSent _ _ => inferInstanceAs (Decidable True)

variable {config : BusConfig} {bus : Bus}

/-- The entries that a planned update goes through are the received ones. -/
theorem filtered_update {state : RouteTable} {action : Action} {peerInfo : PeerInfo} {updates : List UpdateItem}
    (hfiltered : applyInboundPolicy config state action = some (.internalProtocolUpdate peerInfo updates)) :
    ∃ sent, action = .internalProtocolUpdate peerInfo sent ∧ receivedUpdates config state peerInfo sent = updates := by
  obtain rfl | ⟨_, sent, _, rfl, heq, -⟩ := applyInboundPolicy_cases hfiltered
  · exact ⟨updates, rfl, by simp only [receivedUpdates, hfiltered]⟩
  · obtain ⟨rfl, rfl⟩ := Action.internalProtocolUpdate.inj heq
    exact ⟨sent, rfl, by simp only [receivedUpdates, hfiltered]⟩

theorem step_noLeak (hkeyed : Rib.RouteTable.WellKeyed bus.state) {event : Event}
    (hleaves : LeavesUsers config bus event) (h : NoLeak bus) : NoLeak (step config bus event) := by
  cases event with
  | keepaliveSent peerName now => exact h
  | dispatch now action =>
    change NoLeak (dispatch config bus now action).bus
    obtain hsame | ⟨filteredAction, hfiltered, hstate, halloc'⟩ := dispatch_planned config bus now action
    · rwa [hsame]
    · intro alloc' hmem key hkey
      rw [hstate, namesPort_planPorts]
      rw [halloc'] at hmem
      cases halloc : bus.portAllocator with
      | none =>
        rw [halloc] at hmem
        cases hmem
      | some alloc =>
        rw [halloc] at hmem
        obtain ⟨hheld, hkept⟩ | hnamed := planPorts_heldNames hmem hkey
        · refine Rib.plan_namesPort hkeyed (fun peerInfo updates heq => ?_) hheld hkept (h alloc halloc key hheld)
          subst heq
          obtain ⟨sent, rfl, hreceived⟩ := filtered_update hfiltered
          have hturns := hleaves alloc halloc
          rwa [hreceived] at hturns
        · exact hnamed

/-- A new bus with a fresh allocator. -/
def withPorts (portRange : List PortEntry) : Bus :=
  { state := newRouteTable, portAllocator := some (createPortAllocator portRange) }

/-- In a run whose path switches all leave a user for the name that goes out of
    use, no port is ever held for a route that is gone. -/
theorem run_noLeak {portRange : List PortEntry} {events : List Event}
    (h : EachStep config (LeavesUsers config) (withPorts portRange) events) (early late : List Event)
    (hevents : events = early ++ late) : NoLeak (run config (withPorts portRange) early) := by
  subst hevents
  have hearly := ((Runs.eachStep_append _).mp h).1
  refine (Runs.run_induct (I := fun bus => Rib.RouteTable.WellKeyed bus.state ∧ NoLeak bus) ?_ hearly ?_).2
  · intro bus event hleaves ⟨hkeyed, hnone⟩
    refine ⟨?_, step_noLeak hkeyed hleaves hnone⟩
    cases event with
    | dispatch now action => exact dispatch_wellKeyed config now action hkeyed
    | keepaliveSent => exact hkeyed
  · refine ⟨Rib.newRouteTable_wellKeyed, fun alloc halloc key hkey => ?_⟩
    obtain rfl := Option.some.inj halloc
    cases hkey

/-- `node-a` is connected to `node-b` and `node-c`. It hears of `books` of every
    origin from `node-b`, and then of that of `node-d`, over a shorter path, from
    `node-c`. -/
def booksSwitch (origins : List String) : List Event :=
  [.dispatch 1 (.localPeerCreate { name := "node-b", peerToken := some "token" }),
    .dispatch 1 (.localPeerCreate { name := "node-c", peerToken := some "token" }),
    .dispatch 1 (.internalProtocolConnected { name := "node-b" }),
    .dispatch 1 (.internalProtocolConnected { name := "node-c" }),
    .dispatch 2 (.internalProtocolUpdate { name := "node-b" } (origins.map fun originNode =>
      { action := .add, route := { name := "books", protocol := .http }, nodePath := ["node-b", "node-x", originNode],
        originNode })),
    .dispatch 3 (.internalProtocolUpdate { name := "node-c" }
      [{ action := .add, route := { name := "books", protocol := .http }, nodePath := ["node-c", "node-d"],
         originNode := "node-d" }])]

/-- The route of `node-e` goes on using the name. -/
theorem run_noLeak_books :
    NoLeak (run { node := { name := "node-a" } } (withPorts [.range 10000 10001]) (booksSwitch ["node-d", "node-e"])) := by
  have hleaves : EachStep { node := { name := "node-a" } } (LeavesUsers { node := { name := "node-a" } })
      (withPorts [.range 10000 10001]) (booksSwitch ["node-d", "node-e"]) := by decide
  exact run_noLeak hleaves _ [] (by simp)

/-- Nothing releases `egress_books_via_node-b`: one route is left, and both ports
    of the pool are taken. -/
theorem switch_leaks_books :
    ¬ NoLeak (run { node := { name := "node-a" } } (withPorts [.range 10000 10001]) (booksSwitch ["node-d"])) ∧
      (run { node := { name := "node-a" } } (withPorts [.range 10000 10001]) (booksSwitch ["node-d"])).portAllocator.map
        PortAllocator.availableCount = some 0 ∧
      (run { node := { name := "node-a" } } (withPorts [.range 10000 10001])
        (booksSwitch ["node-d"])).state.internalRoutes.length = 1 := by
  decide

/-! ### The condition is tight -/

theorem egressKey_inj {name peerName otherPeer : String} (h : egressKey name peerName = egressKey name otherPeer) :
    peerName = otherPeer := (String.append_right_inj _).mp h

/-- The table that a message of one switching entry leaves has no use for the name
    that nothing else used. -/
theorem switch_namesPort (now : Int) {nodeId : String} {peerInfo : PeerInfo} {state : RouteTable} {item : UpdateItem}
    (hkeyed : Rib.RouteTable.WellKeyed state) (heffect : Rib.TakesEffect nodeId state.internalRoutes item)
    {existing : InternalRoute} (hexisting : installedAt state.internalRoutes item.key = some existing)
    (hpeer : existing.peer.name ≠ peerInfo.name) (hnolocal : ¬ state.hasLocal existing.egressKey = true)
    (hnoother : ∀ other ∈ state.internalRoutes, other.key ≠ item.key → other.egressKey ≠ existing.egressKey) :
    ¬ (Rib.plan nodeId now (.internalProtocolUpdate peerInfo [item]) state).newState.NamesPort existing.egressKey := by
  have hlocals : (Rib.plan nodeId now (.internalProtocolUpdate peerInfo [item]) state).newState.localRoutes =
      state.localRoutes := by
    simp only [Rib.plan, Rib.planInternalProtocolUpdate]
    split <;> rfl
  rintro (hlocal | ⟨r, hr, hegress⟩)
  · rw [hlocals] at hlocal
    exact hnolocal (Rib.hasLocal_eq_true_iff.mpr hlocal)
  · rw [Rib.plan_update_routes] at hr
    have hnodup : ((Rib.planUpdateItem nodeId peerInfo state.internalRoutes item).routes.map (·.key)).Nodup :=
      Rib.planUpdateItem_keys_nodup item hkeyed.internalKeys
    have hinstalled := (installedAt_eq_some_iff hnodup).mpr ⟨hr, rfl⟩
    by_cases hkey : item.key = r.key
    · rw [← hkey, Rib.planUpdateItem_installedAt, Rib.receiveItem_add heffect.1, if_pos heffect] at hinstalled
      obtain rfl := Option.some.inj hinstalled
      have hname : existing.name = item.route.name := congrArg Prod.fst (installedAt_key hexisting)
      unfold InternalRoute.egressKey at hegress
      rw [hname] at hegress
      exact hpeer (egressKey_inj hegress).symm
    · rw [Rib.planUpdateItem_installedAt_of_ne _ _ _ hkey] at hinstalled
      exact hnoother r (mem_of_installedAt hinstalled) (Ne.symm hkey) hegress

/-- One entry that leaves no user already leaks the port. -/
theorem switch_leaks (now : Int) {alloc : PortAllocator} {peerInfo : PeerInfo} {updates : List UpdateItem}
    {item : UpdateItem} (hkeyed : Rib.RouteTable.WellKeyed bus.state) (halloc : bus.portAllocator = some alloc)
    (hreceived : receivedUpdates config bus.state peerInfo updates = [item])
    (hlast : ¬ Rib.LeavesUser config.node.name peerInfo bus.state alloc.heldNames bus.state.internalRoutes item) :
    ¬ NoLeak (dispatch config bus now (.internalProtocolUpdate peerInfo updates)).bus := by
  simp only [Rib.LeavesUser, not_forall, not_or, not_exists, not_and] at hlast
  obtain ⟨heffect, existing, hexisting, hpeer, hheld, hnolocal, hnoother⟩ := hlast
  have hexisting := Option.mem_def.mp hexisting
  have hunused := switch_namesPort now hkeyed heffect hexisting hpeer hnolocal hnoother
  have hchanges : (Rib.plan config.node.name now (.internalProtocolUpdate peerInfo [item]) bus.state).routeChanges =
      [⟨.updated, .internal (Rib.itemRoute peerInfo item)⟩] := by
    have hbetter := heffect.2.2 existing hexisting
    rw [Rib.plan_update_changes]
    simp [Rib.planUpdateItems, Rib.planUpdateItem_changes, Rib.itemChange, heffect.1, heffect.2.1, hexisting, hbetter]
  have hfiltered : applyInboundPolicy config bus.state (.internalProtocolUpdate peerInfo updates) =
      some (.internalProtocolUpdate peerInfo [item]) := by
    obtain hsome | ⟨-, hnil⟩ := applyInboundPolicy_update config bus.state peerInfo updates
    · rwa [hreceived] at hsome
    · rw [hreceived] at hnil
      cases hnil
  have hkept : KeepsName alloc
      (Rib.plan config.node.name now (.internalProtocolUpdate peerInfo [item]) bus.state).routeChanges existing.egressKey := by
    rw [hchanges]
    exact ⟨by simp [RouteChange.frees], by simp [RouteChange.frees]⟩
  have hstill := planPorts_keepsName hkept (fun _ _ => Rib.plan_portOps) fun hnone =>
    absurd hheld (PortAllocator.getPort_eq_none_iff.mp hnone)
  intro hnoleak
  have hshape := dispatch_shape config bus now (.internalProtocolUpdate peerInfo updates)
  generalize dispatch config bus now (.internalProtocolUpdate peerInfo updates) = result at hshape hnoleak
  cases hshape with
  | rejected error hreason =>
    rw [hfiltered] at hreason
    simp [lacksPeerToken] at hreason
  | idle filteredAction hother hsame =>
    obtain rfl := Option.some.inj (hfiltered.symm.trans hother)
    rw [plan_newState_of_sameReference hsame] at hunused
    exact hunused (hnoleak alloc halloc _ hheld)
  | committed filteredAction plan portAllocator hother hchanged hports =>
    obtain rfl := Option.some.inj (hfiltered.symm.trans hother)
    rw [halloc] at hports
    obtain ⟨alloc', hafter⟩ : ∃ alloc', portAllocator = some alloc' := ⟨_, (congrArg Prod.snd hports).symm⟩
    rw [hports, hafter, heldPort_some] at hstill
    have hheld' : existing.egressKey ∈ alloc'.heldNames := by
      by_contra hgone
      rw [PortAllocator.getPort_eq_none_iff.mpr hgone] at hstill
      exact absurd hheld (PortAllocator.getPort_eq_none_iff.mp hstill.symm)
    have hnamed := hnoleak alloc' hafter _ hheld'
    have hplan := congrArg Prod.fst hports
    dsimp only at hnamed hplan
    rw [← hplan, namesPort_planPorts] at hnamed
    exact hunused hnamed

end Bus

end CatalystRouter
