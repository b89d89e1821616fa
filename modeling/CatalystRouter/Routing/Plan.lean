import CatalystRouter.Routing.Update

namespace CatalystRouter

def Action.isUpdate : Action → Bool
  | .internalProtocolUpdate _ _ => true
  | _ => false

namespace Rib

/-- The peers whose routes an action withdraws, once it takes effect. -/
def withdrawnPeers (state : RouteTable) : Action → List String
  | .localPeerDelete name => [name]
  | .internalProtocolClose peerInfo _ => [peerInfo.name]
  | .tick now => purgedPeerNames now state
  | _ => []

def routesOf (names : List String) (state : RouteTable) : List InternalRoute :=
  state.internalRoutes.filter fun r => names.contains r.peer.name

/-- The plan shared by a peer deletion, a hard close and a Tick: every route of
    the named peers goes, with its release operation. -/
def withdrawPlan (state : RouteTable) (names : List String) (peers : List PeerRecord) : PlanResult :=
  { prevState := state
    newState := { state with
      peers
      internalRoutes := state.internalRoutes.filter fun r => !names.contains r.peer.name }
    portOps := releaseOps (routesOf names state)
    routeChanges := removedChanges (routesOf names state) }

/-- Everything a plan can be, by what it does to the two route lists. -/
inductive PlanShape (nodeId : String) (now : Int) (state : RouteTable) : Action → PlanResult → Prop where
  | unchanged (action : Action) : PlanShape nodeId now state action (noChange state)
  | session (action : Action) (peers : List PeerRecord) :
      PlanShape nodeId now state action { prevState := state, newState := { state with peers } }
  | withdraw (action : Action) (peers : List PeerRecord) :
      PlanShape nodeId now state action (withdrawPlan state (withdrawnPeers state action) peers)
  | stale (peerInfo : PeerInfo) (peers : List PeerRecord)
      (hknown : state.peers.any (hasName peerInfo.name) = true) :
      PlanShape nodeId now state (.internalProtocolClose peerInfo CloseCodes.transportError)
        { prevState := state
          newState := { state with
            peers
            internalRoutes := state.internalRoutes.map (markStale peerInfo.name) }
          routeChanges := (state.internalRoutes.filter fun r => r.peer.name == peerInfo.name).map
            fun r => ⟨.updated, .internal { r with isStale := true }⟩ }
  | created (data : DataChannelDefinition) (hnew : ∀ r ∈ state.localRoutes, r.name ≠ data.name) :
      PlanShape nodeId now state (.localRouteCreate data)
        { prevState := state
          newState := { state with localRoutes := state.localRoutes ++ [data] }
          routeChanges := [⟨.added, .channel data⟩] }
  | deleted (route : DataChannelDefinition) (ops : List PortOperation)
      (hfound : state.localRoutes.find? (fun r => r.name == route.name) = some route)
      (hops : ops = match route.envoyPort with
        | some port => [.release (routeKey route) port]
        | none => []) :
      PlanShape nodeId now state (.localRouteDelete route.name)
        { prevState := state
          newState := { state with localRoutes := state.localRoutes.filter fun r => r.name != route.name }
          portOps := ops
          routeChanges := [⟨.removed, .channel route⟩] }
  | health (data : RouteHealth) (existing updated : DataChannelDefinition)
      (hfound : state.localRoutes.find? (fun r => r.name == data.name) = some existing)
      (hupdated : updated = { existing with
        healthStatus := some data.healthStatus
        responseTimeMs := some data.responseTimeMs
        lastChecked := some data.lastChecked }) :
      PlanShape nodeId now state (.localRouteHealthUpdate data)
        { prevState := state
          newState := { state with
            localRoutes := state.localRoutes.modifyFirst (fun r => r.name == data.name) fun _ => updated }
          routeChanges := [⟨.updated, .channel updated⟩] }
  | update (peerInfo : PeerInfo) (updates : List UpdateItem) (peers : List PeerRecord) :
      PlanShape nodeId now state (.internalProtocolUpdate peerInfo updates)
        { prevState := state
          newState := { state with
            peers
            internalRoutes := (planUpdateItems nodeId peerInfo state.internalRoutes updates).routes }
          portOps := (planUpdateItems nodeId peerInfo state.internalRoutes updates).portOps
          routeChanges := (planUpdateItems nodeId peerInfo state.internalRoutes updates).routeChanges }

private theorem contains_singleton (name other : String) : [name].contains other = (other == name) := by
  by_cases h : other = name <;> simp [h]

/-- Every plan takes one of the shapes of `PlanShape`. -/
theorem plan_shape (nodeId : String) (now : Int) (action : Action) (state : RouteTable) :
    PlanShape nodeId now state action (plan nodeId now action state) := by
  cases action with
  | localPeerCreate data =>
    simp only [plan, planLocalPeerCreate]
    split
    · exact .unchanged _
    · exact .session _ _
  | localPeerUpdate data =>
    simp only [plan, planLocalPeerUpdate]
    split
    · exact .unchanged _
    · exact .session _ _
  | localPeerDelete name =>
    simp only [plan, planLocalPeerDelete]
    split
    · exact .unchanged _
    · have h : PlanShape nodeId now state _ _ := .withdraw
        (.localPeerDelete name) (state.peers.filter fun p => p.name != name)
      simpa only [withdrawPlan, withdrawnPeers, routesOf, contains_singleton, bne] using h
  | localRouteCreate data =>
    simp only [plan, planLocalRouteCreate]
    split
    · exact .unchanged _
    · rename_i hnew
      exact .created data (by simpa using hnew)
  | localRouteDelete name =>
    simp only [plan, planLocalRouteDelete]
    cases hfound : state.localRoutes.find? (fun r => r.name == name) with
    | none => exact .unchanged _
    | some route =>
      have hname : route.name = name := by simpa using List.find?_some hfound
      subst hname
      exact .deleted route _ hfound rfl
  | localRouteHealthUpdate data =>
    simp only [plan, planLocalRouteHealthUpdate]
    cases hfound : state.localRoutes.find? (fun r => r.name == data.name) with
    | none => exact .unchanged _
    | some existing =>
      dsimp only
      split
      · exact .unchanged _
      · exact .health data existing _ hfound rfl
  | internalProtocolOpen peerInfo holdTime =>
    simp only [plan, planInternalProtocolOpen]
    split
    · exact .unchanged _
    · exact .session _ _
  | internalProtocolConnected peerInfo =>
    simp only [plan, planInternalProtocolConnected]
    split
    · exact .unchanged _
    · exact .session _ _
  | internalProtocolClose peerInfo code =>
    simp only [plan, planInternalProtocolClose]
    split
    · rename_i hknown
      split
      · rename_i hcode
        subst hcode
        exact .stale peerInfo _ hknown
      · have h : PlanShape nodeId now state _ _ := .withdraw
          (.internalProtocolClose peerInfo code)
          (state.updatePeer peerInfo.name fun p => { p with connectionStatus := .closed })
        simpa only [withdrawPlan, withdrawnPeers, routesOf, contains_singleton, bne] using h
    · exact .unchanged _
  | internalProtocolUpdate peerInfo updates =>
    simp only [plan, planInternalProtocolUpdate]
    split
    · exact .unchanged _
    · exact .update peerInfo updates _
  | internalProtocolKeepalive peerInfo =>
    simp only [plan, planInternalProtocolKeepalive]
    split
    · exact .session _ _
    · exact .unchanged _
  | tick tickNow =>
    simp only [plan, planTick]
    split
    · exact .unchanged _
    · exact .withdraw (.tick tickNow) _

/-! ### What every plan preserves -/

/-- The pairwise-distinctness half of the table invariant. -/
structure RouteTable.WellKeyed (state : RouteTable) : Prop where
  localNames : (state.localRoutes.map (·.name)).Nodup
  internalKeys : (state.internalRoutes.map (·.key)).Nodup

/-- A new table has distinct keys. -/
theorem newRouteTable_wellKeyed : RouteTable.WellKeyed newRouteTable := ⟨by simp [newRouteTable], by simp [newRouteTable]⟩

/-- Marking a route stale keeps its key. -/
@[simp] theorem markStale_key (name : String) (r : InternalRoute) : (markStale name r).key = r.key := by
  unfold markStale
  split <;> rfl

/-- A table whose routes are marked has the marked routes at its keys. -/
theorem installedAt_markStale (routes : List InternalRoute) (name : String) (k : String × String) :
    installedAt (routes.map (markStale name)) k = (installedAt routes k).map (markStale name) := by
  simp [installedAt, List.find?_map]

/-- Every action keeps the keys distinct. -/
theorem plan_wellKeyed (nodeId : String) (now : Int) (action : Action) {state : RouteTable}
    (h : RouteTable.WellKeyed state) : RouteTable.WellKeyed (plan nodeId now action state).newState := by
  have hshape := plan_shape nodeId now action state
  generalize plan nodeId now action state = result at hshape ⊢
  cases hshape with
  | unchanged | session => exact ⟨h.localNames, h.internalKeys⟩
  | withdraw => exact ⟨h.localNames, h.internalKeys.sublist (List.filter_sublist.map _)⟩
  | stale peerInfo peers =>
    refine ⟨h.localNames, ?_⟩
    simpa [List.map_map, Function.comp_def] using h.internalKeys
  | created data hnew =>
    refine ⟨?_, h.internalKeys⟩
    rw [List.map_append, List.nodup_append]
    refine ⟨h.localNames, by simp, ?_⟩
    intro a ha b hb
    obtain ⟨r, hr, rfl⟩ := List.mem_map.mp ha
    simp only [List.map_cons, List.map_nil, List.mem_singleton] at hb
    exact hb ▸ hnew r hr
  | deleted => exact ⟨h.localNames.sublist (List.filter_sublist.map _), h.internalKeys⟩
  | health data existing updated hfound hupdated =>
    refine ⟨?_, h.internalKeys⟩
    have hname : existing.name = data.name := by simpa using List.find?_some hfound
    rw [List.map_modifyFirst]
    · exact h.localNames
    · intro r _ hr
      rw [hupdated]
      exact hname.trans (beq_iff_eq.mp hr).symm
  | update => exact ⟨h.localNames, planUpdateItems_keys_nodup _ h.internalKeys⟩

/-- Removals leave no route at their keys, and the others as they are. -/
theorem applyChanges_removed (k : String × String) (removed : List InternalRoute)
    (installed : Option InternalRoute) :
    applyChanges k installed (removedChanges removed) =
      if ∃ r ∈ removed, r.key = k then none else installed := by
  induction removed generalizing installed with
  | nil => simp [removedChanges]
  | cons r rest ih =>
    have hcons : removedChanges (r :: rest) = ⟨.removed, .internal r⟩ :: removedChanges rest := rfl
    rw [hcons, applyChanges_cons, ih]
    by_cases hk : r.key = k
    · subst hk
      simp [RouteChange.applyTo_removed]
    · rw [RouteChange.applyTo_of_ne hk]
      simp [hk]

private theorem applyChanges_stale (k : String × String) (marked : List InternalRoute)
    (installed : Option InternalRoute) (hkey : ∀ r ∈ marked, r.key = k → installed = some r) :
    applyChanges k (installed) (marked.map fun r => ⟨.updated, .internal { r with isStale := true }⟩) =
      if ∃ r ∈ marked, r.key = k then installed.map fun r => { r with isStale := true } else installed := by
  suffices h : ∀ current, (current = installed ∨
      current = installed.map fun r => { r with isStale := true }) →
      applyChanges k current (marked.map fun r => ⟨.updated, .internal { r with isStale := true }⟩) =
        if ∃ r ∈ marked, r.key = k then installed.map fun r => { r with isStale := true } else current from
    h installed (.inl rfl)
  induction marked with
  | nil => simp
  | cons r rest ih =>
    intro current hcurrent
    have hrest := ih fun r' hmem => hkey r' (by simp [hmem])
    rw [List.map_cons, applyChanges_cons]
    by_cases hk : r.key = k
    · have hmark := RouteChange.applyTo_put (show RouteChangeType.updated ≠ .removed by simp)
        { r with isStale := true } current
      have hkey' : InternalRoute.key { r with isStale := true } = k := hk
      rw [hkey'] at hmark
      rw [hmark, hrest _ (.inr (by simp [hkey r (by simp) hk]))]
      simp [hk, hkey r (by simp) hk]
    · rw [RouteChange.applyTo_of_ne (by exact hk), hrest current hcurrent]
      simp [hk]

private theorem applyChanges_channel (k : String × String) (installed : Option InternalRoute)
    (type : RouteChangeType) (route : DataChannelDefinition) :
    applyChanges k installed [⟨type, .channel route⟩] = installed := rfl

/-- The change list of any action is an exact record, identity by identity, of
    what the plan did to the internal routes. -/
theorem plan_view (nodeId : String) (now : Int) (action : Action) {state : RouteTable}
    (h : RouteTable.WellKeyed state) (k : String × String) :
    (plan nodeId now action state).newState.view k =
      applyChanges k (state.view k) (plan nodeId now action state).routeChanges := by
  have hshape := plan_shape nodeId now action state
  generalize plan nodeId now action state = result at hshape ⊢
  cases hshape with
  | unchanged | session => rfl
  | created | deleted | health => exact (applyChanges_channel _ _ _ _).symm
  | withdraw action peers =>
    simp only [withdrawPlan, applyChanges_removed, RouteTable.view, routesOf]
    split
    · rename_i hremoved
      obtain ⟨r, hr, hk⟩ := hremoved
      obtain ⟨hmem, hpeer⟩ := List.mem_filter.mp hr
      rw [installedAt_eq_none_iff]
      intro r' hr' hk'
      obtain ⟨hmem', hpeer'⟩ := List.mem_filter.mp hr'
      rw [List.inj_on_of_nodup_map h.internalKeys hmem' hmem (hk'.trans hk.symm)] at hpeer'
      rw [hpeer] at hpeer'
      cases hpeer'
    · rename_i hkept
      simp only [installedAt, List.find?_filter]
      apply List.find?_congr
      intro r hr
      by_cases hk : r.key = k
      · have hpeer : r.peer.name ∉ withdrawnPeers state action := fun hpeer =>
          hkept ⟨r, List.mem_filter.mpr ⟨hr, by simpa using hpeer⟩, hk⟩
        simp [hpeer, hk]
      · simp [hk]
  | stale peerInfo peers =>
    rw [applyChanges_stale]
    · simp only [RouteTable.view, installedAt, List.find?_map, Function.comp_def, markStale_key]
      cases hfound : state.internalRoutes.find? (fun r => r.key == k) with
      | none => simp
      | some r =>
        have hk : r.key = k := installedAt_key hfound
        have hmem : r ∈ state.internalRoutes := mem_of_installedAt hfound
        by_cases hpeer : r.peer.name = peerInfo.name
        · rw [if_pos ⟨r, by simp [hmem, hpeer], hk⟩]
          simp [markStale, hpeer]
        · rw [if_neg]
          · simp [markStale, hpeer]
          · rintro ⟨r', hr', hk'⟩
            obtain ⟨hmem', hpeer'⟩ := List.mem_filter.mp hr'
            rw [List.inj_on_of_nodup_map h.internalKeys hmem' hmem (hk'.trans hk.symm)] at hpeer'
            exact hpeer (by simpa using hpeer')
    · intro r hr hk
      exact (installedAt_eq_some_iff h.internalKeys).mpr ⟨(List.mem_filter.mp hr).1, hk⟩
  | update peerInfo updates peers => exact planUpdateItems_view nodeId peerInfo updates k _

/-- Where a route of the planned table, or of its change list, comes from: it
    was installed before, up to a stale mark, or it is an accepted entry. -/
inductive Provenance (nodeId : String) (state : RouteTable) (action : Action) (r : InternalRoute) : Prop where
  | kept (hmem : r ∈ state.internalRoutes)
  | marked (peerInfo : PeerInfo) (old : InternalRoute)
      (haction : action = .internalProtocolClose peerInfo CloseCodes.transportError)
      (hmem : old ∈ state.internalRoutes) (hr : r = { old with isStale := true })
  | accepted (peerInfo : PeerInfo) (updates : List UpdateItem) (item : UpdateItem)
      (haction : action = .internalProtocolUpdate peerInfo updates) (hmem : item ∈ updates)
      (hadd : item.action = .add) (hloop : nodeId ∉ item.nodePath) (hr : r = itemRoute peerInfo item)

theorem planUpdateItem_mem {nodeId : String} {peerInfo : PeerInfo} {routes : List InternalRoute}
    {item : UpdateItem} {r : InternalRoute}
    (h : r ∈ (planUpdateItem nodeId peerInfo routes item).routes ∨
      ∃ type, ⟨type, .internal r⟩ ∈ (planUpdateItem nodeId peerInfo routes item).routeChanges) :
    r ∈ routes ∨ (item.action = .add ∧ nodeId ∉ item.nodePath ∧ r = itemRoute peerInfo item) := by
  have hstep := planUpdateItem_step nodeId peerInfo routes item
  generalize planUpdateItem nodeId peerInfo routes item = turn at hstep h
  cases hstep with
  | looped | kept | absent => exact .inl (by simpa using h)
  | replaced existing hadd hloop =>
    obtain h | ⟨type, h⟩ := h
    · obtain h | ⟨_, _, _, rfl⟩ := List.mem_modifyFirst h
      · exact .inl h
      · exact .inr ⟨hadd, hloop, rfl⟩
    · simp only [List.mem_singleton, RouteChange.mk.injEq, ChangedRoute.internal.injEq] at h
      exact .inr ⟨hadd, hloop, h.2⟩
  | installed hadd hloop =>
    obtain h | ⟨type, h⟩ := h
    · obtain h | h := List.mem_append.mp h
      · exact .inl h
      · exact .inr ⟨hadd, hloop, List.mem_singleton.mp h⟩
    · simp only [List.mem_singleton, RouteChange.mk.injEq, ChangedRoute.internal.injEq] at h
      exact .inr ⟨hadd, hloop, h.2⟩
  | withdrawn removed hremove hfound =>
    obtain h | ⟨type, h⟩ := h
    · exact .inl (List.mem_filter.mp h).1
    · simp only [List.mem_singleton, RouteChange.mk.injEq, ChangedRoute.internal.injEq] at h
      exact .inl (h.2 ▸ mem_of_installedAt hfound)

theorem planUpdateItems_mem {nodeId : String} {peerInfo : PeerInfo} {r : InternalRoute}
    (updates : List UpdateItem) :
    ∀ routes, (r ∈ (planUpdateItems nodeId peerInfo routes updates).routes ∨
        ∃ type, ⟨type, .internal r⟩ ∈ (planUpdateItems nodeId peerInfo routes updates).routeChanges) →
      r ∈ routes ∨ ∃ item ∈ updates, item.action = .add ∧ nodeId ∉ item.nodePath ∧
        r = itemRoute peerInfo item := by
  induction updates with
  | nil =>
    intro routes h
    simpa [planUpdateItems] using h
  | cons item rest ih =>
    intro routes h
    have hturn (h : r ∈ (planUpdateItem nodeId peerInfo routes item).routes ∨
        ∃ type, ⟨type, .internal r⟩ ∈ (planUpdateItem nodeId peerInfo routes item).routeChanges) :
        r ∈ routes ∨ ∃ item' ∈ item :: rest, item'.action = .add ∧ nodeId ∉ item'.nodePath ∧
          r = itemRoute peerInfo item' :=
      (planUpdateItem_mem h).imp_right fun hnew => ⟨item, by simp, hnew⟩
    have hlater (h : r ∈ (planUpdateItems nodeId peerInfo
          (planUpdateItem nodeId peerInfo routes item).routes rest).routes ∨
        ∃ type, ⟨type, .internal r⟩ ∈ (planUpdateItems nodeId peerInfo
          (planUpdateItem nodeId peerInfo routes item).routes rest).routeChanges) :
        r ∈ routes ∨ ∃ item' ∈ item :: rest, item'.action = .add ∧ nodeId ∉ item'.nodePath ∧
          r = itemRoute peerInfo item' := by
      obtain h | ⟨item', hmem, hnew⟩ := ih _ h
      · exact hturn (.inl h)
      · exact .inr ⟨item', by simp [hmem], hnew⟩
    simp only [planUpdateItems, List.mem_append] at h
    obtain h | ⟨type, h | h⟩ := h
    · exact hlater (.inl h)
    · exact hturn (.inr ⟨type, h⟩)
    · exact hlater (.inr ⟨type, h⟩)

theorem plan_provenance (nodeId : String) (now : Int) (action : Action) (state : RouteTable)
    {r : InternalRoute}
    (h : r ∈ (plan nodeId now action state).newState.internalRoutes ∨
      ∃ type, ⟨type, .internal r⟩ ∈ (plan nodeId now action state).routeChanges) :
    Provenance nodeId state action r := by
  have hshape := plan_shape nodeId now action state
  generalize plan nodeId now action state = result at hshape h
  cases hshape with
  | unchanged | session | created | deleted | health =>
    obtain h | ⟨type, h⟩ := h
    · exact .kept h
    · simp [noChange] at h
  | withdraw =>
    obtain h | ⟨type, h⟩ := h
    · exact .kept (List.mem_filter.mp h).1
    · simp only [withdrawPlan, removedChanges, routesOf, List.mem_map, RouteChange.mk.injEq,
        ChangedRoute.internal.injEq] at h
      obtain ⟨old, hold, -, rfl⟩ := h
      exact .kept (List.mem_filter.mp hold).1
  | stale peerInfo peers =>
    obtain h | ⟨type, h⟩ := h
    · obtain ⟨old, hold, rfl⟩ := List.mem_map.mp h
      unfold markStale
      split
      · exact .marked peerInfo old rfl hold rfl
      · exact .kept hold
    · simp only [List.mem_map, RouteChange.mk.injEq, ChangedRoute.internal.injEq] at h
      obtain ⟨old, hold, -, rfl⟩ := h
      exact .marked peerInfo old rfl (List.mem_filter.mp hold).1 rfl
  | update peerInfo updates peers =>
    obtain h | ⟨item, hmem, hadd, hloop, rfl⟩ := planUpdateItems_mem updates _ h
    · exact .kept h
    · exact .accepted peerInfo updates item rfl hmem hadd hloop rfl

/-- The changes of an update are those of its items. -/
theorem plan_update_changes (nodeId : String) (now : Int) (peerInfo : PeerInfo) (updates : List UpdateItem)
    (state : RouteTable) :
    (plan nodeId now (.internalProtocolUpdate peerInfo updates) state).routeChanges =
      (planUpdateItems nodeId peerInfo state.internalRoutes updates).routeChanges := by
  simp only [plan, planInternalProtocolUpdate]
  split
  · rename_i hquiet
    exact hquiet.1.symm
  · rfl

/-- Committed or not, an update leaves each identity what its entries make of it. -/
theorem plan_update_view (nodeId : String) (now : Int) (peerInfo : PeerInfo) (updates : List UpdateItem)
    (state : RouteTable) (k : String × String) :
    (plan nodeId now (.internalProtocolUpdate peerInfo updates) state).newState.view k =
      installedAt (planUpdateItems nodeId peerInfo state.internalRoutes updates).routes k := by
  simp only [plan, planInternalProtocolUpdate]
  split
  · rename_i hquiet
    rw [planUpdateItems_view, hquiet.1]
    rfl
  · rfl

/-- A message without a change leaves the routes as they were. -/
theorem planUpdateItems_quiet {nodeId : String} {peerInfo : PeerInfo} (updates : List UpdateItem) :
    ∀ {routes}, (planUpdateItems nodeId peerInfo routes updates).routeChanges = [] →
      (planUpdateItems nodeId peerInfo routes updates).routes = routes := by
  induction updates with
  | nil => exact fun _ => rfl
  | cons item rest ih =>
    intro routes hquiet
    obtain ⟨hfirst, hrest⟩ := List.append_eq_nil_iff.mp hquiet
    refine (ih hrest).trans ?_
    have hstep := planUpdateItem_step nodeId peerInfo routes item
    generalize planUpdateItem nodeId peerInfo routes item = turn at hstep hfirst ⊢
    cases hstep with
    | looped | kept | absent => rfl
    | replaced | installed | withdrawn => cases hfirst

/-- Committed or not, an update leaves the routes its entries make. -/
theorem plan_update_routes (nodeId : String) (now : Int) (peerInfo : PeerInfo) (updates : List UpdateItem)
    (state : RouteTable) :
    (plan nodeId now (.internalProtocolUpdate peerInfo updates) state).newState.internalRoutes =
      (planUpdateItems nodeId peerInfo state.internalRoutes updates).routes := by
  simp only [plan, planInternalProtocolUpdate]
  split
  · rename_i hquiet
    exact (planUpdateItems_quiet updates hquiet.1).symm
  · rfl

/-- A tick keeps the internal routes of the peers that it does not purge. -/
theorem plan_tick_routes (nodeId : String) (now tickNow : Int) (state : RouteTable) :
    (plan nodeId now (.tick tickNow) state).newState.internalRoutes =
      state.internalRoutes.filter fun r => !(purgedPeerNames tickNow state).contains r.peer.name := by
  simp only [plan, planTick]
  split
  · rename_i hnone
    simp [hnone, noChange]
  · rfl

/-- An action without a change leaves both route lists as they were. -/
theorem plan_quiet {nodeId : String} {now : Int} {action : Action} {state : RouteTable}
    (hquiet : (plan nodeId now action state).routeChanges = []) :
    (plan nodeId now action state).newState.localRoutes = state.localRoutes ∧
      (plan nodeId now action state).newState.internalRoutes = state.internalRoutes := by
  have hshape := plan_shape nodeId now action state
  generalize plan nodeId now action state = result at hshape hquiet ⊢
  cases hshape with
  | unchanged | session => exact ⟨rfl, rfl⟩
  | created | deleted | health => cases hquiet
  | withdraw =>
    have hnone := List.filter_eq_nil_iff.mp (List.map_eq_nil_iff.mp hquiet)
    refine ⟨rfl, List.filter_eq_self.mpr fun r hr => ?_⟩
    simpa using hnone r hr
  | stale peerInfo peers =>
    have hnone := List.filter_eq_nil_iff.mp (List.map_eq_nil_iff.mp hquiet)
    refine ⟨rfl, (List.map_congr_left fun r hr => ?_).trans (List.map_id _)⟩
    simp only [markStale, hnone r hr, Bool.false_eq_true, if_false, id]
  | update peerInfo updates => exact ⟨rfl, planUpdateItems_quiet updates hquiet⟩

/-! ### Removals -/

/-- Every removal of a change list removes the route installed at its turn. -/
def RemovesInstalled : (String × String → Option InternalRoute) → List RouteChange → Prop
  | _, [] => True
  | view, change :: rest =>
    (∀ r, change = ⟨.removed, .internal r⟩ → view r.key = some r) ∧
      RemovesInstalled (fun k => change.applyTo k (view k)) rest

/-- Changes remove only installed routes if their parts do. -/
theorem removesInstalled_append (changes others : List RouteChange) :
    ∀ {view}, RemovesInstalled view changes →
      RemovesInstalled (fun k => applyChanges k (view k) changes) others →
      RemovesInstalled view (changes ++ others) := by
  induction changes with
  | nil => exact fun _ h => h
  | cons change rest ih => exact fun hfirst hothers => ⟨hfirst.1, ih hfirst.2 hothers⟩

/-- Changes without removals remove nothing. -/
theorem removesInstalled_of_puts (changes : List RouteChange) (h : ∀ change ∈ changes, change.type ≠ .removed) :
    ∀ view, RemovesInstalled view changes := by
  induction changes with
  | nil => exact fun _ => trivial
  | cons change rest ih =>
    intro view
    refine ⟨fun r hremoved => ?_, ih (fun other hmem => h other (by simp [hmem])) _⟩
    exact absurd (congrArg RouteChange.type hremoved) (h change (by simp))

/-- Removals of installed routes with distinct keys remove installed ones. -/
theorem removesInstalled_removedChanges (removed : List InternalRoute) (hnodup : (removed.map (·.key)).Nodup) :
    ∀ {view : String × String → Option InternalRoute}, (∀ r ∈ removed, view r.key = some r) →
      RemovesInstalled view (removedChanges removed) := by
  induction removed with
  | nil => exact fun _ => trivial
  | cons first rest ih =>
    intro view hview
    obtain ⟨hfresh, hrest⟩ := List.nodup_cons.mp hnodup
    refine ⟨fun r hr => ?_, ih hrest fun r hr => ?_⟩
    · cases hr
      exact hview first (by simp)
    · have hne : first.key ≠ r.key := fun heq => hfresh (List.mem_map.mpr ⟨r, hr, heq.symm⟩)
      rw [RouteChange.applyTo_of_ne hne]
      exact hview r (by simp [hr])

/-- An update removes only installed routes. -/
theorem planUpdateItems_removesInstalled (nodeId : String) (peerInfo : PeerInfo) (updates : List UpdateItem) :
    ∀ routes, RemovesInstalled (installedAt routes) (planUpdateItems nodeId peerInfo routes updates).routeChanges := by
  induction updates with
  | nil => exact fun _ => trivial
  | cons item rest ih =>
    intro routes
    refine removesInstalled_append _ _ ?_ ?_
    · have hstep := planUpdateItem_step nodeId peerInfo routes item
      generalize planUpdateItem nodeId peerInfo routes item = turn at hstep ⊢
      cases hstep with
      | looped | kept | absent => trivial
      | replaced | installed => exact removesInstalled_of_puts _ (by simp) _
      | withdrawn removed hremove hfound =>
        refine ⟨fun r hr => ?_, trivial⟩
        cases hr
        rwa [installedAt_key hfound]
    · simpa only [← planUpdateItem_view] using ih (planUpdateItem nodeId peerInfo routes item).routes

/-- A plan only withdraws what is installed. -/
theorem plan_removesInstalled (nodeId : String) (now : Int) (action : Action) {state : RouteTable}
    (h : RouteTable.WellKeyed state) : RemovesInstalled state.view (plan nodeId now action state).routeChanges := by
  have hshape := plan_shape nodeId now action state
  generalize plan nodeId now action state = result at hshape ⊢
  cases hshape with
  | unchanged | session => trivial
  | created | deleted | health => exact ⟨fun r hr => (nomatch hr), trivial⟩
  | withdraw =>
    refine removesInstalled_removedChanges _ (h.internalKeys.sublist (List.filter_sublist.map _)) fun r hr => ?_
    exact (installedAt_eq_some_iff h.internalKeys).mpr ⟨(List.mem_filter.mp hr).1, rfl⟩
  | stale =>
    refine removesInstalled_of_puts _ (fun change hmem => ?_) _
    obtain ⟨r, -, rfl⟩ := List.mem_map.mp hmem
    simp
  | update peerInfo updates => exact planUpdateItems_removesInstalled nodeId peerInfo updates _

end Rib

end CatalystRouter
