import CatalystRouter.Orchestrator.KeyMessages

namespace CatalystRouter

open PathVector (Entry Item receive announcement guarding)

/-! What one queue slot does to one identity, and whom it tells. -/

namespace Rib

/-- What a plan does to an identity, given its change under that identity. -/
inductive PlanEffect (nodeId : String) (action : Action) (state newState : RouteTable)
    (k : String × String) : Option RouteChange → Prop where
  | none (hentry : newState.entryAt k = state.entryAt k)
      (hlocal : k.2 = nodeId → newState.hasLocal k.1 = state.hasLocal k.1) :
      PlanEffect nodeId action state newState k none
  | localPut (type : RouteChangeType) (route : DataChannelDefinition) (htype : type ≠ .removed)
      (hk : k.2 = nodeId) (hentry : newState.entryAt k = state.entryAt k)
      (hadded : state.hasLocal k.1 = false → type = .added) (hnow : newState.hasLocal k.1 = true) :
      PlanEffect nodeId action state newState k (some ⟨type, .channel route⟩)
  | localRemoved (route : DataChannelDefinition) (hk : k.2 = nodeId) (haction : action = .localRouteDelete k.1)
      (hentry : newState.entryAt k = state.entryAt k) (hgone : newState.hasLocal k.1 = false) :
      PlanEffect nodeId action state newState k (some ⟨.removed, .channel route⟩)
  | put (type : RouteChangeType) (r : InternalRoute) (htype : type ≠ .removed) (hk : k.2 ≠ nodeId)
      (hafter : newState.entryAt k = some r.entry) :
      PlanEffect nodeId action state newState k (some ⟨type, .internal r⟩)
  | removed (r : InternalRoute) (hk : k.2 ≠ nodeId) (hafter : newState.entryAt k = Option.none) :
      PlanEffect nodeId action state newState k (some ⟨.removed, .internal r⟩)

/-- What any action does at one key. -/
theorem plan_effect {nodeId : String} {now : Int} {action : Action} {state : RouteTable}
    (hkeyed : RouteTable.WellKeyed state)
    (hkeys : ∀ peerInfo updates, action = .internalProtocolUpdate peerInfo updates → (updates.map (·.key)).Nodup)
    (hown : NoOwnOrigin nodeId (plan nodeId now action state)) (k : String × String) :
    PlanEffect nodeId action state (plan nodeId now action state).newState k
      (changeAt nodeId k (plan nodeId now action state).routeChanges) := by
  have hview := plan_view_changeAt nodeId now hkeyed hkeys k
  have hlocal := plan_localChange hown k.1
  have hk2 : k.2 = nodeId → k = (k.1, nodeId) := fun h => Prod.ext rfl h
  generalize hchange : changeAt nodeId k (plan nodeId now action state).routeChanges = change? at hview ⊢
  cases change? with
  | none =>
    refine .none (by rw [RouteTable.entryAt, hview]; rfl) fun h => ?_
    rw [← hk2 h, hchange] at hlocal
    cases hlocal with
    | kept hsame => exact hsame
  | some change =>
    have hkey := changeAt_key hchange
    have hmem := mem_of_changeAt hchange
    obtain ⟨type, route⟩ := change
    cases route with
    | channel route =>
      have hk : k.2 = nodeId := congrArg Prod.snd hkey.symm
      have hentry : (plan nodeId now action state).newState.entryAt k = state.entryAt k := by
        rw [RouteTable.entryAt, hview]
        rfl
      rw [← hk2 hk, hchange] at hlocal
      cases hlocal with
      | put _ _ htype hadded hnow => exact .localPut type route htype hk hentry hadded hnow
      | removed _ haction hgone => exact .localRemoved route hk haction hentry hgone
    | internal r =>
      have hrk : r.key = k := hkey
      have hk : k.2 ≠ nodeId := fun h => hown type r hmem ((congrArg Prod.snd hrk).trans h)
      subst hrk
      by_cases htype : type = .removed
      · subst htype
        refine .removed r hk ?_
        rw [RouteTable.entryAt, hview]
        simp [RouteChange.applyTo]
      · refine .put type r htype hk ?_
        rw [RouteTable.entryAt, hview]
        simp [RouteChange.applyTo, htype]

/-- Other than for updates, a changed internal route is the installed one, up
    to the mark of a transport error. -/
theorem plan_internalChange {nodeId : String} {now : Int} {action : Action} {state : RouteTable}
    (hkeyed : RouteTable.WellKeyed state) (hupdate : action.isUpdate = false) {type : RouteChangeType}
    {r : InternalRoute} (hmem : ⟨type, .internal r⟩ ∈ (plan nodeId now action state).routeChanges) :
    ∃ e, state.entryAt r.key = some e ∧ r.entry = { e with stale := r.isStale } ∧
      (e.stale = true → r.isStale = true) ∧
      (r.isStale = e.stale ∨
        ∃ peerInfo, action = .internalProtocolClose peerInfo CloseCodes.transportError) := by
  cases plan_provenance nodeId now action state (.inr ⟨type, hmem⟩) with
  | kept hold =>
    have hview : state.view r.key = some r := (installedAt_eq_some_iff hkeyed.internalKeys).mpr ⟨hold, rfl⟩
    exact ⟨r.entry, by rw [RouteTable.entryAt, hview]; rfl, rfl, id, .inl rfl⟩
  | marked peerInfo old haction hold hr =>
    have hview : state.view old.key = some old := (installedAt_eq_some_iff hkeyed.internalKeys).mpr ⟨hold, rfl⟩
    have hkey : r.key = old.key := by rw [hr]; rfl
    refine ⟨old.entry, by rw [hkey, RouteTable.entryAt, hview]; rfl, by rw [hr]; rfl, fun _ => by rw [hr], ?_⟩
    exact .inr ⟨peerInfo, haction⟩
  | accepted peerInfo updates item haction =>
    rw [haction] at hupdate
    cases hupdate

end Rib

namespace Bus

/-- Everything a queue slot can do to an identity. `told` are the peers that
    hear of it, and what they hear is one and the same item. -/
inductive KeyEffect (config : BusConfig) (bus : Bus) (k : String × String) (action : Action)
    (result : DispatchResult) : Prop where
  | quiet (hentry : result.bus.state.entryAt k = bus.state.entryAt k)
      (hlocal : k.2 = config.node.name → result.bus.state.hasLocal k.1 = bus.state.hasLocal k.1)
      (hsilent : Silent k result.sends)
      (hkept : ∀ peerInfo updates item, action = .internalProtocolUpdate peerInfo updates →
        Rib.itemAt k updates = some item → inboundPasses config bus.state peerInfo updates k.1 = true →
        receive config.node.name peerInfo.name (bus.state.entryAt k) item.payload = bus.state.entryAt k)
  | originated (hupdate : action.isUpdate = false) (hk : k.2 = config.node.name)
      (hentry : result.bus.state.entryAt k = bus.state.entryAt k)
      (hnow : result.bus.state.hasLocal k.1 = true) (htells : Says k result.sends (.add [config.node.name]))
      (htold : bus.state.hasLocal k.1 = false →
        ∀ peer ∈ connectedPeers result.bus.state, peer ∈ told k result.sends)
  | retracted (hupdate : action.isUpdate = false) (hk : k.2 = config.node.name)
      (haction : action = .localRouteDelete k.1)
      (hentry : result.bus.state.entryAt k = bus.state.entryAt k)
      (hgone : result.bus.state.hasLocal k.1 = false) (htells : Says k result.sends .remove)
      (htold : ∀ peer ∈ connectedPeers result.bus.state, peer ∈ told k result.sends)
  | repeated (e : Entry String) (stale : Bool) (hupdate : action.isUpdate = false)
      (hk : k.2 ≠ config.node.name) (hbefore : bus.state.entryAt k = some e)
      (hafter : result.bus.state.entryAt k = some { e with stale })
      (hstale : e.stale = true → stale = true)
      (hkind : stale = e.stale ∨
        ∃ peerInfo, action = .internalProtocolClose peerInfo CloseCodes.transportError)
      (htells : Says k result.sends (.add (config.node.name :: e.path)))
      (hguard : ∀ peer ∈ told k result.sends, e.Exportable peer.name)
  | dropped (e : Entry String) (hupdate : action.isUpdate = false) (hk : k.2 ≠ config.node.name)
      (hwithdrawn : e.hop ∈ Rib.withdrawnPeers bus.state action)
      (hbefore : bus.state.entryAt k = some e) (hafter : result.bus.state.entryAt k = none)
      (htells : Says k result.sends .remove) (hguard : ∀ peer ∈ told k result.sends, e.Exportable peer.name)
      (htold : ∀ peer ∈ connectedPeers result.bus.state, e.Exportable peer.name → peer ∈ told k result.sends)
  | selected (peerInfo : PeerInfo) (updates : List UpdateItem) (item : UpdateItem) (x : Item String)
      (haction : action = .internalProtocolUpdate peerInfo updates) (hk : k.2 ≠ config.node.name)
      (hitem : Rib.itemAt k updates = some item)
      (hpass : inboundPasses config bus.state peerInfo updates k.1 = true)
      (hafter : result.bus.state.entryAt k =
        receive config.node.name peerInfo.name (bus.state.entryAt k) item.payload)
      (hannounced : announcement config.node.name (bus.state.entryAt k) (result.bus.state.entryAt k) = some x)
      (htells : Says k result.sends x)
      (hguard : ∀ e, guarding (bus.state.entryAt k) (result.bus.state.entryAt k) = some e →
        ∀ peer ∈ told k result.sends, e.Exportable peer.name)
      (htold : ∀ e, guarding (bus.state.entryAt k) (result.bus.state.entryAt k) = some e →
        result.bus.state.entryAt k = none ∨ config.routePolicy = none →
        ∀ peer ∈ connectedPeers result.bus.state, e.Exportable peer.name → peer ∈ told k result.sends)

/-- The guards of the send paths let an entry out exactly if it is exportable. -/
theorem exportGuards_iff {peer : PeerRecord} {r : InternalRoute} :
    exportGuards peer r = true ↔ r.entry.Exportable peer.name := by
  simp [exportGuards, Entry.Exportable, InternalRoute.entry]

/-- A change of a local route is told to every peer. -/
theorem changeItem_channel (config : BusConfig) (peer : PeerRecord) (type : RouteChangeType)
    (route : DataChannelDefinition) : (changeItem config peer ⟨type, .channel route⟩).isSome = true := rfl

/-- A change of a learned route is told where the guards pass, and also the policy unless it is
    a removal. -/
theorem changeItem_internal {config : BusConfig} {peer : PeerRecord} {type : RouteChangeType}
    {r : InternalRoute} :
    (changeItem config peer ⟨type, .internal r⟩).isSome = true ↔
      r.entry.Exportable peer.name ∧ (type = .removed ∨ policyAllowsSend config peer r = true) := by
  rw [← exportGuards_iff]
  simp [changeItem]

theorem silent_nil (k : String × String) : Silent k [] := fun _ h => by cases h

/-- A full sync speaks of an identity of this node through its local routes, and
    of any other through the installed route, fresh and exportable. -/
theorem itemAt_syncUpdates {config : BusConfig} {peer : PeerRecord} {state : RouteTable}
    (hkeyed : Rib.RouteTable.WellKeyed state) (hsound : ∀ r ∈ state.internalRoutes, PathSound config.node.name r)
    {k : String × String} {item : UpdateItem} (h : Rib.itemAt k (syncUpdates config peer state) = some item) :
    (k.2 = config.node.name ∧ state.hasLocal k.1 = true ∧ item.payload = .add [config.node.name]) ∨
      (k.2 ≠ config.node.name ∧ ∃ r, state.view k = some r ∧ r.isStale = false ∧
        r.entry.Exportable peer.name ∧ item.payload = .add (config.node.name :: r.nodePath)) := by
  have hk := Rib.itemAt_key h
  have hmem : item ∈ syncUpdates config peer state := List.mem_of_find?_eq_some h
  obtain hmem | hmem := List.mem_append.mp hmem
  · obtain ⟨route, hroute, rfl⟩ := List.mem_map.mp hmem
    subst hk
    exact .inl ⟨rfl, Rib.hasLocal_eq_true_iff.mpr ⟨route, hroute, rfl⟩, rfl⟩
  · obtain ⟨r, hr, rfl⟩ := List.mem_map.mp hmem
    obtain ⟨hinstalled, hsync⟩ := List.mem_filter.mp hr
    subst hk
    have hview : state.view r.key = some r :=
      (installedAt_eq_some_iff hkeyed.internalKeys).mpr ⟨hinstalled, rfl⟩
    have hfresh : r.isStale = false ∧ exportGuards peer r = true := by
      simp only [syncable, Bool.and_eq_true, Bool.not_eq_true'] at hsync
      exact hsync.1
    exact .inr ⟨(hsound r hinstalled).originNode_ne, r, hview, hfresh.1, exportGuards_iff.mp hfresh.2, rfl⟩

variable {config : BusConfig} {bus : Bus} {now : Int} {action : Action}

/-- The facts about a committed plan, ports included. -/
structure Committed (config : BusConfig) (bus : Bus) (now : Int) (action filteredAction : Action)
    (plan : PlanResult) : Prop where
  filtered : applyInboundPolicy config bus.state action = some filteredAction
  ports : PortsOnly (Rib.plan config.node.name now filteredAction bus.state) plan

/-- A dispatch that the policy and the planning of ports let through is committed. -/
theorem committed_of_planPorts {filteredAction : Action} {plan : PlanResult} {portAllocator : Option PortAllocator}
    (hfiltered : applyInboundPolicy config bus.state action = some filteredAction)
    (hports : planPorts bus.portAllocator (Rib.plan config.node.name now filteredAction bus.state) =
      (plan, portAllocator)) : Committed config bus now action filteredAction plan :=
  ⟨hfiltered, portsOnly_of_planPorts hports⟩

/-- The committed entries are those that were planned. -/
theorem Committed.entryAt {filteredAction : Action} {plan : PlanResult}
    (h : Committed config bus now action filteredAction plan) (k : String × String) :
    plan.newState.entryAt k = (Rib.plan config.node.name now filteredAction bus.state).newState.entryAt k :=
  entryAt_unstamped h.ports.internalRoutes k

/-- So are the names of local routes. -/
theorem Committed.hasLocal {filteredAction : Action} {plan : PlanResult}
    (h : Committed config bus now action filteredAction plan) (name : String) :
    plan.newState.hasLocal name = (Rib.plan config.node.name now filteredAction bus.state).newState.hasLocal name :=
  hasLocal_unstamped h.ports.localRoutes name

/-- So are the keys of the changes. -/
theorem Committed.changeKeys {filteredAction : Action} {plan : PlanResult}
    (h : Committed config bus now action filteredAction plan) :
    plan.routeChanges.map (·.keyAt config.node.name) =
      (Rib.plan config.node.name now filteredAction bus.state).routeChanges.map (·.keyAt config.node.name) := by
  have hkeys (changes : List RouteChange) : changes.map (·.keyAt config.node.name) =
      (changes.map RouteChange.unstamped).map (·.keyAt config.node.name) := by
    simp [Function.comp_def]
  rw [hkeys, h.ports.routeChanges, ← hkeys]

/-- A stamped change differs from a planned one by its port only. -/
theorem Committed.planned {filteredAction : Action} {plan : PlanResult}
    (h : Committed config bus now action filteredAction plan) {change : RouteChange} (hchange : change ∈ plan.routeChanges) :
    ∃ planned ∈ (Rib.plan config.node.name now filteredAction bus.state).routeChanges,
      planned.unstamped = change.unstamped := by
  have hmem := List.mem_map_of_mem (f := RouteChange.unstamped) hchange
  rw [h.ports.routeChanges] at hmem
  exact List.mem_map.mp hmem

/-- The stamped change under an identity differs from the planned one by its
    port only. -/
theorem Committed.changeAt {filteredAction : Action} {plan : PlanResult}
    (h : Committed config bus now action filteredAction plan) {k : String × String} {change : RouteChange}
    (hchange : changeAt config.node.name k
      (Rib.plan config.node.name now filteredAction bus.state).routeChanges = some change) :
    ∃ change', CatalystRouter.changeAt config.node.name k plan.routeChanges = some change' ∧
      change'.unstamped = change.unstamped := by
  have hunstamped := changeAt_unstamped config.node.name k h.ports.routeChanges
  rw [hchange] at hunstamped
  obtain ⟨change', hchange', heq⟩ := Option.map_eq_some_iff.mp hunstamped
  exact ⟨change', hchange', heq⟩

/-- A key without a planned change has no committed one. -/
theorem Committed.changeAt_none {filteredAction : Action} {plan : PlanResult}
    (h : Committed config bus now action filteredAction plan) {k : String × String}
    (hchange : CatalystRouter.changeAt config.node.name k
      (Rib.plan config.node.name now filteredAction bus.state).routeChanges = none) :
    CatalystRouter.changeAt config.node.name k plan.routeChanges = none := by
  have hunstamped := changeAt_unstamped config.node.name k h.ports.routeChanges
  rw [hchange] at hunstamped
  simpa using hunstamped

/-- What the slot is fed: a well-keyed table of sound routes, and an action whose
    entries are sound and concern pairwise distinct identities. -/
structure SlotInput (config : BusConfig) (bus : Bus) (action : Action) : Prop where
  keyed : Rib.RouteTable.WellKeyed bus.state
  sound : ∀ r ∈ bus.state.internalRoutes, PathSound config.node.name r
  incoming : IncomingSound action
  keys : ∀ peerInfo updates, action = .internalProtocolUpdate peerInfo updates → (updates.map (·.key)).Nodup

/-- What the policy lets through is expected in the slot like the action itself. -/
theorem SlotInput.filtered (h : SlotInput config bus action) {filteredAction : Action}
    (hfiltered : applyInboundPolicy config bus.state action = some filteredAction) :
    SlotInput config bus filteredAction := by
  refine ⟨h.keyed, h.sound, applyInboundPolicy_incomingSound h.incoming hfiltered, ?_⟩
  intro peerInfo updates haction
  obtain rfl | ⟨peerInfo', updates', filtered', heq, hfiltered', hsub⟩ := applyInboundPolicy_cases hfiltered
  · exact h.keys peerInfo updates haction
  · rw [hfiltered'] at haction
    obtain ⟨rfl, rfl⟩ := Action.internalProtocolUpdate.inj haction
    exact (h.keys _ _ heq).sublist (hsub.map _)

/-- A table of routes of others stays so. -/
theorem SlotInput.ownOrigin (h : SlotInput config bus action) (now : Int) :
    Rib.NoOwnOrigin config.node.name (Rib.plan config.node.name now action bus.state) :=
  fun type _ hmem => (plan_pathSound h.incoming h.sound (.inr ⟨type, hmem⟩)).originNode_ne

variable {filteredAction : Action} {plan : PlanResult} {result : DispatchResult}

/-- A committed plan has the effect of the planned one at every key. -/
theorem Committed.effect (h : Committed config bus now action filteredAction plan)
    (hinput : SlotInput config bus action) (k : String × String) :
    Rib.PlanEffect config.node.name filteredAction bus.state
      (Rib.plan config.node.name now filteredAction bus.state).newState k
      (CatalystRouter.changeAt config.node.name k
        (Rib.plan config.node.name now filteredAction bus.state).routeChanges) :=
  have hfiltered := hinput.filtered h.filtered
  Rib.plan_effect hfiltered.keyed hfiltered.keys (hfiltered.ownOrigin now) k

/-- No key is changed twice. -/
theorem Committed.changeKeys_nodup (h : Committed config bus now action filteredAction plan)
    (hinput : SlotInput config bus action) : (plan.routeChanges.map (·.keyAt config.node.name)).Nodup := by
  have hfiltered := hinput.filtered h.filtered
  rw [h.changeKeys]
  exact Rib.plan_changeKeys_nodup _ _ _ hfiltered.keyed hfiltered.keys

/-- A stamped change concerns the route of the planned one, up to its port. -/
theorem eq_internal_of_unstamped {change : RouteChange} {type : RouteChangeType} {r : InternalRoute}
    (h : change.unstamped = RouteChange.unstamped ⟨type, .internal r⟩) :
    ∃ r', change = ⟨type, .internal r'⟩ ∧ r'.unstamped = r.unstamped := by
  obtain ⟨type', route⟩ := change
  cases route with
  | channel route => simp [RouteChange.unstamped, ChangedRoute.unstamped] at h
  | internal r' =>
    simp only [RouteChange.unstamped, ChangedRoute.unstamped, RouteChange.mk.injEq,
      ChangedRoute.internal.injEq] at h
    obtain ⟨rfl, heq⟩ := h
    exact ⟨r', rfl, heq⟩

theorem eq_channel_of_unstamped {change : RouteChange} {type : RouteChangeType}
    {route : DataChannelDefinition} (h : change.unstamped = RouteChange.unstamped ⟨type, .channel route⟩) :
    ∃ route', change = ⟨type, .channel route'⟩ ∧ route'.unstamped = route.unstamped := by
  obtain ⟨type', route'⟩ := change
  cases route' with
  | internal r => simp [RouteChange.unstamped, ChangedRoute.unstamped] at h
  | channel route' =>
    simp only [RouteChange.unstamped, ChangedRoute.unstamped, RouteChange.mk.injEq,
      ChangedRoute.channel.injEq] at h
    obtain ⟨rfl, heq⟩ := h
    exact ⟨route', rfl, heq⟩

/-- A slot that fans a delta out, for an action other than an update. -/
theorem Committed.keyEffect_local (h : Committed config bus now action action plan)
    (hinput : SlotInput config bus action) (hupdate : action.isUpdate = false)
    (hstate : result.bus.state = plan.newState) (hsends : result.sends = deltas config plan plan.newState)
    (k : String × String) : KeyEffect config bus k action result := by
  have hnodup := h.changeKeys_nodup hinput
  have heffect := h.effect hinput k
  have hentry := h.entryAt k
  have hlocal := h.hasLocal k.1
  rw [← hstate] at hentry hlocal hsends
  generalize hchange : CatalystRouter.changeAt config.node.name k
    (Rib.plan config.node.name now action bus.state).routeChanges = change? at heffect
  cases heffect with
  | none hsame hlocalSame =>
    refine .quiet (hentry.trans hsame) (fun hk => hlocal.trans (hlocalSame hk)) ?_ ?_
    · rw [hsends]
      exact deltas_silent hnodup (h.changeAt_none hchange)
    · intro peerInfo updates item haction
      rw [haction] at hupdate
      cases hupdate
  | localPut type route htype hk hsame hadded hnow =>
    obtain ⟨change', hchange', heq⟩ := h.changeAt hchange
    obtain ⟨route', rfl, -⟩ := eq_channel_of_unstamped heq
    refine .originated hupdate hk (hentry.trans hsame) (hlocal.trans hnow) ?_ fun _ peer hpeer => ?_
    · rw [hsends]
      have htells := deltas_say result.bus.state hnodup hchange'
      cases type with
      | removed => exact absurd rfl htype
      | added | updated => exact htells
    · rw [hsends, mem_told_deltas hnodup, hchange']
      exact ⟨hpeer, changeItem_channel config peer type route'⟩
  | localRemoved route hk haction hsame hgone =>
    obtain ⟨change', hchange', heq⟩ := h.changeAt hchange
    obtain ⟨route', rfl, -⟩ := eq_channel_of_unstamped heq
    refine .retracted hupdate hk haction (hentry.trans hsame) (hlocal.trans hgone) ?_ fun peer hpeer => ?_
    · rw [hsends]
      exact deltas_say _ hnodup hchange'
    · rw [hsends, mem_told_deltas hnodup, hchange']
      exact ⟨hpeer, changeItem_channel config peer .removed route'⟩
  | put type r htype hk hafter =>
    obtain ⟨change', hchange', heq⟩ := h.changeAt hchange
    obtain ⟨r', rfl, hstamp⟩ := eq_internal_of_unstamped heq
    have hsame := InternalRoute.entry_eq_of_unstamped hstamp
    obtain ⟨e, hbefore, hre, hstale, hkind⟩ :=
      Rib.plan_internalChange hinput.keyed hupdate (mem_of_changeAt hchange)
    have hkey : r.key = k := changeAt_key hchange
    rw [hkey] at hbefore
    refine .repeated e r.isStale hupdate hk hbefore (by rw [hentry, hafter, hre]) hstale hkind ?_ ?_
    · rw [hsends]
      have htells := deltas_say result.bus.state hnodup hchange'
      have hpath : r'.nodePath = e.path := congrArg Entry.path (hsame.trans hre)
      cases type with
      | removed => exact absurd rfl htype
      | added | updated => simpa [RouteChange.payload, hpath] using htells
    · intro peer hpeer
      rw [hsends, mem_told_deltas hnodup, hchange'] at hpeer
      have hexport := (changeItem_internal.mp hpeer.2).1
      rw [hsame, hre] at hexport
      exact hexport
  | removed r hk hafter =>
    obtain ⟨change', hchange', heq⟩ := h.changeAt hchange
    obtain ⟨r', rfl, hstamp⟩ := eq_internal_of_unstamped heq
    have hsame := InternalRoute.entry_eq_of_unstamped hstamp
    obtain ⟨e, hbefore, hre, -, -⟩ :=
      Rib.plan_internalChange hinput.keyed hupdate (mem_of_changeAt hchange)
    have hkey : r.key = k := changeAt_key hchange
    rw [hkey] at hbefore
    have hguard (peer : PeerRecord) : r'.entry.Exportable peer.name ↔ e.Exportable peer.name := by
      rw [hsame, hre]
      exact Iff.rfl
    have hhop : e.hop = r.peer.name := (congrArg Entry.hop hre).symm
    have hwithdrawn : e.hop ∈ Rib.withdrawnPeers bus.state action :=
      hhop ▸ Rib.plan_removed_withdrawn hupdate (mem_of_changeAt hchange)
    refine .dropped e hupdate hk hwithdrawn hbefore (hentry.trans hafter) ?_ (fun peer hpeer => ?_)
      fun peer hpeer hexport => ?_
    · rw [hsends]
      exact deltas_say _ hnodup hchange'
    · rw [hsends, mem_told_deltas hnodup, hchange'] at hpeer
      exact (hguard peer).mp (changeItem_internal.mp hpeer.2).1
    · rw [hsends, mem_told_deltas hnodup, hchange']
      exact ⟨hpeer, changeItem_internal.mpr ⟨(hguard peer).mpr hexport, .inl rfl⟩⟩

/-- A connection changes no routes. -/
theorem plan_connected_changes (nodeId : String) (now : Int) (peerInfo : PeerInfo) (state : RouteTable) :
    (Rib.plan nodeId now (.internalProtocolConnected peerInfo) state).routeChanges = [] := by
  simp only [Rib.plan, Rib.planInternalProtocolConnected]
  split <;> rfl

/-- A slot that syncs the full table to a peer that has just connected. -/
theorem Committed.keyEffect_sync {peerInfo : PeerInfo} (hconnected : action = .internalProtocolConnected peerInfo)
    (h : Committed config bus now action action plan) (hinput : SlotInput config bus action)
    (hstate : result.bus.state = plan.newState) (hsends : result.sends = notified config action plan plan.newState)
    (k : String × String) : KeyEffect config bus k action result := by
  have hupdate : action.isUpdate = false := by rw [hconnected]; rfl
  have heffect := h.effect hinput k
  have hentry := h.entryAt k
  have hlocal := h.hasLocal k.1
  have hkeyed : Rib.RouteTable.WellKeyed plan.newState :=
    wellKeyed_unstamped (Rib.plan_wellKeyed config.node.name now action hinput.keyed) h.ports.localRoutes
      h.ports.internalRoutes
  have hsound : ∀ r ∈ plan.newState.internalRoutes, PathSound config.node.name r := by
    intro r hr
    have hmem : r.unstamped ∈
        (Rib.plan config.node.name now action bus.state).newState.internalRoutes.map InternalRoute.unstamped := by
      rw [← h.ports.internalRoutes]
      exact List.mem_map_of_mem hr
    obtain ⟨old, hold, heq⟩ := List.mem_map.mp hmem
    exact pathSound_of_unstamped heq.symm (plan_pathSound hinput.incoming hinput.sound (.inl hold))
  have hnone : CatalystRouter.changeAt config.node.name k
      (Rib.plan config.node.name now action bus.state).routeChanges = none := by
    rw [hconnected, plan_connected_changes]
    rfl
  rw [hnone] at heffect
  obtain ⟨hsame, hlocalSame⟩ : (Rib.plan config.node.name now action bus.state).newState.entryAt k =
        bus.state.entryAt k ∧ (k.2 = config.node.name →
      (Rib.plan config.node.name now action bus.state).newState.hasLocal k.1 = bus.state.hasLocal k.1) := by
    cases heffect with
    | none hsame hlocalSame => exact ⟨hsame, hlocalSame⟩
  have hquiet (hsilent : Silent k result.sends) : KeyEffect config bus k action result := by
    refine .quiet (by rw [hstate, hentry, hsame]) (fun hk => by rw [hstate, hlocal, hlocalSame hk]) hsilent ?_
    intro peerInfo updates item haction
    rw [haction] at hupdate
    cases hupdate
  rw [hconnected] at hsends
  simp only [notified] at hsends
  cases hpeer : (connectedPeers plan.newState).find? (hasName peerInfo.name) with
  | none =>
    rw [hpeer] at hsends
    exact hquiet (hsends ▸ silent_nil k)
  | some peer =>
    rw [hpeer] at hsends
    by_cases hempty : syncUpdates config peer plan.newState = []
    · simp only [message, hempty, if_true, Option.toList_none] at hsends
      exact hquiet (hsends ▸ silent_nil k)
    · simp only [message, hempty, if_false, Option.toList_some] at hsends
      cases hitem : Rib.itemAt k (syncUpdates config peer plan.newState) with
      | none =>
        refine hquiet fun m hm => ?_
        rw [hsends] at hm
        obtain rfl := List.mem_singleton.mp hm
        exact hitem
      | some item =>
        have htells {x : Item String} (hx : item.payload = x) : Says k result.sends x := by
          intro m hm item' hitem'
          rw [hsends] at hm
          obtain rfl := List.mem_singleton.mp hm
          rw [hitem] at hitem'
          exact Option.some.inj hitem' ▸ hx
        rcases itemAt_syncUpdates hkeyed hsound hitem with
          ⟨hk, hnow, hpayload⟩ | ⟨hk, r, hview, hfresh, hexport, hpayload⟩
        · refine .originated hupdate hk (by rw [hstate, hentry, hsame]) (hstate ▸ hnow) (htells hpayload) ?_
          intro hbefore
          rw [hlocal, hlocalSame hk, hbefore] at hnow
          cases hnow
        · have hafter : plan.newState.entryAt k = some r.entry := by rw [RouteTable.entryAt, hview]; rfl
          have hbefore : bus.state.entryAt k = some r.entry := by rw [← hsame, ← hentry, hafter]
          refine .repeated r.entry r.entry.stale hupdate hk hbefore (hstate ▸ hafter) id (.inl rfl)
            (htells hpayload) fun other hother => ?_
          rw [hsends] at hother
          simp only [told, List.mem_map, List.mem_filter, List.mem_singleton] at hother
          obtain ⟨m, ⟨rfl, -⟩, rfl⟩ := hother
          exact hexport

/-- A slot that commits an update. -/
theorem Committed.keyEffect_update {peerInfo : PeerInfo} {updates : List UpdateItem}
    (haction : action = .internalProtocolUpdate peerInfo updates)
    (h : Committed config bus now action
      (.internalProtocolUpdate peerInfo (receivedUpdates config bus.state peerInfo updates)) plan)
    (hinput : SlotInput config bus action) (hstate : result.bus.state = plan.newState)
    (hsends : result.sends = deltas config plan plan.newState) (k : String × String) :
    KeyEffect config bus k action result := by
  have hnodup := h.changeKeys_nodup hinput
  have heffect := h.effect hinput k
  have hentry := h.entryAt k
  have hlocal := h.hasLocal k.1
  have hkeys := (hinput.filtered h.filtered).keys _ _ rfl
  have hat := Rib.planUpdateItems_at config.node.name peerInfo
    (receivedUpdates config bus.state peerInfo updates) k bus.state.internalRoutes hkeys
  have hview := Rib.plan_update_view config.node.name now peerInfo
    (receivedUpdates config bus.state peerInfo updates) bus.state k
  rw [← hstate] at hentry hlocal hsends
  rw [hat.2] at hview
  rw [Rib.plan_update_changes, hat.1] at heffect
  have hreceived := itemAt_receivedUpdates config bus.state peerInfo updates k
  have hold : (installedAt bus.state.internalRoutes k).map InternalRoute.entry = bus.state.entryAt k := rfl
  -- the entry for `k`, if it is there and passes the policy
  cases hitem : Rib.itemAt k (receivedUpdates config bus.state peerInfo updates) with
  | none =>
    rw [hitem] at heffect hreceived hview
    cases heffect with
    | none hsame hlocalSame =>
      refine .quiet (hentry.trans hsame) (fun hk => hlocal.trans (hlocalSame hk)) ?_ ?_
      · rw [hsends]
        refine deltas_silent hnodup (h.changeAt_none ?_)
        rw [Rib.plan_update_changes, hat.1, hitem]
        rfl
      · intro peerInfo' updates' item haction' hitem' hpass
        obtain ⟨rfl, rfl⟩ := Action.internalProtocolUpdate.inj (haction.symm.trans haction')
        rw [hpass, if_pos rfl, hitem'] at hreceived
        cases hreceived
  | some item =>
    rw [hitem] at heffect hreceived hview
    obtain ⟨hpass, hsent⟩ : inboundPasses config bus.state peerInfo updates k.1 = true ∧
        Rib.itemAt k updates = some item := by
      split at hreceived
      · exact ⟨by assumption, hreceived.symm⟩
      · cases hreceived
    have hafter : result.bus.state.entryAt k =
        receive config.node.name peerInfo.name (bus.state.entryAt k) item.payload := by
      rw [hentry, RouteTable.entryAt, hview]
      exact Rib.receiveItem_entry config.node.name peerInfo _ item
    have hannounce := Rib.itemChange_announcement config.node.name peerInfo
      (installedAt bus.state.internalRoutes k) item
    rw [hold, ← hafter] at hannounce
    simp only [Option.bind_some] at heffect
    generalize hchange : Rib.itemChange config.node.name peerInfo (installedAt bus.state.internalRoutes k) item =
      change? at heffect hannounce
    have hplanned : CatalystRouter.changeAt config.node.name k (Rib.plan config.node.name now
        (.internalProtocolUpdate peerInfo (receivedUpdates config bus.state peerInfo updates))
        bus.state).routeChanges = change? := by
      rw [Rib.plan_update_changes, hat.1, hitem, ← hchange]
      rfl
    have hchannel (type : RouteChangeType) (route : DataChannelDefinition)
        (hsome : change? = some ⟨type, .channel route⟩) : False := by
      rw [hsome] at hplanned
      have hmem := mem_of_changeAt hplanned
      rw [Rib.plan_update_changes] at hmem
      exact Rib.planUpdateItems_internal _ _ _ _ type route hmem
    -- the peers that may hear of a change are those its route is guarded against
    have hselected (type : RouteChangeType) (r : InternalRoute) (hsome : change? = some ⟨type, .internal r⟩)
        (hk : k.2 ≠ config.node.name)
        (hguarding : guarding (bus.state.entryAt k) (result.bus.state.entryAt k) = some r.entry)
        (hfree : result.bus.state.entryAt k = none ∨ config.routePolicy = none →
          ∀ peer r', type = .removed ∨ policyAllowsSend config peer r' = true) : KeyEffect config bus k action result := by
      rw [hsome] at hannounce
      obtain ⟨change', hchange', heq⟩ := h.changeAt (hplanned.trans hsome)
      obtain ⟨r', rfl, hstamp⟩ := eq_internal_of_unstamped heq
      rw [← InternalRoute.entry_eq_of_unstamped hstamp] at hguarding
      refine .selected peerInfo updates item _ haction hk hsent hpass hafter hannounce.symm ?_ ?_ ?_
      · rw [hsends]
        have htells := deltas_say result.bus.state hnodup hchange'
        rwa [← payload_unstamped, heq, payload_unstamped] at htells
      · intro e he peer hpeer
        obtain rfl := Option.some.inj (hguarding.symm.trans he)
        rw [hsends, mem_told_deltas hnodup, hchange'] at hpeer
        exact (changeItem_internal.mp hpeer.2).1
      · intro e he hopen peer hpeer hexport
        obtain rfl := Option.some.inj (hguarding.symm.trans he)
        rw [hsends, mem_told_deltas hnodup, hchange']
        exact ⟨hpeer, changeItem_internal.mpr ⟨hexport, hfree hopen peer r'⟩⟩
    cases heffect with
    | none hsame hlocalSame =>
      refine .quiet (hentry.trans hsame) (fun hk => hlocal.trans (hlocalSame hk)) ?_ ?_
      · rw [hsends]
        exact deltas_silent hnodup (h.changeAt_none hplanned)
      · intro peerInfo' updates' item' haction' hitem' _
        obtain ⟨rfl, rfl⟩ := Action.internalProtocolUpdate.inj (haction.symm.trans haction')
        rw [hsent] at hitem'
        obtain rfl := Option.some.inj hitem'
        rw [← hafter, hentry, hsame]
    | localPut type route => exact (hchannel type route rfl).elim
    | localRemoved route => exact (hchannel .removed route rfl).elim
    | put type r htype hk hput =>
      have hnew : result.bus.state.entryAt k = some r.entry := hentry.trans hput
      refine hselected type r rfl hk (by rw [hnew]; rfl) fun hopen peer r' => .inr ?_
      obtain hgone | hpolicy := hopen
      · rw [hnew] at hgone
        cases hgone
      · simp [policyAllowsSend, hpolicy]
    | removed r hk hgone =>
      have hinstalled : installedAt bus.state.internalRoutes k = some r := by
        unfold Rib.itemChange at hchange
        split at hchange
        · split at hchange
          · cases hchange
          · split at hchange
            · split at hchange <;> cases hchange
            · cases hchange
        · obtain ⟨removed, hremoved, heq⟩ := Option.map_eq_some_iff.mp hchange
          cases heq
          exact hremoved
      refine hselected .removed r rfl hk ?_ fun _ _ _ => .inl rfl
      rw [hentry.trans hgone, ← hold, hinstalled]
      rfl

/-- A slot that leaves the bus alone and tells nobody. -/
theorem keyEffect_of_unchanged (hbus : result.bus.state = bus.state)
    (hsends : result.sends = [])
    (hidle : ∀ peerInfo updates, action = .internalProtocolUpdate peerInfo updates →
      ∀ k, inboundPasses config bus.state peerInfo updates k.1 = true → ∀ item, Rib.itemAt k updates = some item →
        Rib.receiveItem config.node.name peerInfo (bus.state.view k) item = bus.state.view k)
    (k : String × String) : KeyEffect config bus k action result := by
  refine .quiet (by rw [hbus]) (fun _ => by rw [hbus]) (hsends ▸ silent_nil k) ?_
  intro peerInfo updates item haction hitem hpass
  have hsame := hidle peerInfo updates haction k hpass item hitem
  rw [RouteTable.entryAt, ← Rib.receiveItem_entry, hsame]

/-- What one queue slot does to one identity. -/
theorem dispatch_keyEffect (now : Int) (hinput : SlotInput config bus action) (k : String × String) :
    KeyEffect config bus k action (dispatch config bus now action) := by
  have hshape := dispatch_shape config bus now action
  generalize dispatch config bus now action = result at hshape ⊢
  cases hshape with
  | rejected error hreason =>
    refine keyEffect_of_unchanged ?_ ?_ (fun peerInfo updates haction k hpass item hitem => ?_) k
    · rfl
    · rfl
    subst haction
    obtain htoken | hnone := hreason
    · cases htoken
    · -- a policy that rejects everything lets no entry through
      have hreceived := itemAt_receivedUpdates config bus.state peerInfo updates k
      rw [if_pos hpass, hitem, receivedUpdates, hnone] at hreceived
      cases hreceived
  | idle filteredAction hfiltered hsame =>
    have hsends : updatesSent (tickKeepalives bus action bus.state) = [] := updatesSent_keepalives _ _ _
    refine keyEffect_of_unchanged ?_ ?_ (fun peerInfo updates haction k hpass item hitem => ?_) k
    · rfl
    · exact hsends
    subst haction
    obtain hpolicy | ⟨hpolicy, -⟩ := applyInboundPolicy_update config bus.state peerInfo updates
    · rw [hpolicy] at hfiltered
      obtain rfl := Option.some.inj hfiltered
      have hstate := plan_newState_of_sameReference hsame
      have hkeys := (hinput.filtered hpolicy).keys _ _ rfl
      have hat := Rib.planUpdateItems_at config.node.name peerInfo
        (receivedUpdates config bus.state peerInfo updates) k bus.state.internalRoutes hkeys
      have hview := Rib.plan_update_view config.node.name now peerInfo
        (receivedUpdates config bus.state peerInfo updates) bus.state k
      rw [hstate, hat.2, itemAt_receivedUpdates, if_pos hpass, hitem] at hview
      exact hview.symm
    · rw [hpolicy] at hfiltered
      cases hfiltered
  | committed filteredAction plan portAllocator hfiltered hchanged hports =>
    have hcommitted := committed_of_planPorts hfiltered hports
    cases hupdate : action.isUpdate with
    | true =>
      obtain ⟨peerInfo, updates, rfl⟩ : ∃ peerInfo updates, action = .internalProtocolUpdate peerInfo updates := by
        cases action with
        | internalProtocolUpdate peerInfo updates => exact ⟨peerInfo, updates, rfl⟩
        | _ => cases hupdate
      obtain hpolicy | ⟨hpolicy, -⟩ := applyInboundPolicy_update config bus.state peerInfo updates
      · rw [hpolicy] at hfiltered
        obtain rfl := Option.some.inj hfiltered
        refine hcommitted.keyEffect_update rfl hinput ?_ ?_ k
        · rfl
        · exact updatesSent_postCommit config _ _ plan
      · rw [hpolicy] at hfiltered
        cases hfiltered
    | false =>
      have hsame : filteredAction = action := by
        obtain hsame | ⟨_, _, _, hup, -, -⟩ := applyInboundPolicy_cases hfiltered
        · exact hsame
        · rw [hup] at hupdate
          cases hupdate
      subst hsame
      have hsends := updatesSent_postCommit config { bus with state := plan.newState, portAllocator }
        filteredAction plan
      by_cases hconnected : ∃ peerInfo, filteredAction = .internalProtocolConnected peerInfo
      · obtain ⟨peerInfo, hconnected⟩ := hconnected
        refine hcommitted.keyEffect_sync hconnected hinput ?_ ?_ k
        · rfl
        · exact hsends
      · have hdeltas : notified config filteredAction plan plan.newState = deltas config plan plan.newState := by
          cases filteredAction with
          | internalProtocolConnected peerInfo => exact absurd ⟨peerInfo, rfl⟩ hconnected
          | _ => rfl
        refine hcommitted.keyEffect_local hinput hupdate ?_ ?_ k
        · rfl
        · exact hsends.trans hdeltas

/-! ### What a slot keeps -/

/-- A dispatch leaves a table with distinct keys. -/
theorem dispatch_wellKeyed (config : BusConfig) {bus : Bus} (now : Int) (action : Action)
    (h : Rib.RouteTable.WellKeyed bus.state) :
    Rib.RouteTable.WellKeyed (dispatch config bus now action).bus.state := by
  have hshape := dispatch_shape config bus now action
  generalize dispatch config bus now action = result at hshape ⊢
  cases hshape with
  | rejected | idle => exact h
  | committed filteredAction plan portAllocator hfiltered hchanged hports =>
    have hportsOnly := portsOnly_of_planPorts hports
    exact wellKeyed_unstamped (Rib.plan_wellKeyed config.node.name now filteredAction h) hportsOnly.localRoutes
      hportsOnly.internalRoutes

/-- The items for a peer come in the order of the changes. -/
theorem buildUpdates_keys (config : BusConfig) (peer : PeerRecord) (plan : PlanResult) :
    ((buildUpdatesForPeer config peer plan).map (·.key)).Sublist
      (plan.routeChanges.map (·.keyAt config.node.name)) := by
  unfold buildUpdatesForPeer
  induction plan.routeChanges with
  | nil => exact List.Sublist.refl _
  | cons change rest ih =>
    cases hitem : changeItem config peer change with
    | none => simpa [hitem] using ih.cons _
    | some item => simpa [hitem, changeItem_key hitem] using ih

/-- A full sync has one entry for each identity, if those of local and internal
    routes are apart. -/
theorem syncUpdates_keys_nodup {config : BusConfig} {state : RouteTable} (peer : PeerRecord)
    (hkeyed : Rib.RouteTable.WellKeyed state)
    (hapart : ∀ l ∈ state.localRoutes, ∀ r ∈ state.internalRoutes, r.key ≠ (l.name, config.node.name)) :
    ((syncUpdates config peer state).map (·.key)).Nodup := by
  have hlocal : (state.localRoutes.map (localItem config .add)).map (·.key) =
      (state.localRoutes.map (·.name)).map fun name => (name, config.node.name) := by
    simp [localItem, UpdateItem.key, routeKey, toDataChannel, Function.comp_def]
  have hinternal : ((state.internalRoutes.filter (syncable config peer)).map (internalItem config .add)).map
      (·.key) = (state.internalRoutes.filter (syncable config peer)).map (·.key) := by
    simp [internalItem, UpdateItem.key, InternalRoute.key, routeKey, toDataChannel, Function.comp_def]
  unfold syncUpdates
  rw [List.map_append, hlocal, hinternal, List.nodup_append]
  refine ⟨?_, hkeyed.internalKeys.sublist (List.filter_sublist.map _), ?_⟩
  · exact hkeyed.localNames.map fun _ _ heq => congrArg Prod.fst heq
  · intro a ha b hb hab
    obtain ⟨name, hname, rfl⟩ := List.mem_map.mp ha
    obtain ⟨l, hl, rfl⟩ := List.mem_map.mp hname
    obtain ⟨r, hr, rfl⟩ := List.mem_map.mp hb
    exact hapart l hl r (List.mem_filter.mp hr).1 hab.symm

/-- A message of a slot notifies of a plan it committed. -/
theorem notified_of_mem_sends {message : PeerRecord × List UpdateItem}
    (hmem : message ∈ (dispatch config bus now action).sends) :
    ∃ filteredAction plan, Committed config bus now action filteredAction plan ∧
      (dispatch config bus now action).bus.state = plan.newState ∧ message ∈ notified config action plan plan.newState := by
  have hshape := dispatch_shape config bus now action
  generalize dispatch config bus now action = result at hshape hmem ⊢
  cases hshape with
  | rejected => cases hmem
  | idle => simp [DispatchResult.sends] at hmem
  | committed filteredAction plan portAllocator hfiltered hchanged hports =>
    rw [DispatchResult.sends, updatesSent_postCommit] at hmem
    exact ⟨filteredAction, plan, committed_of_planPorts hfiltered hports, rfl, hmem⟩

/-- A slot's messages go to connected peers, and each concerns pairwise distinct
    identities. -/
theorem dispatch_sends (now : Int) (hinput : SlotInput config bus action) :
    ∀ message ∈ (dispatch config bus now action).sends,
      message.1 ∈ connectedPeers (dispatch config bus now action).bus.state ∧
        (message.2.map (·.key)).Nodup := by
  have htable := dispatch_pathSound now hinput.incoming hinput.sound
  have hkeyed := dispatch_wellKeyed config now action hinput.keyed
  rintro ⟨peer, updates⟩ hmem
  obtain ⟨filteredAction, plan, hcommitted, hstate, hmem⟩ := notified_of_mem_sends hmem
  rw [hstate] at hkeyed ⊢
  have hdelta (h : (peer, updates) ∈ deltas config plan plan.newState) :
      peer ∈ connectedPeers plan.newState ∧ (updates.map (·.key)).Nodup := by
    obtain ⟨hpeer, rfl, -⟩ := mem_deltas.mp h
    exact ⟨hpeer, (hcommitted.changeKeys_nodup hinput).sublist (buildUpdates_keys config peer plan)⟩
  cases action with
  | internalProtocolConnected peerInfo =>
    simp only [notified] at hmem
    split at hmem
    · rename_i target htarget
      unfold message at hmem
      split at hmem
      · cases hmem
      · obtain ⟨rfl, rfl⟩ := Prod.mk.inj (List.mem_singleton.mp hmem)
        refine ⟨List.mem_of_find?_eq_some htarget, syncUpdates_keys_nodup peer hkeyed fun l _ r hr hkey => ?_⟩
        rw [hstate] at htable
        exact (htable.1 r hr).originNode_ne (congrArg Prod.snd hkey)
    · cases hmem
  | _ => exact hdelta hmem

end Bus

end CatalystRouter
