import CatalystRouter.Orchestrator.Notify

namespace CatalystRouter

/-- The path attributes of a route installed at `node`. -/
structure PathSound (node : String) (r : InternalRoute) : Prop where
  nodup : r.nodePath.Nodup
  loopFree : node ∉ r.nodePath
  firstHop : r.nodePath.head? = some r.peer.name
  lastHop : r.nodePath.getLast? = some r.originNode

/-- The path attributes of an entry advertised by `sender`. -/
structure EntrySound (sender : String) (item : UpdateItem) : Prop where
  nodup : item.nodePath.Nodup
  firstHop : item.nodePath.head? = some sender
  lastHop : item.nodePath.getLast? = some item.originNode

namespace PathSound

variable {node : String} {r : InternalRoute} (h : PathSound node r)

include h in
theorem nonempty : r.nodePath ≠ [] := by
  intro hnil
  have hhead := h.firstHop
  simp [hnil] at hhead

include h in
theorem originNode_ne : r.originNode ≠ node := by
  have hmem : r.originNode ∈ r.nodePath := List.mem_of_getLast? h.lastHop
  rintro rfl
  exact h.loopFree hmem

end PathSound

theorem pathSound_of_unstamped {node : String} {r r' : InternalRoute} (heq : r'.unstamped = r.unstamped)
    (h : PathSound node r) : PathSound node r' := by
  have hpath := InternalRoute.nodePath_eq_of_unstamped heq
  constructor
  · rw [hpath]; exact h.nodup
  · rw [hpath]; exact h.loopFree
  · rw [hpath, InternalRoute.peer_eq_of_unstamped heq]; exact h.firstHop
  · rw [hpath, InternalRoute.originNode_eq_of_unstamped heq]; exact h.lastHop

/-- A sound entry from the peer it claims becomes a sound route. -/
theorem itemRoute_pathSound {node : String} {peerInfo : PeerInfo} {item : UpdateItem}
    (hsound : EntrySound peerInfo.name item) (hloop : node ∉ item.nodePath) :
    PathSound node (Rib.itemRoute peerInfo item) :=
  ⟨hsound.nodup, hloop, hsound.firstHop, hsound.lastHop⟩

namespace Bus

theorem localItem_entrySound (config : BusConfig) (action : UpdateAction) (route : DataChannelDefinition) :
    EntrySound config.node.name (localItem config action route) :=
  ⟨by simp [localItem], rfl, rfl⟩

/-- Prepending this node to a sound path keeps it sound for the next hop. -/
theorem internalItem_entrySound {config : BusConfig} {r : InternalRoute} (h : PathSound config.node.name r)
    (action : UpdateAction) : EntrySound config.node.name (internalItem config action r) := by
  refine ⟨List.nodup_cons.mpr ⟨h.loopFree, h.nodup⟩, rfl, ?_⟩
  have hlast := h.lastHop
  obtain ⟨hop, rest, hpath⟩ := List.exists_cons_of_ne_nil h.nonempty
  rw [hpath] at hlast
  simpa [internalItem, hpath] using hlast

/-- The incoming part of an action: the entries it carries, and from whom. -/
def IncomingSound (action : Action) : Prop :=
  ∀ peerInfo updates, action = .internalProtocolUpdate peerInfo updates →
    ∀ item ∈ updates, EntrySound peerInfo.name item

theorem applyInboundPolicy_incomingSound {config : BusConfig} {state : RouteTable}
    {action filteredAction : Action} (hin : IncomingSound action)
    (hfiltered : applyInboundPolicy config state action = some filteredAction) :
    IncomingSound filteredAction := by
  obtain rfl | ⟨peerInfo, updates, filteredUpdates, rfl, rfl, hsub⟩ := applyInboundPolicy_cases hfiltered
  · exact hin
  · intro peerInfo' updates' heq item hmem
    cases heq
    exact hin peerInfo updates rfl item (hsub.subset hmem)

theorem plan_pathSound {nodeId : String} {now : Int} {action : Action} {state : RouteTable}
    (hin : IncomingSound action) (hstate : ∀ r ∈ state.internalRoutes, PathSound nodeId r) {r : InternalRoute}
    (hr : r ∈ (Rib.plan nodeId now action state).newState.internalRoutes ∨
      ∃ type, ⟨type, .internal r⟩ ∈ (Rib.plan nodeId now action state).routeChanges) :
    PathSound nodeId r := by
  cases Rib.plan_provenance nodeId now action state hr with
  | kept hmem => exact hstate r hmem
  | marked _ old _ hmem hmarked =>
    have hold := hstate old hmem
    subst hmarked
    exact ⟨hold.nodup, hold.loopFree, hold.firstHop, hold.lastHop⟩
  | accepted peerInfo updates item haction hmem hadd hloop hroute =>
    subst hroute
    exact itemRoute_pathSound (hin peerInfo updates haction item hmem) hloop

/-- Port planning keeps path attributes, in the table and in the change list. -/
theorem planPorts_pathSound {nodeId : String} {portAllocator : Option PortAllocator} {ribPlan : PlanResult}
    (hplan : ∀ r, (r ∈ ribPlan.newState.internalRoutes ∨
      ∃ type, ⟨type, .internal r⟩ ∈ ribPlan.routeChanges) → PathSound nodeId r) {r : InternalRoute}
    (hr : r ∈ (planPorts portAllocator ribPlan).1.newState.internalRoutes ∨
      ∃ type, ⟨type, .internal r⟩ ∈ (planPorts portAllocator ribPlan).1.routeChanges) :
    PathSound nodeId r := by
  have hports := planPorts_portsOnly portAllocator ribPlan
  obtain hr | ⟨type, hr⟩ := hr
  · obtain ⟨old, hold, heq⟩ := hports.exists_planned hr
    exact pathSound_of_unstamped heq.symm (hplan old (.inl hold))
  · have hmem : RouteChange.unstamped ⟨type, .internal r⟩ ∈ ribPlan.routeChanges.map RouteChange.unstamped := by
      rw [← hports.routeChanges]
      exact List.mem_map_of_mem hr
    obtain ⟨⟨type', route⟩, hold, heq⟩ := List.mem_map.mp hmem
    cases route with
    | channel route => simp [RouteChange.unstamped, ChangedRoute.unstamped] at heq
    | internal old =>
      simp only [RouteChange.unstamped, ChangedRoute.unstamped, RouteChange.mk.injEq,
        ChangedRoute.internal.injEq] at heq
      exact pathSound_of_unstamped heq.2.symm (hplan old (.inr ⟨type', hold⟩))

/-- What a queue slot fed with sound entries leaves behind: sound routes in the
    table and sound entries on the wire. -/
theorem dispatch_pathSound {config : BusConfig} {bus : Bus} (now : Int) {action : Action}
    (hin : IncomingSound action) (hstate : ∀ r ∈ bus.state.internalRoutes, PathSound config.node.name r) :
    (∀ r ∈ (dispatch config bus now action).bus.state.internalRoutes, PathSound config.node.name r) ∧
      ∀ message ∈ (dispatch config bus now action).sends, ∀ item ∈ message.2,
        EntrySound config.node.name item := by
  have hshape := dispatch_shape config bus now action
  generalize dispatch config bus now action = result at hshape ⊢
  cases hshape with
  | rejected error => exact ⟨hstate, fun message hmem => by cases hmem⟩
  | idle filteredAction hfiltered hsame =>
    refine ⟨hstate, fun message hmem => ?_⟩
    simp [DispatchResult.sends] at hmem
  | committed filteredAction plan portAllocator hfiltered hchanged hports =>
    have hsound (r : InternalRoute) (hr : r ∈ plan.newState.internalRoutes ∨
        ∃ type, ⟨type, .internal r⟩ ∈ plan.routeChanges) : PathSound config.node.name r := by
      have hplan : plan = (planPorts bus.portAllocator
          (Rib.plan config.node.name now filteredAction bus.state)).1 := by rw [hports]
      subst hplan
      exact planPorts_pathSound (fun r' hr' => plan_pathSound
        (applyInboundPolicy_incomingSound hin hfiltered) hstate hr') hr
    refine ⟨fun r hr => hsound r (.inl hr), ?_⟩
    rintro ⟨peer, updates⟩ hmem item hitem
    rw [DispatchResult.sends, updatesSent_postCommit] at hmem
    cases notified_source hmem hitem with
    | localRoute action route heq => exact heq ▸ localItem_entrySound config action route
    | internalRoute action route heq hroute =>
      exact heq ▸ internalItem_entrySound (hsound route hroute) action

end Bus

end CatalystRouter
