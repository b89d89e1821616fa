import CatalystRouter.Routing.Rib
import CatalystRouter.Routing.Views

namespace CatalystRouter.Rib

variable {f : String → String} {state : RouteTable}

/-- Renaming the tokens of the peers commutes with doing nothing. -/
@[simp] theorem noChange_mapTokens (state : RouteTable) :
    (noChange state).mapTokens f = noChange (state.mapTokens f) := rfl

/-- Peers are looked up by name, whatever their tokens are. -/
@[simp] theorem hasName_mapToken (name : String) (p : PeerRecord) : hasName name (p.mapToken f) = hasName name p := rfl

@[simp] theorem any_hasName_mapTokens (name : String) (state : RouteTable) :
    (state.mapTokens f).peers.any (hasName name) = state.peers.any (hasName name) := by
  simp [RouteTable.mapTokens, Function.comp_def]

@[simp] theorem find?_hasName_mapTokens (name : String) (state : RouteTable) :
    (state.mapTokens f).peers.find? (hasName name) = (state.peers.find? (hasName name)).map (·.mapToken f) := by
  simp [RouteTable.mapTokens, List.find?_map, Function.comp_def]

/-- An update of a peer that treats tokens alike commutes with a renaming of them. -/
theorem updatePeer_mapTokens (name : String) (change : PeerRecord → PeerRecord) {change' : PeerRecord → PeerRecord}
    (h : ∀ p, change' (p.mapToken f) = (change p).mapToken f) (state : RouteTable) :
    (state.mapTokens f).updatePeer name change' = (state.updatePeer name change).map (·.mapToken f) :=
  List.modifyFirst_map (fun _ => rfl) (fun p _ => h p) state.peers

/-- A test that does not read the token selects the same routes. -/
theorem filter_mapTokens {test : InternalRoute → Bool} (h : ∀ r, test (r.mapToken f) = test r)
    (routes : List InternalRoute) :
    (routes.map (·.mapToken f)).filter test = (routes.filter test).map (·.mapToken f) := by
  rw [List.filter_map]
  exact congrArg _ (List.filter_congr fun r _ => h r)

theorem releaseOps_mapTokens (routes : List InternalRoute) :
    releaseOps (routes.map (·.mapToken f)) = releaseOps routes := by
  simp [releaseOps, List.filterMap_map, InternalRoute.mapToken]

theorem removedChanges_mapTokens (routes : List InternalRoute) :
    removedChanges (routes.map (·.mapToken f)) = (removedChanges routes).map (·.mapToken f) := by
  simp [removedChanges, Function.comp_def, RouteChange.mapToken, ChangedRoute.mapToken]

/-- A plan that only rewrites one peer record. -/
theorem session_mapTokens (name : String) (change : PeerRecord → PeerRecord) {change' : PeerRecord → PeerRecord}
    (h : ∀ p, change' (p.mapToken f) = (change p).mapToken f) :
    ({ prevState := state.mapTokens f
       newState := { state.mapTokens f with peers := (state.mapTokens f).updatePeer name change' } } : PlanResult) =
      PlanResult.mapTokens f
        { prevState := state, newState := { state with peers := state.updatePeer name change } } := by
  rw [updatePeer_mapTokens name change h]
  rfl

/-- Creating a peer stores its token, and decides nothing by it. -/
theorem planLocalPeerCreate_mapTokens (data : PeerInfo) :
    planLocalPeerCreate (data.mapToken f) (state.mapTokens f) = (planLocalPeerCreate data state).mapTokens f := by
  unfold planLocalPeerCreate
  rw [PeerInfo.mapToken_name, any_hasName_mapTokens]
  split
  · rfl
  · simp [PlanResult.mapTokens, RouteTable.mapTokens, PeerRecord.mapToken, PeerInfo.mapToken]

/-- Merging a peer's data takes over its token, and decides nothing by it. -/
theorem mergePeerInfo_mapToken (existing : PeerRecord) (data : PeerUpdate) :
    mergePeerInfo (existing.mapToken f) (data.mapToken f) = (mergePeerInfo existing data).mapToken f := by
  have htoken : spreadField (data.mapToken f) .peerToken (data.mapToken f).peerToken (existing.mapToken f).peerToken =
      (spreadField data .peerToken data.peerToken existing.peerToken).map f := by
    unfold spreadField PeerUpdate.mapToken PeerRecord.mapToken
    cases hdata : data.peerToken with
    | some token => rfl
    | none =>
      by_cases hcleared : PeerField.peerToken ∈ data.cleared <;> simp [hcleared]
  unfold mergePeerInfo
  rw [htoken]
  rfl

/-- Updating a peer commutes with a renaming of the tokens. -/
theorem planLocalPeerUpdate_mapTokens (data : PeerUpdate) :
    planLocalPeerUpdate (data.mapToken f) (state.mapTokens f) = (planLocalPeerUpdate data state).mapTokens f := by
  unfold planLocalPeerUpdate
  rw [PeerUpdate.mapToken_name, find?_hasName_mapTokens]
  cases state.peers.find? (hasName data.name) with
  | none => rfl
  | some existing => exact session_mapTokens data.name _ fun _ => mergePeerInfo_mapToken existing data

/-- The plan of a peer deletion, a hard close or a Tick withdraws the same routes. -/
theorem withdrawn_mapTokens {gone kept : InternalRoute → Bool} (hgone : ∀ r, gone (r.mapToken f) = gone r)
    (hkept : ∀ r, kept (r.mapToken f) = kept r) (peers : List PeerRecord) :
    ({ prevState := state.mapTokens f
       newState := { state.mapTokens f with
         peers := peers.map (·.mapToken f)
         internalRoutes := (state.mapTokens f).internalRoutes.filter kept }
       portOps := releaseOps ((state.mapTokens f).internalRoutes.filter gone)
       routeChanges := removedChanges ((state.mapTokens f).internalRoutes.filter gone) } : PlanResult) =
      PlanResult.mapTokens f
        { prevState := state
          newState := { state with peers, internalRoutes := state.internalRoutes.filter kept }
          portOps := releaseOps (state.internalRoutes.filter gone)
          routeChanges := removedChanges (state.internalRoutes.filter gone) } := by
  have hfilter : ∀ {test : InternalRoute → Bool}, (∀ r, test (r.mapToken f) = test r) →
      (state.mapTokens f).internalRoutes.filter test = (state.internalRoutes.filter test).map (·.mapToken f) :=
    fun h => filter_mapTokens h state.internalRoutes
  rw [hfilter hgone, hfilter hkept, releaseOps_mapTokens, removedChanges_mapTokens]
  rfl

theorem planLocalPeerDelete_mapTokens (name : String) :
    planLocalPeerDelete name (state.mapTokens f) = (planLocalPeerDelete name state).mapTokens f := by
  have hpeers : (state.mapTokens f).peers.filter (fun p => p.name != name) =
      (state.peers.filter fun p => p.name != name).map (·.mapToken f) := by
    simp [RouteTable.mapTokens, List.filter_map, Function.comp_def]
  unfold planLocalPeerDelete
  simp only [hpeers, List.length_map, show (state.mapTokens f).peers.length = state.peers.length from List.length_map _]
  split
  · rfl
  · exact withdrawn_mapTokens (fun _ => rfl) (fun _ => rfl) _

theorem planLocalRouteCreate_mapTokens (data : DataChannelDefinition) :
    planLocalRouteCreate data (state.mapTokens f) = (planLocalRouteCreate data state).mapTokens f := by
  unfold planLocalRouteCreate
  split <;> rename_i hknown
  · rw [if_pos (show state.localRoutes.any _ = true from hknown)]
    rfl
  · rw [if_neg (show ¬ state.localRoutes.any _ = true from hknown)]
    rfl

theorem planLocalRouteDelete_mapTokens (name : String) :
    planLocalRouteDelete name (state.mapTokens f) = (planLocalRouteDelete name state).mapTokens f := by
  unfold planLocalRouteDelete
  rw [show (state.mapTokens f).localRoutes = state.localRoutes from rfl]
  cases state.localRoutes.find? (fun r => r.name == name) <;> rfl

theorem planLocalRouteHealthUpdate_mapTokens (data : RouteHealth) :
    planLocalRouteHealthUpdate data (state.mapTokens f) = (planLocalRouteHealthUpdate data state).mapTokens f := by
  unfold planLocalRouteHealthUpdate
  rw [show (state.mapTokens f).localRoutes = state.localRoutes from rfl]
  cases state.localRoutes.find? (fun r => r.name == data.name) with
  | none => rfl
  | some existing =>
    dsimp only
    split <;> rfl

theorem planInternalProtocolOpen_mapTokens (now : Int) (peerInfo : PeerInfo) (holdTime : Option Int) :
    planInternalProtocolOpen now (peerInfo.mapToken f) holdTime (state.mapTokens f) =
      (planInternalProtocolOpen now peerInfo holdTime state).mapTokens f := by
  unfold planInternalProtocolOpen
  rw [PeerInfo.mapToken_name, find?_hasName_mapTokens]
  cases state.peers.find? (hasName peerInfo.name) with
  | none => rfl
  | some existing => exact session_mapTokens peerInfo.name _ fun _ => rfl

theorem planInternalProtocolConnected_mapTokens (now : Int) (peerInfo : PeerInfo) :
    planInternalProtocolConnected now (peerInfo.mapToken f) (state.mapTokens f) =
      (planInternalProtocolConnected now peerInfo state).mapTokens f := by
  unfold planInternalProtocolConnected
  rw [PeerInfo.mapToken_name, find?_hasName_mapTokens]
  cases state.peers.find? (hasName peerInfo.name) with
  | none => rfl
  | some existing => exact session_mapTokens peerInfo.name _ fun _ => rfl

theorem planInternalProtocolKeepalive_mapTokens (now : Int) (peerInfo : PeerInfo) :
    planInternalProtocolKeepalive now (peerInfo.mapToken f) (state.mapTokens f) =
      (planInternalProtocolKeepalive now peerInfo state).mapTokens f := by
  unfold planInternalProtocolKeepalive
  rw [PeerInfo.mapToken_name, any_hasName_mapTokens]
  split
  · exact session_mapTokens peerInfo.name _ fun _ => rfl
  · rfl

theorem markStale_mapToken (name : String) (r : InternalRoute) :
    markStale name (r.mapToken f) = (markStale name r).mapToken f := by
  unfold markStale
  rw [show (r.mapToken f).peer.name = r.peer.name from rfl]
  split <;> rfl

theorem planInternalProtocolClose_mapTokens (peerInfo : PeerInfo) (code : Int) :
    planInternalProtocolClose (peerInfo.mapToken f) code (state.mapTokens f) =
      (planInternalProtocolClose peerInfo code state).mapTokens f := by
  unfold planInternalProtocolClose
  have hpeers : (state.mapTokens f).updatePeer peerInfo.name (fun p => { p with connectionStatus := .closed }) =
      (state.updatePeer peerInfo.name fun p => { p with connectionStatus := .closed }).map (·.mapToken f) :=
    updatePeer_mapTokens peerInfo.name (fun p => { p with connectionStatus := .closed }) (fun _ => rfl) state
  rw [PeerInfo.mapToken_name, any_hasName_mapTokens]
  split
  · dsimp only
    rw [hpeers]
    split
    · have hroutes : (state.mapTokens f).internalRoutes.filter (fun r => r.peer.name == peerInfo.name) =
          (state.internalRoutes.filter fun r => r.peer.name == peerInfo.name).map (·.mapToken f) :=
        filter_mapTokens (fun _ => rfl) state.internalRoutes
      have hstale : (state.mapTokens f).internalRoutes.map (markStale peerInfo.name) =
          (state.internalRoutes.map (markStale peerInfo.name)).map (·.mapToken f) := by
        simp [RouteTable.mapTokens, markStale_mapToken]
      rw [hroutes, hstale]
      simp [PlanResult.mapTokens, RouteTable.mapTokens, RouteChange.mapToken, ChangedRoute.mapToken,
        InternalRoute.mapToken]
    · exact withdrawn_mapTokens (fun _ => rfl) (fun _ => rfl) _
  · rfl

/-! ### The update handler and the Tick -/

/-- The running plan of the update loop, with its tokens changed. -/
def UpdatePlan.mapTokens (f : String → String) (plan : UpdatePlan) : UpdatePlan :=
  { plan with
    routes := plan.routes.map (·.mapToken f)
    routeChanges := plan.routeChanges.map (·.mapToken f) }

theorem find?_sameKey_mapTokens (item : UpdateItem) (routes : List InternalRoute) :
    (routes.map (·.mapToken f)).find? (sameKey item) = (routes.find? (sameKey item)).map (·.mapToken f) := by
  rw [List.find?_map]
  rfl

/-- One item of an update is planned alike whatever the tokens are. -/
theorem planUpdateItem_mapTokens (nodeId : String) (peerInfo : PeerInfo) (routes : List InternalRoute)
    (item : UpdateItem) :
    planUpdateItem nodeId (peerInfo.mapToken f) (routes.map (·.mapToken f)) item =
      (planUpdateItem nodeId peerInfo routes item).mapTokens f := by
  unfold planUpdateItem
  rw [find?_sameKey_mapTokens]
  cases item.action with
  | add =>
    dsimp only
    split
    · rfl
    · cases routes.find? (sameKey item) with
      | none =>
        simp [UpdatePlan.mapTokens, RouteChange.mapToken, ChangedRoute.mapToken, itemRoute, InternalRoute.mapToken]
      | some existing =>
        simp only [Option.map_some]
        rw [show (existing.mapToken f).nodePath = existing.nodePath from rfl,
          show (existing.mapToken f).isStale = existing.isStale from rfl]
        split
        · have hreplaced : (routes.map (·.mapToken f)).modifyFirst (sameKey item)
              (fun _ => itemRoute (peerInfo.mapToken f) item) =
                (routes.modifyFirst (sameKey item) fun _ => itemRoute peerInfo item).map (·.mapToken f) := by
            apply List.modifyFirst_map
            · exact fun _ => rfl
            · exact fun _ _ => rfl
          rw [hreplaced]
          rfl
        · rfl
  | remove =>
    cases routes.find? (sameKey item) with
    | none => rfl
    | some removed =>
      simp only [Option.map_some]
      rw [filter_mapTokens (fun _ => rfl)]
      rfl

theorem planUpdateItems_mapTokens (nodeId : String) (peerInfo : PeerInfo) (updates : List UpdateItem) :
    ∀ routes : List InternalRoute, planUpdateItems nodeId (peerInfo.mapToken f) (routes.map (·.mapToken f)) updates =
      (planUpdateItems nodeId peerInfo routes updates).mapTokens f := by
  induction updates with
  | nil => exact fun _ => rfl
  | cons item rest ih =>
    intro routes
    simp only [planUpdateItems, planUpdateItem_mapTokens]
    rw [show ((planUpdateItem nodeId peerInfo routes item).mapTokens f).routes =
      (planUpdateItem nodeId peerInfo routes item).routes.map (·.mapToken f) from rfl, ih]
    simp [UpdatePlan.mapTokens]

/-- What is learned from an update does not depend on tokens. -/
theorem planInternalProtocolUpdate_mapTokens (nodeId : String) (now : Int) (peerInfo : PeerInfo)
    (updates : List UpdateItem) :
    planInternalProtocolUpdate nodeId now (peerInfo.mapToken f) updates (state.mapTokens f) =
      (planInternalProtocolUpdate nodeId now peerInfo updates state).mapTokens f := by
  unfold planInternalProtocolUpdate
  have hplan : planUpdateItems nodeId (peerInfo.mapToken f) (state.mapTokens f).internalRoutes updates =
      (planUpdateItems nodeId peerInfo state.internalRoutes updates).mapTokens f :=
    planUpdateItems_mapTokens nodeId peerInfo updates state.internalRoutes
  have hpeers : (state.mapTokens f).updatePeer peerInfo.name (fun p => { p with lastReceived := now }) =
      (state.updatePeer peerInfo.name fun p => { p with lastReceived := now }).map (·.mapToken f) :=
    updatePeer_mapTokens peerInfo.name (fun p => { p with lastReceived := now }) (fun _ => rfl) state
  have hquiet : ((planUpdateItems nodeId peerInfo state.internalRoutes updates).mapTokens f).routeChanges = [] ↔
      (planUpdateItems nodeId peerInfo state.internalRoutes updates).routeChanges = [] := List.map_eq_nil_iff
  simp only [PeerInfo.mapToken_name, any_hasName_mapTokens, hplan, hpeers, hquiet]
  split <;> rfl

theorem expired_mapToken (now : Int) (p : PeerRecord) : expired now (p.mapToken f) = expired now p := rfl

theorem expirePeer_mapToken (now : Int) (p : PeerRecord) :
    expirePeer now (p.mapToken f) = (expirePeer now p).mapToken f := by
  unfold expirePeer
  rw [expired_mapToken]
  split <;> rfl

theorem expirePeers_mapTokens (now : Int) (state : RouteTable) :
    (state.mapTokens f).peers.map (expirePeer now) = (state.peers.map (expirePeer now)).map (·.mapToken f) := by
  simp [RouteTable.mapTokens, expirePeer_mapToken]

theorem hasStaleRoutes_mapTokens (state : RouteTable) (name : String) :
    hasStaleRoutes (state.mapTokens f).internalRoutes name = hasStaleRoutes state.internalRoutes name := by
  unfold hasStaleRoutes RouteTable.mapTokens
  rw [List.any_map]
  rfl

/-- The test of `expired` and that of a stale purge do not read the tokens. -/
theorem purgedPeerNames_mapTokens (now : Int) (state : RouteTable) :
    purgedPeerNames now (state.mapTokens f) = purgedPeerNames now state := by
  have hexpired : ((state.mapTokens f).peers.filter (expired now)).map (·.name) =
      (state.peers.filter (expired now)).map (·.name) := by
    rw [RouteTable.mapTokens, List.filter_map, List.map_map]
    rfl
  simp only [purgedPeerNames, expirePeers_mapTokens, hasStaleRoutes_mapTokens, hexpired]
  rw [List.filter_map, List.map_map]
  rfl

/-- Expiry does not depend on tokens. -/
theorem planTick_mapTokens (now : Int) : planTick now (state.mapTokens f) = (planTick now state).mapTokens f := by
  unfold planTick
  simp only [purgedPeerNames_mapTokens, expirePeers_mapTokens]
  split
  · rfl
  · exact withdrawn_mapTokens (fun _ => rfl) (fun _ => rfl) _

/-- Changing the tokens of the payload and of the state changes those of the plan, and
    nothing else. -/
theorem plan_mapTokens (nodeId : String) (now : Int) (action : Action) (state : RouteTable) :
    plan nodeId now (action.mapToken f) (state.mapTokens f) = (plan nodeId now action state).mapTokens f := by
  cases action with
  | localPeerCreate data => exact planLocalPeerCreate_mapTokens data
  | localPeerUpdate data => exact planLocalPeerUpdate_mapTokens data
  | localPeerDelete name => exact planLocalPeerDelete_mapTokens name
  | localRouteCreate data => exact planLocalRouteCreate_mapTokens data
  | localRouteDelete name => exact planLocalRouteDelete_mapTokens name
  | localRouteHealthUpdate data => exact planLocalRouteHealthUpdate_mapTokens data
  | internalProtocolOpen peerInfo holdTime => exact planInternalProtocolOpen_mapTokens now peerInfo holdTime
  | internalProtocolConnected peerInfo => exact planInternalProtocolConnected_mapTokens now peerInfo
  | internalProtocolClose peerInfo code => exact planInternalProtocolClose_mapTokens peerInfo code
  | internalProtocolUpdate peerInfo updates => exact planInternalProtocolUpdate_mapTokens nodeId now peerInfo updates
  | internalProtocolKeepalive peerInfo => exact planInternalProtocolKeepalive_mapTokens now peerInfo
  | tick tickNow => exact planTick_mapTokens tickNow

end CatalystRouter.Rib
