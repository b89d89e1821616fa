import CatalystRouter.Library.ListPatch
import CatalystRouter.Routing.Plan

namespace CatalystRouter

open ListPatch

/-- An added route is appended, an updated one put in the place of that of its
    identity, a removed one dropped. -/
def RouteChangeType.edit {α : Type} (type : RouteChangeType) (route : α) : Edit α :=
  match type with
  | .added => .append route
  | .updated => .put route
  | .removed => .drop route

/-- What a change list says of the local routes. -/
def localEdits (changes : List RouteChange) : List (Edit DataChannelDefinition) :=
  changes.filterMap fun change => match change.route with
    | .channel route => some (change.type.edit route)
    | .internal _ => none

/-- What a change list says of the internal routes. -/
def internalEdits (changes : List RouteChange) : List (Edit InternalRoute) :=
  changes.filterMap fun change => match change.route with
    | .channel _ => none
    | .internal route => some (change.type.edit route)

def ChangedRoute.definition : ChangedRoute → DataChannelDefinition
  | .channel route => route
  | .internal route => route.toDataChannelDefinition

/-- The release operations of the removed routes that carry an `envoyPort`. -/
def removedReleases (changes : List RouteChange) : List PortOperation :=
  changes.filterMap fun change => match change.type with
    | .removed => change.route.definition.envoyPort.map fun port => .release (routeKey change.route.definition) port
    | _ => none

/-- The change list of a plan is the exact difference of its two tables, order
    included, and its releases are those of the removed routes. -/
structure PlanResult.ExactDiff (plan : PlanResult) : Prop where
  localRoutes : patch (·.name) plan.prevState.localRoutes (localEdits plan.routeChanges) = plan.newState.localRoutes
  internalRoutes : patch InternalRoute.key plan.prevState.internalRoutes (internalEdits plan.routeChanges) =
    plan.newState.internalRoutes
  releases : plan.portOps = removedReleases plan.routeChanges

namespace Rib

theorem localEdits_append (first second : List RouteChange) :
    localEdits (first ++ second) = localEdits first ++ localEdits second := List.filterMap_append

theorem internalEdits_append (first second : List RouteChange) :
    internalEdits (first ++ second) = internalEdits first ++ internalEdits second := List.filterMap_append

theorem removedReleases_append (first second : List RouteChange) :
    removedReleases (first ++ second) = removedReleases first ++ removedReleases second := List.filterMap_append

@[simp] theorem internalEdits_internal (type : RouteChangeType) (routes : List InternalRoute) :
    internalEdits (routes.map fun r => ⟨type, .internal r⟩) = routes.map type.edit := by
  simp [internalEdits, List.filterMap_map]

@[simp] theorem localEdits_internal (type : RouteChangeType) (routes : List InternalRoute) :
    localEdits (routes.map fun r => ⟨type, .internal r⟩) = [] := by
  simp [localEdits, List.filterMap_map]

theorem removedReleases_removedChanges (routes : List InternalRoute) :
    removedReleases (removedChanges routes) = releaseOps routes := by
  simp [removedReleases, removedChanges, releaseOps, List.filterMap_map, ChangedRoute.definition]

/-- What one entry of a message changes is what its changes say. -/
theorem planUpdateItem_edits (nodeId : String) (peerInfo : PeerInfo) {routes : List InternalRoute} (item : UpdateItem)
    (hnodup : (routes.map (·.key)).Nodup) :
    patch InternalRoute.key routes (internalEdits (planUpdateItem nodeId peerInfo routes item).routeChanges) =
        (planUpdateItem nodeId peerInfo routes item).routes ∧
      localEdits (planUpdateItem nodeId peerInfo routes item).routeChanges = [] ∧
      (planUpdateItem nodeId peerInfo routes item).portOps =
        removedReleases (planUpdateItem nodeId peerInfo routes item).routeChanges := by
  have hstep := planUpdateItem_step nodeId peerInfo routes item
  generalize planUpdateItem nodeId peerInfo routes item = turn at hstep ⊢
  cases hstep with
  | looped | kept | absent => exact ⟨rfl, rfl, rfl⟩
  | replaced existing hadd hloop hfound =>
    have hput : routes.modifyFirst (sameKey item) (fun _ => itemRoute peerInfo item) = _ :=
      modifyFirst_eq_put hnodup fun old => beq_iff_eq
    exact ⟨hput.symm, rfl, rfl⟩
  | installed => exact ⟨rfl, rfl, rfl⟩
  | withdrawn removed hremove hfound =>
    have hkey : removed.key = item.key := installedAt_key hfound
    refine ⟨List.filter_congr fun r _ => ?_, rfl, ?_⟩
    · simp [sameKey, hkey, beq_eq_decide]
    · have hname : routeKey removed.toDataChannelDefinition = routeKey item.route := congrArg Prod.fst hkey
      cases hport : removed.envoyPort with
      | none => simp [removedReleases, ChangedRoute.definition, hport]
      | some port => simp [removedReleases, ChangedRoute.definition, hport, hname]

theorem planUpdateItems_edits (nodeId : String) (peerInfo : PeerInfo) (updates : List UpdateItem) :
    ∀ {routes : List InternalRoute}, (routes.map (·.key)).Nodup →
      patch InternalRoute.key routes (internalEdits (planUpdateItems nodeId peerInfo routes updates).routeChanges) =
          (planUpdateItems nodeId peerInfo routes updates).routes ∧
        localEdits (planUpdateItems nodeId peerInfo routes updates).routeChanges = [] ∧
        (planUpdateItems nodeId peerInfo routes updates).portOps =
          removedReleases (planUpdateItems nodeId peerInfo routes updates).routeChanges := by
  induction updates with
  | nil => exact fun _ => ⟨rfl, rfl, rfl⟩
  | cons item rest ih =>
    intro routes hnodup
    obtain ⟨hroutes, hlocal, hports⟩ := planUpdateItem_edits nodeId peerInfo item hnodup
    obtain ⟨hroutes', hlocal', hports'⟩ := ih (planUpdateItem_keys_nodup item hnodup)
    refine ⟨?_, ?_, ?_⟩
    · simp only [planUpdateItems]
      rw [internalEdits_append, patch_append, hroutes, hroutes']
    · simp only [planUpdateItems]
      rw [localEdits_append, hlocal, hlocal', List.append_nil]
    · simp only [planUpdateItems]
      rw [removedReleases_append, hports, hports']

/-- Whatever the action, the changes that `plan` reports, applied to the table that it was
    given, make the new table, with local and internal routes in order, and its port operations
    release exactly the ports of what the changes remove. -/
theorem plan_exactDiff (nodeId : String) (now : Int) (action : Action) {state : RouteTable}
    (h : RouteTable.WellKeyed state) :
    (plan nodeId now action state).prevState = state ∧ (plan nodeId now action state).ExactDiff := by
  have hshape := plan_shape nodeId now action state
  generalize plan nodeId now action state = result at hshape ⊢
  cases hshape with
  | unchanged | session | created => exact ⟨rfl, rfl, rfl, rfl⟩
  | deleted route ops hfound hops =>
    refine ⟨rfl, List.filter_congr fun r _ => ?_, rfl, ?_⟩
    · simp [bne, beq_eq_decide]
    · rw [hops]
      cases hport : route.envoyPort <;> simp [removedReleases, ChangedRoute.definition, hport]
  | health data existing updated hfound hupdated =>
    have hname : updated.name = data.name := by
      rw [hupdated]
      simpa using List.find?_some hfound
    exact ⟨rfl, (modifyFirst_eq_put h.localNames fun old => by simp [hname]).symm, rfl, rfl⟩
  | withdraw action peers =>
    refine ⟨rfl, ?_, ?_, (removedReleases_removedChanges _).symm⟩
    · simp only [withdrawPlan, removedChanges, localEdits_internal, patch_nil]
    · simp only [withdrawPlan, removedChanges, internalEdits_internal]
      exact patch_drops_filter h.internalKeys
  | stale peerInfo peers =>
    have hmarks : ((state.internalRoutes.filter fun r => r.peer.name == peerInfo.name).map fun r =>
          (⟨.updated, .internal { r with isStale := true }⟩ : RouteChange)) =
        ((state.internalRoutes.filter fun r => r.peer.name == peerInfo.name).map fun r =>
          { r with isStale := true }).map fun r => ⟨.updated, .internal r⟩ := by
      rw [List.map_map]
      rfl
    refine ⟨rfl, ?_, ?_, ?_⟩
    · dsimp only
      rw [hmarks, localEdits_internal, patch_nil]
    · dsimp only
      rw [hmarks, internalEdits_internal]
      exact patch_puts_filter h.internalKeys fun _ => rfl
    · simp [removedReleases]
  | update peerInfo updates peers =>
    obtain ⟨hroutes, hlocal, hports⟩ := planUpdateItems_edits nodeId peerInfo updates h.internalKeys
    refine ⟨rfl, ?_, hroutes, hports⟩
    dsimp only
    rw [hlocal, patch_nil]

/-- `books` of `node-b` is listed, with a port. -/
def listedBooks : RouteTable :=
  { localRoutes := []
    peers := []
    internalRoutes :=
      [{ name := "books", protocol := .http, envoyPort := some 10001, peer := { name := "node-b" },
         nodePath := ["node-b"], originNode := "node-b" }] }

/-- The batch withdraws `books`, offers it again by a long path, and then by a shorter one. -/
def returnedBooks : List UpdateItem :=
  [{ action := .remove, route := { name := "books", protocol := .http }, nodePath := ["node-b"], originNode := "node-b" },
    { action := .add, route := { name := "books", protocol := .http }, nodePath := ["node-b", "node-c"], originNode := "node-b" },
    { action := .add, route := { name := "books", protocol := .tcp }, nodePath := ["node-b"], originNode := "node-b" }]

theorem plan_exactDiff_books :
    (plan "node-a" 1 (.internalProtocolUpdate { name := "node-b" } returnedBooks) listedBooks).portOps =
        [.release "books" 10001] ∧
      (plan "node-a" 1 (.internalProtocolUpdate { name := "node-b" } returnedBooks) listedBooks).ExactDiff :=
  ⟨by decide, (plan_exactDiff "node-a" 1 _ ⟨by decide, by decide⟩).2⟩

end Rib

end CatalystRouter
