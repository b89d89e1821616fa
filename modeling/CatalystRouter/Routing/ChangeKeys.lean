import CatalystRouter.Routing.Plan

namespace CatalystRouter

/-- The identity under which others hear of a change made at `nodeId`. -/
def RouteChange.keyAt (nodeId : String) (change : RouteChange) : String × String :=
  match change.route with
  | .channel route => (route.name, nodeId)
  | .internal route => route.key

def RouteTable.hasLocal (state : RouteTable) (name : String) : Bool :=
  state.localRoutes.any fun r => r.name == name

/-- The change an identity undergoes. -/
def changeAt (nodeId : String) (k : String × String) (changes : List RouteChange) : Option RouteChange :=
  changes.find? fun change => change.keyAt nodeId == k

theorem changeAt_key {nodeId : String} {k : String × String} {changes : List RouteChange} {change : RouteChange}
    (h : changeAt nodeId k changes = some change) : change.keyAt nodeId = k := by
  have hkey := List.find?_some h
  simpa using hkey

theorem mem_of_changeAt {nodeId : String} {k : String × String} {changes : List RouteChange}
    {change : RouteChange} (h : changeAt nodeId k changes = some change) : change ∈ changes :=
  List.mem_of_find?_eq_some h

theorem changeAt_eq_none_iff {nodeId : String} {k : String × String} {changes : List RouteChange} :
    changeAt nodeId k changes = none ↔ ∀ change ∈ changes, change.keyAt nodeId ≠ k := by
  simp [changeAt]

/-- Without a change under its identity a route stays as it is. -/
theorem applyChanges_of_none {nodeId : String} {k : String × String} (changes : List RouteChange) :
    ∀ installed, changeAt nodeId k changes = none → applyChanges k installed changes = installed := by
  induction changes with
  | nil => exact fun installed _ => rfl
  | cons change rest ih =>
    intro installed hnone
    rw [changeAt_eq_none_iff] at hnone
    have hrest := ih (change.applyTo k installed)
      (changeAt_eq_none_iff.mpr fun other hother => hnone other (List.mem_cons_of_mem change hother))
    rw [applyChanges_cons, hrest]
    obtain ⟨type, route⟩ := change
    cases route with
    | channel route => rfl
    | internal r => exact RouteChange.applyTo_of_ne (hnone _ List.mem_cons_self) type installed

/-- With pairwise distinct identities, the one change under an identity is what
    the whole list does to it. -/
theorem applyChanges_of_some {nodeId : String} {k : String × String} {change : RouteChange}
    (changes : List RouteChange) :
    ∀ installed, (changes.map (·.keyAt nodeId)).Nodup → changeAt nodeId k changes = some change →
      applyChanges k installed changes = change.applyTo k installed := by
  induction changes with
  | nil => exact fun installed _ hsome => by cases hsome
  | cons first rest ih =>
    intro installed hnodup hsome
    obtain ⟨hfresh, hnodup⟩ := List.nodup_cons.mp hnodup
    rw [applyChanges_cons]
    by_cases hk : first.keyAt nodeId = k
    · have hfirst : first = change := by simpa [changeAt, hk] using hsome
      subst hfirst
      have hnone : changeAt nodeId k rest = none := changeAt_eq_none_iff.mpr fun other hother heq =>
        hfresh (List.mem_map.mpr ⟨other, hother, heq.trans hk.symm⟩)
      exact applyChanges_of_none rest _ hnone
    · have hrest : changeAt nodeId k rest = some change := by simpa [changeAt, hk] using hsome
      have hskip : first.applyTo k installed = installed := by
        have hnone : changeAt nodeId k [first] = none := by simp [changeAt, hk]
        simpa using applyChanges_of_none [first] installed hnone
      rw [hskip]
      exact ih installed hnodup hrest

namespace Rib

/-- The change one entry makes to its identity, given what is installed. -/
def itemChange (nodeId : String) (peerInfo : PeerInfo) (installed : Option InternalRoute)
    (item : UpdateItem) : Option RouteChange :=
  match item.action with
  | .add =>
    if nodeId ∈ item.nodePath then none
    else
      match installed with
      | some existing =>
        if item.nodePath.length < existing.nodePath.length ∨ existing.isStale = true then
          some ⟨.updated, .internal (itemRoute peerInfo item)⟩
        else none
      | none => some ⟨.added, .internal (itemRoute peerInfo item)⟩
  | .remove => installed.map fun removed => ⟨.removed, .internal removed⟩

theorem planUpdateItem_changes (nodeId : String) (peerInfo : PeerInfo) (routes : List InternalRoute)
    (item : UpdateItem) :
    (planUpdateItem nodeId peerInfo routes item).routeChanges =
      (itemChange nodeId peerInfo (installedAt routes item.key) item).toList := by
  have hstep := planUpdateItem_step nodeId peerInfo routes item
  generalize planUpdateItem nodeId peerInfo routes item = turn at hstep ⊢
  cases hstep with
  | looped hadd hloop => simp [itemChange, hadd, hloop]
  | kept existing hadd hloop hfound hlen hfresh =>
    simp [itemChange, hadd, hloop, hfound, hfresh, Nat.not_lt.mpr hlen]
  | replaced existing hadd hloop hfound hbetter => simp [itemChange, hadd, hloop, hfound, hbetter]
  | installed hadd hloop hfound => simp [itemChange, hadd, hloop, hfound]
  | absent hremove hfound => simp [itemChange, hremove, hfound]
  | withdrawn removed hremove hfound => simp [itemChange, hremove, hfound]

/-- An entry changes nothing but its own identity. -/
theorem itemChange_keyAt {nodeId : String} {peerInfo : PeerInfo} {routes : List InternalRoute}
    {item : UpdateItem} {change : RouteChange}
    (h : itemChange nodeId peerInfo (installedAt routes item.key) item = some change) :
    change.keyAt nodeId = item.key := by
  unfold itemChange at h
  split at h
  · split at h
    · cases h
    · split at h
      · split at h
        · obtain rfl := Option.some.inj h
          rfl
        · cases h
      · obtain rfl := Option.some.inj h
        rfl
  · obtain ⟨removed, hremoved, rfl⟩ := Option.map_eq_some_iff.mp h
    exact installedAt_key hremoved

theorem planUpdateItems_changeKeys (nodeId : String) (peerInfo : PeerInfo) (updates : List UpdateItem) :
    ∀ routes, ((planUpdateItems nodeId peerInfo routes updates).routeChanges.map (·.keyAt nodeId)).Sublist
      (updates.map (·.key)) := by
  induction updates with
  | nil => exact fun routes => List.Sublist.refl _
  | cons item rest ih =>
    intro routes
    simp only [planUpdateItems, List.map_append, planUpdateItem_changes, List.map_cons]
    have hrest := ih (planUpdateItem nodeId peerInfo routes item).routes
    cases hchange : itemChange nodeId peerInfo (installedAt routes item.key) item with
    | none => simpa using hrest.cons item.key
    | some change =>
      have hkey := itemChange_keyAt hchange
      simpa [hkey] using hrest

/-- An update changes internal routes only. -/
theorem planUpdateItems_internal (nodeId : String) (peerInfo : PeerInfo) (updates : List UpdateItem) :
    ∀ routes type route,
      ⟨type, .channel route⟩ ∉ (planUpdateItems nodeId peerInfo routes updates).routeChanges := by
  induction updates with
  | nil => exact fun routes type route hmem => by cases hmem
  | cons item rest ih =>
    intro routes type route hmem
    simp only [planUpdateItems, List.mem_append, planUpdateItem_changes, Option.mem_toList] at hmem
    obtain hmem | hmem := hmem
    · unfold itemChange at hmem
      split at hmem
      · split at hmem
        · cases hmem
        · split at hmem
          · split at hmem <;> cases hmem
          · cases hmem
      · obtain ⟨removed, -, heq⟩ := Option.map_eq_some_iff.mp hmem
        cases heq
    · exact ih _ type route hmem

/-- The entry of a message that concerns an identity. -/
def itemAt (k : String × String) (updates : List UpdateItem) : Option UpdateItem :=
  updates.find? fun item => item.key == k

theorem itemAt_key {k : String × String} {updates : List UpdateItem} {item : UpdateItem}
    (h : itemAt k updates = some item) : item.key = k := by
  have hkey := List.find?_some h
  simpa using hkey

theorem itemAt_eq_none_iff {k : String × String} {updates : List UpdateItem} :
    itemAt k updates = none ↔ ∀ item ∈ updates, item.key ≠ k := by
  simp [itemAt]

/-- When each identity occurs once in a message, what the message does to an
    identity is what its one entry does to it. -/
theorem planUpdateItems_at (nodeId : String) (peerInfo : PeerInfo) (updates : List UpdateItem)
    (k : String × String) :
    ∀ routes, (updates.map (·.key)).Nodup →
      changeAt nodeId k (planUpdateItems nodeId peerInfo routes updates).routeChanges =
          (itemAt k updates).bind (itemChange nodeId peerInfo (installedAt routes k)) ∧
        installedAt (planUpdateItems nodeId peerInfo routes updates).routes k =
          match itemAt k updates with
          | some item => receiveItem nodeId peerInfo (installedAt routes k) item
          | none => installedAt routes k := by
  induction updates with
  | nil => exact fun routes _ => ⟨rfl, rfl⟩
  | cons item rest ih =>
    intro routes hnodup
    obtain ⟨hfresh, hnodup⟩ := List.nodup_cons.mp hnodup
    have hlater := ih (planUpdateItem nodeId peerInfo routes item).routes hnodup
    simp only [planUpdateItems, changeAt, List.find?_append, planUpdateItem_changes] at hlater ⊢
    by_cases hk : item.key = k
    · subst hk
      have habsent : itemAt item.key rest = none :=
        itemAt_eq_none_iff.mpr fun other hother heq => hfresh (List.mem_map.mpr ⟨other, hother, heq⟩)
      have hhead : itemAt item.key (item :: rest) = some item := by simp [itemAt]
      rw [habsent] at hlater
      rw [hhead, hlater.1, hlater.2, planUpdateItem_installedAt]
      refine ⟨?_, rfl⟩
      cases hchange : itemChange nodeId peerInfo (installedAt routes item.key) item with
      | none => simp [hchange]
      | some change => simp [hchange, itemChange_keyAt hchange]
    · have hhead : itemAt k (item :: rest) = itemAt k rest := by simp [itemAt, hk]
      rw [hhead, hlater.1, hlater.2, planUpdateItem_installedAt_of_ne _ _ _ hk]
      refine ⟨?_, rfl⟩
      cases hchange : itemChange nodeId peerInfo (installedAt routes item.key) item with
      | none => simp
      | some change => simp [itemChange_keyAt hchange, hk]

/-- The identities of a plan's changes are pairwise distinct. -/
theorem plan_changeKeys_nodup (nodeId : String) (now : Int) (action : Action) {state : RouteTable}
    (h : RouteTable.WellKeyed state)
    (hin : ∀ peerInfo updates, action = .internalProtocolUpdate peerInfo updates →
      (updates.map (·.key)).Nodup) :
    ((plan nodeId now action state).routeChanges.map (·.keyAt nodeId)).Nodup := by
  have hsome (routes : List InternalRoute) (hsub : routes.Sublist state.internalRoutes)
      (mark : InternalRoute → InternalRoute) (hmark : ∀ r, (mark r).key = r.key) (type : RouteChangeType) :
      ((routes.map fun r => (⟨type, .internal (mark r)⟩ : RouteChange)).map (·.keyAt nodeId)).Nodup := by
    have hkeys : (routes.map fun r => (⟨type, .internal (mark r)⟩ : RouteChange)).map (·.keyAt nodeId) =
        routes.map (·.key) := by
      simp [RouteChange.keyAt, Function.comp_def, hmark]
    rw [hkeys]
    exact h.internalKeys.sublist (hsub.map _)
  have hshape := plan_shape nodeId now action state
  generalize plan nodeId now action state = result at hshape ⊢
  cases hshape with
  | unchanged | session => exact List.nodup_nil
  | withdraw => exact hsome _ List.filter_sublist id (fun _ => rfl) .removed
  | stale => exact hsome _ List.filter_sublist (fun r => { r with isStale := true }) (fun _ => rfl) .updated
  | created | deleted | health => simp
  | update peerInfo updates peers =>
    exact (hin peerInfo updates rfl).sublist (planUpdateItems_changeKeys nodeId peerInfo updates _)

/-- A plan's new view of an identity, from its change under that identity. -/
theorem plan_view_changeAt (nodeId : String) (now : Int) {action : Action} {state : RouteTable}
    (h : RouteTable.WellKeyed state)
    (hin : ∀ peerInfo updates, action = .internalProtocolUpdate peerInfo updates →
      (updates.map (·.key)).Nodup) (k : String × String) :
    (plan nodeId now action state).newState.view k =
      match changeAt nodeId k (plan nodeId now action state).routeChanges with
      | some change => change.applyTo k (state.view k)
      | none => state.view k := by
  rw [plan_view nodeId now action h k]
  cases hchange : changeAt nodeId k (plan nodeId now action state).routeChanges with
  | none => exact applyChanges_of_none _ _ hchange
  | some change => exact applyChanges_of_some _ _ (plan_changeKeys_nodup nodeId now action h hin) hchange

/-- What happens to the local route of a name, given the change under its own
    identity. -/
inductive LocalChange (action : Action) (state newState : RouteTable) (name : String) :
    Option RouteChange → Prop where
  | kept (hsame : newState.hasLocal name = state.hasLocal name) : LocalChange action state newState name none
  | put (type : RouteChangeType) (route : DataChannelDefinition) (htype : type ≠ .removed)
      (hadded : state.hasLocal name = false → type = .added) (hnow : newState.hasLocal name = true) :
      LocalChange action state newState name (some ⟨type, .channel route⟩)
  | removed (route : DataChannelDefinition) (haction : action = .localRouteDelete name)
      (hgone : newState.hasLocal name = false) :
      LocalChange action state newState name (some ⟨.removed, .channel route⟩)

theorem hasLocal_eq_true_iff {state : RouteTable} {name : String} :
    state.hasLocal name = true ↔ ∃ r ∈ state.localRoutes, r.name = name := by
  simp [RouteTable.hasLocal]

/-- No internal route claims this node as its origin. -/
def NoOwnOrigin (nodeId : String) (plan : PlanResult) : Prop :=
  ∀ type r, ⟨type, .internal r⟩ ∈ plan.routeChanges → r.originNode ≠ nodeId

theorem plan_localChange {nodeId : String} {now : Int} {action : Action} {state : RouteTable}
    (hown : NoOwnOrigin nodeId (plan nodeId now action state)) (name : String) :
    LocalChange action state (plan nodeId now action state).newState name
      (changeAt nodeId (name, nodeId) (plan nodeId now action state).routeChanges) := by
  have hshape := plan_shape nodeId now action state
  generalize plan nodeId now action state = result at hshape hown ⊢
  have hinternal (hchannels : ∀ change ∈ result.routeChanges, ∃ r, change.route = .internal r) :
      changeAt nodeId (name, nodeId) result.routeChanges = none := by
    rw [changeAt_eq_none_iff]
    intro change hmem hkey
    obtain ⟨r, hr⟩ := hchannels change hmem
    obtain ⟨type, route⟩ := change
    simp only at hr
    subst hr
    exact hown type r hmem (congrArg Prod.snd hkey)
  cases hshape with
  | unchanged | session => exact .kept rfl
  | withdraw =>
    rw [hinternal]
    · exact .kept rfl
    · intro change hmem
      obtain ⟨r, -, rfl⟩ := List.mem_map.mp hmem
      exact ⟨r, rfl⟩
  | stale =>
    rw [hinternal]
    · exact .kept rfl
    · intro change hmem
      obtain ⟨r, -, rfl⟩ := List.mem_map.mp hmem
      exact ⟨_, rfl⟩
  | update peerInfo updates =>
    rw [hinternal]
    · exact .kept rfl
    · intro change hmem
      obtain ⟨type, route⟩ := change
      cases route with
      | internal r => exact ⟨r, rfl⟩
      | channel route => exact absurd hmem (planUpdateItems_internal nodeId peerInfo updates _ type route)
  | created data hnew =>
    by_cases hname : data.name = name
    · have hfind : changeAt nodeId (name, nodeId) [⟨.added, .channel data⟩] = some ⟨.added, .channel data⟩ := by
        simp [changeAt, RouteChange.keyAt, hname]
      rw [hfind]
      refine .put .added data (by simp) (fun _ => rfl) (hasLocal_eq_true_iff.mpr ⟨data, by simp, hname⟩)
    · have hfind : changeAt nodeId (name, nodeId) [⟨.added, .channel data⟩] = none := by
        simp [changeAt, RouteChange.keyAt, hname]
      rw [hfind]
      exact .kept (by simp [RouteTable.hasLocal, hname])
  | deleted route ops hfound hops =>
    by_cases hname : route.name = name
    · have hfind : changeAt nodeId (name, nodeId) [⟨.removed, .channel route⟩] =
          some ⟨.removed, .channel route⟩ := by simp [changeAt, RouteChange.keyAt, hname]
      rw [hfind]
      subst hname
      exact .removed route rfl (by simp [RouteTable.hasLocal])
    · have hfind : changeAt nodeId (name, nodeId) [⟨.removed, .channel route⟩] = none := by
        simp [changeAt, RouteChange.keyAt, hname]
      rw [hfind]
      refine .kept ?_
      rw [Bool.eq_iff_iff, hasLocal_eq_true_iff, hasLocal_eq_true_iff]
      constructor
      · rintro ⟨r, hr, rfl⟩
        exact ⟨r, (List.mem_filter.mp hr).1, rfl⟩
      · rintro ⟨r, hr, rfl⟩
        exact ⟨r, List.mem_filter.mpr ⟨hr, by simpa using Ne.symm hname⟩, rfl⟩
  | health data existing updated hfound hupdated =>
    have hexisting : existing.name = data.name := by simpa using List.find?_some hfound
    have hupdatedName : updated.name = data.name := hupdated ▸ hexisting
    have hlocal : RouteTable.hasLocal { state with
        localRoutes := state.localRoutes.modifyFirst (fun r => r.name == data.name) fun _ => updated } name =
        state.hasLocal name := by
      have hnames : (state.localRoutes.modifyFirst (fun r => r.name == data.name) fun _ => updated).map (·.name) =
          state.localRoutes.map (·.name) := by
        rw [List.map_modifyFirst]
        intro r _ hr
        exact hupdatedName.trans (beq_iff_eq.mp hr).symm
      have hany (routes : List DataChannelDefinition) :
          (routes.any fun r => r.name == name) = (routes.map (·.name)).any (· == name) := by
        simp [List.any_map, Function.comp_def]
      simp only [RouteTable.hasLocal, hany, hnames]
    by_cases hname : data.name = name
    · have hfind : changeAt nodeId (name, nodeId) [⟨.updated, .channel updated⟩] =
          some ⟨.updated, .channel updated⟩ := by
        simp [changeAt, RouteChange.keyAt, hupdatedName, hname]
      have hbefore : state.hasLocal name = true :=
        hasLocal_eq_true_iff.mpr ⟨existing, List.mem_of_find?_eq_some hfound, hexisting.trans hname⟩
      rw [hfind]
      exact .put .updated updated (by simp) (fun hnot => by simp [hbefore] at hnot) (hlocal.trans hbefore)
    · have hfind : changeAt nodeId (name, nodeId) [⟨.updated, .channel updated⟩] = none := by
        simp [changeAt, RouteChange.keyAt, hupdatedName, hname]
      rw [hfind]
      exact .kept hlocal

/-- Other than for updates, internal routes are removed together with the peer
    they were learned from. -/
theorem plan_removed_withdrawn {nodeId : String} {now : Int} {action : Action} {state : RouteTable}
    (hupdate : action.isUpdate = false) {r : InternalRoute}
    (hmem : ⟨.removed, .internal r⟩ ∈ (plan nodeId now action state).routeChanges) :
    r.peer.name ∈ withdrawnPeers state action := by
  have hshape := plan_shape nodeId now action state
  generalize plan nodeId now action state = result at hshape hmem
  cases hshape with
  | unchanged | session | created | deleted | health | stale => simp [noChange] at hmem
  | withdraw =>
    obtain ⟨r', hr', heq⟩ := List.mem_map.mp hmem
    cases heq
    simpa using (List.mem_filter.mp hr').2
  | update => cases hupdate

end Rib

end CatalystRouter
