import CatalystRouter.Orchestrator.KeyEffect
import CatalystRouter.Routing.Sessions

namespace CatalystRouter

/-! What an advertisement passes on of a route, and what a slot does to it. -/

/-- The part of a definition that every hop passes on: all but the port and the
    Envoy address. -/
def DataChannelDefinition.attributes (route : DataChannelDefinition) : DataChannelDefinition :=
  { route with envoyPort := none, envoyAddress := none }

@[simp] theorem attributes_toDataChannel (route : DataChannelDefinition) (envoyAddress : Option String) :
    (toDataChannel route envoyAddress).attributes = route.attributes := rfl

theorem attributes_eq_of_unstamped {r s : InternalRoute} (h : r.unstamped = s.unstamped) :
    r.attributes = s.attributes :=
  have heq := congrArg (fun r : InternalRoute => r.attributes) h
  heq

theorem view_unstamped {state state' : RouteTable}
    (h : state'.internalRoutes.map InternalRoute.unstamped = state.internalRoutes.map InternalRoute.unstamped)
    (k : String × String) : (state'.view k).map InternalRoute.unstamped = (state.view k).map InternalRoute.unstamped := by
  have hfind (state : RouteTable) : (state.view k).map InternalRoute.unstamped =
      (state.internalRoutes.map InternalRoute.unstamped).find? fun r => r.key == k := by
    rw [List.find?_map]
    rfl
  rw [hfind, hfind, h]

/-- The local route of a name. -/
def RouteTable.localNamed (state : RouteTable) (name : String) : Option DataChannelDefinition :=
  state.localRoutes.find? fun r => r.name == name

def RouteHealth.applyTo (data : RouteHealth) (route : DataChannelDefinition) : DataChannelDefinition :=
  { route with
    healthStatus := some data.healthStatus
    responseTimeMs := some data.responseTimeMs
    lastChecked := some data.lastChecked }

/-- What an action other than a deletion makes of the local route of a name. -/
def Action.applyTo (name : String) (current : Option DataChannelDefinition) : Action → Option DataChannelDefinition
  | .localRouteCreate data => if data.name = name then current.or (some data) else current
  | .localRouteHealthUpdate data => if data.name = name then current.map data.applyTo else current
  | _ => current

theorem hasLocal_eq_isSome (state : RouteTable) (name : String) :
    state.hasLocal name = (state.localNamed name).isSome := by
  unfold RouteTable.hasLocal RouteTable.localNamed
  rw [Bool.eq_iff_iff, List.find?_isSome, List.any_eq_true]

theorem localNamed_name {state : RouteTable} {name : String} {l : DataChannelDefinition}
    (h : state.localNamed name = some l) : l ∈ state.localRoutes ∧ l.name = name :=
  ⟨List.mem_of_find?_eq_some h, by simpa using List.find?_some h⟩

theorem localNamed_of_mem {state : RouteTable} (hkeyed : Rib.RouteTable.WellKeyed state) {l : DataChannelDefinition}
    (hmem : l ∈ state.localRoutes) : state.localNamed l.name = some l := by
  cases hfound : state.localNamed l.name with
  | none => exact absurd (List.find?_eq_none.mp hfound l hmem) (by simp)
  | some other =>
    obtain ⟨hother, hname⟩ := localNamed_name hfound
    rw [List.inj_on_of_nodup_map hkeyed.localNames hother hmem hname]

theorem localNamed_unstamped {state state' : RouteTable}
    (h : state'.localRoutes.map DataChannelDefinition.unstamped = state.localRoutes.map DataChannelDefinition.unstamped)
    (name : String) : (state'.localNamed name).map DataChannelDefinition.attributes =
      (state.localNamed name).map DataChannelDefinition.attributes := by
  have hfind (state : RouteTable) : (state.localNamed name).map DataChannelDefinition.attributes =
      ((state.localRoutes.map DataChannelDefinition.unstamped).find? fun r => r.name == name).map
        DataChannelDefinition.attributes := by
    rw [List.find?_map, Option.map_map]
    rfl
  rw [hfind, hfind, h]

/-- Ports make no difference to what an action does to the attributes. -/
theorem Action.applyTo_congr {current current' : Option DataChannelDefinition} (action : Action) (name : String)
    (h : current'.map DataChannelDefinition.attributes = current.map DataChannelDefinition.attributes) :
    (action.applyTo name current').map DataChannelDefinition.attributes =
      (action.applyTo name current).map DataChannelDefinition.attributes := by
  cases action with
  | localRouteCreate data =>
    simp only [applyTo]
    split
    · cases current <;> cases current' <;> simp_all
    · exact h
  | localRouteHealthUpdate data =>
    have hupdate (current : Option DataChannelDefinition) :
        (current.map data.applyTo).map DataChannelDefinition.attributes =
          (current.map DataChannelDefinition.attributes).map data.applyTo := by
      rw [Option.map_map, Option.map_map]
      rfl
    simp only [applyTo]
    split
    · rw [hupdate, hupdate, h]
    · exact h
  | _ => exact h

namespace Rib

variable {nodeId : String} {now : Int} {action : Action} {state : RouteTable}

/-- Actions that keep the sessions withdraw no peer's routes. -/
theorem withdrawnPeers_of_keeps (h : action.KeepsSessions state) : withdrawnPeers state action = [] := by
  cases action with
  | localPeerDelete | internalProtocolClose => exact h.elim
  | tick now => exact h
  | _ => rfl

/-- Actions that keep the sessions leave the internal routes alone, unless they
    are updates. -/
theorem plan_internal_of_keeps (nodeId : String) (now : Int) (hkeeps : action.KeepsSessions state)
    (hupdate : action.isUpdate = false) :
    (plan nodeId now action state).newState.internalRoutes = state.internalRoutes ∧
      ∀ type r, ⟨type, .internal r⟩ ∉ (plan nodeId now action state).routeChanges := by
  have hnames := withdrawnPeers_of_keeps hkeeps
  have hshape := plan_shape nodeId now action state
  generalize plan nodeId now action state = result at hshape ⊢
  cases hshape with
  | unchanged | session | created | deleted | health => exact ⟨rfl, by simp [noChange]⟩
  | withdraw => simp [withdrawPlan, hnames, routesOf, removedChanges]
  | stale => exact hkeeps.elim
  | update => cases hupdate

theorem plan_localRoutes (nodeId : String) (now : Int) (hcreate : ∀ data, action ≠ .localRouteCreate data)
    (hdelete : ∀ name, action ≠ .localRouteDelete name) (hhealth : ∀ data, action ≠ .localRouteHealthUpdate data) :
    (plan nodeId now action state).newState.localRoutes = state.localRoutes := by
  have hshape := plan_shape nodeId now action state
  generalize plan nodeId now action state = result at hshape ⊢
  cases hshape with
  | unchanged | session | withdraw | stale | update => rfl
  | created data => exact absurd rfl (hcreate data)
  | deleted route => exact absurd rfl (hdelete route.name)
  | health data => exact absurd rfl (hhealth data)

theorem plan_localNamed (nodeId : String) (now : Int) (hdelete : ∀ name, action ≠ .localRouteDelete name)
    (name : String) :
    (plan nodeId now action state).newState.localNamed name = action.applyTo name (state.localNamed name) := by
  cases action with
  | localRouteDelete name => exact absurd rfl (hdelete name)
  | localRouteCreate data =>
    simp only [plan, planLocalRouteCreate, Action.applyTo]
    split
    · rename_i hold
      split
      · rename_i hname
        subst hname
        have hpresent : (state.localNamed data.name).isSome = true := (hasLocal_eq_isSome state data.name).symm.trans hold
        obtain ⟨l, hl⟩ := Option.isSome_iff_exists.mp hpresent
        simp [noChange, hl]
      · rfl
    · by_cases hname : data.name = name
      · simp [RouteTable.localNamed, List.find?_append, hname]
      · simp [RouteTable.localNamed, List.find?_append, hname]
  | localRouteHealthUpdate data =>
    simp only [plan, planLocalRouteHealthUpdate, Action.applyTo]
    by_cases hname : data.name = name
    · subst hname
      rw [if_pos rfl, RouteTable.localNamed, RouteTable.localNamed]
      cases hfound : state.localRoutes.find? fun r => r.name == data.name with
      | none => simpa [noChange] using hfound
      | some existing =>
        dsimp only
        split
        · rename_i hsame
          obtain ⟨hstatus, htime, hchecked⟩ := hsame
          have hidle : data.applyTo existing = existing := by
            simp only [RouteHealth.applyTo, ← hstatus, ← htime, ← hchecked]
          rw [Option.map_some, hidle]
          exact hfound
        · have hnamed : existing.name = data.name := by simpa using List.find?_some hfound
          dsimp only
          rw [List.find?_modifyFirst, hfound]
          · rfl
          · exact fun _ _ => beq_iff_eq.mpr hnamed
    · rw [if_neg hname]
      split
      · rfl
      · rename_i existing hfound
        have hnamed : existing.name = data.name := by simpa using List.find?_some hfound
        split
        · rfl
        · refine List.find?_modifyFirst_of_disjoint (fun r hr => ⟨?_, ?_⟩) _
          · rw [beq_iff_eq.mp hr]
            exact beq_eq_false_iff_ne.mpr hname
          · dsimp only
            rw [hnamed]
            exact beq_eq_false_iff_ne.mpr hname
  | _ =>
    rw [RouteTable.localNamed, plan_localRoutes]
    · rfl
    all_goals simp

theorem changeAt_of_mem {changes : List RouteChange} (hnodup : (changes.map (·.keyAt nodeId)).Nodup)
    {change : RouteChange} (hmem : change ∈ changes) : changeAt nodeId (change.keyAt nodeId) changes = some change := by
  cases hfound : changeAt nodeId (change.keyAt nodeId) changes with
  | none => exact absurd rfl (changeAt_eq_none_iff.mp hfound change hmem)
  | some other =>
    rw [List.inj_on_of_nodup_map hnodup (mem_of_changeAt hfound) hmem (changeAt_key hfound)]

/-- A changed internal route that is not removed is in place afterwards. -/
theorem plan_put_view (hkeyed : RouteTable.WellKeyed state)
    (hkeys : ∀ peerInfo updates, action = .internalProtocolUpdate peerInfo updates → (updates.map (·.key)).Nodup)
    {type : RouteChangeType} (htype : type ≠ .removed) {r : InternalRoute}
    (hmem : ⟨type, .internal r⟩ ∈ (plan nodeId now action state).routeChanges) :
    (plan nodeId now action state).newState.view r.key = some r := by
  have hnodup := plan_changeKeys_nodup nodeId now action hkeyed hkeys
  have hchange : changeAt nodeId r.key (plan nodeId now action state).routeChanges = some ⟨type, .internal r⟩ :=
    changeAt_of_mem hnodup hmem
  rw [plan_view_changeAt nodeId now hkeyed hkeys, hchange]
  exact RouteChange.applyTo_put htype r _

/-- Advertisements and local actions other than a deletion remove nothing. -/
theorem plan_removes_nothing (nodeId : String) (now : Int) (hkeeps : action.KeepsSessions state)
    (hdelete : ∀ name, action ≠ .localRouteDelete name)
    (hadds : ∀ peerInfo updates, action = .internalProtocolUpdate peerInfo updates →
      ∀ item ∈ updates, item.action = .add) :
    ∀ change ∈ (plan nodeId now action state).routeChanges, change.type ≠ .removed := by
  cases hupdate : action.isUpdate with
  | true =>
    obtain ⟨peerInfo, updates, rfl⟩ : ∃ peerInfo updates, action = .internalProtocolUpdate peerInfo updates := by
      cases action with
      | internalProtocolUpdate peerInfo updates => exact ⟨peerInfo, updates, rfl⟩
      | _ => cases hupdate
    rw [plan_update_changes]
    refine planUpdateItems_changes (C := fun _ item => item.action = .add) ?_ updates _
      (eachTurn_of_forall (fun _ item hitem => hadds peerInfo updates rfl item hitem) _)
    intro routes item hadd change hmem
    rw [planUpdateItem_changes] at hmem
    obtain hchange := Option.mem_toList.mp hmem
    simp only [itemChange, hadd] at hchange
    split at hchange
    · cases hchange
    · split at hchange
      · split at hchange
        · obtain rfl := Option.some.inj hchange
          simp
        · cases hchange
      · obtain rfl := Option.some.inj hchange
        simp
  | false =>
    have hinternal := (plan_internal_of_keeps nodeId now hkeeps hupdate).2
    intro change hmem hremoved
    obtain ⟨type, route⟩ := change
    dsimp only at hremoved
    subst hremoved
    cases route with
    | internal r => exact hinternal _ _ hmem
    | channel route =>
      have hshape := plan_shape nodeId now action state
      generalize plan nodeId now action state = result at hshape hmem
      cases hshape with
      | unchanged | session | created | health => simp [noChange] at hmem
      | withdraw =>
        obtain ⟨r, -, heq⟩ := List.mem_map.mp hmem
        cases heq
      | stale => exact hkeeps.elim
      | deleted route => exact hdelete _ rfl
      | update => cases hupdate

end Rib

namespace Bus

variable {config : BusConfig} {bus : Bus} {action : Action}

theorem lacksPeerToken_of_keeps {state : RouteTable} (h : action.KeepsSessions state) : lacksPeerToken action = false := by
  cases action with
  | localPeerCreate => exact h.elim
  | _ => rfl

/-- What a slot without a policy leaves behind: the plan of its action, up to
    ports. -/
theorem dispatch_unstamped (now : Int) (hpolicy : config.routePolicy = none) (htoken : lacksPeerToken action = false) :
    (dispatch config bus now action).bus.state.internalRoutes.map InternalRoute.unstamped =
        (Rib.plan config.node.name now action bus.state).newState.internalRoutes.map InternalRoute.unstamped ∧
      (dispatch config bus now action).bus.state.localRoutes.map DataChannelDefinition.unstamped =
        (Rib.plan config.node.name now action bus.state).newState.localRoutes.map DataChannelDefinition.unstamped := by
  have hsome := applyInboundPolicy_of_no_policy hpolicy bus.state action
  have hshape := dispatch_shape config bus now action
  generalize dispatch config bus now action = result at hshape ⊢
  cases hshape with
  | rejected error hreason => simp [htoken, hsome] at hreason
  | idle filteredAction hfiltered hsame =>
    obtain rfl := Option.some.inj (hsome.symm.trans hfiltered)
    rw [plan_newState_of_sameReference hsame]
    exact ⟨rfl, rfl⟩
  | committed filteredAction plan portAllocator hfiltered hchanged hports =>
    obtain rfl := Option.some.inj (hsome.symm.trans hfiltered)
    have hcommitted := committed_of_planPorts hfiltered hports
    exact ⟨hcommitted.ports.internalRoutes, hcommitted.ports.localRoutes⟩

/-- A slot that keeps the sessions and deletes nothing treats the local routes
    as its action says. -/
theorem dispatch_localNamed (now : Int) (hpolicy : config.routePolicy = none)
    (hkeeps : action.KeepsSessions bus.state) (hdelete : ∀ name, action ≠ .localRouteDelete name) (name : String) :
    ((dispatch config bus now action).bus.state.localNamed name).map DataChannelDefinition.attributes =
      (action.applyTo name (bus.state.localNamed name)).map DataChannelDefinition.attributes := by
  rw [localNamed_unstamped (dispatch_unstamped now hpolicy (lacksPeerToken_of_keeps hkeeps)).2 name,
    Rib.plan_localNamed config.node.name now hdelete]

/-- Only updates change the internal routes of a slot that keeps the sessions. -/
theorem dispatch_view_of_keeps (now : Int) (hpolicy : config.routePolicy = none)
    (hkeeps : action.KeepsSessions bus.state) (hupdate : action.isUpdate = false) (k : String × String) :
    ((dispatch config bus now action).bus.state.view k).map InternalRoute.unstamped =
      (bus.state.view k).map InternalRoute.unstamped := by
  refine view_unstamped ?_ k
  rw [(dispatch_unstamped now hpolicy (lacksPeerToken_of_keeps hkeeps)).1,
    (Rib.plan_internal_of_keeps config.node.name now hkeeps hupdate).1]

/-- Each entry of a message meets the route installed for its identity. -/
theorem dispatch_view_received (bus : Bus) (now : Int) (hpolicy : config.routePolicy = none) (peerInfo : PeerInfo)
    {updates : List UpdateItem} (hkeys : (updates.map (·.key)).Nodup) (k : String × String) :
    ((dispatch config bus now (.internalProtocolUpdate peerInfo updates)).bus.state.view k).map
        InternalRoute.unstamped =
      (match Rib.itemAt k updates with
        | some item => Rib.receiveItem config.node.name peerInfo (bus.state.view k) item
        | none => bus.state.view k).map InternalRoute.unstamped := by
  rw [view_unstamped (dispatch_unstamped now hpolicy rfl).1 k, Rib.plan_update_view]
  exact congrArg _ (Rib.planUpdateItems_at config.node.name peerInfo updates k bus.state.internalRoutes hkeys).2

/-- A slot that creates a local route tells others of nothing else. -/
theorem dispatch_create (now : Int) (hpolicy : config.routePolicy = none) {data : DataChannelDefinition} :
    ∀ message ∈ (dispatch config bus now (.localRouteCreate data)).sends, ∀ item ∈ message.2,
      item.route.attributes = data.attributes := by
  rintro ⟨peer, updates⟩ hmem item hitem
  obtain ⟨filteredAction, plan, hcommitted, -, hmem⟩ := notified_of_mem_sends hmem
  obtain rfl := Option.some.inj ((applyInboundPolicy_of_no_policy hpolicy bus.state _).symm.trans hcommitted.filtered)
  obtain ⟨-, rfl, -⟩ := mem_deltas.mp hmem
  obtain ⟨change, hchange, hsome⟩ := List.mem_filterMap.mp hitem
  obtain ⟨planned, hmem, heq⟩ := hcommitted.planned hchange
  have hcreated : planned = ⟨.added, .channel data⟩ := by
    simp only [Rib.plan, Rib.planLocalRouteCreate] at hmem
    split at hmem
    · cases hmem
    · exact List.mem_singleton.mp hmem
  rw [hcreated] at heq
  obtain ⟨route, rfl, hstamp⟩ := eq_channel_of_unstamped heq.symm
  obtain rfl := Option.some.inj hsome
  have hattributes := congrArg DataChannelDefinition.attributes hstamp
  exact hattributes

/-- Without removals, messages only advertise. -/
theorem notified_add {plan : PlanResult} {state : RouteTable} (h : ∀ change ∈ plan.routeChanges, change.type ≠ .removed)
    {peer : PeerRecord} {updates : List UpdateItem} {item : UpdateItem}
    (hsent : (peer, updates) ∈ notified config action plan state) (hitem : item ∈ updates) : item.action = .add := by
  have hdelta (hsent : (peer, updates) ∈ deltas config plan state) : item.action = .add := by
    obtain ⟨-, rfl, -⟩ := mem_deltas.mp hsent
    obtain ⟨change, hchange, hsome⟩ := List.mem_filterMap.mp hitem
    have hput := h change hchange
    obtain ⟨type, route⟩ := change
    cases type with
    | removed => exact absurd rfl hput
    | added | updated =>
      cases route with
      | channel route =>
        obtain rfl := Option.some.inj hsome
        rfl
      | internal route =>
        simp only [changeItem] at hsome
        split at hsome
        · obtain rfl := Option.some.inj hsome
          rfl
        · cases hsome
  cases action with
  | internalProtocolConnected peerInfo =>
    simp only [notified] at hsent
    split at hsent
    · unfold message at hsent
      split at hsent
      · cases hsent
      · obtain ⟨rfl, rfl⟩ := Prod.mk.inj (List.mem_singleton.mp hsent)
        obtain hlocal | hinternal := List.mem_append.mp hitem
        · obtain ⟨route, -, rfl⟩ := List.mem_map.mp hlocal
          rfl
        · obtain ⟨route, -, rfl⟩ := List.mem_map.mp hinternal
          rfl
    · cases hsent
  | _ => exact hdelta hsent

/-- What a slot that removes nothing may put on the wire: advertisements of the
    routes that its table has afterwards. -/
structure Advertises (nodeId : String) (state : RouteTable) (item : UpdateItem) : Prop where
  add : item.action = .add
  relayed : item.originNode ≠ nodeId → ∃ r ∈ state.view item.key, r.attributes = item.route.attributes
  own : item.originNode = nodeId → state.hasLocal item.route.name = true

theorem dispatch_advertises (now : Int) (hpolicy : config.routePolicy = none) (hinput : SlotInput config bus action)
    (hkeeps : action.KeepsSessions bus.state) (hdelete : ∀ name, action ≠ .localRouteDelete name)
    (hadds : ∀ peerInfo updates, action = .internalProtocolUpdate peerInfo updates → ∀ item ∈ updates, item.action = .add) :
    ∀ message ∈ (dispatch config bus now action).sends, ∀ item ∈ message.2,
      Advertises config.node.name (dispatch config bus now action).bus.state item := by
  have heffect := dispatch_keyEffect now hinput
  have hkeyed := dispatch_wellKeyed config now action hinput.keyed
  have hputs := Rib.plan_removes_nothing config.node.name now hkeeps hdelete hadds
  rintro ⟨peer, updates⟩ hmem item hitem
  have hown : item.originNode = config.node.name →
      (dispatch config bus now action).bus.state.hasLocal item.route.name = true := by
    intro horigin
    have hspoken : ¬ Silent item.key (dispatch config bus now action).sends := fun hsilent =>
      Rib.itemAt_eq_none_iff.mp (hsilent _ hmem) item hitem rfl
    cases heffect item.key with
    | quiet _ _ hsilent => exact absurd hsilent hspoken
    | originated _ _ _ hnow => exact hnow
    | retracted _ _ haction => exact absurd haction (hdelete _)
    | repeated _ _ _ hk | dropped _ _ hk | selected _ _ _ _ _ hk => exact absurd horigin hk
  obtain ⟨filteredAction, plan, hcommitted, hstate, hmem⟩ := notified_of_mem_sends hmem
  obtain rfl := Option.some.inj ((applyInboundPolicy_of_no_policy hpolicy bus.state _).symm.trans hcommitted.filtered)
  refine ⟨notified_add (fun change hchange => ?_) hmem hitem, fun horigin => ?_, hown⟩
  · obtain ⟨planned, hmem, heq⟩ := hcommitted.planned hchange
    have htype : planned.unstamped.type = change.unstamped.type := congrArg RouteChange.type heq
    exact fun hremoved => hputs planned hmem (htype.trans hremoved)
  · cases notified_source hmem hitem with
    | localRoute updateAction route hroute =>
      subst hroute
      exact absurd rfl horigin
    | internalRoute updateAction route hroute hsource =>
      subst hroute
      rw [hstate] at hkeyed ⊢
      obtain hinstalled | ⟨type, hchange⟩ := hsource
      · exact ⟨route, (installedAt_eq_some_iff hkeyed.internalKeys).mpr ⟨hinstalled, rfl⟩, rfl⟩
      · obtain ⟨planned, hmem, heq⟩ := hcommitted.planned hchange
        obtain ⟨r, rfl, hstamp⟩ := eq_internal_of_unstamped heq
        have hview := Rib.plan_put_view hinput.keyed hinput.keys (hputs _ hmem) hmem
        have hsame := view_unstamped hcommitted.ports.internalRoutes r.key
        rw [hview] at hsame
        obtain ⟨r', hr', hstamp'⟩ := Option.map_eq_some_iff.mp hsame
        have hkey : r.key = route.key := InternalRoute.key_eq_of_unstamped hstamp
        rw [hkey] at hr'
        exact ⟨r', hr', attributes_eq_of_unstamped (hstamp'.trans hstamp)⟩

end Bus

end CatalystRouter
