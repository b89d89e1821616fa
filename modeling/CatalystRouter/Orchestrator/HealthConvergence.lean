import CatalystRouter.Orchestrator.AdapterHealth
import CatalystRouter.Orchestrator.Attributes

namespace CatalystRouter

/-- The actions that create or delete a local route. -/
def Action.isRouteAction : Action → Bool
  | .localRouteCreate _ | .localRouteDelete _ => true
  | _ => false

def Action.isHealthUpdate : Action → Bool
  | .localRouteHealthUpdate _ => true
  | _ => false

/-- The status that the table shows for a name, if it has a local route of that name. -/
def RouteTable.statusOf (state : RouteTable) (name : String) : Option (Option HealthStatus) :=
  (state.localNamed name).map (·.healthStatus)

/-- What an action leaves of the status of a name. -/
def Action.statusAfter (name : String) (status : Option (Option HealthStatus)) : Action → Option (Option HealthStatus)
  | .localRouteCreate data => if data.name = name then status.or (some data.healthStatus) else status
  | .localRouteDelete deleted => if deleted = name then none else status
  | .localRouteHealthUpdate data => if data.name = name then status.map fun _ => some data.healthStatus else status
  | _ => status

/-- Other actions leave the status of a route. -/
theorem Action.statusAfter_idle {action : Action} (hroute : action.isRouteAction = false)
    (hhealth : action.isHealthUpdate = false) {name : String} (status : Option (Option HealthStatus)) :
    action.statusAfter name status = status := by
  cases action with
  | localRouteCreate | localRouteDelete => cases hroute
  | localRouteHealthUpdate => cases hhealth
  | _ => rfl

/-- The status after an action is that of the route that it leaves, unless it deletes one. -/
theorem Action.statusAfter_applyTo {action : Action} (hdelete : ∀ name, action ≠ .localRouteDelete name) (name : String)
    (current : Option DataChannelDefinition) :
    (action.applyTo name current).map (·.healthStatus) = action.statusAfter name (current.map (·.healthStatus)) := by
  cases action with
  | localRouteDelete deleted => exact absurd rfl (hdelete deleted)
  | localRouteCreate data =>
    simp only [applyTo, statusAfter]
    split
    · cases current <;> rfl
    · rfl
  | localRouteHealthUpdate data =>
    simp only [applyTo, statusAfter]
    split
    · cases current <;> rfl
    · rfl
  | _ => rfl

namespace Rib

/-- A plan shows of the local routes what its action leaves. -/
theorem plan_statusOf (nodeId : String) (now : Int) (action : Action) (state : RouteTable) (name : String) :
    (plan nodeId now action state).newState.statusOf name = action.statusAfter name (state.statusOf name) := by
  by_cases hdelete : ∃ deleted, action = .localRouteDelete deleted
  · obtain ⟨deleted, rfl⟩ := hdelete
    simp only [plan, planLocalRouteDelete, Action.statusAfter]
    split
    · rename_i hnone
      split
      · rename_i hname
        subst hname
        rw [noChange, RouteTable.statusOf, RouteTable.localNamed, hnone]
        rfl
      · rfl
    · rw [RouteTable.statusOf, RouteTable.statusOf, RouteTable.localNamed, RouteTable.localNamed, List.find?_filter]
      split
      · rename_i hname
        subst hname
        rw [List.find?_eq_none.mpr fun route _ => by simp]
        rfl
      · rename_i hother
        congr 2
        funext route
        by_cases hname : route.name = name
        · simp [hname, Ne.symm hother]
        · simp [hname]
  · have hdelete : ∀ name, action ≠ .localRouteDelete name := fun deleted hdeletes => hdelete ⟨deleted, hdeletes⟩
    rw [RouteTable.statusOf, plan_localNamed nodeId now hdelete, Action.statusAfter_applyTo hdelete, RouteTable.statusOf]

end Rib

namespace Bus

/-- So does a slot. -/
theorem dispatch_statusOf (config : BusConfig) (bus : Bus) (now : Int) (action : Action) (name : String) :
    (dispatch config bus now action).bus.state.statusOf name = action.statusAfter name (bus.state.statusOf name) := by
  have hplan {filteredAction : Action} (hfiltered : applyInboundPolicy config bus.state action = some filteredAction) :
      (Rib.plan config.node.name now filteredAction bus.state).newState.statusOf name =
        action.statusAfter name (bus.state.statusOf name) := by
    obtain rfl | ⟨peerInfo, updates, filteredUpdates, rfl, rfl, -⟩ := applyInboundPolicy_cases hfiltered
    · exact Rib.plan_statusOf config.node.name now _ bus.state name
    · exact Rib.plan_statusOf config.node.name now _ bus.state name
  have hshape := dispatch_shape config bus now action
  generalize dispatch config bus now action = result at hshape ⊢
  cases hshape with
  | rejected error hreason =>
    cases action with
    | localRouteCreate | localRouteDelete | localRouteHealthUpdate => simp [lacksPeerToken, applyInboundPolicy] at hreason
    | _ => rfl
  | idle filteredAction hfiltered hsame => rw [← hplan hfiltered, plan_newState_of_sameReference hsame]
  | committed filteredAction plan portAllocator hfiltered hchanged hports =>
    rw [← hplan hfiltered]
    have hnamed := localNamed_unstamped (portsOnly_of_planPorts hports).localRoutes name
    have hstatus (current : Option DataChannelDefinition) :
        current.map (·.healthStatus) = (current.map DataChannelDefinition.attributes).map (·.healthStatus) := by
      cases current <;> rfl
    rw [RouteTable.statusOf, hstatus, hnamed, ← hstatus, RouteTable.statusOf]

end Bus

namespace HealthNode

/-- The status that the table shows once the queued dispatches have had their slots. -/
def shownStatus (self : HealthNode) (name : String) : Option (Option HealthStatus) :=
  self.queue.foldl (Action.statusAfter name) (self.bus.state.statusOf name)

/-- What holds of the name of a route while a cycle goes on: its check in flight, and
    what is held and shown for it. -/
structure Shows (name : String) (check : Option HealthCheck) (held shown : Option HealthStatus)
    (node : HealthNode) : Prop where
  inFlight : (node.checks.filter fun check => check.name == name) = check.toList
  held : node.heldStatus name = held
  shown : node.shownStatus name = some shown

/-- What is shown after a check that found `found`. -/
def shownAfter (prevStatus shown : Option HealthStatus) (found : HealthStatus) : Option HealthStatus :=
  if prevStatus = some found then shown else some found

variable {config : HealthConfig} {self : HealthNode} {name : String} {check : Option HealthCheck}
  {held shown : Option HealthStatus}

theorem shownStatus_enqueue (self : HealthNode) (action : Action) (name : String) :
    shownStatus { self with queue := self.queue ++ [action] } name = action.statusAfter name (self.shownStatus name) := by
  simp [shownStatus]

/-- A result that is stored is held. -/
theorem Shows.setHealth (h : self.Shows name check held shown) (health : AdapterHealth) :
    (self.setHealth name health).Shows name check (some health.healthStatus) shown :=
  ⟨h.inFlight, by simp [heldStatus, HealthNode.setHealth], h.shown⟩

/-- The result of another route changes nothing for this one. -/
theorem Shows.setHealth_other (h : self.Shows name check held shown) {other : String} (hother : other ≠ name)
    (health : AdapterHealth) : (self.setHealth other health).Shows name check held shown := by
  refine ⟨h.inFlight, ?_, h.shown⟩
  rw [← h.held]
  simp [heldStatus, HealthNode.setHealth, Function.update_of_ne hother.symm]

/-- The held status is dispatched if it is not the previous one. -/
theorem Shows.maybeDispatch {found : HealthStatus} (h : self.Shows name check (some found) shown)
    (prevStatus : Option HealthStatus) :
    (self.maybeDispatch name prevStatus).Shows name check (some found) (shownAfter prevStatus shown found) := by
  obtain ⟨health, hhealth, rfl⟩ := Option.map_eq_some_iff.mp h.held
  unfold HealthNode.maybeDispatch shownAfter
  rw [hhealth]
  dsimp only
  split
  · exact h
  · refine ⟨h.inFlight, h.held, ?_⟩
    rw [shownStatus_enqueue, h.shown]
    exact if_pos rfl

/-- Nor does an action that is dispatched for another route. -/
theorem Shows.maybeDispatch_other (h : self.Shows name check held shown) {other : String} (hother : other ≠ name)
    (prevStatus : Option HealthStatus) : (self.maybeDispatch other prevStatus).Shows name check held shown := by
  unfold HealthNode.maybeDispatch
  split
  · exact h
  · split
    · exact h
    · refine ⟨h.inFlight, h.held, ?_⟩
      rw [shownStatus_enqueue, ← h.shown]
      exact if_neg hother

/-! ### The start of a cycle -/

/-- The check of another route does not show. -/
theorem Shows.checkOne_other (h : self.Shows name check held shown) {route : DataChannelDefinition}
    (hother : route.name ≠ name) (checkedAt : String) : (checkOne config checkedAt self route).Shows name check held shown := by
  unfold checkOne
  dsimp only
  split
  · refine ⟨?_, h.held, h.shown⟩
    rw [List.filter_append, h.inFlight]
    simp [hother]
  · exact (h.setHealth_other hother _).maybeDispatch_other hother _

/-- The check of a route is in flight, or has found it down. -/
theorem Shows.checkOne {route : DataChannelDefinition} (h : self.Shows route.name none held shown) (checkedAt : String) :
    (healthUrl config route ≠ none ∧ (HealthNode.checkOne config checkedAt self route).Shows route.name
        (some { name := route.name, prevStatus := held }) held shown) ∨
      healthUrl config route = none ∧ (HealthNode.checkOne config checkedAt self route).Shows route.name none (some .down)
        (shownAfter held shown .down) := by
  unfold HealthNode.checkOne
  dsimp only
  rw [h.held]
  split
  · rename_i url hurl
    refine .inl ⟨by simp [hurl], ?_, h.held, h.shown⟩
    rw [List.filter_append, h.inFlight]
    simp
  · rename_i hnone
    have hset := h.setHealth { healthStatus := .down, responseTimeMs := none, lastChecked := checkedAt }
    exact .inr ⟨hnone, hset.maybeDispatch held⟩

/-- Nor does a cycle over other routes. -/
theorem Shows.foldl_other {routes : List DataChannelDefinition} (hother : ∀ route ∈ routes, route.name ≠ name)
    (checkedAt : String) (h : self.Shows name check held shown) :
    (routes.foldl (HealthNode.checkOne config checkedAt) self).Shows name check held shown := by
  induction routes generalizing self with
  | nil => exact h
  | cons route rest ih =>
    exact ih (fun later hlater => hother later (by simp [hlater])) (h.checkOne_other (hother route (by simp)) checkedAt)

/-- What the start of a cycle leaves of one of its routes. -/
theorem Shows.checkAll {routes : List DataChannelDefinition} (hnames : (routes.map (·.name)).Nodup)
    {route : DataChannelDefinition} (hmem : route ∈ routes) (h : self.Shows route.name none held shown)
    (checkedAt : String) :
    (healthUrl config route ≠ none ∧ (HealthNode.checkAll config checkedAt self routes).Shows route.name
        (some { name := route.name, prevStatus := held }) held shown) ∨
      healthUrl config route = none ∧ (HealthNode.checkAll config checkedAt self routes).Shows route.name none
        (some .down) (shownAfter held shown .down) := by
  have hkept : Shows route.name none held shown
      { self with healthMap := fun name => if name ∈ routes.map (·.name) then self.healthMap name else none } := by
    refine ⟨h.inFlight, ?_, h.shown⟩
    rw [← h.held]
    simp only [heldStatus, if_pos (List.mem_map_of_mem hmem)]
  unfold HealthNode.checkAll
  dsimp only
  generalize HealthNode.mk _ _ _ _ = kept at hkept ⊢
  obtain ⟨early, late, rfl⟩ := List.append_of_mem hmem
  simp only [List.map_append, List.map_cons, List.nodup_append, List.nodup_cons, List.mem_map] at hnames
  obtain ⟨-, ⟨hlate, -⟩, hearly⟩ := hnames
  have hbefore : ∀ other ∈ early, other.name ≠ route.name := fun other hother =>
    hearly other.name ⟨other, hother, rfl⟩ route.name (by simp)
  have hafter : ∀ other ∈ late, other.name ≠ route.name := fun other hother hname => hlate ⟨other, hother, hname⟩
  rw [List.foldl_append, List.foldl_cons]
  obtain ⟨hurl, hchecking⟩ | ⟨hurl, hdown⟩ : (healthUrl config route ≠ none ∧ _) ∨ healthUrl config route = none ∧ _ :=
    (hkept.foldl_other hbefore checkedAt).checkOne checkedAt
  · exact .inl ⟨hurl, hchecking.foldl_other hafter checkedAt⟩
  · exact .inr ⟨hurl, hdown.foldl_other hafter checkedAt⟩

/-! ### The rest of a cycle -/

/-- Erasing one check leaves those of other routes. -/
private theorem filter_eraseP_of_disjoint {p q : HealthCheck → Bool} (h : ∀ check, q check = true → p check = false)
    (checks : List HealthCheck) : (checks.eraseP q).filter p = checks.filter p := by
  induction checks with
  | nil => rfl
  | cons check rest ih =>
    cases hq : q check with
    | true => rw [List.eraseP_cons_of_pos hq, List.filter_cons_of_neg (by simp [h check hq])]
    | false => rw [List.eraseP_cons_of_neg (by simp [hq]), List.filter_cons, List.filter_cons, ih]

/-- A cycle goes on: no route action and no health update of another caller is
    dispatched, and the timer starts no other cycle. -/
def GoesOn (self : HealthNode) : Event → Prop
  | .dispatch action => action.isRouteAction = false ∧ action.isHealthUpdate = false
  | .cycle _ => self.checks ≠ []
  | _ => True

/-- The answer that the check of a name gets. -/
def responseOf (name : String) : Event → Option (Option Int)
  | .fetched other response _ => if other = name then some response else none
  | _ => none

/-- A slot shows what its queued action had to show already. -/
theorem slot_shownStatus (self : HealthNode) (now : Int) (name : String) :
    (step config self (.slot now)).shownStatus name = self.shownStatus name := by
  simp only [step]
  split
  · rename_i action rest hqueue
    rw [shownStatus, shownStatus, hqueue, List.foldl_cons]
    exact congrArg (fun status => rest.foldl (Action.statusAfter name) status)
      (Bus.dispatch_statusOf config.bus self.bus now action name)
  · rfl

/-- What goes on elsewhere does not show. -/
theorem Shows.step_other {event : Event} (hgoes : self.GoesOn event) (hresponse : responseOf name event = none)
    (h : self.Shows name check held shown) : (step config self event).Shows name check held shown := by
  cases event with
  | dispatch action =>
    refine ⟨h.inFlight, h.held, ?_⟩
    rw [step, shownStatus_enqueue, ← h.shown]
    exact Action.statusAfter_idle hgoes.1 hgoes.2 _
  | slot now =>
    have hshown : (step config self (.slot now)).shownStatus name = some shown :=
      (slot_shownStatus self now name).trans h.shown
    refine ⟨?_, ?_, hshown⟩
    · rw [← h.inFlight, step]
      split <;> rfl
    · rw [← h.held, step]
      split <;> rfl
  | cycle checkedAt =>
    rw [step, if_neg hgoes]
    exact h
  | fetched other response checkedAt =>
    have hother : other ≠ name := by
      rintro rfl
      simp [responseOf] at hresponse
    simp only [step]
    split
    · rename_i settled hfound
      have hname : settled.name = other := by simpa using List.find?_some hfound
      have herased : Shows name check held shown
          { self with checks := self.checks.eraseP fun check => check.name == other } := by
        refine ⟨?_, h.held, h.shown⟩
        rw [← h.inFlight]
        refine filter_eraseP_of_disjoint (fun check hcheck => ?_) self.checks
        rw [beq_iff_eq.mp hcheck]
        exact beq_eq_false_iff_ne.mpr hother
      subst hname
      exact (herased.setHealth_other hother _).maybeDispatch_other hother _
    · exact h

/-- The check of the name settles. -/
theorem Shows.step_fetched {prevStatus : Option HealthStatus} (h : self.Shows name (some { name, prevStatus }) held shown)
    (response : Option Int) (checkedAt : String) :
    (step config self (.fetched name response checkedAt)).Shows name none (some (statusFound response))
      (shownAfter prevStatus shown (statusFound response)) := by
  have hfound : self.checks.find? (fun check => check.name == name) = some { name, prevStatus } := by
    rw [← List.head?_filter, h.inFlight]
    rfl
  have herased : Shows name none held shown { self with checks := self.checks.eraseP fun check => check.name == name } := by
    refine ⟨?_, h.held, h.shown⟩
    have herase := List.eraseP_filter (p := fun check : HealthCheck => check.name == name)
      (f := fun check => check.name == name) (l := self.checks)
    rw [h.inFlight] at herase
    simpa using herase.symm
  simp only [step, hfound]
  exact (herased.setHealth ⟨statusFound response, response, checkedAt⟩).maybeDispatch prevStatus

/-- A name whose check has settled shows the same until the end of the cycle. -/
theorem Shows.run {events : List Event} (hgoes : Runs.EachStep (step config) GoesOn self events)
    (h : self.Shows name none held shown) : (HealthNode.run config self events).Shows name none held shown := by
  refine Runs.run_induct (fun node event hevent hnode => ?_) hgoes h
  cases hresponse : responseOf name event with
  | none => exact hnode.step_other hevent hresponse
  | some response =>
    cases event with
    | fetched other response checkedAt =>
      have hnone : node.checks.find? (fun check => check.name == other) = none := by
        rw [← List.head?_filter]
        have hname : other = name := by
          by_contra hother
          simp [responseOf, hother] at hresponse
        rw [hname, hnode.inFlight]
        rfl
      simpa only [step, hnone] using hnode
    | _ => cases hresponse

/-- The status that a cycle finds for a name whose check it awaits. -/
def fetchedStatus (name : String) (events : List Event) : HealthStatus :=
  statusFound ((events.findSome? (responseOf name)).getD none)

/-- When the check of a route has completed, its result is shown. -/
theorem Shows.run_fetched {prevStatus : Option HealthStatus} {events : List Event}
    (hgoes : Runs.EachStep (step config) GoesOn self events) (hcompleted : (HealthNode.run config self events).checks = [])
    (h : self.Shows name (some { name, prevStatus }) held shown) :
    (HealthNode.run config self events).Shows name none (some (fetchedStatus name events))
      (shownAfter prevStatus shown (fetchedStatus name events)) := by
  induction events generalizing self with
  | nil =>
    have hinFlight := h.inFlight
    rw [show self.checks = [] from hcompleted] at hinFlight
    cases hinFlight
  | cons event rest ih =>
    obtain ⟨hevent, hrest⟩ := hgoes
    cases hresponse : responseOf name event with
    | none =>
      have hfound : fetchedStatus name (event :: rest) = fetchedStatus name rest := by
        simp only [fetchedStatus, List.findSome?_cons, hresponse]
      rw [hfound]
      exact ih hrest hcompleted (h.step_other hevent hresponse)
    | some response =>
      cases event with
      | fetched other answer checkedAt =>
        obtain ⟨rfl, rfl⟩ : other = name ∧ answer = response := by simpa [responseOf] using hresponse
        have hfound : fetchedStatus other (.fetched other answer checkedAt :: rest) = statusFound answer := by
          simp only [fetchedStatus, List.findSome?_cons, hresponse, Option.getD_some]
        rw [hfound]
        have hsettled := (h.step_fetched answer checkedAt).run hrest
        exact hsettled
      | _ => cases hresponse

/-- The status that a cycle finds for a route; `events` come after its start. -/
def found (config : HealthConfig) (route : DataChannelDefinition) (events : List Event) : HealthStatus :=
  if healthUrl config route = none then .down else fetchedStatus route.name events

/-- The table has a route of that name, with the status that is held. -/
def AgreesOn (self : HealthNode) (name : String) : Prop :=
  ∃ route ∈ self.bus.state.localNamed name, route.healthStatus = self.heldStatus name

/-- The checker and the table agree on a route if they have the same status. -/
theorem agreesOn_iff : self.AgreesOn name ↔ self.bus.state.statusOf name = some (self.heldStatus name) := by
  simp [AgreesOn, RouteTable.statusOf, Option.map_eq_some_iff]

/-- With no dispatch about local routes waiting, the table shows what it has. -/
theorem shownStatus_eq (hdelivered : ∀ action ∈ self.queue, action.isRouteAction = false ∧ action.isHealthUpdate = false)
    (name : String) : self.shownStatus name = self.bus.state.statusOf name := by
  have hidle (queue : List Action) (hqueue : ∀ action ∈ queue, action.isRouteAction = false ∧ action.isHealthUpdate = false)
      (status : Option (Option HealthStatus)) : queue.foldl (Action.statusAfter name) status = status := by
    induction queue generalizing status with
    | nil => rfl
    | cons action rest ih =>
      obtain ⟨hroute, hhealth⟩ := hqueue action (by simp)
      rw [List.foldl_cons, Action.statusAfter_idle hroute hhealth, ih fun other hother => hqueue other (by simp [hother])]
  exact hidle self.queue hdelivered _

/-- Health updates that wait do not take a route away. -/
theorem shownStatus_isSome (hacted : ∀ action ∈ self.queue, action.isRouteAction = false)
    (hinstalled : (self.bus.state.localNamed name).isSome = true) : (self.shownStatus name).isSome = true := by
  have hkept (queue : List Action) (hqueue : ∀ action ∈ queue, action.isRouteAction = false)
      (status : Option (Option HealthStatus)) (hstatus : status.isSome = true) :
      (queue.foldl (Action.statusAfter name) status).isSome = true := by
    induction queue generalizing status with
    | nil => exact hstatus
    | cons action rest ih =>
      refine ih (fun other hother => hqueue other (by simp [hother])) _ ?_
      have hroute := hqueue action (by simp)
      cases action with
      | localRouteCreate | localRouteDelete => cases hroute
      | localRouteHealthUpdate data =>
        simp only [Action.statusAfter]
        split <;> simpa using hstatus
      | _ => exact hstatus
  refine hkept self.queue hacted _ ?_
  rwa [RouteTable.statusOf, Option.isSome_map]

/-- What a cycle leaves of a route that it checks. -/
theorem shows_cycle (hkeyed : Rib.RouteTable.WellKeyed self.bus.state) (hidle : self.checks = [])
    {checkedAt : String} {after : List Event}
    (hgoes : Runs.EachStep (step config) GoesOn (step config self (.cycle checkedAt)) after)
    (hcompleted : (run config self (.cycle checkedAt :: after)).checks = []) {route : DataChannelDefinition}
    (hmem : route ∈ self.bus.state.localRoutes) (hshown : self.shownStatus route.name = some shown) :
    (run config self (.cycle checkedAt :: after)).Shows route.name none (some (found config route after))
      (shownAfter (self.heldStatus route.name) shown (found config route after)) := by
  have hbefore : self.Shows route.name none (self.heldStatus route.name) shown := ⟨by rw [hidle]; rfl, rfl, hshown⟩
  have hstart : step config self (.cycle checkedAt) = checkAll config checkedAt self self.bus.state.localRoutes := by
    rw [step, if_pos hidle]
  obtain ⟨hurl, hchecking⟩ | ⟨hurl, hdown⟩ : (healthUrl config route ≠ none ∧ _) ∨ healthUrl config route = none ∧ _ :=
    hbefore.checkAll hkeyed.localNames hmem checkedAt
  · rw [found, if_neg hurl]
    rw [← hstart] at hchecking
    exact hchecking.run_fetched hgoes hcompleted
  · rw [found, if_pos hurl]
    rw [← hstart] at hdown
    have hsettled := hdown.run hgoes
    exact hsettled

/-- Dispatching only queues an action. -/
@[simp] theorem maybeDispatch_bus (self : HealthNode) (name : String) (prevStatus : Option HealthStatus) :
    (self.maybeDispatch name prevStatus).bus = self.bus := by
  unfold maybeDispatch
  split
  · rfl
  · split <;> rfl

/-- A check cycle does not touch the table. -/
theorem checkAll_bus (checkedAt : String) (self : HealthNode) (routes : List DataChannelDefinition) :
    (checkAll config checkedAt self routes).bus = self.bus := by
  have hfold (node : HealthNode) : (routes.foldl (checkOne config checkedAt) node).bus = node.bus := by
    induction routes generalizing node with
    | nil => rfl
    | cons route rest ih =>
      rw [List.foldl_cons, ih, checkOne]
      split
      · rfl
      · rw [maybeDispatch_bus]
        rfl
  exact hfold _

/-- Every event keeps the keys distinct. -/
theorem step_wellKeyed (event : Event) (hkeyed : Rib.RouteTable.WellKeyed self.bus.state) :
    Rib.RouteTable.WellKeyed (step config self event).bus.state := by
  cases event with
  | dispatch => exact hkeyed
  | slot now =>
    simp only [step]
    split
    · exact Bus.dispatch_wellKeyed config.bus now _ hkeyed
    · exact hkeyed
  | cycle checkedAt =>
    simp only [step]
    split
    · rwa [checkAll_bus]
    · exact hkeyed
  | fetched name response checkedAt =>
    simp only [step]
    split
    · rwa [checked, maybeDispatch_bus]
    · exact hkeyed

/-- A check cycle that starts after the last route action has had its slot, with
    `after` up to where it has completed and all its dispatches have had theirs. -/
structure Cycle (config : HealthConfig) (node : HealthNode) (checkedAt : String) (after : List Event) : Prop where
  idle : node.checks = []
  acted : ∀ action ∈ node.queue, action.isRouteAction = false
  goesOn : Runs.EachStep (step config) GoesOn (step config node (.cycle checkedAt)) after
  completed : (run config node (.cycle checkedAt :: after)).checks = []
  delivered : ∀ action ∈ (run config node (.cycle checkedAt :: after)).queue,
    action.isRouteAction = false ∧ action.isHealthUpdate = false

variable {checkedAt : String} {before after : List Event}

/-- What is shown before a cycle for a route that it checks. -/
theorem Cycle.shownStatus (h : Cycle config self checkedAt after) (hkeyed : Rib.RouteTable.WellKeyed self.bus.state)
    {route : DataChannelDefinition} (hmem : route ∈ self.bus.state.localRoutes) :
    ∃ shown, self.shownStatus route.name = some shown := by
  refine Option.isSome_iff_exists.mp (shownStatus_isSome h.acted ?_)
  rw [localNamed_of_mem hkeyed hmem]
  rfl

/-- A route agrees after a cycle unless it was found as it was held before and shows
    something else. -/
theorem Cycle.agreesOn_iff (h : Cycle config self checkedAt after) (hkeyed : Rib.RouteTable.WellKeyed self.bus.state)
    {route : DataChannelDefinition} (hmem : route ∈ self.bus.state.localRoutes) :
    (run config self (.cycle checkedAt :: after)).AgreesOn route.name ↔
      (self.heldStatus route.name = some (found config route after) →
        self.shownStatus route.name = some (some (found config route after))) := by
  obtain ⟨shown, hshown⟩ := h.shownStatus hkeyed hmem
  have hafter := shows_cycle hkeyed h.idle h.goesOn h.completed hmem hshown
  rw [HealthNode.agreesOn_iff, ← shownStatus_eq h.delivered, hafter.shown, hafter.held, hshown, Option.some.injEq,
    Option.some.injEq, shownAfter]
  split
  · rename_i hsame
    exact ⟨fun hshown _ => hshown, fun hshown => hshown hsame⟩
  · rename_i hchanged
    exact ⟨fun _ hsame => absurd hsame hchanged, fun _ => rfl⟩

/-- So does every run. -/
theorem run_wellKeyed {start : HealthNode} (hkeyed : Rib.RouteTable.WellKeyed start.bus.state) (events : List Event) :
    Rib.RouteTable.WellKeyed (run config start events).bus.state :=
  Runs.run_invariant (I := fun node : HealthNode => Rib.RouteTable.WellKeyed node.bus.state)
    (fun _ event => step_wellKeyed event) hkeyed events

/-- After a cycle the table shows what the checker holds for each checked route exactly
    when no route that was found as it was held before shows something else. -/
theorem run_agrees_iff {start : HealthNode} (hkeyed : Rib.RouteTable.WellKeyed start.bus.state)
    (h : Cycle config (run config start before) checkedAt after) :
    (∀ route ∈ (run config start before).bus.state.localRoutes,
        (run config start (before ++ .cycle checkedAt :: after)).AgreesOn route.name) ↔
      ∀ route ∈ (run config start before).bus.state.localRoutes,
        (run config start before).heldStatus route.name = some (found config route after) →
          (run config start before).shownStatus route.name = some (some (found config route after)) := by
  have hrun : run config start (before ++ .cycle checkedAt :: after) =
      run config (run config start before) (.cycle checkedAt :: after) := Runs.run_append _ _ _ _
  rw [hrun]
  exact forall₂_congr fun route hmem => h.agreesOn_iff (run_wellKeyed hkeyed before) hmem

def books (endpoint : String) : DataChannelDefinition := { name := "books", protocol := .http, endpoint := some endpoint }

def booksConfig : HealthConfig where
  bus := { node := { name := "node-a" } }
  buildHealthUrl := fun endpoint => some (endpoint ++ "/health")

/-- `books` is created, found up in the cycle of 1, and shows it. -/
def booksUp : List Event :=
  [.dispatch (.localRouteCreate (books "http://books")), .slot 1, .cycle "1", .fetched "books" (some 12) "1", .slot 2]

/-- It is deleted and created anew, with another endpoint. -/
def booksRecreated : List Event :=
  [.dispatch (.localRouteDelete "books"), .slot 3, .dispatch (.localRouteCreate (books "http://books-2")), .slot 4]

def booksNode : HealthNode := { bus := { state := newRouteTable } }

/-- The new endpoint is found down. -/
theorem run_agrees_down :
    (run booksConfig booksNode
      (booksUp ++ booksRecreated ++ .cycle "5" :: [.fetched "books" none "5", .slot 6])).AgreesOn "books" := by
  have hcycle : Cycle booksConfig (run booksConfig booksNode (booksUp ++ booksRecreated)) "5"
      [.fetched "books" none "5", .slot 6] :=
    ⟨by decide, by decide, ⟨trivial, trivial, trivial⟩, by decide, by decide⟩
  refine (run_agrees_iff Rib.newRouteTable_wellKeyed hcycle).mpr ?_ (books "http://books-2") (by decide)
  decide

/-- The new endpoint is found up, as the old one was, and the table shows nothing. -/
theorem recreated_forgotten :
    Cycle booksConfig (run booksConfig booksNode (booksUp ++ booksRecreated)) "5"
        [.fetched "books" (some 9) "5", .slot 6] ∧
      books "http://books-2" ∈ (run booksConfig booksNode (booksUp ++ booksRecreated)).bus.state.localRoutes ∧
      ¬ (run booksConfig booksNode
        (booksUp ++ booksRecreated ++ .cycle "5" :: [.fetched "books" (some 9) "5", .slot 6])).AgreesOn "books" := by
  refine ⟨⟨by decide, by decide, ⟨trivial, trivial, trivial⟩, by decide, by decide⟩, by decide, ?_⟩
  rw [agreesOn_iff]
  decide

end HealthNode

end CatalystRouter
