import Mathlib.Data.List.Induction
import CatalystRouter.Journal.Replay

namespace CatalystRouter

/-- A route as its update made it, without the port and the stale mark that it was
    given since. -/
def InternalRoute.origin (r : InternalRoute) : InternalRoute := { r with envoyPort := none, isStale := false }

theorem InternalRoute.origin_eq_of_unstamped {r s : InternalRoute} (h : r.unstamped = s.unstamped) :
    r.origin = s.origin :=
  have heq := congrArg InternalRoute.origin h
  heq

/-- The policy returns the route of an entry, for the peer that sent the update. -/
def Granted (config : BusConfig) (state : RouteTable) (peerInfo : PeerInfo) (updates : List UpdateItem)
    (item : UpdateItem) : Prop :=
  ∃ policy ∈ config.routePolicy, ∃ peer ∈ state.peers.find? (hasName peerInfo.name),
    item.route ∈ policy.canReceive peer (updates.map (·.route))

/-- The route comes from an entry that the policy grants. -/
def Admits (config : BusConfig) (state : RouteTable) (peerInfo : PeerInfo) (updates : List UpdateItem)
    (r : InternalRoute) : Prop :=
  ∃ item ∈ updates, item.action = .add ∧ Granted config state peerInfo updates item ∧
    r.origin = (Rib.itemRoute peerInfo item).origin

namespace JournaledBus

/-- A route comes from an entry that the policy granted when its update was dispatched. -/
def AdmittedIn (config : BusConfig) (s : JournaledBus) (events : List Event)
    (r : InternalRoute) : Prop :=
  ∃ early now peerInfo updates late,
    events = early ++ .bus (.dispatch now (.internalProtocolUpdate peerInfo updates)) :: late ∧
      Admits config (serve config s early).bus.state peerInfo updates r

/-- An update that takes effect has no entry to install but those that the policy grants. -/
def GrantsAll (config : BusConfig) (s : JournaledBus) : Event → Prop
  | .bus (.dispatch now (.internalProtocolUpdate peerInfo updates)) =>
    Bus.takesEffect config s.bus.state now (.internalProtocolUpdate peerInfo updates) = true →
      ∀ item ∈ updates, item.action = .add → config.node.name ∉ item.nodePath →
        Granted config s.bus.state peerInfo updates item
  | _ => True

/-- Every route that planning the action may install comes from `A`. -/
def Installs (nodeId : String) (A : InternalRoute → Prop) (action : Action) : Prop :=
  ∀ peerInfo updates, action = .internalProtocolUpdate peerInfo updates → ∀ item ∈ updates, item.action = .add →
    nodeId ∉ item.nodePath → A (Rib.itemRoute peerInfo item).origin

section

variable {nodeId : String} {A B : InternalRoute → Prop}

/-- An update is kept as it is. -/
theorem Installs.kept {action : Action} (h : Installs nodeId A action) (kind : JournalKind) :
    Installs nodeId A (kind.kept action) := by
  cases kind with
  | inMemory => exact h
  | sqlite =>
    cases action with
    | localPeerUpdate data =>
      intro peerInfo updates hupdate
      cases hupdate
    | _ => exact h

/-- Where an action installs only routes of a kind, the table has only such routes. -/
theorem plan_origins {action : Action} (haction : Installs nodeId A action) {state : RouteTable}
    (hstate : ∀ r ∈ state.internalRoutes, A r.origin) (now : Int) :
    ∀ r ∈ (Rib.plan nodeId now action state).newState.internalRoutes, A r.origin := by
  intro r hr
  obtain hmem | ⟨peerInfo, old, -, hmem, rfl⟩ | ⟨peerInfo, updates, item, haccepted, hmem, hadd, hloop, rfl⟩ :=
    Rib.plan_provenance nodeId now action state (.inl hr)
  · exact hstate r hmem
  · exact hstate old hmem
  · exact haction peerInfo updates haccepted item hmem hadd hloop

/-- All that a journal can bring back comes from `A`. -/
structure Holds (nodeId : String) (A : InternalRoute → Prop) (journal : ActionLog) : Prop where
  snapshot : ∀ snapshot ∈ journal.snapshot, ∀ r ∈ snapshot.state.internalRoutes, A r.origin
  entries : ∀ entry ∈ journal.entries, Installs nodeId A entry.action

/-- So has the table that a replay of such actions gives. -/
theorem Holds.replayEntries {clock : ActionLogEntry → Int} {entries : List ActionLogEntry}
    (h : ∀ entry ∈ entries, Installs nodeId A entry.action) :
    ∀ {state : RouteTable}, (∀ r ∈ state.internalRoutes, A r.origin) →
      ∀ r ∈ (replayEntries nodeId clock state entries).internalRoutes, A r.origin := by
  induction entries with
  | nil => exact fun hstate => hstate
  | cons entry rest ih =>
    intro state hstate
    refine ih (fun later hlater => h later (List.mem_cons_of_mem _ hlater)) ?_
    rw [replayEntry_eq]
    exact plan_origins (h entry List.mem_cons_self) hstate (clock entry)

/-- So has one recovered from a journal of them. -/
theorem Holds.recover {journal : ActionLog} (h : Holds nodeId A journal) (clock : ActionLogEntry → Int) :
    ∀ r ∈ (recover nodeId clock journal).internalRoutes, A r.origin := by
  have hreplay (afterSeq : Int) : ∀ entry ∈ journal.replay afterSeq, Installs nodeId A entry.action :=
    fun entry hentry => h.entries entry (List.mem_filter.mp hentry).1
  unfold CatalystRouter.recover
  cases hsnapshot : journal.snapshot with
  | some snapshot => exact Holds.replayEntries (hreplay _) (h.snapshot snapshot hsnapshot)
  | none => exact Holds.replayEntries (hreplay _) fun r hr => absurd hr List.not_mem_nil

/-- Compaction keeps a journal of such actions. -/
theorem Holds.compact {journal : ActionLog} (h : Holds nodeId A journal) {state : RouteTable}
    (hstate : ∀ r ∈ state.internalRoutes, A r.origin) (minEntries tailSize : Nat) :
    Holds nodeId A (journal.compact minEntries tailSize state) := by
  obtain hskipped | ⟨-, htaken⟩ := journal.compact_cases minEntries tailSize state
  · rwa [hskipped]
  · rw [htaken]
    refine ⟨fun snapshot hsnapshot => ?_, fun entry hentry => h.entries entry (List.mem_filter.mp hentry).1⟩
    obtain rfl := Option.some.inj hsnapshot
    exact hstate

/-- One more such action leaves it one. -/
theorem Holds.append {journal : ActionLog} (h : Holds nodeId A journal) {action : Action}
    (haction : Installs nodeId A action) (now : Int) (writer : String) :
    Holds nodeId A (journal.append now action writer) := by
  refine ⟨h.snapshot, fun entry hentry => ?_⟩
  obtain hentry | hentry := List.mem_append.mp hentry
  · exact h.entries entry hentry
  · obtain rfl := List.mem_singleton.mp hentry
    exact haction

theorem Holds.mono {journal : ActionLog} (h : Holds nodeId A journal) (hAB : ∀ r, A r → B r) : Holds nodeId B journal :=
  ⟨fun snapshot hsnapshot r hr => hAB _ (h.snapshot snapshot hsnapshot r hr),
    fun entry hentry peerInfo updates haction item hitem hadd hloop =>
      hAB _ (h.entries entry hentry peerInfo updates haction item hitem hadd hloop)⟩

end

section

variable {config : BusConfig} {A : InternalRoute → Prop}

/-- A filtered update has no entries of its own. -/
theorem Installs.filtered {state : RouteTable} {action filteredAction : Action}
    (h : Installs config.node.name A action)
    (hfiltered : Bus.applyInboundPolicy config state action = some filteredAction) :
    Installs config.node.name A filteredAction := by
  obtain rfl | ⟨peerInfo, updates, filteredUpdates, rfl, rfl, hsublist⟩ := Bus.applyInboundPolicy_cases hfiltered
  · exact h
  · intro peerInfo' updates' haction item hitem
    obtain ⟨rfl, rfl⟩ := Action.internalProtocolUpdate.inj haction
    exact h _ _ rfl item (hsublist.mem hitem)

/-- A queue slot installs what its action may install, and only if it takes effect. -/
theorem dispatch_origins {bus : Bus} (hbus : ∀ r ∈ bus.state.internalRoutes, A r.origin) {now : Int} {action : Action}
    (haction : Bus.takesEffect config bus.state now action = true → Installs config.node.name A action) :
    ∀ r ∈ (Bus.dispatch config bus now action).bus.state.internalRoutes, A r.origin := by
  have hshape := Bus.dispatch_shape config bus now action
  have hcommits := Bus.dispatch_committed config bus now action
  generalize Bus.dispatch config bus now action = result at hshape hcommits ⊢
  cases hshape with
  | rejected | idle => exact hbus
  | committed filteredAction plan portAllocator hfiltered hchanged hports =>
    intro r hr
    have heffect : Bus.takesEffect config bus.state now action = true := hcommits.symm
    obtain ⟨planned, hplanned, hunstamped⟩ := (Bus.portsOnly_of_planPorts hports).exists_planned hr
    have hinstalls := (haction heffect).filtered hfiltered
    rw [← InternalRoute.origin_eq_of_unstamped hunstamped]
    exact plan_origins hinstalls hbus now planned hplanned

/-- What is in the table after an update was there before, up to its port, or it
    was made of an entry of the update. -/
theorem update_origins {bus : Bus} {now : Int} {peerInfo : PeerInfo} {updates : List UpdateItem} {r : InternalRoute}
    (h : r ∈ (Bus.dispatch config bus now (.internalProtocolUpdate peerInfo updates)).bus.state.internalRoutes) :
    (∃ old ∈ bus.state.internalRoutes, r.unstamped = old.unstamped) ∨
      (Bus.takesEffect config bus.state now (.internalProtocolUpdate peerInfo updates) = true ∧
        ∃ item ∈ updates, item.action = .add ∧ config.node.name ∉ item.nodePath ∧
          r.origin = (Rib.itemRoute peerInfo item).origin) := by
  have hshape := Bus.dispatch_shape config bus now (.internalProtocolUpdate peerInfo updates)
  have hcommits := Bus.dispatch_committed config bus now (.internalProtocolUpdate peerInfo updates)
  generalize Bus.dispatch config bus now (.internalProtocolUpdate peerInfo updates) = result at hshape hcommits h
  cases hshape with
  | rejected | idle => exact .inl ⟨r, h, rfl⟩
  | committed filteredAction plan portAllocator hfiltered hchanged hports =>
    have heffect : Bus.takesEffect config bus.state now (.internalProtocolUpdate peerInfo updates) = true :=
      hcommits.symm
    obtain ⟨planned, hplanned, hunstamped⟩ := (Bus.portsOnly_of_planPorts hports).exists_planned h
    have hinstalls : Installs config.node.name
        (fun r => ∃ item ∈ updates, item.action = .add ∧ config.node.name ∉ item.nodePath ∧
          r = (Rib.itemRoute peerInfo item).origin) (.internalProtocolUpdate peerInfo updates) := by
      intro peerInfo' updates' haction item hitem hadd hloop
      obtain ⟨rfl, rfl⟩ := Action.internalProtocolUpdate.inj haction
      exact ⟨item, hitem, hadd, hloop, rfl⟩
    have hfilteredInstalls := hinstalls.filtered hfiltered
    obtain hold | ⟨closed, old, hclose, hold, rfl⟩ |
      ⟨sender, filteredUpdates, item, hupdate, hitem, hadd, hloop, rfl⟩ :=
      Rib.plan_provenance config.node.name now filteredAction bus.state (.inl hplanned)
    · exact .inl ⟨planned, hold, hunstamped.symm⟩
    · obtain rfl | ⟨_, _, _, -, rfl, -⟩ := Bus.applyInboundPolicy_cases hfiltered <;> cases hclose
    · right
      rw [← InternalRoute.origin_eq_of_unstamped hunstamped]
      exact ⟨heffect, hfilteredInstalls sender filteredUpdates hupdate item hitem hadd hloop⟩

/-- Everything in the table, and everything that recovery can bring back, comes from `A`. -/
structure Sound (config : BusConfig) (A : InternalRoute → Prop) (s : JournaledBus) : Prop where
  installed : ∀ r ∈ s.bus.state.internalRoutes, A r.origin
  journal : Holds config.node.name A s.journal

/-- A new bus has no routes. -/
theorem sound_boot (portAllocator : Option PortAllocator) : Sound config A (boot portAllocator) where
  installed := fun _ hr => absurd hr List.not_mem_nil
  journal := ⟨fun _ hsnapshot => (by cases hsnapshot), fun _ hentry => absurd hentry List.not_mem_nil⟩

theorem Sound.mono {B : InternalRoute → Prop} {s : JournaledBus} (h : Sound config A s) (hAB : ∀ r, A r → B r) :
    Sound config B s := ⟨fun r hr => hAB _ (h.installed r hr), h.journal.mono hAB⟩

/-- One step keeps to `A`, if `A` has what the policy admits of the update that the
    step dispatches. -/
theorem handle_sound {s : JournaledBus} (h : Sound config A s) {event : Event} (hgrants : GrantsAll config s event)
    (hadmits : ∀ now peerInfo updates, event = .bus (.dispatch now (.internalProtocolUpdate peerInfo updates)) →
      ∀ r, Admits config s.bus.state peerInfo updates r → A r) :
    Sound config A (handle config s event) := by
  cases event with
  | restart clock portAllocator => exact ⟨h.journal.recover clock, h.journal⟩
  | compact minEntries tailSize => exact ⟨h.installed, h.journal.compact h.installed minEntries tailSize⟩
  | bus event =>
    cases event with
    | keepaliveSent peerName now => exact ⟨h.installed, h.journal⟩
    | dispatch now action =>
      have haction : Bus.takesEffect config s.bus.state now action = true → Installs config.node.name A action := by
        rintro heffect peerInfo updates rfl item hitem hadd hloop
        refine hadmits now peerInfo updates rfl _ ⟨item, hitem, hadd, ?_, rfl⟩
        exact hgrants heffect item hitem hadd hloop
      refine ⟨dispatch_origins h.installed haction, ?_⟩
      have hcommits := Bus.dispatch_committed config s.bus now action
      simp only [handle, step]
      cases hplan : (Bus.dispatch config s.bus now action).committed with
      | none => exact h.journal
      | some plan =>
        rw [hplan] at hcommits
        exact h.journal.append ((haction hcommits.symm).kept s.kind) now config.node.name

/-- Along a run whose updates are granted entirely, everything was admitted. -/
theorem serve_sound (portAllocator : Option PortAllocator) {events : List Event}
    (hgrants : Runs.EachStep (handle config) (GrantsAll config) (boot portAllocator) events) :
    Sound config (AdmittedIn config (boot portAllocator) events) (serve config (boot portAllocator) events) := by
  induction events using List.reverseRecOn with
  | nil => exact sound_boot portAllocator
  | append_singleton events event ih =>
    obtain ⟨hbefore, hevent, -⟩ := (Runs.eachStep_append _).mp hgrants
    have hlonger : ∀ r, AdmittedIn config (boot portAllocator) events r →
        AdmittedIn config (boot portAllocator) (events ++ [event]) r := by
      rintro r ⟨early, now, peerInfo, updates, late, rfl, hadmits⟩
      exact ⟨early, now, peerInfo, updates, late ++ [event], by simp, hadmits⟩
    rw [serve, Runs.run_concat]
    refine handle_sound ((ih hbefore).mono hlonger) hevent ?_
    rintro now peerInfo updates rfl r hadmits
    exact ⟨events, now, peerInfo, updates, [], rfl, hadmits⟩

end

/-- In a run whose updates are granted entirely when they take effect, whatever an
    update installs comes from an entry that the policy granted, and so does
    whatever a recovery from the journal brings back at any point. -/
theorem serve_policed {config : BusConfig} (portAllocator : Option PortAllocator)
    {events : List Event}
    (hgrants : Runs.EachStep (handle config) (GrantsAll config) (boot portAllocator) events) :
    (∀ early now peerInfo updates late,
        events = early ++ .bus (.dispatch now (.internalProtocolUpdate peerInfo updates)) :: late →
        ∀ r ∈ (handle config (serve config (boot portAllocator) early)
            (.bus (.dispatch now (.internalProtocolUpdate peerInfo updates)))).bus.state.internalRoutes,
          (∃ old ∈ (serve config (boot portAllocator) early).bus.state.internalRoutes, r.unstamped = old.unstamped) ∨
            Admits config (serve config (boot portAllocator) early).bus.state peerInfo updates r) ∧
      ∀ early late, events = early ++ late → ∀ clock,
        ∀ r ∈ (recover config.node.name clock (serve config (boot portAllocator) early).journal).internalRoutes,
          AdmittedIn config (boot portAllocator) early r := by
  constructor
  · intro early now peerInfo updates late hevents r hr
    have hevent := (Runs.eachStep_iff _).mp hgrants early _ late hevents
    obtain hold | ⟨heffect, item, hitem, hadd, hloop, horigin⟩ := update_origins hr
    · exact .inl hold
    · exact .inr ⟨item, hitem, hadd, hevent heffect item hitem hadd hloop, horigin⟩
  · rintro early late rfl clock r hr
    have hsound := serve_sound portAllocator ((Runs.eachStep_append _).mp hgrants).1
    obtain ⟨first, now, peerInfo, updates, rest, hsplit, item, hitem, hadd, hgranted, horigin⟩ :=
      hsound.journal.recover clock r hr
    exact ⟨first, now, peerInfo, updates, rest, hsplit, item, hitem, hadd, hgranted, horigin⟩

/-- A node that receives every route. -/
def openNode : BusConfig :=
  { node := { name := "node-a" }
    routePolicy := some { canSend := fun _ routes => routes, canReceive := fun _ routes => routes } }

/-- A node that receives the routes of its own region. -/
def regionalNode : BusConfig :=
  { node := { name := "node-a" }
    routePolicy := some {
      canSend := fun _ routes => routes
      canReceive := fun _ routes => routes.filter fun r => r.region = some "eu" } }

def alphaIn (originNode region : String) : UpdateItem :=
  { action := .add, route := { name := "svc-alpha", protocol := .http, region := some region }
    nodePath := ["node-b"], originNode }

def betaIn (region : String) : UpdateItem :=
  { action := .add, route := { name := "svc-beta", protocol := .http, region := some region }
    nodePath := ["node-b"], originNode := "node-b" }

/-- `node-b` advertises two services of one name, of different regions, and another one. -/
def regionalUpdate : List UpdateItem := [alphaIn "node-b" "eu", alphaIn "node-c" "us", betaIn "us"]

def regionalUpdates : List Event :=
  [.bus (.dispatch 1 (.localPeerCreate { name := "node-b", peerToken := some "token" })),
    .bus (.dispatch 2 (.internalProtocolUpdate { name := "node-b" } regionalUpdate))]

theorem policed_open :
    Rib.itemRoute { name := "node-b" } (betaIn "us") ∈
        (recover "node-a" (fun _ => 3) (serve openNode (boot none) regionalUpdates).journal).internalRoutes ∧
      AdmittedIn openNode (boot none) regionalUpdates (Rib.itemRoute { name := "node-b" } (betaIn "us")) := by
  have hgrants : Runs.EachStep (handle openNode) (GrantsAll openNode) (boot none) regionalUpdates := by
    refine ⟨trivial, fun _ item hitem _ _ => ?_, trivial⟩
    exact ⟨_, rfl, _, rfl, List.mem_map_of_mem hitem⟩
  have hrecovered : Rib.itemRoute { name := "node-b" } (betaIn "us") ∈
      (recover "node-a" (fun _ => 3) (serve openNode (boot none) regionalUpdates).journal).internalRoutes := by decide
  exact ⟨hrecovered, (serve_policed none hgrants).2 regionalUpdates [] (List.append_nil _).symm _ _ hrecovered⟩

/-- The regional policy admits routes of its region only. -/
theorem region_of_admits {state : RouteTable} {peerInfo : PeerInfo} {updates : List UpdateItem} {r : InternalRoute}
    (h : Admits regionalNode state peerInfo updates r) : r.region = some "eu" := by
  obtain ⟨item, -, -, ⟨policy, hpolicy, peer, -, hreceived⟩, horigin⟩ := h
  obtain rfl := Option.some.inj hpolicy
  have hregion : item.route.region = some "eu" := by simpa using (List.mem_filter.mp hreceived).2
  have hsame : r.region = item.route.region := congrArg (·.region) horigin
  exact hsame.trans hregion

/-- The foreign `svc-alpha` enters the table under the name of the other one, and
    recovery brings `svc-beta` in as well. -/
theorem policy_evaded :
    (∃ r ∈ (serve regionalNode (boot none) regionalUpdates).bus.state.internalRoutes,
      ¬ ((∃ old ∈ (serve regionalNode (boot none) (regionalUpdates.take 1)).bus.state.internalRoutes,
          r.unstamped = old.unstamped) ∨
        Admits regionalNode (serve regionalNode (boot none) (regionalUpdates.take 1)).bus.state { name := "node-b" }
          regionalUpdate r)) ∧
      ∃ r ∈ (recover "node-a" (fun _ => 3) (serve regionalNode (boot none) regionalUpdates).journal).internalRoutes,
        r.name = "svc-beta" ∧ ¬ AdmittedIn regionalNode (boot none) regionalUpdates r := by
  constructor
  · refine ⟨Rib.itemRoute { name := "node-b" } (alphaIn "node-c" "us"), by decide, ?_⟩
    rintro (⟨old, hold, -⟩ | hadmits)
    · have hnone : (serve regionalNode (boot none) (regionalUpdates.take 1)).bus.state.internalRoutes = [] := rfl
      rw [hnone] at hold
      exact List.not_mem_nil hold
    · exact absurd (region_of_admits hadmits) (by decide)
  · refine ⟨Rib.itemRoute { name := "node-b" } (betaIn "us"), by decide, rfl, ?_⟩
    rintro ⟨early, now, peerInfo, updates, late, -, hadmits⟩
    exact absurd (region_of_admits hadmits) (by decide)

end JournaledBus

end CatalystRouter
