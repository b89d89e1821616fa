import CatalystRouter.DataPlane.Model
import CatalystRouter.Envoy.SnapshotShape
import CatalystRouter.Orchestrator.PortExclusivity

namespace CatalystRouter

/-! The snapshots built from what a bus pushes. -/

theorem recover_wellKeyed {nodeId : String} {clock : ActionLogEntry → Int} {journal : ActionLog}
    (h : ∀ snapshot ∈ journal.snapshot, Rib.RouteTable.WellKeyed snapshot.state) :
    Rib.RouteTable.WellKeyed (recover nodeId clock journal) := by
  have hreplay (entries : List ActionLogEntry) : ∀ state : RouteTable, Rib.RouteTable.WellKeyed state →
      Rib.RouteTable.WellKeyed (replayEntries nodeId clock state entries) := by
    induction entries with
    | nil => exact fun _ hstate => hstate
    | cons entry rest ih =>
      intro state hstate
      apply ih
      rw [replayEntry_eq]
      exact Rib.plan_wellKeyed _ _ _ hstate
  unfold recover
  split
  · rename_i snapshot hsnapshot
    exact hreplay _ _ (h snapshot hsnapshot)
  · exact hreplay _ _ Rib.newRouteTable_wellKeyed

namespace Bus

variable {config : BusConfig} {bus : Bus} {now : Int} {action : Action}

/-- A slot pushes the state that it commits. -/
theorem eq_routeConfig_of_mem_pushes {routeConfig : EnvoyRouteConfig}
    (h : routeConfig ∈ (dispatch config bus now action).pushes) :
    routeConfig = (dispatch config bus now action).bus.routeConfig := by
  have hshape := dispatch_shape config bus now action
  generalize dispatch config bus now action = result at hshape h ⊢
  obtain ⟨effect, heffect, hpush⟩ := List.mem_filterMap.mp h
  cases hshape with
  | rejected => cases heffect
  | idle =>
    rw [routeConfig_of_keepalives heffect] at hpush
    cases hpush
  | committed filteredAction plan portAllocator =>
    simp only [handlePostCommit, List.flatten_append, List.mem_append] at heffect
    obtain ((hnotify | hgateway) | henvoy) | hkeepalive := heffect
    · rw [routeConfig_of_notify hnotify] at hpush
      cases hpush
    · split at hgateway
      · cases hgateway
      · rw [routeConfig_of_gateway hgateway] at hpush
        cases hpush
    · split at henvoy
      · cases henvoy
      · unfold handleEnvoySync at henvoy
        split at henvoy
        · obtain rfl : effect = _ := by simpa using henvoy
          exact (Option.some.inj hpush).symm
        · cases henvoy
    · rw [routeConfig_of_keepalives hkeepalive] at hpush
      cases hpush

/-- What a bus with an allocator keeps: distinct names, and no port held for two
    of the allocator's. -/
structure Pooled (pool : List Int) (bus : Bus) : Prop where
  keyed : Rib.RouteTable.WellKeyed bus.state
  allocator : bus.portAllocator ≠ none
  conserves : ∀ alloc ∈ bus.portAllocator, PortAllocator.Conserves pool alloc

theorem step_pooled {pool : List Int} (hpool : pool.Nodup) (event : Event) (h : Pooled pool bus) :
    Pooled pool (step config bus event) := by
  refine ⟨?_, ?_, step_conserves hpool event h.conserves⟩
  · cases event with
    | dispatch now action => exact dispatch_wellKeyed config now action h.keyed
    | keepaliveSent => exact h.keyed
  · cases event with
    | dispatch now action =>
      change (dispatch config bus now action).bus.portAllocator ≠ none
      obtain hsame | ⟨filteredAction, -, -, halloc⟩ := dispatch_planned config bus now action
      · rw [hsame]
        exact h.allocator
      · rw [halloc]
        exact planPorts_allocator h.allocator _
    | keepaliveSent => exact h.allocator

theorem recovered_pooled {nodeId : String} {clock : ActionLogEntry → Int} {journal : ActionLog}
    {portRange : List PortEntry} {existing : List (String × Int)} (hexisting : (existing.map Prod.fst).Nodup)
    (hjournal : ∀ snapshot ∈ journal.snapshot, Rib.RouteTable.WellKeyed snapshot.state) :
    Pooled (portPool portRange) (recovered nodeId clock journal portRange existing) := by
  refine ⟨recover_wellKeyed hjournal, by simp [recovered], fun alloc hmem => ?_⟩
  obtain rfl := Option.some.inj hmem
  exact createPortAllocator_conserves portRange existing hexisting

theorem run_pooled {pool : List Int} (hpool : pool.Nodup) (h : Pooled pool bus) (events : List Event) :
    Pooled pool (run config bus events) :=
  Runs.run_invariant (I := Pooled pool) (fun _ event hbus => step_pooled hpool event hbus) h events

/-- The ports of a pushed config are those that the bus holds, so no two names
    have one. -/
theorem portOf_inj {pool : List Int} (hpool : pool.Nodup) (h : Pooled pool bus) (server : EnvoyRpcServer)
    {name name' : String} {port : Int} (hport : (server.snapshotInput bus.routeConfig).portOf name = some port)
    (hport' : (server.snapshotInput bus.routeConfig).portOf name' = some port) : name = name' := by
  obtain ⟨alloc, halloc⟩ := Option.ne_none_iff_exists'.mp h.allocator
  have hheld {key : String} (hkey : (server.snapshotInput bus.routeConfig).portOf key = some port) :
      alloc.getPort key = some port := by
    have hlookup := (Envoy.portOf_eq_some_iff.mp hkey).1
    rw [EnvoyRpcServer.snapshotInput, routeConfig, halloc] at hlookup
    exact hlookup
  exact (h.conserves alloc halloc).getPort_inj hpool (hheld hport) (hheld hport')

/-- In every run, from an empty start or a journal, the snapshot of a pushed config
    is well formed exactly when no two of its routes that get a listener have the
    same allocator name. -/
theorem pushed_wellFormed_iff {nodeId : String} {clock : ActionLogEntry → Int} {journal : ActionLog}
    {portRange : List PortEntry} {existing : List (String × Int)} (hexisting : (existing.map Prod.fst).Nodup)
    (hjournal : ∀ snapshot ∈ journal.snapshot, Rib.RouteTable.WellKeyed snapshot.state) (events : List Event)
    {routeConfig : EnvoyRouteConfig}
    (hpush : routeConfig ∈
      (dispatch config (run config (recovered nodeId clock journal portRange existing) events) now action).pushes)
    (server : EnvoyRpcServer) {runtime : XdsRuntime} {snapshot : XdsSnapshot}
    (hbuilt : Envoy.buildXdsSnapshot runtime (server.snapshotInput routeConfig) = .ok snapshot) :
    snapshot.WellFormed ↔ (server.snapshotInput routeConfig).Separated := by
  have hpool : (portPool portRange).Nodup := eraseDups_nodup _
  have hrun : Pooled (portPool portRange) (run config (recovered nodeId clock journal portRange existing) events) :=
    run_pooled hpool (recovered_pooled hexisting hjournal) events
  have hcommitted : Pooled (portPool portRange)
      (dispatch config (run config (recovered nodeId clock journal portRange existing) events) now action).bus :=
    step_pooled hpool (.dispatch now action) hrun
  obtain rfl := eq_routeConfig_of_mem_pushes hpush
  exact Envoy.wellFormed_iff (Envoy.buildXdsSnapshot_columns hbuilt) hcommitted.keyed.localNames
    fun _ _ _ hport hport' => portOf_inj hpool hcommitted server hport hport'

/-- A node with an Envoy service. -/
def envoyNode : BusConfig := { node := { name := "node-a" }, envoyClient := true }

/-- A runtime whose every endpoint is a host name, on its default port. -/
def plainRuntime : XdsRuntime where
  parseUrl endpoint := .ok ⟨"http:", endpoint, none⟩
  isIP _ := false
  validChannel _ := true

/-- `node-b`, with its own Envoy, advertises `books` of the given origins. -/
def advertisesBooks (originNodes : List String) : Action :=
  .internalProtocolUpdate { name := "node-b", envoyAddress := some "envoy.node-b" } (originNodes.map fun originNode =>
    { action := .add, route := { name := "books", protocol := .http }, nodePath := ["node-b", originNode], originNode })

def freshNode : Bus := recovered "node-a" (fun _ => 0) {} [.range 10000 10009] []

theorem pushed_wellFormed_books :
    ∃ routeConfig ∈ (dispatch envoyNode (run envoyNode freshNode []) 1 (advertisesBooks ["node-d"])).pushes,
      ∃ snapshot, Envoy.buildXdsSnapshot plainRuntime (({} : EnvoyRpcServer).snapshotInput routeConfig) = .ok snapshot ∧
        (snapshot.WellFormed ↔ (({} : EnvoyRpcServer).snapshotInput routeConfig).Separated) := by
  have hpush : _ ∈ (dispatch envoyNode (run envoyNode freshNode []) 1 (advertisesBooks ["node-d"])).pushes :=
    List.mem_of_getElem? (i := 0) rfl
  refine ⟨_, hpush, _, rfl, ?_⟩
  exact pushed_wellFormed_iff (by simp) (by simp) [] hpush {} rfl

/-- `books` of two origins behind `node-b` gives Envoy two listeners and two
    clusters of one name, on one port, while the pool still has free ports. -/
theorem books_listed_twice :
    (∃ alloc ∈ (dispatch envoyNode (run envoyNode freshNode []) 1 (advertisesBooks ["node-d", "node-e"])).bus.portAllocator,
      alloc.available ≠ []) ∧
    ∃ routeConfig ∈ (dispatch envoyNode (run envoyNode freshNode []) 1 (advertisesBooks ["node-d", "node-e"])).pushes,
      ∃ snapshot, Envoy.buildXdsSnapshot plainRuntime (({} : EnvoyRpcServer).snapshotInput routeConfig) = .ok snapshot ∧
        ¬ snapshot.WellFormed := by
  refine ⟨⟨_, rfl, by decide⟩, _, List.mem_of_getElem? (i := 0) rfl, _, rfl, ?_⟩
  decide

/-- A local route called like the egress name of `books` listens on its port. -/
example :
    ∃ routeConfig ∈ (dispatch envoyNode (run envoyNode freshNode [.dispatch 1 (advertisesBooks ["node-d"])]) 2
        (.localRouteCreate { name := "egress_books_via_node-b", protocol := .http, endpoint := some "shadow" })).pushes,
      ∃ snapshot, Envoy.buildXdsSnapshot plainRuntime (({} : EnvoyRpcServer).snapshotInput routeConfig) = .ok snapshot ∧
        ¬ snapshot.WellFormed := by
  refine ⟨_, List.mem_of_getElem? (i := 0) rfl, _, rfl, ?_⟩
  decide

end Bus

end CatalystRouter
