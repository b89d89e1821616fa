import Mathlib.Data.List.Induction
import CatalystRouter.Gateway.Server
import CatalystRouter.Library.Lists

namespace CatalystRouter

/-! Runs of the gateway, in which config updates and the replies to the fetches of earlier ones come
    in any order: what is served, and where it is from. -/

variable {Data Schema Stitched : Type} {runtime : GraphqlRuntime Data Schema Stitched}

theorem Loading.subschema?_eq_some {loading : Loading Schema} {subschema : Subschema Schema} :
    loading.subschema? = some subschema ↔ loading = .loaded subschema := by
  cases loading <;> simp [Loading.subschema?]

/-- All tasks of a reload have a subschema exactly if all of them are loaded. -/
theorem mapM_subschema {tasks : List (LoadTask Schema)} {subschemas : List (Subschema Schema)} :
    (tasks.mapM fun task : LoadTask Schema => task.loading.subschema?) = some subschemas ↔
      tasks.map LoadTask.loading = subschemas.map Loading.loaded := by
  induction tasks generalizing subschemas with
  | nil => cases subschemas <;> simp
  | cons task rest ih =>
    simp only [List.mapM_cons, Option.bind_eq_bind, Option.bind_eq_some_iff, Loading.subschema?_eq_some, ih]
    cases subschemas with
    | nil => simp
    | cons subschema subschemas => simp

/-- A reload has its subschemas exactly when every service is loaded. -/
theorem loadAll_eq_ok {tasks : List (LoadTask Schema)} {subschemas : List (Subschema Schema)} :
    loadAll tasks = some (.ok subschemas) ↔ tasks.map LoadTask.loading = subschemas.map Loading.loaded := by
  unfold loadAll
  split
  · rename_i message hfailed
    obtain ⟨task, hmem, hfailure⟩ := List.exists_of_findSome?_eq_some hfailed
    refine iff_of_false (by simp) fun hloaded => ?_
    have hloading : task.loading ∈ subschemas.map Loading.loaded := hloaded ▸ List.mem_map_of_mem hmem
    obtain ⟨subschema, -, heq⟩ := List.mem_map.mp hloading
    rw [← heq] at hfailure
    cases hfailure
  · rw [Option.map_eq_some_iff]
    simpa using mapM_subschema

/-- A reload succeeds exactly if every service is loaded and the subschemas can be stitched. -/
theorem reloadOutcome_eq_ok {tasks : List (LoadTask Schema)} {yoga : YogaInstance Stitched} {newCount : Nat} :
    reloadOutcome runtime tasks = some (.ok (yoga, newCount)) ↔ ∃ subschemas,
      loadAll tasks = some (.ok subschemas) ∧ createYogaInstance runtime subschemas = .ok yoga ∧
      subschemas.length = newCount := by
  unfold reloadOutcome
  rw [Option.map_eq_some_iff]
  constructor
  · rintro ⟨result, hloaded, houtcome⟩
    cases result with
    | error message => cases houtcome
    | ok subschemas =>
      cases hyoga : createYogaInstance runtime subschemas with
      | error message => simp [hyoga, Bind.bind, Except.bind] at houtcome
      | ok made =>
        simp only [hyoga, Bind.bind, Except.bind, Pure.pure, Except.pure, Except.ok.injEq, Prod.mk.injEq] at houtcome
        exact ⟨subschemas, hloaded, by rw [hyoga, houtcome.1], houtcome.2⟩
  · rintro ⟨subschemas, hloaded, hyoga, rfl⟩
    exact ⟨.ok subschemas, hloaded, by simp [hyoga, Bind.bind, Except.bind, Pure.pure, Except.pure]⟩

/-- No load has failed, and one is not over. -/
def Reload.Waits (reload : Reload Schema) : Prop :=
  (∀ task ∈ reload.tasks, task.loading.failure? = none) ∧ ∃ task ∈ reload.tasks, task.loading.subschema? = none

/-- If some subschema is missing, there is a task without one. -/
theorem exists_of_mapM_eq_none {tasks : List (LoadTask Schema)}
    (h : (tasks.mapM fun task : LoadTask Schema => task.loading.subschema?) = none) :
    ∃ task ∈ tasks, task.loading.subschema? = none := by
  induction tasks with
  | nil => cases h
  | cons task rest ih =>
    cases hloading : task.loading.subschema? with
    | none => exact ⟨task, by simp, hloading⟩
    | some subschema =>
      have hrest : (rest.mapM fun task : LoadTask Schema => task.loading.subschema?) = none := by
        rw [List.mapM_cons, hloading] at h
        cases hrest : rest.mapM fun task : LoadTask Schema => task.loading.subschema? with
        | none => rfl
        | some subschemas => simp [hrest] at h
      obtain ⟨late, hmem, hlate⟩ := ih hrest
      exact ⟨late, List.mem_cons_of_mem _ hmem, hlate⟩

/-- A reload without an outcome waits for a reply. -/
theorem waits_of_loadAll {reload : Reload Schema} (h : loadAll reload.tasks = none) : reload.Waits := by
  unfold loadAll at h
  split at h
  · cases h
  · rename_i hfailed
    exact ⟨List.findSome?_eq_none_iff.mp hfailed, exists_of_mapM_eq_none (Option.map_eq_none_iff.mp h)⟩

/-- A loaded schema is final. -/
theorem LoadTask.onSdl_loaded {task : LoadTask Schema} {subschema : Subschema Schema}
    (hloaded : task.loading = .loaded subschema) (reply : Fetched SdlResult) : task.onSdl reply = task := by
  simp only [LoadTask.onSdl, hloaded]

/-- A task that is loaded ignores later replies. -/
theorem LoadTask.onIntrospection_loaded {task : LoadTask Schema} {subschema : Subschema Schema}
    (hloaded : task.loading = .loaded subschema) (reply : Fetched (IntrospectionResult Data)) :
    task.onIntrospection runtime reply = task := by
  simp only [LoadTask.onIntrospection, hloaded]

/-- A reply never changes the service that a task is about. -/
@[simp] theorem LoadTask.onSdl_service (task : LoadTask Schema) (reply : Fetched SdlResult) :
    (task.onSdl reply).service = task.service := by
  unfold LoadTask.onSdl
  split
  · split <;> rfl
  · rfl

@[simp] theorem LoadTask.onIntrospection_service (task : LoadTask Schema)
    (reply : Fetched (IntrospectionResult Data)) : (task.onIntrospection runtime reply).service = task.service := by
  unfold LoadTask.onIntrospection
  split
  · split <;> rfl
  · rfl

namespace GatewayGraphqlServer

/-! ### One step -/

/-- The call has been answered with success. -/
def Succeeded (self : GatewayGraphqlServer Schema Stitched) (i : Nat) : Prop := self.answer i = some (.ok ())

/-- A call has succeeded if its reload was answered without an error. -/
theorem succeeded_iff {self : GatewayGraphqlServer Schema Stitched} {i : Nat} :
    self.Succeeded i ↔ ∃ reload, self.calls[i]? = some (some reload) ∧ reload.answer = some (.ok ()) := by
  unfold Succeeded answer
  split <;> simp_all

/-- What is served and how many subgraphs are counted stays, and no call gets to succeed. -/
structure Kept (before after : GatewayGraphqlServer Schema Stitched) : Prop where
  yoga : after.yoga = before.yoga
  count : after.currentSubgraphCount = before.currentSubgraphCount
  succeeded : ∀ k, after.Succeeded k ↔ before.Succeeded k

/-- The `i`th call gets to succeed, and what it has loaded is served. -/
structure Installed (runtime : GraphqlRuntime Data Schema Stitched)
    (before after : GatewayGraphqlServer Schema Stitched) (i : Nat) : Prop where
  fresh : ¬ before.Succeeded i
  succeeded : ∀ k, after.Succeeded k ↔ k = i ∨ before.Succeeded k
  served : ∃ reload, after.calls[i]? = some (some reload) ∧
    reloadOutcome runtime reload.tasks = some (.ok (after.yoga, after.currentSubgraphCount))

/-- Nothing changes where nothing happens. -/
theorem Kept.refl (self : GatewayGraphqlServer Schema Stitched) : Kept self self := ⟨rfl, rfl, fun _ => Iff.rfl⟩

/-- An installation after a stretch that keeps the server is one over the whole stretch. -/
theorem Kept.installed {self middle self' : GatewayGraphqlServer Schema Stitched} {i : Nat} (h : Kept self middle)
    (hinstalled : Installed runtime middle self' i) : Installed runtime self self' i where
  fresh := fun hsucceeded => hinstalled.fresh ((h.succeeded i).mpr hsucceeded)
  succeeded := fun k => by rw [hinstalled.succeeded, h.succeeded]
  served := hinstalled.served

/-- Two stretches that keep the server keep it together. -/
theorem Kept.trans {self middle self' : GatewayGraphqlServer Schema Stitched} (h : Kept self middle)
    (h' : Kept middle self') : Kept self self' where
  yoga := h'.yoga.trans h.yoga
  count := h'.count.trans h.count
  succeeded := fun k => (h'.succeeded k).trans (h.succeeded k)

/-- Only a reload without an answer that comes to a schema installs one. -/
theorem continueReload_cases (runtime : GraphqlRuntime Data Schema Stitched)
    (self : GatewayGraphqlServer Schema Stitched) (i : Nat) (reload : Reload Schema) :
    (∃ answer, (answer = some (.ok ()) ↔ reload.answer = some (.ok ())) ∧ continueReload runtime self i reload =
        { self with calls := self.calls.set i (some { reload with answer }) }) ∨
    (reload.answer = none ∧ ∃ yoga newCount, reloadOutcome runtime reload.tasks = some (.ok (yoga, newCount)) ∧
        continueReload runtime self i reload =
          { yoga
            currentSubgraphCount := newCount
            activeSubgraphs := self.activeSubgraphs + (newCount - self.currentSubgraphCount)
            calls := self.calls.set i (some { reload with answer := some (.ok ()) }) }) := by
  unfold continueReload
  split
  · rename_i yoga newCount hanswer houtcome
    exact .inr ⟨hanswer, yoga, newCount, houtcome, rfl⟩
  · rename_i message hanswer houtcome
    exact .inl ⟨some (.error message), by simp [hanswer], rfl⟩
  · exact .inl ⟨reload.answer, Iff.rfl, rfl⟩

/-- The call is recorded, and its services are about to be loaded. -/
def called (runtime : GraphqlRuntime Data Schema Stitched) (self : GatewayGraphqlServer Schema Stitched)
    (config : Option (List ServiceConfig)) : GatewayGraphqlServer Schema Stitched :=
  { self with
    calls := self.calls ++ [config.map fun services => { tasks := services.map (LoadTask.start runtime) }] }

/-- After a call of `reload`, a reload was there before or is the one of the call. -/
theorem called_cases {self : GatewayGraphqlServer Schema Stitched} {config : Option (List ServiceConfig)} {i : Nat}
    {reload : Reload Schema} (hcall : (self.called runtime config).calls[i]? = some (some reload)) :
    self.calls[i]? = some (some reload) ∨
      (i = self.calls.length ∧ ∃ services, config = some services ∧
        reload = { tasks := services.map (LoadTask.start runtime) }) := by
  rcases Nat.lt_trichotomy i self.calls.length with hlt | rfl | hgt
  · left
    rwa [called, List.getElem?_append_left hlt] at hcall
  · right
    rw [called, List.getElem?_concat_length, Option.some.injEq, Option.map_eq_some_iff] at hcall
    obtain ⟨services, rfl, rfl⟩ := hcall
    exact ⟨rfl, services, rfl, rfl⟩
  · have hlt := (List.getElem?_eq_some_iff.mp hcall).1
    simp only [called, List.length_append, List.length_singleton] at hlt
    omega

/-- A call of `reload` leaves the earlier reloads as they are. -/
theorem called_of_call {self : GatewayGraphqlServer Schema Stitched} {config : Option (List ServiceConfig)} {i : Nat}
    {reload : Reload Schema} (hcall : self.calls[i]? = some (some reload)) :
    (self.called runtime config).calls[i]? = some (some reload) := by
  rw [called, List.getElem?_append_left (List.getElem?_eq_some_iff.mp hcall).1, hcall]

/-- A call of `reload` alone does not change what is served. -/
theorem called_kept (runtime : GraphqlRuntime Data Schema Stitched) (self : GatewayGraphqlServer Schema Stitched)
    (config : Option (List ServiceConfig)) : Kept self (self.called runtime config) := by
  refine ⟨rfl, rfl, fun k => ?_⟩
  rw [succeeded_iff, succeeded_iff]
  constructor
  · rintro ⟨reload, hcall, hsucceeded⟩
    rcases called_cases hcall with hold | ⟨-, services, -, rfl⟩
    · exact ⟨reload, hold, hsucceeded⟩
    · cases hsucceeded
  · rintro ⟨reload, hcall, hsucceeded⟩
    exact ⟨reload, called_of_call hcall, hsucceeded⟩

/-- A call of `reload` leaves the answers to earlier ones. -/
theorem called_answered (runtime : GraphqlRuntime Data Schema Stitched)
    {self : GatewayGraphqlServer Schema Stitched} {k : Nat} (hold : self.answer k ≠ none)
    (config : Option (List ServiceConfig)) :
    (self.called runtime config).answer k = self.answer k := by
  have hlt : k < self.calls.length := by
    by_contra hge
    simp [answer, List.getElem?_eq_none (Nat.le_of_not_lt hge)] at hold
  unfold answer
  rw [called, List.getElem?_append_left hlt]

section ContinueReload

variable {self : GatewayGraphqlServer Schema Stitched} {i : Nat} {old reload : Reload Schema}

/-- Replacing the reload of one call decides the success of this call only. -/
theorem succeeded_set (hcall : self.calls[i]? = some (some old)) {self' : GatewayGraphqlServer Schema Stitched}
    (hcalls : self'.calls = self.calls.set i (some reload)) (k : Nat) :
    self'.Succeeded k ↔ if k = i then reload.answer = some (.ok ()) else self.Succeeded k := by
  have hlt : i < self.calls.length := (List.getElem?_eq_some_iff.mp hcall).1
  rw [succeeded_iff, hcalls]
  split
  · rename_i hk
    subst hk
    simp [hlt]
  · rename_i hk
    rw [List.getElem?_set_ne (Ne.symm hk), succeeded_iff]

/-- Continuing a reload keeps the server as it is, or installs the result of this reload. -/
theorem continueReload_shape (hcall : self.calls[i]? = some (some old)) (hanswer : reload.answer = old.answer) :
    Kept self (continueReload runtime self i reload) ∨
      Installed runtime self (continueReload runtime self i reload) i := by
  have hold : self.Succeeded i ↔ old.answer = some (.ok ()) := by
    rw [succeeded_iff, hcall]
    simp
  obtain ⟨answer, hsame, hself⟩ | ⟨hnone, yoga, newCount, houtcome, hself⟩ := continueReload_cases runtime self i reload
  · rw [hself]
    refine .inl ⟨rfl, rfl, fun k => ?_⟩
    rw [succeeded_set hcall rfl]
    split
    · rename_i hk
      rw [hk, hold, ← hanswer, ← hsame]
    · exact Iff.rfl
  · rw [hself]
    refine .inr ⟨?_, fun k => ?_, ?_⟩
    · rw [hold, ← hanswer, hnone]
      exact nofun
    · rw [succeeded_set hcall rfl]
      by_cases hk : k = i <;> simp [hk]
    · have hlt : i < self.calls.length := (List.getElem?_eq_some_iff.mp hcall).1
      exact ⟨{ reload with answer := some (.ok ()) }, by simp [hlt], houtcome⟩

/-- A call that has succeeded is left as it is. -/
theorem continueReload_final (hcall : self.calls[i]? = some (some old)) (hanswer : reload.answer = old.answer)
    (hfinal : old.answer = some (.ok ()) → reload.tasks = old.tasks) {k : Nat} {done : Reload Schema}
    (hdone : self.calls[k]? = some (some done)) (hsucceeded : done.answer = some (.ok ())) :
    (continueReload runtime self i reload).calls[k]? = some (some done) := by
  have hlt : i < self.calls.length := (List.getElem?_eq_some_iff.mp hcall).1
  by_cases hk : k = i
  · subst hk
    obtain rfl : old = done := by simpa using hcall.symm.trans hdone
    obtain ⟨answer, hsame, hself⟩ | ⟨hnone, -⟩ := continueReload_cases runtime self k reload
    · have hreload : ({ reload with answer } : Reload Schema) = old := by
        rw [hanswer] at hsame
        rw [hfinal hsucceeded, hsame.mpr hsucceeded, ← hsucceeded]
      rw [hself, hreload]
      simp [hlt]
    · rw [hanswer, hsucceeded] at hnone
      cases hnone
  · obtain ⟨answer, -, hself⟩ | ⟨-, yoga, newCount, -, hself⟩ := continueReload_cases runtime self i reload
    · rw [hself]
      simpa [List.getElem?_set_ne (Ne.symm hk)] using hdone
    · rw [hself]
      simpa [List.getElem?_set_ne (Ne.symm hk)] using hdone

/-- A call that has been answered keeps its answer. -/
theorem continueReload_answered (hcall : self.calls[i]? = some (some old)) (hanswer : reload.answer = old.answer)
    {k : Nat} (hanswered : self.answer k ≠ none) : (continueReload runtime self i reload).answer k = self.answer k := by
  have hlt : i < self.calls.length := (List.getElem?_eq_some_iff.mp hcall).1
  have hset (next : Reload Schema) (hnext : k = i → next.answer = old.answer)
      {self' : GatewayGraphqlServer Schema Stitched} (hcalls : self'.calls = self.calls.set i (some next)) :
      self'.answer k = self.answer k := by
    unfold answer
    rw [hcalls]
    by_cases hk : k = i
    · subst hk
      rw [List.getElem?_set_self hlt, hcall]
      exact hnext rfl
    · rw [List.getElem?_set_ne (Ne.symm hk)]
  have hold : k = i → old.answer ≠ none := by
    rintro rfl hnone
    simp [answer, hcall, hnone] at hanswered
  unfold continueReload
  split
  · rename_i hnone _
    exact hset _ (fun hk => absurd (hanswer ▸ hnone) (hold hk)) rfl
  · rename_i hnone _
    exact hset _ (fun hk => absurd (hanswer ▸ hnone) (hold hk)) rfl
  · exact hset reload (fun _ => hanswer) rfl

end ContinueReload

/-! ### What a run keeps -/

/-- The configs of the calls of `updateConfig`, in order. -/
def Event.config? : Event Data → Option (Option (List ServiceConfig))
  | .updateConfig config => some config
  | _ => none

def configs (events : List (Event Data)) : List (Option (List ServiceConfig)) := events.filterMap Event.config?

/-- The replies so far explain where the load of a service is: both fetches of a loaded schema
    were answered, in this order. -/
def Explains (runtime : GraphqlRuntime Data Schema Stitched) (events : List (Event Data)) (i j : Nat)
    (task : LoadTask Schema) : Prop :=
  match task.loading with
  | .introspecting => ∃ sdl, .sdl i j sdl ∈ events ∧ validateServiceSdl task.service.url sdl = .ok ()
  | .loaded subschema => ∃ sdl introspection, [.sdl i j sdl, .introspection i j introspection].Sublist events ∧
      validateServiceSdl task.service.url sdl = .ok () ∧
      fetchRemoteSchema runtime introspection = .ok subschema.schema ∧
      subschema.url = task.service.url ∧ subschema.token = task.service.token
  | _ => True

/-- What every run keeps of the calls. -/
structure Consistent (runtime : GraphqlRuntime Data Schema Stitched) (events : List (Event Data))
    (server : GatewayGraphqlServer Schema Stitched) : Prop where
  recorded : server.calls.map (Option.map fun reload => reload.tasks.map LoadTask.service) = configs events
  explained : ∀ i reload, server.calls[i]? = some (some reload) → ∀ j task, reload.tasks[j]? = some task →
    Explains runtime events i j task
  loaded : ∀ (i : Nat) (reload : Reload Schema), server.calls[i]? = some (some reload) → reload.answer = some (.ok ()) →
    ∃ outcome, reloadOutcome runtime reload.tasks = some (.ok outcome)
  measured : server.activeSubgraphs = server.currentSubgraphCount

/-- What explains the state of a task still does after more events. -/
theorem Explains.append {events : List (Event Data)} {i j : Nat} {task : LoadTask Schema}
    (h : Explains runtime events i j task) (event : Event Data) : Explains runtime (events ++ [event]) i j task := by
  unfold Explains at h ⊢
  split
  · rename_i hloading
    rw [hloading] at h
    obtain ⟨sdl, hmem, hvalid⟩ := h
    exact ⟨sdl, List.mem_append_left _ hmem, hvalid⟩
  · rename_i subschema hloading
    rw [hloading] at h
    obtain ⟨sdl, introspection, hsublist, hrest⟩ := h
    exact ⟨sdl, introspection, hsublist.trans (List.sublist_append_left _ _), hrest⟩
  · trivial

/-- A task that has just been started needs no reply to explain it. -/
theorem explains_start (events : List (Event Data)) (i j : Nat) (service : ServiceConfig) :
    Explains runtime events i j (LoadTask.start runtime service) := by
  unfold Explains LoadTask.start
  dsimp only
  cases runtime.parseUrl service.url <;> trivial

/-- An SDL reply explains the state that it puts its task in. -/
theorem Explains.onSdl {events : List (Event Data)} {i j : Nat} {task : LoadTask Schema}
    (h : Explains runtime events i j task) (reply : Fetched SdlResult) :
    Explains runtime (events ++ [.sdl i j reply]) i j (task.onSdl reply) := by
  unfold LoadTask.onSdl
  split
  · split
    · rename_i hvalid
      exact ⟨reply, List.mem_append_right _ (List.mem_singleton_self _), hvalid⟩
    · trivial
  · exact h.append _

/-- So does the reply to an introspection query. -/
theorem Explains.onIntrospection {events : List (Event Data)} {i j : Nat} {task : LoadTask Schema}
    (h : Explains runtime events i j task) (reply : Fetched (IntrospectionResult Data)) :
    Explains runtime (events ++ [.introspection i j reply]) i j (task.onIntrospection runtime reply) := by
  unfold LoadTask.onIntrospection
  split
  · rename_i hloading
    unfold Explains at h
    rw [hloading] at h
    obtain ⟨sdl, hmem, hvalid⟩ := h
    split
    · rename_i schema hschema
      have hsublist : [Event.sdl i j sdl, .introspection i j reply].Sublist (events ++ [.introspection i j reply]) :=
        (List.singleton_sublist.mpr hmem).append (List.Sublist.refl _)
      exact ⟨sdl, reply, hsublist, hvalid, hschema, rfl, rfl⟩
    · trivial
  · exact h.append _

namespace Consistent

variable {events : List (Event Data)} {self : GatewayGraphqlServer Schema Stitched}

/-- A server without calls is consistent with an empty history. -/
theorem start (runtime : GraphqlRuntime Data Schema Stitched) :
    Consistent runtime [] ({} : GatewayGraphqlServer Schema Stitched) where
  recorded := rfl
  explained := nofun
  loaded := nofun
  measured := rfl

/-- The load of every service of a call that has succeeded is over. -/
theorem all_loaded (h : Consistent runtime events self) {i : Nat} {reload : Reload Schema}
    (hcall : self.calls[i]? = some (some reload)) (hsucceeded : reload.answer = some (.ok ())) :
    ∃ subschemas : List (Subschema Schema), reload.tasks.map LoadTask.loading = subschemas.map Loading.loaded := by
  obtain ⟨⟨yoga, newCount⟩, houtcome⟩ := h.loaded i reload hcall hsucceeded
  obtain ⟨subschemas, hloaded, -⟩ := reloadOutcome_eq_ok.mp houtcome
  exact ⟨subschemas, loadAll_eq_ok.mp hloaded⟩

/-- A reply by itself changes no call. -/
theorem reply (h : Consistent runtime events self) {event : Event Data} (hreply : event.config? = none) :
    Consistent runtime (events ++ [event]) self where
  recorded := by simpa [configs, hreply] using h.recorded
  explained := fun i reload hcall j task htask => (h.explained i reload hcall j task htask).append event
  loaded := h.loaded
  measured := h.measured

/-- A call is added that has no answer yet. -/
theorem call (h : Consistent runtime events self) (config : Option (List ServiceConfig)) :
    Consistent runtime (events ++ [.updateConfig config]) (self.called runtime config) where
  recorded := by
    simp only [called, List.map_append, h.recorded, configs, List.filterMap_append, Option.map_map, List.map_cons,
      List.map_nil, Function.comp_def, List.map_map]
    simp [Event.config?, LoadTask.start]
  explained := by
    intro i reload hcall j task htask
    rcases called_cases hcall with hold | ⟨-, services, rfl, rfl⟩
    · exact (h.explained i reload hold j task htask).append _
    · obtain ⟨service, -, rfl⟩ := List.mem_map.mp (List.mem_of_getElem? htask)
      exact explains_start _ _ _ service
  loaded := by
    intro i reload hcall hsucceeded
    rcases called_cases hcall with hold | ⟨-, services, rfl, rfl⟩
    · exact h.loaded i reload hold hsucceeded
    · cases hsucceeded
  measured := h.measured

/-- A call goes on with tasks that the replies explain. -/
theorem goes_on (h : Consistent runtime events self) {i : Nat} {old reload : Reload Schema}
    (hcall : self.calls[i]? = some (some old)) (hanswer : reload.answer = old.answer)
    (hservices : reload.tasks.map LoadTask.service = old.tasks.map LoadTask.service)
    (hfinal : old.answer = some (.ok ()) → reload.tasks = old.tasks)
    (hexplained : ∀ j task, reload.tasks[j]? = some task → Explains runtime events i j task) :
    Consistent runtime events (continueReload runtime self i reload) := by
  have hrecorded (next : Reload Schema) (hnext : next.tasks = reload.tasks) :
      (self.calls.set i (some next)).map (Option.map fun reload => reload.tasks.map LoadTask.service) =
        configs events := by
    have hold : (configs events)[i]? = some (some (next.tasks.map LoadTask.service)) := by
      rw [← h.recorded, List.getElem?_map, hcall, hnext, hservices]
      rfl
    obtain ⟨hlt, hold⟩ := List.getElem?_eq_some_iff.mp hold
    rw [List.map_set, h.recorded, Option.map_some, ← hold, List.set_getElem_self]
  obtain ⟨answer, hsame, hself⟩ | ⟨-, yoga, newCount, houtcome, hself⟩ := continueReload_cases runtime self i reload
  · rw [hself]
    refine ⟨hrecorded _ rfl, fun k done hdone => ?_, fun k done hdone hsucceeded => ?_, h.measured⟩
    · rcases Lists.getElem?_set_cases hdone with ⟨rfl, hnext⟩ | ⟨-, hold⟩
      · obtain rfl := Option.some.inj hnext
        exact hexplained
      · exact h.explained k done hold
    · rcases Lists.getElem?_set_cases hdone with ⟨rfl, hnext⟩ | ⟨-, hold⟩
      · obtain rfl := Option.some.inj hnext
        have hold : old.answer = some (.ok ()) := hanswer ▸ hsame.mp hsucceeded
        exact (hfinal hold) ▸ h.loaded k old hcall hold
      · exact h.loaded k done hold hsucceeded
  · rw [hself]
    refine ⟨hrecorded _ rfl, fun k done hdone => ?_, fun k done hdone hsucceeded => ?_, ?_⟩
    · rcases Lists.getElem?_set_cases hdone with ⟨rfl, hnext⟩ | ⟨-, hold⟩
      · obtain rfl := Option.some.inj hnext
        exact hexplained
      · exact h.explained k done hold
    · rcases Lists.getElem?_set_cases hdone with ⟨rfl, hnext⟩ | ⟨-, hold⟩
      · obtain rfl := Option.some.inj hnext
        exact ⟨_, houtcome⟩
      · exact h.loaded k done hold hsucceeded
    · have hmeasured := h.measured
      dsimp only
      omega

end Consistent

/-! ### One event -/

/-- What a step does: the calls stay consistent, at most one gets to succeed, those that have
    succeeded are left as they are, and no answer is taken back. -/
structure Advances (runtime : GraphqlRuntime Data Schema Stitched) (events : List (Event Data))
    (before after : GatewayGraphqlServer Schema Stitched) : Prop where
  consistent : Consistent runtime events after
  shape : Kept before after ∨ ∃ i, Installed runtime before after i
  final : ∀ (k : Nat) (done : Reload Schema), before.calls[k]? = some (some done) → done.answer = some (.ok ()) →
    after.calls[k]? = some (some done)
  answered : ∀ k, before.answer k ≠ none → after.answer k = before.answer k

section Step

variable {events : List (Event Data)} {self : GatewayGraphqlServer Schema Stitched}

/-- Continuing a reload that the events explain keeps the server consistent with them. -/
theorem continueReload_advances (h : Consistent runtime events self) {i : Nat} {old reload : Reload Schema}
    (hcall : self.calls[i]? = some (some old)) (hanswer : reload.answer = old.answer)
    (hservices : reload.tasks.map LoadTask.service = old.tasks.map LoadTask.service)
    (hfinal : old.answer = some (.ok ()) → reload.tasks = old.tasks)
    (hexplained : ∀ j task, reload.tasks[j]? = some task → Explains runtime events i j task) :
    Advances runtime events self (continueReload runtime self i reload) where
  consistent := h.goes_on hcall hanswer hservices hfinal hexplained
  shape := (continueReload_shape hcall hanswer).imp_right fun hinstalled => ⟨i, hinstalled⟩
  final := fun _ _ hdone hsucceeded => continueReload_final hcall hanswer hfinal hdone hsucceeded
  answered := fun _ hanswered => continueReload_answered hcall hanswer hanswered

/-- Updates of a task leave the services of a reload. -/
theorem map_service_modify {update : LoadTask Schema → LoadTask Schema}
    (hservice : ∀ task, (update task).service = task.service) (tasks : List (LoadTask Schema)) (j : Nat) :
    (tasks.modify j update).map LoadTask.service = tasks.map LoadTask.service := by
  refine List.ext_getElem? fun k => ?_
  simp only [List.getElem?_map, List.getElem?_modify]
  cases tasks[k]? with
  | none => rfl
  | some task => by_cases hk : j = k <;> simp [hk, hservice]

/-- Where everything is loaded, no reply changes anything. -/
theorem modify_eq_self_of_loaded {update : LoadTask Schema → LoadTask Schema}
    (hloaded : ∀ task subschema, task.loading = .loaded subschema → update task = task)
    {tasks : List (LoadTask Schema)} {subschemas : List (Subschema Schema)}
    (hall : tasks.map LoadTask.loading = subschemas.map Loading.loaded) (j : Nat) : tasks.modify j update = tasks := by
  refine List.ext_getElem? fun k => ?_
  rw [List.getElem?_modify]
  cases htask : tasks[k]? with
  | none => rfl
  | some task =>
    have hmem : task.loading ∈ subschemas.map Loading.loaded :=
      hall ▸ List.mem_map_of_mem (List.mem_of_getElem? htask)
    obtain ⟨subschema, -, hloading⟩ := List.mem_map.mp hmem
    simp [hloaded task subschema hloading.symm]

/-- A reply is handled by the load it is for, which stays that of its service. -/
theorem updateTask_advances (h : Consistent runtime events self) {i j : Nat} {event : Event Data}
    (hreply : event.config? = none) {update : LoadTask Schema → LoadTask Schema}
    (hservice : ∀ task, (update task).service = task.service)
    (hloaded : ∀ task subschema, task.loading = .loaded subschema → update task = task)
    (hexplains : ∀ task, Explains runtime events i j task → Explains runtime (events ++ [event]) i j (update task)) :
    Advances runtime (events ++ [event]) self (updateTask runtime self i j update) := by
  have hnext := h.reply hreply
  unfold updateTask
  split
  · rename_i reload hcall
    refine continueReload_advances hnext hcall rfl (map_service_modify hservice _ j) (fun hsucceeded => ?_)
      fun k task htask => ?_
    · obtain ⟨subschemas, hall⟩ := h.all_loaded hcall hsucceeded
      exact modify_eq_self_of_loaded hloaded hall j
    · rw [List.getElem?_modify] at htask
      obtain ⟨task, hold, rfl⟩ := Option.map_eq_some_iff.mp htask
      have hexplained := h.explained i reload hcall k task hold
      split
      · rename_i hk
        subst hk
        exact hexplains task hexplained
      · exact hexplained.append event
  · exact ⟨hnext, .inl (Kept.refl self), fun _ _ hdone _ => hdone, fun _ _ => rfl⟩

/-- Every event keeps the server consistent with the history. -/
theorem step_advances (h : Consistent runtime events self) (event : Event Data) :
    Advances runtime (events ++ [event]) self (step runtime self event) := by
  cases event with
  | updateConfig config =>
    have hcalled := h.call config
    have hkept := called_kept runtime self config
    cases config with
    | none =>
      have hstep : step runtime self (.updateConfig none) = self.called runtime none := rfl
      rw [hstep]
      exact ⟨hcalled, .inl hkept, fun _ _ hdone _ => called_of_call hdone,
        fun _ hold => called_answered runtime hold none⟩
    | some services =>
      have hcall : (self.called runtime (some services)).calls[self.calls.length]? =
          some (some { tasks := services.map (LoadTask.start runtime) }) := List.getElem?_concat_length
      have hadvances := continueReload_advances hcalled hcall rfl rfl (fun _ => rfl) (hcalled.explained _ _ hcall)
      refine ⟨hadvances.consistent, ?_, fun k done hdone => hadvances.final k done (called_of_call hdone), ?_⟩
      · exact hadvances.shape.imp hkept.trans fun ⟨i, hinstalled⟩ => ⟨i, hkept.installed hinstalled⟩
      · intro k hold
        have hkeeps := called_answered runtime hold (some services)
        exact (hadvances.answered k (by rwa [hkeeps])).trans hkeeps
  | sdl i j reply =>
    exact updateTask_advances h rfl (fun task => task.onSdl_service reply)
      (fun _ _ hloaded => LoadTask.onSdl_loaded hloaded reply) fun _ hexplained => hexplained.onSdl reply
  | introspection i j reply =>
    exact updateTask_advances h rfl (fun task => task.onIntrospection_service reply)
      (fun _ _ hloaded => LoadTask.onIntrospection_loaded hloaded reply)
      fun _ hexplained => hexplained.onIntrospection reply

end Step

/-- A call answers as soon as its load is over. -/
def Settled (self : GatewayGraphqlServer Schema Stitched) : Prop :=
  ∀ (i : Nat) (reload : Reload Schema), self.calls[i]? = some (some reload) → reload.answer = none →
    loadAll reload.tasks = none

/-- If all other reloads are settled, all are once this one has been continued. -/
theorem continueReload_settled {self : GatewayGraphqlServer Schema Stitched} {i : Nat} {reload : Reload Schema}
    (hothers : ∀ (k : Nat) (other : Reload Schema), k ≠ i → self.calls[k]? = some (some other) → other.answer = none →
      loadAll other.tasks = none) : (continueReload runtime self i reload).Settled := by
  have hset (next : Reload Schema) (hnext : next.answer = none → loadAll next.tasks = none) (k : Nat)
      (other : Reload Schema) (hcall : (self.calls.set i (some next))[k]? = some (some other))
      (hnone : other.answer = none) : loadAll other.tasks = none := by
    rcases Lists.getElem?_set_cases hcall with ⟨rfl, hfound⟩ | ⟨hk, hold⟩
    · obtain rfl := Option.some.inj hfound
      exact hnext hnone
    · exact hothers k other hk hold hnone
  unfold continueReload
  split
  · exact hset _ nofun
  · exact hset _ nofun
  · rename_i hinstall hfail
    refine hset _ fun hanswer => ?_
    cases houtcome : reloadOutcome runtime reload.tasks with
    | none => exact Option.map_eq_none_iff.mp houtcome
    | some outcome =>
      cases outcome with
      | ok outcome => exact (hinstall _ _ hanswer houtcome).elim
      | error message => exact (hfail _ hanswer houtcome).elim

/-- After every event no reload is left unanswered that could be answered. -/
theorem step_settled {self : GatewayGraphqlServer Schema Stitched} (h : self.Settled) (event : Event Data) :
    (step runtime self event).Settled := by
  have hupdate (i j : Nat) (update : LoadTask Schema → LoadTask Schema) :
      (updateTask runtime self i j update).Settled := by
    unfold updateTask
    split
    · exact continueReload_settled fun k other _ hcall => h k other hcall
    · exact h
  cases event with
  | updateConfig config =>
    have hothers (k : Nat) (other : Reload Schema) (hk : k ≠ self.calls.length)
        (hcall : (self.called runtime config).calls[k]? = some (some other)) (hnone : other.answer = none) :
        loadAll other.tasks = none := by
      rcases called_cases hcall with hold | ⟨rfl, -⟩
      · exact h k other hold hnone
      · exact absurd rfl hk
    cases config with
    | none =>
      have hstep : step runtime self (.updateConfig none) = self.called runtime none := rfl
      rw [hstep]
      intro k other hcall hnone
      rcases called_cases hcall with hold | ⟨-, services, hconfig, -⟩
      · exact h k other hold hnone
      · cases hconfig
    | some services => exact continueReload_settled hothers
  | sdl i j reply => exact hupdate i j _
  | introspection i j reply => exact hupdate i j _

/-! ### What is served -/

/-- What the gateway serves of a config: the schemas of its services, each of which the replies to
    its two fetches have brought. -/
def Fetches (runtime : GraphqlRuntime Data Schema Stitched) (events : List (Event Data)) (i : Nat)
    (services : List ServiceConfig) (subschemas : List (Subschema Schema)) : Prop :=
  subschemas.length = services.length ∧ ∀ j service subschema, services[j]? = some service →
    subschemas[j]? = some subschema → ∃ sdl introspection,
      [.sdl i j sdl, .introspection i j introspection].Sublist events ∧
      validateServiceSdl service.url sdl = .ok () ∧
      fetchRemoteSchema runtime introspection = .ok subschema.schema ∧
      subschema.url = service.url ∧ subschema.token = service.token

/-- The `i`th call has succeeded, and no call after it: all that have succeeded did so before. -/
def LastToSucceed (runtime : GraphqlRuntime Data Schema Stitched) (events : List (Event Data)) (i : Nat) : Prop :=
  ∃ early event late, events = early ++ event :: late ∧ ¬ (run runtime {} early).Succeeded i ∧
    ∀ k, (run runtime {} events).Succeeded k ↔ k = i ∨ (run runtime {} early).Succeeded k

/-- After any events the server is consistent with them. -/
theorem run_consistent (runtime : GraphqlRuntime Data Schema Stitched) (events : List (Event Data)) :
    Consistent runtime events (run runtime {} events) := by
  induction events using List.reverseRecOn with
  | nil => exact Consistent.start runtime
  | append_singleton events event ih =>
    rw [run, Runs.run_concat]
    exact (step_advances ih event).consistent

/-- After any events every reload whose services have all replied is answered. -/
theorem run_settled (events : List (Event Data)) : (run runtime {} events).Settled := by
  induction events using List.reverseRecOn with
  | nil => exact fun i reload hcall => nomatch hcall
  | append_singleton events event ih =>
    rw [run, Runs.run_concat]
    exact step_settled ih event

/-- The subschemas of a reload that is loaded are what its services replied to the requests of
    this reload. -/
theorem Consistent.fetches {events : List (Event Data)} {self : GatewayGraphqlServer Schema Stitched}
    (h : Consistent runtime events self) {i : Nat} {reload : Reload Schema}
    (hcall : self.calls[i]? = some (some reload)) {subschemas : List (Subschema Schema)}
    (hloaded : loadAll reload.tasks = some (.ok subschemas)) :
    (configs events)[i]? = some (some (reload.tasks.map LoadTask.service)) ∧
      Fetches runtime events i (reload.tasks.map LoadTask.service) subschemas := by
  have hall := loadAll_eq_ok.mp hloaded
  refine ⟨?_, ?_, fun j service subschema hservice hsubschema => ?_⟩
  · rw [← h.recorded, List.getElem?_map, hcall]
    rfl
  · simpa using (congrArg List.length hall).symm
  · rw [List.getElem?_map] at hservice
    obtain ⟨task, htask, rfl⟩ := Option.map_eq_some_iff.mp hservice
    have hloading : task.loading = .loaded subschema := by
      have hentry := congrArg (·[j]?) hall
      simpa [htask, hsubschema] using hentry
    have hexplained := h.explained i reload hcall j task htask
    unfold Explains at hexplained
    rwa [hloading] at hexplained

/-- A schema is served since the last call that has succeeded. -/
theorem run_installed (events : List (Event Data)) :
    ((∀ k, ¬ (run runtime {} events).Succeeded k) ∧ (run runtime {} events).yoga = .waiting ∧
        (run runtime {} events).currentSubgraphCount = 0) ∨
      ∃ i reload, LastToSucceed runtime events i ∧ (run runtime {} events).calls[i]? = some (some reload) ∧
        reload.answer = some (.ok ()) ∧ reloadOutcome runtime reload.tasks =
          some (.ok ((run runtime {} events).yoga, (run runtime {} events).currentSubgraphCount)) := by
  induction events using List.reverseRecOn with
  | nil =>
    refine .inl ⟨fun k hsucceeded => ?_, rfl, rfl⟩
    obtain ⟨reload, hcall, -⟩ := succeeded_iff.mp hsucceeded
    cases hcall
  | append_singleton events event ih =>
    have hadvances := step_advances (run_consistent runtime events) event
    have hrun : run runtime {} (events ++ [event]) = step runtime (run runtime {} events) event := Runs.run_concat ..
    rw [hrun]
    rcases hadvances.shape with hkept | ⟨i, hinstalled⟩
    · rw [hkept.yoga, hkept.count]
      rcases ih with ⟨hnone, hyoga, hcount⟩ | ⟨i, reload, hlast, hcall, hsucceeded, houtcome⟩
      · exact .inl ⟨fun k => mt (hkept.succeeded k).mp (hnone k), hyoga, hcount⟩
      · obtain ⟨early, installing, late, rfl, hfresh, hothers⟩ := hlast
        refine .inr ⟨i, reload, ?_, hadvances.final i reload hcall hsucceeded, hsucceeded, houtcome⟩
        refine ⟨early, installing, late ++ [event], by simp, hfresh, fun k => ?_⟩
        rw [hrun, hkept.succeeded, hothers]
    · obtain ⟨reload, hcall, houtcome⟩ := hinstalled.served
      have hsucceeded := succeeded_iff.mp ((hinstalled.succeeded i).mpr (.inl rfl))
      refine .inr ⟨i, reload, ⟨events, event, [], rfl, hinstalled.fresh, fun k => ?_⟩, hcall, ?_, houtcome⟩
      · rw [hrun, hinstalled.succeeded]
      · obtain ⟨done, hdone, hanswer⟩ := hsucceeded
        obtain rfl : reload = done := by simpa using hcall.symm.trans hdone
        exact hanswer

/-- Whatever the order of the updates and of the replies, what is served is of one config: the one
    whose load was the last to succeed. -/
theorem run_serves (runtime : GraphqlRuntime Data Schema Stitched) (events : List (Event Data)) :
    (∀ (i : Nat) (reload : Reload Schema), (run runtime {} events).calls[i]? = some (some reload) →
        reload.answer = none → reload.Waits) ∧
      (run runtime {} events).activeSubgraphs = (run runtime {} events).currentSubgraphCount ∧
      (((∀ k, ¬ (run runtime {} events).Succeeded k) ∧ (run runtime {} events).yoga = .waiting ∧
          (run runtime {} events).currentSubgraphCount = 0) ∨
        ∃ i services subschemas, LastToSucceed runtime events i ∧ (configs events)[i]? = some (some services) ∧
          Fetches runtime events i services subschemas ∧
          createYogaInstance runtime subschemas = .ok (run runtime {} events).yoga ∧
          (run runtime {} events).currentSubgraphCount = services.length) := by
  have hconsistent := run_consistent runtime events
  refine ⟨fun i reload hcall hnone => waits_of_loadAll (run_settled events i reload hcall hnone), hconsistent.measured,
    (run_installed events).imp_right ?_⟩
  rintro ⟨i, reload, hlast, hcall, -, houtcome⟩
  obtain ⟨subschemas, hloaded, hyoga, hcount⟩ := reloadOutcome_eq_ok.mp houtcome
  obtain ⟨hconfig, hfetches⟩ := hconsistent.fetches hcall hloaded
  exact ⟨i, _, subschemas, hlast, hconfig, hfetches, hyoga, hcount.symm.trans hfetches.1⟩

/-! ### Calls that come one at a time -/

/-- Every call comes after the answers to those before it. -/
def OneAtATime (runtime : GraphqlRuntime Data Schema Stitched) (events : List (Event Data)) : Prop :=
  Runs.EachStep (step runtime) (fun self event => event.config? ≠ none → ∀ i < self.calls.length, self.answer i ≠ none)
    {} events

/-- Reloads come one at a time if they did so before and the last one comes when all are
    answered. -/
theorem oneAtATime_concat {events : List (Event Data)} {event : Event Data} :
    OneAtATime runtime (events ++ [event]) ↔ OneAtATime runtime events ∧
      (event.config? ≠ none → ∀ i < (configs events).length, (run runtime {} events).answer i ≠ none) := by
  unfold OneAtATime
  rw [Runs.eachStep_append, Runs.eachStep_cons, ← (run_consistent runtime events).recorded, List.length_map]
  simp

/-- All calls but the last have been answered. -/
theorem run_earlier_answered {events : List (Event Data)} (h : OneAtATime runtime events) {i : Nat}
    (hi : i + 1 < (configs events).length) : (run runtime {} events).answer i ≠ none := by
  induction events using List.reverseRecOn with
  | nil => simp [configs] at hi
  | append_singleton events event ih =>
    obtain ⟨hevents, hevent⟩ := oneAtATime_concat.mp h
    have hold : (run runtime {} events).answer i ≠ none := by
      cases hconfig : event.config? with
      | none => exact ih hevents (by simpa [configs, hconfig] using hi)
      | some config =>
        simp only [configs, List.filterMap_append, List.length_append] at hi
        simp only [List.filterMap_cons, hconfig, List.filterMap_nil, List.length_singleton] at hi
        exact hevent (by simp [hconfig]) i (Nat.lt_of_succ_lt_succ hi)
    rw [run, Runs.run_concat]
    rwa [(step_advances (run_consistent runtime events) event).answered i hold]

/-- An answer is final. -/
theorem run_answered {early : List (Event Data)} (late : List (Event Data)) {i : Nat}
    (h : (run runtime {} early).answer i ≠ none) :
    (run runtime {} (early ++ late)).answer i = (run runtime {} early).answer i := by
  induction late using List.reverseRecOn with
  | nil => rw [List.append_nil]
  | append_singleton late event ih =>
    have hstep := (step_advances (run_consistent runtime (early ++ late)) event).answered i (by rwa [ih])
    rw [← List.append_assoc, run, Runs.run_concat]
    exact hstep.trans ih

/-- The newest config that could be loaded is the last to be. -/
theorem OneAtATime.newest {events : List (Event Data)} (h : OneAtATime runtime events) {i : Nat}
    (hlast : LastToSucceed runtime events i) {k : Nat} (hk : i < k) : ¬ (run runtime {} events).Succeeded k := by
  obtain ⟨early, event, late, rfl, hfresh, hothers⟩ := hlast
  intro hsucceeded
  rcases (hothers k).mp hsucceeded with rfl | hbefore
  · exact Nat.lt_irrefl k hk
  · have hearly : OneAtATime runtime early := ((Runs.eachStep_append _).mp h).1
    have hlength : k < (configs early).length := by
      obtain ⟨reload, hcall, -⟩ := succeeded_iff.mp hbefore
      rw [← (run_consistent runtime early).recorded, List.length_map]
      exact (List.getElem?_eq_some_iff.mp hcall).1
    have hanswered := run_earlier_answered hearly (i := i) (by omega)
    have hkept := run_answered (event :: late) hanswered
    exact hfresh (hkept.symm.trans ((hothers i).mpr (.inl rfl)))

/-- Packages for runs of two services: a schema is the text that introspection returns. -/
def plainRuntime : GraphqlRuntime String String (List (Subschema String)) where
  parseUrl := fun text =>
    if text ∈ ["http://books:8080/v1", "http://books:8080/v2"] then
      .ok { protocol := "http:", hostname := "books", port := some 8080 }
    else if text = "http://users-svc:8080/graphql" then
      .ok { protocol := "http:", hostname := "users-svc", port := some 8080 }
    else .error "Invalid URL"
  buildClientSchema := fun data => data.elim (.error "Invalid or incomplete introspection result") .ok
  stitchSchemas := .ok

/-- Calls that overlap: the older config, whose service is slow, is served in the end. -/
example :
    (run plainRuntime {} [
        .updateConfig (some [{ name := "books", url := "http://books:8080/v1" }]),
        .updateConfig (some [{ name := "books", url := "http://books:8080/v2" }]),
        .sdl 1 0 (.response 200 (.ok { sdl := some "type Query { book: Book }" })),
        .introspection 1 0 (.response 200 (.ok { data := some "new" })),
        .sdl 0 0 (.response 200 (.ok { sdl := some "type Query { book: String }" })),
        .introspection 0 0 (.response 200 (.ok { data := some "old" }))]).yoga =
      .stitched [{ schema := "old", url := "http://books:8080/v1", token := none }] := by
  decide

end GatewayGraphqlServer

end CatalystRouter
