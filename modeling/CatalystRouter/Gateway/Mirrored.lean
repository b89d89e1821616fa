import CatalystRouter.Gateway.Reloads
import CatalystRouter.Orchestrator.GatewayMirror

namespace CatalystRouter

/-! An orchestrator and the gateway that it pushes the GraphQL routes of its table to. -/

/-- What `GatewayConfigSchema` makes of a push: a route without an endpoint has no `url`. -/
def readServices (services : List (String × Option String)) : Option (List ServiceConfig) :=
  services.mapM fun service => service.2.map fun url => { name := service.1, url }

structure MirroredGateway (Schema Stitched : Type) where
  orchestrator : GatewayedBus
  gateway : GatewayGraphqlServer Schema Stitched := {}

namespace MirroredGateway

/-- The replies are to the fetches of the gateway, as there. -/
inductive Event (Data : Type) where
  | bus (event : Bus.Event)
  | sdl (i j : Nat) (reply : Fetched SdlResult)
  | introspection (i j : Nat) (reply : Fetched (IntrospectionResult Data))

variable {Data Schema Stitched : Type}

/-- The gateway has answered every call. -/
def idle (gateway : GatewayGraphqlServer Schema Stitched) : Bool :=
  (List.range gateway.calls.length).all fun i => (gateway.answer i).isSome

/-- A slot of the queue begins when the one before it is over, which waits for the answer to
    its push. -/
def begins (s : MirroredGateway Schema Stitched) : Bus.Event → Bool
  | .dispatch _ _ => idle s.gateway
  | .keepaliveSent _ _ => true

/-- What the gateway gets to see of an event. -/
def seen (config : BusConfig) (s : MirroredGateway Schema Stitched) :
    Event Data → List (GatewayGraphqlServer.Event Data)
  | .bus (.dispatch now action) =>
    if idle s.gateway then
      (GatewayedBus.serviceLists (Bus.dispatch config s.orchestrator.bus now action).stages).map fun services =>
        .updateConfig (readServices services)
    else []
  | .bus (.keepaliveSent _ _) => []
  | .sdl i j reply => [.sdl i j reply]
  | .introspection i j reply => [.introspection i j reply]

section Run

variable (config : BusConfig) (runtime : GraphqlRuntime Data Schema Stitched)

def step (s : MirroredGateway Schema Stitched) (event : Event Data) : MirroredGateway Schema Stitched where
  orchestrator :=
    match event with
    | .bus event => if s.begins event then GatewayedBus.step config s.orchestrator event else s.orchestrator
    | _ => s.orchestrator
  gateway := GatewayGraphqlServer.run runtime s.gateway (s.seen config event)

abbrev run (s : MirroredGateway Schema Stitched) (events : List (Event Data)) : MirroredGateway Schema Stitched :=
  Runs.run (step config runtime) s events

/-- What the gateway gets to see of a run. -/
def trace : MirroredGateway Schema Stitched → List (Event Data) → List (GatewayGraphqlServer.Event Data)
  | _, [] => []
  | s, event :: rest => s.seen config event ++ trace (step config runtime s event) rest

end Run

/-- A bus on an empty table, and a gateway that waits for its configuration. -/
def start (portAllocator : Option PortAllocator) : MirroredGateway Schema Stitched where
  orchestrator := GatewayedBus.start portAllocator

variable {config : BusConfig} {runtime : GraphqlRuntime Data Schema Stitched}

theorem trace_append (s : MirroredGateway Schema Stitched) (first second : List (Event Data)) :
    trace config runtime s (first ++ second) =
      trace config runtime s first ++ trace config runtime (run config runtime s first) second := by
  induction first generalizing s with
  | nil => rfl
  | cons event rest ih => simp [trace, ih, List.append_assoc]

/-- The gateway runs on what it sees. -/
theorem run_gateway (config : BusConfig) (runtime : GraphqlRuntime Data Schema Stitched)
    (s : MirroredGateway Schema Stitched) (events : List (Event Data)) :
    (run config runtime s events).gateway =
      GatewayGraphqlServer.run runtime s.gateway (trace config runtime s events) := by
  induction events generalizing s with
  | nil => rfl
  | cons event rest ih =>
    rw [run, Runs.run_cons, trace, GatewayGraphqlServer.run, Runs.run_append]
    exact ih _

/-- A slot pushes the services of the table that it leaves, if anything. -/
theorem serviceLists_dispatch (hclient : config.gatewayClient = true) (bus : Bus) (now : Int) (action : Action) :
    GatewayedBus.serviceLists (Bus.dispatch config bus now action).stages = [] ∨
      GatewayedBus.serviceLists (Bus.dispatch config bus now action).stages =
        [graphqlServices (Bus.dispatch config bus now action).bus.state] := by
  have hshape := Bus.dispatch_shape config bus now action
  generalize Bus.dispatch config bus now action = result at hshape ⊢
  cases hshape with
  | rejected => exact .inl rfl
  | idle => exact .inl (GatewayedBus.serviceLists_keepalives ..)
  | committed filteredAction plan portAllocator hfiltered hchanged hports =>
    rw [GatewayedBus.serviceLists_postCommit hclient]
    split
    · exact .inl rfl
    · exact .inr rfl

theorem idle_iff {gateway : GatewayGraphqlServer Schema Stitched} :
    idle gateway = true ↔ ∀ i < gateway.calls.length, gateway.answer i ≠ none := by
  simp [idle, Option.isSome_iff_ne_none]

/-- What is served is of the newest config that could be loaded. While that is the last one pushed,
    it is of the GraphQL routes of the table, if there are any. -/
def Follows (runtime : GraphqlRuntime Data Schema Stitched) (trace : List (GatewayGraphqlServer.Event Data))
    (s : MirroredGateway Schema Stitched) : Prop :=
  ((∀ k, ¬ s.gateway.Succeeded k) ∧ s.gateway.yoga = .waiting) ∨
    ∃ i services subschemas, s.gateway.Succeeded i ∧ (∀ k, i < k → ¬ s.gateway.Succeeded k) ∧
      (GatewayGraphqlServer.configs trace)[i]? = some (some services) ∧
      GatewayGraphqlServer.Fetches runtime trace i services subschemas ∧
      createYogaInstance runtime subschemas = .ok s.gateway.yoga ∧
      (i + 1 = s.gateway.calls.length → graphqlServices s.orchestrator.bus.state ≠ [] →
        readServices (graphqlServices s.orchestrator.bus.state) = some services)

/-- The gateway sees a reply, or at most one push, which comes when it has answered every call. -/
inductive SeenShape (config : BusConfig) (s s' : MirroredGateway Schema Stitched) :
    List (GatewayGraphqlServer.Event Data) → Prop
  | nothing (hservices : s'.orchestrator.services = s.orchestrator.services) : SeenShape config s s' []
  | reply (event : GatewayGraphqlServer.Event Data) (hreply : event.config? = none)
      (hservices : s'.orchestrator.services = s.orchestrator.services) : SeenShape config s s' [event]
  | push (hidle : idle s.gateway = true) :
      SeenShape config s s' [.updateConfig (readServices s'.orchestrator.services)]

theorem step_seen (runtime : GraphqlRuntime Data Schema Stitched) (hclient : config.gatewayClient = true)
    (s : MirroredGateway Schema Stitched) (event : Event Data) :
    SeenShape config s (step config runtime s event) (s.seen config event) := by
  cases event with
  | bus event =>
    cases event with
    | keepaliveSent peerName now => exact .nothing rfl
    | dispatch now action =>
      simp only [seen]
      by_cases hidle : idle s.gateway = true
      · rw [if_pos hidle]
        have hstep : (step config runtime s (.bus (.dispatch now action))).orchestrator =
            GatewayedBus.step config s.orchestrator (.dispatch now action) := if_pos hidle
        rcases serviceLists_dispatch hclient s.orchestrator.bus now action with hnone | hpush
        · rw [hnone]
          refine .nothing ?_
          rw [hstep]
          simp [GatewayedBus.step, hnone]
        · have hservices : (step config runtime s (.bus (.dispatch now action))).orchestrator.services =
              graphqlServices (Bus.dispatch config s.orchestrator.bus now action).bus.state := by
            rw [hstep]
            simp [GatewayedBus.step, hpush]
          rw [hpush, ← hservices]
          exact .push hidle
      · rw [if_neg hidle]
        have hstep : (step config runtime s (.bus (.dispatch now action))).orchestrator = s.orchestrator := if_neg hidle
        exact .nothing (by rw [hstep])
  | sdl i j reply => exact .reply _ rfl rfl
  | introspection i j reply => exact .reply _ rfl rfl

theorem step_mirrors (hclient : config.gatewayClient = true) {s : MirroredGateway Schema Stitched}
    (h : s.orchestrator.Mirrors) (event : Event Data) : (step config runtime s event).orchestrator.Mirrors := by
  cases event with
  | bus event =>
    unfold step
    dsimp only
    split
    · exact (GatewayedBus.step_services hclient h event).1
    · exact h
  | sdl i j reply => exact h
  | introspection i j reply => exact h

section Run

variable (runtime : GraphqlRuntime Data Schema Stitched) (hclient : config.gatewayClient = true)
variable (portAllocator : Option PortAllocator) (events : List (Event Data))
include hclient

theorem run_mirrors : (run config runtime (start portAllocator) events).orchestrator.Mirrors := by
  induction events using List.reverseRecOn with
  | nil => exact fun hsome => absurd rfl hsome
  | append_singleton events event ih =>
    rw [run, Runs.run_concat]
    exact step_mirrors hclient ih event

theorem trace_oneAtATime :
    GatewayGraphqlServer.OneAtATime runtime (trace config runtime (start portAllocator) events) := by
  induction events using List.reverseRecOn with
  | nil => trivial
  | append_singleton events event ih =>
    have hshape := step_seen runtime hclient (run config runtime (start portAllocator) events) event
    rw [trace_append, trace, trace, List.append_nil]
    generalize seen config (run config runtime (start portAllocator) events) event = list at hshape ⊢
    cases hshape with
    | nothing => rwa [List.append_nil]
    | reply reply hreply =>
      exact GatewayGraphqlServer.oneAtATime_concat.mpr ⟨ih, fun hconfig => absurd hreply hconfig⟩
    | push hidle =>
      refine GatewayGraphqlServer.oneAtATime_concat.mpr ⟨ih, fun _ i hi => ?_⟩
      have hconsistent := GatewayGraphqlServer.run_consistent runtime
        (trace config runtime (start portAllocator) events)
      rw [← hconsistent.recorded, List.length_map] at hi
      rw [run_gateway] at hidle
      exact idle_iff.mp hidle i hi

/-- The last config that the gateway has been given is what the orchestrator has pushed last. -/
theorem trace_last (services : Option (List ServiceConfig))
    (hlast : (GatewayGraphqlServer.configs (trace config runtime (start portAllocator) events)).getLast? = some services) :
    services = readServices (run config runtime (start portAllocator) events).orchestrator.services := by
  induction events using List.reverseRecOn with
  | nil => cases hlast
  | append_singleton events event ih =>
    have hshape := step_seen runtime hclient (run config runtime (start portAllocator) events) event
    rw [trace_append, trace, trace, List.append_nil] at hlast
    rw [run, Runs.run_concat]
    generalize seen config (run config runtime (start portAllocator) events) event = list at hshape hlast
    cases hshape with
    | nothing hservices =>
      rw [hservices]
      exact ih (by rwa [List.append_nil] at hlast)
    | reply reply hreply hservices =>
      rw [hservices]
      exact ih (by simpa [GatewayGraphqlServer.configs, hreply] using hlast)
    | push hidle =>
      simp only [GatewayGraphqlServer.configs, List.filterMap_append, List.filterMap_cons, List.filterMap_nil,
        GatewayGraphqlServer.Event.config?, List.getLast?_concat, Option.some.injEq] at hlast
      exact hlast.symm

/-- At every point of a run of the bus with its gateway, the gateway serves what the newest
    reload that has succeeded has fetched for the list that it was given, or nothing if there is
    none; and if that reload is the last one, this list is what the bus last pushed. -/
theorem run_follows :
    Follows runtime (trace config runtime (start portAllocator) events)
      (run config runtime (start portAllocator) events) := by
  have hone := trace_oneAtATime runtime hclient portAllocator events
  have hlast := trace_last runtime hclient portAllocator events
  have hmirrors := run_mirrors runtime hclient portAllocator events
  have hgateway := run_gateway config runtime (start portAllocator) events
  unfold Follows
  rw [hgateway]
  generalize trace config runtime (start portAllocator) events = seen at hone hlast ⊢
  obtain ⟨-, -, ⟨hnone, hyoga, -⟩ | ⟨i, services, subschemas, hinstalled, hconfig, hfetches, hyoga, -⟩⟩ :=
    GatewayGraphqlServer.run_serves runtime seen
  · exact .inl ⟨hnone, hyoga⟩
  · have hsucceeded : (GatewayGraphqlServer.run runtime {} seen).Succeeded i := by
      obtain ⟨early, event, late, -, -, hothers⟩ := hinstalled
      exact (hothers i).mpr (.inl rfl)
    refine .inr ⟨i, services, subschemas, hsucceeded, fun k hk => hone.newest hinstalled hk, hconfig, hfetches,
      hyoga, ?_⟩
    intro hi hsome
    have hrecorded := (GatewayGraphqlServer.run_consistent runtime seen).recorded
    have hpushed : (GatewayGraphqlServer.configs seen).getLast? = some (some services) := by
      rw [List.getLast?_eq_getElem?, ← hrecorded, List.length_map, hrecorded]
      have hlength : (GatewayGraphqlServer.run runtime {} seen).calls.length - 1 = i := by
        rw [← Nat.add_sub_cancel (n := i) (m := 1), hi]
        rfl
      rw [hlength, hconfig]
    rw [← hmirrors hsome]
    exact (hlast _ hpushed).symm

end Run

/-- A GraphQL service is registered, and its schema is fetched. -/
def usersServed : List (Event String) :=
  (GatewayedBus.usersService.take 1).map .bus ++
    [.sdl 0 0 (.response 200 (.ok { sdl := some "type Query { user: User }" })),
      .introspection 0 0 (.response 200 (.ok { data := some "users" }))]

theorem run_follows_users :
    Follows GatewayGraphqlServer.plainRuntime
        (trace GatewayedBus.gatewayNode GatewayGraphqlServer.plainRuntime (start none) usersServed)
        (run GatewayedBus.gatewayNode GatewayGraphqlServer.plainRuntime (start none) usersServed) ∧
      (run GatewayedBus.gatewayNode GatewayGraphqlServer.plainRuntime (start none) usersServed).gateway.yoga =
        .stitched [{ schema := "users", url := "http://users-svc:8080/graphql", token := none }] :=
  ⟨run_follows GatewayGraphqlServer.plainRuntime rfl none usersServed, by decide⟩

end MirroredGateway

end CatalystRouter
