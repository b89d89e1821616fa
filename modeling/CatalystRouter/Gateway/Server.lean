import CatalystRouter.Envoy.Resources
import CatalystRouter.Library.Runs

namespace CatalystRouter

/-! The GraphQL gateway: what it fetches of the services of a config, and what it serves. -/

structure ServiceConfig where
  name : String
  url : String
  token : Option String := none
  deriving DecidableEq, Repr

/-- A remote schema, with what its executor sends queries with. -/
structure Subschema (Schema : Type) where
  schema : Schema
  url : String
  token : Option String
  deriving DecidableEq, Repr

/-- What a fetch comes to: an exception, or a response. Reading the body may throw. -/
inductive Fetched (α : Type) where
  | failed (message : String)
  | response (status : Nat) (body : Except String α)

/-- `sdl` is `data._sdl` where that is a string. -/
structure SdlResult where
  sdl : Option String := none
  errors : Option (List String) := none

structure IntrospectionResult (Data : Type) where
  data : Option Data := none
  errors : Option (List String) := none

/-- What the gateway takes from its packages: the `URL` constructor, and the functions that make
    schemas, with the text of what they throw. -/
structure GraphqlRuntime (Data Schema Stitched : Type) where
  parseUrl : String → Except String Url
  buildClientSchema : Option Data → Except String Schema
  stitchSchemas : List (Subschema Schema) → Except String Stitched

/-- What the gateway answers queries with. -/
inductive YogaInstance (Stitched : Type) where
  | waiting
  | noServices
  | stitched (schema : Stitched)
  deriving DecidableEq, Repr

variable {Data Schema Stitched : Type}

/-! ### One service -/

/-- The `try` block of `validateServiceSdl`. -/
def checkSdl : Fetched SdlResult → Except String Unit
  | .failed message => .error message
  | .response status body =>
    if status < 200 ∨ 299 < status then .error ("Service returned status " ++ toString status)
    else
      match body with
      | .error message => .error message
      | .ok { errors := some errors, .. } => .error (", ".intercalate errors)
      | .ok { sdl, errors := none } =>
        if Bus.blankToken sdl then .error "Service returned empty or invalid SDL" else .ok ()

def validateServiceSdl (url : String) (reply : Fetched SdlResult) : Except String Unit :=
  (checkSdl reply).mapError fun message => "Service validation failed for " ++ url ++ ": " ++ message

/-- The status of the response is not looked at. -/
def fetchRemoteSchema (runtime : GraphqlRuntime Data Schema Stitched) :
    Fetched (IntrospectionResult Data) → Except String Schema
  | .failed message => .error message
  | .response _ body =>
    match body with
    | .error message => .error message
    | .ok { errors := some errors, .. } => .error ("\n".intercalate errors)
    | .ok { data, errors := none } => runtime.buildClientSchema data

/-- Where the function that `reload` maps over the services is. -/
inductive Loading (Schema : Type) where
  | validating
  | introspecting
  | loaded (subschema : Subschema Schema)
  | failed (message : String)

namespace Loading

def failure? : Loading Schema → Option String
  | .failed message => some message
  | _ => none

def subschema? : Loading Schema → Option (Subschema Schema)
  | .loaded subschema => some subschema
  | _ => none

end Loading

structure LoadTask (Schema : Type) where
  service : ServiceConfig
  loading : Loading Schema

namespace LoadTask

/-- The URL is parsed before the first fetch, outside of the `try` block. -/
def start (runtime : GraphqlRuntime Data Schema Stitched) (service : ServiceConfig) : LoadTask Schema where
  service
  loading :=
    match runtime.parseUrl service.url with
    | .ok _ => .validating
    | .error message => .failed message

def onSdl (reply : Fetched SdlResult) (task : LoadTask Schema) : LoadTask Schema :=
  match task.loading with
  | .validating =>
    match validateServiceSdl task.service.url reply with
    | .ok () => { task with loading := .introspecting }
    | .error message => { task with loading := .failed message }
  | _ => task

def onIntrospection (runtime : GraphqlRuntime Data Schema Stitched) (reply : Fetched (IntrospectionResult Data))
    (task : LoadTask Schema) : LoadTask Schema :=
  match task.loading with
  | .introspecting =>
    match fetchRemoteSchema runtime reply with
    | .ok schema => { task with loading := .loaded { schema, url := task.service.url, token := task.service.token } }
    | .error message => { task with loading := .failed message }
  | _ => task

end LoadTask

/-! ### A reload -/

/-- `Promise.all` over the services: rejected with the first failure, else fulfilled when all
    are, in the order of the config. -/
def loadAll (tasks : List (LoadTask Schema)) : Option (Except String (List (Subschema Schema))) :=
  match tasks.findSome? (fun task : LoadTask Schema => task.loading.failure?) with
  | some message => some (.error message)
  | none => (tasks.mapM fun task : LoadTask Schema => task.loading.subschema?).map .ok

/-- `createYogaInstance`, as `reload` calls it. -/
def createYogaInstance (runtime : GraphqlRuntime Data Schema Stitched) (subschemas : List (Subschema Schema)) :
    Except String (YogaInstance Stitched) :=
  match subschemas with
  | [] => .ok .noServices
  | subschemas => (runtime.stitchSchemas subschemas).map .stitched

/-- What `reload` comes to, once its services are loaded or one has failed. -/
def reloadOutcome (runtime : GraphqlRuntime Data Schema Stitched) (tasks : List (LoadTask Schema)) :
    Option (Except String (YogaInstance Stitched × Nat)) :=
  (loadAll tasks).map fun result => do
    let subschemas ← result
    let yoga ← createYogaInstance runtime subschemas
    return (yoga, subschemas.length)

/-- A call of `reload`, with its answer once it is there. -/
structure Reload (Schema : Type) where
  tasks : List (LoadTask Schema)
  answer : Option (Except String Unit) := none

/-- `activeSubgraphs` is the sum of what was added to the counter. `calls` are those of
    `updateConfig`, of which a config that cannot be parsed leads to no reload. -/
structure GatewayGraphqlServer (Schema Stitched : Type) where
  yoga : YogaInstance Stitched := .waiting
  currentSubgraphCount : Nat := 0
  activeSubgraphs : Int := 0
  calls : List (Option (Reload Schema)) := []

namespace GatewayGraphqlServer

/-- `config` is what `GatewayConfigSchema` parses, if it does. The replies are to the two fetches
    for the `j`th service of the `i`th call. -/
inductive Event (Data : Type) where
  | updateConfig (config : Option (List ServiceConfig))
  | sdl (i j : Nat) (reply : Fetched SdlResult)
  | introspection (i j : Nat) (reply : Fetched (IntrospectionResult Data))

section Step

variable (runtime : GraphqlRuntime Data Schema Stitched)

/-- A reload that has not answered yet goes on as soon as `Promise.all` has settled. -/
def continueReload (self : GatewayGraphqlServer Schema Stitched) (i : Nat) (reload : Reload Schema) :
    GatewayGraphqlServer Schema Stitched :=
  match reload.answer, reloadOutcome runtime reload.tasks with
  | none, some (.ok (yoga, newCount)) =>
    { yoga
      currentSubgraphCount := newCount
      activeSubgraphs := self.activeSubgraphs + (newCount - self.currentSubgraphCount)
      calls := self.calls.set i (some { reload with answer := some (.ok ()) }) }
  | none, some (.error message) =>
    { self with calls := self.calls.set i (some { reload with answer := some (.error message) }) }
  | _, _ => { self with calls := self.calls.set i (some reload) }

def updateTask (self : GatewayGraphqlServer Schema Stitched) (i j : Nat) (update : LoadTask Schema → LoadTask Schema) :
    GatewayGraphqlServer Schema Stitched :=
  match self.calls[i]? with
  | some (some reload) => continueReload runtime self i { reload with tasks := reload.tasks.modify j update }
  | _ => self

def step (self : GatewayGraphqlServer Schema Stitched) : Event Data → GatewayGraphqlServer Schema Stitched
  | .updateConfig none => { self with calls := self.calls ++ [none] }
  | .updateConfig (some services) =>
    let reload : Reload Schema := { tasks := services.map (LoadTask.start runtime) }
    continueReload runtime { self with calls := self.calls ++ [some reload] } self.calls.length reload
  | .sdl i j reply => updateTask runtime self i j (LoadTask.onSdl reply)
  | .introspection i j reply => updateTask runtime self i j (LoadTask.onIntrospection runtime reply)

abbrev run (self : GatewayGraphqlServer Schema Stitched) (events : List (Event Data)) :
    GatewayGraphqlServer Schema Stitched := Runs.run (step runtime) self events

end Step

/-- What the RPC server answers to the `i`th call. -/
def answer (self : GatewayGraphqlServer Schema Stitched) (i : Nat) : Option (Except String Unit) :=
  match self.calls[i]? with
  | some (some reload) => reload.answer
  | some none => some (.error "Malformed configuration received and unable to parse")
  | none => none

end GatewayGraphqlServer

end CatalystRouter
