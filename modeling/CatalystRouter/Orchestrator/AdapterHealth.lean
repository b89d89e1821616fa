import CatalystRouter.Library.Runs
import CatalystRouter.Orchestrator.Bus

namespace CatalystRouter

structure AdapterHealth where
  healthStatus : HealthStatus
  responseTimeMs : Option Int
  lastChecked : String
  deriving DecidableEq, Repr

/-- A `fetch` that `checkOne` awaits. -/
structure HealthCheck where
  name : String
  prevStatus : Option HealthStatus
  deriving DecidableEq, Repr

/-- `buildHealthUrl` gives the health URL of an endpoint that parses as one. -/
structure HealthConfig where
  bus : BusConfig
  buildHealthUrl : String → Option String

/-- An `AdapterHealthChecker` on the bus it dispatches to, with the dispatches that
    wait for their slot; a cycle is running while it has checks in flight. -/
structure HealthNode where
  bus : Bus
  queue : List Action := []
  healthMap : String → Option AdapterHealth := fun _ => none
  checks : List HealthCheck := []

namespace HealthNode

def setHealth (self : HealthNode) (name : String) (health : AdapterHealth) : HealthNode :=
  { self with healthMap := Function.update self.healthMap name (some health) }

/-- The status that is held for a name. -/
def heldStatus (self : HealthNode) (name : String) : Option HealthStatus :=
  (self.healthMap name).map (·.healthStatus)

/-- Dispatch to the bus if the status changed. -/
def maybeDispatch (self : HealthNode) (name : String) (prevStatus : Option HealthStatus) : HealthNode :=
  match self.healthMap name with
  | none => self
  | some newHealth =>
    if prevStatus = some newHealth.healthStatus then self
    else
      { self with queue := self.queue ++
          [.localRouteHealthUpdate
            { name
              healthStatus := newHealth.healthStatus
              responseTimeMs := newHealth.responseTimeMs
              lastChecked := newHealth.lastChecked }] }

/-- `protocol.startsWith('http')`. -/
def isHttpProtocol (route : DataChannelDefinition) : Bool :=
  match route.protocol with
  | .http | .httpGraphql | .httpGql | .httpGrpc => true
  | .tcp => false

/-- The URL that a check fetches, if it fetches one. -/
def healthUrl (config : HealthConfig) (route : DataChannelDefinition) : Option String :=
  match route.endpoint with
  | some endpoint => if endpoint = "" ∨ isHttpProtocol route = false then none else config.buildHealthUrl endpoint
  | none => none

/-- `checkOne`, up to its await. -/
def checkOne (config : HealthConfig) (checkedAt : String) (self : HealthNode) (route : DataChannelDefinition) :
    HealthNode :=
  let prevStatus := self.heldStatus route.name
  match healthUrl config route with
  | some _ => { self with checks := self.checks ++ [{ name := route.name, prevStatus }] }
  | none =>
    (self.setHealth route.name { healthStatus := .down, responseTimeMs := none, lastChecked := checkedAt }).maybeDispatch
      route.name prevStatus

/-- `checkAll`, up to its await; entries of removed routes are cleared. -/
def checkAll (config : HealthConfig) (checkedAt : String) (self : HealthNode) (routes : List DataChannelDefinition) :
    HealthNode :=
  let currentNames := routes.map (·.name)
  let self := { self with healthMap := fun name => if name ∈ currentNames then self.healthMap name else none }
  routes.foldl (checkOne config checkedAt) self

/-- The status that a `fetch` finds; `response` is the response time if the answer is
    OK. -/
def statusFound (response : Option Int) : HealthStatus := if response.isSome then .up else .down

/-- The rest of `checkOne`. -/
def checked (self : HealthNode) (check : HealthCheck) (response : Option Int) (checkedAt : String) : HealthNode :=
  let health := { healthStatus := statusFound response, responseTimeMs := response, lastChecked := checkedAt }
  (self.setHealth check.name health).maybeDispatch check.name check.prevStatus

/-- What happens: a caller dispatches, the next slot runs, the interval timer fires, a
    `fetch` settles. -/
inductive Event where
  | dispatch (action : Action)
  | slot (now : Int)
  | cycle (checkedAt : String)
  | fetched (name : String) (response : Option Int) (checkedAt : String)
  deriving DecidableEq, Repr

/-- One step; what is not enabled changes nothing. -/
def step (config : HealthConfig) (self : HealthNode) : Event → HealthNode
  | .dispatch action => { self with queue := self.queue ++ [action] }
  | .slot now =>
    match self.queue with
    | action :: rest => { self with bus := (Bus.dispatch config.bus self.bus now action).bus, queue := rest }
    | [] => self
  | .cycle checkedAt =>
    if self.checks = [] then checkAll config checkedAt self self.bus.state.localRoutes else self
  | .fetched name response checkedAt =>
    match self.checks.find? fun check => check.name == name with
    | some check =>
      { self with checks := self.checks.eraseP fun check => check.name == name }.checked check response checkedAt
    | none => self

abbrev run (config : HealthConfig) (self : HealthNode) (events : List Event) : HealthNode :=
  Runs.run (step config) self events

end HealthNode

end CatalystRouter
