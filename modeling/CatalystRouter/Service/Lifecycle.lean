import CatalystRouter.Library.Runs

namespace CatalystRouter

/-! What the services of a process and its server go through until the process exits. -/

inductive ServiceState where
  | created
  | initializing
  | ready
  | shuttingDown
  | stopped
  deriving DecidableEq, Repr

def ServiceState.text : ServiceState → String
  | .created => "created"
  | .initializing => "initializing"
  | .ready => "ready"
  | .shuttingDown => "shutting_down"
  | .stopped => "stopped"

/-- What a service calls and awaits when it is initialized or shut down. -/
inductive Hook where
  | buildTelemetry
  | onInitialize
  | onShutdown
  | shutdownTelemetry
  deriving DecidableEq, Repr

/-- `awaiting` is what the call under way awaits, `hooks` what has been called so far. -/
structure CatalystService where
  name : String
  prebuiltTelemetry : Bool := false
  state : ServiceState := .created
  awaiting : Option Hook := none
  hooks : List Hook := []
  deriving DecidableEq, Repr

namespace CatalystService

def call (self : CatalystService) (state : ServiceState) (hook : Hook) : CatalystService :=
  { self with state, awaiting := some hook, hooks := self.hooks ++ [hook] }

/-- The method `initialize`, up to its first await. -/
def initializeService (self : CatalystService) : Except String CatalystService :=
  if self.state ≠ .created then
    .error ("Cannot initialize service \"" ++ self.name ++ "\" in state \"" ++ self.state.text ++
      "\". Expected \"created\".")
  else .ok (self.call .initializing (if self.prebuiltTelemetry then .onInitialize else .buildTelemetry))

/-- Up to its await, as well. -/
def shutdown (self : CatalystService) : CatalystService :=
  if self.state ≠ .ready then self else self.call .shuttingDown .onShutdown

/-- What is awaited has been fulfilled, or rejected. Telemetry that cannot be built is replaced by
    one that does nothing, and a rejected `onShutdown` is thrown after the `finally` block. -/
def settled (self : CatalystService) (fulfilled : Bool) : CatalystService :=
  match self.awaiting with
  | none => self
  | some .buildTelemetry => self.call .initializing .onInitialize
  | some .onInitialize => { self with awaiting := none, state := if fulfilled then .ready else .stopped }
  | some .onShutdown =>
    if self.prebuiltTelemetry then { self with awaiting := none, state := .stopped }
    else self.call .shuttingDown .shutdownTelemetry
  | some .shutdownTelemetry => { self with awaiting := none, state := if fulfilled then .stopped else self.state }

end CatalystService

/-- A call of `stop`, by the handler of a signal or not. It waits for the server to close, then for
    the services that it shuts down. -/
structure StopCall where
  signal : Bool
  waiting : Option (List Nat) := none
  deriving DecidableEq, Repr

/-- How a process ends: by the handler of a signal once `stop` is through, with exit code 1 when the
    port is taken, on any other error of the server, or by a signal that no handler takes. -/
inductive Exit where
  | stopped
  | portInUse
  | uncaught
  | signalled
  deriving DecidableEq, Repr

/-- `starting` are the calls of `start` whose server is not bound yet. -/
structure CatalystHonoServer where
  services : List CatalystService
  server : Bool := false
  starting : Nat := 0
  shutdownHandlers : Nat := 0
  stops : List StopCall := []
  exit : Option Exit := none
  deriving DecidableEq, Repr

namespace CatalystHonoServer

/-- `signal` is SIGTERM or SIGINT, `serverError` what the server reports when it cannot listen. -/
inductive Event where
  | initializeService (i : Nat)
  | shutdown (i : Nat)
  | settled (i : Nat) (fulfilled : Bool)
  | start
  | bound
  | serverError (addressInUse : Bool)
  | signal
  | stop
  | closed (k : Nat)
  deriving DecidableEq, Repr

/-- The services that a call of `stop` has to wait for. -/
def readyServices (services : List CatalystService) : List Nat :=
  (List.range services.length).filter fun i => services[i]?.any fun service => service.state = .ready

/-- What `stop` does once its server is closed. -/
def stopServices (self : CatalystHonoServer) (k : Nat) : CatalystHonoServer :=
  { self with
    services := self.services.map CatalystService.shutdown
    shutdownHandlers := 0
    stops := self.stops.modify k fun call => { call with waiting := some (readyServices self.services) } }

def beginStop (self : CatalystHonoServer) (signal : Bool) : CatalystHonoServer :=
  let called := { self with server := false, stops := self.stops ++ [{ signal }] }
  if self.server then called else called.stopServices self.stops.length

/-- The promise of a service's `shutdown` is awaited by the call of `stop` that made it. -/
def settledService (self : CatalystHonoServer) (i : Nat) (fulfilled : Bool) : CatalystHonoServer :=
  let services := self.services.modify i (CatalystService.settled · fulfilled)
  let done := services[i]?.any fun service => service.awaiting.isNone
  { self with
    services
    stops :=
      if done then self.stops.map fun call => { call with waiting := call.waiting.map (List.filter (· ≠ i)) }
      else self.stops }

/-- The handler of a signal exits the process once its call of `stop` has come to an end. -/
def exitIfStopped (self : CatalystHonoServer) : CatalystHonoServer :=
  if self.exit = none ∧ self.stops.any fun call => call.signal && call.waiting = some [] then
    { self with exit := some .stopped }
  else self

def handle (self : CatalystHonoServer) : Event → CatalystHonoServer
  | .initializeService i =>
    { self with
      services := self.services.modify i fun service =>
        match service.initializeService with
        | .ok service => service
        | .error _ => service }
  | .shutdown i => { self with services := self.services.modify i CatalystService.shutdown }
  | .settled i fulfilled => self.settledService i fulfilled
  | .start => if self.server then self else { self with server := true, starting := self.starting + 1 }
  | .bound =>
    if self.starting = 0 then self
    else { self with starting := self.starting - 1, shutdownHandlers := self.shutdownHandlers + 1 }
  | .serverError addressInUse => { self with exit := some (if addressInUse then .portInUse else .uncaught) }
  | .signal =>
    -- without a handler a signal ends the process
    if self.shutdownHandlers = 0 then { self with exit := some .signalled }
    else self.shutdownHandlers.repeat (fun server => server.beginStop true) self
  | .stop => self.beginStop false
  | .closed k =>
    match self.stops[k]? with
    | some { waiting := none, .. } => self.stopServices k
    | _ => self

def step (self : CatalystHonoServer) (event : Event) : CatalystHonoServer :=
  if self.exit.isSome then self else (self.handle event).exitIfStopped

abbrev run (self : CatalystHonoServer) (events : List Event) : CatalystHonoServer := Runs.run step self events

end CatalystHonoServer

end CatalystRouter
