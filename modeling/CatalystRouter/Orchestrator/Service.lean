import CatalystRouter.Orchestrator.PeerSession
import CatalystRouter.Orchestrator.ReconnectManager
import CatalystRouter.Orchestrator.Runs

namespace CatalystRouter

/-- A dispatch of the patched `bus.dispatch`; `retryOf` is the peer of the reconnect
    that awaits it. -/
structure QueuedDispatch where
  action : Action
  retryOf : Option String := none
  deriving DecidableEq, Repr

/-- An `openPeer` in flight, of `dialPeer` or of a reconnect. -/
structure Dial where
  peer : PeerRecord
  retry : Bool
  deriving DecidableEq, Repr

/-- The parts of an `OrchestratorServiceV2` that peers and reconnects live in. The
    slot that runs has committed already, with the outcome it will resolve with. -/
structure Service where
  bus : Bus
  reconnectManager : ReconnectManager := {}
  queue : List QueuedDispatch := []
  running : Option (QueuedDispatch × Except String RouteTable) := none
  dials : List Dial := []

namespace Service

/-- What happens to a service: a caller dispatches, the next slot starts, the running
    one resolves, an `openPeer` settles, a reconnect timer fires. -/
inductive Event where
  | dispatch (action : Action)
  | start (now : Int)
  | finish
  | dialed (i : Nat) (opened : Bool)
  | timer (peerName : String)
  deriving DecidableEq, Repr

/-- The peers that `dialPeer` does not skip. -/
def dialable (peer : PeerRecord) : Bool := truthyString peer.endpoint && truthyString peer.peerToken

/-- `dialPeer`, up to its await. -/
def dialPeer (service : Service) (peer : PeerRecord) : Service :=
  if dialable peer then { service with dials := service.dials ++ [{ peer, retry := false }] } else service

/-- The dial of a new peer, from the record in the result. -/
def dialCreated (service : Service) (action : Action) (outcome : Except String RouteTable) : Service :=
  match action, outcome with
  | .localPeerCreate data, .ok state =>
    match state.peerAt data.name with
    | some peerRecord => service.dialPeer peerRecord
    | none => service
  | _, _ => service

/-- The reconnect whose dispatch has resolved starts counting anew. -/
def retried (service : Service) (retryOf : Option String) : Service :=
  match retryOf with
  | some peerName => { service with reconnectManager := service.reconnectManager.resetAttempts peerName }
  | none => service

def connectedAction (peer : PeerRecord) : Action :=
  .internalProtocolConnected { name := peer.name, domains := peer.domains }

/-- An `openPeer` that fulfils dispatches, one that rejects leaves a timer. -/
def dialSettled (service : Service) (dial : Dial) (opened : Bool) : Service :=
  if opened then
    { service with
      queue := service.queue ++
        [{ action := connectedAction dial.peer, retryOf := if dial.retry then some dial.peer.name else none }] }
  else { service with reconnectManager := service.reconnectManager.scheduleReconnect dial.peer }

/-- The callback of a timer, up to its await. -/
def timerFired (service : Service) (timer : ReconnectTimer) : Service :=
  let service := { service with reconnectManager := service.reconnectManager.deleteTimer timer.peer.name }
  if truthyString timer.peer.peerToken then
    { service with dials := service.dials ++ [{ peer := timer.peer, retry := true }] }
  else service

/-- One step; what is not enabled changes nothing. -/
def step (config : BusConfig) (service : Service) : Event → Service
  | .dispatch action => { service with queue := service.queue ++ [{ action }] }
  | .start now =>
    match service.running, service.queue with
    | none, job :: rest =>
      let result := Bus.dispatch config service.bus now job.action
      { service with bus := result.bus, queue := rest, running := some (job, result.outcome) }
    | _, _ => service
  | .finish =>
    match service.running with
    | some (job, outcome) => ({ service with running := none }.dialCreated job.action outcome).retried job.retryOf
    | none => service
  | .dialed i opened =>
    match service.dials[i]? with
    | some dial => { service with dials := service.dials.eraseIdx i }.dialSettled dial opened
    | none => service
  | .timer peerName =>
    match service.reconnectManager.timers.find? fun timer => timer.peer.name == peerName with
    | some timer => service.timerFired timer
    | none => service

abbrev run (config : BusConfig) (service : Service) (events : List Event) : Service :=
  Runs.run (step config) service events

/-- A service on an empty journal. -/
def start (portAllocator : Option PortAllocator) : Service := { bus := { state := newRouteTable, portAllocator } }

/-- No dispatch is queued or running. -/
def Quiescent (service : Service) : Prop := service.queue = [] ∧ service.running = none

def IsDialed (service : Service) (peerName : String) : Prop := ∃ dial ∈ service.dials, dial.peer.name = peerName

/-- The reconnect bookkeeping matches the peer table. -/
structure Bookkept (service : Service) : Prop where
  covered : ∀ peer ∈ service.bus.state.peers, dialable peer = true → peer.connectionStatus ≠ .connected →
    service.IsDialed peer.name ∨ service.reconnectManager.isScheduled peer.name = true
  timers : ∀ timer ∈ service.reconnectManager.timers, ∃ peer ∈ service.bus.state.peers, peer.name = timer.peer.name
  retries : ∀ dial ∈ service.dials, dial.retry = true → ∃ peer ∈ service.bus.state.peers, peer.name = dial.peer.name

end Service

end CatalystRouter
