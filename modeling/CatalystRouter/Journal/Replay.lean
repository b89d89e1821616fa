import CatalystRouter.Journal.Compaction
import CatalystRouter.Orchestrator.Runs
import CatalystRouter.Routing.Documents
import CatalystRouter.Routing.HoldTimer

namespace CatalystRouter

/-- `InMemoryActionLog` keeps an action as it is, `SqliteActionLog` its JSON text. -/
inductive JournalKind where
  | inMemory
  | sqlite
  deriving DecidableEq, Repr

/-- What the journal gives back of an action. -/
def JournalKind.kept : JournalKind → Action → Action
  | .inMemory, action => action
  | .sqlite, action => action.stored

/-- A bus with the journal its RIB writes. -/
structure JournaledBus where
  bus : Bus
  journal : ActionLog := {}
  kind : JournalKind := .sqlite

namespace JournaledBus

/-- A queue slot that commits appends its action. -/
def step (config : BusConfig) (s : JournaledBus) : Bus.Event → JournaledBus
  | .dispatch now action =>
    let result := Bus.dispatch config s.bus now action
    { s with
      bus := result.bus
      journal := match result.committed with
        | some _ => s.journal.append now (s.kind.kept action) config.node.name
        | none => s.journal }
  | .keepaliveSent peerName now => { s with bus := Bus.keepaliveSent s.bus peerName now }

abbrev run (config : BusConfig) (s : JournaledBus) (events : List Bus.Event) : JournaledBus :=
  Runs.run (step config) s events

/-- A new bus with an empty journal and no port allocator. -/
def start (kind : JournalKind) : JournaledBus := { bus := { state := newRouteTable }, kind }

/-- What happens to a bus with a journal: an event of the bus, a compaction, or a
    restart of the service, which recovers its state from the journal. -/
inductive Event where
  | bus (event : Bus.Event)
  | compact (minEntries tailSize : Nat)
  | restart (clock : ActionLogEntry → Int) (portAllocator : Option PortAllocator)

def handle (config : BusConfig) (s : JournaledBus) : Event → JournaledBus
  | .bus event => step config s event
  | .compact minEntries tailSize => { s with journal := s.journal.compact minEntries tailSize s.bus.state }
  | .restart clock portAllocator =>
    { s with bus := { state := recover config.node.name clock s.journal, portAllocator } }

abbrev serve (config : BusConfig) (s : JournaledBus) (events : List Event) : JournaledBus :=
  Runs.run (handle config) s events

/-- The first start of a service, on an empty journal. -/
def boot (portAllocator : Option PortAllocator) : JournaledBus := { bus := { state := newRouteTable, portAllocator } }

end JournaledBus

/-- A record without its timestamps. -/
def PeerRecord.timeless (p : PeerRecord) : PeerRecord := { p with lastConnected := 0, lastSent := 0, lastReceived := 0 }

def RouteTable.timeless (state : RouteTable) : RouteTable := { state with peers := state.peers.map PeerRecord.timeless }

/-- What a replay has to bring back of an internal route. -/
def InternalRoute.summary (r : InternalRoute) : String × String × List String × String :=
  (r.name, r.originNode, r.nodePath, r.peer.name)

/-- The rebuilt state agrees with the live one on everything except timestamps
    and stale flags. -/
structure Agrees (live rebuilt : RouteTable) : Prop where
  localRoutes : rebuilt.localRoutes = live.localRoutes
  peers : rebuilt.peers.map PeerRecord.timeless = live.peers.map PeerRecord.timeless
  internalRoutes : rebuilt.internalRoutes.map InternalRoute.summary = live.internalRoutes.map InternalRoute.summary

namespace Rib

end Rib

namespace Rib

end Rib

namespace JournaledBus

variable {config : BusConfig} {clock : ActionLogEntry → Int} {s : JournaledBus}

/-- The state that a restart of the service would rebuild. -/
def rebuilt (config : BusConfig) (clock : ActionLogEntry → Int) (s : JournaledBus) : RouteTable :=
  recover config.node.name clock s.journal

@[simp] theorem step_kind (config : BusConfig) (s : JournaledBus) (event : Bus.Event) :
    (step config s event).kind = s.kind := by
  cases event <;> rfl

end JournaledBus

end CatalystRouter
