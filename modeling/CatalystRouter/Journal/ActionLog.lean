import CatalystRouter.Library.Runs
import CatalystRouter.Routing.Rib

namespace CatalystRouter

/-- The time of an entry is the clock reading at which its action was handled. -/
structure ActionLogEntry where
  seq : Int
  action : Action
  nodeId : String
  recordedAt : Int
  deriving DecidableEq, Repr

structure Snapshot where
  atSeq : Int
  state : RouteTable
  deriving DecidableEq, Repr

/-- `InMemoryActionLog`. `SqliteActionLog` keeps the same rows, numbered by an
    AUTOINCREMENT column. -/
structure ActionLog where
  entries : List ActionLogEntry := []
  nextSeq : Int := 1
  snapshot : Option Snapshot := none
  deriving DecidableEq, Repr

namespace ActionLog

def append (self : ActionLog) (now : Int) (action : Action) (nodeId : String) : ActionLog :=
  { self with
    entries := self.entries ++ [{ seq := self.nextSeq, action, nodeId, recordedAt := now }]
    nextSeq := self.nextSeq + 1 }

def replay (self : ActionLog) (afterSeq : Int) : List ActionLogEntry :=
  self.entries.filter fun e => afterSeq < e.seq

def lastSeq (self : ActionLog) : Int :=
  match self.entries.getLast? with
  | some e => e.seq
  | none => 0

def takeSnapshot (self : ActionLog) (atSeq : Int) (state : RouteTable) : ActionLog :=
  { self with snapshot := some { atSeq, state } }

def prune (self : ActionLog) (beforeSeq : Int) : ActionLog :=
  { self with entries := self.entries.filter fun e => beforeSeq ≤ e.seq }

def entriesSinceSnapshot (self : ActionLog) : Int :=
  match self.snapshot with
  | some existingSnapshot => self.lastSeq - existingSnapshot.atSeq
  | none => self.lastSeq

/-- `CompactionManager.compact` on a journal, with `getState` reading `state`. -/
def compact (minEntries tailSize : Nat) (state : RouteTable) (self : ActionLog) : ActionLog :=
  if self.lastSeq = 0 then self
  else if self.entriesSinceSnapshot < minEntries then self
  else
    let pruneBeforeSeq := max 1 (self.lastSeq - tailSize + 1)
    (self.takeSnapshot self.lastSeq state).prune pruneBeforeSeq

end ActionLog

/-- A `RoutingInformationBase` with a journal. -/
structure RoutingInformationBase where
  state : RouteTable := newRouteTable
  journal : ActionLog := {}
  deriving DecidableEq, Repr

namespace RoutingInformationBase

/-- Commit a plan; an action that changed the state is journaled. -/
def commit (nodeId : String) (now : Int) (rib : RoutingInformationBase) (plan : PlanResult) (action : Action) :
    RoutingInformationBase where
  state := plan.newState
  journal := if Rib.stateChanged plan then rib.journal.append now action nodeId else rib.journal

/-- What happens to a journaled RIB: an action is planned and committed at its
    clock reading, or the journal is compacted. -/
inductive Event where
  | action (now : Int) (action : Action)
  | compact (minEntries tailSize : Nat)
  deriving DecidableEq, Repr

def step (nodeId : String) (rib : RoutingInformationBase) : Event → RoutingInformationBase
  | .action now action => rib.commit nodeId now (Rib.plan nodeId now action rib.state) action
  | .compact minEntries tailSize => { rib with journal := rib.journal.compact minEntries tailSize rib.state }

abbrev run (nodeId : String) (rib : RoutingInformationBase) (events : List Event) : RoutingInformationBase :=
  Runs.run (step nodeId) rib events

end RoutingInformationBase

/-! ### Recovery -/

/-- One turn of the replay loop; `clock` gives the reading of `Date.now()` while
    the entry is handled again. -/
def replayEntry (nodeId : String) (clock : ActionLogEntry → Int) (state : RouteTable) (entry : ActionLogEntry) :
    RouteTable :=
  let plan := Rib.plan nodeId (clock entry) entry.action state
  if Rib.stateChanged plan then plan.newState else state

def replayEntries (nodeId : String) (clock : ActionLogEntry → Int) (state : RouteTable)
    (entries : List ActionLogEntry) : RouteTable :=
  entries.foldl (replayEntry nodeId clock) state

/-- The state that the constructor of `OrchestratorServiceV2` rebuilds: the
    snapshot, if there is one, and the entries after it. -/
def recover (nodeId : String) (clock : ActionLogEntry → Int) (journal : ActionLog) : RouteTable :=
  match journal.snapshot with
  | some snapshot => replayEntries nodeId clock snapshot.state (journal.replay snapshot.atSeq)
  | none => replayEntries nodeId clock newRouteTable (journal.replay 0)

end CatalystRouter
