import Mathlib.Order.WithBot
import Mathlib.Algebra.Order.Ring.Rat
import Mathlib.Data.List.Sort
import CatalystRouter.Library.JsValue
import CatalystRouter.Routing.Documents

namespace CatalystRouter

/-! The two implementations of the `ActionLog` interface. Each call is given the reading of the
clock that it records. -/

abbrev ExtendedRat := WithBot (WithTop ℚ)

def ExtendedRat.ofInt (n : Int) : ExtendedRat := ((n : ℚ) : WithTop ℚ)

/-- A JavaScript number: a double is rational, infinite or NaN. -/
inductive Number where
  | nan
  | real (value : ExtendedRat)
  deriving DecidableEq

namespace Number

def ofInt (n : Int) : Number := .real (.ofInt n)

/-- No comparison with NaN holds. -/
def lt : Number → Number → Bool
  | .real a, .real b => decide (a < b)
  | _, _ => false

def le : Number → Number → Bool
  | .real a, .real b => decide (a ≤ b)
  | _, _ => false

end Number

/-- An action as the logs take it: nothing checks its payload. -/
structure LoggedAction where
  action : ActionType
  data : JsValue

/-- The object that is kept. -/
def LoggedAction.value (self : LoggedAction) : JsValue :=
  .object [("action", .string self.action.text), ("data", self.data)]

/-- An action as the logs take it, with a payload of the shape that its type has. -/
def Action.logged (action : Action) : LoggedAction := { action := action.type, data := .ofJson action.data }

theorem Action.logged_toJson (action : Action) : action.logged.value.toJson = action.toJson := by
  simp only [LoggedAction.value, logged, JsValue.toJson, JsValue.membersToJson, JsValue.toJson_ofJson]
  rfl

/-- An `ActionLogEntry` as the logs keep it. -/
structure LoggedEntry where
  seq : Int
  action : JsValue
  nodeId : String
  recordedAt : Int

/-- A `Snapshot` as the logs keep it: any number may be given for `atSeq`, and any table. -/
structure TakenSnapshot where
  atSeq : Number
  state : JsValue
  takenAt : Int

inductive ActionLogCall where
  | append (action : LoggedAction) (nodeId : String)
  | replay (afterSeq : Option Number)
  | lastSeq
  | snapshot (atSeq : Number) (state : JsValue)
  | getSnapshot
  | prune (beforeSeq : Number)

/-- What a call returns, or the message of what it throws. -/
inductive ActionLogResult where
  | seq (seq : Int)
  | entries (entries : List LoggedEntry)
  | undefined
  | snapshot (snapshot : TakenSnapshot)
  | pruned (count : Nat)
  | thrown (message : String)

/-- The default of `replay`. -/
def defaultAfterSeq (afterSeq : Option Number) : Number := afterSeq.getD (.ofInt 0)

/-! ### `InMemoryActionLog` -/

structure InMemoryActionLog where
  entries : List LoggedEntry := []
  nextSeq : Int := 1
  snapshot : Option TakenSnapshot := none

namespace InMemoryActionLog

def append (self : InMemoryActionLog) (now : Int) (action : LoggedAction) (nodeId : String) : Int × InMemoryActionLog :=
  let seq := self.nextSeq
  (seq,
    { self with
      entries := self.entries ++ [{ seq, action := action.value, nodeId, recordedAt := now }]
      nextSeq := self.nextSeq + 1 })

def replay (self : InMemoryActionLog) (afterSeq : Number) : List LoggedEntry :=
  self.entries.filter fun e => afterSeq.lt (.ofInt e.seq)

def lastSeq (self : InMemoryActionLog) : Int :=
  match self.entries.getLast? with
  | some e => e.seq
  | none => 0

def takeSnapshot (self : InMemoryActionLog) (now : Int) (atSeq : Number) (state : JsValue) : InMemoryActionLog :=
  { self with snapshot := some { atSeq, state, takenAt := now } }

def prune (self : InMemoryActionLog) (beforeSeq : Number) : Nat × InMemoryActionLog :=
  let entries := self.entries.filter fun e => beforeSeq.le (.ofInt e.seq)
  (self.entries.length - entries.length, { self with entries })

def call (self : InMemoryActionLog) (now : Int) : ActionLogCall → ActionLogResult × InMemoryActionLog
  | .append action nodeId =>
    let (seq, log) := self.append now action nodeId
    (.seq seq, log)
  | .replay afterSeq => (.entries (self.replay (defaultAfterSeq afterSeq)), self)
  | .lastSeq => (.seq self.lastSeq, self)
  | .snapshot atSeq state => (.undefined, self.takeSnapshot now atSeq state)
  | .getSnapshot =>
    match self.snapshot with
    | some snapshot => (.snapshot snapshot, self)
    | none => (.undefined, self)
  | .prune beforeSeq =>
    let (count, log) := self.prune beforeSeq
    (.pruned count, log)

end InMemoryActionLog

/-! ### `SqliteActionLog` -/

/-- A number bound to a statement; `none` is NULL, which SQLite makes of NaN. -/
def Number.bound : Number → Option (ExtendedRat)
  | .real value => some value
  | .nan => none

/-- A row of the `action_log` table. -/
structure ActionLogRow where
  seq : Int
  recordedAt : Int
  action : String
  data : String
  nodeId : String
  deriving DecidableEq

/-- The row of the `snapshot` table. -/
structure SnapshotRow where
  atSeq : ExtendedRat
  stateJson : String
  takenAt : Int
  deriving DecidableEq

/-- `sequence` is the largest `seq` that was ever given, which AUTOINCREMENT keeps. -/
structure SqliteActionLog where
  rows : List ActionLogRow := []
  sequence : Int := 0
  snapshotRow : Option SnapshotRow := none
  deriving DecidableEq

/-- `seq > ?`; a comparison with NULL is NULL. -/
def ActionLogRow.seqAbove (row : ActionLogRow) (bound : Option (ExtendedRat)) : Option Bool :=
  bound.map fun value => decide (value < .ofInt row.seq)

/-- `seq < ?`. -/
def ActionLogRow.seqBelow (row : ActionLogRow) (bound : Option (ExtendedRat)) : Option Bool :=
  bound.map fun value => decide (ExtendedRat.ofInt row.seq < value)

/-- `none` when the text does not parse. -/
def ActionLogRow.toEntry (row : ActionLogRow) : Option LoggedEntry :=
  (JsValue.parse row.data).map fun action =>
    { seq := row.seq, action, nodeId := row.nodeId, recordedAt := row.recordedAt }

/-- A row with the text of an action gives back what a text can hold of it. -/
theorem ActionLogRow.toEntry_action {row : ActionLogRow} {action : Action} (h : row.data = action.logged.value.stringify) :
    (row.toEntry.bind fun entry => Action.ofJson entry.action.toJson) = some action.stored := by
  rw [toEntry, h, JsValue.parse_stringify, Option.map_some, Option.bind_some, JsValue.toJson_ofJson,
    Action.logged_toJson, Action.ofJson_toJson]

namespace SqliteActionLog

def append (self : SqliteActionLog) (now : Int) (action : LoggedAction) (nodeId : String) : Int × SqliteActionLog :=
  let seq := self.sequence + 1
  let row : ActionLogRow :=
    { seq, recordedAt := now, action := action.action.text, data := action.value.stringify, nodeId }
  (seq, { self with rows := self.rows ++ [row], sequence := seq })

/-- `none` when a row does not parse. -/
def replay (self : SqliteActionLog) (afterSeq : Number) : Option (List LoggedEntry) :=
  let rows := self.rows.filter fun row => row.seqAbove afterSeq.bound = some true
  (rows.insertionSort fun first second => first.seq ≤ second.seq).mapM ActionLogRow.toEntry

/-- `SELECT MAX(seq)` is NULL for an empty table. -/
def lastSeq (self : SqliteActionLog) : Int := (self.rows.map ActionLogRow.seq).max?.getD 0

def takeSnapshot (self : SqliteActionLog) (now : Int) (atSeq : Number) (state : JsValue) :
    Except String SqliteActionLog :=
  match atSeq.bound with
  | some atSeq =>
    .ok { self with snapshotRow := some { atSeq, stateJson := state.stringify, takenAt := now } }
  | none => .error "NOT NULL constraint failed: snapshot.at_seq"

def getSnapshot (self : SqliteActionLog) : Option (Option TakenSnapshot) :=
  match self.snapshotRow with
  | some row =>
    (JsValue.parse row.stateJson).map fun state =>
      some { atSeq := .real row.atSeq, state, takenAt := row.takenAt }
  | none => some none

/-- A row for which the condition is NULL is not deleted. -/
def prune (self : SqliteActionLog) (beforeSeq : Number) : Nat × SqliteActionLog :=
  let rows := self.rows.filter fun row => row.seqBelow beforeSeq.bound ≠ some true
  (self.rows.length - rows.length, { self with rows })

def call (self : SqliteActionLog) (now : Int) : ActionLogCall → ActionLogResult × SqliteActionLog
  | .append action nodeId =>
    let (seq, log) := self.append now action nodeId
    (.seq seq, log)
  | .replay afterSeq =>
    match self.replay (defaultAfterSeq afterSeq) with
    | some entries => (.entries entries, self)
    | none => (.thrown "SyntaxError", self)
  | .lastSeq => (.seq self.lastSeq, self)
  | .snapshot atSeq state =>
    match self.takeSnapshot now atSeq state with
    | .ok log => (.undefined, log)
    | .error message => (.thrown message, self)
  | .getSnapshot =>
    match self.getSnapshot with
    | some (some snapshot) => (.snapshot snapshot, self)
    | some none => (.undefined, self)
    | none => (.thrown "SyntaxError", self)
  | .prune beforeSeq =>
    let (count, log) := self.prune beforeSeq
    (.pruned count, log)

end SqliteActionLog

end CatalystRouter
