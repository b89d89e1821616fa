import CatalystRouter.Library.Runs
import CatalystRouter.Journal.ActionLogs

namespace CatalystRouter

/-! The two logs under the same calls. -/

def LoggedEntry.untimed (entry : LoggedEntry) : LoggedEntry := { entry with recordedAt := 0 }

/-- What is the same whenever it was recorded. -/
def ActionLogResult.untimed : ActionLogResult → ActionLogResult
  | .entries replayed => .entries (replayed.map LoggedEntry.untimed)
  | .snapshot taken => .snapshot { taken with takenAt := 0 }
  | result => result

/-- The row holds an entry: its number and node, and the text of its action. -/
structure ActionLogRow.Holds (row : ActionLogRow) (entry : LoggedEntry) : Prop where
  seq : row.seq = entry.seq
  data : row.data = entry.action.stringify
  nodeId : row.nodeId = entry.nodeId

/-- The database has the entries and the snapshot of the in-memory log, whose entries come
    in the order of their numbers. -/
structure SqliteActionLog.Mirrors (sqlite : SqliteActionLog) (memory : InMemoryActionLog) : Prop where
  rows : List.Forall₂ ActionLogRow.Holds sqlite.rows memory.entries
  sequence : memory.nextSeq = sqlite.sequence + 1
  ordered : (memory.entries.map LoggedEntry.seq).Pairwise (· < ·)
  below : ∀ e ∈ memory.entries, e.seq < memory.nextSeq
  snapshot : (sqlite.snapshotRow.map fun row => (Number.real row.atSeq, row.stateJson)) =
    memory.snapshot.map fun snapshot => (snapshot.atSeq, snapshot.state.stringify)

variable {sqlite : SqliteActionLog} {memory : InMemoryActionLog} {rows : List ActionLogRow} {entries : List LoggedEntry}

/-! ### Rows and entries -/

/-- What is read of a row: the action is what comes back of its text. -/
def LoggedEntry.reread (entry : LoggedEntry) : LoggedEntry := { entry with action := .ofJson entry.action.toJson }

/-- A row is read back as its entry, the action as it was stored. -/
theorem ActionLogRow.Holds.toEntry {row : ActionLogRow} {entry : LoggedEntry} (h : row.Holds entry) :
    row.toEntry = some { entry.reread with recordedAt := row.recordedAt } := by
  rw [ActionLogRow.toEntry, h.data, JsValue.parse_stringify, h.seq, h.nodeId]
  rfl

/-- So are all rows. -/
theorem mapM_toEntry (h : List.Forall₂ ActionLogRow.Holds rows entries) :
    ∃ entries', rows.mapM ActionLogRow.toEntry = some entries' ∧
      entries'.map LoggedEntry.untimed = entries.map fun e => e.reread.untimed := by
  induction h with
  | nil => exact ⟨[], rfl, rfl⟩
  | cons hrow hrest ih =>
    obtain ⟨entries', hentries, hsame⟩ := ih
    refine ⟨_, by rw [List.mapM_cons, hrow.toEntry, hentries]; rfl, ?_⟩
    exact congrArg (List.cons _) hsame

/-- Rows and entries have the same numbers. -/
theorem map_seq (h : List.Forall₂ ActionLogRow.Holds rows entries) :
    rows.map ActionLogRow.seq = entries.map LoggedEntry.seq := by
  induction h with
  | nil => rfl
  | cons hrow hrest ih => exact congrArg₂ List.cons hrow.seq ih

/-- A selection by number picks the same of both. -/
theorem filter_seq (h : List.Forall₂ ActionLogRow.Holds rows entries) (p : Int → Bool) :
    List.Forall₂ ActionLogRow.Holds (rows.filter fun row => p row.seq) (entries.filter fun e => p e.seq) := by
  induction h with
  | nil => exact .nil
  | @cons row entry rows entries hrow hrest ih =>
    by_cases hp : p entry.seq = true
    · simp only [List.filter_cons, hrow.seq, hp, if_true]
      exact .cons hrow ih
    · simp only [List.filter_cons, hrow.seq, hp]
      exact ih

/-- What is read of the rows are the entries exactly if the actions are finite. -/
theorem reread_eq_iff :
    ((entries.map fun e => e.reread.untimed) = entries.map LoggedEntry.untimed) ↔
      ∀ e ∈ entries, e.action.finite = true := by
  rw [List.map_inj_left]
  refine forall₂_congr fun e _ => ?_
  rw [← JsValue.ofJson_toJson_iff]
  simp [LoggedEntry.reread, LoggedEntry.untimed]

/-- The largest number of an ordered log is the last. -/
theorem max?_of_ordered {seqs : List Int} (h : seqs.Pairwise (· < ·)) : seqs.max? = seqs.getLast? := by
  cases hlast : seqs.getLast? with
  | none => simp [List.getLast?_eq_none_iff.mp hlast]
  | some last =>
    obtain ⟨init, rfl⟩ := List.getLast?_eq_some_iff.mp hlast
    refine List.max?_eq_some_iff.mpr ⟨by simp, fun seq hseq => ?_⟩
    obtain hinit | hlast := List.mem_append.mp hseq
    · exact Int.le_of_lt ((List.pairwise_append.mp h).2.2 seq hinit last (by simp))
    · exact le_of_eq (List.mem_singleton.mp hlast)

/-! ### The conditions of the statements -/

/-- SQLite compares a row with the bound as JavaScript does. -/
theorem ActionLogRow.seqAbove_iff (row : ActionLogRow) (afterSeq : Number) :
    row.seqAbove afterSeq.bound = some true ↔ afterSeq.lt (.ofInt row.seq) = true := by
  cases afterSeq <;> simp [seqAbove, Number.bound, Number.lt, Number.ofInt]

/-- So it does from above, for a bound that is a number. -/
theorem ActionLogRow.seqBelow_iff (row : ActionLogRow) (beforeSeq : ExtendedRat) :
    row.seqBelow (Number.real beforeSeq).bound ≠ some true ↔ (Number.real beforeSeq).le (.ofInt row.seq) = true := by
  simp [seqBelow, Number.bound, Number.le, Number.ofInt]

/-- NaN is bound as NULL, and no row is below it. -/
theorem ActionLogRow.seqBelow_nan (row : ActionLogRow) : row.seqBelow Number.nan.bound ≠ some true := by
  simp [seqBelow, Number.bound]

/-! ### The calls -/

namespace SqliteActionLog.Mirrors

/-- An append gives both logs the same number. -/
theorem append (h : sqlite.Mirrors memory) (now now' : Int) (action : LoggedAction) (nodeId : String) :
    (sqlite.append now' action nodeId).1 = (memory.append now action nodeId).1 ∧
      (sqlite.append now' action nodeId).2.Mirrors (memory.append now action nodeId).2 := by
  have hseq := h.sequence
  refine ⟨hseq.symm, ?_, ?_, ?_, ?_, h.snapshot⟩
  · exact List.rel_append h.rows (.cons ⟨hseq.symm, rfl, rfl⟩ .nil)
  · simp [SqliteActionLog.append, InMemoryActionLog.append, hseq]
  · simp only [InMemoryActionLog.append, List.map_append]
    refine List.pairwise_append.mpr ⟨h.ordered, by simp, fun seq hmem next hnext => ?_⟩
    obtain ⟨e, he, rfl⟩ := List.mem_map.mp hmem
    obtain rfl : next = memory.nextSeq := by simpa using hnext
    exact h.below e he
  · intro e he
    simp only [InMemoryActionLog.append, List.mem_append, List.mem_singleton] at he ⊢
    obtain he | rfl := he
    · have hbelow := h.below e he
      omega
    · simp

/-- The rows stay in the order of their numbers. -/
theorem ordered_rows (h : sqlite.Mirrors memory) : (sqlite.rows.map ActionLogRow.seq).Pairwise (· < ·) := by
  rw [map_seq h.rows]
  exact h.ordered

/-- Both logs replay the same entries, up to the clock and the JSON round trip. -/
theorem replay (h : sqlite.Mirrors memory) (afterSeq : Number) :
    ∃ replayed, sqlite.replay afterSeq = some replayed ∧
      replayed.map LoggedEntry.untimed = (memory.replay afterSeq).map fun e => e.reread.untimed := by
  have hselected : (sqlite.rows.filter fun row => row.seqAbove afterSeq.bound = some true) =
      sqlite.rows.filter fun row => afterSeq.lt (.ofInt row.seq) :=
    List.filter_congr fun row _ => by simp [row.seqAbove_iff]
  have hsorted : (sqlite.rows.filter fun row => afterSeq.lt (.ofInt row.seq)).Pairwise fun first second =>
      first.seq ≤ second.seq :=
    ((List.pairwise_map.mp h.ordered_rows).filter _).imp Int.le_of_lt
  unfold SqliteActionLog.replay
  dsimp only
  rw [hselected, hsorted.insertionSort_eq]
  exact mapM_toEntry (filter_seq h.rows fun seq => afterSeq.lt (.ofInt seq))

/-- Both logs have the same last number. -/
theorem lastSeq (h : sqlite.Mirrors memory) : sqlite.lastSeq = memory.lastSeq := by
  unfold SqliteActionLog.lastSeq InMemoryActionLog.lastSeq
  rw [max?_of_ordered h.ordered_rows, map_seq h.rows, List.getLast?_map]
  cases memory.entries.getLast? <;> rfl

/-- A snapshot at a number is taken alike. -/
theorem takeSnapshot (h : sqlite.Mirrors memory) (now now' : Int) (atSeq : ExtendedRat) (state : JsValue) :
    ∃ sqlite', sqlite.takeSnapshot now' (.real atSeq) state = .ok sqlite' ∧
      sqlite'.Mirrors (memory.takeSnapshot now (.real atSeq) state) :=
  ⟨_, rfl, h.rows, h.sequence, h.ordered, h.below, rfl⟩

/-- A snapshot is read back alike, up to the JSON round trip. -/
theorem getSnapshot (h : sqlite.Mirrors memory) :
    (memory.snapshot = none ∧ sqlite.getSnapshot = some none) ∨
      ∃ taken takenAt, memory.snapshot = some taken ∧
        sqlite.getSnapshot = some (some { taken with state := .ofJson taken.state.toJson, takenAt }) := by
  have hsnapshot := h.snapshot
  unfold SqliteActionLog.getSnapshot
  cases hrow : sqlite.snapshotRow with
  | none => exact .inl ⟨by simpa [hrow] using hsnapshot, rfl⟩
  | some row =>
    obtain ⟨taken, htaken, hsame⟩ : ∃ taken, memory.snapshot = some taken ∧
        (taken.atSeq, taken.state.stringify) = (Number.real row.atSeq, row.stateJson) := by
      simpa [hrow] using hsnapshot
    obtain ⟨hseq, hstate⟩ := Prod.mk.inj hsame
    refine .inr ⟨taken, row.takenAt, htaken, ?_⟩
    simp [← hseq, ← hstate, JsValue.parse_stringify]

/-- A selection by number of all entries is what both logs keep. -/
theorem keep (h : sqlite.Mirrors memory) (p : Int → Bool) :
    SqliteActionLog.Mirrors { sqlite with rows := sqlite.rows.filter fun row => p row.seq }
      { memory with entries := memory.entries.filter fun e => p e.seq } where
  rows := filter_seq h.rows p
  sequence := h.sequence
  ordered := by
    have hordered := (List.pairwise_map.mp h.ordered).filter fun e => p e.seq
    exact List.pairwise_map.mpr hordered
  below e he := h.below e (List.mem_filter.mp he).1
  snapshot := h.snapshot

/-- Both logs have as many entries. -/
theorem length (h : sqlite.Mirrors memory) : sqlite.rows.length = memory.entries.length :=
  h.rows.length_eq

/-- Both logs prune as many entries, unless there are some and the bound is NaN. -/
theorem prune (h : sqlite.Mirrors memory) {beforeSeq : Number} (hnan : beforeSeq = .nan → memory.entries = []) :
    (sqlite.prune beforeSeq).1 = (memory.prune beforeSeq).1 ∧
      (sqlite.prune beforeSeq).2.Mirrors (memory.prune beforeSeq).2 := by
  have hkeep := h.keep fun seq => beforeSeq.le (.ofInt seq)
  have hrows : (sqlite.rows.filter fun row => row.seqBelow beforeSeq.bound ≠ some true) =
      sqlite.rows.filter fun row => beforeSeq.le (.ofInt row.seq) := by
    cases beforeSeq with
    | real value => exact List.filter_congr fun row _ => by simp [row.seqBelow_iff]
    | nan =>
      have hempty : sqlite.rows = [] := List.eq_nil_of_length_eq_zero (by rw [h.length, hnan rfl]; rfl)
      simp [hempty]
  have hlength := hkeep.length
  unfold SqliteActionLog.prune InMemoryActionLog.prune
  rw [hrows]
  dsimp only at hlength ⊢
  rw [h.length, hlength]
  exact ⟨rfl, hkeep⟩

end SqliteActionLog.Mirrors

/-! ### Runs of calls -/

/-- The calls that tell the two logs apart: NaN as the number of a snapshot, or as that up
    to which entries are to be pruned, and the return of a number that is not finite. -/
def InMemoryActionLog.Unstorable (self : InMemoryActionLog) : ActionLogCall → Prop
  | .snapshot .nan _ => True
  | .prune .nan => self.entries ≠ []
  | .replay afterSeq => ∃ e ∈ self.replay (defaultAfterSeq afterSeq), e.action.finite = false
  | .getSnapshot => ∃ taken ∈ self.snapshot, taken.state.finite = false
  | _ => False

/-- The same call on both logs, at the readings of their clocks. -/
structure ActionLogEvent where
  call : ActionLogCall
  memoryTime : Int
  sqliteTime : Int

structure ActionLogs where
  memory : InMemoryActionLog := {}
  sqlite : SqliteActionLog := {}

namespace ActionLogs

def step (self : ActionLogs) (event : ActionLogEvent) : ActionLogs where
  memory := (self.memory.call event.memoryTime event.call).2
  sqlite := (self.sqlite.call event.sqliteTime event.call).2

def SameResult (self : ActionLogs) (event : ActionLogEvent) : Prop :=
  (self.memory.call event.memoryTime event.call).1.untimed = (self.sqlite.call event.sqliteTime event.call).1.untimed

/-- A call keeps them mirrored, unless it is one that cannot be stored. -/
theorem step_mirrors {self : ActionLogs} (h : self.sqlite.Mirrors self.memory) (event : ActionLogEvent)
    (hstorable : ¬ self.memory.Unstorable event.call) : (self.step event).sqlite.Mirrors (self.step event).memory := by
  obtain ⟨call, now, now'⟩ := event
  unfold step
  cases call with
  | append action nodeId => exact (h.append now now' action nodeId).2
  | replay afterSeq =>
    obtain ⟨replayed, hreplay, -⟩ := h.replay (defaultAfterSeq afterSeq)
    simpa only [InMemoryActionLog.call, SqliteActionLog.call, hreplay] using h
  | lastSeq => exact h
  | snapshot atSeq state =>
    cases atSeq with
    | nan => exact absurd trivial hstorable
    | real atSeq =>
      obtain ⟨sqlite', htaken, hmirrors⟩ := h.takeSnapshot now now' atSeq state
      simpa only [InMemoryActionLog.call, SqliteActionLog.call, htaken] using hmirrors
  | getSnapshot =>
    obtain ⟨hnone, hsqlite⟩ | ⟨taken, takenAt, hsome, hsqlite⟩ := h.getSnapshot
    · simpa only [InMemoryActionLog.call, SqliteActionLog.call, hnone, hsqlite] using h
    · simpa only [InMemoryActionLog.call, SqliteActionLog.call, hsome, hsqlite] using h
  | prune beforeSeq =>
    have hnan : beforeSeq = .nan → self.memory.entries = [] := by
      rintro rfl
      by_contra hsome
      exact hstorable hsome
    exact (h.prune hnan).2

/-- One case per call: when the two logs return the same. -/
theorem sameResult_iff {self : ActionLogs} (h : self.sqlite.Mirrors self.memory) (event : ActionLogEvent) :
    self.SameResult event ↔ ¬ self.memory.Unstorable event.call := by
  obtain ⟨call, now, now'⟩ := event
  unfold SameResult
  cases call with
  | append action nodeId =>
    exact iff_of_true (congrArg (ActionLogResult.untimed ∘ .seq) (h.append now now' action nodeId).1.symm) id
  | lastSeq => exact iff_of_true (congrArg (ActionLogResult.untimed ∘ .seq) h.lastSeq.symm) id
  | replay afterSeq =>
    obtain ⟨replayed, hreplay, hsame⟩ := h.replay (defaultAfterSeq afterSeq)
    have hfinite : (∃ e ∈ self.memory.replay (defaultAfterSeq afterSeq), e.action.finite = false) ↔
        ¬ ∀ e ∈ self.memory.replay (defaultAfterSeq afterSeq), e.action.finite = true := by simp
    simp only [InMemoryActionLog.call, SqliteActionLog.call, hreplay, ActionLogResult.untimed,
      ActionLogResult.entries.injEq, InMemoryActionLog.Unstorable, hsame]
    rw [hfinite, not_not, eq_comm]
    exact reread_eq_iff
  | snapshot atSeq state =>
    cases atSeq with
    | nan => exact iff_of_false (fun hsame => by cases hsame) (fun hstorable => hstorable trivial)
    | real atSeq =>
      obtain ⟨sqlite', htaken, -⟩ := h.takeSnapshot now now' atSeq state
      simp only [InMemoryActionLog.call, SqliteActionLog.call, htaken]
      exact iff_of_true trivial id
  | getSnapshot =>
    obtain ⟨hnone, hsqlite⟩ | ⟨taken, takenAt, hsome, hsqlite⟩ := h.getSnapshot
    · simp only [InMemoryActionLog.call, SqliteActionLog.call, hnone, hsqlite, InMemoryActionLog.Unstorable]
      exact iff_of_true trivial (by simp)
    · simp only [InMemoryActionLog.call, SqliteActionLog.call, hsome, hsqlite, InMemoryActionLog.Unstorable,
        ActionLogResult.untimed, ActionLogResult.snapshot.injEq, TakenSnapshot.mk.injEq, true_and, and_true]
      rw [eq_comm, JsValue.ofJson_toJson_iff]
      simp
  | prune beforeSeq =>
    cases beforeSeq with
    | real beforeSeq =>
      exact iff_of_true (congrArg (ActionLogResult.untimed ∘ .pruned) (h.prune (by simp)).1.symm) id
    | nan =>
      -- no entry is at least NaN, and no row is below NULL
      have hall : (self.memory.prune .nan).1 = self.memory.entries.length := by
        simp [InMemoryActionLog.prune, Number.le]
      have hnone : (self.sqlite.prune .nan).1 = 0 := by
        simp [SqliteActionLog.prune, ActionLogRow.seqBelow_nan]
      simp only [InMemoryActionLog.call, SqliteActionLog.call, ActionLogResult.untimed, ActionLogResult.pruned.injEq,
        InMemoryActionLog.Unstorable, hall, hnone, not_not]
      exact List.length_eq_zero_iff

theorem start_mirrors : SqliteActionLog.Mirrors {} {} := ⟨.nil, rfl, List.Pairwise.nil, by simp, rfl⟩

/-- The two logs return the same results at every step of a run exactly if none of its calls
    takes a snapshot at NaN, prunes entries before NaN, or reads an action or a table with a
    number that is not finite. -/
theorem run_sameResults_iff (events : List ActionLogEvent) :
    Runs.EachStep step SameResult {} events ↔
      Runs.EachStep step (fun self event => ¬ self.memory.Unstorable event.call) {} events :=
  Runs.eachStep_congr step (I := fun self : ActionLogs => self.sqlite.Mirrors self.memory)
    (fun _ event h => sameResult_iff h event) (fun _ event h hstorable => step_mirrors h event hstorable) start_mirrors
    events

/-- A Tick, which both logs give the number `1`. -/
def appendTick : ActionLogEvent :=
  ⟨.append { action := .tick, data := .object [("now", .number (.integer 1))] } "node-a", 1, 2⟩

/-- With an entry in the logs, `prune(NaN)` prunes it from one of them only. -/
theorem prune_nan_differs :
    ¬ Runs.EachStep step SameResult {} [appendTick, ⟨.prune .nan, 3, 4⟩] ∧
      (((step {} appendTick).memory.call 3 (.prune .nan)).1 = .pruned 1) ∧
      ((step {} appendTick).sqlite.call 4 (.prune .nan)).1 = .pruned 0 := by
  have hmemory : ((step {} appendTick).memory.call 3 (.prune .nan)).1 = .pruned 1 := rfl
  have hsqlite : ((step {} appendTick).sqlite.call 4 (.prune .nan)).1 = .pruned 0 := rfl
  refine ⟨fun hsame => ?_, hmemory, hsqlite⟩
  have hpruned : SameResult (step {} appendTick) ⟨.prune .nan, 3, 4⟩ := hsame.2.1
  unfold SameResult at hpruned
  rw [hmemory, hsqlite] at hpruned
  cases hpruned

example :
    let emptied := Runs.run step {} [appendTick, appendTick, ⟨.prune (.ofInt 3), 3, 4⟩]
    emptied.memory.entries = [] ∧ (emptied.sqlite.call 5 .lastSeq).1 = .seq 0 ∧
      (emptied.sqlite.call 5 appendTick.call).1 = .seq 3 := ⟨rfl, rfl, rfl⟩

end ActionLogs

end CatalystRouter
