import CatalystRouter.Journal.ActionLog
import CatalystRouter.Library.NumberedLog
import CatalystRouter.Orchestrator.Ports

namespace CatalystRouter

open NumberedLog

/-- A journal against the full log that was ever appended to it: it keeps the
    log from some entry on, and a snapshot that covers what it does not keep. -/
structure Covers (nodeId : String) (clock : ActionLogEntry → Int) (full : List ActionLogEntry) (journal : ActionLog) :
    Prop where
  numbered : NumberedFrom ActionLogEntry.seq 1 full
  nextSeq : journal.nextSeq = 1 + full.length
  kept : ∃ dropped : Nat, dropped ≤ full.length ∧ journal.entries = full.drop dropped ∧
    match journal.snapshot with
    | some snapshot => ∃ covered : Nat, snapshot.atSeq = covered ∧ dropped ≤ covered ∧ covered ≤ full.length ∧
        snapshot.state = replayEntries nodeId clock newRouteTable (full.take covered)
    | none => dropped = 0

section

variable {nodeId : String} {clock : ActionLogEntry → Int} {full : List ActionLogEntry} {journal : ActionLog}

theorem replayEntries_append (state : RouteTable) (first second : List ActionLogEntry) :
    replayEntries nodeId clock state (first ++ second) =
      replayEntries nodeId clock (replayEntries nodeId clock state first) second := List.foldl_append

theorem replayEntry_eq (state : RouteTable) (entry : ActionLogEntry) :
    replayEntry nodeId clock state entry = (Rib.plan nodeId (clock entry) entry.action state).newState := by
  unfold replayEntry
  dsimp only
  split
  · rfl
  · rename_i hsame
    have hsame : (Rib.plan nodeId (clock entry) entry.action state).sameReference = true := by
      simpa [Rib.stateChanged] using hsame
    exact (Bus.plan_newState_of_sameReference hsame).symm

/-- The entries after a position are what the full log has from there on. -/
theorem Covers.replay (h : Covers nodeId clock full journal) {dropped position : Nat} (hdropped : dropped ≤ position)
    (hentries : journal.entries = full.drop dropped) : journal.replay position = full.drop position := by
  have hnumbered := h.numbered.drop dropped
  have hfilter := hnumbered.filter_le ((position : Int) + 1)
  unfold ActionLog.replay
  rw [hentries]
  have hafter : (full.drop dropped).filter (fun e => decide ((position : Int) < e.seq)) =
      (full.drop dropped).filter (fun e => decide ((position : Int) + 1 ≤ e.seq)) := rfl
  rw [hafter, hfilter, List.drop_drop]
  congr 1
  omega

/-- Recovery from the journal is the replay of the full log. -/
theorem Covers.recover (h : Covers nodeId clock full journal) :
    recover nodeId clock journal = replayEntries nodeId clock newRouteTable full := by
  obtain ⟨dropped, hdropped, hentries, hcovered⟩ := h.kept
  unfold CatalystRouter.recover
  cases hsnapshot : journal.snapshot with
  | none =>
    rw [hsnapshot] at hcovered
    subst hcovered
    have hreplay := h.replay (le_refl 0) hentries
    simpa using congrArg (replayEntries nodeId clock newRouteTable) hreplay
  | some snapshot =>
    rw [hsnapshot] at hcovered
    obtain ⟨covered, hseq, hle, hlen, hstate⟩ := hcovered
    dsimp only
    rw [hseq, h.replay hle hentries, hstate, ← replayEntries_append, List.take_append_drop]

theorem Covers.append (h : Covers nodeId clock full journal) (now : Int) (action : Action) (writer : String) :
    Covers nodeId clock (full ++ [{ seq := journal.nextSeq, action, nodeId := writer, recordedAt := now }])
      (journal.append now action writer) := by
  obtain ⟨dropped, hdropped, hentries, hcovered⟩ := h.kept
  have hnext := h.nextSeq
  refine ⟨h.numbered.concat hnext, ?_, dropped, ?_, ?_, ?_⟩
  · simp only [ActionLog.append, List.length_append, List.length_singleton]
    omega
  · rw [List.length_append]
    omega
  · simp only [ActionLog.append]
    rw [hentries, List.drop_append_of_le_length hdropped]
  · simp only [ActionLog.append]
    cases hsnapshot : journal.snapshot with
    | none => simpa [hsnapshot] using hcovered
    | some snapshot =>
      rw [hsnapshot] at hcovered
      obtain ⟨covered, hseq, hle, hlen, hstate⟩ := hcovered
      refine ⟨covered, hseq, hle, ?_, ?_⟩
      · rw [List.length_append]
        omega
      · rw [hstate, List.take_append_of_le_length hlen]

/-- A compaction does nothing, or takes a snapshot and prunes what is before the
    tail. -/
theorem ActionLog.compact_cases (journal : ActionLog) (minEntries tailSize : Nat) (state : RouteTable) :
    journal.compact minEntries tailSize state = journal ∨
      (journal.lastSeq ≠ 0 ∧ journal.compact minEntries tailSize state =
        (journal.takeSnapshot journal.lastSeq state).prune (max 1 (journal.lastSeq - tailSize + 1))) := by
  unfold ActionLog.compact
  split
  · exact .inl rfl
  · rename_i hsome
    split
    · exact .inl rfl
    · exact .inr ⟨hsome, rfl⟩

/-- Compaction of the state that the full log makes. -/
theorem Covers.compact (h : Covers nodeId clock full journal) {state : RouteTable}
    (hstate : state = replayEntries nodeId clock newRouteTable full) (minEntries tailSize : Nat) :
    Covers nodeId clock full (journal.compact minEntries tailSize state) := by
  obtain ⟨dropped, hdropped, hentries, -⟩ := h.kept
  have hnumbered := h.numbered.drop dropped
  obtain hskipped | ⟨hsome, htaken⟩ := journal.compact_cases minEntries tailSize state
  · rwa [hskipped]
  · have hlast : journal.lastSeq = full.length := by
      unfold ActionLog.lastSeq at hsome ⊢
      cases hlast : journal.entries.getLast? with
      | none => simp [hlast] at hsome
      | some e =>
        rw [hentries] at hlast
        have hseq := hnumbered.getLast? hlast
        rw [List.length_drop] at hseq
        dsimp only
        omega
    rw [hlast] at htaken
    have hcut := hnumbered.filter_le (max 1 ((full.length : Int) - tailSize + 1))
    have hcovered : ∃ covered : Nat, (full.length : Int) = covered ∧
        dropped + (max 1 ((full.length : Int) - tailSize + 1) - (1 + dropped)).toNat ≤ covered ∧
        covered ≤ full.length ∧ state = replayEntries nodeId clock newRouteTable (full.take covered) :=
      ⟨full.length, rfl, by omega, le_refl _, by rw [List.take_length, hstate]⟩
    rw [htaken]
    refine ⟨h.numbered, h.nextSeq, _, by omega, ?_, hcovered⟩
    simp only [ActionLog.prune, ActionLog.takeSnapshot]
    rw [hentries, hcut, List.drop_drop]

end

/-! ### A run with compactions against the same run without -/

namespace RoutingInformationBase

variable {nodeId : String}

/-- The RIB with its compacted journal, next to the one that never compacts. -/
structure Tracks (nodeId : String) (rib full : RoutingInformationBase) : Prop where
  state : rib.state = full.state
  replayed : full.state = replayEntries nodeId (·.recordedAt) newRouteTable full.journal.entries
  nextSeq : full.journal.nextSeq = rib.journal.nextSeq
  unpruned : full.journal.snapshot = none
  covers : Covers nodeId (·.recordedAt) full.journal.entries rib.journal

end RoutingInformationBase

end CatalystRouter
