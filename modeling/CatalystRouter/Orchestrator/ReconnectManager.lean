import Mathlib.Algebra.Group.Nat.Defs
import Mathlib.Logic.Function.Basic
import CatalystRouter.Routing.State

namespace CatalystRouter

/-- JavaScript truthiness of an optional string. -/
def truthyString (value : Option String) : Bool :=
  match value with
  | some text => text != ""
  | none => false

/-- A pending timer with the record that its callback has captured. -/
structure ReconnectTimer where
  peer : PeerRecord
  attempt : Nat
  delay : Nat
  deriving DecidableEq, Repr

/-- The two maps of a `ReconnectManager`, by peer name. -/
structure ReconnectManager where
  timers : List ReconnectTimer := []
  attempts : String → Option Nat := fun _ => none
  maxBackoffMs : Nat := 60000

namespace ReconnectManager

/-- `timers.has`. -/
def isScheduled (manager : ReconnectManager) (peerName : String) : Bool :=
  manager.timers.any fun timer => timer.peer.name == peerName

def scheduleReconnect (manager : ReconnectManager) (peer : PeerRecord) : ReconnectManager :=
  if manager.isScheduled peer.name then manager
  else
    let attempt := (manager.attempts peer.name).getD 0 + 1
    let delay := min (1000 * 2 ^ (attempt - 1)) manager.maxBackoffMs
    { manager with
      timers := manager.timers ++ [{ peer, attempt, delay }]
      attempts := Function.update manager.attempts peer.name (some attempt) }

/-- `timers.delete`. -/
def deleteTimer (manager : ReconnectManager) (peerName : String) : ReconnectManager :=
  { manager with timers := manager.timers.filter fun timer => timer.peer.name != peerName }

/-- `attempts.delete`, after a reconnect that has succeeded. -/
def resetAttempts (manager : ReconnectManager) (peerName : String) : ReconnectManager :=
  { manager with attempts := Function.update manager.attempts peerName none }

/-- `clearTimeout` keeps the callback of the timer from running. -/
def cancelReconnect (manager : ReconnectManager) (peerName : String) : ReconnectManager :=
  (manager.deleteTimer peerName).resetAttempts peerName

def stopAll (manager : ReconnectManager) : ReconnectManager :=
  { manager with timers := [], attempts := fun _ => none }

variable {manager : ReconnectManager} {peerName : String} {timer : ReconnectTimer}

theorem isScheduled_iff :
    manager.isScheduled peerName = true ↔ ∃ timer ∈ manager.timers, timer.peer.name = peerName := by
  simp [isScheduled]

/-- Scheduling leaves a timer for the peer, and no other timer that was not there. -/
theorem scheduleReconnect_isScheduled (manager : ReconnectManager) (peer : PeerRecord) :
    (manager.scheduleReconnect peer).isScheduled peer.name = true := by
  unfold scheduleReconnect
  split
  case isTrue hscheduled => exact hscheduled
  case isFalse => simp [isScheduled]

theorem mem_scheduleReconnect {peer : PeerRecord} (h : timer ∈ (manager.scheduleReconnect peer).timers) :
    timer ∈ manager.timers ∨ timer.peer = peer := by
  unfold scheduleReconnect at h
  split at h
  · exact .inl h
  · rcases List.mem_append.mp h with h | h
    · exact .inl h
    · exact .inr (by rw [List.mem_singleton.mp h])

theorem isScheduled_scheduleReconnect (h : manager.isScheduled peerName = true) (peer : PeerRecord) :
    (manager.scheduleReconnect peer).isScheduled peerName = true := by
  unfold scheduleReconnect
  split
  · exact h
  · obtain ⟨timer, hmem, hname⟩ := isScheduled_iff.mp h
    exact isScheduled_iff.mpr ⟨timer, List.mem_append_left _ hmem, hname⟩

theorem isScheduled_deleteTimer (h : manager.isScheduled peerName = true) {other : String} (hother : peerName ≠ other) :
    (manager.deleteTimer other).isScheduled peerName = true := by
  obtain ⟨timer, hmem, rfl⟩ := isScheduled_iff.mp h
  exact isScheduled_iff.mpr ⟨timer, List.mem_filter.mpr ⟨hmem, by simpa using hother⟩, rfl⟩

theorem deleteTimer_isScheduled (h : manager.isScheduled peerName = false) (other : String) :
    (manager.deleteTimer other).isScheduled peerName = false := by
  unfold isScheduled at h ⊢
  rw [List.any_eq_false] at h ⊢
  exact fun timer hmem => h timer (List.mem_filter.mp hmem).1

end ReconnectManager

end CatalystRouter
