import CatalystRouter.Library.Runs
import CatalystRouter.Orchestrator.ReconnectManager

namespace CatalystRouter

/-- A `ReconnectManager` with what its fired timers await, the calls of the
    transport or of `dispatchFn`; `openPeerCalls` are the calls of the transport so far. -/
structure Reconnector where
  manager : ReconnectManager := {}
  dials : List PeerRecord := []
  dispatches : List PeerRecord := []
  openPeerCalls : List PeerRecord := []

namespace Reconnector

/-- What happens to it: the calls of its owner, a timer fires, an `openPeer` or a
    `dispatchFn` settles. -/
inductive Event where
  | scheduleReconnect (peer : PeerRecord)
  | cancelReconnect (peerName : String)
  | stopAll
  | timer (peerName : String)
  | dialed (i : Nat) (opened : Bool)
  | dispatched (i : Nat) (resolved : Bool)
  deriving DecidableEq, Repr

/-- The `catch` of a callback. -/
def failed (self : Reconnector) (peer : PeerRecord) : Reconnector :=
  { self with manager := self.manager.scheduleReconnect peer }

/-- The callback of a timer, up to its first await. -/
def timerFired (self : Reconnector) (peer : PeerRecord) : Reconnector :=
  let self := { self with manager := self.manager.deleteTimer peer.name }
  if truthyString peer.peerToken then
    { self with dials := self.dials ++ [peer], openPeerCalls := self.openPeerCalls ++ [peer] }
  else self

/-- One step; what is not enabled changes nothing. -/
def step (self : Reconnector) : Event → Reconnector
  | .scheduleReconnect peer => { self with manager := self.manager.scheduleReconnect peer }
  | .cancelReconnect peerName => { self with manager := self.manager.cancelReconnect peerName }
  | .stopAll => { self with manager := self.manager.stopAll }
  | .timer peerName =>
    match self.manager.timers.find? fun timer => timer.peer.name == peerName with
    | some timer => self.timerFired timer.peer
    | none => self
  | .dialed i opened =>
    match self.dials[i]? with
    | some peer =>
      let self := { self with dials := self.dials.eraseIdx i }
      if opened then { self with dispatches := self.dispatches ++ [peer] } else self.failed peer
    | none => self
  | .dispatched i resolved =>
    match self.dispatches[i]? with
    | some peer =>
      let self := { self with dispatches := self.dispatches.eraseIdx i }
      if resolved then { self with manager := self.manager.resetAttempts peer.name } else self.failed peer
    | none => self

abbrev run (self : Reconnector) (events : List Event) : Reconnector := Runs.run step self events

/-- No timer and no attempts for the peer, and no call for it beyond those. -/
structure Cancelled (name : String) (calls : List PeerRecord) (reconnector : Reconnector) : Prop where
  timer : reconnector.manager.isScheduled name = false
  attempts : reconnector.manager.attempts name = none
  calls : (reconnector.openPeerCalls.filter fun peer => peer.name == name) = calls

/-- The events that cancel the reconnects of a peer. -/
def Cancels (name : String) : Event → Prop
  | .cancelReconnect peerName => peerName = name
  | .stopAll => True
  | _ => False

def Schedules (name : String) : Event → Prop
  | .scheduleReconnect peer => peer.name = name
  | _ => False

/-- An attempt for the peer that was in flight fails. -/
def Fails (name : String) (self : Reconnector) : Event → Prop
  | .dialed i opened => opened = false ∧ ∃ peer ∈ self.dials[i]?, peer.name = name
  | .dispatched i resolved => resolved = false ∧ ∃ peer ∈ self.dispatches[i]?, peer.name = name
  | _ => False

variable {self : Reconnector} {name : String} {calls : List PeerRecord}

theorem cancelled_of_cancels {event : Event} (h : Cancels name event) (self : Reconnector) :
    (step self event).Cancelled name (self.openPeerCalls.filter fun peer => peer.name == name) := by
  cases event with
  | cancelReconnect peerName =>
    obtain rfl : peerName = name := h
    refine ⟨?_, Function.update_self .., rfl⟩
    simp [step, ReconnectManager.cancelReconnect, ReconnectManager.deleteTimer, ReconnectManager.resetAttempts,
      ReconnectManager.isScheduled]
  | stopAll => exact ⟨rfl, rfl, rfl⟩
  | _ => exact h.elim

/-- An attempt scheduled for another peer is none of its business. -/
theorem Cancelled.failed_iff (h : self.Cancelled name calls) (peer : PeerRecord) :
    (self.failed peer).Cancelled name calls ↔ peer.name ≠ name := by
  constructor
  · rintro hafter rfl
    have hscheduled := self.manager.scheduleReconnect_isScheduled peer
    rw [show (self.manager.scheduleReconnect peer).isScheduled peer.name = false from hafter.timer] at hscheduled
    cases hscheduled
  · intro hother
    have htimers : (self.manager.scheduleReconnect peer).isScheduled name = false ∧
        (self.manager.scheduleReconnect peer).attempts name = none := by
      unfold ReconnectManager.scheduleReconnect
      split
      · exact ⟨h.timer, h.attempts⟩
      · refine ⟨?_, (Function.update_of_ne (Ne.symm hother) ..).trans h.attempts⟩
        have hnone := h.timer
        unfold ReconnectManager.isScheduled at hnone ⊢
        simp [List.any_append, hnone, hother]
    exact ⟨htimers.1, htimers.2, h.calls⟩

/-- The record of another peer comes out of the timer that fires. -/
theorem Cancelled.timerFired (h : self.Cancelled name calls) {peer : PeerRecord} (hother : peer.name ≠ name) :
    (self.timerFired peer).Cancelled name calls := by
  have htimer := ReconnectManager.deleteTimer_isScheduled h.timer peer.name
  unfold Reconnector.timerFired
  dsimp only
  split
  · exact ⟨htimer, h.attempts, by simp [List.filter_append, h.calls, hother]⟩
  · exact ⟨htimer, h.attempts, h.calls⟩

theorem Cancelled.resetAttempts (h : self.Cancelled name calls) (peerName : String) :
    Cancelled name calls { self with manager := self.manager.resetAttempts peerName } := by
  refine ⟨h.timer, ?_, h.calls⟩
  by_cases hpeer : name = peerName
  · exact hpeer ▸ Function.update_self ..
  · exact (Function.update_of_ne hpeer ..).trans h.attempts

/-- A cancelled peer stays cancelled exactly when its owner does not schedule it anew
    and nothing in flight for it fails. -/
theorem Cancelled.step_iff (h : self.Cancelled name calls) (event : Event) :
    (step self event).Cancelled name calls ↔ ¬ Schedules name event ∧ ¬ self.Fails name event := by
  cases event with
  | scheduleReconnect peer => exact (h.failed_iff peer).trans ⟨fun hother => ⟨hother, not_false⟩, And.left⟩
  | cancelReconnect peerName =>
    refine iff_of_true ?_ ⟨not_false, not_false⟩
    have htimer := ReconnectManager.deleteTimer_isScheduled h.timer peerName
    have hdeleted : Cancelled name calls { self with manager := self.manager.deleteTimer peerName } :=
      ⟨htimer, h.attempts, h.calls⟩
    exact hdeleted.resetAttempts peerName
  | stopAll => exact iff_of_true ⟨rfl, rfl, h.calls⟩ ⟨not_false, not_false⟩
  | timer peerName =>
    refine iff_of_true ?_ ⟨not_false, not_false⟩
    simp only [step]
    split
    · rename_i timer hfound
      refine h.timerFired fun hname => ?_
      have hscheduled := ReconnectManager.isScheduled_iff.mpr ⟨timer, List.mem_of_find?_eq_some hfound, hname⟩
      rw [h.timer] at hscheduled
      cases hscheduled
    · exact h
  | dialed i opened =>
    simp only [step, Fails, Schedules, not_false_eq_true, true_and]
    cases hdial : self.dials[i]? with
    | none => simpa using h
    | some peer =>
      cases opened with
      | true => exact iff_of_true ⟨h.timer, h.attempts, h.calls⟩ (by simp)
      | false =>
        have hlater : Cancelled name calls { self with dials := self.dials.eraseIdx i } := ⟨h.timer, h.attempts, h.calls⟩
        simpa using hlater.failed_iff peer
  | dispatched i resolved =>
    simp only [step, Fails, Schedules, not_false_eq_true, true_and]
    cases hdispatch : self.dispatches[i]? with
    | none => simpa using h
    | some peer =>
      have hlater : Cancelled name calls { self with dispatches := self.dispatches.eraseIdx i } :=
        ⟨h.timer, h.attempts, h.calls⟩
      cases resolved with
      | true => exact iff_of_true (hlater.resetAttempts peer.name) (by simp)
      | false => simpa using hlater.failed_iff peer

/-- After a cancel, and as long as its owner does not schedule the peer anew, there is
    never a timer, a call of `openPeer` or an attempt count for it again, exactly when
    nothing that was in flight for it fails. -/
theorem cancel_final_iff {cancel : Event} (hcancel : Cancels name cancel) (self : Reconnector) {events : List Event}
    (hunscheduled : ∀ event ∈ events, ¬ Schedules name event) :
    (∀ early late, events = early ++ late → (run (step self cancel) early).Cancelled name
        (self.openPeerCalls.filter fun peer => peer.name == name)) ↔
      Runs.EachStep step (fun self event => ¬ self.Fails name event) (step self cancel) events := by
  rw [Runs.throughout_iff (I := fun _ => True) (fun _ _ _ => trivial) (fun _ event _ h => h.step_iff event) trivial
    (cancelled_of_cancels hcancel self), Runs.eachStep_and]
  exact and_iff_right (Runs.eachStep_of_forall step (fun event hmem _ => hunscheduled event hmem) _)

/-- The timer of `node-b` has fired. -/
def dialingB : Reconnector :=
  run {} [.scheduleReconnect { name := "node-b", peerToken := some "token", connectionStatus := .closed }, .timer "node-b"]

theorem cancel_final_opened :
    (run (step dialingB (.cancelReconnect "node-b"))
      [.dialed 0 true, .dispatched 0 true, .timer "node-b"]).Cancelled "node-b"
        (dialingB.openPeerCalls.filter fun peer => peer.name == "node-b") := by
  have hunscheduled : ∀ event ∈ [Event.dialed 0 true, .dispatched 0 true, .timer "node-b"],
      ¬ Schedules "node-b" event := by simp [Schedules]
  have hcancel : Cancels "node-b" (.cancelReconnect "node-b") := rfl
  exact (cancel_final_iff hcancel dialingB hunscheduled).mpr
    ⟨by simp [Fails], by simp [Fails], by simp [Fails], trivial⟩ _ [] (List.append_nil _).symm

/-- The dial that was in flight fails, and the peer is dialed again. -/
theorem cancel_revived :
    (run dialingB [.cancelReconnect "node-b", .dialed 0 false]).manager.isScheduled "node-b" = true ∧
      (run dialingB [.cancelReconnect "node-b", .dialed 0 false]).manager.attempts "node-b" = some 1 ∧
      (run dialingB [.cancelReconnect "node-b", .dialed 0 false, .timer "node-b"]).openPeerCalls.length =
        dialingB.openPeerCalls.length + 1 := by
  decide

end Reconnector

end CatalystRouter
