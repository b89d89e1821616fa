import Mathlib.Data.List.Induction
import CatalystRouter.Library.Lists
import CatalystRouter.Service.Lifecycle

namespace CatalystRouter

/-! The end of a process: when a signal's handler exits it, and what its services have done by then. -/

namespace CatalystService

/-- What a service calls from its creation to its end, in order. -/
def order (self : CatalystService) : List Hook :=
  if self.prebuiltTelemetry then [.onInitialize, .onShutdown]
  else [.buildTelemetry, .onInitialize, .onShutdown, .shutdownTelemetry]

/-- The state that `create` returns a service in. -/
structure Ready (service : CatalystService) : Prop where
  state : service.state = .ready
  awaiting : service.awaiting = none
  hooks : service.hooks = if service.prebuiltTelemetry then [.onInitialize] else [.buildTelemetry, .onInitialize]

/-- A call of `shutdown` is under way. -/
structure Leaving (service : CatalystService) : Prop where
  state : service.state = .shuttingDown
  hooks : (service.awaiting = some .onShutdown ∧ service.hooks = if service.prebuiltTelemetry then service.order
      else [.buildTelemetry, .onInitialize, .onShutdown]) ∨
    (service.prebuiltTelemetry = false ∧ service.awaiting = some .shutdownTelemetry ∧ service.hooks = service.order)

/-- All has been called, and nothing is awaited. If its telemetry could not be shut down, the
    service is left in the state of shutting down. -/
structure Over (service : CatalystService) : Prop where
  state : service.state = .stopped ∨ service.state = .shuttingDown
  awaiting : service.awaiting = none
  hooks : service.hooks = service.order

variable {self : CatalystService}

/-- A service that is leaving waits for a promise. -/
theorem Leaving.awaits (h : self.Leaving) : self.awaiting ≠ none := by
  obtain ⟨hawaiting, -⟩ | ⟨-, hawaiting, -⟩ := h.hooks <;> simp [hawaiting]

/-- A service that has stopped is not leaving any more. -/
theorem Over.not_leaving (h : self.Over) : ¬ self.Leaving := fun hleaving => hleaving.awaits h.awaiting

theorem Ready.not_leaving (h : self.Ready) : ¬ self.Leaving := fun hleaving => hleaving.awaits h.awaiting

theorem Leaving.not_ready (h : self.Leaving) : self.state ≠ .ready := by
  rw [h.state]
  decide

theorem Over.not_ready (h : self.Over) : self.state ≠ .ready := by
  rcases h.state with hstate | hstate <;> rw [hstate] <;> decide

/-- `shutdown` does nothing unless the service is ready. -/
theorem shutdown_of_not_ready (h : self.state ≠ .ready) : self.shutdown = self := if_pos h

/-- A ready service leaves when it is shut down. -/
theorem Ready.shutdown (h : self.Ready) : self.shutdown.Leaving := by
  have hcall : self.shutdown = self.call .shuttingDown .onShutdown := if_neg (not_not_intro h.state)
  rw [hcall]
  refine ⟨rfl, .inl ⟨rfl, ?_⟩⟩
  simp only [call, order, h.hooks]
  cases self.prebuiltTelemetry <;> rfl

/-- A service that waits for nothing ignores a settled promise. -/
theorem settled_of_awaiting (h : self.awaiting = none) (fulfilled : Bool) : self.settled fulfilled = self := by
  simp only [settled, h]

/-- A promise that is settled brings a leaving service on, or to its end. -/
theorem Leaving.settled (h : self.Leaving) (fulfilled : Bool) :
    (self.settled fulfilled).Leaving ∨ (self.settled fulfilled).Over := by
  obtain ⟨hawaiting, hhooks⟩ | ⟨hown, hawaiting, hhooks⟩ := h.hooks
  · cases hprebuilt : self.prebuiltTelemetry with
    | true =>
      rw [if_pos hprebuilt] at hhooks
      have hsettled : self.settled fulfilled = { self with awaiting := none, state := .stopped } := by
        simp only [CatalystService.settled, hawaiting, hprebuilt, if_true]
      rw [hsettled]
      exact .inr ⟨.inl rfl, rfl, hhooks⟩
    | false =>
      have hsettled : self.settled fulfilled = self.call .shuttingDown .shutdownTelemetry := by
        simp [CatalystService.settled, hawaiting, hprebuilt]
      rw [hsettled]
      refine .inl ⟨rfl, .inr ⟨hprebuilt, rfl, ?_⟩⟩
      simp [call, order, hhooks, hprebuilt]
  · have hsettled : self.settled fulfilled =
        { self with awaiting := none, state := if fulfilled then .stopped else self.state } := by
      simp only [CatalystService.settled, hawaiting]
    rw [hsettled]
    refine .inr ⟨?_, rfl, hhooks⟩
    cases fulfilled
    · exact .inr h.state
    · exact .inl rfl

/-- Where a service of a running process is. -/
def Started (self : CatalystService) : Prop := self.Ready ∨ self.Leaving ∨ self.Over

/-- A started service that is neither ready nor leaving has stopped. -/
theorem Started.isOver (h : self.Started) (hready : self.state ≠ .ready) (hleaving : ¬ self.Leaving) : self.Over := by
  rcases h with hstate | hstate | hover
  · exact absurd hstate.state hready
  · exact absurd hstate hleaving
  · exact hover

theorem Started.not_leaving_iff (h : self.Started) : ¬ self.Leaving ↔ self.awaiting = none := by
  rcases h with hready | hleaving | hover
  · exact iff_of_true hready.not_leaving hready.awaiting
  · exact iff_of_false (not_not_intro hleaving) hleaving.awaits
  · exact iff_of_true hover.not_leaving hover.awaiting

/-- A service stays started, whatever its promises do. -/
theorem Started.settled (h : self.Started) (fulfilled : Bool) : (self.settled fulfilled).Started := by
  rcases h with hready | hleaving | hover
  · rw [settled_of_awaiting hready.awaiting]
    exact .inl hready
  · exact .inr (hleaving.settled fulfilled)
  · rw [settled_of_awaiting hover.awaiting]
    exact .inr (.inr hover)

theorem Started.leaving_of_settled (h : self.Started) {fulfilled : Bool} (hleaving : (self.settled fulfilled).Leaving) :
    self.Leaving := by
  by_contra hnot
  rw [settled_of_awaiting (h.not_leaving_iff.mp hnot)] at hleaving
  exact hnot hleaving

/-- A service that is not ready does not become ready again. -/
theorem Started.settled_not_ready (h : self.Started) (hready : self.state ≠ .ready) (fulfilled : Bool) :
    (self.settled fulfilled).state ≠ .ready := by
  by_cases hleaving : self.Leaving
  · rcases hleaving.settled fulfilled with hnext | hnext
    · exact hnext.not_ready
    · exact hnext.not_ready
  · rwa [settled_of_awaiting (h.not_leaving_iff.mp hleaving)]

/-- A started service cannot be initialized again. -/
theorem Started.initializeService (h : self.Started) :
    self.initializeService = .error ("Cannot initialize service \"" ++ self.name ++ "\" in state \"" ++
      self.state.text ++ "\". Expected \"created\".") := by
  have hcreated : self.state ≠ .created := by
    rcases h with hstate | hstate | hstate
    · simp [hstate.state]
    · simp [hstate.state]
    · rcases hstate.state with hstate | hstate <;> simp [hstate]
  exact if_pos hcreated

end CatalystService

namespace CatalystHonoServer

/-- No call of `stop` is under way, and no service is shutting down. -/
def Quiet (self : CatalystHonoServer) : Prop :=
  (∀ call ∈ self.stops, call.waiting = some []) ∧ ∀ service ∈ self.services, service.awaiting = none

def Event.ends : Event → Bool
  | .signal | .stop | .shutdown _ => true
  | _ => false

/-- One thing at a time ends the process, and a signal calls one handler at most. -/
def Undisturbed (self : CatalystHonoServer) (event : Event) : Prop :=
  (event = .signal → self.shutdownHandlers ≤ 1) ∧ (event.ends = true → self.Quiet)

/-- What an undisturbed run keeps: only the last call of `stop` is under way, no service is shutting
    down before its server is closed, and after that it waits for those that are. -/
structure Graceful (server : CatalystHonoServer) : Prop where
  started : ∀ service ∈ server.services, service.Started
  earlier : ∀ k call, k + 1 < server.stops.length → server.stops[k]? = some call → call.waiting = some []
  closing : ∀ call ∈ server.stops, call.waiting = none → ∀ service ∈ server.services, ¬ service.Leaving
  waiting : ∀ call ∈ server.stops, ∀ waiting, call.waiting = some waiting → ∀ i service,
    server.services[i]? = some service → service.state ≠ .ready ∧ (i ∈ waiting ↔ service.Leaving)
  inRange : ∀ call ∈ server.stops, ∀ waiting, call.waiting = some waiting → ∀ i ∈ waiting, i < server.services.length

variable {self : CatalystHonoServer}

/-- The services to stop are those that are ready. -/
theorem mem_readyServices {services : List CatalystService} {i : Nat} :
    i ∈ readyServices services ↔ ∃ service, services[i]? = some service ∧ service.state = .ready := by
  unfold readyServices
  rw [List.mem_filter, List.mem_range]
  constructor
  · rintro ⟨hlt, hready⟩
    rw [List.getElem?_eq_getElem hlt] at hready ⊢
    exact ⟨_, rfl, by simpa using hready⟩
  · rintro ⟨service, hservice, hready⟩
    exact ⟨(List.getElem?_eq_some_iff.mp hservice).1, by simp [hservice, hready]⟩

theorem started_shutdown {service : CatalystService} (h : service.Started) : service.shutdown.Started := by
  rcases h with hready | hleaving | hover
  · exact .inr (.inl hready.shutdown)
  · rw [CatalystService.shutdown_of_not_ready hleaving.not_ready]
    exact .inr (.inl hleaving)
  · rw [CatalystService.shutdown_of_not_ready hover.not_ready]
    exact .inr (.inr hover)

/-- A call waits for what it waited for, less what is over now. -/
theorem exists_waiting_before {stops : List StopCall} {i : Nat} {done : Bool} {call : StopCall}
    (hmem : call ∈ if done then stops.map fun call =>
      { call with waiting := call.waiting.map (List.filter (· ≠ i)) } else stops) :
    ∃ before ∈ stops, (call.waiting = none → before.waiting = none) ∧ ∀ waiting, call.waiting = some waiting →
      ∃ kept, before.waiting = some kept ∧ ∀ j, j ∈ waiting ↔ j ∈ kept ∧ (done = true → j ≠ i) := by
  cases done with
  | false => exact ⟨call, hmem, id, fun waiting hwaiting => ⟨waiting, hwaiting, by simp⟩⟩
  | true =>
    obtain ⟨before, hbefore, rfl⟩ := List.mem_map.mp hmem
    refine ⟨before, hbefore, Option.map_eq_none_iff.mp, fun waiting hwaiting => ?_⟩
    obtain ⟨kept, hkept, rfl⟩ := Option.map_eq_some_iff.mp hwaiting
    exact ⟨kept, hkept, by simp⟩

namespace Graceful

/-- Only the last call of `stop` can be under way. -/
theorem last (h : Graceful self) {k : Nat} {call : StopCall} (hcall : self.stops[k]? = some call)
    (hunfinished : call.waiting ≠ some []) : k + 1 = self.stops.length := by
  have hlt := (List.getElem?_eq_some_iff.mp hcall).1
  by_contra hne
  exact hunfinished (h.earlier k call (by omega) hcall)

/-- Stopping the services of a call keeps the shutdown graceful. -/
theorem stopServices (h : Graceful self) {k : Nat} {call : StopCall} (hcall : self.stops[k]? = some call)
    (hclosing : call.waiting = none) : Graceful (self.stopServices k) := by
  have hlast := h.last hcall (by simp [hclosing])
  have hnone := h.closing call (List.mem_of_getElem? hcall) hclosing
  constructor
  · intro service hmem
    obtain ⟨old, hold, rfl⟩ := List.mem_map.mp hmem
    exact started_shutdown (h.started old hold)
  · intro j other hj hother
    simp only [CatalystHonoServer.stopServices, List.length_modify] at hj
    simp only [CatalystHonoServer.stopServices] at hother
    rw [List.getElem?_modify_ne _ _ (by omega)] at hother
    exact h.earlier j other hj hother
  · intro other hmem hwaiting
    obtain ⟨j, old, hold, rfl⟩ := Lists.exists_of_mem_modify hmem
    split at hwaiting
    · cases hwaiting
    · rename_i hj
      have hj' := h.last hold (by simp [hwaiting])
      omega
  · intro other hmem waiting hwaiting i service hservice
    rw [CatalystHonoServer.stopServices, List.getElem?_map] at hservice
    obtain ⟨s, hs, rfl⟩ := Option.map_eq_some_iff.mp hservice
    obtain ⟨j, old, hold, rfl⟩ := Lists.exists_of_mem_modify hmem
    split at hwaiting
    · obtain rfl : readyServices self.services = waiting := Option.some.inj hwaiting
      have hmember : i ∈ readyServices self.services ↔ s.state = .ready := by
        rw [mem_readyServices, hs]
        simp
      rw [hmember]
      rcases h.started s (List.mem_of_getElem? hs) with hready | hleaving | hover
      · exact ⟨hready.shutdown.not_ready, iff_of_true hready.state hready.shutdown⟩
      · exact absurd hleaving (hnone s (List.mem_of_getElem? hs))
      · rw [CatalystService.shutdown_of_not_ready hover.not_ready]
        exact ⟨hover.not_ready, iff_of_false hover.not_ready hover.not_leaving⟩
    · have hkept := h.waiting old (List.mem_of_getElem? hold) waiting hwaiting i s hs
      rwa [CatalystService.shutdown_of_not_ready hkept.1]
  · intro other hmem waiting hwaiting i hi
    obtain ⟨j, old, hold, rfl⟩ := Lists.exists_of_mem_modify hmem
    simp only [CatalystHonoServer.stopServices, List.length_map]
    split at hwaiting
    · obtain rfl : readyServices self.services = waiting := Option.some.inj hwaiting
      obtain ⟨service, hservice, -⟩ := mem_readyServices.mp hi
      exact (List.getElem?_eq_some_iff.mp hservice).1
    · exact h.inRange old (List.mem_of_getElem? hold) waiting hwaiting i hi

/-- Only the services and the calls matter. -/
theorem congr (h : Graceful self) {other : CatalystHonoServer} (hservices : other.services = self.services)
    (hstops : other.stops = self.stops) : Graceful other := by
  obtain ⟨hstarted, hearlier, hclosing, hwaiting, hrange⟩ := h
  exact ⟨hservices ▸ hstarted, hstops ▸ hearlier, hservices ▸ hstops ▸ hclosing, hservices ▸ hstops ▸ hwaiting,
    hservices ▸ hstops ▸ hrange⟩

/-- So does the beginning of a stop, from a signal or a call. -/
theorem beginStop (h : Graceful self) (hquiet : self.Quiet) (signal : Bool) : Graceful (self.beginStop signal) := by
  have hcalled : Graceful { self with server := false, stops := self.stops ++ [{ signal }] } := by
    constructor
    · exact h.started
    · intro k call hk hcall
      simp only [List.length_append, List.length_singleton] at hk
      rw [List.getElem?_append_left (by omega)] at hcall
      exact hquiet.1 call (List.mem_of_getElem? hcall)
    · intro call _ _ service hservice hleaving
      exact hleaving.awaits (hquiet.2 service hservice)
    · intro call hmem waiting hwaiting
      rcases List.mem_append.mp hmem with hold | hnew
      · exact h.waiting call hold waiting hwaiting
      · obtain rfl := List.mem_singleton.mp hnew
        cases hwaiting
    · intro call hmem waiting hwaiting
      rcases List.mem_append.mp hmem with hold | hnew
      · exact h.inRange call hold waiting hwaiting
      · obtain rfl := List.mem_singleton.mp hnew
        cases hwaiting
  unfold CatalystHonoServer.beginStop
  dsimp only
  split
  · exact hcalled
  · exact hcalled.stopServices List.getElem?_concat_length rfl

/-- So does a promise of a service that is settled. -/
theorem settledService (h : Graceful self) (i : Nat) (fulfilled : Bool) :
    Graceful (self.settledService i fulfilled) := by
  unfold CatalystHonoServer.settledService
  dsimp only
  generalize hdone : ((self.services.modify i (CatalystService.settled · fulfilled))[i]?.any fun service =>
    service.awaiting.isNone) = done
  constructor
  · intro service hmem
    obtain ⟨j, old, hold, rfl⟩ := Lists.exists_of_mem_modify hmem
    have hstarted := h.started old (List.mem_of_getElem? hold)
    split
    · exact hstarted.settled fulfilled
    · exact hstarted
  · intro k call hk hcall
    cases done with
    | false => exact h.earlier k call hk hcall
    | true =>
      simp only [if_true, List.length_map] at hk
      simp only [if_true, List.getElem?_map] at hcall
      obtain ⟨old, hold, rfl⟩ := Option.map_eq_some_iff.mp hcall
      simp [h.earlier k old hk hold]
  · intro call hmem hwaiting service hservice hleaving
    obtain ⟨j, old, hold, rfl⟩ := Lists.exists_of_mem_modify hservice
    obtain ⟨before, hbefore, hclosing, -⟩ := exists_waiting_before hmem
    refine h.closing before hbefore (hclosing hwaiting) old (List.mem_of_getElem? hold) ?_
    split at hleaving
    · exact (h.started old (List.mem_of_getElem? hold)).leaving_of_settled hleaving
    · exact hleaving
  · intro call hmem waiting hwaiting j service hservice
    obtain ⟨before, hbefore, -, hwaits⟩ := exists_waiting_before hmem
    obtain ⟨kept, hkept, hmember⟩ := hwaits waiting hwaiting
    obtain ⟨old, hold, rfl⟩ := Lists.exists_of_getElem?_modify hservice
    have hstarted := h.started old (List.mem_of_getElem? hold)
    obtain ⟨hready, hleaving⟩ := h.waiting before hbefore kept hkept j old hold
    rw [hmember, hleaving]
    split
    · rename_i hij
      subst hij
      refine ⟨hstarted.settled_not_ready hready fulfilled, ?_⟩
      have hover : done = true ↔ ¬ (old.settled fulfilled).Leaving := by
        rw [← hdone, hservice, if_pos rfl, (hstarted.settled fulfilled).not_leaving_iff]
        simp
      rw [hover]
      constructor
      · rintro ⟨-, hstays⟩
        by_contra hgone
        exact hstays hgone rfl
      · exact fun hstays => ⟨hstarted.leaving_of_settled hstays, fun hgone => absurd hstays hgone⟩
    · rename_i hij
      exact ⟨hready, and_iff_left fun _ hji => hij hji.symm⟩
  · intro call hmem waiting hwaiting j hj
    obtain ⟨before, hbefore, -, hwaits⟩ := exists_waiting_before hmem
    obtain ⟨kept, hkept, hmember⟩ := hwaits waiting hwaiting
    rw [List.length_modify]
    exact h.inRange before hbefore kept hkept j ((hmember j).mp hj).1

/-- While all is quiet, a service is shut down that no call of `stop` has seen. -/
theorem shutdownService (h : Graceful self) (hquiet : self.Quiet) (i : Nat) :
    Graceful { self with services := self.services.modify i CatalystService.shutdown } := by
  constructor
  · intro service hmem
    obtain ⟨j, old, hold, rfl⟩ := Lists.exists_of_mem_modify hmem
    have hstarted := h.started old (List.mem_of_getElem? hold)
    split
    · exact started_shutdown hstarted
    · exact hstarted
  · exact h.earlier
  · intro call hmem hclosing
    rw [hquiet.1 call hmem] at hclosing
    cases hclosing
  · intro call hmem waiting hwaiting j service hservice
    obtain ⟨old, hold, rfl⟩ := Lists.exists_of_getElem?_modify hservice
    have hkept := h.waiting call hmem waiting hwaiting j old hold
    rwa [CatalystService.shutdown_of_not_ready hkept.1, ite_self]
  · intro call hmem waiting hwaiting j hj
    rw [List.length_modify]
    exact h.inRange call hmem waiting hwaiting j hj

end Graceful

/-- What an undisturbed signal does: it ends the process or begins a call of `stop`. -/
theorem handle_signal (hone : self.shutdownHandlers ≤ 1) :
    self.handle .signal = { self with exit := some .signalled } ∨ self.handle .signal = self.beginStop true := by
  rcases Nat.le_one_iff_eq_zero_or_eq_one.mp hone with hzero | hone
  · exact .inl (by simp only [handle, hzero, if_true])
  · exact .inr (by simp only [handle, hone]; rfl)

/-- A call of `stop` leaves it to `step` to exit; what ends the process otherwise leaves the calls alone. -/
theorem handle_exit {event : Event} (hevent : self.Undisturbed event) :
    (self.handle event).exit = self.exit ∨
      (self.handle event).stops = self.stops ∧ (self.handle event).exit ≠ some .stopped := by
  have hbegin (signal : Bool) : (self.beginStop signal).exit = self.exit := by
    unfold beginStop
    dsimp only
    split <;> rfl
  cases event with
  | signal =>
    rcases handle_signal (hevent.1 rfl) with hends | hbegins
    · rw [hends]
      exact .inr ⟨rfl, by simp⟩
    · rw [hbegins]
      exact .inl (hbegin true)
  | serverError addressInUse =>
    refine .inr ⟨rfl, ?_⟩
    cases addressInUse <;> simp [handle]
  | stop => exact .inl (hbegin false)
  | initializeService i => exact .inl rfl
  | shutdown i => exact .inl rfl
  | settled i fulfilled => exact .inl rfl
  | start =>
    simp only [handle]
    split <;> exact .inl rfl
  | bound =>
    simp only [handle]
    split <;> exact .inl rfl
  | closed k =>
    simp only [handle]
    split <;> exact .inl rfl

/-- So does every event that does not disturb the shutdown. -/
theorem Graceful.handle (h : Graceful self) {event : Event} (hevent : self.Undisturbed event) :
    Graceful (self.handle event) := by
  cases event with
  | signal =>
    rcases handle_signal (hevent.1 rfl) with hends | hbegins
    · rw [hends]
      exact h.congr rfl rfl
    · rw [hbegins]
      exact h.beginStop (hevent.2 rfl) true
  | serverError addressInUse => exact h.congr rfl rfl
  | stop => exact h.beginStop (hevent.2 rfl) false
  | settled i fulfilled => exact h.settledService i fulfilled
  | start =>
    simp only [CatalystHonoServer.handle]
    split
    · exact h
    · exact h.congr rfl rfl
  | bound =>
    simp only [CatalystHonoServer.handle]
    split
    · exact h
    · exact h.congr rfl rfl
  | closed k =>
    simp only [CatalystHonoServer.handle]
    split
    · rename_i signal hcall
      exact h.stopServices hcall rfl
    · exact h
  | initializeService i =>
    refine h.congr ?_ rfl
    refine List.ext_getElem? fun j => ?_
    simp only [CatalystHonoServer.handle, List.getElem?_modify]
    cases hservice : self.services[j]? with
    | none => rfl
    | some service =>
      have hstarted := h.started service (List.mem_of_getElem? hservice)
      simp [hstarted.initializeService]
  | shutdown i => exact h.shutdownService (hevent.2 rfl) i

/-- The handler of a signal has exited the process exactly if it has seen its `stop` through. -/
def ExitsWithStop (self : CatalystHonoServer) : Prop :=
  self.exit = some .stopped ↔ ∃ call ∈ self.stops, call.signal = true ∧ call.waiting = some []

/-- An undisturbed event keeps the shutdown graceful, and a signal exits the process exactly when
    its `stop` is through. -/
theorem step_graceful (h : Graceful self) (hexits : self.ExitsWithStop) {event : Event}
    (hevent : self.Undisturbed event) : Graceful (self.step event) ∧ (self.step event).ExitsWithStop := by
  unfold step
  split
  · exact ⟨h, hexits⟩
  · rename_i hrunning
    rw [Bool.not_eq_true, Option.isSome_eq_false_iff, Option.isNone_iff_eq_none] at hrunning
    have hhandled := h.handle hevent
    have hany : ((self.handle event).stops.any fun call => call.signal && call.waiting = some []) = true ↔
        ∃ call ∈ (self.handle event).stops, call.signal = true ∧ call.waiting = some [] := by
      simp
    unfold exitIfStopped
    split
    · rename_i hstopped
      exact ⟨hhandled.congr rfl rfl, iff_of_true rfl (hany.mp hstopped.2)⟩
    · rename_i hnot
      refine ⟨hhandled, ?_⟩
      rcases handle_exit hevent with hexit | ⟨hstops, hexit⟩
      · rw [hrunning] at hexit
        exact iff_of_false (by simp [hexit]) fun hstopped => hnot ⟨hexit, hany.mpr hstopped⟩
      · -- before the step no call of `stop` by a handler was through
        refine iff_of_false hexit fun hstopped => ?_
        rw [hstops] at hstopped
        exact nomatch hrunning.symm.trans (hexits.mpr hstopped)

/-- The same of an undisturbed run. -/
theorem run_graceful (h : Graceful self) (hexits : self.ExitsWithStop) {events : List Event}
    (hevents : Runs.EachStep step Undisturbed self events) :
    Graceful (self.run events) ∧ (self.run events).ExitsWithStop := by
  induction events generalizing self with
  | nil => exact ⟨h, hexits⟩
  | cons event rest ih =>
    obtain ⟨hnext, hnextExits⟩ := step_graceful h hexits hevents.1
    exact ih hnext hnextExits hevents.2

/-- A server of ready services starts gracefully. -/
theorem graceful_start {services : List CatalystService} (hready : ∀ service ∈ services, service.Ready) :
    Graceful { services } where
  started := fun service hmem => .inl (hready service hmem)
  earlier := fun _ _ hk => nomatch hk
  closing := fun _ hmem => nomatch hmem
  waiting := fun _ hmem => nomatch hmem
  inRange := fun _ hmem => nomatch hmem

/-- The handler of a signal exits the process of services that are ready exactly when its call of
    `stop` has closed the server and every service has called all that it has to, to its end. The
    process may also end because its port is taken, or by a signal before the handler is there. -/
theorem run_exits_iff {services : List CatalystService} (hready : ∀ service ∈ services, service.Ready)
    {events : List Event} (hevents : Runs.EachStep step Undisturbed { services } events) :
    (run { services } events).exit = some .stopped ↔
      (∃ call ∈ (run { services } events).stops, call.signal = true ∧ call.waiting ≠ none) ∧
        ∀ service ∈ (run { services } events).services, service.Over := by
  obtain ⟨hgraceful, hexits⟩ := run_graceful (graceful_start hready) (by simp [ExitsWithStop]) hevents
  generalize run { services } events = self at hgraceful hexits ⊢
  unfold ExitsWithStop at hexits
  rw [hexits]
  constructor
  · rintro ⟨call, hmem, hsignal, hwaiting⟩
    refine ⟨⟨call, hmem, hsignal, by simp [hwaiting]⟩, fun service hservice => ?_⟩
    obtain ⟨i, hi⟩ := List.mem_iff_getElem?.mp hservice
    obtain ⟨hnotReady, hleaving⟩ := hgraceful.waiting call hmem [] hwaiting i service hi
    exact (hgraceful.started service hservice).isOver hnotReady (mt hleaving.mpr List.not_mem_nil)
  · rintro ⟨⟨call, hmem, hsignal, hclosed⟩, hover⟩
    obtain ⟨waiting, hwaiting⟩ := Option.ne_none_iff_exists'.mp hclosed
    refine ⟨call, hmem, hsignal, hwaiting.trans (congrArg some ?_)⟩
    refine List.eq_nil_iff_forall_not_mem.mpr fun i hi => ?_
    have hlt := hgraceful.inRange call hmem waiting hwaiting i hi
    have hleaving := ((hgraceful.waiting call hmem waiting hwaiting i _ (List.getElem?_eq_getElem hlt)).2).mp hi
    exact (hover _ (List.getElem_mem hlt)).not_leaving hleaving

instance : DecidablePred CatalystHonoServer.Quiet := fun self =>
  inferInstanceAs (Decidable ((∀ call ∈ self.stops, call.waiting = some []) ∧
    ∀ service ∈ self.services, service.awaiting = none))

instance (self : CatalystHonoServer) (event : Event) : Decidable (self.Undisturbed event) :=
  inferInstanceAs (Decidable ((event = .signal → self.shutdownHandlers ≤ 1) ∧ (event.ends = true → self.Quiet)))

def readyAuth : CatalystService := { name := "auth", state := .ready, hooks := [.buildTelemetry, .onInitialize] }

/-- The server is started, and a signal comes. -/
def terminated : List Event := [.start, .bound, .signal, .closed 0, .settled 0 true, .settled 0 true]

theorem run_exits_auth :
    (run { services := [readyAuth] } terminated).exit = some .stopped ∧
      ((∃ call ∈ (run { services := [readyAuth] } terminated).stops, call.signal = true ∧ call.waiting ≠ none) ∧
        ∀ service ∈ (run { services := [readyAuth] } terminated).services, service.Over) := by
  have hready : ∀ service ∈ [readyAuth], service.Ready := by
    intro service hmem
    obtain rfl := List.mem_singleton.mp hmem
    exact ⟨rfl, rfl, rfl⟩
  have hexited : (run { services := [readyAuth] } terminated).exit = some .stopped := by decide
  exact ⟨hexited, (run_exits_iff hready (by decide)).mp hexited⟩

/-- A second signal while the server closes: the process exits before the service is over. -/
example :
    (run { services := [readyAuth] } [.start, .bound, .signal, .signal, .closed 0]).exit = some .stopped ∧
      (run { services := [readyAuth] } [.start, .bound, .signal, .signal, .closed 0]).services.map
        CatalystService.awaiting = [some .onShutdown] := by
  decide

end CatalystHonoServer

end CatalystRouter
