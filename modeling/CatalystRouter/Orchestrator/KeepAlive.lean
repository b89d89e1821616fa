import CatalystRouter.Orchestrator.Runs
import CatalystRouter.Routing.HoldTimer

namespace CatalystRouter

namespace Bus

/-- A message of the named peer was processed at that clock reading. -/
def HeardAt (events : List Event) (name : String) (clock : Int) : Prop :=
  ∃ action, .dispatch clock action ∈ events ∧ Rib.heardFrom action = some name

/-- The next Tick closes a connected peer only when nothing was heard from it
    for its hold time. -/
def KeptAlive (config : BusConfig) (bus : Bus) (events : List Event) : Prop :=
  ∀ clock now name, ∀ p ∈ bus.state.peerAt name, p.connectionStatus = .connected → 0 < p.holdTime →
    (∃ p' ∈ (dispatch config bus clock (.tick now)).bus.state.peerAt name, p'.connectionStatus = .closed) →
    ∀ heard, HeardAt events name heard → ¬ (now - p.holdTime ≤ heard ∧ heard ≤ now)

/-- The inbound policy does not reject a whole message of a connected peer, unless
    its hold timer is not running or was started at this very reading. -/
def Heeded (config : BusConfig) (bus : Bus) : Event → Prop
  | .dispatch now action => applyInboundPolicy config bus.state action = none → ∀ name,
      Rib.heardFrom action = some name → ∀ p ∈ bus.state.peerAt name, p.connectionStatus = .connected →
        0 < p.holdTime → 0 < p.lastReceived → now ≤ p.lastReceived
  | .keepaliveSent _ _ => True

/-- The running hold timer of a connected peer was started by the last message
    heard from it. -/
def TimersCurrent (bus : Bus) (events : List Event) : Prop :=
  ∀ name, ∀ p ∈ bus.state.peerAt name, p.connectionStatus = .connected → 0 < p.holdTime → 0 < p.lastReceived →
    ∀ heard, HeardAt events name heard → heard ≤ p.lastReceived

variable {config : BusConfig} {bus : Bus}

theorem applyInboundPolicy_tick (now : Int) : applyInboundPolicy config bus.state (.tick now) = some (.tick now) := rfl

/-- The policy does not change whose message it is. -/
theorem heardFrom_filtered {state : RouteTable} {action filteredAction : Action}
    (h : applyInboundPolicy config state action = some filteredAction) :
    Rib.heardFrom filteredAction = Rib.heardFrom action := by
  obtain rfl | ⟨peerInfo, updates, filteredUpdates, rfl, rfl, -⟩ := applyInboundPolicy_cases h
  · rfl
  · rfl

/-- A Tick closes exactly the connected peers past their hold time. -/
theorem tick_closes_iff {clock now : Int} {name : String} {p : PeerRecord} (hp : bus.state.peerAt name = some p)
    (hconnected : p.connectionStatus = .connected) :
    (∃ p' ∈ (dispatch config bus clock (.tick now)).bus.state.peerAt name, p'.connectionStatus = .closed) ↔
      Rib.holdElapsed now p = true := by
  rw [dispatch_peerAt clock rfl (applyInboundPolicy_tick now), hp]
  simp only [Rib.peerAfter, Option.map_some, Option.mem_def, Option.some.injEq, exists_eq_left']
  unfold Rib.expirePeer Rib.expired
  by_cases helapsed : Rib.holdElapsed now p = true
  · simp [hconnected, helapsed]
  · simp [hconnected, helapsed]

theorem keptAlive_of_timersCurrent {events : List Event} (h : TimersCurrent bus events) :
    KeptAlive config bus events := by
  rintro clock now name p hp hconnected hhold hclosed heard hheard ⟨hrecent, -⟩
  obtain ⟨-, hrunning, helapsed⟩ := Rib.holdElapsed_iff.mp ((tick_closes_iff hp hconnected).mp hclosed)
  have hlast := h name p hp hconnected hhold hrunning heard hheard
  omega

theorem heardAt_append {events : List Event} {event : Event} {name : String} {heard : Int} :
    HeardAt (events ++ [event]) name heard ↔
      HeardAt events name heard ∨ ∃ action, event = .dispatch heard action ∧ Rib.heardFrom action = some name := by
  simp only [HeardAt, List.mem_append, List.mem_singleton, or_and_right, exists_or, eq_comm]

/-- A heeded event keeps the timers current. -/
theorem step_timersCurrent {events : List Event} {event : Event} (hclock : ∀ earlier ∈ events, earlier.now ≤ event.now)
    (hheeded : Heeded config bus event) (h : TimersCurrent bus events) :
    TimersCurrent (step config bus event) (events ++ [event]) := by
  cases event with
  | keepaliveSent peerName now =>
    intro name p hp hconnected hhold hrunning heard hheard
    obtain hearlier | ⟨action, hevent, -⟩ := heardAt_append.mp hheard
    · exact h name p hp hconnected hhold hrunning heard hearlier
    · cases hevent
  | dispatch now action =>
    intro name p' hp' hconnected hhold hrunning heard hheard
    by_cases hrejected : lacksPeerToken action = true ∨ applyInboundPolicy config bus.state action = none
    · -- the slot ends before planning, the record is as it was
      have hsame : step config bus (.dispatch now action) = bus := dispatch_rejected hrejected
      rw [hsame] at hp'
      obtain hearlier | ⟨later, hevent, hfrom⟩ := heardAt_append.mp hheard
      · exact h name p' hp' hconnected hhold hrunning heard hearlier
      · cases hevent
        refine hheeded (hrejected.resolve_left fun hlacks => ?_) name hfrom p' hp' hconnected hhold hrunning
        cases action with
        | localPeerCreate => cases hfrom
        | _ => cases hlacks
    · obtain ⟨htoken, hpolicy⟩ := not_or.mp hrejected
      obtain ⟨filteredAction, hfiltered⟩ := Option.ne_none_iff_exists'.mp hpolicy
      have hat := dispatch_peerAt now (by simpa using htoken) hfiltered name
      have hafter : Rib.peerAfter now filteredAction name (bus.state.peerAt name) = some p' := hat.symm.trans hp'
      by_cases hfrom : Rib.heardFrom filteredAction = some name
      · rw [Rib.peerAfter_heard hfrom, Option.map_eq_some_iff] at hafter
        obtain ⟨p, -, rfl⟩ := hafter
        rw [Rib.touchPeer_lastReceived hfrom]
        obtain ⟨earlier, hmem, -⟩ | ⟨later, hevent, -⟩ := heardAt_append.mp hheard
        · exact hclock _ hmem
        · cases hevent
          exact le_refl now
      · cases hinstalled : bus.state.peerAt name with
        | none =>
          rw [hinstalled] at hafter
          obtain ⟨data, -, rfl⟩ := Rib.peerAfter_none hafter
          cases hconnected
        | some p =>
          rw [hinstalled] at hafter
          obtain ⟨hsame, hlast⟩ := Rib.peerAfter_unheard hfrom hafter
          have hbefore := Rib.peerAfter_unheard_connected hfrom hafter hconnected
          rw [hsame] at hhold
          rw [hlast] at hrunning ⊢
          obtain hearlier | ⟨later, hevent, hlater⟩ := heardAt_append.mp hheard
          · exact h name p hinstalled hbefore hhold hrunning heard hearlier
          · cases hevent
            rw [heardFrom_filtered hfiltered] at hfrom
            exact absurd hlater hfrom

/-- An event that is not heeded can cost the peer its session at the next Tick. -/
theorem heeded_of_keptAlive {events : List Event} {event : Event}
    (h : KeptAlive config (step config bus event) (events ++ [event])) : Heeded config bus event := by
  cases event with
  | keepaliveSent => trivial
  | dispatch now action =>
    intro hrejected name hfrom p hp hconnected hhold hrunning
    have hsame : step config bus (.dispatch now action) = bus := dispatch_rejected (.inr hrejected)
    rw [hsame] at h
    by_contra hlate
    have helapsed : Rib.holdElapsed (max now (p.lastReceived + p.holdTime + 1)) p = true :=
      Rib.holdElapsed_iff.mpr ⟨hhold, hrunning, by omega⟩
    have hclosed := (@tick_closes_iff config bus now _ name p hp hconnected).mpr helapsed
    refine h now _ name p hp hconnected hhold hclosed now (heardAt_append.mpr (.inr ⟨action, rfl, hfrom⟩)) ?_
    omega

theorem run_timersCurrent {start : Bus} {events : List Event} (hclock : ClockOrdered events)
    (hheeded : EachStep config (Heeded config) start events) : TimersCurrent (run config start events) events := by
  induction events using List.reverseRecOn with
  | nil =>
    rintro name p - - - - heard ⟨action, hmem, -⟩
    cases hmem
  | append_singleton earlier event ih =>
    obtain ⟨hordered, -, hbefore⟩ := List.pairwise_append.mp hclock
    obtain ⟨hearlier, hlast, -⟩ := (Runs.eachStep_append _).mp hheeded
    rw [run, Runs.run_concat]
    exact step_timersCurrent (fun other hother => hbefore other hother event (by simp)) hlast (ih hordered hearlier)

/-- In a run on a clock that does not run backwards, whatever was heard from a
    peer keeps its session alive at the next Tick, wherever the run has got to,
    exactly when every message is heeded. -/
theorem run_keptAlive_iff {start : Bus} {events : List Event} (hclock : ClockOrdered events) :
    (∀ early late, events = early ++ late → KeptAlive config (run config start early) early) ↔
      EachStep config (Heeded config) start events := by
  constructor
  · intro h
    refine (Runs.eachStep_iff _).mpr fun early event late hevents => ?_
    have hafter := h (early ++ [event]) late (by simp [hevents])
    rw [run, Runs.run_concat] at hafter
    exact heeded_of_keptAlive hafter
  · rintro h early late rfl
    obtain ⟨hordered, -, -⟩ := List.pairwise_append.mp hclock
    exact keptAlive_of_timersCurrent (run_timersCurrent hordered ((Runs.eachStep_append _).mp h).1)

/-- `node-a` filters what it receives from `node-b`, which is connected since 1
    and sends one update at 90000. -/
def policyConfig (canReceive : List DataChannelDefinition → List DataChannelDefinition) : BusConfig where
  node := { name := "node-a" }
  routePolicy := some { canSend := fun _ routes => routes, canReceive := fun _ routes => canReceive routes }

def lateNews : List Event :=
  [.dispatch 1 (.localPeerCreate { name := "node-b", peerToken := some "token" }),
    .dispatch 1 (.internalProtocolConnected { name := "node-b" }), .dispatch 90000 (Rib.booksUpdate ["node-b"])]

theorem run_keptAlive_books :
    KeptAlive (policyConfig id) (run (policyConfig id) { state := newRouteTable } lateNews) lateNews := by
  have hclock : ClockOrdered lateNews := by
    unfold ClockOrdered
    decide
  have haccepted : applyInboundPolicy (policyConfig id)
      (run (policyConfig id) { state := newRouteTable } (lateNews.take 2)).state (Rib.booksUpdate ["node-b"]) ≠ none := by
    decide
  have hheeded : EachStep (policyConfig id) (Heeded (policyConfig id)) { state := newRouteTable } lateNews :=
    ⟨fun hrejected => (nomatch hrejected), fun hrejected => (nomatch hrejected),
      fun hrejected => absurd hrejected haccepted, trivial⟩
  exact (run_keptAlive_iff hclock).mpr hheeded lateNews [] (by simp)

/-- The policy rejects the whole update, and the session expires 2 ms later. -/
theorem rejected_closes :
    ¬ KeptAlive (policyConfig fun _ => []) (run (policyConfig fun _ => []) { state := newRouteTable } lateNews) lateNews := by
  intro h
  have hat : (run (policyConfig fun _ => []) { state := newRouteTable } lateNews).state.peerAt "node-b" =
      some { name := "node-b", peerToken := some "token", connectionStatus := .connected, lastConnected := 1,
             lastReceived := 1 } := by decide
  have hheard : HeardAt lateNews "node-b" 90000 := ⟨Rib.booksUpdate ["node-b"], by decide, rfl⟩
  have hcloses := @tick_closes_iff (policyConfig fun _ => []) _ 90002 90002 _ _ hat rfl
  exact h 90002 90002 "node-b" _ hat rfl (by decide) (hcloses.mpr (by decide)) 90000 hheard (by decide)

end Bus

end CatalystRouter
