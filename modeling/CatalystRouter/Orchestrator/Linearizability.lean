import CatalystRouter.Library.PromiseQueue
import CatalystRouter.Orchestrator.Runs

namespace CatalystRouter

open PromiseQueue

/-- What a queue slot reads while it runs: the clock, and whether the journal takes
    the entry. -/
structure Reading where
  now : Int
  appendFails : Bool := false
  deriving DecidableEq, Repr

/-- How the promise of a dispatch settles. -/
inductive Settlement where
  | fulfilled (outcome : Except String RouteTable)
  | rejected

namespace Bus

variable {config : BusConfig}

/-- The stages that `handlePostCommit` awaits. The envoy push and the keepalives
    read the bus when their stage comes. -/
def postCommitStages (config : BusConfig) (action : Action) (plan : PlanResult) (committedState : RouteTable) :
    List (Bus → List Effect) :=
  (handleBGPNotify config action plan committedState).map (fun stage _ => stage) ++
    (if plan.routeChanges = [] then []
      else (handleGraphqlGatewaySync config committedState).map fun stage _ => stage) ++
    (if plan.routeChanges = [] ∧ plan.portOps = [] then []
      else [fun bus => (handleEnvoySync config bus.portAllocator committedState).flatten]) ++
    [fun bus => (tickKeepalives bus action committedState).flatten]

/-- One slot up to its first await. -/
def startDispatch (config : BusConfig) (bus : Bus) (action : Action) (reading : Reading) :
    Begun Bus Effect Settlement :=
  let result := dispatch config bus reading.now action
  match result.committed with
  | none =>
    { state := result.bus
      outcome := .fulfilled result.outcome
      stages := result.stages.map fun stage _ => stage }
  | some plan =>
    -- `commit` has replaced the state by the time that the journal throws
    if reading.appendFails then { state := result.bus, outcome := .rejected }
    else
      { state := result.bus
        outcome := .fulfilled result.outcome
        stages := postCommitStages config action plan result.bus.state }

/-- A rejection is caught where the effect is awaited. -/
def settleEffect (bus : Bus) (action : Action) (effect : Effect) (fulfilled : Bool) : Bus :=
  match effect, action with
  | .sendKeepalive peer, .tick now => if fulfilled then bus.keepaliveSent peer.name now else bus
  | _, _ => bus

/-- The function that `dispatch` enqueues. -/
def dispatchBody (config : BusConfig) : Body Bus Action Reading Effect Settlement where
  start bus action reading := startDispatch config bus action reading
  settle bus action _ effect fulfilled := settleEffect bus action effect fulfilled

abbrev DispatchQueue : Type := Queue Bus Action Reading Effect Settlement

/-- The dispatches one after another, each a validate, policy, plan, port and
    commit step. -/
def commits (config : BusConfig) (bus : Bus) (calls : List (Action × Reading)) : Bus :=
  calls.foldl (fun bus call => (dispatch config bus call.2.now call.1).bus) bus

/-- How a dispatch settles that finds this bus. -/
def settlement (config : BusConfig) (bus : Bus) (action : Action) (reading : Reading) : Settlement :=
  if (dispatch config bus reading.now action).committed.isSome ∧ reading.appendFails then .rejected
  else .fulfilled (dispatch config bus reading.now action).outcome

/-- The part of a bus that its commits write. -/
def routing (bus : Bus) : RouteTable × Option PortAllocator := (bus.state, bus.portAllocator)

theorem startDispatch_state (bus : Bus) (action : Action) (reading : Reading) :
    (startDispatch config bus action reading).state = (dispatch config bus reading.now action).bus := by
  unfold startDispatch
  dsimp only
  split
  · rfl
  · split <;> rfl

theorem startDispatch_outcome (bus : Bus) (action : Action) (reading : Reading) :
    (startDispatch config bus action reading).outcome = settlement config bus action reading := by
  unfold startDispatch settlement
  dsimp only
  split
  case h_1 hnone => simp [hnone]
  case h_2 plan hsome => split <;> simp_all

theorem sequential_dispatchBody (bus : Bus) (calls : List (Action × Reading)) :
    sequential (dispatchBody config) bus calls = commits config bus calls := by
  simp only [sequential, commits, dispatchBody, startDispatch_state]

theorem commits_concat (bus : Bus) (calls : List (Action × Reading)) (call : Action × Reading) :
    commits config bus (calls ++ [call]) = (dispatch config (commits config bus calls) call.2.now call.1).bus := by
  rw [commits, List.foldl_append]
  rfl

/-- What a slot commits and how it settles do not depend on the keepalives so far. -/
theorem dispatch_keepalives (config : BusConfig) (bus : Bus) (sent : String → Int) (now : Int) (action : Action) :
    (dispatch config { bus with lastKeepaliveSent := sent } now action).bus.routing =
        (dispatch config bus now action).bus.routing ∧
      (dispatch config { bus with lastKeepaliveSent := sent } now action).outcome =
        (dispatch config bus now action).outcome ∧
      (dispatch config { bus with lastKeepaliveSent := sent } now action).committed =
        (dispatch config bus now action).committed := by
  unfold dispatch
  dsimp only
  split
  · exact ⟨rfl, rfl, rfl⟩
  · cases applyInboundPolicy config bus.state action with
    | none => exact ⟨rfl, rfl, rfl⟩
    | some filteredAction =>
      dsimp only
      split <;> exact ⟨rfl, rfl, rfl⟩

theorem dispatchBody_respects (config : BusConfig) : (dispatchBody config).Respects routing where
  start bus other action reading hrouting := by
    have hother : other = { bus with lastKeepaliveSent := other.lastKeepaliveSent } := by
      obtain ⟨hstate, halloc⟩ := Prod.mk.inj hrouting
      cases other
      simp_all
    have hsame := dispatch_keepalives config bus other.lastKeepaliveSent reading.now action
    simp only [dispatchBody, startDispatch_state, startDispatch_outcome, settlement]
    rw [hother]
    exact ⟨hsame.1.symm, by rw [hsame.2.1, hsame.2.2]⟩
  settle bus action reading effect fulfilled := by
    simp only [dispatchBody, settleEffect]
    split
    · split <;> rfl
    · rfl

theorem dispatch_of_error {bus : Bus} {now : Int} {action : Action} {reason : String}
    (h : (dispatch config bus now action).outcome = .error reason) : (dispatch config bus now action).bus = bus := by
  have hshape := dispatch_shape config bus now action
  generalize dispatch config bus now action = result at hshape h ⊢
  cases hshape with
  | rejected | idle => rfl
  | committed => cases h

/-- Concurrent dispatches, whatever the delays and failures of their effects: they
    are queued in call order, the bus is always that of the commits so far one after
    another, a slot begins when all before it have been released, and it settles with
    the outcome of its own step, a failure leaving the bus as it was. Until all have
    been released the runtime has a step to take, and it cannot take steps for ever. -/
theorem dispatch_linearizable {bus : Bus} {moves : List (PromiseQueue.Move Action Reading)} {queue : DispatchQueue}
    (h : Queue.run (dispatchBody config) { shared := bus } moves = some queue) :
    queue.slots.map (·.call) = moves.filterMap (·.call) ∧
      queue.shared.routing = (commits config bus queue.begun).routing ∧
      (queue.slots.Pairwise fun slot later => later.phase.begun ≠ none → slot.phase.isReleased = true) ∧
      (∀ front slot back reading outcome, queue.slots = front ++ slot :: back →
        slot.phase.begun = some (reading, outcome) →
          outcome = settlement config (commits config bus (front.filterMap (·.begun))) slot.call reading ∧
          ∀ reason, outcome = .fulfilled (.error reason) →
            commits config bus ((front ++ [slot]).filterMap (·.begun)) =
              commits config bus (front.filterMap (·.begun))) ∧
      ((∃ slot ∈ queue.slots, slot.phase.isReleased = false) → ∀ reading fulfilled,
        ∃ move : PromiseQueue.Move Action Reading, move.Resolves reading fulfilled ∧
          (queue.step (dispatchBody config) move).isSome = true) ∧
      WellFounded fun next queue : DispatchQueue =>
        ∃ move, move.call = none ∧ queue.step (dispatchBody config) move = some next := by
  obtain ⟨hserial, hlinear, hcalls⟩ := run_serial (dispatchBody_respects config) (serial_start bus)
    ⟨rfl, trivial⟩ h
  refine ⟨hcalls, ?_, hserial.order, ?_, fun hsome => progress hserial hsome _, terminates _⟩
  · rw [← sequential_dispatchBody, Queue.begun, ← run_apply]
    exact hlinear.shared
  · intro front slot back reading outcome hslots hbegun
    have hcorrect := (Runs.eachStep_iff _).mp hlinear.outcomes front slot back hslots reading outcome hbegun
    rw [run_apply, sequential_dispatchBody] at hcorrect
    have hsettled : outcome = settlement config (commits config bus (front.filterMap (·.begun))) slot.call reading :=
      hcorrect.trans (startDispatch_outcome _ _ _)
    refine ⟨hsettled, fun reason hreason => ?_⟩
    have herror : (dispatch config (commits config bus (front.filterMap (·.begun))) reading.now slot.call).outcome =
        .error reason := by
      rw [hsettled, settlement] at hreason
      split at hreason
      · cases hreason
      · exact Settlement.fulfilled.inj hreason
    have hlast : [slot].filterMap (·.begun) = [(slot.call, reading)] := by simp [Slot.begun, hbegun]
    rw [List.filterMap_append, hlast, commits_concat]
    exact dispatch_of_error herror

/-- Two dispatches, the second issued while the first is in its slot and rejected by
    the journal after its commit. -/
theorem two_dispatches :
    let config : BusConfig := { node := { name := "node-a" } }
    let moves : List (PromiseQueue.Move Action Reading) :=
      [.enqueue (.localPeerCreate { name := "node-b", peerToken := some "token" }), .start 0 { now := 1 },
        .enqueue (.localPeerDelete "node-b"), .advance 0, .finish 0, .release 0,
        .start 1 { now := 2, appendFails := true }]
    ∃ queue, Queue.run (dispatchBody config) { shared := { state := newRouteTable } } moves = some queue ∧
      queue.shared.routing = (commits config { state := newRouteTable } queue.begun).routing ∧
      queue.shared.state.peers = [] := by
  intro config moves
  have hrun : Queue.run (dispatchBody config) { shared := { state := newRouteTable } } moves = some _ := rfl
  refine ⟨_, hrun, (dispatch_linearizable hrun).2.1, rfl⟩

end Bus

end CatalystRouter
