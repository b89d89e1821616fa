import CatalystRouter.Orchestrator.Ports
import CatalystRouter.Routing.Runs

namespace CatalystRouter

/-- What happens to a bus: a queue slot runs at its clock reading, or a
    keepalive settles. -/
inductive Bus.Event where
  | dispatch (now : Int) (action : Action)
  | keepaliveSent (peerName : String) (now : Int)
  deriving DecidableEq, Repr

namespace Bus

/-- The clock reading of an event. -/
def Event.now : Event → Int
  | .dispatch now _ => now
  | .keepaliveSent _ now => now

variable (config : BusConfig)

def step (bus : Bus) : Event → Bus
  | .dispatch now action => (Bus.dispatch config bus now action).bus
  | .keepaliveSent peerName now => Bus.keepaliveSent bus peerName now

/-- The bus after a list of events. -/
abbrev run (bus : Bus) (events : List Event) : Bus := Runs.run (step config) bus events

/-- `C` holds of every event of the run, at the bus it finds. -/
abbrev EachStep (C : Bus → Event → Prop) (bus : Bus) (events : List Event) : Prop :=
  Runs.EachStep (step config) C bus events

/-- The action is valid, something of it passes the inbound policy, and planning that
    changes the state. -/
def takesEffect (state : RouteTable) (now : Int) (action : Action) : Bool :=
  !lacksPeerToken action && match applyInboundPolicy config state action with
    | some filteredAction => Rib.stateChanged (Rib.plan config.node.name now filteredAction state)
    | none => false

/-- The clock does not run backwards. -/
def ClockOrdered (events : List Event) : Prop := events.Pairwise fun event later => event.now ≤ later.now

variable {config} {bus : Bus} {now : Int} {action : Action}

/-- The slots that commit are those whose action takes effect. -/
theorem dispatch_committed (config : BusConfig) (bus : Bus) (now : Int) (action : Action) :
    (dispatch config bus now action).committed.isSome = takesEffect config bus.state now action := by
  unfold dispatch takesEffect
  cases htoken : lacksPeerToken action with
  | true => rfl
  | false =>
    cases hfiltered : applyInboundPolicy config bus.state action with
    | none => rfl
    | some filteredAction =>
      cases hchanged : Rib.stateChanged (Rib.plan config.node.name now filteredAction bus.state) <;> simp [hchanged]

/-- What a slot whose action takes effect commits. -/
theorem dispatch_of_takesEffect (heffect : takesEffect config bus.state now action = true) :
    ∃ filteredAction ∈ applyInboundPolicy config bus.state action,
      (Rib.plan config.node.name now filteredAction bus.state).sameReference = false ∧
      (dispatch config bus now action).bus.state =
        (planPorts bus.portAllocator (Rib.plan config.node.name now filteredAction bus.state)).1.newState ∧
      (dispatch config bus now action).bus.portAllocator =
        (planPorts bus.portAllocator (Rib.plan config.node.name now filteredAction bus.state)).2 := by
  rw [← dispatch_committed] at heffect
  have hshape := dispatch_shape config bus now action
  generalize dispatch config bus now action = result at hshape heffect ⊢
  cases hshape with
  | rejected | idle => cases heffect
  | committed filteredAction plan portAllocator hfiltered hchanged hports =>
    exact ⟨filteredAction, hfiltered, hchanged, by rw [hports], by rw [hports]⟩

/-- A slot that plans nothing leaves the bus as it was. -/
theorem dispatch_rejected (h : lacksPeerToken action = true ∨ applyInboundPolicy config bus.state action = none) :
    (dispatch config bus now action).bus = bus := by
  unfold dispatch
  split
  · rfl
  · rename_i htoken
    rw [h.resolve_left (by simpa using htoken)]

/-- A slot leaves everything as it was, or its plan with the ports of the
    allocator. -/
theorem dispatch_planned (config : BusConfig) (bus : Bus) (now : Int) (action : Action) :
    (dispatch config bus now action).bus = bus ∨
      ∃ filteredAction, applyInboundPolicy config bus.state action = some filteredAction ∧
        (dispatch config bus now action).bus.state =
          (planPorts bus.portAllocator (Rib.plan config.node.name now filteredAction bus.state)).1.newState ∧
        (dispatch config bus now action).bus.portAllocator =
          (planPorts bus.portAllocator (Rib.plan config.node.name now filteredAction bus.state)).2 := by
  have hshape := dispatch_shape config bus now action
  generalize dispatch config bus now action = result at hshape ⊢
  cases hshape with
  | rejected | idle => exact .inl rfl
  | committed filteredAction plan portAllocator hfiltered hchanged hports =>
    exact .inr ⟨filteredAction, hfiltered, by rw [hports], by rw [hports]⟩

/-- A slot that plans leaves the peers that the plan makes. -/
theorem dispatch_peerAt (now : Int) {filteredAction : Action} (htoken : lacksPeerToken action = false)
    (hfiltered : applyInboundPolicy config bus.state action = some filteredAction) (name : String) :
    (dispatch config bus now action).bus.state.peerAt name =
      Rib.peerAfter now filteredAction name (bus.state.peerAt name) := by
  rw [← Rib.plan_peerAt config.node.name]
  have hshape := dispatch_shape config bus now action
  generalize dispatch config bus now action = result at hshape ⊢
  cases hshape with
  | rejected error hreason =>
    obtain hlacks | hnone := hreason
    · rw [htoken] at hlacks
      cases hlacks
    · rw [hfiltered] at hnone
      cases hnone
  | idle other hother hsame =>
    obtain rfl := Option.some.inj (hfiltered.symm.trans hother)
    rw [plan_newState_of_sameReference hsame]
  | committed other plan portAllocator hother hchanged hports =>
    obtain rfl := Option.some.inj (hfiltered.symm.trans hother)
    unfold RouteTable.peerAt
    rw [(portsOnly_of_planPorts hports).peers]

theorem peerAfter_filtered {filteredAction : Action}
    (hfiltered : applyInboundPolicy config bus.state action = some filteredAction) (name : String)
    (installed : Option PeerRecord) :
    Rib.peerAfter now filteredAction name installed = Rib.peerAfter now action name installed := by
  rcases applyInboundPolicy_cases hfiltered with rfl | ⟨peerInfo, updates, filteredUpdates, rfl, rfl, -⟩
  · rfl
  · rfl

/-- A slot leaves the peers as they were, which only a rejected create or update
    does without a plan, or as its action makes them. -/
theorem dispatch_peers (config : BusConfig) (bus : Bus) (now : Int) (action : Action) :
    ((dispatch config bus now action).bus = bus ∧
      ((∃ data, action = .localPeerCreate data) ∨
        ∃ peerInfo updates, action = .internalProtocolUpdate peerInfo updates)) ∨
    ∀ name, (dispatch config bus now action).bus.state.peerAt name =
      Rib.peerAfter now action name (bus.state.peerAt name) := by
  cases htoken : lacksPeerToken action with
  | true =>
    refine .inl ⟨dispatch_rejected (.inl htoken), .inl ?_⟩
    cases action <;> first | exact ⟨_, rfl⟩ | cases htoken
  | false =>
    cases hfiltered : applyInboundPolicy config bus.state action with
    | none =>
      refine .inl ⟨dispatch_rejected (.inr hfiltered), .inr ?_⟩
      unfold applyInboundPolicy at hfiltered
      split at hfiltered
      · exact ⟨_, _, rfl⟩
      · cases hfiltered
    | some filteredAction =>
      exact .inr fun name => (dispatch_peerAt now htoken hfiltered name).trans (peerAfter_filtered hfiltered name _)

end Bus

end CatalystRouter
