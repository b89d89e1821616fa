import Mathlib.Logic.Function.Basic
import CatalystRouter.Orchestrator.Notify
import CatalystRouter.Orchestrator.Rpc

namespace CatalystRouter

/-- The `localNodeInfo` that a transport presents to the remote node. -/
def BusConfig.localNodeInfo (config : BusConfig) : PeerInfo :=
  { name := config.node.name, domains := config.node.domains, envoyAddress := config.node.envoyAddress }

/-- An `update` call on its way to the node it is addressed to. -/
structure Envelope where
  sender : String
  receiver : String
  peerInfo : PeerInfo
  updates : List UpdateItem
  deriving DecidableEq, Repr

/-- The fixed part of a network: one configuration for each node name, and the
    node that a transport reaches at a peer record. Nodes that never act and
    are never delivered to are as good as absent. -/
structure Fabric where
  config : String → BusConfig
  reaches : PeerRecord → String
  config_name : ∀ node, (config node).node.name = node

/-- The changing part: the buses, the messages in flight in the order they were
    sent, and the history of those received. -/
structure Network where
  bus : String → Bus
  inFlight : List Envelope := []
  received : List Envelope := []

/-- The moves of a network. Message indices point into `inFlight`. -/
inductive Move where
  | act (node : String) (now : Int) (action : Action)
  | deliver (i : Nat) (now : Int)
  | keepaliveSent (node peer : String) (now : Int)
  | duplicate (i : Nat)
  | drop (i : Nat)

/-- Nodes dispatch anything but updates by themselves: those only arrive from
    peers. -/
def Move.isLocal : Move → Bool
  | .act _ _ action => !action.isUpdate
  | _ => true

/-- A node's own actions and deliveries, each message once. -/
def Move.isReliable : Move → Bool
  | .duplicate _ => false
  | .drop _ => false
  | move => move.isLocal

theorem Move.isLocal_of_isReliable {move : Move} (h : move.isReliable = true) : move.isLocal = true := by
  cases move with
  | act | deliver | keepaliveSent => exact h
  | duplicate | drop => rfl

/-- Nodes with default settings, whose peer records reach the node they name. -/
def Fabric.plain : Fabric where
  config node := { node := { name := node } }
  reaches peer := peer.name
  config_name _ := rfl

namespace Network

def envelope (fabric : Fabric) (node : String) (message : PeerRecord × List UpdateItem) : Envelope where
  sender := node
  receiver := fabric.reaches message.1
  peerInfo := (fabric.config node).localNodeInfo
  updates := message.2

/-- The messages that a dispatch at `node` puts on the wire. -/
def posted (fabric : Fabric) (s : Network) (node : String) (now : Int) (action : Action) : List Envelope :=
  (Bus.dispatch (fabric.config node) (s.bus node) now action).sends.map (envelope fabric node)

/-- One queue slot of `node`; its sends settle when they are enqueued. -/
def dispatch (fabric : Fabric) (s : Network) (node : String) (now : Int) (action : Action) : Network :=
  { s with
    bus := Function.update s.bus node (Bus.dispatch (fabric.config node) (s.bus node) now action).bus
    inFlight := s.inFlight ++ posted fabric s node now action }

/-- Take the `i`-th message off the wire. -/
def take (s : Network) (i : Nat) (env : Envelope) : Network :=
  { s with inFlight := s.inFlight.eraseIdx i, received := s.received ++ [env] }

def step (fabric : Fabric) (s : Network) (move : Move) : Network :=
  match move with
  | .act node now action => s.dispatch fabric node now action
  | .deliver i now =>
    match s.inFlight[i]? with
    | some env => (s.take i env).dispatch fabric env.receiver now (.internalProtocolUpdate env.peerInfo env.updates)
    | none => s
  | .keepaliveSent node peer now =>
    { s with bus := Function.update s.bus node (Bus.keepaliveSent (s.bus node) peer now) }
  | .duplicate i => { s with inFlight := s.inFlight ++ s.inFlight[i]?.toList }
  | .drop i => { s with inFlight := s.inFlight.eraseIdx i }

/-- A network before any dispatch: no routes, idle links, and the given peers. -/
def initial (alloc : String → Option PortAllocator) (peers : String → List PeerRecord) : Network :=
  { bus := fun node => { state := { newRouteTable with peers := peers node }, portAllocator := alloc node } }

/-- The networks of all runs from `start` whose moves are all `Allowed`. -/
inductive Reachable (fabric : Fabric) (start : Network) (Allowed : Network → Move → Prop) : Network → Prop where
  | start : Reachable fabric start Allowed start
  | step {s : Network} (h : Reachable fabric start Allowed s) (move : Move) (hallowed : Allowed s move) :
      Reachable fabric start Allowed (s.step fabric move)

def run (fabric : Fabric) (s : Network) (moves : List Move) : Network := moves.foldl (step fabric) s

/-- Every move of the list is allowed at its turn. -/
def EachMove (fabric : Fabric) (Allowed : Network → Move → Prop) : Network → List Move → Prop
  | _, [] => True
  | s, move :: rest => Allowed s move ∧ EachMove fabric Allowed (s.step fabric move) rest

instance EachMove.decidable (fabric : Fabric) (Allowed : Network → Move → Prop)
    [∀ s move, Decidable (Allowed s move)] :
    ∀ (s : Network) (moves : List Move), Decidable (EachMove fabric Allowed s moves)
  | _, [] => isTrue trivial
  | s, move :: rest =>
    have := EachMove.decidable fabric Allowed (s.step fabric move) rest
    inferInstanceAs (Decidable (Allowed s move ∧ EachMove fabric Allowed (s.step fabric move) rest))

theorem EachMove.mono {fabric : Fabric} {Allowed Allowed' : Network → Move → Prop}
    (hallowed : ∀ s move, Allowed s move → Allowed' s move) (moves : List Move) :
    ∀ {s : Network}, EachMove fabric Allowed s moves → EachMove fabric Allowed' s moves := by
  induction moves with
  | nil => exact fun h => h
  | cons move rest ih => exact fun h => ⟨hallowed _ _ h.1, ih h.2⟩

theorem Reachable.run {fabric : Fabric} {start : Network} {Allowed : Network → Move → Prop}
    (moves : List Move) :
    ∀ {s : Network}, Reachable fabric start Allowed s → EachMove fabric Allowed s moves →
      Reachable fabric start Allowed (s.run fabric moves) := by
  induction moves with
  | nil => exact fun h _ => h
  | cons move rest ih => exact fun h hall => ih (h.step move hall.1) hall.2

/-- The node whose bus a move touches. -/
def actor (s : Network) : Move → Option String
  | .act node _ _ => some node
  | .deliver i _ => s.inFlight[i]?.map (·.receiver)
  | .keepaliveSent node _ _ => some node
  | .duplicate _ => none
  | .drop _ => none

def actors (fabric : Fabric) : Network → List Move → List String
  | _, [] => []
  | s, move :: rest => (s.actor move).toList ++ actors fabric (s.step fabric move) rest

@[simp] theorem dispatch_bus_self (fabric : Fabric) (s : Network) (node : String) (now : Int) (action : Action) :
    (s.dispatch fabric node now action).bus node =
      (Bus.dispatch (fabric.config node) (s.bus node) now action).bus := by
  simp [dispatch]

theorem dispatch_bus_of_ne (fabric : Fabric) (s : Network) {node other : String} (h : other ≠ node)
    (now : Int) (action : Action) : (s.dispatch fabric node now action).bus other = s.bus other := by
  simp [dispatch, h]

@[simp] theorem take_bus (s : Network) (i : Nat) (env : Envelope) : (s.take i env).bus = s.bus := rfl

@[simp] theorem dispatch_inFlight (fabric : Fabric) (s : Network) (node : String) (now : Int) (action : Action) :
    (s.dispatch fabric node now action).inFlight = s.inFlight ++ posted fabric s node now action := rfl

theorem step_bus_of_ne {fabric : Fabric} {s : Network} {move : Move} {node : String}
    (h : node ∉ s.actor move) : (s.step fabric move).bus node = s.bus node := by
  cases move with
  | act other now action =>
    have hne : node ≠ other := fun heq => h (by simp [actor, heq])
    exact dispatch_bus_of_ne fabric s hne now action
  | deliver i now =>
    simp only [step]
    cases henv : s.inFlight[i]? with
    | none => rfl
    | some env =>
      have hne : node ≠ env.receiver := fun heq => h (by simp [actor, henv, heq])
      exact dispatch_bus_of_ne fabric (s.take i env) hne now _
  | keepaliveSent other peer now =>
    have hne : node ≠ other := fun heq => h (by simp [actor, heq])
    simp [step, hne]
  | duplicate | drop => rfl

/-- A run leaves the nodes alone that have no part in it. -/
theorem run_bus_of_notMem {fabric : Fabric} {node : String} (moves : List Move) :
    ∀ s : Network, node ∉ actors fabric s moves → (s.run fabric moves).bus node = s.bus node := by
  induction moves with
  | nil => exact fun s _ => rfl
  | cons move rest ih =>
    intro s h
    have hfirst : node ∉ s.actor move := fun hmem => h (by simp [actors, Option.mem_def.mp hmem])
    have hrest : node ∉ actors fabric (s.step fabric move) rest := fun hmem => h (by simp [actors, hmem])
    exact (ih (s.step fabric move) hrest).trans (step_bus_of_ne hfirst)

end Network

end CatalystRouter
