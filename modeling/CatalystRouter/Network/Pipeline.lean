import Mathlib.Data.List.Count
import CatalystRouter.Library.WaitGraph
import CatalystRouter.Network.Model

namespace CatalystRouter

/-! The dispatch pipeline of a cluster, await by await: a queue slot stays taken
    until the remote dispatches that it awaits have settled. -/

/-- The fixed part of a cluster. A connection to an endpoint that no node
    serves fails. -/
structure Cluster (Node : Type) where
  config : Node → BusConfig
  services : Node → TokenServices
  serves : String → Option Node

/-- A call of `WebSocketPeerTransport` on its way, with the authentication that
    precedes it and the peer record it is made for. -/
structure RemoteCall (Node : Type) where
  caller : Node
  callee : Node
  token : String
  call : IBGPCall
  peerName : String
  deriving DecidableEq, Repr

/-- The outcome of a call: its promise is fulfilled, or rejected. -/
structure Reply (Node : Type) where
  call : RemoteCall Node
  fulfilled : Bool
  deriving DecidableEq, Repr

/-- An entry of an `ActionQueue`, with the call whose client awaits it. -/
structure Job (Node : Type) where
  action : Action
  origin : Option (RemoteCall Node) := none
  deriving DecidableEq, Repr

/-- The running entry of an `ActionQueue`: the calls it awaits, by callee, and
    the stages still to come. -/
structure Slot (Node : Type) extends Job Node where
  awaiting : List Node := []
  stages : List (List Effect)
  deriving DecidableEq, Repr

structure Orchestrator (Node : Type) where
  bus : Bus
  queue : List (Job Node) := []
  running : Option (Slot Node) := none

/-- The changing part of a cluster, with the calls and replies in flight. -/
structure Pipeline (Node : Type) where
  node : Node → Orchestrator Node
  calls : List (RemoteCall Node) := []
  replies : List (Reply Node) := []

namespace Pipeline

/-- The steps of a pipeline. Local dispatches, Ticks and the dispatches of a
    dial, which no slot awaits, are submitted; the rest runs by itself. -/
inductive Move (Node : Type) where
  | submit (node : Node) (action : Action)
  | start (node : Node) (now : Int)
  | advance (node : Node)
  | finish (node : Node)
  | deliver (i : Nat)
  | settle (i : Nat)

def Move.isInternal {Node : Type} : Move Node → Bool
  | .submit _ _ => false
  | _ => true

end Pipeline

section Transport

variable {Node : Type} (cluster : Cluster Node) (node : Node)

/-- A transport method: without an endpoint or a token it settles by itself. -/
def Cluster.transportCall (peer : PeerRecord) (call : IBGPCall) : Option (RemoteCall Node) := do
  let endpoint ← peer.endpoint
  let token ← peer.peerToken
  if endpoint = "" ∨ token = "" then none
  else
    let callee ← cluster.serves endpoint
    return { caller := node, callee, token, call, peerName := peer.name }

/-- The remote call that an effect awaits. The gateway and the envoy service
    settle by themselves. -/
def Cluster.remoteCall (effect : Effect) : Option (RemoteCall Node) :=
  let localNodeInfo := (cluster.config node).localNodeInfo
  match effect with
  | .sendUpdate peer updates => cluster.transportCall node peer (.updateCall localNodeInfo updates)
  | .sendKeepalive peer => cluster.transportCall node peer (.keepaliveCall localNodeInfo)
  | .closePeer peer code => cluster.transportCall node peer (.closeCall localNodeInfo code)
  | .updateConfig _ => none
  | .updateRoutes _ => none

end Transport

namespace Pipeline

section Step

variable {Node : Type} [DecidableEq Node]

def put (s : Pipeline Node) (node : Node) (orchestrator : Orchestrator Node) : Pipeline Node :=
  { s with node := Function.update s.node node orchestrator }

/-- `ActionQueue.enqueue`. -/
def enqueue (s : Pipeline Node) (node : Node) (job : Job Node) : Pipeline Node :=
  s.put node { s.node node with queue := (s.node node).queue ++ [job] }

def reply (s : Pipeline Node) (call : RemoteCall Node) (fulfilled : Bool) : Pipeline Node :=
  { s with replies := s.replies ++ [⟨call, fulfilled⟩] }

/-- The calls that the next stage of the running slot makes. -/
def issued (cluster : Cluster Node) (s : Pipeline Node) (node : Node) : List (RemoteCall Node) :=
  match (s.node node).running with
  | some slot => (slot.stages.head?.getD []).filterMap (cluster.remoteCall node)
  | none => []

/-- A keepalive that settled without an exception is remembered by the Tick
    that sent it. -/
def afterReply (slot : Slot Node) (reply : Reply Node) (bus : Bus) : Bus :=
  match reply.call.call, slot.action with
  | .keepaliveCall _, .tick now =>
    if reply.fulfilled then Bus.keepaliveSent bus reply.call.peerName now else bus
  | _, _ => bus

/-- One step; `none` when it is not enabled. Indices point into the calls and
    replies in flight. -/
def step (cluster : Cluster Node) (s : Pipeline Node) (move : Move Node) : Option (Pipeline Node) :=
  match move with
  | .submit node action => some (s.enqueue node { action })
  | .start node now =>
    match (s.node node).running, (s.node node).queue with
    | none, job :: rest =>
      let result := Bus.dispatch (cluster.config node) (s.node node).bus now job.action
      some (s.put node { bus := result.bus, queue := rest, running := some { job with stages := result.stages } })
    | _, _ => none
  | .advance node =>
    match (s.node node).running with
    | some slot =>
      match slot.awaiting, slot.stages with
      | [], _ :: rest =>
        let calls := s.issued cluster node
        let slot := { slot with awaiting := calls.map (·.callee), stages := rest }
        some { s.put node { s.node node with running := some slot } with calls := s.calls ++ calls }
      | _, _ => none
    | none => none
  | .finish node =>
    match (s.node node).running with
    | some slot =>
      match slot.awaiting, slot.stages with
      | [], [] =>
        let s := s.put node { s.node node with running := none }
        match slot.origin with
        | some call => some (s.reply call true)
        | none => some s
      | _, _ => none
    | none => none
  | .deliver i =>
    match s.calls[i]? with
    | some call =>
      let s := { s with calls := s.calls.eraseIdx i }
      match createIBGPClient (cluster.services call.callee) call.token with
      | .error _ => some (s.reply call false)
      | .ok client =>
        match client.verify call.call with
        | .error _ => some (s.reply call true)
        | .ok () => some (s.enqueue call.callee { action := call.call.toAction, origin := some call })
    | none => none
  | .settle i =>
    match s.replies[i]? with
    | some reply =>
      let node := reply.call.caller
      let s := { s with replies := s.replies.eraseIdx i }
      match (s.node node).running with
      | some slot =>
        let bus := afterReply slot reply (s.node node).bus
        let slot := { slot with awaiting := slot.awaiting.erase reply.call.callee }
        some (s.put node { s.node node with bus, running := some slot })
      | none => some s
    | none => none

/-- Nothing is queued, running or in flight. -/
structure Idle (s : Pipeline Node) : Prop where
  queue : ∀ node, (s.node node).queue = []
  running : ∀ node, (s.node node).running = none
  calls : s.calls = []
  replies : s.replies = []

/-- The pipelines of all runs from `start` whose moves are all `Allowed`. -/
inductive Reachable (cluster : Cluster Node) (start : Pipeline Node) (Allowed : Pipeline Node → Move Node → Prop) :
    Pipeline Node → Prop where
  | start : Reachable cluster start Allowed start
  | step {s s' : Pipeline Node} (h : Reachable cluster start Allowed s) (move : Move Node) (hallowed : Allowed s move)
      (hstep : s.step cluster move = some s') : Reachable cluster start Allowed s'

/-- A dispatch is queued, running or on its way. -/
def Pending (s : Pipeline Node) : Prop :=
  s.calls ≠ [] ∨ ∃ node, (s.node node).queue ≠ [] ∨ (s.node node).running ≠ none

/-- The running slot of `node` awaits a call that is queued behind the running
    slot of `other`. -/
def Blocked (s : Pipeline Node) (node other : Node) : Prop :=
  (∃ slot ∈ (s.node node).running, other ∈ slot.awaiting) ∧ (s.node other).running ≠ none ∧
    ∃ job ∈ (s.node other).queue, ∃ call ∈ job.origin, call.caller = node

/-- No cycle of blocked nodes, and whatever is pending can go on. -/
structure DeadlockFree (cluster : Cluster Node) (s : Pipeline Node) : Prop where
  acyclic : WaitGraph.Acyclic s.Blocked
  progress : s.Pending → ∃ move : Move Node, move.isInternal = true ∧ (s.step cluster move).isSome = true

end Step

end Pipeline

end CatalystRouter
