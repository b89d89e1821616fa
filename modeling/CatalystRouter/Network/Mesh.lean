import Mathlib.Combinatorics.SimpleGraph.Metric
import CatalystRouter.Network.Abstraction
import CatalystRouter.Routing.Sessions

namespace CatalystRouter

open PathVector (Item Label State)

/-- A fixed undirected topology whose sessions are connected at both ends. -/
structure Mesh where
  graph : SimpleGraph String
  peers : String → List PeerRecord
  peers_adj : ∀ node name, graph.Adj node name ↔ ∃ p ∈ peers node, p.name = name
  peers_connected : ∀ node, ∀ p ∈ peers node, p.connectionStatus = .connected

/-- The other ends of a node's links. -/
def neighbours (links : List (String × String)) (node : String) : List String :=
  links.filterMap fun link =>
    if link.1 = node then some link.2 else if link.2 = node then some link.1 else none

theorem mem_neighbours_iff {links : List (String × String)} {node name : String} :
    name ∈ neighbours links node ↔
      (node, name) ∈ links ∨ ∃ link ∈ links, link.1 ≠ node ∧ link.2 = node ∧ link.1 = name := by
  simp only [neighbours, List.mem_filterMap]
  constructor
  · rintro ⟨⟨a, b⟩, hlink, hend⟩
    dsimp only at hend
    split at hend
    · rename_i ha
      subst ha
      obtain rfl := Option.some.inj hend
      exact .inl hlink
    · rename_i ha
      split at hend
      · rename_i hb
        subst hb
        exact .inr ⟨(a, b), hlink, ha, rfl, Option.some.inj hend⟩
      · cases hend
  · rintro (hlink | ⟨⟨a, b⟩, hlink, ha, hb, hname⟩)
    · exact ⟨(node, name), hlink, by simp⟩
    · refine ⟨(a, b), hlink, ?_⟩
      dsimp only at ha hb hname ⊢
      rw [if_neg ha, if_pos hb, hname]

/-- The mesh with the given links, none of which joins a node to itself. -/
def Mesh.ofLinks (links : List (String × String)) (hproper : ∀ link ∈ links, link.1 ≠ link.2) : Mesh where
  graph :=
    { Adj := fun a b => b ∈ neighbours links a
      symm := ⟨fun a b hab => by
        rw [mem_neighbours_iff] at hab ⊢
        obtain hlink | ⟨⟨c, d⟩, hlink, -, rfl, rfl⟩ := hab
        · exact .inr ⟨(a, b), hlink, hproper _ hlink, rfl, rfl⟩
        · exact .inl hlink⟩
      loopless := ⟨fun a haa => by
        rw [mem_neighbours_iff] at haa
        obtain hlink | ⟨link, hlink, ha, -, heq⟩ := haa
        · exact hproper _ hlink rfl
        · exact ha heq⟩ }
  peers node := (neighbours links node).map fun name => { name, connectionStatus := .connected }
  peers_adj node name := by simp
  peers_connected node p hp := by
    obtain ⟨name, -, rfl⟩ := List.mem_map.mp hp
    rfl

/-- Three nodes in a row. -/
def line : Mesh := .ofLinks [("node-a", "node-b"), ("node-b", "node-c")] (by decide)

namespace Bus

/-- A slot whose action keeps the sessions keeps them at commit. -/
theorem dispatch_sessions (config : BusConfig) {bus : Bus} (now : Int) {action : Action}
    (hkeeps : action.KeepsSessions bus.state) (hconnected : bus.state.AllConnected) :
    (dispatch config bus now action).bus.state.sessions = bus.state.sessions := by
  have hshape := dispatch_shape config bus now action
  generalize dispatch config bus now action = result at hshape ⊢
  cases hshape with
  | rejected | idle => rfl
  | committed filteredAction plan portAllocator hfiltered hchanged hports =>
    have hportsOnly := portsOnly_of_planPorts hports
    have hkeeps' : filteredAction.KeepsSessions bus.state := by
      obtain rfl | ⟨_, _, _, -, rfl, -⟩ := applyInboundPolicy_cases hfiltered
      · exact hkeeps
      · trivial
    have hpeers : plan.newState.sessions =
        (Rib.plan config.node.name now filteredAction bus.state).newState.sessions := by
      unfold RouteTable.sessions
      rw [hportsOnly.peers]
    exact hpeers.trans (Rib.plan_sessions config.node.name now hkeeps' hconnected)

theorem mem_connectedPeers {state : RouteTable} {p : PeerRecord} :
    p ∈ connectedPeers state ↔ p ∈ state.peers ∧ p.connectionStatus = .connected := by
  simp [connectedPeers]

end Bus

namespace Network

/-- The sessions are those of the mesh, and messages only travel along its
    edges. -/
structure Established (mesh : Mesh) (s : Network) : Prop where
  sessions : ∀ node, (s.bus node).state.sessions =
    (mesh.peers node).map fun p => (p.name, p.connectionStatus)
  receivedLinks : ∀ env ∈ s.received, mesh.graph.Adj env.sender env.receiver
  inFlightLinks : ∀ env ∈ s.inFlight, mesh.graph.Adj env.sender env.receiver

variable {mesh : Mesh} {fabric : Fabric} {s : Network}

theorem initial_established (mesh : Mesh) (alloc : String → Option PortAllocator) :
    (initial alloc mesh.peers).Established mesh where
  sessions _ := rfl
  receivedLinks env henv := by cases henv
  inFlightLinks env henv := by cases henv

theorem allConnected_of_mesh {state : RouteTable} {node : String}
    (h : state.sessions = (mesh.peers node).map fun p => (p.name, p.connectionStatus)) : state.AllConnected := by
  have hsame : state.sessions = RouteTable.sessions { newRouteTable with peers := mesh.peers node } := h
  exact Rib.allConnected_of_sessions hsame (mesh.peers_connected node)

/-- With the sessions of the mesh, the connected peers are the neighbours. -/
theorem adj_iff_connectedPeer {state : RouteTable} {node : String}
    (h : state.sessions = (mesh.peers node).map fun p => (p.name, p.connectionStatus)) (name : String) :
    mesh.graph.Adj node name ↔ ∃ p ∈ Bus.connectedPeers state, p.name = name := by
  have hsame : state.sessions = RouteTable.sessions { newRouteTable with peers := mesh.peers node } := h
  rw [mesh.peers_adj]
  constructor
  · rintro ⟨p, hp, rfl⟩
    obtain ⟨q, hq, hname, hstatus⟩ := Rib.exists_peer_of_sessions hsame hp
    exact ⟨q, Bus.mem_connectedPeers.mpr ⟨hq, hstatus.trans (mesh.peers_connected node p hp)⟩, hname⟩
  · rintro ⟨p, hp, rfl⟩
    obtain ⟨q, hq, hname, -⟩ := Rib.exists_peer_of_sessions hsame.symm (Bus.mem_connectedPeers.mp hp).1
    exact ⟨q, hq, hname⟩

theorem Established.dispatch (h : s.Established mesh) (hdirect : fabric.Direct) {node : String} {action : Action}
    (hinput : Bus.SlotInput (fabric.config node) (s.bus node) action)
    (hkeeps : action.KeepsSessions (s.bus node).state) (now : Int) :
    (s.dispatch fabric node now action).Established mesh := by
  have hsessions := Bus.dispatch_sessions (fabric.config node) now hkeeps
    (allConnected_of_mesh (h.sessions node))
  refine ⟨fun other => ?_, h.receivedLinks, fun env henv => ?_⟩
  · by_cases hother : other = node
    · subst hother
      rw [dispatch_bus_self, hsessions, h.sessions]
    · rw [dispatch_bus_of_ne fabric s hother, h.sessions]
  · obtain henv | henv := List.mem_append.mp henv
    · exact h.inFlightLinks env henv
    · obtain ⟨message, hmessage, rfl⟩ := List.mem_map.mp henv
      have hpeer := (Bus.dispatch_sends now hinput message hmessage).1
      refine (adj_iff_connectedPeer (hsessions.trans (h.sessions node)) _).mpr ⟨message.1, hpeer, ?_⟩
      exact (hdirect message.1).symm

theorem Established.take (h : s.Established mesh) {i : Nat} {env : Envelope} (henv : s.inFlight[i]? = some env) :
    (s.take i env).Established mesh := by
  refine ⟨h.sessions, fun env' henv' => ?_, fun env' henv' =>
    h.inFlightLinks env' ((List.eraseIdx_sublist _ _).subset henv')⟩
  obtain henv' | henv' := List.mem_append.mp henv'
  · exact h.receivedLinks env' henv'
  · obtain rfl := List.mem_singleton.mp henv'
    exact h.inFlightLinks env' (List.mem_of_getElem? henv)

/-- Nodes act on their own with actions that keep the sessions. -/
def KeepsSessions (s : Network) (move : Move) : Prop :=
  ∀ node now action, move = .act node now action → action.KeepsSessions (s.bus node).state

theorem Established.step (h : s.Established mesh) (hregular : s.Regular) (hdirect : fabric.Direct) {move : Move}
    (hreliable : move.isReliable = true) (hkeeps : s.KeepsSessions move) :
    (s.step fabric move).Established mesh := by
  cases move with
  | act node now action =>
    have hupdate : action.isUpdate = false := by simpa [Move.isReliable, Move.isLocal] using hreliable
    exact h.dispatch hdirect (hregular.slotInput_act fabric node hupdate) (hkeeps node now action rfl) now
  | deliver i now =>
    simp only [Network.step]
    cases henv : s.inFlight[i]? with
    | none => exact h
    | some env =>
      have hinput := hregular.slotInput_deliver fabric (List.mem_of_getElem? henv)
      exact (h.take henv).dispatch hdirect hinput trivial now
  | keepaliveSent node peer now =>
    refine ⟨fun other => ?_, h.receivedLinks, h.inFlightLinks⟩
    rw [Network.step, keepaliveSent_routes]
    exact h.sessions other
  | duplicate i => cases hreliable
  | drop i => cases hreliable

theorem reachable_established {alloc : String → Option PortAllocator} {Allowed : Network → Move → Prop}
    (hdirect : fabric.Direct) (hreliable : ∀ s move, Allowed s move → move.isReliable = true)
    (hkeeps : ∀ s move, Allowed s move → s.KeepsSessions move)
    (h : Reachable fabric (initial alloc mesh.peers) Allowed s) : s.Regular ∧ s.Established mesh := by
  have hlocal : ∀ s move, Allowed s move → move.isLocal = true :=
    fun s move hallowed => Move.isLocal_of_isReliable (hreliable s move hallowed)
  induction h with
  | start => exact ⟨initial_regular alloc mesh.peers, initial_established mesh alloc⟩
  | step _ move hallowed ih =>
    exact ⟨ih.1.step (hlocal _ _ hallowed),
      ih.2.step ih.1 hdirect (hreliable _ _ hallowed) (hkeeps _ _ hallowed)⟩

/-- An item on a link runs along an edge. -/
theorem Established.adj_of_mem_log (h : s.Established mesh) {k : String × String} {a z : String}
    {item : Item String} (hmem : item ∈ (s.abstract k).log a z) : mesh.graph.Adj a z := by
  obtain hmem | hmem := List.mem_append.mp hmem
  · obtain ⟨env, henv, rfl, rfl⟩ := exists_of_mem_itemsOn hmem
    exact h.receivedLinks env henv
  · obtain ⟨env, henv, rfl, rfl⟩ := exists_of_mem_itemsOn hmem
    exact h.inFlightLinks env henv

end Network

end CatalystRouter
