import CatalystRouter.Network.Model
import CatalystRouter.Orchestrator.PathSound

namespace CatalystRouter

namespace Network

/-- Sound routes everywhere, and sound entries from the claimed sender on every
    wire. -/
structure Sound (s : Network) : Prop where
  routes : ∀ node, ∀ r ∈ (s.bus node).state.internalRoutes, PathSound node r
  senders : ∀ env ∈ s.inFlight, env.peerInfo.name = env.sender
  entries : ∀ env ∈ s.inFlight, ∀ item ∈ env.updates, EntrySound env.sender item

theorem initial_sound (alloc : String → Option PortAllocator) (peers : String → List PeerRecord) :
    Sound (initial alloc peers) where
  routes _ r hr := by cases hr
  senders env henv := by cases henv
  entries env henv := by cases henv

/-- One queue slot anywhere keeps the network sound. -/
theorem dispatch_sound {fabric : Fabric} {s : Network} (h : s.Sound) {node : String} {action : Action}
    (hin : Bus.IncomingSound action) (now : Int) : (s.dispatch fabric node now action).Sound := by
  have hname := fabric.config_name node
  have hroutes : ∀ r ∈ (s.bus node).state.internalRoutes, PathSound (fabric.config node).node.name r := by
    rw [hname]
    exact h.routes node
  have hslot := Bus.dispatch_pathSound now hin hroutes
  rw [hname] at hslot
  constructor
  · intro other r hr
    by_cases hother : other = node
    · subst hother
      rw [dispatch_bus_self] at hr
      exact hslot.1 r hr
    · rw [dispatch_bus_of_ne fabric s hother] at hr
      exact h.routes other r hr
  · intro env henv
    obtain henv | henv := List.mem_append.mp henv
    · exact h.senders env henv
    · obtain ⟨message, -, rfl⟩ := List.mem_map.mp henv
      exact hname
  · intro env henv item hitem
    obtain henv | henv := List.mem_append.mp henv
    · exact h.entries env henv item hitem
    · obtain ⟨message, hmessage, rfl⟩ := List.mem_map.mp henv
      exact hslot.2 message hmessage item hitem

/-- Keeping the buses and some of the messages keeps the network sound. -/
theorem sound_of_subset {s s' : Network} (h : s.Sound)
    (hroutes : ∀ node, (s'.bus node).state.internalRoutes = (s.bus node).state.internalRoutes)
    (hsubset : ∀ env ∈ s'.inFlight, env ∈ s.inFlight) : s'.Sound :=
  ⟨fun node r hr => h.routes node r (hroutes node ▸ hr), fun env henv => h.senders env (hsubset env henv),
    fun env henv => h.entries env (hsubset env henv)⟩

theorem keepaliveSent_routes (s : Network) (node peer other : String) (now : Int) :
    (Function.update s.bus node (Bus.keepaliveSent (s.bus node) peer now) other).state =
      (s.bus other).state := by
  by_cases hother : other = node
  · subst hother
    simp [Bus.keepaliveSent]
  · simp [hother]

/-- A property of the internal routes and of each message in flight is kept by a
    move, if the slots of its node keep it. -/
theorem step_preserves {fabric : Fabric} {s : Network} {I : Network → Prop}
    (hsubset : ∀ {s s' : Network}, I s →
      (∀ node, (s'.bus node).state.internalRoutes = (s.bus node).state.internalRoutes) →
      (∀ env ∈ s'.inFlight, env ∈ s.inFlight) → I s')
    (hact : ∀ node now action, action.isUpdate = false → I (s.dispatch fabric node now action))
    (hdeliver : ∀ env ∈ s.inFlight, ∀ s' now, I s' →
      I (s'.dispatch fabric env.receiver now (.internalProtocolUpdate env.peerInfo env.updates)))
    (h : I s) {move : Move} (hlocal : move.isLocal = true) : I (s.step fabric move) := by
  cases move with
  | act node now action =>
    apply hact
    simpa [Move.isLocal] using hlocal
  | deliver i now =>
    simp only [step]
    cases henv : s.inFlight[i]? with
    | none => exact h
    | some env =>
      apply hdeliver env (List.mem_of_getElem? henv)
      exact hsubset h (fun _ => rfl) fun env' henv' => (List.eraseIdx_sublist _ _).subset henv'
  | keepaliveSent node peer now =>
    exact hsubset h (fun other => by rw [step, keepaliveSent_routes]) fun env henv => henv
  | duplicate i =>
    refine hsubset h (fun _ => rfl) fun env henv => ?_
    obtain henv | henv := List.mem_append.mp henv
    · exact henv
    · exact List.mem_of_getElem? (by simpa using henv)
  | drop i => exact hsubset h (fun _ => rfl) fun env henv => (List.eraseIdx_sublist _ _).subset henv

theorem step_sound {fabric : Fabric} {s : Network} (h : s.Sound) {move : Move}
    (hlocal : move.isLocal = true) : (s.step fabric move).Sound := by
  refine step_preserves sound_of_subset (fun node now action hupdate => ?_) (fun env henv s' now hs' => ?_) h hlocal
  · refine dispatch_sound h (fun peerInfo updates haction => ?_) now
    rw [haction] at hupdate
    cases hupdate
  · refine dispatch_sound hs' (fun peerInfo updates haction => ?_) now
    cases haction
    rw [h.senders env henv]
    exact h.entries env henv

theorem reachable_sound {fabric : Fabric} {start : Network} {Allowed : Network → Move → Prop}
    (hstart : start.Sound) (hlocal : ∀ s move, Allowed s move → move.isLocal = true) {s : Network}
    (h : Reachable fabric start Allowed s) : s.Sound := by
  induction h with
  | start => exact hstart
  | step _ move hallowed ih => exact step_sound ih (hlocal _ _ hallowed)

/-- The path-vector invariant: under any order, delay, loss and duplication of
    deliveries, every installed path is duplicate-free, avoids its own node and
    leads from the peer it was learned from to its origin, and every advertised
    path leads from its sender to its origin. -/
theorem reachable_pathVector {fabric : Fabric} {alloc : String → Option PortAllocator}
    {peers : String → List PeerRecord} {s : Network}
    (h : Reachable fabric (initial alloc peers) (fun _ move => move.isLocal = true) s) :
    (∀ node, ∀ r ∈ (s.bus node).state.internalRoutes,
      r.nodePath ≠ [] ∧ r.nodePath.Nodup ∧ node ∉ r.nodePath ∧ r.nodePath.head? = some r.peer.name ∧
        r.nodePath.getLast? = some r.originNode ∧ r.originNode ≠ node) ∧
    ∀ env ∈ s.inFlight, ∀ item ∈ env.updates, item.action = .add →
      item.nodePath.Nodup ∧ item.nodePath.head? = some env.sender ∧
        item.nodePath.getLast? = some item.originNode := by
  have hsound := reachable_sound (initial_sound alloc peers) (fun _ _ hallowed => hallowed) h
  constructor
  · intro node r hr
    have hpath := hsound.routes node r hr
    exact ⟨hpath.nonempty, hpath.nodup, hpath.loopFree, hpath.firstHop, hpath.lastHop, hpath.originNode_ne⟩
  · intro env henv item hitem _
    have hentry := hsound.entries env henv item hitem
    exact ⟨hentry.nodup, hentry.firstHop, hentry.lastHop⟩

/-- Two nodes: `node-a` opens a session to `node-b`, creates `books`, and its
    advertisement arrives twice. -/
def booksExchange : List Move :=
  [.act "node-a" 1 (.localPeerCreate { name := "node-b", peerToken := some "jwt" }),
    .act "node-a" 2 (.internalProtocolOpen { name := "node-b" } none),
    .act "node-a" 3 (.localRouteCreate { name := "books", protocol := .http }),
    .duplicate 0, .deliver 0 4, .deliver 0 5]

theorem reachable_pathVector_books :
    (((initial (fun _ => none) fun _ => []).run .plain booksExchange).bus "node-b").state.internalRoutes ≠ [] ∧
    ∀ r ∈ (((initial (fun _ => none) fun _ => []).run .plain booksExchange).bus "node-b").state.internalRoutes,
      r.nodePath.head? = some r.peer.name ∧ r.nodePath.getLast? = some r.originNode := by
  have hrun : Reachable .plain (initial (fun _ => none) fun _ => []) (fun _ move => move.isLocal = true)
      ((initial (fun _ => none) fun _ => []).run .plain booksExchange) :=
    Reachable.start.run booksExchange (by simp [booksExchange, EachMove, Move.isLocal, Action.isUpdate])
  refine ⟨by decide, fun r hr => ?_⟩
  obtain ⟨-, -, -, hfirst, hlast, -⟩ := (reachable_pathVector hrun).1 "node-b" r hr
  exact ⟨hfirst, hlast⟩

end Network

end CatalystRouter
