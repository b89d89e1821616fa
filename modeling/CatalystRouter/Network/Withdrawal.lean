import CatalystRouter.Library.PathVector.Withdrawal
import CatalystRouter.Network.Mesh

namespace CatalystRouter

open PathVector (Entry Item Label State receiveIf Withdraws)

/-- Local route creations and deletions, and deliveries. -/
def Move.churns : Move → Bool
  | .act _ _ (.localRouteCreate _) => true
  | .act _ _ (.localRouteDelete _) => true
  | .deliver _ _ => true
  | _ => false

namespace Network

def Churn (s : Network) (move : Move) : Prop := move.churns = true ∧ s.InOrder move

instance (s : Network) (move : Move) : Decidable (s.Churn move) :=
  inferInstanceAs (Decidable (move.churns = true ∧ s.InOrder move))

/-- When the delivery of a removal drops a route, neither the route's own peer
    nor a node on its path relies on the receiver for it. -/
def DropsReach (s : Network) : Move → Prop
  | .deliver i _ => ∀ env ∈ s.inFlight[i]?, ∀ item ∈ env.updates, item.action = .remove →
    ∀ r ∈ (s.bus env.receiver).state.internalRoutes, r.key = item.key →
    ∀ peer ∈ r.peer.name :: r.nodePath, s.relied item.key env.receiver peer = []
  | _ => True

instance (s : Network) (move : Move) : Decidable (s.DropsReach move) :=
  match move with
  | .deliver i _ => inferInstanceAs (Decidable (∀ env ∈ s.inFlight[i]?, ∀ item ∈ env.updates,
      item.action = .remove → ∀ r ∈ (s.bus env.receiver).state.internalRoutes, r.key = item.key →
      ∀ peer ∈ r.peer.name :: r.nodePath, s.relied item.key env.receiver peer = []))
  | .act _ _ _ | .keepaliveSent _ _ _ | .duplicate _ | .drop _ => isTrue trivial

/-- What is allowed of the protocol of each identity. -/
private def Forgets (o : String) (s : State String) (l : Label String) : Prop :=
  Withdraws o s l ∧ ∀ n stale rs, l = .refresh n stale rs → stale = false

variable {mesh : Mesh} {fabric : Fabric} {s : Network} {k : String × String}

theorem Churn.cases {move : Move} (h : s.Churn move) :
    (∃ node now data, move = .act node now (.localRouteCreate data)) ∨
      (∃ node now name, move = .act node now (.localRouteDelete name)) ∨
      ∃ i now, move = .deliver i now ∧ s.FirstOnLink i := by
  obtain ⟨hkind, horder⟩ := h
  unfold Move.churns at hkind
  split at hkind
  · exact .inl ⟨_, _, _, rfl⟩
  · exact .inr (.inl ⟨_, _, _, rfl⟩)
  · exact .inr (.inr ⟨_, _, rfl, horder⟩)
  · cases hkind

theorem Churn.isReliable {move : Move} (h : s.Churn move) : move.isReliable = true := by
  obtain ⟨_, _, _, rfl⟩ | ⟨_, _, _, rfl⟩ | ⟨_, _, rfl, -⟩ := h.cases
  all_goals rfl

theorem Churn.keepsSessions {move : Move} (h : s.Churn move) : s.KeepsSessions move := by
  intro node now action hmove
  obtain ⟨_, _, _, rfl⟩ | ⟨_, _, _, rfl⟩ | ⟨_, _, rfl, -⟩ := h.cases
  · cases hmove
    trivial
  · cases hmove
    trivial
  · cases hmove

theorem Churn.withdrawnPeers {node : String} {now : Int} {action : Action}
    (h : s.Churn (.act node now action)) (state : RouteTable) : Rib.withdrawnPeers state action = [] := by
  obtain ⟨_, _, _, hmove⟩ | ⟨_, _, _, hmove⟩ | ⟨_, _, hmove, -⟩ := h.cases
  · cases hmove
    rfl
  · cases hmove
    rfl
  · cases hmove

theorem Established.adj_of_relied (h : s.Established mesh) (hordered : PathVector.Ordered k.2 (s.abstract k))
    {node peer : String} (hrelied : (s.abstract k).relied node peer ≠ []) : mesh.graph.Adj node peer := by
  obtain ⟨path, hpath⟩ := List.exists_mem_of_ne_nil _ hrelied
  obtain ⟨item, hitem⟩ := List.exists_mem_of_ne_nil _ (hordered.log_ne_nil hpath)
  exact h.adj_of_mem_log hitem

theorem actLabel_forgets (hestablished : s.Established mesh) {node : String} {now : Int} {action : Action}
    {l : Label String} (hrun : PathVector.Run k.2 (Forgets k.2) (s.abstract k))
    (hchurn : s.Churn (.act node now action))
    (hlabel : ActLabel s k node action ((s.dispatch fabric node now action).bus node) l) :
    Forgets k.2 (s.abstract k) l := by
  have hordered := (PathVector.Run.standing (fun _ _ hl => hl.1) hrun).1
  have hfresh := PathVector.Run.fresh (fun _ _ hl => hl.2) hrun
  have hkeeps := hchurn.keepsSessions node now action rfl
  have hsessions : ((s.dispatch fabric node now action).bus node).state.sessions =
      (mesh.peers node).map fun p => (p.name, p.connectionStatus) := by
    rw [dispatch_bus_self, Bus.dispatch_sessions _ now hkeeps (allConnected_of_mesh (hestablished.sessions node)),
      hestablished.sessions]
  cases hlabel with
  | originate rs => exact ⟨trivial, fun _ _ _ h => by cases h⟩
  | retract rs hnode haction hpeers htold =>
    refine ⟨fun y hy => ?_, fun _ _ _ h => by cases h⟩
    have hadj := hestablished.adj_of_relied hordered hy
    rw [hnode] at hadj
    obtain ⟨peer, hpeer, rfl⟩ := (adj_iff_connectedPeer hsessions y).mp hadj
    exact htold peer hpeer
  | refresh stale rs e hbefore hkind =>
    refine ⟨trivial, fun _ _ _ h => ?_⟩
    cases h
    obtain rfl | ⟨peerInfo, rfl⟩ := hkind
    · exact hfresh node e hbefore
    · exact hkeeps.elim
  | drop rs e hbefore hwithdrawn =>
    rw [hchurn.withdrawnPeers] at hwithdrawn
    cases hwithdrawn

theorem deliverLabel_forgets (hpolicy : ∀ node, (fabric.config node).routePolicy = none)
    (hestablished : s.Established mesh) {i : Nat} {now : Int} {env : Envelope} {l : Label String}
    (hrun : PathVector.Run k.2 (Forgets k.2) (s.abstract k))
    (henv : s.inFlight[i]? = some env) (hfirst : s.FirstOnLink i) (hreach : s.DropsReach (.deliver i now))
    (hlabel : DeliverLabel fabric s k i env (((s.take i env).dispatch fabric env.receiver now
      (.internalProtocolUpdate env.peerInfo env.updates)).bus env.receiver) l) :
    Forgets k.2 (s.abstract k) l := by
  have hordered := (PathVector.Run.standing (fun _ _ hl => hl.1) hrun).1
  have hfresh := PathVector.Run.fresh (fun _ _ hl => hl.2) hrun
  have hkeeps : Action.KeepsSessions (s.bus env.receiver).state
      (.internalProtocolUpdate env.peerInfo env.updates) := trivial
  have hsessions : (((s.take i env).dispatch fabric env.receiver now
      (.internalProtocolUpdate env.peerInfo env.updates)).bus env.receiver).state.sessions =
        (mesh.peers env.receiver).map fun p => (p.name, p.connectionStatus) := by
    rw [dispatch_bus_self, take_bus, Bus.dispatch_sessions _ now hkeeps
      (allConnected_of_mesh (hestablished.sessions env.receiver)), hestablished.sessions]
  have hahead := hfirst.itemsAhead henv k
  cases hlabel with
  | mk accepted rs item hitem haccepted hafter hpeers htold =>
    rw [hahead]
    have hpass : accepted = true := by
      rw [haccepted]
      simp [Bus.inboundPasses, hpolicy env.receiver]
    subst hpass
    refine ⟨⟨rfl, rfl, fun item' hitem' => ?_⟩, fun _ _ _ h => by cases h⟩
    have hqueue := getElem?_queue henv hitem
    rw [hahead, hitem'] at hqueue
    obtain rfl := Option.some.inj hqueue
    have hitemMem : item ∈ env.updates := List.mem_of_find?_eq_some hitem
    refine ⟨fun e e' hold hnew => ?_, fun hsome hgone y hy => ?_⟩
    · -- a fresh route only gives way to a shorter one
      obtain rfl | ⟨path, -, rfl, hshorter | hstale⟩ := PathVector.receiveIf_replaces hnew
      · exact le_rfl
      · exact hshorter.le
      · rw [hfresh env.receiver e hold] at hstale
        cases hstale
    · obtain ⟨e, hview⟩ := Option.ne_none_iff_exists'.mp hsome
      rw [hview] at hgone
      obtain ⟨-, hremove⟩ := PathVector.receiveIf_empties hgone
      have haction := UpdateItem.payload_eq_remove_iff.mp hremove
      obtain ⟨r, hr, hkey, rfl⟩ := exists_of_entryAt hview
      have hitemKey : item.key = k := Rib.itemAt_key hitem
      have hexport : r.entry.Exportable y := by
        have hnone := hreach env henv item hitemMem haction r hr (hkey.trans hitemKey.symm)
        rw [hitemKey] at hnone
        refine ⟨fun hpeer => hy (hnone y (hpeer ▸ List.mem_cons_self)), fun hpath => hy ?_⟩
        exact hnone y (List.mem_cons_of_mem _ hpath)
      obtain ⟨peer, hpeer, rfl⟩ := (adj_iff_connectedPeer hsessions y).mp (hestablished.adj_of_relied hordered hy)
      have hlost : (((s.take i env).dispatch fabric env.receiver now
          (.internalProtocolUpdate env.peerInfo env.updates)).bus env.receiver).state.entryAt k = none := by
        rw [hafter]
        exact (congrArg (fun old => receiveIf true env.receiver env.sender old item.payload) hview).trans hgone
      have hbefore : (s.bus env.receiver).state.entryAt k = some r.entry := hview
      refine htold (fun hsame => ?_) r.entry ?_ (.inl hlost) peer hpeer hexport
      · rw [hlost, hbefore] at hsame
        cases hsame
      · rw [hlost, hbefore]
        rfl

/-- Withdrawals complete. On a fixed mesh without policies, where every drop
    reaches the holders of the node's advertisement: once no message is in
    flight, every internal route is one that its origin still has. -/
theorem churn_withdrawn (hdirect : fabric.Direct) (hpolicy : ∀ node, (fabric.config node).routePolicy = none)
    {alloc : String → Option PortAllocator}
    (h : Reachable fabric (initial alloc mesh.peers) (fun s move => s.Churn move ∧ s.DropsReach move) s)
    (hquiet : s.inFlight = []) :
    ∀ node, ∀ r ∈ (s.bus node).state.internalRoutes,
      ∃ route ∈ (s.bus r.originNode).state.localRoutes, route.name = r.name := by
  intro node r hr
  have hreliable : ∀ s move, Churn s move ∧ DropsReach s move → move.isReliable = true :=
    fun s move hallowed => hallowed.1.isReliable
  have hkeeps : ∀ s move, Churn s move ∧ DropsReach s move → s.KeepsSessions move :=
    fun s move hallowed => hallowed.1.keepsSessions
  have hregular := (reachable_established hdirect hreliable hkeeps h).1
  have hrun : PathVector.Run r.originNode (Forgets r.originNode) (s.abstract r.key) := by
    refine reachable_run (k := r.key) hdirect (initial_regular alloc mesh.peers) rfl hreliable ?_ ?_ h
    · intro s node now action l hs hrun hallowed hlabel
      have hestablished := (reachable_established hdirect hreliable hkeeps hs).2
      exact actLabel_forgets hestablished hrun hallowed.1 hlabel
    · intro s i now env l hs hrun hallowed henv hlabel
      have hestablished := (reachable_established hdirect hreliable hkeeps hs).2
      exact deliverLabel_forgets hpolicy hestablished hrun henv hallowed.1.2 hallowed.2 hlabel
  have hview : (s.abstract r.key).view node = some r.entry := entryAt_of_mem hregular hr
  have hannounced := PathVector.Run.announced (fun _ _ hl => hl.1) hrun (quiet_abstract hquiet _) hview
  exact Rib.hasLocal_eq_true_iff.mp hannounced

/-- `node-a` creates `books`, and later deletes it, on a line of three nodes. -/
def booksComeAndGo : List Move :=
  [.act "node-a" 1 (.localRouteCreate { name := "books", protocol := .http }), .deliver 0 2, .deliver 0 3,
    .act "node-a" 4 (.localRouteCreate { name := "news", protocol := .http }), .deliver 0 5, .deliver 0 6,
    .act "node-a" 7 (.localRouteDelete "books"), .deliver 0 8, .deliver 0 9]

theorem churn_withdrawn_line :
    (((initial (fun _ => none) line.peers).run .plain booksComeAndGo).bus "node-c").state.internalRoutes ≠ [] ∧
    ∀ r ∈ (((initial (fun _ => none) line.peers).run .plain booksComeAndGo).bus "node-c").state.internalRoutes,
      ∃ route ∈ (((initial (fun _ => none) line.peers).run .plain booksComeAndGo).bus
        r.originNode).state.localRoutes, route.name = r.name := by
  have hrun : Reachable .plain (initial (fun _ => none) line.peers) (fun s move => s.Churn move ∧ s.DropsReach move)
      ((initial (fun _ => none) line.peers).run .plain booksComeAndGo) :=
    Reachable.start.run booksComeAndGo (by decide +kernel)
  have hwithdrawn := churn_withdrawn (fun _ => rfl) (fun _ => rfl) hrun (by decide +kernel)
  exact ⟨by decide +kernel, hwithdrawn "node-c"⟩

def ring : Mesh := .ofLinks [("node-o", "node-x"), ("node-x", "node-y"), ("node-y", "node-v"), ("node-v", "node-a"),
  ("node-a", "node-o")] (by decide)

/-- `node-y` switches from a path through `node-v`, which it advertised to
    `node-x`, to the shorter one through `node-x`. When the removal reaches it
    there, it tells `node-x` nothing, and the late advertisement stays. -/
def booksAroundRing : List Move :=
  [.act "node-o" 1 (.localRouteCreate { name := "books", protocol := .http }),
    .deliver 1 2, .deliver 1 3, .deliver 1 4, .deliver 0 5, .deliver 1 6,
    .act "node-o" 7 (.localRouteDelete "books"),
    .deliver 2 8, .deliver 0 9, .deliver 0 10, .deliver 0 11, .deliver 0 12, .deliver 0 13, .deliver 0 14,
    .deliver 0 15]

/-- The ring ends up quiet with a route whose origin has dropped it. -/
theorem churn_leaves_zombie :
    ¬ ∀ (mesh : Mesh) (s : Network), Reachable .plain (initial (fun _ => none) mesh.peers) Churn s → s.inFlight = [] →
      ∀ node, ∀ r ∈ (s.bus node).state.internalRoutes,
        ∃ route ∈ (s.bus r.originNode).state.localRoutes, route.name = r.name := by
  intro hclaim
  have hrun : Reachable .plain (initial (fun _ => none) ring.peers) Churn
      ((initial (fun _ => none) ring.peers).run .plain booksAroundRing) :=
    Reachable.start.run booksAroundRing (by decide +kernel)
  have hnone := hclaim ring _ hrun (by decide +kernel) "node-x"
  revert hnone
  decide +kernel

end Network

end CatalystRouter
