import CatalystRouter.Library.PathVector.Flood
import CatalystRouter.Network.Mesh
import CatalystRouter.Orchestrator.Attributes

namespace CatalystRouter

open PathVector (Entry Item Label State Floods)

namespace Network

/-- Moves without duplication or loss, closes, expiries or route deletions. -/
structure Growing (s : Network) (move : Move) : Prop where
  reliable : move.isReliable = true
  keeps : s.KeepsSessions move
  noDelete : ∀ node now name, move ≠ .act node now (.localRouteDelete name)

variable {mesh : Mesh} {fabric : Fabric} {s : Network} {k : String × String}

theorem actLabel_floods (hestablished : s.Established mesh) {node : String} {now : Int} {action : Action}
    {l : Label String} (hfresh : ∀ e, (s.bus node).state.entryAt k = some e → e.stale = false)
    (hgrowing : s.Growing (.act node now action))
    (hlabel : ActLabel s k node action ((s.dispatch fabric node now action).bus node) l) :
    Floods mesh.graph k.2 (s.abstract k) l := by
  have hkeeps := hgrowing.keeps node now action rfl
  have hsessions : ((s.dispatch fabric node now action).bus node).state.sessions =
      (mesh.peers node).map fun p => (p.name, p.connectionStatus) := by
    rw [dispatch_bus_self, Bus.dispatch_sessions _ now hkeeps (allConnected_of_mesh (hestablished.sessions node)),
      hestablished.sessions]
  have hadj := adj_iff_connectedPeer hsessions
  cases hlabel with
  | originate rs hnode hpeers htold =>
    subst hnode
    refine ⟨fun r hr => (hadj _).mpr (hpeers r hr), fun hannounced y hy => ?_⟩
    obtain ⟨peer, hpeer, rfl⟩ := (hadj _).mp hy
    exact htold hannounced peer hpeer
  | retract rs hnode haction => exact absurd rfl (haction ▸ hgrowing.noDelete node now k.1)
  | refresh stale rs e hbefore hkind hpeers =>
    refine ⟨?_, fun r hr => (hadj _).mpr (hpeers r hr)⟩
    obtain rfl | ⟨peerInfo, rfl⟩ := hkind
    · exact hfresh e hbefore
    · exact hkeeps.elim
  | drop rs e hbefore hwithdrawn =>
    rw [Rib.withdrawnPeers_of_keeps hkeeps] at hwithdrawn
    cases hwithdrawn

theorem inboundPasses_of_no_policy {config : BusConfig} (h : config.routePolicy = none) (state : RouteTable)
    (peerInfo : PeerInfo) (updates : List UpdateItem) (name : String) :
    Bus.inboundPasses config state peerInfo updates name = true := by
  simp [Bus.inboundPasses, h]

theorem deliverLabel_floods (hpolicy : ∀ node, (fabric.config node).routePolicy = none)
    (hestablished : s.Established mesh) {i : Nat} {now : Int} {env : Envelope} {l : Label String}
    (henv : s.inFlight[i]? = some env)
    (hlabel : DeliverLabel fabric s k i env (((s.take i env).dispatch fabric env.receiver now
      (.internalProtocolUpdate env.peerInfo env.updates)).bus env.receiver) l) :
    Floods mesh.graph k.2 (s.abstract k) l := by
  have hsessions : (((s.take i env).dispatch fabric env.receiver now
      (.internalProtocolUpdate env.peerInfo env.updates)).bus env.receiver).state.sessions =
        (mesh.peers env.receiver).map fun p => (p.name, p.connectionStatus) := by
    have hkeeps : Action.KeepsSessions (s.bus env.receiver).state
        (.internalProtocolUpdate env.peerInfo env.updates) := trivial
    rw [dispatch_bus_self, take_bus, Bus.dispatch_sessions _ now hkeeps
      (allConnected_of_mesh (hestablished.sessions env.receiver)), hestablished.sessions]
  have hadj := adj_iff_connectedPeer hsessions
  cases hlabel with
  | mk accepted rs item hitem haccepted hafter hpeers htold =>
    rw [inboundPasses_of_no_policy (hpolicy env.receiver)] at haccepted
    subst haccepted
    refine ⟨rfl, fun r hr => (hadj _).mpr (hpeers r hr), fun item' hitem' e hnew hold y hy hexport => ?_⟩
    rw [getElem?_queue henv hitem] at hitem'
    obtain rfl := Option.some.inj hitem'
    have hnew' : (((s.take i env).dispatch fabric env.receiver now
        (.internalProtocolUpdate env.peerInfo env.updates)).bus env.receiver).state.entryAt k = some e :=
      hafter.trans hnew
    obtain ⟨peer, hpeer, rfl⟩ := (hadj _).mp hy
    refine htold (fun hsame => hold (hsame.symm.trans hnew')) e (by rw [hnew']; rfl)
      (.inr (hpolicy env.receiver)) peer hpeer hexport

/-- Shortest-path convergence. On a fixed mesh without policies, closes,
    expiries or deletions, however deliveries are ordered: once no message is in
    flight, a node connected to the creator of a route holds exactly one
    internal route for it, along a shortest path, and the creator holds none. -/
theorem mesh_converges (hdirect : fabric.Direct) (hpolicy : ∀ node, (fabric.config node).routePolicy = none)
    {alloc : String → Option PortAllocator}
    (h : Reachable fabric (initial alloc mesh.peers) (fun s move => s.Growing move) s)
    (hquiet : s.inFlight = []) {origin name : String}
    (hcreated : ∃ route ∈ (s.bus origin).state.localRoutes, route.name = name) :
    (∀ node, node ≠ origin → mesh.graph.Reachable node origin →
      ∃ r, (s.bus node).state.internalRoutes.filter (fun r => r.key == (name, origin)) = [r] ∧
        r.nodePath.length = mesh.graph.dist node origin ∧ mesh.graph.Adj node r.peer.name ∧
        r.nodePath.head? = some r.peer.name ∧ r.nodePath.getLast? = some origin ∧
        r.nodePath.IsChain mesh.graph.Adj) ∧
    ∀ r ∈ (s.bus origin).state.internalRoutes, r.key ≠ (name, origin) := by
  have hreliable : ∀ s move, Growing s move → move.isReliable = true := fun s move hgrow => hgrow.reliable
  have hkeeps : ∀ s move, Growing s move → s.KeepsSessions move := fun s move hgrow => hgrow.keeps
  obtain ⟨hregular, -⟩ := reachable_established hdirect hreliable hkeeps h
  have hrun : PathVector.Run origin (Floods mesh.graph origin) (s.abstract (name, origin)) := by
    refine reachable_run (k := (name, origin)) hdirect (initial_regular alloc mesh.peers) rfl hreliable ?_ ?_ h
    · intro s node now action l hs hrun hgrow hlabel
      have hestablished := (reachable_established hdirect hreliable hkeeps hs).2
      exact actLabel_floods hestablished (fun e he => (PathVector.Run.flooded hrun).1.fresh node e he) hgrow hlabel
    · intro s i now env l hs _ _ henv hlabel
      exact deliverLabel_floods hpolicy (reachable_established hdirect hreliable hkeeps hs).2 henv hlabel
  have hannounced : (s.abstract (name, origin)).announced = true := Rib.hasLocal_eq_true_iff.mpr hcreated
  constructor
  · intro node hnode hconnected
    obtain ⟨e, hentry, hlength, hadj, hroute⟩ :=
      PathVector.Run.shortest hrun (quiet_abstract hquiet _) hannounced hnode hconnected
    obtain ⟨r, hr, hkey, rfl⟩ := exists_of_entryAt hentry
    refine ⟨r, ?_, hlength, hadj, hroute.first, hroute.last, hroute.edges⟩
    have hnodup := (hregular.keyed node).internalKeys
    exact filter_eq_singleton_of_nodup hnodup hr hkey
  · intro r hr hkey
    have hsound := (hregular.sound.routes origin r hr).originNode_ne
    exact hsound (congrArg Prod.snd hkey)

/-- `node-a` creates `books`, and the advertisement travels down the line. -/
def booksAlongLine : List Move :=
  [.act "node-a" 1 (.localRouteCreate { name := "books", protocol := .http }), .deliver 0 2, .deliver 0 3]

theorem mesh_converges_line :
    ∃ r, (((initial (fun _ => none) line.peers).run .plain booksAlongLine).bus "node-c").state.internalRoutes.filter
      (fun r => r.key == ("books", "node-a")) = [r] ∧ r.nodePath.length = line.graph.dist "node-c" "node-a" := by
  have hcreate (s : Network) : s.Growing
      (.act "node-a" 1 (.localRouteCreate { name := "books", protocol := .http })) := by
    refine ⟨rfl, fun _ _ _ h => ?_, fun _ _ _ h => ?_⟩
    · cases h
      trivial
    · cases h
  have hdeliver (s : Network) (now : Int) : s.Growing (.deliver 0 now) := by
    refine ⟨rfl, fun _ _ _ h => ?_, fun _ _ _ h => ?_⟩
    · cases h
    · cases h
  have hrun : Reachable .plain (initial (fun _ => none) line.peers) (fun s move => s.Growing move)
      ((initial (fun _ => none) line.peers).run .plain booksAlongLine) :=
    Reachable.start.run booksAlongLine ⟨hcreate _, hdeliver _ _, hdeliver _ _, trivial⟩
  have hconnected : line.graph.Reachable "node-c" "node-a" := by
    have hcb : line.graph.Adj "node-c" "node-b" := by
      show _ ∈ neighbours _ _
      decide
    have hba : line.graph.Adj "node-b" "node-a" := by
      show _ ∈ neighbours _ _
      decide
    exact hcb.reachable.trans hba.reachable
  have hcreated : ∃ route ∈ (((initial (fun _ => none) line.peers).run .plain booksAlongLine).bus
      "node-a").state.localRoutes, route.name = "books" := by decide
  obtain ⟨r, hr, hlength, -⟩ := (mesh_converges (fun _ => rfl) (fun _ => rfl) hrun (by decide) hcreated).1
    "node-c" (by decide) hconnected
  exact ⟨r, hr, hlength⟩

end Network

end CatalystRouter
