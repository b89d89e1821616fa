import CatalystRouter.DataPlane.Forwarding
import CatalystRouter.Network.Attributes

namespace CatalystRouter

open PathVector (Floods Route)

namespace Network

variable {mesh : Mesh} {fabric : Fabric} {s : Network}

/-- A mesh that has settled has installed, at every node that is connected to the creator of a
    channel, a route as long as the distance. -/
theorem quiet_shortest (hdirect : fabric.Direct) (hpolicy : ∀ node, (fabric.config node).routePolicy = none)
    {alloc : String → Option PortAllocator} {Allowed : Network → Move → Prop}
    (hgrowing : ∀ s move, Allowed s move → s.Growing move) (h : Reachable fabric (initial alloc mesh.peers) Allowed s)
    (hquiet : s.inFlight = []) {origin name : String}
    (hcreated : ∃ route ∈ (s.bus origin).state.localRoutes, route.name = name) {node : String} (hnode : node ≠ origin)
    (hconnected : mesh.graph.Reachable node origin) :
    ∃ r ∈ (s.bus node).state.internalRoutes, r.key = (name, origin) ∧
      r.nodePath.length = mesh.graph.dist node origin ∧ mesh.graph.Adj node r.peer.name ∧
      Route mesh.graph origin r.peer.name r.nodePath := by
  have hreliable : ∀ s move, Allowed s move → move.isReliable = true := fun s move hmove => (hgrowing s move hmove).reliable
  have hkeeps : ∀ s move, Allowed s move → s.KeepsSessions move := fun s move hmove => (hgrowing s move hmove).keeps
  have hrun : PathVector.Run origin (Floods mesh.graph origin) (s.abstract (name, origin)) := by
    refine reachable_run (k := (name, origin)) hdirect (initial_regular alloc mesh.peers) rfl hreliable ?_ ?_ h
    · intro s node now action l hs hrun hmove hlabel
      have hestablished := (reachable_established hdirect hreliable hkeeps hs).2
      have hfresh := (PathVector.Run.flooded hrun).1.fresh node
      exact actLabel_floods hestablished hfresh (hgrowing s _ hmove) hlabel
    · intro s i now env l hs _ _ henv hlabel
      exact deliverLabel_floods hpolicy (reachable_established hdirect hreliable hkeeps hs).2 henv hlabel
  have hannounced : (s.abstract (name, origin)).announced = true := Rib.hasLocal_eq_true_iff.mpr hcreated
  obtain ⟨e, hentry, hlength, hadj, hroute⟩ :=
    PathVector.Run.shortest hrun (quiet_abstract hquiet _) hannounced hnode hconnected
  obtain ⟨r, hr, hkey, rfl⟩ := exists_of_entryAt hentry
  exact ⟨r, hr, hkey, hlength, hadj, hroute⟩

end Network

namespace DataPlane

variable {mesh : Mesh} {fabric : Fabric} {runtime : XdsRuntime} {s : DataPlane}

/-- In a settled mesh the tables lead to a channel along a shortest path. -/
theorem exists_leads (hdirect : fabric.Direct) (hpolicy : ∀ node, (fabric.config node).routePolicy = none)
    {alloc : String → Option PortAllocator} {Allowed : Network → Move → Prop}
    (hgrowing : ∀ s move, Allowed s move → s.Growing move)
    (h : Network.Reachable fabric (Network.initial alloc mesh.peers) Allowed s.net) (hquiet : s.net.inFlight = [])
    {origin : String} {channel : DataChannelDefinition} (hchannel : channel ∈ (s.net.bus origin).state.localRoutes) :
    ∀ distance node, mesh.graph.dist node origin = distance → mesh.graph.Reachable node origin →
      ∃ path : List String, path.length = distance ∧ (node :: path).IsChain mesh.graph.Adj ∧
        Leads s (channel.name, origin) node path channel := by
  have hself (node : String) (hnode : node = origin) :
      ∃ path : List String, path.length = 0 ∧ (node :: path).IsChain mesh.graph.Adj ∧
        Leads s (channel.name, origin) node path channel :=
    ⟨[], rfl, List.isChain_singleton _, .origin node channel (hnode ▸ hchannel) (by rw [hnode])⟩
  intro distance
  induction distance with
  | zero =>
    intro node hdist hconnected
    exact hself node (hconnected.dist_eq_zero_iff.mp hdist)
  | succ distance ih =>
    intro node hdist hconnected
    have hnode : node ≠ origin := by
      rintro rfl
      rw [SimpleGraph.dist_self] at hdist
      cases hdist
    obtain ⟨r, hr, hkey, hlength, hadj, hroute⟩ :=
      Network.quiet_shortest hdirect hpolicy hgrowing h hquiet ⟨channel, hchannel, rfl⟩ hnode hconnected
    obtain ⟨hnext, hcloser⟩ := hroute.dist_add_one hadj hlength
    obtain ⟨path, hpath, hedges, hleads⟩ := ih r.peer.name (by omega) hnext
    exact ⟨r.peer.name :: path, by rw [List.length_cons, hpath], List.isChain_cons_cons.mpr ⟨hadj, hedges⟩,
      .learned node r hr hkey hleads⟩

/-- End to end: on a fixed mesh without policies, closes, expiries or deletions, however
    deliveries are ordered, once no message is in flight there is a shortest path from every node
    to the channel of every node that it is connected to, along which the Envoys carry a
    connection exactly if all nodes on it have allocated the same port for it. -/
theorem mesh_carries (hdirect : fabric.Direct) (hpolicy : ∀ node, (fabric.config node).routePolicy = none)
    (henvoy : ∀ node, (fabric.config node).envoyClient = true) {alloc : String → Option PortAllocator}
    (halloc : ∀ node, alloc node ≠ none)
    (h : Reachable fabric runtime (initial alloc mesh.peers)
      (fun net move => net.Growing move ∧ ∀ node, ServedAt fabric runtime node net move) s)
    (hquiet : s.net.inFlight = []) {origin : String} {channel : DataChannelDefinition}
    (hchannel : channel ∈ (s.net.bus origin).state.localRoutes) {node : String}
    (hconnected : mesh.graph.Reachable node origin) :
    ∃ path : List String, path.length = mesh.graph.dist node origin ∧ (node :: path).IsChain mesh.graph.Adj ∧
      Leads s (channel.name, origin) node path channel ∧
      ∀ port target, Carries fabric s channel.name node path port target ↔
        Passable fabric runtime s channel.name node path channel port target := by
  have hgrowing : ∀ net move, (net.Growing move ∧ ∀ node, ServedAt fabric runtime node net move) → net.Growing move :=
    fun _ _ hallowed => hallowed.1
  obtain ⟨path, hlength, hedges, hleads⟩ :=
    exists_leads hdirect hpolicy hgrowing h.net hquiet hchannel _ node rfl hconnected
  have hpresented := Network.reachable_presented
    (fun net move hallowed => Move.isLocal_of_isReliable (hgrowing net move hallowed).reliable) h.net
  have hprovisioned (other : String) : Provisioned runtime (s.net.bus other) (s.envoy other) :=
    reachable_provisioned (halloc other) (henvoy other) (fun _ _ hallowed => hallowed.2 other) h
  exact ⟨path, hlength, hedges, hleads, fun port target =>
    hleads.carries_iff_passable hpresented fun other _ => hprovisioned other⟩

theorem mesh_carries_line : ∃ path : List String, path.length = line.graph.dist "node-a" "node-c" ∧
    ∃ channel ∈ ((fullLine.run sidecars booksRuntime booksFromC).net.bus "node-c").state.localRoutes,
      ∀ port target, Carries sidecars (fullLine.run sidecars booksRuntime booksFromC) channel.name "node-a" path port
        target ↔ Passable sidecars booksRuntime (fullLine.run sidecars booksRuntime booksFromC) channel.name "node-a"
          path channel port target := by
  have hcreate (s : Network) : s.Growing (.act "node-c" 1
      (.localRouteCreate { name := "books", protocol := .http, endpoint := some "http://books:5001" })) :=
    Network.growing_of_advertises s rfl
  have hserved (net : Network) (move : Move)
      (hpushes : ∀ pushed ∈ pushes sidecars net move, EnvoyRpcServer.Serves booksRuntime pushed) :
      ∀ node, ServedAt sidecars booksRuntime node net move := fun _ _ => hpushes
  have hrun : Reachable sidecars booksRuntime fullLine (fun net move => net.Growing move ∧
      ∀ node, ServedAt sidecars booksRuntime node net move) (fullLine.run sidecars booksRuntime booksFromC) :=
    Reachable.start.run booksFromC ⟨⟨hcreate _, hserved _ _ (by decide +kernel)⟩,
      ⟨Network.growing_of_advertises _ rfl, hserved _ _ (by decide +kernel)⟩,
      ⟨Network.growing_of_advertises _ rfl, hserved _ _ (by decide +kernel)⟩, trivial⟩
  have hconnected : line.graph.Reachable "node-a" "node-c" := by
    have hab : line.graph.Adj "node-a" "node-b" := by
      show _ ∈ CatalystRouter.neighbours _ _
      decide
    have hbc : line.graph.Adj "node-b" "node-c" := by
      show _ ∈ CatalystRouter.neighbours _ _
      decide
    exact hab.reachable.trans hbc.reachable
  obtain ⟨channel, hchannel⟩ : ∃ channel, channel ∈
      ((fullLine.run sidecars booksRuntime booksFromC).net.bus "node-c").state.localRoutes :=
    ⟨_, List.mem_of_getElem? (i := 0) rfl⟩
  obtain ⟨path, hlength, -, -, hcarries⟩ := mesh_carries (fun _ => rfl) (fun _ => rfl) (fun _ => rfl) (by simp) hrun
    (by decide +kernel) hchannel hconnected
  exact ⟨path, hlength, channel, hchannel, hcarries⟩

end DataPlane

end CatalystRouter
