import CatalystRouter.DataPlane.HopAgreement
import CatalystRouter.Envoy.SnapshotShape
import CatalystRouter.Network.Mesh

namespace CatalystRouter

/-! ### What one Envoy does with a connection -/

/-- The listener of that name takes what comes in on `port` to the one endpoint of its cluster. -/
def XdsSnapshot.Relays (snapshot : XdsSnapshot) (name : String) (port : Int) (target : String × Int) : Prop :=
  ∃ listener ∈ snapshot.listeners, listener.name = name ∧ listener.portValue = port ∧
    ∃ cluster ∈ snapshot.clusters, cluster.name = listener.filter.cluster ∧ cluster.endpoint = target

namespace Envoy

variable {runtime : XdsRuntime} {input : BuildXdsSnapshotInput} {snapshot : XdsSnapshot}

theorem localName_inj {name name' : String} (h : localName name = localName name') : name = name' :=
  (String.append_right_inj "local_").mp h

/-- The cluster of a local route ends at its endpoint. -/
theorem localResources_endpoint {route : DataChannelDefinition} {resource : XdsListener × XdsCluster}
    (h : localResources runtime input route = .ok (some resource)) :
    ∃ endpoint, nonEmpty route.endpoint = some endpoint ∧
      parseEndpointUrl runtime endpoint = .ok resource.2.endpoint := by
  unfold localResources at h
  split at h
  · rename_i endpoint allocatedPort hendpoint hport
    obtain ⟨target, htarget, hresource⟩ := bind_eq_ok_iff.mp h
    cases hresource
    exact ⟨endpoint, hendpoint, htarget⟩
  · cases h

section Snapshot

variable (h : buildXdsSnapshot runtime input = .ok snapshot)

include h

theorem relays_ingress_iff {name : String} {port : Int} {target : String × Int} :
    snapshot.Relays (ingressName name) port target ↔
      input.portOf name = some port ∧ ∃ route ∈ input.localRoutes, route.name = name ∧
        ∃ endpoint, nonEmpty route.endpoint = some endpoint ∧ parseEndpointUrl runtime endpoint = .ok target := by
  obtain ⟨resources, hlisteners, hclusters, hmem⟩ := mem_buildXdsSnapshot h
  rw [XdsSnapshot.Relays, hlisteners, hclusters]
  constructor
  · rintro ⟨listener, hlistener, hname, rfl, cluster, hcluster, hrefers, rfl⟩
    obtain ⟨front, hfront, rfl⟩ := List.mem_map.mp hlistener
    obtain ⟨back, hback, rfl⟩ := List.mem_map.mp hcluster
    obtain ⟨route, hroute, hok⟩ | ⟨route, hroute, hok⟩ := (hmem front).mp hfront
    · have hingress := localResources_ingress hok
      obtain rfl := ingressName_inj (hingress.listenerName.symm.trans hname)
      have hbackName := hrefers.trans ((localResources_forwards hok).1.trans hingress.clusterName)
      obtain ⟨other, hother, hotherOk⟩ | ⟨other, hother, hotherOk⟩ := (hmem back).mp hback
      · have hsame := localName_inj ((localResources_ingress hotherOk).clusterName.symm.trans hbackName)
        exact ⟨hingress.port, other, hother, hsame, localResources_endpoint hotherOk⟩
      · have hremote := (remoteResources_egress hotherOk).clusterName
        exact absurd (hbackName.symm.trans hremote) (localName_ne_remoteName _ _ _)
    · exact absurd (hname.symm.trans (remoteResources_egress hok).listenerName) (ingressName_ne_egressKey _ _ _)
  · rintro ⟨hport, route, hroute, rfl, endpoint, hendpoint, htarget⟩
    obtain ⟨resource, hok⟩ := exists_ingress h hroute (by simp [hendpoint]) hport
    have hingress := localResources_ingress hok
    obtain ⟨parsed, hparsed, hresult⟩ := localResources_endpoint hok
    have hresource := (hmem resource).mpr (.inl ⟨route, hroute, hok⟩)
    obtain rfl := Option.some.inj (hendpoint.symm.trans hparsed)
    exact ⟨resource.1, List.mem_map_of_mem hresource, hingress.listenerName,
      Option.some.inj (hingress.port.symm.trans hport), resource.2, List.mem_map_of_mem hresource,
      (localResources_forwards hok).1.symm, Except.ok.inj (hresult.symm.trans htarget)⟩

theorem relays_egress_iff {name peerName address : String} {port peerPort : Int} :
    snapshot.Relays (egressKey name peerName) port (address, peerPort) ↔
      input.portOf (egressKey name peerName) = some port ∧
        ∃ route ∈ input.internalRoutes, route.egressKey = egressKey name peerName ∧
          nonZero route.envoyPort = some peerPort ∧ nonEmpty route.peer.envoyAddress = some address := by
  obtain ⟨resources, hlisteners, hclusters, hmem⟩ := mem_buildXdsSnapshot h
  rw [XdsSnapshot.Relays, hlisteners, hclusters]
  constructor
  · rintro ⟨listener, hlistener, hname, rfl, cluster, hcluster, hrefers, hendpoint⟩
    obtain ⟨front, hfront, rfl⟩ := List.mem_map.mp hlistener
    obtain ⟨back, hback, rfl⟩ := List.mem_map.mp hcluster
    obtain ⟨route, hroute, hok⟩ | ⟨route, hroute, hok⟩ := (hmem front).mp hfront
    · exact absurd ((localResources_ingress hok).listenerName.symm.trans hname) (ingressName_ne_egressKey _ _ _)
    · have hegress := remoteResources_egress hok
      have hkey : route.egressKey = egressKey name peerName := hegress.listenerName.symm.trans hname
      have hbackName := hrefers.trans ((remoteResources_forwards hok).1.trans hegress.clusterName)
      obtain ⟨other, hother, hotherOk⟩ | ⟨other, hother, hotherOk⟩ := (hmem back).mp hback
      · have hlocal := (localResources_ingress hotherOk).clusterName
        exact absurd (hlocal.symm.trans hbackName) (localName_ne_remoteName _ _ _)
      · have hother' := remoteResources_egress hotherOk
        have hsame : other.egressKey = route.egressKey :=
          remoteName_eq_iff.mp (hother'.clusterName.symm.trans hbackName)
        refine ⟨hkey ▸ hegress.port, other, hother, hsame.trans hkey, ?_, ?_⟩
        · rw [hother'.peerPort, hendpoint]
        · rw [hother'.peerAddress, hendpoint]
  · rintro ⟨hport, route, hroute, hsame, hpeerPort, hpeerAddress⟩
    rw [← hsame] at hport ⊢
    obtain ⟨resource, hok⟩ := exists_egress runtime hpeerPort hpeerAddress hport
    have hegress := remoteResources_egress hok
    have hresource := (hmem resource).mpr (.inr ⟨route, hroute, hok⟩)
    refine ⟨resource.1, List.mem_map_of_mem hresource, hegress.listenerName,
      Option.some.inj (hegress.port.symm.trans hport), resource.2, List.mem_map_of_mem hresource,
      (remoteResources_forwards hok).1.symm, Prod.ext ?_ ?_⟩
    · exact Option.some.inj (hegress.peerAddress.symm.trans hpeerAddress)
    · exact Option.some.inj (hegress.peerPort.symm.trans hpeerPort)

end Snapshot

end Envoy

namespace DataPlane

section Provisioned

variable {runtime : XdsRuntime} {bus : Bus} {server : EnvoyRpcServer} {port : Int}

/-- A node sends the traffic of a route that it learned to its own port at the peer. -/
theorem relays_learned_iff (h : Provisioned runtime bus server) {route : InternalRoute}
    (hmem : route ∈ bus.state.internalRoutes) {address : String} (haddress : route.peer.envoyAddress = some address)
    {peerPort : Int} :
    (∃ snapshot ∈ server.previousSnapshot, snapshot.Relays route.egressKey port (address, peerPort)) ↔
      address ≠ "" ∧ Bus.heldPort bus.portAllocator route.egressKey = some port ∧ peerPort = port := by
  obtain ⟨input, snapshot, hpublishes⟩ := exists_publishes h (.inr (List.ne_nil_of_mem hmem))
  simp only [hpublishes.published, Option.mem_def, Option.some.injEq, exists_eq_left']
  rw [InternalRoute.egressKey, Envoy.relays_egress_iff hpublishes.built, hpublishes.portOf, hpublishes.internalRoutes]
  constructor
  · rintro ⟨hheld, via, hvia, hsame, hpeerPort, hpeerAddress⟩
    have hviaPort := (h.saturated.internalRoutes via hvia).held port (hsame ▸ hheld)
    have hpeerPort := (Envoy.nonZero_eq_some_iff.mp hpeerPort).1
    exact ⟨(Envoy.nonEmpty_eq_some_iff.mp hpeerAddress).2, hheld, Option.some.inj (hpeerPort.symm.trans hviaPort)⟩
  · rintro ⟨hnonempty, hheld, rfl⟩
    have hnonzero := (Envoy.portOf_eq_some_iff.mp ((hpublishes.portOf route.egressKey).trans hheld)).2
    have hroutePort := (h.saturated.internalRoutes route hmem).held peerPort hheld
    exact ⟨hheld, route, hmem, rfl, Envoy.nonZero_eq_some_iff.mpr ⟨hroutePort, hnonzero⟩,
      Envoy.nonEmpty_eq_some_iff.mpr ⟨haddress, hnonempty⟩⟩

/-- A node sends the traffic of its own channel to the channel's endpoint. -/
theorem relays_local_iff (h : Provisioned runtime bus server) {route : DataChannelDefinition}
    (hmem : route ∈ bus.state.localRoutes) {target : String × Int} :
    (∃ snapshot ∈ server.previousSnapshot, snapshot.Relays (Envoy.ingressName route.name) port target) ↔
      Bus.heldPort bus.portAllocator route.name = some port ∧
        ∃ endpoint, Envoy.nonEmpty route.endpoint = some endpoint ∧
          Envoy.parseEndpointUrl runtime endpoint = .ok target := by
  obtain ⟨input, snapshot, hpublishes⟩ := exists_publishes h (.inl (List.ne_nil_of_mem hmem))
  simp only [hpublishes.published, Option.mem_def, Option.some.injEq, exists_eq_left']
  rw [Envoy.relays_ingress_iff hpublishes.built, hpublishes.portOf, hpublishes.localRoutes]
  refine and_congr_right fun hheld => ?_
  constructor
  · rintro ⟨other, hother, hname, hendpoint⟩
    obtain rfl := List.inj_on_of_nodup_map h.keyed.localNames hother hmem hname
    exact hendpoint
  · exact fun hendpoint => ⟨route, hmem, rfl, hendpoint⟩

end Provisioned

/-! ### From node to node -/

/-- The tables lead from `node` along `path` to a channel of its last node: every node learned
    its route of identity `k` from the next one. -/
inductive Leads (s : DataPlane) (k : String × String) : String → List String → DataChannelDefinition → Prop where
  | origin (node : String) (channel : DataChannelDefinition) (hmem : channel ∈ (s.net.bus node).state.localRoutes)
      (hkey : (channel.name, node) = k) : Leads s k node [] channel
  | learned (node : String) (route : InternalRoute) (hmem : route ∈ (s.net.bus node).state.internalRoutes)
      (hkey : route.key = k) {path : List String} {channel : DataChannelDefinition}
      (hrest : Leads s k route.peer.name path channel) : Leads s k node (route.peer.name :: path) channel

/-- The ports that the nodes have allocated for `name` along a path: for the way to the next
    node, and at the last one for the channel itself. -/
def portsAlong (s : DataPlane) (name : String) : String → List String → List (Option Int)
  | node, [] => [Bus.heldPort (s.net.bus node).portAllocator name]
  | node, next :: path =>
    Bus.heldPort (s.net.bus node).portAllocator (egressKey name next) :: portsAlong s name next path

/-- A connection for `name` that comes in on `port` of the first Envoy goes from Envoy to Envoy
    along the path, and from the last one to `target`. -/
def Carries (fabric : Fabric) (s : DataPlane) (name : String) :
    String → List String → Int → String × Int → Prop
  | node, [], port, target =>
    ∃ snapshot ∈ (s.envoy node).previousSnapshot, snapshot.Relays (Envoy.ingressName name) port target
  | node, next :: path, port, target =>
    ∃ address peerPort, (fabric.config next).localNodeInfo.envoyAddress = some address ∧
      (∃ snapshot ∈ (s.envoy node).previousSnapshot, snapshot.Relays (egressKey name next) port (address, peerPort)) ∧
      Carries fabric s name next path peerPort target

/-- What it takes: one port all along the path, Envoys that can be addressed, and an endpoint. -/
structure Passable (fabric : Fabric) (runtime : XdsRuntime) (s : DataPlane) (name node : String) (path : List String)
    (channel : DataChannelDefinition) (port : Int) (target : String × Int) : Prop where
  ports : ∀ held ∈ portsAlong s name node path, held = some port
  addresses : ∀ next ∈ path, ∃ address, (fabric.config next).localNodeInfo.envoyAddress = some address ∧ address ≠ ""
  endpoint : ∃ endpoint, Envoy.nonEmpty channel.endpoint = some endpoint ∧
    Envoy.parseEndpointUrl runtime endpoint = .ok target

variable {fabric : Fabric} {runtime : XdsRuntime} {s : DataPlane} {k : String × String}

/-- A path is passable if its first hop and the rest of it are. -/
theorem passable_cons_iff {name node next : String} {path : List String} {channel : DataChannelDefinition} {port : Int}
    {target : String × Int} :
    Passable fabric runtime s name node (next :: path) channel port target ↔
      (∃ address, (fabric.config next).localNodeInfo.envoyAddress = some address ∧ address ≠ "") ∧
        Bus.heldPort (s.net.bus node).portAllocator (egressKey name next) = some port ∧
        Passable fabric runtime s name next path channel port target := by
  constructor
  · intro h
    obtain ⟨hheld, hports⟩ := List.forall_mem_cons.mp h.ports
    obtain ⟨haddress, haddresses⟩ := List.forall_mem_cons.mp h.addresses
    exact ⟨haddress, hheld, hports, haddresses, h.endpoint⟩
  · rintro ⟨haddress, hheld, hrest⟩
    exact ⟨List.forall_mem_cons.mpr ⟨hheld, hrest.ports⟩, List.forall_mem_cons.mpr ⟨haddress, hrest.addresses⟩,
      hrest.endpoint⟩

theorem Leads.carries_iff_passable {node : String} {path : List String} {channel : DataChannelDefinition}
    (hleads : Leads s k node path channel) (hpresented : s.net.Presented fabric)
    (hprovisioned : ∀ other ∈ node :: path, Provisioned runtime (s.net.bus other) (s.envoy other)) {port : Int}
    {target : String × Int} :
    Carries fabric s k.1 node path port target ↔ Passable fabric runtime s k.1 node path channel port target := by
  induction hleads generalizing port with
  | origin node channel hmem hkey =>
    subst hkey
    rw [Carries, relays_local_iff (hprovisioned node List.mem_cons_self) hmem]
    constructor
    · rintro ⟨hheld, hendpoint⟩
      exact ⟨by simpa [portsAlong] using hheld, by simp, hendpoint⟩
    · intro h
      exact ⟨h.ports _ List.mem_cons_self, h.endpoint⟩
  | learned node route hmem hkey hrest ih =>
    have ih := fun port => @ih (fun other hother => hprovisioned other (List.mem_cons_of_mem _ hother)) port
    have hname : k.1 = route.name := (congrArg Prod.fst hkey).symm
    have haddress : route.peer.envoyAddress = (fabric.config route.peer.name).localNodeInfo.envoyAddress := by
      obtain ⟨sender, hpeer⟩ := hpresented.routes node route hmem
      have hsender : route.peer.name = sender := by
        rw [hpeer]
        exact fabric.config_name sender
      rw [hsender, hpeer]
    have hrelays {address : String} {peerPort : Int}
        (hconfig : (fabric.config route.peer.name).localNodeInfo.envoyAddress = some address) :=
      @relays_learned_iff _ _ _ port (hprovisioned node List.mem_cons_self) route hmem address (haddress.trans hconfig)
        peerPort
    rw [passable_cons_iff, Carries, hname]
    rw [hname] at ih
    constructor
    · rintro ⟨address, peerPort, hconfig, hrelay, hcarries⟩
      obtain ⟨hnonempty, hheld, rfl⟩ := (hrelays hconfig).mp hrelay
      exact ⟨⟨address, hconfig, hnonempty⟩, hheld, (ih peerPort).mp hcarries⟩
    · rintro ⟨⟨address, hconfig, hnonempty⟩, hheld, hpassable⟩
      exact ⟨address, port, hconfig, (hrelays hconfig).mpr ⟨hnonempty, hheld, rfl⟩, (ih port).mpr hpassable⟩

/-- In every run whose pushes at the nodes of a path can be served: where the tables lead from a
    node to a channel, the Envoys carry a connection there exactly if every node on the way, the
    origin included, has allocated the same port for it. -/
theorem carries_iff {alloc : String → Option PortAllocator} {peers : String → List PeerRecord} {node : String}
    {path : List String} (halloc : ∀ other ∈ node :: path, alloc other ≠ none)
    (henvoy : ∀ other ∈ node :: path, (fabric.config other).envoyClient = true)
    (h : Reachable fabric runtime (initial alloc peers)
      (fun net move => move.isLocal = true ∧ ∀ other ∈ node :: path, ServedAt fabric runtime other net move) s)
    {channel : DataChannelDefinition} (hleads : Leads s k node path channel) (port : Int) (target : String × Int) :
    Carries fabric s k.1 node path port target ↔ Passable fabric runtime s k.1 node path channel port target := by
  have hpresented := Network.reachable_presented (fun _ _ hallowed => hallowed.1) h.net
  refine hleads.carries_iff_passable hpresented fun other hother => ?_
  exact reachable_provisioned (halloc other hother) (henvoy other hother) (fun _ _ hallowed => hallowed.2 other hother) h

/-- Three nodes in a row, with an Envoy service and the same port range each. -/
def fullLine : DataPlane := initial (fun node => some (createPortAllocator (sharedRange node))) line.peers

/-- `node-c` creates `books`, and the others hear of it. -/
def booksFromC : List Move :=
  [.act "node-c" 1 (.localRouteCreate { name := "books", protocol := .http, endpoint := some "http://books:5001" }),
    .deliver 0 2, .deliver 0 3]

/-- The tables lead from `node-a` to `books`, and every node has given it port 10000. -/
theorem booksFromC_passable : ∃ channel,
    Leads (fullLine.run sidecars booksRuntime booksFromC) ("books", "node-c") "node-a" ["node-b", "node-c"] channel ∧
      Passable sidecars booksRuntime (fullLine.run sidecars booksRuntime booksFromC) "books" "node-a"
        ["node-b", "node-c"] channel 10000 ("books", 5001) := by
  obtain ⟨channel, hchannel, hname, hendpoint⟩ : ∃ channel ∈ ((fullLine.run sidecars booksRuntime booksFromC).net.bus
      "node-c").state.localRoutes, channel.name = "books" ∧ channel.endpoint = some "http://books:5001" := by
    decide +kernel
  obtain ⟨second, hsecond, hsecondPeer, hsecondKey⟩ : ∃ route ∈ ((fullLine.run sidecars booksRuntime booksFromC).net.bus
      "node-b").state.internalRoutes, route.peer.name = "node-c" ∧ route.key = ("books", "node-c") := by
    decide +kernel
  obtain ⟨first, hfirst, hfirstPeer, hfirstKey⟩ : ∃ route ∈ ((fullLine.run sidecars booksRuntime booksFromC).net.bus
      "node-a").state.internalRoutes, route.peer.name = "node-b" ∧ route.key = ("books", "node-c") := by
    decide +kernel
  refine ⟨channel, ?_, ?_, ?_, "http://books:5001", ?_, rfl⟩
  · refine hfirstPeer ▸ .learned "node-a" first hfirst hfirstKey (hfirstPeer.symm ▸ ?_)
    refine hsecondPeer ▸ .learned "node-b" second hsecond hsecondKey (hsecondPeer.symm ▸ ?_)
    exact .origin "node-c" channel hchannel (by rw [hname])
  · decide +kernel
  · simp [sidecars, BusConfig.localNodeInfo]
  · rw [hendpoint]
    rfl

/-- `node-a` reaches `books` across two hops. -/
theorem carries_iff_line :
    Carries sidecars (fullLine.run sidecars booksRuntime booksFromC) "books" "node-a" ["node-b", "node-c"] 10000
      ("books", 5001) := by
  have hrun : Reachable sidecars booksRuntime fullLine (fun net move => move.isLocal = true ∧
      ∀ other ∈ ["node-a", "node-b", "node-c"], ServedAt sidecars booksRuntime other net move)
      (fullLine.run sidecars booksRuntime booksFromC) := Reachable.start.run booksFromC (by decide +kernel)
  obtain ⟨channel, hleads, hpassable⟩ := booksFromC_passable
  exact (carries_iff (by simp) (by simp [sidecars]) hrun hleads 10000 ("books", 5001)).mpr hpassable

end DataPlane

end CatalystRouter
