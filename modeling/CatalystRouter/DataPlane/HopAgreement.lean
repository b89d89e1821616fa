import CatalystRouter.DataPlane.Model

namespace CatalystRouter

def ChangedRoute.envoyPort : ChangedRoute → Option Int
  | .channel route => route.envoyPort
  | .internal route => route.envoyPort

/-- The listener that a node's snapshot has for a route it holds. -/
def ChangedRoute.listenerName : ChangedRoute → String
  | .channel route => Envoy.ingressName route.name
  | .internal route => route.egressKey

/-- `node`'s table holds a route of identity `k`: one of its own, or one it
    learned. -/
inductive RouteTable.Holds (node : String) (state : RouteTable) (k : String × String) : ChangedRoute → Prop where
  | channel (route : DataChannelDefinition) (hmem : route ∈ state.localRoutes) (hkey : (route.name, node) = k) :
      Holds node state k (.channel route)
  | internal (route : InternalRoute) (hmem : route ∈ state.internalRoutes) (hkey : route.key = k) :
      Holds node state k (.internal route)

namespace DataPlane

/-- The port in the last advertisement of `k` that `receiver` got from `sender`. -/
def lastAdvertised (net : Network) (receiver sender : String) (k : String × String) : Option Int :=
  let heard := net.received.filter fun env => env.sender == sender && env.receiver == receiver
  let adverts := (heard.flatMap (·.updates)).filter fun item => item.action == .add && item.key == k
  adverts.getLast?.bind (·.route.envoyPort)

/-- A hop from `a` to its neighbour `b`: `a` holds a route learned from `b`,
    which `b` last advertised with `port`, and `b` still holds it with `port`. -/
structure Hop (fabric : Fabric) (s : DataPlane) (a b : String) (route : InternalRoute) (held : ChangedRoute)
    (port : Int) : Prop where
  learned : route ∈ (s.net.bus a).state.internalRoutes
  fromPeer : route.peer.name = b
  advertised : lastAdvertised s.net a b route.key = some port
  holds : (s.net.bus b).state.Holds (fabric.config b).node.name route.key held
  port : held.envoyPort = some port

/-- The two ends of the hop agree: `b` listens on `port`, and `a` sends there. -/
def HopAgrees (s : DataPlane) (a b address : String) (route : InternalRoute) (held : ChangedRoute)
    (port : Int) : Prop :=
  (∃ snapshot ∈ (s.envoy b).previousSnapshot, ∃ listener ∈ snapshot.listeners,
    listener.name = held.listenerName ∧ listener.portValue = port) ∧
  ∃ snapshot ∈ (s.envoy a).previousSnapshot, ∃ cluster ∈ snapshot.clusters,
    cluster.name = Envoy.remoteName route.name b ∧ cluster.endpoint = (address, port)

/-- `b` can listen for the route it holds: the route has somewhere to go, and a
    port that the allocator of `b` knows. -/
def CanListen (bus : Bus) (port : Int) : ChangedRoute → Prop
  | .channel route => Envoy.nonEmpty route.endpoint ≠ none ∧ Bus.heldPort bus.portAllocator route.name = some port
  | .internal route => Bus.heldPort bus.portAllocator route.egressKey ≠ none ∧
      ∃ via ∈ bus.state.internalRoutes, via.egressKey = route.egressKey ∧
        Envoy.nonEmpty via.peer.envoyAddress ≠ none

/-- The port that `a` allocated for its own egress is the one that `b` listens
    on, by coincidence or by configuration. -/
structure PortsAgree (s : DataPlane) (a b address : String) (route : InternalRoute) (held : ChangedRoute)
    (port : Int) : Prop where
  address : address ≠ ""
  egress : Bus.heldPort (s.net.bus a).portAllocator route.egressKey = some port
  listens : CanListen (s.net.bus b) port held

section Provisioned

variable {runtime : XdsRuntime} {bus : Bus} {server : EnvoyRpcServer}

theorem exists_publishes (h : Provisioned runtime bus server)
    (hroutes : bus.state.localRoutes ≠ [] ∨ bus.state.internalRoutes ≠ []) :
    ∃ input snapshot, Publishes runtime bus server input snapshot := by
  refine h.publishes.resolve_left fun hempty => ?_
  obtain hlocal | hinternal := hroutes
  · exact hlocal hempty.1
  · exact hinternal hempty.2

variable {input : Envoy.BuildXdsSnapshotInput} {snapshot : XdsSnapshot}

/-- What the published snapshot listens on for a held route. -/
theorem listens_iff (h : Provisioned runtime bus server) (hpublishes : Publishes runtime bus server input snapshot)
    {node : String} {k : String × String} {held : ChangedRoute} (hholds : bus.state.Holds node k held) {port : Int}
    (hport : held.envoyPort = some port) :
    (∃ listener ∈ snapshot.listeners, listener.name = held.listenerName ∧ listener.portValue = port) ↔
      CanListen bus port held := by
  cases hholds with
  | channel route hmem hkey =>
    rw [ChangedRoute.listenerName, Envoy.listener_ingress_iff hpublishes.built, hpublishes.portOf,
      hpublishes.localRoutes]
    constructor
    · rintro ⟨hheld, other, hother, hname, hendpoint⟩
      obtain rfl := List.inj_on_of_nodup_map h.keyed.localNames hother hmem hname
      exact ⟨hendpoint, hheld⟩
    · rintro ⟨hendpoint, hheld⟩
      exact ⟨hheld, route, hmem, rfl, hendpoint⟩
  | internal route hmem hkey =>
    have hsettled := (h.saturated.internalRoutes route hmem).held
    rw [ChangedRoute.listenerName, InternalRoute.egressKey, Envoy.listener_egress_iff hpublishes.built,
      hpublishes.portOf, hpublishes.internalRoutes]
    constructor
    · rintro ⟨hheld, via, hvia, hsame, -, haddress⟩
      exact ⟨by simp [InternalRoute.egressKey, hheld], via, hvia, hsame, haddress⟩
    · rintro ⟨hheld, via, hvia, hsame, haddress⟩
      obtain ⟨p, hheld⟩ := Option.ne_none_iff_exists'.mp hheld
      obtain rfl : p = port := Option.some.inj ((hsettled p hheld).symm.trans hport)
      have hnonzero := (Envoy.portOf_eq_some_iff.mp ((hpublishes.portOf route.egressKey).trans hheld)).2
      have hviaPort := (h.saturated.internalRoutes via hvia).held p (hsame ▸ hheld)
      refine ⟨hheld, via, hvia, hsame, ?_, haddress⟩
      rw [Envoy.nonZero_eq_some_iff.mpr ⟨hviaPort, hnonzero⟩]
      simp

/-- Where the published snapshot sends the traffic of a route it learned. -/
theorem sends_iff (h : Provisioned runtime bus server) (hpublishes : Publishes runtime bus server input snapshot)
    {route : InternalRoute} (hmem : route ∈ bus.state.internalRoutes) {address : String}
    (haddress : route.peer.envoyAddress = some address) (port : Int) :
    (∃ cluster ∈ snapshot.clusters,
        cluster.name = Envoy.remoteName route.name route.peer.name ∧ cluster.endpoint = (address, port)) ↔
      address ≠ "" ∧ Bus.heldPort bus.portAllocator route.egressKey = some port := by
  rw [Envoy.cluster_remote_iff hpublishes.built, hpublishes.internalRoutes]
  constructor
  · rintro ⟨via, hvia, hsame, hheld, hport, hpeerAddress⟩
    have hkey : via.egressKey = route.egressKey := hsame
    rw [hpublishes.portOf, hkey] at hheld
    obtain ⟨p, hheld⟩ := Option.ne_none_iff_exists'.mp hheld
    have hviaPort := (h.saturated.internalRoutes via hvia).held p (hkey ▸ hheld)
    obtain ⟨hport, -⟩ := Envoy.nonZero_eq_some_iff.mp hport
    obtain rfl : p = port := Option.some.inj (hviaPort.symm.trans hport)
    exact ⟨(Envoy.nonEmpty_eq_some_iff.mp hpeerAddress).2, hheld⟩
  · rintro ⟨hnonempty, hheld⟩
    have hportOf := (hpublishes.portOf route.egressKey).trans hheld
    have hsettled := (h.saturated.internalRoutes route hmem).held port hheld
    refine ⟨route, hmem, rfl, by simp [hportOf], ?_, Envoy.nonEmpty_eq_some_iff.mpr ⟨haddress, hnonempty⟩⟩
    exact Envoy.nonZero_eq_some_iff.mpr ⟨hsettled, (Envoy.portOf_eq_some_iff.mp hportOf).2⟩

end Provisioned

/-- In every run whose pushes at the two nodes can be served, the two ends of a
    hop agree exactly if the upstream node's port is also the one that the
    downstream node allocated for its own egress: the port that was advertised
    is overwritten by that one before the cluster is built. -/
theorem hop_agrees_iff {fabric : Fabric} {runtime : XdsRuntime} {alloc : String → Option PortAllocator}
    {peers : String → List PeerRecord} {a b address : String} (hallocA : alloc a ≠ none) (hallocB : alloc b ≠ none)
    (henvoyA : (fabric.config a).envoyClient = true) (henvoyB : (fabric.config b).envoyClient = true)
    (haddress : (fabric.config b).localNodeInfo.envoyAddress = some address) {s : DataPlane}
    (h : Reachable fabric runtime (initial alloc peers)
      (fun net move => move.isLocal = true ∧ ServedAt fabric runtime a net move ∧ ServedAt fabric runtime b net move) s)
    {route : InternalRoute} {held : ChangedRoute} {port : Int} (hop : Hop fabric s a b route held port) :
    HopAgrees s a b address route held port ↔ PortsAgree s a b address route held port := by
  have hprovisionedA := reachable_provisioned hallocA henvoyA (fun _ _ hallowed => hallowed.2.1) h
  have hprovisionedB := reachable_provisioned hallocB henvoyB (fun _ _ hallowed => hallowed.2.2) h
  have hpresented := Network.reachable_presented (fun _ _ hallowed => hallowed.1) h.net
  have hpeerAddress : route.peer.envoyAddress = some address := by
    obtain ⟨sender, hpeer⟩ := hpresented.routes a route hop.learned
    have hname : sender = b := by
      rw [← fabric.config_name sender, ← hop.fromPeer, hpeer]
      rfl
    rw [hpeer, hname, haddress]
  obtain ⟨inputA, snapshotA, hpublishesA⟩ :=
    exists_publishes hprovisionedA (.inr (List.ne_nil_of_mem hop.learned))
  obtain ⟨inputB, snapshotB, hpublishesB⟩ := exists_publishes hprovisionedB <| by
    cases hop.holds with
    | channel route hmem hkey => exact .inl (List.ne_nil_of_mem hmem)
    | internal route hmem hkey => exact .inr (List.ne_nil_of_mem hmem)
  have hlistens := listens_iff hprovisionedB hpublishesB hop.holds hop.port
  have hsends := sends_iff hprovisionedA hpublishesA hop.learned hpeerAddress port
  rw [hop.fromPeer] at hsends
  simp only [HopAgrees, hpublishesA.published, hpublishesB.published, Option.mem_def, Option.some.injEq,
    exists_eq_left', hlistens, hsends]
  constructor
  · rintro ⟨hlisten, hnonempty, hegress⟩
    exact ⟨hnonempty, hegress, hlisten⟩
  · rintro ⟨hnonempty, hegress, hlisten⟩
    exact ⟨hlisten, hnonempty, hegress⟩

/-- Nodes with an Envoy service each, at an address of their own. -/
def sidecars : Fabric where
  config node := { node := { name := node, envoyAddress := some ("envoy." ++ node) }, envoyClient := true }
  reaches peer := peer.name
  config_name _ := rfl

/-- A runtime that knows the endpoint of `books`. -/
def booksRuntime : XdsRuntime where
  parseUrl endpoint := if endpoint = "http://books:5001" then .ok ⟨"http:", "books", some 5001⟩ else .error "Invalid URL"
  isIP _ := false
  validChannel _ := true

/-- `node-a` and `node-b`, in session with each other. -/
def neighbours (node : String) : List PeerRecord :=
  if node = "node-a" then [{ name := "node-b", connectionStatus := .connected }]
  else if node = "node-b" then [{ name := "node-a", connectionStatus := .connected }]
  else []

/-- All nodes allocate from the same range. -/
def sharedRange (_ : String) : List PortEntry := [.range 10000 10009]

/-- `node-a` allocates from a range of its own. -/
def ownRange (node : String) : List PortEntry :=
  if node = "node-a" then [.range 11000 11009] else [.range 10000 10009]

/-- The two neighbours before any dispatch. -/
def fresh (ranges : String → List PortEntry) : DataPlane :=
  initial (fun node => some (createPortAllocator (ranges node))) neighbours

/-- `node-b` creates `books`, and `node-a` hears of it. -/
def booksHop : List Move :=
  [.act "node-b" 1 (.localRouteCreate { name := "books", protocol := .http, endpoint := some "http://books:5001" }),
    .deliver 0 2]

/-- `books` as `node-a` installs it, with the port of its own egress. -/
def booksViaB (port : Int) : InternalRoute :=
  { name := "books", protocol := .http, endpoint := some "http://books:5001", envoyPort := some port,
    envoyAddress := some "envoy.node-b", peer := { name := "node-b", envoyAddress := some "envoy.node-b" },
    nodePath := ["node-b"], originNode := "node-b" }

/-- `books` as `node-b` holds it. -/
def booksAtB : DataChannelDefinition :=
  { name := "books", protocol := .http, endpoint := some "http://books:5001", envoyPort := some 10000 }

instance (fabric : Fabric) (runtime : XdsRuntime) (node : String) (net : Network) (move : Move) :
    Decidable (ServedAt fabric runtime node net move) :=
  inferInstanceAs (Decidable (_ → _))

theorem booksHop_reachable (ranges : String → List PortEntry)
    (hserved : Network.EachMove sidecars (fun net move => move.isLocal = true ∧
      ServedAt sidecars booksRuntime "node-a" net move ∧ ServedAt sidecars booksRuntime "node-b" net move)
      (fresh ranges).net booksHop) :
    Reachable sidecars booksRuntime (fresh ranges)
      (fun net move => move.isLocal = true ∧ ServedAt sidecars booksRuntime "node-a" net move ∧
        ServedAt sidecars booksRuntime "node-b" net move)
      ((fresh ranges).run sidecars booksRuntime booksHop) :=
  Reachable.start.run booksHop hserved

theorem hop_agrees_iff_shared :
    HopAgrees ((fresh sharedRange).run sidecars booksRuntime booksHop) "node-a" "node-b" "envoy.node-b"
      (booksViaB 10000) (.channel booksAtB) 10000 := by
  have hreachable := booksHop_reachable sharedRange (by decide +kernel)
  have hhop : Hop sidecars ((fresh sharedRange).run sidecars booksRuntime booksHop) "node-a" "node-b"
      (booksViaB 10000) (.channel booksAtB) 10000 :=
    ⟨by decide +kernel, rfl, by decide +kernel, .channel _ (by decide +kernel) rfl, rfl⟩
  refine (hop_agrees_iff (by simp) (by simp) rfl rfl rfl hreachable hhop).mpr ⟨by decide, ?_, by decide, ?_⟩
  · decide +kernel
  · decide +kernel

/-- With ports from different ranges, `node-a` sends to its own port at `node-b`. -/
theorem hop_disagrees :
    ¬ ∀ (fabric : Fabric) (runtime : XdsRuntime) (ranges : String → List PortEntry)
      (peers : String → List PeerRecord) (a b address : String) (s : DataPlane) (route : InternalRoute)
      (held : ChangedRoute) (port : Int),
      (fabric.config a).envoyClient = true → (fabric.config b).envoyClient = true →
      (fabric.config b).localNodeInfo.envoyAddress = some address →
      Reachable fabric runtime (initial (fun node => some (createPortAllocator (ranges node))) peers)
        (fun net move => move.isLocal = true ∧ ServedAt fabric runtime a net move ∧
          ServedAt fabric runtime b net move) s →
      Hop fabric s a b route held port → HopAgrees s a b address route held port := by
  intro hclaim
  have hreachable := booksHop_reachable ownRange (by decide +kernel)
  have hhop : Hop sidecars ((fresh ownRange).run sidecars booksRuntime booksHop) "node-a" "node-b"
      (booksViaB 11000) (.channel booksAtB) 10000 :=
    ⟨by decide +kernel, rfl, by decide +kernel, .channel _ (by decide +kernel) rfl, rfl⟩
  obtain ⟨-, hsends⟩ := hclaim sidecars booksRuntime ownRange neighbours "node-a" "node-b" "envoy.node-b" _ _ _ _
    rfl rfl rfl hreachable hhop
  revert hsends
  decide +kernel

end DataPlane

end CatalystRouter
