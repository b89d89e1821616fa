import CatalystRouter.Orchestrator.Bus

namespace CatalystRouter

/-- The parts of a `URL` that the builder reads. `port` is absent where
    `url.port` is the empty string. -/
structure Url where
  protocol : String
  hostname : String
  port : Option Int
  deriving DecidableEq, Repr

/-- What the Envoy service takes from its runtime: the `URL` constructor, whose
    error carries the exception's text, `isIP`, and the channel schema that
    pushed routes are parsed with. -/
structure XdsRuntime where
  parseUrl : String → Except String Url
  isIP : String → Bool
  validChannel : DataChannelDefinition → Bool

inductive CodecType where
  | auto
  | http1
  | http2
  deriving DecidableEq, Repr

structure XdsRouteAction where
  cluster : String
  timeout : Option (Int × Int) := none
  deriving DecidableEq, Repr

/-- The network filter of a listener: the HTTP connection manager with its one
    virtual host and catch-all route, or a TCP proxy. -/
inductive XdsFilter where
  | httpConnectionManager (statPrefix : String) (codecType : Option CodecType) (upgradeConfigs : List String)
      (virtualHost : String) (route : XdsRouteAction)
  | tcpProxy (statPrefix : String) (cluster : String)
  deriving DecidableEq, Repr

structure XdsListener where
  name : String
  address : String
  portValue : Int
  filter : XdsFilter
  deriving DecidableEq, Repr

inductive ClusterType where
  | static
  | strictDns
  deriving DecidableEq, Repr

/-- `XdsCluster`, with its single endpoint in place of `load_assignment`. -/
structure XdsCluster where
  name : String
  type : ClusterType
  connectTimeout : String
  lbPolicy : String
  dnsLookupFamily : Option Int
  upstreamHttp2 : Bool
  endpoint : String × Int
  deriving DecidableEq, Repr

structure XdsSnapshot where
  version : String
  listeners : List XdsListener
  clusters : List XdsCluster
  deriving DecidableEq, Repr

namespace Envoy

/-- `DnsLookupFamily.V4_ONLY`. -/
def v4Only : Int := 1

def parseEndpointUrl (runtime : XdsRuntime) (endpoint : String) : Except String (String × Int) := do
  let url ← runtime.parseUrl endpoint
  let port := match url.port with
    | some port => port
    | none => if url.protocol = "https:" then 443 else 80
  return (url.hostname, port)

structure ListenerProtocolOptions where
  enableWebSocket : Bool := false
  disableRouteTimeout : Bool := false
  codecType : Option CodecType := none
  deriving DecidableEq, Repr

def getListenerOptions (protocol : DataChannelProtocol) : ListenerProtocolOptions :=
  match protocol with
  | .httpGraphql => { enableWebSocket := true, disableRouteTimeout := true }
  | .httpGql => { enableWebSocket := true, disableRouteTimeout := true }
  | .httpGrpc => { disableRouteTimeout := true, codecType := some .http2 }
  | _ => {}

def buildHttpConnectionManager (statPrefix clusterName : String) (options : ListenerProtocolOptions) : XdsFilter :=
  .httpConnectionManager statPrefix options.codecType
    (if options.enableWebSocket then ["websocket"] else [])
    (if statPrefix.startsWith "ingress" then "local" else "remote")
    { cluster := clusterName, timeout := if options.disableRouteTimeout then some (0, 0) else none }

def isTcpProtocol (protocol : DataChannelProtocol) : Bool := protocol == .tcp

def requiresHttp2 (protocol : DataChannelProtocol) : Bool := protocol == .httpGrpc

/-- A listener on `port` in front of one cluster. The four listener builders
    differ in the names, and in the filter that the protocol asks for. -/
def buildListener (name clusterName bindAddress : String) (port : Int) (protocol : DataChannelProtocol) :
    XdsListener :=
  { name
    address := bindAddress
    portValue := port
    filter := if isTcpProtocol protocol then .tcpProxy name clusterName
      else buildHttpConnectionManager name clusterName (getListenerOptions protocol) }

def ingressName (channelName : String) : String := "ingress_" ++ channelName

def localName (channelName : String) : String := "local_" ++ channelName

def remoteName (channelName peerName : String) : String := "remote_" ++ channelName ++ "_via_" ++ peerName

/-- `buildIngressListener`, and `buildTcpProxyIngressListener` for TCP. -/
def buildIngressListener (channelName : String) (port : Int) (bindAddress : String)
    (protocol : DataChannelProtocol) : XdsListener :=
  buildListener (ingressName channelName) (localName channelName) bindAddress port protocol

/-- `buildEgressListener`, and `buildTcpProxyEgressListener` for TCP. -/
def buildEgressListener (channelName peerName : String) (port : Int) (bindAddress : String)
    (protocol : DataChannelProtocol) : XdsListener :=
  buildListener (egressKey channelName peerName) (remoteName channelName peerName) bindAddress port protocol

/-- A cluster with one endpoint; the address decides how it is resolved. -/
def buildCluster (runtime : XdsRuntime) (name address : String) (port : Int) (protocol : DataChannelProtocol) :
    XdsCluster :=
  let type := if runtime.isIP address then ClusterType.static else .strictDns
  { name
    type
    connectTimeout := "5s"
    lbPolicy := "ROUND_ROBIN"
    dnsLookupFamily := if type = .strictDns then some v4Only else none
    upstreamHttp2 := requiresHttp2 protocol
    endpoint := (address, port) }

def buildLocalCluster (runtime : XdsRuntime) (channelName address : String) (port : Int)
    (protocol : DataChannelProtocol) : XdsCluster :=
  buildCluster runtime (localName channelName) address port protocol

def buildRemoteCluster (runtime : XdsRuntime) (channelName peerName peerAddress : String) (peerPort : Int)
    (protocol : DataChannelProtocol) : XdsCluster :=
  buildCluster runtime (remoteName channelName peerName) peerAddress peerPort protocol

/-- `portAllocations` is the record of allocations, by its own keys. -/
structure BuildXdsSnapshotInput where
  localRoutes : List DataChannelDefinition
  internalRoutes : List InternalRoute
  portAllocations : List (String × Int)
  bindAddress : String
  version : String

/-- An optional string as a JavaScript condition reads it. -/
def nonEmpty (s : Option String) : Option String := s.filter (· ≠ "")

/-- A port as a JavaScript condition reads it. -/
def nonZero (port : Option Int) : Option Int := port.filter (· ≠ 0)

def BuildXdsSnapshotInput.portOf (input : BuildXdsSnapshotInput) (key : String) : Option Int :=
  nonZero (input.portAllocations.lookup key)

/-- One turn of the loop over the local routes: nothing for a route without
    endpoint or port, and the loop ends in an exception on an endpoint that is
    no URL. -/
def localResources (runtime : XdsRuntime) (input : BuildXdsSnapshotInput) (route : DataChannelDefinition) :
    Except String (Option (XdsListener × XdsCluster)) :=
  match nonEmpty route.endpoint, input.portOf route.name with
  | some endpoint, some allocatedPort => do
    let (address, port) ← parseEndpointUrl runtime endpoint
    return some (buildIngressListener route.name allocatedPort input.bindAddress route.protocol,
      buildLocalCluster runtime route.name address port route.protocol)
  | _, _ => return none

def allLocalResources (runtime : XdsRuntime) (input : BuildXdsSnapshotInput) :
    List DataChannelDefinition → Except String (List (XdsListener × XdsCluster))
  | [] => return []
  | route :: rest => do
    let resources ← localResources runtime input route
    let others ← allLocalResources runtime input rest
    return resources.toList ++ others

/-- One turn of the loop over the internal routes. The listener is on this
    node's own port, the cluster points at the port that the route carries. -/
def remoteResources (runtime : XdsRuntime) (input : BuildXdsSnapshotInput) (route : InternalRoute) :
    Option (XdsListener × XdsCluster) := do
  let peerPort ← nonZero route.envoyPort
  let peerAddress ← nonEmpty route.peer.envoyAddress
  let egressPort ← input.portOf route.egressKey
  return (buildEgressListener route.name route.peer.name egressPort input.bindAddress route.protocol,
    buildRemoteCluster runtime route.name route.peer.name peerAddress peerPort route.protocol)

/-- Names that a JavaScript object inherits (`constructor`) have no port here unless they are
    allocated one; the source finds the inherited member. -/
def buildXdsSnapshot (runtime : XdsRuntime) (input : BuildXdsSnapshotInput) : Except String XdsSnapshot := do
  let ingress ← allLocalResources runtime input input.localRoutes
  let resources := ingress ++ input.internalRoutes.filterMap (remoteResources runtime input)
  return ⟨input.version, resources.map (·.1), resources.map (·.2)⟩

variable {runtime : XdsRuntime} {input : BuildXdsSnapshotInput}

theorem nonEmpty_eq_some_iff {s : Option String} {t : String} : nonEmpty s = some t ↔ s = some t ∧ t ≠ "" := by
  simp [nonEmpty, Option.filter_eq_some_iff]

theorem nonZero_eq_some_iff {port : Option Int} {p : Int} : nonZero port = some p ↔ port = some p ∧ p ≠ 0 := by
  simp [nonZero, Option.filter_eq_some_iff]

theorem portOf_eq_some_iff {key : String} {port : Int} :
    input.portOf key = some port ↔ input.portAllocations.lookup key = some port ∧ port ≠ 0 :=
  nonZero_eq_some_iff

theorem bind_eq_ok_iff {α β : Type} {x : Except String α} {f : α → Except String β} {y : β} :
    (x >>= f) = .ok y ↔ ∃ a, x = .ok a ∧ f a = .ok y := by
  cases x <;> simp [bind, Except.bind]

/-- The loop over the local routes collects what its turns yield. -/
theorem mem_allLocalResources {resource : XdsListener × XdsCluster} (routes : List DataChannelDefinition) :
    ∀ {resources}, allLocalResources runtime input routes = .ok resources →
      (resource ∈ resources ↔ ∃ route ∈ routes, localResources runtime input route = .ok (some resource)) := by
  induction routes with
  | nil =>
    intro resources h
    cases h
    simp
  | cons route rest ih =>
    intro resources h
    simp only [allLocalResources, bind_eq_ok_iff] at h
    obtain ⟨first, hfirst, others, hothers, hsum⟩ := h
    cases hsum
    simp [ih hothers, hfirst, eq_comm]

/-- The resources of a snapshot are those of its routes. -/
theorem mem_buildXdsSnapshot {snapshot : XdsSnapshot} (h : buildXdsSnapshot runtime input = .ok snapshot) :
    ∃ resources : List (XdsListener × XdsCluster),
      snapshot.listeners = resources.map (·.1) ∧ snapshot.clusters = resources.map (·.2) ∧
      ∀ resource, resource ∈ resources ↔
        (∃ route ∈ input.localRoutes, localResources runtime input route = .ok (some resource)) ∨
        ∃ route ∈ input.internalRoutes, remoteResources runtime input route = some resource := by
  simp only [buildXdsSnapshot, bind_eq_ok_iff] at h
  obtain ⟨ingress, hingress, hsum⟩ := h
  cases hsum
  refine ⟨_, rfl, rfl, fun resource => ?_⟩
  rw [List.mem_append, mem_allLocalResources _ hingress, List.mem_filterMap]

/-- A local route that the loop gives resources to. -/
structure Ingress (input : BuildXdsSnapshotInput) (route : DataChannelDefinition)
    (listener : XdsListener) (cluster : XdsCluster) : Prop where
  endpoint : nonEmpty route.endpoint ≠ none
  listenerName : listener.name = ingressName route.name
  clusterName : cluster.name = localName route.name
  port : input.portOf route.name = some listener.portValue

/-- An internal route that the loop gives resources to. -/
structure Egress (input : BuildXdsSnapshotInput) (route : InternalRoute) (listener : XdsListener)
    (cluster : XdsCluster) : Prop where
  listenerName : listener.name = route.egressKey
  clusterName : cluster.name = remoteName route.name route.peer.name
  port : input.portOf route.egressKey = some listener.portValue
  peerPort : nonZero route.envoyPort = some cluster.endpoint.2
  peerAddress : nonEmpty route.peer.envoyAddress = some cluster.endpoint.1

/-- What is built for a local route is an ingress of it. -/
theorem localResources_ingress {route : DataChannelDefinition} {resource : XdsListener × XdsCluster}
    (h : localResources runtime input route = .ok (some resource)) :
    Ingress input route resource.1 resource.2 := by
  unfold localResources at h
  split at h
  · rename_i endpoint allocatedPort hendpoint hport
    obtain ⟨address, -, hresource⟩ := bind_eq_ok_iff.mp h
    cases hresource
    exact ⟨by simp [hendpoint], rfl, rfl, hport⟩
  · cases h

/-- What is built for an internal route is an egress of it. -/
theorem remoteResources_egress {route : InternalRoute} {resource : XdsListener × XdsCluster}
    (h : remoteResources runtime input route = some resource) : Egress input route resource.1 resource.2 := by
  simp only [remoteResources, bind, Option.bind_eq_some_iff, pure, Option.some.injEq] at h
  obtain ⟨peerPort, hpeerPort, peerAddress, hpeerAddress, egressPort, hegressPort, rfl⟩ := h
  exact ⟨rfl, rfl, hegressPort, hpeerPort, hpeerAddress⟩

/-- The loop over the local routes completes if every turn does. -/
theorem allLocalResources_ok_iff (routes : List DataChannelDefinition) :
    (∃ resources, allLocalResources runtime input routes = .ok resources) ↔
      ∀ route ∈ routes, ∃ resource, localResources runtime input route = .ok resource := by
  induction routes with
  | nil => exact ⟨fun _ _ hmem => (nomatch hmem), fun _ => ⟨[], rfl⟩⟩
  | cons route rest ih =>
    rw [List.forall_mem_cons, ← ih]
    constructor
    · rintro ⟨resources, h⟩
      simp only [allLocalResources, bind_eq_ok_iff] at h
      obtain ⟨resource, hresource, others, hothers, -⟩ := h
      exact ⟨⟨resource, hresource⟩, others, hothers⟩
    · rintro ⟨⟨resource, hresource⟩, others, hothers⟩
      refine ⟨resource.toList ++ others, ?_⟩
      simp only [allLocalResources, bind_eq_ok_iff]
      exact ⟨resource, hresource, others, hothers, rfl⟩

/-- A snapshot is built exactly if no local route throws. -/
theorem buildXdsSnapshot_ok_iff :
    (∃ snapshot, buildXdsSnapshot runtime input = .ok snapshot) ↔
      ∀ route ∈ input.localRoutes, ∃ resource, localResources runtime input route = .ok resource := by
  rw [← allLocalResources_ok_iff]
  simp only [buildXdsSnapshot, bind_eq_ok_iff]
  constructor
  · rintro ⟨snapshot, resources, h, -⟩
    exact ⟨resources, h⟩
  · rintro ⟨resources, h⟩
    exact ⟨_, resources, h, rfl⟩

/-- A local route with an endpoint and a port gets its resources. -/
theorem exists_ingress {snapshot : XdsSnapshot} (h : buildXdsSnapshot runtime input = .ok snapshot)
    {route : DataChannelDefinition} (hmem : route ∈ input.localRoutes) (hendpoint : nonEmpty route.endpoint ≠ none)
    {port : Int} (hport : input.portOf route.name = some port) :
    ∃ resource, localResources runtime input route = .ok (some resource) := by
  obtain ⟨resource, hroute⟩ := buildXdsSnapshot_ok_iff.mp ⟨snapshot, h⟩ route hmem
  obtain ⟨endpoint, hendpoint⟩ := Option.ne_none_iff_exists'.mp hendpoint
  simp only [localResources, hendpoint, hport, bind_eq_ok_iff] at hroute ⊢
  obtain ⟨address, haddress, -⟩ := hroute
  exact ⟨_, address, haddress, rfl⟩

/-- An internal route with its ports and an address has an egress. -/
theorem exists_egress (runtime : XdsRuntime) {route : InternalRoute} {peerPort egressPort : Int} {peerAddress : String}
    (hpeerPort : nonZero route.envoyPort = some peerPort)
    (hpeerAddress : nonEmpty route.peer.envoyAddress = some peerAddress)
    (hport : input.portOf route.egressKey = some egressPort) :
    ∃ resource, remoteResources runtime input route = some resource := by
  simp [remoteResources, hpeerPort, hpeerAddress, hport]

/-! ### Resource names -/

/-- Listeners of different channels have different names. -/
theorem ingressName_inj {name name' : String} (h : ingressName name = ingressName name') : name = name' :=
  (String.append_right_inj "ingress_").mp h

/-- The name of an ingress listener is never that of an egress. -/
theorem ingressName_ne_egressKey (channelName name peerName : String) :
    ingressName channelName ≠ egressKey name peerName := by
  intro h
  have hchars := congrArg String.toList h
  simp [ingressName, egressKey] at hchars

/-- The name of a local cluster is never that of a remote one. -/
theorem localName_ne_remoteName (channelName name peerName : String) :
    localName channelName ≠ remoteName name peerName := by
  intro h
  have hchars := congrArg String.toList h
  simp [localName, remoteName] at hchars

/-- Remote clusters are named apart exactly as egress ports are. -/
theorem remoteName_eq_iff {name peerName name' peerName' : String} :
    remoteName name peerName = remoteName name' peerName' ↔ egressKey name peerName = egressKey name' peerName' := by
  simp only [remoteName, egressKey, String.append_assoc, String.append_right_inj]

/-! ### What a snapshot serves -/

section Snapshot

variable {snapshot : XdsSnapshot} (h : buildXdsSnapshot runtime input = .ok snapshot)

include h

/-- The ingress listeners are those of the local routes with a port. -/
theorem listener_ingress_iff {name : String} {port : Int} :
    (∃ listener ∈ snapshot.listeners, listener.name = ingressName name ∧ listener.portValue = port) ↔
      input.portOf name = some port ∧
        ∃ route ∈ input.localRoutes, route.name = name ∧ nonEmpty route.endpoint ≠ none := by
  obtain ⟨resources, hlisteners, -, hmem⟩ := mem_buildXdsSnapshot h
  rw [hlisteners]
  constructor
  · rintro ⟨listener, hlistener, hname, rfl⟩
    obtain ⟨resource, hresource, rfl⟩ := List.mem_map.mp hlistener
    obtain ⟨route, hroute, hok⟩ | ⟨route, hroute, hok⟩ := (hmem resource).mp hresource
    · have hingress := localResources_ingress hok
      have hsame := ingressName_inj (hingress.listenerName.symm.trans hname)
      exact ⟨hsame ▸ hingress.port, route, hroute, hsame, hingress.endpoint⟩
    · have hegress := remoteResources_egress hok
      exact absurd (hname.symm.trans hegress.listenerName) (ingressName_ne_egressKey _ _ _)
  · rintro ⟨hport, route, hroute, rfl, hendpoint⟩
    obtain ⟨resource, hok⟩ := exists_ingress h hroute hendpoint hport
    have hingress := localResources_ingress hok
    refine ⟨resource.1, List.mem_map_of_mem ((hmem resource).mpr (.inl ⟨route, hroute, hok⟩)),
      hingress.listenerName, ?_⟩
    exact Option.some.inj (hingress.port.symm.trans hport)

/-- The egress listeners are those of the complete internal routes with a port. -/
theorem listener_egress_iff {name peerName : String} {port : Int} :
    (∃ listener ∈ snapshot.listeners, listener.name = egressKey name peerName ∧ listener.portValue = port) ↔
      input.portOf (egressKey name peerName) = some port ∧
        ∃ route ∈ input.internalRoutes, route.egressKey = egressKey name peerName ∧
          nonZero route.envoyPort ≠ none ∧ nonEmpty route.peer.envoyAddress ≠ none := by
  obtain ⟨resources, hlisteners, -, hmem⟩ := mem_buildXdsSnapshot h
  rw [hlisteners]
  constructor
  · rintro ⟨listener, hlistener, hname, rfl⟩
    obtain ⟨resource, hresource, rfl⟩ := List.mem_map.mp hlistener
    obtain ⟨route, hroute, hok⟩ | ⟨route, hroute, hok⟩ := (hmem resource).mp hresource
    · have hingress := localResources_ingress hok
      exact absurd (hingress.listenerName.symm.trans hname) (ingressName_ne_egressKey _ _ _)
    · have hegress := remoteResources_egress hok
      have hsame := hegress.listenerName.symm.trans hname
      refine ⟨hsame ▸ hegress.port, route, hroute, hsame, ?_, ?_⟩
      · simp [hegress.peerPort]
      · simp [hegress.peerAddress]
  · rintro ⟨hport, route, hroute, hsame, hpeerPort, hpeerAddress⟩
    obtain ⟨peerPort, hpeerPort⟩ := Option.ne_none_iff_exists'.mp hpeerPort
    obtain ⟨peerAddress, hpeerAddress⟩ := Option.ne_none_iff_exists'.mp hpeerAddress
    rw [← hsame] at hport ⊢
    obtain ⟨resource, hok⟩ := exists_egress runtime hpeerPort hpeerAddress hport
    have hegress := remoteResources_egress hok
    refine ⟨resource.1, List.mem_map_of_mem ((hmem resource).mpr (.inr ⟨route, hroute, hok⟩)),
      hegress.listenerName, ?_⟩
    exact Option.some.inj (hegress.port.symm.trans hport)

/-- The remote clusters are those of the complete internal routes. -/
theorem cluster_remote_iff {name peerName address : String} {port : Int} :
    (∃ cluster ∈ snapshot.clusters, cluster.name = remoteName name peerName ∧ cluster.endpoint = (address, port)) ↔
      ∃ route ∈ input.internalRoutes, route.egressKey = egressKey name peerName ∧
        input.portOf route.egressKey ≠ none ∧ nonZero route.envoyPort = some port ∧
        nonEmpty route.peer.envoyAddress = some address := by
  obtain ⟨resources, -, hclusters, hmem⟩ := mem_buildXdsSnapshot h
  rw [hclusters]
  constructor
  · rintro ⟨cluster, hcluster, hname, hendpoint⟩
    obtain ⟨resource, hresource, rfl⟩ := List.mem_map.mp hcluster
    obtain ⟨route, hroute, hok⟩ | ⟨route, hroute, hok⟩ := (hmem resource).mp hresource
    · have hingress := localResources_ingress hok
      exact absurd (hingress.clusterName.symm.trans hname) (localName_ne_remoteName _ _ _)
    · have hegress := remoteResources_egress hok
      refine ⟨route, hroute, remoteName_eq_iff.mp (hegress.clusterName.symm.trans hname), ?_, ?_, ?_⟩
      · simp [hegress.port]
      · simp [hegress.peerPort, hendpoint]
      · simp [hegress.peerAddress, hendpoint]
  · rintro ⟨route, hroute, hsame, hport, hpeerPort, hpeerAddress⟩
    obtain ⟨egressPort, hport⟩ := Option.ne_none_iff_exists'.mp hport
    obtain ⟨resource, hok⟩ := exists_egress runtime hpeerPort hpeerAddress hport
    have hegress := remoteResources_egress hok
    refine ⟨resource.2, List.mem_map_of_mem ((hmem resource).mpr (.inr ⟨route, hroute, hok⟩)),
      hegress.clusterName.trans (remoteName_eq_iff.mpr hsame), Prod.ext ?_ ?_⟩
    · exact Option.some.inj (hegress.peerAddress.symm.trans hpeerAddress)
    · exact Option.some.inj (hegress.peerPort.symm.trans hpeerPort)

end Snapshot

end Envoy

end CatalystRouter
