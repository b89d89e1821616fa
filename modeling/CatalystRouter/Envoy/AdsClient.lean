import CatalystRouter.Envoy.ProtoEncoding

namespace CatalystRouter

open Protobuf (Bytes Encodable FieldType Message MessageType Value fields values_fields)
open ProtoEncoding

/-! ### What an Envoy reads -/

namespace AdsClient

def only? {α : Type*} : List α → Option α
  | [entry] => some entry
  | _ => none

def readAny (message : Message) : Any where
  typeUrl := message.text "type_url"
  value := message.data "value"

/-- The message that is packed as one of the type. -/
def unpack (any : Any) (typeUrl : String) (type : MessageType) : Option Message :=
  if any.typeUrl = typeUrl then Protobuf.decode protoRoot type.name any.value else none

def readDuration (message : Message) : Int × Int := (message.number "seconds", message.number "nanos")

def readAddress (message : Message) : Option (String × Int) := do
  let address ← message.message? "address"
  let socketAddress ← address.message? "socket_address"
  return (socketAddress.text "address", socketAddress.number "port_value")

def readCodecType (message : Message) : Option (Option CodecType) :=
  match message.number "codec_type" with
  | 0 => some none
  | 1 => some (some .http1)
  | 2 => some (some .http2)
  | _ => none

def readRouteAction (message : Message) : XdsRouteAction where
  cluster := message.text "cluster"
  timeout := (message.message? "timeout").map readDuration

/-- The virtual host that takes every domain, with the route that takes every path. -/
def readRouteConfig (message : Message) : Option (String × XdsRouteAction) := do
  let virtualHost ← only? (message.messages "virtual_hosts")
  let route ← only? (virtualHost.messages "routes")
  let routeMatch ← route.message? "match"
  let action ← route.message? "route"
  if virtualHost.texts "domains" = ["*"] ∧ routeMatch.text "prefix" = "/" then
    return (virtualHost.text "name", readRouteAction action)
  else none

/-- The one filter hands requests to the router. -/
def readHttpFilters (message : Message) : Option Unit := do
  let filter ← only? (message.messages "http_filters")
  let config ← filter.message? "typed_config"
  let _ ← unpack (readAny config) routerTypeUrl routerType
  if filter.text "name" = "envoy.filters.http.router" then return () else none

def readHttpConnectionManager (message : Message) : Option XdsFilter := do
  let codecType ← readCodecType message
  let routeConfig ← message.message? "route_config"
  let (virtualHost, route) ← readRouteConfig routeConfig
  let _ ← readHttpFilters message
  return .httpConnectionManager (message.text "stat_prefix") codecType
    ((message.messages "upgrade_configs").map fun config => config.text "upgrade_type") virtualHost route

def readFilter (message : Message) : Option XdsFilter := do
  let config ← message.message? "typed_config"
  match message.text "name" with
  | "envoy.filters.network.http_connection_manager" =>
    let message ← unpack (readAny config) hcmTypeUrl httpConnectionManagerType
    readHttpConnectionManager message
  | "envoy.filters.network.tcp_proxy" =>
    let message ← unpack (readAny config) tcpProxyTypeUrl tcpProxyType
    return .tcpProxy (message.text "stat_prefix") (message.text "cluster")
  | _ => none

def readListener (any : Any) : Option XdsListener := do
  let message ← unpack any listenerTypeUrl listenerType
  let (address, portValue) ← readAddress message
  let filterChain ← only? (message.messages "filter_chains")
  let filter ← only? (filterChain.messages "filters")
  let filter ← readFilter filter
  return { name := message.text "name", address, portValue, filter }

def readClusterType (message : Message) : Option ClusterType :=
  match message.number "type" with
  | 0 => some .static
  | 1 => some .strictDns
  | _ => none

def readLbPolicy (message : Message) : Option String :=
  match message.number "lb_policy" with
  | 0 => some "ROUND_ROBIN"
  | 1 => some "LEAST_REQUEST"
  | 2 => some "RING_HASH"
  | 3 => some "RANDOM"
  | 5 => some "MAGLEV"
  | _ => none

def readLoadAssignment (message : Message) : Option (String × String × Int) := do
  let assignment ← message.message? "load_assignment"
  let locality ← only? (assignment.messages "endpoints")
  let lbEndpoint ← only? (locality.messages "lb_endpoints")
  let endpoint ← lbEndpoint.message? "endpoint"
  let address ← readAddress endpoint
  return (assignment.text "cluster_name", address)

def readUpstreamHttp2 (message : Message) : Option Bool :=
  match message.messages "typed_extension_protocol_options" with
  | [] => some false
  | [entry] => do
    let value ← entry.message? "value"
    let options ← unpack (readAny value) httpProtocolOptionsTypeUrl httpProtocolOptionsType
    let config ← options.message? "explicit_http_config"
    let _ ← config.message? "http2_protocol_options"
    if entry.text "key" = httpProtocolOptionsType.name then return true else none
  | _ => none

/-- A timeout of whole seconds, as the builders write it. -/
def readTimeout (message : Message) : Option String := do
  let timeout ← message.message? "connect_timeout"
  if timeout.number "nanos" = 0 then return toString (timeout.number "seconds").toNat ++ "s" else none

def readCluster (any : Any) : Option XdsCluster := do
  let message ← unpack any clusterTypeUrl clusterType
  let type ← readClusterType message
  let connectTimeout ← readTimeout message
  let lbPolicy ← readLbPolicy message
  let upstreamHttp2 ← readUpstreamHttp2 message
  let (clusterName, endpoint) ← readLoadAssignment message
  let family := message.number "dns_lookup_family"
  if clusterName = message.text "name" then
    return { name := clusterName, type, connectTimeout, lbPolicy,
             dnsLookupFamily := if family = 0 then none else some family, upstreamHttp2, endpoint }
  else none

def readResources (typeUrl : String) (anys : List Any) : Option XdsResources :=
  if typeUrl = clusterTypeUrl then (anys.mapM readCluster).map .clusters
  else if typeUrl = listenerTypeUrl then (anys.mapM readListener).map .listeners
  else none

def readNonce (text : String) : Option Nat :=
  match Json.readNatural text.toList with
  | some (nonce, []) => some nonce
  | _ => none

def readDiscoveryResponse (buffer : Bytes) : Option DiscoveryResponse := do
  let message ← Protobuf.decode protoRoot discoveryResponseType.name buffer
  let nonce ← readNonce (message.text "nonce")
  let resources ← readResources (message.text "type_url") ((message.messages "resources").map readAny)
  return { versionInfo := message.text "version_info", resources, typeUrl := message.text "type_url", nonce }

end AdsClient

/-! ### What loses nothing -/

def XdsFilter.Fits : XdsFilter → Prop
  | .httpConnectionManager _ codecType _ _ route =>
    codecType ≠ some .auto ∧ ∀ timeout ∈ route.timeout, DurationFits timeout
  | .tcpProxy _ _ => True

/-- The listener is in the form that the builders give it, and its numbers fit their fields. -/
structure XdsListener.Fits (listener : XdsListener) : Prop where
  port : FieldType.uint32.holds listener.portValue = true
  filter : listener.filter.Fits

structure XdsCluster.Fits (cluster : XdsCluster) : Prop where
  port : FieldType.uint32.holds cluster.endpoint.2 = true
  timeout : ∃ seconds < 2 ^ 53, cluster.connectTimeout = toString seconds ++ "s"
  lbPolicy : cluster.lbPolicy ∈ ["ROUND_ROBIN", "LEAST_REQUEST", "RING_HASH", "RANDOM", "MAGLEV"]
  family : ∀ family ∈ cluster.dnsLookupFamily, family ≠ 0 ∧ FieldType.int32.holds family = true

/-- A timeout of whole seconds fits its field. -/
theorem XdsCluster.Fits.durationFits {cluster : XdsCluster} (h : cluster.Fits) :
    DurationFits (ProtoEncoding.parseDuration cluster.connectTimeout) := by
  obtain ⟨seconds, hseconds, htimeout⟩ := h.timeout
  rw [htimeout, parseDuration_seconds]
  constructor
  · simp only [FieldType.holds, Bool.and_eq_true, decide_eq_true_eq]
    omega
  · rfl

/-- The resources are of the type that the response is about, and fit. -/
inductive DiscoveryResponse.Fits : DiscoveryResponse → Prop where
  | clusters (versionInfo : String) (nonce : Nat) (clusters : List XdsCluster) (h : ∀ cluster ∈ clusters, cluster.Fits) :
      Fits ⟨versionInfo, .clusters clusters, clusterTypeUrl, nonce⟩
  | listeners (versionInfo : String) (nonce : Nat) (listeners : List XdsListener)
      (h : ∀ listener ∈ listeners, listener.Fits) : Fits ⟨versionInfo, .listeners listeners, listenerTypeUrl, nonce⟩

namespace AdsClient

/-! ### Reading what was written -/

/-- An `Any` is read back. -/
theorem readAny_toValue (any : Any) :
    readAny (fields [("type_url", [.string any.typeUrl]), ("value", [.bytes any.value])]) = any := by
  simp [readAny, Message.text, Message.data, values_fields]

/-- A duration is read back. -/
theorem readDuration_value (duration : Int × Int) :
    readDuration (fields [("seconds", [.int duration.1]), ("nanos", [.int duration.2])]) = duration := by
  simp [readDuration, Message.number, values_fields]

/-- A route configuration is read back. -/
theorem readRouteConfig_message (virtualHost : String) (route : XdsRouteAction) :
    readRouteConfig (routeConfigMessage virtualHost route) = some (virtualHost, route) := by
  obtain ⟨cluster, timeout⟩ := route
  have haction : readRouteAction (routeActionMessage ⟨cluster, timeout⟩) = ⟨cluster, timeout⟩ := by
    cases timeout with
    | none => simp [readRouteAction, routeActionMessage, Message.text, Message.message?, Message.messages, values_fields]
    | some timeout =>
      simp [readRouteAction, routeActionMessage, Message.text, Message.message?, Message.messages, values_fields,
        durationValue, readDuration_value]
  simp [readRouteConfig, routeConfigMessage, Message.messages, Message.message?, Message.text, Message.texts, values_fields,
    only?, haction]

/-- A nonce is read back from its text. -/
theorem readNonce_toString (nonce : Nat) : readNonce (toString nonce) = some nonce := by
  have hread := @Json.readNatural_toDigits nonce [] fun _ hc => (nomatch hc)
  rw [List.append_nil] at hread
  simp [readNonce, hread]

/-- Resources that are read back one by one are read back as a list. -/
theorem mapM_encode {α : Type*} {encode : α → Any} {read : Any → Option α} (resources : List α)
    (h : ∀ resource ∈ resources, read (encode resource) = some resource) :
    (resources.map encode).mapM read = some resources := by
  induction resources with
  | nil => rfl
  | cons resource rest ih =>
    obtain ⟨hresource, hrest⟩ := List.forall_mem_cons.mp h
    simp [List.mapM_cons, hresource, ih hrest]

/-! A cluster is read field by field. -/

/-- The type of a cluster is read back. -/
theorem readClusterType_message (proto : ProtobufRuntime) (cluster : XdsCluster) :
    readClusterType (clusterMessage proto cluster) = some cluster.type := by
  cases htype : cluster.type <;>
    simp [readClusterType, clusterMessage, Message.number, values_fields, htype, clusterTypeNumber]

/-- The timeout of a cluster is read back. -/
theorem readTimeout_message (proto : ProtobufRuntime) {cluster : XdsCluster} (h : cluster.Fits) :
    readTimeout (clusterMessage proto cluster) = some cluster.connectTimeout := by
  obtain ⟨seconds, -, htimeout⟩ := h.timeout
  have hduration : ProtoEncoding.parseDuration cluster.connectTimeout = ((seconds : Int), 0) := by
    rw [htimeout, parseDuration_seconds]
  have hread : readTimeout (clusterMessage proto cluster) = some (toString seconds ++ "s") := by
    simp [readTimeout, clusterMessage, Message.message?, Message.messages, Message.number, values_fields, durationValue,
      hduration]
  rw [hread, htimeout]

/-- The policy of a cluster is read back. -/
theorem readLbPolicy_message (proto : ProtobufRuntime) {cluster : XdsCluster} (h : cluster.Fits) :
    readLbPolicy (clusterMessage proto cluster) = some cluster.lbPolicy := by
  have hnumber : (clusterMessage proto cluster).number "lb_policy" = lbPolicy cluster.lbPolicy := by
    simp [clusterMessage, Message.number, values_fields]
  have hmem := h.lbPolicy
  unfold readLbPolicy
  rw [hnumber]
  simp only [List.mem_cons, List.not_mem_nil, or_false] at hmem
  rcases hmem with hpolicy | hpolicy | hpolicy | hpolicy | hpolicy <;> rw [hpolicy] <;> rfl

/-- The name and the endpoint of a cluster are read back. -/
theorem readLoadAssignment_message (proto : ProtobufRuntime) (cluster : XdsCluster) :
    readLoadAssignment (clusterMessage proto cluster) = some (cluster.name, cluster.endpoint) := by
  simp [readLoadAssignment, clusterMessage, loadAssignmentMessage, Message.messages, Message.message?, Message.text,
    Message.number, values_fields, only?, readAddress, addressValue]

section RoundTrip

variable {proto : ProtobufRuntime} (hproto : proto.Conforms)

include hproto

/-- A message is unpacked from the `Any` that it was packed in. -/
theorem unpack_encodeAsAny {type : MessageType} {message : Message}
    (h : Encodable protoRoot (.message type.name) (.message message)) (typeUrl : String) :
    unpack (encodeAsAny proto type typeUrl message) typeUrl type = some message := by
  rw [unpack, if_pos (show (encodeAsAny proto type typeUrl message).typeUrl = typeUrl from rfl)]
  exact hproto.encodes _ _ _ protoRoot_valid h

theorem readHttpConnectionManager_message {codecType : Option CodecType} (hcodec : codecType ≠ some .auto)
    (statPrefix : String) (upgradeConfigs : List String) (virtualHost : String) (route : XdsRouteAction) :
    readHttpConnectionManager (hcmMessage proto statPrefix codecType upgradeConfigs virtualHost route) =
      some (.httpConnectionManager statPrefix codecType upgradeConfigs virtualHost route) := by
  have hrouter : unpack (routerAny proto) routerTypeUrl routerType = some [] :=
    unpack_encodeAsAny hproto (encodable_empty (by simp [protoRoot]) rfl) routerTypeUrl
  have hfilters : readHttpFilters (hcmMessage proto statPrefix codecType upgradeConfigs virtualHost route) = some () := by
    simp [readHttpFilters, hcmMessage, Message.messages, Message.message?, Message.text, values_fields, only?,
      Any.toValue, readAny_toValue, hrouter]
  have hcodecType : readCodecType (hcmMessage proto statPrefix codecType upgradeConfigs virtualHost route) =
      some codecType := by
    cases codecType with
    | none => simp [readCodecType, hcmMessage, Message.number, values_fields]
    | some codec =>
      cases codec with
      | auto => exact absurd rfl hcodec
      | http1 | http2 => simp [readCodecType, hcmMessage, Message.number, values_fields, codecTypeMap]
  unfold readHttpConnectionManager
  rw [hfilters, hcodecType]
  simp [hcmMessage, Message.messages, Message.message?, Message.text, values_fields, readRouteConfig_message,
    Function.comp_def]

/-- A listener that fits is read back from its `Any`. -/
theorem readListener_encode {listener : XdsListener} (h : listener.Fits) :
    readListener (encodeXdsListener proto listener) = some listener := by
  obtain ⟨name, address, portValue, filter⟩ := listener
  have hread (filterName : String) (config : Any)
      (hfilter : readFilter (fields [("name", [.string filterName]), ("typed_config", [config.toValue])]) = some filter) :
      readListener (encodeAsAny proto listenerType listenerTypeUrl
        (listenerMessage ⟨name, address, portValue, filter⟩ filterName config)) = some ⟨name, address, portValue, filter⟩ := by
    unfold readListener
    rw [unpack_encodeAsAny hproto (encodable_listener h.port filterName config)]
    simp [listenerMessage, readAddress, addressValue, Message.messages, Message.message?, Message.text, Message.number,
      values_fields, only?, hfilter]
  cases filter with
  | httpConnectionManager statPrefix codecType upgradeConfigs virtualHost route =>
    obtain ⟨hcodec, htimeout⟩ := h.filter
    refine hread _ _ ?_
    have hunpack := unpack_encodeAsAny hproto
      (encodable_hcm proto statPrefix codecType upgradeConfigs virtualHost htimeout) hcmTypeUrl
    simp [readFilter, Message.messages, Message.message?, Message.text, values_fields, Any.toValue, readAny_toValue,
      hunpack, readHttpConnectionManager_message hproto hcodec]
  | tcpProxy statPrefix cluster =>
    refine hread _ _ ?_
    have hencodable : Encodable protoRoot (.message tcpProxyType.name)
        (.message (fields [("stat_prefix", [.string statPrefix]), ("cluster", [.string cluster])])) :=
      encodable_message (by simp [protoRoot]) rfl (by simp [tcpProxyType])
    have hunpack := unpack_encodeAsAny hproto hencodable tcpProxyTypeUrl
    simp [readFilter, Message.messages, Message.message?, Message.text, values_fields, Any.toValue, readAny_toValue,
      hunpack]

/-- Whether a cluster speaks HTTP/2 is read back. -/
theorem readUpstreamHttp2_message (cluster : XdsCluster) :
    readUpstreamHttp2 (clusterMessage proto cluster) = some cluster.upstreamHttp2 := by
  have hoptions : unpack (http2Options proto) httpProtocolOptionsTypeUrl httpProtocolOptionsType =
      some (fields [("explicit_http_config", [.message (fields [("http2_protocol_options", [.message []])])])]) :=
    unpack_encodeAsAny hproto encodable_http2Options httpProtocolOptionsTypeUrl
  have hkey : httpProtocolOptionsType.name = "envoy.extensions.upstreams.http.v3.HttpProtocolOptions" := rfl
  cases hhttp2 : cluster.upstreamHttp2 with
  | false => simp [readUpstreamHttp2, clusterMessage, Message.messages, values_fields, hhttp2]
  | true =>
    simp [readUpstreamHttp2, clusterMessage, Message.messages, Message.message?, Message.text, values_fields, hhttp2,
      Any.toValue, readAny_toValue, hoptions, hkey]

/-- A cluster that fits is read back from its `Any`. -/
theorem readCluster_encode {cluster : XdsCluster} (h : cluster.Fits) :
    readCluster (encodeCluster proto cluster) = some cluster := by
  have hfamily : FieldType.int32.holds (cluster.dnsLookupFamily.getD 0) = true := by
    cases hfamily : cluster.dnsLookupFamily with
    | none => rfl
    | some family => exact (h.family family hfamily).2
  have hunpack : unpack (encodeCluster proto cluster) clusterTypeUrl clusterType = some (clusterMessage proto cluster) :=
    unpack_encodeAsAny hproto (encodable_cluster proto h.port h.durationFits hfamily) clusterTypeUrl
  have hname : (clusterMessage proto cluster).text "name" = cluster.name := by
    simp [clusterMessage, Message.text, values_fields]
  have hlookup : (clusterMessage proto cluster).number "dns_lookup_family" = cluster.dnsLookupFamily.getD 0 := by
    simp [clusterMessage, Message.number, values_fields]
  have hfamilyRead : (if cluster.dnsLookupFamily.getD 0 = 0 then none else some (cluster.dnsLookupFamily.getD 0)) =
      cluster.dnsLookupFamily := by
    cases hfamily : cluster.dnsLookupFamily with
    | none => rfl
    | some family => exact if_neg (h.family family hfamily).1
  simp only [readCluster, hunpack, readClusterType_message, readTimeout_message proto h, readLbPolicy_message proto h,
    readUpstreamHttp2_message hproto, readLoadAssignment_message, hname, hlookup, hfamilyRead, bind, Option.bind,
    ↓reduceIte, pure]

/-- What is written of a response reads back as the response, resource by resource. -/
theorem readDiscoveryResponse_encode {response : DiscoveryResponse} (h : response.Fits) :
    readDiscoveryResponse (encodeDiscoveryResponse proto response) = some response := by
  have hresources : readResources response.typeUrl (encodeResources proto response.resources) =
      some response.resources := by
    cases h with
    | clusters _ _ clusters hfits =>
      have hread := mapM_encode clusters fun cluster hcluster => readCluster_encode hproto (hfits cluster hcluster)
      simp only [readResources, encodeResources, ↓reduceIte, hread, Option.map_some]
    | listeners _ _ listeners hfits =>
      have hread := mapM_encode listeners fun listener hlistener => readListener_encode hproto (hfits listener hlistener)
      have hother : listenerTypeUrl ≠ clusterTypeUrl := by decide
      simp only [readResources, encodeResources, ↓reduceIte, hother, hread, Option.map_some]
  have hencodable : Encodable protoRoot (.message discoveryResponseType.name)
      (.message (discoveryResponseMessage proto response)) :=
    encodable_message (by simp [protoRoot]) rfl (by simp [discoveryResponseType, encodable_any])
  have hanys : ((discoveryResponseMessage proto response).messages "resources").map readAny =
      encodeResources proto response.resources := by
    have hany (any : Any) : any.toValue =
        .message (fields [("type_url", [.string any.typeUrl]), ("value", [.bytes any.value])]) := rfl
    simp [discoveryResponseMessage, Message.messages, values_fields, hany, readAny_toValue, Function.comp_def]
  have hversion : (discoveryResponseMessage proto response).text "version_info" = response.versionInfo := by
    simp [discoveryResponseMessage, Message.text, values_fields]
  have htype : (discoveryResponseMessage proto response).text "type_url" = response.typeUrl := by
    simp [discoveryResponseMessage, Message.text, values_fields]
  have hnonce : (discoveryResponseMessage proto response).text "nonce" = toString response.nonce := by
    simp [discoveryResponseMessage, Message.text, values_fields]
  unfold readDiscoveryResponse encodeDiscoveryResponse
  rw [hproto.encodes _ _ _ protoRoot_valid hencodable]
  simp only [bind, Option.bind, hnonce, readNonce_toString, hanys, htype, hresources, hversion, pure]

end RoundTrip

/-- A gRPC service behind a host name. -/
theorem readDiscoveryResponse_encode_books :
    readDiscoveryResponse (encodeDiscoveryResponse wireFormat ⟨"1", .clusters [
        { name := "local_books", type := .strictDns, connectTimeout := "5s", lbPolicy := "ROUND_ROBIN",
          dnsLookupFamily := some 1, upstreamHttp2 := true, endpoint := ("books.local", 8080) }], clusterTypeUrl, 1⟩) =
      some ⟨"1", .clusters [
        { name := "local_books", type := .strictDns, connectTimeout := "5s", lbPolicy := "ROUND_ROBIN",
          dnsLookupFamily := some 1, upstreamHttp2 := true, endpoint := ("books.local", 8080) }], clusterTypeUrl, 1⟩ := by
  refine readDiscoveryResponse_encode wireFormat_conforms (.clusters _ _ _ fun cluster hcluster => ?_)
  obtain rfl := List.mem_singleton.mp hcluster
  exact ⟨rfl, ⟨5, by decide, rfl⟩, by simp, by simp [FieldType.holds]⟩

end AdsClient

/-! ### What the builders build -/

/-- The port numbers that a snapshot is built from fit 32 bits. -/
structure Envoy.BuildXdsSnapshotInput.PortsFit (runtime : XdsRuntime) (input : BuildXdsSnapshotInput) : Prop where
  allocations : ∀ entry ∈ input.portAllocations, FieldType.uint32.holds entry.2 = true
  endpoints : ∀ route ∈ input.localRoutes, ∀ endpoint ∈ route.endpoint, ∀ address port,
    parseEndpointUrl runtime endpoint = .ok (address, port) → FieldType.uint32.holds port = true
  peers : ∀ route ∈ input.internalRoutes, ∀ port ∈ route.envoyPort, FieldType.uint32.holds port = true

namespace Envoy

variable {runtime : XdsRuntime} {input : BuildXdsSnapshotInput} {snapshot : XdsSnapshot}

/-- The listeners that are built fit, if their port does. -/
theorem buildListener_fits (name clusterName bindAddress : String) {port : Int} (hport : FieldType.uint32.holds port = true)
    (protocol : DataChannelProtocol) : (buildListener name clusterName bindAddress port protocol).Fits := by
  refine ⟨hport, ?_⟩
  unfold buildListener
  dsimp only
  split
  · trivial
  · refine ⟨by cases protocol <;> simp [getListenerOptions], fun timeout htimeout => ?_⟩
    simp only [Option.mem_def, Option.ite_none_right_eq_some, Option.some.injEq] at htimeout
    obtain ⟨-, rfl⟩ := htimeout
    exact ⟨rfl, rfl⟩

/-- So do the clusters. -/
theorem buildCluster_fits (runtime : XdsRuntime) (name address : String) {port : Int}
    (hport : FieldType.uint32.holds port = true) (protocol : DataChannelProtocol) :
    (buildCluster runtime name address port protocol).Fits := by
  refine ⟨hport, ⟨5, by decide, rfl⟩, by simp [buildCluster], fun family hfamily => ?_⟩
  simp only [buildCluster, Option.mem_def, Option.ite_none_right_eq_some, Option.some.injEq] at hfamily
  obtain ⟨-, rfl⟩ := hfamily
  decide

/-- Where all ports fit, so does an allocated one. -/
theorem portOf_fits (h : input.PortsFit runtime) {key : String} {port : Int} (hport : input.portOf key = some port) :
    FieldType.uint32.holds port = true := by
  obtain ⟨before, after, hsplit, -⟩ := List.lookup_eq_some_iff.mp (portOf_eq_some_iff.mp hport).1
  exact h.allocations (key, port) (by simp [hsplit])

/-- Everything that is built can be written. -/
theorem buildXdsSnapshot_fits (h : input.PortsFit runtime) (hbuilt : buildXdsSnapshot runtime input = .ok snapshot) :
    (∀ listener ∈ snapshot.listeners, listener.Fits) ∧ ∀ cluster ∈ snapshot.clusters, cluster.Fits := by
  obtain ⟨resources, hlisteners, hclusters, hmem⟩ := mem_buildXdsSnapshot hbuilt
  have hfits (resource : XdsListener × XdsCluster) (hresource : resource ∈ resources) :
      resource.1.Fits ∧ resource.2.Fits := by
    obtain ⟨route, hroute, hok⟩ | ⟨route, hroute, hok⟩ := (hmem resource).mp hresource
    · unfold localResources at hok
      split at hok
      case h_2 => cases hok
      case h_1 endpoint allocatedPort hendpoint hallocated =>
        obtain ⟨⟨address, port⟩, hurl, hresources⟩ := bind_eq_ok_iff.mp hok
        cases hresources
        have hport := h.endpoints route hroute endpoint (nonEmpty_eq_some_iff.mp hendpoint).1 address port hurl
        exact ⟨buildListener_fits _ _ _ (portOf_fits h hallocated) _, buildCluster_fits _ _ _ hport _⟩
    · simp only [remoteResources, bind, Option.bind_eq_some_iff, pure, Option.some.injEq] at hok
      obtain ⟨peerPort, hpeerPort, peerAddress, -, egressPort, hegressPort, rfl⟩ := hok
      have hport := h.peers route hroute peerPort (nonZero_eq_some_iff.mp hpeerPort).1
      exact ⟨buildListener_fits _ _ _ (portOf_fits h hegressPort) _, buildCluster_fits _ _ _ hport _⟩
  rw [hlisteners, hclusters]
  constructor
  · intro listener hlistener
    obtain ⟨resource, hresource, rfl⟩ := List.mem_map.mp hlistener
    exact (hfits resource hresource).1
  · intro cluster hcluster
    obtain ⟨resource, hresource, rfl⟩ := List.mem_map.mp hcluster
    exact (hfits resource hresource).2

end Envoy

/-! ### Requests -/

namespace AdsClient

/-- Writers may leave out a text that is empty. -/
inductive WritesText : String → List Value → Prop where
  | written (value : String) : WritesText value [.string value]
  | omitted : WritesText "" []

inductive WritesStatus : Option (Int × String) → List Value → Prop where
  | absent : WritesStatus none []
  | failed (code : Int) (message : String) (codes messages : List Value) (hcode : FieldType.int32.holds code = true)
      (hcodes : codes = [.int code] ∨ code = 0 ∧ codes = []) (hmessages : WritesText message messages) :
      WritesStatus (some (code, message)) [.message (fields [("code", codes), ("message", messages)])]

/-- What it writes is read back, an empty text also where it is left out. -/
theorem WritesText.text {value : String} {values : List Value} (h : WritesText value values) {message : Message}
    {name : String} (hvalues : message.values name = values) : message.text name = value := by
  cases h <;> simp [Message.text, hvalues]

/-- An error that a client writes is read back. -/
theorem WritesStatus.read {detail : Option (Int × String)} {details : List Value} (h : WritesStatus detail details)
    {message : Message} {name : String} (hvalues : message.values name = details) :
    (message.message? name).map (fun status => (status.number "code", status.text "message")) = detail := by
  cases h with
  | absent => simp [Message.message?, Message.messages, hvalues]
  | failed code text codes messages hcode hcodes hmessages =>
    have htext := @WritesText.text _ _ hmessages (fields [("code", codes), ("message", messages)]) "message"
      (by simp [values_fields])
    have hnumber : Message.number (fields [("code", codes), ("message", messages)]) "code" = code := by
      rcases hcodes with rfl | ⟨rfl, rfl⟩ <;> simp [Message.number, values_fields]
    simp [Message.message?, Message.messages, hvalues, htext, hnumber]

end AdsClient

end CatalystRouter
