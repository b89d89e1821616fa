import CatalystRouter.Envoy.ControlPlane
import CatalystRouter.Library.Json
import CatalystRouter.Library.Protobuf

namespace CatalystRouter

open Protobuf (Bytes Encodable FieldType Message MessageType Root Value encodable_fields encodable_int fields)

/-- What the control plane takes from its protobuf package. -/
structure ProtobufRuntime where
  encode : Root → String → Message → Bytes
  decode : Root → String → Bytes → Option Message

/-- The package keeps to the wire format: what it writes for a message of the schema reads back,
    and it reads what a reader of the format does. -/
structure ProtobufRuntime.Conforms (proto : ProtobufRuntime) : Prop where
  encodes : ∀ root name message, root.Valid → Encodable root (.message name) (.message message) →
    Protobuf.decode root name (proto.encode root name message) = some message
  decodes : ∀ root name bytes message, root.Valid → Protobuf.decode root name bytes = some message →
    proto.decode root name bytes = some message

/-- The wire format itself. -/
def wireFormat : ProtobufRuntime where
  encode root name message := (Protobuf.encode root name message).getD []
  decode := Protobuf.decode

/-- The wire format of the library is one that the service may run with. -/
theorem wireFormat_conforms : wireFormat.Conforms where
  encodes root name message hroot hencodable := by
    obtain ⟨bytes, hbytes⟩ := hencodable.exists_encode
    simpa [wireFormat, hbytes] using Protobuf.decode_encode hroot hbytes
  decodes _ _ _ _ _ h := h

namespace ProtoEncoding

/-! ### The schema -/

def anyType : MessageType where
  name := "google.protobuf.Any"
  fields := [{ name := "type_url", number := 1, type := .string }, { name := "value", number := 2, type := .bytes }]

def durationType : MessageType where
  name := "google.protobuf.Duration"
  fields := [{ name := "seconds", number := 1, type := .int64 }, { name := "nanos", number := 2, type := .int32 }]

def statusType : MessageType where
  name := "google.rpc.Status"
  fields := [{ name := "code", number := 1, type := .int32 }, { name := "message", number := 2, type := .string }]

def socketAddressType : MessageType where
  name := "envoy.config.core.v3.SocketAddress"
  fields :=
    [{ name := "protocol", number := 1, type := .int32 }, { name := "address", number := 2, type := .string },
      { name := "port_value", number := 3, type := .uint32 }]

def addressType : MessageType where
  name := "envoy.config.core.v3.Address"
  fields := [{ name := "socket_address", number := 1, type := .message socketAddressType.name }]

def endpointType : MessageType where
  name := "envoy.config.endpoint.v3.Endpoint"
  fields := [{ name := "address", number := 1, type := .message addressType.name }]

def lbEndpointType : MessageType where
  name := "envoy.config.endpoint.v3.LbEndpoint"
  fields := [{ name := "endpoint", number := 1, type := .message endpointType.name }]

def localityLbEndpointsType : MessageType where
  name := "envoy.config.endpoint.v3.LocalityLbEndpoints"
  fields := [{ name := "lb_endpoints", number := 2, type := .message lbEndpointType.name, repeated := true }]

def clusterLoadAssignmentType : MessageType where
  name := "envoy.config.endpoint.v3.ClusterLoadAssignment"
  fields :=
    [{ name := "cluster_name", number := 1, type := .string },
      { name := "endpoints", number := 2, type := .message localityLbEndpointsType.name, repeated := true }]

def routeActionType : MessageType where
  name := "envoy.config.route.v3.RouteAction"
  fields :=
    [{ name := "cluster", number := 1, type := .string },
      { name := "timeout", number := 24, type := .message durationType.name }]

def routeMatchType : MessageType where
  name := "envoy.config.route.v3.RouteMatch"
  fields := [{ name := "prefix", number := 1, type := .string }]

def routeType : MessageType where
  name := "envoy.config.route.v3.Route"
  fields :=
    [{ name := "match", number := 1, type := .message routeMatchType.name },
      { name := "route", number := 2, type := .message routeActionType.name }]

def virtualHostType : MessageType where
  name := "envoy.config.route.v3.VirtualHost"
  fields :=
    [{ name := "name", number := 1, type := .string },
      { name := "domains", number := 2, type := .string, repeated := true },
      { name := "routes", number := 3, type := .message routeType.name, repeated := true }]

def routeConfigurationType : MessageType where
  name := "envoy.config.route.v3.RouteConfiguration"
  fields :=
    [{ name := "name", number := 1, type := .string },
      { name := "virtual_hosts", number := 2, type := .message virtualHostType.name, repeated := true }]

def routerType : MessageType where
  name := "envoy.extensions.filters.http.router.v3.Router"

def httpFilterType : MessageType where
  name := "envoy.extensions.filters.network.http_connection_manager.v3.HttpFilter"
  fields :=
    [{ name := "name", number := 1, type := .string },
      { name := "typed_config", number := 4, type := .message anyType.name }]

def upgradeConfigType : MessageType where
  name := "envoy.extensions.filters.network.http_connection_manager.v3.UpgradeConfig"
  fields := [{ name := "upgrade_type", number := 1, type := .string }]

def httpConnectionManagerType : MessageType where
  name := "envoy.extensions.filters.network.http_connection_manager.v3.HttpConnectionManager"
  fields :=
    [{ name := "codec_type", number := 1, type := .int32 }, { name := "stat_prefix", number := 2, type := .string },
      { name := "route_config", number := 4, type := .message routeConfigurationType.name },
      { name := "http_filters", number := 5, type := .message httpFilterType.name, repeated := true },
      { name := "upgrade_configs", number := 23, type := .message upgradeConfigType.name, repeated := true }]

def tcpProxyType : MessageType where
  name := "envoy.extensions.filters.network.tcp_proxy.v3.TcpProxy"
  fields := [{ name := "stat_prefix", number := 1, type := .string }, { name := "cluster", number := 2, type := .string }]

def filterType : MessageType where
  name := "envoy.config.listener.v3.Filter"
  fields :=
    [{ name := "name", number := 1, type := .string },
      { name := "typed_config", number := 4, type := .message anyType.name }]

def filterChainType : MessageType where
  name := "envoy.config.listener.v3.FilterChain"
  fields := [{ name := "filters", number := 3, type := .message filterType.name, repeated := true }]

def listenerType : MessageType where
  name := "envoy.config.listener.v3.Listener"
  fields :=
    [{ name := "name", number := 1, type := .string },
      { name := "address", number := 2, type := .message addressType.name },
      { name := "filter_chains", number := 3, type := .message filterChainType.name, repeated := true }]

def http2ProtocolOptionsType : MessageType where
  name := "envoy.config.core.v3.Http2ProtocolOptions"

def explicitHttpConfigType : MessageType where
  name := "envoy.extensions.upstreams.http.v3.HttpProtocolOptions.ExplicitHttpConfig"
  fields := [{ name := "http2_protocol_options", number := 2, type := .message http2ProtocolOptionsType.name }]

def httpProtocolOptionsType : MessageType where
  name := "envoy.extensions.upstreams.http.v3.HttpProtocolOptions"
  fields := [{ name := "explicit_http_config", number := 3, type := .message explicitHttpConfigType.name }]

/-- The entries of the map field of a cluster. -/
def protocolOptionsEntryType : MessageType where
  name := "envoy.config.cluster.v3.Cluster.TypedExtensionProtocolOptionsEntry"
  fields :=
    [{ name := "key", number := 1, type := .string }, { name := "value", number := 2, type := .message anyType.name }]

def clusterType : MessageType where
  name := "envoy.config.cluster.v3.Cluster"
  fields :=
    [{ name := "name", number := 1, type := .string }, { name := "type", number := 2, type := .int32 },
      { name := "connect_timeout", number := 4, type := .message durationType.name },
      { name := "lb_policy", number := 6, type := .int32 }, { name := "dns_lookup_family", number := 17, type := .int32 },
      { name := "load_assignment", number := 33, type := .message clusterLoadAssignmentType.name },
      { name := "typed_extension_protocol_options", number := 36, type := .message protocolOptionsEntryType.name,
        repeated := true }]

def discoveryRequestType : MessageType where
  name := "envoy.service.discovery.v3.DiscoveryRequest"
  fields :=
    [{ name := "version_info", number := 1, type := .string },
      { name := "resource_names", number := 3, type := .string, repeated := true },
      { name := "type_url", number := 4, type := .string }, { name := "response_nonce", number := 5, type := .string },
      { name := "error_detail", number := 6, type := .message statusType.name }]

def discoveryResponseType : MessageType where
  name := "envoy.service.discovery.v3.DiscoveryResponse"
  fields :=
    [{ name := "version_info", number := 1, type := .string },
      { name := "resources", number := 2, type := .message anyType.name, repeated := true },
      { name := "type_url", number := 4, type := .string }, { name := "nonce", number := 5, type := .string }]

/-- `getProtoRoot`. -/
def protoRoot : Root :=
  [anyType, durationType, statusType, socketAddressType, addressType, endpointType, lbEndpointType,
    localityLbEndpointsType, clusterLoadAssignmentType, routeActionType, routeMatchType, routeType, virtualHostType,
    routeConfigurationType, routerType, httpFilterType, upgradeConfigType, httpConnectionManagerType, tcpProxyType,
    filterType, filterChainType, listenerType, http2ProtocolOptionsType, explicitHttpConfigType,
    httpProtocolOptionsType, protocolOptionsEntryType, clusterType, discoveryRequestType, discoveryResponseType]

/-! ### Encoding -/

def hcmTypeUrl : String :=
  "type.googleapis.com/envoy.extensions.filters.network.http_connection_manager.v3.HttpConnectionManager"

def routerTypeUrl : String := "type.googleapis.com/envoy.extensions.filters.http.router.v3.Router"

def tcpProxyTypeUrl : String := "type.googleapis.com/envoy.extensions.filters.network.tcp_proxy.v3.TcpProxy"

def httpProtocolOptionsTypeUrl : String := "type.googleapis.com/envoy.extensions.upstreams.http.v3.HttpProtocolOptions"

/-- `CLUSTER_TYPE`. -/
def clusterTypeNumber : ClusterType → Int
  | .static => 0
  | .strictDns => 1

def codecTypeMap : CodecType → Int
  | .auto => 0
  | .http1 => 1
  | .http2 => 2

/-- `LB_POLICY`, and 0 for any other text. -/
def lbPolicy (name : String) : Int :=
  match name with
  | "ROUND_ROBIN" => 0
  | "LEAST_REQUEST" => 1
  | "RING_HASH" => 2
  | "RANDOM" => 3
  | "MAGLEV" => 5
  | _ => 0

/-- `\d+(?:\.\d+)?`, as the digits without the point and the number of those after it. -/
def readDecimal (text : List Char) : Option (Nat × Nat) :=
  let whole := text.takeWhile Char.isDigit
  match whole, text.dropWhile Char.isDigit with
  | [], _ => none
  | _, [] => some (Nat.ofDigitChars 10 whole 0, 0)
  | _, '.' :: decimals =>
    if decimals ≠ [] ∧ decimals.all Char.isDigit then
      some (Nat.ofDigitChars 10 (whole ++ decimals) 0, decimals.length)
    else none
  | _, _ => none

/-- `digits` units of a second divided by ten to the power of `decimals`, of which `perSecond`
    make a second; the nanoseconds are rounded half up. -/
def toDuration (digits decimals perSecond : Nat) : Int × Int :=
  let scale := perSecond * 10 ^ decimals
  ((digits / scale : Nat), ((digits % scale * 10 ^ 9 * 2 + scale) / (scale * 2) : Nat))

/-- `parseDuration`, on exact decimals, which a double holds below 2 ^ 53. -/
def parseDuration (value : String) : Int × Int :=
  match value.toList.reverse with
  | 's' :: 'm' :: text =>
    match readDecimal text.reverse with
    | some (digits, decimals) => toDuration digits decimals 1000
    | none => (5, 0)
  | 's' :: text =>
    match readDecimal text.reverse with
    | some (digits, decimals) => toDuration digits decimals 1
    | none => (5, 0)
  | _ => (5, 0)

/-- A `google.protobuf.Any`. -/
structure Any where
  typeUrl : String
  value : Bytes
  deriving DecidableEq, Repr

def Any.toValue (any : Any) : Value :=
  .message (fields [("type_url", [.string any.typeUrl]), ("value", [.bytes any.value])])

def durationValue (duration : Int × Int) : Value :=
  .message (fields [("seconds", [.int duration.1]), ("nanos", [.int duration.2])])

def addressValue (address : String) (port : Int) : Value :=
  .message (fields [("socket_address", [.message (fields [("address", [.string address]), ("port_value", [.int port])])])])

section Encode

variable (proto : ProtobufRuntime)

def encodeAsAny (type : MessageType) (typeUrl : String) (message : Message) : Any :=
  ⟨typeUrl, proto.encode protoRoot type.name message⟩

def listenerMessage (listener : XdsListener) (filterName : String) (config : Any) : Message :=
  fields
    [("name", [.string listener.name]), ("address", [addressValue listener.address listener.portValue]),
      ("filter_chains", [.message (fields [("filters", [.message (fields
        [("name", [.string filterName]), ("typed_config", [config.toValue])])])])])]

def routeActionMessage (route : XdsRouteAction) : Message :=
  fields [("cluster", [.string route.cluster]), ("timeout", route.timeout.toList.map durationValue)]

/-- The one virtual host takes every domain, and its route every path. -/
def routeConfigMessage (virtualHost : String) (route : XdsRouteAction) : Message :=
  fields [("virtual_hosts", [.message (fields
    [("name", [.string virtualHost]), ("domains", [.string "*"]),
      ("routes", [.message (fields
        [("match", [.message (fields [("prefix", [.string "/"])])]), ("route", [.message (routeActionMessage route)])])])])])]

def routerAny : Any := encodeAsAny proto routerType routerTypeUrl []

def hcmMessage (statPrefix : String) (codecType : Option CodecType) (upgradeConfigs : List String) (virtualHost : String)
    (route : XdsRouteAction) : Message :=
  fields
    [("codec_type", codecType.toList.map fun codec => .int (codecTypeMap codec)), ("stat_prefix", [.string statPrefix]),
      ("route_config", [.message (routeConfigMessage virtualHost route)]),
      ("http_filters", [.message (fields
        [("name", [.string "envoy.filters.http.router"]), ("typed_config", [(routerAny proto).toValue])])]),
      ("upgrade_configs", upgradeConfigs.map fun type => .message (fields [("upgrade_type", [.string type])]))]

def encodeListener (listener : XdsListener) (statPrefix : String) (codecType : Option CodecType)
    (upgradeConfigs : List String) (virtualHost : String) (route : XdsRouteAction) : Any :=
  encodeAsAny proto listenerType listenerTypeUrl <|
    listenerMessage listener "envoy.filters.network.http_connection_manager" <|
      encodeAsAny proto httpConnectionManagerType hcmTypeUrl
        (hcmMessage proto statPrefix codecType upgradeConfigs virtualHost route)

def encodeTcpProxyListener (listener : XdsListener) (statPrefix cluster : String) : Any :=
  encodeAsAny proto listenerType listenerTypeUrl <|
    listenerMessage listener "envoy.filters.network.tcp_proxy" <|
      encodeAsAny proto tcpProxyType tcpProxyTypeUrl
        (fields [("stat_prefix", [.string statPrefix]), ("cluster", [.string cluster])])

/-- The listeners of a snapshot, by `isTcpProxyListener`. -/
def encodeXdsListener (listener : XdsListener) : Any :=
  match listener.filter with
  | .httpConnectionManager statPrefix codecType upgradeConfigs virtualHost route =>
    encodeListener proto listener statPrefix codecType upgradeConfigs virtualHost route
  | .tcpProxy statPrefix cluster => encodeTcpProxyListener proto listener statPrefix cluster

/-- HTTP/2 to the endpoint is an option of its own. -/
def http2Options : Any :=
  encodeAsAny proto httpProtocolOptionsType httpProtocolOptionsTypeUrl
    (fields [("explicit_http_config", [.message (fields [("http2_protocol_options", [.message []])])])])

def loadAssignmentMessage (cluster : XdsCluster) : Message :=
  fields
    [("cluster_name", [.string cluster.name]),
      ("endpoints", [.message (fields [("lb_endpoints", [.message (fields [("endpoint", [.message (fields
        [("address", [addressValue cluster.endpoint.1 cluster.endpoint.2])])])])])])])]

def clusterMessage (cluster : XdsCluster) : Message :=
  fields
    [("name", [.string cluster.name]), ("type", [.int (clusterTypeNumber cluster.type)]),
      ("connect_timeout", [durationValue (parseDuration cluster.connectTimeout)]),
      ("lb_policy", [.int (lbPolicy cluster.lbPolicy)]), ("dns_lookup_family", [.int (cluster.dnsLookupFamily.getD 0)]),
      ("load_assignment", [.message (loadAssignmentMessage cluster)]),
      ("typed_extension_protocol_options", if cluster.upstreamHttp2 then
        [.message (fields
          [("key", [.string "envoy.extensions.upstreams.http.v3.HttpProtocolOptions"]),
            ("value", [(http2Options proto).toValue])])]
        else [])]

def encodeCluster (cluster : XdsCluster) : Any :=
  encodeAsAny proto clusterType clusterTypeUrl (clusterMessage proto cluster)

def encodeResources : XdsResources → List Any
  | .clusters clusters => clusters.map (encodeCluster proto)
  | .listeners listeners => listeners.map (encodeXdsListener proto)

def discoveryResponseMessage (response : DiscoveryResponse) : Message :=
  fields
    [("version_info", [.string response.versionInfo]),
      ("resources", (encodeResources proto response.resources).map Any.toValue),
      ("type_url", [.string response.typeUrl]), ("nonce", [.string (toString response.nonce)])]

def encodeDiscoveryResponse (response : DiscoveryResponse) : Bytes :=
  proto.encode protoRoot discoveryResponseType.name (discoveryResponseMessage proto response)

/-- `none` when the package throws. The names of the resources, which the control plane does
    not look at, are left out. -/
def decodeDiscoveryRequest (buffer : Bytes) : Option DiscoveryRequest :=
  (proto.decode protoRoot discoveryRequestType.name buffer).map fun message =>
    { versionInfo := message.text "version_info"
      typeUrl := message.text "type_url"
      responseNonce := message.text "response_nonce"
      errorDetail := (message.message? "error_detail").map fun status => (status.number "code", status.text "message") }

end Encode

/-! ### What has an encoding -/

/-- The schema of the service is valid. -/
theorem protoRoot_valid : protoRoot.Valid := by decide

/-- The types of the schema are found by name. -/
theorem lookupType_name : ∀ type ∈ protoRoot, protoRoot.lookupType type.name = some type := by decide

/-- Blocks that fit a type of the schema are an encodable message. -/
theorem encodable_message {type : MessageType} (htype : type ∈ protoRoot) {blocks : List (String × List Value)}
    (hfits : type.fits blocks = true)
    (hvalues : ∀ block ∈ blocks, ∃ field, type.fields.find? (·.name = block.1) = some field ∧
      ∀ value ∈ block.2, Encodable protoRoot field.type value) :
    Encodable protoRoot (.message type.name) (.message (fields blocks)) :=
  encodable_fields (lookupType_name type htype) hfits hvalues

/-- An `Any` can be encoded. -/
theorem encodable_any (any : Any) : Encodable protoRoot (.message anyType.name) any.toValue :=
  encodable_message (by simp [protoRoot]) rfl (by simp [anyType])

/-- The numbers of a `google.protobuf.Duration`. -/
def DurationFits (duration : Int × Int) : Prop :=
  FieldType.int64.holds duration.1 = true ∧ FieldType.int32.holds duration.2 = true

/-- So can a duration that fits. -/
theorem encodable_duration {duration : Int × Int} (h : DurationFits duration) :
    Encodable protoRoot (.message durationType.name) (durationValue duration) :=
  encodable_message (by simp [protoRoot]) rfl (by simp [durationType, encodable_int h.1, encodable_int h.2])

/-- An address can be encoded if its port fits. -/
theorem encodable_address (address : String) {port : Int} (hport : FieldType.uint32.holds port = true) :
    Encodable protoRoot (.message addressType.name) (addressValue address port) := by
  have hsocket : Encodable protoRoot (.message socketAddressType.name)
      (.message (fields [("address", [.string address]), ("port_value", [.int port])])) :=
    encodable_message (by simp [protoRoot]) rfl (by simp [socketAddressType, encodable_int hport])
  exact encodable_message (by simp [protoRoot]) rfl (by simp [addressType, hsocket])

/-- So can a message without fields. -/
theorem encodable_empty {type : MessageType} (htype : type ∈ protoRoot) (hfields : type.fields = []) :
    Encodable protoRoot (.message type.name) (.message []) :=
  @encodable_message type htype [] (by simp [MessageType.fits, hfields]) fun _ hblock => (nomatch hblock)

/-- A route configuration can be encoded if its timeout fits. -/
theorem encodable_routeConfig (virtualHost : String) {route : XdsRouteAction}
    (htimeout : ∀ timeout ∈ route.timeout, DurationFits timeout) :
    Encodable protoRoot (.message routeConfigurationType.name) (.message (routeConfigMessage virtualHost route)) := by
  have haction : Encodable protoRoot (.message routeActionType.name) (.message (routeActionMessage route)) := by
    obtain ⟨cluster, timeout⟩ := route
    cases timeout with
    | none => exact encodable_message (by simp [protoRoot]) rfl (by simp [routeActionType])
    | some timeout =>
      exact encodable_message (by simp [protoRoot]) rfl
        (by simp [routeActionType, encodable_duration (htimeout timeout rfl)])
  have hmatch : Encodable protoRoot (.message routeMatchType.name) (.message (fields [("prefix", [.string "/"])])) :=
    encodable_message (by simp [protoRoot]) rfl (by simp [routeMatchType])
  have hroute : Encodable protoRoot (.message routeType.name) (.message (fields
      [("match", [.message (fields [("prefix", [.string "/"])])]), ("route", [.message (routeActionMessage route)])])) :=
    encodable_message (by simp [protoRoot]) rfl (by simp [routeType, hmatch, haction])
  have hhost : Encodable protoRoot (.message virtualHostType.name) (.message (fields
      [("name", [.string virtualHost]), ("domains", [.string "*"]),
        ("routes", [.message (fields [("match", [.message (fields [("prefix", [.string "/"])])]),
          ("route", [.message (routeActionMessage route)])])])])) :=
    encodable_message (by simp [protoRoot]) rfl (by simp [virtualHostType, hroute])
  exact encodable_message (by simp [protoRoot]) rfl (by simp [routeConfigurationType, hhost])

/-- So can a connection manager around it. -/
theorem encodable_hcm (proto : ProtobufRuntime) (statPrefix : String) (codecType : Option CodecType)
    (upgradeConfigs : List String) (virtualHost : String) {route : XdsRouteAction}
    (htimeout : ∀ timeout ∈ route.timeout, DurationFits timeout) :
    Encodable protoRoot (.message httpConnectionManagerType.name)
      (.message (hcmMessage proto statPrefix codecType upgradeConfigs virtualHost route)) := by
  have hfilter : Encodable protoRoot (.message httpFilterType.name) (.message (fields
      [("name", [.string "envoy.filters.http.router"]), ("typed_config", [(routerAny proto).toValue])])) :=
    encodable_message (by simp [protoRoot]) rfl (by simp [httpFilterType, encodable_any])
  have hupgrade (type : String) : Encodable protoRoot (.message upgradeConfigType.name)
      (.message (fields [("upgrade_type", [.string type])])) :=
    encodable_message (by simp [protoRoot]) rfl (by simp [upgradeConfigType])
  have hcodec (codec : CodecType) : Encodable protoRoot .int32 (.int (codecTypeMap codec)) :=
    encodable_int (by cases codec <;> rfl)
  refine encodable_message (by simp [protoRoot]) (by cases codecType <;> rfl) ?_
  simp [httpConnectionManagerType, hfilter, hupgrade, hcodec, encodable_routeConfig virtualHost htimeout]

/-- A listener can be encoded if its port fits. -/
theorem encodable_listener {listener : XdsListener} (hport : FieldType.uint32.holds listener.portValue = true)
    (filterName : String) (config : Any) :
    Encodable protoRoot (.message listenerType.name) (.message (listenerMessage listener filterName config)) := by
  have hfilter : Encodable protoRoot (.message filterType.name) (.message (fields
      [("name", [.string filterName]), ("typed_config", [config.toValue])])) :=
    encodable_message (by simp [protoRoot]) rfl (by simp [filterType, encodable_any])
  have hchain : Encodable protoRoot (.message filterChainType.name) (.message (fields
      [("filters", [.message (fields [("name", [.string filterName]), ("typed_config", [config.toValue])])])])) :=
    encodable_message (by simp [protoRoot]) rfl (by simp [filterChainType, hfilter])
  exact encodable_message (by simp [protoRoot]) rfl
    (by simp [listenerType, hchain, encodable_address listener.address hport])

theorem encodable_http2Options : Encodable protoRoot (.message httpProtocolOptionsType.name) (.message (fields
    [("explicit_http_config", [.message (fields [("http2_protocol_options", [.message []])])])])) := by
  have hoptions : Encodable protoRoot (.message http2ProtocolOptionsType.name) (.message []) :=
    encodable_empty (by simp [protoRoot]) rfl
  have hconfig : Encodable protoRoot (.message explicitHttpConfigType.name)
      (.message (fields [("http2_protocol_options", [.message []])])) :=
    encodable_message (by simp [protoRoot]) rfl (by simp [explicitHttpConfigType, hoptions])
  exact encodable_message (by simp [protoRoot]) rfl (by simp [httpProtocolOptionsType, hconfig])

/-- An endpoint can be encoded if its port fits. -/
theorem encodable_loadAssignment {cluster : XdsCluster} (hport : FieldType.uint32.holds cluster.endpoint.2 = true) :
    Encodable protoRoot (.message clusterLoadAssignmentType.name) (.message (loadAssignmentMessage cluster)) := by
  have hendpoint : Encodable protoRoot (.message endpointType.name)
      (.message (fields [("address", [addressValue cluster.endpoint.1 cluster.endpoint.2])])) :=
    encodable_message (by simp [protoRoot]) rfl (by simp [endpointType, encodable_address cluster.endpoint.1 hport])
  have hlbEndpoint : Encodable protoRoot (.message lbEndpointType.name) (.message (fields
      [("endpoint", [.message (fields [("address", [addressValue cluster.endpoint.1 cluster.endpoint.2])])])])) :=
    encodable_message (by simp [protoRoot]) rfl (by simp [lbEndpointType, hendpoint])
  have hlocality : Encodable protoRoot (.message localityLbEndpointsType.name) (.message (fields
      [("lb_endpoints", [.message (fields
        [("endpoint", [.message (fields [("address", [addressValue cluster.endpoint.1 cluster.endpoint.2])])])])])])) :=
    encodable_message (by simp [protoRoot]) rfl (by simp [localityLbEndpointsType, hlbEndpoint])
  exact encodable_message (by simp [protoRoot]) rfl (by simp [clusterLoadAssignmentType, hlocality])

/-- A cluster can be encoded if its port, its timeout and its address family fit. -/
theorem encodable_cluster (proto : ProtobufRuntime) {cluster : XdsCluster}
    (hport : FieldType.uint32.holds cluster.endpoint.2 = true)
    (htimeout : DurationFits (parseDuration cluster.connectTimeout))
    (hfamily : FieldType.int32.holds (cluster.dnsLookupFamily.getD 0) = true) :
    Encodable protoRoot (.message clusterType.name) (.message (clusterMessage proto cluster)) := by
  have htype : Encodable protoRoot .int32 (.int (clusterTypeNumber cluster.type)) :=
    encodable_int (by cases cluster.type <;> rfl)
  have hpolicy : Encodable protoRoot .int32 (.int (lbPolicy cluster.lbPolicy)) :=
    encodable_int (by unfold lbPolicy; split <;> rfl)
  have hentry : Encodable protoRoot (.message protocolOptionsEntryType.name) (.message (fields
      [("key", [.string "envoy.extensions.upstreams.http.v3.HttpProtocolOptions"]),
        ("value", [(http2Options proto).toValue])])) :=
    encodable_message (by simp [protoRoot]) rfl (by simp [protocolOptionsEntryType, encodable_any])
  exact encodable_message (by simp [protoRoot]) rfl (by
    simp [clusterType, htype, hpolicy, hentry, encodable_duration htimeout, encodable_int hfamily,
      encodable_loadAssignment hport])

/-- Whole seconds are read as they are written. -/
theorem parseDuration_seconds (seconds : Nat) : parseDuration (toString seconds ++ "s") = ((seconds : Int), 0) := by
  have hdigits : ∀ c ∈ Nat.toDigits 10 seconds, c.isDigit = true :=
    fun c hc => Nat.isDigit_of_mem_toDigits (by decide) (by decide) hc
  have htext : (toString seconds ++ "s").toList.reverse = 's' :: (Nat.toDigits 10 seconds).reverse := by
    simp
  have hread : readDecimal (Nat.toDigits 10 seconds) = some (seconds, 0) := by
    obtain ⟨htake, hdrop⟩ := @Json.takeWhile_isDigit _ [] hdigits fun _ hc => (nomatch hc)
    rw [List.append_nil] at htake hdrop
    unfold readDecimal
    rw [htake, hdrop]
    cases hcons : Nat.toDigits 10 seconds with
    | nil => exact absurd hcons Nat.toDigits_ne_nil
    | cons c rest =>
      dsimp only
      rw [← hcons]
      simp
  unfold parseDuration
  rw [htext]
  split
  case h_1 text heq =>
    obtain ⟨-, hrest⟩ := List.cons.inj heq
    have hm : 'm' ∈ Nat.toDigits 10 seconds := by
      rw [← List.mem_reverse, hrest]
      exact List.mem_cons_self
    exact absurd (hdigits _ hm) (by decide)
  case h_2 text _ heq =>
    obtain ⟨-, rfl⟩ := List.cons.inj heq
    rw [List.reverse_reverse, hread]
    simp [toDuration]
  case h_3 hother => exact absurd rfl (hother _)

end ProtoEncoding

end CatalystRouter
