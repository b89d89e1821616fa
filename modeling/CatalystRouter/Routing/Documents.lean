import CatalystRouter.Library.JsonLayout
import CatalystRouter.Routing.State

namespace CatalystRouter

open Json (Layout Row)

/-! The JSON documents of the routing data. -/

def DataChannelProtocol.text : DataChannelProtocol → String
  | .http => "http"
  | .httpGraphql => "http:graphql"
  | .httpGql => "http:gql"
  | .httpGrpc => "http:grpc"
  | .tcp => "tcp"

def DataChannelProtocol.layout : Layout DataChannelProtocol :=
  .enum text [.http, .httpGraphql, .httpGql, .httpGrpc, .tcp] (by intro protocol; cases protocol <;> decide) (by decide)

def HealthStatus.text : HealthStatus → String
  | .up => "up"
  | .down => "down"

def HealthStatus.layout : Layout HealthStatus :=
  .enum text [.up, .down] (by intro status; cases status <;> decide) (by decide)

def UpdateAction.text : UpdateAction → String
  | .add => "add"
  | .remove => "remove"

def UpdateAction.layout : Layout UpdateAction :=
  .enum text [.add, .remove] (by intro action; cases action <;> decide) (by decide)

/-- `z.number().nullable()`. -/
def nullableNumber : Layout (Option Int) := .nullable Layout.number fun _ => by simp [Layout.number]

/-! ### Channels and peers -/

def channelRow : Row DataChannelDefinition :=
  ((Row.required "name" .string).and <| (Row.optional "endpoint" .string).and <|
    (Row.required "protocol" DataChannelProtocol.layout).and <| (Row.optional "region" .string).and <|
    (Row.optional "tags" Layout.string.list).and <| (Row.optional "envoyPort" .number).and <|
    (Row.optional "envoyAddress" .string).and <| (Row.optional "healthStatus" HealthStatus.layout).and <|
    (Row.optional "responseTimeMs" nullableNumber).and <| Row.optional "lastChecked" .string).convert
    (fun route => (route.name, route.endpoint, route.protocol, route.region, route.tags, route.envoyPort,
      route.envoyAddress, route.healthStatus, route.responseTimeMs, route.lastChecked))
    (fun (name, endpoint, protocol, region, tags, envoyPort, envoyAddress, healthStatus, responseTimeMs, lastChecked) =>
      { name, endpoint, protocol, region, tags, envoyPort, envoyAddress, healthStatus, responseTimeMs, lastChecked })
    fun _ => rfl

def DataChannelDefinition.layout : Layout DataChannelDefinition := channelRow.layout (by decide)

def peerInfoRow : Row PeerInfo :=
  ((Row.required "name" .string).and <| (Row.required "domains" Layout.string.list).and <|
    (Row.optional "endpoint" .string).and <| (Row.optional "labels" Layout.string.record).and <|
    (Row.optional "peerToken" .string).and <| Row.optional "envoyAddress" .string).convert
    (fun peer => (peer.name, peer.domains, peer.endpoint, peer.labels, peer.peerToken, peer.envoyAddress))
    (fun (name, domains, endpoint, labels, peerToken, envoyAddress) =>
      { name, domains, endpoint, labels, peerToken, envoyAddress })
    fun _ => rfl

def PeerInfo.layout : Layout PeerInfo := peerInfoRow.layout (by decide)

/-! ### Actions -/

/-- `ActionType`, the values of `Actions`. -/
inductive ActionType where
  | localPeerCreate
  | localPeerUpdate
  | localPeerDelete
  | localRouteCreate
  | localRouteDelete
  | localRouteHealthUpdate
  | internalProtocolOpen
  | internalProtocolClose
  | internalProtocolConnected
  | internalProtocolUpdate
  | internalProtocolKeepalive
  | tick
  deriving DecidableEq, Repr

def ActionType.text : ActionType → String
  | .localPeerCreate => "local:peer:create"
  | .localPeerUpdate => "local:peer:update"
  | .localPeerDelete => "local:peer:delete"
  | .localRouteCreate => "local:route:create"
  | .localRouteDelete => "local:route:delete"
  | .localRouteHealthUpdate => "local:route:health-update"
  | .internalProtocolOpen => "internal:protocol:open"
  | .internalProtocolClose => "internal:protocol:close"
  | .internalProtocolConnected => "internal:protocol:connected"
  | .internalProtocolUpdate => "internal:protocol:update"
  | .internalProtocolKeepalive => "internal:protocol:keepalive"
  | .tick => "system:tick"

def ActionType.layout : Layout ActionType :=
  .enum text
    [.localPeerCreate, .localPeerUpdate, .localPeerDelete, .localRouteCreate, .localRouteDelete, .localRouteHealthUpdate,
      .internalProtocolOpen, .internalProtocolClose, .internalProtocolConnected, .internalProtocolUpdate,
      .internalProtocolKeepalive, .tick]
    (by intro type; cases type <;> decide) (by decide)

/-- `action.action`. -/
def Action.type : Action → ActionType
  | .localPeerCreate _ => .localPeerCreate
  | .localPeerUpdate _ => .localPeerUpdate
  | .localPeerDelete _ => .localPeerDelete
  | .localRouteCreate _ => .localRouteCreate
  | .localRouteDelete _ => .localRouteDelete
  | .localRouteHealthUpdate _ => .localRouteHealthUpdate
  | .internalProtocolOpen _ _ => .internalProtocolOpen
  | .internalProtocolClose _ _ => .internalProtocolClose
  | .internalProtocolConnected _ => .internalProtocolConnected
  | .internalProtocolUpdate _ _ => .internalProtocolUpdate
  | .internalProtocolKeepalive _ => .internalProtocolKeepalive
  | .tick _ => .tick

def RouteHealth.layout : Layout RouteHealth :=
  (((Row.required "name" .string).and <| (Row.required "healthStatus" HealthStatus.layout).and <|
    (Row.required "responseTimeMs" nullableNumber).and <| Row.required "lastChecked" .string).convert
    (fun data => (data.name, data.healthStatus, data.responseTimeMs, data.lastChecked))
    (fun (name, healthStatus, responseTimeMs, lastChecked) => { name, healthStatus, responseTimeMs, lastChecked })
    fun _ => rfl).layout (by decide)

def UpdateItem.layout : Layout UpdateItem :=
  (((Row.required "action" UpdateAction.layout).and <| (Row.required "route" DataChannelDefinition.layout).and <|
    (Row.required "nodePath" Layout.string.list).and <| Row.required "originNode" .string).convert
    (fun item => (item.action, item.route, item.nodePath, item.originNode))
    (fun (action, route, nodePath, originNode) => { action, route, nodePath, originNode })
    fun _ => rfl).layout (by decide)

/-- The `data` of the delete actions. -/
def nameLayout : Layout String := (Row.required "name" .string).layout (by decide)

def peerInfoLayout : Layout PeerInfo := (Row.required "peerInfo" PeerInfo.layout).layout (by decide)

def openLayout : Layout (PeerInfo × Option Int) :=
  ((Row.required "peerInfo" PeerInfo.layout).and (Row.optional "holdTime" .number)).layout (by decide)

def closeLayout : Layout (PeerInfo × Int) :=
  ((Row.required "peerInfo" PeerInfo.layout).and (Row.required "code" .number)).layout (by decide)

def updateLayout : Layout (PeerInfo × List UpdateItem) :=
  let updates := (Row.required "updates" UpdateItem.layout.list).layout (by decide)
  ((Row.required "peerInfo" PeerInfo.layout).and (Row.required "update" updates)).layout (by decide)

def tickLayout : Layout Int := (Row.required "now" .number).layout (by decide)

/-- `action.data`; a field with the value `undefined` is not written. -/
def Action.data : Action → Json
  | .localPeerCreate data => PeerInfo.layout.toJson data
  | .localPeerUpdate data => PeerInfo.layout.toJson data.toPeerInfo
  | .localPeerDelete name => nameLayout.toJson name
  | .localRouteCreate data => DataChannelDefinition.layout.toJson data
  | .localRouteDelete name => nameLayout.toJson name
  | .localRouteHealthUpdate data => RouteHealth.layout.toJson data
  | .internalProtocolOpen peerInfo holdTime => openLayout.toJson (peerInfo, holdTime)
  | .internalProtocolClose peerInfo code => closeLayout.toJson (peerInfo, code)
  | .internalProtocolConnected peerInfo => peerInfoLayout.toJson peerInfo
  | .internalProtocolUpdate peerInfo updates => updateLayout.toJson (peerInfo, updates)
  | .internalProtocolKeepalive peerInfo => peerInfoLayout.toJson peerInfo
  | .tick now => tickLayout.toJson now

def Action.ofData (data : Json) : ActionType → Option Action
  | .localPeerCreate => (PeerInfo.layout.ofJson data).map .localPeerCreate
  | .localPeerUpdate => (PeerInfo.layout.ofJson data).map fun peer => .localPeerUpdate { peer with }
  | .localPeerDelete => (nameLayout.ofJson data).map .localPeerDelete
  | .localRouteCreate => (DataChannelDefinition.layout.ofJson data).map .localRouteCreate
  | .localRouteDelete => (nameLayout.ofJson data).map .localRouteDelete
  | .localRouteHealthUpdate => (RouteHealth.layout.ofJson data).map .localRouteHealthUpdate
  | .internalProtocolOpen => (openLayout.ofJson data).map fun (peerInfo, holdTime) => .internalProtocolOpen peerInfo holdTime
  | .internalProtocolClose => (closeLayout.ofJson data).map fun (peerInfo, code) => .internalProtocolClose peerInfo code
  | .internalProtocolConnected => (peerInfoLayout.ofJson data).map .internalProtocolConnected
  | .internalProtocolUpdate =>
    (updateLayout.ofJson data).map fun (peerInfo, updates) => .internalProtocolUpdate peerInfo updates
  | .internalProtocolKeepalive => (peerInfoLayout.ofJson data).map .internalProtocolKeepalive
  | .tick => (tickLayout.ofJson data).map .tick

/-- What comes back of an action that was written: no field of it is `undefined`. -/
def Action.stored : Action → Action
  | .localPeerUpdate data => .localPeerUpdate { data with cleared := [] }
  | action => action

theorem Action.ofData_data (action : Action) : ofData action.data action.type = some action.stored := by
  cases action <;> simp [ofData, data, type, stored, Layout.ofJson_toJson]

/-- An action is its type, and what belongs to that type. -/
def Action.fields (action : Action) : List (String × Option Json) :=
  [("action", some (ActionType.layout.toJson action.type)), ("data", some action.data)]

theorem Action.fields_nodup (action : Action) : (action.fields.map Prod.fst).Nodup := by
  have hkeys : (["action", "data"] : List String).Nodup := by decide
  exact hkeys

def Action.toJson (action : Action) : Json := .ofFields action.fields

def Action.ofJson (json : Json) : Option Action :=
  ((json.get "action").bind ActionType.layout.ofJson).bind fun type =>
    (json.get "data").bind fun data => ofData data type

theorem Action.ofJson_toJson (action : Action) : ofJson action.toJson = some action.stored := by
  have htype : action.toJson.get "action" = some (ActionType.layout.toJson action.type) :=
    Json.get_ofFields_of_mem action.fields_nodup (List.mem_cons_self)
  have hdata : action.toJson.get "data" = some action.data :=
    Json.get_ofFields_of_mem action.fields_nodup (List.mem_cons_of_mem _ List.mem_cons_self)
  rw [ofJson, htype, hdata, Option.bind_some, Layout.ofJson_toJson, Option.bind_some, Option.bind_some, ofData_data]

end CatalystRouter
