import CatalystRouter.Authorization.Authority
import CatalystRouter.Orchestrator.Rpc
import CatalystRouter.Orchestrator.Runs

namespace CatalystRouter

/-! An orchestrator behind its RPC endpoint, whose callers show tokens of the auth service. -/

/-! ### `buildTokenValidator` -/

/-- The session with the auth service, `permissions` and then `authorizeAction`: a call throws,
    the token is refused, or the request is answered. -/
abbrev AuthClient := String → AuthorizeActionRequest → Option (Except String AuthorizeActionResult)

def buildTokenValidator (authClient : Option AuthClient) (allowNoAuth : Bool) (node : NodeConfig) (token action : String) :
    Except String Unit :=
  match authClient with
  | none => if allowNoAuth then .ok () else .error "Auth not configured"
  | some authClient =>
    match authClient token { action, nodeContext := { nodeId := node.name, domains := node.domains } } with
    | some (.ok .allowed) => .ok ()
    | _ => .error "Authorization failed"

section Client

variable {Key : Type}

/-- The auth service as its sessions see it, at a time; `decode` reads the text of a token. -/
def AuthService.client (jose : Jose Key) (decode : String → Except String (Jwt Key)) (toUpperCase : String → String)
    (service : AuthService Key) (now : Nat) : AuthClient := fun token request =>
  if service.serving then
    match decode token with
    | .error _ => some (.error "Invalid token")
    | .ok jwt =>
      match service.rpcServer.permissions jose jwt now with
      | .error error => some (.error error)
      | .ok (engine, payload) => (authorizeAction toUpperCase engine payload request).toOption.map .ok
  else none

end Client

/-! ### The clients -/

inductive ClientKind where
  | network
  | dataChannel
  | ibgp
  deriving DecidableEq, Repr

/-- The action that a token is validated for. -/
def ClientKind.action : ClientKind → Policy.Action
  | .network => .peerCreate
  | .dataChannel => .routeCreate
  | .ibgp => .ibgpConnect

/-- A client that a caller has got; only that of iBGP has data of its own. -/
inductive RpcClient where
  | network
  | dataChannel
  | ibgp (client : IBGPClient)

def RpcClient.kind : RpcClient → ClientKind
  | .network => .network
  | .dataChannel => .dataChannel
  | .ibgp _ => .ibgp

def createNetworkClient (services : TokenServices) (token : String) : Except String RpcClient := do
  services.validateToken token "PEER_CREATE"
  return .network

def createDataChannelClient (services : TokenServices) (token : String) : Except String RpcClient := do
  services.validateToken token "ROUTE_CREATE"
  return .dataChannel

def createClient (services : TokenServices) (token : String) : ClientKind → Except String RpcClient
  | .network => createNetworkClient services token
  | .dataChannel => createDataChannelClient services token
  | .ibgp => (createIBGPClient services token).map .ibgp

/-- A call of a method that dispatches. -/
inductive RpcCall where
  | addPeer (peer : PeerInfo)
  | updatePeer (peer : PeerUpdate)
  | removePeer (name : String)
  | addRoute (route : DataChannelDefinition)
  | removeRoute (name : String)
  | ibgp (call : IBGPCall)
  deriving DecidableEq, Repr

def RpcCall.kind : RpcCall → ClientKind
  | .addPeer _ | .updatePeer _ | .removePeer _ => .network
  | .addRoute _ | .removeRoute _ => .dataChannel
  | .ibgp _ => .ibgp

/-- The action of the table of permissions that a method stands for. -/
def RpcCall.permission : RpcCall → Policy.Action
  | .addPeer _ => .peerCreate
  | .updatePeer _ => .peerUpdate
  | .removePeer _ => .peerDelete
  | .addRoute _ => .routeCreate
  | .removeRoute _ => .routeDelete
  | .ibgp (.openCall ..) | .ibgp (.keepaliveCall _) => .ibgpConnect
  | .ibgp (.closeCall ..) => .ibgpDisconnect
  | .ibgp (.updateCall ..) => .ibgpUpdate

/-- A method call as a queue slot of the bus; a client has the methods of its kind. -/
def RpcClient.call (config : BusConfig) (bus : Bus) (now : Int) : RpcClient → RpcCall → Bus
  | .network, .addPeer peer => (Bus.dispatch config bus now (.localPeerCreate peer)).bus
  | .network, .updatePeer peer => (Bus.dispatch config bus now (.localPeerUpdate peer)).bus
  | .network, .removePeer name => (Bus.dispatch config bus now (.localPeerDelete name)).bus
  | .dataChannel, .addRoute route => (Bus.dispatch config bus now (.localRouteCreate route)).bus
  | .dataChannel, .removeRoute name => (Bus.dispatch config bus now (.localRouteDelete name)).bus
  | .ibgp client, .ibgp call => (client.call config bus now call).bus
  | _, _ => bus

/-! ### The node with its callers -/

/-- A client with the token that was shown for it. -/
structure RpcSession where
  token : String
  client : RpcClient

/-- An orchestrator and the auth service that validates its tokens. `calls` is the history of
    what its callers have called. -/
structure GuardedNode (Key : Type) where
  auth : AuthService Key
  bus : Bus
  sessions : List RpcSession := []
  calls : List (RpcSession × RpcCall) := []

/-- What does not change: the configurations of the two services, and what they call. -/
structure Deployment (Key : Type) where
  cedar : Cedar.Call → Cedar.Answer
  jose : Jose Key
  decode : String → Except String (Jwt Key)
  toUpperCase : String → String
  authNode : NodeConfig
  config : BusConfig

/-- The actions that a node dispatches by itself. -/
def Action.isOwn : Action → Bool
  | .tick _ | .localRouteHealthUpdate _ | .internalProtocolConnected _ => true
  | _ => false

def Deployment.node {Key : Type} (env : Deployment Key) : NodeConfig where
  name := env.config.node.name
  domains := env.config.node.domains

namespace GuardedNode

variable {Key : Type}

/-- What happens: something at the auth service; a caller asks for a client, while the session
    with the auth service is up or not; a caller calls a method; the node acts by itself. -/
inductive Event (Key : Type) where
  | auth (event : AuthService.Event Key)
  | connect (kind : ClientKind) (token : String) (now : Nat) (reached : Bool)
  | call (i : Nat) (now : Int) (call : RpcCall)
  | own (now : Int) (action : Action)
  deriving DecidableEq, Repr

def services (env : Deployment Key) (node : GuardedNode Key) (now : Nat) (reached : Bool) : TokenServices where
  validateToken :=
    buildTokenValidator (some (if reached then node.auth.client env.jose env.decode env.toUpperCase now else fun _ _ => none)) false
      env.node
  decodeSub token := (env.decode token).map fun jwt => some jwt.payload.sub

def step (env : Deployment Key) (node : GuardedNode Key) : Event Key → GuardedNode Key
  | .auth event => { node with auth := node.auth.step env.cedar env.jose env.authNode event }
  | .connect kind token now reached =>
    match createClient (node.services env now reached) token kind with
    | .ok client => { node with sessions := node.sessions ++ [⟨token, client⟩] }
    | .error _ => node
  | .call i now call =>
    match node.sessions[i]? with
    | some session =>
      if session.client.kind = call.kind then
        { node with bus := session.client.call env.config node.bus now call, calls := node.calls ++ [(session, call)] }
      else node
    | none => node
  | .own now action =>
    if action.isOwn then { node with bus := (Bus.dispatch env.config node.bus now action).bus } else node

abbrev run (env : Deployment Key) (start : GuardedNode Key) (events : List (Event Key)) : GuardedNode Key :=
  Runs.run (step env) start events

end GuardedNode

/-! ### What a token is good for -/

section Tokens

variable {Key : Type} {cedar : Cedar.Call → Cedar.Answer}

theorem toOption_eq_some {ε α : Type} {result : Except ε α} {value : α} (h : result.toOption = some value) :
    result = .ok value := by
  cases result with
  | error => cases h
  | ok => exact congrArg _ (Option.some.inj h)

/-- An allowed action is one that the principal of the payload is permitted on the node. -/
theorem authorizeAction_allowed (hcedar : Cedar.Conforms cedar) {toUpperCase : String → String} {payload : Payload}
    {request : AuthorizeActionRequest}
    (h : authorizeAction toUpperCase (catalystEngine cedar) payload request = .ok .allowed) :
    Permitted payload (actionId toUpperCase request.action) request.nodeContext.nodeId
      ((orUndefined request.nodeContext.domains.head?).getD "") := by
  obtain ⟨result, hresult, hcases⟩ := authorizeOnPanel_cases hcedar payload
    (colon_notMem_actionId toUpperCase request.action) request.nodeContext.nodeId
    ((orUndefined request.nodeContext.domains.head?).getD "")
  simp only [authorizeAction, hresult, bind, Except.bind] at h
  rcases hcases with ⟨rfl, -⟩ | ⟨-, -, hpermitted⟩ | ⟨rfl, -⟩
  · cases h
  · exact hpermitted
  · cases h

/-- The name of an action is its id, as the engine is asked for it. -/
theorem actionId_name {toUpperCase : String → String} {action : Policy.Action} (h : toUpperCase action.name = action.name) :
    actionId toUpperCase action.name = action.name := by
  have hplain : action.name.toList.all (fun c => ¬ (c = ':' ∨ c = '-')) = true := by cases action <;> rfl
  have hkept (c : Char) (hc : c ∈ action.name.toList) : ¬ (c = ':' ∨ c = '-') :=
    of_decide_eq_true (List.all_eq_true.mp hplain c hc)
  rw [actionId, h, List.map_congr_left fun c hc => if_neg (hkept c hc), List.map_id', String.ofList_toList]

/-- A validator that asks the auth service accepts the tokens that the service accepts at that
    time, from principals with the permission. -/
theorem validated {jose : Jose Key} {decode : String → Except String (Jwt Key)} {toUpperCase : String → String} {service : AuthService Key}
    (hcedar : Cedar.Conforms cedar) (hpolicy : service.rpcServer.policyService = some (catalystEngine cedar)) {now : Nat}
    (allowNoAuth : Bool) {node : NodeConfig} {token : String} {action : Policy.Action}
    (hupper : toUpperCase action.name = action.name)
    (h : buildTokenValidator (some (service.client jose decode toUpperCase now)) allowNoAuth node token action.name = .ok ()) :
    ∃ jwt, decode token = .ok jwt ∧ service.rpcServer.tokenFactory.verify jose jwt none now = .ok jwt.payload ∧
      Permitted jwt.payload action.name node.name node.domainId := by
  unfold buildTokenValidator at h
  dsimp only at h
  split at h
  case h_2 => cases h
  case h_1 hanswer =>
    unfold AuthService.client at hanswer
    split at hanswer
    case isFalse => cases hanswer
    case isTrue =>
      split at hanswer
      · cases Option.some.inj hanswer
      · rename_i jwt hdecoded
        split at hanswer
        · cases Option.some.inj hanswer
        · rename_i engine payload hpermissions
          unfold AuthRpcServer.permissions at hpermissions
          split at hpermissions
          · cases hpermissions
          · rename_i verified hverified
            rw [hpolicy] at hpermissions
            obtain ⟨rfl, rfl⟩ := Prod.mk.inj (Except.ok.inj hpermissions)
            obtain rfl := (AuthService.verify_ok hverified).1
            obtain ⟨result, hresult, hallowed⟩ := Option.map_eq_some_iff.mp hanswer
            obtain rfl := Except.ok.inj hallowed
            have hpermitted := authorizeAction_allowed hcedar (toOption_eq_some hresult)
            rw [actionId_name hupper] at hpermitted
            exact ⟨jwt, hdecoded, hverified, hpermitted⟩

end Tokens

/-- A client that is created is of the kind asked for, and its token was validated for it. -/
theorem createClient_ok {services : TokenServices} {token : String} {kind : ClientKind} {client : RpcClient}
    (h : createClient services token kind = .ok client) :
    services.validateToken token kind.action.name = .ok () ∧ client.kind = kind ∧
      ∀ self, client = .ibgp self → createIBGPClient services token = .ok self := by
  cases kind with
  | network =>
    simp only [createClient, createNetworkClient, bind, Except.bind] at h
    split at h
    · cases h
    · rename_i hvalid
      obtain rfl := Except.ok.inj h
      exact ⟨hvalid, rfl, fun self hself => by cases hself⟩
  | dataChannel =>
    simp only [createClient, createDataChannelClient, bind, Except.bind] at h
    split at h
    · cases h
    · rename_i hvalid
      obtain rfl := Except.ok.inj h
      exact ⟨hvalid, rfl, fun self hself => by cases hself⟩
  | ibgp =>
    cases hclient : createIBGPClient services token with
    | error error => simp [createClient, hclient, Except.map] at h
    | ok self =>
      simp only [createClient, hclient, Except.map] at h
      obtain rfl := Except.ok.inj h
      refine ⟨?_, rfl, fun other hother => by rw [RpcClient.ibgp.inj hother]⟩
      simp only [createIBGPClient, bind, Except.bind] at hclient
      split at hclient
      · cases hclient
      · assumption

/-! ### Where the entries of the table come from -/

/-- The part of a local route that its creation decides. -/
def DataChannelDefinition.configured (route : DataChannelDefinition) : DataChannelDefinition :=
  { route with envoyPort := none, healthStatus := none, responseTimeMs := none, lastChecked := none }

/-- The part of an internal route that an advertisement decides. -/
def InternalRoute.learned (route : InternalRoute) : InternalRoute := { route with envoyPort := none, isStale := false }

namespace Bus

variable {config : BusConfig} {bus : Bus} {now : Int} {action : Action}

/-- A peer of the table was in it before, or the action creates it. -/
theorem dispatch_peers_origin {peer : PeerRecord} (h : peer ∈ (dispatch config bus now action).bus.state.peers) :
    (∃ old ∈ bus.state.peers, old.name = peer.name) ∨ ∃ data, action = .localPeerCreate data ∧ data.name = peer.name := by
  rcases dispatch_peers config bus now action with ⟨hsame, -⟩ | hafter
  · rw [hsame] at h
    exact .inl ⟨peer, h, rfl⟩
  · cases hold : bus.state.peerAt peer.name with
    | some old => exact .inl ⟨old, RouteTable.mem_of_peerAt hold, RouteTable.peerAt_name hold⟩
    | none =>
      have hnew := hafter peer.name
      rw [hold] at hnew
      cases hfound : (dispatch config bus now action).bus.state.peerAt peer.name with
      | none => exact absurd rfl (RouteTable.peerAt_eq_none_iff.mp hfound peer h)
      | some found =>
        rw [hfound] at hnew
        obtain ⟨data, haction, rfl⟩ := Rib.peerAfter_none hnew.symm
        exact .inr ⟨data, haction, RouteTable.peerAt_name hfound⟩

/-- So with a local route, up to its port and health. -/
theorem dispatch_localRoutes_origin {route : DataChannelDefinition}
    (h : route ∈ (dispatch config bus now action).bus.state.localRoutes) :
    (∃ old ∈ bus.state.localRoutes, old.configured = route.configured) ∨
      ∃ data, action = .localRouteCreate data ∧ data.configured = route.configured := by
  rcases dispatch_planned config bus now action with hsame | ⟨filteredAction, hfiltered, hstate, -⟩
  · rw [hsame] at h
    exact .inl ⟨route, h, rfl⟩
  · rw [hstate] at h
    have hmem := List.mem_map_of_mem (f := DataChannelDefinition.unstamped) h
    rw [(planPorts_portsOnly _ _).localRoutes] at hmem
    obtain ⟨planned, hplanned, hports⟩ := List.mem_map.mp hmem
    have hconfigured := congrArg DataChannelDefinition.configured hports
    have hsame : planned.configured = route.configured := hconfigured
    have hshape := Rib.plan_shape config.node.name now filteredAction bus.state
    generalize Rib.plan config.node.name now filteredAction bus.state = result at hshape hplanned
    cases hshape with
    | unchanged | session | withdraw | stale | update => exact .inl ⟨planned, hplanned, hsame⟩
    | deleted => exact .inl ⟨planned, (List.mem_filter.mp hplanned).1, hsame⟩
    | created data =>
      rcases List.mem_append.mp hplanned with hold | hnew
      · exact .inl ⟨planned, hold, hsame⟩
      · obtain rfl := List.mem_singleton.mp hnew
        rcases applyInboundPolicy_cases hfiltered with haction | ⟨_, _, _, _, hother, -⟩
        · exact .inr ⟨planned, haction.symm, hsame⟩
        · cases hother
    | health data existing updated hfound hupdated =>
      rcases List.mem_modifyFirst hplanned with hold | ⟨_, _, _, rfl⟩
      · exact .inl ⟨planned, hold, hsame⟩
      · exact .inl ⟨existing, List.mem_of_find?_eq_some hfound, by rw [← hsame, hupdated]; rfl⟩

/-- An internal route was in the table before, up to port and staleness, or is an item that the
    update adds. -/
theorem dispatch_internalRoutes_origin {r : InternalRoute}
    (h : r ∈ (dispatch config bus now action).bus.state.internalRoutes) :
    (∃ old ∈ bus.state.internalRoutes, old.learned = r.learned) ∨
      ∃ peerInfo updates item, action = .internalProtocolUpdate peerInfo updates ∧ item ∈ updates ∧ item.action = .add ∧
        (Rib.itemRoute peerInfo item).learned = r.learned := by
  rcases dispatch_planned config bus now action with hsame | ⟨filteredAction, hfiltered, hstate, -⟩
  · rw [hsame] at h
    exact .inl ⟨r, h, rfl⟩
  · rw [hstate] at h
    obtain ⟨planned, hplanned, hports⟩ := (planPorts_portsOnly _ _).exists_planned h
    have hlearned := congrArg InternalRoute.learned hports
    have hsame : planned.learned = r.learned := hlearned
    cases Rib.plan_provenance config.node.name now filteredAction bus.state (.inl hplanned) with
    | kept hmem => exact .inl ⟨planned, hmem, hsame⟩
    | marked peerInfo old _ hmem hmarked => exact .inl ⟨old, hmem, by rw [← hsame, hmarked]; rfl⟩
    | accepted peerInfo updates item haction hmem hadd _ hroute =>
      rw [hroute] at hsame
      rcases applyInboundPolicy_cases hfiltered with hall | ⟨_, all, _, rfl, hfewer, hsub⟩
      · exact .inr ⟨peerInfo, updates, item, hall.symm.trans haction, hmem, hadd, hsame⟩
      · obtain ⟨rfl, rfl⟩ := Action.internalProtocolUpdate.inj (hfewer.symm.trans haction)
        exact .inr ⟨_, all, item, rfl, hsub.subset hmem, hadd, hsame⟩

end Bus

/-- The action that a method dispatches when its checks pass. -/
inductive RpcClient.Dispatches : RpcClient → RpcCall → Action → Prop where
  | addPeer (peer : PeerInfo) : Dispatches .network (.addPeer peer) (.localPeerCreate peer)
  | updatePeer (peer : PeerUpdate) : Dispatches .network (.updatePeer peer) (.localPeerUpdate peer)
  | removePeer (name : String) : Dispatches .network (.removePeer name) (.localPeerDelete name)
  | addRoute (route : DataChannelDefinition) : Dispatches .dataChannel (.addRoute route) (.localRouteCreate route)
  | removeRoute (name : String) : Dispatches .dataChannel (.removeRoute name) (.localRouteDelete name)
  | ibgp (self : IBGPClient) (call : IBGPCall) (hverified : self.Verified call) :
      Dispatches (.ibgp self) (.ibgp call) call.toAction

/-- Only the call that adds a peer dispatches its creation. -/
theorem RpcClient.Dispatches.creates_peer {client : RpcClient} {call : RpcCall} {data : PeerInfo}
    (h : client.Dispatches call (.localPeerCreate data)) : call = .addPeer data := by
  generalize haction : Action.localPeerCreate data = action at h
  cases h with
  | addPeer peer => rw [Action.localPeerCreate.inj haction]
  | ibgp self call => cases call <;> cases haction
  | _ => cases haction

/-- Only the call that adds a route dispatches its creation. -/
theorem RpcClient.Dispatches.creates_route {client : RpcClient} {call : RpcCall} {data : DataChannelDefinition}
    (h : client.Dispatches call (.localRouteCreate data)) : call = .addRoute data := by
  generalize haction : Action.localRouteCreate data = action at h
  cases h with
  | addRoute route => rw [Action.localRouteCreate.inj haction]
  | ibgp self call => cases call <;> cases haction
  | _ => cases haction

/-- Only an iBGP client dispatches updates, and only as the peer that it belongs to. -/
theorem RpcClient.Dispatches.updates {client : RpcClient} {call : RpcCall} {peerInfo : PeerInfo} {updates : List UpdateItem}
    (h : client.Dispatches call (.internalProtocolUpdate peerInfo updates)) :
    ∃ self, client = .ibgp self ∧ call = .ibgp (.updateCall peerInfo updates) ∧ peerInfo.name = self.peerIdentity := by
  generalize haction : Action.internalProtocolUpdate peerInfo updates = action at h
  cases h with
  | ibgp self call hverified =>
    cases call with
    | updateCall sender items =>
      obtain ⟨rfl, rfl⟩ := Action.internalProtocolUpdate.inj haction
      exact ⟨self, rfl, rfl, hverified.peerName⟩
    | openCall | closeCall | keepaliveCall => cases haction
  | _ => cases haction

/-- A call leaves the bus as it is, or dispatches one action of the client. -/
theorem RpcClient.call_cases (client : RpcClient) (config : BusConfig) (bus : Bus) (now : Int) (call : RpcCall) :
    client.call config bus now call = bus ∨
      ∃ action, client.Dispatches call action ∧ client.call config bus now call = (Bus.dispatch config bus now action).bus := by
  cases client with
  | network =>
    cases call with
    | addPeer peer => exact .inr ⟨_, .addPeer peer, rfl⟩
    | updatePeer peer => exact .inr ⟨_, .updatePeer peer, rfl⟩
    | removePeer name => exact .inr ⟨_, .removePeer name, rfl⟩
    | addRoute | removeRoute | ibgp => exact .inl rfl
  | dataChannel =>
    cases call with
    | addRoute route => exact .inr ⟨_, .addRoute route, rfl⟩
    | removeRoute name => exact .inr ⟨_, .removeRoute name, rfl⟩
    | addPeer | updatePeer | removePeer | ibgp => exact .inl rfl
  | ibgp self =>
    cases call with
    | addPeer | updatePeer | removePeer | addRoute | removeRoute => exact .inl rfl
    | ibgp call =>
      rcases self.call_cases config bus now call with ⟨-, error, hrefused⟩ | ⟨hverified, hdispatched⟩
      · exact .inl (by rw [RpcClient.call, hrefused])
      · exact .inr ⟨_, .ibgp self call hverified, by rw [RpcClient.call, hdispatched]⟩

/-- What the methods of a client stand for. -/
def ClientKind.permissions : ClientKind → List Policy.Action
  | .network => [.peerCreate, .peerUpdate, .peerDelete]
  | .dataChannel => [.routeCreate, .routeDelete]
  | .ibgp => [.ibgpConnect, .ibgpDisconnect, .ibgpUpdate]

/-- A call needs a permission of the client that it is made on. -/
theorem RpcCall.permission_mem (call : RpcCall) : call.permission ∈ call.kind.permissions := by
  cases call with
  | ibgp call => cases call <;> simp [RpcCall.permission, RpcCall.kind, ClientKind.permissions]
  | _ => simp [RpcCall.permission, RpcCall.kind, ClientKind.permissions]

/-- A role with the permission that opens a client has those of its methods. -/
theorem permissions_subset {role : Policy.Role} {kind : ClientKind} (h : kind.action ∈ Policy.rolePermissions role) :
    kind.permissions ⊆ Policy.rolePermissions role := by
  revert h
  cases role <;> cases kind <;> decide

/-- Whoever may create a peer, a route or a session may call every method of the client. -/
theorem Permitted.method {payload : Payload} {nodeId domainId : String} {call : RpcCall}
    (h : Permitted payload call.kind.action.name nodeId domainId) : Permitted payload call.permission.name nodeId domainId := by
  obtain ⟨role, action, hrole, hname, hmem, htrusts⟩ := h
  have haction : action = call.kind.action := by
    revert hname
    generalize call.kind.action = created
    cases action <;> cases created <;> decide
  exact ⟨role, call.permission, hrole, rfl, permissions_subset (haction ▸ hmem) call.permission_mem, htrusts⟩

/-! ### Runs -/

namespace GuardedNode

variable {Key : Type}

/-- A started auth service on new stores, and an orchestrator with an empty table. -/
def start (env : Deployment Key) (portAllocator : Option PortAllocator) (now₀ : Nat) (first : Key) (jti₀ : String) :
    GuardedNode Key where
  auth := AuthService.onInitialize env.cedar env.jose env.authNode AuthService.blank now₀ first jti₀
  bus := { state := newRouteTable, portAllocator }

def Event.auth? : Event Key → Option (AuthService.Event Key)
  | .auth event => some event
  | _ => none

/-- Tokens are not forged. -/
def Event.Fair (env : Deployment Key) (node : GuardedNode Key) : Event Key → Prop
  | .auth event => event.Fair node.auth
  | .connect _ token _ _ => ∀ jwt, env.decode token = .ok jwt → node.auth.Genuine jwt
  | _ => True

section History

variable (env : Deployment Key) (first : GuardedNode Key)

/-- The token of a session was accepted when the session was opened. It belongs to a principal
    who is trusted with the node and has the permission, and its creation goes back to a system
    token; an iBGP session has the identity of its subject. -/
structure Entitled (events : List (Event Key)) (session : RpcSession) (jwt : Jwt Key) : Prop where
  decoded : env.decode session.token = .ok jwt
  accepted : ∃ early now late, events = early ++ .connect session.client.kind session.token now true :: late ∧
    (run env first early).auth.rpcServer.tokenFactory.verify env.jose jwt none now = .ok jwt.payload
  permitted : Permitted jwt.payload session.client.kind.action.name env.node.name env.node.domainId
  descends : AuthService.Descends env.cedar env.jose env.authNode first.auth (events.filterMap Event.auth?) jwt
  identity : ∀ self, session.client = .ibgp self → self.peerIdentity = jwt.payload.sub

/-- The history of the auth service, and who holds the sessions. -/
structure Overseen (events : List (Event Key)) : Prop where
  auth : (run env first events).auth =
    AuthService.run env.cedar env.jose env.authNode first.auth (events.filterMap Event.auth?)
  governed : AuthService.Governed env.cedar env.jose env.authNode first.auth (events.filterMap Event.auth?)
  sessions : ∀ session ∈ (run env first events).sessions, ∃ jwt, Entitled env first events session jwt

/-- Every call was made in a session with the permission for it, and every entry of the table
    goes back to a call. -/
structure Rooted (events : List (Event Key)) : Prop where
  calls : ∀ session call, (session, call) ∈ (run env first events).calls → call.kind = session.client.kind ∧
    ∃ jwt, Entitled env first events session jwt ∧
      Permitted jwt.payload call.permission.name env.node.name env.node.domainId
  peers : ∀ peer ∈ (run env first events).bus.state.peers,
    ∃ session data, (session, .addPeer data) ∈ (run env first events).calls ∧ data.name = peer.name
  localRoutes : ∀ route ∈ (run env first events).bus.state.localRoutes,
    ∃ session data, (session, .addRoute data) ∈ (run env first events).calls ∧ data.configured = route.configured
  internalRoutes : ∀ route ∈ (run env first events).bus.state.internalRoutes,
    ∃ session self peerInfo updates item, session.client = .ibgp self ∧
      (session, .ibgp (.updateCall peerInfo updates)) ∈ (run env first events).calls ∧ item ∈ updates ∧
      item.action = .add ∧ route.learned = (Rib.itemRoute peerInfo item).learned ∧ route.peer.name = self.peerIdentity

end History

section Steps

variable {env : Deployment Key} {first : GuardedNode Key} {events : List (Event Key)}

theorem run_concat (env : Deployment Key) (first : GuardedNode Key) (events : List (Event Key)) (event : Event Key) :
    run env first (events ++ [event]) = (run env first events).step env event :=
  Runs.run_concat _ _ _ _

/-- A session stays entitled, whatever comes later. -/
theorem Entitled.concat {session : RpcSession} {jwt : Jwt Key} (h : Entitled env first events session jwt)
    (event : Event Key) : Entitled env first (events ++ [event]) session jwt := by
  obtain ⟨early, now, late, rfl, haccepted⟩ := h.accepted
  refine ⟨h.decoded, ⟨early, now, late ++ [event], by simp, haccepted⟩, h.permitted, ?_, h.identity⟩
  rw [List.filterMap_append]
  cases hauth : event.auth? with
  | none => simpa [hauth] using h.descends
  | some authEvent => simpa [hauth] using h.descends.concat authEvent

/-- What a request for a client shows. -/
theorem connect_ok (hcedar : Cedar.Conforms env.cedar)
    (hupper : ∀ action : Policy.Action, env.toUpperCase action.name = action.name) {node : GuardedNode Key}
    (hsound : node.auth.Sound env.cedar env.authNode) {token : String} {kind : ClientKind} {now : Nat}
    {reached : Bool} {client : RpcClient} (h : createClient (node.services env now reached) token kind = .ok client) :
    reached = true ∧ client.kind = kind ∧ ∃ jwt, env.decode token = .ok jwt ∧
      node.auth.rpcServer.tokenFactory.verify env.jose jwt none now = .ok jwt.payload ∧
      Permitted jwt.payload kind.action.name env.node.name env.node.domainId ∧
      ∀ self, client = .ibgp self → self.peerIdentity = jwt.payload.sub := by
  obtain ⟨hvalid, hkind, hself⟩ := createClient_ok h
  cases reached with
  | false => cases hvalid
  | true =>
    obtain ⟨jwt, hdecoded, hverified, hpermitted⟩ := validated hcedar hsound.policyService false (hupper kind.action) hvalid
    refine ⟨rfl, hkind, jwt, hdecoded, hverified, hpermitted, fun self hibgp => ?_⟩
    exact createIBGPClient_identity (by simp [services, hdecoded, Except.map]) (hself self hibgp)

/-- The auth service moves by its own events only. -/
theorem step_auth (env : Deployment Key) (node : GuardedNode Key) (event : Event Key) :
    (node.step env event).auth = event.auth?.elim node.auth (node.auth.step env.cedar env.jose env.authNode) := by
  cases event with
  | auth authEvent => rfl
  | connect kind token now reached =>
    simp only [GuardedNode.step]
    split <;> rfl
  | call i now call =>
    simp only [GuardedNode.step]
    split
    · split <;> rfl
    · rfl
  | own now action =>
    simp only [GuardedNode.step]
    split <;> rfl

/-- A session was open before, or is one that a request for a client has opened. -/
theorem step_sessions {node : GuardedNode Key} {event : Event Key} {session : RpcSession}
    (h : session ∈ (node.step env event).sessions) :
    session ∈ node.sessions ∨ ∃ kind now reached, event = .connect kind session.token now reached ∧
      createClient (node.services env now reached) session.token kind = .ok session.client := by
  cases event with
  | auth authEvent => exact .inl h
  | connect kind token now reached =>
    simp only [GuardedNode.step] at h
    split at h
    · rename_i client hclient
      rcases List.mem_append.mp h with hold | hnew
      · exact .inl hold
      · obtain rfl := List.mem_singleton.mp hnew
        exact .inr ⟨kind, now, reached, rfl, hclient⟩
    · exact .inl h
  | call i now call =>
    simp only [GuardedNode.step] at h
    split at h
    · split at h <;> exact .inl h
    · exact .inl h
  | own now action =>
    simp only [GuardedNode.step] at h
    split at h <;> exact .inl h

/-- Every event keeps the record of who holds the sessions. -/
theorem Overseen.step [DecidableEq Key] (hjose : env.jose.Documented) (hcedar : Cedar.Conforms env.cedar)
    (hupper : ∀ action : Policy.Action, env.toUpperCase action.name = action.name) (h : Overseen env first events)
    {event : Event Key} (hfair : event.Fair env (run env first events)) : Overseen env first (events ++ [event]) := by
  have hevents : (events ++ [event]).filterMap Event.auth? = events.filterMap Event.auth? ++ event.auth?.toList := by
    rw [List.filterMap_append, List.filterMap_cons]
    cases event.auth? <;> rfl
  constructor
  case auth =>
    rw [run_concat, step_auth, hevents, h.auth]
    cases event.auth? with
    | none => simp
    | some authEvent => exact (AuthService.run_concat _ _ _ _ _ _).symm
  case governed =>
    rw [hevents]
    cases event with
    | auth authEvent => exact h.governed.step hjose hcedar (by simpa only [Event.Fair, h.auth] using hfair)
    | connect | call | own => simpa [Event.auth?] using h.governed
  case sessions =>
    intro session hsession
    rw [run_concat] at hsession
    rcases step_sessions hsession with hold | ⟨kind, now, reached, rfl, hclient⟩
    · exact (h.sessions session hold).imp fun jwt hentitled => hentitled.concat _
    · have hsound := h.governed.sound
      rw [← h.auth] at hsound
      obtain ⟨rfl, rfl, jwt, hdecoded, hverified, hpermitted, hidentity⟩ := connect_ok hcedar hupper hsound hclient
      have hdescends := h.governed.genuine hjose (h.auth ▸ hfair jwt hdecoded) (h.auth ▸ hverified)
      refine ⟨jwt, hdecoded, ⟨events, now, [], rfl, hverified⟩, hpermitted, ?_, hidentity⟩
      rw [hevents]
      simpa [Event.auth?] using hdescends

/-- Calls are made in the sessions that are open, and are not forgotten. -/
theorem step_calls (env : Deployment Key) (node : GuardedNode Key) (event : Event Key) :
    ∃ more, (node.step env event).calls = node.calls ++ more ∧
      ∀ session call, (session, call) ∈ more → session ∈ node.sessions ∧ session.client.kind = call.kind := by
  cases event with
  | auth authEvent => exact ⟨[], by simp [GuardedNode.step], by simp⟩
  | connect kind token now reached =>
    simp only [GuardedNode.step]
    split <;> exact ⟨[], by simp, by simp⟩
  | call i now call =>
    simp only [GuardedNode.step]
    split
    · rename_i session hsession
      split
      · rename_i hkind
        exact ⟨[(session, call)], rfl, by simpa using ⟨List.mem_of_getElem? hsession, hkind⟩⟩
      · exact ⟨[], by simp, by simp⟩
    · exact ⟨[], by simp, by simp⟩
  | own now action =>
    simp only [GuardedNode.step]
    split <;> exact ⟨[], by simp, by simp⟩

/-- The bus runs actions of the node itself, and those of calls. -/
theorem step_bus (env : Deployment Key) (node : GuardedNode Key) (event : Event Key) :
    (node.step env event).bus = node.bus ∨ ∃ now action,
      (node.step env event).bus = (Bus.dispatch env.config node.bus now action).bus ∧
      (action.isOwn = true ∨
        ∃ session call, (session, call) ∈ (node.step env event).calls ∧ session.client.Dispatches call action) := by
  cases event with
  | auth authEvent => exact .inl rfl
  | connect kind token now reached =>
    simp only [GuardedNode.step]
    split <;> exact .inl rfl
  | call i now call =>
    simp only [GuardedNode.step]
    split
    · rename_i session hsession
      split
      · rcases session.client.call_cases env.config node.bus now call with hsame | ⟨action, hdispatches, hdispatched⟩
        · exact .inl hsame
        · exact .inr ⟨now, action, hdispatched, .inr ⟨session, call, by simp, hdispatches⟩⟩
      · exact .inl rfl
    · exact .inl rfl
  | own now action =>
    simp only [GuardedNode.step]
    split
    · rename_i hown
      exact .inr ⟨now, action, rfl, .inl hown⟩
    · exact .inl rfl

/-- Every event keeps calls, peers and routes rooted in entitled sessions. -/
theorem Rooted.step (h : Rooted env first events) (hoverseen : Overseen env first events) (event : Event Key) :
    Rooted env first (events ++ [event]) := by
  have hafter := run_concat env first events event
  obtain ⟨more, hcalls, hnew⟩ := step_calls env (run env first events) event
  rw [← hafter] at hcalls
  have hold {entry : RpcSession × RpcCall} (hentry : entry ∈ (run env first events).calls) :
      entry ∈ (run env first (events ++ [event])).calls := hcalls ▸ List.mem_append_left _ hentry
  have hbus := step_bus env (run env first events) event
  rw [← hafter] at hbus
  constructor
  case calls =>
    intro session call hcall
    rw [hcalls] at hcall
    rcases List.mem_append.mp hcall with hearlier | hmore
    · obtain ⟨hkind, jwt, hentitled, hpermitted⟩ := h.calls session call hearlier
      exact ⟨hkind, jwt, hentitled.concat event, hpermitted⟩
    · obtain ⟨hsession, hkind⟩ := hnew session call hmore
      obtain ⟨jwt, hentitled⟩ := hoverseen.sessions session hsession
      exact ⟨hkind.symm, jwt, hentitled.concat event, Permitted.method (hkind ▸ hentitled.permitted)⟩
  case peers =>
    intro peer hpeer
    have hkept (old : PeerRecord) (hmem : old ∈ (run env first events).bus.state.peers) (hname : old.name = peer.name) :
        ∃ session data, (session, .addPeer data) ∈ (run env first (events ++ [event])).calls ∧ data.name = peer.name := by
      obtain ⟨session, data, hcall, hdata⟩ := h.peers old hmem
      exact ⟨session, data, hold hcall, hdata.trans hname⟩
    rcases hbus with hsame | ⟨now, action, hdispatched, hcause⟩
    · exact hkept peer (hsame ▸ hpeer) rfl
    · rw [hdispatched] at hpeer
      rcases Bus.dispatch_peers_origin hpeer with ⟨old, hmem, hname⟩ | ⟨data, rfl, hname⟩
      · exact hkept old hmem hname
      · rcases hcause with hown | ⟨session, call, hcall, hdispatches⟩
        · cases hown
        · exact ⟨session, data, hdispatches.creates_peer ▸ hcall, hname⟩
  case localRoutes =>
    intro route hroute
    have hkept (old : DataChannelDefinition) (hmem : old ∈ (run env first events).bus.state.localRoutes)
        (hconfigured : old.configured = route.configured) :
        ∃ session data, (session, .addRoute data) ∈ (run env first (events ++ [event])).calls ∧
          data.configured = route.configured := by
      obtain ⟨session, data, hcall, hdata⟩ := h.localRoutes old hmem
      exact ⟨session, data, hold hcall, hdata.trans hconfigured⟩
    rcases hbus with hsame | ⟨now, action, hdispatched, hcause⟩
    · exact hkept route (hsame ▸ hroute) rfl
    · rw [hdispatched] at hroute
      rcases Bus.dispatch_localRoutes_origin hroute with ⟨old, hmem, hconfigured⟩ | ⟨data, rfl, hconfigured⟩
      · exact hkept old hmem hconfigured
      · rcases hcause with hown | ⟨session, call, hcall, hdispatches⟩
        · cases hown
        · exact ⟨session, data, hdispatches.creates_route ▸ hcall, hconfigured⟩
  case internalRoutes =>
    intro route hroute
    have hkept (old : InternalRoute) (hmem : old ∈ (run env first events).bus.state.internalRoutes)
        (hlearned : old.learned = route.learned) :
        ∃ session self peerInfo updates item, session.client = .ibgp self ∧
          (session, .ibgp (.updateCall peerInfo updates)) ∈ (run env first (events ++ [event])).calls ∧ item ∈ updates ∧
          item.action = .add ∧ route.learned = (Rib.itemRoute peerInfo item).learned ∧
          route.peer.name = self.peerIdentity := by
      obtain ⟨session, self, peerInfo, updates, item, hclient, hcall, hitem, hadd, hroute, hpeer⟩ := h.internalRoutes old hmem
      have hsender := congrArg (fun r : InternalRoute => r.peer.name) hlearned
      exact ⟨session, self, peerInfo, updates, item, hclient, hold hcall, hitem, hadd, hlearned.symm.trans hroute,
        hsender.symm.trans hpeer⟩
    rcases hbus with hsame | ⟨now, action, hdispatched, hcause⟩
    · exact hkept route (hsame ▸ hroute) rfl
    · rw [hdispatched] at hroute
      rcases Bus.dispatch_internalRoutes_origin hroute with
        ⟨old, hmem, hlearned⟩ | ⟨peerInfo, updates, item, rfl, hitem, hadd, hlearned⟩
      · exact hkept old hmem hlearned
      · rcases hcause with hown | ⟨session, call, hcall, hdispatches⟩
        · cases hown
        · obtain ⟨self, hclient, rfl, hname⟩ := hdispatches.updates
          have hsender := congrArg (fun r : InternalRoute => r.peer.name) hlearned
          exact ⟨session, self, peerInfo, updates, item, hclient, hcall, hitem, hadd, hlearned.symm, hsender.symm.trans hname⟩

/-- The record holds after any events. -/
theorem run_overseen [DecidableEq Key] (hjose : env.jose.Documented) (hcedar : Cedar.Conforms env.cedar)
    (hupper : ∀ action : Policy.Action, env.toUpperCase action.name = action.name) {portAllocator : Option PortAllocator}
    {now₀ : Nat} {key : Key} {jti₀ : String}
    (hfair : Runs.EachStep (GuardedNode.step env) (fun node event => event.Fair env node)
      (start env portAllocator now₀ key jti₀) events) :
    Overseen env (start env portAllocator now₀ key jti₀) events := by
  induction events using List.reverseRecOn with
  | nil => exact ⟨rfl, AuthService.run_governed hjose hcedar (show Runs.EachStep _ _ _ [] from trivial), fun session hsession => by cases hsession⟩
  | append_singleton events event ih =>
    obtain ⟨hearly, hlast⟩ := (Runs.eachStep_append _).mp hfair
    exact (ih hearly).step hjose hcedar hupper hlast.1

/-- After any interleaving of what the auth service, the callers and the node do, every call was
    made with a token whose role permits it and whose creation goes back to a system token, and
    every peer and every route of the table goes back to such a call. -/
theorem run_rooted [DecidableEq Key] (hjose : env.jose.Documented) (hcedar : Cedar.Conforms env.cedar)
    (hupper : ∀ action : Policy.Action, env.toUpperCase action.name = action.name) {portAllocator : Option PortAllocator}
    {now₀ : Nat} {key : Key} {jti₀ : String}
    (hfair : Runs.EachStep (GuardedNode.step env) (fun node event => event.Fair env node)
      (start env portAllocator now₀ key jti₀) events) :
    Rooted env (start env portAllocator now₀ key jti₀) events := by
  induction events using List.reverseRecOn with
  | nil =>
    refine ⟨fun session call hcall => ?_, fun peer hpeer => ?_, fun route hroute => ?_, fun route hroute => ?_⟩
    · cases hcall
    · cases hpeer
    · cases hroute
    · cases hroute
  | append_singleton events event ih =>
    obtain ⟨hearly, -⟩ := (Runs.eachStep_append _).mp hfair
    exact (ih hearly).step (run_overseen hjose hcedar hupper hearly) event

/-- A node whose auth service has one custodian, who creates a peer. -/
def carolToken : Jwt Nat where
  signer := 1
  kid := some "1"
  exp := 3602
  payload :=
    { jti := some "token-1", sub := "carol", principal := some "CATALYST::NODE_CUSTODIAN",
      entity := some
        { id := "user-2", name := "carol", type := .user, nodeId := some "node-a", trustedDomains := some ["books.local"] } }

def books : Deployment Nat where
  cedar := Cedar.isAuthorized
  jose := KeyManager.numberedKeys
  decode token := if token = "carol" then .ok carolToken else .error "Invalid JWT"
  toUpperCase := String.toUpper
  authNode := AuthService.books
  config := { node := { name := "node-a", domains := ["books.local"] } }

def carolEvents : List (Event Nat) :=
  [.auth (.ask .tokens AuthService.systemToken 1000),
    .auth (.create 0 2000 "token-1"
      { subject := "carol",
        entity := { id := "user-2", name := "carol", type := .user, trustedDomains := some ["books.local"] },
        principal := some "CATALYST::NODE_CUSTODIAN", expiresIn := some "1h" }),
    .connect .network "carol" 3000 true, .call 0 4000 (.addPeer { name := "node-b", peerToken := some "secret" }),
    .auth (.revoke 0 { jti := some "token-1" }), .own 5000 (.tick 5000)]

theorem carolEvents_fair : Runs.EachStep (GuardedNode.step books) (fun node event => event.Fair books node)
    (start books none 0 1 "token-0") carolEvents := by
  have hgenuine : (carolToken, some AuthService.systemToken) ∈
      (run books (start books none 0 1 "token-0") (carolEvents.take 2)).auth.issued := by decide +kernel
  refine ⟨fun _ => ⟨none, by decide +kernel⟩, trivial, fun jwt hjwt => ?_, trivial, trivial, trivial, trivial⟩
  obtain rfl : carolToken = jwt := Except.ok.inj hjwt
  exact fun _ => ⟨_, hgenuine⟩

theorem run_rooted_carol :
    ∃ session data, (session, .addPeer data) ∈ (run books (start books none 0 1 "token-0") carolEvents).calls ∧
      data.name = "node-b" := by
  have hpeer : (run books (start books none 0 1 "token-0") carolEvents).bus.state.peers.map (·.name) = ["node-b"] := by
    decide +kernel
  have hupper : ∀ action : Policy.Action, books.toUpperCase action.name = action.name := by
    intro action
    cases action <;> decide +kernel
  obtain ⟨peer, hmem, hname⟩ := List.mem_map.mp (hpeer ▸ List.mem_singleton_self _ : "node-b" ∈
    (run books (start books none 0 1 "token-0") carolEvents).bus.state.peers.map (·.name))
  obtain ⟨session, data, hcall, hdata⟩ := (run_rooted KeyManager.numberedKeys_documented Cedar.conforms_isAuthorized hupper carolEvents_fair).peers peer hmem
  exact ⟨session, data, hcall, hdata.trans hname⟩

end Steps

end GuardedNode

end CatalystRouter
