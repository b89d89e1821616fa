import CatalystRouter.Library.Cedar

namespace CatalystRouter.Policy

open Cedar (EntityUid Value ValueType Entity Expr Request Call)

/-! ### `models.ts` -/

inductive Role where
  | admin
  | node
  | nodeCustodian
  | dataCustodian
  | user
  deriving DecidableEq, Repr

def Role.name : Role → String
  | .admin => "ADMIN"
  | .node => "NODE"
  | .nodeCustodian => "NODE_CUSTODIAN"
  | .dataCustodian => "DATA_CUSTODIAN"
  | .user => "USER"

/-- The `Principal` of a role. -/
def roleToPrincipal (role : Role) : String := "CATALYST::" ++ role.name

inductive Action where
  | login
  | manage
  | ibgpConnect
  | ibgpDisconnect
  | ibgpUpdate
  | peerCreate
  | peerUpdate
  | peerDelete
  | routeCreate
  | routeDelete
  | tokenCreate
  | tokenRevoke
  | tokenList
  | peerList
  | routeList
  | ibgpList
  | gatewayConfigUpdate
  deriving DecidableEq, Repr

def Action.name : Action → String
  | .login => "LOGIN"
  | .manage => "MANAGE"
  | .ibgpConnect => "IBGP_CONNECT"
  | .ibgpDisconnect => "IBGP_DISCONNECT"
  | .ibgpUpdate => "IBGP_UPDATE"
  | .peerCreate => "PEER_CREATE"
  | .peerUpdate => "PEER_UPDATE"
  | .peerDelete => "PEER_DELETE"
  | .routeCreate => "ROUTE_CREATE"
  | .routeDelete => "ROUTE_DELETE"
  | .tokenCreate => "TOKEN_CREATE"
  | .tokenRevoke => "TOKEN_REVOKE"
  | .tokenList => "TOKEN_LIST"
  | .peerList => "PEER_LIST"
  | .routeList => "ROUTE_LIST"
  | .ibgpList => "IBGP_LIST"
  | .gatewayConfigUpdate => "GATEWAY_CONFIG_UPDATE"

/-- `Object.values(Action)`. -/
def Action.values : List Action :=
  [.login, .manage, .ibgpConnect, .ibgpDisconnect, .ibgpUpdate, .peerCreate, .peerUpdate, .peerDelete, .routeCreate,
    .routeDelete, .tokenCreate, .tokenRevoke, .tokenList, .peerList, .routeList, .ibgpList, .gatewayConfigUpdate]

def Action.uid (action : Action) : EntityUid := { type := "CATALYST::Action", id := action.name }

def rolePermissions : Role → List Action
  | .admin => Action.values
  | .node => [.ibgpConnect, .ibgpDisconnect, .ibgpUpdate, .ibgpList, .gatewayConfigUpdate]
  | .nodeCustodian =>
    [.peerCreate, .peerUpdate, .peerDelete, .ibgpConnect, .ibgpDisconnect, .ibgpUpdate, .peerList, .ibgpList]
  | .dataCustodian => [.routeCreate, .routeDelete, .routeList]
  | .user => [.login, .peerList, .routeList]

/-! ### `schema.cedarschema` -/

def principalAttrs : List (String × ValueType) :=
  [("id", .string), ("name", .string), ("type", .string), ("trustedNodes", .set), ("trustedDomains", .set)]

def resourceAttrs : List (String × ValueType) := [("nodeId", .string), ("domainId", .string)]

def appliesTo (principals : List Role) (resources : List String) : Cedar.ActionType where
  principals := principals.map roleToPrincipal
  resources := resources.map ("CATALYST::" ++ ·)

def actionType : Action → Cedar.ActionType
  | .login =>
    appliesTo [.admin, .node, .dataCustodian, .nodeCustodian, .user] ["AdminPanel", "IBGP", "Peer", "Route", "Token"]
  | .ibgpConnect => appliesTo [.admin, .node, .nodeCustodian] ["IBGP", "AdminPanel"]
  | .ibgpDisconnect => appliesTo [.admin, .node, .nodeCustodian] ["IBGP", "AdminPanel"]
  | .ibgpUpdate => appliesTo [.admin, .node, .nodeCustodian] ["IBGP", "AdminPanel"]
  | .peerCreate => appliesTo [.admin, .nodeCustodian] ["Peer", "AdminPanel"]
  | .peerUpdate => appliesTo [.admin, .nodeCustodian] ["Peer", "AdminPanel"]
  | .peerDelete => appliesTo [.admin, .nodeCustodian] ["Peer", "AdminPanel"]
  | .routeCreate => appliesTo [.admin, .dataCustodian] ["Route", "AdminPanel"]
  | .routeDelete => appliesTo [.admin, .dataCustodian] ["Route", "AdminPanel"]
  | .tokenCreate => appliesTo [.admin] ["Token"]
  | .tokenRevoke => appliesTo [.admin] ["Token"]
  | .tokenList => appliesTo [.admin] ["Token"]
  | .peerList => appliesTo [.admin, .nodeCustodian, .user] ["Peer", "AdminPanel"]
  | .routeList => appliesTo [.admin, .dataCustodian, .user] ["Route", "AdminPanel"]
  | .ibgpList => appliesTo [.admin, .node, .nodeCustodian] ["IBGP", "AdminPanel"]
  | .gatewayConfigUpdate => appliesTo [.admin, .node] ["Gateway", "AdminPanel"]
  | .manage => appliesTo [.admin, .node, .dataCustodian, .nodeCustodian, .user] ["AdminPanel"]

def catalystSchema : Cedar.Schema where
  entityTypes :=
    ([Role.admin, .node, .dataCustodian, .nodeCustodian, .user].map fun role => (roleToPrincipal role, principalAttrs)) ++
      ["IBGP", "Peer", "Route", "Token", "AdminPanel", "Gateway"].map fun name => ("CATALYST::" ++ name, resourceAttrs)
  actions := Action.values.map fun action => (action.uid, actionType action)

/-! ### The policies -/

/-- `principal.trustedDomains.contains(resource.domainId)`. -/
def domainTrusted : Expr := .contains (.getAttr .principal "trustedDomains") (.getAttr .resource "domainId")

/-- `principal.trustedNodes.isEmpty() || principal.trustedNodes.contains(resource.nodeId)`. -/
def nodeTrusted : Expr :=
  .or (.isEmpty (.getAttr .principal "trustedNodes"))
    (.contains (.getAttr .principal "trustedNodes") (.getAttr .resource "nodeId"))

def adminPolicy : Cedar.Policy where
  effect := .permit
  principalType := some (roleToPrincipal .admin)
  condition := .and (.or (.isEmpty (.getAttr .principal "trustedDomains")) domainTrusted) nodeTrusted

/-- The policies of the other roles differ in the role and its actions. -/
def rolePolicy (role : Role) (actions : List Action) : Cedar.Policy where
  effect := .permit
  principalType := some (roleToPrincipal role)
  actions := some (actions.map Action.uid)
  condition := .and domainTrusted nodeTrusted

def nodePolicy : Cedar.Policy :=
  rolePolicy .node [.ibgpConnect, .ibgpDisconnect, .ibgpUpdate, .ibgpList, .gatewayConfigUpdate]

def nodeCustodianPolicy : Cedar.Policy :=
  rolePolicy .nodeCustodian
    [.peerCreate, .peerUpdate, .peerDelete, .ibgpConnect, .ibgpDisconnect, .ibgpUpdate, .peerList, .ibgpList]

def dataCustodianPolicy : Cedar.Policy := rolePolicy .dataCustodian [.routeCreate, .routeDelete, .routeList]

def userPolicy : Cedar.Policy := rolePolicy .user [.login, .peerList, .routeList]

def allPolicies : List Cedar.Policy := [adminPolicy, nodePolicy, nodeCustodianPolicy, dataCustodianPolicy, userPolicy]

/-- What `validatePolicies` checks when the service starts. -/
theorem allPolicies_valid : ∀ policy ∈ allPolicies, catalystSchema.validPolicy policy = true := by decide

/-! ### What the policies decide -/

/-- A principal with these trusted sets may act at this node. Only an administrator may
    leave the domains open. -/
def Trusts (role : Role) (domains nodes : List String) (domainId nodeId : String) : Prop :=
  (domainId ∈ domains ∨ role = .admin ∧ domains = []) ∧ (nodeId ∈ nodes ∨ nodes = [])

instance (role : Role) (domains nodes : List String) (domainId nodeId : String) :
    Decidable (Trusts role domains nodes domainId nodeId) :=
  inferInstanceAs (Decidable (_ ∧ _))

/-- The attributes that the policies read. -/
structure Reads (request : Request) (entities : List Entity) (domains nodes : List String) (domainId nodeId : String) :
    Prop where
  trustedDomains : Cedar.eval request entities (.getAttr .principal "trustedDomains") = .ok (.set domains)
  trustedNodes : Cedar.eval request entities (.getAttr .principal "trustedNodes") = .ok (.set nodes)
  domainId : Cedar.eval request entities (.getAttr .resource "domainId") = .ok (.string domainId)
  nodeId : Cedar.eval request entities (.getAttr .resource "nodeId") = .ok (.string nodeId)

section Decisions

variable {request : Request} {entities : List Entity} {domains nodes : List String} {domainId nodeId : String}

theorem Action.mem_values (action : Action) : action ∈ Action.values := by cases action <;> decide

theorem domainTrusted_iff (h : Reads request entities domains nodes domainId nodeId) :
    Cedar.eval request entities domainTrusted = .ok (.bool true) ↔ domainId ∈ domains := by
  rw [domainTrusted, Cedar.eval_contains h.trustedDomains h.domainId]
  simp

theorem nodeTrusted_iff (h : Reads request entities domains nodes domainId nodeId) :
    Cedar.eval request entities nodeTrusted = .ok (.bool true) ↔ nodeId ∈ nodes ∨ nodes = [] := by
  rw [nodeTrusted, Cedar.eval_or, Cedar.eval_isEmpty h.trustedNodes, Cedar.eval_contains h.trustedNodes h.nodeId]
  cases nodes <;> simp

theorem satisfied_adminPolicy (h : Reads request entities domains nodes domainId nodeId) :
    adminPolicy.satisfied request entities = true ↔
      request.principal.type = roleToPrincipal .admin ∧ Trusts .admin domains nodes domainId nodeId := by
  have hdomains : Cedar.eval request entities (.or (.isEmpty (.getAttr .principal "trustedDomains")) domainTrusted) =
      .ok (.bool true) ↔ domainId ∈ domains ∨ domains = [] := by
    rw [Cedar.eval_or, Cedar.eval_isEmpty h.trustedDomains, domainTrusted_iff h]
    cases domains <;> simp
  simp only [Cedar.Policy.satisfied, Cedar.Policy.inScope, adminPolicy, Option.all_some, Option.all_none, Bool.and_true,
    Bool.and_eq_true, decide_eq_true_eq, Cedar.eval_and, hdomains, nodeTrusted_iff h, Trusts, true_and]

theorem satisfied_rolePolicy (h : Reads request entities domains nodes domainId nodeId) {role : Role} {actions : List Action}
    (hrole : role ≠ .admin) :
    (rolePolicy role actions).satisfied request entities = true ↔
      request.principal.type = roleToPrincipal role ∧ (∃ action ∈ actions, request.action = action.uid) ∧
        Trusts role domains nodes domainId nodeId := by
  have hactions : (actions.map Action.uid).contains request.action = true ↔
      ∃ action ∈ actions, request.action = action.uid := by
    simp [eq_comm]
  simp only [Cedar.Policy.satisfied, Cedar.Policy.inScope, rolePolicy, Option.all_some, Bool.and_eq_true, decide_eq_true_eq,
    hactions, Cedar.eval_and, domainTrusted_iff h, nodeTrusted_iff h, Trusts, hrole, false_and, or_false, and_assoc]

theorem lookup_actions (action : Action) : catalystSchema.actions.lookup action.uid = some (actionType action) := by
  cases action <;> rfl

/-- A valid request comes from a role, for one of the actions that apply to it. -/
theorem validRequest_iff :
    catalystSchema.validRequest request = true ↔
      ∃ role action, request.principal.type = roleToPrincipal role ∧ request.action = action.uid ∧
        roleToPrincipal role ∈ (actionType action).principals ∧ request.resource.type ∈ (actionType action).resources := by
  constructor
  · intro hvalid
    unfold Cedar.Schema.validRequest at hvalid
    cases haction : catalystSchema.actions.lookup request.action with
    | none => simp [haction] at hvalid
    | some declared =>
      obtain ⟨action, -, hentry⟩ := List.mem_map.mp (Cedar.mem_of_lookup haction)
      obtain ⟨huid, rfl⟩ := Prod.mk.inj hentry
      simp only [haction, Bool.and_eq_true, List.contains_iff_mem] at hvalid
      obtain ⟨principals, resources, happlies⟩ : ∃ principals resources, actionType action = appliesTo principals resources := by
        cases action <;> exact ⟨_, _, rfl⟩
      have hprincipal := hvalid.1
      rw [happlies] at hprincipal
      obtain ⟨role, -, hrole⟩ := List.mem_map.mp hprincipal
      exact ⟨role, action, hrole.symm, huid.symm, hrole ▸ hvalid.1, hvalid.2⟩
  · rintro ⟨role, action, hrole, haction, hprincipal, hresource⟩
    simp [Cedar.Schema.validRequest, haction, lookup_actions, hrole, hprincipal, hresource]

/-- The policies grant what the table of permissions lists, wherever the principal is trusted. -/
theorem allows_iff (hvalid : catalystSchema.validRequest request = true)
    (h : Reads request entities domains nodes domainId nodeId) :
    Cedar.allows allPolicies request entities = true ↔
      ∃ role action, request.principal.type = roleToPrincipal role ∧ request.action = action.uid ∧
        action ∈ rolePermissions role ∧ Trusts role domains nodes domainId nodeId := by
  obtain ⟨caller, asked, hcaller, hasked, -, -⟩ := validRequest_iff.mp hvalid
  have hpermits : Cedar.allows allPolicies request entities =
      allPolicies.any fun policy => policy.satisfied request entities := by
    simp [Cedar.allows, allPolicies, adminPolicy, nodePolicy, nodeCustodianPolicy, dataCustodianPolicy, userPolicy, rolePolicy]
  rw [hpermits]
  simp only [allPolicies, List.any_cons, List.any_nil, Bool.or_false, Bool.or_eq_true, satisfied_adminPolicy h]
  rw [nodePolicy, nodeCustodianPolicy, dataCustodianPolicy, userPolicy, satisfied_rolePolicy h (by decide),
    satisfied_rolePolicy h (by decide), satisfied_rolePolicy h (by decide), satisfied_rolePolicy h (by decide)]
  constructor
  · rintro (⟨hrole, htrusts⟩ | ⟨hrole, ⟨action, hmem, haction⟩, htrusts⟩ | ⟨hrole, ⟨action, hmem, haction⟩, htrusts⟩ |
      ⟨hrole, ⟨action, hmem, haction⟩, htrusts⟩ | ⟨hrole, ⟨action, hmem, haction⟩, htrusts⟩)
    · exact ⟨.admin, asked, hrole, hasked, asked.mem_values, htrusts⟩
    · exact ⟨.node, action, hrole, haction, hmem, htrusts⟩
    · exact ⟨.nodeCustodian, action, hrole, haction, hmem, htrusts⟩
    · exact ⟨.dataCustodian, action, hrole, haction, hmem, htrusts⟩
    · exact ⟨.user, action, hrole, haction, hmem, htrusts⟩
  · rintro ⟨role, action, hrole, haction, hmem, htrusts⟩
    cases role with
    | admin => exact .inl ⟨hrole, htrusts⟩
    | node => exact .inr (.inl ⟨hrole, ⟨action, hmem, haction⟩, htrusts⟩)
    | nodeCustodian => exact .inr (.inr (.inl ⟨hrole, ⟨action, hmem, haction⟩, htrusts⟩))
    | dataCustodian => exact .inr (.inr (.inr (.inl ⟨hrole, ⟨action, hmem, haction⟩, htrusts⟩)))
    | user => exact .inr (.inr (.inr (.inr ⟨hrole, ⟨action, hmem, haction⟩, htrusts⟩)))

end Decisions

section Calls

variable {call : Call} {principal resource : Entity} {domains nodes : List String} {domainId nodeId : String}

/-- The attributes of the entities that a call is about. -/
structure About (call : Call) (principal resource : Entity) (domains nodes : List String) (domainId nodeId : String) :
    Prop where
  schema : call.schema = catalystSchema
  policies : call.policies = allPolicies
  principal_mem : principal ∈ call.entities
  resource_mem : resource ∈ call.entities
  principal_uid : principal.uid = call.request.principal
  resource_uid : resource.uid = call.request.resource
  trustedDomains : principal.attrs.lookup "trustedDomains" = some (.set domains)
  trustedNodes : principal.attrs.lookup "trustedNodes" = some (.set nodes)
  domainId : resource.attrs.lookup "domainId" = some (.string domainId)
  nodeId : resource.attrs.lookup "nodeId" = some (.string nodeId)

theorem About.reads (h : About call principal resource domains nodes domainId nodeId) (hvalid : call.valid = true) :
    Reads call.request call.entities domains nodes domainId nodeId := by
  have hprincipal := call.find?_entity hvalid h.principal_mem
  have hresource := call.find?_entity hvalid h.resource_mem
  rw [h.principal_uid] at hprincipal
  rw [h.resource_uid] at hresource
  exact ⟨Cedar.eval_getAttr hprincipal h.trustedDomains, Cedar.eval_getAttr hprincipal h.trustedNodes,
    Cedar.eval_getAttr hresource h.domainId, Cedar.eval_getAttr hresource h.nodeId⟩

/-- The answer to a valid call is decided by the table of permissions and the trusted sets,
    and no policy fails on the way. -/
theorem valid_answered {engine : Call → Cedar.Answer} (hengine : Cedar.Conforms engine)
    (h : About call principal resource domains nodes domainId nodeId) (hvalid : call.valid = true) :
    (∃ allowed, engine call = .success allowed ∧
      (allowed = true ↔ ∃ role action, call.request.principal.type = roleToPrincipal role ∧
        call.request.action = action.uid ∧ action ∈ rolePermissions role ∧ Trusts role domains nodes domainId nodeId)) ∧
    ∀ policy ∈ call.policies, policy.inScope call.request = true →
      ∃ b, Cedar.eval call.request call.entities policy.condition = .ok (.bool b) := by
  have hrequest : catalystSchema.validRequest call.request = true := by
    have hparts := hvalid
    simp only [Call.valid, h.schema, Bool.and_eq_true] at hparts
    exact hparts.1.1
  refine ⟨⟨_, hengine.decides call hvalid, ?_⟩, fun policy hpolicy hscope => ?_⟩
  · rw [h.policies]
    exact allows_iff hrequest (h.reads hvalid)
  · refine call.eval_policy hvalid h.principal_mem h.resource_mem h.principal_uid h.resource_uid ?_ hscope
    rw [h.schema]
    exact allPolicies_valid policy (h.policies ▸ hpolicy)

/-- A data custodian asks a router for a route. -/
def custodianCall : Call where
  request :=
    { principal := { type := "CATALYST::DATA_CUSTODIAN", id := "dave" }, action := Action.routeCreate.uid,
      resource := { type := "CATALYST::Route", id := "books" } }
  entities :=
    [{ uid := { type := "CATALYST::DATA_CUSTODIAN", id := "dave" },
       attrs := [("id", .string "user-3"), ("name", .string "dave"), ("type", .string "user"), ("trustedNodes", .set []),
         ("trustedDomains", .set ["example.local"])] },
      { uid := { type := "CATALYST::Route", id := "books" },
        attrs := [("nodeId", .string "node-a"), ("domainId", .string "example.local")] }]
  policies := allPolicies
  schema := catalystSchema

theorem valid_answered_custodian : ∃ allowed, Cedar.isAuthorized custodianCall = .success allowed ∧ allowed = true := by
  have habout : About custodianCall
      { uid := { type := "CATALYST::DATA_CUSTODIAN", id := "dave" },
        attrs := [("id", .string "user-3"), ("name", .string "dave"), ("type", .string "user"), ("trustedNodes", .set []),
          ("trustedDomains", .set ["example.local"])] }
      { uid := { type := "CATALYST::Route", id := "books" },
        attrs := [("nodeId", .string "node-a"), ("domainId", .string "example.local")] }
      ["example.local"] [] "example.local" "node-a" :=
    ⟨rfl, rfl, List.mem_cons_self, List.mem_cons_of_mem _ List.mem_cons_self, rfl, rfl, rfl, rfl, rfl, rfl⟩
  obtain ⟨⟨allowed, hanswer, hallowed⟩, -⟩ := valid_answered Cedar.conforms_isAuthorized habout (by decide)
  exact ⟨allowed, hanswer, hallowed.mpr ⟨.dataCustodian, .routeCreate, by decide, rfl, by decide, by decide⟩⟩

end Calls

end CatalystRouter.Policy
