import CatalystRouter.Authorization.Policies
import CatalystRouter.Authorization.TokenFactory

namespace CatalystRouter

open Cedar (EntityUid Value Entity)

/-! ### `EntityBuilder` and `jwtToEntity` -/

def EntityType.name : EntityType → String
  | .user => "user"
  | .service => "service"

/-- An assignment to a property of an object. -/
def assign : List (String × Value) → String × Value → List (String × Value)
  | [], attr => [attr]
  | other :: rest, attr => if other.1 = attr.1 then attr :: rest else other :: assign rest attr

/-- `{ ...attrs, ...more }`. -/
def spread (attrs more : List (String × Value)) : List (String × Value) := more.foldl assign attrs

/-- `currentEntity` is the last of the entities, where there is one. -/
structure EntityBuilder where
  entities : List Entity := []
  currentEntity : Option Entity := none
  deriving DecidableEq, Repr

namespace EntityBuilder

/-- `build().getAll()`. -/
def getAll (builder : EntityBuilder) : List Entity := builder.entities ++ builder.currentEntity.toList

def entity (builder : EntityBuilder) (type id : String) : EntityBuilder where
  entities := builder.getAll
  currentEntity := some { uid := { type, id } }

def setAttributes (builder : EntityBuilder) (attrs : List (String × Value)) : Except String EntityBuilder :=
  match builder.currentEntity with
  | none => .error "Cannot set attributes: No entity is currently being built. Call entity() first."
  | some current => .ok { builder with currentEntity := some { current with attrs := spread current.attrs attrs } }

end EntityBuilder

/-- The first of the values that is truthy. -/
def firstTruthy (values : List (Option String)) : Option String := values.findSome? orUndefined

def jwtToEntity (payload : Payload) : Entity where
  uid :=
    { type := (orUndefined payload.principal).getD (Policy.roleToPrincipal .user)
      id := (firstTruthy [payload.entity.map (·.name), payload.entity.map (·.id)]).getD payload.sub }
  attrs :=
    match payload.entity with
    | none => []
    | some entity =>
      spread (spread [("id", .string entity.id), ("name", .string entity.name), ("type", .string entity.type.name)]
          (payload.claims.getD []))
        [("trustedNodes", .set ((entity.trustedNodes <|> payload.nodes).getD [])),
          ("trustedDomains", .set ((entity.trustedDomains <|> payload.domains).getD []))]

/-! ### `AuthorizationEngine` -/

/-- The text before and after the last `::`. -/
def lastSeparator : List Char → Option (List Char × List Char)
  | [] => none
  | c :: rest =>
    match lastSeparator rest with
    | some (type, id) => some (c :: type, id)
    | none => if c = ':' ∧ rest.head? = some ':' then some ([], rest.tail) else none

def parseAction (action : String) : EntityUid :=
  match lastSeparator action.toList with
  | some (type, id) => { type := String.ofList type, id := String.ofList id }
  | none => { type := "Action", id := action }

/-- `reasons` is read from `diagnostics` where that is an array, and the engine gives an object. -/
inductive AuthorizationEngineResult where
  | failure
  | evaluated (allowed : Bool) (reasons : List String)
  deriving DecidableEq, Repr

/-- An engine on the policy engine that it calls. -/
structure AuthorizationEngine where
  cedar : Cedar.Call → Cedar.Answer
  schema : Cedar.Schema
  policies : List Cedar.Policy

def AuthorizationEngine.isAuthorized (engine : AuthorizationEngine) (principal : EntityUid) (action : String)
    (resource : EntityUid) (entities : List Entity) : AuthorizationEngineResult :=
  let call : Cedar.Call :=
    { request := { principal, action := parseAction action, resource }, entities, policies := engine.policies,
      schema := engine.schema }
  match engine.cedar call with
  | .failure => .failure
  | .success allowed => .evaluated allowed []

/-- The engine of the auth service. -/
def catalystEngine (cedar : Cedar.Call → Cedar.Answer) : AuthorizationEngine where
  cedar
  schema := Policy.catalystSchema
  policies := Policy.allPolicies

/-! ### `AuthRpcServer` -/

structure NodeContext where
  nodeId : String
  domains : List String
  deriving DecidableEq, Repr

structure AuthorizeActionRequest where
  action : String
  nodeContext : NodeContext
  deriving DecidableEq, Repr

inductive AuthorizeActionResult where
  | allowed
  | permissionDenied (reasons : List String)
  | systemError (reason : String)
  deriving DecidableEq, Repr

structure AuthRpcServer (Key : Type) where
  tokenFactory : JWTTokenFactory Key
  policyService : Option AuthorizationEngine := none
  nodeId : String := "unknown"
  domainId : String := ""

/-- The resource that requests are about. -/
def adminPanel : EntityUid := { type := "CATALYST::AdminPanel", id := "admin-panel" }

/-- The principal and the admin panel of a node. -/
def requestEntities (principal : Entity) (nodeId domainId : String) : Except String (List Entity) := do
  let builder ← (EntityBuilder.entity {} principal.uid.type principal.uid.id).setAttributes principal.attrs
  let builder ← (builder.entity adminPanel.type adminPanel.id).setAttributes
    [("nodeId", .string nodeId), ("domainId", .string domainId)]
  return builder.getAll

/-- A check of the principal against the admin panel of a node; a builder without a current
    entity would throw. -/
def authorizeOnPanel (engine : AuthorizationEngine) (principal : Entity) (action nodeId domainId : String) :
    Except String AuthorizationEngineResult := do
  let entities ← requestEntities principal nodeId domainId
  return engine.isAuthorized principal.uid action adminPanel entities

namespace AuthRpcServer

variable {Key : Type} (jose : Jose Key)

/-- The check that `tokens` and `certs` make. -/
def requireAdmin (server : AuthRpcServer Key) (token : Jwt Key) (now : Nat) : Except String Unit :=
  match server.tokenFactory.verify jose token none now with
  | .error _ => .error "Invalid token"
  | .ok payload =>
    match server.policyService with
    | none => .error "Policy service not configured"
    | some engine => do
      match ← authorizeOnPanel engine (jwtToEntity payload) "CATALYST::Action::MANAGE" server.nodeId server.domainId with
      | .failure => .error "Error authorizing request"
      | .evaluated true _ => .ok ()
      | .evaluated false _ => .error "Permission denied: ADMIN principal required"

def tokens (server : AuthRpcServer Key) (token : Jwt Key) (now : Nat) : Except String Unit := server.requireAdmin jose token now

def certs (server : AuthRpcServer Key) (token : Jwt Key) (now : Nat) : Except String Unit := server.requireAdmin jose token now

def validation (server : AuthRpcServer Key) (token : Jwt Key) (now : Nat) : Except String Unit :=
  match server.tokenFactory.verify jose token none now with
  | .error _ => .error "Invalid token"
  | .ok _ => .ok ()

/-- The handlers keep the engine and the payload. -/
def permissions (server : AuthRpcServer Key) (token : Jwt Key) (now : Nat) :
    Except String (AuthorizationEngine × Payload) :=
  match server.tokenFactory.verify jose token none now with
  | .error _ => .error "Invalid token"
  | .ok payload =>
    match server.policyService with
    | none => .error "Policy service not configured"
    | some engine => .ok (engine, payload)

end AuthRpcServer

/-- `request.action.toUpperCase().replace(/[:-]/g, '_')`. -/
def actionId (toUpperCase : String → String) (action : String) : String :=
  String.ofList ((toUpperCase action).toList.map fun c => if c = ':' ∨ c = '-' then '_' else c)

/-- `authorizeAction` of the handlers of `permissions`. -/
def authorizeAction (toUpperCase : String → String) (engine : AuthorizationEngine) (payload : Payload)
    (request : AuthorizeActionRequest) : Except String AuthorizeActionResult := do
  match ← authorizeOnPanel engine (jwtToEntity payload) ("CATALYST::Action::" ++ actionId toUpperCase request.action)
      request.nodeContext.nodeId ((orUndefined request.nodeContext.domains.head?).getD "") with
  | .failure => return .systemError "Authorization system error"
  | .evaluated true _ => return .allowed
  | .evaluated false reasons => return .permissionDenied reasons

/-! ### What a request says -/

theorem lookup_cons_ite (entry : String × Value) (rest : List (String × Value)) (name : String) :
    (entry :: rest).lookup name = if name = entry.1 then some entry.2 else rest.lookup name := by
  obtain ⟨key, value⟩ := entry
  by_cases hname : name = key
  · subst hname
    simp
  · have hother : (name == key) = false := beq_eq_false_iff_ne.mpr hname
    rw [List.lookup_cons, hother, if_neg hname]

/-- Assigning an attribute changes this attribute only. -/
theorem lookup_assign (attrs : List (String × Value)) (attr : String × Value) (name : String) :
    (assign attrs attr).lookup name = if name = attr.1 then some attr.2 else attrs.lookup name := by
  induction attrs with
  | nil => exact lookup_cons_ite attr [] name
  | cons other rest ih =>
    rw [assign, lookup_cons_ite other]
    split
    · rename_i hkey
      rw [lookup_cons_ite, hkey]
      split <;> rfl
    · rename_i hkey
      rw [lookup_cons_ite, ih]
      by_cases hname : name = other.1
      · simp [hname, hkey]
      · simp [hname]

/-- After an assignment the names are those before and that of the new attribute. -/
theorem mem_assign_keys {attrs : List (String × Value)} {attr : String × Value} {name : String} :
    name ∈ (assign attrs attr).map Prod.fst ↔ name = attr.1 ∨ name ∈ attrs.map Prod.fst := by
  induction attrs with
  | nil => simp [assign]
  | cons other rest ih =>
    rw [assign]
    split
    · rename_i hkey
      simp [hkey]
    · rw [List.map_cons, List.mem_cons, ih, List.map_cons, List.mem_cons, or_left_comm]

/-- Attributes keep distinct names. -/
theorem assign_keys_nodup {attrs : List (String × Value)} (h : (attrs.map Prod.fst).Nodup) (attr : String × Value) :
    ((assign attrs attr).map Prod.fst).Nodup := by
  induction attrs with
  | nil => simp [assign]
  | cons other rest ih =>
    obtain ⟨hother, hrest⟩ := List.nodup_cons.mp h
    rw [assign]
    split
    · rename_i hkey
      exact List.nodup_cons.mpr ⟨hkey ▸ hother, hrest⟩
    · rename_i hkey
      refine List.nodup_cons.mpr ⟨fun hmem => ?_, ih hrest⟩
      exact (mem_assign_keys.mp hmem).elim hkey hother

/-- So do attributes that others are spread over. -/
theorem spread_keys_nodup {attrs : List (String × Value)} (h : (attrs.map Prod.fst).Nodup) (more : List (String × Value)) :
    ((spread attrs more).map Prod.fst).Nodup := by
  induction more generalizing attrs with
  | nil => exact h
  | cons attr rest ih => exact ih (assign_keys_nodup h attr)

/-- A new attribute is added at the end. -/
theorem assign_of_notMem {attrs : List (String × Value)} {attr : String × Value} (h : attr.1 ∉ attrs.map Prod.fst) :
    assign attrs attr = attrs ++ [attr] := by
  induction attrs with
  | nil => rfl
  | cons other rest ih =>
    obtain ⟨hother, hrest⟩ := not_or.mp (mt List.mem_cons.mpr h)
    rw [assign, if_neg fun hkey => hother hkey.symm, ih hrest, List.cons_append]

/-- Spreading an object into a new one copies it. -/
theorem spread_new {attrs more : List (String × Value)} (h : ((attrs ++ more).map Prod.fst).Nodup) :
    spread attrs more = attrs ++ more := by
  induction more generalizing attrs with
  | nil => exact (List.append_nil attrs).symm
  | cons attr rest ih =>
    have hnew : attr.1 ∉ attrs.map Prod.fst := fun hmem => by
      rw [List.map_append, List.nodup_append] at h
      exact h.2.2 attr.1 hmem attr.1 (by simp) rfl
    rw [spread, List.foldl_cons, assign_of_notMem hnew, ← spread, ih (by simpa using h)]
    simp

/-- The attributes of a principal have distinct names. -/
theorem jwtToEntity_keys_nodup (payload : Payload) : ((jwtToEntity payload).attrs.map Prod.fst).Nodup := by
  unfold jwtToEntity
  cases payload.entity with
  | none => exact List.nodup_nil
  | some entity => exact spread_keys_nodup (spread_keys_nodup (by simp) _) _

theorem lastSeparator_of_notMem {text : List Char} (h : ':' ∉ text) : lastSeparator text = none := by
  induction text with
  | nil => rfl
  | cons c rest ih =>
    have hc : c ≠ ':' := fun heq => h (by simp [heq])
    rw [lastSeparator, ih fun hmem => h (List.mem_cons_of_mem c hmem)]
    simp [hc]

/-- An id without a colon is what follows the last `::`. -/
theorem lastSeparator_append (type : List Char) {id : List Char} (h : ':' ∉ id) :
    lastSeparator (type ++ ':' :: ':' :: id) = some (type, id) := by
  induction type with
  | nil =>
    have hhead : id.head? ≠ some ':' := fun heq => h (List.mem_of_mem_head? heq)
    simp [lastSeparator, lastSeparator_of_notMem h, hhead]
  | cons c rest ih => rw [List.cons_append, lastSeparator, ih]

/-- An id without a colon is read back from the name of its action. -/
theorem parseAction_catalyst {id : String} (h : ':' ∉ id.toList) :
    parseAction ("CATALYST::Action::" ++ id) = { type := "CATALYST::Action", id } := by
  have htext : ("CATALYST::Action::" ++ id).toList = "CATALYST::Action".toList ++ ':' :: ':' :: id.toList := by
    rw [String.toList_append]
    rfl
  rw [parseAction, htext, lastSeparator_append _ h]
  simp

/-- A colon of an action is replaced. -/
theorem colon_notMem_actionId (toUpperCase : String → String) (action : String) :
    ':' ∉ (actionId toUpperCase action).toList := by
  intro hmem
  rw [actionId, String.toList_ofList] at hmem
  obtain ⟨c, -, hc⟩ := List.mem_map.mp hmem
  split at hc
  · cases hc
  · rename_i hother
    exact hother (.inl hc)

/-! ### What is answered -/

def Payload.trustedNodes (payload : Payload) : List String :=
  ((payload.entity.bind (·.trustedNodes)) <|> payload.nodes).getD []

def Payload.trustedDomains (payload : Payload) : List String :=
  ((payload.entity.bind (·.trustedDomains)) <|> payload.domains).getD []

/-- The schema admits the principal, and the action for it on the admin panel. -/
def Admitted (payload : Payload) (id : String) : Prop :=
  Policy.catalystSchema.validEntity (jwtToEntity payload) = true ∧
    ∃ role action, (jwtToEntity payload).uid.type = Policy.roleToPrincipal role ∧ id = action.name ∧
      Policy.roleToPrincipal role ∈ (Policy.actionType action).principals ∧
      adminPanel.type ∈ (Policy.actionType action).resources

/-- The table of permissions lists the action for the role of the principal, who is trusted
    with the node. -/
def Permitted (payload : Payload) (id nodeId domainId : String) : Prop :=
  ∃ role action, (jwtToEntity payload).uid.type = Policy.roleToPrincipal role ∧ id = action.name ∧
    action ∈ Policy.rolePermissions role ∧ Policy.Trusts role payload.trustedDomains payload.trustedNodes domainId nodeId

def panelEntity (nodeId domainId : String) : Entity where
  uid := adminPanel
  attrs := [("nodeId", .string nodeId), ("domainId", .string domainId)]

section Panel

variable {cedar : Cedar.Call → Cedar.Answer} {payload : Payload} {id : String}

/-- A request is about the principal and the panel of the node. -/
theorem requestEntities_eq (payload : Payload) (nodeId domainId : String) :
    requestEntities (jwtToEntity payload) nodeId domainId = .ok [jwtToEntity payload, panelEntity nodeId domainId] := by
  have hattrs : spread [] (jwtToEntity payload).attrs = (jwtToEntity payload).attrs :=
    spread_new (jwtToEntity_keys_nodup payload)
  simp only [requestEntities, EntityBuilder.entity, EntityBuilder.getAll, EntityBuilder.setAttributes, bind, Except.bind, hattrs]
  rfl

/-- A principal that the schema admits has the trusted sets of its token. -/
theorem trusted_of_valid (h : Policy.catalystSchema.validEntity (jwtToEntity payload) = true)
    {role : Policy.Role} (hrole : (jwtToEntity payload).uid.type = Policy.roleToPrincipal role) :
    (jwtToEntity payload).attrs.lookup "trustedDomains" = some (.set payload.trustedDomains) ∧
      (jwtToEntity payload).attrs.lookup "trustedNodes" = some (.set payload.trustedNodes) := by
  cases hentity : payload.entity with
  | none =>
    have htyped : Policy.catalystSchema.attrType (jwtToEntity payload).uid.type "id" = some .string := by
      rw [hrole]
      cases role <;> rfl
    obtain ⟨value, hvalue, -⟩ := Policy.catalystSchema.exists_attr h htyped
    simp [jwtToEntity, hentity] at hvalue
  | some entity =>
    simp [jwtToEntity, hentity, spread, lookup_assign, Payload.trustedDomains, Payload.trustedNodes]

/-- The call that is made for an action without a colon. -/
def panelCall (payload : Payload) (id nodeId domainId : String) : Cedar.Call where
  request := { principal := (jwtToEntity payload).uid, action := { type := "CATALYST::Action", id }, resource := adminPanel }
  entities := [jwtToEntity payload, panelEntity nodeId domainId]
  policies := Policy.allPolicies
  schema := Policy.catalystSchema

/-- The schema admits a request exactly if it admits the principal for the action. -/
theorem panelCall_valid (payload : Payload) (id nodeId domainId : String) :
    (panelCall payload id nodeId domainId).valid = true ↔ Admitted payload id := by
  have haction (action : Policy.Action) : ({ type := "CATALYST::Action", id } : EntityUid) = action.uid ↔ id = action.name := by
    simp [Policy.Action.uid]
  have hpanel : Policy.catalystSchema.validEntity (panelEntity nodeId domainId) = true := rfl
  have hrequest : (panelCall payload id nodeId domainId).schema.validRequest (panelCall payload id nodeId domainId).request =
      true ↔ ∃ role action, (jwtToEntity payload).uid.type = Policy.roleToPrincipal role ∧ id = action.name ∧
        Policy.roleToPrincipal role ∈ (Policy.actionType action).principals ∧
        adminPanel.type ∈ (Policy.actionType action).resources := by
    refine Policy.validRequest_iff.trans ?_
    simp only [panelCall, haction]
  rw [Cedar.Call.valid, Bool.and_eq_true, Bool.and_eq_true, hrequest]
  simp only [panelCall, List.all_cons, List.all_nil, Bool.and_true, hpanel, Admitted]
  constructor
  · exact fun h => ⟨h.1.2, h.1.1⟩
  · rintro ⟨hentity, hasks⟩
    refine ⟨⟨hasks, hentity⟩, ?_⟩
    obtain ⟨role, -, hrole, -⟩ := hasks
    have hother : (jwtToEntity payload).uid ≠ adminPanel := fun heq => by
      rw [heq] at hrole
      revert hrole
      cases role <;> decide
    simpa [panelEntity] using hother

/-- The policies allow what the table of permissions and the trusted sets permit. -/
theorem panelCall_allows {nodeId domainId : String} (h : Admitted payload id) :
    Cedar.allows Policy.allPolicies (panelCall payload id nodeId domainId).request
        (panelCall payload id nodeId domainId).entities = true ↔ Permitted payload id nodeId domainId := by
  have hvalid := (panelCall_valid payload id nodeId domainId).mpr h
  obtain ⟨hentity, role, -, hrole, -⟩ := h
  obtain ⟨hdomains, hnodes⟩ := trusted_of_valid hentity hrole
  have habout : Policy.About (panelCall payload id nodeId domainId) (jwtToEntity payload) (panelEntity nodeId domainId)
      payload.trustedDomains payload.trustedNodes domainId nodeId :=
    ⟨rfl, rfl, by simp [panelCall], by simp [panelCall], rfl, rfl, hdomains, hnodes, rfl, rfl⟩
  have hrequest : Policy.catalystSchema.validRequest (panelCall payload id nodeId domainId).request = true := by
    simp only [Cedar.Call.valid, Bool.and_eq_true] at hvalid
    exact hvalid.1.1
  refine (Policy.allows_iff hrequest (habout.reads hvalid)).trans ?_
  simp [panelCall, Policy.Action.uid, Permitted]

/-- The check has three outcomes: a failure where the schema does not admit the request, and
    else what is permitted. -/
theorem authorizeOnPanel_cases (hcedar : Cedar.Conforms cedar) (payload : Payload) (hid : ':' ∉ id.toList)
    (nodeId domainId : String) :
    ∃ result, authorizeOnPanel (catalystEngine cedar) (jwtToEntity payload) ("CATALYST::Action::" ++ id) nodeId domainId =
        .ok result ∧
      (result = .failure ∧ ¬ Admitted payload id ∨
        result = .evaluated true [] ∧ Admitted payload id ∧ Permitted payload id nodeId domainId ∨
        result = .evaluated false [] ∧ Admitted payload id ∧ ¬ Permitted payload id nodeId domainId) := by
  have hcall : authorizeOnPanel (catalystEngine cedar) (jwtToEntity payload) ("CATALYST::Action::" ++ id) nodeId domainId =
      .ok (match cedar (panelCall payload id nodeId domainId) with
        | .failure => .failure
        | .success allowed => .evaluated allowed []) := by
    simp only [authorizeOnPanel, requestEntities_eq, bind, Except.bind, AuthorizationEngine.isAuthorized,
      parseAction_catalyst hid]
    rfl
  refine ⟨_, hcall, ?_⟩
  cases hvalid : (panelCall payload id nodeId domainId).valid with
  | false =>
    rw [hcedar.fails _ hvalid]
    exact .inl ⟨rfl, fun h => by simp [(panelCall_valid payload id nodeId domainId).mpr h] at hvalid⟩
  | true =>
    have hadmitted := (panelCall_valid payload id nodeId domainId).mp hvalid
    have hallows := @panelCall_allows payload id nodeId domainId hadmitted
    rw [hcedar.decides _ hvalid]
    dsimp only
    cases hdecided : Cedar.allows (panelCall payload id nodeId domainId).policies
        (panelCall payload id nodeId domainId).request (panelCall payload id nodeId domainId).entities with
    | true => exact .inr (.inl ⟨rfl, hadmitted, hallows.mp hdecided⟩)
    | false =>
      refine .inr (.inr ⟨rfl, hadmitted, fun hpermitted => ?_⟩)
      have hdenied : Cedar.allows Policy.allPolicies (panelCall payload id nodeId domainId).request
          (panelCall payload id nodeId domainId).entities = false := hdecided
      exact absurd (hallows.mpr hpermitted) (by simp [hdenied])

/-- The schema admits every token with an entity and no claims of its own, for the actions
    of its role. -/
theorem admitted_iff {entity : TokenEntity} (hentity : payload.entity = some entity) (hclaims : payload.claims = none) :
    Admitted payload id ↔ ∃ role action, (jwtToEntity payload).uid.type = Policy.roleToPrincipal role ∧ id = action.name ∧
      Policy.roleToPrincipal role ∈ (Policy.actionType action).principals ∧
      adminPanel.type ∈ (Policy.actionType action).resources := by
  refine and_iff_right_of_imp ?_
  rintro ⟨role, -, hrole, -⟩
  have hattrs : (jwtToEntity payload).attrs = [("id", .string entity.id), ("name", .string entity.name),
      ("type", .string entity.type.name), ("trustedNodes", .set payload.trustedNodes),
      ("trustedDomains", .set payload.trustedDomains)] := by
    simp [jwtToEntity, hentity, hclaims, spread, assign, Payload.trustedNodes, Payload.trustedDomains]
  unfold Cedar.Schema.validEntity
  rw [hrole, hattrs]
  cases role <;> rfl

/-- Every payload and every request get one of three answers: a system error where the schema
    does not admit them, and else what the table of permissions and the trusted sets decide. -/
theorem authorizeAction_answers (hcedar : Cedar.Conforms cedar) (toUpperCase : String → String) (payload : Payload)
    (request : AuthorizeActionRequest) :
    ∃ result, authorizeAction toUpperCase (catalystEngine cedar) payload request = .ok result ∧
      (result = .allowed ↔ Admitted payload (actionId toUpperCase request.action) ∧
        Permitted payload (actionId toUpperCase request.action) request.nodeContext.nodeId
          ((orUndefined request.nodeContext.domains.head?).getD "")) ∧
      (result = .systemError "Authorization system error" ↔ ¬ Admitted payload (actionId toUpperCase request.action)) ∧
      (result = .permissionDenied [] ↔ Admitted payload (actionId toUpperCase request.action) ∧
        ¬ Permitted payload (actionId toUpperCase request.action) request.nodeContext.nodeId
          ((orUndefined request.nodeContext.domains.head?).getD "")) := by
  obtain ⟨result, hresult, hcases⟩ := authorizeOnPanel_cases hcedar payload
    (colon_notMem_actionId toUpperCase request.action) request.nodeContext.nodeId
    ((orUndefined request.nodeContext.domains.head?).getD "")
  unfold authorizeAction
  rw [hresult]
  rcases hcases with ⟨rfl, hnot⟩ | ⟨rfl, hadmitted, hpermitted⟩ | ⟨rfl, hadmitted, hnot⟩
  · exact ⟨_, rfl, by simp [hnot], by simp [hnot], by simp [hnot]⟩
  · exact ⟨_, rfl, by simp [hadmitted, hpermitted], by simp [hadmitted], by simp [hpermitted]⟩
  · exact ⟨_, rfl, by simp [hnot], by simp [hadmitted], by simp [hadmitted, hnot]⟩

/-- A custodian of the nodes of a domain. -/
def custodianPayload : Payload where
  sub := "carol"
  principal := some "CATALYST::NODE_CUSTODIAN"
  entity := some { id := "user-2", name := "carol", type := .user, trustedDomains := some ["example.local"] }

theorem authorizeAction_answers_custodian :
    authorizeAction String.toUpper (catalystEngine Cedar.isAuthorized) custodianPayload
      { action := "peer:create", nodeContext := { nodeId := "node-a", domains := ["example.local"] } } = .ok .allowed := by
  obtain ⟨result, hresult, hallowed, -⟩ := authorizeAction_answers Cedar.conforms_isAuthorized String.toUpper custodianPayload
    { action := "peer:create", nodeContext := { nodeId := "node-a", domains := ["example.local"] } }
  have hid : actionId String.toUpper "peer:create" = Policy.Action.peerCreate.name := by decide +kernel
  have hadmitted : Admitted custodianPayload (actionId String.toUpper "peer:create") :=
    (admitted_iff rfl rfl).mpr ⟨.nodeCustodian, .peerCreate, by decide, hid, by decide, by decide⟩
  have hpermitted : Permitted custodianPayload (actionId String.toUpper "peer:create") "node-a" "example.local" :=
    ⟨.nodeCustodian, .peerCreate, by decide, hid, by decide, by decide⟩
  rw [hresult, hallowed.mpr ⟨hadmitted, hpermitted⟩]

end Panel

namespace AuthRpcServer

variable {Key : Type} {jose : Jose Key} {server : AuthRpcServer Key} {cedar : Cedar.Call → Cedar.Answer}

/-- An administrator who is trusted with the node. -/
def Administers (server : AuthRpcServer Key) (payload : Payload) : Prop :=
  (jwtToEntity payload).uid.type = Policy.roleToPrincipal .admin ∧
    Policy.Trusts .admin payload.trustedDomains payload.trustedNodes server.domainId server.nodeId

/-- Only administrators who are trusted with the node may manage it. -/
theorem permitted_manage_iff {payload : Payload} :
    Permitted payload "MANAGE" server.nodeId server.domainId ↔ server.Administers payload := by
  constructor
  · rintro ⟨role, action, hrole, haction, hmem, htrusts⟩
    obtain rfl : role = .admin := by
      revert haction hmem
      cases action <;> cases role <;> decide
    exact ⟨hrole, htrusts⟩
  · exact fun ⟨hrole, htrusts⟩ => ⟨.admin, .manage, hrole, rfl, Policy.Action.mem_values _, htrusts⟩

/-- The handlers of `tokens` and `certs` are for accepted tokens of administrators. -/
theorem requireAdmin_ok (hcedar : Cedar.Conforms cedar) (hpolicy : server.policyService = some (catalystEngine cedar))
    {token : Jwt Key} {now : Nat} (h : server.requireAdmin jose token now = .ok ()) :
    ∃ payload, server.tokenFactory.verify jose token none now = .ok payload ∧ server.Administers payload := by
  unfold requireAdmin at h
  split at h
  · cases h
  · rename_i payload hverified
    rw [hpolicy] at h
    obtain ⟨result, hresult, hcases⟩ := authorizeOnPanel_cases hcedar payload (show ':' ∉ "MANAGE".toList by decide) server.nodeId
      server.domainId
    rw [show "CATALYST::Action::MANAGE" = "CATALYST::Action::" ++ "MANAGE" from rfl] at h
    simp only [hresult, bind, Except.bind] at h
    rcases hcases with ⟨rfl, -⟩ | ⟨rfl, -, hpermitted⟩ | ⟨rfl, -⟩
    · cases h
    · exact ⟨payload, hverified, permitted_manage_iff.mp hpermitted⟩
    · cases h

/-- An administrator whom the schema admits gets the handlers. -/
theorem requireAdmin_of_admitted (hcedar : Cedar.Conforms cedar)
    (hpolicy : server.policyService = some (catalystEngine cedar)) {token : Jwt Key} {now : Nat} {payload : Payload}
    (hverified : server.tokenFactory.verify jose token none now = .ok payload) (hadmitted : Admitted payload "MANAGE")
    (hadmin : server.Administers payload) : server.requireAdmin jose token now = .ok () := by
  obtain ⟨result, hresult, hcases⟩ := authorizeOnPanel_cases hcedar payload (show ':' ∉ "MANAGE".toList by decide) server.nodeId
    server.domainId
  rw [show "CATALYST::Action::" ++ "MANAGE" = "CATALYST::Action::MANAGE" from rfl] at hresult
  simp only [requireAdmin, hverified, hpolicy, hresult, bind, Except.bind]
  rcases hcases with ⟨-, hnot⟩ | ⟨rfl, -⟩ | ⟨-, -, hnot⟩
  · exact absurd hadmitted hnot
  · rfl
  · exact absurd (permitted_manage_iff.mpr hadmin) hnot

end AuthRpcServer

end CatalystRouter
