import Mathlib.Data.List.Nodup

/-! A fragment of the Cedar policy language: policies over strings and sets of strings, and the
    checks of a call against its schema. -/

namespace Cedar

structure EntityUid where
  type : String
  id : String
  deriving DecidableEq, Repr

inductive Value where
  | bool (b : Bool)
  | long (n : Int)
  | string (text : String)
  | set (elements : List String)
  deriving DecidableEq, Repr

inductive ValueType where
  | bool
  | long
  | string
  | set
  deriving DecidableEq, Repr

def Value.type : Value → ValueType
  | .bool _ => .bool
  | .long _ => .long
  | .string _ => .string
  | .set _ => .set

/-- The attributes are a record. -/
structure Entity where
  uid : EntityUid
  attrs : List (String × Value) := []
  deriving DecidableEq, Repr

structure Request where
  principal : EntityUid
  action : EntityUid
  resource : EntityUid
  deriving DecidableEq, Repr

/-! ### Expressions -/

inductive Var where
  | principal
  | resource
  deriving DecidableEq, Repr

inductive Expr where
  | lit (value : Value)
  | getAttr (var : Var) (attr : String)
  | and (left right : Expr)
  | or (left right : Expr)
  | isEmpty (set : Expr)
  | contains (set element : Expr)
  deriving DecidableEq, Repr

inductive EvalError where
  | entityDoesNotExist
  | attrDoesNotExist
  | typeError
  deriving DecidableEq, Repr

def Request.read (request : Request) : Var → EntityUid
  | .principal => request.principal
  | .resource => request.resource

def getAttr (entities : List Entity) (uid : EntityUid) (attr : String) : Except EvalError Value :=
  match entities.find? fun entity => entity.uid = uid with
  | none => .error .entityDoesNotExist
  | some entity =>
    match entity.attrs.lookup attr with
    | none => .error .attrDoesNotExist
    | some value => .ok value

def asBool : Except EvalError Value → Except EvalError Bool
  | .ok (.bool b) => .ok b
  | .ok _ => .error .typeError
  | .error error => .error error

/-- The right side of `&&` and `||` is evaluated only if the left one does not decide. -/
def eval (request : Request) (entities : List Entity) : Expr → Except EvalError Value
  | .lit value => .ok value
  | .getAttr var attr => getAttr entities (request.read var) attr
  | .and left right => do
    let decided ← asBool (eval request entities left)
    if decided then .bool <$> asBool (eval request entities right) else return .bool false
  | .or left right => do
    let decided ← asBool (eval request entities left)
    if decided then return .bool true else .bool <$> asBool (eval request entities right)
  | .isEmpty set => do
    match ← eval request entities set with
    | .set elements => return .bool elements.isEmpty
    | _ => throw .typeError
  | .contains set element => do
    match ← eval request entities set, ← eval request entities element with
    | .set elements, .string text => return .bool (elements.contains text)
    | .set _, _ => return .bool false
    | _, _ => throw .typeError

/-! ### Policies -/

inductive Effect where
  | permit
  | forbid
  deriving DecidableEq, Repr

/-- `effect (principal is principalType, action in actions, resource) when { condition }`. The
    actions of a schema without action groups are in nothing but themselves. -/
structure Policy where
  effect : Effect
  principalType : Option String := none
  actions : Option (List EntityUid) := none
  condition : Expr := .lit (.bool true)
  deriving DecidableEq, Repr

/-- The head of the policy matches. -/
def Policy.inScope (policy : Policy) (request : Request) : Bool :=
  policy.principalType.all (request.principal.type = ·) && policy.actions.all (·.contains request.action)

def Policy.satisfied (policy : Policy) (request : Request) (entities : List Entity) : Bool :=
  policy.inScope request && decide (eval request entities policy.condition = .ok (.bool true))

/-- A request is denied unless a policy permits it, and if one forbids it. A policy whose
    evaluation fails is left out. -/
def allows (policies : List Policy) (request : Request) (entities : List Entity) : Bool :=
  (policies.any fun policy => decide (policy.effect = .permit) && policy.satisfied request entities) &&
    !policies.any fun policy => decide (policy.effect = .forbid) && policy.satisfied request entities

/-! ### Schemas and calls -/

structure ActionType where
  principals : List String
  resources : List String
  deriving DecidableEq, Repr

/-- All declared attributes are required. -/
structure Schema where
  entityTypes : List (String × List (String × ValueType))
  actions : List (EntityUid × ActionType)
  deriving DecidableEq, Repr

def Schema.attrType (schema : Schema) (type attr : String) : Option ValueType :=
  (schema.entityTypes.lookup type).bind (·.lookup attr)

/-- The entity has the attributes that its type declares, and no others. -/
def Schema.validEntity (schema : Schema) (entity : Entity) : Bool :=
  match schema.entityTypes.lookup entity.uid.type with
  | none => false
  | some declared =>
    (entity.attrs.all fun attr => decide (declared.lookup attr.1 = some attr.2.type)) &&
      declared.all fun attr => (entity.attrs.lookup attr.1).isSome

def Schema.validRequest (schema : Schema) (request : Request) : Bool :=
  match schema.actions.lookup request.action with
  | none => false
  | some action => action.principals.contains request.principal.type && action.resources.contains request.resource.type

/-- The type of an expression for a principal and a resource of the given types. -/
def Schema.typeOf (schema : Schema) (types : Var → String) : Expr → Option ValueType
  | .lit value => some value.type
  | .getAttr var attr => schema.attrType (types var) attr
  | .and left right =>
    if schema.typeOf types left = some .bool ∧ schema.typeOf types right = some .bool then some .bool else none
  | .or left right =>
    if schema.typeOf types left = some .bool ∧ schema.typeOf types right = some .bool then some .bool else none
  | .isEmpty set => if schema.typeOf types set = some .set then some .bool else none
  | .contains set element =>
    if schema.typeOf types set = some .set ∧ schema.typeOf types element = some .string then some .bool else none

def Policy.typeOf (policy : Policy) (schema : Schema) (principalType resourceType : String) : Option ValueType :=
  schema.typeOf (fun | .principal => principalType | .resource => resourceType) policy.condition

/-- The condition is of type bool for all requests in the scope of the policy. -/
def Schema.validPolicy (schema : Schema) (policy : Policy) : Bool :=
  schema.actions.all fun action =>
    !policy.actions.all (·.contains action.1) || action.2.principals.all fun principalType =>
      !policy.principalType.all (principalType = ·) || action.2.resources.all fun resourceType =>
        decide (policy.typeOf schema principalType resourceType = some .bool)

/-- A call with an empty context. -/
structure Call where
  request : Request
  entities : List Entity
  policies : List Policy
  schema : Schema
  deriving DecidableEq, Repr

def Call.valid (call : Call) : Bool :=
  call.schema.validRequest call.request && call.entities.all call.schema.validEntity &&
    decide (call.entities.map (·.uid)).Nodup

inductive Answer where
  | failure
  | success (allowed : Bool)
  deriving DecidableEq, Repr

def isAuthorized (call : Call) : Answer :=
  if call.valid then .success (allows call.policies call.request call.entities) else .failure

/-- What an engine for the language answers: an invalid call fails, and a valid one is decided
    by the policies. -/
structure Conforms (engine : Call → Answer) : Prop where
  fails : ∀ call, call.valid = false → engine call = .failure
  decides : ∀ call, call.valid = true → engine call = .success (allows call.policies call.request call.entities)

theorem conforms_isAuthorized : Conforms isAuthorized where
  fails call h := by simp [isAuthorized, h]
  decides call h := by simp [isAuthorized, h]

/-! ### Evaluation -/

section Eval

variable {request : Request} {entities : List Entity}

/-- The right side of a connective that its left side leaves open. -/
theorem map_asBool {result : Except EvalError Value} :
    Value.bool <$> asBool result = .ok (.bool true) ↔ result = .ok (.bool true) := by
  rcases result with error | value
  · simp [asBool, Functor.map, Except.map]
  · cases value <;> simp [asBool, Functor.map, Except.map]

theorem eval_and {left right : Expr} :
    eval request entities (.and left right) = .ok (.bool true) ↔
      eval request entities left = .ok (.bool true) ∧ eval request entities right = .ok (.bool true) := by
  rw [eval]
  rcases eval request entities left with error | value
  · simp [asBool, bind, Except.bind]
  · cases value with
    | bool b =>
      cases b with
      | false => simp [asBool, bind, Except.bind, pure, Except.pure]
      | true => exact map_asBool.trans (by simp)
    | long | string | set => simp [asBool, bind, Except.bind]

theorem eval_or {left right : Expr} :
    eval request entities (.or left right) = .ok (.bool true) ↔
      eval request entities left = .ok (.bool true) ∨
        eval request entities left = .ok (.bool false) ∧ eval request entities right = .ok (.bool true) := by
  rw [eval]
  rcases eval request entities left with error | value
  · simp [asBool, bind, Except.bind]
  · cases value with
    | bool b =>
      cases b with
      | false => exact map_asBool.trans (by simp)
      | true => simp [asBool, bind, Except.bind, pure, Except.pure]
    | long | string | set => simp [asBool, bind, Except.bind]

theorem eval_isEmpty {set : Expr} {elements : List String} (h : eval request entities set = .ok (.set elements)) :
    eval request entities (.isEmpty set) = .ok (.bool elements.isEmpty) := by
  rw [eval, h]
  rfl

theorem eval_contains {set element : Expr} {elements : List String} {text : String}
    (hset : eval request entities set = .ok (.set elements)) (helement : eval request entities element = .ok (.string text)) :
    eval request entities (.contains set element) = .ok (.bool (elements.contains text)) := by
  rw [eval, hset, helement]
  rfl

theorem eval_getAttr {var : Var} {attr : String} {entity : Entity} {value : Value}
    (hentity : entities.find? (fun entity => entity.uid = request.read var) = some entity)
    (hvalue : entity.attrs.lookup attr = some value) :
    eval request entities (.getAttr var attr) = .ok value := by
  simp [eval, getAttr, hentity, hvalue]

theorem mem_of_lookup {κ α : Type} [BEq κ] [LawfulBEq κ] {entries : List (κ × α)} {key : κ} {value : α}
    (h : entries.lookup key = some value) : (key, value) ∈ entries := by
  obtain ⟨before, after, rfl, -⟩ := List.lookup_eq_some_iff.mp h
  simp

theorem exists_bool {value : Value} (h : value.type = .bool) : ∃ b, value = .bool b := by
  cases value with
  | bool b => exact ⟨b, rfl⟩
  | long | string | set => cases h

/-- A valid entity has the attributes that are declared. -/
theorem Schema.exists_attr {schema : Schema} {entity : Entity} (hvalid : schema.validEntity entity = true) {attr : String}
    {type : ValueType} (htype : schema.attrType entity.uid.type attr = some type) :
    ∃ value, entity.attrs.lookup attr = some value ∧ value.type = type := by
  unfold Schema.attrType at htype
  unfold Schema.validEntity at hvalid
  cases hdeclared : schema.entityTypes.lookup entity.uid.type with
  | none => simp [hdeclared] at htype
  | some declared =>
    simp only [hdeclared, Bool.and_eq_true, List.all_eq_true, decide_eq_true_eq] at hvalid
    rw [hdeclared, Option.bind_some] at htype
    obtain ⟨value, hvalue⟩ := Option.isSome_iff_exists.mp (hvalid.2 (attr, type) (mem_of_lookup htype))
    have htyped := hvalid.1 (attr, value) (mem_of_lookup hvalue)
    exact ⟨value, hvalue, by simpa [htype] using htyped.symm⟩

/-- An expression with a type has a value of that type. -/
theorem eval_typeOf {schema : Schema} {types : Var → String}
    (hread : ∀ var, ∃ entity, entities.find? (fun entity => entity.uid = request.read var) = some entity ∧
      entity.uid.type = types var ∧ schema.validEntity entity = true)
    {expr : Expr} : ∀ {type : ValueType}, schema.typeOf types expr = some type →
      ∃ value, eval request entities expr = .ok value ∧ value.type = type := by
  induction expr with
  | lit value => exact fun h => ⟨value, rfl, Option.some.inj h⟩
  | getAttr var attr =>
    intro type h
    obtain ⟨entity, hentity, htype, hvalid⟩ := hread var
    rw [Schema.typeOf, ← htype] at h
    obtain ⟨value, hvalue, hvalueType⟩ := schema.exists_attr hvalid h
    exact ⟨value, eval_getAttr hentity hvalue, hvalueType⟩
  | and left right ihleft ihright =>
    intro type h
    simp only [Schema.typeOf, Option.ite_none_right_eq_some, Option.some.injEq] at h
    obtain ⟨⟨hleft, hright⟩, rfl⟩ := h
    obtain ⟨value, hvalue, htype⟩ := ihleft hleft
    obtain ⟨other, hother, hotherType⟩ := ihright hright
    obtain ⟨b, rfl⟩ := exists_bool htype
    obtain ⟨c, rfl⟩ := exists_bool hotherType
    cases b with
    | false => exact ⟨.bool false, by rw [eval, hvalue]; rfl, rfl⟩
    | true => exact ⟨.bool c, by rw [eval, hvalue, hother]; rfl, rfl⟩
  | or left right ihleft ihright =>
    intro type h
    simp only [Schema.typeOf, Option.ite_none_right_eq_some, Option.some.injEq] at h
    obtain ⟨⟨hleft, hright⟩, rfl⟩ := h
    obtain ⟨value, hvalue, htype⟩ := ihleft hleft
    obtain ⟨other, hother, hotherType⟩ := ihright hright
    obtain ⟨b, rfl⟩ := exists_bool htype
    obtain ⟨c, rfl⟩ := exists_bool hotherType
    cases b with
    | false => exact ⟨.bool c, by rw [eval, hvalue, hother]; rfl, rfl⟩
    | true => exact ⟨.bool true, by rw [eval, hvalue]; rfl, rfl⟩
  | isEmpty set ih =>
    intro type h
    simp only [Schema.typeOf, Option.ite_none_right_eq_some, Option.some.injEq] at h
    obtain ⟨hset, rfl⟩ := h
    obtain ⟨value, hvalue, htype⟩ := ih hset
    cases value with
    | set elements => exact ⟨_, eval_isEmpty hvalue, rfl⟩
    | bool | long | string => cases htype
  | contains set element ihset ihelement =>
    intro type h
    simp only [Schema.typeOf, Option.ite_none_right_eq_some, Option.some.injEq] at h
    obtain ⟨⟨hset, helement⟩, rfl⟩ := h
    obtain ⟨value, hvalue, htype⟩ := ihset hset
    obtain ⟨other, hother, hotherType⟩ := ihelement helement
    cases value with
    | set elements =>
      cases other with
      | string text => exact ⟨_, eval_contains hvalue hother, rfl⟩
      | bool | long | set => cases hotherType
    | bool | long | string => cases htype

end Eval

section Calls

variable {call : Call}

/-- A valid call whose action is one of the schema's, for a principal and a resource that it
    applies to. -/
theorem Call.exists_action (h : call.valid = true) :
    ∃ action, call.schema.actions.lookup call.request.action = some action ∧
      call.request.principal.type ∈ action.principals ∧ call.request.resource.type ∈ action.resources := by
  simp only [Call.valid, Schema.validRequest, Bool.and_eq_true] at h
  cases haction : call.schema.actions.lookup call.request.action with
  | none => simp [haction] at h
  | some action => exact ⟨action, rfl, by simpa [haction] using h.1.1⟩

theorem Call.find?_entity (h : call.valid = true) {entity : Entity} (hmem : entity ∈ call.entities) :
    call.entities.find? (fun other => other.uid = entity.uid) = some entity := by
  simp only [Call.valid, Bool.and_eq_true, decide_eq_true_eq] at h
  obtain ⟨found, hfound⟩ : ∃ found, call.entities.find? (fun other => other.uid = entity.uid) = some found :=
    Option.isSome_iff_exists.mp (List.find?_isSome.mpr ⟨entity, hmem, by simp⟩)
  have huid : found.uid = entity.uid := by simpa using List.find?_some hfound
  rw [hfound, List.inj_on_of_nodup_map h.2 (List.mem_of_find?_eq_some hfound) hmem huid]

/-- Validated policies do not fail on valid calls. -/
theorem Call.eval_policy (h : call.valid = true) {principal resource : Entity} (hprincipal : principal ∈ call.entities)
    (hresource : resource ∈ call.entities) (hprincipalUid : principal.uid = call.request.principal)
    (hresourceUid : resource.uid = call.request.resource) {policy : Policy}
    (hpolicy : call.schema.validPolicy policy = true) (hscope : policy.inScope call.request = true) :
    ∃ b, eval call.request call.entities policy.condition = .ok (.bool b) := by
  obtain ⟨action, haction, hprincipals, hresources⟩ := call.exists_action h
  simp only [Policy.inScope, Bool.and_eq_true] at hscope
  simp only [Schema.validPolicy, List.all_eq_true, Bool.or_eq_true, Bool.not_eq_true'] at hpolicy
  have hprincipalTypes := (hpolicy _ (mem_of_lookup haction)).resolve_left (ne_false_of_eq_true hscope.2)
  have htyped := (hprincipalTypes _ hprincipals).resolve_left (ne_false_of_eq_true hscope.1) _ hresources
  have hvalid : ∀ entity ∈ call.entities, call.schema.validEntity entity = true := by
    simp only [Call.valid, Bool.and_eq_true, List.all_eq_true] at h
    exact h.1.2
  obtain ⟨value, hvalue, htype⟩ := @eval_typeOf call.request call.entities _ _ (by
    rintro (_ | _)
    · exact ⟨principal, by rw [Request.read, ← hprincipalUid]; exact call.find?_entity h hprincipal,
        by rw [hprincipalUid], hvalid principal hprincipal⟩
    · exact ⟨resource, by rw [Request.read, ← hresourceUid]; exact call.find?_entity h hresource,
        by rw [hresourceUid], hvalid resource hresource⟩) _ _ (of_decide_eq_true htyped)
  obtain ⟨b, rfl⟩ := exists_bool htype
  exact ⟨b, hvalue⟩

end Calls

end Cedar
