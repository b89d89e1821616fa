import CatalystRouter.Library.Json

/-! Values made of objects, arrays and primitive values, and what `JSON.stringify` and
`JSON.parse` make of them. Finite numbers are integers. -/

inductive JsNumber where
  | nan
  | infinity
  | negInfinity
  | integer (value : Int)
  deriving DecidableEq, Repr

namespace JsNumber

def finite : JsNumber → Bool
  | .integer _ => true
  | _ => false

/-- Zero and NaN are falsy. -/
def truthy : JsNumber → Bool
  | .nan => false
  | .integer value => value != 0
  | _ => true

def add : JsNumber → JsNumber → JsNumber
  | .integer a, .integer b => .integer (a + b)
  | .nan, _ | _, .nan | .infinity, .negInfinity | .negInfinity, .infinity => .nan
  | .infinity, _ | _, .infinity => .infinity
  | _, _ => .negInfinity

/-- No comparison with NaN holds. -/
def lt : JsNumber → JsNumber → Bool
  | .integer a, .integer b => decide (a < b)
  | .negInfinity, .integer _ | .negInfinity, .infinity | .integer _, .infinity => true
  | _, _ => false

/-- Numbers that are not finite are written as `null`. -/
def toJson : JsNumber → Json
  | .integer value => .number value
  | _ => .null

end JsNumber

/-- An object is the list of its members, in order, without those whose value is `undefined`. -/
inductive JsValue where
  | null
  | bool (value : Bool)
  | number (value : JsNumber)
  | string (value : String)
  | array (elements : List JsValue)
  | object (members : List (String × JsValue))

namespace JsValue

mutual

def toJson : JsValue → Json
  | .null => .null
  | .bool value => .bool value
  | .number value => value.toJson
  | .string value => .string value
  | .array elements => .array (elementsToJson elements)
  | .object members => .object (membersToJson members)

def elementsToJson : List JsValue → List Json
  | [] => []
  | element :: rest => toJson element :: elementsToJson rest

def membersToJson : List (String × JsValue) → List (String × Json)
  | [] => []
  | (key, value) :: rest => (key, toJson value) :: membersToJson rest

end

mutual

def ofJson : Json → JsValue
  | .null => .null
  | .bool value => .bool value
  | .number value => .number (.integer value)
  | .string value => .string value
  | .array elements => .array (elementsOfJson elements)
  | .object members => .object (membersOfJson members)

def elementsOfJson : List Json → List JsValue
  | [] => []
  | element :: rest => ofJson element :: elementsOfJson rest

def membersOfJson : List (String × Json) → List (String × JsValue)
  | [] => []
  | (key, value) :: rest => (key, ofJson value) :: membersOfJson rest

end

mutual

/-- All numbers in the value are finite. -/
def finite : JsValue → Bool
  | .number value => value.finite
  | .array elements => finiteElements elements
  | .object members => finiteMembers members
  | _ => true

def finiteElements : List JsValue → Bool
  | [] => true
  | element :: rest => finite element && finiteElements rest

def finiteMembers : List (String × JsValue) → Bool
  | [] => true
  | (_, value) :: rest => finite value && finiteMembers rest

end

def stringify (self : JsValue) : String := self.toJson.stringify

/-- `none` when `JSON.parse` throws. -/
def parse (text : String) : Option JsValue := (Json.parse text).map ofJson

theorem parse_stringify (self : JsValue) : parse self.stringify = some (ofJson self.toJson) := by
  simp only [parse, stringify, Json.parse_stringify, Option.map_some]

theorem ofJson_toJson_number (value : JsNumber) : ofJson value.toJson = .number value ↔ value.finite = true := by
  cases value <;> simp [JsNumber.toJson, JsNumber.finite, ofJson]

mutual

/-- A value comes back from its text as it was exactly if all its numbers are finite. -/
theorem ofJson_toJson_iff : ∀ self : JsValue, ofJson self.toJson = self ↔ self.finite = true
  | .null | .bool _ | .string _ => by simp only [toJson, ofJson, finite]
  | .number value => ofJson_toJson_number value
  | .array elements => by
    simp only [toJson, ofJson, finite, JsValue.array.injEq]
    exact elementsOfJson_toJson_iff elements
  | .object members => by
    simp only [toJson, ofJson, finite, JsValue.object.injEq]
    exact membersOfJson_toJson_iff members

theorem elementsOfJson_toJson_iff :
    ∀ elements, elementsOfJson (elementsToJson elements) = elements ↔ finiteElements elements = true
  | [] => by simp only [elementsToJson, elementsOfJson, finiteElements]
  | element :: rest => by
    simp only [elementsToJson, elementsOfJson, finiteElements, List.cons.injEq, Bool.and_eq_true]
    exact and_congr (ofJson_toJson_iff element) (elementsOfJson_toJson_iff rest)

theorem membersOfJson_toJson_iff :
    ∀ members, membersOfJson (membersToJson members) = members ↔ finiteMembers members = true
  | [] => by simp only [membersToJson, membersOfJson, finiteMembers]
  | (key, value) :: rest => by
    simp only [membersToJson, membersOfJson, finiteMembers, List.cons.injEq, Prod.mk.injEq, true_and, Bool.and_eq_true]
    exact and_congr (ofJson_toJson_iff value) (membersOfJson_toJson_iff rest)

end

mutual

/-- What `JSON.parse` has read is written as it was. -/
theorem toJson_ofJson : ∀ json : Json, toJson (ofJson json) = json
  | .null | .bool _ | .number _ | .string _ => by simp only [ofJson, toJson, JsNumber.toJson]
  | .array elements => by rw [ofJson, toJson, elementsToJson_ofJson elements]
  | .object members => by rw [ofJson, toJson, membersToJson_ofJson members]

theorem elementsToJson_ofJson : ∀ elements, elementsToJson (elementsOfJson elements) = elements
  | [] => by rw [elementsOfJson, elementsToJson]
  | element :: rest => by rw [elementsOfJson, elementsToJson, toJson_ofJson element, elementsToJson_ofJson rest]

theorem membersToJson_ofJson : ∀ members, membersToJson (membersOfJson members) = members
  | [] => by rw [membersOfJson, membersToJson]
  | (key, value) :: rest => by rw [membersOfJson, membersToJson, toJson_ofJson value, membersToJson_ofJson rest]

end

end JsValue
