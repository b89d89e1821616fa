import Mathlib.Data.List.Nodup
import CatalystRouter.Library.Json

/-! How the values of a type are laid out as JSON documents, so that they read back. -/

namespace Json

/-- The members of an object, without those that are `undefined`. -/
def ofFields (fields : List (String × Option Json)) : Json :=
  .object (fields.filterMap fun field => field.2.map (field.1, ·))

/-- The property of an object; `none` is `undefined`. -/
def get : Json → String → Option Json
  | .object members, key => members.lookup key
  | _, _ => none

theorem get_ofFields {fields : List (String × Option Json)} (h : (fields.map Prod.fst).Nodup) (key : String) :
    (ofFields fields).get key = (fields.lookup key).join := by
  unfold ofFields get
  dsimp only
  induction fields with
  | nil => rfl
  | cons field rest ih =>
    obtain ⟨name, value⟩ := field
    obtain ⟨hfresh, hrest⟩ := List.nodup_cons.mp h
    cases value with
    | some value =>
      rw [List.filterMap_cons_some (by rfl), List.lookup_cons, List.lookup_cons, ih hrest]
      cases hkey : key == name <;> rfl
    | none =>
      rw [List.filterMap_cons_none (by rfl), List.lookup_cons, ih hrest]
      cases hkey : key == name with
      | false => rfl
      | true =>
        obtain rfl := beq_iff_eq.mp hkey
        have habsent : rest.lookup key = none := by
          refine List.lookup_eq_none_iff.mpr fun entry hentry => bne_iff_ne.mpr ?_
          rintro rfl
          exact hfresh (List.mem_map.mpr ⟨entry, hentry, rfl⟩)
        simp [habsent]

theorem get_ofFields_of_mem {fields : List (String × Option Json)} (h : (fields.map Prod.fst).Nodup)
    {field : String × Option Json} (hmem : field ∈ fields) : (ofFields fields).get field.1 = field.2 := by
  have hlookup : fields.lookup field.1 = some field.2 := by
    obtain ⟨before, after, rfl⟩ := List.append_of_mem hmem
    refine List.lookup_eq_some_iff.mpr ⟨before, after, rfl, fun entry hentry => bne_iff_ne.mpr fun hsame => ?_⟩
    rw [List.map_append, List.nodup_append] at h
    exact h.2.2 entry.1 (List.mem_map_of_mem hentry) field.1 (by simp) hsame.symm
  rw [get_ofFields h, hlookup]
  rfl

/-- A layout of the values of a type. -/
structure Layout (α : Type*) where
  toJson : α → Json
  ofJson : Json → Option α
  ofJson_toJson : ∀ a, ofJson (toJson a) = some a

namespace Layout

variable {α : Type*} (layout : Layout α)

def string : Layout String where
  toJson := .string
  ofJson
    | .string value => some value
    | _ => none
  ofJson_toJson _ := rfl

def number : Layout Int where
  toJson := .number
  ofJson
    | .number value => some value
    | _ => none
  ofJson_toJson _ := rfl

/-- The values of a string enumeration. -/
def enum (name : α → String) (values : List α) (hvalues : ∀ a, a ∈ values) (hnames : (values.map name).Nodup) :
    Layout α where
  toJson a := .string (name a)
  ofJson
    | .string text => values.find? fun a => name a == text
    | _ => none
  ofJson_toJson a := by
    cases hfound : values.find? fun b => name b == name a with
    | none =>
      have hother := List.find?_eq_none.mp hfound a (hvalues a)
      simp at hother
    | some b =>
      have hsame := List.find?_some hfound
      have heq := List.inj_on_of_nodup_map hnames (hvalues b) (hvalues a) (beq_iff_eq.mp hsame)
      exact hfound.trans (congrArg some heq)

theorem mapM_map_toJson (values : List α) : (values.map layout.toJson).mapM layout.ofJson = some values := by
  induction values with
  | nil => rfl
  | cons first rest ih => simp [layout.ofJson_toJson, ih]

def list : Layout (List α) where
  toJson values := .array (values.map layout.toJson)
  ofJson
    | .array elements => elements.mapM layout.ofJson
    | _ => none
  ofJson_toJson := layout.mapM_map_toJson

/-- `Record<string, T>`, as the list of its members. -/
def record : Layout (List (String × α)) where
  toJson entries := .object (entries.map fun entry => (entry.1, layout.toJson entry.2))
  ofJson
    | .object members => members.mapM fun member => (layout.ofJson member.2).map (member.1, ·)
    | _ => none
  ofJson_toJson entries := by
    dsimp only
    induction entries with
    | nil => rfl
    | cons first rest ih => simp [layout.ofJson_toJson, ih]

/-- A value or `null`. -/
def nullable (hsome : ∀ a, layout.toJson a ≠ .null) : Layout (Option α) where
  toJson
    | some a => layout.toJson a
    | none => .null
  ofJson
    | .null => some none
    | json => (layout.ofJson json).map some
  ofJson_toJson
    | none => rfl
    | some a => by
      dsimp only
      split
      · rename_i hnull
        exact absurd hnull (hsome a)
      · simp [layout.ofJson_toJson]

end Layout

/-! ### Objects with given fields -/

/-- The fields that the values of a type have in an object, which may have others. -/
structure Row (α : Type*) where
  keys : List String
  fields : α → List (String × Option Json)
  ofObject : (String → Option Json) → Option α
  keys_fields : ∀ a, (fields a).map Prod.fst = keys
  ofObject_fields : ∀ a get, (∀ field ∈ fields a, get field.1 = field.2) → ofObject get = some a

namespace Row

variable {α β : Type*}

def required (key : String) (layout : Layout α) : Row α where
  keys := [key]
  fields a := [(key, some (layout.toJson a))]
  ofObject get := (get key).bind layout.ofJson
  keys_fields _ := rfl
  ofObject_fields a get hget := by
    have hkey : get key = some (layout.toJson a) := hget (key, some (layout.toJson a)) (by simp)
    rw [hkey]
    exact layout.ofJson_toJson a

/-- A field that may be `undefined`. -/
def optional (key : String) (layout : Layout α) : Row (Option α) where
  keys := [key]
  fields a := [(key, a.map layout.toJson)]
  ofObject get :=
    match get key with
    | some json => (layout.ofJson json).map some
    | none => some none
  keys_fields _ := rfl
  ofObject_fields a get hget := by
    have hkey : get key = a.map layout.toJson := hget (key, a.map layout.toJson) (by simp)
    rw [hkey]
    cases a with
    | none => rfl
    | some a => simp [layout.ofJson_toJson]

def and (first : Row α) (second : Row β) : Row (α × β) where
  keys := first.keys ++ second.keys
  fields pair := first.fields pair.1 ++ second.fields pair.2
  ofObject get := (first.ofObject get).bind fun a => (second.ofObject get).map fun b => (a, b)
  keys_fields pair := by rw [List.map_append, first.keys_fields, second.keys_fields]
  ofObject_fields pair get hget := by
    have hfirst := first.ofObject_fields pair.1 get fun field hfield => hget field (List.mem_append_left _ hfield)
    have hsecond := second.ofObject_fields pair.2 get fun field hfield => hget field (List.mem_append_right _ hfield)
    simp [hfirst, hsecond]

/-- The row of a type whose values are given by those of another. -/
def convert (row : Row β) (parts : α → β) (make : β → α) (hmake : ∀ a, make (parts a) = a) : Row α where
  keys := row.keys
  fields a := row.fields (parts a)
  ofObject get := (row.ofObject get).map make
  keys_fields a := row.keys_fields (parts a)
  ofObject_fields a get hget := by simp [row.ofObject_fields (parts a) get hget, hmake]

/-- Objects with exactly these fields. -/
def layout (row : Row α) (hkeys : row.keys.Nodup) : Layout α where
  toJson a := ofFields (row.fields a)
  ofJson json := row.ofObject json.get
  ofJson_toJson a := by
    have hnodup : ((row.fields a).map Prod.fst).Nodup := (row.keys_fields a).symm ▸ hkeys
    exact row.ofObject_fields a _ fun field hfield => get_ofFields_of_mem hnodup hfield

end Row

end Json
