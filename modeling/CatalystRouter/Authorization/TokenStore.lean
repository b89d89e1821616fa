import CatalystRouter.Library.Glob
import CatalystRouter.Library.JsonStrings

namespace CatalystRouter

inductive EntityType where
  | user
  | service
  deriving DecidableEq, Repr

structure TokenRecord where
  jti : String
  expiry : Int
  cfn : Option String := none
  sans : List String
  entityId : String
  entityName : String
  entityType : EntityType
  revoked : Bool
  deriving DecidableEq, Repr

/-- A row of the `token` table; `subjectAlternativeNames` holds a JSON array. -/
structure TokenRow where
  jti : String
  expiresAt : Int
  certificateFingerprint : Option String
  subjectAlternativeNames : String
  entityId : String
  entityName : String
  entityType : EntityType
  isRevoked : Bool
  deriving DecidableEq, Repr

/-- `JSON.stringify` of a list of SANs. -/
def stringifySans (sans : List String) : String := String.ofList (JsonStrings.stringify (sans.map String.toList))

/-- `JSON.parse` of a list of SANs; `none` when it throws. -/
def parseSans (text : String) : Option (List String) := (JsonStrings.parse text.toList).map (·.map String.ofList)

/-! ### The `LIKE` operator -/

def likeToken (c : Char) : Glob.Token Char :=
  if c = '%' then .many else if c = '_' then .one else .letter c

/-- SQLite reads the two noncharacters at the end of the first plane as U+FFFD. -/
def readUtf8 (c : Char) : Char := if c = '\ufffe' ∨ c = '\uffff' then '\ufffd' else c

/-- `LIKE` compares letters without regard to ASCII case. -/
def sameLetter (a b : Char) : Bool := (readUtf8 a).toLower == (readUtf8 b).toLower

/-- The function behind `LIKE` takes its arguments up to the first NUL. -/
def cString (text : String) : List Char := text.toList.takeWhile (· ≠ '\x00')

def like (text pattern : String) : Bool := Glob.reads sameLetter ((cString pattern).map likeToken) (cString text)

/-- The pattern that selects a SAN. -/
def sanPattern (san : String) : String := "%" ++ san ++ "%"

/-- The most bytes of a pattern, SQLITE_MAX_LIKE_PATTERN_LENGTH. -/
def maxLikePattern : Nat := 50000

/-- The condition on a row that selects it for a SAN. -/
def likeSan (sans san : String) : Except String Bool :=
  if maxLikePattern < (sanPattern san).utf8ByteSize then .error "LIKE or GLOB pattern too complex"
  else .ok (like sans (sanPattern san))

/-! ### `SqliteTokenStore` -/

def TokenRecord.toRow (record : TokenRecord) : TokenRow where
  jti := record.jti
  expiresAt := record.expiry
  certificateFingerprint := record.cfn
  subjectAlternativeNames := stringifySans record.sans
  entityId := record.entityId
  entityName := record.entityName
  entityType := record.entityType
  isRevoked := record.revoked

/-- `value || undefined`. -/
def orUndefined (value : Option String) : Option String := if value = some "" then none else value

/-- `none` when the SANs do not parse. -/
def TokenRow.toRecord (row : TokenRow) : Option TokenRecord :=
  match parseSans row.subjectAlternativeNames with
  | some sans =>
    some
      { jti := row.jti
        expiry := row.expiresAt
        cfn := orUndefined row.certificateFingerprint
        sans
        entityId := row.entityId
        entityName := row.entityName
        entityType := row.entityType
        revoked := row.isRevoked }
  | none => none

namespace SqliteTokenStore

/-- `jti` is the primary key. -/
def recordToken (rows : List TokenRow) (record : TokenRecord) : Except String (List TokenRow) :=
  if rows.any fun row => row.jti == record.jti then .error "UNIQUE constraint failed: token.jti"
  else .ok (rows ++ [record.toRow])

def revokeToken (rows : List TokenRow) (jti : String) : List TokenRow :=
  rows.map fun row => if row.jti = jti then { row with isRevoked := true } else row

/-- The statement fails at the first row if the pattern is refused. -/
def revokeBySan (rows : List TokenRow) (san : String) : Except String (List TokenRow) :=
  rows.mapM fun row =>
    (likeSan row.subjectAlternativeNames san).map fun selects => if selects then { row with isRevoked := true } else row

structure TokenFilter where
  certificateFingerprint : Option String := none
  san : Option String := none
  deriving DecidableEq, Repr

/-- A member of the filter that is absent or empty restricts nothing. -/
def selected (filter : TokenFilter) (row : TokenRow) : Except String Bool :=
  match orUndefined filter.certificateFingerprint, orUndefined filter.san with
  | some cfn, some san =>
    if row.certificateFingerprint = some cfn then likeSan row.subjectAlternativeNames san else .ok false
  | some cfn, none => .ok (row.certificateFingerprint = some cfn)
  | none, some san => likeSan row.subjectAlternativeNames san
  | none, none => .ok true

/-- The rows of a `SELECT`, which fails where its condition does. -/
def select (condition : TokenRow → Except String Bool) : List TokenRow → Except String (List TokenRow)
  | [] => .ok []
  | row :: rest => do
    let selects ← condition row
    let rows ← select condition rest
    return if selects then row :: rows else rows

def listTokens (rows : List TokenRow) (filter : TokenFilter) : Except String (List TokenRecord) := do
  let rows ← select (selected filter) rows
  rows.mapM fun row =>
    match row.toRecord with
    | some record => .ok record
    | none => .error "Unexpected token in JSON"

/-- An unknown token is not revoked. -/
def isRevoked (rows : List TokenRow) (jti : String) : Bool :=
  match rows.find? fun row => row.jti = jti with
  | some row => row.isRevoked
  | none => false

def getRevocationList (rows : List TokenRow) (now : Nat) : List String :=
  (rows.filter fun row => row.isRevoked && decide (((now / 1000 : Nat) : Int) < row.expiresAt)).map (·.jti)

end SqliteTokenStore

/-! ### What a store can hold -/

/-- The record that reads back. -/
def TokenRecord.returned (record : TokenRecord) : TokenRecord := { record with cfn := orUndefined record.cfn }

theorem parseSans_stringifySans (sans : List String) : parseSans (stringifySans sans) = some sans := by
  simp [parseSans, stringifySans, JsonStrings.parse_stringify, Function.comp_def]

theorem TokenRecord.toRecord_toRow (record : TokenRecord) : record.toRow.toRecord = some record.returned := by
  simp [toRow, TokenRow.toRecord, parseSans_stringifySans, returned]

namespace SqliteTokenStore

/-- A row is selected: the pattern is accepted, and found in it. -/
def selectsSan (sans san : String) : Bool := ((likeSan sans san).toOption).getD false

theorem selectsSan_iff {sans san : String} :
    selectsSan sans san = true ↔ (sanPattern san).utf8ByteSize ≤ maxLikePattern ∧ like sans (sanPattern san) = true := by
  unfold selectsSan likeSan
  split
  · rename_i hlong
    exact iff_of_false (by simp [Except.toOption]) fun h => absurd h.1 (Nat.not_le.mpr hlong)
  · rename_i hshort
    simp [Except.toOption, Nat.not_lt.mp hshort]

theorem revokeBySan_of_short {san : String} (h : (sanPattern san).utf8ByteSize ≤ maxLikePattern) (rows : List TokenRow) :
    revokeBySan rows san = .ok (rows.map fun row =>
      if like row.subjectAlternativeNames (sanPattern san) then { row with isRevoked := true } else row) := by
  simp only [revokeBySan, likeSan, if_neg (Nat.not_lt.mpr h), Except.map]
  exact List.mapM_pure

theorem revokeBySan_of_long {san : String} (h : maxLikePattern < (sanPattern san).utf8ByteSize) {rows : List TokenRow}
    (hsome : rows ≠ []) : revokeBySan rows san = .error "LIKE or GLOB pattern too complex" := by
  cases rows with
  | nil => exact absurd rfl hsome
  | cons row rest => simp [revokeBySan, likeSan, if_pos h, Except.map, List.mapM_cons, Bind.bind, Except.bind]

/-- What a call leaves of the rows; one that fails leaves them as they were. -/
theorem revokeBySan_rows (rows : List TokenRow) (san : String) :
    ((revokeBySan rows san).toOption).getD rows = rows.map fun row =>
      if selectsSan row.subjectAlternativeNames san then { row with isRevoked := true } else row := by
  by_cases hshort : (sanPattern san).utf8ByteSize ≤ maxLikePattern
  · rw [revokeBySan_of_short hshort]
    refine List.map_congr_left fun row _ => ?_
    simp only [selectsSan_iff, hshort, true_and]
  · have hnone (row : TokenRow) : ¬ selectsSan row.subjectAlternativeNames san = true := fun hselects =>
      hshort (selectsSan_iff.mp hselects).1
    rw [List.map_congr_left fun row _ => if_neg (hnone row), List.map_id']
    cases rows with
    | nil => rfl
    | cons row rest =>
      rw [revokeBySan_of_long (Nat.not_le.mp hshort) (List.cons_ne_nil row rest)]
      rfl

end SqliteTokenStore

end CatalystRouter
