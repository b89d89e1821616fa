import Mathlib.Algebra.Ring.Int.Defs
import Mathlib.Algebra.Ring.Nat
import Mathlib.Data.List.Flatten
import Mathlib.Data.List.Nodup

/-! Protocol buffers: messages over a schema, a writer for the wire format, and a reader that
skips the fields that its schema does not have. The reader takes what a writer may write: varints
without padding, of 64 bits at most, and field numbers below 2 ^ 29. The 2 GiB limit of the format
is left out, and so are the wire types of groups. -/

namespace Protobuf

abbrev Bytes := List UInt8

/-! ### Varints -/

/-- At most `groups` groups of seven bits, the lowest first. -/
def writeGroups : Nat → Nat → Bytes
  | 0, _ => []
  | groups + 1, n =>
    if n < 128 then [UInt8.ofNat n] else UInt8.ofNat (n % 128 + 128) :: writeGroups groups (n / 128)

def writeVarint (n : Nat) : Bytes := writeGroups (n.log2 + 1) n

/-- A varint at the start of `bytes`, and the bytes after it. Its highest group is not padding. -/
def readVarint : Bytes → Option (Nat × Bytes)
  | [] => none
  | byte :: rest =>
    if byte.toNat < 128 then some (byte.toNat, rest)
    else
      match readVarint rest with
      | some (n, rest) => if n = 0 then none else some (byte.toNat - 128 + 128 * n, rest)
      | none => none

/-- A number that fits its groups of seven bits is read back from them. -/
theorem readVarint_writeGroups (rest : Bytes) : ∀ groups n, n < 128 ^ (groups + 1) →
    readVarint (writeGroups (groups + 1) n ++ rest) = some (n, rest) := by
  intro groups
  induction groups with
  | zero =>
    intro n hn
    have hsmall : n < 128 := by simpa using hn
    have hbyte : (UInt8.ofNat n).toNat = n := UInt8.toNat_ofNat_of_lt (show n < 256 by omega)
    simp [writeGroups, hsmall, readVarint, hbyte]
  | succ groups ih =>
    intro n hn
    rw [writeGroups]
    split
    case isTrue hsmall =>
      have hbyte : (UInt8.ofNat n).toNat = n := UInt8.toNat_ofNat_of_lt (show n < 256 by omega)
      simp [readVarint, hbyte, hsmall]
    case isFalse hlarge =>
      have hbyte : (UInt8.ofNat (n % 128 + 128)).toNat = n % 128 + 128 :=
        UInt8.toNat_ofNat_of_lt (show n % 128 + 128 < 256 by omega)
      have hshorter : n / 128 < 128 ^ (groups + 1) := Nat.div_lt_of_lt_mul (by rwa [← Nat.pow_succ'])
      have hgroup : n / 128 ≠ 0 := by omega
      rw [List.cons_append, readVarint, hbyte, if_neg (by omega), ih _ hshorter]
      dsimp only
      rw [if_neg hgroup, Nat.add_sub_cancel, Nat.mod_add_div]

/-- A varint is read back, with the bytes after it left over. -/
theorem readVarint_writeVarint (n : Nat) (rest : Bytes) : readVarint (writeVarint n ++ rest) = some (n, rest) := by
  have hfits : 2 ^ (n.log2 + 1) ≤ 128 ^ (n.log2 + 1) := Nat.pow_le_pow_left (by decide) _
  exact readVarint_writeGroups rest _ _ (Nat.lt_of_lt_of_le Nat.lt_log2_self hfits)

theorem writeVarint_ne_nil (n : Nat) : writeVarint n ≠ [] := by
  unfold writeVarint writeGroups
  split <;> exact List.cons_ne_nil _ _

/-! ### Records -/

inductive Payload where
  | varint (n : Nat)
  | fixed64 (bytes : Bytes)
  | len (bytes : Bytes)
  | fixed32 (bytes : Bytes)
  deriving DecidableEq, Repr

/-- One occurrence of a field on the wire. -/
structure Record where
  number : Nat
  payload : Payload
  deriving DecidableEq, Repr

def Payload.wireType : Payload → Nat
  | .varint _ => 0
  | .fixed64 _ => 1
  | .len _ => 2
  | .fixed32 _ => 5

def Payload.write : Payload → Bytes
  | .varint n => writeVarint n
  | .len bytes => writeVarint bytes.length ++ bytes
  | .fixed64 bytes | .fixed32 bytes => bytes

def Record.write (record : Record) : Bytes :=
  writeVarint (8 * record.number + record.payload.wireType) ++ record.payload.write

/-- The payload has the width of its wire type. -/
def Payload.WellFormed : Payload → Prop
  | .varint n => n < 2 ^ 64
  | .fixed64 bytes => bytes.length = 8
  | .len _ => True
  | .fixed32 bytes => bytes.length = 4

/-- What a writer may write. -/
structure Record.WellFormed (record : Record) : Prop where
  positive : 0 < record.number
  small : record.number < 2 ^ 29
  payload : record.payload.WellFormed

/-- The payload of a wire type at the start of `bytes`. -/
def readWire (wireType : Nat) (bytes : Bytes) : Option (Payload × Bytes) :=
  match wireType with
  | 0 =>
    match readVarint bytes with
    | some (n, rest) => if n < 2 ^ 64 then some (.varint n, rest) else none
    | none => none
  | 1 => if 8 ≤ bytes.length then some (.fixed64 (bytes.take 8), bytes.drop 8) else none
  | 2 =>
    match readVarint bytes with
    | some (n, rest) => if n ≤ rest.length then some (.len (rest.take n), rest.drop n) else none
    | none => none
  | 5 => if 4 ≤ bytes.length then some (.fixed32 (bytes.take 4), bytes.drop 4) else none
  | _ => none

def readRecord (bytes : Bytes) : Option (Record × Bytes) :=
  match readVarint bytes with
  | none => none
  | some (tag, rest) =>
    if 0 < tag / 8 ∧ tag / 8 < 2 ^ 29 then
      (readWire (tag % 8) rest).map fun (payload, rest) => (⟨tag / 8, payload⟩, rest)
    else none

/-- Every record takes a byte, so that the length of the bytes bounds their number. -/
def readRecords : Nat → Bytes → Option (List Record)
  | _, [] => some []
  | 0, _ :: _ => none
  | fuel + 1, bytes =>
    match readRecord bytes with
    | none => none
    | some (record, rest) => (readRecords fuel rest).map (record :: ·)

def writeRecords (records : List Record) : Bytes := records.flatMap Record.write

/-- So is the payload of a well-formed record. -/
theorem readWire_write {payload : Payload} (h : payload.WellFormed) (rest : Bytes) :
    readWire payload.wireType (payload.write ++ rest) = some (payload, rest) := by
  cases payload with
  | varint n =>
    have hsmall : n < 2 ^ 64 := h
    simp only [Payload.wireType, Payload.write, readWire, readVarint_writeVarint, if_pos hsmall]
  | len bytes => simp [Payload.wireType, Payload.write, readWire, readVarint_writeVarint]
  | fixed64 bytes =>
    have hlength : bytes.length = 8 := h
    simp [Payload.wireType, Payload.write, readWire, hlength]
  | fixed32 bytes =>
    have hlength : bytes.length = 4 := h
    simp [Payload.wireType, Payload.write, readWire, hlength]

theorem Payload.wireType_lt (payload : Payload) : payload.wireType < 8 := by
  cases payload <;> simp [Payload.wireType]

/-- A well-formed record is read back, whatever follows it. -/
theorem readRecord_write {record : Record} (h : record.WellFormed) (rest : Bytes) :
    readRecord (record.write ++ rest) = some (record, rest) := by
  obtain ⟨number, payload⟩ := record
  have hwire := payload.wireType_lt
  have htag : (8 * number + payload.wireType) % 8 = payload.wireType := by omega
  have hnumber : (8 * number + payload.wireType) / 8 = number := by omega
  simp only [readRecord, Record.write, List.append_assoc, readVarint_writeVarint, htag, hnumber, readWire_write h.payload,
    if_pos (And.intro h.positive h.small), Option.map_some]

/-- A record takes a byte at least, and more than the bytes that it carries. -/
theorem Record.write_length (record : Record) : 1 ≤ record.write.length ∧
    ∀ bytes, record.payload = .len bytes → bytes.length + 1 ≤ record.write.length := by
  obtain ⟨number, payload⟩ := record
  have htag := List.length_pos_iff.mpr (writeVarint_ne_nil (8 * number + payload.wireType))
  constructor
  · simp only [Record.write, List.length_append]
    omega
  · rintro bytes rfl
    simp only [Record.write, Payload.write, List.length_append]
    omega

/-- Well-formed records are read back one after the other. -/
theorem readRecords_write (records : List Record) (h : ∀ record ∈ records, record.WellFormed) : ∀ fuel, (writeRecords records).length ≤ fuel →
    readRecords fuel (writeRecords records) = some records := by
  induction records with
  | nil => exact fun fuel _ => by cases fuel <;> rfl
  | cons record rest ih =>
    intro fuel hfuel
    obtain ⟨hrecord, hrest⟩ := List.forall_mem_cons.mp h
    have hbyte := record.write_length.1
    rw [writeRecords, List.flatMap_cons, List.length_append, ← writeRecords] at hfuel
    rw [writeRecords, List.flatMap_cons, ← writeRecords]
    obtain ⟨fuel, rfl⟩ : ∃ less, fuel = less + 1 := ⟨fuel - 1, by omega⟩
    cases hbytes : record.write ++ writeRecords rest with
    | nil =>
      rw [(List.append_eq_nil_iff.mp hbytes).1] at hbyte
      cases hbyte
    | cons byte tail =>
      rw [readRecords, ← hbytes, readRecord_write hrecord]
      · dsimp only
        rw [ih hrest fuel (by omega), Option.map_some]
      · simp

/-! ### Messages over a schema -/

inductive FieldType where
  | string
  | bytes
  | int32
  | int64
  | uint32
  | message (name : String)
  deriving DecidableEq, Repr

structure Field where
  name : String
  number : Nat
  type : FieldType
  repeated : Bool := false
  deriving DecidableEq, Repr

structure MessageType where
  name : String
  fields : List Field := []
  deriving DecidableEq, Repr

abbrev Root := List MessageType

def Root.lookupType (root : Root) (name : String) : Option MessageType := root.find? (·.name = name)

/-- No two fields of a type have the same number, and the numbers are those of the format. -/
def Root.Valid (root : Root) : Prop :=
  ∀ type ∈ root, (type.fields.map (·.number)).Nodup ∧ ∀ field ∈ type.fields, 0 < field.number ∧ field.number < 2 ^ 29

instance (root : Root) : Decidable root.Valid := inferInstanceAs (Decidable (∀ type ∈ root, _))

/-- A message is the list of its fields with their values; a repeated field is listed once for
    every element. -/
inductive Value where
  | string (value : String)
  | bytes (value : Bytes)
  | int (value : Int)
  | message (entries : List (String × Value))

abbrev Message := List (String × Value)

/-- The numbers of a type. -/
def FieldType.holds (type : FieldType) (value : Int) : Bool :=
  match type with
  | .int32 => -2 ^ 31 ≤ value && value < 2 ^ 31
  | .int64 => -2 ^ 63 ≤ value && value < 2 ^ 63
  | .uint32 => 0 ≤ value && value < 2 ^ 32
  | _ => false

/-- Negative numbers are in two's complement, on 64 bits. -/
def writeInt (value : Int) : Nat := (value % 2 ^ 64).toNat

/-- The number of the type that is written so. -/
def FieldType.readInt (type : FieldType) (n : Nat) : Option Int :=
  let value := if type = .uint32 then (n : Int) else Int.bmod n (2 ^ 64)
  if type.holds value then some value else none

/-- Only a repeated field is there more than once. -/
def MessageType.admits (type : MessageType) (message : Message) : Bool :=
  type.fields.all fun field => field.repeated || (message.filter (·.1 = field.name)).length ≤ 1

def MessageType.numberOf (type : MessageType) (name : String) : Option Nat :=
  (type.fields.find? (·.name = name)).map (·.number)

/-- A writer lists the fields in the order of their numbers. -/
def MessageType.ordered (type : MessageType) (message : Message) : Bool :=
  (message.filterMap fun entry => type.numberOf entry.1).Pairwise (· ≤ ·)

def MessageType.knows (type : MessageType) (record : Record) : Bool :=
  type.fields.any (·.number = record.number)

mutual

/-- `none` for a value that is not of the type. -/
def toPayload (root : Root) (type : FieldType) : Value → Option Payload
  | .string value => if type = .string then some (.len value.toUTF8.data.toList) else none
  | .bytes value => if type = .bytes then some (.len value) else none
  | .int value => if type.holds value then some (.varint (writeInt value)) else none
  | .message entries =>
    match type with
    | .message name =>
      match root.lookupType name with
      | some messageType =>
        if messageType.admits entries && messageType.ordered entries then
          (toRecords root messageType entries).map fun records => .len (writeRecords records)
        else none
      | none => none
    | _ => none

def toRecords (root : Root) (type : MessageType) : List (String × Value) → Option (List Record)
  | [] => some []
  | (name, value) :: rest =>
    match type.fields.find? (·.name = name) with
    | some field =>
      match toPayload root field.type value, toRecords root type rest with
      | some payload, some records => some (⟨field.number, payload⟩ :: records)
      | _, _ => none
    | none => none

end

def encode (root : Root) (name : String) (message : Message) : Option Bytes :=
  match toPayload root (.message name) (.message message) with
  | some (.len bytes) => some bytes
  | _ => none

/-- The value of a payload, with a reader for the messages in it. -/
def readPayload (root : Root) (readMessage : MessageType → Bytes → Option Message) (type : FieldType) :
    Payload → Option Value
  | .varint n => (type.readInt n).map .int
  | .fixed64 _ | .fixed32 _ => none
  | .len bytes =>
    match type with
    | .string => (String.fromUTF8? ⟨bytes.toArray⟩).map .string
    | .bytes => some (.bytes bytes)
    | .message name =>
      match root.lookupType name with
      | some messageType => (readMessage messageType bytes).map .message
      | none => none
    | _ => none

def readField (root : Root) (readMessage : MessageType → Bytes → Option Message) (type : MessageType)
    (record : Record) : Option (String × Value) :=
  match type.fields.find? (·.number = record.number) with
  | some field => (readPayload root readMessage field.type record.payload).map fun value => (field.name, value)
  | none => none

/-- Reads messages that are nested less than `depth` deep. -/
def decodeMessage (root : Root) : Nat → MessageType → Bytes → Option Message
  | 0, _, _ => none
  | depth + 1, type, bytes =>
    match readRecords bytes.length bytes with
    | some records =>
      match (records.filter type.knows).mapM (readField root (decodeMessage root depth) type) with
      | some message => if type.admits message then some message else none
      | none => none
    | none => none

def decode (root : Root) (name : String) (bytes : Bytes) : Option Message :=
  match root.lookupType name with
  | some type => decodeMessage root (bytes.length + 1) type bytes
  | none => none

/-! ### Reading what was written -/

theorem writeInt_lt (value : Int) : writeInt value < 2 ^ 64 := by
  have hcast : ((writeInt value : Nat) : Int) = value % 2 ^ 64 := Int.toNat_of_nonneg (Int.emod_nonneg _ (by decide))
  omega

/-- A number of a field that holds it is read back. -/
theorem readInt_writeInt {type : FieldType} {value : Int} (h : type.holds value = true) :
    type.readInt (writeInt value) = some value := by
  have hcast : ((writeInt value : Nat) : Int) = value % 2 ^ 64 := Int.toNat_of_nonneg (Int.emod_nonneg _ (by decide))
  have hread : (if type = .uint32 then ((writeInt value : Nat) : Int) else Int.bmod (writeInt value) (2 ^ 64)) = value := by
    cases type with
    | int32 | int64 =>
      simp only [FieldType.holds, Bool.and_eq_true, decide_eq_true_eq] at h
      simp only [reduceCtorEq, if_false, hcast, Int.bmod]
      omega
    | uint32 =>
      simp only [FieldType.holds, Bool.and_eq_true, decide_eq_true_eq] at h
      simp only [if_true, hcast]
      omega
    | string | bytes | message => cases h
  simp only [FieldType.readInt, hread, h, if_true]

/-- So is a text. -/
theorem fromUTF8?_toUTF8 (value : String) : String.fromUTF8? ⟨value.toUTF8.data.toList.toArray⟩ = some value := by
  simp only [String.fromUTF8?, String.toUTF8_eq_toByteArray, Array.toArray_toList, value.isValidUTF8, ↓reduceDIte]
  rfl

section RoundTrip

variable {root : Root}

/-- In a valid schema a number names one field of a message. -/
theorem Root.Valid.find?_number (hroot : root.Valid) {type : MessageType} (htype : type ∈ root) {field : Field}
    (hfield : field ∈ type.fields) :
    type.fields.find? (·.number = field.number) = some field := by
  obtain ⟨found, hfound⟩ : ∃ found, type.fields.find? (·.number = field.number) = some found :=
    Option.isSome_iff_exists.mp (List.find?_isSome.mpr ⟨field, hfield, by simp⟩)
  have hnumber : found.number = field.number := by simpa using List.find?_some hfound
  rw [hfound, List.inj_on_of_nodup_map (hroot type htype).1 (List.mem_of_find?_eq_some hfound) hfield hnumber]

/-- What a value is written as is well-formed. -/
theorem wellFormed_toPayload {type : FieldType} {value : Value} {payload : Payload}
    (h : toPayload root type value = some payload) : payload.WellFormed := by
  cases payload with
  | len bytes => trivial
  | varint n =>
    cases value with
    | int value =>
      simp only [toPayload, Option.ite_none_right_eq_some, Option.some.injEq, Payload.varint.injEq] at h
      rw [← h.2]
      exact writeInt_lt value
    | string | bytes => simp [toPayload] at h
    | message entries =>
      unfold toPayload at h
      repeat' split at h
      all_goals simp at h
  | fixed64 bytes | fixed32 bytes =>
    cases value with
    | string | bytes | int => simp [toPayload] at h
    | message entries =>
      unfold toPayload at h
      repeat' split at h
      all_goals simp at h

mutual

/-- A value is read back from its payload, given the depth of its nesting. -/
theorem readPayload_toPayload (hroot : root.Valid) (value : Value) (type : FieldType) (payload : Payload)
    (h : toPayload root type value = some payload) (depth : Nat)
    (hdepth : ∀ bytes, payload = .len bytes → bytes.length < depth) :
    readPayload root (decodeMessage root depth) type payload = some value := by
  match value with
  | .string value =>
    simp only [toPayload, Option.ite_none_right_eq_some, Option.some.injEq] at h
    obtain ⟨rfl, rfl⟩ := h
    rw [readPayload, fromUTF8?_toUTF8, Option.map_some]
  | .bytes value =>
    simp only [toPayload, Option.ite_none_right_eq_some, Option.some.injEq] at h
    obtain ⟨rfl, rfl⟩ := h
    rfl
  | .int value =>
    simp only [toPayload, Option.ite_none_right_eq_some, Option.some.injEq] at h
    obtain ⟨hholds, rfl⟩ := h
    rw [readPayload, readInt_writeInt hholds, Option.map_some]
  | .message entries =>
    unfold toPayload at h
    split at h
    case h_2 => cases h
    case h_1 name =>
      split at h
      case h_2 => cases h
      case h_1 messageType hlookup =>
        simp only [Option.ite_none_right_eq_some, Bool.and_eq_true, Option.map_eq_some_iff] at h
        obtain ⟨⟨hadmits, -⟩, records, hrecords, rfl⟩ := h
        obtain ⟨depth, rfl⟩ : ∃ less, depth = less + 1 := ⟨depth - 1, by have := hdepth _ rfl; omega⟩
        have hfits : (writeRecords records).length ≤ depth := Nat.le_of_lt_succ (hdepth _ rfl)
        obtain ⟨hknown, hformed, hread⟩ := mapM_toRecords hroot entries messageType
          (List.mem_of_find?_eq_some hlookup) records hrecords depth hfits
        simp only [readPayload, hlookup, decodeMessage, readRecords_write records hformed _ (Nat.le_refl _),
          List.filter_eq_self.mpr hknown, hread, hadmits, ↓reduceIte, Option.map_some]

/-- So are the entries of a message. -/
theorem mapM_toRecords (hroot : root.Valid) (entries : List (String × Value)) (type : MessageType)
    (htype : type ∈ root) (records : List Record) (h : toRecords root type entries = some records) (depth : Nat)
    (hdepth : (writeRecords records).length ≤ depth) :
    (∀ record ∈ records, type.knows record = true) ∧ (∀ record ∈ records, record.WellFormed) ∧
      records.mapM (readField root (decodeMessage root depth) type) = some entries := by
  match entries with
  | [] =>
    rw [toRecords, Option.some.injEq] at h
    subst h
    exact ⟨fun _ hrecord => (nomatch hrecord), fun _ hrecord => (nomatch hrecord), rfl⟩
  | (name, value) :: rest =>
    unfold toRecords at h
    split at h
    case h_2 => cases h
    case h_1 field hfound =>
      split at h
      case h_2 => cases h
      case h_1 payload others hpayload hothers =>
        obtain rfl := Option.some.inj h
        have hfield := List.mem_of_find?_eq_some hfound
        have hname : field.name = name := by simpa using List.find?_some hfound
        have hnumber := hroot.find?_number htype hfield
        rw [writeRecords, List.flatMap_cons, List.length_append, ← writeRecords] at hdepth
        have hvalue := readPayload_toPayload hroot value field.type payload hpayload depth fun bytes hbytes => by
          have := (Record.write_length ⟨field.number, payload⟩).2 bytes hbytes
          omega
        obtain ⟨hknown, hformed, hread⟩ := mapM_toRecords hroot rest type htype others hothers depth (by omega)
        obtain ⟨hpositive, hsmall⟩ := (hroot type htype).2 field hfield
        refine ⟨List.forall_mem_cons.mpr ⟨List.any_eq_true.mpr ⟨field, hfield, by simp⟩, hknown⟩,
          List.forall_mem_cons.mpr ⟨⟨hpositive, hsmall, wellFormed_toPayload hpayload⟩, hformed⟩, ?_⟩
        · rw [List.mapM_cons, hread, readField, hnumber]
          dsimp only
          rw [hvalue, hname]
          rfl

end

/-- A message that can be encoded is decoded again, for every valid schema. -/
theorem decode_encode (hroot : root.Valid) {name : String} {message : Message} {bytes : Bytes}
    (h : encode root name message = some bytes) : decode root name bytes = some message := by
  unfold encode at h
  split at h
  case h_2 => cases h
  case h_1 payload hpayload =>
    obtain rfl := Option.some.inj h
    have hread := readPayload_toPayload hroot (.message message) (.message name) _ hpayload (payload.length + 1)
      fun bytes hbytes => by cases hbytes; omega
    rw [readPayload] at hread
    rw [decode]
    cases htype : root.lookupType name with
    | none => simp [htype] at hread
    | some type => simpa [htype] using hread

end RoundTrip

/-! ### Messages field by field -/

/-- The message with these fields, each with the list of its values. -/
def fields (blocks : List (String × List Value)) : Message :=
  blocks.flatMap fun block => block.2.map fun value => (block.1, value)

namespace Message

def values (message : Message) (name : String) : List Value := (message.filter (·.1 = name)).map (·.2)

/-- A field that is not there reads as the default value of its type. -/
def text (message : Message) (name : String) : String :=
  match message.values name with
  | [.string value] => value
  | _ => ""

def number (message : Message) (name : String) : Int :=
  match message.values name with
  | [.int value] => value
  | _ => 0

def data (message : Message) (name : String) : Bytes :=
  match message.values name with
  | [.bytes value] => value
  | _ => []

def texts (message : Message) (name : String) : List String :=
  (message.values name).filterMap fun
    | .string value => some value
    | _ => none

def messages (message : Message) (name : String) : List Message :=
  (message.values name).filterMap fun
    | .message entries => some entries
    | _ => none

/-- Messages have no default value: the field is there or it is not. -/
def message? (message : Message) (name : String) : Option Message := (message.messages name).head?

end Message

/-- The fields are in the order of their numbers, and one that is not repeated has one value
    at most. -/
def MessageType.fits (type : MessageType) (blocks : List (String × List Value)) : Bool :=
  (type.fields.all fun field =>
      field.repeated || ((blocks.filter (·.1 = field.name)).flatMap (·.2)).length ≤ 1) &&
    (blocks.filterMap fun block => type.numberOf block.1).Pairwise (· ≤ ·)

/-- The value can be written as one of the type. -/
def Encodable (root : Root) (type : FieldType) (value : Value) : Prop :=
  ∃ payload, toPayload root type value = some payload

section Fields

variable {root : Root} {type : MessageType} {blocks : List (String × List Value)}

/-- The values of a field are those of its blocks. -/
theorem values_fields (blocks : List (String × List Value)) (name : String) :
    Message.values (fields blocks) name = (blocks.filter (·.1 = name)).flatMap (·.2) := by
  induction blocks with
  | nil => rfl
  | cons block rest ih =>
    unfold Message.values fields at ih ⊢
    rw [List.flatMap_cons, List.filter_append, List.map_append, ih, List.filter_map]
    by_cases hname : block.1 = name <;> simp [Function.comp_def, hname]

/-- Blocks that fit a message type are admitted by it. -/
theorem admits_fields (h : type.fits blocks = true) : type.admits (fields blocks) = true := by
  simp only [MessageType.fits, Bool.and_eq_true, List.all_eq_true] at h
  refine List.all_eq_true.mpr fun field hfield => ?_
  rw [← List.length_map (f := (·.2)), ← Message.values, values_fields]
  exact h.1 field hfield

/-- Blocks that fit a message type stand in its order. -/
theorem ordered_fields (h : type.fits blocks = true) : type.ordered (fields blocks) = true := by
  simp only [MessageType.fits, Bool.and_eq_true, decide_eq_true_eq] at h
  obtain ⟨-, h⟩ := h
  unfold MessageType.ordered
  rw [decide_eq_true_eq]
  induction blocks with
  | nil => exact List.Pairwise.nil
  | cons block rest ih =>
    rw [fields, List.flatMap_cons, List.filterMap_append, List.filterMap_map, ← fields]
    cases hnumber : type.numberOf block.1 with
    | none =>
      rw [List.filterMap_cons, hnumber] at h
      simpa [Function.comp_def, hnumber] using ih h
    | some number =>
      rw [List.filterMap_cons, hnumber, List.pairwise_cons] at h
      have hblock : block.2.filterMap ((fun entry => type.numberOf entry.1) ∘ fun value => (block.1, value)) =
          List.replicate block.2.length number := by
        simp [hnumber]
      rw [hblock, List.pairwise_append]
      refine ⟨List.pairwise_replicate.mpr (.inr (Nat.le_refl _)), ih h.2, fun first hfirst later hlater => ?_⟩
      obtain ⟨-, rfl⟩ := List.mem_replicate.mp hfirst
      obtain ⟨⟨name, value⟩, hentry, hlater⟩ := List.mem_filterMap.mp hlater
      obtain ⟨other, hother, hentry⟩ := List.mem_flatMap.mp hentry
      obtain ⟨_, -, heq⟩ := List.mem_map.mp hentry
      cases heq
      exact h.1 later (List.mem_filterMap.mpr ⟨other, hother, hlater⟩)

/-- A message whose values can be encoded has records. -/
theorem exists_toRecords (hvalues : ∀ block ∈ blocks, ∃ field, type.fields.find? (·.name = block.1) = some field ∧
      ∀ value ∈ block.2, Encodable root field.type value) :
    ∃ records, toRecords root type (fields blocks) = some records := by
  have hentries : ∀ entry ∈ fields blocks, ∃ field, type.fields.find? (·.name = entry.1) = some field ∧
      Encodable root field.type entry.2 := by
    intro entry hentry
    obtain ⟨block, hblock, hentry⟩ := List.mem_flatMap.mp hentry
    obtain ⟨value, hvalue, rfl⟩ := List.mem_map.mp hentry
    obtain ⟨field, hfield, hencodable⟩ := hvalues block hblock
    exact ⟨field, hfield, hencodable value hvalue⟩
  generalize fields blocks = entries at hentries ⊢
  induction entries with
  | nil => exact ⟨[], rfl⟩
  | cons entry rest ih =>
    obtain ⟨⟨field, hfield, payload, hpayload⟩, hrest⟩ := List.forall_mem_cons.mp hentries
    obtain ⟨records, hrecords⟩ := ih hrest
    exact ⟨⟨field.number, payload⟩ :: records, by simp only [toRecords, hfield, hpayload, hrecords]⟩

/-- Blocks of encodable values that fit a message type are an encodable message. -/
theorem encodable_fields {name : String} (hlookup : root.lookupType name = some type) (hfits : type.fits blocks = true)
    (hvalues : ∀ block ∈ blocks, ∃ field, type.fields.find? (·.name = block.1) = some field ∧
      ∀ value ∈ block.2, Encodable root field.type value) :
    Encodable root (.message name) (.message (fields blocks)) := by
  obtain ⟨records, hrecords⟩ := exists_toRecords hvalues
  refine ⟨.len (writeRecords records), ?_⟩
  simp only [toPayload, hlookup, admits_fields hfits, ordered_fields hfits, hrecords, Bool.and_self, ↓reduceIte,
    Option.map_some]

/-- An encodable message is encoded. -/
theorem Encodable.exists_encode {name : String} {message : Message}
    (h : Encodable root (.message name) (.message message)) : ∃ bytes, encode root name message = some bytes := by
  obtain ⟨payload, hpayload⟩ := h
  unfold encode
  cases payload with
  | len bytes => exact ⟨bytes, by rw [hpayload]⟩
  | varint | fixed64 | fixed32 =>
    simp only [toPayload] at hpayload
    split at hpayload
    case h_2 => cases hpayload
    case h_1 =>
      rw [Option.ite_none_right_eq_some] at hpayload
      obtain ⟨_, -, heq⟩ := Option.map_eq_some_iff.mp hpayload.2
      cases heq

@[simp] theorem encodable_string (value : String) : Encodable root .string (.string value) := ⟨_, rfl⟩

@[simp] theorem encodable_bytes (value : Bytes) : Encodable root .bytes (.bytes value) := ⟨_, rfl⟩

theorem encodable_int {type : FieldType} {value : Int} (h : type.holds value = true) :
    Encodable root type (.int value) :=
  ⟨.varint (writeInt value), by rw [toPayload, if_pos h]⟩

end Fields

end Protobuf
