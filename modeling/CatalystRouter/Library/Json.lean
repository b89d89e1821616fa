import Mathlib.Data.List.Basic
import CatalystRouter.Library.JsonStrings

/-! JSON documents, the text that `JSON.stringify` writes for them, and how `JSON.parse` reads
it. The numbers of a document are integers, written in decimal. -/

/-- An object is the list of its members, in order. -/
inductive Json where
  | null
  | bool (value : Bool)
  | number (value : Int)
  | string (value : String)
  | array (elements : List Json)
  | object (members : List (String × Json))

namespace Json

open JsonStrings

def writeInteger : Int → List Char
  | .ofNat n => Nat.toDigits 10 n
  | .negSucc n => '-' :: Nat.toDigits 10 (n + 1)

mutual

def write : Json → List Char
  | .null => ['n', 'u', 'l', 'l']
  | .bool true => ['t', 'r', 'u', 'e']
  | .bool false => ['f', 'a', 'l', 's', 'e']
  | .number value => writeInteger value
  | .string value => quote value.toList
  | .array [] => ['[', ']']
  | .array (first :: rest) => '[' :: write first ++ writeElements rest
  | .object [] => ['{', '}']
  | .object ((key, first) :: rest) => '{' :: quote key.toList ++ ':' :: write first ++ writeMembers rest

/-- The elements after the first one, and the closing bracket. -/
def writeElements : List Json → List Char
  | [] => [']']
  | element :: rest => ',' :: write element ++ writeElements rest

def writeMembers : List (String × Json) → List Char
  | [] => ['}']
  | (key, value) :: rest => ',' :: quote key.toList ++ ':' :: write value ++ writeMembers rest

end

def stringify (self : Json) : String := String.ofList self.write

/-! ### Reading -/

/-- No leading zero. -/
def readNatural (text : List Char) : Option (Nat × List Char) :=
  match text.takeWhile Char.isDigit with
  | [] => none
  | '0' :: _ :: _ => none
  | digits => some (Nat.ofDigitChars 10 digits 0, text.dropWhile Char.isDigit)

def readInteger (text : List Char) : Option (Int × List Char) :=
  match text with
  | '-' :: rest => (readNatural rest).map fun (n, rest) => (-(n : Int), rest)
  | text => (readNatural text).map fun (n, rest) => ((n : Int), rest)

/-- The string whose opening quote has been read. -/
def readText (body : List Char) : Option (String × List Char) :=
  match readString body with
  | some (points, rest) => (decode points).map fun text => (String.ofList text, rest)
  | none => none

mutual

/-- The value at the start of a text, and the text after it. -/
def read : Nat → List Char → Option (Json × List Char)
  | 0, _ => none
  | fuel + 1, text =>
    match skipBlanks text with
    | 'n' :: 'u' :: 'l' :: 'l' :: rest => some (.null, rest)
    | 't' :: 'r' :: 'u' :: 'e' :: rest => some (.bool true, rest)
    | 'f' :: 'a' :: 'l' :: 's' :: 'e' :: rest => some (.bool false, rest)
    | '\x22' :: body => (readText body).map fun (value, rest) => (.string value, rest)
    | '[' :: body =>
      match skipBlanks body with
      | ']' :: rest => some (.array [], rest)
      | body => (readElements fuel body).map fun (elements, rest) => (.array elements, rest)
    | '{' :: body =>
      match skipBlanks body with
      | '}' :: rest => some (.object [], rest)
      | body => (readMembers fuel body).map fun (members, rest) => (.object members, rest)
    | text => (readInteger text).map fun (value, rest) => (.number value, rest)

def readElements : Nat → List Char → Option (List Json × List Char)
  | 0, _ => none
  | fuel + 1, text =>
    match read fuel text with
    | none => none
    | some (element, rest) =>
      match skipBlanks rest with
      | ',' :: rest => (readElements fuel rest).map fun (elements, rest) => (element :: elements, rest)
      | ']' :: rest => some ([element], rest)
      | _ => none

def readMembers : Nat → List Char → Option (List (String × Json) × List Char)
  | 0, _ => none
  | fuel + 1, text =>
    match skipBlanks text with
    | '\x22' :: body =>
      match readText body with
      | none => none
      | some (key, rest) =>
        match skipBlanks rest with
        | ':' :: rest =>
          match read fuel rest with
          | none => none
          | some (value, rest) =>
            match skipBlanks rest with
            | ',' :: rest => (readMembers fuel rest).map fun (members, rest) => ((key, value) :: members, rest)
            | '}' :: rest => some ([(key, value)], rest)
            | _ => none
        | _ => none
    | _ => none

end

/-- `none` when `JSON.parse` throws. -/
def parse (text : String) : Option Json :=
  match read text.toList.length text.toList with
  | some (value, rest) => if skipBlanks rest = [] then some value else none
  | none => none

/-! ### Reading what was written -/

/-- What may follow a number. -/
def Ends (rest : List Char) : Prop := ∀ c ∈ rest.head?, c.isDigit = false

theorem ends_cons {c : Char} (h : c.isDigit = false) (rest : List Char) : Ends (c :: rest) := by
  intro d hd
  obtain rfl : c = d := by simpa using hd
  exact h

/-- A run of digits ends where the text after it does not begin with one. -/
theorem takeWhile_isDigit {digits rest : List Char} (hdigits : ∀ c ∈ digits, c.isDigit) (hrest : Ends rest) :
    (digits ++ rest).takeWhile Char.isDigit = digits ∧ (digits ++ rest).dropWhile Char.isDigit = rest := by
  rw [List.takeWhile_append_of_pos hdigits, List.dropWhile_append_of_pos hdigits]
  cases rest with
  | nil => simp
  | cons c rest =>
    have hc : c.isDigit = false := hrest c (by simp)
    simp [hc]

/-- Only zero starts with the digit zero. -/
theorem head?_toDigits {n : Nat} (h : 0 < n) : (Nat.toDigits 10 n).head? ≠ some '0' := by
  induction n using Nat.strongRecOn with
  | ind n ih =>
    by_cases hsmall : n < 10
    · rw [Nat.toDigits_of_lt_base hsmall]
      have hne : n ≠ 0 := Nat.pos_iff_ne_zero.mp h
      simpa using hne
    · have hfewer := ih (n / 10) (by omega) (by omega)
      have hsome : Nat.toDigits 10 (n / 10) ≠ [] := Nat.toDigits_ne_nil
      rw [Nat.toDigits_of_base_le (by decide) (by omega), List.head?_append_of_ne_nil _ hsome]
      exact hfewer

/-- A natural number is read back. -/
theorem readNatural_toDigits (n : Nat) {rest : List Char} (hrest : Ends rest) :
    readNatural (Nat.toDigits 10 n ++ rest) = some (n, rest) := by
  have hdigits : ∀ c ∈ Nat.toDigits 10 n, c.isDigit := fun c hc => Nat.isDigit_of_mem_toDigits (by decide) (by decide) hc
  obtain ⟨htake, hdrop⟩ := takeWhile_isDigit hdigits hrest
  unfold readNatural
  rw [htake, hdrop]
  split
  · rename_i hnil
    exact absurd hnil Nat.toDigits_ne_nil
  · rename_i hzero
    obtain rfl | hpos := Nat.eq_zero_or_pos n
    · simp at hzero
    · exact absurd (by rw [hzero]; rfl) (head?_toDigits hpos)
  · simp

/-- So is an integer. -/
theorem readInteger_writeInteger (value : Int) {rest : List Char} (hrest : Ends rest) :
    readInteger (writeInteger value ++ rest) = some (value, rest) := by
  cases value with
  | negSucc n =>
    simp only [writeInteger, List.cons_append, readInteger, readNatural_toDigits (n + 1) hrest]
    rfl
  | ofNat n =>
    unfold readInteger writeInteger
    dsimp only
    split
    · rename_i text rest' hminus
      cases hdigits : Nat.toDigits 10 n with
      | nil => exact absurd hdigits Nat.toDigits_ne_nil
      | cons c digits =>
        have hmem : c ∈ Nat.toDigits 10 n := by simp [hdigits]
        have hc : c.isDigit = true := Nat.isDigit_of_mem_toDigits (by decide) (by decide) hmem
        rw [hdigits, List.cons_append] at hminus
        obtain rfl := (List.cons.inj hminus).1
        cases hc
    · rw [readNatural_toDigits n hrest]
      rfl

/-- So is a quoted text. -/
theorem readText_quote (value : String) (rest : List Char) :
    readText (escape value.toList ++ '\x22' :: rest) = some (value, rest) := by
  simp [readText, readString_escape, decode_toNat]

/-- An integer begins with a digit or a sign. -/
theorem writeInteger_cons (value : Int) :
    ∃ c text, writeInteger value = c :: text ∧ (c = '-' ∨ c.isDigit = true) := by
  cases value with
  | negSucc n => exact ⟨'-', _, rfl, .inl rfl⟩
  | ofNat n =>
    cases hdigits : Nat.toDigits 10 n with
    | nil => exact absurd hdigits Nat.toDigits_ne_nil
    | cons c digits =>
      have hmem : c ∈ Nat.toDigits 10 n := by simp [hdigits]
      exact ⟨c, digits, hdigits, .inr (Nat.isDigit_of_mem_toDigits (by decide) (by decide) hmem)⟩

/-- No value starts with a blank or a closing bracket. -/
theorem write_cons (value : Json) :
    ∃ c text, write value = c :: text ∧ c ∉ [' ', '\t', '\n', '\r'] ∧ c ≠ ']' := by
  match value with
  | .null => exact ⟨_, _, rfl, by decide⟩
  | .bool true => exact ⟨_, _, rfl, by decide⟩
  | .bool false => exact ⟨_, _, rfl, by decide⟩
  | .string text => exact ⟨_, _, rfl, by decide⟩
  | .array [] => exact ⟨_, _, rfl, by decide⟩
  | .array (first :: rest) => exact ⟨_, _, by rw [write, List.cons_append], by decide⟩
  | .object [] => exact ⟨_, _, rfl, by decide⟩
  | .object ((key, first) :: rest) => exact ⟨_, _, by rw [write, List.cons_append, List.cons_append], by decide⟩
  | .number n =>
    obtain ⟨c, text, hwrite, hc⟩ := writeInteger_cons n
    refine ⟨c, text, by rw [write, hwrite], ?_, ?_⟩
    · intro hblank
      simp only [List.mem_cons, List.not_mem_nil, or_false] at hblank
      obtain rfl | rfl | rfl | rfl := hblank <;> simp at hc
    · rintro rfl
      simp at hc

/-- What begins so is read as an integer. -/
theorem read_integer {fuel : Nat} {c : Char} (hc : c = '-' ∨ c.isDigit = true) (text : List Char) :
    read (fuel + 1) (c :: text) = (readInteger (c :: text)).map fun (value, rest) => (.number value, rest) := by
  have hblank : c ∉ [' ', '\t', '\n', '\r'] := by
    intro hblank
    simp only [List.mem_cons, List.not_mem_nil, or_false] at hblank
    obtain rfl | rfl | rfl | rfl := hblank <;> simp at hc
  have hother : ∀ d ∈ ['n', 't', 'f', '\x22', '[', '{'], c ≠ d := by
    rintro d hd rfl
    simp only [List.mem_cons, List.not_mem_nil, or_false] at hd
    obtain rfl | rfl | rfl | rfl | rfl | rfl := hd <;> simp at hc
  rw [read, skipBlanks_cons hblank]
  split
  case h_7 => rfl
  all_goals
    rename_i heq
    exact absurd (List.cons.inj heq).1 (hother _ (by simp))

/-- No digit follows an element of an array. -/
theorem ends_writeElements (elements : List Json) (rest : List Char) : Ends (writeElements elements ++ rest) := by
  cases elements with
  | nil => exact ends_cons (by decide) _
  | cons first later =>
    rw [writeElements, List.cons_append, List.cons_append]
    exact ends_cons (by decide) _

/-- Nor a member of an object. -/
theorem ends_writeMembers (members : List (String × Json)) (rest : List Char) : Ends (writeMembers members ++ rest) := by
  cases members with
  | nil => exact ends_cons (by decide) _
  | cons first later =>
    obtain ⟨key, value⟩ := first
    simp only [writeMembers, List.cons_append]
    exact ends_cons (by decide) _

/-- Every value is written with some text. -/
theorem write_pos (value : Json) : 0 < (write value).length := by
  obtain ⟨c, text, hwrite, -⟩ := write_cons value
  simp [hwrite]

/-- What follows an opening bracket is read as elements. -/
theorem read_array {fuel : Nat} {c : Char} (hblank : c ∉ [' ', '\t', '\n', '\r']) (hclose : c ≠ ']') (text : List Char) :
    read (fuel + 1) ('[' :: c :: text) =
      (readElements fuel (c :: text)).map fun (elements, rest) => (.array elements, rest) := by
  have hopen : '[' ∉ [' ', '\t', '\n', '\r'] := by decide
  simp only [read, skipBlanks_cons hopen, skipBlanks_cons hblank]
  split
  · rename_i heq
    exact absurd (List.cons.inj heq).1 hclose
  · rfl

/-- What follows an opening brace is read as members. -/
theorem read_object {fuel : Nat} (text : List Char) :
    read (fuel + 1) ('{' :: '\x22' :: text) =
      (readMembers fuel ('\x22' :: text)).map fun (members, rest) => (.object members, rest) := by
  have hopen : '{' ∉ [' ', '\t', '\n', '\r'] := by decide
  have hquote : '\x22' ∉ [' ', '\t', '\n', '\r'] := by decide
  simp only [read, skipBlanks_cons hopen, skipBlanks_cons hquote]
  rfl

/-- The readers go on after what they have read. -/
theorem readElements_comma {fuel : Nat} {text rest : List Char} {first : Json}
    (hread : read fuel text = some (first, ',' :: rest)) :
    readElements (fuel + 1) text = (readElements fuel rest).map fun (elements, rest) => (first :: elements, rest) := by
  have hcomma : ',' ∉ [' ', '\t', '\n', '\r'] := by decide
  simp only [readElements, hread, skipBlanks_cons hcomma]

/-- A member is read, and then what follows it. -/
theorem readMembers_quote {fuel : Nat} {key : String} {text rest : List Char} {first : Json}
    (hread : read fuel text = some (first, rest)) :
    readMembers (fuel + 1) (quote key.toList ++ ':' :: text) =
      match skipBlanks rest with
      | ',' :: rest => (readMembers fuel rest).map fun (members, rest) => ((key, first) :: members, rest)
      | '}' :: rest => some ([(key, first)], rest)
      | _ => none := by
  have hquote : '\x22' ∉ [' ', '\t', '\n', '\r'] := by decide
  have hcolon : ':' ∉ [' ', '\t', '\n', '\r'] := by decide
  simp only [quote, List.cons_append, List.append_assoc, List.nil_append, readMembers, skipBlanks_cons hquote,
    readText_quote, skipBlanks_cons hcolon, hread]

/-! The recursion follows the document; the length of its text is fuel enough, because each
level of the reader takes a character of its own. -/

mutual

/-- Every value is read back, with the text after it left over. -/
theorem read_write : ∀ (value : Json) (fuel : Nat) (rest : List Char), (write value).length ≤ fuel → Ends rest →
    read fuel (write value ++ rest) = some (value, rest)
  | value, 0, _, hfuel, _ => absurd hfuel (Nat.not_le.mpr (write_pos value))
  | .null, fuel + 1, rest, _, _ => by simp [write, read]
  | .bool true, fuel + 1, rest, _, _ => by simp [write, read]
  | .bool false, fuel + 1, rest, _, _ => by simp [write, read]
  | .string value, fuel + 1, rest, _, _ => by simp [write, quote, read, readText_quote]
  | .number value, fuel + 1, rest, _, hrest => by
    obtain ⟨c, text, hwrite, hc⟩ := writeInteger_cons value
    have hread := readInteger_writeInteger value hrest
    rw [write]
    rw [hwrite, List.cons_append] at hread ⊢
    rw [read_integer hc, hread]
    rfl
  | .array [], fuel + 1, rest, _, _ => by simp [write, read]
  | .array (first :: later), fuel + 1, rest, hfuel, _ => by
    have hread := readElements_write first later fuel rest (by simpa [write] using hfuel)
    obtain ⟨c, text, hwrite, hblank, hclose⟩ := write_cons first
    rw [hwrite] at hread
    simp only [List.cons_append, List.append_assoc] at hread
    simp only [write, hwrite, List.cons_append, List.append_assoc]
    rw [read_array hblank hclose, hread]
    rfl
  | .object [], fuel + 1, rest, _, _ => by simp [write, read]
  | .object ((key, first) :: later), fuel + 1, rest, hfuel, _ => by
    have hread := readMembers_write key first later fuel rest (by simpa [write] using hfuel)
    simp only [quote, List.cons_append, List.append_assoc] at hread
    simp only [write, quote, List.cons_append, List.append_assoc]
    rw [read_object, hread]
    rfl

/-- So are the elements of an array. -/
theorem readElements_write : ∀ (first : Json) (later : List Json) (fuel : Nat) (rest : List Char),
    (write first ++ writeElements later).length ≤ fuel →
    readElements fuel (write first ++ writeElements later ++ rest) = some (first :: later, rest)
  | first, later, 0, rest, hfuel => by
    have hpos := write_pos first
    simp only [List.length_append] at hfuel
    omega
  | first, [], fuel + 1, rest, hfuel => by
    have hread := read_write first fuel _ (by simpa [writeElements] using hfuel) (ends_writeElements [] rest)
    rw [readElements, List.append_assoc, hread]
    simp [writeElements]
  | first, next :: later, fuel + 1, rest, hfuel => by
    have hpos := write_pos first
    simp only [writeElements, List.length_append, List.length_cons] at hfuel
    have hread := read_write first fuel _ (by omega) (ends_writeElements (next :: later) rest)
    have hlater := readElements_write next later fuel rest (by rw [List.length_append]; omega)
    rw [writeElements, List.cons_append, List.cons_append] at hread
    rw [writeElements, List.append_assoc, List.cons_append, List.cons_append, readElements_comma hread, hlater]
    rfl

/-- So are the members of an object. -/
theorem readMembers_write : ∀ (key : String) (first : Json) (later : List (String × Json)) (fuel : Nat)
    (rest : List Char), (quote key.toList ++ ':' :: write first ++ writeMembers later).length ≤ fuel →
    readMembers fuel (quote key.toList ++ ':' :: write first ++ writeMembers later ++ rest) = some ((key, first) :: later, rest)
  | key, first, later, 0, rest, hfuel => by simp [quote] at hfuel
  | key, first, [], fuel + 1, rest, hfuel => by
    simp only [quote, writeMembers, List.length_append, List.length_cons] at hfuel
    have hread := read_write first fuel _ (by omega) (ends_writeMembers [] rest)
    have hsplit : quote key.toList ++ ':' :: write first ++ writeMembers [] ++ rest =
        quote key.toList ++ ':' :: (write first ++ (writeMembers [] ++ rest)) := by simp
    rw [hsplit, readMembers_quote hread]
    simp [writeMembers]
  | key, first, (nextKey, next) :: later, fuel + 1, rest, hfuel => by
    simp only [quote, writeMembers, List.length_append, List.length_cons] at hfuel
    have hread := read_write first fuel _ (by omega) (ends_writeMembers ((nextKey, next) :: later) rest)
    have hlater := readMembers_write nextKey next later fuel rest
      (by simp only [quote, List.length_append, List.length_cons]; omega)
    have hsplit : quote key.toList ++ ':' :: write first ++ writeMembers ((nextKey, next) :: later) ++ rest =
        quote key.toList ++ ':' :: (write first ++ (writeMembers ((nextKey, next) :: later) ++ rest)) := by simp
    have hcomma : ',' ∉ [' ', '\t', '\n', '\r'] := by decide
    rw [hsplit, readMembers_quote hread]
    simp only [writeMembers, List.cons_append, skipBlanks_cons hcomma, hlater]
    rfl

end

/-- What was written reads back. -/
theorem parse_stringify (value : Json) : parse value.stringify = some value := by
  have hread := read_write value _ [] (le_refl _) (by simp [Ends])
  rw [List.append_nil] at hread
  unfold parse stringify
  rw [String.toList_ofList, hread]
  rfl

end Json
