import Mathlib.Data.List.Infix

/-! The JSON text of an array of strings, as `JSON.stringify` writes it and
`JSON.parse` reads it. A text is a list of characters here. -/

namespace JsonStrings

/-- The single character escapes; the other control characters are written as code
    units. -/
def shortEscapes : List (Char × Char) :=
  [('\x08', 'b'), ('\t', 't'), ('\n', 'n'), ('\x0c', 'f'), ('\r', 'r'), ('\x22', '\x22'), ('\x5c', '\x5c')]

def escapeChar (c : Char) : List Char :=
  match shortEscapes.lookup c with
  | some letter => ['\x5c', letter]
  | none =>
    if c.toNat < 32 then ['\x5c', 'u', '0', '0', (c.toNat / 16).digitChar, (c.toNat % 16).digitChar] else [c]

def escape (text : List Char) : List Char := text.flatMap escapeChar

def quote (text : List Char) : List Char := '\x22' :: escape text ++ ['\x22']

def elements : List (List Char) → List Char
  | [] => []
  | [text] => quote text
  | text :: rest => quote text ++ ',' :: elements rest

def stringify (texts : List (List Char)) : List Char := '[' :: elements texts ++ [']']

/-! ### Reading -/

def skipBlanks (text : List Char) : List Char := text.dropWhile fun c => c ∈ [' ', '\t', '\n', '\r']

def hexValue (c : Char) : Option Nat :=
  if '0' ≤ c ∧ c ≤ '9' then some (c.toNat - 48)
  else if 'a' ≤ c ∧ c ≤ 'f' then some (c.toNat - 87)
  else if 'A' ≤ c ∧ c ≤ 'F' then some (c.toNat - 55)
  else none

/-- The code unit of four hexadecimal digits. -/
def codeUnit (a b c d : Char) : Option Nat :=
  match hexValue a, hexValue b, hexValue c, hexValue d with
  | some a, some b, some c, some d => some (((a * 16 + b) * 16 + c) * 16 + d)
  | _, _, _, _ => none

/-- The character of the letter after a backslash. -/
def unescapeLetter (letter : Char) : Option Char :=
  if letter = '/' then some '/' else (shortEscapes.find? fun entry => entry.2 == letter).map (·.1)

/-- The code points of the string up to its closing quote, and the text after it; an
    escaped code unit may be half of a surrogate pair. -/
def readString : List Char → Option (List Nat × List Char)
  | [] => none
  | '\x22' :: rest => some ([], rest)
  | '\x5c' :: 'u' :: a :: b :: c :: d :: rest =>
    match codeUnit a b c d, readString rest with
    | some unit, some (points, rest) => some (unit :: points, rest)
    | _, _ => none
  | '\x5c' :: letter :: rest =>
    match unescapeLetter letter, readString rest with
    | some c, some (points, rest) => some (c.toNat :: points, rest)
    | _, _ => none
  | c :: rest =>
    match readString rest with
    | some (points, rest) => if c.toNat < 32 ∨ c = '\x5c' then none else some (c.toNat :: points, rest)
    | none => none

/-- The characters of code points, with surrogates taken in pairs. -/
def decode : List Nat → Option (List Char)
  | [] => some []
  | high :: low :: rest =>
    if 0xd800 ≤ high ∧ high < 0xdc00 ∧ 0xdc00 ≤ low ∧ low < 0xe000 then
      (decode rest).map (Char.ofNat (0x10000 + (high - 0xd800) * 1024 + (low - 0xdc00)) :: ·)
    else if 0xd800 ≤ high ∧ high < 0xe000 then none
    else (decode (low :: rest)).map (Char.ofNat high :: ·)
  | [point] => if 0xd800 ≤ point ∧ point < 0xe000 then none else some [Char.ofNat point]

/-- The elements up to the closing bracket; each takes a unit of `fuel`. -/
def readElements : Nat → List Char → Option (List (List Char))
  | 0, _ => none
  | fuel + 1, text =>
    match skipBlanks text with
    | '\x22' :: body =>
      match readString body with
      | none => none
      | some (points, rest) =>
        match decode points, skipBlanks rest with
        | some first, ',' :: rest => (readElements fuel rest).map (first :: ·)
        | some first, ']' :: rest => if skipBlanks rest = [] then some [first] else none
        | _, _ => none
    | _ => none

def parse (text : List Char) : Option (List (List Char)) :=
  match skipBlanks text with
  | '[' :: rest =>
    match skipBlanks rest with
    | ']' :: rest => if skipBlanks rest = [] then some [] else none
    | _ => readElements rest.length rest
  | _ => none

/-! ### Reading what was written -/

/-- No short escape is confused with a code unit or another one. -/
theorem unescapeLetter_of_lookup {c letter : Char} (h : shortEscapes.lookup c = some letter) :
    letter ≠ 'u' ∧ unescapeLetter letter = some c := by
  have hall : ∀ entry ∈ shortEscapes, entry.2 ≠ 'u' ∧ unescapeLetter entry.2 = some entry.1 := by decide
  obtain ⟨before, after, hsplit, -⟩ := List.lookup_eq_some_iff.mp h
  exact hall (c, letter) (by simp [hsplit])

theorem readString_escapeChar {c : Char} {tail : List Char} {points : List Nat} {rest : List Char}
    (htail : readString tail = some (points, rest)) :
    readString (escapeChar c ++ tail) = some (c.toNat :: points, rest) := by
  unfold escapeChar
  split
  · rename_i letter hlookup
    obtain ⟨hletter, hunescape⟩ := unescapeLetter_of_lookup hlookup
    simp [readString, hletter, hunescape, htail]
  · rename_i hlookup
    split
    · rename_i hcontrol
      have hunit : ∀ n < 32, codeUnit '0' '0' (n / 16).digitChar (n % 16).digitChar = some n := by decide
      simp only [List.cons_append, List.nil_append, readString, hunit c.toNat hcontrol, htail]
    · rename_i hplain
      have hbackslash : c ≠ '\x5c' := by
        rintro rfl
        cases hlookup
      have hquote : c ≠ '\x22' := by
        rintro rfl
        cases hlookup
      simp [readString, hbackslash, htail, hplain]

theorem readString_escape (text rest : List Char) :
    readString (escape text ++ '\x22' :: rest) = some (text.map Char.toNat, rest) := by
  induction text with
  | nil => simp [escape, readString]
  | cons c text ih =>
    rw [escape, List.flatMap_cons, List.append_assoc]
    exact readString_escapeChar ih

theorem toNat_not_surrogate (c : Char) : ¬ (0xd800 ≤ c.toNat ∧ c.toNat < 0xe000) := by
  have hvalid := c.valid
  unfold UInt32.isValidChar Nat.isValidChar at hvalid
  change ¬ (0xd800 ≤ c.val.toNat ∧ c.val.toNat < 0xe000)
  omega

theorem decode_toNat (text : List Char) : decode (text.map Char.toNat) = some text := by
  induction text with
  | nil => rfl
  | cons c rest ih =>
    have hc := toNat_not_surrogate c
    cases rest with
    | nil =>
      rw [List.map_cons, List.map_nil, decode, if_neg hc, Char.ofNat_toNat]
    | cons next rest =>
      rw [List.map_cons, List.map_cons, decode, if_neg (by omega), if_neg hc, ← List.map_cons, ih, Option.map_some,
        Char.ofNat_toNat]

@[simp] theorem skipBlanks_cons {c : Char} (h : c ∉ [' ', '\t', '\n', '\r']) (rest : List Char) :
    skipBlanks (c :: rest) = c :: rest := by
  unfold skipBlanks
  rw [List.dropWhile_cons_of_neg (by simpa using h)]

theorem readElements_elements {texts : List (List Char)} (hsome : texts ≠ []) {fuel : Nat} (hfuel : texts.length ≤ fuel) :
    readElements fuel (elements texts ++ [']']) = some texts := by
  have hquoted (text rest : List Char) : quote text ++ rest = '\x22' :: (escape text ++ '\x22' :: rest) := by
    simp [quote]
  induction texts generalizing fuel with
  | nil => exact absurd rfl hsome
  | cons text texts ih =>
    obtain ⟨fuel, rfl⟩ : ∃ previous, fuel = previous + 1 := ⟨fuel - 1, by simp at hfuel; omega⟩
    cases texts with
    | nil =>
      rw [elements, hquoted, readElements, skipBlanks_cons (by decide)]
      simp [readString_escape, decode_toNat, skipBlanks]
    | cons next rest =>
      have hcons : elements (text :: next :: rest) = quote text ++ ',' :: elements (next :: rest) := rfl
      rw [hcons, List.append_assoc, hquoted, readElements, skipBlanks_cons (by decide)]
      have hlater : readElements fuel (elements (next :: rest) ++ [']']) = some (next :: rest) :=
        ih (by simp) (by simpa using hfuel)
      simp [readString_escape, decode_toNat, hlater]

theorem length_le_elements (texts : List (List Char)) : texts.length ≤ (elements texts).length := by
  induction texts with
  | nil => exact le_refl 0
  | cons text texts ih =>
    cases texts with
    | nil => simp [elements, quote]
    | cons next rest =>
      have hcons : elements (text :: next :: rest) = quote text ++ ',' :: elements (next :: rest) := rfl
      rw [hcons]
      simp only [List.length_append, List.length_cons] at ih ⊢
      omega

theorem parse_stringify (texts : List (List Char)) : parse (stringify texts) = some texts := by
  unfold stringify parse
  rw [List.cons_append, skipBlanks_cons (by decide)]
  cases texts with
  | nil => rfl
  | cons text rest =>
    obtain ⟨body, hbody⟩ : ∃ body, elements (text :: rest) ++ [']'] = '\x22' :: body := by
      cases rest <;> exact ⟨_, rfl⟩
    have hfuel : (text :: rest).length ≤ (elements (text :: rest) ++ [']']).length := by
      have hlength := length_le_elements (text :: rest)
      simp only [List.length_append] at hlength ⊢
      omega
    have hread := readElements_elements (by simp) hfuel
    rw [hbody] at hread ⊢
    simp only [skipBlanks_cons (show '\x22' ∉ [' ', '\t', '\n', '\r'] by decide)]
    exact hread

/-! ### What is written -/

theorem infix_quote {text : List Char} {texts : List (List Char)} (h : text ∈ texts) : quote text <:+: stringify texts := by
  have helements : quote text <:+: elements texts := by
    induction texts with
    | nil => cases h
    | cons first rest ih =>
      cases rest with
      | nil =>
        obtain rfl := List.mem_singleton.mp h
        exact List.infix_rfl
      | cons next rest =>
        have hcons : elements (first :: next :: rest) = quote first ++ ',' :: elements (next :: rest) := rfl
        rw [hcons]
        obtain rfl | hlater := List.mem_cons.mp h
        · exact (List.prefix_append _ _).isInfix
        · exact (ih hlater).trans ((List.suffix_cons _ _).trans (List.suffix_append _ _)).isInfix
  exact helements.trans ⟨['['], [']'], rfl⟩

theorem infix_escape {text : List Char} {texts : List (List Char)} (h : text ∈ texts) :
    escape text <:+: stringify texts :=
  List.IsInfix.trans ⟨['\x22'], ['\x22'], rfl⟩ (infix_quote h)

theorem mem_elements {texts : List (List Char)} {c : Char} (h : c ∈ elements texts) :
    c = ',' ∨ ∃ text ∈ texts, c ∈ quote text := by
  induction texts with
  | nil => cases h
  | cons first rest ih =>
    cases rest with
    | nil => exact .inr ⟨first, by simp, h⟩
    | cons next rest =>
      have hcons : elements (first :: next :: rest) = quote first ++ ',' :: elements (next :: rest) := rfl
      rw [hcons, List.mem_append, List.mem_cons] at h
      obtain hfirst | rfl | hlater := h
      · exact .inr ⟨first, by simp, hfirst⟩
      · exact .inl rfl
      · obtain rfl | ⟨text, hmem, hc⟩ := ih hlater
        · exact .inl rfl
        · exact .inr ⟨text, List.mem_cons_of_mem first hmem, hc⟩

theorem printable_of_mem_escape {text : List Char} {c : Char} (h : c ∈ escape text) : 32 ≤ c.toNat := by
  obtain ⟨plain, -, hmem⟩ := List.mem_flatMap.mp h
  unfold escapeChar at hmem
  split at hmem
  · rename_i letter hlookup
    have hall : ∀ entry ∈ shortEscapes, 32 ≤ entry.2.toNat := by decide
    obtain ⟨before, after, hsplit, -⟩ := List.lookup_eq_some_iff.mp hlookup
    obtain rfl | rfl : c = '\x5c' ∨ c = letter := by simpa using hmem
    · decide
    · exact hall (plain, c) (by simp [hsplit])
  · split at hmem
    · rename_i hcontrol
      have hall : ∀ n < 32, ∀ c ∈ ['\x5c', 'u', '0', '0', (n / 16).digitChar, (n % 16).digitChar], 32 ≤ c.toNat := by
        simp only [List.forall_mem_cons, List.not_mem_nil, false_imp_iff, implies_true, and_true]
        decide
      exact hall plain.toNat hcontrol c hmem
    · rename_i hplain
      rw [List.mem_singleton.mp hmem]
      omega

/-- No control character is written. -/
theorem printable_of_mem_stringify {texts : List (List Char)} {c : Char} (h : c ∈ stringify texts) : 32 ≤ c.toNat := by
  obtain rfl | hmem | rfl : c = '[' ∨ c ∈ elements texts ∨ c = ']' := by simpa [stringify, or_assoc] using h
  · decide
  · obtain rfl | ⟨text, -, hquote⟩ := mem_elements hmem
    · decide
    · obtain rfl | hescape | rfl : c = '\x22' ∨ c ∈ escape text ∨ c = '\x22' := by
        simpa [quote, or_assoc] using hquote
      · decide
      · exact printable_of_mem_escape hescape
      · decide
  · decide

/-! ### Stretches of what is written -/

/-- A stretch without the separator is on one side of it. -/
theorem infix_append_cons_iff {α : Type*} {l a b : List α} {c : α} (h : c ∉ l) :
    l <:+: a ++ c :: b ↔ l <:+: a ∨ l <:+: b := by
  constructor
  · rintro ⟨s, t, hsplit⟩
    rw [List.append_assoc, List.append_eq_append_iff] at hsplit
    obtain ⟨u, rfl, htail⟩ | ⟨u, rfl, hrest⟩ := hsplit
    · rw [List.append_eq_append_iff] at htail
      obtain ⟨v, rfl, -⟩ | ⟨v, rfl, hcons⟩ := htail
      · exact .inl ⟨s, v, by simp⟩
      · cases v with
        | nil => exact .inl ⟨s, [], by simp⟩
        | cons d v =>
          obtain rfl : c = d := (List.cons.inj hcons).1
          exact absurd (by simp) h
    · cases u with
      | nil =>
        cases l with
        | nil => exact .inl List.nil_infix
        | cons d l =>
          obtain rfl : c = d := (List.cons.inj hrest).1
          exact absurd (by simp) h
      | cons d u =>
        obtain rfl := (List.cons.inj hrest).2
        exact .inr ⟨u, t, by simp⟩
  · rintro (h | h)
    · exact h.trans (List.prefix_append _ _).isInfix
    · exact h.trans ((List.suffix_cons _ _).trans (List.suffix_append _ _)).isInfix

/-- A stretch without the punctuation of the array is within one of its strings. -/
theorem infix_stringify_iff {stretch : List Char} (hsome : stretch ≠ [])
    (hplain : ∀ c ∈ ['\x22', '[', ']', ','], c ∉ stretch) {texts : List (List Char)} :
    stretch <:+: stringify texts ↔ ∃ text ∈ texts, stretch <:+: escape text := by
  have hquote (text : List Char) : stretch <:+: quote text ↔ stretch <:+: escape text := by
    have hsplit : quote text = [] ++ '\x22' :: (escape text ++ '\x22' :: []) := rfl
    rw [hsplit, infix_append_cons_iff (hplain _ (by simp)), infix_append_cons_iff (hplain _ (by simp))]
    simp [hsome]
  have helements : stretch <:+: elements texts ↔ ∃ text ∈ texts, stretch <:+: escape text := by
    induction texts with
    | nil => simp [elements, hsome]
    | cons first rest ih =>
      cases rest with
      | nil => simp [elements, hquote]
      | cons next rest =>
        have hcons : elements (first :: next :: rest) = quote first ++ ',' :: elements (next :: rest) := rfl
        rw [hcons, infix_append_cons_iff (hplain _ (by simp)), hquote, ih]
        simp
  have hsplit : stringify texts = [] ++ '[' :: (elements texts ++ ']' :: []) := rfl
  rw [hsplit, infix_append_cons_iff (hplain _ (by simp)), infix_append_cons_iff (hplain _ (by simp)), helements]
  simp [hsome]

end JsonStrings
