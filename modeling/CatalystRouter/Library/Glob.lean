import Mathlib.Data.List.Forall2
import Mathlib.Data.List.Infix

/-! Patterns with wildcards, over any alphabet with a comparison of its letters. -/

namespace Glob

inductive Token (α : Type*) where
  /-- Any stretch, also the empty one. -/
  | many
  /-- Any one letter. -/
  | one
  | letter (a : α)
  deriving DecidableEq, Repr

variable {α : Type*} (same : α → α → Bool)

/-- The whole text reads as the pattern. -/
def reads : List (Token α) → List α → Bool
  | [], text => text.isEmpty
  | .many :: rest, text => text.tails.any (reads rest)
  | .one :: rest, text =>
    match text with
    | _ :: tail => reads rest tail
    | [] => false
  | .letter a :: rest, text =>
    match text with
    | b :: tail => same a b && reads rest tail
    | [] => false

variable {same}

theorem reads_nil {text : List α} : reads same [] text = true ↔ text = [] := List.isEmpty_iff

theorem reads_many {pattern : List (Token α)} {text : List α} :
    reads same (.many :: pattern) text = true ↔ ∃ stretch, stretch <:+ text ∧ reads same pattern stretch = true := by
  simp [reads, List.any_eq_true]

theorem reads_one {pattern : List (Token α)} {text : List α} :
    reads same (.one :: pattern) text = true ↔ ∃ b tail, text = b :: tail ∧ reads same pattern tail = true := by
  cases text <;> simp [reads]

theorem reads_letter {a : α} {pattern : List (Token α)} {text : List α} :
    reads same (.letter a :: pattern) text = true ↔
      ∃ b tail, text = b :: tail ∧ same a b = true ∧ reads same pattern tail = true := by
  cases text <;> simp [reads]

/-- A text reads as a concatenation iff it splits. -/
theorem reads_append {first second : List (Token α)} {text : List α} :
    reads same (first ++ second) text = true ↔
      ∃ early late, text = early ++ late ∧ reads same first early = true ∧ reads same second late = true := by
  induction first generalizing text with
  | nil => simp [reads_nil]
  | cons token rest ih =>
    cases token with
    | many =>
      simp only [List.cons_append, reads_many, ih]
      constructor
      · rintro ⟨stretch, ⟨skipped, rfl⟩, early, late, rfl, hfirst, hsecond⟩
        exact ⟨skipped ++ early, late, by simp, ⟨early, ⟨skipped, rfl⟩, hfirst⟩, hsecond⟩
      · rintro ⟨_, late, rfl, ⟨early, ⟨skipped, rfl⟩, hfirst⟩, hsecond⟩
        exact ⟨early ++ late, ⟨skipped, by simp⟩, early, late, rfl, hfirst, hsecond⟩
    | one =>
      simp only [List.cons_append, reads_one, ih]
      constructor
      · rintro ⟨b, _, rfl, early, late, rfl, hfirst, hsecond⟩
        exact ⟨b :: early, late, rfl, ⟨b, early, rfl, hfirst⟩, hsecond⟩
      · rintro ⟨_, late, rfl, ⟨b, early, rfl, hfirst⟩, hsecond⟩
        exact ⟨b, early ++ late, rfl, early, late, rfl, hfirst, hsecond⟩
    | letter a =>
      simp only [List.cons_append, reads_letter, ih]
      constructor
      · rintro ⟨b, _, rfl, hsame, early, late, rfl, hfirst, hsecond⟩
        exact ⟨b :: early, late, rfl, ⟨b, early, rfl, hsame, hfirst⟩, hsecond⟩
      · rintro ⟨_, late, rfl, ⟨b, early, rfl, hsame, hfirst⟩, hsecond⟩
        exact ⟨b, early ++ late, rfl, hsame, early, late, rfl, hfirst, hsecond⟩

@[simp] theorem reads_many_nil (text : List α) : reads same [.many] text = true :=
  reads_many.mpr ⟨[], List.nil_suffix, reads_nil.mpr rfl⟩

/-- Between two wildcards a pattern looks for a stretch of the text. -/
theorem reads_contains {pattern : List (Token α)} {text : List α} :
    reads same (.many :: pattern ++ [.many]) text = true ↔
      ∃ stretch, stretch <:+: text ∧ reads same pattern stretch = true := by
  simp only [List.cons_append, reads_many, reads_append, reads_many_nil, and_true]
  constructor
  · rintro ⟨_, ⟨before, rfl⟩, stretch, after, rfl, hreads⟩
    exact ⟨stretch, ⟨before, after, by simp⟩, hreads⟩
  · rintro ⟨stretch, ⟨before, after, rfl⟩, hreads⟩
    exact ⟨stretch ++ after, ⟨before, by simp⟩, stretch, after, rfl, hreads⟩

/-- A pattern without wildcards is read letter by letter. -/
theorem reads_letters {letters text : List α} :
    reads same (letters.map .letter) text = true ↔ List.Forall₂ (fun a b => same a b = true) letters text := by
  induction letters generalizing text with
  | nil => simp [reads_nil]
  | cons a rest ih =>
    rw [List.map_cons, reads_letter, List.forall₂_cons_left_iff]
    simp only [ih]
    constructor
    · rintro ⟨b, tail, rfl, hsame, hrest⟩
      exact ⟨b, tail, hsame, hrest, rfl⟩
    · rintro ⟨b, tail, hsame, hrest, rfl⟩
      exact ⟨b, tail, rfl, hsame, hrest⟩

/-- A text reads as itself, also when some of its letters are taken for wildcards. -/
theorem reads_self {token : α → Token α} (hrefl : ∀ a, same a a = true)
    (htoken : ∀ a, token a = .many ∨ token a = .one ∨ token a = .letter a) (text : List α) :
    reads same (text.map token) text = true := by
  induction text with
  | nil => rfl
  | cons a rest ih =>
    rw [List.map_cons]
    obtain hmany | hone | hletter := htoken a
    · rw [hmany]
      exact reads_many.mpr ⟨rest, List.suffix_cons a rest, ih⟩
    · rw [hone]
      exact reads_one.mpr ⟨a, rest, rfl, ih⟩
    · rw [hletter]
      exact reads_letter.mpr ⟨a, rest, rfl, hrefl a, ih⟩

end Glob
