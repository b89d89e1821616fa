import Mathlib.Data.List.Basic
import Mathlib.Tactic.SplitIfs

/-! Logs whose entries carry consecutive numbers, cut off at the front. -/

namespace NumberedLog

variable {E : Type*} {number : E → Int}

/-- The entries are numbered one after the other from `first`. -/
def NumberedFrom (number : E → Int) : Int → List E → Prop
  | _, [] => True
  | first, entry :: rest => number entry = first ∧ NumberedFrom number (first + 1) rest

theorem NumberedFrom.le {first : Int} {entries : List E} (h : NumberedFrom number first entries) {entry : E}
    (hmem : entry ∈ entries) : first ≤ number entry := by
  induction entries generalizing first with
  | nil => cases hmem
  | cons head rest ih =>
    obtain ⟨hhead, hrest⟩ := h
    obtain rfl | hmem := List.mem_cons.mp hmem
    · omega
    · have hle := ih hrest hmem
      omega

theorem NumberedFrom.concat {first : Int} {entries : List E} (h : NumberedFrom number first entries) {entry : E}
    (hentry : number entry = first + entries.length) : NumberedFrom number first (entries ++ [entry]) := by
  induction entries generalizing first with
  | nil => exact ⟨by simpa using hentry, trivial⟩
  | cons head rest ih =>
    obtain ⟨hhead, hrest⟩ := h
    refine ⟨hhead, ih hrest ?_⟩
    rw [List.length_cons] at hentry
    omega

theorem NumberedFrom.drop {first : Int} {entries : List E} (h : NumberedFrom number first entries) (n : Nat) :
    NumberedFrom number (first + n) (entries.drop n) := by
  induction n generalizing first entries with
  | zero => simpa using h
  | succ n ih =>
    cases entries with
    | nil => trivial
    | cons head rest =>
      have hrest := ih h.2
      rw [List.drop_succ_cons, show first + ((n + 1 : Nat) : Int) = first + 1 + n by omega]
      exact hrest

/-- Keeping the entries numbered from `cut` on drops a prefix. -/
theorem NumberedFrom.filter_le {first : Int} {entries : List E} (h : NumberedFrom number first entries) (cut : Int) :
    (entries.filter fun entry => cut ≤ number entry) = entries.drop (cut - first).toNat := by
  induction entries generalizing first with
  | nil => simp
  | cons head rest ih =>
    have hhead : number head = first := h.1
    by_cases hcut : cut ≤ first
    · have hall : ∀ entry ∈ head :: rest, decide (cut ≤ number entry) = true := by
        intro entry hmem
        have hle := h.le hmem
        exact decide_eq_true (by omega)
      rw [List.filter_eq_self.mpr hall, show (cut - first).toNat = 0 by omega, List.drop_zero]
    · have hdrops : ¬ cut ≤ number head := by omega
      rw [List.filter_cons_of_neg (by simpa using hdrops), ih h.2,
        show (cut - first).toNat = (cut - (first + 1)).toNat + 1 by omega, List.drop_succ_cons]

theorem NumberedFrom.getLast? {first : Int} {entries : List E} (h : NumberedFrom number first entries) {last : E}
    (hlast : entries.getLast? = some last) : number last = first + entries.length - 1 := by
  induction entries generalizing first with
  | nil => cases hlast
  | cons head rest ih =>
    obtain ⟨hhead, hrest⟩ := h
    rw [List.length_cons]
    cases rest with
    | nil =>
      obtain rfl := Option.some.inj hlast
      simpa using hhead
    | cons next others =>
      rw [List.getLast?_cons_cons] at hlast
      have hnumber := ih hrest hlast
      omega

end NumberedLog
