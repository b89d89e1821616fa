import Mathlib.Data.List.MinMax

/-! The earliest minimum of a list, `List.argmin`, taken apart at its position. -/

namespace List

variable {α β : Type*} [LinearOrder β] {f : α → β} {l : List α}

/-- The earliest minimum is strictly below what comes before it, and at most what comes
    after it. -/
theorem argmin_eq_some_iff_split {m : α} :
    argmin f l = some m ↔
      ∃ before after, l = before ++ m :: after ∧ (∀ x ∈ before, f m < f x) ∧ ∀ x ∈ after, f m ≤ f x := by
  induction l generalizing m with
  | nil => simp
  | cons a l ih =>
    rw [argmin_cons]
    constructor
    · intro hmin
      cases hrest : argmin f l with
      | none =>
        obtain rfl : a = m := by simpa [hrest] using hmin
        exact ⟨[], l, rfl, by simp, by simp [argmin_eq_none.mp hrest]⟩
      | some c =>
        simp only [hrest] at hmin
        split at hmin
        case isTrue hlt =>
          obtain rfl := Option.some.inj hmin
          obtain ⟨before, after, rfl, hbefore, hafter⟩ := ih.mp hrest
          exact ⟨a :: before, after, rfl, forall_mem_cons.mpr ⟨hlt, hbefore⟩, hafter⟩
        case isFalse hle =>
          obtain rfl := Option.some.inj hmin
          exact ⟨[], l, rfl, by simp, fun x hx => (not_lt.mp hle).trans (le_of_mem_argmin hx hrest)⟩
    · rintro ⟨before, after, hsplit, hbefore, hafter⟩
      cases before with
      | nil =>
        obtain ⟨rfl, rfl⟩ := cons.inj hsplit
        cases hrest : argmin f l with
        | none => rfl
        | some c => exact if_neg (not_lt.mpr (hafter c (argmin_mem hrest)))
      | cons x before =>
        obtain ⟨rfl, hl⟩ := cons.inj hsplit
        rw [ih.mpr ⟨before, after, hl, fun y hy => hbefore y (mem_cons_of_mem _ hy), hafter⟩]
        exact if_pos (hbefore a mem_cons_self)

/-- The least value does not depend on the order. -/
theorem Perm.map_argmin {l' : List α} (h : l.Perm l') : (argmin f l).map f = (argmin f l').map f := by
  cases hmin : argmin f l with
  | none =>
    rw [argmin_eq_none] at hmin
    subst hmin
    rw [h.symm.eq_nil]
    rfl
  | some m =>
    cases hother : argmin f l' with
    | none =>
      rw [argmin_eq_none] at hother
      subst hother
      rw [h.eq_nil] at hmin
      cases hmin
    | some m' =>
      have hle : f m ≤ f m' := le_of_mem_argmin (h.mem_iff.mpr (argmin_mem hother)) hmin
      have hge : f m' ≤ f m := le_of_mem_argmin (h.mem_iff.mp (argmin_mem hmin)) hother
      rw [Option.map_some, Option.map_some, le_antisymm hle hge]

end List
