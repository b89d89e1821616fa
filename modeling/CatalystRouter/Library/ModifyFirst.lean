import Mathlib.Data.List.Basic

namespace List

variable {α β : Type*}

/-- Apply `f` to the first element satisfying `p`, leaving the rest alone. -/
def modifyFirst (p : α → Bool) (f : α → α) : List α → List α
  | [] => []
  | x :: xs => if p x then f x :: xs else x :: modifyFirst p f xs

@[simp] theorem modifyFirst_nil (p : α → Bool) (f : α → α) : modifyFirst p f [] = [] := rfl

theorem modifyFirst_cons_pos {p : α → Bool} {x : α} (h : p x = true) (f : α → α) (xs : List α) :
    modifyFirst p f (x :: xs) = f x :: xs := by simp [modifyFirst, h]

theorem modifyFirst_cons_neg {p : α → Bool} {x : α} (h : p x = false) (f : α → α) (xs : List α) :
    modifyFirst p f (x :: xs) = x :: modifyFirst p f xs := by simp [modifyFirst, h]

/-- Every element of the result is an old one or the image of an old one that
    satisfied the test. -/
theorem mem_modifyFirst {p : α → Bool} {f : α → α} {xs : List α} {y : α}
    (hy : y ∈ modifyFirst p f xs) : y ∈ xs ∨ ∃ x ∈ xs, p x = true ∧ y = f x := by
  induction xs with
  | nil => simp at hy
  | cons x xs ih =>
    by_cases hx : p x = true
    · rw [modifyFirst_cons_pos hx] at hy
      obtain rfl | hy := mem_cons.mp hy
      · exact .inr ⟨x, by simp, hx, rfl⟩
      · exact .inl (by simp [hy])
    · rw [modifyFirst_cons_neg (by simpa using hx)] at hy
      obtain rfl | hy := mem_cons.mp hy
      · exact .inl (by simp)
      · obtain h | ⟨z, hz, hpz, rfl⟩ := ih hy
        · exact .inl (by simp [h])
        · exact .inr ⟨z, by simp [hz], hpz, rfl⟩

/-- A field that `f` does not change on the tested elements is unchanged along
    the list. -/
theorem map_modifyFirst {p : α → Bool} {f : α → α} {g : α → β} {xs : List α}
    (h : ∀ x ∈ xs, p x = true → g (f x) = g x) : (modifyFirst p f xs).map g = xs.map g := by
  induction xs with
  | nil => rfl
  | cons x xs ih =>
    by_cases hx : p x = true
    · rw [modifyFirst_cons_pos hx, map_cons, map_cons, h x mem_cons_self hx]
    · rw [modifyFirst_cons_neg (by simpa using hx), map_cons, map_cons,
        ih fun y hy => h y (mem_cons_of_mem x hy)]

@[simp] theorem length_modifyFirst (p : α → Bool) (f : α → α) (xs : List α) :
    (modifyFirst p f xs).length = xs.length := by
  induction xs with
  | nil => rfl
  | cons x xs ih => by_cases hx : p x = true <;> simp [modifyFirst, hx, ih]

/-- A projection of the list shows the modification iff it shows on the found element. -/
theorem map_modifyFirst_eq_iff {p : α → Bool} {f : α → α} {g : α → β} {xs : List α} :
    (modifyFirst p f xs).map g = xs.map g ↔ ∀ x ∈ xs.find? p, g (f x) = g x := by
  induction xs with
  | nil => simp
  | cons x xs ih =>
    by_cases hx : p x = true
    · simp [modifyFirst_cons_pos hx, find?_cons_of_pos hx]
    · rw [modifyFirst_cons_neg (by simpa using hx), find?_cons_of_neg hx, map_cons, map_cons, cons_inj_right, ih]

/-- Nothing is modified if the found element is a fixed point. -/
theorem modifyFirst_eq_self {p : α → Bool} {f : α → α} {xs : List α} (h : ∀ x ∈ xs.find? p, f x = x) :
    modifyFirst p f xs = xs := by
  have hid : (modifyFirst p f xs).map id = xs.map id := map_modifyFirst_eq_iff.mpr h
  rwa [map_id, map_id] at hid

/-- A lookup by the same test finds the modified element. -/
theorem find?_modifyFirst {p : α → Bool} {f : α → α} (h : ∀ x, p x = true → p (f x) = true)
    (xs : List α) : (modifyFirst p f xs).find? p = (xs.find? p).map f := by
  induction xs with
  | nil => rfl
  | cons x xs ih =>
    by_cases hx : p x = true
    · rw [modifyFirst_cons_pos hx, find?_cons_of_pos (h x hx), find?_cons_of_pos hx, Option.map_some]
    · rw [modifyFirst_cons_neg (by simpa using hx), find?_cons_of_neg hx, find?_cons_of_neg hx, ih]

/-- A lookup by a test the modified element fails before and after is unaffected. -/
theorem find?_modifyFirst_of_disjoint {p q : α → Bool} {f : α → α}
    (h : ∀ x, p x = true → q x = false ∧ q (f x) = false) (xs : List α) :
    (modifyFirst p f xs).find? q = xs.find? q := by
  induction xs with
  | nil => rfl
  | cons x xs ih =>
    by_cases hx : p x = true
    · obtain ⟨hq, hqf⟩ := h x hx
      rw [modifyFirst_cons_pos hx, find?_cons_of_neg (by simp [hqf]), find?_cons_of_neg (by simp [hq])]
    · rw [modifyFirst_cons_neg (by simpa using hx)]
      by_cases hq : q x = true
      · rw [find?_cons_of_pos hq, find?_cons_of_pos hq]
      · rw [find?_cons_of_neg hq, find?_cons_of_neg hq, ih]

/-- Modifying commutes with a map that carries the test and the function along. -/
theorem modifyFirst_map {p : α → Bool} {q : β → Bool} {f : α → α} {g : β → β} {h : α → β} (hp : ∀ x, q (h x) = p x)
    (hf : ∀ x, p x = true → g (h x) = h (f x)) (xs : List α) :
    modifyFirst q g (xs.map h) = (modifyFirst p f xs).map h := by
  induction xs with
  | nil => rfl
  | cons x xs ih =>
    rw [map_cons]
    by_cases hx : p x = true
    · rw [modifyFirst_cons_pos hx, modifyFirst_cons_pos ((hp x).trans hx), map_cons, hf x hx]
    · have hx : p x = false := by simpa using hx
      rw [modifyFirst_cons_neg hx, modifyFirst_cons_neg ((hp x).trans hx), map_cons, ih]

end List
