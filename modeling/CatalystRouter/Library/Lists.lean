import Mathlib.Data.List.Forall2

/-! Entries of a list by their position, when one of them is replaced and when a list is split at one. -/

namespace Lists

variable {α β γ : Type*} {list before after : List α} {i j : Nat} {f : α → α} {entry last : α}

/-- An entry of a modified list is one of the list before, changed at the position that was modified. -/
theorem exists_of_getElem?_modify (h : (list.modify i f)[j]? = some entry) :
    ∃ old, list[j]? = some old ∧ entry = if i = j then f old else old := by
  rw [List.getElem?_modify] at h
  obtain ⟨old, hold, rfl⟩ := Option.map_eq_some_iff.mp h
  exact ⟨old, hold, rfl⟩

theorem exists_of_mem_modify (h : entry ∈ list.modify i f) :
    ∃ (j : Nat) (old : α), list[j]? = some old ∧ entry = if i = j then f old else old := by
  obtain ⟨j, hentry⟩ := List.mem_iff_getElem?.mp h
  exact ⟨j, exists_of_getElem?_modify hentry⟩

/-- What holds of all entries holds of the modified list if it does of the new entry. -/
theorem forall_mem_modify_iff {P : α → Prop} (i : Nat) (h : ∀ entry ∈ list, P entry) :
    (∀ entry ∈ list.modify i f, P entry) ↔ ∀ entry ∈ list[i]?, P (f entry) := by
  constructor
  · intro hall old hold
    refine hall _ (List.mem_of_getElem? (i := i) ?_)
    simp [Option.mem_def.mp hold]
  · intro hnew entry hmem
    obtain ⟨j, old, hold, rfl⟩ := exists_of_mem_modify hmem
    split
    · rename_i hij
      exact hnew old (hij ▸ hold)
    · exact h old (List.mem_of_getElem? hold)

/-- An entry of a list in which one was set is that one, or as it was before. -/
theorem getElem?_set_cases {found : α} (h : (list.set i entry)[j]? = some found) :
    (j = i ∧ found = entry) ∨ (j ≠ i ∧ list[j]? = some found) := by
  rw [List.getElem?_set] at h
  split at h
  · rename_i hj
    split at h
    · exact .inl ⟨hj.symm, (Option.some.inj h).symm⟩
    · cases h
  · rename_i hj
    exact .inr ⟨Ne.symm hj, h⟩

/-- The list around the entry of a position, which stays when another is set there. -/
theorem split_at (h : list[i]? = some entry) :
    ∃ front back, list = front ++ entry :: back ∧ front.length = i ∧
      ∀ other, list.set i other = front ++ other :: back := by
  obtain ⟨hi, rfl⟩ := List.getElem?_eq_some_iff.mp h
  refine ⟨list.take i, list.drop (i + 1), ?_, List.length_take_of_le (Nat.le_of_lt hi), fun other => ?_⟩
  · rw [← List.drop_eq_getElem_cons hi, List.take_append_drop]
  · rw [List.set_eq_take_append_cons_drop, if_pos hi]

/-- The last of a list is the entry it is split at, or stands at the end of what comes after it. -/
theorem concat_eq_append_cons :
    list ++ [last] = before ++ entry :: after ↔
      (after = [] ∧ list = before ∧ last = entry) ∨
        ∃ rest, after = rest ++ [last] ∧ list = before ++ entry :: rest := by
  constructor
  · intro h
    rcases List.eq_nil_or_concat after with rfl | ⟨rest, final, rfl⟩
    · obtain ⟨hlist, hlast⟩ := List.append_inj' h rfl
      exact .inl ⟨rfl, hlist, (List.cons.inj hlast).1⟩
    · rw [List.concat_eq_append, ← List.cons_append, ← List.append_assoc] at h
      obtain ⟨hlist, hlast⟩ := List.append_inj' h rfl
      exact .inr ⟨rest, by rw [List.concat_eq_append, (List.cons.inj hlast).1], hlist⟩
  · rintro (⟨rfl, rfl, rfl⟩ | ⟨rest, rfl, rfl⟩) <;> simp

/-- Related lists have the same image if related entries do. -/
theorem map_eq_of_forall₂ {R : α → β → Prop} {f : α → γ} {g : β → γ} {xs : List α} {ys : List β}
    (h : List.Forall₂ R xs ys) (hmap : ∀ x y, R x y → f x = g y) : xs.map f = ys.map g := by
  induction h with
  | nil => rfl
  | cons hhead _ ih => rw [List.map_cons, List.map_cons, hmap _ _ hhead, ih]

end Lists
