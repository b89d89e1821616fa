import CatalystRouter.Library.ModifyFirst
import Mathlib.Data.List.Nodup

/-! Edits of a list whose elements are told apart by a key. -/

namespace ListPatch

/-- An edit appends an element, puts it in the place of the one of its key, or
    drops the one of its key. -/
inductive Edit (α : Type*) where
  | append (a : α)
  | put (a : α)
  | drop (a : α)

variable {α κ : Type*} [DecidableEq κ] (key : α → κ)

def Edit.apply (l : List α) : Edit α → List α
  | .append a => l ++ [a]
  | .put a => l.map fun old => if key old = key a then a else old
  | .drop a => l.filter fun old => key old ≠ key a

theorem apply_put (l : List α) (a : α) :
    (Edit.put a).apply key l = l.map fun old => if key old = key a then a else old := rfl

/-- The list after its edits, in order. -/
def patch (l : List α) (edits : List (Edit α)) : List α := edits.foldl (Edit.apply key) l

@[simp] theorem patch_nil (l : List α) : patch key l [] = l := rfl

@[simp] theorem patch_cons (l : List α) (edit : Edit α) (edits : List (Edit α)) :
    patch key l (edit :: edits) = patch key (edit.apply key l) edits := rfl

theorem patch_append (l : List α) (first second : List (Edit α)) :
    patch key l (first ++ second) = patch key (patch key l first) second := List.foldl_append

/-- Drops leave what has none of their keys. -/
theorem patch_drops (dropped : List α) :
    ∀ l, patch key l (dropped.map .drop) = l.filter fun old => key old ∉ dropped.map key := by
  induction dropped with
  | nil =>
    intro l
    simp
  | cons first rest ih =>
    intro l
    rw [List.map_cons, patch_cons, ih, Edit.apply, List.filter_filter]
    refine List.filter_congr fun old _ => ?_
    by_cases hfirst : key old = key first <;> simp [hfirst]

/-- Puts under distinct keys replace what has one of their keys. -/
theorem patch_puts {puts : List α} (hnodup : (puts.map key).Nodup) :
    ∀ l, patch key l (puts.map .put) = l.map fun old => (puts.find? fun a => key a == key old).getD old := by
  induction puts with
  | nil =>
    intro l
    simp
  | cons first rest ih =>
    obtain ⟨hfresh, hrest⟩ := List.nodup_cons.mp hnodup
    intro l
    rw [List.map_cons, patch_cons, ih hrest, Edit.apply, List.map_map]
    refine List.map_congr_left fun old _ => ?_
    by_cases hfirst : key old = key first
    · have hnone : rest.find? (fun a => key a == key first) = none := by
        rw [List.find?_eq_none]
        intro a ha heq
        exact hfresh (List.mem_map.mpr ⟨a, ha, beq_iff_eq.mp heq⟩)
      simp [hfirst, hnone]
    · simp [hfirst, Ne.symm hfirst]

variable {key} {l : List α} {p : α → Bool}

/-- With the keys apart, the first element of a key is the only one. -/
theorem modifyFirst_eq_put (hnodup : (l.map key).Nodup) {a : α} (hp : ∀ old, p old = true ↔ key old = key a) :
    l.modifyFirst p (fun _ => a) = (Edit.put a).apply key l := by
  rw [apply_put]
  induction l with
  | nil => rfl
  | cons first rest ih =>
    obtain ⟨hfresh, hrest⟩ := List.nodup_cons.mp hnodup
    by_cases hfirst : key first = key a
    · rw [List.modifyFirst_cons_pos ((hp first).mpr hfirst), List.map_cons, if_pos hfirst]
      congr 1
      refine ((List.map_congr_left fun old hold => ?_).trans (List.map_id rest)).symm
      have hother : key old ≠ key a := fun heq => hfresh (List.mem_map.mpr ⟨old, hold, heq.trans hfirst.symm⟩)
      simp [hother]
    · have hfails : p first = false := Bool.eq_false_iff.mpr fun htest => hfirst ((hp first).mp htest)
      rw [List.modifyFirst_cons_neg hfails, List.map_cons, if_neg hfirst, ih hrest]

/-- Dropping the elements that pass a test leaves those that fail it. -/
theorem patch_drops_filter (hnodup : (l.map key).Nodup) :
    patch key l ((l.filter p).map .drop) = l.filter fun a => !p a := by
  rw [patch_drops]
  refine List.filter_congr fun a ha => ?_
  cases hp : p a with
  | true =>
    have hmem : key a ∈ (l.filter p).map key := List.mem_map_of_mem (List.mem_filter.mpr ⟨ha, hp⟩)
    simp [hmem]
  | false =>
    have hmem : key a ∉ (l.filter p).map key := by
      intro hmem
      obtain ⟨b, hb, hkey⟩ := List.mem_map.mp hmem
      obtain ⟨hb, hpb⟩ := List.mem_filter.mp hb
      rw [List.inj_on_of_nodup_map hnodup hb ha hkey, hp] at hpb
      cases hpb
    simp [hmem]

/-- Putting the images of the elements that pass a test rewrites just these. -/
theorem patch_puts_filter (hnodup : (l.map key).Nodup) {f : α → α} (hkey : ∀ a, key (f a) = key a) :
    patch key l (((l.filter p).map f).map .put) = l.map fun a => if p a then f a else a := by
  have hputs : (((l.filter p).map f).map key).Nodup := by
    rw [List.map_map, show key ∘ f = key from funext hkey]
    exact hnodup.sublist (List.filter_sublist.map key)
  rw [patch_puts key hputs]
  refine List.map_congr_left fun a ha => ?_
  cases hfound : ((l.filter p).map f).find? fun b => key b == key a with
  | none =>
    have hfails : p a = false := by
      by_contra hp
      have hmem : f a ∈ (l.filter p).map f := List.mem_map_of_mem (List.mem_filter.mpr ⟨ha, by simpa using hp⟩)
      simpa [hkey] using List.find?_eq_none.mp hfound (f a) hmem
    simp [hfails]
  | some b =>
    obtain ⟨c, hc, rfl⟩ := List.mem_map.mp (List.mem_of_find?_eq_some hfound)
    obtain ⟨hc, hpc⟩ := List.mem_filter.mp hc
    have hsame : key c = key a := by simpa [hkey] using List.find?_some hfound
    obtain rfl := List.inj_on_of_nodup_map hnodup hc ha hsame
    simp [hpc]

end ListPatch
