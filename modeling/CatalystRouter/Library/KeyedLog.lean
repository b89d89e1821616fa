import Mathlib.Logic.Function.Basic
import Mathlib.Data.List.Nodup

/-! Stores kept by replaying a log of upserts and deletions. -/

namespace KeyedLog

variable {K V : Type*} [DecidableEq K]

/-- A log entry puts a value under a key, or deletes the key. -/
def apply (store : K → Option V) (entry : K × Option V) : K → Option V :=
  Function.update store entry.1 entry.2

def replay (store : K → Option V) (log : List (K × Option V)) : K → Option V := log.foldl apply store

@[simp] theorem replay_nil (store : K → Option V) : replay store [] = store := rfl

@[simp] theorem replay_cons (store : K → Option V) (entry : K × Option V) (log : List (K × Option V)) :
    replay store (entry :: log) = replay (apply store entry) log := rfl

theorem apply_self (store : K → Option V) (k : K) (v : Option V) : apply store (k, v) k = v := by
  simp [apply]

theorem apply_of_ne {entry : K × Option V} {k : K} (h : entry.1 ≠ k) (store : K → Option V) :
    apply store entry k = store k := by
  simp [apply, h.symm]

/-- A key that the log does not mention keeps its value. -/
theorem replay_of_forall_ne {log : List (K × Option V)} {k : K} (h : ∀ entry ∈ log, entry.1 ≠ k)
    (store : K → Option V) : replay store log k = store k := by
  induction log generalizing store with
  | nil => rfl
  | cons entry rest ih =>
    rw [replay_cons, ih fun other hmem => h other (by simp [hmem]), apply_of_ne (h entry (by simp))]

/-- In a log of distinct keys every entry is the last word on its key. -/
theorem replay_of_mem {log : List (K × Option V)} (hnodup : (log.map Prod.fst).Nodup) {k : K} {v : Option V}
    (hmem : (k, v) ∈ log) (store : K → Option V) : replay store log k = v := by
  induction log generalizing store with
  | nil => cases hmem
  | cons entry rest ih =>
    obtain ⟨hfresh, hrest⟩ := List.nodup_cons.mp hnodup
    rw [replay_cons]
    obtain rfl | hmem := List.mem_cons.mp hmem
    · have hothers : ∀ other ∈ rest, other.1 ≠ k := fun other hother heq =>
        hfresh (List.mem_map.mpr ⟨other, hother, heq⟩)
      rw [replay_of_forall_ne hothers, apply_self]
    · exact ih hrest hmem _

end KeyedLog
