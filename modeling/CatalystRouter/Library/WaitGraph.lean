import Mathlib.Data.Fintype.Card
import Mathlib.Logic.Relation

/-! Waiting without deadlock: relations that have no cycle. -/

namespace WaitGraph

open Relation

variable {α : Type*}

def Acyclic (waits : α → α → Prop) : Prop := ∀ a, ¬ TransGen waits a a

theorem acyclic_of_forall_not {waits : α → α → Prop} (h : ∀ a b, ¬ waits a b) : Acyclic waits := by
  intro a hcycle
  obtain ⟨b, hab, -⟩ := TransGen.head'_iff.mp hcycle
  exact h a b hab

theorem Acyclic.mono {waits waits' : α → α → Prop} (h : Acyclic waits) (hsub : ∀ a b, waits' a b → waits a b) :
    Acyclic waits' :=
  fun a hcycle => h a (TransGen.mono hsub a a hcycle)

/-- Where a path of the larger graph leads: it either uses none of the new
    edges, which all start at `a`, or has passed `a` for good. -/
theorem path_of_newEdges {waits waits' : α → α → Prop} {a b c : α}
    (hnew : ∀ b c, waits' b c → waits b c ∨ (b = a ∧ ¬ ReflTransGen waits c a)) (hpath : TransGen waits' b c) :
    TransGen waits b c ∨ (ReflTransGen waits b a ∧ ¬ ReflTransGen waits c a) := by
  induction hpath with
  | single hedge =>
    obtain hold | ⟨rfl, hclear⟩ := hnew _ _ hedge
    · exact .inl (.single hold)
    · exact .inr ⟨.refl, hclear⟩
  | tail hpath hedge ih =>
    obtain hold | ⟨hpassed, hclear⟩ := ih
    · obtain hedge | ⟨rfl, hclear⟩ := hnew _ _ hedge
      · exact .inl (hold.tail hedge)
      · exact .inr ⟨hold.to_reflTransGen, hclear⟩
    · obtain hedge | ⟨rfl, -⟩ := hnew _ _ hedge
      · exact .inr ⟨hpassed, fun hback => hclear (hback.head hedge)⟩
      · exact absurd .refl hclear

/-- Starting to wait for nodes that do not wait for oneself closes no cycle. -/
theorem Acyclic.newEdges {waits waits' : α → α → Prop} (h : Acyclic waits) {a : α}
    (hnew : ∀ b c, waits' b c → waits b c ∨ (b = a ∧ ¬ ReflTransGen waits c a)) : Acyclic waits' := by
  intro b hcycle
  obtain hold | ⟨hpassed, hclear⟩ := path_of_newEdges hnew hcycle
  · exact h b hold
  · exact hclear hpassed

theorem Acyclic.wellFounded [Finite α] {waits : α → α → Prop} (h : Acyclic waits) :
    WellFounded (Function.swap waits) := by
  have htrans : IsTrans α (TransGen (Function.swap waits)) := ⟨fun _ _ _ => TransGen.trans⟩
  have hirrefl : Std.Irrefl (TransGen (Function.swap waits)) := ⟨fun a hcycle => h a (transGen_swap.mp hcycle)⟩
  have hwf := Finite.wellFounded_of_trans_of_irrefl (TransGen (Function.swap waits))
  exact Subrelation.wf (fun hedge => TransGen.single hedge) hwf

/-- Among finitely many nodes, following the waits of a busy one ends at one
    that is ready. -/
theorem Acyclic.exists_ready [Finite α] {waits : α → α → Prop} (h : Acyclic waits) {Busy : α → Prop}
    (Ready : α → Prop) (hnext : ∀ a, Busy a → Ready a ∨ ∃ b, waits a b ∧ Busy b) {a : α} (ha : Busy a) : ∃ b, Ready b := by
  induction a using h.wellFounded.induction with
  | _ a ih =>
    obtain hready | ⟨b, hwaits, hbusy⟩ := hnext a ha
    · exact ⟨a, hready⟩
    · exact ih b hwaits hbusy

end WaitGraph
