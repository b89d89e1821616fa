import CatalystRouter.Library.PathVector.Feasible

/-! When a node that loses its path tells everyone who relies on it, and so does
    the origin when it retracts, no path outlives the origin's announcement. -/

namespace PathVector

variable {V : Type*} [DecidableEq V] {o : V} {s s' : State V}

/-- Everyone who relies on `n` is among `rs`. -/
def State.Reaches (s : State V) (n : V) (rs : List V) : Prop := ∀ y, s.relied n y ≠ [] → y ∈ rs

/-- Links are read in order and nothing is turned down, no path gives way to a
    longer one, and whoever relies on a lost path hears of it. -/
def Withdraws (o : V) (s : State V) : Label V → Prop
  | .retract rs => s.Reaches o rs
  | .deliver a z i accepted rs => i = 0 ∧ accepted = true ∧ ∀ item, (s.queue a z)[0]? = some item →
      (∀ e e', s.view z = some e → receiveIf accepted z a (some e) item = some e' →
        e'.path.length ≤ e.path.length) ∧
      (s.view z ≠ none → receiveIf accepted z a (s.view z) item = none → s.Reaches z rs)
  | .drop n rs => s.Reaches n rs
  | _ => True

/-- Only the origin while it is announced, and nodes with a path, are relied on. -/
structure Standing (o : V) (s : State V) : Prop where
  origin : ∀ z, s.relied o z ≠ [] → s.announced = true
  selected : ∀ a z, a ≠ o → s.relied a z ≠ [] → s.view a ≠ none

/-- As long as no step marks a selection stale, none is. -/
theorem Run.fresh {Allowed : State V → Label V → Prop}
    (hallowed : ∀ s l, Allowed s l → ∀ n stale rs, l = .refresh n stale rs → stale = false)
    (h : Run o Allowed s) : ∀ z e, s.view z = some e → e.stale = false := by
  refine Run.invariant (I := fun s => ∀ z e, s.view z = some e → e.stale = false) ?_ ?_ h
  · intro z e hview
    cases hview
  · intro s l s' hfresh hl hstep
    have hchange {t : State V} {n : V} {new : Option (Entry V)} {rs : List V} (ht : t.view = s.view)
        (hnew : ∀ e, new = some e → e.stale = false) :
        ∀ z e, (t.change n new rs).view z = some e → e.stale = false := by
      intro z e hview
      rw [State.change_view, ht] at hview
      by_cases hz : z = n
      · subst hz
        exact hnew e (by simpa using hview)
      · exact hfresh z e (by simpa [hz] using hview)
    cases hstep with
    | originate | retract => exact hfresh
    | @deliver a z i accepted rs item hitem hguard =>
      refine hchange (State.pop_view s a z i item) fun e hnew => ?_
      rcases receiveIf_cases accepted z a (s.view z) item with
        ⟨hkept, -⟩ | ⟨path, -, -, hput⟩ | ⟨-, hgone⟩
      · exact hfresh z e (hkept ▸ hnew)
      · obtain rfl := Option.some.inj (hput.symm.trans hnew)
        rfl
      · rw [hgone] at hnew
        cases hnew
    | @refresh n e stale rs hview hstale hguard =>
      intro z e' hview'
      rw [State.post_view] at hview'
      by_cases hz : z = n
      · subst hz
        rw [State.setView_view_self] at hview'
        obtain rfl := Option.some.inj hview'
        exact hallowed s _ hl z stale rs rfl
      · rw [State.setView_view_of_ne s hz] at hview'
        exact hfresh z e' hview'
    | @drop n e rs hview hguard =>
      refine hchange rfl fun e hnew => ?_
      cases hnew

theorem standing_initial (o : V) : Standing o (State.initial V) where
  origin _ h := absurd rfl h
  selected _ _ _ h := absurd rfl h

omit [DecidableEq V] in
theorem foldl_rely_replicate_remove (base : List (List V)) {count : Nat} (h : count ≠ 0) :
    (List.replicate count Item.remove).foldl rely base = [] := by
  obtain ⟨count, rfl⟩ := Nat.exists_eq_succ_of_ne_zero h
  rw [List.replicate_succ', List.foldl_append]
  rfl

theorem relied_post_of_ne {n a : V} (h : a ≠ n) (rs : List V) (item : Item V) (z : V) :
    (s.post n rs item).relied a z = s.relied a z := by
  simp [State.relied, State.post, h]

/-- A removal that reaches everyone leaves nobody relying on the node. -/
theorem relied_post_remove {n : V} {rs : List V} (h : s.Reaches n rs) (z : V) :
    (s.post n rs .remove).relied n z = [] := by
  simp only [State.relied, State.post, if_true, List.foldl_append]
  by_cases hz : z ∈ rs
  · exact foldl_rely_replicate_remove _ fun hzero => List.count_eq_zero.mp hzero hz
  · rw [List.count_eq_zero.mpr hz]
    by_contra hrelied
    exact hz (h z hrelied)

/-- Everyone still stands where no more is relied on and no relied path is lost. -/
theorem Standing.mono {t : State V} (h : Standing o s) (hrelied : ∀ a z, t.relied a z ⊆ s.relied a z)
    (hannounced : t.announced = s.announced)
    (hview : ∀ a z, t.relied a z ≠ [] → s.view a ≠ none → t.view a ≠ none) : Standing o t := by
  have hne : ∀ a z, t.relied a z ≠ [] → s.relied a z ≠ [] := by
    intro a z hz hnil
    have hsub := hrelied a z
    rw [hnil] at hsub
    exact hz (List.subset_nil.mp hsub)
  refine ⟨fun z hz => hannounced.trans (h.origin z (hne o z hz)), fun a z ha hz => ?_⟩
  exact hview a z hz (h.selected a z ha (hne a z hz))

/-- Announcing at a node with a path keeps everyone standing. -/
theorem Standing.post (h : Standing o s) {n : V} (hn : n ≠ o) (hview : s.view n ≠ none) (rs : List V)
    (item : Item V) : Standing o (s.post n rs item) := by
  refine ⟨fun z hz => h.origin z ?_, fun a z ha hz => ?_⟩
  · rwa [relied_post_of_ne (Ne.symm hn)] at hz
  · by_cases han : a = n
    · exact han ▸ hview
    · rw [relied_post_of_ne han] at hz
      exact h.selected a z ha hz

theorem Standing.change {t : State V} (h : Standing o s) {n : V} {new : Option (Entry V)} {rs : List V}
    (hrelied : ∀ a z, (t.setView n new).relied a z ⊆ s.relied a z) (hview : t.view = s.view)
    (hannounced : t.announced = s.announced) (hn : new ≠ s.view n → n ≠ o)
    (hreaches : s.view n ≠ none → new = none → s.Reaches n rs) : Standing o (t.change n new rs) := by
  unfold State.change announcement
  by_cases hsame : new = t.view n
  · rw [hsame, State.setView_eq_self] at hrelied
    have hkept : Standing o t := h.mono hrelied hannounced fun a z _ hsome => hview ▸ hsome
    simpa [hsame] using hkept
  · rw [if_neg hsame]
    rw [hview] at hsame
    cases new with
    | some e =>
      have hset : Standing o (t.setView n (some e)) := by
        refine h.mono hrelied hannounced fun a z _ hsome => ?_
        by_cases han : a = n
        · subst han
          simp
        · rwa [State.setView_view_of_ne t han, hview]
      exact hset.post (hn hsame) (by simp) rs _
    | none =>
      have htold : (t.setView n none).Reaches n rs := by
        intro y hy
        refine hreaches (Ne.symm hsame) rfl y fun hnil => hy ?_
        have hsub := hrelied n y
        rw [hnil] at hsub
        exact List.subset_nil.mp hsub
      refine h.mono (fun a z => ?_) hannounced fun a z hz hsome => ?_
      · by_cases han : a = n
        · subst han
          rw [relied_post_remove htold z]
          exact List.nil_subset _
        · rw [relied_post_of_ne han]
          exact hrelied a z
      · by_cases han : a = n
        · subst han
          exact absurd (relied_post_remove htold z) hz
        · rwa [State.post_view, State.setView_view_of_ne t han, hview]

/-- While everyone stands, withdrawing steps are feasible. -/
theorem Withdraws.feasible {l : Label V} (h : Withdraws o s l) (hordered : Ordered o s)
    (hstanding : Standing o s) : Feasible s l := by
  cases l with
  | originate | retract | refresh | drop => trivial
  | deliver a z i accepted rs =>
    obtain ⟨rfl, rfl, hitems⟩ := h
    refine ⟨rfl, fun item hitem => ⟨fun e hnew hchanged y _ path hpath => ?_, fun hrefused => by cases hrefused⟩⟩
    cases hview : s.view z with
    | some old =>
      have hle := (hitems item hitem).1 old e hview (hview ▸ hnew)
      have hlt := hordered.ordered z y path hpath old hview
      omega
    | none =>
      -- nobody relies on a node without a path, the origin apart
      have hz : z ≠ o := hordered.origin_idle hitem fun hsame => hchanged (hsame.symm.trans hnew)
      exact absurd hview (hstanding.selected z y hz (List.ne_nil_of_mem hpath))

theorem Standing.step {l : Label V} (h : Standing o s) (hordered : Ordered o s) (hwithdraws : Withdraws o s l)
    (hstep : Step o s l s') : Standing o s' := by
  have horigin := hordered.view_origin
  cases hstep with
  | originate rs =>
    refine ⟨fun _ _ => rfl, fun a z ha hz => ?_⟩
    rw [relied_post_of_ne ha] at hz
    exact h.selected a z ha hz
  | retract rs =>
    have hreaches : State.Reaches { s with announced := false } o rs := hwithdraws
    refine ⟨fun z hz => absurd (relied_post_remove hreaches z) hz, fun a z ha hz => ?_⟩
    rw [relied_post_of_ne ha] at hz
    exact h.selected a z ha hz
  | @deliver a z i accepted rs item hitem hguard =>
    obtain ⟨rfl, rfl, hitems⟩ := hwithdraws
    have hrelied := relied_deliver_subset (s := s) hitem fun hrefused : true = false => by cases hrefused
    refine h.change hrelied rfl rfl (hordered.origin_idle hitem) (hitems item hitem).2
  | @refresh n e stale rs hview hstale hguard =>
    have hn : n ≠ o := fun hno => by simp [hno, horigin] at hview
    have hkept : Standing o (s.setView n (some { e with stale })) := by
      refine h.mono (keeps_stale hview stale).relied_subset rfl fun a z _ hsome => ?_
      by_cases han : a = n
      · subst han
        simp
      · rwa [State.setView_view_of_ne s han]
    exact hkept.post hn (by simp) rs _
  | @drop n e rs hview hguard =>
    have hn : n ≠ o := fun hno => by simp [hno, horigin] at hview
    exact h.change (keeps_none _).relied_subset rfl rfl (fun _ => hn) fun _ _ => hwithdraws

theorem Run.standing {Allowed : State V → Label V → Prop} (hallowed : ∀ s l, Allowed s l → Withdraws o s l)
    (h : Run o Allowed s) : Ordered o s ∧ Standing o s := by
  refine Run.invariant (I := fun s => Ordered o s ∧ Standing o s) ⟨ordered_initial o, standing_initial o⟩ ?_ h
  intro s l s' hinv hl hstep
  have hwithdraws := hallowed s l hl
  exact ⟨hinv.1.step (hwithdraws.feasible hinv.1 hinv.2) hstep, hinv.2.step hinv.1 hwithdraws hstep⟩

/-- At quiescence a selected path means that the origin is announced. -/
theorem Run.announced {Allowed : State V → Label V → Prop} (hallowed : ∀ s l, Allowed s l → Withdraws o s l)
    (h : Run o Allowed s) (hquiet : s.Quiet) {z : V} {e : Entry V} (hview : s.view z = some e) :
    s.announced = true := by
  obtain ⟨hordered, hstanding⟩ := Run.standing hallowed h
  -- induction on the length of the path, following next hops to the origin
  induction hlen : e.path.length using Nat.strong_induction_on generalizing z e with
  | _ n ih =>
    have hrelied : s.relied e.hop z ≠ [] := List.ne_nil_of_mem (mem_relied_of_quiet hquiet hview)
    by_cases hhop : e.hop = o
    · exact hstanding.origin z (hhop ▸ hrelied)
    · obtain ⟨e', he'⟩ := Option.ne_none_iff_exists'.mp (hstanding.selected e.hop z hhop hrelied)
      have hlt := hordered.ordered e.hop z e.path (mem_relied_of_quiet hquiet hview) e' he'
      exact ih e'.path.length (hlen ▸ hlt) he' rfl

end PathVector
