import CatalystRouter.Library.PathVector.Protocol

/-! Next hops form no loop when a node only takes up a path that is shorter than
    every path its neighbours rely on it for. -/

namespace PathVector

variable {V : Type*} [DecidableEq V] {o : V} {s s' : State V}

/-- The effect of an item on the paths that its reader relies on. -/
def rely (paths : List (List V)) : Item V → List (List V)
  | .add path => paths ++ [path]
  | .remove => []

/-- What `n` relies on `a` for when its selection is `view`. -/
def selectedFrom (a : V) (view : Option (Entry V)) : List (List V) :=
  match view with
  | some e => if e.hop = a then [e.path] else []
  | none => []

/-- The paths `z` relies on `a` for: the one it selects, and those under way
    that no removal follows. -/
def State.relied (s : State V) (a z : V) : List (List V) :=
  (s.queue a z).foldl rely (selectedFrom a (s.view z))

/-- Links are read in order, a path that is taken up is shorter than every path
    the node's neighbours rely on it for, and no removal by the next hop is
    turned down. -/
def Feasible (s : State V) : Label V → Prop
  | .deliver a z i accepted _ => i = 0 ∧ ∀ item, (s.queue a z)[0]? = some item →
      (∀ e, receiveIf accepted z a (s.view z) item = some e → s.view z ≠ some e →
        ∀ y, s.log z y ≠ [] → ∀ path ∈ s.relied z y, e.path.length < path.length) ∧
      (accepted = false → item = .remove → ∀ e, s.view z = some e → e.hop ≠ a)
  | _ => True

/-- The invariant: what a node selects is shorter than what others rely on it
    for. -/
structure Ordered (o : V) (s : State V) : Prop where
  viewPath : ∀ z e, s.view z = some e → o ∈ e.path ∧ z ∉ e.path
  told : ∀ z e, s.view z = some e → s.received e.hop z ≠ []
  queuePath : ∀ a z path, .add path ∈ s.queue a z → o ∈ path ∧ a ∈ path
  ordered : ∀ a z, ∀ path ∈ s.relied a z, ∀ e, s.view a = some e → e.path.length < path.length

/-! ### Reliance -/

omit [DecidableEq V] in
/-- More paths before are more paths after the items. -/
theorem foldl_rely_subset {base base' : List (List V)} (h : base ⊆ base') (items : List (Item V)) :
    items.foldl rely base ⊆ items.foldl rely base' := by
  induction items generalizing base base' with
  | nil => exact h
  | cons item rest ih =>
    cases item with
    | add path =>
      refine ih (List.append_subset.mpr ⟨fun other hother => ?_, List.subset_append_right _ _⟩)
      exact List.mem_append_left _ (h hother)
    | remove => exact ih (List.Subset.refl [])

omit [DecidableEq V] in
/-- A path that is relied on was so before, or is added by an item. -/
theorem mem_foldl_rely {base : List (List V)} {items : List (Item V)} {path : List V}
    (h : path ∈ items.foldl rely base) : path ∈ base ∨ .add path ∈ items := by
  induction items generalizing base with
  | nil => exact .inl h
  | cons item rest ih =>
    cases item with
    | add other =>
      obtain hbase | hrest := ih h
      · obtain hbase | hother := List.mem_append.mp hbase
        · exact .inl hbase
        · obtain rfl := List.mem_singleton.mp hother
          exact .inr List.mem_cons_self
      · exact .inr (List.mem_cons_of_mem _ hrest)
    | remove =>
      obtain hbase | hrest := ih h
      · cases hbase
      · exact .inr (List.mem_cons_of_mem _ hrest)

/-- A post adds the paths that it advertises to those relied on. -/
theorem mem_relied_post {n a z : V} {rs : List V} {item : Item V} {path : List V}
    (h : path ∈ (s.post n rs item).relied a z) : path ∈ s.relied a z ∨ (a = n ∧ item = .add path) := by
  by_cases ha : a = n
  · simp only [State.relied, State.post, if_pos ha, List.foldl_append] at h
    obtain hold | hnew := mem_foldl_rely h
    · exact .inl hold
    · exact .inr ⟨ha, (List.eq_of_mem_replicate hnew).symm⟩
  · simp only [State.relied, State.post, if_neg ha, List.append_nil] at h
    exact .inl h

/-- Whoever relies on a node was sent something by it. -/
theorem Ordered.log_ne_nil (h : Ordered o s) {a z : V} {path : List V} (hpath : path ∈ s.relied a z) :
    s.log a z ≠ [] := by
  intro hlog
  obtain ⟨hreceived, hqueue⟩ := List.append_eq_nil_iff.mp hlog
  simp only [State.relied, hqueue, List.foldl_nil] at hpath
  cases hview : s.view z with
  | none => simp [selectedFrom, hview] at hpath
  | some e =>
    by_cases hhop : e.hop = a
    · exact h.told z e hview (hhop ▸ hreceived)
    · simp [selectedFrom, hview, hhop] at hpath

/-! ### Preservation -/

/-- The initial state is ordered. -/
theorem ordered_initial (o : V) : Ordered o (State.initial V) where
  viewPath z e hview := by cases hview
  told z e hview := by cases hview
  queuePath a z path hmem := by cases hmem
  ordered a z path hpath e hview := by cases hview

/-- The origin has no entry of its own. -/
theorem Ordered.view_origin (h : Ordered o s) : s.view o = none := by
  cases hview : s.view o with
  | none => rfl
  | some e =>
    obtain ⟨horigin, hself⟩ := h.viewPath o e hview
    exact absurd horigin hself

/-- Every path runs through the origin, so the origin takes up none. -/
theorem Ordered.origin_idle (h : Ordered o s) {a z : V} {i : Nat} {item : Item V}
    (hitem : (s.queue a z)[i]? = some item) {accepted : Bool}
    (hchanged : receiveIf accepted z a (s.view z) item ≠ s.view z) : z ≠ o := by
  rintro rfl
  obtain ⟨hkept, -⟩ | ⟨path, rfl, hloop, -⟩ | ⟨-, hgone⟩ := receiveIf_cases accepted z a (s.view z) item
  · exact hchanged hkept
  · exact hloop (h.queuePath a z path (List.mem_of_getElem? hitem)).1
  · exact hchanged (hgone.trans h.view_origin.symm)

/-- Advertising longer paths than the own entry keeps the order. -/
theorem Ordered.post (h : Ordered o s) {n : V} {item : Item V}
    (hpath : ∀ path, item = .add path → o ∈ path ∧ n ∈ path)
    (hlen : ∀ path, item = .add path → ∀ e, s.view n = some e → e.path.length < path.length) (rs : List V) :
    Ordered o (s.post n rs item) := by
  refine ⟨h.viewPath, h.told, fun a z path hmem => ?_, fun a z path hmem e hview => ?_⟩
  · obtain hold | hnew := List.mem_append.mp hmem
    · exact h.queuePath a z path hold
    · by_cases ha : a = n
      · subst ha
        rw [if_pos rfl] at hnew
        exact hpath path (List.eq_of_mem_replicate hnew).symm
      · rw [if_neg ha] at hnew
        cases hnew
  · obtain hold | ⟨rfl, hitem⟩ := mem_relied_post hmem
    · exact h.ordered a z path hold e hview
    · exact hlen path hitem e hview

/-- Announcing the selection that is in place keeps the order. -/
theorem Ordered.post_selected (h : Ordered o s) {n : V} {e : Entry V} (hview : s.view n = some e) (rs : List V) :
    Ordered o (s.post n rs (.add (n :: e.path))) := by
  have hpath := h.viewPath n e hview
  refine h.post (fun path heq => ?_) (fun path heq e' hview' => ?_) rs
  · cases heq
    exact ⟨List.mem_cons_of_mem _ hpath.1, List.mem_cons_self⟩
  · cases heq
    obtain rfl := Option.some.inj (hview.symm.trans hview')
    simp

/-- The selection is lost, or still of the same path. -/
def Keeps (old new : Option (Entry V)) : Prop :=
  ∀ e', new = some e' → ∃ e, old = some e ∧ e'.hop = e.hop ∧ e'.path = e.path

omit [DecidableEq V] in
/-- Dropping an entry keeps nothing new. -/
theorem keeps_none (old : Option (Entry V)) : Keeps old none := fun e' h => by cases h

omit [DecidableEq V] in
/-- Marking an entry stale keeps its path. -/
theorem keeps_stale {old : Option (Entry V)} {e : Entry V} (h : old = some e) (stale : Bool) :
    Keeps old (some { e with stale }) := by
  intro e' he'
  obtain rfl := Option.some.inj he'
  exact ⟨e, h, rfl, rfl⟩

/-- A change that keeps one view keeps all. -/
theorem Keeps.setView {n : V} {new : Option (Entry V)} (h : Keeps (s.view n) new) (z : V) :
    Keeps (s.view z) ((s.setView n new).view z) := by
  intro e' hview
  by_cases hz : z = n
  · subst hz
    exact h e' (by simpa using hview)
  · rw [State.setView_view_of_ne s hz] at hview
    exact ⟨e', hview, rfl, rfl⟩

/-- A change that keeps a view adds no path that is relied on. -/
theorem Keeps.relied_subset {n : V} {new : Option (Entry V)} (h : Keeps (s.view n) new) (a z : V) :
    (s.setView n new).relied a z ⊆ s.relied a z := by
  refine foldl_rely_subset ?_ _
  cases hview : (s.setView n new).view z with
  | none => exact List.nil_subset _
  | some e' =>
    obtain ⟨e, he, hhop, hpath⟩ := h.setView z e' hview
    rw [he]
    simp [selectedFrom, hhop, hpath]

/-- A change that keeps a view keeps the order. -/
theorem Ordered.keep (h : Ordered o s) {n : V} {new : Option (Entry V)} (hkeeps : Keeps (s.view n) new) :
    Ordered o (s.setView n new) := by
  refine ⟨fun z e' hview => ?_, fun z e' hview => ?_, h.queuePath, fun a z path hmem e' hview => ?_⟩
  · obtain ⟨e, he, -, hpath⟩ := hkeeps.setView z e' hview
    rw [hpath]
    exact h.viewPath z e he
  · obtain ⟨e, he, hhop, -⟩ := hkeeps.setView z e' hview
    rw [hhop]
    exact h.told z e he
  · obtain ⟨e, he, -, hpath⟩ := hkeeps.setView a e' hview
    rw [hpath]
    exact h.ordered a z path (hkeeps.relied_subset a z hmem) e he

/-- Announcing a change keeps the order once the change itself does. -/
theorem Ordered.change {n : V} {new : Option (Entry V)} (h : Ordered o (s.setView n new)) (rs : List V) :
    Ordered o (s.change n new rs) := by
  unfold State.change announcement
  by_cases hsame : new = s.view n
  · rw [hsame, State.setView_eq_self] at h
    simpa [hsame] using h
  · rw [if_neg hsame]
    cases new with
    | some e => exact h.post_selected (State.setView_view_self s n _) rs
    | none => exact h.post (fun path heq => by cases heq) (fun path heq => by cases heq) rs

/-- Reading an item adds nothing to what anyone relies on. -/
theorem relied_deliver_subset {a z : V} {item : Item V} (hitem : (s.queue a z)[0]? = some item) {accepted : Bool}
    (hrefused : accepted = false → item = .remove → ∀ e, s.view z = some e → e.hop ≠ a) (b y : V) :
    ((s.pop a z 0 item).setView z (receiveIf accepted z a (s.view z) item)).relied b y ⊆ s.relied b y := by
  obtain ⟨rest, hqueue⟩ : ∃ rest, s.queue a z = item :: rest := by
    cases hq : s.queue a z with
    | nil => simp [hq] at hitem
    | cons head rest => exact ⟨rest, by simpa [hq] using hitem⟩
  have hcases := receiveIf_cases accepted z a (s.view z) item
  by_cases hy : y = z
  · subst hy
    simp only [State.relied, State.setView_view_self]
    by_cases hb : b = a
    · subst hb
      simp only [State.setView, State.pop, and_self, if_true, hqueue, List.eraseIdx_cons_zero, List.foldl_cons]
      refine foldl_rely_subset ?_ rest
      obtain ⟨hkept, hempty⟩ | ⟨path, rfl, -, hput⟩ | ⟨-, hgone⟩ := hcases
      · rw [hkept]
        cases item with
        | add path => exact List.subset_append_left _ _
        | remove =>
          -- either nothing was selected, or not from the sender
          cases hview : s.view y with
          | none => exact List.nil_subset _
          | some e =>
            have hhop : e.hop ≠ b := by
              cases accepted with
              | false => exact hrefused rfl rfl e hview
              | true => simp [hview] at hempty
            simp [selectedFrom, hhop]
      · rw [hput]
        simp [selectedFrom, rely]
      · rw [hgone]
        exact List.nil_subset _
    · simp only [State.setView, State.pop, hb, false_and, if_false]
      refine foldl_rely_subset ?_ _
      obtain ⟨hkept, -⟩ | ⟨path, -, -, hput⟩ | ⟨-, hgone⟩ := hcases
      · rw [hkept]
        exact List.Subset.refl _
      · rw [hput]
        simp [selectedFrom, Ne.symm hb]
      · rw [hgone]
        exact List.nil_subset _
  · have hlink : ¬ (b = a ∧ y = z) := fun hand => hy hand.2
    simp only [State.relied, State.setView_view_of_ne _ hy, State.pop_view]
    simp only [State.setView, State.pop, if_neg hlink]
    exact List.Subset.refl _

/-- Delivering the first item of a queue keeps the order, if a new path is shorter than all
    advertised from there. -/
theorem Ordered.deliver (h : Ordered o s) {a z : V} {item : Item V} (hitem : (s.queue a z)[0]? = some item)
    {accepted : Bool}
    (hshorter : ∀ e, receiveIf accepted z a (s.view z) item = some e → s.view z ≠ some e →
      ∀ y, s.log z y ≠ [] → ∀ path ∈ s.relied z y, e.path.length < path.length)
    (hrefused : accepted = false → item = .remove → ∀ e, s.view z = some e → e.hop ≠ a) :
    Ordered o ((s.pop a z 0 item).setView z (receiveIf accepted z a (s.view z) item)) := by
  have hview : ∀ y, y ≠ z → ((s.pop a z 0 item).setView z (receiveIf accepted z a (s.view z) item)).view y =
      s.view y := fun y hy => State.setView_view_of_ne _ hy _
  have hreceived : ∀ b y, s.received b y ≠ [] → (s.pop a z 0 item).received b y ≠ [] := by
    intro b y hne
    by_cases hlink : b = a ∧ y = z
    · simp [State.pop, hlink]
    · simpa [State.pop, hlink] using hne
  have hcases := receiveIf_cases accepted z a (s.view z) item
  refine ⟨fun y e hy => ?_, fun y e hy => ?_, fun b y path hmem => ?_, fun b y path hmem e hb => ?_⟩
  · by_cases hyz : y = z
    · subst hyz
      rw [State.setView_view_self] at hy
      obtain ⟨hkept, -⟩ | ⟨path, rfl, hloop, hput⟩ | ⟨-, hgone⟩ := hcases
      · exact h.viewPath y e (hkept ▸ hy)
      · obtain rfl := Option.some.inj (hput.symm.trans hy)
        exact ⟨(h.queuePath a y path (List.mem_of_getElem? hitem)).1, hloop⟩
      · cases hgone.symm.trans hy
    · exact h.viewPath y e (hview y hyz ▸ hy)
  · by_cases hyz : y = z
    · subst hyz
      rw [State.setView_view_self] at hy
      obtain ⟨hkept, -⟩ | ⟨path, rfl, hloop, hput⟩ | ⟨-, hgone⟩ := hcases
      · exact hreceived e.hop y (h.told y e (hkept ▸ hy))
      · obtain rfl := Option.some.inj (hput.symm.trans hy)
        simp [State.setView, State.pop]
      · cases hgone.symm.trans hy
    · exact hreceived e.hop y (h.told y e (hview y hyz ▸ hy))
  · refine h.queuePath b y path ?_
    simp only [State.setView, State.pop] at hmem
    split at hmem
    · exact (List.eraseIdx_sublist _ _).subset hmem
    · exact hmem
  · have hold := relied_deliver_subset hitem hrefused b y hmem
    by_cases hbz : b = z
    · subst hbz
      rw [State.setView_view_self] at hb
      by_cases hsame : s.view b = some e
      · exact h.ordered b y path hold e hsame
      · exact hshorter e hb hsame y (h.log_ne_nil hold) path hold
    · exact h.ordered b y path hold e (hview b hbz ▸ hb)

/-- Every feasible step keeps the order. -/
theorem Ordered.step {l : Label V} (h : Ordered o s) (hfeasible : Feasible s l) (hstep : Step o s l s') :
    Ordered o s' := by
  have horigin := h.view_origin
  cases hstep with
  | originate rs =>
    have hsame : Ordered o { s with announced := true } := ⟨h.viewPath, h.told, h.queuePath, h.ordered⟩
    refine hsame.post (fun path heq => ?_) (fun path _ e hview => ?_) rs
    · cases heq
      exact ⟨List.mem_cons_self, List.mem_cons_self⟩
    · cases horigin.symm.trans hview
  | retract rs =>
    have hsame : Ordered o { s with announced := false } := ⟨h.viewPath, h.told, h.queuePath, h.ordered⟩
    exact hsame.post (fun path heq => by cases heq) (fun path heq => by cases heq) rs
  | @deliver a z i accepted rs item hitem hguard =>
    obtain ⟨rfl, hitems⟩ := hfeasible
    obtain ⟨hshorter, hrefused⟩ := hitems item hitem
    exact (h.deliver hitem hshorter hrefused).change rs
  | @refresh n e stale rs hview hstale hguard =>
    exact (h.keep (keeps_stale hview stale)).post_selected (State.setView_view_self s n _) rs
  | @drop n e rs hview hguard =>
    exact (h.keep (keeps_none _)).change rs

/-- Every run of feasible steps is ordered. -/
theorem Run.ordered {Allowed : State V → Label V → Prop} (hallowed : ∀ s l, Allowed s l → Feasible s l)
    (h : Run o Allowed s) : Ordered o s := by
  refine Run.invariant (I := Ordered o) (ordered_initial o) ?_ h
  intro s l s' hordered hl hstep
  exact hordered.step (hallowed s l hl) hstep

/-! ### Loop freedom -/

/-- A node's distance to the origin, as far as it knows. -/
def State.rank (s : State V) (z : V) : Nat :=
  match s.view z with
  | some e => e.path.length
  | none => 0

/-- `b` is the next hop of `a`. -/
def State.NextHop (s : State V) (a b : V) : Prop := ∃ e, s.view a = some e ∧ e.hop = b

/-- In a quiet state an entry relies on what its hop advertises. -/
theorem mem_relied_of_quiet (hquiet : s.Quiet) {z : V} {e : Entry V} (hview : s.view z = some e) :
    e.path ∈ s.relied e.hop z := by
  simp [State.relied, hquiet e.hop z, selectedFrom, hview]

/-- When nothing is under way, the next hop is nearer. -/
theorem Ordered.rank_lt (h : Ordered o s) (hquiet : s.Quiet) {a b : V} (hnext : s.NextHop a b) :
    s.rank b < s.rank a := by
  obtain ⟨e, hview, rfl⟩ := hnext
  have hrank : s.rank a = e.path.length := by simp [State.rank, hview]
  have hpos : 0 < e.path.length := List.length_pos_of_mem (h.viewPath a e hview).1
  have hrelied := mem_relied_of_quiet hquiet hview
  cases hhop : s.view e.hop with
  | none =>
    have hzero : s.rank e.hop = 0 := by simp [State.rank, hhop]
    omega
  | some e' =>
    have hrank' : s.rank e.hop = e'.path.length := by simp [State.rank, hhop]
    have hlt := h.ordered e.hop a e.path hrelied e' hhop
    omega

/-- At quiescence no walk along next hops visits a node twice. -/
theorem Run.loopFree {Allowed : State V → Label V → Prop} (hallowed : ∀ s l, Allowed s l → Feasible s l)
    (h : Run o Allowed s) (hquiet : s.Quiet) {walk : List V} (hwalk : walk.IsChain s.NextHop) :
    walk.Nodup := by
  have hordered := Run.ordered hallowed h
  have hdescends : walk.IsChain fun a b => s.rank b < s.rank a :=
    hwalk.imp fun a b hab => hordered.rank_lt hquiet hab
  have htrans : IsTrans V fun a b => s.rank b < s.rank a := ⟨fun a b c hab hbc => lt_trans hbc hab⟩
  have hpairwise := List.isChain_iff_pairwise.mp hdescends
  exact hpairwise.imp fun {a b} hab heq => by simp [heq] at hab

end PathVector
