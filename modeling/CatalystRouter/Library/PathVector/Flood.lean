import Mathlib.Combinatorics.SimpleGraph.Metric
import CatalystRouter.Library.PathVector.Protocol

/-! On a fixed graph without withdrawals, announcements may arrive in any order:
    once none is under way, every node selects a shortest path. -/

namespace PathVector

variable {V : Type*} [DecidableEq V] {G : SimpleGraph V} {o : V} {s s' : State V}

/-- Nodes tell exactly neighbours, and every neighbour whom the export guards
    do not exclude; nothing is withdrawn or marked stale. -/
def Floods (G : SimpleGraph V) (o : V) (s : State V) : Label V → Prop
  | .originate rs => (∀ r ∈ rs, G.Adj o r) ∧ (s.announced = false → ∀ y, G.Adj o y → y ∈ rs)
  | .deliver a z i accepted rs => accepted = true ∧ (∀ r ∈ rs, G.Adj z r) ∧ ∀ item, (s.queue a z)[i]? = some item →
      ∀ e, receive z a (s.view z) item = some e → s.view z ≠ some e →
        ∀ y, G.Adj z y → e.Exportable y → y ∈ rs
  | .refresh n stale rs => stale = false ∧ ∀ r ∈ rs, G.Adj n r
  | .retract _ => False
  | .drop _ _ => False

/-- `path` leads from `a` to the origin along edges. -/
structure Route (G : SimpleGraph V) (o a : V) (path : List V) : Prop where
  first : path.head? = some a
  last : path.getLast? = some o
  edges : path.IsChain G.Adj

/-- Whatever is selected or under way is a route of the graph. -/
structure Routed (G : SimpleGraph V) (o : V) (s : State V) : Prop where
  fresh : ∀ z e, s.view z = some e → e.stale = false
  viewRoute : ∀ z e, s.view z = some e → G.Adj z e.hop ∧ Route G o e.hop e.path ∧ z ∉ e.path
  wire : ∀ a z item, item ∈ s.queue a z → ∃ path, item = .add path ∧ G.Adj z a ∧ Route G o a path ∧ z ∉ path

/-- `z` selects a path of at most `bound` hops, or one is on its way from `n`. -/
def Reached (s : State V) (n z : V) (bound : Nat) : Prop :=
  (∃ path, .add path ∈ s.queue n z ∧ path.length ≤ bound) ∨ ∃ e, s.view z = some e ∧ e.path.length ≤ bound

/-- No suppression hides a shorter path: whoever may be told of a selection has
    been reached by it. -/
structure Covered (G : SimpleGraph V) (o : V) (s : State V) : Prop where
  origin : s.announced = true → ∀ z, G.Adj o z → Reached s o z 1
  selection : ∀ n e z, s.view n = some e → G.Adj n z → e.Exportable z → Reached s n z (e.path.length + 1)

/-! ### Routes -/

omit [DecidableEq V] in
/-- A route is continued over an edge. -/
theorem Route.cons {a n : V} {path : List V} (h : Route G o a path) (hadj : G.Adj n a) :
    Route G o n (n :: path) := by
  obtain ⟨hop, rest, rfl⟩ : ∃ hop rest, path = hop :: rest := by
    cases path with
    | nil => simpa using h.first
    | cons hop rest => exact ⟨hop, rest, rfl⟩
  have hhop : hop = a := by simpa using h.first
  subst hhop
  exact ⟨rfl, by simpa using h.last, List.isChain_cons_cons.mpr ⟨hadj, h.edges⟩⟩

omit [DecidableEq V] in
/-- A route is a walk with one vertex more than edges. -/
theorem Route.exists_walk {a : V} {path : List V} (h : Route G o a path) :
    ∃ w : G.Walk a o, w.length + 1 = path.length := by
  induction path generalizing a with
  | nil => simpa using h.first
  | cons hop rest ih =>
    have hhop : hop = a := by simpa using h.first
    subst hhop
    cases rest with
    | nil =>
      have hlast : hop = o := by simpa using h.last
      subst hlast
      exact ⟨.nil, rfl⟩
    | cons next rest =>
      obtain ⟨hadj, hedges⟩ := List.isChain_cons_cons.mp h.edges
      obtain ⟨w, hw⟩ := ih ⟨rfl, by simpa using h.last, hedges⟩
      exact ⟨.cons hadj w, by simp [hw]⟩

omit [DecidableEq V] in
/-- From any node on a route the rest of the route is a shorter walk. -/
theorem Route.exists_walk_of_mem {a z : V} {path : List V} (h : Route G o a path) (hmem : z ∈ path) :
    ∃ w : G.Walk z o, w.length + 1 ≤ path.length := by
  obtain ⟨before, after, rfl⟩ := List.append_of_mem hmem
  have hrest : Route G o z (z :: after) :=
    ⟨rfl, by simpa [List.getLast?_append] using h.last, h.edges.right_of_append⟩
  obtain ⟨w, hw⟩ := hrest.exists_walk
  exact ⟨w, by simp only [List.length_append, List.length_cons] at hw ⊢; omega⟩

/-! ### Steps -/

/-- Without staleness, a node's selection only ever gets shorter. -/
theorem receive_of_fresh {n a : V} {old : Option (Entry V)} {path : List V} (hloop : n ∉ path)
    (hfresh : ∀ e, old = some e → e.stale = false) :
    ∃ e, receive n a old (.add path) = some e ∧ e.path.length ≤ path.length ∧
      ((old = some e) ∨ (e = ⟨a, path, false⟩ ∧ ∀ e', old = some e' → path.length < e'.path.length)) := by
  cases old with
  | none => exact ⟨⟨a, path, false⟩, by simp [receive, hloop], le_rfl, .inr ⟨rfl, fun _ h => by cases h⟩⟩
  | some e =>
    have hnot : e.stale = false := hfresh e rfl
    by_cases hshorter : path.length < e.path.length
    · refine ⟨⟨a, path, false⟩, by simp [receive, hloop, hshorter], le_rfl, .inr ⟨rfl, fun e' he' => ?_⟩⟩
      exact Option.some.inj he' ▸ hshorter
    · exact ⟨e, by simp [receive, hloop, hshorter, hnot], by omega, .inl rfl⟩

/-- A post puts its item in the queues of its receivers. -/
theorem mem_post_queue {n a z : V} {rs : List V} {item x : Item V} :
    x ∈ (s.post n rs item).queue a z ↔ x ∈ s.queue a z ∨ (a = n ∧ z ∈ rs ∧ x = item) := by
  simp only [State.post, List.mem_append]
  refine or_congr_right ?_
  by_cases ha : a = n
  · by_cases hz : z ∈ rs
    · have hcount : rs.count z ≠ 0 := fun hzero => List.count_eq_zero.mp hzero hz
      simp [ha, hz, hcount, List.mem_replicate]
    · simp [ha, hz, List.count_eq_zero.mpr hz]
  · simp [ha]

/-- Posting a route of `n` to neighbours off the route keeps everything routed. -/
theorem Routed.post (h : Routed G o s) {n : V} {rs : List V} {path : List V} (hroute : Route G o n path)
    (hadj : ∀ r ∈ rs, G.Adj n r) (hguard : ∀ r ∈ rs, r ∉ path) : Routed G o (s.post n rs (.add path)) := by
  refine ⟨h.fresh, h.viewRoute, fun a z item hmem => ?_⟩
  obtain hmem | ⟨rfl, hz, rfl⟩ := mem_post_queue.mp hmem
  · exact h.wire a z item hmem
  · exact ⟨path, rfl, (hadj z hz).symm, hroute, hguard z hz⟩

/-- Installing an entry with a route keeps the state routed. -/
theorem Routed.setView (h : Routed G o s) {n : V} {e : Entry V} (hfresh : e.stale = false)
    (hroute : G.Adj n e.hop ∧ Route G o e.hop e.path ∧ n ∉ e.path) : Routed G o (s.setView n (some e)) := by
  refine ⟨fun z e' hz => ?_, fun z e' hz => ?_, h.wire⟩
  · by_cases hzn : z = n
    · subst hzn
      rw [State.setView_view_self] at hz
      exact Option.some.inj hz ▸ hfresh
    · exact h.fresh z e' (by rwa [State.setView_view_of_ne s hzn] at hz)
  · by_cases hzn : z = n
    · subst hzn
      rw [State.setView_view_self] at hz
      exact Option.some.inj hz ▸ hroute
    · exact h.viewRoute z e' (by rwa [State.setView_view_of_ne s hzn] at hz)

/-- Taking an item out of a queue keeps it routed. -/
theorem Routed.pop (h : Routed G o s) (a z : V) (i : Nat) (item : Item V) : Routed G o (s.pop a z i item) := by
  refine ⟨h.fresh, h.viewRoute, fun b y item' hmem => h.wire b y item' ?_⟩
  simp only [State.pop] at hmem
  split at hmem
  · exact (List.eraseIdx_sublist _ _).subset hmem
  · exact hmem

omit [DecidableEq V] in
/-- A path that may be exported to a node does not pass it. -/
theorem exportable_notMem_cons {n r : V} {e : Entry V} (hne : n ≠ r) (h : e.Exportable r) : r ∉ n :: e.path := by
  rw [List.mem_cons, not_or]
  exact ⟨hne.symm, h.2⟩

/-- A node that selects a route and announces it to neighbours keeps everything
    routed. -/
theorem Routed.select (h : Routed G o s) {n : V} {e : Entry V} {rs : List V} (hfresh : e.stale = false)
    (hroute : G.Adj n e.hop ∧ Route G o e.hop e.path ∧ n ∉ e.path) (hadj : ∀ r ∈ rs, G.Adj n r)
    (hguard : ∀ r ∈ rs, e.Exportable r) :
    Routed G o ((s.setView n (some e)).post n rs (.add (n :: e.path))) :=
  (h.setView hfresh hroute).post (hroute.2.1.cons hroute.1) hadj fun r hr =>
    exportable_notMem_cons (hadj r hr).ne (hguard r hr)

/-- Every flooding step keeps the state routed. -/
theorem Routed.step {l : Label V} (h : Routed G o s) (hfloods : Floods G o s l) (hstep : Step o s l s') :
    Routed G o s' := by
  cases hstep with
  | originate rs =>
    have hsame : Routed G o { s with announced := true } := ⟨h.fresh, h.viewRoute, h.wire⟩
    refine hsame.post ⟨rfl, rfl, .singleton o⟩ hfloods.1 fun r hr => ?_
    simpa using (hfloods.1 r hr).ne.symm
  | retract rs => exact hfloods.elim
  | @deliver a z i accepted rs item hitem hguard =>
    obtain ⟨rfl, hadjs, -⟩ := hfloods
    simp only [receiveIf, if_true] at hguard ⊢
    obtain ⟨path, rfl, hadj, hroute, hloop⟩ := h.wire a z item (List.mem_of_getElem? hitem)
    obtain ⟨e, hnew, -, hkept | ⟨rfl, -⟩⟩ := receive_of_fresh (a := a) hloop (h.fresh z)
    · rw [hnew]
      simpa [State.change, announcement, hkept] using h.pop a z i (.add path)
    · rw [hnew]
      unfold State.change announcement
      by_cases hsame : some (⟨a, path, false⟩ : Entry V) = (s.pop a z i (.add path)).view z
      · simpa [hsame] using h.pop a z i (.add path)
      · rw [if_neg hsame]
        refine (h.pop a z i (.add path)).select rfl ⟨hadj, hroute, hloop⟩ hadjs ?_
        exact hguard _ (by rw [hnew]; rfl)
  | @refresh n e stale rs hview hstale hguard =>
    obtain ⟨rfl, hadj⟩ := hfloods
    exact h.select (e := { e with stale := false }) rfl (h.viewRoute n e hview) hadj hguard
  | drop => exact hfloods.elim

omit [DecidableEq V] in
/-- What has been reached stays so, as items are delivered and entries get shorter. -/
theorem Reached.mono {t : State V} {n z : V} {bound : Nat} (h : Reached s n z bound)
    (hqueue : ∀ path, .add path ∈ s.queue n z → .add path ∈ t.queue n z ∨
      ∃ e, t.view z = some e ∧ e.path.length ≤ path.length)
    (hview : ∀ e, s.view z = some e → ∃ e', t.view z = some e' ∧ e'.path.length ≤ e.path.length) :
    Reached t n z bound := by
  obtain ⟨path, hmem, hle⟩ | ⟨e, he, hle⟩ := h
  · obtain hmem | ⟨e, he, hle'⟩ := hqueue path hmem
    · exact .inl ⟨path, hmem, hle⟩
    · exact .inr ⟨e, he, hle'.trans hle⟩
  · obtain ⟨e', he', hle'⟩ := hview e he
    exact .inr ⟨e', he', hle'.trans hle⟩

/-- Selections do not get longer, and items are only taken off a queue by
    nodes that then select something as short. -/
structure Improves (s t : State V) : Prop where
  view : ∀ z e, s.view z = some e → ∃ e', t.view z = some e' ∧ e'.path.length ≤ e.path.length
  queue : ∀ n z path, .add path ∈ s.queue n z → .add path ∈ t.queue n z ∨
    ∃ e, t.view z = some e ∧ e.path.length ≤ path.length

omit [DecidableEq V] in
/-- A state stays covered while entries only get shorter. -/
theorem Covered.improve (h : Covered G o s) {t : State V} (himproves : Improves s t)
    (horigin : t.announced = true → s.announced = true ∨ ∀ z, G.Adj o z → Reached t o z 1)
    (hselection : ∀ n e, t.view n = some e → s.view n = some e ∨
      ∀ z, G.Adj n z → e.Exportable z → Reached t n z (e.path.length + 1)) : Covered G o t := by
  constructor
  · intro hannounced z hadj
    obtain hold | hnew := horigin hannounced
    · exact (h.origin hold z hadj).mono (himproves.queue o z) (himproves.view z)
    · exact hnew z hadj
  · intro n e z hview hadj hexport
    obtain hold | hnew := hselection n e hview
    · exact (h.selection n e z hold hadj hexport).mono (himproves.queue n z) (himproves.view z)
    · exact hnew z hadj hexport

/-- A post makes no entry longer. -/
theorem improves_post (s : State V) (n : V) (rs : List V) (item : Item V) : Improves s (s.post n rs item) :=
  ⟨fun _ e he => ⟨e, he, le_rfl⟩, fun _ _ _ hmem => .inl (mem_post_queue.mpr (.inl hmem))⟩

/-- A post reaches its receivers. -/
theorem reached_post {n z : V} {rs path : List V} (hz : z ∈ rs) :
    Reached (s.post n rs (.add path)) n z path.length :=
  .inl ⟨path, mem_post_queue.mpr (.inr ⟨rfl, hz, rfl⟩), le_rfl⟩

/-- Taking an item and selecting something as short improves. -/
theorem improves_pop_setView {a z : V} {i : Nat} {path : List V} {e : Entry V}
    (hitem : (s.queue a z)[i]? = some (.add path)) (hle : e.path.length ≤ path.length)
    (hold : ∀ e', s.view z = some e' → e.path.length ≤ e'.path.length) :
    Improves s ((s.pop a z i (.add path)).setView z (some e)) := by
  constructor
  · intro y e' he'
    by_cases hy : y = z
    · subst hy
      exact ⟨e, by simp, hold e' he'⟩
    · exact ⟨e', by rwa [State.setView_view_of_ne _ hy], le_rfl⟩
  · intro n y path' hmem
    by_cases hlink : n = a ∧ y = z
    · obtain ⟨rfl, rfl⟩ := hlink
      by_cases hsame : path' = path
      · subst hsame
        exact .inr ⟨e, by simp, hle⟩
      · left
        obtain ⟨j, hj⟩ := List.mem_iff_getElem?.mp hmem
        have hne : j ≠ i := by
          rintro rfl
          rw [hitem] at hj
          cases hj
          exact hsame rfl
        have herased : Item.add path' ∈ (s.queue n y).eraseIdx i :=
          List.mem_eraseIdx_iff_getElem?.mpr ⟨j, hne, hj⟩
        simpa [State.setView, State.pop] using herased
    · exact .inl (by simpa [State.setView, State.pop, hlink] using hmem)

/-- Every flooding step keeps the state covered. -/
theorem Covered.step {l : Label V} (h : Covered G o s) (hrouted : Routed G o s) (hfloods : Floods G o s l)
    (hstep : Step o s l s') : Covered G o s' := by
  cases hstep with
  | originate rs =>
    have hsame : Covered G o { s with announced := s.announced } := h
    have himproves : Improves s ({ s with announced := true }.post o rs (.add [o])) :=
      ⟨fun z e he => ⟨e, he, le_rfl⟩, fun a z path hmem => .inl (mem_post_queue.mpr (.inl hmem))⟩
    refine hsame.improve himproves (fun _ => ?_) fun n e hview => .inl hview
    cases hannounced : s.announced with
    | true => exact .inl rfl
    | false => exact .inr fun z hadj => reached_post (hfloods.2 hannounced z hadj)
  | retract rs => exact hfloods.elim
  | @deliver a z i accepted rs item hitem hguard =>
    obtain ⟨rfl, -, htells⟩ := hfloods
    simp only [receiveIf, if_true]
    obtain ⟨path, rfl, hadj, hroute, hloop⟩ := hrouted.wire a z item (List.mem_of_getElem? hitem)
    obtain ⟨e, hnew, hle, hcases⟩ := receive_of_fresh (a := a) hloop (hrouted.fresh z)
    have hold (e' : Entry V) (he' : s.view z = some e') : e.path.length ≤ e'.path.length := by
      obtain hkept | ⟨rfl, hshorter⟩ := hcases
      · rw [hkept] at he'
        exact le_of_eq (congrArg (fun e => e.path.length) (Option.some.inj he'))
      · exact (hshorter e' he').le
    have himproves := improves_pop_setView hitem hle hold
    rw [hnew]
    unfold State.change announcement
    by_cases hsame : some e = (s.pop a z i (.add path)).view z
    · have hself : (s.pop a z i (.add path)).setView z (some e) = s.pop a z i (.add path) := by
        rw [hsame, State.setView_eq_self]
      rw [hself] at himproves
      simp only [if_pos hsame]
      exact h.improve himproves (fun hannounced => .inl hannounced) fun n e' hview => .inl hview
    · simp only [if_neg hsame]
      have himproves' : Improves s (((s.pop a z i (.add path)).setView z (some e)).post z rs (.add (z :: e.path))) := by
        refine ⟨himproves.view, fun n y path' hmem => ?_⟩
        obtain hmem | hview := himproves.queue n y path' hmem
        · exact .inl (mem_post_queue.mpr (.inl hmem))
        · exact .inr hview
      refine h.improve himproves' (fun hannounced => .inl hannounced) fun n e' hview => ?_
      by_cases hn : n = z
      · subst hn
        obtain rfl : e = e' := by simpa using hview
        right
        intro y hadj' hexport
        exact reached_post (htells _ hitem e hnew (fun heq => hsame heq.symm) y hadj' hexport)
      · left
        simpa [State.setView_view_of_ne _ hn] using hview
  | @refresh n e stale rs hview hstale hguard =>
    obtain ⟨rfl, -⟩ := hfloods
    have hfresh : e.stale = false := hrouted.fresh n e hview
    have hself : s.setView n (some { e with stale := false }) = s := by
      rw [← hfresh, ← hview]
      exact State.setView_eq_self s n
    rw [hself]
    exact h.improve (improves_post s n rs _) (fun hannounced => .inl hannounced) fun n' e' hview' => .inl hview'
  | drop => exact hfloods.elim

omit [DecidableEq V] in
/-- The initial state is routed. -/
theorem routed_initial (G : SimpleGraph V) (o : V) : Routed G o (State.initial V) where
  fresh z e hview := by cases hview
  viewRoute z e hview := by cases hview
  wire a z item hmem := by cases hmem

omit [DecidableEq V] in
/-- The initial state is covered. -/
theorem covered_initial (G : SimpleGraph V) (o : V) : Covered G o (State.initial V) where
  origin hannounced := by cases hannounced
  selection n e z hview := by cases hview

/-- Both hold along every flooding run. -/
theorem Run.flooded (h : Run o (Floods G o) s) : Routed G o s ∧ Covered G o s := by
  refine Run.invariant (I := fun s => Routed G o s ∧ Covered G o s) ?_ ?_ h
  · exact ⟨routed_initial G o, covered_initial G o⟩
  · intro s l s' hinv hl hstep
    exact ⟨hinv.1.step hl hstep, hinv.2.step hinv.1 hl hstep⟩

/-! ### Quiescence -/

/-- At quiescence each walk to an announced origin bounds the selected path.
    Strong induction on the length of the walk: a neighbour one step closer
    either tells this node, or has it on its own path, which is a shorter walk. -/
theorem Quiet.le_walk (hquiet : s.Quiet) (hrouted : Routed G o s) (hcovered : Covered G o s)
    (hannounced : s.announced = true) (bound : Nat) :
    ∀ z, z ≠ o → ∀ w : G.Walk z o, w.length = bound → ∃ e, s.view z = some e ∧ e.path.length ≤ bound := by
  induction bound using Nat.strong_induction_on with
  | _ bound ih =>
    intro z hz w hw
    cases w with
    | nil => exact absurd rfl hz
    | @cons _ m _ hadj w' =>
      have hlength : w'.length + 1 = bound := by simpa using hw
      have hreached {n : V} {limit : Nat} (h : Reached s n z limit) :
          ∃ e, s.view z = some e ∧ e.path.length ≤ limit := by
        obtain ⟨path, hmem, -⟩ | hview := h
        · simp [hquiet n z] at hmem
        · exact hview
      by_cases hm : m = o
      · subst hm
        obtain ⟨e, he, hle⟩ := hreached (hcovered.origin hannounced z hadj.symm)
        exact ⟨e, he, by omega⟩
      · obtain ⟨e, he, hle⟩ := ih w'.length (by omega) m hm w' rfl
        obtain ⟨hadjHop, hroute, -⟩ := hrouted.viewRoute m e he
        by_cases hexport : e.Exportable z
        · obtain ⟨e', he', hle'⟩ := hreached (hcovered.selection m e z he hadj.symm hexport)
          exact ⟨e', he', by omega⟩
        · have hmem : z ∈ e.path := by
            by_contra hnot
            have hhop : e.hop = z := by
              by_contra hne
              exact hexport ⟨hne, hnot⟩
            exact hnot (hhop ▸ List.mem_of_head? hroute.first)
          obtain ⟨w'', hw''⟩ := hroute.exists_walk_of_mem hmem
          obtain ⟨e', he', hle'⟩ := ih w''.length (by omega) z hz w'' rfl
          exact ⟨e', he', by omega⟩

/-- At quiescence every node connected to an announced origin selects a route
    as long as its distance. -/
theorem Run.shortest (h : Run o (Floods G o) s) (hquiet : s.Quiet) (hannounced : s.announced = true) {z : V}
    (hz : z ≠ o) (hconnected : G.Reachable z o) :
    ∃ e, s.view z = some e ∧ e.path.length = G.dist z o ∧ G.Adj z e.hop ∧ Route G o e.hop e.path := by
  obtain ⟨hrouted, hcovered⟩ := Run.flooded h
  obtain ⟨w, hw⟩ := hconnected.exists_walk_length_eq_dist
  obtain ⟨e, he, hle⟩ := Quiet.le_walk hquiet hrouted hcovered hannounced _ z hz w hw
  obtain ⟨hadj, hroute, -⟩ := hrouted.viewRoute z e he
  obtain ⟨w', hw'⟩ := hroute.exists_walk
  have hge := SimpleGraph.dist_le (SimpleGraph.Walk.cons hadj w')
  rw [SimpleGraph.Walk.length_cons] at hge
  exact ⟨e, he, by omega, hadj, hroute⟩

omit [DecidableEq V] in
/-- The next hop of a route as long as the distance is one step closer. -/
theorem Route.dist_add_one {a z : V} {path : List V} (h : Route G o a path) (hadj : G.Adj z a)
    (hlength : path.length = G.dist z o) : G.Reachable a o ∧ G.dist a o + 1 = G.dist z o := by
  obtain ⟨w, hw⟩ := h.exists_walk
  obtain ⟨shortest, hshortest⟩ := w.reachable.exists_walk_length_eq_dist
  have hge := SimpleGraph.dist_le (SimpleGraph.Walk.cons hadj shortest)
  have hle := SimpleGraph.dist_le w
  rw [SimpleGraph.Walk.length_cons] at hge
  exact ⟨w.reachable, by omega⟩

end PathVector
