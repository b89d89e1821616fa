import CatalystRouter.Library.Earliest
import CatalystRouter.Routing.Runs

namespace CatalystRouter.Rib

/-- One `InternalProtocolUpdate` and the clock reading at which it is planned. -/
structure UpdateDelivery where
  now : Int
  peerInfo : PeerInfo
  updates : List UpdateItem
  deriving DecidableEq, Repr

/-- The table after a list of updates. -/
def deliver (nodeId : String) (state : RouteTable) (deliveries : List UpdateDelivery) : RouteTable :=
  run nodeId state (deliveries.map fun d => (d.now, .internalProtocolUpdate d.peerInfo d.updates))

/-- The entries delivered, in their order, each with the peer it comes from. -/
def offers (deliveries : List UpdateDelivery) : List (PeerInfo × UpdateItem) :=
  deliveries.flatMap fun d => d.updates.map fun item => (d.peerInfo, item)

/-- The routes that the loop-free entries of one identity offer. -/
def candidates (nodeId : String) (k : String × String) (entries : List (PeerInfo × UpdateItem)) : List InternalRoute :=
  (entries.filter fun entry => entry.2.key == k && !entry.2.nodePath.contains nodeId).map
    fun entry => itemRoute entry.1 entry.2

def hops (r : InternalRoute) : Nat := r.nodePath.length

/-- No route is stale. -/
def Fresh (routes : List InternalRoute) : Prop := ∀ r ∈ routes, r.isStale = false

section Fold

variable {nodeId : String} {k : String × String}

theorem candidates_append (first second : List (PeerInfo × UpdateItem)) :
    candidates nodeId k (first ++ second) = candidates nodeId k first ++ candidates nodeId k second := by
  simp [candidates]

theorem planUpdateItem_fresh {peerInfo : PeerInfo} {item : UpdateItem} {routes : List InternalRoute}
    (h : Fresh routes) : Fresh (planUpdateItem nodeId peerInfo routes item).routes := by
  intro r hr
  rcases planUpdateItem_mem (.inl hr) with hold | ⟨-, -, rfl⟩
  · exact h r hold
  · rfl

theorem planUpdateItems_fresh {peerInfo : PeerInfo} (updates : List UpdateItem) {routes : List InternalRoute}
    (h : Fresh routes) : Fresh (planUpdateItems nodeId peerInfo routes updates).routes :=
  planUpdateItems_induct (C := fun _ _ => True) (fun _ _ _ => planUpdateItem_fresh) updates routes
    (eachTurn_of_forall (fun _ _ _ => trivial) routes) h

/-- One advertisement: the installed route stays the earliest shortest one seen. -/
theorem planUpdateItem_earliest {peerInfo : PeerInfo} {item : UpdateItem} (hadd : item.action = .add)
    {routes : List InternalRoute} (hfresh : Fresh routes) {seen : List InternalRoute}
    (hseen : installedAt routes k = seen.argmin hops) :
    installedAt (planUpdateItem nodeId peerInfo routes item).routes k =
      (seen ++ candidates nodeId k [(peerInfo, item)]).argmin hops := by
  by_cases hkey : item.key = k
  · subst hkey
    rw [planUpdateItem_installedAt]
    simp only [receiveItem, hadd]
    by_cases hloop : nodeId ∈ item.nodePath
    · simp [hloop, candidates, hseen]
    · have hcandidate : candidates nodeId item.key [(peerInfo, item)] = [itemRoute peerInfo item] := by
        simp [candidates, hloop]
      rw [if_neg hloop, hcandidate, List.argmin_concat, ← hseen]
      cases hfound : installedAt routes item.key with
      | none => rfl
      | some existing =>
        have hcurrent : existing.isStale = false := hfresh existing (mem_of_installedAt hfound)
        simp only [hcurrent, Bool.false_eq_true, or_false]
        rfl
  · rw [planUpdateItem_installedAt_of_ne nodeId peerInfo routes hkey, hseen]
    simp [candidates, hkey]

theorem planUpdateItems_earliest {peerInfo : PeerInfo} (updates : List UpdateItem)
    (hadds : ∀ item ∈ updates, item.action = .add) :
    ∀ {routes seen : List InternalRoute}, Fresh routes → installedAt routes k = seen.argmin hops →
      installedAt (planUpdateItems nodeId peerInfo routes updates).routes k =
        (seen ++ candidates nodeId k (updates.map fun item => (peerInfo, item))).argmin hops := by
  induction updates with
  | nil =>
    intro routes seen _ hseen
    simpa [candidates, planUpdateItems] using hseen
  | cons item rest ih =>
    intro routes seen hfresh hseen
    have hturn : installedAt (planUpdateItem nodeId peerInfo routes item).routes k = _ :=
      planUpdateItem_earliest (hadds item (by simp)) hfresh hseen
    have hrest := ih (fun later hmem => hadds later (by simp [hmem])) (planUpdateItem_fresh hfresh) hturn
    rw [List.append_assoc, ← candidates_append] at hrest
    exact hrest

/-- The installed route of an identity is the earliest shortest one of the initial route
    and the routes offered since. -/
theorem deliver_earliest (deliveries : List UpdateDelivery) :
    ∀ {state : RouteTable} {seen : List InternalRoute}, Fresh state.internalRoutes →
      (∀ entry ∈ offers deliveries, entry.2.action = .add) → state.view k = seen.argmin hops →
        (deliver nodeId state deliveries).view k =
          (seen ++ candidates nodeId k (offers deliveries)).argmin hops := by
  induction deliveries with
  | nil =>
    intro state seen _ _ hseen
    simpa [deliver, offers, candidates] using hseen
  | cons first rest ih =>
    intro state seen hfresh hadds hseen
    have hroutes := plan_update_routes nodeId first.now first.peerInfo first.updates state
    have hfirst : ∀ item ∈ first.updates, item.action = .add := fun item hmem =>
      hadds (first.peerInfo, item) (by simp [offers, hmem])
    have hstep : (act nodeId state (first.now, .internalProtocolUpdate first.peerInfo first.updates)).view k = _ :=
      (plan_update_view nodeId first.now first.peerInfo first.updates state k).trans
        (planUpdateItems_earliest first.updates hfirst hfresh hseen)
    have hnext : Fresh (act nodeId state
        (first.now, .internalProtocolUpdate first.peerInfo first.updates)).internalRoutes := by
      rw [act, hroutes]
      exact planUpdateItems_fresh first.updates hfresh
    have hrest := ih hnext (fun entry hmem => hadds entry (by simp_all [offers])) hstep
    rw [List.append_assoc, ← candidates_append] at hrest
    exact hrest

end Fold

section Best

variable {nodeId : String}

theorem mem_keys_iff {routes : List InternalRoute} {k : String × String} :
    k ∈ routes.map (·.key) ↔ (installedAt routes k).isSome = true := by
  rw [Option.isSome_iff_ne_none, ne_eq, installedAt_eq_none_iff]
  simp

/-- `r` is the initial route and no candidate is shorter, or it is the earliest shortest
    candidate, and shorter than the initial route. -/
def EarliestShortest (initial : Option InternalRoute) (offered : List InternalRoute) (r : InternalRoute) : Prop :=
  (initial = some r ∧ ∀ other ∈ offered, hops r ≤ hops other) ∨
    ∃ before after, offered = before ++ r :: after ∧ (∀ other ∈ before, hops r < hops other) ∧
      (∀ other ∈ after, hops r ≤ hops other) ∧ ∀ first, initial = some first → hops r < hops first

theorem earliestShortest_iff {initial : Option InternalRoute} {offered : List InternalRoute} {r : InternalRoute} :
    (initial.toList ++ offered).argmin hops = some r ↔ EarliestShortest initial offered r := by
  rw [List.argmin_eq_some_iff_split]
  cases initial with
  | none => simp [EarliestShortest]
  | some first =>
    constructor
    · rintro ⟨before, after, hsplit, hbefore, hafter⟩
      cases before with
      | nil =>
        obtain ⟨rfl, rfl⟩ := List.cons.inj hsplit
        exact .inl ⟨rfl, hafter⟩
      | cons earlier before =>
        obtain ⟨rfl, hoffered⟩ := List.cons.inj hsplit
        obtain ⟨hfirst, hbefore⟩ := List.forall_mem_cons.mp hbefore
        exact .inr ⟨before, after, hoffered, hbefore, hafter, fun _ heq => Option.some.inj heq ▸ hfirst⟩
    · rintro (⟨hinitial, hafter⟩ | ⟨before, after, rfl, hbefore, hafter, hfirst⟩)
      · obtain rfl := Option.some.inj hinitial
        exact ⟨[], offered, rfl, by simp, hafter⟩
      · exact ⟨first :: before, after, rfl, List.forall_mem_cons.mpr ⟨hfirst first rfl, hbefore⟩, hafter⟩

theorem exists_candidate_iff {k : String × String} {entries : List (PeerInfo × UpdateItem)} :
    candidates nodeId k entries ≠ [] ↔ ∃ entry ∈ entries, nodeId ∉ entry.2.nodePath ∧ entry.2.key = k := by
  simp [candidates, List.filter_eq_nil_iff, and_comm]

/-- Advertisements in any order and batching, on a table without stale routes: the
    identities are those of the table and of the loop-free entries, each has the
    earliest shortest of its routes, and another order or batching of the same
    entries gives the same identities and path lengths. -/
theorem deliver_best {state : RouteTable} {deliveries : List UpdateDelivery} (hfresh : Fresh state.internalRoutes)
    (hadds : ∀ entry ∈ offers deliveries, entry.2.action = .add) :
    (∀ k, k ∈ (deliver nodeId state deliveries).internalRoutes.map (·.key) ↔
        k ∈ state.internalRoutes.map (·.key) ∨
          ∃ entry ∈ offers deliveries, nodeId ∉ entry.2.nodePath ∧ entry.2.key = k) ∧
      (∀ k r, (deliver nodeId state deliveries).view k = some r →
        ∀ other ∈ (state.view k).toList ++ candidates nodeId k (offers deliveries), hops r ≤ hops other) ∧
      (∀ k r, (deliver nodeId state deliveries).view k = some r ↔
        EarliestShortest (state.view k) (candidates nodeId k (offers deliveries)) r) ∧
      ∀ others, (offers others).Perm (offers deliveries) → ∀ k,
        (k ∈ (deliver nodeId state others).internalRoutes.map (·.key) ↔
          k ∈ (deliver nodeId state deliveries).internalRoutes.map (·.key)) ∧
        ((deliver nodeId state others).view k).map hops = ((deliver nodeId state deliveries).view k).map hops := by
  have hinitial : ∀ k, state.view k = (state.view k).toList.argmin hops := fun k => by
    cases state.view k <;> rfl
  have hview : ∀ {list : List UpdateDelivery}, (∀ entry ∈ offers list, entry.2.action = .add) → ∀ k,
      (deliver nodeId state list).view k =
        ((state.view k).toList ++ candidates nodeId k (offers list)).argmin hops :=
    fun hlist k => deliver_earliest _ hfresh hlist (hinitial k)
  have hkeys : ∀ {table : RouteTable} {k}, k ∈ table.internalRoutes.map (·.key) ↔ (table.view k).isSome = true :=
    mem_keys_iff
  refine ⟨fun k => ?_, fun k r hr other hother => ?_, fun k r => ?_, fun others hperm k => ?_⟩
  · rw [hkeys, hkeys, hview hadds, ← exists_candidate_iff, Option.isSome_iff_ne_none, ne_eq, List.argmin_eq_none]
    cases state.view k <;> simp
  · rw [hview hadds] at hr
    exact List.le_of_mem_argmin hother hr
  · rw [hview hadds, earliestShortest_iff]
  · have hothers : ∀ entry ∈ offers others, entry.2.action = .add := fun entry hmem =>
      hadds entry (hperm.mem_iff.mp hmem)
    have hcandidates : (candidates nodeId k (offers others)).Perm (candidates nodeId k (offers deliveries)) :=
      (hperm.filter _).map _
    have hlengths : ((deliver nodeId state others).view k).map hops =
        ((deliver nodeId state deliveries).view k).map hops := by
      rw [hview hothers, hview hadds]
      exact (hcandidates.append_left _).map_argmin
    refine ⟨?_, hlengths⟩
    rw [hkeys, hkeys, ← Option.isSome_map (f := hops), hlengths, Option.isSome_map]

/-- A route of two hops and one of a single hop to the same service. -/
def detour : UpdateDelivery :=
  ⟨1, { name := "node-b" }, [⟨.add, { name := "books", protocol := .http }, ["node-b", "node-c"], "node-c"⟩]⟩

def direct : UpdateDelivery :=
  ⟨2, { name := "node-c" }, [⟨.add, { name := "books", protocol := .http }, ["node-c"], "node-c"⟩]⟩

theorem deliver_swapped :
    ((deliver "node-a" newRouteTable [direct, detour]).view ("books", "node-c")).map hops =
      ((deliver "node-a" newRouteTable [detour, direct]).view ("books", "node-c")).map hops := by
  have hfresh : Fresh newRouteTable.internalRoutes := by simp [Fresh, newRouteTable]
  have hadds : ∀ entry ∈ offers [detour, direct], entry.2.action = .add := by decide
  exact ((deliver_best hfresh hadds).2.2.2 [direct, detour] (.swap _ _ []) ("books", "node-c")).2

end Best

end CatalystRouter.Rib
