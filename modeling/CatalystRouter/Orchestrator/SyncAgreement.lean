import CatalystRouter.Orchestrator.DeltaSync
import CatalystRouter.Orchestrator.Isolation
import CatalystRouter.Routing.Sessions

namespace CatalystRouter

open Bus

/-! ### What one plan announces -/

/-- What a plan of `changes` must be like for the deltas to keep the peer in
    step with a full sync. `before` and `after` are the peer's records on the
    two sides of the step. -/
structure Announces (config : BusConfig) (bus : Bus) (before after : PeerRecord) (changes : List RouteChange) :
    Prop where
  exports : EachChange (KeepsExported config after) bus.state.view changes
  policy : ∀ r ∈ bus.state.internalRoutes, r.isStale = false → exportGuards after r = true →
    policyAllowsSend config before r = policyAllowsSend config after r
  ingress : ∀ alloc ∈ bus.portAllocator, ∀ l ∈ bus.state.localRoutes, truthyPort l.envoyPort = false →
    changeAt config.node.name (l.name, config.node.name) changes = none → KeepsName alloc changes l.name
  egress : ∀ alloc ∈ bus.portAllocator, ∀ r ∈ bus.state.internalRoutes, r.isStale = false →
    exportGuards after r = true → changeAt config.node.name r.key changes = none →
      KeepsName alloc changes r.egressKey
  own : ∀ type l, type ≠ .removed → ⟨type, .channel l⟩ ∈ changes →
    bus.state.view (l.name, config.node.name) = none
  learned : ∀ type r, type ≠ .removed → ⟨type, .internal r⟩ ∈ changes →
    bus.state.localAt config.node.name r.key = none

/-- A plan changes either learned routes or a single one of the node's own. -/
inductive ChangeKind (node : String) (state newState : RouteTable) (changes : List RouteChange) : Prop where
  | learned (hinternal : ∀ change ∈ changes, ∃ r, change.route = .internal r)
      (hlocal : newState.localRoutes = state.localRoutes)
  | put (type : RouteChangeType) (l : DataChannelDefinition) (htype : type ≠ .removed)
      (hchanges : changes = [⟨type, .channel l⟩]) (hmem : l ∈ newState.localRoutes)
      (hinternal : newState.internalRoutes = state.internalRoutes)
      (hothers : ∀ k ≠ (l.name, node), newState.localAt node k = state.localAt node k)
  | dropped (l : DataChannelDefinition) (hchanges : changes = [⟨.removed, .channel l⟩]) (hmem : l ∈ state.localRoutes)
      (hinternal : newState.internalRoutes = state.internalRoutes)
      (hgone : newState.localAt node (l.name, node) = none)
      (hothers : ∀ k ≠ (l.name, node), newState.localAt node k = state.localAt node k)

theorem plan_changeKind (nodeId : String) (now : Int) (action : Action) (state : RouteTable) :
    ChangeKind nodeId state (Rib.plan nodeId now action state).newState
      (Rib.plan nodeId now action state).routeChanges := by
  have hshape := Rib.plan_shape nodeId now action state
  generalize Rib.plan nodeId now action state = result at hshape ⊢
  have hne {l : DataChannelDefinition} {k : String × String} (hk : k ≠ (l.name, nodeId)) :
      ((l.name, nodeId) == k) = false := beq_eq_false_iff_ne.mpr (Ne.symm hk)
  cases hshape with
  | unchanged | session => exact .learned (fun change hmem => (nomatch hmem)) rfl
  | withdraw =>
    refine .learned (fun change hmem => ?_) rfl
    obtain ⟨r, -, rfl⟩ := List.mem_map.mp hmem
    exact ⟨r, rfl⟩
  | stale =>
    refine .learned (fun change hmem => ?_) rfl
    obtain ⟨r, -, rfl⟩ := List.mem_map.mp hmem
    exact ⟨_, rfl⟩
  | update peerInfo updates peers =>
    refine .learned (fun change hmem => ?_) rfl
    obtain ⟨type, route⟩ := change
    cases route with
    | internal r => exact ⟨r, rfl⟩
    | channel l => exact absurd hmem (Rib.planUpdateItems_internal nodeId peerInfo updates _ type l)
  | created data hnew =>
    refine .put .added data (by simp) rfl (by simp) rfl fun k hk => ?_
    simp [RouteTable.localAt, hne hk]
  | deleted l ops hfound hops =>
    refine .dropped l rfl (List.mem_of_find?_eq_some hfound) rfl ?_ fun k hk => ?_
    · rw [RouteTable.localAt_eq_none_iff]
      intro other hother heq
      have hname : other.name ≠ l.name := by simpa using (List.mem_filter.mp hother).2
      exact hname (congrArg Prod.fst heq)
    · simp only [RouteTable.localAt, List.find?_filter]
      congr 1
      funext other
      by_cases hother : (other.name, nodeId) = k
      · have hname : other.name ≠ l.name := fun heq => hk (by rw [← hother, heq])
        simp [hother, hname]
      · simp [hother]
  | health data existing updated hfound hupdated =>
    have hexisting : existing.name = data.name := by simpa using List.find?_some hfound
    have hname : updated.name = data.name := hupdated ▸ hexisting
    have hfind := List.find?_modifyFirst (p := fun r : DataChannelDefinition => r.name == data.name)
      (f := fun _ => updated) (fun _ _ => by simpa using hname) state.localRoutes
    rw [hfound] at hfind
    refine .put .updated updated (by simp) rfl (List.mem_of_find?_eq_some hfind) rfl fun k hk => ?_
    refine List.find?_modifyFirst_of_disjoint (fun other hother => ?_) state.localRoutes
    have hsame : other.name = updated.name := (by simpa using hother : other.name = data.name).trans hname.symm
    have hskip := hne hk
    exact ⟨by rw [hsame]; exact hskip, hskip⟩

/-! ### Identities that a plan does not touch -/

section Plan

variable {config : BusConfig} {bus : Bus} {before after : PeerRecord} {now : Int} {action : Action}

/-- A name that the plan leaves alone still names the port of its route. -/
theorem heldPort_kept {ribPlan : PlanResult} {key : String} {port : Option Int}
    (hholds : HoldsPort bus.portAllocator key port)
    (hkeeps : ∀ alloc ∈ bus.portAllocator, KeepsName alloc ribPlan.routeChanges key)
    (hops : ∀ name p, .release name p ∈ ribPlan.portOps → ∃ change ∈ ribPlan.routeChanges, name ∈ change.frees)
    {p : Int} (h : heldPort (planPorts bus.portAllocator ribPlan).2 key = some p) : port = some p := by
  cases halloc : bus.portAllocator with
  | none =>
    rw [halloc] at h
    cases h
  | some alloc =>
    rw [halloc] at h hholds
    rw [planPorts_keepsName (hkeeps alloc halloc) hops (hholds.refused alloc rfl)] at h
    exact hholds.held p h

theorem stampOf_stampsChanges (node : String) (portAllocator : Option PortAllocator) (plan : PlanResult) :
    StampsChanges node (stampAnnounced portAllocator plan) (stampOf portAllocator plan) where
  keys change := by rw [← keyAt_unstamped, stampOf_unstamped, keyAt_unstamped]
  ports := stampAnnounced_port portAllocator plan
  puts _ r htype := stampOf_internal portAllocator plan htype r
  removed := stampOf_removed portAllocator plan

/-- Changes of learned routes concern no identity of the node's own. -/
theorem changeAt_own {node : String} {k : String × String} (changes : List RouteChange)
    (hinternal : ∀ change ∈ changes, ∃ r, change.route = .internal r)
    (hputs : ∀ type r, type ≠ .removed → ⟨type, .internal r⟩ ∈ changes → r.key ≠ k) :
    ∀ {view : String × String → Option InternalRoute}, view k = none → Rib.RemovesInstalled view changes →
      changeAt node k changes = none := by
  induction changes with
  | nil => exact fun _ _ => rfl
  | cons change rest ih =>
    intro view hview hremoves
    obtain ⟨type, route⟩ := change
    obtain ⟨r, hr⟩ := hinternal _ List.mem_cons_self
    obtain rfl : route = .internal r := hr
    have hne : r.key ≠ k := by
      by_cases htype : type = .removed
      · subst htype
        intro heq
        subst heq
        simp [hremoves.1 r rfl] at hview
      · exact hputs type r htype List.mem_cons_self
    have hrest := ih (fun other hmem => hinternal other (by simp [hmem]))
      (fun type r htype hmem => hputs type r htype (by simp [hmem]))
      ((RouteChange.applyTo_of_ne hne type _).trans hview) hremoves.2
    rw [changeAt_eq_none_iff] at hrest ⊢
    exact List.forall_mem_cons.mpr ⟨hne, hrest⟩

/-- What is learned leaves the identities of the node's own routes alone. -/
theorem Announces.spares_own
    (hannounces : Announces config bus before after (Rib.plan config.node.name now action bus.state).routeChanges)
    (hkeyed : Rib.RouteTable.WellKeyed bus.state) (hapart : bus.state.Apart config.node.name)
    (hinternal : ∀ change ∈ (Rib.plan config.node.name now action bus.state).routeChanges,
      ∃ r, change.route = .internal r)
    {k : String × String} {l : DataChannelDefinition} (hl : bus.state.localAt config.node.name k = some l) :
    changeAt config.node.name k (Rib.plan config.node.name now action bus.state).routeChanges = none := by
  have hremoves := Rib.plan_removesInstalled config.node.name now action hkeyed
  obtain ⟨hmem, rfl⟩ := (RouteTable.localAt_eq_some_iff hkeyed).mp hl
  refine changeAt_own _ hinternal (fun type r htype hput hkey => ?_)
    (installedAt_eq_none_iff.mpr (hapart l hmem)) hremoves
  have hlearned := hannounces.learned type r htype hput
  rw [hkey, hl] at hlearned
  cases hlearned

theorem RouteTable.apart_iff {node : String} {state : RouteTable} :
    state.Apart node ↔ ∀ k, state.localAt node k ≠ none → state.view k = none := by
  constructor
  · intro hapart k hlocal
    obtain ⟨l, hl⟩ := Option.ne_none_iff_exists'.mp hlocal
    have hmem := List.mem_of_find?_eq_some hl
    have hkey : (l.name, node) = k := by simpa using List.find?_some hl
    exact installedAt_eq_none_iff.mpr (hkey ▸ hapart l hmem)
  · intro h l hmem
    have hlocal : state.localAt node (l.name, node) ≠ none := fun hnone =>
      RouteTable.localAt_eq_none_iff.mp hnone l hmem rfl
    exact installedAt_eq_none_iff.mp (h _ hlocal)

theorem Announces.apart
    (hannounces : Announces config bus before after (Rib.plan config.node.name now action bus.state).routeChanges)
    (hkeyed : Rib.RouteTable.WellKeyed bus.state) (hapart : bus.state.Apart config.node.name) :
    (Rib.plan config.node.name now action bus.state).newState.Apart config.node.name := by
  have hapart' := RouteTable.apart_iff.mp hapart
  rw [RouteTable.apart_iff]
  intro k hlocal
  cases plan_changeKind config.node.name now action bus.state with
  | learned hinternal hsame =>
    unfold RouteTable.localAt at hlocal
    rw [hsame] at hlocal
    obtain ⟨l, hl⟩ := Option.ne_none_iff_exists'.mp hlocal
    have hnone := hannounces.spares_own hkeyed hapart hinternal hl
    rw [Rib.plan_view config.node.name now action hkeyed k, applyChanges_of_none _ _ hnone]
    exact hapart' k hlocal
  | put type l htype hput hmem hinternal hothers =>
    have hview : (Rib.plan config.node.name now action bus.state).newState.view k = bus.state.view k := by
      unfold RouteTable.view
      rw [hinternal]
    rw [hview]
    by_cases hk : k = (l.name, config.node.name)
    · subst hk
      exact hannounces.own type l htype (by rw [hput]; exact List.mem_singleton_self _)
    · rw [hothers k hk] at hlocal
      exact hapart' k hlocal
  | dropped l hdropped hmem hinternal hgone hothers =>
    have hview : (Rib.plan config.node.name now action bus.state).newState.view k = bus.state.view k := by
      unfold RouteTable.view
      rw [hinternal]
    rw [hview]
    by_cases hk : k = (l.name, config.node.name)
    · subst hk
      exact absurd hgone hlocal
    · rw [hothers k hk] at hlocal
      exact hapart' k hlocal

/-- Before a plan that announces everything, the peer knows of no route but those
    it may still be told of. -/
theorem Announces.backed {changes : List RouteChange} (h : Announces config bus before after changes)
    (hname : after.name = before.name) {k : String × String} (hlocal : bus.state.localAt config.node.name k = none) :
    Backed config after (advertised config before bus.state k) (bus.state.view k) := by
  simp only [advertised, hlocal]
  intro hknown
  cases hv : bus.state.view k with
  | none =>
    rw [hv] at hknown
    exact absurd rfl hknown
  | some r =>
    rw [hv, Option.bind_some] at hknown
    have hsync : syncable config before r = true := by
      by_contra hnot
      exact hknown (by simp [exported, hnot])
    simp only [syncable, Bool.and_eq_true, Bool.not_eq_true'] at hsync
    have hguards : exportGuards after r = true := by
      simpa [exportGuards, hname] using hsync.1.2
    have hpolicy := h.policy r (mem_of_installedAt hv) hsync.1.1 hguards
    exact ⟨r, rfl, hsync.1.1, hguards, r.envoyPort, hpolicy.symm.trans hsync.2⟩

variable {portAllocator : Option PortAllocator} {plan : PlanResult}
  (hports : planPorts bus.portAllocator (Rib.plan config.node.name now action bus.state) = (plan, portAllocator))

include hports

theorem stamps_of_planPorts :
    Stamps portAllocator (Rib.plan config.node.name now action bus.state) plan.newState := by
  have hstamps := planPorts_stamps bus.portAllocator (Rib.plan config.node.name now action bus.state)
  rwa [hports] at hstamps

theorem localAt_planned (k : String × String) :
    plan.newState.localAt config.node.name k =
      ((Rib.plan config.node.name now action bus.state).newState.localAt config.node.name k).map
        (stampLocal portAllocator) := by
  unfold RouteTable.localAt
  rw [(stamps_of_planPorts hports).localRoutes, List.find?_map]
  simp

theorem view_planned (k : String × String) :
    plan.newState.view k =
      ((Rib.plan config.node.name now action bus.state).newState.view k).map (stampEgress portAllocator) := by
  unfold RouteTable.view installedAt
  rw [(stamps_of_planPorts hports).internalRoutes, List.find?_map]
  simp

/-- Port planning keeps the identities apart. -/
theorem apart_planned
    (hapart : (Rib.plan config.node.name now action bus.state).newState.Apart config.node.name) :
    plan.newState.Apart config.node.name := by
  rw [RouteTable.apart_iff] at hapart ⊢
  intro k hlocal
  rw [localAt_planned hports, ne_eq, Option.map_eq_none_iff] at hlocal
  rw [view_planned hports, hapart k hlocal, Option.map_none]

/-- A local route that no change concerns is stored as it was. -/
theorem stampLocal_untouched (hsaturated : Saturated bus.portAllocator bus.state)
    (hannounces : Announces config bus before after (Rib.plan config.node.name now action bus.state).routeChanges)
    {l : DataChannelDefinition} (hmem : l ∈ bus.state.localRoutes)
    (hnone : changeAt config.node.name (l.name, config.node.name)
      (Rib.plan config.node.name now action bus.state).routeChanges = none) :
    stampLocal portAllocator l = l := by
  refine stampLocal_eq_self fun hbare port hport => ?_
  have hsnd : (planPorts bus.portAllocator (Rib.plan config.node.name now action bus.state)).2 = portAllocator := by
    rw [hports]
  exact heldPort_kept (hsaturated.localRoutes l hmem hbare)
    (fun alloc halloc => hannounces.ingress alloc halloc l hmem hbare hnone)
    (fun name p => Rib.plan_portOps) (hsnd ▸ hport)

/-- An internal route that no change concerns is exported as it was. -/
theorem exported_untouched (hsaturated : Saturated bus.portAllocator bus.state)
    (hname : after.name = before.name)
    (hannounces : Announces config bus before after (Rib.plan config.node.name now action bus.state).routeChanges)
    {r : InternalRoute} (hmem : r ∈ bus.state.internalRoutes)
    (hnone : changeAt config.node.name r.key
      (Rib.plan config.node.name now action bus.state).routeChanges = none) :
    exported config after (stampEgress portAllocator r) = exported config before r := by
  have hguards (x : InternalRoute) : exportGuards after x = exportGuards before x := by
    simp [exportGuards, hname]
  by_cases hlive : r.isStale = false ∧ exportGuards after r = true
  · have hkept : stampEgress portAllocator r = r := by
      refine stampEgress_eq_self fun port hport => ?_
      have hsnd : (planPorts bus.portAllocator (Rib.plan config.node.name now action bus.state)).2 =
        portAllocator := by rw [hports]
      exact heldPort_kept (hsaturated.internalRoutes r hmem)
        (fun alloc halloc => hannounces.egress alloc halloc r hmem hlive.1 hlive.2 hnone)
        (fun name p => Rib.plan_portOps) (hsnd ▸ hport)
    rw [hkept]
    simp only [exported, syncable, hannounces.policy r hmem hlive.1 hlive.2, hguards]
  · have hunstamped := stampEgress_unstamped portAllocator r
    have hafter : syncable config after (stampEgress portAllocator r) = false := by
      have hstale := InternalRoute.isStale_eq_of_unstamped hunstamped
      have hsame : exportGuards after (stampEgress portAllocator r) = exportGuards after r := by
        simp only [exportGuards, InternalRoute.peer_eq_of_unstamped hunstamped,
          InternalRoute.nodePath_eq_of_unstamped hunstamped]
      rcases not_and_or.mp hlive with h | h <;> simp [syncable, hstale, hsame, h]
    have hbefore : syncable config before r = false := by
      rw [hguards] at hlive
      rcases not_and_or.mp hlive with h | h <;> simp [syncable, h]
    simp [exported, hafter, hbefore]

/-- The delta of a plan that announces everything leaves the peer with what a
    full sync of the new table would tell it. -/
theorem hear_delta (hkeyed : Rib.RouteTable.WellKeyed bus.state) (hapart : bus.state.Apart config.node.name)
    (hsaturated : Saturated bus.portAllocator bus.state) (hname : after.name = before.name)
    (hannounces : Announces config bus before after (Rib.plan config.node.name now action bus.state).routeChanges)
    (k : String × String) :
    (advertised config before bus.state).hearChanges config after plan.routeChanges k =
      advertised config after plan.newState k := by
  have hchanges := planPorts_routeChanges bus.portAllocator (Rib.plan config.node.name now action bus.state)
  have hview := Rib.plan_view config.node.name now action hkeyed k
  have hσ := stampOf_stampsChanges config.node.name bus.portAllocator
    (Rib.plan config.node.name now action bus.state)
  have hsnd : (planPorts bus.portAllocator (Rib.plan config.node.name now action bus.state)).2 = portAllocator := by
    rw [hports]
  rw [hports] at hchanges
  -- an identity without a change keeps its route, its ports and what the peer knows
  have huntouched (hnone : changeAt config.node.name k
        (Rib.plan config.node.name now action bus.state).routeChanges = none)
      (hsame : (Rib.plan config.node.name now action bus.state).newState.localAt config.node.name k =
        bus.state.localAt config.node.name k) :
      (advertised config before bus.state).hearChanges config after plan.routeChanges k =
        advertised config after plan.newState k := by
    rw [hchanges, Told.hearChanges_of_none (hσ.changeAt_none hnone)]
    unfold advertised
    rw [localAt_planned hports, view_planned hports, hsame, hview, applyChanges_of_none _ _ hnone]
    cases hl : bus.state.localAt config.node.name k with
    | some l =>
      obtain ⟨hmem, rfl⟩ := (RouteTable.localAt_eq_some_iff hkeyed).mp hl
      rw [Option.map_some, stampLocal_untouched hports hsaturated hannounces hmem hnone]
    | none =>
      cases hv : bus.state.view k with
      | none => rfl
      | some r =>
        obtain rfl := installedAt_key hv
        exact (exported_untouched hports hsaturated hname hannounces (mem_of_installedAt hv) hnone).symm
  cases plan_changeKind config.node.name now action bus.state with
  | learned hinternal hlocal =>
    have hsame : (Rib.plan config.node.name now action bus.state).newState.localAt config.node.name k =
        bus.state.localAt config.node.name k := by
      unfold RouteTable.localAt
      rw [hlocal]
    by_cases hnone : changeAt config.node.name k
        (Rib.plan config.node.name now action bus.state).routeChanges = none
    · exact huntouched hnone hsame
    · have hremoves := Rib.plan_removesInstalled config.node.name now action hkeyed
      have hl : bus.state.localAt config.node.name k = none := by
        by_contra hsome
        obtain ⟨l, hl⟩ := Option.ne_none_iff_exists'.mp hsome
        exact hnone (hannounces.spares_own hkeyed hapart hinternal hl)
      have hbacked := hannounces.backed hname hl
      obtain hnone' | hheard := hear_changes hσ k _ hinternal _ _ hremoves hannounces.exports hbacked
      · exact absurd hnone' hnone
      · rw [hchanges, hheard, ← hview]
        unfold advertised
        rw [localAt_planned hports, view_planned hports, hsame, hl]
        cases hv : (Rib.plan config.node.name now action bus.state).newState.view k with
        | none => rfl
        | some r =>
          rw [Option.bind_some, stampAnnounced_of_mem (mem_of_installedAt hv), hsnd]
          rfl
  | put type l htype hput hmem hinternal hothers =>
    by_cases hk : k = (l.name, config.node.name)
    · subst hk
      have hfound : (Rib.plan config.node.name now action bus.state).newState.localAt config.node.name
          (l.name, config.node.name) = some l :=
        (RouteTable.localAt_eq_some_iff (Rib.plan_wellKeyed config.node.name now action hkeyed)).mpr ⟨hmem, rfl⟩
      have hitem (l' : DataChannelDefinition) :
          [(⟨type, .channel l'⟩ : RouteChange)].filterMap (changeItem config after) = [localItem config .add l'] := by
        cases type with
        | removed => exact absurd rfl htype
        | added | updated => rfl
      rw [hchanges, hput, List.map_singleton, stampOf_channel htype hmem, hsnd, Told.hearChanges, hitem]
      simp only [advertised, localAt_planned hports, hfound, Option.map_some]
      have hkey : (localItem config .add (stampLocal portAllocator l)).key = (l.name, config.node.name) := by simp
      rw [← hkey]
      exact Told.hear_self _ _
    · refine huntouched ?_ (hothers k hk)
      rw [hput]
      simp [changeAt, RouteChange.keyAt, Ne.symm hk]
  | dropped l hdropped hmem hinternal hgone hothers =>
    by_cases hk : k = (l.name, config.node.name)
    · subst hk
      have hvacant : bus.state.view (l.name, config.node.name) = none := installedAt_eq_none_iff.mpr (hapart l hmem)
      have hvacant' : (Rib.plan config.node.name now action bus.state).newState.view (l.name, config.node.name) =
          none := by
        unfold RouteTable.view at hvacant ⊢
        rwa [hinternal]
      rw [hchanges, hdropped, List.map_singleton, stampOf_removed]
      simp only [advertised, localAt_planned hports, hgone, Option.map_none, view_planned hports, hvacant',
        Option.bind_none]
      exact Told.hear_self _ (localItem config .remove l)
    · refine huntouched ?_ (hothers k hk)
      rw [hdropped]
      simp [changeAt, RouteChange.keyAt, Ne.symm hk]

end Plan

end CatalystRouter
