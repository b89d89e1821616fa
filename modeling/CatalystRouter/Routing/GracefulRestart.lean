import CatalystRouter.Routing.StaleRoutes

namespace CatalystRouter

/-- The internal routes that a change list withdraws. -/
def removedRoutes (changes : List RouteChange) : List InternalRoute :=
  changes.filterMap fun change =>
    match change.type, change.route with
    | .removed, .internal r => some r
    | _, _ => none

/-- The table, and whether the peer that failed has come back. -/
structure Restart where
  table : RouteTable
  back : Bool := false

/-- The peer of that name starts a session. -/
def Action.comesBack (name : String) : Action → Bool
  | .internalProtocolOpen peerInfo _ => peerInfo.name == name
  | .internalProtocolConnected peerInfo => peerInfo.name == name
  | _ => false

namespace Rib

/-- Identity `k` is provided by the peer of that name. -/
def Provides (name : String) (state : RouteTable) (k : String × String) : Prop :=
  ∃ r ∈ state.view k, r.peer.name = name

end Rib

namespace Restart

def act (nodeId : String) (name : String) (s : Restart) (step : Int × Action) : Restart where
  table := Rib.act nodeId s.table step
  back := s.back || step.2.comesBack name

/-- A step that gives the failed peer its time: until the peer is back Ticks come
    by `deadline`, they take no routes of other peers, nor of the peer once it is
    back, no held identity is removed, and no peer is hard-closed or deleted. -/
def Undisturbed (nodeId : String) (name : String) (deadline : Int) (held : String × String → Prop) (s : Restart)
    (step : Int × Action) : Prop :=
  match step.2 with
  | .tick now => (s.back = false → now ≤ deadline) ∧
      ∀ r ∈ removedRoutes (Rib.plan nodeId step.1 (.tick now) s.table).routeChanges,
        r.peer.name = name ∧ s.back = false
  | .internalProtocolUpdate _ updates => ∀ item ∈ updates, held item.key → item.action = .add
  | .internalProtocolClose peerInfo code => code = CloseCodes.transportError ∨ s.table.peerAt peerInfo.name = none
  | .localPeerDelete deleted => s.table.peerAt deleted = none
  | _ => True

theorem run_table (nodeId name : String) (s : Restart) (steps : List (Int × Action)) :
    (Runs.run (act nodeId name) s steps).table = Rib.run nodeId s.table steps := by
  induction steps generalizing s with
  | nil => rfl
  | cons step rest ih => exact ih (act nodeId name s step)

end Restart

theorem mem_removedRoutes {changes : List RouteChange} {r : InternalRoute} :
    r ∈ removedRoutes changes ↔ ⟨.removed, .internal r⟩ ∈ changes := by
  simp only [removedRoutes, List.mem_filterMap]
  constructor
  · rintro ⟨⟨type, route⟩, hmem, hchange⟩
    cases type <;> cases route <;> simp only [reduceCtorEq, Option.some.injEq] at hchange
    subst hchange
    exact hmem
  · exact fun hmem => ⟨_, hmem, rfl⟩

/-- An identity that no change removes stays. -/
theorem applyChanges_isSome {k : String × String} {changes : List RouteChange}
    (h : ∀ r ∈ removedRoutes changes, r.key ≠ k) {installed : Option InternalRoute} (hsome : ∃ r, installed = some r) :
    ∃ r, applyChanges k installed changes = some r := by
  induction changes generalizing installed with
  | nil => exact hsome
  | cons change rest ih =>
    refine ih (fun r hr => h r (mem_removedRoutes.mpr (by simp [mem_removedRoutes.mp hr]))) ?_
    obtain ⟨type, route⟩ := change
    cases route with
    | channel route => exact hsome
    | internal r =>
      by_cases hkey : r.key = k
      · have htype : type ≠ .removed := by
          rintro rfl
          exact h r (mem_removedRoutes.mpr (by simp)) hkey
        subst hkey
        exact ⟨r, RouteChange.applyTo_put htype r installed⟩
      · rwa [RouteChange.applyTo_of_ne hkey]

namespace Rib

/-! ### What one message does to a held identity -/

variable {nodeId : String} {peerInfo : PeerInfo} {k : String × String}

/-- Only a removal of an identity withdraws it. -/
theorem planUpdateItem_removed {routes : List InternalRoute} {item : UpdateItem} {r : InternalRoute}
    (hr : r ∈ removedRoutes (planUpdateItem nodeId peerInfo routes item).routeChanges) :
    item.key = r.key ∧ item.action = .remove := by
  have hstep := planUpdateItem_step nodeId peerInfo routes item
  generalize planUpdateItem nodeId peerInfo routes item = turn at hstep hr
  cases hstep with
  | looped | kept | absent | replaced | installed => simp [removedRoutes] at hr
  | withdrawn removed hremove hfound =>
    obtain rfl : r = removed := by simpa [removedRoutes] using hr
    exact ⟨(installedAt_key hfound).symm, hremove⟩

theorem planUpdateItems_removed {r : InternalRoute} (updates : List UpdateItem) :
    ∀ {routes}, r ∈ removedRoutes (planUpdateItems nodeId peerInfo routes updates).routeChanges →
      ∃ item ∈ updates, item.key = r.key ∧ item.action = .remove := by
  induction updates with
  | nil => exact fun hr => (nomatch hr)
  | cons item rest ih =>
    intro routes hr
    obtain hfirst | hlater := List.mem_append.mp (mem_removedRoutes.mp hr)
    · exact ⟨item, by simp, planUpdateItem_removed (mem_removedRoutes.mpr hfirst)⟩
    · obtain ⟨later, hmem, hremoved⟩ := ih (mem_removedRoutes.mpr hlater)
      exact ⟨later, by simp [hmem], hremoved⟩

/-- Only updates, and actions that withdraw a peer's routes, remove any. -/
theorem removedRoutes_plan {now : Int} {action : Action} {state : RouteTable}
    (hkeeps : withdrawnPeers state action = []) (hother : action.isUpdate = false) :
    removedRoutes (plan nodeId now action state).routeChanges = [] := by
  have hshape := plan_shape nodeId now action state
  generalize plan nodeId now action state = result at hshape ⊢
  cases hshape with
  | unchanged | session | created | deleted | health => rfl
  | withdraw => simp [withdrawPlan, hkeeps, routesOf, removedChanges, removedRoutes]
  | stale => cases hkeeps
  | update => cases hother

/-- A loop-free advertisement of at most `bound` hops settles its identity on a
    fresh route of at most `bound` hops. -/
theorem planUpdateItems_settles {bound : Nat} (updates : List UpdateItem) :
    ∀ {routes}, (∀ item ∈ updates, item.key = k → item.action = .add) →
      ((∃ r ∈ installedAt routes k, r.nodePath.length ≤ bound ∧ r.isStale = false) ∨
        ∃ item ∈ updates, item.key = k ∧ nodeId ∉ item.nodePath ∧ item.nodePath.length ≤ bound) →
      ∃ r ∈ installedAt (planUpdateItems nodeId peerInfo routes updates).routes k,
        r.nodePath.length ≤ bound ∧ r.isStale = false := by
  induction updates with
  | nil => exact fun _ h => h.elim id fun ⟨_, hmem, _⟩ => (nomatch hmem)
  | cons item rest ih =>
    intro routes hadds h
    refine ih (fun later hlater => hadds later (by simp [hlater])) ?_
    by_cases hkey : item.key = k
    · have hadd := hadds item (by simp) hkey
      subst hkey
      rw [planUpdateItem_installedAt, receiveItem_add hadd]
      split
      · rename_i heffect
        obtain ⟨r, hr, hlen, hfresh⟩ | ⟨candidate, hmem, hcandidate, hloop, hlen⟩ := h
        · have hshorter := (heffect.2.2 r hr).resolve_right (by simp [hfresh])
          exact .inl ⟨_, rfl, by rw [itemRoute_nodePath]; omega, rfl⟩
        · obtain rfl | hlater := List.mem_cons.mp hmem
          · exact .inl ⟨_, rfl, hlen, rfl⟩
          · exact .inr ⟨candidate, hlater, hcandidate, hloop, hlen⟩
      · rename_i hnot
        obtain hsettled | ⟨candidate, hmem, hcandidate, hloop, hlen⟩ := h
        · exact .inl hsettled
        · obtain rfl | hlater := List.mem_cons.mp hmem
          · simp only [TakesEffect, hadd, hloop, not_false_eq_true, true_and, not_forall] at hnot
            obtain ⟨existing, hfound, hworse⟩ := hnot
            obtain ⟨hlong, hfresh⟩ := not_or.mp hworse
            exact .inl ⟨existing, hfound, by omega, by simpa using hfresh⟩
          · exact .inr ⟨candidate, hlater, hcandidate, hloop, hlen⟩
    · rw [planUpdateItem_installedAt_of_ne nodeId peerInfo routes hkey]
      refine h.imp_right ?_
      rintro ⟨candidate, hmem, hcandidate, hrest⟩
      obtain rfl | hmem := List.mem_cons.mp hmem
      · exact absurd hcandidate hkey
      · exact ⟨candidate, hmem, hcandidate, hrest⟩

end Rib

namespace Restart

variable {nodeId name : String} {k : String × String} {holdTime heard clock : Int} {held : String × String → Prop}
  {s : Restart} {step : Int × Action}

/-- What the grace period keeps for a held identity: a route, and until the peer
    is back its hold timer as the failure left it, or later. -/
structure Sheltered (nodeId name : String) (k : String × String) (holdTime heard clock : Int) (s : Restart) : Prop where
  wellFormed : s.table.WellFormed nodeId
  installed : ∃ r, s.table.view k = some r
  timer : s.back = false → ∃ p ∈ s.table.peerAt name,
    p.holdTime = holdTime ∧ (p.lastReceived = heard ∨ clock ≤ p.lastReceived)

/-- No step withdraws a held identity. -/
theorem not_removed (hheard : heard ≤ max 0 clock) (hheld : held k)
    (hstep : Undisturbed nodeId name (heard + holdTime) held s step)
    (h : Sheltered nodeId name k holdTime heard clock s) :
    ∀ r ∈ removedRoutes (Rib.plan nodeId step.1 step.2 s.table).routeChanges, r.key ≠ k := by
  obtain ⟨now, action⟩ := step
  cases action with
  | tick tickNow =>
    intro r hr
    obtain ⟨hearly, hown⟩ := hstep
    obtain ⟨hname, hback⟩ := hown r hr
    obtain ⟨p, hp, hhold, hlast⟩ := h.timer hback
    have htick := hearly hback
    have hpurged : r.peer.name ∈ Rib.purgedPeerNames tickNow s.table := by
      simp only [Rib.plan, Rib.planTick] at hr
      split at hr
      · cases hr
      · obtain ⟨old, hold, hsame⟩ := List.mem_map.mp (mem_removedRoutes.mp hr)
        cases hsame
        simpa using (List.mem_filter.mp hold).2
    obtain ⟨q, hq, hqname, helapsed, -⟩ := Rib.mem_purgedPeerNames_iff.mp hpurged
    have hsame : s.table.peerAt name = some q :=
      (RouteTable.peerAt_eq_some_iff h.wellFormed.peerNames).mpr ⟨hq, by rw [hqname, hname]⟩
    obtain rfl : p = q := Option.some.inj (hp.symm.trans hsame)
    have := Rib.holdElapsed_iff.mp helapsed
    omega
  | internalProtocolUpdate peerInfo updates =>
    intro r hr hkey
    rw [Rib.plan_update_changes] at hr
    obtain ⟨item, hmem, hitem, hremove⟩ := Rib.planUpdateItems_removed updates hr
    have hadd := hstep item hmem (by rwa [hitem, hkey])
    simp [hremove] at hadd
  | internalProtocolClose peerInfo code =>
    intro r hr
    simp only [Rib.plan, Rib.planInternalProtocolClose] at hr
    split at hr
    · rename_i hknown
      have hsoft : code = CloseCodes.transportError := hstep.resolve_right fun hnone => by
        rw [RouteTable.any_hasName, hnone] at hknown
        cases hknown
      rw [if_pos hsoft] at hr
      simp [removedRoutes] at hr
    · cases hr
  | localPeerDelete deleted =>
    intro r hr
    have hnone := RouteTable.peerAt_eq_none_iff.mp hstep
    have hall : (s.table.peers.filter fun p => p.name != deleted) = s.table.peers :=
      List.filter_eq_self.mpr fun p hp => by simpa using hnone p hp
    simp [Rib.plan, Rib.planLocalPeerDelete, hall, noChange, removedRoutes] at hr
  | localPeerCreate | localPeerUpdate | localRouteCreate | localRouteDelete | localRouteHealthUpdate
  | internalProtocolOpen | internalProtocolConnected | internalProtocolKeepalive =>
    intro r hr
    rw [Rib.removedRoutes_plan rfl rfl] at hr
    cases hr

theorem act_sheltered (hheard : heard ≤ max 0 clock) (hheld : held k) (hclock : clock ≤ step.1)
    (hstep : Undisturbed nodeId name (heard + holdTime) held s step)
    (h : Sheltered nodeId name k holdTime heard clock s) :
    Sheltered nodeId name k holdTime heard clock (act nodeId name s step) := by
  refine ⟨Rib.act_wellFormed h.wellFormed step, ?_, fun hback => ?_⟩
  · have hview := Rib.plan_view nodeId step.1 step.2 h.wellFormed.keyed k
    obtain ⟨r, hr⟩ := applyChanges_isSome (not_removed hheard hheld hstep h) h.installed
    exact ⟨r, hview.trans hr⟩
  · obtain ⟨hbefore, hstays⟩ := Bool.or_eq_false_iff.mp hback
    obtain ⟨p, hp, hhold, hlast⟩ := h.timer hbefore
    have hkept : step.2 ≠ .localPeerDelete name := by
      intro hdelete
      simp only [Undisturbed, hdelete] at hstep
      exact absurd hp (by simp [hstep])
    obtain ⟨p', hp'⟩ := Rib.peerAfter_ne_none step.1 hkept p
    have hat : (act nodeId name s step).table.peerAt name = some p' := by
      unfold act Rib.act
      rw [Rib.plan_peerAt, Option.mem_def.mp hp, hp']
    refine ⟨p', hat, ?_⟩
    by_cases hfrom : Rib.heardFrom step.2 = some name
    · rw [Rib.peerAfter_heard hfrom, Option.map_some] at hp'
      obtain rfl := Option.some.inj hp'
      rw [Rib.touchPeer_lastReceived hfrom, Rib.touchPeer_holdTime hfrom]
      refine ⟨?_, .inr hclock⟩
      cases haction : step.2 with
      | internalProtocolOpen peerInfo offered =>
        have hname : peerInfo.name = name := by simpa [haction, Rib.heardFrom] using hfrom
        simp [haction, Action.comesBack, hname] at hstays
      | internalProtocolConnected peerInfo =>
        have hname : peerInfo.name = name := by simpa [haction, Rib.heardFrom] using hfrom
        simp [haction, Action.comesBack, hname] at hstays
      | _ => exact hhold
    · obtain ⟨hsame, hlast'⟩ := Rib.peerAfter_unheard hfrom hp'
      rw [hsame, hlast']
      exact ⟨hhold, hlast⟩

/-- What the steps of an undisturbed grace period leave at each of its points. -/
theorem run_sheltered (hheard : heard ≤ max 0 clock) (hheld : held k) {steps : List (Int × Action)}
    (hclock : ∀ step ∈ steps, clock ≤ step.1)
    (hsteps : Runs.EachStep (act nodeId name) (Undisturbed nodeId name (heard + holdTime) held) s steps)
    (h : Sheltered nodeId name k holdTime heard clock s) :
    Sheltered nodeId name k holdTime heard clock (Runs.run (act nodeId name) s steps) := by
  have htimes : Runs.EachStep (act nodeId name) (fun _ step => clock ≤ step.1) s steps :=
    Runs.eachStep_of_forall _ (fun step hstep _ => hclock step hstep) s
  refine Runs.run_induct (I := Sheltered nodeId name k holdTime heard clock) ?_
    ((Runs.eachStep_and _).mpr ⟨htimes, hsteps⟩) h
  exact fun s step hstep hs => act_sheltered hheard hheld hstep.1 hstep.2 hs

end Restart

namespace Rib

variable {nodeId : String} {k : String × String}

/-- A message that advertises a held identity again, over no longer a loop-free
    path, settles it. -/
theorem act_readvertised {state : RouteTable} {now : Int} {sender : PeerInfo} {updates : List UpdateItem} {bound : Nat}
    (hadds : ∀ item ∈ updates, item.key = k → item.action = .add) {item : UpdateItem} (hitem : item ∈ updates)
    (hkey : item.key = k) (hloop : nodeId ∉ item.nodePath) (hlen : item.nodePath.length ≤ bound) :
    ∃ r ∈ (act nodeId state (now, .internalProtocolUpdate sender updates)).view k,
      r.nodePath.length ≤ bound ∧ r.isStale = false := by
  have hview : (act nodeId state (now, .internalProtocolUpdate sender updates)).view k = _ :=
    plan_update_view nodeId now sender updates state k
  rw [hview]
  exact planUpdateItems_settles updates hadds (.inr ⟨item, hitem, hkey, hloop, hlen⟩)

/-- A graceful restart loses nothing: while the run after a transport failure is
    undisturbed, an identity that the peer provided stays installed, no change
    withdraws it, and the first message that advertises it again over a loop-free
    path no longer than before leaves a fresh route no longer than before. The clock
    must not have gone back between the last message of the peer and the failure. -/
theorem graceful_restart {before steps : List (Int × Action)} {failure : Int} {peerInfo : PeerInfo} {p : PeerRecord}
    {r : InternalRoute}
    (hclock : ClockOrdered ((failure, .internalProtocolClose peerInfo CloseCodes.transportError) :: steps))
    (hp : (run nodeId newRouteTable before).peerAt peerInfo.name = some p)
    (hheard : p.lastReceived ≤ failure) (hr : (run nodeId newRouteTable before).view k = some r) (hpeer : r.peer.name = peerInfo.name)
    (hsteps : Runs.EachStep (Restart.act nodeId peerInfo.name)
      (Restart.Undisturbed nodeId peerInfo.name (p.lastReceived + p.holdTime)
        (Provides peerInfo.name (run nodeId newRouteTable before)))
      { table := act nodeId (run nodeId newRouteTable before)
          (failure, .internalProtocolClose peerInfo CloseCodes.transportError) } steps) :
    ∀ early step late,
      (failure, .internalProtocolClose peerInfo CloseCodes.transportError) :: steps = early ++ step :: late →
      let current := run nodeId (run nodeId newRouteTable before) early
      (∃ r', (act nodeId current step).view k = some r') ∧
      (∀ r' ∈ removedRoutes (plan nodeId step.1 step.2 current).routeChanges, r'.key ≠ k) ∧
      ∀ sender updates item, step.2 = .internalProtocolUpdate sender updates → sender.name = peerInfo.name →
        item ∈ updates → item.action = .add → item.key = k → nodeId ∉ item.nodePath →
        item.nodePath.length ≤ r.nodePath.length →
        ∃ r' ∈ (act nodeId current step).view k, r'.nodePath.length ≤ r.nodePath.length ∧ r'.isStale = false := by
  have hformed : (run nodeId newRouteTable before).WellFormed nodeId := run_wellFormed newRouteTable_wellFormed before
  obtain ⟨hlater, -⟩ := List.pairwise_cons.mp hclock
  have hheard : p.lastReceived ≤ max 0 failure := hheard.trans (le_max_right 0 failure)
  have hheld : Provides peerInfo.name (run nodeId newRouteTable before) k := ⟨r, hr, hpeer⟩
  have hstart : Restart.Sheltered nodeId peerInfo.name k p.holdTime p.lastReceived failure
      { table := run nodeId newRouteTable before } := ⟨hformed, ⟨r, hr⟩, fun _ => ⟨p, hp, rfl, .inl rfl⟩⟩
  have hall : Runs.EachStep (Restart.act nodeId peerInfo.name)
      (Restart.Undisturbed nodeId peerInfo.name (p.lastReceived + p.holdTime)
        (Provides peerInfo.name (run nodeId newRouteTable before)))
      { table := run nodeId newRouteTable before }
      ((failure, .internalProtocolClose peerInfo CloseCodes.transportError) :: steps) := ⟨.inl rfl, hsteps⟩
  have hclocks : ∀ step ∈ (failure, Action.internalProtocolClose peerInfo CloseCodes.transportError) :: steps,
      failure ≤ step.1 := by
    intro step hstep
    obtain rfl | hstep := List.mem_cons.mp hstep
    · exact le_refl failure
    · exact hlater step hstep
  intro early step late hsplit current
  rw [hsplit] at hall hclocks
  obtain ⟨hearly, hstep, -⟩ := (Runs.eachStep_append _).mp hall
  have hcurrent := Restart.run_sheltered hheard hheld (fun other hother => hclocks other (by simp [hother])) hearly hstart
  have hremoved := Restart.not_removed hheard hheld hstep hcurrent
  have hnext := Restart.act_sheltered hheard hheld (hclocks step (by simp)) hstep hcurrent
  have htable : (Runs.run (Restart.act nodeId peerInfo.name) { table := run nodeId newRouteTable before } early).table =
      current := Restart.run_table nodeId peerInfo.name _ early
  rw [htable] at hremoved
  refine ⟨?_, hremoved, ?_⟩
  · rw [← htable]
    exact hnext.installed
  · intro sender updates item haction _ hitem _ hkey hloop hlen
    obtain ⟨now, action⟩ := step
    obtain rfl : action = .internalProtocolUpdate sender updates := haction
    refine act_readvertised (fun other hother hk => hstep other hother ?_) hitem hkey hloop hlen
    rwa [hk]

/-- `node-b` is back within its hold time and advertises `books` again. -/
def booksRestart : List (Int × Action) :=
  [(3, .tick 50000), (60000, .internalProtocolConnected { name := "node-b" }), (60001, booksUpdate ["node-b", "node-d"])]

theorem graceful_restart_books :
    ∃ r ∈ (act "node-a" (run "node-a" (run "node-a" newRouteTable booksFrom)
        ((2, .internalProtocolClose { name := "node-b" } CloseCodes.transportError) :: booksRestart.dropLast))
        (60001, booksUpdate ["node-b", "node-d"])).view ("books", "node-d"),
      r.nodePath.length ≤ 2 ∧ r.isStale = false := by
  have hclock : ClockOrdered
      ((2, .internalProtocolClose { name := "node-b" } CloseCodes.transportError) :: booksRestart) := by
    unfold ClockOrdered
    decide
  have hr : (run "node-a" newRouteTable booksFrom).view ("books", "node-d") =
      some { name := "books", protocol := .http, peer := { name := "node-b" }, nodePath := ["node-b", "node-d"],
             originNode := "node-d" } := by decide
  have hp : (run "node-a" newRouteTable booksFrom).peerAt "node-b" =
      some { name := "node-b", connectionStatus := .connected, lastConnected := 1, lastReceived := 1 } := by decide
  have hsteps := graceful_restart hclock hp (by decide) hr rfl
    ⟨⟨fun _ => by decide, by decide⟩, trivial, by simp [Restart.Undisturbed, booksUpdate], trivial⟩
  refine (hsteps ((2, .internalProtocolClose { name := "node-b" } CloseCodes.transportError) :: booksRestart.dropLast)
    (60001, booksUpdate ["node-b", "node-d"]) [] rfl).2.2 { name := "node-b" } _ _ rfl rfl List.mem_cons_self rfl rfl ?_ ?_
  · decide
  · decide

/-- `node-b` connects at clock reading 100 and advertises `books`. -/
def booksAhead : List (Int × Action) :=
  [(100, .localPeerCreate { name := "node-b" }), (100, .internalProtocolConnected { name := "node-b" }),
    (100, booksUpdate ["node-b", "node-d"])]

/-- The clock has gone back when its transport fails; it is heard once more, and the hold time counts from then. -/
def booksBehind : List (Int × Action) :=
  [(10, .internalProtocolClose { name := "node-b" } CloseCodes.transportError),
    (11, .internalProtocolKeepalive { name := "node-b" }), (12, .tick 90050)]

/-- With the clock behind, `books` is purged within the hold time after the last message before the failure. -/
theorem restart_purged :
    ClockOrdered booksBehind ∧
      (run "node-a" newRouteTable booksAhead).peerAt "node-b" =
        some { name := "node-b", connectionStatus := .connected, lastConnected := 100, lastReceived := 100 } ∧
      Provides "node-b" (run "node-a" newRouteTable booksAhead) ("books", "node-d") ∧
      Runs.EachStep (Restart.act "node-a" "node-b")
        (Restart.Undisturbed "node-a" "node-b" (100 + 90000) (Provides "node-b" (run "node-a" newRouteTable booksAhead)))
        { table := run "node-a" newRouteTable booksAhead } booksBehind ∧
      (run "node-a" (run "node-a" newRouteTable booksAhead) booksBehind).view ("books", "node-d") = none := by
  have hclock : ClockOrdered booksBehind := by
    unfold ClockOrdered
    decide
  have hprovided : (run "node-a" newRouteTable booksAhead).view ("books", "node-d") =
      some { name := "books", protocol := .http, peer := { name := "node-b" }, nodePath := ["node-b", "node-d"],
             originNode := "node-d" } := by decide
  exact ⟨hclock, by decide, ⟨_, hprovided, rfl⟩, ⟨.inl rfl, trivial, ⟨fun _ => by decide, by decide⟩, trivial⟩, by decide⟩

end Rib

end CatalystRouter
