import CatalystRouter.Routing.HoldTimer

namespace CatalystRouter

namespace Rib

/-- The action processes no advertisement of identity `k`. -/
def NoAdd (k : String × String) (action : Action) : Prop :=
  ∀ peerInfo updates, action = .internalProtocolUpdate peerInfo updates →
    ∀ item ∈ updates, item.key = k → item.action = .remove

/-- There is nothing for `k`, or the action has an entry for it. -/
def Withdraws (k : String × String) (state : RouteTable) (action : Action) : Prop :=
  state.view k = none ∨ ∃ peerInfo updates, action = .internalProtocolUpdate peerInfo updates ∧
    ∃ item ∈ updates, item.key = k

/-- An action heard from the peer withdraws `k`, or the hold timer it starts
    runs and is out by the deadline. -/
def Timely (k : String × String) (name : String) (deadline : Int) (state : RouteTable) (step : Int × Action) : Prop :=
  heardFrom step.2 = some name → Withdraws k state step.2 ∨ ∀ p ∈ state.peerAt name,
    0 < negotiatedHoldTime p step.2 ∧ 0 < step.1 ∧ step.1 + negotiatedHoldTime p step.2 ≤ deadline

/-- Whatever is there for `k` is a stale route of a peer whose session was up. -/
def LeftOver (k : String × String) (name : String) (state : RouteTable) : Prop :=
  ∀ r ∈ state.view k, r.isStale = true ∧ r.peer.name = name ∧
    ∃ p ∈ state.peerAt name, p.connectionStatus ≠ .initializing

/-- Nothing is there for `k`, or the peer's hold timer is out by the deadline. -/
def Lapsing (k : String × String) (name : String) (deadline : Int) (state : RouteTable) : Prop :=
  state.view k = none ∨ ∀ p ∈ state.peerAt name, LapsesBy deadline p

variable {nodeId : String} {k : String × String} {name : String} {deadline : Int} {state : RouteTable}
  {step : Int × Action}

/-! ### What one action leaves of a stale route -/

/-- Without an advertisement a route can only go, or be marked stale. -/
theorem act_view_of_noAdd (hkeyed : RouteTable.WellKeyed state) (hadd : NoAdd k step.2) {r' : InternalRoute}
    (hr' : (act nodeId state step).view k = some r') :
    ∃ r, state.view k = some r ∧ r'.peer = r.peer ∧ (r.isStale = true → r'.isStale = true) := by
  have hkey := installedAt_key hr'
  cases plan_provenance nodeId step.1 step.2 state (.inl (mem_of_installedAt hr')) with
  | kept hmem => exact ⟨r', (installedAt_eq_some_iff hkeyed.internalKeys).mpr ⟨hmem, hkey⟩, rfl, id⟩
  | marked peerInfo old haction hmem hmarked =>
    subst hmarked
    exact ⟨old, (installedAt_eq_some_iff hkeyed.internalKeys).mpr ⟨hmem, hkey⟩, rfl, fun _ => rfl⟩
  | accepted peerInfo updates item haction hmem hitem hloop haccepted =>
    subst haccepted
    have hremove := hadd peerInfo updates haction item hmem hkey
    simp [hremove] at hitem

theorem act_leftOver (hformed : state.WellFormed nodeId) (hadd : NoAdd k step.2) (h : LeftOver k name state) :
    LeftOver k name (act nodeId state step) := by
  intro r' hr'
  obtain ⟨r, hr, hpeer, hmarked⟩ := act_view_of_noAdd hformed.keyed hadd hr'
  obtain ⟨hstale, hname, p, hp, hstatus⟩ := h r hr
  have hname' : r'.peer.name = name := by rw [hpeer, hname]
  have hknown : ∃ p ∈ state.peers, p.name = name := ⟨p, RouteTable.mem_of_peerAt hp, RouteTable.peerAt_name hp⟩
  have hkept : step.2 ≠ .localPeerDelete name := by
    intro hdelete
    have hmem := mem_of_installedAt hr'
    unfold act at hmem
    rw [hdelete] at hmem
    exact plan_deleted hknown hmem hname'
  obtain ⟨p', hp'⟩ := peerAfter_ne_none step.1 hkept p
  have hat : (act nodeId state step).peerAt name = some p' := by
    unfold act
    rw [plan_peerAt, hp, hp']
  exact ⟨hmarked hstale, hname', p', hat, peerAfter_status hstatus hp'⟩

variable (nodeId state) in
/-- What an action heard from a peer leaves of `k`. -/
theorem act_view_heard (hadd : NoAdd k step.2) (hheard : heardFrom step.2 = some name) :
    (Withdraws k state step.2 → (act nodeId state step).view k = none) ∧
      (¬ Withdraws k state step.2 → (act nodeId state step).view k = state.view k) := by
  obtain ⟨now, action⟩ := step
  have hkept (h : (act nodeId state (now, action)).internalRoutes = state.internalRoutes)
      (hother : ¬ ∃ peerInfo updates, action = .internalProtocolUpdate peerInfo updates ∧
        ∃ item ∈ updates, item.key = k) :
      (Withdraws k state action → (act nodeId state (now, action)).view k = none) ∧
        (¬ Withdraws k state action → (act nodeId state (now, action)).view k = state.view k) := by
    unfold RouteTable.view
    rw [h]
    exact ⟨fun hwithdraws => hwithdraws.resolve_right hother, fun _ => rfl⟩
  cases action with
  | internalProtocolOpen peerInfo holdTime =>
    refine hkept ?_ (by simp)
    simp only [act, plan, planInternalProtocolOpen]
    split <;> rfl
  | internalProtocolConnected peerInfo =>
    refine hkept ?_ (by simp)
    simp only [act, plan, planInternalProtocolConnected]
    split <;> rfl
  | internalProtocolKeepalive peerInfo =>
    refine hkept ?_ (by simp)
    simp only [act, plan, planInternalProtocolKeepalive]
    split <;> rfl
  | internalProtocolUpdate peerInfo updates =>
    have hview : (act nodeId state (now, .internalProtocolUpdate peerInfo updates)).view k = _ :=
      plan_update_view nodeId now peerInfo updates state k
    have hremoves := hadd peerInfo updates rfl
    rw [hview]
    constructor
    · rintro (hnone | ⟨_, _, haction, hnamed⟩)
      · exact planUpdateItems_installedAt_of_removed updates hremoves (.inl hnone)
      · cases haction
        exact planUpdateItems_installedAt_of_removed updates hremoves (.inr hnamed)
    · intro hnot
      refine planUpdateItems_installedAt_of_ne updates fun item hitem hkey => hnot (.inr ?_)
      exact ⟨peerInfo, updates, rfl, item, hitem, hkey⟩
  | _ => cases hheard

/-- A left-over route keeps lapsing exactly when the action is timely. -/
theorem act_lapsing_iff (hadd : NoAdd k step.2) (hkeyed : RouteTable.WellKeyed state) (h : LeftOver k name state)
    (hlapsing : Lapsing k name deadline state) :
    Lapsing k name deadline (act nodeId state step) ↔ Timely k name deadline state step := by
  by_cases hheard : heardFrom step.2 = some name
  · obtain ⟨hgone, hkept⟩ := act_view_heard nodeId state hadd hheard
    by_cases hwithdraws : Withdraws k state step.2
    · exact iff_of_true (.inl (hgone hwithdraws)) fun _ => .inl hwithdraws
    · have hsome : (act nodeId state step).view k ≠ none := by
        rw [hkept hwithdraws]
        exact fun hnone => hwithdraws (.inl hnone)
      unfold Lapsing Timely
      simp only [hsome, hwithdraws, false_or, hheard, true_imp_iff]
      have hat : (act nodeId state step).peerAt name = (state.peerAt name).map (touchPeer step.1 step.2) := by
        unfold act
        rw [plan_peerAt, peerAfter_heard hheard]
      simp only [hat, Option.mem_def, Option.map_eq_some_iff, forall_exists_index, and_imp, forall_apply_eq_imp_iff₂,
        LapsesBy, touchPeer_lastReceived hheard, touchPeer_holdTime hheard]
  · refine iff_of_true ?_ fun hcontra => absurd hcontra hheard
    cases hview : (act nodeId state step).view k with
    | none => exact .inl hview
    | some r' =>
      right
      intro p' hp'
      obtain ⟨r, hr, -⟩ := act_view_of_noAdd hkeyed hadd hview
      obtain ⟨-, -, p, hp, -⟩ := h r hr
      have hlapse := (hlapsing.resolve_left (by simp [hr])) p hp
      have hat : peerAfter step.1 step.2 name (some p) = some p' := by
        unfold act at hp'
        rwa [Option.mem_def, plan_peerAt, hp] at hp'
      obtain ⟨hhold, hreceived⟩ := peerAfter_unheard hheard hat
      unfold LapsesBy
      rwa [hhold, hreceived]

/-- Every Tick after the deadline takes a left-over route away exactly when the
    peer's hold timer is out by then. -/
theorem tick_purges_iff (hformed : state.WellFormed nodeId) (h : LeftOver k name state) :
    (∀ clock now, deadline < now → (act nodeId state (clock, .tick now)).view k = none) ↔
      Lapsing k name deadline state := by
  have hview (clock now : Int) : (act nodeId state (clock, .tick now)).view k =
      (state.view k).filter fun r => !(purgedPeerNames now state).contains r.peer.name := by
    unfold RouteTable.view act
    rw [plan_tick_routes]
    exact installedAt_filter hformed.keyed.internalKeys _ k
  cases hr : state.view k with
  | none => simp [hview, hr, Lapsing]
  | some r =>
    obtain ⟨hstale, hname, p, hp, hstatus⟩ := h r hr
    have hmem := RouteTable.mem_of_peerAt hp
    have hstales : hasStaleRoutes state.internalRoutes name = true :=
      List.any_eq_true.mpr ⟨r, mem_of_installedAt hr, by simp [hname, hstale]⟩
    have hpurged (now : Int) : r.peer.name ∈ purgedPeerNames now state ↔ holdElapsed now p = true := by
      rw [hname, mem_purgedPeerNames_iff]
      constructor
      · rintro ⟨q, hq, hqname, helapsed, -⟩
        have hat := (RouteTable.peerAt_eq_some_iff hformed.peerNames).mpr ⟨hq, hqname⟩
        rwa [Option.some.inj (hp.symm.trans hat)]
      · intro helapsed
        refine ⟨p, hmem, RouteTable.peerAt_name hp, helapsed, ?_⟩
        cases hconnection : p.connectionStatus with
        | initializing => exact absurd hconnection hstatus
        | connected => exact .inl rfl
        | closed => exact .inr ⟨rfl, hstales⟩
    have hlapsing : Lapsing k name deadline state ↔ ∀ now, deadline < now → holdElapsed now p = true := by
      rw [← lapsesBy_iff]
      simp [Lapsing, hr, Option.mem_def.mp hp]
    rw [hlapsing]
    simp [hview, hr, Option.filter, hpurged]

/-! ### A whole run after the failure -/

theorem run_leftOver (hformed : state.WellFormed nodeId) (h : LeftOver k name state) {steps : List (Int × Action)}
    (hadds : ∀ step ∈ steps, NoAdd k step.2) : LeftOver k name (run nodeId state steps) := by
  have heach : EachStep nodeId (fun _ step => NoAdd k step.2) state steps :=
    Runs.eachStep_of_forall _ (fun step hstep _ => hadds step hstep) state
  refine (Runs.run_induct (I := fun state => state.WellFormed nodeId ∧ LeftOver k name state) ?_ heach ⟨hformed, h⟩).2
  intro state step hadd hstate
  exact ⟨act_wellFormed hstate.1 step, act_leftOver hstate.1 hadd hstate.2⟩

theorem run_lapsing_iff {steps : List (Int × Action)} (hadds : ∀ step ∈ steps, NoAdd k step.2) :
    ∀ {state : RouteTable}, state.WellFormed nodeId → LeftOver k name state →
      ((∀ early late, steps = early ++ late → Lapsing k name deadline (run nodeId state early)) ↔
        Lapsing k name deadline state ∧ EachStep nodeId (Timely k name deadline) state steps) := by
  induction steps with
  | nil =>
    intro state _ _
    constructor
    · exact fun h => ⟨h [] [] rfl, trivial⟩
    · rintro ⟨hlapsing, -⟩ early late hsplit
      obtain ⟨rfl, -⟩ := List.append_eq_nil_iff.mp hsplit.symm
      exact hlapsing
  | cons step rest ih =>
    intro state hformed hleft
    have hadd := hadds step (by simp)
    have hrest := ih (fun later hlater => hadds later (by simp [hlater])) (act_wellFormed hformed step)
      (act_leftOver hformed hadd hleft)
    have hstep (hlapsing : Lapsing k name deadline state) :
        Lapsing k name deadline (act nodeId state step) ↔ Timely k name deadline state step :=
      act_lapsing_iff hadd hformed.keyed hleft hlapsing
    constructor
    · intro h
      have hlapsing := h [] (step :: rest) rfl
      obtain ⟨hnext, hlater⟩ := hrest.mp fun early late hsplit => h (step :: early) late (by simp [hsplit])
      exact ⟨hlapsing, (hstep hlapsing).mp hnext, hlater⟩
    · rintro ⟨hlapsing, htimely, hlater⟩ early late hsplit
      cases early with
      | nil => exact hlapsing
      | cons first early =>
        obtain ⟨rfl, htail⟩ := List.cons.inj hsplit
        exact hrest.mpr ⟨(hstep hlapsing).mpr htimely, hlater⟩ early late htail

variable (nodeId) in
/-- What a transport failure makes of the routes and of the peer's record. -/
theorem act_transportError {peerInfo : PeerInfo} {p : PeerRecord} (hp : state.peerAt peerInfo.name = some p)
    (t : Int) :
    (∀ k, (act nodeId state (t, .internalProtocolClose peerInfo CloseCodes.transportError)).view k =
      (state.view k).map (markStale peerInfo.name)) ∧
    (act nodeId state (t, .internalProtocolClose peerInfo CloseCodes.transportError)).peerAt peerInfo.name =
      some { p with connectionStatus := .closed } := by
  constructor
  · intro k
    have hknown : state.peers.any (hasName peerInfo.name) = true := by simp [RouteTable.any_hasName, hp]
    simp only [act, plan, planInternalProtocolClose, hknown, if_true]
    exact installedAt_markStale state.internalRoutes peerInfo.name k
  · unfold act
    rw [plan_peerAt, hp]
    simp [peerAfter, namedPeer, touchPeer]

/-- A route that a transport failure at `t` marks stale, and that is not
    advertised again, is gone after every Tick past the hold time, wherever the
    run has got to, exactly when the peer had been heard at the failure and
    everything heard from it later is timely. -/
theorem stale_purged_iff {before after : List (Int × Action)} {t : Int} {peerInfo : PeerInfo} {r : InternalRoute}
    {p : PeerRecord}
    (hclock : ClockOrdered (before ++ (t, .internalProtocolClose peerInfo CloseCodes.transportError) :: after))
    (hr : (run nodeId newRouteTable before).view k = some r) (hpeer : r.peer.name = peerInfo.name)
    (hp : (run nodeId newRouteTable before).peerAt peerInfo.name = some p) (hhold : 0 < p.holdTime)
    (hadds : ∀ step ∈ after, NoAdd k step.2) :
    let failed := act nodeId (run nodeId newRouteTable before)
      (t, .internalProtocolClose peerInfo CloseCodes.transportError)
    (∀ early late, after = early ++ late → ∀ clock now, t + p.holdTime < now →
        (act nodeId (run nodeId failed early) (clock, .tick now)).view k = none) ↔
      0 < p.lastReceived ∧ EachStep nodeId (Timely k peerInfo.name (t + p.holdTime)) failed after := by
  intro failed
  have hformed : (run nodeId newRouteTable before).WellFormed nodeId := run_wellFormed newRouteTable_wellFormed before
  have hformed' : failed.WellFormed nodeId := act_wellFormed hformed _
  obtain ⟨hview, hat⟩ := act_transportError nodeId hp t
  have hleft : LeftOver k peerInfo.name failed := by
    intro r' hr'
    rw [Option.mem_def, hview, hr, Option.map_some] at hr'
    obtain rfl := Option.some.inj hr'
    exact ⟨by simp [markStale, hpeer], by simp [markStale, hpeer], _, hat, by simp⟩
  obtain ⟨-, -, hbefore⟩ := List.pairwise_append.mp hclock
  have hpast (step : Int × Action) (hstep : step ∈ before) : step.1 ≤ t := hbefore step hstep _ List.mem_cons_self
  have hheard : p.lastReceived ≤ max 0 t := reachable_heardBy hpast (RouteTable.mem_of_peerAt hp)
  have hlapsing : Lapsing k peerInfo.name (t + p.holdTime) failed ↔ 0 < p.lastReceived := by
    have hsome : failed.view k ≠ none := by simp [failed, hview, hr]
    simp only [Lapsing, hsome, false_or, failed, hat, Option.mem_def, Option.some.injEq, forall_eq', LapsesBy]
    constructor
    · exact fun h => h.2.1
    · exact fun h => ⟨hhold, h, by omega⟩
  rw [← hlapsing, ← run_lapsing_iff hadds hformed' hleft]
  refine forall_congr' fun early => forall_congr' fun late => forall_congr' fun hsplit => ?_
  refine tick_purges_iff (run_wellFormed hformed' early) (run_leftOver hformed' hleft fun step hstep => ?_)
  exact hadds step (by simp [hsplit, hstep])

/-- `node-a` learns `books` from its peer `node-b`. -/
def booksFrom : List (Int × Action) :=
  [(1, .localPeerCreate { name := "node-b" }), (1, .internalProtocolConnected { name := "node-b" }),
    (1, booksUpdate ["node-b", "node-d"])]

/-- The session fails, and `node-b` opens one with a short hold time. -/
theorem stale_purged_iff_books :
    let failed := act "node-a" (run "node-a" newRouteTable booksFrom)
      (1, .internalProtocolClose { name := "node-b" } CloseCodes.transportError)
    ∀ early late, [(2, Action.internalProtocolOpen { name := "node-b" } (some 1000))] = early ++ late →
      ∀ clock now, 1 + 90000 < now →
        (act "node-a" (run "node-a" failed early) (clock, .tick now)).view ("books", "node-d") = none := by
  intro failed
  have hclock : ClockOrdered (booksFrom ++
      (1, .internalProtocolClose { name := "node-b" } CloseCodes.transportError) ::
        [(2, .internalProtocolOpen { name := "node-b" } (some 1000))]) := by
    unfold ClockOrdered
    decide
  have hr : (run "node-a" newRouteTable booksFrom).view ("books", "node-d") =
      some { name := "books", protocol := .http, peer := { name := "node-b" }, nodePath := ["node-b", "node-d"],
             originNode := "node-d" } := by decide
  have hp : (run "node-a" newRouteTable booksFrom).peerAt "node-b" =
      some { name := "node-b", connectionStatus := .connected, lastConnected := 1, lastReceived := 1 } := by decide
  refine (stale_purged_iff hclock hr rfl hp (by decide) (by simp [NoAdd])).mpr ⟨by decide, fun _ => .inr ?_, trivial⟩
  intro p hfailed
  obtain rfl := Option.some.inj hfailed
  decide

/-- One keepalive of the closed session, and the Tick after the grace period
    leaves the stale route in place. -/
theorem stale_outlives :
    ∃ r ∈ (run "node-a" newRouteTable (booksFrom ++
      [(1, .internalProtocolClose { name := "node-b" } CloseCodes.transportError),
        (90001, .internalProtocolKeepalive { name := "node-b" }), (90002, .tick 90002)])).view ("books", "node-d"),
      r.isStale = true ∧ r.peer.name = "node-b" := by
  decide

end Rib

end CatalystRouter
