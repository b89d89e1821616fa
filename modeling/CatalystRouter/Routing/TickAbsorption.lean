import CatalystRouter.Routing.HoldTimer

namespace CatalystRouter

namespace Rib

variable {now early late : Int} {state : RouteTable} {p : PeerRecord}

/-- A peer whose routes a Tick at `now` removes: past the hold time, and connected,
    or closed with a stale route left. -/
def Lapsed (now : Int) (state : RouteTable) (p : PeerRecord) : Prop :=
  (0 < p.holdTime ∧ 0 < p.lastReceived ∧ p.holdTime < now - p.lastReceived) ∧
    (p.connectionStatus = .connected ∨
      p.connectionStatus = .closed ∧ ∃ r ∈ state.internalRoutes, r.peer.name = p.name ∧ r.isStale = true)

instance Lapsed.decidable : Decidable (Lapsed now state p) := by
  unfold Lapsed
  infer_instance

theorem hasStaleRoutes_iff {routes : List InternalRoute} {name : String} :
    hasStaleRoutes routes name = true ↔ ∃ r ∈ routes, r.peer.name = name ∧ r.isStale = true := by
  simp [hasStaleRoutes]

theorem mem_purgedPeerNames_iff_lapsed {name : String} :
    name ∈ purgedPeerNames now state ↔ ∃ p ∈ state.peers, p.name = name ∧ Lapsed now state p := by
  rw [mem_purgedPeerNames_iff]
  refine exists_congr fun p => and_congr_right fun _ => and_congr_right fun hname => ?_
  subst hname
  rw [holdElapsed_iff, hasStaleRoutes_iff, Lapsed]

/-- Whether or not it purges anyone, a Tick closes the peers past their hold time. -/
theorem plan_tick_peers (nodeId : String) (now tickNow : Int) (state : RouteTable) :
    (plan nodeId now (.tick tickNow) state).newState.peers = state.peers.map (expirePeer tickNow) := by
  simp only [plan, planTick]
  split
  · rename_i hnone
    have hkept : ∀ p ∈ state.peers, expirePeer tickNow p = p := fun p hp => expirePeer_of_unpurged hp (by simp [hnone])
    exact ((List.map_congr_left hkept).trans (List.map_id _)).symm
  · rfl

theorem plan_tick_localRoutes (nodeId : String) (now tickNow : Int) (state : RouteTable) :
    (plan nodeId now (.tick tickNow) state).newState.localRoutes = state.localRoutes := by
  simp only [plan, planTick]
  split <;> rfl

theorem expirePeer_eq (now : Int) (p : PeerRecord) :
    expirePeer now p =
      if p.connectionStatus = .connected ∧ 0 < p.holdTime ∧ 0 < p.lastReceived ∧ p.holdTime < now - p.lastReceived then
        { p with connectionStatus := .closed }
      else p := by
  simp only [expirePeer, expired, Bool.and_eq_true, beq_iff_eq, holdElapsed_iff]

/-- The hold time, once over, stays over. -/
theorem holdElapsed_mono (hle : early ≤ late) (h : holdElapsed early p = true) : holdElapsed late p = true := by
  obtain ⟨hhold, hheard, hover⟩ := holdElapsed_iff.mp h
  exact holdElapsed_iff.mpr ⟨hhold, hheard, by omega⟩

/-- Closing at an early Tick and then at a late one is closing at the late one. -/
theorem expirePeer_expirePeer (hle : early ≤ late) (p : PeerRecord) :
    expirePeer late (expirePeer early p) = expirePeer late p := by
  cases hexpired : expired early p with
  | false => simp [expirePeer, hexpired]
  | true =>
    obtain ⟨hconnected, helapsed⟩ : p.connectionStatus = .connected ∧ holdElapsed early p = true := by
      simpa [expired] using hexpired
    have hlate : expired late p = true := by simp [expired, hconnected, holdElapsed_mono hle helapsed]
    have hclosed : expirePeer early p = { p with connectionStatus := .closed } := by simp only [expirePeer, if_pos hexpired]
    rw [hclosed]
    simp only [expirePeer, if_pos hlate]
    simp [expired]

/-- After an early Tick, a name that it has not purged is purged by a late one
    exactly when it would have been without it. -/
theorem mem_purgedPeerNames_tick (nodeId : String) (now late : Int) {name : String}
    (hkept : name ∉ purgedPeerNames early state) :
    name ∈ purgedPeerNames late (plan nodeId now (.tick early) state).newState ↔ name ∈ purgedPeerNames late state := by
  have hroutes : hasStaleRoutes (plan nodeId now (.tick early) state).newState.internalRoutes name =
      hasStaleRoutes state.internalRoutes name := by
    rw [Bool.eq_iff_iff, hasStaleRoutes_iff, hasStaleRoutes_iff, plan_tick_routes]
    constructor
    · rintro ⟨r, hr, hstale⟩
      exact ⟨r, (List.mem_filter.mp hr).1, hstale⟩
    · rintro ⟨r, hr, rfl, hstale⟩
      exact ⟨r, List.mem_filter.mpr ⟨hr, by simpa using hkept⟩, rfl, hstale⟩
  rw [mem_purgedPeerNames_iff, mem_purgedPeerNames_iff, plan_tick_peers, hroutes]
  constructor
  · rintro ⟨_, hexpired, hname, hpurged⟩
    obtain ⟨p, hp, rfl⟩ := List.mem_map.mp hexpired
    rw [expirePeer_name] at hname
    rw [expirePeer_of_unpurged hp (hname ▸ hkept)] at hpurged
    exact ⟨p, hp, hname, hpurged⟩
  · rintro ⟨p, hp, hname, hpurged⟩
    have hsame := expirePeer_of_unpurged hp (hname ▸ hkept)
    exact ⟨p, List.mem_map.mpr ⟨p, hp, hsame⟩, hname, hpurged⟩

/-- A Tick leaves no one for another Tick at the same time. -/
theorem purgedPeerNames_tick (nodeId : String) (now tickNow : Int) (state : RouteTable) :
    purgedPeerNames tickNow (plan nodeId now (.tick tickNow) state).newState = [] := by
  rw [List.eq_nil_iff_forall_not_mem]
  intro name hname
  by_cases hpurged : name ∈ purgedPeerNames tickNow state
  · obtain ⟨_, hp, hpname, helapsed, hstatus⟩ := mem_purgedPeerNames_iff.mp hname
    rw [plan_tick_peers] at hp
    obtain ⟨p, hp, rfl⟩ := List.mem_map.mp hp
    rw [holdElapsed_expirePeer] at helapsed
    rcases hstatus with hconnected | ⟨-, hstale⟩
    · have hclosed : ¬ expired tickNow p = true := by
        intro hexpired
        simp [expirePeer, hexpired] at hconnected
      simp only [expirePeer, if_neg hclosed] at hconnected
      exact hclosed (by simp [expired, hconnected, helapsed])
    · obtain ⟨r, hr, hrname, -⟩ := hasStaleRoutes_iff.mp hstale
      rw [plan_tick_routes] at hr
      have hkept := (List.mem_filter.mp hr).2
      simp [hrname, hpurged] at hkept
  · exact hpurged ((mem_purgedPeerNames_tick nodeId now tickNow hpurged).mp hname)

/-- A late Tick finishes what an early one has begun. -/
theorem plan_tick_tick (nodeId : String) (now now' : Int) (hle : early ≤ late) (state : RouteTable) :
    (plan nodeId now' (.tick late) (plan nodeId now (.tick early) state).newState).newState =
      (plan nodeId now' (.tick late) state).newState := by
  refine RouteTable.ext ?_ ?_ ?_
  · rw [plan_tick_localRoutes, plan_tick_localRoutes, plan_tick_localRoutes]
  · rw [plan_tick_peers, plan_tick_peers, plan_tick_peers, List.map_map]
    exact List.map_congr_left fun p _ => expirePeer_expirePeer hle p
  · rw [plan_tick_routes, plan_tick_routes, plan_tick_routes, List.filter_filter]
    refine List.filter_congr fun r _ => ?_
    by_cases hearly : r.peer.name ∈ purgedPeerNames early state
    · have hlate : r.peer.name ∈ purgedPeerNames late state := by
        obtain ⟨p, hp, hname, helapsed, hstatus⟩ := mem_purgedPeerNames_iff.mp hearly
        exact mem_purgedPeerNames_iff.mpr ⟨p, hp, hname, holdElapsed_mono hle helapsed, hstatus⟩
      simp [hearly, hlate]
    · have hlate := mem_purgedPeerNames_tick nodeId now late hearly
      simp [hearly, hlate]

/-- The table that a Tick leaves: the connected peers past their hold time are
    closed, the routes of the lapsed peers are gone, and the rest is as it was. -/
theorem plan_tick_eq (nodeId : String) (now tickNow : Int) (state : RouteTable) :
    (plan nodeId now (.tick tickNow) state).newState =
      { state with
        peers := state.peers.map fun p =>
          if p.connectionStatus = .connected ∧ 0 < p.holdTime ∧ 0 < p.lastReceived ∧
              p.holdTime < tickNow - p.lastReceived then { p with connectionStatus := .closed }
          else p
        internalRoutes := state.internalRoutes.filter fun r =>
          ¬ ∃ p ∈ state.peers, p.name = r.peer.name ∧ Lapsed tickNow state p } := by
  refine RouteTable.ext (plan_tick_localRoutes nodeId now tickNow state) ?_ ?_
  · rw [plan_tick_peers]
    exact List.map_congr_left fun p _ => expirePeer_eq tickNow p
  · rw [plan_tick_routes]
    refine List.filter_congr fun r _ => ?_
    rw [Bool.eq_iff_iff, Bool.not_eq_true', decide_eq_true_iff, ← mem_purgedPeerNames_iff_lapsed]
    simp

/-- A late Tick absorbs an early one, a Tick repeated is a no-op, and a Tick
    closes and removes what has lapsed and nothing else. -/
theorem tick_absorbed (nodeId : String) (now now' : Int) (hle : early ≤ late) (state : RouteTable) :
    (plan nodeId now' (.tick late) (plan nodeId now (.tick early) state).newState).newState =
        (plan nodeId now' (.tick late) state).newState ∧
      (plan nodeId now' (.tick early) (plan nodeId now (.tick early) state).newState).sameReference = true ∧
      (plan nodeId now (.tick early) state).newState =
        { state with
          peers := state.peers.map fun p =>
            if p.connectionStatus = .connected ∧ 0 < p.holdTime ∧ 0 < p.lastReceived ∧
                p.holdTime < early - p.lastReceived then { p with connectionStatus := .closed }
            else p
          internalRoutes := state.internalRoutes.filter fun r =>
            ¬ ∃ p ∈ state.peers, p.name = r.peer.name ∧ Lapsed early state p } := by
  refine ⟨plan_tick_tick nodeId now now' hle state, ?_, plan_tick_eq nodeId now early state⟩
  have hnone := purgedPeerNames_tick nodeId now early state
  simp only [plan, planTick] at hnone ⊢
  rw [if_pos hnone]
  rfl

/-- `node-b` is closed with a stale and a fresh route, `node-c` is connected. -/
def mixedPeers : RouteTable :=
  { localRoutes := []
    peers :=
      [{ name := "node-b", connectionStatus := .closed, holdTime := 1000, lastReceived := 1 },
        { name := "node-c", connectionStatus := .connected, holdTime := 3000, lastReceived := 1 }]
    internalRoutes :=
      [{ name := "books", protocol := .http, peer := { name := "node-b" }, nodePath := ["node-b"],
         originNode := "node-b", isStale := true },
        { name := "films", protocol := .http, peer := { name := "node-b" }, nodePath := ["node-b"],
          originNode := "node-b" },
        { name := "songs", protocol := .http, peer := { name := "node-c" }, nodePath := ["node-c"],
          originNode := "node-c" }] }

/-- The first Tick takes the routes of `node-b`, the second those of `node-c`. -/
theorem tick_absorbed_mixedPeers :
    ((plan "node-a" 2000 (.tick 2000) mixedPeers).newState.internalRoutes.map (·.name)) = ["songs"] ∧
      (plan "node-a" 5000 (.tick 5000) (plan "node-a" 2000 (.tick 2000) mixedPeers).newState).newState =
        (plan "node-a" 5000 (.tick 5000) mixedPeers).newState :=
  ⟨by decide, (tick_absorbed "node-a" 2000 5000 (by decide) mixedPeers).1⟩

end Rib

end CatalystRouter
