import CatalystRouter.Routing.Currency
import CatalystRouter.Routing.Sessions

namespace CatalystRouter

/-- The record of a peer, the one `findIndex` finds. -/
def RouteTable.peerAt (state : RouteTable) (name : String) : Option PeerRecord := state.peers.find? (hasName name)

theorem RouteTable.peerAt_name {state : RouteTable} {name : String} {p : PeerRecord} (h : state.peerAt name = some p) :
    p.name = name := by simpa [hasName] using List.find?_some h

theorem RouteTable.mem_of_peerAt {state : RouteTable} {name : String} {p : PeerRecord}
    (h : state.peerAt name = some p) : p ∈ state.peers := List.mem_of_find?_eq_some h

theorem RouteTable.peerAt_eq_none_iff {state : RouteTable} {name : String} :
    state.peerAt name = none ↔ ∀ p ∈ state.peers, p.name ≠ name := by
  simp [peerAt, hasName]

theorem RouteTable.any_hasName {state : RouteTable} {name : String} :
    state.peers.any (hasName name) = (state.peerAt name).isSome := by
  rw [Bool.eq_iff_iff, List.any_eq_true, peerAt, List.find?_isSome]

/-- With peers named apart, the record of a peer is the one member of its name. -/
theorem RouteTable.peerAt_eq_some_iff {state : RouteTable} (hnames : (state.peers.map (·.name)).Nodup) {name : String}
    {p : PeerRecord} : state.peerAt name = some p ↔ p ∈ state.peers ∧ p.name = name := by
  constructor
  · exact fun h => ⟨mem_of_peerAt h, peerAt_name h⟩
  · rintro ⟨hmem, rfl⟩
    cases hfound : state.peerAt p.name with
    | none => exact absurd rfl (peerAt_eq_none_iff.mp hfound p hmem)
    | some other => rw [List.inj_on_of_nodup_map hnames (mem_of_peerAt hfound) hmem (peerAt_name hfound)]

namespace Rib

/-- What one action makes of the record of a peer that it names. -/
def touchPeer (now : Int) (action : Action) (p : PeerRecord) : PeerRecord :=
  match action with
  | .localPeerUpdate data => mergePeerInfo p data
  | .internalProtocolOpen _ holdTime =>
    { p with
      connectionStatus := .connected
      holdTime := match holdTime with
        | some offered => min p.holdTime offered
        | none => p.holdTime
      lastReceived := now }
  | .internalProtocolConnected _ =>
    { p with
      connectionStatus := .connected
      lastConnected := now
      lastReceived := now
      holdTime := 90000
      lastSent := 0 }
  | .internalProtocolClose _ _ => { p with connectionStatus := .closed }
  | .internalProtocolUpdate _ _ => { p with lastReceived := now }
  | .internalProtocolKeepalive _ => { p with lastReceived := now }
  | _ => p

/-- The peer whose record an action names. -/
def namedPeer : Action → Option String
  | .localPeerUpdate data => some data.name
  | .internalProtocolOpen peerInfo _ => some peerInfo.name
  | .internalProtocolConnected peerInfo => some peerInfo.name
  | .internalProtocolClose peerInfo _ => some peerInfo.name
  | .internalProtocolUpdate peerInfo _ => some peerInfo.name
  | .internalProtocolKeepalive peerInfo => some peerInfo.name
  | _ => none

def newPeer (data : PeerInfo) : PeerRecord :=
  { data with
    connectionStatus := .initializing
    lastConnected := 0
    holdTime := 90000
    lastSent := 0
    lastReceived := 0 }

/-- What one action leaves of a peer's record. -/
def peerAfter (now : Int) (action : Action) (name : String) (installed : Option PeerRecord) : Option PeerRecord :=
  match action with
  | .localPeerCreate data => installed <|> if data.name = name then some (newPeer data) else none
  | .localPeerDelete deleted => if deleted = name then none else installed
  | .tick tickNow => installed.map (expirePeer tickNow)
  | action => if namedPeer action = some name then installed.map (touchPeer now action) else installed

theorem find?_updatePeer {named : String} {f : PeerRecord → PeerRecord}
    (hname : ∀ p : PeerRecord, p.name = named → (f p).name = named) (state : RouteTable) (name : String) :
    (state.updatePeer named f).find? (hasName name) =
      if named = name then (state.peerAt name).map f else state.peerAt name := by
  unfold RouteTable.updatePeer RouteTable.peerAt
  split
  · rename_i heq
    subst heq
    exact List.find?_modifyFirst (fun p hp => by simpa [hasName] using hname p (by simpa [hasName] using hp)) _
  · rename_i hne
    refine List.find?_modifyFirst_of_disjoint (fun p hp => ?_) _
    have hp : p.name = named := by simpa [hasName] using hp
    simp [hasName, hp, hname p hp, hne]

/-- A handler that rewrites the record of a known peer. -/
theorem peerAt_touched (touch : PeerRecord → PeerRecord) {state : RouteTable} {named : String}
    {existing : PeerRecord} (hfound : state.peers.find? (hasName named) = some existing)
    (hname : (touch existing).name = named) (name : String) :
    (state.updatePeer named fun _ => touch existing).find? (hasName name) =
      if named = name then (state.peerAt name).map touch else state.peerAt name := by
  rw [find?_updatePeer fun _ _ => hname]
  split
  · rename_i heq
    subst heq
    unfold RouteTable.peerAt
    rw [hfound, Option.map_some, Option.map_some]
  · rfl

/-- A handler that does not know the peer. -/
theorem peerAt_unknown {touch : PeerRecord → PeerRecord} {state : RouteTable} {named : String}
    (hunknown : state.peerAt named = none) (name : String) :
    state.peerAt name = if named = name then (state.peerAt name).map touch else state.peerAt name := by
  split
  · rename_i heq
    subst heq
    rw [hunknown, Option.map_none]
  · rfl

@[simp] theorem expirePeer_name (now : Int) (p : PeerRecord) : (expirePeer now p).name = p.name := by
  unfold expirePeer
  split <;> rfl

@[simp] theorem holdElapsed_expirePeer (now : Int) (p : PeerRecord) :
    holdElapsed now (expirePeer now p) = holdElapsed now p := by
  unfold expirePeer
  split <;> rfl

theorem expirePeer_closed_iff {now : Int} {p : PeerRecord} (helapsed : holdElapsed now p = true) :
    (expirePeer now p).connectionStatus = .closed ↔
      p.connectionStatus = .connected ∨ p.connectionStatus = .closed := by
  unfold expirePeer expired
  by_cases hconnected : p.connectionStatus = .connected
  · simp [hconnected, helapsed]
  · simp [hconnected]

/-- A Tick withdraws the routes of the peers past their hold time, the connected
    ones and the closed ones with stale routes left. -/
theorem mem_purgedPeerNames_iff {now : Int} {state : RouteTable} {name : String} :
    name ∈ purgedPeerNames now state ↔ ∃ p ∈ state.peers, p.name = name ∧ holdElapsed now p = true ∧
      (p.connectionStatus = .connected ∨
        p.connectionStatus = .closed ∧ hasStaleRoutes state.internalRoutes name = true) := by
  simp only [purgedPeerNames, List.mem_append, List.mem_map, List.mem_filter, expired, Bool.and_eq_true, beq_iff_eq]
  constructor
  · rintro (⟨p, ⟨hp, hconnected, helapsed⟩, rfl⟩ | ⟨-, ⟨⟨p, hp, rfl⟩, ⟨hclosed, helapsed⟩, hstale⟩, rfl⟩)
    · exact ⟨p, hp, rfl, helapsed, .inl hconnected⟩
    · rw [holdElapsed_expirePeer] at helapsed
      rw [expirePeer_name] at hstale ⊢
      have hstatus := (expirePeer_closed_iff helapsed).mp hclosed
      exact ⟨p, hp, rfl, helapsed, hstatus.imp_right fun h => ⟨h, hstale⟩⟩
  · rintro ⟨p, hp, rfl, helapsed, hconnected | ⟨hstatus, hstale⟩⟩
    · exact .inl ⟨p, ⟨hp, hconnected, helapsed⟩, rfl⟩
    · have hclosed := (expirePeer_closed_iff helapsed).mpr (.inr hstatus)
      refine .inr ⟨expirePeer now p, ⟨⟨p, hp, rfl⟩, ⟨hclosed, ?_⟩, ?_⟩, expirePeer_name now p⟩
      · rwa [holdElapsed_expirePeer]
      · rwa [expirePeer_name]

/-- A Tick that purges someone ends a session or withdraws a route. -/
theorem tick_changes (nodeId : String) (now : Int) {tickNow : Int} {state : RouteTable}
    (hpurged : purgedPeerNames tickNow state ≠ []) :
    ¬ ((plan nodeId now (.tick tickNow) state).newState.peers.map (·.connectionStatus) =
        state.peers.map (·.connectionStatus) ∧
      (plan nodeId now (.tick tickNow) state).newState.internalRoutes.length = state.internalRoutes.length) := by
  rintro ⟨hstatuses, hlength⟩
  have hpeers : (plan nodeId now (.tick tickNow) state).newState.peers = state.peers.map (expirePeer tickNow) := by
    simp only [plan, planTick, if_neg hpurged]
  rw [plan_tick_routes] at hlength
  rw [hpeers, List.map_map] at hstatuses
  obtain ⟨name, hname⟩ := List.exists_mem_of_ne_nil _ hpurged
  obtain ⟨p, hp, rfl, helapsed, hconnected | ⟨-, hstale⟩⟩ := mem_purgedPeerNames_iff.mp hname
  · have hstatus := List.map_inj_left.mp hstatuses p hp
    simp [expirePeer, expired, hconnected, helapsed] at hstatus
  · obtain ⟨r, hr, hpeer⟩ := List.any_eq_true.mp hstale
    have hkept := List.length_filter_eq_length_iff.mp hlength r hr
    have hrname : r.peer.name = p.name := by
      have := (Bool.and_eq_true_iff.mp hpeer).1
      simpa using this
    simp [hrname, hname] at hkept

/-- A Tick leaves the record of a peer that it does not purge. -/
theorem expirePeer_of_unpurged {now : Int} {state : RouteTable} {p : PeerRecord} (hp : p ∈ state.peers)
    (hkept : p.name ∉ purgedPeerNames now state) : expirePeer now p = p := by
  have hexpired : expired now p = false := by
    by_contra hexpired
    obtain ⟨hconnected, helapsed⟩ : p.connectionStatus = .connected ∧ holdElapsed now p = true := by
      simpa [expired] using hexpired
    exact hkept (mem_purgedPeerNames_iff.mpr ⟨p, hp, rfl, helapsed, .inl hconnected⟩)
  simp [expirePeer, hexpired]

/-- The record of every peer after any action. -/
theorem plan_peerAt (nodeId : String) (now : Int) (action : Action) (state : RouteTable) (name : String) :
    (plan nodeId now action state).newState.peerAt name = peerAfter now action name (state.peerAt name) := by
  cases action with
  | localPeerCreate data =>
    simp only [plan, planLocalPeerCreate, peerAfter]
    split
    · rename_i hknown
      rw [RouteTable.any_hasName] at hknown
      cases hinstalled : state.peerAt name with
      | some p => simpa [noChange] using hinstalled
      | none =>
        have hother : data.name ≠ name := by
          rintro rfl
          simp [hinstalled] at hknown
        simpa [noChange, hother] using hinstalled
    · have happend : RouteTable.peerAt { state with peers := state.peers ++ [newPeer data] } name =
          (state.peerAt name).or ([newPeer data].find? (hasName name)) := List.find?_append
      refine happend.trans ?_
      cases state.peerAt name with
      | some p => rfl
      | none => by_cases hname : data.name = name <;> simp [hasName, newPeer, hname]
  | localPeerUpdate data =>
    simp only [plan, planLocalPeerUpdate, peerAfter, namedPeer, Option.some.injEq]
    split
    · rename_i hnone
      exact peerAt_unknown hnone name
    · rename_i existing hfound
      exact peerAt_touched (touchPeer now (.localPeerUpdate data)) hfound rfl name
  | localPeerDelete deleted =>
    have hfilter : (state.peers.filter fun p => p.name != deleted).find? (hasName name) =
        if deleted = name then none else state.peerAt name := by
      rw [List.find?_filter]
      split
      · rename_i heq
        subst heq
        simp [hasName]
      · rename_i hne
        refine List.find?_congr fun p _ => ?_
        by_cases hname : p.name = name
        · simp [hasName, hname, Ne.symm hne]
        · simp [hasName, hname]
    simp only [plan, planLocalPeerDelete, peerAfter]
    split
    · rename_i hsame
      rw [List.filter_eq_self.mpr (List.length_filter_eq_length_iff.mp hsame)] at hfilter
      exact hfilter
    · exact hfilter
  | localRouteCreate data =>
    simp only [plan, planLocalRouteCreate, peerAfter, namedPeer]
    split <;> rfl
  | localRouteDelete deleted =>
    simp only [plan, planLocalRouteDelete, peerAfter, namedPeer]
    split <;> rfl
  | localRouteHealthUpdate data =>
    simp only [plan, planLocalRouteHealthUpdate, peerAfter, namedPeer]
    split
    · rfl
    · split <;> rfl
  | internalProtocolOpen peerInfo holdTime =>
    simp only [plan, planInternalProtocolOpen, peerAfter, namedPeer, Option.some.injEq]
    split
    · rename_i hnone
      exact peerAt_unknown hnone name
    · rename_i existing hfound
      have hname : existing.name = peerInfo.name := RouteTable.peerAt_name hfound
      exact peerAt_touched (touchPeer now (.internalProtocolOpen peerInfo holdTime)) hfound hname name
  | internalProtocolConnected peerInfo =>
    simp only [plan, planInternalProtocolConnected, peerAfter, namedPeer, Option.some.injEq]
    split
    · rename_i hnone
      exact peerAt_unknown hnone name
    · rename_i existing hfound
      have hname : existing.name = peerInfo.name := RouteTable.peerAt_name hfound
      exact peerAt_touched (touchPeer now (.internalProtocolConnected peerInfo)) hfound hname name
  | internalProtocolClose peerInfo code =>
    have hname (p : PeerRecord) (hp : p.name = peerInfo.name) :
        (touchPeer now (.internalProtocolClose peerInfo code) p).name = peerInfo.name := hp
    have hupdate := find?_updatePeer hname state name
    simp only [plan, planInternalProtocolClose, peerAfter, namedPeer, Option.some.injEq]
    split
    · split <;> exact hupdate
    · rename_i hunknown
      have hnone : state.peerAt peerInfo.name = none := by simpa [RouteTable.any_hasName] using hunknown
      exact peerAt_unknown hnone name
  | internalProtocolUpdate peerInfo updates =>
    have hname (p : PeerRecord) (hp : p.name = peerInfo.name) :
        (touchPeer now (.internalProtocolUpdate peerInfo updates) p).name = peerInfo.name := hp
    have hupdate := find?_updatePeer hname state name
    simp only [plan, planInternalProtocolUpdate, peerAfter, namedPeer, Option.some.injEq]
    split
    · rename_i hquiet
      have hnone : state.peerAt peerInfo.name = none := by simpa [RouteTable.any_hasName] using hquiet.2
      exact peerAt_unknown hnone name
    · exact hupdate
  | internalProtocolKeepalive peerInfo =>
    have hname (p : PeerRecord) (hp : p.name = peerInfo.name) :
        (touchPeer now (.internalProtocolKeepalive peerInfo) p).name = peerInfo.name := hp
    have hupdate := find?_updatePeer hname state name
    simp only [plan, planInternalProtocolKeepalive, peerAfter, namedPeer, Option.some.injEq]
    split
    · exact hupdate
    · rename_i hunknown
      have hnone : state.peerAt peerInfo.name = none := by simpa [RouteTable.any_hasName] using hunknown
      exact peerAt_unknown hnone name
  | tick tickNow =>
    have hmap : (state.peers.map (expirePeer tickNow)).find? (hasName name) =
        (state.peerAt name).map (expirePeer tickNow) := by
      rw [List.find?_map]
      congr 2
      funext p
      simp [hasName]
    simp only [plan, planTick, peerAfter]
    split
    · rename_i hnone
      have hkept : state.peers.map (expirePeer tickNow) = state.peers :=
        (List.map_congr_left fun p hp => expirePeer_of_unpurged hp (by simp [hnone])).trans (List.map_id _)
      rw [hkept] at hmap
      exact hmap
    · exact hmap

/-- Only its creation puts the record of a peer in place. -/
theorem peerAfter_none {now : Int} {action : Action} {name : String} {p' : PeerRecord}
    (hp' : peerAfter now action name none = some p') : ∃ data, action = .localPeerCreate data ∧ p' = newPeer data := by
  cases action with
  | localPeerCreate data =>
    simp only [peerAfter, Option.orElse_eq_orElse, Option.orElse_none] at hp'
    split at hp'
    · exact ⟨data, rfl, (Option.some.inj hp').symm⟩
    · cases hp'
  | _ => simp [peerAfter] at hp'

/-- Only its deletion takes the record of a peer away. -/
theorem peerAfter_ne_none (now : Int) {action : Action} {name : String} (hkept : action ≠ .localPeerDelete name)
    (p : PeerRecord) : ∃ p', peerAfter now action name (some p) = some p' := by
  cases action with
  | localPeerDelete deleted =>
    have hother : deleted ≠ name := fun heq => hkept (by rw [heq])
    simp [peerAfter, hother]
  | _ => simp only [peerAfter]; first | exact ⟨_, rfl⟩ | (split <;> exact ⟨_, rfl⟩)

/-- A connected peer whose session the action does not end stays connected. -/
theorem plan_peerAt_connected (nodeId : String) (now : Int) {action : Action} {state : RouteTable} {name : String}
    {p : PeerRecord} (hp : state.peerAt name = some p) (hconnected : p.connectionStatus = .connected)
    (hopen : name ∉ endedSessions state action) :
    ∃ p', (plan nodeId now action state).newState.peerAt name = some p' ∧ p'.connectionStatus = .connected := by
  have hknown : state.peers.any (hasName name) = true := by simp [RouteTable.any_hasName, hp]
  rw [plan_peerAt, hp]
  cases action with
  | localPeerDelete deleted =>
    have hother : deleted ≠ name := fun heq => hopen (by simp [endedSessions, heq, hknown])
    exact ⟨p, by simp [peerAfter, hother], hconnected⟩
  | internalProtocolClose peerInfo code =>
    have hother : peerInfo.name ≠ name := fun heq => hopen (by simp [endedSessions, heq, hknown])
    exact ⟨p, by simp [peerAfter, namedPeer, hother], hconnected⟩
  | tick tickNow =>
    have hname := RouteTable.peerAt_name hp
    have hsame := expirePeer_of_unpurged (RouteTable.mem_of_peerAt hp) (hname ▸ hopen)
    exact ⟨p, by simp [peerAfter, hsame], hconnected⟩
  | localPeerCreate | localRouteCreate | localRouteDelete | localRouteHealthUpdate => exact ⟨p, rfl, hconnected⟩
  | internalProtocolOpen | internalProtocolConnected =>
    simp only [peerAfter]
    split
    · exact ⟨_, rfl, rfl⟩
    · exact ⟨p, rfl, hconnected⟩
  | localPeerUpdate | internalProtocolUpdate | internalProtocolKeepalive =>
    simp only [peerAfter]
    split
    · exact ⟨_, rfl, hconnected⟩
    · exact ⟨p, rfl, hconnected⟩

/-- The deletion of a peer takes its routes along. -/
theorem plan_deleted {nodeId : String} {now : Int} {name : String} {state : RouteTable} {r : InternalRoute}
    (hknown : ∃ p ∈ state.peers, p.name = name)
    (hr : r ∈ (plan nodeId now (.localPeerDelete name) state).newState.internalRoutes) : r.peer.name ≠ name := by
  obtain ⟨p, hp, hname⟩ := hknown
  have hfewer : (state.peers.filter fun p => p.name != name).length ≠ state.peers.length := by
    intro hlen
    simpa [hname] using List.length_filter_eq_length_iff.mp hlen p hp
  simp only [plan, planLocalPeerDelete, if_neg hfewer] at hr
  simpa using (List.mem_filter.mp hr).2

end Rib

end CatalystRouter
