import CatalystRouter.Routing.Plan

namespace CatalystRouter

/-- The peers by name, with the state of their sessions. -/
def RouteTable.sessions (state : RouteTable) : List (String × PeerConnectionStatus) :=
  state.peers.map fun p => (p.name, p.connectionStatus)

def RouteTable.AllConnected (state : RouteTable) : Prop :=
  ∀ p ∈ state.peers, p.connectionStatus = .connected

/-- Actions that neither add nor drop a session: everything but the creation
    and deletion of peers, closes, and Ticks that expire or purge someone. -/
def Action.KeepsSessions (state : RouteTable) : Action → Prop
  | .localPeerCreate _ => False
  | .localPeerDelete _ => False
  | .internalProtocolClose _ _ => False
  | .tick now => Rib.purgedPeerNames now state = []
  | _ => True

namespace Rib

theorem sessions_updatePeer {state : RouteTable} {name : String} {f : PeerRecord → PeerRecord}
    (hname : ∀ p ∈ state.peers, p.name = name → (f p).name = name)
    (hstatus : ∀ p ∈ state.peers, p.name = name → (f p).connectionStatus = p.connectionStatus) :
    RouteTable.sessions { state with peers := state.updatePeer name f } = state.sessions := by
  unfold RouteTable.sessions RouteTable.updatePeer
  refine List.map_modifyFirst fun p hp hmatch => ?_
  have hpname : p.name = name := by simpa [hasName] using hmatch
  rw [hname p hp hpname, hstatus p hp hpname, hpname]

theorem plan_sessions (nodeId : String) (now : Int) {action : Action} {state : RouteTable}
    (hkeeps : action.KeepsSessions state) (hconnected : state.AllConnected) :
    (plan nodeId now action state).newState.sessions = state.sessions := by
  cases action with
  | localPeerCreate | localPeerDelete | internalProtocolClose => exact hkeeps.elim
  | localPeerUpdate data =>
    simp only [plan, planLocalPeerUpdate]
    split
    · rfl
    · rename_i existing hfound
      have hmem := hconnected existing (List.mem_of_find?_eq_some hfound)
      refine sessions_updatePeer (fun p hp hname => rfl) fun p hp hname => ?_
      exact hmem.trans (hconnected p hp).symm
  | localRouteCreate data =>
    simp only [plan, planLocalRouteCreate]
    split <;> rfl
  | localRouteDelete name =>
    simp only [plan, planLocalRouteDelete]
    split <;> rfl
  | localRouteHealthUpdate data =>
    simp only [plan, planLocalRouteHealthUpdate]
    split
    · rfl
    · split <;> rfl
  | internalProtocolOpen peerInfo holdTime =>
    simp only [plan, planInternalProtocolOpen]
    split
    · rfl
    · rename_i existing hfound
      have hname : existing.name = peerInfo.name := by simpa [hasName] using List.find?_some hfound
      exact sessions_updatePeer (fun p hp _ => hname) fun p hp _ => (hconnected p hp).symm
  | internalProtocolConnected peerInfo =>
    simp only [plan, planInternalProtocolConnected]
    split
    · rfl
    · rename_i existing hfound
      have hname : existing.name = peerInfo.name := by simpa [hasName] using List.find?_some hfound
      exact sessions_updatePeer (fun p hp _ => hname) fun p hp _ => (hconnected p hp).symm
  | internalProtocolUpdate peerInfo updates =>
    simp only [plan, planInternalProtocolUpdate]
    split
    · rfl
    · exact sessions_updatePeer (fun p _ hname => hname) fun p _ _ => rfl
  | internalProtocolKeepalive peerInfo =>
    simp only [plan, planInternalProtocolKeepalive]
    split
    · exact sessions_updatePeer (fun p _ hname => hname) fun p _ _ => rfl
    · rfl
  | tick tickNow =>
    have hnone : purgedPeerNames tickNow state = [] := hkeeps
    simp [plan, planTick, hnone, noChange]

theorem allConnected_of_sessions {state state' : RouteTable} (h : state'.sessions = state.sessions)
    (hconnected : state.AllConnected) : state'.AllConnected := by
  intro p hp
  have hmem : (p.name, p.connectionStatus) ∈ state'.sessions := List.mem_map.mpr ⟨p, hp, rfl⟩
  rw [h] at hmem
  obtain ⟨q, hq, heq⟩ := List.mem_map.mp hmem
  exact (congrArg Prod.snd heq).symm.trans (hconnected q hq)

/-- Tables with the same sessions have connected peers of the same names. -/
theorem exists_peer_of_sessions {state state' : RouteTable} (h : state'.sessions = state.sessions)
    {p : PeerRecord} (hp : p ∈ state.peers) :
    ∃ q ∈ state'.peers, q.name = p.name ∧ q.connectionStatus = p.connectionStatus := by
  have hmem : (p.name, p.connectionStatus) ∈ state.sessions := List.mem_map.mpr ⟨p, hp, rfl⟩
  rw [← h] at hmem
  obtain ⟨q, hq, heq⟩ := List.mem_map.mp hmem
  exact ⟨q, hq, congrArg Prod.fst heq, congrArg Prod.snd heq⟩

theorem names_updatePeer {state : RouteTable} {name : String} {f : PeerRecord → PeerRecord}
    (hname : ∀ p ∈ state.peers, p.name = name → (f p).name = name) (h : (state.peers.map (·.name)).Nodup) :
    ((state.updatePeer name f).map (·.name)).Nodup := by
  have hsame : (state.updatePeer name f).map (·.name) = state.peers.map (·.name) := by
    refine List.map_modifyFirst fun p hp hmatch => ?_
    have hpname : p.name = name := by simpa [hasName] using hmatch
    exact (hname p hp hpname).trans hpname.symm
  rwa [hsame]

/-- Peers stay named apart. -/
theorem plan_peerNames (nodeId : String) (now : Int) (action : Action) {state : RouteTable}
    (h : (state.peers.map (·.name)).Nodup) : ((plan nodeId now action state).newState.peers.map (·.name)).Nodup := by
  have hfound {name : String} {existing : PeerRecord} (h : state.peers.find? (hasName name) = some existing) :
      existing.name = name := by simpa [hasName] using List.find?_some h
  cases action with
  | localPeerCreate data =>
    simp only [plan, planLocalPeerCreate]
    split
    · exact h
    · rename_i hnew
      rw [List.map_append, List.nodup_append]
      refine ⟨h, by simp, fun a ha b hb => ?_⟩
      obtain ⟨p, hp, rfl⟩ := List.mem_map.mp ha
      obtain rfl : b = data.name := by simpa using hb
      have hother := (List.any_eq_false.mp (by simpa using hnew)) p hp
      simpa [hasName] using hother
  | localPeerUpdate data =>
    simp only [plan, planLocalPeerUpdate]
    split
    · exact h
    · exact names_updatePeer (fun p _ _ => rfl) h
  | localPeerDelete name =>
    simp only [plan, planLocalPeerDelete]
    split
    · exact h
    · exact h.sublist (List.filter_sublist.map _)
  | localRouteCreate data =>
    simp only [plan, planLocalRouteCreate]
    split <;> exact h
  | localRouteDelete name =>
    simp only [plan, planLocalRouteDelete]
    split <;> exact h
  | localRouteHealthUpdate data =>
    simp only [plan, planLocalRouteHealthUpdate]
    split
    · exact h
    · split <;> exact h
  | internalProtocolOpen peerInfo holdTime =>
    simp only [plan, planInternalProtocolOpen]
    split
    · exact h
    · rename_i existing hexisting
      have hname := hfound hexisting
      exact names_updatePeer (fun p _ _ => hname) h
  | internalProtocolConnected peerInfo =>
    simp only [plan, planInternalProtocolConnected]
    split
    · exact h
    · rename_i existing hexisting
      have hname := hfound hexisting
      exact names_updatePeer (fun p _ _ => hname) h
  | internalProtocolClose peerInfo code =>
    simp only [plan, planInternalProtocolClose]
    split
    · split
      · exact names_updatePeer (fun p _ hname => hname) h
      · exact names_updatePeer (fun p _ hname => hname) h
    · exact h
  | internalProtocolUpdate peerInfo updates =>
    simp only [plan, planInternalProtocolUpdate]
    split
    · exact h
    · exact names_updatePeer (fun p _ hname => hname) h
  | internalProtocolKeepalive peerInfo =>
    simp only [plan, planInternalProtocolKeepalive]
    split
    · exact names_updatePeer (fun p _ hname => hname) h
    · exact h
  | tick tickNow =>
    have hnames : (state.peers.map (expirePeer tickNow)).map (·.name) = state.peers.map (·.name) := by
      rw [List.map_map]
      refine List.map_congr_left fun p _ => ?_
      simp only [Function.comp, expirePeer]
      split <;> rfl
    simp only [plan, planTick]
    split
    · exact h
    · rwa [hnames]

end Rib

end CatalystRouter
