import CatalystRouter.Orchestrator.SyncAgreement

namespace CatalystRouter

open Bus

/-! ### What a slot sends to one peer -/

/-- The entries of the messages that go to the peer of that name. -/
def itemsFor (name : String) (messages : List (PeerRecord × List UpdateItem)) : List UpdateItem :=
  (messages.filter fun message => message.1.name == name).flatMap (·.2)

def Bus.DispatchResult.sentTo (result : DispatchResult) (name : String) : List UpdateItem :=
  itemsFor name result.sends

section Items

variable {name : String}

@[simp] theorem itemsFor_nil : itemsFor name [] = [] := rfl

theorem itemsFor_append (messages others : List (PeerRecord × List UpdateItem)) :
    itemsFor name (messages ++ others) = itemsFor name messages ++ itemsFor name others := by
  simp [itemsFor]

theorem itemsFor_message (peer : PeerRecord) (updates : List UpdateItem) :
    itemsFor name (message peer updates).toList = if peer.name = name then updates else [] := by
  unfold message itemsFor
  by_cases hupdates : updates = []
  · simp [hupdates]
  · by_cases hname : peer.name = name <;> simp [hupdates, hname]

theorem messages_cons (build : PeerRecord → List UpdateItem) (first : PeerRecord) (rest : List PeerRecord) :
    ((first :: rest).filterMap fun peer => message peer (build peer)) =
      (message first (build first)).toList ++ rest.filterMap fun peer => message peer (build peer) := by
  rw [List.filterMap_cons]
  cases message first (build first) <;> rfl

theorem itemsFor_others (build : PeerRecord → List UpdateItem) {peers : List PeerRecord}
    (hothers : ∀ peer ∈ peers, peer.name ≠ name) :
    itemsFor name (peers.filterMap fun peer => message peer (build peer)) = [] := by
  induction peers with
  | nil => rfl
  | cons peer rest ih =>
    obtain ⟨hpeer, hrest⟩ := List.forall_mem_cons.mp hothers
    rw [messages_cons, itemsFor_append, itemsFor_message, if_neg hpeer, ih hrest, List.append_nil]

/-- Among peers named apart, each is sent just its own message. -/
theorem itemsFor_messages (build : PeerRecord → List UpdateItem) {peers : List PeerRecord}
    (hnames : (peers.map (·.name)).Nodup) {peer : PeerRecord} (hmem : peer ∈ peers) (hname : peer.name = name) :
    itemsFor name (peers.filterMap fun peer => message peer (build peer)) = build peer := by
  induction peers with
  | nil => cases hmem
  | cons first rest ih =>
    obtain ⟨hfirst, hrest⟩ := List.nodup_cons.mp hnames
    rw [messages_cons, itemsFor_append, itemsFor_message]
    obtain rfl | hmem := List.mem_cons.mp hmem
    · have hothers : ∀ other ∈ rest, other.name ≠ name := fun other hother heq =>
        hfirst (List.mem_map.mpr ⟨other, hother, heq.trans hname.symm⟩)
      rw [if_pos hname, itemsFor_others build hothers, List.append_nil]
    · have hother : first.name ≠ name := fun heq =>
        hfirst (List.mem_map.mpr ⟨peer, hmem, hname.trans heq.symm⟩)
      rw [if_neg hother, ih hrest hmem, List.nil_append]

end Items

/-! ### Sessions -/

/-- `name` is a connected peer. -/
def RouteTable.InSession (state : RouteTable) (name : String) : Prop :=
  ∃ peer ∈ state.peers, peer.name = name ∧ peer.connectionStatus = .connected

instance (state : RouteTable) (name : String) : Decidable (state.InSession name) :=
  inferInstanceAs (Decidable (∃ peer ∈ state.peers, peer.name = name ∧ peer.connectionStatus = .connected))

/-- The buses of all runs in which `name` stays connected from its
    `InternalProtocolConnected` on, with what it has been sent since. Every
    dispatch of the session satisfies `C` at its turn. -/
inductive PeerSession (config : BusConfig) (start : Bus) (name : String) (C : Bus → Int → Action → Prop) :
    Bus → Told → Prop where
  | connected {bus : Bus} (h : Bus.Reachable config start bus) (now : Int) (peerInfo : PeerInfo)
      (hname : peerInfo.name = name) (hC : C bus now (.internalProtocolConnected peerInfo))
      (hsession : (dispatch config bus now (.internalProtocolConnected peerInfo)).bus.state.InSession name) :
      PeerSession config start name C (dispatch config bus now (.internalProtocolConnected peerInfo)).bus
        (Told.hear (fun _ => none) ((dispatch config bus now (.internalProtocolConnected peerInfo)).sentTo name))
  | dispatch {bus : Bus} {told : Told} (h : PeerSession config start name C bus told) (now : Int) (action : Action)
      (hC : C bus now action) (hsession : (dispatch config bus now action).bus.state.InSession name) :
      PeerSession config start name C (dispatch config bus now action).bus
        (told.hear ((dispatch config bus now action).sentTo name))
  | keepaliveSent {bus : Bus} {told : Told} (h : PeerSession config start name C bus told) (peerName : String)
      (now : Int) : PeerSession config start name C (keepaliveSent bus peerName now) told

/-- The step announces to `name` all that it changes about a full sync, and the
    node's own routes share no identity with learned ones before it. -/
structure AnnouncesTo (config : BusConfig) (name : String) (bus : Bus) (now : Int) (action : Action) : Prop where
  apart : bus.state.Apart config.node.name
  announces : ∀ received ∈ applyInboundPolicy config bus.state action, ∀ before ∈ bus.state.peers,
    ∀ after ∈ (Rib.plan config.node.name now received bus.state).newState.peers, before.name = name →
      after.name = name →
        Announces config bus before after (Rib.plan config.node.name now received bus.state).routeChanges

/-- What the peer has been told is what a full sync would tell it. -/
structure InSync (config : BusConfig) (name : String) (bus : Bus) (told : Told) : Prop where
  keyed : Rib.RouteTable.WellKeyed bus.state
  names : (bus.state.peers.map (·.name)).Nodup
  apart : bus.state.Apart config.node.name
  saturated : Saturated bus.portAllocator bus.state
  session : bus.state.InSession name
  agrees : ∀ peer ∈ bus.state.peers, peer.name = name → told = advertised config peer bus.state

theorem Bus.dispatch_peerNames (config : BusConfig) {bus : Bus} (now : Int) (action : Action)
    (h : (bus.state.peers.map (·.name)).Nodup) :
    ((dispatch config bus now action).bus.state.peers.map (·.name)).Nodup := by
  have hshape := dispatch_shape config bus now action
  generalize dispatch config bus now action = result at hshape ⊢
  cases hshape with
  | rejected | idle => exact h
  | committed filteredAction plan portAllocator hfiltered hchanged hports =>
    change (plan.newState.peers.map (·.name)).Nodup
    rw [(portsOnly_of_planPorts hports).peers]
    exact Rib.plan_peerNames config.node.name now filteredAction h

theorem Bus.Reachable.peerNames {config : BusConfig} {start bus : Bus}
    (hstart : (start.state.peers.map (·.name)).Nodup) (h : Bus.Reachable config start bus) :
    (bus.state.peers.map (·.name)).Nodup := by
  induction h with
  | start => exact hstart
  | dispatch _ now action ih => exact Bus.dispatch_peerNames config now action ih
  | keepaliveSent _ _ _ ih => exact ih

section Step

variable {config : BusConfig} {name : String}

/-- A connected peer is the target of its own delta. -/
theorem sentTo_deltas {plan : PlanResult} {state : RouteTable} (hnames : (state.peers.map (·.name)).Nodup)
    {peer : PeerRecord} (hmem : peer ∈ state.peers) (hname : peer.name = name)
    (hconnected : peer.connectionStatus = .connected) :
    itemsFor name (deltas config plan state) = plan.routeChanges.filterMap (changeItem config peer) := by
  have hpeers : ((connectedPeers state).map (·.name)).Nodup := hnames.sublist (List.filter_sublist.map _)
  exact itemsFor_messages (fun peer => buildUpdatesForPeer config peer plan) hpeers
    (List.mem_filter.mpr ⟨hmem, by simpa using hconnected⟩) hname

/-- The slot of an `InternalProtocolConnected` syncs the full table to the peer
    it is about. -/
theorem sentTo_sync {plan : PlanResult} {state : RouteTable} (hnames : (state.peers.map (·.name)).Nodup)
    {peer : PeerRecord} (hmem : peer ∈ state.peers) (hname : peer.name = name)
    (hconnected : peer.connectionStatus = .connected) (peerInfo : PeerInfo) :
    itemsFor name (notified config (.internalProtocolConnected peerInfo) plan state) =
      if peerInfo.name = name then syncUpdates config peer state else [] := by
  have htarget : peer ∈ connectedPeers state := List.mem_filter.mpr ⟨hmem, by simpa using hconnected⟩
  simp only [notified]
  cases hfound : (connectedPeers state).find? (hasName peerInfo.name) with
  | none =>
    have hother : peer.name ≠ peerInfo.name := by
      simpa [hasName] using List.find?_eq_none.mp hfound peer htarget
    rw [if_neg fun heq => hother (hname.trans heq.symm)]
    rfl
  | some target =>
    have htargetName : target.name = peerInfo.name := by simpa [hasName] using List.find?_some hfound
    rw [itemsFor_message, htargetName]
    split
    · rename_i heq
      have hsame : target = peer := List.inj_on_of_nodup_map hnames
        (List.mem_filter.mp (List.mem_of_find?_eq_some hfound)).1 hmem (htargetName.trans (heq.trans hname.symm))
      rw [hsame]
    · rfl

/-- A committed `InternalProtocolConnected` keeps the routes. -/
theorem Rib.plan_connected_routes (nodeId : String) (now : Int) (peerInfo : PeerInfo) (state : RouteTable) :
    (plan nodeId now (.internalProtocolConnected peerInfo) state).newState.localRoutes = state.localRoutes ∧
      (plan nodeId now (.internalProtocolConnected peerInfo) state).newState.internalRoutes =
        state.internalRoutes := by
  simp only [plan, planInternalProtocolConnected]
  split <;> exact ⟨rfl, rfl⟩

theorem Rib.plan_connected_changed {nodeId : String} {now : Int} {peerInfo : PeerInfo} {state : RouteTable}
    {peer : PeerRecord} (hmem : peer ∈ state.peers) (hname : peer.name = peerInfo.name) :
    (plan nodeId now (.internalProtocolConnected peerInfo) state).sameReference = false := by
  simp only [plan, planInternalProtocolConnected]
  split
  · rename_i habsent
    exact absurd hname (by simpa [hasName] using List.find?_eq_none.mp habsent peer hmem)
  · rfl

/-- The initial sync puts a peer that has been told nothing in sync. -/
theorem inSync_connected {bus : Bus} {now : Int} {peerInfo : PeerInfo}
    (hkeyed : Rib.RouteTable.WellKeyed bus.state) (hnames : (bus.state.peers.map (·.name)).Nodup)
    (hname : peerInfo.name = name) (hallowed : AnnouncesTo config name bus now (.internalProtocolConnected peerInfo))
    (hsession : (dispatch config bus now (.internalProtocolConnected peerInfo)).bus.state.InSession name) :
    InSync config name (dispatch config bus now (.internalProtocolConnected peerInfo)).bus
      (Told.hear (fun _ => none) ((dispatch config bus now (.internalProtocolConnected peerInfo)).sentTo name)) := by
  have hkeyed' := dispatch_wellKeyed config now (.internalProtocolConnected peerInfo) hkeyed
  have hnames' := dispatch_peerNames config now (.internalProtocolConnected peerInfo) hnames
  have hshape := dispatch_shape config bus now (.internalProtocolConnected peerInfo)
  generalize dispatch config bus now (.internalProtocolConnected peerInfo) = result at hshape hkeyed' hnames' hsession ⊢
  cases hshape with
  | rejected error hreason => rcases hreason with h | h <;> simp [lacksPeerToken, applyInboundPolicy] at h
  | idle filteredAction hfiltered hsame =>
    obtain rfl : _ = filteredAction := by simpa [applyInboundPolicy] using hfiltered
    obtain ⟨peer, hmem, hpeer, -⟩ := hsession
    rw [Rib.plan_connected_changed hmem (hpeer.trans hname.symm)] at hsame
    cases hsame
  | committed filteredAction plan portAllocator hfiltered hchanged hports =>
    obtain rfl : _ = filteredAction := by simpa [applyInboundPolicy] using hfiltered
    obtain ⟨hlocal, hinternal⟩ := Rib.plan_connected_routes config.node.name now peerInfo bus.state
    have hapart : plan.newState.Apart config.node.name := by
      refine apart_planned hports ?_
      unfold RouteTable.Apart
      rw [hlocal, hinternal]
      exact hallowed.apart
    have hsaturated := planPorts_saturated bus.portAllocator
      (Rib.plan config.node.name now (.internalProtocolConnected peerInfo) bus.state)
    rw [hports] at hsaturated
    refine ⟨hkeyed', hnames', hapart, hsaturated, hsession, fun peer hmem hpeer => ?_⟩
    obtain ⟨target, htarget, htargetName, hconnected⟩ := hsession
    obtain rfl := List.inj_on_of_nodup_map hnames' htarget hmem (htargetName.trans hpeer.symm)
    funext k
    simp only [DispatchResult.sentTo, DispatchResult.sends, updatesSent_postCommit]
    rw [sentTo_sync hnames' hmem hpeer hconnected peerInfo, if_pos hname, hear_sync hkeyed' hapart]
    cases advertised config target plan.newState k <;> rfl

/-- One dispatch of the session keeps the peer in sync. -/
theorem inSync_dispatch {bus : Bus} {told : Told} {now : Int} {action : Action} (h : InSync config name bus told)
    (hallowed : AnnouncesTo config name bus now action)
    (hsession : (dispatch config bus now action).bus.state.InSession name) :
    InSync config name (dispatch config bus now action).bus (told.hear ((dispatch config bus now action).sentTo name)) := by
  have hkeyed := dispatch_wellKeyed config now action h.keyed
  have hnames := dispatch_peerNames config now action h.names
  have hshape := dispatch_shape config bus now action
  generalize dispatch config bus now action = result at hshape hkeyed hnames hsession ⊢
  cases hshape with
  | rejected => exact h
  | idle =>
    have hsilent : itemsFor name (updatesSent (tickKeepalives bus action bus.state)) = [] := by simp
    change InSync config name bus (told.hear (itemsFor name (updatesSent (tickKeepalives bus action bus.state))))
    rw [hsilent]
    exact h
  | committed filteredAction plan portAllocator hfiltered hchanged hports =>
    obtain ⟨before, hbefore, hbeforeName, -⟩ := h.session
    have hportsOnly := portsOnly_of_planPorts hports
    have hsaturated := planPorts_saturated bus.portAllocator (Rib.plan config.node.name now filteredAction bus.state)
    rw [hports] at hsaturated
    obtain ⟨target, htarget, htargetName, hconnected⟩ := hsession
    have hannounces := hallowed.announces filteredAction hfiltered before hbefore target
      (hportsOnly.peers ▸ htarget) hbeforeName htargetName
    have hapart := apart_planned hports (hannounces.apart h.keyed h.apart)
    refine ⟨hkeyed, hnames, hapart, hsaturated, ⟨target, htarget, htargetName, hconnected⟩, fun peer hmem hpeer => ?_⟩
    obtain rfl := List.inj_on_of_nodup_map hnames htarget hmem (htargetName.trans hpeer.symm)
    funext k
    have hdelta := hear_delta hports h.keyed h.apart h.saturated (htargetName.trans hbeforeName.symm) hannounces k
    rw [h.agrees before hbefore hbeforeName]
    simp only [DispatchResult.sentTo, DispatchResult.sends, updatesSent_postCommit]
    cases action with
    | internalProtocolConnected peerInfo =>
      -- the slot syncs the table instead of sending deltas, and there are none to send
      obtain rfl : _ = filteredAction := by simpa [applyInboundPolicy] using hfiltered
      have hquiet : plan.routeChanges = [] := by
        have hchanges := planPorts_routeChanges bus.portAllocator
          (Rib.plan config.node.name now (.internalProtocolConnected peerInfo) bus.state)
        rw [hports, plan_connected_changes] at hchanges
        exact hchanges
      have hsame : advertised config before bus.state k = advertised config target plan.newState k := by
        rw [hquiet] at hdelta
        exact hdelta
      rw [sentTo_sync hnames hmem hpeer hconnected peerInfo]
      split
      · rw [hear_sync hkeyed hapart, hsame]
        cases advertised config target plan.newState k <;> rfl
      · exact hsame
    | _ =>
      change Told.hear _ (itemsFor name (deltas config plan plan.newState)) k = _
      rw [sentTo_deltas hnames hmem hpeer hconnected]
      exact hdelta

theorem PeerSession.inSync {start bus : Bus} {told : Told} (hstart : Rib.RouteTable.WellKeyed start.state)
    (hnames : (start.state.peers.map (·.name)).Nodup)
    (h : PeerSession config start name (AnnouncesTo config name) bus told) : InSync config name bus told := by
  induction h with
  | connected h now peerInfo hname hC hsession =>
    exact inSync_connected (h.wellKeyed hstart) (h.peerNames hnames) hname hC hsession
  | dispatch _ now action hC hsession ih => exact inSync_dispatch ih hC hsession
  | keepaliveSent _ peerName now ih => exact ⟨ih.keyed, ih.names, ih.apart, ih.saturated, ih.session, ih.agrees⟩

/-- In a session whose dispatches all announce what they change, what the peer
    has been told is at any time what a full sync would tell it. -/
theorem PeerSession.told_agrees {start bus : Bus} {told : Told} (hstart : start.state = newRouteTable)
    (h : PeerSession config start name (AnnouncesTo config name) bus told) {peer : PeerRecord}
    (hpeer : peer ∈ bus.state.peers) (hname : peer.name = name) (k : String × String) (item : UpdateItem) :
    told k = some item ↔ item ∈ syncUpdates config peer bus.state ∧ item.key = k := by
  have hkeyed : Rib.RouteTable.WellKeyed start.state := hstart ▸ Rib.newRouteTable_wellKeyed
  have hnames : (start.state.peers.map (·.name)).Nodup := by
    rw [hstart]
    exact List.nodup_nil
  have hsync := h.inSync hkeyed hnames
  rw [hsync.agrees peer hpeer hname]
  exact advertised_eq_some_iff hsync.keyed hsync.apart

end Step

/-- `node-a` with a port allocator, after `node-c` has been configured. -/
def peeredWithC : Bus :=
  (dispatch { node := { name := "node-a" } }
    { state := newRouteTable, portAllocator := some (createPortAllocator [.range 10000 10009]) } 0
    (.localPeerCreate { name := "node-c", peerToken := some "token" })).bus

/-- `node-c` connects. -/
def connectedToC : DispatchResult :=
  dispatch { node := { name := "node-a" } } peeredWithC 1 (.internalProtocolConnected { name := "node-c" })

/-- `node-b` advertises a channel of `node-d`, two hops further away. -/
def heardFromB : DispatchResult :=
  dispatch { node := { name := "node-a" } } connectedToC.bus 2
    (.internalProtocolUpdate { name := "node-b" } [booksEntry ["node-b", "node-x", "node-d"] "node-d"])

/-- `node-c` advertises the same channel over a shorter path. -/
def heardFromC : DispatchResult :=
  dispatch { node := { name := "node-a" } } heardFromB.bus 3
    (.internalProtocolUpdate { name := "node-c" } [booksEntry ["node-c", "node-d"] "node-d"])

/-- What `node-c` is told before it advertises anything. -/
def toldToC : Told := (Told.hear (fun _ => none) (connectedToC.sentTo "node-c")).hear (heardFromB.sentTo "node-c")

theorem heardFromB_session {C : Bus → Int → Action → Prop}
    (hconnect : C peeredWithC 1 (.internalProtocolConnected { name := "node-c" }))
    (hupdate : C connectedToC.bus 2
      (.internalProtocolUpdate { name := "node-b" } [booksEntry ["node-b", "node-x", "node-d"] "node-d"])) :
    PeerSession { node := { name := "node-a" } }
      { state := newRouteTable, portAllocator := some (createPortAllocator [.range 10000 10009]) } "node-c" C
      heardFromB.bus toldToC := by
  have hreachable : Bus.Reachable { node := { name := "node-a" } }
      { state := newRouteTable, portAllocator := some (createPortAllocator [.range 10000 10009]) } peeredWithC :=
    .dispatch .start 0 _
  have hconnected : connectedToC.bus.state.InSession "node-c" := by decide +kernel
  have hheard : heardFromB.bus.state.InSession "node-c" := by decide +kernel
  exact (PeerSession.connected hreachable 1 { name := "node-c" } rfl hconnect hconnected).dispatch 2 _ hupdate hheard

theorem told_agrees_books :
    toldToC ("books", "node-d") ≠ none ∧
      ∀ peer ∈ heardFromB.bus.state.peers, peer.name = "node-c" → ∀ k item,
        toldToC k = some item ↔
          item ∈ syncUpdates { node := { name := "node-a" } } peer heardFromB.bus.state ∧ item.key = k := by
  have hconnect : AnnouncesTo { node := { name := "node-a" } } "node-c" peeredWithC 1
      (.internalProtocolConnected { name := "node-c" }) := by
    refine ⟨fun l hl => (nomatch hl), fun received hreceived before _ after _ _ _ => ?_⟩
    obtain rfl := Option.some.inj hreceived
    have hquiet := plan_connected_changes "node-a" 1 { name := "node-c" } peeredWithC.state
    rw [hquiet]
    exact ⟨trivial, fun _ hr => (nomatch hr), fun _ _ _ hl => (nomatch hl), fun _ _ _ hr => (nomatch hr),
      fun _ _ _ hmem => (nomatch hmem), fun _ _ _ hmem => (nomatch hmem)⟩
  have hupdate : AnnouncesTo { node := { name := "node-a" } } "node-c" connectedToC.bus 2
      (.internalProtocolUpdate { name := "node-b" } [booksEntry ["node-b", "node-x", "node-d"] "node-d"]) := by
    refine ⟨fun l hl => (nomatch hl), fun received hreceived before _ after _ _ _ => ?_⟩
    obtain rfl := Option.some.inj hreceived
    have hchanges : (Rib.plan "node-a" 2 (.internalProtocolUpdate { name := "node-b" }
        [booksEntry ["node-b", "node-x", "node-d"] "node-d"]) connectedToC.bus.state).routeChanges =
        [⟨.added, .internal (Rib.itemRoute { name := "node-b" }
          (booksEntry ["node-b", "node-x", "node-d"] "node-d"))⟩] := by decide +kernel
    rw [hchanges]
    refine ⟨⟨fun r _ _ r' hr' => ?_, trivial⟩, fun _ hr => (nomatch hr), fun _ _ _ hl => (nomatch hl),
      fun _ _ _ hr => (nomatch hr), fun type l _ hmem => ?_, fun _ _ _ _ => rfl⟩
    · obtain rfl := ChangedRoute.internal.inj hr'
      exact ⟨fun old hold => (nomatch hold), fun hstale => (nomatch hstale)⟩
    · simp at hmem
  have hsession := heardFromB_session hconnect hupdate
  exact ⟨by decide +kernel, fun peer hpeer hname k item => hsession.told_agrees rfl hpeer hname k item⟩

/-- A route that switches to a path through the peer is never withdrawn from it. -/
theorem told_disagrees :
    ¬ ∀ (config : BusConfig) (start bus : Bus) (name : String) (told : Told) (peer : PeerRecord)
      (k : String × String) (item : UpdateItem),
      start.state = newRouteTable → PeerSession config start name (fun _ _ _ => True) bus told →
      peer ∈ bus.state.peers → peer.name = name →
      (told k = some item ↔ item ∈ syncUpdates config peer bus.state ∧ item.key = k) := by
  intro hclaim
  have hheard : heardFromC.bus.state.InSession "node-c" := by decide +kernel
  have hsession : PeerSession { node := { name := "node-a" } }
      { state := newRouteTable, portAllocator := some (createPortAllocator [.range 10000 10009]) } "node-c"
      (fun _ _ _ => True) heardFromC.bus (toldToC.hear (heardFromC.sentTo "node-c")) :=
    (heardFromB_session trivial trivial).dispatch 3 _ trivial hheard
  obtain ⟨peer, hpeer, hname, -⟩ := hheard
  have htold : (toldToC.hear (heardFromC.sentTo "node-c")) ("books", "node-d") =
      some { booksEntry ["node-a", "node-b", "node-x", "node-d"] "node-d" with
        route := { name := "books", protocol := .http, envoyPort := some 10000 } } := by decide +kernel
  have hsync : ∀ peer ∈ heardFromC.bus.state.peers,
      syncUpdates { node := { name := "node-a" } } peer heardFromC.bus.state = [] := by decide +kernel
  have hitem := ((hclaim _ _ _ _ _ peer _ _ rfl hsession hpeer hname).mp htold).1
  rw [hsync peer hpeer] at hitem
  cases hitem

end CatalystRouter
