import CatalystRouter.Orchestrator.Ports

namespace CatalystRouter

/-- The update message an effect sends, if it is one. -/
def Effect.update : Effect → Option (PeerRecord × List UpdateItem)
  | .sendUpdate peer updates => some (peer, updates)
  | _ => none

namespace Bus

/-- The update messages of a queue slot, in the order they are started. -/
def updatesSent (stages : List (List Effect)) : List (PeerRecord × List UpdateItem) :=
  stages.flatten.filterMap Effect.update

def DispatchResult.sends (result : DispatchResult) : List (PeerRecord × List UpdateItem) :=
  updatesSent result.stages

/-- A message for a peer, unless there is nothing to say. -/
def message (peer : PeerRecord) (updates : List UpdateItem) : Option (PeerRecord × List UpdateItem) :=
  if updates = [] then none else some (peer, updates)

/-- The messages of a delta fan-out. -/
def deltas (config : BusConfig) (plan : PlanResult) (state : RouteTable) :
    List (PeerRecord × List UpdateItem) :=
  (connectedPeers state).filterMap fun peer => message peer (buildUpdatesForPeer config peer plan)

/-- The messages of a slot that committed `plan` for `action`. -/
def notified (config : BusConfig) (action : Action) (plan : PlanResult) (state : RouteTable) :
    List (PeerRecord × List UpdateItem) :=
  match action with
  | .internalProtocolConnected peerInfo =>
    match (connectedPeers state).find? (hasName peerInfo.name) with
    | some peer => (message peer (syncUpdates config peer state)).toList
    | none => []
  | _ => deltas config plan state

@[simp] theorem updatesSent_nil : updatesSent [] = [] := rfl

@[simp] theorem updatesSent_append (first second : List (List Effect)) :
    updatesSent (first ++ second) = updatesSent first ++ updatesSent second := by
  simp [updatesSent]

theorem updatesSent_eq_nil {stages : List (List Effect)}
    (h : ∀ stage ∈ stages, ∀ effect ∈ stage, effect.update = none) : updatesSent stages = [] := by
  rw [updatesSent, List.filterMap_eq_nil_iff]
  intro effect heffect
  obtain ⟨stage, hstage, hmem⟩ := List.mem_flatten.mp heffect
  exact h stage hstage effect hmem

@[simp] theorem updatesSent_gateway (config : BusConfig) (state : RouteTable) :
    updatesSent (handleGraphqlGatewaySync config state) = [] := by
  apply updatesSent_eq_nil
  intro stage hstage effect heffect
  unfold handleGraphqlGatewaySync at hstage
  dsimp only at hstage
  split at hstage
  · cases hstage
  · obtain rfl := List.mem_singleton.mp hstage
    obtain rfl := List.mem_singleton.mp heffect
    rfl

@[simp] theorem updatesSent_envoy (config : BusConfig) (alloc : Option PortAllocator) (state : RouteTable) :
    updatesSent (handleEnvoySync config alloc state) = [] := by
  apply updatesSent_eq_nil
  intro stage hstage effect heffect
  unfold handleEnvoySync at hstage
  split at hstage
  · obtain rfl := List.mem_singleton.mp hstage
    obtain rfl := List.mem_singleton.mp heffect
    rfl
  · cases hstage

@[simp] theorem updatesSent_keepalives (bus : Bus) (action : Action) (state : RouteTable) :
    updatesSent (tickKeepalives bus action state) = [] := by
  apply updatesSent_eq_nil
  intro stage hstage effect heffect
  unfold tickKeepalives at hstage
  split at hstage
  · obtain rfl := List.mem_singleton.mp hstage
    obtain ⟨peer, -, rfl⟩ := List.mem_map.mp heffect
    rfl
  · cases hstage

theorem sendUpdate_updates (peer : PeerRecord) (updates : List UpdateItem) :
    (sendUpdate peer updates).filterMap Effect.update = (message peer updates).toList := by
  unfold sendUpdate message
  split <;> rfl

theorem updatesSent_fanOut (config : BusConfig) (plan : PlanResult) (state : RouteTable) :
    updatesSent [fanOut config plan state] = deltas config plan state := by
  simp only [updatesSent, List.flatten_cons, List.flatten_nil, List.append_nil, fanOut, deltas,
    List.filterMap_flatMap]
  induction connectedPeers state with
  | nil => rfl
  | cons peer rest ih =>
    rw [List.flatMap_cons, ih, sendUpdate_updates, List.filterMap_cons]
    cases message peer (buildUpdatesForPeer config peer plan) <;> rfl

/-- Without route changes the delta fan-out is silent. -/
theorem deltas_of_quiet {config : BusConfig} {plan : PlanResult} (state : RouteTable)
    (h : plan.routeChanges = []) : deltas config plan state = [] := by
  simp [deltas, buildUpdatesForPeer, h, message]

theorem updatesSent_notify (config : BusConfig) (action : Action) (plan : PlanResult) (state : RouteTable) :
    updatesSent (handleBGPNotify config action plan state) = notified config action plan state := by
  have hfan : updatesSent (if plan.routeChanges = [] then [] else [fanOut config plan state]) =
      deltas config plan state := by
    split
    · rename_i hquiet
      rw [deltas_of_quiet state hquiet, updatesSent_nil]
    · exact updatesSent_fanOut config plan state
  cases action with
  | internalProtocolConnected peerInfo =>
    simp only [handleBGPNotify, notified]
    cases (connectedPeers state).find? (hasName peerInfo.name) with
    | none => rfl
    | some peer => simpa [updatesSent] using sendUpdate_updates peer (syncUpdates config peer state)
  | localPeerDelete name =>
    simp only [handleBGPNotify, notified, updatesSent_append, hfan]
    split <;> rfl
  | _ => exact hfan

/-- The messages of a slot come from the notification phase alone. -/
theorem updatesSent_postCommit (config : BusConfig) (bus : Bus) (action : Action) (plan : PlanResult) :
    updatesSent (handlePostCommit config bus action plan) = notified config action plan bus.state := by
  simp only [handlePostCommit, updatesSent_append, updatesSent_notify, updatesSent_keepalives,
    List.append_nil]
  split <;> split <;> simp

/-- The notification phase sends updates, and a close notice to a deleted peer. -/
theorem mem_notify_cases {config : BusConfig} {action : Action} {plan : PlanResult} {state : RouteTable}
    {effect : Effect} (h : effect ∈ (handleBGPNotify config action plan state).flatten) :
    (∃ peer updates, effect = .sendUpdate peer updates) ∨ ∃ peer code, effect = .closePeer peer code := by
  have hsend {peer : PeerRecord} {updates : List UpdateItem} (h : effect ∈ sendUpdate peer updates) :
      ∃ peer updates, effect = .sendUpdate peer updates := by
    unfold sendUpdate at h
    split at h
    · cases h
    · exact ⟨peer, updates, List.mem_singleton.mp h⟩
  have hfan (h : effect ∈ (if plan.routeChanges = [] then [] else [fanOut config plan state]).flatten) :
      ∃ peer updates, effect = .sendUpdate peer updates := by
    split at h
    · cases h
    · simp only [List.flatten_cons, List.flatten_nil, List.append_nil, fanOut, List.mem_flatMap] at h
      obtain ⟨peer, -, h⟩ := h
      exact hsend h
  unfold handleBGPNotify at h
  split at h
  · split at h
    · exact .inl (hsend (by simpa using h))
    · cases h
  · rw [List.flatten_append, List.mem_append] at h
    obtain h | h := h
    · split at h
      · exact .inr ⟨_, _, by simpa using h⟩
      · cases h
    · exact .inl (hfan h)
  · exact .inl (hfan h)

theorem mem_keepalives_cases {bus : Bus} {action : Action} {state : RouteTable} {effect : Effect}
    (h : effect ∈ (tickKeepalives bus action state).flatten) : ∃ peer, effect = .sendKeepalive peer := by
  unfold tickKeepalives handleKeepalives at h
  split at h
  · simp only [List.flatten_cons, List.flatten_nil, List.append_nil, List.mem_map] at h
    obtain ⟨peer, -, rfl⟩ := h
    exact ⟨peer, rfl⟩
  · cases h

/-- Where an advertised entry comes from: the full table or the change list. -/
inductive EntrySource (config : BusConfig) (plan : PlanResult) (state : RouteTable) (item : UpdateItem) :
    Prop where
  | localRoute (action : UpdateAction) (route : DataChannelDefinition)
      (hitem : item = localItem config action route)
  | internalRoute (action : UpdateAction) (route : InternalRoute) (hitem : item = internalItem config action route)
      (hroute : route ∈ state.internalRoutes ∨ ∃ type, ⟨type, .internal route⟩ ∈ plan.routeChanges)

theorem notified_source {config : BusConfig} {action : Action} {plan : PlanResult} {state : RouteTable}
    {peer : PeerRecord} {updates : List UpdateItem} {item : UpdateItem}
    (hsent : (peer, updates) ∈ notified config action plan state) (hitem : item ∈ updates) :
    EntrySource config plan state item := by
  have hdelta (h : (peer, updates) ∈ deltas config plan state) : EntrySource config plan state item := by
    obtain ⟨target, -, hmessage⟩ := List.mem_filterMap.mp h
    unfold message at hmessage
    split at hmessage
    · cases hmessage
    · cases hmessage
      obtain ⟨⟨type, route⟩, hmem, hchange⟩ := List.mem_filterMap.mp hitem
      unfold changeItem at hchange
      cases route with
      | channel route => exact .localRoute _ route (Option.some.inj hchange).symm
      | internal route =>
        dsimp only at hchange
        split at hchange
        · exact .internalRoute _ route (Option.some.inj hchange).symm (.inr ⟨type, hmem⟩)
        · cases hchange
  cases action with
  | internalProtocolConnected peerInfo =>
    simp only [notified] at hsent
    split at hsent
    · unfold message at hsent
      split at hsent
      · cases hsent
      · obtain ⟨rfl, rfl⟩ := Prod.mk.inj (List.mem_singleton.mp hsent)
        obtain hlocal | hinternal := List.mem_append.mp hitem
        · obtain ⟨route, -, rfl⟩ := List.mem_map.mp hlocal
          exact .localRoute .add route rfl
        · obtain ⟨route, hmem, rfl⟩ := List.mem_map.mp hinternal
          exact .internalRoute .add route rfl (.inl (List.mem_filter.mp hmem).1)
    · cases hsent
  | _ => exact hdelta hsent

end Bus

end CatalystRouter
