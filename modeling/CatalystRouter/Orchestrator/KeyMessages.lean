import CatalystRouter.Library.PathVector.Protocol
import CatalystRouter.Orchestrator.Attribution
import CatalystRouter.Orchestrator.PathSound
import CatalystRouter.Routing.ChangeKeys

namespace CatalystRouter

open PathVector (Entry Item receive announcement guarding)

/-! One identity of the table and of the messages, in the terms of a path-vector
    protocol for that identity. -/

def InternalRoute.entry (r : InternalRoute) : Entry String := ⟨r.peer.name, r.nodePath, r.isStale⟩

/-- The entry of a route does not depend on its port. -/
theorem InternalRoute.entry_eq_of_unstamped {r r' : InternalRoute} (heq : r'.unstamped = r.unstamped) :
    r'.entry = r.entry := by
  simp only [entry, peer_eq_of_unstamped heq, nodePath_eq_of_unstamped heq, isStale_eq_of_unstamped heq]

def UpdateItem.payload (item : UpdateItem) : Item String :=
  match item.action with
  | .add => .add item.nodePath
  | .remove => .remove

/-- An item says what an added route says exactly if it adds this path. -/
theorem UpdateItem.payload_eq_add_iff {item : UpdateItem} {path : List String} :
    item.payload = .add path ↔ item.action = .add ∧ item.nodePath = path := by
  unfold UpdateItem.payload
  cases item.action <;> simp

/-- An item says a removal exactly if it is one. -/
theorem UpdateItem.payload_eq_remove_iff {item : UpdateItem} : item.payload = .remove ↔ item.action = .remove := by
  unfold UpdateItem.payload
  cases item.action <;> simp

def RouteTable.entryAt (state : RouteTable) (k : String × String) : Option (Entry String) :=
  (state.view k).map InternalRoute.entry

/-- What `nodeId` tells others of a change. -/
def RouteChange.payload (nodeId : String) (change : RouteChange) : Item String :=
  match change.type, change.route with
  | .removed, _ => .remove
  | _, .channel _ => .add [nodeId]
  | _, .internal r => .add (nodeId :: r.nodePath)

namespace Rib

/-- Receiving an item, seen as entries, is receiving what it says. -/
theorem receiveItem_entry (nodeId : String) (peerInfo : PeerInfo) (installed : Option InternalRoute)
    (item : UpdateItem) :
    (receiveItem nodeId peerInfo installed item).map InternalRoute.entry =
      receive nodeId peerInfo.name (installed.map InternalRoute.entry) item.payload := by
  unfold receiveItem UpdateItem.payload
  cases item.action with
  | remove => rfl
  | add =>
    dsimp only
    by_cases hloop : nodeId ∈ item.nodePath
    · simp [receive, hloop]
    · cases installed with
      | none => simp [receive, hloop, InternalRoute.entry, itemRoute]
      | some existing =>
        by_cases hbetter : item.nodePath.length < existing.nodePath.length ∨ existing.isStale = true
        · simp [receive, hloop, hbetter, InternalRoute.entry, itemRoute]
        · simp [receive, hloop, hbetter, InternalRoute.entry]

/-- The change an entry makes is exactly what the protocol announces. -/
theorem itemChange_announcement (nodeId : String) (peerInfo : PeerInfo) (installed : Option InternalRoute)
    (item : UpdateItem) :
    (itemChange nodeId peerInfo installed item).map (RouteChange.payload nodeId) =
      announcement nodeId (installed.map InternalRoute.entry)
        (receive nodeId peerInfo.name (installed.map InternalRoute.entry) item.payload) := by
  unfold itemChange UpdateItem.payload
  cases item.action with
  | remove => cases installed <;> rfl
  | add =>
    dsimp only
    by_cases hloop : nodeId ∈ item.nodePath
    · simp [receive, hloop, announcement]
    · cases installed with
      | none => simp [receive, hloop, announcement, RouteChange.payload, itemRoute]
      | some existing =>
        by_cases hbetter : item.nodePath.length < existing.nodePath.length ∨ existing.isStale = true
        · have hdiffers : (⟨peerInfo.name, item.nodePath, false⟩ : Entry String) ≠ existing.entry := by
            intro heq
            have hpath : item.nodePath = existing.nodePath := congrArg Entry.path heq
            have hstale : false = existing.isStale := congrArg Entry.stale heq
            obtain hshorter | hold := hbetter
            · rw [hpath] at hshorter
              omega
            · simp [hold] at hstale
          simp only [hloop, if_false, hbetter, if_true]
          simpa [receive, hloop, announcement, RouteChange.payload, itemRoute, hbetter, InternalRoute.entry] using hdiffers
        · simp [receive, hloop, announcement, hbetter, InternalRoute.entry]

end Rib

/-! ### Up to ports -/

/-- What a change says does not depend on ports. -/
theorem payload_unstamped (nodeId : String) (change : RouteChange) :
    change.unstamped.payload nodeId = change.payload nodeId := by
  obtain ⟨type, route⟩ := change
  cases type <;> cases route <;> rfl

/-- Nor does its key. -/
@[simp] theorem keyAt_unstamped (nodeId : String) (change : RouteChange) :
    change.unstamped.keyAt nodeId = change.keyAt nodeId := by
  obtain ⟨type, route⟩ := change
  cases route <;> rfl

/-- Changes that agree up to ports agree at every key. -/
theorem changeAt_unstamped (nodeId : String) (k : String × String) {changes changes' : List RouteChange}
    (h : changes'.map RouteChange.unstamped = changes.map RouteChange.unstamped) :
    (changeAt nodeId k changes').map RouteChange.unstamped =
      (changeAt nodeId k changes).map RouteChange.unstamped := by
  have hfind (changes : List RouteChange) : (changeAt nodeId k changes).map RouteChange.unstamped =
      (changes.map RouteChange.unstamped).find? fun change => change.keyAt nodeId == k := by
    simp [changeAt, List.find?_map]
  rw [hfind, hfind, h]

/-- Tables that agree up to ports agree at every key. -/
theorem entryAt_unstamped {state state' : RouteTable}
    (h : state'.internalRoutes.map InternalRoute.unstamped = state.internalRoutes.map InternalRoute.unstamped)
    (k : String × String) : state'.entryAt k = state.entryAt k := by
  have hfind (state : RouteTable) : state.entryAt k =
      ((state.internalRoutes.map InternalRoute.unstamped).find? fun r => r.key == k).map InternalRoute.entry := by
    rw [List.find?_map, Option.map_map]
    rfl
  rw [hfind, hfind, h]

/-- Tables that agree up to ports have local routes of the same names. -/
theorem hasLocal_unstamped {state state' : RouteTable}
    (h : state'.localRoutes.map DataChannelDefinition.unstamped =
      state.localRoutes.map DataChannelDefinition.unstamped) (name : String) :
    state'.hasLocal name = state.hasLocal name := by
  have hany (state : RouteTable) : state.hasLocal name =
      (state.localRoutes.map DataChannelDefinition.unstamped).any fun r => r.name == name := by
    rw [List.any_map]
    rfl
  rw [hany, hany, h]

/-- Ports do not matter for distinct keys. -/
theorem wellKeyed_unstamped {state state' : RouteTable} (hkeyed : Rib.RouteTable.WellKeyed state)
    (hlocal : state'.localRoutes.map DataChannelDefinition.unstamped =
      state.localRoutes.map DataChannelDefinition.unstamped)
    (hinternal : state'.internalRoutes.map InternalRoute.unstamped =
      state.internalRoutes.map InternalRoute.unstamped) : Rib.RouteTable.WellKeyed state' := by
  constructor
  · have hnames (state : RouteTable) : state.localRoutes.map (·.name) =
        (state.localRoutes.map DataChannelDefinition.unstamped).map (·.name) := by
      rw [List.map_map]
      rfl
    rw [hnames, hlocal, ← hnames]
    exact hkeyed.localNames
  · have hkeys (state : RouteTable) : state.internalRoutes.map (·.key) =
        (state.internalRoutes.map InternalRoute.unstamped).map (·.key) := by
      rw [List.map_map]
      rfl
    rw [hkeys, hinternal, ← hkeys]
    exact hkeyed.internalKeys

namespace Bus

/-- The route names of a message that the inbound policy lets through. -/
def inboundPasses (config : BusConfig) (state : RouteTable) (peerInfo : PeerInfo) (updates : List UpdateItem)
    (name : String) : Bool :=
  match config.routePolicy, state.peers.find? (hasName peerInfo.name) with
  | some policy, some peer => (policy.canReceive peer (updates.map (·.route))).any fun r => r.name == name
  | _, _ => true

/-- The inbound policy drops items, and keeps the order of the others. -/
theorem receivedUpdates_eq_filter (config : BusConfig) (state : RouteTable) (peerInfo : PeerInfo)
    (updates : List UpdateItem) :
    receivedUpdates config state peerInfo updates =
      updates.filter fun u => inboundPasses config state peerInfo updates u.route.name := by
  unfold receivedUpdates inboundPasses
  cases hpolicy : config.routePolicy with
  | none => simp [applyInboundPolicy, hpolicy]
  | some policy =>
    cases hpeer : state.peers.find? (hasName peerInfo.name) with
    | none => simp [applyInboundPolicy, hpolicy, hpeer]
    | some peer =>
      simp only [applyInboundPolicy, hpolicy, hpeer]
      generalize (updates.filter fun u =>
        (policy.canReceive peer (updates.map (·.route))).any fun r => r.name == u.route.name) = filtered
      by_cases hempty : filtered = []
      · simp [hempty]
      · simp [hempty]

/-- The item of a key that is left is the one before, if it passes. -/
theorem itemAt_receivedUpdates (config : BusConfig) (state : RouteTable) (peerInfo : PeerInfo)
    (updates : List UpdateItem) (k : String × String) :
    Rib.itemAt k (receivedUpdates config state peerInfo updates) =
      if inboundPasses config state peerInfo updates k.1 then Rib.itemAt k updates else none := by
  rw [receivedUpdates_eq_filter]
  generalize inboundPasses config state peerInfo updates = passes
  unfold Rib.itemAt
  rw [List.find?_filter]
  split
  · rename_i hpass
    apply List.find?_congr
    intro item hitem
    by_cases hk : item.key = k
    · have hname : item.route.name = k.1 := congrArg Prod.fst hk
      simp [hk, hname, hpass]
    · simp [hk]
  · rename_i hstop
    rw [List.find?_eq_none]
    intro item hitem hboth
    obtain ⟨hpass, hk⟩ := of_decide_eq_true hboth
    have hname : item.route.name = k.1 := congrArg Prod.fst (beq_iff_eq.mp hk)
    exact hstop (hname ▸ hpass)

/-! ### Messages about one identity -/

/-- The peers that a batch of messages tells about an identity. -/
def told (k : String × String) (sends : List (PeerRecord × List UpdateItem)) : List PeerRecord :=
  (sends.filter fun message => (Rib.itemAt k message.2).isSome).map (·.1)

/-- Whatever the messages say about an identity is `x`. -/
def Says (k : String × String) (sends : List (PeerRecord × List UpdateItem)) (x : Item String) : Prop :=
  ∀ message ∈ sends, ∀ item, Rib.itemAt k message.2 = some item → item.payload = x

def Silent (k : String × String) (sends : List (PeerRecord × List UpdateItem)) : Prop :=
  ∀ message ∈ sends, Rib.itemAt k message.2 = none

/-- A peer is told of a key if a message to it has an item of the key. -/
theorem mem_told {k : String × String} {sends : List (PeerRecord × List UpdateItem)} {peer : PeerRecord} :
    peer ∈ told k sends ↔ ∃ updates item, (peer, updates) ∈ sends ∧ Rib.itemAt k updates = some item := by
  simp only [told, List.mem_map, List.mem_filter, Option.isSome_iff_exists]
  constructor
  · rintro ⟨⟨peer, updates⟩, ⟨hmem, item, hitem⟩, rfl⟩
    exact ⟨updates, item, hmem, hitem⟩
  · rintro ⟨updates, item, hmem, hitem⟩
    exact ⟨(peer, updates), ⟨hmem, item, hitem⟩, rfl⟩

/-- The item for a change has the key of the change. -/
theorem changeItem_key {config : BusConfig} {peer : PeerRecord} {change : RouteChange} {item : UpdateItem}
    (h : changeItem config peer change = some item) : item.key = change.keyAt config.node.name := by
  unfold changeItem at h
  split at h
  · rename_i route hroute
    split at h
    · obtain rfl := Option.some.inj h
      simp [RouteChange.keyAt, hroute, internalItem, UpdateItem.key, InternalRoute.key, routeKey, toDataChannel]
    · cases h
  · rename_i route hroute
    obtain rfl := Option.some.inj h
    simp [RouteChange.keyAt, hroute, localItem, UpdateItem.key, routeKey, toDataChannel]

/-- The item for a change says what the change says. -/
theorem changeItem_payload {config : BusConfig} {peer : PeerRecord} {change : RouteChange} {item : UpdateItem}
    (h : changeItem config peer change = some item) : item.payload = change.payload config.node.name := by
  obtain ⟨type, route⟩ := change
  cases route with
  | channel route =>
    obtain rfl := Option.some.inj h
    cases type <;> rfl
  | internal route =>
    simp only [changeItem] at h
    split at h
    · obtain rfl := Option.some.inj h
      cases type <;> rfl
    · cases h

/-- With pairwise distinct identities, a delta has one entry for each change. -/
theorem itemAt_buildUpdates {config : BusConfig} {plan : PlanResult}
    (hnodup : (plan.routeChanges.map (·.keyAt config.node.name)).Nodup) (peer : PeerRecord)
    (k : String × String) :
    Rib.itemAt k (buildUpdatesForPeer config peer plan) =
      (changeAt config.node.name k plan.routeChanges).bind (changeItem config peer) := by
  unfold buildUpdatesForPeer changeAt Rib.itemAt
  generalize plan.routeChanges = changes at hnodup ⊢
  induction changes with
  | nil => rfl
  | cons change rest ih =>
    obtain ⟨hfresh, hrest⟩ := List.nodup_cons.mp hnodup
    have ih := ih hrest
    by_cases hk : change.keyAt config.node.name = k
    · simp only [List.find?_cons, hk, beq_self_eq_true, Option.bind_some]
      cases hitem : changeItem config peer change with
      | some item =>
        have hkey := (changeItem_key hitem).trans hk
        simp [hitem, hkey]
      | none =>
        simp only [List.filterMap_cons, hitem, ih]
        have habsent : (rest.find? fun change => change.keyAt config.node.name == k) = none := by
          rw [List.find?_eq_none]
          intro other hother heq
          exact hfresh (List.mem_map.mpr ⟨other, hother, (beq_iff_eq.mp heq).trans hk.symm⟩)
        rw [habsent]
        rfl
    · have hskip : ∀ item, changeItem config peer change = some item → item.key ≠ k :=
        fun item hitem hkey => hk ((changeItem_key hitem).symm.trans hkey)
      simp only [List.find?_cons, beq_eq_false_iff_ne.mpr hk]
      cases hitem : changeItem config peer change with
      | some item => simp [hitem, hskip item hitem, ih]
      | none => simp [hitem, ih]

/-- Every connected peer gets what is built for it from the plan. -/
theorem mem_deltas {config : BusConfig} {plan : PlanResult} {state : RouteTable} {peer : PeerRecord}
    {updates : List UpdateItem} :
    (peer, updates) ∈ deltas config plan state ↔
      peer ∈ connectedPeers state ∧ updates = buildUpdatesForPeer config peer plan ∧ updates ≠ [] := by
  simp only [deltas, message, List.mem_filterMap]
  constructor
  · rintro ⟨target, htarget, hmessage⟩
    split at hmessage
    · cases hmessage
    · rename_i hsome
      cases hmessage
      exact ⟨htarget, rfl, hsome⟩
  · rintro ⟨hpeer, rfl, hsome⟩
    exact ⟨peer, hpeer, by simp [hsome]⟩

/-- A delta fan-out tells a connected peer of the change under an identity
    exactly when the change has an entry for that peer. -/
theorem mem_told_deltas {config : BusConfig} {plan : PlanResult}
    (hnodup : (plan.routeChanges.map (·.keyAt config.node.name)).Nodup) {state : RouteTable}
    {peer : PeerRecord} {k : String × String} :
    peer ∈ told k (deltas config plan state) ↔ peer ∈ connectedPeers state ∧
      ((changeAt config.node.name k plan.routeChanges).bind (changeItem config peer)).isSome = true := by
  rw [mem_told]
  constructor
  · rintro ⟨updates, item, hmem, hitem⟩
    obtain ⟨hpeer, rfl, -⟩ := mem_deltas.mp hmem
    rw [itemAt_buildUpdates hnodup] at hitem
    exact ⟨hpeer, by simp [hitem]⟩
  · rintro ⟨hpeer, hsome⟩
    obtain ⟨item, hitem⟩ := Option.isSome_iff_exists.mp hsome
    rw [← itemAt_buildUpdates hnodup peer k] at hitem
    refine ⟨_, item, mem_deltas.mpr ⟨hpeer, rfl, fun hempty => ?_⟩, hitem⟩
    simp [hempty, Rib.itemAt] at hitem

/-- A key that nothing changes is in no message. -/
theorem deltas_silent {config : BusConfig} {plan : PlanResult}
    (hnodup : (plan.routeChanges.map (·.keyAt config.node.name)).Nodup) {state : RouteTable}
    {k : String × String} (hnone : changeAt config.node.name k plan.routeChanges = none) :
    Silent k (deltas config plan state) := by
  rintro ⟨peer, updates⟩ hmem
  obtain ⟨-, rfl, -⟩ := mem_deltas.mp hmem
  simp [itemAt_buildUpdates hnodup, hnone]

/-- The messages about a key say what its change says. -/
theorem deltas_say {config : BusConfig} {plan : PlanResult} (state : RouteTable)
    (hnodup : (plan.routeChanges.map (·.keyAt config.node.name)).Nodup)
    {k : String × String} {change : RouteChange}
    (hsome : changeAt config.node.name k plan.routeChanges = some change) :
    Says k (deltas config plan state) (change.payload config.node.name) := by
  rintro ⟨peer, updates⟩ hmem item hitem
  obtain ⟨-, rfl, -⟩ := mem_deltas.mp hmem
  simp only [itemAt_buildUpdates hnodup, hsome, Option.bind_some] at hitem
  exact changeItem_payload hitem

end Bus

end CatalystRouter
