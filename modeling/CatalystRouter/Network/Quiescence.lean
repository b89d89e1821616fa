import Mathlib.Algebra.BigOperators.Group.Finset.Basic
import Mathlib.Algebra.Order.BigOperators.Group.Finset
import Mathlib.Algebra.Order.BigOperators.Group.List
import Mathlib.Algebra.Order.Ring.Nat
import CatalystRouter.Library.Runs
import CatalystRouter.Network.PathVector
import CatalystRouter.Routing.ChangeKeys
import CatalystRouter.Routing.Sessions

namespace CatalystRouter

/-! Deliveries alone come to an end. An advertisement has passed the nodes of its path and
    is not installed at any of them again, and a withdrawal spends an installed route. -/

/-- The weight of an advertisement that can still pass `hops` nodes, each of which installs
    it and tells at most `fanout` peers. -/
def addWeight (fanout : Nat) : Nat → Nat
  | 0 => 0
  | hops + 1 => fanout + fanout * (addWeight fanout hops + 1)

/-- The nodes that a route of the change list has come through. -/
def ChangedRoute.hops : ChangedRoute → Nat
  | .channel _ => 0
  | .internal route => route.nodePath.length

section Weights

variable (nodes : Finset String) (fanout : Nat)

def UpdateItem.weight (item : UpdateItem) : Nat :=
  match item.action with
  | .add => addWeight fanout (nodes.card - item.nodePath.length)
  | .remove => 0

/-- The weight of the entry that a change contributes to a peer's delta. -/
def RouteChange.weight (change : RouteChange) : Nat :=
  match change.type with
  | .removed => 0
  | _ => addWeight fanout (nodes.card - (change.route.hops + 1))

/-- A message weighs something even if none of its entries does. -/
def messageWeight (updates : List UpdateItem) : Nat := 1 + (updates.map (UpdateItem.weight nodes fanout)).sum

/-- The weight of a change list to each peer, in messages of their own. -/
def changesWeight (changes : List RouteChange) : Nat := (changes.map fun change => change.weight nodes fanout + 1).sum

end Weights

variable {nodes : Finset String} {fanout : Nat}

theorem RouteChange.weight_unstamped (change : RouteChange) : change.unstamped.weight nodes fanout = change.weight nodes fanout := by
  obtain ⟨type, route⟩ := change
  cases type <;> cases route <;> rfl

/-- Ports weigh nothing. -/
theorem changesWeight_congr {changes changes' : List RouteChange}
    (h : changes'.map RouteChange.unstamped = changes.map RouteChange.unstamped) :
    changesWeight nodes fanout changes' = changesWeight nodes fanout changes := by
  have hweights := congrArg (List.map fun change => change.weight nodes fanout + 1) h
  rw [List.map_map, List.map_map] at hweights
  simp only [Function.comp_def, RouteChange.weight_unstamped] at hweights
  rw [changesWeight, hweights, changesWeight]

namespace Bus

variable {config : BusConfig} {peer : PeerRecord} {plan : PlanResult} {state : RouteTable}

theorem changeItem_weight {change : RouteChange} {item : UpdateItem} (h : changeItem config peer change = some item) :
    item.weight nodes fanout = change.weight nodes fanout := by
  obtain ⟨type, route⟩ := change
  unfold changeItem at h
  cases route with
  | channel route =>
    obtain rfl := Option.some.inj h
    cases type <;> rfl
  | internal route =>
    dsimp only at h
    split at h
    · obtain rfl := Option.some.inj h
      cases type <;> rfl
    · cases h

/-- An entry is charged for the message that carries it. -/
theorem message_weight (changes : List RouteChange) :
    ((message peer (changes.filterMap (changeItem config peer))).toList.map fun sent => messageWeight nodes fanout sent.2).sum ≤
      changesWeight nodes fanout changes := by
  have hentries : ((changes.filterMap (changeItem config peer)).map fun item => item.weight nodes fanout + 1).sum ≤
      changesWeight nodes fanout changes := by
    induction changes with
    | nil => simp
    | cons change rest ih =>
      rw [List.filterMap_cons, changesWeight, List.map_cons, List.sum_cons]
      cases hitem : changeItem config peer change with
      | none => exact Nat.le_add_left_of_le ih
      | some item =>
        rw [List.map_cons, List.sum_cons, changeItem_weight hitem]
        exact Nat.add_le_add_left ih _
  unfold message
  split
  · simp
  · rename_i hsome
    have hlength := List.length_pos_iff.mpr hsome
    rw [List.sum_map_add, List.map_const', List.sum_replicate, Nat.nsmul_eq_mul, Nat.mul_one] at hentries
    simp only [Option.toList_some, List.map_cons, List.map_nil, List.sum_cons, List.sum_nil, messageWeight]
    omega

/-- The messages of a delta fan-out weigh at most the change list, once for each peer. -/
theorem deltas_weight :
    ((deltas config plan state).map fun sent => messageWeight nodes fanout sent.2).sum ≤
      state.peers.length * changesWeight nodes fanout plan.routeChanges := by
  have hpeers : (connectedPeers state).length ≤ state.peers.length := List.length_filter_le _ _
  refine le_trans ?_ (Nat.mul_le_mul_right _ hpeers)
  unfold deltas
  induction connectedPeers state with
  | nil => simp
  | cons peer rest ih =>
    have hmessage := @message_weight nodes fanout config peer plan.routeChanges
    rw [List.filterMap_cons, List.length_cons, Nat.succ_mul]
    cases hsent : message peer (buildUpdatesForPeer config peer plan) with
    | none => exact le_trans ih (Nat.le_add_right _ _)
    | some sent =>
      unfold buildUpdatesForPeer at hsent
      simp only [hsent, Option.toList_some, List.map_cons, List.map_nil, List.sum_cons, List.sum_nil] at hmessage
      rw [List.map_cons, List.sum_cons]
      omega

end Bus

namespace Rib

variable {nodeId : String} {peerInfo : PeerInfo}

/-- A path over `nodes` that avoids one of them leaves room for it. -/
theorem length_lt_card {path : List String} (hnodup : path.Nodup) (hpath : ∀ n ∈ path, n ∈ nodes) (hnode : nodeId ∈ nodes)
    (hloop : nodeId ∉ path) : path.length < nodes.card := by
  have hsubset : (nodeId :: path).toFinset ⊆ nodes := by
    intro n hn
    obtain rfl | hn := List.mem_cons.mp (List.mem_toFinset.mp hn)
    · exact hnode
    · exact hpath n hn
  have hcard := Finset.card_le_card hsubset
  rw [List.toFinset_card_of_nodup (List.nodup_cons.mpr ⟨hloop, hnodup⟩)] at hcard
  exact hcard

theorem addWeight_room {length : Nat} (h : length < nodes.card) :
    addWeight fanout (nodes.card - length) = fanout + fanout * (addWeight fanout (nodes.card - (length + 1)) + 1) := by
  obtain ⟨room, hroom⟩ : ∃ room, nodes.card - length = room + 1 := ⟨nodes.card - length - 1, by omega⟩
  rw [hroom, show nodes.card - (length + 1) = room by omega]
  rfl

/-- The paths of a message's advertisements are simple and over `nodes`. -/
def SimplePaths (nodes : Finset String) (updates : List UpdateItem) : Prop :=
  ∀ item ∈ updates, item.action = .add → item.nodePath.Nodup ∧ ∀ n ∈ item.nodePath, n ∈ nodes

/-- An entry pays for the route that it installs and for what the peers are told. -/
theorem planUpdateItem_weight (hnode : nodeId ∈ nodes) {item : UpdateItem} (hpath : SimplePaths nodes [item])
    (routes : List InternalRoute) :
    fanout * (planUpdateItem nodeId peerInfo routes item).routes.length +
        fanout * changesWeight nodes fanout (planUpdateItem nodeId peerInfo routes item).routeChanges ≤
      fanout * routes.length + item.weight nodes fanout := by
  have hroom (hadd : item.action = .add) (hloop : nodeId ∉ item.nodePath) : item.weight nodes fanout =
      fanout + fanout * (addWeight fanout (nodes.card - (item.nodePath.length + 1)) + 1) := by
    obtain ⟨hnodup, hsubset⟩ := hpath item List.mem_cons_self hadd
    rw [UpdateItem.weight, hadd]
    exact addWeight_room (length_lt_card hnodup hsubset hnode hloop)
  have hstep := planUpdateItem_step nodeId peerInfo routes item
  generalize planUpdateItem nodeId peerInfo routes item = turn at hstep ⊢
  cases hstep with
  | looped | kept | absent => simp [changesWeight]
  | replaced existing hadd hloop =>
    rw [hroom hadd hloop, List.length_modifyFirst]
    simp only [changesWeight, RouteChange.weight, ChangedRoute.hops, itemRoute_nodePath, List.map_cons, List.map_nil,
      List.sum_cons, List.sum_nil, Nat.add_zero]
    omega
  | installed hadd hloop =>
    rw [hroom hadd hloop, List.length_append, List.length_singleton, Nat.mul_add]
    simp only [changesWeight, RouteChange.weight, ChangedRoute.hops, itemRoute_nodePath, List.map_cons, List.map_nil,
      List.sum_cons, List.sum_nil, Nat.add_zero]
    omega
  | withdrawn removed hremove hfound =>
    have hless : (routes.filter fun r => !sameKey item r).length + 1 ≤ routes.length := by
      refine List.length_filter_lt_length_iff_exists.mpr ⟨removed, mem_of_installedAt hfound, ?_⟩
      simp [sameKey, installedAt_key hfound]
    have hspent := Nat.mul_le_mul_left fanout hless
    rw [Nat.mul_add] at hspent
    simp only [changesWeight, RouteChange.weight, List.map_cons, List.map_nil, List.sum_cons, List.sum_nil]
    omega

theorem planUpdateItems_weight (hnode : nodeId ∈ nodes) (updates : List UpdateItem) :
    ∀ routes, SimplePaths nodes updates →
      fanout * (planUpdateItems nodeId peerInfo routes updates).routes.length +
          fanout * changesWeight nodes fanout (planUpdateItems nodeId peerInfo routes updates).routeChanges ≤
        fanout * routes.length + (updates.map (UpdateItem.weight nodes fanout)).sum := by
  induction updates with
  | nil => exact fun routes _ => by simp [planUpdateItems, changesWeight]
  | cons item rest ih =>
    intro routes hpaths
    have hpath : SimplePaths nodes [item] := fun other hother => hpaths other (by simp [List.mem_singleton.mp hother])
    have hitem := @planUpdateItem_weight nodes fanout nodeId peerInfo hnode item hpath routes
    have hrest := ih (planUpdateItem nodeId peerInfo routes item).routes fun other hother => hpaths other (by simp [hother])
    have happend (first second : List RouteChange) : fanout * changesWeight nodes fanout (first ++ second) =
        fanout * changesWeight nodes fanout first + fanout * changesWeight nodes fanout second := by
      rw [changesWeight, List.map_append, List.sum_append, Nat.mul_add]
      rfl
    rw [planUpdateItems]
    dsimp only
    rw [happend, List.map_cons, List.sum_cons]
    omega

end Rib

namespace Rib

theorem plan_update_peerCount (nodeId : String) (now : Int) (peerInfo : PeerInfo) (updates : List UpdateItem)
    (state : RouteTable) :
    (plan nodeId now (.internalProtocolUpdate peerInfo updates) state).newState.peers.length = state.peers.length := by
  simp only [plan, planInternalProtocolUpdate]
  split
  · rfl
  · exact List.length_modifyFirst _ _ _

end Rib

namespace Bus

variable {config : BusConfig} {bus : Bus} {now : Int}

/-- A delivered message pays for everything that its node installs and sends. -/
theorem dispatch_weight (hnode : config.node.name ∈ nodes) (hpeers : bus.state.peers.length ≤ fanout)
    {peerInfo : PeerInfo} {updates : List UpdateItem} (hpaths : Rib.SimplePaths nodes updates) :
    fanout * (dispatch config bus now (.internalProtocolUpdate peerInfo updates)).bus.state.internalRoutes.length +
        ((dispatch config bus now (.internalProtocolUpdate peerInfo updates)).sends.map fun sent =>
          messageWeight nodes fanout sent.2).sum ≤
      fanout * bus.state.internalRoutes.length + (updates.map (UpdateItem.weight nodes fanout)).sum ∧
    (dispatch config bus now (.internalProtocolUpdate peerInfo updates)).bus.state.peers.length =
      bus.state.peers.length := by
  have hshape := dispatch_shape config bus now (.internalProtocolUpdate peerInfo updates)
  generalize dispatch config bus now (.internalProtocolUpdate peerInfo updates) = result at hshape ⊢
  cases hshape with
  | rejected => simp [DispatchResult.sends]
  | idle => simp [DispatchResult.sends]
  | committed filteredAction plan portAllocator hfiltered hchanged hports =>
    obtain ⟨passed, rfl, hpassed⟩ : ∃ passed, filteredAction = .internalProtocolUpdate peerInfo passed ∧
        passed.Sublist updates := by
      obtain rfl | ⟨sender, received, passed, heq, rfl, hsub⟩ := applyInboundPolicy_cases hfiltered
      · exact ⟨updates, rfl, List.Sublist.refl _⟩
      · cases heq
        exact ⟨passed, rfl, hsub⟩
    have honly := portsOnly_of_planPorts hports
    have hspent : (passed.map (UpdateItem.weight nodes fanout)).sum ≤ (updates.map (UpdateItem.weight nodes fanout)).sum :=
      (hpassed.map _).sum_le_sum fun _ _ => Nat.zero_le _
    have hlength : plan.newState.internalRoutes.length =
        (Rib.planUpdateItems config.node.name peerInfo bus.state.internalRoutes passed).routes.length := by
      have hunstamped := congrArg List.length honly.internalRoutes
      rwa [List.length_map, List.length_map, Rib.plan_update_routes] at hunstamped
    have hcount : plan.newState.peers.length = bus.state.peers.length := by
      rw [honly.peers, Rib.plan_update_peerCount]
    have hchanges : changesWeight nodes fanout plan.routeChanges = changesWeight nodes fanout
        (Rib.planUpdateItems config.node.name peerInfo bus.state.internalRoutes passed).routeChanges := by
      rw [changesWeight_congr honly.routeChanges, Rib.plan_update_changes]
    have hplan := @Rib.planUpdateItems_weight nodes fanout config.node.name peerInfo hnode passed bus.state.internalRoutes
      fun item hitem => hpaths item (hpassed.subset hitem)
    have hsends := @deltas_weight nodes fanout config plan plan.newState
    have hfanout := Nat.mul_le_mul_right (changesWeight nodes fanout plan.routeChanges) (hcount.trans_le hpeers)
    refine ⟨?_, hcount⟩
    have hnotified : notified config (.internalProtocolUpdate peerInfo updates) plan plan.newState =
        deltas config plan plan.newState := rfl
    rw [DispatchResult.sends, updatesSent_postCommit, hnotified]
    rw [← hlength, ← hchanges] at hplan
    dsimp only
    omega

/-- Ports aside, a change with ports is one of the plan. -/
theorem exists_plannedChange {ribPlan plan : PlanResult} (honly : PortsOnly ribPlan plan) {type : RouteChangeType}
    {r : InternalRoute} (hr : ⟨type, .internal r⟩ ∈ plan.routeChanges) :
    ∃ planned, ⟨type, .internal planned⟩ ∈ ribPlan.routeChanges ∧ planned.unstamped = r.unstamped := by
  have hmem := List.mem_map_of_mem (f := RouteChange.unstamped) hr
  rw [honly.routeChanges] at hmem
  obtain ⟨⟨type', route⟩, hold, heq⟩ := List.mem_map.mp hmem
  cases route with
  | channel route => simp [RouteChange.unstamped, ChangedRoute.unstamped] at heq
  | internal planned =>
    simp only [RouteChange.unstamped, ChangedRoute.unstamped, RouteChange.mk.injEq, ChangedRoute.internal.injEq] at heq
    obtain ⟨rfl, heq⟩ := heq
    exact ⟨planned, hold, heq⟩

/-- The hops that an action brings in. -/
def IncomingWithin (nodes : Finset String) (action : Action) : Prop :=
  ∀ peerInfo updates, action = .internalProtocolUpdate peerInfo updates →
    ∀ item ∈ updates, ∀ hop ∈ item.nodePath, hop ∈ nodes

theorem plan_within {nodeId : String} {action : Action} {state : RouteTable} (hin : IncomingWithin nodes action)
    (hstate : ∀ r ∈ state.internalRoutes, ∀ hop ∈ r.nodePath, hop ∈ nodes) {r : InternalRoute}
    (hr : r ∈ (Rib.plan nodeId now action state).newState.internalRoutes ∨
      ∃ type, ⟨type, .internal r⟩ ∈ (Rib.plan nodeId now action state).routeChanges) :
    ∀ hop ∈ r.nodePath, hop ∈ nodes := by
  cases Rib.plan_provenance nodeId now action state hr with
  | kept hmem => exact hstate r hmem
  | marked _ old _ hmem hmarked =>
    subst hmarked
    exact hstate old hmem
  | accepted peerInfo updates item haction hmem hadd hloop hroute =>
    subst hroute
    exact hin peerInfo updates haction item hmem

/-- A queue slot brings in no hop but its own node. -/
theorem dispatch_within {action : Action} (hnode : config.node.name ∈ nodes) (hin : IncomingWithin nodes action)
    (hstate : ∀ r ∈ bus.state.internalRoutes, ∀ hop ∈ r.nodePath, hop ∈ nodes) :
    (∀ r ∈ (dispatch config bus now action).bus.state.internalRoutes, ∀ hop ∈ r.nodePath, hop ∈ nodes) ∧
      ∀ message ∈ (dispatch config bus now action).sends, ∀ item ∈ message.2, ∀ hop ∈ item.nodePath, hop ∈ nodes := by
  have hshape := dispatch_shape config bus now action
  generalize dispatch config bus now action = result at hshape ⊢
  cases hshape with
  | rejected => exact ⟨hstate, fun message hmem => by cases hmem⟩
  | idle filteredAction hfiltered hsame =>
    refine ⟨hstate, fun message hmem => ?_⟩
    simp [DispatchResult.sends] at hmem
  | committed filteredAction plan portAllocator hfiltered hchanged hports =>
    have honly := portsOnly_of_planPorts hports
    have hfilteredIn : IncomingWithin nodes filteredAction := by
      obtain rfl | ⟨peerInfo, updates, passed, rfl, rfl, hsub⟩ := applyInboundPolicy_cases hfiltered
      · exact hin
      · intro peerInfo' updates' heq item hmem
        cases heq
        exact hin peerInfo updates rfl item (hsub.subset hmem)
    have hwithin (r : InternalRoute) (hr : r ∈ plan.newState.internalRoutes ∨
        ∃ type, ⟨type, .internal r⟩ ∈ plan.routeChanges) : ∀ hop ∈ r.nodePath, hop ∈ nodes := by
      obtain hr | ⟨type, hr⟩ := hr
      · obtain ⟨planned, hplanned, heq⟩ := honly.exists_planned hr
        rw [← InternalRoute.nodePath_eq_of_unstamped heq]
        exact plan_within hfilteredIn hstate (.inl hplanned)
      · obtain ⟨planned, hplanned, heq⟩ := exists_plannedChange honly hr
        rw [← InternalRoute.nodePath_eq_of_unstamped heq]
        exact plan_within hfilteredIn hstate (.inr ⟨type, hplanned⟩)
    refine ⟨fun r hr => hwithin r (.inl hr), ?_⟩
    rintro ⟨peer, updates⟩ hmem item hitem
    rw [DispatchResult.sends, updatesSent_postCommit] at hmem
    cases notified_source hmem hitem with
    | localRoute action route heq =>
      subst heq
      simpa [localItem] using hnode
    | internalRoute action route heq hroute =>
      subst heq
      simpa [internalItem] using ⟨hnode, hwithin route hroute⟩

end Bus

namespace Network

/-- Every hop of the routes and of the messages is one of `nodes`. -/
structure Within (nodes : Finset String) (s : Network) : Prop where
  routes : ∀ node, ∀ r ∈ (s.bus node).state.internalRoutes, ∀ hop ∈ r.nodePath, hop ∈ nodes
  entries : ∀ env ∈ s.inFlight, ∀ item ∈ env.updates, ∀ hop ∈ item.nodePath, hop ∈ nodes

variable {fabric : Fabric} {s : Network}

theorem within_of_subset {s s' : Network} (h : s.Within nodes)
    (hroutes : ∀ node, (s'.bus node).state.internalRoutes = (s.bus node).state.internalRoutes)
    (hsubset : ∀ env ∈ s'.inFlight, env ∈ s.inFlight) : s'.Within nodes :=
  ⟨fun node r hr => h.routes node r (hroutes node ▸ hr), fun env henv => h.entries env (hsubset env henv)⟩

theorem dispatch_within (h : s.Within nodes) {node : String} (hnode : node ∈ nodes) {action : Action}
    (hin : Bus.IncomingWithin nodes action) (now : Int) : (s.dispatch fabric node now action).Within nodes := by
  have hslot := @Bus.dispatch_within nodes (fabric.config node) (s.bus node) now action
    ((fabric.config_name node).symm ▸ hnode) hin (h.routes node)
  constructor
  · intro other r hr
    by_cases hother : other = node
    · subst hother
      rw [dispatch_bus_self] at hr
      exact hslot.1 r hr
    · rw [dispatch_bus_of_ne fabric s hother] at hr
      exact h.routes other r hr
  · intro env henv item hitem
    obtain henv | henv := List.mem_append.mp henv
    · exact h.entries env henv item hitem
    · obtain ⟨message, hmessage, rfl⟩ := List.mem_map.mp henv
      exact hslot.2 message hmessage item hitem

/-- The move is a local one, and at one of `nodes` if it is at any. -/
def Among (nodes : Finset String) (s : Network) (move : Move) : Prop :=
  move.isLocal = true ∧ ∀ node ∈ s.actor move, node ∈ nodes

instance (nodes : Finset String) (s : Network) (move : Move) : Decidable (s.Among nodes move) :=
  inferInstanceAs (Decidable (_ ∧ _))

theorem step_within (h : s.Within nodes) {move : Move} (hmove : s.Among nodes move) :
    (s.step fabric move).Within nodes := by
  obtain ⟨hlocal, hactor⟩ := hmove
  cases move with
  | act node now action =>
    refine dispatch_within h (hactor node rfl) (fun peerInfo updates haction => ?_) now
    subst haction
    cases hlocal
  | deliver i now =>
    simp only [step]
    cases henv : s.inFlight[i]? with
    | none => exact h
    | some env =>
      have htaken : (s.take i env).Within nodes :=
        within_of_subset h (fun _ => rfl) fun other hother => (List.eraseIdx_sublist _ _).subset hother
      refine dispatch_within htaken (hactor env.receiver (by simp [actor, henv])) (fun peerInfo updates haction => ?_) now
      cases haction
      exact h.entries env (List.mem_of_getElem? henv)
  | keepaliveSent node peer now =>
    exact within_of_subset h (fun other => by rw [step, keepaliveSent_routes]) fun env henv => henv
  | duplicate i =>
    refine within_of_subset h (fun _ => rfl) fun env henv => ?_
    obtain henv | henv := List.mem_append.mp henv
    · exact henv
    · exact List.mem_of_getElem? (by simpa using henv)
  | drop i => exact within_of_subset h (fun _ => rfl) fun env henv => (List.eraseIdx_sublist _ _).subset henv

/-- How many peers `nodes` have, counted together. -/
def peerCount (nodes : Finset String) (s : Network) : Nat := ∑ node ∈ nodes, (s.bus node).state.peers.length

/-- What the messages in flight can still set off, and what withdrawals can. -/
def potential (nodes : Finset String) (fanout : Nat) (s : Network) : Nat :=
  (s.inFlight.map fun env => messageWeight nodes fanout env.updates).sum +
    ∑ node ∈ nodes, fanout * (s.bus node).state.internalRoutes.length

/-- The move delivers a message to one of `nodes`. -/
def Delivers (nodes : Finset String) (s : Network) (move : Move) : Prop :=
  ∃ i now env, move = .deliver i now ∧ s.inFlight[i]? = some env ∧ env.receiver ∈ nodes

/-- What deliveries keep. -/
structure Settling (nodes : Finset String) (fanout : Nat) (s : Network) : Prop where
  sound : s.Sound
  within : s.Within nodes
  peers : ∀ node ∈ nodes, (s.bus node).state.peers.length ≤ fanout

/-- Each delivery spends more than it sets off. -/
theorem potential_deliver (h : s.Settling nodes fanout) {move : Move} (hmove : s.Delivers nodes move) :
    (s.step fabric move).Settling nodes fanout ∧
      (s.step fabric move).potential nodes fanout < s.potential nodes fanout := by
  obtain ⟨i, now, env, rfl, henv, hreceiver⟩ := hmove
  have hmem : env ∈ s.inFlight := List.mem_of_getElem? henv
  have hpaths : Rib.SimplePaths nodes env.updates := fun item hitem _ =>
    ⟨(h.sound.entries env hmem item hitem).nodup, h.within.entries env hmem item hitem⟩
  obtain ⟨hspent, hpeers⟩ := @Bus.dispatch_weight nodes fanout (fabric.config env.receiver) (s.bus env.receiver) now
    ((fabric.config_name env.receiver).symm ▸ hreceiver) (h.peers env.receiver hreceiver) env.peerInfo env.updates hpaths
  have hstep : s.step fabric (.deliver i now) =
      (s.take i env).dispatch fabric env.receiver now (.internalProtocolUpdate env.peerInfo env.updates) := by
    simp only [step, henv]
  have hactors : s.Among nodes (.deliver i now) := by
    refine ⟨rfl, fun node hnode => ?_⟩
    rw [actor, henv] at hnode
    obtain rfl : env.receiver = node := by simpa using hnode
    exact hreceiver
  refine ⟨⟨step_sound h.sound rfl, step_within h.within hactors, fun node hnode => ?_⟩, ?_⟩
  · rw [hstep]
    by_cases hsame : node = env.receiver
    · subst hsame
      rw [dispatch_bus_self]
      exact hpeers.trans_le (h.peers _ hnode)
    · rw [dispatch_bus_of_ne fabric (s.take i env) hsame]
      exact h.peers node hnode
  · have hflight : (s.inFlight.map fun env => messageWeight nodes fanout env.updates).sum =
        messageWeight nodes fanout env.updates +
          ((s.inFlight.eraseIdx i).map fun env => messageWeight nodes fanout env.updates).sum := by
      obtain ⟨hi, rfl⟩ := List.getElem?_eq_some_iff.mp henv
      rw [← ((List.getElem_cons_eraseIdx_perm hi).map _).sum_eq, List.map_cons, List.sum_cons]
    have hothers : ∑ node ∈ nodes.erase env.receiver,
        fanout * ((s.step fabric (.deliver i now)).bus node).state.internalRoutes.length =
          ∑ node ∈ nodes.erase env.receiver, fanout * (s.bus node).state.internalRoutes.length := by
      refine Finset.sum_congr rfl fun node hnode => ?_
      rw [hstep, dispatch_bus_of_ne fabric (s.take i env) (Finset.ne_of_mem_erase hnode)]
      rfl
    rw [potential, potential, ← Finset.add_sum_erase _ _ hreceiver, hothers, ← Finset.add_sum_erase _ _ hreceiver,
      hflight, hstep, dispatch_bus_self, dispatch_inFlight, List.map_append, List.sum_append]
    simp only [posted, List.map_map, Function.comp_def, envelope, take_bus, messageWeight] at hspent ⊢
    simp only [take]
    omega

theorem eachMove_iff {Allowed : Network → Move → Prop} (moves : List Move) :
    ∀ s : Network, EachMove fabric Allowed s moves ↔ Runs.EachStep (step fabric) Allowed s moves := by
  induction moves with
  | nil => exact fun s => Iff.rfl
  | cons move rest ih => exact fun s => and_congr_right fun _ => ih _

theorem reachable_settling {alloc : String → Option PortAllocator} {peers : String → List PeerRecord}
    (h : Reachable fabric (initial alloc peers) (Among nodes) s) : s.Settling nodes (s.peerCount nodes) := by
  refine ⟨reachable_sound (initial_sound alloc peers) (fun _ _ hmove => hmove.1) h, ?_, fun node hnode => ?_⟩
  · induction h with
    | start =>
      constructor
      · intro node r hr
        cases hr
      · intro env henv
        cases henv
    | step _ move hmove ih => exact step_within ih hmove
  · exact Finset.single_le_sum (f := fun node => (s.bus node).state.peers.length) (fun _ _ => Nat.zero_le _) hnode

/-- From every reachable network, whatever is installed, stale or in flight, and however
    inbound and outbound policies filter: the deliveries to the nodes that took part come to
    an end, in any order, and can leave no message for them in flight. -/
theorem reachable_quiesces {alloc : String → Option PortAllocator} {peers : String → List PeerRecord}
    (h : Reachable fabric (initial alloc peers) (Among nodes) s) :
    (∀ moves, EachMove fabric (Delivers nodes) s moves → moves.length ≤ s.potential nodes (s.peerCount nodes)) ∧
      ∃ moves, EachMove fabric (Delivers nodes) s moves ∧ ∀ env ∈ (s.run fabric moves).inFlight, env.receiver ∉ nodes := by
  have hsettling := reachable_settling h
  have hstep (s' : Network) (move : Move) (hs : s'.Settling nodes (s.peerCount nodes)) (hmove : s'.Delivers nodes move) :=
    @potential_deliver nodes _ fabric s' hs move hmove
  constructor
  · intro moves hmoves
    exact Runs.length_le_measure hstep hsettling ((eachMove_iff moves s).mp hmoves)
  · have hnext (s' : Network) (_ : s'.Settling nodes (s.peerCount nodes)) :
        (∀ env ∈ s'.inFlight, env.receiver ∉ nodes) ∨ ∃ move, s'.Delivers nodes move := by
      by_cases hpending : ∃ env ∈ s'.inFlight, env.receiver ∈ nodes
      · obtain ⟨env, henv, hreceiver⟩ := hpending
        obtain ⟨i, hi⟩ := List.mem_iff_getElem?.mp henv
        exact .inr ⟨.deliver i 0, i, 0, env, rfl, hi, hreceiver⟩
      · exact .inl fun env henv hreceiver => hpending ⟨env, henv, hreceiver⟩
    obtain ⟨moves, hmoves, hdone⟩ := Runs.exists_run_done hstep hnext hsettling
    exact ⟨moves, (eachMove_iff moves s).mpr hmoves, hdone⟩

/-- The advertisement of `books` is in flight twice. -/
theorem reachable_quiesces_books :
    ∃ moves, EachMove .plain (Delivers {"node-a", "node-b"})
        ((initial (fun _ => none) fun _ => []).run .plain (booksExchange.take 4)) moves ∧
      ∀ env ∈ (((initial (fun _ => none) fun _ => []).run .plain (booksExchange.take 4)).run .plain moves).inFlight,
        env.receiver ∉ ({"node-a", "node-b"} : Finset String) := by
  have hrun : Reachable .plain (initial (fun _ => none) fun _ => []) (Among {"node-a", "node-b"})
      ((initial (fun _ => none) fun _ => []).run .plain (booksExchange.take 4)) :=
    Reachable.start.run (booksExchange.take 4) (by decide)
  exact (reachable_quiesces hrun).2

end Network

end CatalystRouter
