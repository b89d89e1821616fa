import CatalystRouter.Orchestrator.Ports
import CatalystRouter.Orchestrator.Rpc

namespace CatalystRouter

/-- The internal routes that a change list installs or replaces. -/
def installedRoutes (changes : List RouteChange) : List InternalRoute :=
  changes.filterMap fun change =>
    match change.type, change.route with
    | .removed, _ => none
    | _, .internal r => some r
    | _, .channel _ => none

/-- The routes a queue slot installed or replaced. -/
def Bus.DispatchResult.installed (result : Bus.DispatchResult) : List InternalRoute :=
  match result.committed with
  | some plan => installedRoutes plan.routeChanges
  | none => []

@[simp] theorem installedRoutes_append (first second : List RouteChange) :
    installedRoutes (first ++ second) = installedRoutes first ++ installedRoutes second :=
  List.filterMap_append

theorem installedRoutes_unstamped (changes : List RouteChange) :
    (installedRoutes changes).map InternalRoute.unstamped =
      installedRoutes (changes.map RouteChange.unstamped) := by
  induction changes with
  | nil => rfl
  | cons change rest ih =>
    obtain ⟨type, route⟩ := change
    cases type <;> cases route <;>
      simpa [installedRoutes, RouteChange.unstamped, ChangedRoute.unstamped] using ih

namespace Rib

theorem planUpdateItem_installs (nodeId : String) (peerInfo : PeerInfo) (routes : List InternalRoute)
    (item : UpdateItem) (r : InternalRoute) :
    r ∈ installedRoutes (planUpdateItem nodeId peerInfo routes item).routeChanges ↔
      TakesEffect nodeId routes item ∧ r = itemRoute peerInfo item := by
  have hstep := planUpdateItem_step nodeId peerInfo routes item
  generalize planUpdateItem nodeId peerInfo routes item = turn at hstep ⊢
  cases hstep with
  | looped hadd hloop => simp [installedRoutes, TakesEffect, hloop]
  | kept existing hadd hloop hfound hlen hfresh =>
    simp [installedRoutes, TakesEffect, hfound, hfresh, hlen]
  | replaced existing hadd hloop hfound hbetter =>
    simp [installedRoutes, TakesEffect, hadd, hloop, hfound, hbetter]
  | installed hadd hloop hfound => simp [installedRoutes, TakesEffect, hadd, hloop, hfound]
  | absent hremove | withdrawn removed hremove => simp [installedRoutes, TakesEffect, hremove]

/-- What holds of every route a message installs is what holds, at each entry's
    own turn, of the entries that take effect. -/
theorem planUpdateItems_installs (nodeId : String) (peerInfo : PeerInfo) (A : InternalRoute → Prop)
    (updates : List UpdateItem) :
    ∀ routes, (∀ r ∈ installedRoutes (planUpdateItems nodeId peerInfo routes updates).routeChanges, A r) ↔
      EachTurn nodeId peerInfo
        (fun running item => TakesEffect nodeId running item → A (itemRoute peerInfo item)) routes updates := by
  induction updates with
  | nil => simp [planUpdateItems, installedRoutes, EachTurn]
  | cons item rest ih =>
    intro routes
    simp only [planUpdateItems, installedRoutes_append, List.forall_mem_append, EachTurn, ih,
      planUpdateItem_installs]
    refine and_congr_left fun _ => ⟨fun h heffect => h _ ⟨heffect, rfl⟩, ?_⟩
    rintro h r ⟨heffect, rfl⟩
    exact h heffect

end Rib

namespace Bus

/-- The entries of an update that the inbound policy lets through. -/
def receivedUpdates (config : BusConfig) (state : RouteTable) (peerInfo : PeerInfo)
    (updates : List UpdateItem) : List UpdateItem :=
  match applyInboundPolicy config state (.internalProtocolUpdate peerInfo updates) with
  | some (.internalProtocolUpdate _ filteredUpdates) => filteredUpdates
  | _ => []

theorem applyInboundPolicy_update (config : BusConfig) (state : RouteTable) (peerInfo : PeerInfo)
    (updates : List UpdateItem) :
    applyInboundPolicy config state (.internalProtocolUpdate peerInfo updates) =
        some (.internalProtocolUpdate peerInfo (receivedUpdates config state peerInfo updates)) ∨
      applyInboundPolicy config state (.internalProtocolUpdate peerInfo updates) = none ∧
        receivedUpdates config state peerInfo updates = [] := by
  cases hpolicy : applyInboundPolicy config state (.internalProtocolUpdate peerInfo updates) with
  | none => exact .inr ⟨rfl, by simp [receivedUpdates, hpolicy]⟩
  | some filteredAction =>
    left
    obtain rfl | ⟨_, _, filteredUpdates, heq, rfl, -⟩ := applyInboundPolicy_cases hpolicy
    · simp [receivedUpdates, hpolicy]
    · cases heq
      simp [receivedUpdates, hpolicy]

theorem receivedUpdates_sublist (config : BusConfig) (state : RouteTable) (peerInfo : PeerInfo)
    (updates : List UpdateItem) : (receivedUpdates config state peerInfo updates).Sublist updates := by
  obtain h | ⟨-, h⟩ := applyInboundPolicy_update config state peerInfo updates
  · obtain heq | ⟨_, _, _, heq, hfiltered, hsub⟩ := applyInboundPolicy_cases h
    · injection heq with _ hupdates
      rw [hupdates]
    · cases heq
      cases hfiltered
      exact hsub
  · rw [h]
    exact List.nil_sublist _

/-- Ports aside, a dispatched update installs what its received entries install
    in the update loop. -/
theorem dispatch_update_installed (config : BusConfig) (bus : Bus) (now : Int) (peerInfo : PeerInfo)
    (updates : List UpdateItem) :
    (dispatch config bus now (.internalProtocolUpdate peerInfo updates)).installed.map InternalRoute.unstamped =
      (installedRoutes (Rib.planUpdateItems config.node.name peerInfo bus.state.internalRoutes
        (receivedUpdates config bus.state peerInfo updates)).routeChanges).map InternalRoute.unstamped := by
  simp only [dispatch, lacksPeerToken, Bool.false_eq_true, if_false]
  obtain h | ⟨h, hnil⟩ := applyInboundPolicy_update config bus.state peerInfo updates
  · rw [h]
    dsimp only
    generalize receivedUpdates config bus.state peerInfo updates = received
    have hports := planPorts_portsOnly bus.portAllocator
      (Rib.plan config.node.name now (.internalProtocolUpdate peerInfo received) bus.state)
    cases hsame : (Rib.plan config.node.name now (.internalProtocolUpdate peerInfo received)
        bus.state).sameReference with
    | true =>
      have hquiet : (Rib.planUpdateItems config.node.name peerInfo bus.state.internalRoutes
          received).routeChanges = [] := by
        simp only [Rib.plan, Rib.planInternalProtocolUpdate] at hsame
        split at hsame
        · rename_i hno
          exact hno.1
        · cases hsame
      simp [Rib.stateChanged, hsame, DispatchResult.installed, hquiet, installedRoutes]
    | false =>
      simp only [Rib.stateChanged, hsame, Bool.not_false, if_true, DispatchResult.installed,
        installedRoutes_unstamped, hports.routeChanges]
      simp only [Rib.plan, Rib.planInternalProtocolUpdate] at hsame ⊢
      split
      · rename_i hno
        simp [hno, noChange] at hsame
      · rfl
  · rw [h, hnil]
    rfl

end Bus

/-! ### Attribution -/

/-- A route that the session of `identity` may install: it comes from that
    peer, over a path that starts there and ends at the origin. -/
structure Attributed (identity : String) (r : InternalRoute) : Prop where
  peer : r.peer.name = identity
  firstHop : r.nodePath.head? = some identity
  lastHop : r.nodePath.getLast? = some r.originNode

theorem attributed_unstamped (identity : String) (r : InternalRoute) :
    Attributed identity r.unstamped ↔ Attributed identity r :=
  ⟨fun h => ⟨h.peer, h.firstHop, h.lastHop⟩, fun h => ⟨h.peer, h.firstHop, h.lastHop⟩⟩

/-- For an entry that passed the session's checks, attribution comes down to
    the end of its path. -/
theorem attributed_itemRoute_iff {client : IBGPClient} {peerInfo : PeerInfo} {updates : List UpdateItem}
    (hverified : client.Verified (.updateCall peerInfo updates)) {item : UpdateItem} (hmem : item ∈ updates) :
    Attributed client.peerIdentity (Rib.itemRoute peerInfo item) ↔
      item.nodePath.getLast? = some item.originNode := by
  constructor
  · exact fun h => h.lastHop
  · intro hlast
    refine ⟨hverified.peerName, ?_, hlast⟩
    obtain hempty | hhead := hverified.firstHop _ _ rfl item hmem
    · simp [hempty] at hlast
    · exact hhead

theorem eachTurn_congr {nodeId : String} {peerInfo : PeerInfo}
    {C C' : List InternalRoute → UpdateItem → Prop} {updates : List UpdateItem}
    (h : ∀ routes, ∀ item ∈ updates, (C routes item ↔ C' routes item)) (routes : List InternalRoute) :
    Rib.EachTurn nodeId peerInfo C routes updates ↔ Rib.EachTurn nodeId peerInfo C' routes updates := by
  induction updates generalizing routes with
  | nil => exact Iff.rfl
  | cons item rest ih =>
    exact and_congr (h routes item (by simp))
      (ih (fun routes' item' hmem => h routes' item' (by simp [hmem])) _)

/-- Every route an `update` call installs is attributed to the authenticated
    peer exactly when the call is refused, or each received entry that takes
    effect at its turn names the last node of its path as its origin. -/
theorem update_attributed_iff {services : TokenServices} {token identity : String} {client : IBGPClient}
    (hsub : services.decodeSub token = .ok (some identity))
    (hclient : createIBGPClient services token = .ok client)
    (config : BusConfig) (bus : Bus) (now : Int) (peerInfo : PeerInfo) (updates : List UpdateItem) :
    (∀ r ∈ (client.call config bus now (.updateCall peerInfo updates)).installed, Attributed identity r) ↔
      (client.Verified (.updateCall peerInfo updates) →
        Rib.EachTurn config.node.name peerInfo
          (fun routes item => Rib.TakesEffect config.node.name routes item →
            item.nodePath.getLast? = some item.originNode)
          bus.state.internalRoutes (Bus.receivedUpdates config bus.state peerInfo updates)) := by
  obtain rfl := createIBGPClient_identity hsub hclient
  have hunstamped (routes : List InternalRoute) : (∀ r ∈ routes, Attributed client.peerIdentity r) ↔
      ∀ r ∈ routes.map InternalRoute.unstamped, Attributed client.peerIdentity r := by
    simp [attributed_unstamped]
  rcases client.call_cases config bus now (.updateCall peerInfo updates) with
    ⟨hrefused, error, hcall⟩ | ⟨hverified, hcall⟩
  · simp [hcall, hrefused, Bus.DispatchResult.installed]
  · have hentries : ∀ routes, ∀ item ∈ Bus.receivedUpdates config bus.state peerInfo updates,
        ((Rib.TakesEffect config.node.name routes item →
            Attributed client.peerIdentity (Rib.itemRoute peerInfo item)) ↔
          (Rib.TakesEffect config.node.name routes item →
            item.nodePath.getLast? = some item.originNode)) := by
      intro routes item hmem
      have hsent := (Bus.receivedUpdates_sublist config bus.state peerInfo updates).subset hmem
      rw [attributed_itemRoute_iff hverified hsent]
    rw [hcall, IBGPCall.toAction, hunstamped, Bus.dispatch_update_installed, ← hunstamped,
      Rib.planUpdateItems_installs, eachTurn_congr hentries]
    simp [hverified]

/-- Services under which every token is valid and carries the same subject. -/
def TokenServices.always (sub : String) : TokenServices where
  validateToken _ _ := .ok ()
  decodeSub _ := .ok (some sub)

/-- One advertisement of `node-b` for a channel `books`. -/
def booksEntry (nodePath : List String) (originNode : String) : UpdateItem :=
  { action := .add, route := { name := "books", protocol := .http }, nodePath, originNode }

theorem update_attributed_iff_books :
    (IBGPClient.call ⟨"node-b"⟩ { node := { name := "node-a" } } { state := newRouteTable } 0
        (.updateCall { name := "node-b" } [booksEntry ["node-b", "node-c"] "node-c"])).installed ≠ [] ∧
      ∀ r ∈ (IBGPClient.call ⟨"node-b"⟩ { node := { name := "node-a" } } { state := newRouteTable } 0
          (.updateCall { name := "node-b" } [booksEntry ["node-b", "node-c"] "node-c"])).installed,
        Attributed "node-b" r := by
  refine ⟨by decide, ?_⟩
  have hsub : (TokenServices.always "node-b").decodeSub "jwt" = .ok (some "node-b") := rfl
  have hclient : createIBGPClient (.always "node-b") "jwt" = .ok ⟨"node-b"⟩ := rfl
  refine (update_attributed_iff hsub hclient { node := { name := "node-a" } } { state := newRouteTable } 0
    { name := "node-b" } [booksEntry ["node-b", "node-c"] "node-c"]).mpr fun _ => ?_
  exact ⟨fun _ => by decide, trivial⟩

/-- A session of `node-b` may attribute a route to `node-c`, which is not on its
    path, and may install one over an empty path. -/
theorem update_forges_origin :
    ∃ client, createIBGPClient (.always "node-b") "jwt" = .ok client ∧
      (∃ r ∈ (client.call { node := { name := "node-a" } } { state := newRouteTable } 0
          (.updateCall { name := "node-b" } [booksEntry ["node-b"] "node-c"])).installed,
        ¬ Attributed "node-b" r) ∧
      ∃ r ∈ (client.call { node := { name := "node-a" } } { state := newRouteTable } 0
          (.updateCall { name := "node-b" } [booksEntry [] "node-c"])).installed,
        r.nodePath = [] := by
  refine ⟨⟨"node-b"⟩, rfl, ⟨Rib.itemRoute { name := "node-b" } (booksEntry ["node-b"] "node-c"), ?_, ?_⟩,
    ⟨Rib.itemRoute { name := "node-b" } (booksEntry [] "node-c"), ?_, rfl⟩⟩
  · decide
  · exact fun h => absurd h.lastHop (by decide)
  · decide

end CatalystRouter
