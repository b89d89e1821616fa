import CatalystRouter.Orchestrator.Allocation
import CatalystRouter.Orchestrator.KeyEffect

namespace CatalystRouter

/-! What the session of one peer can do to the routes of the others. -/

/-- The buses of all runs from `start`, of any actions. -/
inductive Bus.Reachable (config : BusConfig) (start : Bus) : Bus → Prop where
  | start : Reachable config start start
  | dispatch {bus : Bus} (h : Reachable config start bus) (now : Int) (action : Action) :
      Reachable config start (Bus.dispatch config bus now action).bus
  | keepaliveSent {bus : Bus} (h : Reachable config start bus) (peerName : String) (now : Int) :
      Reachable config start (Bus.keepaliveSent bus peerName now)

theorem Bus.Reachable.wellKeyed {config : BusConfig} {start bus : Bus}
    (hstart : Rib.RouteTable.WellKeyed start.state) (h : Bus.Reachable config start bus) :
    Rib.RouteTable.WellKeyed bus.state := by
  induction h with
  | start => exact hstart
  | dispatch _ now action ih => exact Bus.dispatch_wellKeyed config now action ih
  | keepaliveSent _ _ _ ih => exact ih

/-- The calls of one session, each at its clock reading. -/
def IBGPClient.calls (self : IBGPClient) (config : BusConfig) : Bus → List (Int × IBGPCall) → Bus
  | bus, [] => bus
  | bus, (now, call) :: rest => self.calls config (self.call config bus now call).bus rest

/-- Every call of the list satisfies `C` at its turn. -/
def IBGPClient.EachCall (self : IBGPClient) (config : BusConfig) (C : Bus → IBGPCall → Prop) :
    Bus → List (Int × IBGPCall) → Prop
  | _, [] => True
  | bus, (now, call) :: rest => C bus call ∧ self.EachCall config C (self.call config bus now call).bus rest

/-- A strictly shorter route of `identity` has taken the place of `r`. -/
def RouteTable.TakenOver (state : RouteTable) (identity : String) (r : InternalRoute) : Prop :=
  ∃ r' ∈ state.view r.key, r'.peer.name = identity ∧ r'.nodePath.length < r.nodePath.length

/-- `r` is in place as it was, or a strictly shorter route of `identity` is. -/
def RouteTable.Spares (state : RouteTable) (identity : String) (r : InternalRoute) : Prop :=
  state.view r.key = some r ∨ state.TakenOver identity r

/-- Removing `x` frees the allocator name of `r`. -/
def InternalRoute.FreesEgress (x r : InternalRoute) : Prop := r.egressKey = x.name ∨ r.egressKey = x.egressKey

namespace Rib

/-- An entry leaves `r` its identity: it does not remove it, and a path it makes
    the node take up is shorter. -/
def KeepsIdentity (nodeId : String) (r : InternalRoute) (routes : List InternalRoute) (item : UpdateItem) : Prop :=
  item.key = r.key → item.action = .add ∧
    (TakesEffect nodeId routes item → item.nodePath.length < r.nodePath.length)

/-- An entry leaves `r` its allocator name. -/
def KeepsPort (r : InternalRoute) (routes : List InternalRoute) (item : UpdateItem) : Prop :=
  item.action = .remove → ∀ x ∈ installedAt routes item.key, ¬ x.FreesEgress r

end Rib

/-- A call of `identity` neither withdraws what stands for `r` nor frees its
    port: no removal of its identity, no hard close once it is taken over, no
    longer path in place of a stale one. -/
def IBGPCall.Respects (config : BusConfig) (identity : String) (r : InternalRoute) (bus : Bus) :
    IBGPCall → Prop
  | .updateCall peerInfo updates =>
    Rib.EachTurn config.node.name peerInfo
      (fun routes item => Rib.KeepsIdentity config.node.name r routes item ∧
        (bus.portAllocator ≠ none → Rib.KeepsPort r routes item))
      bus.state.internalRoutes (Bus.receivedUpdates config bus.state peerInfo updates)
  | .closeCall _ code =>
    code ≠ CloseCodes.transportError → bus.state.peers.any (hasName identity) = true →
      (∀ x ∈ bus.state.view r.key, x.peer.name ≠ identity) ∧
        (bus.portAllocator ≠ none → ∀ x ∈ bus.state.internalRoutes, x.peer.name = identity → ¬ x.FreesEgress r)
  | _ => True

namespace Rib

variable {nodeId : String} {peerInfo : PeerInfo} {r : InternalRoute}

/-- What stands for `r` after an entry that leaves it its identity. -/
theorem planUpdateItem_spares {routes : List InternalRoute} {item : UpdateItem}
    (hkeeps : KeepsIdentity nodeId r routes item)
    (h : installedAt routes r.key = some r ∨
      ∃ r' ∈ installedAt routes r.key, r'.peer.name = peerInfo.name ∧ r'.nodePath.length < r.nodePath.length) :
    installedAt (planUpdateItem nodeId peerInfo routes item).routes r.key = some r ∨
      ∃ r' ∈ installedAt (planUpdateItem nodeId peerInfo routes item).routes r.key,
        r'.peer.name = peerInfo.name ∧ r'.nodePath.length < r.nodePath.length := by
  by_cases hkey : item.key = r.key
  · obtain ⟨hadd, hshorter⟩ := hkeeps hkey
    rw [← hkey] at h ⊢
    rw [planUpdateItem_installedAt, receiveItem_add hadd]
    split
    · rename_i heffect
      exact .inr ⟨itemRoute peerInfo item, rfl, rfl, hshorter heffect⟩
    · exact h
  · rw [planUpdateItem_installedAt_of_ne nodeId peerInfo routes hkey]
    exact h

theorem planUpdateItem_frees {routes : List InternalRoute} {item : UpdateItem} (hkeeps : KeepsPort r routes item) :
    ∀ change ∈ (planUpdateItem nodeId peerInfo routes item).routeChanges, r.egressKey ∉ change.frees := by
  have hstep := planUpdateItem_step nodeId peerInfo routes item
  generalize planUpdateItem nodeId peerInfo routes item = turn at hstep ⊢
  intro change hmem hfrees
  cases hstep with
  | looped | kept | absent => cases hmem
  | replaced | installed =>
    obtain rfl := List.mem_singleton.mp hmem
    cases hfrees
  | withdrawn removed hremove hfound =>
    obtain rfl := List.mem_singleton.mp hmem
    refine hkeeps hremove removed hfound ?_
    simpa [RouteChange.frees, InternalRoute.FreesEgress] using hfrees

/-- Marking the routes of `identity` stale spares the others. -/
theorem spares_markStale {state : RouteTable} {identity : String} (hforeign : r.peer.name ≠ identity)
    (h : state.Spares identity r) (peers : List PeerRecord) :
    RouteTable.Spares { state with peers, internalRoutes := state.internalRoutes.map (markStale identity) }
      identity r := by
  unfold RouteTable.Spares RouteTable.TakenOver RouteTable.view at h ⊢
  rw [installedAt_markStale]
  obtain h | ⟨r', h, hpeer, hlen⟩ := h
  · left
    simp [h, markStale, hforeign]
  · right
    refine ⟨{ r' with isStale := true }, ?_, hpeer, hlen⟩
    simp [Option.mem_def.mp h, markStale, hpeer]

/-- Dropping the routes of `identity` spares the others as long as none of them
    is taken over. -/
theorem spares_filter {state : RouteTable} {identity : String} (hkeyed : RouteTable.WellKeyed state)
    (hforeign : r.peer.name ≠ identity) (h : state.Spares identity r)
    (hown : ∀ x ∈ state.view r.key, x.peer.name ≠ identity) (peers : List PeerRecord) :
    RouteTable.Spares
      { state with peers, internalRoutes := state.internalRoutes.filter fun x => x.peer.name != identity }
      identity r := by
  obtain h | ⟨r', h, hpeer, -⟩ := h
  · left
    have hnodup := hkeyed.internalKeys.sublist
      ((List.filter_sublist (p := fun x : InternalRoute => x.peer.name != identity)).map InternalRoute.key)
    refine (installedAt_eq_some_iff hnodup).mpr ⟨List.mem_filter.mpr ⟨mem_of_installedAt h, ?_⟩, rfl⟩
    simpa using hforeign
  · exact absurd hpeer (hown r' h)

end Rib

/-- The action of a call as the inbound policy lets it through. -/
def IBGPCall.received (config : BusConfig) (state : RouteTable) : IBGPCall → Action
  | .updateCall peerInfo updates =>
    .internalProtocolUpdate peerInfo (Bus.receivedUpdates config state peerInfo updates)
  | call => call.toAction

theorem IBGPCall.applyInboundPolicy {config : BusConfig} {state : RouteTable} {call : IBGPCall} {action : Action}
    (h : Bus.applyInboundPolicy config state call.toAction = some action) : action = call.received config state := by
  cases call with
  | updateCall peerInfo updates =>
    obtain hpolicy | ⟨hpolicy, -⟩ := Bus.applyInboundPolicy_update config state peerInfo updates
    · exact Option.some.inj (h.symm.trans hpolicy)
    · cases hpolicy.symm.trans h
  | openCall | closeCall | keepaliveCall =>
    obtain hsame | ⟨_, _, _, hupdate, -⟩ := Bus.applyInboundPolicy_cases h
    · exact hsame
    · cases hupdate

namespace Rib

variable {config : BusConfig} {identity : String} {r : InternalRoute} {bus : Bus} {call : IBGPCall}

/-- What one call of `identity` plans spares `r`. -/
theorem plan_spares (hkeyed : RouteTable.WellKeyed bus.state) (hname : call.peerInfo.name = identity)
    (hforeign : r.peer.name ≠ identity) (hrespects : call.Respects config identity r bus)
    (h : bus.state.Spares identity r) (now : Int) :
    (plan config.node.name now (call.received config bus.state) bus.state).newState.Spares identity r := by
  subst hname
  cases call with
  | openCall peerInfo holdTime =>
    simp only [IBGPCall.received, IBGPCall.toAction, plan, planInternalProtocolOpen]
    split <;> exact h
  | keepaliveCall peerInfo =>
    simp only [IBGPCall.received, IBGPCall.toAction, plan, planInternalProtocolKeepalive]
    split <;> exact h
  | closeCall peerInfo code =>
    simp only [IBGPCall.received, IBGPCall.toAction, plan, planInternalProtocolClose]
    split
    · rename_i hknown
      split
      · exact spares_markStale hforeign h _
      · rename_i hcode
        exact spares_filter hkeyed hforeign h (hrespects hcode hknown).1 _
    · exact h
  | updateCall peerInfo updates =>
    unfold RouteTable.Spares RouteTable.TakenOver
    rw [show (plan config.node.name now (IBGPCall.received config bus.state (.updateCall peerInfo updates))
      bus.state).newState.view r.key = _ from plan_update_view config.node.name now peerInfo _ bus.state r.key]
    refine planUpdateItems_induct (I := fun routes => installedAt routes r.key = some r ∨
      ∃ r' ∈ installedAt routes r.key, r'.peer.name = peerInfo.name ∧ r'.nodePath.length < r.nodePath.length)
      ?_ _ _ hrespects h
    intro routes item hturn hI
    exact planUpdateItem_spares hturn.1 hI

/-- What one call of `identity` plans leaves `r` its allocator name. -/
theorem plan_frees (hname : call.peerInfo.name = identity) (hrespects : call.Respects config identity r bus)
    (hports : bus.portAllocator ≠ none) (now : Int) :
    ∀ change ∈ (plan config.node.name now (call.received config bus.state) bus.state).routeChanges,
      r.egressKey ∉ change.frees := by
  subst hname
  cases call with
  | openCall peerInfo holdTime =>
    simp only [IBGPCall.received, IBGPCall.toAction, plan, planInternalProtocolOpen]
    split <;> intro change hmem <;> cases hmem
  | keepaliveCall peerInfo =>
    simp only [IBGPCall.received, IBGPCall.toAction, plan, planInternalProtocolKeepalive]
    split <;> intro change hmem <;> cases hmem
  | closeCall peerInfo code =>
    simp only [IBGPCall.received, IBGPCall.toAction, plan, planInternalProtocolClose]
    intro change hmem hfrees
    split at hmem
    · rename_i hknown
      split at hmem
      · obtain ⟨x, -, rfl⟩ := List.mem_map.mp hmem
        cases hfrees
      · rename_i hcode
        obtain ⟨x, hx, rfl⟩ := List.mem_map.mp hmem
        obtain ⟨hx, hpeer⟩ := List.mem_filter.mp hx
        refine (hrespects hcode hknown).2 hports x hx (beq_iff_eq.mp hpeer) ?_
        simpa [RouteChange.frees, InternalRoute.FreesEgress] using hfrees
    · cases hmem
  | updateCall peerInfo updates =>
    rw [show (plan config.node.name now (IBGPCall.received config bus.state (.updateCall peerInfo updates))
      bus.state).routeChanges = _ from plan_update_changes config.node.name now peerInfo _ bus.state]
    refine planUpdateItems_changes (A := fun change => r.egressKey ∉ change.frees) ?_ _ _ hrespects
    intro routes item hturn
    exact planUpdateItem_frees (hturn.2 hports)

end Rib

theorem takenOver_iff_entryAt {state : RouteTable} {identity : String} {r : InternalRoute} :
    state.TakenOver identity r ↔
      ∃ e ∈ state.entryAt r.key, e.hop = identity ∧ e.path.length < r.nodePath.length := by
  unfold RouteTable.TakenOver RouteTable.entryAt
  cases state.view r.key <;> simp [InternalRoute.entry]

namespace IBGPClient

variable {client : IBGPClient} {config : BusConfig} {bus : Bus} {r : InternalRoute}

/-- One call that respects a foreign route spares it and leaves it its port. -/
theorem call_spares {call : IBGPCall} (hkeyed : Rib.RouteTable.WellKeyed bus.state)
    (hforeign : r.peer.name ≠ client.peerIdentity)
    (hrespects : client.Verified call → call.Respects config client.peerIdentity r bus)
    (hspares : bus.state.Spares client.peerIdentity r) (hsettled : Bus.Settled bus.portAllocator r) (now : Int) :
    (client.call config bus now call).bus.state.Spares client.peerIdentity r ∧
      Bus.Settled (client.call config bus now call).bus.portAllocator r := by
  obtain ⟨-, error, hcall⟩ | ⟨hverified, hcall⟩ := client.call_cases config bus now call
  · rw [hcall]
    exact ⟨hspares, hsettled⟩
  · have hrespects := hrespects hverified
    have hplan := Rib.plan_spares hkeyed hverified.peerName hforeign hrespects hspares now
    have hfrees := fun hports => Rib.plan_frees hverified.peerName hrespects hports now
    have hwellKeyed := Bus.dispatch_wellKeyed config now call.toAction hkeyed
    have hshape := Bus.dispatch_shape config bus now call.toAction
    rw [hcall]
    generalize Bus.dispatch config bus now call.toAction = result at hshape hwellKeyed ⊢
    cases hshape with
    | rejected | idle => exact ⟨hspares, hsettled⟩
    | committed filteredAction plan portAllocator hfiltered hchanged hports =>
      obtain rfl := IBGPCall.applyInboundPolicy hfiltered
      have hkept := Bus.planPorts_settled hsettled hfrees fun port hop => Rib.plan_portOps hop
      have hportsOnly := Bus.portsOnly_of_planPorts hports
      rw [hports] at hkept
      refine ⟨?_, hkept.1⟩
      obtain hview | htaken := hplan
      · left
        exact (installedAt_eq_some_iff hwellKeyed.internalKeys).mpr ⟨hkept.2 (mem_of_installedAt hview), rfl⟩
      · right
        rw [takenOver_iff_entryAt] at htaken ⊢
        rwa [entryAt_unstamped hportsOnly.internalRoutes]

/-- The session of a peer spares every route of another peer whose port is
    settled, as long as each of its calls respects the route: the route ends up
    unchanged, or a strictly shorter one of the session's peer is in its place. -/
theorem calls_spare {services : TokenServices} {token identity : String}
    (hsub : services.decodeSub token = .ok (some identity))
    (hclient : createIBGPClient services token = .ok client) {start : Bus}
    (hstart : Rib.RouteTable.WellKeyed start.state) (hreachable : Bus.Reachable config start bus)
    (hr : r ∈ bus.state.internalRoutes) (hforeign : r.peer.name ≠ identity)
    (hsettled : Bus.Settled bus.portAllocator r) (calls : List (Int × IBGPCall))
    (hcalls : client.EachCall config
      (fun running call => client.Verified call → call.Respects config identity r running) bus calls) :
    (client.calls config bus calls).state.view r.key = some r ∨
      ∃ r' ∈ (client.calls config bus calls).state.view r.key,
        r'.peer.name = identity ∧ r'.nodePath.length < r.nodePath.length := by
  obtain rfl := createIBGPClient_identity hsub hclient
  have hkeyed := hreachable.wellKeyed hstart
  have hspares : bus.state.Spares client.peerIdentity r :=
    .inl ((installedAt_eq_some_iff hkeyed.internalKeys).mpr ⟨hr, rfl⟩)
  clear hr hreachable
  -- induction on the calls, carrying that the route is spared and settled
  induction calls generalizing bus with
  | nil => exact hspares
  | cons first rest ih =>
    obtain ⟨now, call⟩ := first
    obtain ⟨hfirst, hrest⟩ := hcalls
    obtain ⟨hspares', hsettled'⟩ := call_spares hkeyed hforeign hfirst hspares hsettled now
    refine ih hsettled' hrest ?_ hspares'
    obtain ⟨-, error, hcall⟩ | ⟨-, hcall⟩ := client.call_cases config bus now call
    · rw [hcall]
      exact hkeyed
    · rw [hcall]
      exact Bus.dispatch_wellKeyed config now call.toAction hkeyed

/-- `node-a` with a port allocator, after `node-c` has advertised `books` of
    `node-d` to it. -/
def booksFromC : Bus :=
  (Bus.dispatch { node := { name := "node-a" } }
    { state := newRouteTable, portAllocator := some (createPortAllocator [.range 10000 10009]) } 0
    (.internalProtocolUpdate { name := "node-c" } [booksEntry ["node-c", "node-d"] "node-d"])).bus

def booksViaC : InternalRoute :=
  { name := "books", protocol := .http, envoyPort := some 10000, peer := { name := "node-c" },
    nodePath := ["node-c", "node-d"], originNode := "node-d" }

/-- `node-b` advertises a `books` of its own and sends a keepalive. -/
def callsOfB : List (Int × IBGPCall) :=
  [(1, .updateCall { name := "node-b" } [booksEntry ["node-b"] "node-b"]),
    (2, .keepaliveCall { name := "node-b" })]

theorem calls_spare_books :
    (calls ⟨"node-b"⟩ { node := { name := "node-a" } } booksFromC callsOfB).state.internalRoutes ≠
        booksFromC.state.internalRoutes ∧
      ((calls ⟨"node-b"⟩ { node := { name := "node-a" } } booksFromC callsOfB).state.view booksViaC.key =
          some booksViaC ∨
        ∃ r' ∈ (calls ⟨"node-b"⟩ { node := { name := "node-a" } } booksFromC callsOfB).state.view booksViaC.key,
          r'.peer.name = "node-b" ∧ r'.nodePath.length < booksViaC.nodePath.length) := by
  have hsub : (TokenServices.always "node-b").decodeSub "jwt" = .ok (some "node-b") := rfl
  have hclient : createIBGPClient (.always "node-b") "jwt" = .ok ⟨"node-b"⟩ := rfl
  have hreachable : Bus.Reachable { node := { name := "node-a" } }
      { state := newRouteTable, portAllocator := some (createPortAllocator [.range 10000 10009]) } booksFromC :=
    .dispatch .start 0 _
  have hsettled : Bus.Settled booksFromC.portAllocator booksViaC := by
    intro alloc halloc
    obtain rfl := Option.some.inj halloc
    exact ⟨10000, by decide +kernel, rfl⟩
  refine ⟨by decide +kernel, calls_spare hsub hclient Rib.newRouteTable_wellKeyed hreachable (by decide +kernel)
    (by decide) hsettled callsOfB ⟨fun _ => ⟨⟨fun hkey => ?_, fun _ hremove => ?_⟩, trivial⟩, fun _ => trivial,
    trivial⟩⟩
  · exact absurd hkey (by decide)
  · cases hremove

/-- A session of `node-b` withdraws what `node-c` advertised. -/
theorem calls_withdraw_foreign :
    ¬ ∀ (services : TokenServices) (token identity : String) (client : IBGPClient) (config : BusConfig)
      (start bus : Bus) (calls : List (Int × IBGPCall)) (r : InternalRoute),
      services.decodeSub token = .ok (some identity) → createIBGPClient services token = .ok client →
      start.state = newRouteTable → Bus.Reachable config start bus →
      r ∈ bus.state.internalRoutes → r.peer.name ≠ identity → r.isStale = false →
      (client.calls config bus calls).state.view r.key = some r ∨
        ∃ r' ∈ (client.calls config bus calls).state.view r.key,
          r'.peer.name = identity ∧ r'.nodePath.length < r.nodePath.length := by
  intro hclaim
  have hspared := hclaim (.always "node-b") "jwt" "node-b" ⟨"node-b"⟩ { node := { name := "node-a" } }
    { state := newRouteTable, portAllocator := some (createPortAllocator [.range 10000 10009]) } booksFromC
    [(1, .updateCall { name := "node-b" } [{ booksEntry [] "node-d" with action := .remove }])] booksViaC
    rfl rfl rfl (.dispatch .start 0 _) (by decide +kernel) (by decide) rfl
  revert hspared
  decide +kernel

end IBGPClient

end CatalystRouter
