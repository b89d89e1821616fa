import CatalystRouter.Orchestrator.Notify
import CatalystRouter.Orchestrator.PeerTokens
import CatalystRouter.Orchestrator.Runs

namespace CatalystRouter

/-- Two payloads that differ at most in a token that neither leaves blank. -/
structure PeerInfo.Twin (peer other : PeerInfo) : Prop where
  safe : peer.safePeer = other.safePeer
  token : peer.peerToken = other.peerToken ∨
    Bus.blankToken peer.peerToken = false ∧ Bus.blankToken other.peerToken = false

/-- Two actions that differ at most in the token of their payload. -/
inductive Action.Twin : Action → Action → Prop where
  | same (action : Action) : Twin action action
  | localPeerCreate {data other : PeerInfo} (h : data.Twin other) :
      Twin (.localPeerCreate data) (.localPeerCreate other)
  | localPeerUpdate {data other : PeerUpdate} (h : data.toPeerInfo.Twin other.toPeerInfo)
      (hcleared : data.cleared = other.cleared) :
      Twin (.localPeerUpdate data) (.localPeerUpdate other)
  | internalProtocolOpen {peerInfo other : PeerInfo} (h : peerInfo.Twin other) (holdTime : Option Int) :
      Twin (.internalProtocolOpen peerInfo holdTime) (.internalProtocolOpen other holdTime)
  | internalProtocolConnected {peerInfo other : PeerInfo} (h : peerInfo.Twin other) :
      Twin (.internalProtocolConnected peerInfo) (.internalProtocolConnected other)
  | internalProtocolClose {peerInfo other : PeerInfo} (h : peerInfo.Twin other) (code : Int) :
      Twin (.internalProtocolClose peerInfo code) (.internalProtocolClose other code)
  | internalProtocolUpdate {peerInfo other : PeerInfo} (h : peerInfo.Twin other) (updates : List UpdateItem) :
      Twin (.internalProtocolUpdate peerInfo updates) (.internalProtocolUpdate other updates)
  | internalProtocolKeepalive {peerInfo other : PeerInfo} (h : peerInfo.Twin other) :
      Twin (.internalProtocolKeepalive peerInfo) (.internalProtocolKeepalive other)

namespace Bus

/-- `NetworkClient.listPeers`. -/
def listPeers (bus : Bus) : List PublicPeer := bus.state.peers.map PeerView.toPublic

/-- `DataChannelClient.listRoutes`. -/
def listRoutes (bus : Bus) : PublicRoutes :=
  ⟨bus.state.localRoutes, bus.state.internalRoutes.map InternalRouteView.toPublic⟩

/-- What a slot shows to API clients and to other nodes: the public views, the reply and
    the update messages, each with the peer it goes to. -/
structure Observation where
  table : PublicRouteTable
  peers : List PublicPeer
  routes : PublicRoutes
  reply : Except String Unit
  updates : List (PublicPeer × List UpdateItem)

def observe (result : DispatchResult) : Observation :=
  { table := RouteTableView.toPublic result.bus.state
    peers := listPeers result.bus
    routes := listRoutes result.bus
    reply := result.outcome.map fun _ => ()
    updates := result.sends.map fun sent => (PeerView.toPublic sent.1, sent.2) }

variable (config : BusConfig)

/-- What the slots of a run show, one after the other. -/
def observations : Bus → List Event → List Observation
  | _, [] => []
  | bus, .dispatch now action :: rest =>
    observe (dispatch config bus now action) :: observations (dispatch config bus now action).bus rest
  | bus, .keepaliveSent peerName now :: rest => observations (bus.keepaliveSent peerName now) rest

/-- The dispatches of a run with their clock readings. -/
def dispatches (events : List Event) : List (Int × Action) :=
  events.filterMap fun
    | .dispatch now action => some (now, action)
    | .keepaliveSent _ _ => none

variable {config}

/-! ### Hiding the tokens -/

/-- Make all tokens that are not blank equal. -/
def hideToken (token : String) : String := if blankToken (some token) then token else "token"

theorem blankToken_hideToken (token : String) : blankToken (some (hideToken token)) = blankToken (some token) := by
  unfold hideToken
  split
  · rfl
  · rename_i hvisible
    simp only [Bool.not_eq_true] at hvisible
    rw [hvisible]
    decide

theorem hideToken_of_twin {peer other : PeerInfo} (h : peer.Twin other) :
    peer.mapToken hideToken = other.mapToken hideToken := by
  have htoken : peer.peerToken.map hideToken = other.peerToken.map hideToken := by
    rcases h.token with heq | ⟨hpeer, hother⟩
    · rw [heq]
    · cases hfirst : peer.peerToken with
      | none => simp [hfirst, blankToken] at hpeer
      | some first =>
        cases hsecond : other.peerToken with
        | none => simp [hsecond, blankToken] at hother
        | some second =>
          rw [hfirst] at hpeer
          rw [hsecond] at hother
          simp [hideToken, hpeer, hother]
  have hsafe := h.safe
  simp only [PeerInfo.safePeer, PublicPeerInfo.mk.injEq] at hsafe
  obtain ⟨hname, hdomains, hendpoint, hlabels, haddress⟩ := hsafe
  simp only [PeerInfo.mapToken, htoken, hname, hdomains, hendpoint, hlabels, haddress]

theorem hideToken_of_twinAction {action other : Action} (h : action.Twin other) :
    action.mapToken hideToken = other.mapToken hideToken := by
  cases h with
  | same => rfl
  | localPeerCreate h | internalProtocolConnected h | internalProtocolKeepalive h =>
    simp only [Action.mapToken, hideToken_of_twin h]
  | @localPeerUpdate data other h hcleared =>
    have hinfo : (data.mapToken hideToken).toPeerInfo = (other.mapToken hideToken).toPeerInfo := hideToken_of_twin h
    have hdata : data.mapToken hideToken = other.mapToken hideToken := by
      have hfields : PeerUpdate.mk (data.mapToken hideToken).toPeerInfo data.cleared =
          PeerUpdate.mk (other.mapToken hideToken).toPeerInfo other.cleared := by rw [hinfo, hcleared]
      exact hfields
    simp only [Action.mapToken, hdata]
  | internalProtocolOpen h _ | internalProtocolClose h _ | internalProtocolUpdate h _ =>
    simp only [Action.mapToken, hideToken_of_twin h]

/-! ### What a slot shows -/

theorem sends_mapTokens (f : String → String) (result : DispatchResult) :
    (result.mapTokens f).sends = result.sends.map fun sent => (sent.1.mapToken f, sent.2) := by
  simp only [DispatchResult.sends, DispatchResult.mapTokens, updatesSent, ← List.map_flatten, List.filterMap_map,
    List.map_filterMap]
  refine List.filterMap_congr fun effect _ => ?_
  cases effect <;> rfl

theorem observe_mapTokens (f : String → String) (result : DispatchResult) :
    observe (result.mapTokens f) = observe result := by
  have hreply : (result.mapTokens f).outcome.map (fun _ => ()) = result.outcome.map fun _ => () := by
    unfold DispatchResult.mapTokens
    cases result.outcome <;> rfl
  have hpeers : listPeers (result.mapTokens f).bus = listPeers result.bus := by
    simp [listPeers, DispatchResult.mapTokens, Bus.mapTokens, RouteTable.mapTokens, Function.comp_def]
  have hroutes : listRoutes (result.mapTokens f).bus = listRoutes result.bus := by
    simp [listRoutes, DispatchResult.mapTokens, Bus.mapTokens, RouteTable.mapTokens, Function.comp_def]
  rw [observe, hreply, hpeers, hroutes, sends_mapTokens, List.map_map]
  simp [observe, DispatchResult.mapTokens, Bus.mapTokens, Function.comp_def]

/-- When keepalives were last sent changes no table, reply or update message. -/
theorem dispatch_lastKeepaliveSent (bus : Bus) (sent : String → Int) (now : Int) (action : Action) :
    observe (dispatch config { bus with lastKeepaliveSent := sent } now action) =
        observe (dispatch config bus now action) ∧
      (dispatch config { bus with lastKeepaliveSent := sent } now action).bus =
        { (dispatch config bus now action).bus with lastKeepaliveSent := sent } := by
  simp only [dispatch]
  split
  · exact ⟨rfl, rfl⟩
  · cases applyInboundPolicy config bus.state action with
    | none => exact ⟨rfl, rfl⟩
    | some filteredAction =>
      dsimp only
      split
      · refine ⟨?_, rfl⟩
        simp only [observe, DispatchResult.sends, handlePostCommit, updatesSent_append, updatesSent_keepalives,
          listPeers, listRoutes]
      · refine ⟨?_, rfl⟩
        simp only [observe, DispatchResult.sends, updatesSent_keepalives, listPeers, listRoutes]

/-! ### Twin runs -/

/-- Two buses that differ at most in their tokens and in when they sent keepalives. -/
structure Alike (bus other : Bus) : Prop where
  state : bus.state.mapTokens hideToken = other.state.mapTokens hideToken
  portAllocator : bus.portAllocator = other.portAllocator

/-- Twin actions show the same on alike buses, and leave alike buses. -/
theorem dispatch_alike (hpolicy : config.routePolicy = none) {bus other : Bus} (h : Alike bus other) (now : Int)
    {action otherAction : Action} (haction : action.Twin otherAction) :
    observe (dispatch config bus now action) = observe (dispatch config other now otherAction) ∧
      Alike (dispatch config bus now action).bus (dispatch config other now otherAction).bus := by
  have hbus : other.mapTokens hideToken =
      { bus.mapTokens hideToken with lastKeepaliveSent := other.lastKeepaliveSent } := by
    simp [Bus.mapTokens, h.state, h.portAllocator]
  have hfirst := dispatch_mapTokens hpolicy blankToken_hideToken bus now action
  have hsecond := dispatch_mapTokens hpolicy blankToken_hideToken other now otherAction
  obtain ⟨hshown, hleft⟩ := dispatch_lastKeepaliveSent (bus.mapTokens hideToken) other.lastKeepaliveSent now
    (action.mapToken hideToken)
  rw [← hideToken_of_twinAction haction, hbus] at hsecond
  rw [hsecond, hfirst] at hshown hleft
  rw [observe_mapTokens, observe_mapTokens] at hshown
  refine ⟨hshown.symm, ?_, ?_⟩
  · exact (congrArg Bus.state hleft).symm
  · exact (congrArg Bus.portAllocator hleft).symm

/-- A run shows what its dispatches show on their own, as twins and on an alike bus. -/
theorem observations_alike (hpolicy : config.routePolicy = none) {events : List Event} :
    ∀ {bus other : Bus} {slots : List (Int × Action)}, Alike bus other →
      List.Forall₂ (fun slot twin => slot.1 = twin.1 ∧ slot.2.Twin twin.2) (dispatches events) slots →
        observations config bus events = observations config other (slots.map fun slot => .dispatch slot.1 slot.2) := by
  induction events with
  | nil =>
    intro bus other slots _ htwin
    cases htwin
    rfl
  | cons event rest ih =>
    intro bus other slots halike htwin
    cases event with
    | keepaliveSent peerName now => exact ih ⟨halike.state, halike.portAllocator⟩ htwin
    | dispatch now action =>
      cases htwin with
      | @cons _ twin _ slots hfirst hrest =>
        obtain ⟨rfl, haction⟩ := hfirst
        obtain ⟨hshown, hleft⟩ := dispatch_alike hpolicy halike _ haction
        rw [List.map_cons, observations, observations, hshown, ih hleft hrest]

/-- Runs whose dispatches have the same clock readings, and actions that differ at most
    in tokens, show the same at every slot: the public tables and lists, the replies
    and the update messages. -/
theorem observations_eq (hpolicy : config.routePolicy = none) {events others : List Event}
    (htwin : List.Forall₂ (fun slot twin => slot.1 = twin.1 ∧ slot.2.Twin twin.2) (dispatches events)
      (dispatches others)) (bus : Bus) : observations config bus events = observations config bus others := by
  have hsame : List.Forall₂ (fun slot twin : Int × Action => slot.1 = twin.1 ∧ slot.2.Twin twin.2)
      (dispatches others) (dispatches others) := List.forall₂_same.mpr fun slot _ => ⟨rfl, .same slot.2⟩
  rw [observations_alike hpolicy ⟨rfl, rfl⟩ htwin, observations_alike hpolicy ⟨rfl, rfl⟩ hsame]

theorem observations_newPeer :
    observations { node := { name := "node-a" } } { state := newRouteTable }
        [.dispatch 1 (.localPeerCreate { name := "node-b", peerToken := some "secret" }),
          .keepaliveSent "node-b" 2,
          .dispatch 3 (.internalProtocolConnected { name := "node-b", peerToken := some "secret" })] =
      observations { node := { name := "node-a" } } { state := newRouteTable }
        [.dispatch 1 (.localPeerCreate { name := "node-b", peerToken := some "other" }),
          .dispatch 3 (.internalProtocolConnected { name := "node-b", peerToken := some "third" })] :=
  observations_eq rfl
    (.cons ⟨rfl, .localPeerCreate ⟨rfl, .inr ⟨by decide, by decide⟩⟩⟩
      (.cons ⟨rfl, .internalProtocolConnected ⟨rfl, .inr ⟨by decide, by decide⟩⟩⟩ .nil)) _

end Bus

end CatalystRouter
