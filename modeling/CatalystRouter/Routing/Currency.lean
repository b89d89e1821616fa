import CatalystRouter.Routing.Plan

namespace CatalystRouter

namespace Rib

/-- The peers whose session an action ends: a known peer that is deleted or
    closed, and the peers a Tick expires or purges. -/
def endedSessions (state : RouteTable) (action : Action) : List String :=
  match action with
  | .localPeerDelete name => if state.peers.any (hasName name) then [name] else []
  | .internalProtocolClose peerInfo _ =>
    if state.peers.any (hasName peerInfo.name) then [peerInfo.name] else []
  | .tick now => purgedPeerNames now state
  | _ => []

/-- The last entry processed from each peer for each identity since that peer's
    session last ended. -/
abbrev Heard := String → String × String → Option UpdateItem

def Heard.record (name : String) (heard : Heard) (item : UpdateItem) : Heard := fun p k =>
  if p = name ∧ item.key = k then some item else heard p k

/-- A routing table in the company of what was heard on the way to it. -/
structure Ledger where
  table : RouteTable := newRouteTable
  heard : Heard := fun _ _ => none

/-- Plan and commit one action. -/
def Ledger.step (nodeId : String) (now : Int) (action : Action) (s : Ledger) : Ledger where
  table := (plan nodeId now action s.table).newState
  heard := match action with
    | .internalProtocolUpdate peerInfo updates => updates.foldl (Heard.record peerInfo.name) s.heard
    | action => fun name k => if name ∈ endedSessions s.table action then none else s.heard name k

/-- The ledgers of all runs from an empty table whose steps are all `Allowed`. -/
inductive Ledger.Reachable (nodeId : String) (Allowed : RouteTable → Action → Prop) : Ledger → Prop where
  | start : Reachable nodeId Allowed {}
  | step {s : Ledger} (h : Reachable nodeId Allowed s) (now : Int) (action : Action)
      (hallowed : Allowed s.table action) : Reachable nodeId Allowed (s.step nodeId now action)

/-- The advertisement is the source of exactly this path and these attributes. -/
structure Conveys (item : UpdateItem) (r : InternalRoute) : Prop where
  add : item.action = .add
  nodePath : r.nodePath = item.nodePath
  route : r.toDataChannelDefinition = item.route

/-- Every fresh route is what its peer last said about its identity. -/
def Ledger.Current (s : Ledger) : Prop :=
  ∀ r ∈ s.table.internalRoutes, r.isStale = false →
    ∃ item, s.heard r.peer.name r.key = some item ∧ Conveys item r

/-- The entry does not lose news: if it advertises an identity whose fresh route
    came from the same peer, it repeats that route or beats it. -/
def KeepsCurrent (nodeId : String) (peerInfo : PeerInfo) (routes : List InternalRoute)
    (item : UpdateItem) : Prop :=
  ∀ existing, installedAt routes item.key = some existing → existing.isStale = false →
    existing.peer.name = peerInfo.name → item.action = .add →
      Conveys item existing ∨
        (nodeId ∉ item.nodePath ∧ item.nodePath.length < existing.nodePath.length)

/-- Every entry of an update keeps current at its own turn. -/
def NoLostNews (nodeId : String) (state : RouteTable) (action : Action) : Prop :=
  ∀ peerInfo updates, action = .internalProtocolUpdate peerInfo updates →
    EachTurn nodeId peerInfo (KeepsCurrent nodeId peerInfo) state.internalRoutes updates

/-! ### One entry, one message -/

/-- `Current` of the running routes of the update loop, identity by identity. -/
def CurrentAt (routes : List InternalRoute) (heard : Heard) : Prop :=
  ∀ k r, installedAt routes k = some r → r.isStale = false →
    ∃ item, heard r.peer.name k = some item ∧ Conveys item r

theorem Heard.record_self (name : String) (heard : Heard) (item : UpdateItem) :
    heard.record name item name item.key = some item := by simp [Heard.record]

theorem Heard.record_of_ne {name p : String} {item : UpdateItem} {k : String × String}
    (h : p ≠ name ∨ item.key ≠ k) (heard : Heard) : heard.record name item p k = heard p k := by
  have hnot : ¬ (p = name ∧ item.key = k) := by tauto
  simp [Heard.record, hnot]

theorem itemRoute_conveys {peerInfo : PeerInfo} {item : UpdateItem} (hadd : item.action = .add) :
    Conveys item (itemRoute peerInfo item) := ⟨hadd, rfl, rfl⟩

/-- An entry that leaves the fresh route of its own identity alone came from
    another peer or repeats that route. -/
theorem currentAt_keep {routes : List InternalRoute} {heard : Heard} {nodeId : String}
    {peerInfo : PeerInfo} {item : UpdateItem} {r : InternalRoute} (h : CurrentAt routes heard)
    (hkeeps : KeepsCurrent nodeId peerInfo routes item) (hadd : item.action = .add)
    (hfound : installedAt routes item.key = some r) (hfresh : r.isStale = false)
    (hworse : nodeId ∉ item.nodePath → r.nodePath.length ≤ item.nodePath.length) :
    ∃ said, heard.record peerInfo.name item r.peer.name item.key = some said ∧ Conveys said r := by
  by_cases hpeer : r.peer.name = peerInfo.name
  · refine ⟨item, by rw [hpeer, Heard.record_self], ?_⟩
    obtain hsame | ⟨hloop, hshorter⟩ := hkeeps r hfound hfresh hpeer hadd
    · exact hsame
    · have hlen := hworse hloop
      omega
  · obtain ⟨said, hsaid, hconveys⟩ := h _ _ hfound hfresh
    exact ⟨said, by rw [Heard.record_of_ne (.inl hpeer), hsaid], hconveys⟩

theorem currentAt_turn {routes : List InternalRoute} {heard : Heard} {nodeId : String}
    {peerInfo : PeerInfo} {item : UpdateItem} (h : CurrentAt routes heard)
    (hkeeps : KeepsCurrent nodeId peerInfo routes item) :
    CurrentAt (planUpdateItem nodeId peerInfo routes item).routes (heard.record peerInfo.name item) := by
  intro k r hr hfresh
  by_cases hk : item.key = k
  · subst hk
    rw [planUpdateItem_installedAt] at hr
    unfold receiveItem at hr
    cases haction : item.action with
    | remove => simp [haction] at hr
    | add =>
      have hnew : ∃ said, heard.record peerInfo.name item (itemRoute peerInfo item).peer.name item.key =
          some said ∧ Conveys said (itemRoute peerInfo item) :=
        ⟨item, Heard.record_self peerInfo.name heard item, itemRoute_conveys haction⟩
      simp only [haction] at hr
      split at hr
      · rename_i hloop
        exact currentAt_keep h hkeeps haction hr hfresh fun hnot => absurd hloop hnot
      · split at hr
        · rename_i existing hfound
          split at hr
          · obtain rfl := Option.some.inj hr
            exact hnew
          · rename_i hnot
            obtain rfl := Option.some.inj hr
            exact currentAt_keep h hkeeps haction hfound hfresh fun _ => by omega
        · obtain rfl := Option.some.inj hr
          exact hnew
  · rw [planUpdateItem_installedAt_of_ne _ _ _ hk] at hr
    obtain ⟨said, hsaid, hconveys⟩ := h k r hr hfresh
    exact ⟨said, by rw [Heard.record_of_ne (.inr hk), hsaid], hconveys⟩

theorem currentAt_message {nodeId : String} {peerInfo : PeerInfo} (updates : List UpdateItem) :
    ∀ routes heard, EachTurn nodeId peerInfo (KeepsCurrent nodeId peerInfo) routes updates →
      CurrentAt routes heard →
      CurrentAt (planUpdateItems nodeId peerInfo routes updates).routes
        (updates.foldl (Heard.record peerInfo.name) heard) := by
  induction updates with
  | nil => exact fun routes heard _ h => h
  | cons item rest ih =>
    intro routes heard hturns h
    exact ih _ _ hturns.2 (currentAt_turn h hturns.1)

/-! ### One action, one run -/

theorem current_iff_currentAt {s : Ledger} (hkeyed : RouteTable.WellKeyed s.table) :
    s.Current ↔ CurrentAt s.table.internalRoutes s.heard := by
  constructor
  · intro h k r hr hfresh
    obtain ⟨hmem, rfl⟩ := (installedAt_eq_some_iff hkeyed.internalKeys).mp hr
    exact h r hmem hfresh
  · intro h r hr hfresh
    exact h r.key r ((installedAt_eq_some_iff hkeyed.internalKeys).mpr ⟨hr, rfl⟩) hfresh

/-- The peer of an ended session keeps no fresh route. -/
theorem plan_endedSessions {nodeId : String} {now : Int} {action : Action} {state : RouteTable}
    {r : InternalRoute} (hended : r.peer.name ∈ endedSessions state action)
    (hr : r ∈ (plan nodeId now action state).newState.internalRoutes) : r.isStale = true := by
  cases action with
  | localPeerDelete name =>
    simp only [endedSessions] at hended
    split at hended
    · rename_i hknown
      obtain ⟨p, hp, hname⟩ := List.any_eq_true.mp hknown
      have hpeer : r.peer.name = name := by simpa using hended
      have hfewer : (state.peers.filter fun p => p.name != name).length ≠ state.peers.length := by
        intro hlen
        have hkept := (List.length_filter_eq_length_iff.mp hlen) p hp
        have hother : p.name ≠ name := by simpa using hkept
        apply hother
        simpa [hasName] using hname
      simp [plan, planLocalPeerDelete, hfewer, hpeer] at hr
    · cases hended
  | internalProtocolClose peerInfo code =>
    simp only [endedSessions] at hended
    split at hended
    · rename_i hknown
      have hpeer : r.peer.name = peerInfo.name := by simpa using hended
      simp only [plan, planInternalProtocolClose, hknown, if_true] at hr
      split at hr
      · obtain ⟨old, hold, rfl⟩ := List.mem_map.mp hr
        unfold markStale at hpeer ⊢
        split
        · rfl
        · rename_i hother
          have hname : old.peer.name ≠ peerInfo.name := by simpa using hother
          rw [if_neg hother] at hpeer
          exact absurd hpeer hname
      · simp [hpeer] at hr
    · cases hended
  | tick tickNow =>
    have hpurged : r.peer.name ∈ purgedPeerNames tickNow state := hended
    have hsome : purgedPeerNames tickNow state ≠ [] := List.ne_nil_of_mem hpurged
    simp [plan, planTick, hsome, hpurged] at hr
  | _ => cases hended

theorem Ledger.step_current {nodeId : String} {now : Int} {action : Action} {s : Ledger}
    (hkeyed : RouteTable.WellKeyed s.table) (hnews : NoLostNews nodeId s.table action)
    (h : s.Current) : (s.step nodeId now action).Current := by
  by_cases hupdate : ∃ peerInfo updates, action = .internalProtocolUpdate peerInfo updates
  · obtain ⟨peerInfo, updates, rfl⟩ := hupdate
    rw [current_iff_currentAt (plan_wellKeyed nodeId now _ hkeyed)]
    have hmessage := currentAt_message updates _ s.heard (hnews peerInfo updates rfl)
      ((current_iff_currentAt hkeyed).mp h)
    intro k r hr hfresh
    have hview := plan_update_view nodeId now peerInfo updates s.table k
    exact hmessage k r (hview.symm.trans hr) hfresh
  · intro r hr hfresh
    have hold : r ∈ s.table.internalRoutes := by
      cases plan_provenance nodeId now action s.table (.inl hr) with
      | kept hmem => exact hmem
      | marked _ old _ hmem hstale => simp [hstale] at hfresh
      | accepted peerInfo updates item haction => exact absurd ⟨peerInfo, updates, haction⟩ hupdate
    have hopen : r.peer.name ∉ endedSessions s.table action := fun hended => by
      simp [plan_endedSessions hended hr] at hfresh
    obtain ⟨item, hitem, hconveys⟩ := h r hold hfresh
    refine ⟨item, ?_, hconveys⟩
    cases action with
    | internalProtocolUpdate peerInfo updates => exact absurd ⟨peerInfo, updates, rfl⟩ hupdate
    | _ => simp only [Ledger.step]; rw [if_neg hopen, hitem]

theorem Ledger.reachable_wellKeyed {nodeId : String} {Allowed : RouteTable → Action → Prop} {s : Ledger}
    (h : Ledger.Reachable nodeId Allowed s) : RouteTable.WellKeyed s.table := by
  induction h with
  | start => exact newRouteTable_wellKeyed
  | step _ now action _ ih => exact plan_wellKeyed nodeId now action ih

/-- In a run that loses no news, every fresh route is what its peer last said. -/
theorem Ledger.reachable_current {nodeId : String} {s : Ledger}
    (h : Ledger.Reachable nodeId (NoLostNews nodeId) s) : s.Current := by
  induction h with
  | start => exact fun r hr => by cases hr
  | step hs now action hnews ih => exact Ledger.step_current (Ledger.reachable_wellKeyed hs) hnews ih

/-- An advertisement of `books` by `node-b` over `nodePath`, as one message. -/
def booksUpdate (nodePath : List String) : Action :=
  .internalProtocolUpdate { name := "node-b" }
    [{ action := .add, route := { name := "books", protocol := .http }, nodePath, originNode := "node-d" }]

/-- `node-a` hears a long path from `node-b` and then a shorter one. -/
theorem reachable_current_books :
    Ledger.Current ((({} : Ledger).step "node-a" 0 (booksUpdate ["node-b", "node-c", "node-d"])).step
      "node-a" 1 (booksUpdate ["node-b", "node-d"])) := by
  have hfirst : NoLostNews "node-a" newRouteTable (booksUpdate ["node-b", "node-c", "node-d"]) := by
    intro peerInfo updates haction
    cases haction
    exact ⟨fun existing hfound => by simp [installedAt, newRouteTable] at hfound, trivial⟩
  have hsecond : NoLostNews "node-a"
      (({} : Ledger).step "node-a" 0 (booksUpdate ["node-b", "node-c", "node-d"])).table
      (booksUpdate ["node-b", "node-d"]) := by
    intro peerInfo updates haction
    cases haction
    refine ⟨fun existing hfound _ _ _ => .inr ⟨by decide, ?_⟩, trivial⟩
    obtain rfl := Option.some.inj hfound
    decide
  exact Ledger.reachable_current ((Ledger.Reachable.start.step 0 _ hfirst).step 1 _ hsecond)

/-- A longer re-advertisement is ignored: `node-a` keeps the path that `node-b`
    has replaced. -/
theorem reachable_not_current :
    ∃ s, Ledger.Reachable "node-a" (fun _ _ => True) s ∧ ¬ s.Current := by
  refine ⟨_, (Ledger.Reachable.start.step 0 (booksUpdate ["node-b", "node-d"]) trivial).step 1
    (booksUpdate ["node-b", "node-c", "node-d"]) trivial, fun hcurrent => ?_⟩
  obtain ⟨item, hitem, hconveys⟩ := hcurrent
    { name := "books", protocol := .http, peer := { name := "node-b" }, nodePath := ["node-b", "node-d"],
      originNode := "node-d" } (by decide) rfl
  have hlast : item.nodePath = ["node-b", "node-c", "node-d"] := by
    cases hitem
    rfl
  have hpath := hconveys.nodePath
  rw [hlast] at hpath
  exact absurd hpath (by decide)

/-- The condition is tight: one lost piece of news already leaves the ledger
    out of date. -/
theorem Ledger.step_not_current {nodeId : String} {peerInfo : PeerInfo} {s : Ledger} {item : UpdateItem}
    (now : Int) (hlost : ¬ KeepsCurrent nodeId peerInfo s.table.internalRoutes item) :
    ¬ CurrentAt (s.step nodeId now (.internalProtocolUpdate peerInfo [item])).table.internalRoutes
      (s.step nodeId now (.internalProtocolUpdate peerInfo [item])).heard := by
  simp only [KeepsCurrent, not_forall, not_or, not_and] at hlost
  obtain ⟨existing, hfound, hfresh, hpeer, hadd, hdiffers, hworse⟩ := hlost
  have hkept : installedAt (s.step nodeId now (.internalProtocolUpdate peerInfo [item])).table.internalRoutes
      item.key = some existing := by
    refine (plan_update_view nodeId now peerInfo [item] s.table item.key).trans ?_
    refine (planUpdateItem_installedAt nodeId peerInfo s.table.internalRoutes item).trans ?_
    rw [hfound]
    by_cases hloop : nodeId ∈ item.nodePath
    · simp [receiveItem, hadd, hloop]
    · simp [receiveItem, hadd, hloop, hfresh, hworse hloop]
  intro hcurrent
  obtain ⟨said, hsaid, hconveys⟩ := hcurrent item.key existing hkept hfresh
  have hitem : said = item := by
    have hrecord := Heard.record_self peerInfo.name s.heard item
    rw [hpeer] at hsaid
    exact Option.some.inj (hsaid.symm.trans hrecord)
  exact hdiffers (hitem ▸ hconveys)

end Rib

end CatalystRouter
