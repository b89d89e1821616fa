import CatalystRouter.Routing.Runs

namespace CatalystRouter

/-- Every internal route belongs to a peer on record, a fresh one to a
    connected peer. -/
def RouteTable.NoOrphan (state : RouteTable) : Prop :=
  ∀ r ∈ state.internalRoutes, ∃ p ∈ state.peers, p.name = r.peer.name ∧
    (r.isStale = false → p.connectionStatus = .connected)

namespace Rib

variable {nodeId : String} {peerInfo : PeerInfo}

/-- An entry of the message takes effect, and no later entry removes what it
    installed. -/
def Lingers (nodeId : String) (peerInfo : PeerInfo) : List InternalRoute → List UpdateItem → Prop
  | _, [] => False
  | routes, item :: rest =>
    (TakesEffect nodeId routes item ∧ ∀ later ∈ rest, later.key = item.key → later.action = .add) ∨
      Lingers nodeId peerInfo (planUpdateItem nodeId peerInfo routes item).routes rest

/-- An update comes from a connected peer, or leaves nothing behind. -/
def Sponsored (nodeId : String) (state : RouteTable) (step : Int × Action) : Prop :=
  ∀ peerInfo updates, step.2 = .internalProtocolUpdate peerInfo updates →
    (∃ p ∈ state.peers, p.name = peerInfo.name ∧ p.connectionStatus = .connected) ∨
      ¬ Lingers nodeId peerInfo state.internalRoutes updates

/-! ### What one message leaves behind -/

/-- Nothing comes to stay for an identity that was not there, unless an entry
    for it lingers. -/
theorem lingers_of_installed {k : String × String} (updates : List UpdateItem) :
    ∀ {routes}, (∀ item ∈ updates, item.key = k → item.action = .add) → installedAt routes k = none →
      installedAt (planUpdateItems nodeId peerInfo routes updates).routes k ≠ none →
      Lingers nodeId peerInfo routes updates := by
  induction updates with
  | nil => exact fun _ hnone hsome => absurd hnone hsome
  | cons item rest ih =>
    intro routes hadds hnone hsome
    have hrest (later : UpdateItem) (hmem : later ∈ rest) := hadds later (by simp [hmem])
    by_cases hkey : item.key = k
    · have hadd := hadds item (by simp) hkey
      subst hkey
      by_cases heffect : TakesEffect nodeId routes item
      · exact .inl ⟨heffect, hrest⟩
      · refine .inr (ih hrest ?_ hsome)
        rw [planUpdateItem_installedAt, receiveItem_add hadd, if_neg heffect, hnone]
    · refine .inr (ih hrest ?_ hsome)
      rw [planUpdateItem_installedAt_of_ne _ _ _ hkey, hnone]

/-- What is there for an identity although an entry removed it, is there by an
    entry that lingers. -/
theorem lingers_of_removed {k : String × String} (updates : List UpdateItem) :
    ∀ {routes}, (∃ item ∈ updates, item.key = k ∧ item.action = .remove) →
      installedAt (planUpdateItems nodeId peerInfo routes updates).routes k ≠ none →
      Lingers nodeId peerInfo routes updates := by
  induction updates with
  | nil => rintro routes ⟨item, hmem, -⟩; cases hmem
  | cons item rest ih =>
    rintro routes ⟨removal, hmem, hkey, hremove⟩ hsome
    by_cases hagain : ∃ later ∈ rest, later.key = k ∧ later.action = .remove
    · exact .inr (ih hagain hsome)
    · have hadds (later : UpdateItem) (hlater : later ∈ rest) (hk : later.key = k) : later.action = .add := by
        cases haction : later.action with
        | add => rfl
        | remove => exact absurd ⟨later, hlater, hk, haction⟩ hagain
      obtain rfl | hlater := List.mem_cons.mp hmem
      · subst hkey
        refine .inr (lingers_of_installed rest hadds ?_ hsome)
        rw [planUpdateItem_installedAt]
        simp [receiveItem, hremove]
      · exact absurd ⟨removal, hlater, hkey, hremove⟩ hagain

theorem mem_planUpdateItem {routes : List InternalRoute} {item : UpdateItem} {r : InternalRoute}
    (hr : r ∈ (planUpdateItem nodeId peerInfo routes item).routes) :
    r ∈ routes ∨ TakesEffect nodeId routes item ∧ r = itemRoute peerInfo item := by
  have hstep := planUpdateItem_step nodeId peerInfo routes item
  generalize planUpdateItem nodeId peerInfo routes item = turn at hstep hr
  cases hstep with
  | looped | kept | absent => exact .inl hr
  | withdrawn => exact .inl (List.mem_filter.mp hr).1
  | replaced existing hadd hloop hfound hbetter =>
    obtain hold | ⟨_, _, _, rfl⟩ := List.mem_modifyFirst hr
    · exact .inl hold
    · exact .inr ⟨⟨hadd, hloop, by simpa [hfound] using hbetter⟩, rfl⟩
  | installed hadd hloop hfound =>
    obtain hold | hnew := List.mem_append.mp hr
    · exact .inl hold
    · exact .inr ⟨⟨hadd, hloop, by simp [hfound]⟩, List.mem_singleton.mp hnew⟩

/-- A message without a lingering entry brings no route. -/
theorem mem_planUpdateItems_of_not_lingers (updates : List UpdateItem) :
    ∀ {routes} {r : InternalRoute}, ¬ Lingers nodeId peerInfo routes updates →
      r ∈ (planUpdateItems nodeId peerInfo routes updates).routes → r ∈ routes := by
  induction updates with
  | nil => exact fun _ hr => hr
  | cons item rest ih =>
    intro routes r hnot hr
    obtain ⟨hfirst, hrest⟩ := not_or.mp hnot
    obtain hold | ⟨heffect, rfl⟩ := mem_planUpdateItem (ih hrest hr)
    · exact hold
    · have hremoved : ∃ later ∈ rest, later.key = item.key ∧ later.action = .remove := by
        by_contra hnone
        refine hfirst ⟨heffect, fun later hlater hkey => ?_⟩
        cases haction : later.action with
        | add => rfl
        | remove => exact absurd ⟨later, hlater, hkey, haction⟩ hnone
      refine absurd (lingers_of_removed rest hremoved fun hnone => ?_) hrest
      exact installedAt_eq_none_iff.mp hnone _ hr rfl

/-- A fresh route of the sender stays until an entry of the message removes it. -/
theorem installed_of_adds {k : String × String} (updates : List UpdateItem) :
    ∀ {routes}, (∀ item ∈ updates, item.key = k → item.action = .add) →
      (∃ r ∈ installedAt routes k, r.peer = peerInfo ∧ r.isStale = false) →
      ∃ r ∈ installedAt (planUpdateItems nodeId peerInfo routes updates).routes k,
        r.peer = peerInfo ∧ r.isStale = false := by
  induction updates with
  | nil => exact fun _ h => h
  | cons item rest ih =>
    intro routes hadds h
    refine ih (fun later hlater => hadds later (by simp [hlater])) ?_
    by_cases hkey : item.key = k
    · have hadd := hadds item (by simp) hkey
      subst hkey
      rw [planUpdateItem_installedAt, receiveItem_add hadd]
      split
      · exact ⟨itemRoute peerInfo item, rfl, rfl, rfl⟩
      · exact h
    · rwa [planUpdateItem_installedAt_of_ne _ _ _ hkey]

/-- A lingering entry leaves a fresh route of the sender in the table. -/
theorem Lingers.installed (updates : List UpdateItem) :
    ∀ {routes}, Lingers nodeId peerInfo routes updates →
      ∃ r ∈ (planUpdateItems nodeId peerInfo routes updates).routes, r.peer = peerInfo ∧ r.isStale = false := by
  induction updates with
  | nil => exact fun h => h.elim
  | cons item rest ih =>
    rintro routes (⟨heffect, hadds⟩ | hrest)
    · have hnow : ∃ r ∈ installedAt (planUpdateItem nodeId peerInfo routes item).routes item.key,
          r.peer = peerInfo ∧ r.isStale = false := by
        rw [planUpdateItem_installedAt, receiveItem_add heffect.1, if_pos heffect]
        exact ⟨itemRoute peerInfo item, rfl, rfl, rfl⟩
      obtain ⟨r, hr, hpeer, hfresh⟩ := installed_of_adds rest hadds hnow
      exact ⟨r, mem_of_installedAt hr, hpeer, hfresh⟩
    · exact ih hrest

/-! ### One action, one run -/

/-- The record behind a route that was there before and stays. -/
theorem act_kept {state : RouteTable} (hnames : (state.peers.map (·.name)).Nodup) (h : state.NoOrphan)
    {step : Int × Action} {old r : InternalRoute} (hold : old ∈ state.internalRoutes)
    (hr : r ∈ (act nodeId state step).internalRoutes) (hpeer : r.peer = old.peer)
    (hstale : old.isStale = true → r.isStale = true) :
    ∃ p ∈ (act nodeId state step).peers, p.name = r.peer.name ∧
      (r.isStale = false → p.connectionStatus = .connected) := by
  obtain ⟨p, hp, hname, hfresh⟩ := h old hold
  have hat : state.peerAt r.peer.name = some p :=
    (RouteTable.peerAt_eq_some_iff hnames).mpr ⟨hp, by rw [hname, hpeer]⟩
  by_cases hopen : r.isStale = false
  · have hsession : r.peer.name ∉ endedSessions state step.2 := fun hended => by
      have hmarked := plan_endedSessions hended hr
      simp [hmarked] at hopen
    have hconnected := hfresh (by
      by_contra hmarked
      simp [hstale (by simpa using hmarked)] at hopen)
    obtain ⟨p', hp', hconnected'⟩ := plan_peerAt_connected nodeId step.1 hat hconnected hsession
    exact ⟨p', RouteTable.mem_of_peerAt hp', RouteTable.peerAt_name hp', fun _ => hconnected'⟩
  · have hnotDeleted : step.2 ≠ .localPeerDelete r.peer.name := by
      intro hdelete
      unfold act at hr
      rw [hdelete] at hr
      exact plan_deleted ⟨p, hp, by rw [hname, hpeer]⟩ hr rfl
    obtain ⟨p', hp'⟩ := peerAfter_ne_none step.1 hnotDeleted p
    have hat' : (act nodeId state step).peerAt r.peer.name = some p' := by
      unfold act
      rw [plan_peerAt, hat, hp']
    exact ⟨p', RouteTable.mem_of_peerAt hat', RouteTable.peerAt_name hat', fun hcontra => absurd hcontra hopen⟩

theorem act_noOrphan {state : RouteTable} (hnames : (state.peers.map (·.name)).Nodup) (h : state.NoOrphan)
    {step : Int × Action} (hsponsored : Sponsored nodeId state step) : (act nodeId state step).NoOrphan := by
  intro r hr
  cases plan_provenance nodeId step.1 step.2 state (.inl hr) with
  | kept hmem => exact act_kept hnames h hmem hr rfl id
  | marked peerInfo old haction hmem hmarked =>
    subst hmarked
    exact act_kept hnames h hmem hr rfl fun _ => rfl
  | accepted peerInfo updates item haction hmem hadd hloop haccepted =>
    subst haccepted
    obtain ⟨p, hp, hname, hconnected⟩ | hquiet := hsponsored peerInfo updates haction
    · have hat := (RouteTable.peerAt_eq_some_iff hnames).mpr ⟨hp, hname⟩
      have hopen : peerInfo.name ∉ endedSessions state step.2 := by simp [haction, endedSessions]
      obtain ⟨p', hp', hconnected'⟩ := plan_peerAt_connected nodeId step.1 hat hconnected hopen
      exact ⟨p', RouteTable.mem_of_peerAt hp', RouteTable.peerAt_name hp', fun _ => hconnected'⟩
    · have hafter := hr
      unfold act at hafter
      rw [haction, plan_update_routes] at hafter
      exact act_kept hnames h (mem_planUpdateItems_of_not_lingers updates hquiet hafter) hr rfl id

/-- An update that leaves a route behind and does not come from a connected
    peer makes an orphan at once. -/
theorem sponsored_of_noOrphan {state : RouteTable} (hnames : (state.peers.map (·.name)).Nodup)
    {step : Int × Action} (h : (act nodeId state step).NoOrphan) : Sponsored nodeId state step := by
  intro peerInfo updates haction
  by_cases hquiet : Lingers nodeId peerInfo state.internalRoutes updates
  · left
    obtain ⟨r, hr, hpeer, hfresh⟩ := hquiet.installed updates
    have hnames' := plan_peerNames nodeId step.1 step.2 hnames
    unfold act at h
    obtain ⟨p', hp', hname, hconnected⟩ := h r (by rwa [haction, plan_update_routes])
    rw [hpeer] at hname
    have hat := (RouteTable.peerAt_eq_some_iff hnames').mpr ⟨hp', hname⟩
    rw [plan_peerAt, haction] at hat
    simp only [peerAfter, namedPeer, if_true, Option.map_eq_some_iff] at hat
    obtain ⟨p, hp, rfl⟩ := hat
    exact ⟨p, RouteTable.mem_of_peerAt hp, RouteTable.peerAt_name hp, hconnected hfresh⟩
  · exact .inr hquiet

/-- A run leaves no orphan in any table on its way exactly when its updates are
    all sponsored. -/
theorem reachable_noOrphan_iff (nodeId : String) (steps : List (Int × Action)) :
    (∀ early late, steps = early ++ late → (run nodeId newRouteTable early).NoOrphan) ↔
      EachStep nodeId (Sponsored nodeId) newRouteTable steps := by
  have hstart : newRouteTable.NoOrphan := fun r hr => (nomatch hr)
  refine Runs.throughout_iff (I := RouteTable.WellFormed nodeId) (fun state step hstate => act_wellFormed hstate step)
    (fun state step hstate horphan => ?_) newRouteTable_wellFormed hstart
  exact ⟨sponsored_of_noOrphan hstate.peerNames, act_noOrphan hstate.peerNames horphan⟩

/-- `node-b` is a peer of `node-a`, its session expires, and one more update of
    it arrives. -/
def lateUpdate : List (Int × Action) :=
  [(1, .localPeerCreate { name := "node-b" }), (1, .internalProtocolConnected { name := "node-b" }),
    (90002, .tick 90002), (90003, booksUpdate ["node-b"])]

theorem lateUpdate_orphan : ¬ (run "node-a" newRouteTable lateUpdate).NoOrphan := by
  unfold RouteTable.NoOrphan
  decide

end Rib

end CatalystRouter
