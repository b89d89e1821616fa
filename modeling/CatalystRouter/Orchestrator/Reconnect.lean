import CatalystRouter.Orchestrator.Service

namespace CatalystRouter

namespace Service

variable {config : BusConfig} {service : Service} {name : String} {now : Int} {action : Action}

/-- The peer is about to be connected or dialled, or waits for its timer. -/
def Covers (service : Service) (peerName : String) : Prop :=
  service.IsDialed peerName ∨ service.reconnectManager.isScheduled peerName = true ∨
    (∃ job ∈ service.queue, ∃ peerInfo, job.action = .internalProtocolConnected peerInfo ∧ peerInfo.name = peerName) ∨
    ∃ job state data, service.running = some (job, .ok state) ∧ job.action = .localPeerCreate data ∧ data.name = peerName

/-- No step that the reconnect manager ought to hear of: a session that ends, or an
    update that makes a peer dialable, finds the peer covered, and no peer is deleted
    that has a timer or a reconnect in flight. -/
def KeepsAction (service : Service) (action : Action) : Prop :=
  match action with
  | .internalProtocolClose peerInfo _ => ∀ peer ∈ service.bus.state.peers, peer.name = peerInfo.name →
      peer.connectionStatus = .connected → dialable peer = true → service.Covers peer.name
  | .tick tickNow => ∀ peer ∈ service.bus.state.peers, Rib.expired tickNow peer = true → dialable peer = true →
      service.Covers peer.name
  | .localPeerUpdate data => ∀ peer ∈ service.bus.state.peers, peer.name = data.name →
      peer.connectionStatus ≠ .connected → dialable peer = false → dialable (Rib.mergePeerInfo peer data) = true →
        service.Covers peer.name
  | .localPeerDelete deleted => service.reconnectManager.isScheduled deleted = false ∧
      ∀ dial ∈ service.dials, dial.retry = true → dial.peer.name ≠ deleted
  | _ => True

/-- The condition on an event: a slot that starts keeps the bookkeeping, and a dial
    that fails is one of a configured peer. -/
def Keeps (service : Service) : Event → Prop
  | .start _ => service.running = none → ∀ job ∈ service.queue.head?, service.KeepsAction job.action
  | .dialed i false => ∀ dial ∈ service.dials[i]?, ∃ peer ∈ service.bus.state.peers, peer.name = dial.peer.name
  | _ => True

/-- The bookkeeping while dispatches run. -/
structure Tracked (service : Service) : Prop where
  names : (service.bus.state.peers.map (·.name)).Nodup
  covered : ∀ name peer, service.bus.state.peerAt name = some peer → dialable peer = true →
    peer.connectionStatus ≠ .connected → service.Covers name
  timers : ∀ timer ∈ service.reconnectManager.timers, service.bus.state.peerAt timer.peer.name ≠ none
  retries : ∀ dial ∈ service.dials, dial.retry = true → service.bus.state.peerAt dial.peer.name ≠ none
  tokens : ∀ timer ∈ service.reconnectManager.timers, truthyString timer.peer.peerToken = true
  dialTokens : ∀ dial ∈ service.dials, truthyString dial.peer.peerToken = true
  outcome : ∀ job state, service.running = some (job, .ok state) → state = service.bus.state

theorem tracked_start (portAllocator : Option PortAllocator) : (start portAllocator).Tracked where
  names := List.nodup_nil
  covered := by simp [start, RouteTable.peerAt, newRouteTable]
  timers := by simp [start]
  retries := by simp [start]
  tokens := by simp [start]
  dialTokens := by simp [start]
  outcome := by simp [start]

/-- Where nothing is queued or running, what covers a peer is a dial or a timer. -/
theorem Tracked.bookkept (h : service.Tracked) (hquiet : service.Quiescent) : service.Bookkept where
  covered peer hmem hdialable hstatus := by
    have hat := (RouteTable.peerAt_eq_some_iff h.names).mpr ⟨hmem, rfl⟩
    rcases h.covered peer.name peer hat hdialable hstatus with
      hdial | htimer | ⟨job, hjob, -⟩ | ⟨job, state, data, hrunning, -⟩
    · exact .inl hdial
    · exact .inr htimer
    · rw [hquiet.1] at hjob
      cases hjob
    · rw [hquiet.2] at hrunning
      cases hrunning
  timers timer hmem := by
    obtain ⟨peer, hpeer⟩ := Option.ne_none_iff_exists'.mp (h.timers timer hmem)
    exact ⟨peer, RouteTable.mem_of_peerAt hpeer, RouteTable.peerAt_name hpeer⟩
  retries dial hmem hretry := by
    obtain ⟨peer, hpeer⟩ := Option.ne_none_iff_exists'.mp (h.retries dial hmem hretry)
    exact ⟨peer, RouteTable.mem_of_peerAt hpeer, RouteTable.peerAt_name hpeer⟩

end Service

namespace Bus

variable {config : BusConfig} {bus : Bus} {now : Int} {action : Action}

/-- A slot that changes the table resolves with it. -/
theorem outcome_of_changed (h : (dispatch config bus now action).bus.state ≠ bus.state) :
    (dispatch config bus now action).outcome = .ok (dispatch config bus now action).bus.state := by
  have hshape := dispatch_shape config bus now action
  generalize dispatch config bus now action = result at hshape h ⊢
  cases hshape with
  | rejected | idle => exact absurd rfl h
  | committed => rfl

theorem state_of_outcome {state : RouteTable} (h : (dispatch config bus now action).outcome = .ok state) :
    state = (dispatch config bus now action).bus.state := by
  have hshape := dispatch_shape config bus now action
  generalize dispatch config bus now action = result at hshape h ⊢
  cases hshape with
  | rejected | idle => cases h
  | committed => exact (Except.ok.inj h).symm

end Bus

namespace Service

variable {config : BusConfig} {service : Service} {name : String} {now : Int} {action : Action}

/-- Where the record that an action leaves of a peer comes from. -/
theorem peerAfter_cases {installed : Option PeerRecord} {peer : PeerRecord}
    (h : Rib.peerAfter now action name installed = some peer) :
    (installed = some peer ∧ Rib.namedPeer action ≠ some name) ∨
      (installed = none ∧ ∃ data, action = .localPeerCreate data ∧ data.name = name) ∨
      (∃ old tickNow, installed = some old ∧ action = .tick tickNow ∧ peer = Rib.expirePeer tickNow old) ∨
      ∃ old, installed = some old ∧ Rib.namedPeer action = some name ∧ peer = Rib.touchPeer now action old := by
  cases action with
  | localPeerCreate data =>
    cases installed with
    | some old => exact .inl ⟨h, by simp [Rib.namedPeer]⟩
    | none =>
      refine .inr (.inl ⟨rfl, data, rfl, ?_⟩)
      by_contra hother
      simp [Rib.peerAfter, hother] at h
  | localPeerDelete deleted =>
    by_cases hdeleted : deleted = name
    · simp [Rib.peerAfter, hdeleted] at h
    · exact .inl ⟨by simpa [Rib.peerAfter, hdeleted] using h, by simp [Rib.namedPeer]⟩
  | tick tickNow =>
    obtain ⟨old, hold, hpeer⟩ := Option.map_eq_some_iff.mp h
    exact .inr (.inr (.inl ⟨old, tickNow, hold, rfl, hpeer.symm⟩))
  | localRouteCreate _ | localRouteDelete _ | localRouteHealthUpdate _ =>
    exact .inl (by simpa [Rib.peerAfter, Rib.namedPeer] using h)
  | localPeerUpdate _ | internalProtocolOpen _ _ | internalProtocolConnected _ | internalProtocolClose _ _
  | internalProtocolUpdate _ _ | internalProtocolKeepalive _ =>
    change (if Rib.namedPeer _ = some name then installed.map (Rib.touchPeer now _) else installed) = some peer at h
    split at h
    case isTrue hnamed =>
      obtain ⟨old, hold, hpeer⟩ := Option.map_eq_some_iff.mp h
      exact .inr (.inr (.inr ⟨old, hold, hnamed, hpeer.symm⟩))
    case isFalse hnamed => exact .inl ⟨h, hnamed⟩

/-- Only a delete loses the record of a peer. -/
theorem peerAfter_eq_none {installed : Option PeerRecord} (h : Rib.peerAfter now action name installed = none) :
    installed = none ∨ action = .localPeerDelete name := by
  cases action with
  | localPeerCreate data =>
    cases installed with
    | some old => cases h
    | none => exact .inl rfl
  | localPeerDelete deleted =>
    by_cases hdeleted : deleted = name
    · exact .inr (by rw [hdeleted])
    · exact .inl (by simpa [Rib.peerAfter, hdeleted] using h)
  | tick tickNow => exact .inl (Option.map_eq_none_iff.mp h)
  | localRouteCreate _ | localRouteDelete _ | localRouteHealthUpdate _ =>
    exact .inl (by simpa [Rib.peerAfter, Rib.namedPeer] using h)
  | localPeerUpdate _ | internalProtocolOpen _ _ | internalProtocolConnected _ | internalProtocolClose _ _
  | internalProtocolUpdate _ _ | internalProtocolKeepalive _ =>
    change (if Rib.namedPeer _ = some name then installed.map (Rib.touchPeer now _) else installed) = none at h
    split at h
    · exact .inl (Option.map_eq_none_iff.mp h)
    · exact .inl h

theorem peerAfter_connected {installed : Option PeerRecord} {peerInfo : PeerInfo} {peer : PeerRecord}
    (h : Rib.peerAfter now (.internalProtocolConnected peerInfo) name installed = some peer) (hname : peerInfo.name = name) :
    peer.connectionStatus = .connected := by
  rcases peerAfter_cases h with ⟨-, hnamed⟩ | ⟨-, data, hcreate, -⟩ | ⟨old, tickNow, -, htick, -⟩ | ⟨old, -, -, rfl⟩
  · exact absurd (congrArg some hname) hnamed
  · cases hcreate
  · cases htick
  · rfl

/-- Where a peer that an action leaves without a session, and that can be dialled,
    comes from. -/
theorem peerAfter_uncovered {installed : Option PeerRecord} {peer : PeerRecord}
    (h : Rib.peerAfter now action name installed = some peer) (hdialable : dialable peer = true)
    (hstatus : peer.connectionStatus ≠ .connected) :
    (∃ old, installed = some old ∧ dialable old = true ∧ old.connectionStatus ≠ .connected) ∨
      (∃ old, installed = some old ∧ dialable old = true ∧ old.connectionStatus = .connected ∧
        ((∃ peerInfo code, action = .internalProtocolClose peerInfo code ∧ peerInfo.name = name) ∨
          ∃ tickNow, action = .tick tickNow ∧ Rib.expired tickNow old = true)) ∨
      (∃ old data, installed = some old ∧ action = .localPeerUpdate data ∧ data.name = name ∧
        old.connectionStatus ≠ .connected ∧ dialable old = false ∧ dialable (Rib.mergePeerInfo old data) = true) ∨
      installed = none ∧ ∃ data, action = .localPeerCreate data ∧ data.name = name := by
  rcases peerAfter_cases h with ⟨hsame, -⟩ | ⟨hnone, data, rfl, hname⟩ | ⟨old, tickNow, hold, rfl, rfl⟩ |
    ⟨old, hold, hnamed, rfl⟩
  · exact .inl ⟨peer, hsame, hdialable, hstatus⟩
  · exact .inr (.inr (.inr ⟨hnone, data, rfl, hname⟩))
  · cases hexpired : Rib.expired tickNow old with
    | false =>
      have hsame : Rib.expirePeer tickNow old = old := by simp [Rib.expirePeer, hexpired]
      rw [hsame] at hdialable hstatus
      exact .inl ⟨old, hold, hdialable, hstatus⟩
    | true =>
      have hclosed : Rib.expirePeer tickNow old = { old with connectionStatus := .closed } := by
        simp [Rib.expirePeer, hexpired]
      rw [hclosed] at hdialable
      have hconnected : old.connectionStatus = .connected := by
        unfold Rib.expired at hexpired
        simpa using (Bool.and_eq_true_iff.mp hexpired).1
      exact .inr (.inl ⟨old, hold, hdialable, hconnected, .inr ⟨tickNow, rfl, hexpired⟩⟩)
  · cases action with
    | localPeerUpdate data =>
      cases hbefore : dialable old with
      | true => exact .inl ⟨old, hold, hbefore, hstatus⟩
      | false => exact .inr (.inr (.inl ⟨old, data, hold, rfl, Option.some.inj hnamed, hstatus, hbefore, hdialable⟩))
    | internalProtocolClose peerInfo code =>
      by_cases hconnected : old.connectionStatus = .connected
      · exact .inr (.inl ⟨old, hold, hdialable, hconnected, .inl ⟨peerInfo, code, rfl, Option.some.inj hnamed⟩⟩)
      · exact .inl ⟨old, hold, hdialable, hconnected⟩
    | internalProtocolOpen _ _ | internalProtocolConnected _ => exact absurd rfl hstatus
    | internalProtocolUpdate _ _ | internalProtocolKeepalive _ => exact .inl ⟨old, hold, hdialable, hstatus⟩
    | localPeerCreate _ | localPeerDelete _ | localRouteCreate _ | localRouteDelete _ | localRouteHealthUpdate _
    | tick _ => cases hnamed

/-- A cover outlives the start of a slot that does not connect the peer. -/
theorem Covers.start {job : QueuedDispatch} {rest : List QueuedDispatch} {bus : Bus}
    {outcome : Except String RouteTable}
    (h : service.Covers name) (hrunning : service.running = none) (hqueue : service.queue = job :: rest)
    (hjob : ∀ peerInfo, job.action = .internalProtocolConnected peerInfo → peerInfo.name ≠ name) :
    Covers { service with bus, queue := rest, running := some (job, outcome) } name := by
  rcases h with hdial | htimer | ⟨queued, hmem, peerInfo, hconnected, hname⟩ | ⟨other, state, data, hsome, -⟩
  · exact .inl hdial
  · exact .inr (.inl htimer)
  · rw [hqueue] at hmem
    rcases List.mem_cons.mp hmem with rfl | hmem
    · exact absurd hname (hjob peerInfo hconnected)
    · exact .inr (.inr (.inl ⟨queued, hmem, peerInfo, hconnected, hname⟩))
  · rw [hrunning] at hsome
    cases hsome

/-- A slot that starts covers every dialable peer that it leaves unconnected. -/
theorem Tracked.start_covers {job : QueuedDispatch} {rest : List QueuedDispatch} {peer : PeerRecord}
    (h : service.Tracked) (hrunning : service.running = none) (hqueue : service.queue = job :: rest)
    (hkeeps : service.KeepsAction job.action)
    (hpeer : (Bus.dispatch config service.bus now job.action).bus.state.peerAt name = some peer)
    (hdialable : dialable peer = true) (hstatus : peer.connectionStatus ≠ .connected) :
    Covers { service with
      bus := (Bus.dispatch config service.bus now job.action).bus
      queue := rest
      running := some (job, (Bus.dispatch config service.bus now job.action).outcome) } name := by
  rcases Bus.dispatch_peers config service.bus now job.action with ⟨hsame, hrejected⟩ | hafter
  · rw [hsame] at hpeer ⊢
    refine (h.covered name peer hpeer hdialable hstatus).start hrunning hqueue fun peerInfo hconnected => ?_
    rw [hconnected] at hrejected
    rcases hrejected with ⟨data, hcreate⟩ | ⟨other, updates, hupdate⟩
    · cases hcreate
    · cases hupdate
  · have hpeer := (hafter name).symm.trans hpeer
    have hjob : ∀ peerInfo, job.action = .internalProtocolConnected peerInfo → peerInfo.name ≠ name := by
      intro peerInfo hconnected hname
      rw [hconnected] at hpeer
      exact hstatus (peerAfter_connected hpeer hname)
    rcases peerAfter_uncovered hpeer hdialable hstatus with ⟨old, hold, hbefore, hearlier⟩ |
      ⟨old, hold, hbefore, hconnected, hends⟩ | ⟨old, data, hold, haction, hname, hearlier, hbefore, hmerged⟩ |
      ⟨hnone, data, hcreate, hname⟩
    · exact (h.covered name old hold hbefore hearlier).start hrunning hqueue hjob
    · have hmem := RouteTable.mem_of_peerAt hold
      have holdName := RouteTable.peerAt_name hold
      have hcovers : service.Covers old.name := by
        rcases hends with ⟨peerInfo, code, haction, hname⟩ | ⟨tickNow, haction, hexpired⟩
        · rw [haction] at hkeeps
          exact hkeeps old hmem (holdName.trans hname.symm) hconnected hbefore
        · rw [haction] at hkeeps
          exact hkeeps old hmem hexpired hbefore
      rw [holdName] at hcovers
      exact hcovers.start hrunning hqueue hjob
    · have holdName := RouteTable.peerAt_name hold
      rw [haction] at hkeeps
      have hcovers := hkeeps old (RouteTable.mem_of_peerAt hold) (holdName.trans hname.symm) hearlier hbefore hmerged
      rw [holdName] at hcovers
      exact hcovers.start hrunning hqueue hjob
    · -- the slot that creates the peer dials it when it resolves
      have hchanged : (Bus.dispatch config service.bus now job.action).bus.state ≠ service.bus.state := by
        intro hsame
        rw [← hafter name, hsame, hnone] at hpeer
        cases hpeer
      exact .inr (.inr (.inr ⟨job, _, data, by rw [Bus.outcome_of_changed hchanged], hcreate, hname⟩))

/-- A slot that starts keeps the bookkeeping. -/
theorem Tracked.start {job : QueuedDispatch} {rest : List QueuedDispatch} (h : service.Tracked)
    (hrunning : service.running = none) (hqueue : service.queue = job :: rest) (hkeeps : service.KeepsAction job.action) :
    Tracked { service with
      bus := (Bus.dispatch config service.bus now job.action).bus
      queue := rest
      running := some (job, (Bus.dispatch config service.bus now job.action).outcome) } := by
  have hpeers := Bus.dispatch_peers config service.bus now job.action
  constructor
  case names => exact Bus.dispatch_peerNames config now job.action h.names
  case covered =>
    intro name peer hpeer hdialable hstatus
    exact h.start_covers hrunning hqueue hkeeps hpeer hdialable hstatus
  case timers =>
    intro timer hmem
    rcases hpeers with ⟨hsame, -⟩ | hafter
    · rw [hsame]
      exact h.timers timer hmem
    · intro hnone
      rw [hafter] at hnone
      rcases peerAfter_eq_none hnone with hbefore | hdelete
      · exact h.timers timer hmem hbefore
      · rw [hdelete] at hkeeps
        have hscheduled := ReconnectManager.isScheduled_iff.mpr ⟨timer, hmem, rfl⟩
        rw [hkeeps.1] at hscheduled
        cases hscheduled
  case retries =>
    intro dial hmem hretry
    rcases hpeers with ⟨hsame, -⟩ | hafter
    · rw [hsame]
      exact h.retries dial hmem hretry
    · intro hnone
      rw [hafter] at hnone
      rcases peerAfter_eq_none hnone with hbefore | hdelete
      · exact h.retries dial hmem hretry hbefore
      · rw [hdelete] at hkeeps
        exact hkeeps.2 dial hmem hretry rfl
  case tokens => exact h.tokens
  case dialTokens => exact h.dialTokens
  case outcome =>
    intro other state hsome
    have houtcome := (Prod.mk.inj (Option.some.inj hsome)).2
    exact Bus.state_of_outcome houtcome

section Finish

variable {outcome : Except String RouteTable} {retryOf : Option String}

@[simp] theorem retried_bus : (service.retried retryOf).bus = service.bus := by cases retryOf <;> rfl

@[simp] theorem retried_queue : (service.retried retryOf).queue = service.queue := by cases retryOf <;> rfl

@[simp] theorem retried_running : (service.retried retryOf).running = service.running := by cases retryOf <;> rfl

@[simp] theorem retried_dials : (service.retried retryOf).dials = service.dials := by cases retryOf <;> rfl

@[simp] theorem retried_timers :
    (service.retried retryOf).reconnectManager.timers = service.reconnectManager.timers := by cases retryOf <;> rfl

/-- A resolved dispatch starts at most one dial, that of the peer it has created. -/
theorem dialCreated_cases (service : Service) (action : Action) (outcome : Except String RouteTable) :
    (service.dialCreated action outcome = service ∧
        ∀ data state peer, action = .localPeerCreate data → outcome = .ok state → state.peerAt data.name = some peer →
          dialable peer = false) ∨
      ∃ data state peer, action = .localPeerCreate data ∧ outcome = .ok state ∧ state.peerAt data.name = some peer ∧
        dialable peer = true ∧
        service.dialCreated action outcome = { service with dials := service.dials ++ [{ peer, retry := false }] } := by
  unfold dialCreated
  split
  case h_1 data state =>
    have hinj {other : PeerInfo} {later : RouteTable} (hother : Action.localPeerCreate data = .localPeerCreate other)
        (hlater : (.ok state : Except String RouteTable) = .ok later) : other = data ∧ later = state :=
      ⟨(Action.localPeerCreate.inj hother).symm, (Except.ok.inj hlater).symm⟩
    split
    case h_1 peer hpeer =>
      unfold dialPeer
      split
      case isTrue hdialable => exact .inr ⟨data, state, peer, rfl, rfl, hpeer, hdialable, rfl⟩
      case isFalse hnot =>
        refine .inl ⟨rfl, fun other later found hother hlater hat => ?_⟩
        obtain ⟨rfl, rfl⟩ := hinj hother hlater
        obtain rfl := Option.some.inj (hpeer.symm.trans hat)
        simpa using hnot
    case h_2 hnone =>
      refine .inl ⟨rfl, fun other later found hother hlater hat => ?_⟩
      obtain ⟨rfl, rfl⟩ := hinj hother hlater
      rw [hnone] at hat
      cases hat
  case h_2 hother =>
    exact .inl ⟨rfl, fun data state peer haction hok => absurd hok (hother data state haction)⟩

theorem Tracked.retried (h : service.Tracked) (retryOf : Option String) : (service.retried retryOf).Tracked where
  names := by simpa using h.names
  covered := by simpa [Covers, IsDialed, ReconnectManager.isScheduled] using h.covered
  timers := by simpa using h.timers
  retries := by simpa using h.retries
  tokens := by simpa using h.tokens
  dialTokens := by simpa using h.dialTokens
  outcome := by simpa using h.outcome

/-- A slot that resolves hands the peer that it has created to a dial. -/
theorem Tracked.finish {job : QueuedDispatch} (h : service.Tracked) (hrunning : service.running = some (job, outcome)) :
    ({ service with running := none }.dialCreated job.action outcome).Tracked := by
  rcases dialCreated_cases { service with running := none } job.action outcome with
    ⟨hsame, hnone⟩ | ⟨data, state, peer, haction, hok, hpeer, hdialable, hdials⟩
  · rw [hsame]
    refine { h with covered := fun name peer hat hdialable hstatus => ?_, outcome := fun _ _ hsome => by cases hsome }
    rcases h.covered name peer hat hdialable hstatus with
      hdial | htimer | hqueued | ⟨other, state, data, hsome, hcreate, rfl⟩
    · exact .inl hdial
    · exact .inr (.inl htimer)
    · exact .inr (.inr (.inl hqueued))
    · obtain ⟨rfl, rfl⟩ := Prod.mk.inj (Option.some.inj (hrunning.symm.trans hsome))
      rw [h.outcome _ _ hsome] at hnone
      rw [hnone data service.bus.state peer hcreate rfl hat] at hdialable
      cases hdialable
  · rw [hdials]
    have hnew : ∀ dial ∈ service.dials ++ [({ peer, retry := false } : Dial)],
        dial ∈ service.dials ∨ dial = { peer, retry := false } := fun dial hmem => by simpa using hmem
    refine { h with
      covered := fun name other hat hother hstatus => ?_
      retries := fun dial hmem hretry => ?_
      dialTokens := fun dial hmem => ?_
      outcome := fun _ _ hsome => by cases hsome }
    · rcases h.covered name other hat hother hstatus with
        ⟨dial, hmem, hname⟩ | htimer | hqueued | ⟨later, found, created, hsome, hcreate, hname⟩
      · exact .inl ⟨dial, List.mem_append_left _ hmem, hname⟩
      · exact .inr (.inl htimer)
      · exact .inr (.inr (.inl hqueued))
      · obtain ⟨rfl, -⟩ := Prod.mk.inj (Option.some.inj (hrunning.symm.trans hsome))
        obtain rfl := Action.localPeerCreate.inj (haction.symm.trans hcreate)
        exact .inl ⟨_, List.mem_append_right _ List.mem_cons_self, (RouteTable.peerAt_name hpeer).trans hname⟩
    · rcases hnew dial hmem with hmem | rfl
      · exact h.retries dial hmem hretry
      · cases hretry
    · rcases hnew dial hmem with hmem | rfl
      · exact h.dialTokens dial hmem
      · exact (Bool.and_eq_true_iff.mp hdialable).2

end Finish

/-- A dial that settles is followed by a connect in the queue or by a timer. -/
theorem Tracked.dialed {i : Nat} {dial : Dial} {opened : Bool} (h : service.Tracked)
    (hdial : service.dials[i]? = some dial) (hknown : opened = false → service.bus.state.peerAt dial.peer.name ≠ none) :
    ({ service with dials := service.dials.eraseIdx i }.dialSettled dial opened).Tracked := by
  have hmem : dial ∈ service.dials := List.mem_of_getElem? hdial
  have hrest : ∀ other ∈ service.dials.eraseIdx i, other ∈ service.dials := fun other => List.mem_of_mem_eraseIdx
  have hcases : ∀ other ∈ service.dials, other = dial ∨ other ∈ service.dials.eraseIdx i := by
    intro other hother
    obtain ⟨j, hj⟩ := List.getElem?_of_mem hother
    rcases eq_or_ne j i with rfl | hne
    · exact .inl (Option.some.inj (hj.symm.trans hdial))
    · exact .inr (List.mem_eraseIdx_iff_getElem?.mpr ⟨j, hne, hj⟩)
  cases opened with
  | true =>
    refine { h with
      covered := fun name peer hat hdialable hstatus => ?_
      retries := fun other hother => h.retries other (hrest other hother)
      dialTokens := fun other hother => h.dialTokens other (hrest other hother) }
    rcases h.covered name peer hat hdialable hstatus with
      ⟨other, hother, rfl⟩ | htimer | ⟨job, hjob, hconnects⟩ | hcreates
    · rcases hcases other hother with rfl | hother
      · exact .inr (.inr (.inl ⟨_, List.mem_append_right _ List.mem_cons_self, _, rfl, rfl⟩))
      · exact .inl ⟨other, hother, rfl⟩
    · exact .inr (.inl htimer)
    · exact .inr (.inr (.inl ⟨job, List.mem_append_left _ hjob, hconnects⟩))
    · exact .inr (.inr (.inr hcreates))
  | false =>
    refine { h with
      covered := fun name peer hat hdialable hstatus => ?_
      timers := fun timer htimer => ?_
      tokens := fun timer htimer => ?_
      retries := fun other hother => h.retries other (hrest other hother)
      dialTokens := fun other hother => h.dialTokens other (hrest other hother) }
    · rcases h.covered name peer hat hdialable hstatus with ⟨other, hother, rfl⟩ | htimer | hqueued | hcreates
      · rcases hcases other hother with rfl | hother
        · exact .inr (.inl (ReconnectManager.scheduleReconnect_isScheduled _ _))
        · exact .inl ⟨other, hother, rfl⟩
      · exact .inr (.inl (ReconnectManager.isScheduled_scheduleReconnect htimer _))
      · exact .inr (.inr (.inl hqueued))
      · exact .inr (.inr (.inr hcreates))
    · rcases ReconnectManager.mem_scheduleReconnect htimer with htimer | hpeer
      · exact h.timers timer htimer
      · rw [hpeer]
        exact hknown rfl
    · rcases ReconnectManager.mem_scheduleReconnect htimer with htimer | hpeer
      · exact h.tokens timer htimer
      · rw [hpeer]
        exact h.dialTokens dial hmem

/-- A timer that fires is followed by a dial. -/
theorem Tracked.timerFired {timer : ReconnectTimer} (h : service.Tracked)
    (htimer : timer ∈ service.reconnectManager.timers) : (service.timerFired timer).Tracked := by
  have hnew : ∀ dial ∈ service.dials ++ [({ peer := timer.peer, retry := true } : Dial)],
      dial ∈ service.dials ∨ dial = { peer := timer.peer, retry := true } := fun dial hmem => by simpa using hmem
  have hrest : ∀ other ∈ (service.reconnectManager.deleteTimer timer.peer.name).timers,
      other ∈ service.reconnectManager.timers := fun other hother => (List.mem_filter.mp hother).1
  unfold Service.timerFired
  dsimp only
  rw [if_pos (h.tokens timer htimer)]
  refine { h with
    covered := fun name peer hat hdialable hstatus => ?_
    timers := fun other hother => h.timers other (hrest other hother)
    tokens := fun other hother => h.tokens other (hrest other hother)
    retries := fun dial hmem hretry => ?_
    dialTokens := fun dial hmem => ?_ }
  · rcases h.covered name peer hat hdialable hstatus with ⟨dial, hmem, hname⟩ | hscheduled | hqueued | hcreates
    · exact .inl ⟨dial, List.mem_append_left _ hmem, hname⟩
    · by_cases hname : name = timer.peer.name
      · exact .inl ⟨_, List.mem_append_right _ List.mem_cons_self, hname.symm⟩
      · exact .inr (.inl (ReconnectManager.isScheduled_deleteTimer hscheduled hname))
    · exact .inr (.inr (.inl hqueued))
    · exact .inr (.inr (.inr hcreates))
  · rcases hnew dial hmem with hmem | rfl
    · exact h.retries dial hmem hretry
    · exact h.timers timer htimer
  · rcases hnew dial hmem with hmem | rfl
    · exact h.dialTokens dial hmem
    · exact h.tokens timer htimer

/-- A step that keeps the bookkeeping. -/
theorem step_tracked (event : Event) (hkeeps : service.Keeps event) (h : service.Tracked) :
    (service.step config event).Tracked := by
  cases event with
  | dispatch action =>
    refine { h with covered := fun name peer hat hdialable hstatus => ?_ }
    rcases h.covered name peer hat hdialable hstatus with hdial | htimer | ⟨job, hjob, hconnects⟩ | hcreates
    · exact .inl hdial
    · exact .inr (.inl htimer)
    · exact .inr (.inr (.inl ⟨job, List.mem_append_left _ hjob, hconnects⟩))
    · exact .inr (.inr (.inr hcreates))
  | start now =>
    simp only [step]
    split
    case h_1 job rest hrunning hqueue =>
      exact h.start hrunning hqueue (hkeeps hrunning job (by rw [hqueue]; rfl))
    case h_2 => exact h
  | finish =>
    simp only [step]
    split
    case h_1 job outcome hrunning => exact (h.finish hrunning).retried _
    case h_2 => exact h
  | dialed i opened =>
    simp only [step]
    split
    case h_1 dial hdial =>
      refine h.dialed hdial fun hfailed => ?_
      rw [hfailed] at hkeeps
      obtain ⟨peer, hmem, hname⟩ := hkeeps dial hdial
      exact fun hnone => RouteTable.peerAt_eq_none_iff.mp hnone peer hmem hname
    case h_2 => exact h
  | timer peerName =>
    simp only [step]
    split
    case h_1 timer htimer => exact h.timerFired (List.mem_of_find?_eq_some htimer)
    case h_2 => exact h

/-- In a run from an empty journal whose steps all meet the condition, the
    bookkeeping matches the peer table whenever no dispatch is queued or running. -/
theorem run_bookkept {portAllocator : Option PortAllocator} {events : List Event}
    (hsteps : Runs.EachStep (step config) Keeps (start portAllocator) events) {early late : List Event}
    (hsplit : events = early ++ late) (hquiet : (run config (start portAllocator) early).Quiescent) :
    (run config (start portAllocator) early).Bookkept := by
  rw [hsplit, Runs.eachStep_append] at hsteps
  have htracked : (run config (start portAllocator) early).Tracked :=
    Runs.run_induct (I := Tracked) (fun _ event hkeeps h => step_tracked event hkeeps h) hsteps.1
      (tracked_start portAllocator)
  exact htracked.bookkept hquiet

def nodeA : BusConfig := { node := { name := "node-a" } }

def nodeB : PeerInfo := { name := "node-b", endpoint := some "ws://node-b", peerToken := some "token" }

/-- `node-b` is created, its dial fails and its timer waits. -/
theorem bookkept_nodeB :
    let events : List Event := [.dispatch (.localPeerCreate nodeB), .start 1, .finish, .dialed 0 false]
    (run nodeA (start none) events).Bookkept ∧
      (run nodeA (start none) events).reconnectManager.isScheduled "node-b" = true := by
  intro events
  have hsteps : Runs.EachStep (step nodeA) Keeps (start none) events := by
    refine ⟨trivial, fun _ job hjob => ?_, trivial, ?_, trivial⟩
    · obtain rfl := Option.some.inj hjob
      trivial
    · intro dial hdial
      obtain rfl := Option.some.inj hdial
      exact ⟨_, List.mem_cons_self, rfl⟩
  exact ⟨run_bookkept hsteps (List.append_nil events).symm ⟨rfl, rfl⟩, rfl⟩

/-- The session with `node-b` ends in a transport error, and nobody dials again. -/
theorem transportError_abandons :
    let events : List Event := [.dispatch (.localPeerCreate nodeB), .start 1, .finish, .dialed 0 true, .start 2, .finish,
      .dispatch (.internalProtocolClose nodeB CloseCodes.transportError), .start 3, .finish]
    (run nodeA (start none) events).Quiescent ∧ ¬ (run nodeA (start none) events).Bookkept := by
  intro events
  refine ⟨⟨rfl, rfl⟩, fun h => ?_⟩
  have hclosed : ∃ peer ∈ (run nodeA (start none) events).bus.state.peers,
      dialable peer = true ∧ peer.connectionStatus = .closed := ⟨_, List.mem_cons_self, rfl, rfl⟩
  obtain ⟨peer, hmem, hdialable, hstatus⟩ := hclosed
  rcases h.covered peer hmem hdialable (by rw [hstatus]; decide) with ⟨dial, hdial, -⟩ | hscheduled
  · cases hdial
  · cases hscheduled

end Service

end CatalystRouter
