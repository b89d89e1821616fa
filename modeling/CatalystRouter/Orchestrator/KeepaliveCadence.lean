import Mathlib.Tactic.Linarith
import CatalystRouter.Orchestrator.Notify
import CatalystRouter.Orchestrator.Runs
import CatalystRouter.Orchestrator.TickManager
import CatalystRouter.Routing.HoldTimer

namespace CatalystRouter

def Effect.keepalive : Effect → Option PeerRecord
  | .sendKeepalive peer => some peer
  | _ => none

namespace Bus

/-- The keepalives of a queue slot. -/
def keepalivesSent (stages : List (List Effect)) : List PeerRecord := stages.flatten.filterMap Effect.keepalive

def DispatchResult.keepalives (result : DispatchResult) : List PeerRecord := keepalivesSent result.stages

variable {config : BusConfig} {bus : Bus} {now : Int} {action : Action}

@[simp] theorem keepalivesSent_nil : keepalivesSent [] = [] := rfl

@[simp] theorem keepalivesSent_append (first second : List (List Effect)) :
    keepalivesSent (first ++ second) = keepalivesSent first ++ keepalivesSent second := by
  simp [keepalivesSent]

theorem keepalivesSent_eq_nil {stages : List (List Effect)}
    (h : ∀ effect ∈ stages.flatten, effect.keepalive = none) : keepalivesSent stages = [] :=
  List.filterMap_eq_nil_iff.mpr h

@[simp] theorem keepalivesSent_gateway (state : RouteTable) :
    keepalivesSent (handleGraphqlGatewaySync config state) = [] := by
  unfold handleGraphqlGatewaySync
  dsimp only
  split <;> rfl

@[simp] theorem keepalivesSent_envoy (alloc : Option PortAllocator) (state : RouteTable) :
    keepalivesSent (handleEnvoySync config alloc state) = [] := by
  unfold handleEnvoySync
  split <;> rfl

@[simp] theorem keepalivesSent_notify (plan : PlanResult) (state : RouteTable) :
    keepalivesSent (handleBGPNotify config action plan state) = [] := by
  apply keepalivesSent_eq_nil
  intro effect heffect
  obtain ⟨peer, updates, rfl⟩ | ⟨peer, code, rfl⟩ := mem_notify_cases heffect
  · rfl
  · rfl

@[simp] theorem keepalivesSent_tick (state : RouteTable) :
    keepalivesSent (tickKeepalives bus (.tick now) state) =
      state.peers.filter (needsKeepalive bus.lastKeepaliveSent now) := by
  simp only [keepalivesSent, tickKeepalives, handleKeepalives, List.flatten_cons, List.flatten_nil, List.append_nil,
    List.filterMap_map]
  exact List.filterMap_some

/-- A Tick sends keepalives to the peers of the table it leaves that need one. -/
theorem tick_keepalives (clock : Int) :
    (dispatch config bus clock (.tick now)).keepalives =
      (dispatch config bus clock (.tick now)).bus.state.peers.filter (needsKeepalive bus.lastKeepaliveSent now) := by
  unfold dispatch DispatchResult.keepalives
  rw [if_neg (by simp [lacksPeerToken])]
  dsimp only [applyInboundPolicy]
  split
  · simp only [handlePostCommit, keepalivesSent_append, keepalivesSent_notify, keepalivesSent_tick]
    split <;> split <;> simp
  · exact keepalivesSent_tick bus.state

/-- A queue slot does not touch the record of sent keepalives itself. -/
theorem dispatch_sentRecord (config : BusConfig) (bus : Bus) (now : Int) (action : Action) :
    (dispatch config bus now action).bus.lastKeepaliveSent = bus.lastKeepaliveSent := by
  have hshape := dispatch_shape config bus now action
  generalize dispatch config bus now action = result at hshape ⊢
  cases hshape with
  | rejected | idle | committed => rfl

end Bus

/-- What happens up to and including one Tick: the slots that run since the one
    before, the clock reading at its own, and the peers its keepalives reach. -/
structure TickRound where
  others : List (Int × Action) := []
  clock : Int
  delivered : String → Bool := fun _ => true

namespace TickRound

/-- The bus that the Tick of a round finds. -/
def before (config : BusConfig) (bus : Bus) (round : TickRound) : Bus :=
  Bus.run config bus (round.others.map fun slot => .dispatch slot.1 slot.2)

def slot (config : BusConfig) (bus : Bus) (now : Int) (round : TickRound) : Bus.DispatchResult :=
  Bus.dispatch config (round.before config bus) round.clock (.tick now)

/-- The keepalives of the round whose sends succeed. -/
def sent (config : BusConfig) (bus : Bus) (now : Int) (round : TickRound) : List String :=
  ((round.slot config bus now).keepalives.map (·.name)).filter round.delivered

/-- The slot ends when all its sends have settled. -/
def after (config : BusConfig) (bus : Bus) (now : Int) (round : TickRound) : Bus :=
  (round.sent config bus now).foldl (fun bus name => Bus.keepaliveSent bus name now) (round.slot config bus now).bus

end TickRound

/-- A bus that Ticks at `first` and then every `interval`. -/
structure TickRun where
  config : BusConfig
  bus : Bus
  first : Int
  interval : Int
  rounds : Nat → TickRound

namespace TickRun

variable (self : TickRun)

def tickTime (k : Nat) : Int := self.first + k * self.interval

/-- The bus before each round. -/
def busAt : Nat → Bus
  | 0 => self.bus
  | k + 1 => (self.rounds k).after self.config (busAt k) (self.tickTime k)

/-- The Tick sends the peer a keepalive, and the send succeeds. -/
def SentAt (name : String) (k : Nat) : Prop :=
  name ∈ (self.rounds k).sent self.config (self.busAt k) (self.tickTime k)

/-- The peer is connected with that hold time when the Tick looks for peers that need
    a keepalive, and a send to it succeeds. -/
def Healthy (name : String) (holdTime : Int) (k : Nat) : Prop :=
  (∃ p, ((self.rounds k).slot self.config (self.busAt k) (self.tickTime k)).bus.state.peerAt name = some p ∧
    p.connectionStatus = .connected ∧ p.holdTime = holdTime) ∧ (self.rounds k).delivered name = true

/-- The keepalive of that Tick is the last one sent to the peer before `now`. -/
def LastSent (name : String) (i : Nat) (now : Int) : Prop :=
  self.SentAt name i ∧ self.tickTime i ≤ now ∧ ∀ k, i < k → self.tickTime k < now → ¬ self.SentAt name k

variable {self} {name : String} {holdTime : Int} {i j k : Nat}

instance : Decidable (self.SentAt name k) := inferInstanceAs (Decidable (_ ∈ _))

theorem tickTime_succ : self.tickTime (k + 1) = self.tickTime k + self.interval := by
  rw [tickTime, Nat.cast_succ, add_mul, one_mul, ← add_assoc, tickTime]

theorem before_sentRecord (round : TickRound) (config : BusConfig) (bus : Bus) :
    (round.before config bus).lastKeepaliveSent = bus.lastKeepaliveSent := by
  unfold TickRound.before
  induction round.others generalizing bus with
  | nil => rfl
  | cons slot rest ih =>
    rw [List.map_cons, Bus.run, Runs.run_cons]
    exact (ih _).trans (Bus.dispatch_sentRecord config bus slot.1 slot.2)

theorem foldl_keepaliveSent (names : List String) (now : Int) (bus : Bus) :
    (names.foldl (fun bus name => Bus.keepaliveSent bus name now) bus).lastKeepaliveSent name =
      if name ∈ names then now else bus.lastKeepaliveSent name := by
  induction names generalizing bus with
  | nil => rfl
  | cons first rest ih =>
    rw [List.foldl_cons, ih]
    simp only [Bus.keepaliveSent, Function.update_apply, List.mem_cons]
    by_cases hrest : name ∈ rest
    · simp [hrest]
    · simp [hrest]

/-- The record of sent keepalives moves exactly with the keepalives sent. -/
theorem busAt_sentRecord (k : Nat) : (self.busAt (k + 1)).lastKeepaliveSent name =
    if self.SentAt name k then self.tickTime k else (self.busAt k).lastKeepaliveSent name := by
  rw [busAt, TickRound.after, foldl_keepaliveSent, TickRound.slot, Bus.dispatch_sentRecord, before_sentRecord]
  rfl

/-- A healthy peer that a Tick passes over was sent a keepalive within a third of its
    hold time. -/
theorem not_sentAt (hhealthy : self.Healthy name holdTime k) (hpositive : 0 < holdTime)
    (hsilent : ¬ self.SentAt name k) :
    3 * (self.tickTime k - (self.busAt k).lastKeepaliveSent name) ≤ holdTime := by
  obtain ⟨⟨p, hp, hconnected, rfl⟩, hdelivered⟩ := hhealthy
  by_contra hdue
  apply hsilent
  unfold SentAt TickRound.sent
  rw [TickRound.slot] at hp ⊢
  rw [Bus.tick_keepalives, before_sentRecord]
  refine List.mem_filter.mpr ⟨List.mem_map.mpr ⟨p, List.mem_filter.mpr ⟨RouteTable.mem_of_peerAt hp, ?_⟩, ?_⟩, hdelivered⟩
  · have hname := RouteTable.peerAt_name hp
    simp only [Bus.needsKeepalive, hconnected, hname, beq_self_eq_true, Bool.true_and, Bool.and_eq_true, decide_eq_true_eq]
    omega
  · exact RouteTable.peerAt_name hp

/-- Until the next keepalive the record keeps the time of the last one. -/
theorem sentRecord_between (hsent : self.SentAt name i) (hij : i < j)
    (hbetween : ∀ k, i < k → k < j → ¬ self.SentAt name k) :
    (self.busAt j).lastKeepaliveSent name = self.tickTime i := by
  induction j, hij using Nat.le_induction with
  | base => rw [busAt_sentRecord, if_pos hsent]
  | succ j hij ih =>
    rw [busAt_sentRecord, if_neg (hbetween j hij (by omega)), ih fun k hik hkj => hbetween k hik (by omega)]

/-- No Tick up to and including the next keepalive is further from the last one than
    a hold time that the interval fits. -/
theorem gap_le (hpositive : 0 < self.interval) (hfits : self.interval ≤ holdTime) (hsent : self.SentAt name i) (hij : i < j)
    (hbetween : ∀ k, i < k → k < j → ¬ self.SentAt name k)
    (hhealthy : ∀ k, i < k → k < j → self.Healthy name holdTime k) :
    self.tickTime j - self.tickTime i ≤ holdTime := by
  obtain ⟨j, rfl⟩ : ∃ previous, j = previous + 1 := ⟨j - 1, by omega⟩
  rw [tickTime_succ]
  obtain rfl | hlater := Nat.eq_or_lt_of_le (Nat.le_of_lt_succ hij)
  · omega
  · have hlast := sentRecord_between hsent hlater fun k hik hkj => hbetween k hik (by omega)
    have hsilent := not_sentAt (hhealthy j hlater (by omega)) (by omega) (hbetween j hlater (by omega))
    rw [hlast] at hsilent
    -- a Tick was passed over, so a third of the hold time is at least one interval
    have hstep : self.interval ≤ self.tickTime j - self.tickTime i := by
      have hmul : (1 : Int) * self.interval ≤ ((j : Int) - i) * self.interval :=
        Int.mul_le_mul_of_nonneg_right (by omega) (by omega)
      simp only [tickTime]
      linarith [hmul, sub_mul (j : Int) i self.interval]
    omega

/-- With the interval chosen from the hold times, two keepalives in a row to a healthy
    peer whose hold time is not below the floor are at most that hold time apart, and
    the peer, when it hears nothing else, does not expire the session. -/
theorem keepalives_cover {manager : TickManager} {holdTimes : List Int} (hmem : holdTime ∈ holdTimes)
    (hfloor : 1000 ≤ holdTime) (hinterval : self.interval = (manager.recalculate holdTimes).intervalMs) :
    (∀ i j, i < j → self.SentAt name i → self.SentAt name j → (∀ k, i < k → k < j → ¬ self.SentAt name k) →
      (∀ k, i < k → k < j → self.Healthy name holdTime k) → self.tickTime j - self.tickTime i ≤ holdTime) ∧
    ∀ now i, self.LastSent name i now → (∀ k, i < k → self.tickTime k < now → self.Healthy name holdTime k) →
      ∀ delay (remote : PeerRecord), remote.holdTime = holdTime → remote.lastReceived = self.tickTime i + delay →
        Rib.expired (now + delay) remote = false := by
  have hfits := manager.recalculate_fits hmem (by omega)
  rw [← hinterval] at hfits
  have hpositive : 0 < self.interval := by omega
  have hgap {i j : Nat} (hsent : self.SentAt name i) :=
    gap_le (j := j) hpositive (by omega : self.interval ≤ holdTime) hsent
  refine ⟨fun i j hij hsent _ hbetween hhealthy => hgap hsent hij hbetween hhealthy, ?_⟩
  rintro now i ⟨hsent, hpast, hlast⟩ hhealthy delay remote rfl hreceived
  -- the first Tick that is not before `now`
  have hcomes : ∃ j, i < j ∧ now ≤ self.tickTime j := by
    refine ⟨i + 1 + (now - self.tickTime i).toNat, by omega, ?_⟩
    have hmul : (now - self.tickTime i) * 1 ≤ ((now - self.tickTime i).toNat : Int) * self.interval := by
      nlinarith [Int.self_le_toNat (now - self.tickTime i)]
    simp only [tickTime, Nat.cast_add, Nat.cast_one] at hmul ⊢
    linarith [add_mul ((i : Int) + 1) ((now - self.tickTime i).toNat : Int) self.interval]
  obtain ⟨hij, hnow⟩ := Nat.find_spec hcomes
  have hearlier (k : Nat) (hik : i < k) (hkj : k < Nat.find hcomes) : self.tickTime k < now := by
    by_contra hnot
    exact Nat.find_min hcomes hkj ⟨hik, by omega⟩
  have hwithin := hgap hsent hij (fun k hik hkj => hlast k hik (hearlier k hik hkj))
    fun k hik hkj => hhealthy k hik (hearlier k hik hkj)
  simp only [Rib.expired, Rib.holdElapsed, hreceived, Bool.and_eq_false_iff, decide_eq_false_iff_not]
  omega

/-- `node-a` has a session with `node-b`, from which a keepalive comes before each Tick. -/
def idleSession (holdTime : Int) : TickRun where
  config := { node := { name := "node-a" } }
  bus := { state := { newRouteTable with
    peers := [{ name := "node-b", connectionStatus := .connected, holdTime, lastReceived := 1 }] } }
  first := 1000
  interval := 1000
  rounds := fun k => { others := [(1000 * (k + 1), .internalProtocolKeepalive { name := "node-b" })], clock := 1000 * (k + 1) }

/-- A hold time of 3 s is covered by a keepalive every 2 s. -/
theorem keepalives_cover_idle :
    (idleSession 3000).tickTime 3 - (idleSession 3000).tickTime 1 ≤ 3000 ∧
      Rib.expired 3010 { name := "node-a", connectionStatus := .connected, holdTime := 3000, lastReceived := 2010 } =
        false := by
  have hbetween (k : Nat) (hlow : 1 < k) (hhigh : k < 3) : ¬ (idleSession 3000).SentAt "node-b" k := by
    obtain rfl : k = 2 := by omega
    decide
  have hhealthy (k : Nat) (hlow : 1 < k) (hhigh : k < 3) : (idleSession 3000).Healthy "node-b" 3000 k := by
    obtain rfl : k = 2 := by omega
    exact ⟨⟨{ name := "node-b", connectionStatus := .connected, holdTime := 3000, lastReceived := 3000 }, by decide⟩, rfl⟩
  obtain ⟨hapart, hcovered⟩ := @keepalives_cover (idleSession 3000) "node-b" 3000 {} [3000] (by decide) (by decide)
    (by decide)
  refine ⟨hapart 1 3 (by decide) (by decide) (by decide) hbetween hhealthy, ?_⟩
  have hlast : (idleSession 3000).LastSent "node-b" 1 3000 := by
    refine ⟨by decide, by decide, fun k hlow hbefore => absurd hbefore ?_⟩
    simp only [tickTime, idleSession]
    omega
  refine hcovered 3000 1 hlast (fun k hlow hbefore => hhealthy k hlow ?_) 10 _ rfl rfl
  simp only [tickTime, idleSession] at hbefore
  omega

/-- A session with a hold time below the floor lapses between two Ticks. -/
theorem keepalives_late :
    (600 : Int) ∈ [600] ∧ (idleSession 600).interval = (TickManager.recalculate {} [600]).intervalMs ∧
      (∀ k ∈ [0, 1], (idleSession 600).SentAt "node-b" k ∧ (idleSession 600).Healthy "node-b" 600 k) ∧
      600 < (idleSession 600).tickTime 1 - (idleSession 600).tickTime 0 ∧
      Rib.expired 1700
        { name := "node-a", connectionStatus := .connected, holdTime := 600,
          lastReceived := (idleSession 600).tickTime 0 } = true := by
  refine ⟨by decide, by decide, fun k hk => ?_, by decide, by decide⟩
  obtain rfl | rfl : k = 0 ∨ k = 1 := by simpa using hk
  · exact ⟨by decide,
      ⟨{ name := "node-b", connectionStatus := .connected, holdTime := 600, lastReceived := 1000 }, by decide⟩, rfl⟩
  · exact ⟨by decide,
      ⟨{ name := "node-b", connectionStatus := .connected, holdTime := 600, lastReceived := 2000 }, by decide⟩, rfl⟩

end TickRun

end CatalystRouter
