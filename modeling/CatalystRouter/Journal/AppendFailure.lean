import CatalystRouter.Journal.Replay
import CatalystRouter.Orchestrator.Repeats

namespace CatalystRouter

namespace JournaledBus

/-- A queue slot in which `journal.append` would throw `error`. By then the ports are
    allocated and `commit` has replaced the state; what follows the append is skipped,
    and the promise is rejected. -/
def dispatchThrowing (config : BusConfig) (s : JournaledBus) (error : String) (now : Int) (action : Action) :
    Except String (Except String RouteTable) × JournaledBus :=
  let result := Bus.dispatch config s.bus now action
  match result.committed with
  | some _ => (.error error, { s with bus := result.bus })
  | none => (.ok result.outcome, { s with bus := result.bus })

/-- An event of a bus with a journal, or a slot whose append throws. -/
inductive FaultyEvent where
  | sound (event : Event)
  | appendThrows (error : String) (now : Int) (action : Action)

def handleFaulty (config : BusConfig) (s : JournaledBus) : FaultyEvent → JournaledBus
  | .sound event => handle config s event
  | .appendThrows error now action => (dispatchThrowing config s error now action).2

/-- A slot whose append throws is rejected and leaves the table, the allocator and the
    journal as they were, and so the table next to the one that recovery makes. -/
structure Undone (config : BusConfig) (s : JournaledBus) (error : String) (now : Int) (action : Action) : Prop where
  rejects : (dispatchThrowing config s error now action).1 = .error error
  state : (dispatchThrowing config s error now action).2.bus.state = s.bus.state
  portAllocator : (dispatchThrowing config s error now action).2.bus.portAllocator = s.bus.portAllocator
  journal : (dispatchThrowing config s error now action).2.journal = s.journal
  replayed : ∀ clock, Agrees s.bus.state (recover config.node.name clock s.journal) →
    Agrees (dispatchThrowing config s error now action).2.bus.state
      (recover config.node.name clock (dispatchThrowing config s error now action).2.journal)

/-- A failing append leaves no trace. -/
def Atomic (config : BusConfig) (s : JournaledBus) : FaultyEvent → Prop
  | .sound _ => True
  | .appendThrows error now action =>
    Bus.takesEffect config s.bus.state now action = true → Undone config s error now action

/-- An append only fails for an action, as the policy leaves it, that repeats the table,
    while the routes have all the ports that they can get. -/
def FailsOnRepeats (config : BusConfig) (s : JournaledBus) : FaultyEvent → Prop
  | .sound _ => True
  | .appendThrows _ now action =>
    Bus.takesEffect config s.bus.state now action = true →
      (∃ filteredAction ∈ Bus.applyInboundPolicy config s.bus.state action,
        Rib.Repeats config.node.name now s.bus.state filteredAction) ∧
        Bus.Supplied s.bus.portAllocator s.bus.state

/-- The append fails for an update whose entries cancel out. -/
def FailsOnCancelling (config : BusConfig) (s : JournaledBus) : FaultyEvent → Prop
  | .sound _ => False
  | .appendThrows _ _ action =>
    ∃ filteredAction ∈ Bus.applyInboundPolicy config s.bus.state action,
      Rib.Cancels config.node.name s.bus.state filteredAction

variable {config : BusConfig} {s : JournaledBus} {error : String} {now : Int} {action : Action}

theorem undone_iff (heffect : Bus.takesEffect config s.bus.state now action = true) :
    Undone config s error now action ↔
      (Bus.dispatch config s.bus now action).bus.state = s.bus.state ∧
        (Bus.dispatch config s.bus now action).bus.portAllocator = s.bus.portAllocator := by
  rw [← Bus.dispatch_committed] at heffect
  obtain ⟨plan, hplan⟩ := Option.isSome_iff_exists.mp heffect
  have hslot : dispatchThrowing config s error now action =
      (.error error, { s with bus := (Bus.dispatch config s.bus now action).bus }) := by
    simp only [dispatchThrowing, hplan]
  constructor
  · intro h
    have hstate := h.state
    have halloc := h.portAllocator
    rw [hslot] at hstate halloc
    exact ⟨hstate, halloc⟩
  · rintro ⟨hstate, halloc⟩
    refine ⟨?_, ?_, ?_, ?_, fun clock hagrees => ?_⟩ <;> rw [hslot]
    · exact hstate
    · exact halloc
    · simp only
      rw [hstate]
      exact hagrees

theorem atomic_of_repeats {event : FaultyEvent} (h : FailsOnRepeats config s event) : Atomic config s event := by
  cases event with
  | sound event => trivial
  | appendThrows error now action =>
    intro heffect
    obtain ⟨⟨filteredAction, hfiltered, hrepeats⟩, hsupplied⟩ := h heffect
    obtain ⟨planned, hplanned, -, hstate, halloc⟩ := Bus.dispatch_of_takesEffect heffect
    obtain rfl := Option.some.inj (hfiltered.symm.trans hplanned)
    obtain ⟨hnewState, hops, hkept⟩ := Rib.plan_repeats hrepeats
    rw [← hnewState] at hsupplied
    obtain ⟨hsameState, hsameAlloc⟩ := (Bus.planPorts_same_iff hops hkept).mpr hsupplied
    exact (undone_iff heffect).mpr ⟨hstate.trans (hsameState.trans hnewState), halloc.trans hsameAlloc⟩

theorem repeats_of_atomic {event : FaultyEvent} (h : Atomic config s event) :
    FailsOnRepeats config s event ∨ FailsOnCancelling config s event := by
  cases event with
  | sound event => exact .inl trivial
  | appendThrows error now action =>
    by_cases heffect : Bus.takesEffect config s.bus.state now action = true
    · obtain ⟨hstate, halloc⟩ := (undone_iff heffect).mp (h heffect)
      obtain ⟨filteredAction, hfiltered, hchanged, hplanned, hallocated⟩ := Bus.dispatch_of_takesEffect heffect
      have honly := Bus.planPorts_portsOnly s.bus.portAllocator
        (Rib.plan config.node.name now filteredAction s.bus.state)
      rw [hstate] at hplanned
      have hrepeats := Rib.repeats_of_same hchanged (by rw [← honly.peers, ← hplanned])
        (by rw [← honly.localRoutes, ← hplanned]) (by rw [← honly.internalRoutes, ← hplanned])
      obtain hrepeats | hcancels := hrepeats
      · left
        obtain ⟨hnewState, hops, hkept⟩ := Rib.plan_repeats hrepeats
        refine fun _ => ⟨⟨filteredAction, hfiltered, hrepeats⟩, ?_⟩
        rw [← hnewState]
        refine (Bus.planPorts_same_iff hops hkept).mp ⟨?_, ?_⟩
        · rw [← hplanned, hnewState]
        · rw [← hallocated, halloc]
      · exact .inr ⟨filteredAction, hfiltered, hcancels⟩
    · exact .inl fun heffect' => absurd heffect' heffect

/-- In a run whose appends only fail for actions that repeat the table, every failing
    append leaves no trace; and where none leaves a trace, that is so, or the failing
    slot handles an update whose entries cancel out. -/
theorem serve_atomic (config : BusConfig) (portAllocator : Option PortAllocator) (events : List FaultyEvent) :
    (Runs.EachStep (handleFaulty config) (FailsOnRepeats config) (boot portAllocator) events →
        Runs.EachStep (handleFaulty config) (Atomic config) (boot portAllocator) events) ∧
      (Runs.EachStep (handleFaulty config) (Atomic config) (boot portAllocator) events →
        Runs.EachStep (handleFaulty config)
          (fun s event => FailsOnRepeats config s event ∨ FailsOnCancelling config s event) (boot portAllocator) events) :=
  ⟨Runs.eachStep_mono _ fun _ _ => atomic_of_repeats, Runs.eachStep_mono _ fun _ _ => repeats_of_atomic⟩

def meshNode : BusConfig := { node := { name := "node-a" } }

def portedBus : JournaledBus := boot (some (createPortAllocator [.range 10000 10001]))

/-- `node-b` is heard twice within one millisecond, and the second append fails. -/
def heardTwice : List FaultyEvent :=
  [.sound (.bus (.dispatch 1 (.localPeerCreate { name := "node-b", peerToken := some "token" }))),
    .sound (.bus (.dispatch 2 (.internalProtocolConnected { name := "node-b" }))),
    .appendThrows "SQLITE_BUSY" 2 (.internalProtocolKeepalive { name := "node-b" })]

theorem atomic_heardTwice : Runs.EachStep (handleFaulty meshNode) (Atomic meshNode) portedBus heardTwice := by
  refine (serve_atomic meshNode _ heardTwice).1 ⟨trivial, trivial, fun _ => ⟨⟨_, rfl, ?_⟩, ?_⟩, trivial⟩
  · refine ⟨⟨"node-b", rfl, fun p hp => ?_⟩, trivial⟩
    obtain rfl := Option.some.inj hp
    rfl
  · intro alloc halloc
    exact ⟨fun _ hroute => absurd hroute List.not_mem_nil, fun _ hr => absurd hr List.not_mem_nil⟩

def createBooks : Action := .localRouteCreate { name := "books", protocol := .http }

/-- The disk is full when a route is created: it stays in the table, with its port,
    and recovery does not know it. -/
theorem append_leaves_books :
    ¬ Runs.EachStep (handleFaulty meshNode) (Atomic meshNode) portedBus [.appendThrows "SQLITE_FULL" 1 createBooks] ∧
      (dispatchThrowing meshNode portedBus "SQLITE_FULL" 1 createBooks).2.bus.state.localRoutes =
        [{ name := "books", protocol := .http, envoyPort := some 10000 }] ∧
      (dispatchThrowing meshNode portedBus "SQLITE_FULL" 1 createBooks).2.bus.portAllocator =
        some ⟨[10001], [("books", 10000)]⟩ ∧
      recover "node-a" (fun _ => 2) (dispatchThrowing meshNode portedBus "SQLITE_FULL" 1 createBooks).2.journal =
        newRouteTable := by
  have hroutes : (dispatchThrowing meshNode portedBus "SQLITE_FULL" 1 createBooks).2.bus.state.localRoutes =
      [{ name := "books", protocol := .http, envoyPort := some 10000 }] := by decide
  refine ⟨?_, hroutes, by decide, by decide⟩
  rintro ⟨hatomic, -⟩
  have hstate := congrArg RouteTable.localRoutes (hatomic (by decide)).state
  rw [hroutes] at hstate
  cases hstate

end JournaledBus

end CatalystRouter
