import Mathlib.Algebra.BigOperators.Group.List.Basic
import Mathlib.Algebra.Group.Nat.Defs
import Mathlib.Algebra.Group.Prod
import Mathlib.Data.Prod.Lex
import Mathlib.Order.WellFounded
import CatalystRouter.Library.Lists
import CatalystRouter.Library.Runs

/-! A queue of asynchronous functions over a shared state, in which each call waits
    for the promise of the call before it. -/

namespace PromiseQueue

variable {S V Call Input Effect Outcome : Type}

/-- What a function does up to its first await: its outcome is fixed there, and
    every stage of effects is computed when it comes. -/
structure Begun (S Effect Outcome : Type) where
  state : S
  outcome : Outcome
  stages : List (S → List Effect) := []

/-- The queued functions; `settle` is what a function does when an effect that it
    awaits is fulfilled or rejected. -/
structure Body (S Call Input Effect Outcome : Type) where
  start : S → Call → Input → Begun S Effect Outcome
  settle : S → Call → Input → Effect → Bool → S

inductive Phase (S Input Effect Outcome : Type) where
  | waiting
  | running (input : Input) (outcome : Outcome) (inFlight : List Effect) (stages : List (S → List Effect))
  | settled (input : Input) (outcome : Outcome)
  | released (input : Input) (outcome : Outcome)

/-- The input that a call has begun with, and its outcome. -/
def Phase.begun : Phase S Input Effect Outcome → Option (Input × Outcome)
  | .waiting => none
  | .running input outcome _ _ => some (input, outcome)
  | .settled input outcome => some (input, outcome)
  | .released input outcome => some (input, outcome)

def Phase.isReleased : Phase S Input Effect Outcome → Bool
  | .released _ _ => true
  | _ => false

/-- A call with the promise that it waits for: the one that the slot of that number
    resolves, or one that is resolved already. -/
structure Slot (S Call Input Effect Outcome : Type) where
  call : Call
  gate : Option Nat
  phase : Phase S Input Effect Outcome := .waiting

def Slot.begun (slot : Slot S Call Input Effect Outcome) : Option (Call × Input) :=
  slot.phase.begun.map fun begun => (slot.call, begun.1)

/-- The calls so far in their order, with the promise that the next one will wait for. -/
structure Queue (S Call Input Effect Outcome : Type) where
  shared : S
  slots : List (Slot S Call Input Effect Outcome) := []
  tail : Option Nat := none

inductive Move (Call Input : Type) where
  | enqueue (call : Call)
  | start (k : Nat) (input : Input)
  | advance (k : Nat)
  | settle (k i : Nat) (fulfilled : Bool)
  | finish (k : Nat)
  | release (k : Nat)

def Move.call : Move Call Input → Option Call
  | .enqueue call => some call
  | _ => none

/-- The moves that are the runtime's own, where a call that starts reads this input
    and an effect settles in this way. -/
def Move.Resolves (input : Input) (fulfilled : Bool) : Move Call Input → Prop
  | .enqueue _ => False
  | .start _ read => read = input
  | .settle _ _ result => result = fulfilled
  | .advance _ | .finish _ | .release _ => True

namespace Queue

/-- The promise has been resolved. -/
def isOpen (queue : Queue S Call Input Effect Outcome) (gate : Option Nat) : Bool :=
  match gate with
  | none => true
  | some j => queue.slots[j]?.any (·.phase.isReleased)

/-- Change the phase of a slot. -/
def put (queue : Queue S Call Input Effect Outcome) (k : Nat) (slot : Slot S Call Input Effect Outcome) (shared : S)
    (phase : Phase S Input Effect Outcome) : Queue S Call Input Effect Outcome :=
  { queue with shared, slots := queue.slots.set k { slot with phase } }

/-- One step; `none` when it is not enabled. -/
def step (body : Body S Call Input Effect Outcome) (queue : Queue S Call Input Effect Outcome) :
    Move Call Input → Option (Queue S Call Input Effect Outcome)
  | .enqueue call =>
    some { queue with slots := queue.slots ++ [{ call, gate := queue.tail }], tail := some queue.slots.length }
  | .start k input => do
    let slot ← queue.slots[k]?
    match slot.phase with
    | .waiting =>
      if queue.isOpen slot.gate then
        let begun := body.start queue.shared slot.call input
        some (queue.put k slot begun.state (.running input begun.outcome [] begun.stages))
      else none
    | _ => none
  | .advance k => do
    let slot ← queue.slots[k]?
    match slot.phase with
    | .running input outcome [] (stage :: stages) =>
      some (queue.put k slot queue.shared (.running input outcome (stage queue.shared) stages))
    | _ => none
  | .settle k i fulfilled => do
    let slot ← queue.slots[k]?
    match slot.phase with
    | .running input outcome inFlight stages => do
      let effect ← inFlight[i]?
      some (queue.put k slot (body.settle queue.shared slot.call input effect fulfilled)
        (.running input outcome (inFlight.eraseIdx i) stages))
    | _ => none
  | .finish k => do
    let slot ← queue.slots[k]?
    match slot.phase with
    | .running input outcome [] [] => some (queue.put k slot queue.shared (.settled input outcome))
    | _ => none
  | .release k => do
    let slot ← queue.slots[k]?
    match slot.phase with
    | .settled input outcome => some (queue.put k slot queue.shared (.released input outcome))
    | _ => none

/-- The queue after a list of moves, if each was enabled. -/
def run (body : Body S Call Input Effect Outcome) (queue : Queue S Call Input Effect Outcome)
    (moves : List (Move Call Input)) : Option (Queue S Call Input Effect Outcome) := moves.foldlM (step body) queue

/-- The calls that have begun, with what they read. -/
def begun (queue : Queue S Call Input Effect Outcome) : List (Call × Input) := queue.slots.filterMap (·.begun)

end Queue

/-- The calls one after another, with nothing in between. -/
def sequential (body : Body S Call Input Effect Outcome) (state : S) (calls : List (Call × Input)) : S :=
  calls.foldl (fun state call => (body.start state call.1 call.2).state) state

/-- The functions see no more of the shared state than `view`, which settlements do
    not change. -/
structure Body.Respects (body : Body S Call Input Effect Outcome) (view : S → V) : Prop where
  start : ∀ state other call input, view state = view other →
    view (body.start state call input).state = view (body.start other call input).state ∧
      (body.start state call input).outcome = (body.start other call input).outcome
  settle : ∀ state call input effect fulfilled, view (body.settle state call input effect fulfilled) = view state

/-- What a move makes of the slot that it is about. -/
inductive Turn (body : Body S Call Input Effect Outcome) (queue : Queue S Call Input Effect Outcome)
    (slot : Slot S Call Input Effect Outcome) : S → Phase S Input Effect Outcome → Prop where
  | start {input : Input} (hphase : slot.phase = .waiting) (hopen : queue.isOpen slot.gate = true) :
    Turn body queue slot (body.start queue.shared slot.call input).state
      (.running input (body.start queue.shared slot.call input).outcome []
        (body.start queue.shared slot.call input).stages)
  | advance {input : Input} {outcome : Outcome} {stage : S → List Effect} {stages : List (S → List Effect)}
    (hphase : slot.phase = .running input outcome [] (stage :: stages)) :
    Turn body queue slot queue.shared (.running input outcome (stage queue.shared) stages)
  | settle {input : Input} {outcome : Outcome} {inFlight : List Effect} {stages : List (S → List Effect)} {i : Nat}
    {effect : Effect} {fulfilled : Bool} (hphase : slot.phase = .running input outcome inFlight stages)
    (heffect : inFlight[i]? = some effect) :
    Turn body queue slot (body.settle queue.shared slot.call input effect fulfilled)
      (.running input outcome (inFlight.eraseIdx i) stages)
  | finish {input : Input} {outcome : Outcome} (hphase : slot.phase = .running input outcome [] []) :
    Turn body queue slot queue.shared (.settled input outcome)
  | release {input : Input} {outcome : Outcome} (hphase : slot.phase = .settled input outcome) :
    Turn body queue slot queue.shared (.released input outcome)

section Step

variable {body : Body S Call Input Effect Outcome} {queue next : Queue S Call Input Effect Outcome}
  {slot : Slot S Call Input Effect Outcome} {shared : S} {phase : Phase S Input Effect Outcome}
  {move : Move Call Input} {view : S → V} {init : S}

/-- A move adds a call at the end, or is the turn of one slot. -/
theorem step_cases (h : queue.step body move = some next) :
    (∃ call, move = .enqueue call ∧
      next = { queue with slots := queue.slots ++ [{ call, gate := queue.tail }], tail := some queue.slots.length }) ∨
    move.call = none ∧ ∃ k slot shared phase, queue.slots[k]? = some slot ∧ Turn body queue slot shared phase ∧
      next = queue.put k slot shared phase := by
  cases move with
  | enqueue call => exact .inl ⟨call, rfl, (Option.some.inj h).symm⟩
  | start k input =>
    obtain ⟨slot, hslot, h⟩ := Option.bind_eq_some_iff.mp h
    split at h
    case h_1 hphase =>
      split at h
      case isTrue hopen => exact .inr ⟨rfl, k, slot, _, _, hslot, .start hphase hopen, (Option.some.inj h).symm⟩
      case isFalse => cases h
    case h_2 => cases h
  | advance k =>
    obtain ⟨slot, hslot, h⟩ := Option.bind_eq_some_iff.mp h
    split at h
    case h_1 hphase => exact .inr ⟨rfl, k, slot, _, _, hslot, .advance hphase, (Option.some.inj h).symm⟩
    case h_2 => cases h
  | settle k i fulfilled =>
    obtain ⟨slot, hslot, h⟩ := Option.bind_eq_some_iff.mp h
    split at h
    case h_1 hphase =>
      obtain ⟨effect, heffect, h⟩ := Option.bind_eq_some_iff.mp h
      exact .inr ⟨rfl, k, slot, _, _, hslot, .settle hphase heffect, (Option.some.inj h).symm⟩
    case h_2 => cases h
  | finish k =>
    obtain ⟨slot, hslot, h⟩ := Option.bind_eq_some_iff.mp h
    split at h
    case h_1 hphase => exact .inr ⟨rfl, k, slot, _, _, hslot, .finish hphase, (Option.some.inj h).symm⟩
    case h_2 => cases h
  | release k =>
    obtain ⟨slot, hslot, h⟩ := Option.bind_eq_some_iff.mp h
    split at h
    case h_1 hphase => exact .inr ⟨rfl, k, slot, _, _, hslot, .release hphase, (Option.some.inj h).symm⟩
    case h_2 => cases h

/-- A slot that has its turn has not been released. -/
theorem Turn.notReleased (h : Turn body queue slot shared phase) : slot.phase.isReleased = false := by
  cases h with
  | start hphase hopen => rw [hphase]; rfl
  | advance hphase | settle hphase heffect | finish hphase | release hphase => rw [hphase]; rfl

/-- A turn other than the first keeps what the call has begun with, and changes the
    shared state by settlements only. -/
theorem Turn.start_or_keeps (h : Turn body queue slot shared phase) (view : S → V) :
    (slot.phase = .waiting ∧ queue.isOpen slot.gate = true ∧ ∃ input,
      shared = (body.start queue.shared slot.call input).state ∧
      phase.begun = some (input, (body.start queue.shared slot.call input).outcome)) ∨
    phase.begun = slot.phase.begun ∧ slot.phase.begun ≠ none ∧
      (body.Respects view → view shared = view queue.shared) := by
  cases h with
  | start hphase hopen => exact .inl ⟨hphase, hopen, _, rfl, rfl⟩
  | settle hphase heffect =>
    rw [hphase]
    exact .inr ⟨rfl, Option.some_ne_none _, fun hrespects => hrespects.settle _ _ _ _ _⟩
  | advance hphase | finish hphase | release hphase =>
    rw [hphase]
    exact .inr ⟨rfl, Option.some_ne_none _, fun _ => rfl⟩

/-- The slot before the one of this number. -/
def previous : Nat → Option Nat
  | 0 => none
  | k + 1 => some k

/-- Every call waits for the one before it, and only what has been released is
    followed by a call that has begun. -/
structure Serial (queue : Queue S Call Input Effect Outcome) : Prop where
  gates : ∀ k slot, queue.slots[k]? = some slot → slot.gate = previous k
  tail : queue.tail = previous queue.slots.length
  order : queue.slots.Pairwise fun slot later => later.phase.begun ≠ none → slot.phase.isReleased = true

theorem serial_start (shared : S) : Serial ({ shared } : Queue S Call Input Effect Outcome) :=
  ⟨fun _ _ hslot => by simp at hslot, rfl, .nil⟩

theorem begun_of_isReleased (h : phase.isReleased = true) : phase.begun ≠ none := by
  cases phase with
  | released input outcome => exact Option.some_ne_none _
  | waiting | running input outcome inFlight stages | settled input outcome => cases h

/-- Where the promise of a slot is resolved, all slots before it have been released. -/
theorem Serial.released_of_isOpen {front back : List (Slot S Call Input Effect Outcome)} (h : Serial queue)
    (hslots : queue.slots = front ++ slot :: back) (hopen : queue.isOpen slot.gate = true) :
    ∀ earlier ∈ front, earlier.phase.isReleased = true := by
  have hgate : slot.gate = previous front.length := h.gates _ _ (by rw [hslots]; simp)
  rw [hgate] at hopen
  rcases List.eq_nil_or_concat front with rfl | ⟨before, last, rfl⟩
  · simp
  · have hlast : last.phase.isReleased = true := by
      simpa [previous, Queue.isOpen, hslots] using hopen
    have horder := h.order
    rw [hslots, List.concat_eq_append, List.append_assoc, List.singleton_append, List.pairwise_append] at horder
    intro earlier hmem
    rcases List.mem_append.mp (List.concat_eq_append ▸ hmem) with hmem | hmem
    · exact horder.2.2 earlier hmem last List.mem_cons_self (begun_of_isReleased hlast)
    · exact List.mem_singleton.mp hmem ▸ hlast

/-- After a slot that has not been released nothing has begun. -/
theorem Serial.waiting_after {front back : List (Slot S Call Input Effect Outcome)} (h : Serial queue)
    (hslots : queue.slots = front ++ slot :: back) (hnot : slot.phase.isReleased = false) :
    ∀ later ∈ back, later.phase.begun = none := by
  have horder := h.order
  rw [hslots, List.pairwise_append, List.pairwise_cons] at horder
  intro later hmem
  refine by_contra fun hbegun => ?_
  rw [horder.2.1.1 later hmem hbegun] at hnot
  cases hnot

/-- No step lets two slots overlap. -/
theorem Serial.step (h : Serial queue) (hstep : queue.step body move = some next) : Serial next := by
  rcases step_cases hstep with ⟨call, -, rfl⟩ | ⟨-, k, slot, shared, phase, hslot, hturn, rfl⟩
  · refine ⟨fun k slot hslot => ?_, by simp [previous], ?_⟩
    · rcases Nat.lt_or_ge k queue.slots.length with hk | hk
      · rw [List.getElem?_append_left hk] at hslot
        exact h.gates k slot hslot
      · rw [List.getElem?_append_right hk] at hslot
        obtain ⟨hzero, rfl⟩ := List.getElem?_eq_some_iff.mp hslot
        have heq : k = queue.slots.length := by simp at hzero; omega
        simpa [heq] using h.tail
    · rw [List.pairwise_append]
      refine ⟨h.order, List.pairwise_singleton _ _, fun slot _ later hlater hbegun => ?_⟩
      obtain rfl := List.mem_singleton.mp hlater
      exact absurd rfl hbegun
  · obtain ⟨front, back, hslots, -, hset⟩ := Lists.split_at hslot
    have horder := h.order
    rw [hslots, List.pairwise_append, List.pairwise_cons] at horder
    obtain ⟨hfront, ⟨-, hback⟩, hbetween⟩ := horder
    refine ⟨fun j other hother => ?_, ?_, ?_⟩
    · rcases eq_or_ne k j with rfl | hj
      · rw [Queue.put, List.getElem?_set_self (List.getElem?_eq_some_iff.mp hslot).1] at hother
        exact Option.some.inj hother ▸ h.gates k slot hslot
      · rw [Queue.put, List.getElem?_set_ne hj] at hother
        exact h.gates j other hother
    · rw [Queue.put, List.length_set]
      exact h.tail
    · rw [Queue.put, hset, List.pairwise_append, List.pairwise_cons]
      refine ⟨hfront, ⟨fun later hlater hbegun => ?_, hback⟩, fun earlier hearlier later hlater hbegun => ?_⟩
      · exact absurd (h.waiting_after hslots hturn.notReleased later hlater) hbegun
      · rcases List.mem_cons.mp hlater with rfl | hlater
        · rcases hturn.start_or_keeps id with ⟨-, hopen, -⟩ | ⟨-, hold, -⟩
          · exact h.released_of_isOpen hslots hopen earlier hearlier
          · exact hbetween earlier hearlier slot List.mem_cons_self hold
        · exact hbetween earlier hearlier later (List.mem_cons_of_mem _ hlater) hbegun

/-- What a call does to the state where it is the only one. -/
def Slot.apply (body : Body S Call Input Effect Outcome) (state : S) (slot : Slot S Call Input Effect Outcome) : S :=
  match slot.phase.begun with
  | some (input, _) => (body.start state slot.call input).state
  | none => state

theorem run_apply (body : Body S Call Input Effect Outcome) (slots : List (Slot S Call Input Effect Outcome))
    (state : S) :
    Runs.run (Slot.apply body) state slots = sequential body state (slots.filterMap (·.begun)) := by
  induction slots generalizing state with
  | nil => rfl
  | cons slot rest ih =>
    rw [Runs.run_cons, ih]
    cases hbegun : slot.phase.begun with
    | none => simp [Slot.apply, Slot.begun, hbegun]
    | some begun => simp [Slot.apply, Slot.begun, hbegun, sequential]

/-- The outcome of a call is that of its own body in this state. -/
def Slot.Correct (body : Body S Call Input Effect Outcome) (state : S) (slot : Slot S Call Input Effect Outcome) : Prop :=
  ∀ input outcome, slot.phase.begun = some (input, outcome) → outcome = (body.start state slot.call input).outcome

theorem apply_put (hbegun : phase.begun = slot.phase.begun) (state : S) :
    Slot.apply body state { slot with phase } = Slot.apply body state slot := by
  rw [Slot.apply, Slot.apply, hbegun]

theorem run_waiting (body : Body S Call Input Effect Outcome) {slots : List (Slot S Call Input Effect Outcome)}
    (h : ∀ slot ∈ slots, slot.phase.begun = none) (state : S) :
    Runs.run (Slot.apply body) state slots = state ∧
      Runs.EachStep (Slot.apply body) (Slot.Correct body) state slots := by
  induction slots with
  | nil => exact ⟨rfl, trivial⟩
  | cons slot rest ih =>
    obtain ⟨hslot, hrest⟩ := List.forall_mem_cons.mp h
    have happly : slot.apply body state = state := by rw [Slot.apply, hslot]
    rw [Runs.run_cons, Runs.eachStep_cons, happly]
    refine ⟨(ih hrest).1, fun input outcome hbegun => ?_, (ih hrest).2⟩
    rw [hslot] at hbegun
    cases hbegun

/-- The shared state is that of the calls one after another, and every outcome is
    the one that a call has there. -/
structure Linear (body : Body S Call Input Effect Outcome) (view : S → V) (init : S)
    (queue : Queue S Call Input Effect Outcome) : Prop where
  shared : view queue.shared = view (Runs.run (Slot.apply body) init queue.slots)
  outcomes : Runs.EachStep (Slot.apply body) (Slot.Correct body) init queue.slots

/-- A call that begins does so in the state that the calls before it have left. -/
theorem Linear.step (hrespects : body.Respects view) (hserial : Serial queue) (h : Linear body view init queue)
    (hstep : queue.step body move = some next) : Linear body view init next := by
  rcases step_cases hstep with ⟨call, -, rfl⟩ | ⟨-, k, slot, shared, phase, hslot, hturn, rfl⟩
  · have hwaiting : ∀ slot ∈ [({ call, gate := queue.tail } : Slot S Call Input Effect Outcome)],
        slot.phase.begun = none := by simp [Phase.begun]
    have hnew := run_waiting body hwaiting (Runs.run (Slot.apply body) init queue.slots)
    exact ⟨by rw [Runs.run_append, hnew.1, h.shared], (Runs.eachStep_append _).mpr ⟨h.outcomes, hnew.2⟩⟩
  · obtain ⟨front, back, hslots, -, hset⟩ := Lists.split_at hslot
    have hshared := h.shared
    have houtcomes := h.outcomes
    rw [hslots] at hshared houtcomes
    rw [Runs.eachStep_append, Runs.eachStep_cons] at houtcomes
    rcases hturn.start_or_keeps view with ⟨hphase, hopen, input, rfl, hbegun⟩ | ⟨hbegun, hold, hview⟩
    · -- nothing has begun from the slot on
      have hwaiting : ∀ later ∈ slot :: back, later.phase.begun = none := by
        refine List.forall_mem_cons.mpr ⟨by rw [hphase]; rfl, ?_⟩
        exact hserial.waiting_after hslots hturn.notReleased
      have hstate : view queue.shared = view (Runs.run (Slot.apply body) init front) := by
        rw [hshared, Runs.run_append, (run_waiting body hwaiting _).1]
      have hlawful := hrespects.start _ _ slot.call input hstate
      have hback := run_waiting body (List.forall_mem_cons.mp hwaiting).2
      have happly (state : S) : Slot.apply body state { slot with phase } = (body.start state slot.call input).state := by
        rw [Slot.apply, hbegun]
      constructor
      · rw [Queue.put, hset, Runs.run_append, Runs.run_cons, (hback _).1, happly]
        exact hlawful.1
      · rw [Queue.put, hset, Runs.eachStep_append, Runs.eachStep_cons]
        refine ⟨houtcomes.1, fun read outcome hread => ?_, (hback _).2⟩
        obtain ⟨rfl, rfl⟩ := Prod.mk.inj (Option.some.inj (hbegun.symm.trans hread))
        exact hlawful.2
    · constructor
      · rw [Queue.put, hset, Runs.run_append, Runs.run_cons, apply_put hbegun]
        exact (hview hrespects).trans (by rw [hshared, Runs.run_append, Runs.run_cons])
      · rw [Queue.put, hset, Runs.eachStep_append, Runs.eachStep_cons, apply_put hbegun]
        exact ⟨houtcomes.1, fun read outcome hread => houtcomes.2.1 read outcome (hbegun ▸ hread), houtcomes.2.2⟩

theorem step_calls (hstep : queue.step body move = some next) :
    next.slots.map (·.call) = queue.slots.map (·.call) ++ move.call.toList := by
  rcases step_cases hstep with ⟨call, rfl, rfl⟩ | ⟨hnone, k, slot, shared, phase, hslot, -, rfl⟩
  · simp [Move.call]
  · obtain ⟨front, back, hslots, -, hset⟩ := Lists.split_at hslot
    rw [hnone, Queue.put, hset, hslots]
    simp

end Step

section Run

variable {body : Body S Call Input Effect Outcome} {queue last : Queue S Call Input Effect Outcome}
  {moves : List (Move Call Input)} {view : S → V} {init : S}

theorem run_cons_eq_some {move : Move Call Input} (h : queue.run body (move :: moves) = some last) :
    ∃ next, queue.step body move = some next ∧ next.run body moves = some last :=
  Option.bind_eq_some_iff.mp h

/-- In every run of a queue no two slots overlap, and the calls take effect one
    after another. -/
theorem run_serial (hrespects : body.Respects view) (hserial : Serial queue) (hlinear : Linear body view init queue)
    (h : queue.run body moves = some last) : Serial last ∧ Linear body view init last ∧
      last.slots.map (·.call) = queue.slots.map (·.call) ++ moves.filterMap (·.call) := by
  induction moves generalizing queue with
  | nil =>
    obtain rfl := Option.some.inj h
    exact ⟨hserial, hlinear, by simp⟩
  | cons move rest ih =>
    obtain ⟨next, hstep, hrest⟩ := run_cons_eq_some h
    obtain ⟨hs, hl, hcalls⟩ := ih (hserial.step hstep) (hlinear.step hrespects hserial hstep) hrest
    refine ⟨hs, hl, ?_⟩
    rw [hcalls, step_calls hstep, List.append_assoc]
    cases hcall : move.call <;> simp [hcall]

end Run

section Progress

variable {body : Body S Call Input Effect Outcome} {queue : Queue S Call Input Effect Outcome}
  {slot : Slot S Call Input Effect Outcome} {shared : S} {phase : Phase S Input Effect Outcome}

/-- The first slot that has not been released. -/
theorem exists_first (hsome : ∃ slot ∈ queue.slots, slot.phase.isReleased = false) :
    ∃ front slot back, queue.slots = front ++ slot :: back ∧ slot.phase.isReleased = false ∧
      ∀ earlier ∈ front, earlier.phase.isReleased = true := by
  have hfind : (queue.slots.find? fun slot => !slot.phase.isReleased).isSome = true := by simpa using hsome
  obtain ⟨slot, hslot⟩ := Option.isSome_iff_exists.mp hfind
  obtain ⟨hnot, front, back, hslots, hfront⟩ := List.find?_eq_some_iff_append.mp hslot
  exact ⟨front, slot, back, hslots, by simpa using hnot, by simpa using hfront⟩

/-- While a call has not settled, the runtime can make a step for the first such
    call, whatever the calls before it have come to. -/
theorem progress (hserial : Serial queue) (hsome : ∃ slot ∈ queue.slots, slot.phase.isReleased = false)
    (body : Body S Call Input Effect Outcome) (input : Input) (fulfilled : Bool) :
    ∃ move : Move Call Input, move.Resolves input fulfilled ∧ (queue.step body move).isSome = true := by
  obtain ⟨front, slot, back, hslots, hnot, hfront⟩ := exists_first hsome
  have hslot : queue.slots[front.length]? = some slot := by rw [hslots]; simp
  cases hphase : slot.phase with
  | waiting =>
    refine ⟨.start front.length input, rfl, ?_⟩
    have hopen : queue.isOpen slot.gate = true := by
      rw [hserial.gates _ _ hslot]
      rcases List.eq_nil_or_concat front with rfl | ⟨before, last, rfl⟩
      · rfl
      · simpa [previous, Queue.isOpen, hslots] using hfront last (by simp)
    simp [Queue.step, hslot, hphase, hopen]
  | running read outcome inFlight stages =>
    cases inFlight with
    | cons effect rest => exact ⟨.settle front.length 0 fulfilled, rfl, by simp [Queue.step, hslot, hphase]⟩
    | nil =>
      cases stages with
      | cons stage stages => exact ⟨.advance front.length, trivial, by simp [Queue.step, hslot, hphase]⟩
      | nil => exact ⟨.finish front.length, trivial, by simp [Queue.step, hslot, hphase]⟩
  | settled read outcome => exact ⟨.release front.length, trivial, by simp [Queue.step, hslot, hphase]⟩
  | released read outcome =>
    rw [hphase] at hnot
    cases hnot

/-- What is left of a call: its start, its stages with its settlement and release,
    and the effects in flight. -/
def Phase.rank : Phase S Input Effect Outcome → Nat × Nat × Nat
  | .waiting => (1, 0, 0)
  | .running _ _ inFlight stages => (0, stages.length + 2, inFlight.length)
  | .settled _ _ => (0, 1, 0)
  | .released _ _ => (0, 0, 0)

def Less : Nat × Nat × Nat → Nat × Nat × Nat → Prop := Prod.Lex (· < ·) (Prod.Lex (· < ·) (· < ·))

theorem less_wellFounded : WellFounded Less := (Prod.lex _ _).wf

theorem less_add {rank other : Nat × Nat × Nat} (h : Less rank other) (before after : Nat × Nat × Nat) :
    Less (before + (rank + after)) (before + (other + after)) := by
  simp only [Less, Prod.lex_def, Prod.fst_add, Prod.snd_add] at h ⊢
  omega

theorem Turn.rank_less (h : Turn body queue slot shared phase) : Less phase.rank slot.phase.rank := by
  cases h with
  | start hphase hopen => simp [hphase, Phase.rank, Less, Prod.lex_def]
  | advance hphase => simp [hphase, Phase.rank, Less, Prod.lex_def]
  | settle hphase heffect =>
    obtain ⟨hi, -⟩ := List.getElem?_eq_some_iff.mp heffect
    simp [hphase, Phase.rank, Less, Prod.lex_def, List.length_eraseIdx, hi]
    omega
  | finish hphase => simp [hphase, Phase.rank, Less, Prod.lex_def]
  | release hphase => simp [hphase, Phase.rank, Less, Prod.lex_def]

/-- Where the effects settle, all calls do: the runtime's steps come to an end. -/
theorem terminates (body : Body S Call Input Effect Outcome) :
    WellFounded fun next queue : Queue S Call Input Effect Outcome =>
      ∃ move, move.call = none ∧ queue.step body move = some next := by
  refine Subrelation.wf ?_
    (InvImage.wf (fun queue => (queue.slots.map (·.phase.rank)).sum) less_wellFounded)
  rintro next queue ⟨move, hnone, hstep⟩
  rcases step_cases hstep with ⟨call, rfl, -⟩ | ⟨-, k, slot, shared, phase, hslot, hturn, rfl⟩
  · cases hnone
  · obtain ⟨front, back, hslots, -, hset⟩ := Lists.split_at hslot
    have hless := less_add hturn.rank_less (front.map (·.phase.rank)).sum (back.map (·.phase.rank)).sum
    simp only [InvImage, Queue.put, hset]
    simpa [hslots] using hless

end Progress

end PromiseQueue
