import Mathlib.Data.List.Basic
import Mathlib.Tactic.Tauto

/-! Runs of a deterministic system over a list of events. -/

namespace Runs

variable {S E : Type*} (step : S → E → S)

/-- The state after a list of events. -/
def run (s : S) (events : List E) : S := events.foldl step s

/-- `C` holds of every event of the run, in the state in which it comes. -/
def EachStep (C : S → E → Prop) : S → List E → Prop
  | _, [] => True
  | s, event :: rest => C s event ∧ EachStep C (step s event) rest

instance EachStep.decidable {C : S → E → Prop} [∀ s event, Decidable (C s event)] :
    ∀ s events, Decidable (EachStep step C s events)
  | _, [] => inferInstanceAs (Decidable True)
  | s, event :: rest =>
    have : Decidable (EachStep step C (step s event) rest) := EachStep.decidable (step s event) rest
    inferInstanceAs (Decidable (C s event ∧ EachStep step C (step s event) rest))

@[simp] theorem run_nil (s : S) : run step s [] = s := rfl

@[simp] theorem run_cons (s : S) (event : E) (rest : List E) :
    run step s (event :: rest) = run step (step s event) rest := rfl

theorem run_append (s : S) (first second : List E) :
    run step s (first ++ second) = run step (run step s first) second := List.foldl_append

theorem run_concat (s : S) (events : List E) (event : E) :
    run step s (events ++ [event]) = step (run step s events) event := run_append step s events [event]

@[simp] theorem eachStep_nil (C : S → E → Prop) (s : S) : EachStep step C s [] := trivial

@[simp] theorem eachStep_cons {C : S → E → Prop} {s : S} {event : E} {rest : List E} :
    EachStep step C s (event :: rest) ↔ C s event ∧ EachStep step C (step s event) rest := Iff.rfl

theorem eachStep_append {C : S → E → Prop} {s : S} {first second : List E} :
    EachStep step C s (first ++ second) ↔ EachStep step C s first ∧ EachStep step C (run step s first) second := by
  induction first generalizing s with
  | nil => simp
  | cons event rest ih => simp [ih, and_assoc]

/-- A condition on the events alone holds along every run of them. -/
theorem eachStep_of_forall {C : S → E → Prop} {events : List E} (h : ∀ event ∈ events, ∀ s, C s event) (s : S) :
    EachStep step C s events := by
  induction events generalizing s with
  | nil => trivial
  | cons event rest ih => exact ⟨h event (by simp) s, ih (fun later hlater => h later (by simp [hlater])) _⟩

theorem eachStep_mono {C D : S → E → Prop} (h : ∀ s event, C s event → D s event) {s : S} {events : List E}
    (hsteps : EachStep step C s events) : EachStep step D s events := by
  induction events generalizing s with
  | nil => trivial
  | cons event rest ih => exact ⟨h s event hsteps.1, ih hsteps.2⟩

theorem eachStep_and {C D : S → E → Prop} {s : S} {events : List E} :
    EachStep step (fun s event => C s event ∧ D s event) s events ↔ EachStep step C s events ∧ EachStep step D s events := by
  induction events generalizing s with
  | nil => simp
  | cons event rest ih => simp only [eachStep_cons, ih]; tauto

/-- A condition holds along a run iff it holds at every way of stopping the run
    before an event. -/
theorem eachStep_iff {C : S → E → Prop} {s : S} {events : List E} :
    EachStep step C s events ↔
      ∀ early event late, events = early ++ event :: late → C (run step s early) event := by
  constructor
  · rintro h early event late rfl
    exact ((eachStep_append step).mp h).2.1
  · intro h
    induction events generalizing s with
    | nil => trivial
    | cons event rest ih =>
      refine ⟨h [] event rest rfl, ih fun early next late hrest => ?_⟩
      exact h (event :: early) next late (by rw [hrest, List.cons_append])

/-- Two conditions that agree as long as an invariant holds, which steps that meet the
    second one keep. -/
theorem eachStep_congr {C D : S → E → Prop} {I : S → Prop} (hiff : ∀ s event, I s → (C s event ↔ D s event))
    (hstep : ∀ s event, I s → D s event → I (step s event)) {s : S} (h : I s) (events : List E) :
    EachStep step C s events ↔ EachStep step D s events := by
  induction events generalizing s with
  | nil => exact Iff.rfl
  | cons event rest ih =>
    simp only [eachStep_cons, hiff s event h]
    exact and_congr_right fun hevent => ih (hstep s event h hevent)

variable {step}

/-- What every allowed step preserves holds after an allowed run. -/
theorem run_induct {C : S → E → Prop} {I : S → Prop} (hstep : ∀ s event, C s event → I s → I (step s event))
    {s : S} {events : List E} (hsteps : EachStep step C s events) (h : I s) : I (run step s events) := by
  induction events generalizing s with
  | nil => exact h
  | cons event rest ih => exact ih hsteps.2 (hstep s event hsteps.1 h)

/-- What every step preserves holds after every run. -/
theorem run_invariant {I : S → Prop} (hstep : ∀ s event, I s → I (step s event)) {s : S} (h : I s)
    (events : List E) : I (run step s events) := by
  induction events generalizing s with
  | nil => exact h
  | cons event rest ih => exact ih (hstep s event h)

/-- Where one step keeps `P` exactly when it meets `C`, a run is in `P` throughout
    exactly when all its steps meet `C`. -/
theorem throughout_iff {C : S → E → Prop} {I P : S → Prop} (hinv : ∀ s event, I s → I (step s event))
    (hstep : ∀ s event, I s → P s → (P (step s event) ↔ C s event)) {s : S} {events : List E} (hs : I s) (h : P s) :
    (∀ early late, events = early ++ late → P (run step s early)) ↔ EachStep step C s events := by
  induction events generalizing s with
  | nil =>
    refine ⟨fun _ => trivial, fun _ early late hsplit => ?_⟩
    rw [(List.nil_eq_append_iff.mp hsplit).1]
    exact h
  | cons event rest ih =>
    constructor
    · intro hall
      have hnext : P (step s event) := hall [event] rest rfl
      refine ⟨(hstep s event hs h).mp hnext, (ih (hinv s event hs) hnext).mp fun early late hsplit => ?_⟩
      exact hall (event :: early) late (by rw [hsplit, List.cons_append])
    · rintro ⟨hevent, hrest⟩ early late hsplit
      cases early with
      | nil => exact h
      | cons first early =>
        obtain ⟨rfl, htail⟩ := List.cons.inj (show event :: rest = first :: (early ++ late) from hsplit)
        have hnext : P (step s event) := (hstep s event hs h).mpr hevent
        exact (ih (hinv s event hs) hnext).mpr hrest early late htail

/-- Where allowed steps lower a measure, an allowed run is no longer than the measure. -/
theorem length_le_measure {C : S → E → Prop} {I : S → Prop} {m : S → Nat}
    (hstep : ∀ s event, I s → C s event → I (step s event) ∧ m (step s event) < m s) {s : S} {events : List E}
    (h : I s) (hsteps : EachStep step C s events) : events.length ≤ m s := by
  induction events generalizing s with
  | nil => exact Nat.zero_le _
  | cons event rest ih =>
    obtain ⟨hnext, hless⟩ := hstep s event h hsteps.1
    have hrest := ih hnext hsteps.2
    rw [List.length_cons]
    omega

/-- Where moreover a run that is not done has an allowed step, it can be continued until
    it is done. -/
theorem exists_run_done {C : S → E → Prop} {I Done : S → Prop} {m : S → Nat}
    (hstep : ∀ s event, I s → C s event → I (step s event) ∧ m (step s event) < m s)
    (hnext : ∀ s, I s → Done s ∨ ∃ event, C s event) {s : S} (h : I s) :
    ∃ events, EachStep step C s events ∧ Done (run step s events) := by
  induction hm : m s using Nat.strongRecOn generalizing s with
  | ind n ih =>
    obtain hdone | ⟨event, hevent⟩ := hnext s h
    · exact ⟨[], trivial, hdone⟩
    · obtain ⟨hinv, hless⟩ := hstep s event h hevent
      obtain ⟨rest, hsteps, hdone⟩ := ih _ (hm ▸ hless) hinv rfl
      exact ⟨event :: rest, ⟨hevent, hsteps⟩, hdone⟩

end Runs
