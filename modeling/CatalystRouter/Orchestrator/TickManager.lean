import Mathlib.Data.List.MinMax
import Mathlib.Order.Basic

namespace CatalystRouter

/-- A `TickManager`; `timer` is the period of its running interval timer. -/
structure TickManager where
  intervalMs : Int := 30000
  timer : Option Int := none
  deriving DecidableEq, Repr

namespace TickManager

def start (self : TickManager) : TickManager :=
  match self.timer with
  | some _ => self
  | none => { self with timer := some self.intervalMs }

def stop (self : TickManager) : TickManager := { self with timer := none }

/-- A running timer is restarted when the interval changes. -/
def recalculate (self : TickManager) (holdTimes : List Int) : TickManager :=
  match (holdTimes.filter (0 < ·)).min? with
  | none => self
  | some minHold =>
    let newInterval := max 1000 (minHold / 3)
    if newInterval = self.intervalMs then self
    else
      let self := { self with intervalMs := newInterval }
      match self.timer with
      | some _ => self.stop.start
      | none => self

variable {self : TickManager} {holdTimes : List Int}

/-- The interval chosen from positive hold times is a third of the smallest, or the floor. -/
theorem recalculate_interval {minHold : Int} (hmin : (holdTimes.filter (0 < ·)).min? = some minHold) :
    (self.recalculate holdTimes).intervalMs = max 1000 (minHold / 3) := by
  unfold recalculate
  rw [hmin]
  dsimp only
  split
  · rename_i hsame
    exact hsame.symm
  · split <;> rfl

/-- Three intervals fit into each hold time, unless the interval is the floor. -/
theorem recalculate_fits {holdTime : Int} (hmem : holdTime ∈ holdTimes) (hpositive : 0 < holdTime) :
    (self.recalculate holdTimes).intervalMs = 1000 ∨
      1000 ≤ (self.recalculate holdTimes).intervalMs ∧ 3 * (self.recalculate holdTimes).intervalMs ≤ holdTime := by
  have hactive : holdTime ∈ holdTimes.filter (0 < ·) := List.mem_filter.mpr ⟨hmem, by simpa using hpositive⟩
  obtain ⟨minHold, hmin⟩ : ∃ minHold, (holdTimes.filter (0 < ·)).min? = some minHold :=
    Option.isSome_iff_exists.mp (List.isSome_min?_of_mem hactive)
  have hle : minHold ≤ holdTime := (List.min?_eq_some_iff.mp hmin).2 holdTime hactive
  rw [recalculate_interval hmin]
  omega

end TickManager

end CatalystRouter
