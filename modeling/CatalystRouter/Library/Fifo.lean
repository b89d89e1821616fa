import CatalystRouter.Library.Runs

/-! Queues that a system takes from at the front and puts to at the back. -/

namespace Fifo

variable {S E A : Type*}

/-- What a step may do to the queue. -/
inductive Turn : List A → List A → Prop
  | keeps (queue : List A) : Turn queue queue
  | takes (head : A) (rest : List A) : Turn (head :: rest) rest
  | puts (queue : List A) (last : A) : Turn queue (queue ++ [last])

variable (step : S → E → S) (queue : S → List A)

/-- One of the events takes `a` from the front of the queue. -/
def Taken (s : S) (events : List E) (a : A) : Prop :=
  ∃ early event late, events = early ++ event :: late ∧
    queue (Runs.run step s early) = a :: queue (step (Runs.run step s early) event)

/-- `a` still stands behind those of `front` that have not been taken. -/
def Waits (s : S) (events : List E) (front : List A) (a : A) : Prop :=
  ∃ left back, queue (Runs.run step s events) = left ++ a :: back ∧ ∀ b ∈ front, b ∈ left ∨ Taken step queue s events b

variable {step queue} {s : S} {event : E} {events : List E} {front back : List A} {a : A}

theorem taken_first (h : queue s = a :: queue (step s event)) (events : List E) :
    Taken step queue s (event :: events) a := ⟨[], event, events, rfl, h⟩

theorem Taken.later (h : Taken step queue (step s event) events a) : Taken step queue s (event :: events) a := by
  obtain ⟨early, next, late, rfl, htakes⟩ := h
  exact ⟨event :: early, next, late, rfl, htakes⟩

theorem Waits.later (h : Waits step queue (step s event) events front a) : Waits step queue s (event :: events) front a := by
  obtain ⟨left, back, hqueue, hfront⟩ := h
  exact ⟨left, back, hqueue, fun b hb => (hfront b hb).imp_right Taken.later⟩

/-- What stands before `a` is taken before `a` is. -/
theorem waits_or_taken (hstep : ∀ s event, Turn (queue s) (queue (step s event))) (h : queue s = front ++ a :: back)
    (events : List E) : Waits step queue s events front a ∨ ∀ b ∈ front, Taken step queue s events b := by
  induction events generalizing s front back with
  | nil => exact .inl ⟨front, back, h, fun b hb => .inl hb⟩
  | cons event rest ih =>
    have hturn := hstep s event
    generalize hbefore : queue s = before at hturn
    generalize hafter : queue (step s event) = after at hturn
    have hsplit := hbefore.symm.trans h
    cases hturn with
    | keeps =>
      have hnext := ih (hafter.trans hsplit)
      exact hnext.imp Waits.later fun hall b hb => (hall b hb).later
    | puts last =>
      have hnext := ih (hafter.trans (by rw [hsplit, List.append_assoc, List.cons_append]))
      exact hnext.imp Waits.later fun hall b hb => (hall b hb).later
    | takes head after =>
      cases front with
      | nil => exact .inr (by simp)
      | cons first front =>
        obtain ⟨rfl, hrest⟩ := List.cons.inj hsplit
        have htaken : Taken step queue s (event :: rest) head := taken_first (hbefore.trans (by rw [hafter])) rest
        obtain ⟨left, back', hqueue, hleft⟩ | hall := ih (hafter.trans hrest)
        · refine .inl ⟨left, back', hqueue, fun b hb => ?_⟩
          obtain rfl | hb := List.mem_cons.mp hb
          · exact .inr htaken
          · exact (hleft b hb).imp_right Taken.later
        · refine .inr fun b hb => ?_
          obtain rfl | hb := List.mem_cons.mp hb
          · exact htaken
          · exact (hall b hb).later

/-- Once nothing can stand before `a` any more, all that stood there has been taken. -/
theorem taken_before (hstep : ∀ s event, Turn (queue s) (queue (step s event))) (h : queue s = front ++ a :: back)
    (hfirst : ∀ left back, queue (Runs.run step s events) = left ++ a :: back → left = []) :
    ∀ b ∈ front, Taken step queue s events b := by
  obtain ⟨left, back, hqueue, hleft⟩ | hall := waits_or_taken hstep h events
  · intro b hb
    have hgone : b ∉ left := by simp [hfirst left back hqueue]
    exact (hleft b hb).resolve_left hgone
  · exact hall

end Fifo
