import CatalystRouter.Library.Fifo
import CatalystRouter.Envoy.PortPool

namespace CatalystRouter

/-! The allocator over any sequence of calls. -/

namespace PortAllocator

inductive Call where
  | allocate (channelName : String)
  | release (channelName : String)
  deriving DecidableEq, Repr

def step (self : PortAllocator) : Call → PortAllocator
  | .allocate channelName => (self.allocate channelName).2
  | .release channelName => self.release channelName

abbrev run (self : PortAllocator) (calls : List Call) : PortAllocator := Runs.run step self calls

def allocatedPorts (self : PortAllocator) : List Int := self.allocations.map Prod.snd

/-- The call gives a name that had no port the port, which leaves the pool. -/
def HandsOut (self : PortAllocator) : Call → Int → Prop
  | .allocate channelName, port => self.getPort channelName = none ∧ (self.allocate channelName).1 = some port
  | .release _, _ => False

variable {self : PortAllocator} {channelName : String} {port : Int} {pool : List Int}

theorem allocate_of_held (h : self.getPort channelName = some port) : self.allocate channelName = (some port, self) := by
  simp [allocate, h]

theorem allocate_eq_none_iff :
    (self.allocate channelName).1 = none ↔ self.available = [] ∧ self.getPort channelName = none := by
  cases hport : self.getPort channelName with
  | some port => simp [allocate, hport]
  | none => cases havailable : self.available <;> simp [allocate, hport, havailable]

/-- A fresh port is the first of the pool. -/
theorem available_of_fresh (hnone : self.getPort channelName = none) (hport : (self.allocate channelName).1 = some port) :
    self.available = port :: (self.allocate channelName).2.available := by
  cases havailable : self.available with
  | nil => simp [allocate, hnone, havailable] at hport
  | cons first rest =>
    obtain rfl : first = port := by simpa [allocate, hnone, havailable] using hport
    simp [allocate, hnone, havailable]

/-- The pool is a queue: ports are taken at its front and put back at its end. -/
theorem step_turn (self : PortAllocator) (call : Call) : Fifo.Turn self.available (self.step call).available := by
  cases call with
  | allocate channelName =>
    cases hport : self.getPort channelName with
    | some port =>
      rw [step, allocate_of_held hport]
      exact .keeps _
    | none =>
      cases hgiven : (self.allocate channelName).1 with
      | some port =>
        rw [available_of_fresh hport hgiven]
        exact .takes _ _
      | none =>
        have hempty := (allocate_eq_none_iff.mp hgiven).1
        simp only [step, allocate, hport, hempty]
        exact .keeps []
  | release channelName =>
    unfold step release
    dsimp only
    split
    · exact .keeps _
    · split
      · exact .keeps _
      · exact .puts _ _

theorem handsOut_of_taken {call : Call} (h : self.available = port :: (self.step call).available) :
    self.HandsOut call port := by
  cases call with
  | allocate channelName =>
    cases hheld : self.getPort channelName with
    | some held =>
      rw [step, allocate_of_held hheld] at h
      exact absurd h.symm (List.cons_ne_self _ _)
    | none => exact ⟨hheld, by simp [allocate, hheld, h]⟩
  | release channelName =>
    have hlength : (self.step (.release channelName)).available.length < self.available.length := by
      rw [h]
      simp
    have hturn : self.available.length ≤ (self.release channelName).available.length := by
      unfold release
      split
      · exact Nat.le_refl _
      · dsimp only
        split <;> simp
    exact absurd hlength (Nat.not_lt.mpr hturn)

theorem step_conserves (hpool : pool.Nodup) (self : PortAllocator) (call : Call) (h : Conserves pool self) :
    Conserves pool (self.step call) := by
  cases call with
  | allocate channelName => exact allocate_conserves h channelName
  | release channelName => exact release_conserves h hpool channelName

theorem run_conserves (hpool : pool.Nodup) (h : Conserves pool self) (calls : List Call) :
    Conserves pool (self.run calls) := Runs.run_invariant (step_conserves hpool) h calls

/-- A name keeps its port until it is released. -/
theorem run_getPort (calls : List Call) (h : self.getPort channelName = some port) (hkept : .release channelName ∉ calls) :
    (self.run calls).getPort channelName = some port := by
  induction calls generalizing self with
  | nil => exact h
  | cons call rest ih =>
    obtain ⟨hcall, hrest⟩ := not_or.mp (fun hmem => hkept (List.mem_cons.mpr hmem))
    refine ih ?_ hrest
    cases call with
    | allocate other => exact getPort_allocate h other
    | release other =>
      have hne : channelName ≠ other := fun heq => hcall (by rw [heq])
      exact (getPort_release_of_ne hne).trans h

theorem Conserves.nodup (h : Conserves pool self) (hpool : pool.Nodup) :
    self.allocatedPorts.Nodup ∧ self.available.Nodup ∧ ∀ port ∈ self.allocatedPorts, port ∉ self.available := by
  obtain ⟨hallocated, havailable, hdisjoint⟩ := List.nodup_append.mp (h.ports.nodup_iff.mpr hpool)
  exact ⟨hallocated, havailable, fun port hmem hfree => hdisjoint port hmem port hfree rfl⟩

/-- A released port waits behind those that are free already. -/
theorem release_available (h : Conserves pool self) (hpool : pool.Nodup) (hport : self.getPort channelName = some port) :
    (self.release channelName).available = self.available ++ [port] := by
  have hfresh : port ∉ self.available :=
    (h.nodup hpool).2.2 port (List.mem_map.mpr ⟨(channelName, port), mem_of_getPort hport, rfl⟩)
  simp [release, hport, hfresh]

/-- A port that a call returns does not stand behind another free one. -/
theorem first_of_allocate (h : Conserves pool self) (hpool : pool.Nodup) (hgiven : (self.allocate channelName).1 = some port)
    {left back : List Int} (hqueue : self.available = left ++ port :: back) : left = [] := by
  obtain ⟨-, hnodup, hdisjoint⟩ := h.nodup hpool
  cases hheld : self.getPort channelName with
  | some held =>
    rw [allocate_of_held hheld] at hgiven
    obtain rfl := Option.some.inj hgiven
    have hallocated : held ∈ self.allocatedPorts := List.mem_map.mpr ⟨(channelName, held), mem_of_getPort hheld, rfl⟩
    exact absurd (by simp [hqueue]) (hdisjoint held hallocated)
  | none =>
    have hfirst := available_of_fresh hheld hgiven
    cases left with
    | nil => rfl
    | cons first left =>
      obtain ⟨rfl, -⟩ := List.cons.inj (hfirst.symm.trans hqueue)
      rw [hqueue] at hnodup
      exact absurd (List.mem_append_right left List.mem_cons_self) (List.nodup_cons.mp hnodup).1

/-- Between a release and the call that returns the port again, every port that was free is
    handed out. -/
theorem released_last (h : Conserves pool self) (hpool : pool.Nodup) (hport : self.getPort channelName = some port)
    {between : List Call} {other : String}
    (hgiven : ((self.run (.release channelName :: between)).allocate other).1 = some port) :
    ∀ free ∈ self.available, ∃ early call late, between = early ++ call :: late ∧
      (self.run (.release channelName :: early)).HandsOut call free := by
  intro free hfree
  have hrun := run_conserves hpool h (.release channelName :: between)
  have htaken := Fifo.taken_before step_turn (release_available h hpool hport)
    (fun _ _ hqueue => first_of_allocate hrun hpool hgiven hqueue) free hfree
  obtain ⟨early, call, late, rfl, hcall⟩ := htaken
  exact ⟨early, call, late, rfl, handsOut_of_taken hcall⟩

/-- Over every sequence of calls the allocated and the free ports are those of the
    configured ranges, none twice; a name keeps its port until it is released, and is refused
    one only by an empty pool; a released port is the last of the free ones to be handed out. -/
theorem calls_conserve (portRange : List PortEntry) (existing : List (String × Int))
    (hnames : (existing.map Prod.fst).Nodup) (calls : List Call) :
    let alloc := (createPortAllocator portRange existing).run calls
    (alloc.allocatedPorts.Nodup ∧ (∀ port ∈ alloc.allocatedPorts, port ∉ alloc.available) ∧
        ∀ port, port ∈ alloc.allocatedPorts ∨ port ∈ alloc.available ↔ port ∈ expandPortRange portRange) ∧
      (∀ channelName port, (alloc.allocate channelName).1 = some port → ∀ later, .release channelName ∉ later →
        (alloc.run (.allocate channelName :: later)).allocate channelName =
          (some port, alloc.run (.allocate channelName :: later))) ∧
      (∀ channelName, (alloc.allocate channelName).1 = none ↔ alloc.available = [] ∧ alloc.getPort channelName = none) ∧
      ∀ channelName port, alloc.getPort channelName = some port → ∀ between other,
        ((alloc.run (.release channelName :: between)).allocate other).1 = some port →
          ∀ free ∈ alloc.available, ∃ early call late, between = early ++ call :: late ∧
            (alloc.run (.release channelName :: early)).HandsOut call free := by
  intro alloc
  have hpool : (portPool portRange).Nodup := eraseDups_nodup _
  have hconserves : Conserves (portPool portRange) alloc :=
    run_conserves hpool (createPortAllocator_conserves portRange existing hnames) calls
  obtain ⟨hallocated, -, hdisjoint⟩ := hconserves.nodup hpool
  refine ⟨⟨hallocated, hdisjoint, fun port => ?_⟩, ?_, fun _ => allocate_eq_none_iff, ?_⟩
  · have hports := hconserves.ports.mem_iff (a := port)
    rw [List.mem_append, portPool, List.mem_eraseDups] at hports
    exact hports
  · intro channelName port hgiven later hkept
    have hnow : (alloc.step (.allocate channelName)).getPort channelName = some port :=
      (getPort_allocate_self alloc channelName).trans hgiven
    exact allocate_of_held (run_getPort later hnow hkept)
  · intro channelName port hport between other hgiven
    exact released_last hconserves hpool hport hgiven

/-- Overlapping ranges, and a record with a port outside of them and one port twice. -/
def recoveredPorts : PortAllocator :=
  createPortAllocator [.range 8000 8002, .single 8001] [("books-api", 8001), ("rogue-api", 9999), ("copy-api", 8001)]

theorem calls_conserve_recovered :
    (recoveredPorts.run [.allocate "movies-api"]).allocations = [("books-api", 8001), ("movies-api", 8000)] ∧
      ∀ free ∈ (recoveredPorts.run [.allocate "movies-api"]).available, ∃ early call late,
        [.allocate "orders-api"] = early ++ call :: late ∧
          ((recoveredPorts.run [.allocate "movies-api"]).run (.release "books-api" :: early)).HandsOut call free :=
  ⟨by decide,
    (calls_conserve [.range 8000 8002, .single 8001]
      [("books-api", 8001), ("rogue-api", 9999), ("copy-api", 8001)] (by decide)
      [.allocate "movies-api"]).2.2.2 "books-api" 8001 (by decide) [.allocate "orders-api"] "reviews-api" (by decide)⟩

end PortAllocator

end CatalystRouter
