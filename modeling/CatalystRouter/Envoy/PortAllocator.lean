import Mathlib.Data.List.Basic

namespace CatalystRouter

/-- `PortEntry`: a single port or an inclusive range. -/
inductive PortEntry where
  | single (port : Int)
  | range (first last : Int)
  deriving DecidableEq, Repr

def PortEntry.expand : PortEntry → List Int
  | .single port => [port]
  | .range first last => (List.range (last + 1 - first).toNat).map fun i => first + (i : Int)

def expandPortRange (entries : List PortEntry) : List Int := entries.flatMap PortEntry.expand

/-- The allocator's two closures: the insertion-ordered set of free ports and
    the insertion-ordered map of allocations. -/
structure PortAllocator where
  available : List Int
  allocations : List (String × Int)
  deriving DecidableEq, Repr

namespace PortAllocator

def getPort (self : PortAllocator) (channelName : String) : Option Int :=
  self.allocations.lookup channelName

/-- Keep an existing allocation only when its port is still in the pool. -/
def rehydrate (self : PortAllocator) (entry : String × Int) : PortAllocator :=
  if entry.2 ∈ self.available then
    { available := self.available.erase entry.2, allocations := self.allocations ++ [entry] }
  else self

/-- Idempotent: an allocated name keeps its port; otherwise the first free
    port is taken, and `none` reports an empty pool. -/
def allocate (self : PortAllocator) (channelName : String) : Option Int × PortAllocator :=
  match self.getPort channelName with
  | some port => (some port, self)
  | none =>
    match self.available with
    | [] => (none, self)
    | port :: rest =>
      (some port, { available := rest, allocations := self.allocations ++ [(channelName, port)] })

/-- A released port goes to the back of the pool. -/
def release (self : PortAllocator) (channelName : String) : PortAllocator :=
  match self.getPort channelName with
  | none => self
  | some port =>
    { available := if port ∈ self.available then self.available else self.available ++ [port]
      allocations := self.allocations.filter fun entry => entry.1 != channelName }

def availableCount (self : PortAllocator) : Nat := self.available.length

variable {self : PortAllocator} {key : String} {port : Int}

/-- Allocating never moves a name that has its port. -/
theorem getPort_allocate (h : self.getPort key = some port) (channelName : String) :
    (self.allocate channelName).2.getPort key = some port := by
  unfold allocate
  split
  · exact h
  · split
    · exact h
    · unfold getPort at h ⊢
      rw [List.lookup_append, h]
      rfl

/-- The name that was asked for has the port that was given. -/
theorem getPort_allocate_self (self : PortAllocator) (channelName : String) :
    (self.allocate channelName).2.getPort channelName = (self.allocate channelName).1 := by
  unfold allocate
  split
  · assumption
  · rename_i hnone
    split
    · exact hnone
    · unfold getPort at hnone ⊢
      rw [List.lookup_append, hnone]
      simp

theorem lookup_filter_ne {allocations : List (String × Int)} {channelName : String} (h : key ≠ channelName) :
    (allocations.filter fun entry => entry.1 != channelName).lookup key = allocations.lookup key := by
  induction allocations with
  | nil => rfl
  | cons entry rest ih =>
    obtain ⟨name, port⟩ := entry
    by_cases hname : name = channelName
    · subst hname
      have hkey : (key == name) = false := beq_eq_false_iff_ne.mpr h
      simp [List.lookup_cons, ih, hkey]
    · simp [List.lookup_cons, hname, ih]

/-- Releasing a name leaves the other names their ports. -/
theorem getPort_release_of_ne {channelName : String} (h : key ≠ channelName) :
    (self.release channelName).getPort key = self.getPort key := by
  unfold release
  split
  · rfl
  · exact lookup_filter_ne h

end PortAllocator

def createPortAllocator (portRange : List PortEntry) (existing : List (String × Int) := []) :
    PortAllocator :=
  existing.foldl PortAllocator.rehydrate ⟨(expandPortRange portRange).eraseDups, []⟩

end CatalystRouter
