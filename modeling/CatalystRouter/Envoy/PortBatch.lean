import CatalystRouter.Envoy.PortPool

namespace CatalystRouter

/-! Names that are released, and names that are allocated, one after the other. -/

namespace PortAllocator

def releaseAll (self : PortAllocator) (names : List String) : PortAllocator := names.foldl release self

/-- Ask for a port for each name. The second component lists what was given. -/
def allocateAll : PortAllocator → List String → PortAllocator × List (String × Int)
  | self, [] => (self, [])
  | self, name :: rest =>
    match self.allocate name with
    | (none, alloc) => alloc.allocateAll rest
    | (some port, alloc) => ((alloc.allocateAll rest).1, (name, port) :: (alloc.allocateAll rest).2)

/-- Nothing is free any more. -/
def Exhausted (self : PortAllocator) : Prop := self.available = []

variable {self : PortAllocator} {channelName key : String} {names : List String} {pool : List Int} {port : Int}

/-! ### Releases -/

/-- Names are released one after the other. -/
theorem releaseAll_append (self : PortAllocator) (first second : List String) :
    self.releaseAll (first ++ second) = (self.releaseAll first).releaseAll second := List.foldl_append

/-- Other names keep their ports. -/
theorem releaseAll_getPort (h : key ∉ names) (self : PortAllocator) :
    (self.releaseAll names).getPort key = self.getPort key := by
  induction names generalizing self with
  | nil => rfl
  | cons name rest ih =>
    have hrest := ih (List.not_mem_of_not_mem_cons h) (self.release name)
    exact hrest.trans (getPort_release_of_ne (List.ne_of_not_mem_cons h))

/-- Releasing names that hold no port changes nothing. -/
theorem releaseAll_of_unheld (h : ∀ name ∈ names, self.getPort name = none) : self.releaseAll names = self := by
  induction names with
  | nil => rfl
  | cons name rest ih =>
    have hsame : self.release name = self := by simp [release, h name (by simp)]
    have hrest := ih fun other hmem => h other (by simp [hmem])
    rw [releaseAll, List.foldl_cons, hsame]
    exact hrest

/-- After a release the names held are those before, without the released ones. -/
theorem mem_heldNames_releaseAll (h : key ∈ (self.releaseAll names).heldNames) : key ∈ self.heldNames ∧ key ∉ names := by
  induction names generalizing self with
  | nil => exact ⟨h, by simp⟩
  | cons name rest ih =>
    obtain ⟨hreleased, hrest⟩ := ih h
    obtain ⟨hheld, hne⟩ := mem_heldNames_release hreleased
    exact ⟨hheld, List.not_mem_cons_of_ne_of_not_mem hne hrest⟩

/-- A release conserves the pool. -/
theorem releaseAll_conserves (h : Conserves pool self) (hpool : pool.Nodup) (names : List String) :
    Conserves pool (self.releaseAll names) := by
  induction names generalizing self with
  | nil => exact h
  | cons name rest ih => exact ih (release_conserves h hpool name)

/-! ### Allocations -/

/-- An exhausted allocator stays as it is. -/
theorem allocate_of_exhausted (h : self.Exhausted) (channelName : String) :
    (self.allocate channelName).2 = self := by
  unfold allocate
  split
  · rfl
  · rw [show self.available = [] from h]

/-- Only an exhausted pool refuses a name. -/
theorem allocate_refused {alloc : PortAllocator} (h : self.allocate channelName = (none, alloc)) :
    alloc = self ∧ self.Exhausted ∧ self.getPort channelName = none := by
  unfold allocate at h
  split at h
  · cases h
  · rename_i hnone
    split at h
    · rename_i hempty
      exact ⟨(congrArg Prod.snd h).symm, hempty, hnone⟩
    · cases h

/-- A port that is granted is held. -/
theorem allocate_granted {alloc : PortAllocator} (h : self.allocate channelName = (some port, alloc)) :
    alloc.getPort channelName = some port := by
  have hself := getPort_allocate_self self channelName
  rwa [h] at hself

/-- Each name in turn is allocated, whether it is given a port or not. -/
theorem allocateAll_cons (self : PortAllocator) (name : String) (rest : List String) :
    (self.allocateAll (name :: rest)).1 = ((self.allocate name).2.allocateAll rest).1 := by
  rw [allocateAll]
  split <;> simp [*]

/-- Names are allocated one after the other. -/
theorem allocateAll_append (self : PortAllocator) (first second : List String) :
    (self.allocateAll (first ++ second)).1 = ((self.allocateAll first).1.allocateAll second).1 := by
  induction first generalizing self with
  | nil => rfl
  | cons name rest ih => rw [List.cons_append, allocateAll_cons, allocateAll_cons, ih]

/-- A port that is held stays so. -/
theorem allocateAll_getPort (names : List String) (h : self.getPort key = some port) :
    (self.allocateAll names).1.getPort key = some port := by
  induction names generalizing self with
  | nil => exact h
  | cons name rest ih =>
    rw [allocateAll_cons]
    exact ih (getPort_allocate h name)

/-- An exhausted allocator gives nothing to any name. -/
theorem allocateAll_of_exhausted (h : self.Exhausted) (names : List String) : (self.allocateAll names).1 = self := by
  induction names with
  | nil => rfl
  | cons name rest ih =>
    rw [allocateAll_cons, allocate_of_exhausted h]
    exact ih

/-- A refused name stays without a port, because the pool stays empty. -/
theorem allocateAll_refused {alloc : PortAllocator} (h : self.allocate key = (none, alloc)) (names : List String) :
    (alloc.allocateAll names).1.getPort key = none := by
  obtain ⟨rfl, hexhausted, hnone⟩ := allocate_refused h
  rw [allocateAll_of_exhausted hexhausted]
  exact hnone

/-- Nothing is listed but allocations. -/
theorem allocateAll_lookup (names : List String) (h : (self.allocateAll names).2.lookup key = some port) :
    (self.allocateAll names).1.getPort key = some port := by
  induction names generalizing self with
  | nil => cases h
  | cons name rest ih =>
    rw [allocateAll] at h ⊢
    split at h
    · exact ih h
    · rename_i port' alloc heq
      by_cases hkey : key = name
      · subst hkey
        have hport : port' = port := by simpa using h
        subst hport
        exact allocateAll_getPort rest (allocate_granted heq)
      · have hother : (key == name) = false := beq_eq_false_iff_ne.mpr hkey
        apply ih
        simpa [List.lookup_cons, hother] using h

/-- Of the names that were asked for, every allocation is listed. -/
theorem allocateAll_lookup_of_mem (hmem : key ∈ names) (self : PortAllocator) :
    (self.allocateAll names).2.lookup key = (self.allocateAll names).1.getPort key := by
  induction names generalizing self with
  | nil => cases hmem
  | cons name rest ih =>
    rw [allocateAll]
    split
    · rename_i alloc heq
      obtain rfl | hmem := List.mem_cons.mp hmem
      · have hnone := allocateAll_refused heq rest
        cases hlookup : (alloc.allocateAll rest).2.lookup key with
        | none => exact hnone.symm
        | some port => simp [allocateAll_lookup rest hlookup] at hnone
      · exact ih hmem alloc
    · rename_i port alloc heq
      by_cases hkey : key = name
      · subst hkey
        have hport := allocateAll_getPort rest (allocate_granted heq)
        simp [hport]
      · have hother : (key == name) = false := beq_eq_false_iff_ne.mpr hkey
        have hmem := (List.mem_cons.mp hmem).resolve_left hkey
        simpa [List.lookup_cons, hother] using ih hmem alloc

/-- A name that has no port in the end was refused one. -/
theorem allocateAll_complete (hmem : key ∈ names) (hnone : (self.allocateAll names).1.getPort key = none) :
    (self.allocateAll names).1.Exhausted := by
  induction names generalizing self with
  | nil => cases hmem
  | cons name rest ih =>
    rw [allocateAll] at hnone ⊢
    split at hnone
    · rename_i alloc heq
      obtain ⟨rfl, hexhausted, -⟩ := allocate_refused heq
      rw [allocateAll_of_exhausted hexhausted]
      exact hexhausted
    · rename_i port alloc heq
      obtain rfl | hmem := List.mem_cons.mp hmem
      · have hport := allocateAll_getPort rest (allocate_granted heq)
        simp [hport] at hnone
      · exact ih hmem hnone

/-- An allocation changes nothing, or there is one more. -/
theorem allocate_grows (self : PortAllocator) (channelName : String) :
    (self.allocate channelName).2 = self ∨
      self.allocations.length < (self.allocate channelName).2.allocations.length := by
  unfold allocate
  split
  · exact .inl rfl
  · split
    · exact .inl rfl
    · right
      simp

/-- Allocations only grow. -/
theorem allocateAll_length_le (self : PortAllocator) (names : List String) :
    self.allocations.length ≤ (self.allocateAll names).1.allocations.length := by
  induction names generalizing self with
  | nil => exact Nat.le_refl _
  | cons name rest ih =>
    rw [allocateAll_cons]
    obtain hsame | hgrows := allocate_grows self name
    · rw [hsame]
      exact ih self
    · exact Nat.le_trans (Nat.le_of_lt hgrows) (ih _)

/-- If nothing has changed in the end, the first allocation has changed nothing. -/
theorem allocate_eq_self {given : Option Int} {alloc : PortAllocator}
    (hgiven : self.allocate channelName = (given, alloc)) (h : (alloc.allocateAll names).1 = self) : alloc = self := by
  have hgrows := allocate_grows self channelName
  have hle := allocateAll_length_le alloc names
  rw [h] at hle
  rw [hgiven] at hgrows
  exact hgrows.resolve_right (Nat.not_lt.mpr hle)

/-- If nothing was allocated at the end, nothing was on the way. -/
theorem allocateAll_eq_self {first second : List String} (h : (self.allocateAll (first ++ second)).1 = self) :
    (self.allocateAll first).1 = self := by
  induction first with
  | nil => rfl
  | cons name rest ih =>
    rw [List.cons_append, allocateAll_cons] at h
    have hsame : (self.allocate name).2 = self := allocate_eq_self (Prod.eta (self.allocate name)).symm h
    rw [hsame] at h
    rw [allocateAll_cons, hsame]
    exact ih h

/-- A name holds a port that it held before, or is one of those asked for. -/
theorem mem_heldNames_allocateAll (h : key ∈ (self.allocateAll names).1.heldNames) : key ∈ self.heldNames ∨ key ∈ names := by
  induction names generalizing self with
  | nil => exact .inl h
  | cons name rest ih =>
    rw [allocateAll_cons] at h
    obtain hgiven | hrest := ih h
    · obtain hheld | rfl := mem_heldNames_allocate hgiven
      · exact .inl hheld
      · exact .inr List.mem_cons_self
    · exact .inr (List.mem_cons_of_mem name hrest)

/-- An allocation conserves the pool. -/
theorem allocateAll_conserves (h : Conserves pool self) (names : List String) :
    Conserves pool (self.allocateAll names).1 := by
  induction names generalizing self with
  | nil => exact h
  | cons name rest ih =>
    rw [allocateAll_cons]
    exact ih (allocate_conserves h name)

end PortAllocator

end CatalystRouter
