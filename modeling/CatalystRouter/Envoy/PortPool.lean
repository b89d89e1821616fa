import Mathlib.Data.List.Perm.Basic
import Mathlib.Data.List.Nodup
import CatalystRouter.Envoy.PortAllocator

namespace CatalystRouter

/-! The names that hold a port, and the pool the ports come from. -/

namespace PortAllocator

def heldNames (self : PortAllocator) : List String := self.allocations.map Prod.fst

variable {self : PortAllocator} {pool : List Int} {key name : String} {port : Int}

theorem mem_of_getPort (h : self.getPort key = some port) : (key, port) ∈ self.allocations := by
  obtain ⟨before, after, hsplit, -⟩ := List.lookup_eq_some_iff.mp h
  simp [hsplit]

theorem getPort_eq_none_iff : self.getPort key = none ↔ key ∉ self.heldNames := by
  simp only [getPort, List.lookup_eq_none_iff, bne_iff_ne, heldNames, List.mem_map, not_exists, not_and]
  exact ⟨fun h entry hmem heq => h entry hmem heq.symm, fun h entry hmem heq => h entry hmem heq.symm⟩

theorem mem_heldNames_allocate (h : key ∈ (self.allocate name).2.heldNames) : key ∈ self.heldNames ∨ key = name := by
  unfold allocate at h
  split at h
  · exact .inl h
  · split at h
    · exact .inl h
    · simpa [heldNames] using h

theorem mem_heldNames_release (h : key ∈ (self.release name).heldNames) : key ∈ self.heldNames ∧ key ≠ name := by
  unfold release at h
  split at h
  · rename_i hnone
    exact ⟨h, fun heq => getPort_eq_none_iff.mp hnone (heq ▸ h)⟩
  · obtain ⟨entry, hentry, rfl⟩ := List.mem_map.mp h
    obtain ⟨hmem, hne⟩ := List.mem_filter.mp hentry
    exact ⟨List.mem_map_of_mem hmem, by simpa using hne⟩

/-- The allocated and the free ports make up the pool, and no name has two
    ports. -/
structure Conserves (pool : List Int) (alloc : PortAllocator) : Prop where
  names : alloc.heldNames.Nodup
  ports : (alloc.allocations.map Prod.snd ++ alloc.available).Perm pool

theorem allocate_conserves (h : Conserves pool self) (name : String) : Conserves pool (self.allocate name).2 := by
  unfold allocate
  split
  · exact h
  · rename_i hnone
    cases havailable : self.available with
    | nil => exact h
    | cons port rest =>
      constructor
      · have hnew := getPort_eq_none_iff.mp hnone
        rw [heldNames, List.map_append, List.nodup_append]
        exact ⟨h.names, by simp, by simpa using fun a b hmem heq => hnew (List.mem_map.mpr ⟨(a, b), hmem, heq⟩)⟩
      · have hports := h.ports
        rw [havailable] at hports
        simpa using hports

/-- A released port was one of the allocated ones, and only its name had it. -/
theorem release_conserves (h : Conserves pool self) (hpool : pool.Nodup) (name : String) :
    Conserves pool (self.release name) := by
  unfold release
  split
  · exact h
  · rename_i port hport
    obtain ⟨before, after, hsplit, hbefore⟩ := List.lookup_eq_some_iff.mp hport
    have hnames := h.names
    have hports := h.ports
    rw [heldNames, hsplit, List.map_append, List.map_cons] at hnames
    rw [hsplit, List.map_append, List.map_cons] at hports
    have hafter : ∀ entry ∈ after, entry.1 ≠ name := by
      intro entry hmem heq
      have hcons := (List.nodup_append.mp hnames).2.1
      exact (List.nodup_cons.mp hcons).1 (List.mem_map.mpr ⟨entry, hmem, heq⟩)
    have hfilter : (self.allocations.filter fun entry => entry.1 != name) = before ++ after := by
      rw [hsplit, List.filter_append, List.filter_cons_of_neg (by simp)]
      have hkept : (before.filter fun entry => entry.1 != name) = before :=
        List.filter_eq_self.mpr fun entry hmem => bne_iff_ne.mpr (bne_iff_ne.mp (hbefore entry hmem)).symm
      have hrest : (after.filter fun entry => entry.1 != name) = after :=
        List.filter_eq_self.mpr fun entry hmem => bne_iff_ne.mpr (hafter entry hmem)
      rw [hkept, hrest]
    have hfresh : port ∉ self.available := by
      have hdistinct := (List.nodup_append.mp (hports.nodup_iff.mpr hpool)).2.2
      exact fun hfree => hdistinct port (by simp) port hfree rfl
    rw [if_neg hfresh, hfilter]
    constructor
    · rw [heldNames, List.map_append]
      exact hnames.sublist (List.Sublist.append_left (List.sublist_cons_self _ _) _)
    · refine List.Perm.trans ?_ hports
      rw [List.map_append, List.append_assoc, List.append_assoc, List.cons_append, ← List.append_assoc (after.map _)]
      exact List.Perm.append_left _ (List.perm_append_singleton port _)

/-- No port is held for two names. -/
theorem Conserves.getPort_inj (h : Conserves pool self) (hpool : pool.Nodup) (hkey : self.getPort key = some port)
    (hname : self.getPort name = some port) : key = name := by
  have hdistinct := (List.nodup_append.mp (h.ports.nodup_iff.mpr hpool)).1
  have heq := List.inj_on_of_nodup_map hdistinct (mem_of_getPort hkey) (mem_of_getPort hname) rfl
  exact congrArg Prod.fst heq

theorem rehydrate_conserves (h : Conserves pool self) {entry : String × Int} (hnew : entry.1 ∉ self.heldNames) :
    Conserves pool (self.rehydrate entry) := by
  unfold rehydrate
  split
  · rename_i hfree
    constructor
    · rw [heldNames, List.map_append, List.nodup_append]
      exact ⟨h.names, by simp, by simpa using fun a b hmem heq => hnew (List.mem_map.mpr ⟨(a, b), hmem, heq⟩)⟩
    · refine List.Perm.trans ?_ h.ports
      rw [List.map_append, List.append_assoc]
      exact List.Perm.append_left _ (List.perm_cons_erase hfree).symm
  · exact h

end PortAllocator

theorem eraseDups_nodup (ports : List Int) : ports.eraseDups.Nodup := by
  induction hlength : ports.length using Nat.strongRecOn generalizing ports with
  | ind length ih =>
    cases ports with
    | nil => simp
    | cons port rest =>
      rw [List.eraseDups_cons, List.nodup_cons]
      refine ⟨by simp [List.mem_eraseDups], ih _ ?_ _ rfl⟩
      have hfewer := List.length_filter_le (fun other => !other == port) rest
      simp only [List.length_cons] at hlength
      omega

/-- The ports of the ranges, each once. -/
def portPool (portRange : List PortEntry) : List Int := (expandPortRange portRange).eraseDups

/-- The keys of a record are distinct; its ports need not be. -/
theorem createPortAllocator_conserves (portRange : List PortEntry) (existing : List (String × Int))
    (hnames : (existing.map Prod.fst).Nodup) :
    PortAllocator.Conserves (portPool portRange) (createPortAllocator portRange existing) := by
  suffices h : ∀ alloc : PortAllocator, PortAllocator.Conserves (portPool portRange) alloc →
      (∀ entry ∈ existing, entry.1 ∉ alloc.heldNames) →
      PortAllocator.Conserves (portPool portRange) (existing.foldl PortAllocator.rehydrate alloc) from
    h _ ⟨List.nodup_nil, by simp [portPool]⟩ (by simp [PortAllocator.heldNames])
  induction existing with
  | nil => exact fun alloc halloc _ => halloc
  | cons entry rest ih =>
    obtain ⟨hfirst, hrest⟩ := List.nodup_cons.mp hnames
    intro alloc halloc hnew
    refine ih hrest _ (PortAllocator.rehydrate_conserves halloc (hnew entry (by simp))) fun other hother hheld => ?_
    have hne : other.1 ≠ entry.1 := fun heq => hfirst (List.mem_map.mpr ⟨other, hother, heq⟩)
    have hheld : other.1 ∈ alloc.heldNames ∨ other.1 = entry.1 := by
      unfold PortAllocator.rehydrate at hheld
      split at hheld
      · simpa [PortAllocator.heldNames] using hheld
      · exact .inl hheld
    exact hnew other (by simp [hother]) (hheld.resolve_right hne)

end CatalystRouter
