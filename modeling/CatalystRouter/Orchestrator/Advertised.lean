import CatalystRouter.Library.KeyedLog
import CatalystRouter.Orchestrator.KeyEffect
import CatalystRouter.Orchestrator.Stamping

namespace CatalystRouter

open KeyedLog

/-- What a peer has been told, identity by identity. -/
abbrev Told := String × String → Option UpdateItem

/-- An entry of an update message as a log entry of the receiving peer. -/
def UpdateItem.logEntry (item : UpdateItem) : (String × String) × Option UpdateItem :=
  (item.key, match item.action with
    | .add => some item
    | .remove => none)

def Told.hear (told : Told) (items : List UpdateItem) : Told := replay told (items.map UpdateItem.logEntry)

/-- No internal route has the identity of a local one. -/
def RouteTable.Apart (node : String) (state : RouteTable) : Prop :=
  ∀ l ∈ state.localRoutes, ∀ r ∈ state.internalRoutes, r.key ≠ (l.name, node)

/-- The local route of an identity. -/
def RouteTable.localAt (node : String) (state : RouteTable) (k : String × String) : Option DataChannelDefinition :=
  state.localRoutes.find? fun l => (l.name, node) == k

namespace Bus

/-- The entry of an internal route in a full sync, if it has one. -/
def exported (config : BusConfig) (peer : PeerRecord) (r : InternalRoute) : Option UpdateItem :=
  if syncable config peer r then some (internalItem config .add r) else none

/-- What a full sync tells a peer about an identity. -/
def advertised (config : BusConfig) (peer : PeerRecord) (state : RouteTable) : Told := fun k =>
  match state.localAt config.node.name k with
  | some l => some (localItem config .add l)
  | none => (state.view k).bind (exported config peer)

@[simp] theorem localItem_key (config : BusConfig) (action : UpdateAction) (l : DataChannelDefinition) :
    (localItem config action l).key = (l.name, config.node.name) := rfl

@[simp] theorem internalItem_key (config : BusConfig) (action : UpdateAction) (r : InternalRoute) :
    (internalItem config action r).key = r.key := rfl

end Bus

open Bus

section Lookup

variable {node : String} {state : RouteTable} {k : String × String}

theorem RouteTable.localAt_eq_some_iff (hkeyed : Rib.RouteTable.WellKeyed state) {l : DataChannelDefinition} :
    state.localAt node k = some l ↔ l ∈ state.localRoutes ∧ (l.name, node) = k := by
  unfold RouteTable.localAt
  constructor
  · intro h
    exact ⟨List.mem_of_find?_eq_some h, by simpa using List.find?_some h⟩
  · rintro ⟨hmem, rfl⟩
    cases hfound : state.localRoutes.find? fun l' => (l'.name, node) == (l.name, node) with
    | none => exact absurd (List.find?_eq_none.mp hfound l hmem) (by simp)
    | some other =>
      have hname : other.name = l.name := by simpa using List.find?_some hfound
      rw [List.inj_on_of_nodup_map hkeyed.localNames (List.mem_of_find?_eq_some hfound) hmem hname]

theorem RouteTable.localAt_eq_none_iff :
    state.localAt node k = none ↔ ∀ l ∈ state.localRoutes, (l.name, node) ≠ k := by
  simp [RouteTable.localAt]

end Lookup

section Sync

variable {config : BusConfig} {peer : PeerRecord} {state : RouteTable}

/-- With identities apart, a full sync says one thing about each. -/
theorem advertised_eq_some_iff (hkeyed : Rib.RouteTable.WellKeyed state) (hapart : state.Apart config.node.name)
    {k : String × String} {item : UpdateItem} :
    advertised config peer state k = some item ↔ item ∈ syncUpdates config peer state ∧ item.key = k := by
  unfold advertised syncUpdates
  rw [List.mem_append, List.mem_map, List.mem_map]
  cases hlocal : state.localAt config.node.name k with
  | some l =>
    obtain ⟨hl, hk⟩ := (RouteTable.localAt_eq_some_iff hkeyed).mp hlocal
    dsimp only
    constructor
    · intro hitem
      obtain rfl := Option.some.inj hitem
      exact ⟨.inl ⟨l, hl, rfl⟩, hk⟩
    · rintro ⟨⟨other, hother, rfl⟩ | ⟨r, hr, rfl⟩, hkey⟩
      · have hname : other.name = l.name := congrArg Prod.fst (hkey.trans hk.symm)
        rw [List.inj_on_of_nodup_map hkeyed.localNames hother hl hname]
      · exact absurd (hkey.trans hk.symm) (hapart l hl r (List.mem_filter.mp hr).1)
  | none =>
    dsimp only
    rw [Option.bind_eq_some_iff]
    constructor
    · rintro ⟨r, hview, hexported⟩
      unfold exported at hexported
      split at hexported
      · rename_i hsync
        obtain rfl := Option.some.inj hexported
        exact ⟨.inr ⟨r, List.mem_filter.mpr ⟨mem_of_installedAt hview, hsync⟩, rfl⟩, installedAt_key hview⟩
      · cases hexported
    · rintro ⟨⟨l, hl, rfl⟩ | ⟨r, hr, rfl⟩, hkey⟩
      · exact absurd hkey (RouteTable.localAt_eq_none_iff.mp hlocal l hl)
      · obtain ⟨hr, hsync⟩ := List.mem_filter.mp hr
        exact ⟨r, (installedAt_eq_some_iff hkeyed.internalKeys).mpr ⟨hr, hkey⟩, by simp [exported, hsync]⟩

theorem syncUpdates_add {item : UpdateItem} (h : item ∈ syncUpdates config peer state) : item.action = .add := by
  obtain h | h := List.mem_append.mp h
  · obtain ⟨l, -, rfl⟩ := List.mem_map.mp h
    rfl
  · obtain ⟨r, -, rfl⟩ := List.mem_map.mp h
    rfl

/-- A full sync replaces what the peer was told, as far as it speaks of it. -/
theorem hear_sync (hkeyed : Rib.RouteTable.WellKeyed state) (hapart : state.Apart config.node.name) (told : Told)
    (k : String × String) :
    told.hear (syncUpdates config peer state) k =
      match advertised config peer state k with
      | some item => some item
      | none => told k := by
  have hkeys : ((syncUpdates config peer state).map UpdateItem.logEntry).map Prod.fst =
      (syncUpdates config peer state).map (·.key) := by
    rw [List.map_map]
    rfl
  cases hadvertised : advertised config peer state k with
  | some item =>
    obtain ⟨hmem, rfl⟩ := (advertised_eq_some_iff hkeyed hapart).mp hadvertised
    have hentry : (item.key, some item) ∈ (syncUpdates config peer state).map UpdateItem.logEntry :=
      List.mem_map.mpr ⟨item, hmem, by simp [UpdateItem.logEntry, syncUpdates_add hmem]⟩
    exact replay_of_mem (by rw [hkeys]; exact syncUpdates_keys_nodup peer hkeyed hapart) hentry told
  | none =>
    refine replay_of_forall_ne (fun entry hentry hkey => ?_) told
    obtain ⟨item, hmem, rfl⟩ := List.mem_map.mp hentry
    rw [(advertised_eq_some_iff hkeyed hapart).mpr ⟨hmem, hkey⟩] at hadvertised
    cases hadvertised

end Sync

end CatalystRouter
