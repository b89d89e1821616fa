import Mathlib.Data.List.Nodup
import CatalystRouter.Envoy.RpcServer
import CatalystRouter.Library.Lists

namespace CatalystRouter

/-! Which names and addresses the resources of a snapshot share. -/

/-- The cluster that a listener forwards to. -/
def XdsFilter.cluster : XdsFilter → String
  | .httpConnectionManager _ _ _ _ route => route.cluster
  | .tcpProxy _ cluster => cluster

def XdsSnapshot.clusterNames (snapshot : XdsSnapshot) : List String := snapshot.clusters.map (·.name)

/-- What Envoy asks of an update: no name and no address is used twice, and every
    listener has the one cluster that it forwards to. -/
structure XdsSnapshot.WellFormed (snapshot : XdsSnapshot) : Prop where
  listenerNames : (snapshot.listeners.map (·.name)).Nodup
  clusterNames : snapshot.clusterNames.Nodup
  addresses : (snapshot.listeners.map fun listener => (listener.address, listener.portValue)).Nodup
  references : ∀ listener ∈ snapshot.listeners, snapshot.clusterNames.count listener.filter.cluster = 1

instance (snapshot : XdsSnapshot) : Decidable snapshot.WellFormed :=
  decidable_of_iff ((snapshot.listeners.map (·.name)).Nodup ∧ snapshot.clusterNames.Nodup ∧
      (snapshot.listeners.map fun listener => (listener.address, listener.portValue)).Nodup ∧
      ∀ listener ∈ snapshot.listeners, snapshot.clusterNames.count listener.filter.cluster = 1)
    ⟨fun h => ⟨h.1, h.2.1, h.2.2.1, h.2.2.2⟩,
      fun h => ⟨h.listenerNames, h.clusterNames, h.addresses, h.references⟩⟩

namespace Envoy

namespace BuildXdsSnapshotInput

variable (input : BuildXdsSnapshotInput)

/-- A local route that gets resources. -/
def servesLocal (route : DataChannelDefinition) : Bool :=
  (nonEmpty route.endpoint).isSome && (input.portOf route.name).isSome

/-- An internal route that gets resources. -/
def servesInternal (route : InternalRoute) : Bool :=
  (nonZero route.envoyPort).isSome && (nonEmpty route.peer.envoyAddress).isSome && (input.portOf route.egressKey).isSome

def servedLocals : List DataChannelDefinition := input.localRoutes.filter input.servesLocal

def servedInternals : List InternalRoute := input.internalRoutes.filter input.servesInternal

/-- The allocator names behind the listeners of a snapshot, in order. -/
def servedNames : List String := input.servedLocals.map (·.name) ++ input.servedInternals.map (·.egressKey)

/-- No two internal routes that get a listener share an egress name, and no local
    route that gets one is called like such an egress name. -/
structure Separated : Prop where
  egress : (input.servedInternals.map (·.egressKey)).Nodup
  apart : ∀ route ∈ input.servedLocals, ∀ internal ∈ input.servedInternals, route.name ≠ internal.egressKey

instance : Decidable input.Separated :=
  decidable_of_iff ((input.servedInternals.map (·.egressKey)).Nodup ∧
      ∀ route ∈ input.servedLocals, ∀ internal ∈ input.servedInternals, route.name ≠ internal.egressKey)
    ⟨fun h => ⟨h.1, h.2⟩, fun h => ⟨h.egress, h.apart⟩⟩

variable {input}

theorem servedNames_nodup_iff (hlocal : (input.localRoutes.map (·.name)).Nodup) :
    input.servedNames.Nodup ↔ input.Separated := by
  have hserved : (input.servedLocals.map (·.name)).Nodup := hlocal.sublist (List.filter_sublist.map _)
  rw [servedNames, List.nodup_append]
  constructor
  · rintro ⟨-, hegress, hapart⟩
    exact ⟨hegress, fun route hroute internal hinternal =>
      hapart _ (List.mem_map_of_mem hroute) _ (List.mem_map_of_mem hinternal)⟩
  · intro h
    refine ⟨hserved, h.egress, fun name hname key hkey => ?_⟩
    obtain ⟨route, hroute, rfl⟩ := List.mem_map.mp hname
    obtain ⟨internal, hinternal, rfl⟩ := List.mem_map.mp hkey
    exact h.apart route hroute internal hinternal

theorem portOf_of_mem_servedNames {name : String} (h : name ∈ input.servedNames) :
    ∃ port, input.portOf name = some port := by
  obtain h | h := List.mem_append.mp h
  · obtain ⟨route, hroute, rfl⟩ := List.mem_map.mp h
    have hserves := (List.mem_filter.mp hroute).2
    rw [servesLocal, Bool.and_eq_true] at hserves
    exact Option.isSome_iff_exists.mp hserves.2
  · obtain ⟨route, hroute, rfl⟩ := List.mem_map.mp h
    have hserves := (List.mem_filter.mp hroute).2
    rw [servesInternal, Bool.and_eq_true] at hserves
    exact Option.isSome_iff_exists.mp hserves.2

end BuildXdsSnapshotInput

variable {runtime : XdsRuntime} {input : BuildXdsSnapshotInput}

/-! ### The routes behind the resources -/

/-- The loop over the local routes serves, in order, those that it can. -/
theorem allLocalResources_forall₂ (routes : List DataChannelDefinition) :
    ∀ {resources}, allLocalResources runtime input routes = .ok resources →
      List.Forall₂ (fun route resource => localResources runtime input route = .ok (some resource))
        (routes.filter input.servesLocal) resources := by
  induction routes with
  | nil =>
    intro resources h
    cases h
    exact .nil
  | cons route rest ih =>
    intro resources h
    simp only [allLocalResources, bind_eq_ok_iff] at h
    obtain ⟨first, hfirst, others, hothers, hsum⟩ := h
    cases hsum
    cases first with
    | none =>
      have hnot : input.servesLocal route = false := by
        unfold localResources at hfirst
        split at hfirst
        · obtain ⟨address, -, hresource⟩ := bind_eq_ok_iff.mp hfirst
          cases hresource
        · rename_i hmissing
          cases hendpoint : nonEmpty route.endpoint with
          | none => simp [BuildXdsSnapshotInput.servesLocal, hendpoint]
          | some endpoint =>
            cases hport : input.portOf route.name with
            | none => simp [BuildXdsSnapshotInput.servesLocal, hport]
            | some port => exact absurd hport (hmissing endpoint port hendpoint)
      rw [List.filter_cons_of_neg (by simp [hnot])]
      exact ih hothers
    | some resource =>
      have hingress := localResources_ingress hfirst
      have hserves : input.servesLocal route = true := by
        simp [BuildXdsSnapshotInput.servesLocal, Option.isSome_iff_ne_none, hingress.endpoint, hingress.port]
      rw [List.filter_cons_of_pos hserves]
      exact .cons hfirst (ih hothers)

theorem remoteResources_isSome (runtime : XdsRuntime) (input : BuildXdsSnapshotInput) (route : InternalRoute) :
    (remoteResources runtime input route).isSome = input.servesInternal route := by
  unfold remoteResources BuildXdsSnapshotInput.servesInternal
  cases nonZero route.envoyPort <;> cases nonEmpty route.peer.envoyAddress <;> cases input.portOf route.egressKey <;> rfl

theorem remoteResources_forall₂ (runtime : XdsRuntime) (input : BuildXdsSnapshotInput) (routes : List InternalRoute) :
    List.Forall₂ (fun route resource => remoteResources runtime input route = some resource)
      (routes.filter input.servesInternal) (routes.filterMap (remoteResources runtime input)) := by
  induction routes with
  | nil => exact .nil
  | cons route rest ih =>
    have hserves := remoteResources_isSome runtime input route
    cases hresource : remoteResources runtime input route with
    | none =>
      rw [hresource] at hserves
      rwa [List.filter_cons_of_neg (by simp [← hserves]), List.filterMap_cons_none hresource]
    | some resource =>
      rw [hresource] at hserves
      rw [List.filter_cons_of_pos (by simp [← hserves]), List.filterMap_cons_some hresource]
      exact .cons hresource ih

/-- The two resources of a local route name each other, and the listener is on
    the bind address. -/
theorem localResources_forwards {route : DataChannelDefinition} {resource : XdsListener × XdsCluster}
    (h : localResources runtime input route = .ok (some resource)) :
    resource.1.filter.cluster = resource.2.name ∧ resource.1.address = input.bindAddress := by
  unfold localResources at h
  split at h
  · obtain ⟨address, -, hresource⟩ := bind_eq_ok_iff.mp h
    cases hresource
    refine ⟨?_, rfl⟩
    simp only [buildIngressListener, buildLocalCluster, buildListener, buildCluster]
    split <;> rfl
  · cases h

theorem remoteResources_forwards {route : InternalRoute} {resource : XdsListener × XdsCluster}
    (h : remoteResources runtime input route = some resource) :
    resource.1.filter.cluster = resource.2.name ∧ resource.1.address = input.bindAddress := by
  simp only [remoteResources, bind, Option.bind_eq_some_iff, pure, Option.some.injEq] at h
  obtain ⟨peerPort, -, peerAddress, -, egressPort, -, rfl⟩ := h
  refine ⟨?_, rfl⟩
  simp only [buildEgressListener, buildRemoteCluster, buildListener, buildCluster]
  split <;> rfl

/-- The columns of a snapshot, read off the routes that it serves. -/
structure Columns (input : BuildXdsSnapshotInput) (snapshot : XdsSnapshot) : Prop where
  listenerNames : snapshot.listeners.map (·.name) =
    input.servedLocals.map (fun route => ingressName route.name) ++ input.servedInternals.map (·.egressKey)
  clusterNames : snapshot.clusterNames = input.servedLocals.map (fun route => localName route.name) ++
    input.servedInternals.map fun route => remoteName route.name route.peer.name
  ports : snapshot.listeners.map (fun listener => some listener.portValue) = input.servedNames.map input.portOf
  addresses : ∀ listener ∈ snapshot.listeners, listener.address = input.bindAddress
  references : snapshot.listeners.map (fun listener => listener.filter.cluster) = snapshot.clusterNames

theorem buildXdsSnapshot_columns {snapshot : XdsSnapshot} (h : buildXdsSnapshot runtime input = .ok snapshot) :
    Columns input snapshot := by
  simp only [buildXdsSnapshot, bind_eq_ok_iff] at h
  obtain ⟨ingress, hingress, hsum⟩ := h
  cases hsum
  have hlocals := allLocalResources_forall₂ _ hingress
  have hremotes := remoteResources_forall₂ runtime input input.internalRoutes
  have hforwards : ∀ resource ∈ ingress ++ input.internalRoutes.filterMap (remoteResources runtime input),
      resource.1.filter.cluster = resource.2.name ∧ resource.1.address = input.bindAddress := by
    intro resource hmem
    obtain hmem | hmem := List.mem_append.mp hmem
    · obtain ⟨route, -, hroute⟩ := (mem_allLocalResources _ hingress).mp hmem
      exact localResources_forwards hroute
    · obtain ⟨route, -, hroute⟩ := List.mem_filterMap.mp hmem
      exact remoteResources_forwards hroute
  refine ⟨?_, ?_, ?_, ?_, ?_⟩
  · rw [List.map_map, List.map_append]
    exact (congrArg₂ _ (Lists.map_eq_of_forall₂ hlocals fun _ _ hroute => (localResources_ingress hroute).listenerName.symm)
      (Lists.map_eq_of_forall₂ hremotes fun _ _ hroute => (remoteResources_egress hroute).listenerName.symm)).symm
  · rw [XdsSnapshot.clusterNames, List.map_map, List.map_append]
    exact (congrArg₂ _ (Lists.map_eq_of_forall₂ hlocals fun _ _ hroute => (localResources_ingress hroute).clusterName.symm)
      (Lists.map_eq_of_forall₂ hremotes fun _ _ hroute => (remoteResources_egress hroute).clusterName.symm)).symm
  · rw [List.map_map, List.map_append, BuildXdsSnapshotInput.servedNames, List.map_append, List.map_map, List.map_map]
    exact (congrArg₂ _ (Lists.map_eq_of_forall₂ hlocals fun _ _ hroute => (localResources_ingress hroute).port)
      (Lists.map_eq_of_forall₂ hremotes fun _ _ hroute => (remoteResources_egress hroute).port)).symm
  · intro listener hmem
    obtain ⟨resource, hresource, rfl⟩ := List.mem_map.mp hmem
    exact (hforwards resource hresource).2
  · rw [XdsSnapshot.clusterNames, List.map_map, List.map_map]
    exact List.map_congr_left fun resource hresource => (hforwards resource hresource).1

section WellFormed

variable {snapshot : XdsSnapshot} (hcolumns : Columns input snapshot)

include hcolumns

/-- Where no port is held for two names, the listeners are on different addresses
    exactly when their allocator names differ. -/
theorem addresses_nodup_iff
    (hports : ∀ name name' port, input.portOf name = some port → input.portOf name' = some port → name = name') :
    (snapshot.listeners.map fun listener => (listener.address, listener.portValue)).Nodup ↔ input.servedNames.Nodup := by
  have haddresses : (snapshot.listeners.map fun listener => (listener.address, listener.portValue)) =
      (snapshot.listeners.map (·.portValue)).map fun port => (input.bindAddress, port) := by
    rw [List.map_map]
    exact List.map_congr_left fun listener hmem => congrArg (·, listener.portValue) (hcolumns.addresses listener hmem)
  have hvalues : (snapshot.listeners.map (·.portValue)).map some = input.servedNames.map input.portOf := by
    rw [List.map_map]
    exact hcolumns.ports
  have hpair : Function.Injective fun port : Int => (input.bindAddress, port) := fun _ _ h => (Prod.mk.inj h).2
  rw [haddresses, List.nodup_map_iff hpair, ← List.nodup_map_iff (f := some) fun _ _ => Option.some.inj, hvalues]
  refine ⟨fun h => h.of_map _, fun h => h.map_on fun name hname name' _ hsame => ?_⟩
  obtain ⟨port, hport⟩ := BuildXdsSnapshotInput.portOf_of_mem_servedNames hname
  exact hports name name' port hport (hsame ▸ hport)

theorem listenerNames_nodup (hnames : (input.servedLocals.map (·.name)).Nodup)
    (hegress : (input.servedInternals.map (·.egressKey)).Nodup) : (snapshot.listeners.map (·.name)).Nodup := by
  rw [hcolumns.listenerNames, List.nodup_append]
  refine ⟨?_, hegress, fun name hname key hkey => ?_⟩
  · rw [List.Nodup, List.pairwise_map] at hnames ⊢
    exact hnames.imp fun hne hsame => hne (ingressName_inj hsame)
  · obtain ⟨route, -, rfl⟩ := List.mem_map.mp hname
    obtain ⟨internal, -, rfl⟩ := List.mem_map.mp hkey
    exact ingressName_ne_egressKey _ _ _

theorem clusterNames_nodup (hnames : (input.servedLocals.map (·.name)).Nodup)
    (hegress : (input.servedInternals.map (·.egressKey)).Nodup) : snapshot.clusterNames.Nodup := by
  rw [hcolumns.clusterNames, List.nodup_append]
  refine ⟨?_, ?_, fun name hname key hkey => ?_⟩
  · rw [List.Nodup, List.pairwise_map] at hnames ⊢
    exact hnames.imp fun hne hsame => hne ((String.append_right_inj "local_").mp hsame)
  · rw [List.Nodup, List.pairwise_map] at hegress ⊢
    exact hegress.imp fun hne hsame => hne (remoteName_eq_iff.mp hsame)
  · obtain ⟨route, -, rfl⟩ := List.mem_map.mp hname
    obtain ⟨internal, -, rfl⟩ := List.mem_map.mp hkey
    exact localName_ne_remoteName _ _ _

/-- Distinct local names and no port held for two names: the snapshot is well
    formed exactly when the allocator names behind it are kept apart. -/
theorem wellFormed_iff (hlocal : (input.localRoutes.map (·.name)).Nodup)
    (hports : ∀ name name' port, input.portOf name = some port → input.portOf name' = some port → name = name') :
    snapshot.WellFormed ↔ input.Separated := by
  have haddresses := addresses_nodup_iff hcolumns hports
  rw [BuildXdsSnapshotInput.servedNames_nodup_iff hlocal] at haddresses
  refine ⟨fun h => haddresses.mp h.addresses, fun h => ?_⟩
  have hnames : (input.servedLocals.map (·.name)).Nodup := hlocal.sublist (List.filter_sublist.map _)
  have hclusters := clusterNames_nodup hcolumns hnames h.egress
  refine ⟨listenerNames_nodup hcolumns hnames h.egress, hclusters, haddresses.mpr h, fun listener hmem => ?_⟩
  apply List.count_eq_one_of_mem hclusters
  rw [← hcolumns.references]
  exact List.mem_map_of_mem hmem

end WellFormed

end Envoy

end CatalystRouter
