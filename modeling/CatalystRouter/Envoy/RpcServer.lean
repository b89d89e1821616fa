import CatalystRouter.Envoy.Resources

namespace CatalystRouter

/-- The state of an `EnvoyRpcServer` with a snapshot cache. The cache holds the
    last snapshot built, `previousSnapshot`. -/
structure EnvoyRpcServer where
  bindAddress : String := "0.0.0.0"
  config : EnvoyRouteConfig := ⟨[], [], none⟩
  versionCounter : Nat := 0
  previousSnapshot : Option XdsSnapshot := none
  deriving DecidableEq, Repr

/-- `RouteConfigSchema.safeParse` succeeds: the channels fit their schema and
    the allocated ports are port numbers. -/
def EnvoyRouteConfig.wellFormed (runtime : XdsRuntime) (config : EnvoyRouteConfig) : Bool :=
  config.localRoutes.all runtime.validChannel &&
    (config.internalRoutes.all fun route => runtime.validChannel route.toDataChannelDefinition) &&
    (config.portAllocations.getD []).all fun entry => 1 ≤ entry.2 && entry.2 ≤ 65535

/-- The allocations read off the routes of a config that has none: a later
    route overwrites an earlier one of the same key. -/
def EnvoyRouteConfig.legacyAllocations (config : EnvoyRouteConfig) : List (String × Int) :=
  let ingress := config.localRoutes.filterMap fun route =>
    (Envoy.nonZero route.envoyPort).map fun port => (route.name, port)
  let egress := config.internalRoutes.filterMap fun route =>
    (Envoy.nonZero route.envoyPort).map fun port => (route.egressKey, port)
  (ingress ++ egress).reverse

namespace EnvoyRpcServer

def snapshotInput (self : EnvoyRpcServer) (config : EnvoyRouteConfig) : Envoy.BuildXdsSnapshotInput where
  localRoutes := config.localRoutes
  internalRoutes := config.internalRoutes
  portAllocations := config.portAllocations.getD config.legacyAllocations
  bindAddress := self.bindAddress
  version := toString (self.versionCounter + 1)

/-- `updateRoutes`. A config that cannot be served is kept, but the cache stays
    with the snapshot it has. -/
def updateRoutes (runtime : XdsRuntime) (self : EnvoyRpcServer) (config : EnvoyRouteConfig) :
    EnvoyRpcServer × Except String Unit :=
  if config.wellFormed runtime then
    let updated := { self with config, versionCounter := self.versionCounter + 1 }
    match Envoy.buildXdsSnapshot runtime (self.snapshotInput config) with
    | .ok snapshot => ({ updated with previousSnapshot := some snapshot }, .ok ())
    | .error error => (updated, .error error)
  else (self, .error "Malformed route configuration received and unable to parse")

/-- What the service needs of a config: it parses, and so does the endpoint of
    every local route that is to get a listener. -/
structure Serves (runtime : XdsRuntime) (config : EnvoyRouteConfig) : Prop where
  wellFormed : config.wellFormed runtime = true
  endpoints : ∀ route ∈ config.localRoutes, ∀ endpoint ∈ Envoy.nonEmpty route.endpoint,
    (config.portAllocations.getD config.legacyAllocations).lookup route.name ≠ none →
      (runtime.parseUrl endpoint).isOk = true

instance (runtime : XdsRuntime) (config : EnvoyRouteConfig) : Decidable (Serves runtime config) :=
  decidable_of_iff (config.wellFormed runtime = true ∧
      ∀ route ∈ config.localRoutes, ∀ endpoint ∈ Envoy.nonEmpty route.endpoint,
        (config.portAllocations.getD config.legacyAllocations).lookup route.name ≠ none →
          (runtime.parseUrl endpoint).isOk = true)
    ⟨fun h => ⟨h.1, h.2⟩, fun h => ⟨h.wellFormed, h.endpoints⟩⟩

variable {runtime : XdsRuntime} {self : EnvoyRpcServer} {config : EnvoyRouteConfig}

/-- A config that can be served is. -/
theorem updateRoutes_of_serves (h : Serves runtime config) :
    ∃ snapshot, Envoy.buildXdsSnapshot runtime (self.snapshotInput config) = .ok snapshot ∧
      (self.updateRoutes runtime config).1.previousSnapshot = some snapshot := by
  have hbuilt : ∃ snapshot, Envoy.buildXdsSnapshot runtime (self.snapshotInput config) = .ok snapshot := by
    rw [Envoy.buildXdsSnapshot_ok_iff]
    intro route hmem
    unfold Envoy.localResources
    split
    · rename_i endpoint port hendpoint hport
      obtain ⟨hallocated, -⟩ := Envoy.portOf_eq_some_iff.mp hport
      have hsome : (config.portAllocations.getD config.legacyAllocations).lookup route.name ≠ none :=
        Option.ne_none_iff_exists'.mpr ⟨port, hallocated⟩
      have hparses := h.endpoints route hmem endpoint hendpoint hsome
      cases hurl : runtime.parseUrl endpoint with
      | error err => simp [hurl, Except.isOk, Except.toBool] at hparses
      | ok url =>
        simp only [Envoy.parseEndpointUrl, hurl]
        exact ⟨_, rfl⟩
    · exact ⟨_, rfl⟩
  obtain ⟨snapshot, hsnapshot⟩ := hbuilt
  refine ⟨snapshot, hsnapshot, ?_⟩
  simp [updateRoutes, h.wellFormed, hsnapshot]

end EnvoyRpcServer

end CatalystRouter
