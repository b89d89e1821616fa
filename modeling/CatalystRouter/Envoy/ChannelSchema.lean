import CatalystRouter.Envoy.RpcServer

namespace CatalystRouter

/-- `[a-z0-9._-]`, ignoring case. -/
def isNameChar (c : Char) : Bool := c.isAlphanum || c == '.' || c == '_' || c == '-'

/-- A name of 1 to 253 characters that matches
    `/^[a-z0-9]([a-z0-9._-]*[a-z0-9])?$/i`. -/
def nameFits (name : String) : Bool :=
  match name.toList with
  | [] => false
  | first :: rest => first.isAlphanum && rest.all isNameChar && rest.getLast?.all Char.isAlphanum && name.length ≤ 253

/-- The `DataChannelDefinitionSchema` of the service: the name, and an endpoint that
    the `URL` constructor takes. The other fields fit by their types. -/
def channelSchema (parseUrl : String → Except String Url) (route : DataChannelDefinition) : Bool :=
  nameFits route.name && route.endpoint.all fun endpoint => (parseUrl endpoint).isOk

/-- What a schema that parses channels guarantees: a valid endpoint is a URL, and
    neither a port number nor a health report makes a channel invalid. -/
structure XdsRuntime.Lawful (runtime : XdsRuntime) : Prop where
  url : ∀ route endpoint, runtime.validChannel route = true → route.endpoint = some endpoint →
    (runtime.parseUrl endpoint).isOk = true
  stamped : ∀ (route : DataChannelDefinition) port, runtime.validChannel route = true →
    runtime.validChannel { route with envoyPort := some port } = true
  checked : ∀ (route : DataChannelDefinition) (data : RouteHealth), runtime.validChannel route = true →
    runtime.validChannel { route with
      healthStatus := some data.healthStatus
      responseTimeMs := some data.responseTimeMs
      lastChecked := some data.lastChecked } = true

theorem lawful_of_channelSchema {runtime : XdsRuntime} (h : runtime.validChannel = channelSchema runtime.parseUrl) :
    runtime.Lawful := by
  constructor
  · intro route endpoint hvalid hendpoint
    rw [h, channelSchema, hendpoint, Bool.and_eq_true] at hvalid
    exact hvalid.2
  · intro route port hvalid
    rw [h] at hvalid ⊢
    exact hvalid
  · intro route data hvalid
    rw [h] at hvalid ⊢
    exact hvalid

/-- Every channel of a config is valid. -/
structure EnvoyRouteConfig.ValidChannels (runtime : XdsRuntime) (config : EnvoyRouteConfig) : Prop where
  localRoutes : ∀ route ∈ config.localRoutes, runtime.validChannel route = true
  internalRoutes : ∀ route ∈ config.internalRoutes, runtime.validChannel route.toDataChannelDefinition = true

namespace EnvoyRpcServer

/-- A config gets through: it is accepted, and of every valid route that has
    resources the snapshot has both. -/
structure Delivers (runtime : XdsRuntime) (server : EnvoyRpcServer) (config : EnvoyRouteConfig) : Prop where
  accepted : (server.updateRoutes runtime config).2 = .ok ()
  served : ∃ snapshot, (server.updateRoutes runtime config).1.previousSnapshot = some snapshot ∧
    (∀ route ∈ config.localRoutes, runtime.validChannel route = true → ∀ listener cluster,
      Envoy.localResources runtime (server.snapshotInput config) route = .ok (some (listener, cluster)) →
        listener ∈ snapshot.listeners ∧ cluster ∈ snapshot.clusters) ∧
    ∀ route ∈ config.internalRoutes, runtime.validChannel route.toDataChannelDefinition = true → ∀ listener cluster,
      Envoy.remoteResources runtime (server.snapshotInput config) route = some (listener, cluster) →
        listener ∈ snapshot.listeners ∧ cluster ∈ snapshot.clusters

variable {runtime : XdsRuntime} {server : EnvoyRpcServer} {config : EnvoyRouteConfig}

/-- One channel that does not fit, or one allocated port that is none, and nothing
    of the config gets through. -/
theorem delivers_iff (hlawful : runtime.Lawful) : server.Delivers runtime config ↔ config.wellFormed runtime = true := by
  constructor
  · intro h
    have haccepted := h.accepted
    unfold updateRoutes at haccepted
    split at haccepted
    · assumption
    · cases haccepted
  · intro hwell
    have hserves : Serves runtime config := by
      refine ⟨hwell, fun route hmem endpoint hendpoint _ => ?_⟩
      rw [EnvoyRouteConfig.wellFormed, Bool.and_eq_true, Bool.and_eq_true] at hwell
      have hvalid := List.all_eq_true.mp hwell.1.1 route hmem
      exact hlawful.url route endpoint hvalid (Envoy.nonEmpty_eq_some_iff.mp hendpoint).1
    obtain ⟨snapshot, hbuilt, hpublished⟩ := updateRoutes_of_serves hserves
    obtain ⟨resources, hlisteners, hclusters, hmem⟩ := Envoy.mem_buildXdsSnapshot hbuilt
    have hcontains {listener : XdsListener} {cluster : XdsCluster} (h : (listener, cluster) ∈ resources) :
        listener ∈ snapshot.listeners ∧ cluster ∈ snapshot.clusters := by
      rw [hlisteners, hclusters]
      exact ⟨List.mem_map.mpr ⟨_, h, rfl⟩, List.mem_map.mpr ⟨_, h, rfl⟩⟩
    refine ⟨?_, snapshot, hpublished, ?_, ?_⟩
    · simp [updateRoutes, hwell, hbuilt]
    · intro route hroute _ listener cluster hresources
      exact hcontains ((hmem _).mpr (.inl ⟨route, hroute, hresources⟩))
    · intro route hroute _ listener cluster hresources
      exact hcontains ((hmem _).mpr (.inr ⟨route, hroute, hresources⟩))

theorem wellFormed_iff_validChannels (hports : ∀ entry ∈ config.portAllocations.getD [], 1 ≤ entry.2 ∧ entry.2 ≤ 65535) :
    config.wellFormed runtime = true ↔ config.ValidChannels runtime := by
  have hall : ((config.portAllocations.getD []).all fun entry => 1 ≤ entry.2 && entry.2 ≤ 65535) = true :=
    List.all_eq_true.mpr fun entry hmem => by simpa using hports entry hmem
  rw [EnvoyRouteConfig.wellFormed, hall, Bool.and_true, Bool.and_eq_true, List.all_eq_true, List.all_eq_true]
  exact ⟨fun h => ⟨h.1, h.2⟩, fun h => ⟨h.localRoutes, h.internalRoutes⟩⟩

end EnvoyRpcServer

end CatalystRouter
