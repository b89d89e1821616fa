import CatalystRouter.Envoy.AdsClient
import CatalystRouter.Envoy.AdsFreshness
import CatalystRouter.Envoy.RpcServer

namespace CatalystRouter

open Protobuf (Bytes)
open ProtoEncoding (decodeDiscoveryRequest encodeDiscoveryResponse)

/-- The Envoy service of a node: the control plane is behind the cache that the RPC server
    writes to. -/
structure EnvoyService where
  server : EnvoyRpcServer := {}
  plane : XdsControlPlane := {}

namespace EnvoyService

/-- Routes come from the orchestrator, and buffers from the Envoys that are connected. -/
inductive Event where
  | updateRoutes (config : EnvoyRouteConfig)
  | connect
  | data (i : Nat) (buffer : Bytes)
  | ended (i : Nat)
  | failed (i : Nat)

section Step

variable (runtime : XdsRuntime) (proto : ProtobufRuntime)

/-- A snapshot that could be built goes to the cache. A buffer that the package throws on is
    logged and changes nothing. -/
def step (service : EnvoyService) : Event → EnvoyService
  | .updateRoutes config =>
    let (server, result) := service.server.updateRoutes runtime config
    match result, server.previousSnapshot with
    | .ok (), some snapshot => { server, plane := service.plane.step (.setSnapshot snapshot) }
    | _, _ => { service with server }
  | .connect => { service with plane := service.plane.step .connect }
  | .data i buffer =>
    match decodeDiscoveryRequest proto buffer with
    | some request => { service with plane := service.plane.step (.data i request) }
    | none => service
  | .ended i => { service with plane := service.plane.step (.ended i) }
  | .failed i => { service with plane := service.plane.step (.failed i) }

abbrev run (service : EnvoyService) (events : List Event) : EnvoyService := Runs.run (step runtime proto) service events

/-- The ports of a config fit 32 bits, and the first request for a type comes as a subscribe. -/
def Event.Fair (service : EnvoyService) : Event → Prop
  | .updateRoutes config => (service.server.snapshotInput config).PortsFit runtime
  | .data i buffer => ∀ request ∈ decodeDiscoveryRequest proto buffer, (XdsControlPlane.Event.data i request).Subscribes service.plane
  | _ => True

end Step

end EnvoyService

/-- The buffers that a stream has written. -/
def AdsStream.buffers (proto : ProtobufRuntime) (stream : AdsStream) : List Bytes :=
  stream.written.map (encodeDiscoveryResponse proto)

/-- What an Envoy holds of a type: the last response that it has read. -/
def AdsClient.held (buffers : List Bytes) (typeUrl : String) : Option DiscoveryResponse :=
  ((buffers.filterMap readDiscoveryResponse).filter (·.typeUrl = typeUrl)).getLast?

/-- A response that is one of the two for a snapshot. -/
inductive XdsSnapshot.Sends (snapshot : XdsSnapshot) : DiscoveryResponse → Prop where
  | clusters (nonce : Nat) : Sends snapshot ⟨snapshot.version, .clusters snapshot.clusters, clusterTypeUrl, nonce⟩
  | listeners (nonce : Nat) : Sends snapshot ⟨snapshot.version, .listeners snapshot.listeners, listenerTypeUrl, nonce⟩

namespace AdsStream

variable {stream : AdsStream} {snapshot : XdsSnapshot} {response : DiscoveryResponse}

/-- What is written for a type is a response of this type and version. -/
theorem sendType_written {typeUrl version : String} {resources : XdsResources}
    (h : response ∈ (stream.sendType typeUrl version resources).written) :
    response ∈ stream.written ∨ ∃ nonce, response = ⟨version, resources, typeUrl, nonce⟩ := by
  rcases sendType_cases stream typeUrl version resources with ⟨hsame, -⟩ | ⟨hwritten, -⟩
  · rw [hsame] at h
    exact .inl h
  · rw [hwritten] at h
    obtain h | h := List.mem_append.mp h
    · exact .inl h
    · exact .inr ⟨_, List.mem_singleton.mp h⟩

/-- An open stream writes what it was written for, from its latest snapshot. -/
theorem sendSubscribed_written (h : response ∈ stream.sendSubscribed.written) :
    response ∈ stream.written ∨
      stream.streamClosed = false ∧ ∃ snapshot, stream.latestSnapshot = some snapshot ∧ snapshot.Sends response := by
  unfold sendSubscribed at h
  split at h
  case h_2 => exact .inl h
  case h_1 snapshot hlatest =>
    split at h
    case isTrue => exact .inl h
    case isFalse hopen =>
      obtain h | ⟨nonce, rfl⟩ := sendType_written h
      · obtain h | ⟨nonce, rfl⟩ := sendType_written h
        · exact .inl h
        · exact .inr ⟨by simpa using hopen, snapshot, hlatest, .clusters nonce⟩
      · exact .inr ⟨by simpa using hopen, snapshot, hlatest, .listeners nonce⟩

/-- What is written for a request buffer is of the latest snapshot. -/
theorem onData_written {request : DiscoveryRequest} (h : response ∈ (stream.onData request).written) :
    response ∈ stream.written ∨
      stream.streamClosed = false ∧ ∃ snapshot, stream.latestSnapshot = some snapshot ∧ snapshot.Sends response := by
  have hsubscribe : (stream.subscribe request.typeUrl).written = stream.written ∧
      (stream.subscribe request.typeUrl).latestSnapshot = stream.latestSnapshot := by
    unfold subscribe
    split <;> exact ⟨rfl, rfl⟩
  unfold onData at h
  dsimp only at h
  split at h
  · have hsent := sendSubscribed_written h
    rwa [hsubscribe.1, hsubscribe.2, subscribe_streamClosed] at hsent
  · rw [hsubscribe.1] at h
    exact .inl h

/-- What is written for a snapshot is of it. -/
theorem onSnapshot_written (h : response ∈ (stream.onSnapshot snapshot).written) :
    response ∈ stream.written ∨ snapshot.Sends response := by
  unfold onSnapshot at h
  split at h
  · obtain h | ⟨-, latest, hlatest, hsends⟩ := sendSubscribed_written h
    · exact .inl h
    · cases hlatest
      exact .inr hsends
  · exact .inl h

end AdsStream

/-- The responses of a snapshot whose resources fit do so as well. -/
theorem XdsSnapshot.Sends.fits {snapshot : XdsSnapshot} {response : DiscoveryResponse} (h : snapshot.Sends response)
    (hfits : (∀ listener ∈ snapshot.listeners, listener.Fits) ∧ ∀ cluster ∈ snapshot.clusters, cluster.Fits) :
    response.Fits := by
  cases h with
  | clusters nonce => exact .clusters _ _ _ hfits.2
  | listeners nonce => exact .listeners _ _ _ hfits.1

namespace EnvoyService

/-- A response can be read, its version is one of the server's so far, and if that is the
    version in the cache, it has the resources in the cache. -/
structure Served (server : EnvoyRpcServer) (response : DiscoveryResponse) : Prop where
  fits : response.Fits
  version : ∃ counter ≤ server.versionCounter, response.versionInfo = toString counter
  current : ∀ snapshot ∈ server.previousSnapshot, response.versionInfo = snapshot.version → snapshot.Sends response

/-- What every fair event keeps. -/
structure Sound (service : EnvoyService) : Prop where
  cache : service.plane.cache = service.server.previousSnapshot
  tracks : ∀ stream ∈ service.plane.streams, stream.Tracks service.plane.cache
  fresh : service.plane.Fresh
  version : ∀ snapshot ∈ service.server.previousSnapshot, ∃ counter ≤ service.server.versionCounter,
    snapshot.version = toString counter
  fits : ∀ snapshot ∈ service.server.previousSnapshot,
    (∀ listener ∈ snapshot.listeners, listener.Fits) ∧ ∀ cluster ∈ snapshot.clusters, cluster.Fits
  served : ∀ stream ∈ service.plane.streams, ∀ response ∈ stream.written, Served service.server response

variable {runtime : XdsRuntime} {proto : ProtobufRuntime} {service : EnvoyService}

/-- What is sent from the cache is served. -/
theorem Sound.sends (h : service.Sound) {snapshot : XdsSnapshot} (hsnapshot : service.server.previousSnapshot = some snapshot)
    {response : DiscoveryResponse} (hsends : snapshot.Sends response) : Served service.server response := by
  have hversion : response.versionInfo = snapshot.version := by cases hsends <;> rfl
  refine ⟨hsends.fits (h.fits snapshot hsnapshot), hversion ▸ h.version snapshot hsnapshot, fun latest hlatest _ => ?_⟩
  obtain rfl := Option.some.inj (hsnapshot.symm.trans hlatest)
  exact hsends

/-- What the control plane does on its own, where the cache stays. -/
theorem Sound.plane_step (h : service.Sound) {event : XdsControlPlane.Event} (hsubscribes : event.Subscribes service.plane)
    (hcache : (service.plane.step event).cache = service.plane.cache)
    (hwritten : ∀ stream ∈ (service.plane.step event).streams, ∀ response ∈ stream.written,
      Served service.server response) : Sound { service with plane := service.plane.step event } where
  cache := hcache.trans h.cache
  tracks := XdsControlPlane.step_tracks event h.tracks
  fresh := (XdsControlPlane.step_fresh_iff event h.tracks h.fresh).mpr hsubscribes
  version := h.version
  fits := h.fits
  served := hwritten

/-- Closing a stream writes nothing. -/
theorem Sound.closed (h : service.Sound) (i : Nat) {close : AdsStream → AdsStream}
    (hclose : ∀ stream, (close stream).written = stream.written) :
    ∀ stream ∈ service.plane.streams.modify i close, ∀ response ∈ stream.written, Served service.server response := by
  refine (Lists.forall_mem_modify_iff i h.served).mpr fun stream hstream response hresponse => ?_
  rw [hclose] at hresponse
  exact h.served stream (List.mem_of_getElem? hstream) response hresponse

/-- A request buffer is answered with what has been served. -/
theorem Sound.data (h : service.Sound) (i : Nat) (request : DiscoveryRequest) :
    ∀ stream ∈ service.plane.streams.modify i (·.onData request), ∀ response ∈ stream.written,
      Served service.server response := by
  refine (Lists.forall_mem_modify_iff i h.served).mpr fun stream hstream response hresponse => ?_
  have hmem := List.mem_of_getElem? hstream
  obtain hresponse | ⟨hopen, snapshot, hlatest, hsends⟩ := AdsStream.onData_written hresponse
  · exact h.served stream hmem response hresponse
  · rw [((h.tracks stream hmem).current hopen).2, h.cache] at hlatest
    exact h.sends hlatest hsends

/-- A new snapshot has a version that no response has. -/
theorem Sound.setSnapshot (h : service.Sound) {snapshot : XdsSnapshot} {server : EnvoyRpcServer}
    (hcounter : server.versionCounter = service.server.versionCounter + 1)
    (hversion : snapshot.version = toString server.versionCounter) (hprevious : server.previousSnapshot = some snapshot)
    (hfits : (∀ listener ∈ snapshot.listeners, listener.Fits) ∧ ∀ cluster ∈ snapshot.clusters, cluster.Fits) :
    Sound { server, plane := service.plane.step (.setSnapshot snapshot) } where
  cache := hprevious.symm
  tracks := XdsControlPlane.step_tracks (.setSnapshot snapshot) h.tracks
  fresh := (XdsControlPlane.step_fresh_iff (.setSnapshot snapshot) h.tracks h.fresh).mpr trivial
  version latest hlatest := by
    obtain rfl := Option.some.inj (hprevious.symm.trans hlatest)
    exact ⟨server.versionCounter, Nat.le_refl _, hversion⟩
  fits latest hlatest := by
    obtain rfl := Option.some.inj (hprevious.symm.trans hlatest)
    exact hfits
  served stream hstream response hresponse := by
    obtain ⟨earlier, hearlier, rfl⟩ := List.mem_map.mp hstream
    obtain hresponse | hsends := AdsStream.onSnapshot_written hresponse
    · obtain ⟨hreads, ⟨counter, hcounterLe, hold⟩, -⟩ := h.served earlier hearlier response hresponse
      have hearlierVersion : counter < server.versionCounter := by omega
      refine ⟨hreads, ⟨counter, hearlierVersion.le, hold⟩, fun latest hlatest hsame => ?_⟩
      obtain rfl := Option.some.inj (hprevious.symm.trans hlatest)
      have hnumeral : toString counter = toString server.versionCounter := by rw [← hold, hsame, hversion]
      have hequal : counter = server.versionCounter := Option.some.inj <| by
        rw [← AdsClient.readNonce_toString counter, hnumeral, AdsClient.readNonce_toString]
      omega
    · have hsame : response.versionInfo = snapshot.version := by cases hsends <;> rfl
      refine ⟨hsends.fits hfits, ⟨server.versionCounter, Nat.le_refl _, hsame.trans hversion⟩, fun latest hlatest _ => ?_⟩
      obtain rfl := Option.some.inj (hprevious.symm.trans hlatest)
      exact hsends

/-- Routes that give no new snapshot leave the control plane alone. -/
theorem Sound.keep (h : service.Sound) {server : EnvoyRpcServer}
    (hcounter : service.server.versionCounter ≤ server.versionCounter)
    (hprevious : server.previousSnapshot = service.server.previousSnapshot) : Sound { service with server } where
  cache := h.cache.trans hprevious.symm
  tracks := h.tracks
  fresh := h.fresh
  version snapshot hsnapshot := by
    obtain ⟨counter, hle, hversion⟩ := h.version snapshot (hprevious ▸ hsnapshot)
    exact ⟨counter, hle.trans hcounter, hversion⟩
  fits snapshot hsnapshot := h.fits snapshot (hprevious ▸ hsnapshot)
  served stream hstream response hresponse := by
    obtain ⟨hfits, ⟨counter, hle, hversion⟩, hcurrent⟩ := h.served stream hstream response hresponse
    exact ⟨hfits, ⟨counter, hle.trans hcounter, hversion⟩, fun snapshot hsnapshot => hcurrent snapshot (hprevious ▸ hsnapshot)⟩

/-- A push of routes whose ports fit keeps the service sound. -/
theorem Sound.updateRoutes (h : service.Sound) {config : EnvoyRouteConfig}
    (hports : (service.server.snapshotInput config).PortsFit runtime) :
    (service.step runtime proto (.updateRoutes config)).Sound := by
  by_cases hwell : config.wellFormed runtime
  case neg =>
    simp only [step, EnvoyRpcServer.updateRoutes, if_neg hwell]
    exact h.keep (Nat.le_refl _) rfl
  case pos =>
    simp only [step, EnvoyRpcServer.updateRoutes, if_pos hwell]
    cases hbuilt : Envoy.buildXdsSnapshot runtime (service.server.snapshotInput config) with
    | error error => exact h.keep (Nat.le_succ _) rfl
    | ok snapshot =>
      have hversion : snapshot.version = toString (service.server.versionCounter + 1) := by
        simp only [Envoy.buildXdsSnapshot, Envoy.bind_eq_ok_iff] at hbuilt
        obtain ⟨ingress, -, hsnapshot⟩ := hbuilt
        cases hsnapshot
        rfl
      exact h.setSnapshot rfl hversion rfl (Envoy.buildXdsSnapshot_fits hports hbuilt)

/-- So does every event whose ports fit. -/
theorem Sound.step {event : Event} (hfair : event.Fair runtime proto service) (h : service.Sound) :
    (service.step runtime proto event).Sound := by
  cases event with
  | updateRoutes config => exact h.updateRoutes hfair
  | connect =>
    refine h.plane_step trivial rfl fun stream hstream response hresponse => ?_
    obtain hstream | hstream := List.mem_append.mp hstream
    · exact h.served stream hstream response hresponse
    · obtain rfl := List.mem_singleton.mp hstream
      cases hresponse
  | data i buffer =>
    unfold EnvoyService.step
    dsimp only
    cases hrequest : decodeDiscoveryRequest proto buffer with
    | none => exact h
    | some request => exact h.plane_step (hfair request hrequest) rfl (h.data i request)
  | ended i => exact h.plane_step trivial rfl (h.closed i fun _ => rfl)
  | failed i => exact h.plane_step trivial rfl (h.closed i fun _ => rfl)

theorem run_sound {events : List Event}
    (hfair : Runs.EachStep (step runtime proto) (fun service event => event.Fair runtime proto service) {} events) :
    (run runtime proto {} events).Sound :=
  Runs.run_induct (fun _ _ hevent h => h.step hevent) hfair
    { cache := rfl
      tracks := fun _ hstream => (nomatch hstream)
      fresh := fun _ hstream => (nomatch hstream)
      version := fun _ hsnapshot => (nomatch hsnapshot)
      fits := fun _ hsnapshot => (nomatch hsnapshot)
      served := fun _ hstream => (nomatch hstream) }

end EnvoyService

namespace AdsStream

/-- What an Envoy reads of a stream is what was written. -/
theorem held_buffers {proto : ProtobufRuntime} (hproto : proto.Conforms) {stream : AdsStream}
    (hfits : ∀ response ∈ stream.written, response.Fits) (typeUrl : String) :
    AdsClient.held (stream.buffers proto) typeUrl = (stream.written.filter (·.typeUrl = typeUrl)).getLast? := by
  have hread : (stream.buffers proto).filterMap AdsClient.readDiscoveryResponse = stream.written := by
    unfold buffers
    generalize stream.written = written at hfits ⊢
    induction written with
    | nil => rfl
    | cons response rest ih =>
      obtain ⟨hresponse, hrest⟩ := List.forall_mem_cons.mp hfits
      rw [List.map_cons, List.filterMap_cons, AdsClient.readDiscoveryResponse_encode hproto hresponse]
      exact congrArg (response :: ·) (ih hrest)
  rw [AdsClient.held, hread]

end AdsStream

namespace EnvoyService

/-- After any run of route updates, connections, requests and disconnections, what an Envoy has
    read off its open stream is the last snapshot that could be built: for every type that it
    has asked for, the version and all the resources. -/
theorem run_held {runtime : XdsRuntime} {proto : ProtobufRuntime} (hproto : proto.Conforms) {events : List Event}
    (hfair : Runs.EachStep (step runtime proto) (fun service event => event.Fair runtime proto service) {} events)
    {stream : AdsStream} (hstream : stream ∈ (run runtime proto {} events).plane.streams)
    (hopen : stream.streamClosed = false) {snapshot : XdsSnapshot}
    (hsnapshot : (run runtime proto {} events).server.previousSnapshot = some snapshot) {typeUrl : String}
    (hserved : typeUrl ∈ AdsStream.servedTypes) (hsubscribed : typeUrl ∈ stream.subscribedTypes) :
    ∃ response, AdsClient.held (stream.buffers proto) typeUrl = some response ∧ response.typeUrl = typeUrl ∧
      snapshot.Sends response := by
  have h := run_sound hfair
  have hlast := h.fresh stream hstream hopen typeUrl hserved hsubscribed snapshot (h.cache.trans hsnapshot)
  obtain ⟨response, hresponse, hversion⟩ := Option.map_eq_some_iff.mp hlast
  have hmem := List.mem_filter.mp (List.mem_of_getLast? hresponse)
  refine ⟨response, ?_, of_decide_eq_true hmem.2, ?_⟩
  · rw [AdsStream.held_buffers hproto fun written hwritten => (h.served stream hstream written hwritten).fits]
    exact hresponse
  · exact (h.served stream hstream response hmem.1).current snapshot hsnapshot hversion

/-- A runtime that reads the one endpoint of `booksConfig`. -/
def booksRuntime : XdsRuntime where
  parseUrl endpoint :=
    if endpoint = "http://books.local:8080" then .ok ⟨"http:", "books.local", some 8080⟩ else .error "Invalid URL"
  isIP _ := false
  validChannel _ := true

def booksConfig : EnvoyRouteConfig where
  localRoutes := [{ name := "books", protocol := .http, endpoint := some "http://books.local:8080" }]
  internalRoutes := []
  portAllocations := some [("books", 10000)]

/-- A first request for the clusters. -/
def subscribeBuffer : Bytes := Protobuf.writeRecords [⟨4, .len clusterTypeUrl.toUTF8.data.toList⟩]

theorem decode_subscribeBuffer : decodeDiscoveryRequest wireFormat subscribeBuffer = some { typeUrl := clusterTypeUrl } := by
  decide +kernel

/-- An Envoy that connects and asks for the clusters holds the one of `books`. -/
theorem run_held_books : ∃ stream response snapshot,
    stream ∈ (run booksRuntime wireFormat {} [.updateRoutes booksConfig, .connect, .data 0 subscribeBuffer]).plane.streams ∧
      AdsClient.held (stream.buffers wireFormat) clusterTypeUrl = some response ∧ response.typeUrl = clusterTypeUrl ∧
      XdsSnapshot.Sends snapshot response ∧ snapshot.clusters.map (·.name) = ["local_books"] := by
  have hfair : Runs.EachStep (step booksRuntime wireFormat)
      (fun service event => event.Fair booksRuntime wireFormat service) {}
      [.updateRoutes booksConfig, .connect, .data 0 subscribeBuffer] := by
    refine ⟨⟨?_, ?_, fun _ hroute => (nomatch hroute)⟩, trivial, fun request hrequest => ?_, trivial⟩
    · intro entry hentry
      obtain rfl := List.mem_singleton.mp hentry
      rfl
    · intro route hroute endpoint hendpoint address port hport
      obtain rfl := List.mem_singleton.mp hroute
      cases hendpoint
      cases hport
      rfl
    · obtain rfl := Option.some.inj (decode_subscribeBuffer.symm.trans hrequest)
      exact fun _ _ _ _ _ _ => ⟨rfl, rfl⟩
  have hsubscribe (service : EnvoyService) : service.step booksRuntime wireFormat (.data 0 subscribeBuffer) =
      { service with plane := service.plane.step (.data 0 { typeUrl := clusterTypeUrl }) } := by
    simp only [step, decode_subscribeBuffer]
  have hrun : run booksRuntime wireFormat {} [.updateRoutes booksConfig, .connect, .data 0 subscribeBuffer] =
      { server := (({} : EnvoyRpcServer).updateRoutes booksRuntime booksConfig).1
        plane := (run booksRuntime wireFormat {} [.updateRoutes booksConfig, .connect]).plane.step
          (.data 0 { typeUrl := clusterTypeUrl }) } := by
    simp only [run, Runs.run_cons, Runs.run_nil]
    rw [hsubscribe]
    rfl
  have hserved : clusterTypeUrl ∈ AdsStream.servedTypes := by decide
  have hstream := List.mem_of_getElem? (l := (run booksRuntime wireFormat {}
    [.updateRoutes booksConfig, .connect, .data 0 subscribeBuffer]).plane.streams) (i := 0) (by rw [hrun]; rfl)
  obtain ⟨response, hheld⟩ := run_held wireFormat_conforms hfair hstream rfl (by rw [hrun]; rfl) hserved (by decide)
  exact ⟨_, response, _, hstream, hheld.1, hheld.2.1, hheld.2.2, rfl⟩

end EnvoyService

end CatalystRouter
