import CatalystRouter.Envoy.ControlPlane
import CatalystRouter.Library.Lists

namespace CatalystRouter

namespace AdsStream

variable {stream : AdsStream} {cache : Option XdsSnapshot} {request : DiscoveryRequest} {typeUrl version : String}
  {resources : XdsResources}

/-- The version of the last response of a type. -/
def lastVersion (stream : AdsStream) (typeUrl : String) : Option String :=
  (stream.written.filter (·.typeUrl = typeUrl)).getLast?.map (·.versionInfo)

/-- The types that the control plane serves. -/
def servedTypes : List String := [clusterTypeUrl, listenerTypeUrl]

/-- While it is open, the stream has had the snapshot of the cache for every type
    it has asked for. -/
def Fresh (cache : Option XdsSnapshot) (stream : AdsStream) : Prop :=
  stream.streamClosed = false → ∀ typeUrl ∈ servedTypes, typeUrl ∈ stream.subscribedTypes →
    ∀ snapshot ∈ cache, stream.lastVersion typeUrl = some snapshot.version

/-- What the bookkeeping of a stream says about its responses and about the cache. -/
structure Tracks (cache : Option XdsSnapshot) (stream : AdsStream) : Prop where
  sent : ∀ typeUrl, stream.sentVersions typeUrl = stream.lastVersion typeUrl
  subscribed : ∀ typeUrl, stream.sentVersions typeUrl ≠ none → typeUrl ∈ stream.subscribedTypes
  current : stream.streamClosed = false → stream.watching = true ∧ stream.latestSnapshot = cache

/-- A request on a stream leaves no type behind: the first one for a served type is
    an initial subscribe, unless there is nothing to send. -/
def Subscribes (cache : Option XdsSnapshot) (request : DiscoveryRequest) (stream : AdsStream) : Prop :=
  stream.streamClosed = false → request.typeUrl ∈ servedTypes → request.typeUrl ∉ stream.subscribedTypes →
    cache ≠ none → request.versionInfo = "" ∧ request.responseNonce = ""

instance : Decidable (Subscribes cache request stream) := by unfold Subscribes; infer_instance

section Send

@[simp] theorem sendType_subscribedTypes :
    (stream.sendType typeUrl version resources).subscribedTypes = stream.subscribedTypes := by
  unfold sendType
  split <;> rfl

@[simp] theorem sendType_latestSnapshot :
    (stream.sendType typeUrl version resources).latestSnapshot = stream.latestSnapshot := by
  unfold sendType
  split <;> rfl

@[simp] theorem sendType_streamClosed :
    (stream.sendType typeUrl version resources).streamClosed = stream.streamClosed := by
  unfold sendType
  split <;> rfl

@[simp] theorem sendType_watching :
    (stream.sendType typeUrl version resources).watching = stream.watching := by
  unfold sendType
  split <;> rfl

/-- Sending a type writes nothing or one response of it. -/
theorem sendType_cases (stream : AdsStream) (typeUrl version : String) (resources : XdsResources) :
    stream.sendType typeUrl version resources = stream ∧
        (typeUrl ∉ stream.subscribedTypes ∨ stream.sentVersions typeUrl = some version) ∨
      (stream.sendType typeUrl version resources).written =
          stream.written ++ [⟨version, resources, typeUrl, stream.streamNonce + 1⟩] ∧
        (stream.sendType typeUrl version resources).sentVersions =
          Function.update stream.sentVersions typeUrl (some version) ∧
        (stream.sendType typeUrl version resources).streamNonce = stream.streamNonce + 1 ∧
        typeUrl ∈ stream.subscribedTypes ∧ stream.sentVersions typeUrl ≠ some version := by
  unfold sendType
  split
  case isTrue hsend => exact .inr ⟨rfl, rfl, rfl, hsend⟩
  case isFalse hskip =>
    refine .inl ⟨rfl, ?_⟩
    by_cases hmem : typeUrl ∈ stream.subscribedTypes
    · exact .inr (by_contra fun hsent => hskip ⟨hmem, hsent⟩)
    · exact .inl hmem

/-- One more response changes the last version of its type only. -/
theorem lastVersion_of_written {response : DiscoveryResponse} {next : AdsStream}
    (hwritten : next.written = stream.written ++ [response]) (typeUrl : String) :
    next.lastVersion typeUrl =
      if response.typeUrl = typeUrl then some response.versionInfo else stream.lastVersion typeUrl := by
  by_cases htype : response.typeUrl = typeUrl <;> simp [lastVersion, hwritten, List.filter_append, htype]

/-- Sending a type keeps the bookkeeping, and brings it up to the version if the
    client has asked for it. -/
theorem Tracks.sendType (h : stream.Tracks cache) (typeUrl version : String) (resources : XdsResources) :
    (stream.sendType typeUrl version resources).Tracks cache ∧ ∀ other,
      (stream.sendType typeUrl version resources).lastVersion other =
        if other = typeUrl ∧ typeUrl ∈ stream.subscribedTypes then some version else stream.lastVersion other := by
  rcases sendType_cases stream typeUrl version resources with
    ⟨hsame, hskip⟩ | ⟨hwritten, hsent, -, hmem, -⟩
  · rw [hsame]
    refine ⟨h, fun other => ?_⟩
    split
    case isFalse => rfl
    case isTrue hother =>
      obtain ⟨rfl, hmem⟩ := hother
      rw [← h.sent, hskip.resolve_left (not_not_intro hmem)]
  · have hlast := lastVersion_of_written hwritten
    refine ⟨⟨fun other => ?_, fun other hother => ?_, fun hopen => ?_⟩, fun other => ?_⟩
    · rw [hsent, hlast, ← h.sent]
      by_cases hother : other = typeUrl
      · rw [hother, Function.update_self, if_pos rfl]
      · rw [Function.update_of_ne hother, if_neg (Ne.symm hother)]
    · rw [sendType_subscribedTypes]
      by_cases hself : other = typeUrl
      · rwa [hself]
      · rw [hsent, Function.update_of_ne hself] at hother
        exact h.subscribed other hother
    · rw [sendType_watching, sendType_latestSnapshot]
      exact h.current (by rwa [sendType_streamClosed] at hopen)
    · rw [hlast]
      by_cases hother : typeUrl = other
      · rw [if_pos hother, if_pos ⟨hother.symm, hmem⟩]
      · rw [if_neg hother, if_neg fun hboth => hother hboth.1.symm]

@[simp] theorem sendSnapshotForTypes_subscribedTypes (snapshot : XdsSnapshot) :
    (stream.sendSnapshotForTypes snapshot).subscribedTypes = stream.subscribedTypes := by
  simp [sendSnapshotForTypes]

@[simp] theorem sendSubscribed_subscribedTypes : stream.sendSubscribed.subscribedTypes = stream.subscribedTypes := by
  unfold sendSubscribed
  split
  · split
    · rfl
    · exact sendSnapshotForTypes_subscribedTypes _
  · rfl

@[simp] theorem sendSubscribed_streamClosed : stream.sendSubscribed.streamClosed = stream.streamClosed := by
  unfold sendSubscribed
  split
  · split
    · rfl
    · simp [sendSnapshotForTypes]
  · rfl

/-- Sending what is subscribed keeps the bookkeeping of the stream right. -/
theorem Tracks.sendSubscribed (h : stream.Tracks cache) : stream.sendSubscribed.Tracks cache := by
  unfold AdsStream.sendSubscribed
  split
  · split
    · exact h
    · exact ((h.sendType _ _ _).1.sendType _ _ _).1
  · exact h

/-- After a send every type that the client has asked for is at the version of the
    cache. -/
theorem Tracks.fresh_sendSubscribed (h : stream.Tracks cache) : stream.sendSubscribed.Fresh cache := by
  intro hopen typeUrl hserved hmem snapshot hcache
  rw [sendSubscribed_streamClosed] at hopen
  rw [sendSubscribed_subscribedTypes] at hmem
  have hlatest : stream.latestSnapshot = some snapshot := (h.current hopen).2.trans hcache
  have hsend : stream.sendSubscribed = stream.sendSnapshotForTypes snapshot := by
    simp [AdsStream.sendSubscribed, hlatest, hopen]
  have hclusters := h.sendType clusterTypeUrl snapshot.version (.clusters snapshot.clusters)
  have hlisteners := hclusters.1.sendType listenerTypeUrl snapshot.version (.listeners snapshot.listeners)
  rw [hsend, sendSnapshotForTypes, hlisteners.2, hclusters.2, sendType_subscribedTypes]
  rcases List.mem_pair.mp hserved with rfl | rfl
  · rw [if_neg fun hlistener => absurd hlistener.1 (by decide), if_pos ⟨rfl, hmem⟩]
  · rw [if_pos ⟨rfl, hmem⟩]

end Send

section Steps

/-- A subscription adds one type, unless it is empty. -/
@[simp] theorem mem_subscribe {other : String} :
    other ∈ (stream.subscribe typeUrl).subscribedTypes ↔
      other ∈ stream.subscribedTypes ∨ other = typeUrl ∧ typeUrl ≠ "" := by
  unfold subscribe
  split <;> grind

/-- A subscription alone writes nothing. -/
@[simp] theorem subscribe_lastVersion (other : String) :
    (stream.subscribe typeUrl).lastVersion other = stream.lastVersion other := by
  unfold subscribe
  split <;> rfl

@[simp] theorem subscribe_streamClosed : (stream.subscribe typeUrl).streamClosed = stream.streamClosed := by
  unfold subscribe
  split <;> rfl

/-- A subscription keeps the bookkeeping right. -/
theorem Tracks.subscribe (h : stream.Tracks cache) (typeUrl : String) : (stream.subscribe typeUrl).Tracks cache := by
  unfold AdsStream.subscribe
  split
  · exact h
  · exact ⟨h.sent, fun other hother => List.mem_append_left _ (h.subscribed other hother), h.current⟩

/-- A request buffer keeps it right. -/
theorem Tracks.onData (h : stream.Tracks cache) (request : DiscoveryRequest) :
    (stream.onData request).Tracks cache := by
  unfold AdsStream.onData
  dsimp only
  split
  · exact (h.subscribe _).sendSubscribed
  · exact h.subscribe _

/-- A new snapshot keeps it right and makes the stream fresh. -/
theorem Tracks.onSnapshot (h : stream.Tracks cache) (snapshot : XdsSnapshot) :
    (stream.onSnapshot snapshot).Tracks (some snapshot) ∧ (stream.onSnapshot snapshot).Fresh (some snapshot) := by
  unfold AdsStream.onSnapshot
  split
  case isTrue hwatching =>
    have hlatest : Tracks (some snapshot) { stream with latestSnapshot := some snapshot } :=
      ⟨h.sent, h.subscribed, fun hopen => ⟨hwatching, rfl⟩⟩
    exact ⟨hlatest.sendSubscribed, hlatest.fresh_sendSubscribed⟩
  case isFalse hwatching =>
    have hclosed : stream.streamClosed ≠ false := fun hopen => hwatching (h.current hopen).1
    exact ⟨⟨h.sent, h.subscribed, fun hopen => absurd hopen hclosed⟩, fun hopen => absurd hopen hclosed⟩

/-- Closing the stream keeps it right as well. -/
theorem Tracks.close (h : stream.Tracks cache) : Tracks cache { stream with streamClosed := true, watching := false } :=
  ⟨h.sent, h.subscribed, fun hopen => by cases hopen⟩

/-- A closed stream counts as fresh. -/
theorem fresh_of_closed (h : stream.streamClosed = true) : stream.Fresh cache := by
  intro hopen
  rw [h] at hopen
  cases hopen

/-- A request keeps a stream fresh exactly when it leaves no type behind: any other
    first request for a type counts as an ACK or a NACK, which sends nothing. -/
theorem Tracks.fresh_onData (h : stream.Tracks cache) (hfresh : stream.Fresh cache) :
    (stream.onData request).Fresh cache ↔ Subscribes cache request stream := by
  unfold AdsStream.onData
  dsimp only
  split
  case isTrue hinitial =>
    exact iff_of_true (h.subscribe _).fresh_sendSubscribed fun _ _ _ _ => hinitial
  case isFalse hlater =>
    constructor
    · intro hnext hopen hserved hnew hcache
      obtain ⟨snapshot, hsnapshot⟩ := Option.ne_none_iff_exists'.mp hcache
      have htype : request.typeUrl ≠ "" := fun hempty => absurd (hempty ▸ hserved) (by decide)
      have hlast : (stream.subscribe request.typeUrl).lastVersion request.typeUrl = some snapshot.version :=
        hnext (by simpa using hopen) _ hserved (by simp [htype]) snapshot hsnapshot
      have hnone : stream.sentVersions request.typeUrl = none :=
        by_contra fun hsent => hnew (h.subscribed _ hsent)
      rw [subscribe_lastVersion, ← h.sent, hnone] at hlast
      cases hlast
    · intro hsubscribes hopen typeUrl hserved hmem snapshot hsnapshot
      rw [subscribe_streamClosed] at hopen
      rw [subscribe_lastVersion]
      rcases mem_subscribe.mp hmem with hold | ⟨rfl, -⟩
      · exact hfresh hopen typeUrl hserved hold snapshot hsnapshot
      · refine hfresh hopen request.typeUrl hserved (by_contra fun hnew => ?_) snapshot hsnapshot
        exact hlater (hsubscribes hopen hserved hnew fun hnone => by rw [hnone] at hsnapshot; cases hsnapshot)

end Steps

end AdsStream

namespace XdsControlPlane

variable {plane : XdsControlPlane}

/-- Every stream is fresh. -/
def Fresh (plane : XdsControlPlane) : Prop := ∀ stream ∈ plane.streams, stream.Fresh plane.cache

/-- A request comes as a subscribe on the stream that it reaches. -/
def Event.Subscribes (plane : XdsControlPlane) : Event → Prop
  | .data i request => ∀ stream ∈ plane.streams[i]?, stream.Subscribes plane.cache request
  | _ => True

instance Event.Subscribes.decidable : ∀ event, Decidable (Event.Subscribes plane event)
  | .data i request => inferInstanceAs (Decidable (∀ stream ∈ plane.streams[i]?, stream.Subscribes plane.cache request))
  | .connect | .ended _ | .failed _ | .setSnapshot _ => inferInstanceAs (Decidable True)

/-- Every event keeps the bookkeeping of all streams right. -/
theorem step_tracks (event : Event) (h : ∀ stream ∈ plane.streams, stream.Tracks plane.cache) :
    ∀ stream ∈ (plane.step event).streams, stream.Tracks (plane.step event).cache := by
  cases event with
  | connect =>
    intro stream hmem
    rcases List.mem_append.mp hmem with hmem | hmem
    · exact h stream hmem
    · obtain rfl := List.mem_singleton.mp hmem
      exact ⟨fun _ => rfl, fun _ hsent => absurd rfl hsent, fun _ => ⟨rfl, rfl⟩⟩
  | data i request =>
    exact (Lists.forall_mem_modify_iff i h).mpr fun stream hstream => (h stream (List.mem_of_getElem? hstream)).onData request
  | ended i =>
    exact (Lists.forall_mem_modify_iff i h).mpr fun stream hstream => (h stream (List.mem_of_getElem? hstream)).close
  | failed i =>
    exact (Lists.forall_mem_modify_iff i h).mpr fun stream hstream => (h stream (List.mem_of_getElem? hstream)).close
  | setSnapshot snapshot =>
    intro stream hmem
    obtain ⟨earlier, hearlier, rfl⟩ := List.mem_map.mp hmem
    exact ((h earlier hearlier).onSnapshot snapshot).1

/-- An event keeps a fresh control plane fresh exactly if what it subscribes to is sent. -/
theorem step_fresh_iff (event : Event) (h : ∀ stream ∈ plane.streams, stream.Tracks plane.cache)
    (hfresh : plane.Fresh) :
    (plane.step event).Fresh ↔ event.Subscribes plane := by
  cases event with
  | connect =>
    refine iff_of_true (fun stream hmem => ?_) trivial
    rcases List.mem_append.mp hmem with hmem | hmem
    · exact hfresh stream hmem
    · obtain rfl := List.mem_singleton.mp hmem
      intro _ typeUrl _ hsubscribed
      cases hsubscribed
  | data i request =>
    refine (Lists.forall_mem_modify_iff i hfresh).trans (forall₂_congr fun stream hstream => ?_)
    have hmem := List.mem_of_getElem? hstream
    exact (h stream hmem).fresh_onData (hfresh stream hmem)
  | ended i =>
    exact iff_of_true ((Lists.forall_mem_modify_iff i hfresh).mpr fun _ _ => AdsStream.fresh_of_closed rfl) trivial
  | failed i =>
    exact iff_of_true ((Lists.forall_mem_modify_iff i hfresh).mpr fun _ _ => AdsStream.fresh_of_closed rfl) trivial
  | setSnapshot snapshot =>
    refine iff_of_true (fun stream hmem => ?_) trivial
    obtain ⟨earlier, hearlier, rfl⟩ := List.mem_map.mp hmem
    exact ((h earlier hearlier).onSnapshot snapshot).2

/-- A run keeps every stream fresh after each event exactly when the first request
    for a type always comes as an initial subscribe. -/
theorem run_fresh_iff (events : List Event) :
    (∀ early late, events = early ++ late → (run {} early).Fresh) ↔
      Runs.EachStep step (fun plane event => event.Subscribes plane) {} events :=
  Runs.throughout_iff (I := fun plane : XdsControlPlane => ∀ stream ∈ plane.streams, stream.Tracks plane.cache)
    (fun _ event => step_tracks event) (fun _ event => step_fresh_iff event) (fun _ hmem => by cases hmem)
    fun _ hmem => by cases hmem

/-- An Envoy that reconnects with the version it holds gets no later one: its first
    request counts as an ACK. -/
theorem reconnect_stale : ¬ (run {} [.setSnapshot ⟨"2", [], []⟩, .connect,
    .data 0 { typeUrl := clusterTypeUrl, versionInfo := "1" }]).Fresh := by
  intro h
  have hlast := h _ List.mem_cons_self rfl clusterTypeUrl (by decide) (by decide) _ rfl
  revert hlast
  decide

end XdsControlPlane

end CatalystRouter
