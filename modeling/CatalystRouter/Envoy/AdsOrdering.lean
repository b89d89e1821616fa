import Mathlib.Data.List.Induction
import CatalystRouter.Envoy.AdsFreshness

namespace CatalystRouter

/-- The type and the version of a response. -/
def DiscoveryResponse.stamp (response : DiscoveryResponse) : String × String :=
  (response.typeUrl, response.versionInfo)

namespace AdsStream

variable {stream next : AdsStream} {snapshot : XdsSnapshot} {seen : List String}

/-- The responses of a stream against its bookkeeping, where `seen` are the versions
    of the snapshots so far. -/
structure Ordered (seen : List String) (stream : AdsStream) : Prop where
  once : (stream.written.map (·.stamp)).Nodup
  nonces : stream.written.Pairwise (·.nonce < ·.nonce)
  nonce_le : ∀ response ∈ stream.written, response.nonce ≤ stream.streamNonce
  known : ∀ response ∈ stream.written, response.versionInfo ∈ seen
  latest : ∀ snapshot ∈ stream.latestSnapshot, snapshot.version ∈ seen
  current : ∀ typeUrl, ∀ snapshot ∈ stream.latestSnapshot, (typeUrl, snapshot.version) ∈ stream.written.map (·.stamp) →
    stream.sentVersions typeUrl = some snapshot.version
  sent : ∀ typeUrl version, stream.sentVersions typeUrl = some version →
    (typeUrl, version) ∈ stream.written.map (·.stamp)

/-- Of the responses between two states of a stream, those of listeners come after
    the clusters of their version, if the client has asked for clusters. -/
def ClustersFirst (stream next : AdsStream) : Prop :=
  ∀ before response after, next.written = stream.written ++ before ++ response :: after →
    response.typeUrl = listenerTypeUrl → clusterTypeUrl ∈ next.subscribedTypes →
      (clusterTypeUrl, response.versionInfo) ∈ (stream.written ++ before).map (·.stamp)

/-- A new stream is in order. -/
theorem ordered_connect {cache : Option XdsSnapshot} (h : ∀ snapshot ∈ cache, snapshot.version ∈ seen) :
    Ordered seen { latestSnapshot := cache } where
  once := List.nodup_nil
  nonces := .nil
  nonce_le := by simp
  known := by simp
  latest := h
  current := by simp
  sent := by simp

/-- The versions that have been seen may grow. -/
theorem Ordered.mono {later : List String} (h : stream.Ordered seen) (hseen : ∀ version ∈ seen, version ∈ later) :
    stream.Ordered later :=
  { h with
    known := fun response hmem => hseen _ (h.known response hmem)
    latest := fun snapshot hmem => hseen _ (h.latest snapshot hmem) }

/-- A type is written at the latest version only where it has not been yet. -/
theorem Ordered.sendType (h : stream.Ordered seen) (hlatest : stream.latestSnapshot = some snapshot) (typeUrl : String)
    (resources : XdsResources) : (stream.sendType typeUrl snapshot.version resources).Ordered seen := by
  rcases sendType_cases stream typeUrl snapshot.version resources with
    ⟨hsame, -⟩ | ⟨hwritten, hsent, hnonce, -, hnew⟩
  · rwa [hsame]
  · have hfresh : (typeUrl, snapshot.version) ∉ stream.written.map (·.stamp) :=
      fun hmem => hnew (h.current typeUrl snapshot hlatest hmem)
    have hstamps : (stream.sendType typeUrl snapshot.version resources).written.map (·.stamp) =
        stream.written.map (·.stamp) ++ [(typeUrl, snapshot.version)] := by
      rw [hwritten, List.map_append]
      rfl
    constructor
    case once =>
      rw [hstamps]
      refine List.pairwise_append.mpr ⟨h.once, List.pairwise_singleton _ _, ?_⟩
      intro entry hentry last hlast heq
      apply hfresh
      rwa [← List.mem_singleton.mp hlast, ← heq]
    case nonces =>
      rw [hwritten, List.pairwise_append]
      refine ⟨h.nonces, List.pairwise_singleton _ _, fun response hmem last hlast => ?_⟩
      obtain rfl := List.mem_singleton.mp hlast
      exact Nat.lt_succ_of_le (h.nonce_le response hmem)
    case nonce_le =>
      intro response hmem
      rw [hwritten] at hmem
      rw [hnonce]
      rcases List.mem_append.mp hmem with hmem | hmem
      · exact Nat.le_succ_of_le (h.nonce_le response hmem)
      · obtain rfl := List.mem_singleton.mp hmem
        exact Nat.le_refl _
    case known =>
      intro response hmem
      rw [hwritten] at hmem
      rcases List.mem_append.mp hmem with hmem | hmem
      · exact h.known response hmem
      · obtain rfl := List.mem_singleton.mp hmem
        exact h.latest snapshot hlatest
    case latest =>
      rw [sendType_latestSnapshot]
      exact h.latest
    case current =>
      intro other later hlater hmem
      rw [sendType_latestSnapshot] at hlater
      rw [hstamps] at hmem
      rw [hsent]
      by_cases hother : other = typeUrl
      · obtain rfl : snapshot = later := Option.some.inj (hlatest.symm.trans hlater)
        rw [hother, Function.update_self]
      · rw [Function.update_of_ne hother]
        refine h.current other later hlater ((List.mem_append.mp hmem).resolve_right fun hlast => hother ?_)
        exact congrArg Prod.fst (List.mem_singleton.mp hlast)
    case sent =>
      intro other version hother
      rw [hstamps]
      rw [hsent] at hother
      by_cases hself : other = typeUrl
      · rw [hself, Function.update_self] at hother
        rw [hself, ← Option.some.inj hother]
        exact List.mem_append_right _ List.mem_cons_self
      · rw [Function.update_of_ne hself] at hother
        exact List.mem_append_left _ (h.sent other version hother)

/-- Sending what is subscribed keeps the responses in order. -/
theorem Ordered.sendSubscribed (h : stream.Ordered seen) : stream.sendSubscribed.Ordered seen := by
  unfold AdsStream.sendSubscribed
  split
  case h_1 snapshot hlatest =>
    split
    · exact h
    · exact (h.sendType hlatest _ _).sendType ((sendType_latestSnapshot).trans hlatest) _ _
  case h_2 => exact h

/-- A subscription keeps the stream in order. -/
theorem Ordered.subscribe (h : stream.Ordered seen) (typeUrl : String) : (stream.subscribe typeUrl).Ordered seen := by
  unfold AdsStream.subscribe
  split
  · exact h
  · exact { h with }

/-- A request buffer keeps it in order. -/
theorem Ordered.onData (h : stream.Ordered seen) (request : DiscoveryRequest) :
    (stream.onData request).Ordered seen := by
  unfold AdsStream.onData
  dsimp only
  split
  · exact (h.subscribe _).sendSubscribed
  · exact h.subscribe _

/-- A snapshot of a version that has not been seen keeps it in order, -/
theorem Ordered.newSnapshot (h : stream.Ordered seen) (hnew : snapshot.version ∉ seen) :
    Ordered (seen ++ [snapshot.version]) { stream with latestSnapshot := some snapshot } := by
  have hmono : stream.Ordered (seen ++ [snapshot.version]) := h.mono fun _ hmem => List.mem_append_left _ hmem
  refine { hmono with latest := ?_, current := ?_ }
  · intro latest hlatest
    obtain rfl := Option.some.inj hlatest
    exact List.mem_append_right _ List.mem_cons_self
  · -- no response has a version that is not among those seen
    intro typeUrl latest hlatest hmem
    obtain rfl := Option.some.inj hlatest
    obtain ⟨response, hresponse, hstamp⟩ := List.mem_map.mp hmem
    have hversion : response.versionInfo = snapshot.version := congrArg Prod.snd hstamp
    exact absurd (hversion ▸ h.known response hresponse) hnew

/-- and so does what is sent for it. -/
theorem Ordered.onSnapshot (h : stream.Ordered seen) (hnew : snapshot.version ∉ seen) :
    (stream.onSnapshot snapshot).Ordered (seen ++ [snapshot.version]) := by
  unfold AdsStream.onSnapshot
  split
  · exact (h.newSnapshot hnew).sendSubscribed
  · exact h.mono fun _ hmem => List.mem_append_left _ hmem

/-- Nothing written is nothing out of order. -/
theorem clustersFirst_of_eq (h : next.written = stream.written) : stream.ClustersFirst next := by
  intro before response after hwritten
  rw [h, List.append_assoc] at hwritten
  have hnone := List.self_eq_append_right.mp hwritten
  simp at hnone

/-- One type is answered by responses of this type. -/
theorem sendType_appends (stream : AdsStream) (typeUrl version : String) (resources : XdsResources) :
    ∃ sent, (stream.sendType typeUrl version resources).written = stream.written ++ sent ∧
      ∀ response ∈ sent, response.typeUrl = typeUrl ∧ response.versionInfo = version := by
  rcases sendType_cases stream typeUrl version resources with ⟨hsame, -⟩ | ⟨hwritten, -⟩
  · exact ⟨[], by rw [hsame, List.append_nil], by simp⟩
  · exact ⟨_, hwritten, by simp⟩

/-- The clusters of the snapshot are written before its listeners, or were already. -/
theorem Ordered.clustersFirst_sendSnapshotForTypes (h : stream.Ordered seen)
    (hlatest : stream.latestSnapshot = some snapshot) :
    stream.ClustersFirst (stream.sendSnapshotForTypes snapshot) := by
  intro before response after hwritten htype hclusters
  rw [sendSnapshotForTypes_subscribedTypes] at hclusters
  obtain ⟨clusters, hadded, hofClusters⟩ :=
    sendType_appends stream clusterTypeUrl snapshot.version (.clusters snapshot.clusters)
  obtain ⟨listeners, hlater, hofListeners⟩ :=
    sendType_appends (stream.sendType clusterTypeUrl snapshot.version (.clusters snapshot.clusters))
      listenerTypeUrl snapshot.version (.listeners snapshot.listeners)
  have hsent : (clusterTypeUrl, snapshot.version) ∈ (stream.written ++ clusters).map (·.stamp) := by
    rw [← hadded]
    refine (h.sendType hlatest clusterTypeUrl _).sent _ _ ?_
    rcases sendType_cases stream clusterTypeUrl snapshot.version (.clusters snapshot.clusters) with
      ⟨hsame, hskip⟩ | ⟨-, hupdate, -⟩
    · rw [hsame]
      exact hskip.resolve_left (not_not_intro hclusters)
    · rw [hupdate, Function.update_self]
  have hsplit : before ++ response :: after = clusters ++ listeners := by
    have hsame : stream.written ++ (before ++ response :: after) = stream.written ++ (clusters ++ listeners) := by
      rw [← List.append_assoc, ← List.append_assoc, ← hwritten, sendSnapshotForTypes, hlater, hadded]
    exact List.append_cancel_left hsame
  have hnot : response ∉ clusters := by
    intro hmem
    rw [(hofClusters response hmem).1] at htype
    exact absurd htype (by decide)
  have hversion : response.versionInfo = snapshot.version := by
    have hmem : response ∈ clusters ++ listeners := hsplit ▸ by simp
    exact (hofListeners response ((List.mem_append.mp hmem).resolve_left hnot)).2
  -- a response of listeners stands after all those of clusters
  have hprefix : ∃ more, before = clusters ++ more := by
    rcases List.append_eq_append_iff.mp hsplit with ⟨more, hclusters, htail⟩ | ⟨more, hbefore, -⟩
    · cases more with
      | nil => exact ⟨[], by rw [hclusters, List.append_nil, List.append_nil]⟩
      | cons first rest =>
        obtain ⟨rfl, -⟩ := List.cons.inj (show response :: after = first :: (rest ++ listeners) from htail)
        exact absurd (hclusters ▸ by simp) hnot
    · exact ⟨more, hbefore⟩
  obtain ⟨more, rfl⟩ := hprefix
  rw [hversion, ← List.append_assoc, List.map_append]
  exact List.mem_append_left _ hsent

/-- In what is sent at once, clusters come before listeners. -/
theorem Ordered.clustersFirst_sendSubscribed (h : stream.Ordered seen) :
    stream.ClustersFirst stream.sendSubscribed := by
  unfold AdsStream.sendSubscribed
  split
  case h_1 snapshot hlatest =>
    split
    · exact clustersFirst_of_eq rfl
    · exact h.clustersFirst_sendSnapshotForTypes hlatest
  case h_2 => exact clustersFirst_of_eq rfl

theorem subscribe_written (stream : AdsStream) (typeUrl : String) :
    (stream.subscribe typeUrl).written = stream.written := by
  unfold subscribe
  split <;> rfl

/-- The same of what is written for a request buffer, -/
theorem Ordered.clustersFirst_onData (h : stream.Ordered seen) (request : DiscoveryRequest) :
    stream.ClustersFirst (stream.onData request) := by
  unfold AdsStream.onData
  dsimp only
  split
  · intro before response after hwritten
    rw [← subscribe_written stream request.typeUrl] at hwritten ⊢
    exact (h.subscribe _).clustersFirst_sendSubscribed before response after hwritten
  · exact clustersFirst_of_eq (subscribe_written _ _)

/-- and of what is written for a snapshot. -/
theorem Ordered.clustersFirst_onSnapshot (h : stream.Ordered seen) (hnew : snapshot.version ∉ seen) :
    stream.ClustersFirst (stream.onSnapshot snapshot) := by
  unfold AdsStream.onSnapshot
  split
  · exact (h.newSnapshot hnew).clustersFirst_sendSubscribed
  · exact clustersFirst_of_eq rfl

/-- What has ended or failed neither writes nor opens again. -/
theorem sendSubscribed_of_closed (h : stream.streamClosed = true) : stream.sendSubscribed = stream := by
  unfold sendSubscribed
  split
  · rw [if_pos h]
  · rfl

/-- A closed stream writes nothing for a request buffer, -/
theorem onData_of_closed (h : stream.streamClosed = true) (request : DiscoveryRequest) :
    (stream.onData request).written = stream.written ∧ (stream.onData request).streamClosed = true := by
  have hclosed : (stream.subscribe request.typeUrl).streamClosed = true := subscribe_streamClosed.trans h
  unfold onData
  dsimp only
  rw [sendSubscribed_of_closed hclosed, ite_self]
  exact ⟨subscribe_written _ _, hclosed⟩

/-- and nothing for a snapshot. -/
theorem onSnapshot_of_closed (h : stream.streamClosed = true) (snapshot : XdsSnapshot) :
    (stream.onSnapshot snapshot).written = stream.written ∧ (stream.onSnapshot snapshot).streamClosed = true := by
  unfold onSnapshot
  split
  · have hclosed : { stream with latestSnapshot := some snapshot }.streamClosed = true := h
    rw [sendSubscribed_of_closed hclosed]
    exact ⟨rfl, h⟩
  · exact ⟨rfl, h⟩

end AdsStream

namespace XdsControlPlane

open AdsStream

variable {plane : XdsControlPlane} {stream next : AdsStream} {event : Event} {seen : List String} {i : Nat}

/-- What an event does to the stream `i`. -/
def Event.on (i : Nat) (stream : AdsStream) : Event → AdsStream
  | .connect => stream
  | .data j request => if j = i then stream.onData request else stream
  | .ended j => if j = i then stream.onEnd else stream
  | .failed j => if j = i then stream.onError else stream
  | .setSnapshot snapshot => stream.onSnapshot snapshot

/-- An event reaches every stream once. -/
theorem step_getElem? (h : plane.streams[i]? = some stream) :
    (plane.step event).streams[i]? = some (event.on i stream) := by
  cases event with
  | connect => exact List.getElem?_append_left (List.getElem?_eq_some_iff.mp h).1 ▸ h
  | setSnapshot snapshot => simp [step, Event.on, h]
  | data j request | ended j | failed j =>
    simp only [step, Event.on, List.getElem?_modify, h]
    split <;> rfl

/-- A stream of the next state was there before the event, or has just connected. -/
theorem step_getElem?_cases (h : (plane.step event).streams[i]? = some next) :
    (∃ stream, plane.streams[i]? = some stream ∧ next = event.on i stream) ∨
      event = .connect ∧ next = { latestSnapshot := plane.cache } := by
  cases hearlier : plane.streams[i]? with
  | some stream => exact .inl ⟨stream, rfl, Option.some.inj (h.symm.trans (step_getElem? hearlier))⟩
  | none =>
    have hlen := List.getElem?_eq_none_iff.mp hearlier
    cases event with
    | connect =>
      refine .inr ⟨rfl, ?_⟩
      have hmem : next ∈ [_] := List.mem_of_getElem? ((List.getElem?_append_right hlen).symm.trans h)
      exact List.mem_singleton.mp hmem
    | setSnapshot snapshot => simp [step, hearlier] at h
    | data j request | ended j | failed j => simp [step, List.getElem?_modify, hearlier] at h

def Event.snapshotVersion : Event → Option String
  | .setSnapshot snapshot => some snapshot.version
  | _ => none

/-- The versions of the snapshots that a run sets. -/
def versions (events : List Event) : List String := events.filterMap (·.snapshotVersion)

/-- The versions of a run are those before and that of the last event. -/
theorem versions_concat (events : List Event) (event : Event) :
    versions (events ++ [event]) = versions events ++ event.snapshotVersion.toList := by
  rw [versions, List.filterMap_append]
  cases event <;> rfl

/-- An event keeps a stream in order, and its version is a new one. -/
theorem on_ordered (h : stream.Ordered seen) (hnew : ∀ version ∈ event.snapshotVersion, version ∉ seen) :
    (event.on i stream).Ordered (seen ++ event.snapshotVersion.toList) ∧ stream.ClustersFirst (event.on i stream) := by
  have hsame : stream.Ordered (seen ++ []) := (List.append_nil seen).symm ▸ h
  cases event with
  | connect => exact ⟨hsame, clustersFirst_of_eq rfl⟩
  | setSnapshot snapshot => exact ⟨h.onSnapshot (hnew _ rfl), h.clustersFirst_onSnapshot (hnew _ rfl)⟩
  | data j request =>
    simp only [Event.on]
    split
    · exact ⟨hsame.onData request, h.clustersFirst_onData request⟩
    · exact ⟨hsame, clustersFirst_of_eq rfl⟩
  | ended j | failed j =>
    simp only [Event.on]
    split
    · exact ⟨{ hsame with }, clustersFirst_of_eq rfl⟩
    · exact ⟨hsame, clustersFirst_of_eq rfl⟩

/-- An event with a new version keeps every stream in order. -/
theorem step_ordered (hcache : ∀ snapshot ∈ plane.cache, snapshot.version ∈ seen)
    (h : ∀ stream ∈ plane.streams, stream.Ordered seen) (hnew : ∀ version ∈ event.snapshotVersion, version ∉ seen) :
    (∀ snapshot ∈ (plane.step event).cache, snapshot.version ∈ seen ++ event.snapshotVersion.toList) ∧
      ∀ stream ∈ (plane.step event).streams, stream.Ordered (seen ++ event.snapshotVersion.toList) := by
  constructor
  · intro snapshot hsnapshot
    cases event with
    | setSnapshot later =>
      obtain rfl := Option.some.inj hsnapshot
      exact List.mem_append_right _ List.mem_cons_self
    | connect | data j request | ended j | failed j => exact List.mem_append_left _ (hcache snapshot hsnapshot)
  · intro next hnext
    obtain ⟨i, hi⟩ := List.getElem?_of_mem hnext
    rcases step_getElem?_cases hi with ⟨stream, hstream, rfl⟩ | ⟨rfl, rfl⟩
    · exact (on_ordered (h stream (List.mem_of_getElem? hstream)) hnew).1
    · exact ordered_connect fun snapshot hsnapshot => List.mem_append_left _ (hcache snapshot hsnapshot)

/-- With distinct versions every stream is in order after any events. -/
theorem run_ordered (events : List Event) (hdistinct : (versions events).Nodup) :
    (∀ snapshot ∈ (run {} events).cache, snapshot.version ∈ versions events) ∧
      ∀ stream ∈ (run {} events).streams, stream.Ordered (versions events) := by
  induction events using List.reverseRecOn with
  | nil =>
    constructor
    · intro snapshot hsnapshot
      cases hsnapshot
    · intro stream hmem
      cases hmem
  | append_singleton events event ih =>
    rw [versions_concat] at hdistinct ⊢
    obtain ⟨hearlier, -, hnew⟩ := List.nodup_append.mp hdistinct
    rw [run, Runs.run_concat]
    refine step_ordered (ih hearlier).1 (ih hearlier).2 fun version hversion hmem => ?_
    exact hnew version hmem version (Option.mem_toList.mpr hversion) rfl

theorem on_closed (h : stream.streamClosed = true) :
    (event.on i stream).written = stream.written ∧ (event.on i stream).streamClosed = true := by
  cases event with
  | connect => exact ⟨rfl, h⟩
  | setSnapshot snapshot => exact onSnapshot_of_closed h snapshot
  | data j request =>
    simp only [Event.on]
    split
    · exact onData_of_closed h request
    · exact ⟨rfl, h⟩
  | ended j | failed j =>
    simp only [Event.on]
    split
    · exact ⟨rfl, rfl⟩
    · exact ⟨rfl, h⟩

/-- A closed stream stays as it is in every run. -/
theorem run_closed (h : plane.streams[i]? = some stream) (hclosed : stream.streamClosed = true) (events : List Event) :
    ∃ later, (run plane events).streams[i]? = some later ∧ later.written = stream.written := by
  induction events generalizing plane stream with
  | nil => exact ⟨stream, h, rfl⟩
  | cons event rest ih =>
    obtain ⟨later, hlater, hwritten⟩ := ih (step_getElem? h) (on_closed hclosed).2
    exact ⟨later, hlater, hwritten.trans (on_closed hclosed).1⟩

/-- On every stream of a run whose snapshots have different versions, a version of a
    type is written once, the nonces grow, nothing follows the end or an error, and
    the clusters of a version come before its listeners. -/
theorem run_responses {events : List Event} (hdistinct : (versions events).Nodup)
    (hstream : (run {} events).streams[i]? = some stream) :
    (stream.written.map (·.stamp)).Nodup ∧ stream.written.Pairwise (·.nonce < ·.nonce) ∧
      (∀ early event late earlier, events = early ++ event :: late → (event = .ended i ∨ event = .failed i) →
        (run {} early).streams[i]? = some earlier → stream.written = earlier.written) ∧
      ∀ early event late earlier next, events = early ++ event :: late → (run {} early).streams[i]? = some earlier →
        (run {} (early ++ [event])).streams[i]? = some next → earlier.ClustersFirst next := by
  have hordered := (run_ordered events hdistinct).2 stream (List.mem_of_getElem? hstream)
  refine ⟨hordered.once, hordered.nonces, ?_, ?_⟩
  · rintro early event late earlier rfl hends hearlier
    have hnext : (step (run {} early) event).streams[i]? = some (event.on i earlier) := step_getElem? hearlier
    have hclosed : (event.on i earlier).streamClosed = true ∧ (event.on i earlier).written = earlier.written := by
      rcases hends with rfl | rfl <;> simp [Event.on, onEnd, onError]
    obtain ⟨later, hlater, hwritten⟩ := run_closed hnext hclosed.1 late
    rw [run, Runs.run_append, Runs.run_cons] at hstream
    obtain rfl : stream = later := Option.some.inj (hstream.symm.trans hlater)
    exact hwritten.trans hclosed.2
  · rintro early event late earlier next rfl hearlier hnext
    rw [run, Runs.run_concat, step_getElem? hearlier] at hnext
    obtain rfl := Option.some.inj hnext
    rw [← List.singleton_append, ← List.append_assoc, versions, List.filterMap_append] at hdistinct
    have hprefix := (List.nodup_append.mp hdistinct).1
    rw [← versions, versions_concat] at hprefix
    obtain ⟨hseen, -, hnew⟩ := List.nodup_append.mp hprefix
    refine (on_ordered ((run_ordered early hseen).2 earlier (List.mem_of_getElem? hearlier)) ?_).2
    exact fun version hversion hmem => hnew version hmem version (Option.mem_toList.mpr hversion) rfl

/-- A client that asks for listeners first gets both types of the next snapshot,
    clusters first. -/
theorem twoSnapshots_responses :
    let events : List Event := [.setSnapshot ⟨"1", [], []⟩, .connect, .data 0 { typeUrl := listenerTypeUrl },
      .data 0 { typeUrl := clusterTypeUrl }, .setSnapshot ⟨"2", [], []⟩, .ended 0, .setSnapshot ⟨"3", [], []⟩]
    ∃ stream, (run {} events).streams[0]? = some stream ∧ (stream.written.map (·.stamp)).Nodup ∧
      stream.written.map (·.stamp) = [(listenerTypeUrl, "1"), (clusterTypeUrl, "1"), (clusterTypeUrl, "2"),
        (listenerTypeUrl, "2")] := by
  intro events
  have hdistinct : (versions events).Nodup := by decide
  exact ⟨_, rfl, (run_responses (i := 0) hdistinct rfl).1, by decide⟩

end XdsControlPlane

end CatalystRouter
