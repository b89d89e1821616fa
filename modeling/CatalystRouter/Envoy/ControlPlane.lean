import Mathlib.Logic.Function.Basic
import CatalystRouter.Envoy.Resources
import CatalystRouter.Library.Runs

namespace CatalystRouter

def clusterTypeUrl : String := "type.googleapis.com/envoy.config.cluster.v3.Cluster"

def listenerTypeUrl : String := "type.googleapis.com/envoy.config.listener.v3.Listener"

/-- A decoded `DiscoveryRequest`; protobuf gives an absent string as `""`. -/
structure DiscoveryRequest where
  versionInfo : String := ""
  typeUrl : String := ""
  responseNonce : String := ""
  errorDetail : Option (Int × String) := none
  deriving DecidableEq, Repr

/-- The resources of a response, before they are encoded. -/
inductive XdsResources where
  | clusters (clusters : List XdsCluster)
  | listeners (listeners : List XdsListener)
  deriving DecidableEq, Repr

/-- The nonce stands for its decimal numeral. -/
structure DiscoveryResponse where
  versionInfo : String
  resources : XdsResources
  typeUrl : String
  nonce : Nat
  deriving DecidableEq, Repr

/-- The bookkeeping of one `handleStream`, with the responses written so far.
    `watching` says whether the cache still calls the stream back. -/
structure AdsStream where
  subscribedTypes : List String := []
  sentVersions : String → Option String := fun _ => none
  latestSnapshot : Option XdsSnapshot
  streamNonce : Nat := 0
  streamClosed : Bool := false
  watching : Bool := true
  written : List DiscoveryResponse := []

namespace AdsStream

/-- Write one type at the snapshot's version, unless the client has not asked for
    it or has it. -/
def sendType (stream : AdsStream) (typeUrl version : String) (resources : XdsResources) : AdsStream :=
  if typeUrl ∈ stream.subscribedTypes ∧ stream.sentVersions typeUrl ≠ some version then
    { stream with
      streamNonce := stream.streamNonce + 1
      written := stream.written ++ [{ versionInfo := version, resources, typeUrl, nonce := stream.streamNonce + 1 }]
      sentVersions := Function.update stream.sentVersions typeUrl (some version) }
  else stream

/-- Clusters go first, so that they are there when listeners refer to them. -/
def sendSnapshotForTypes (stream : AdsStream) (snapshot : XdsSnapshot) : AdsStream :=
  (stream.sendType clusterTypeUrl snapshot.version (.clusters snapshot.clusters)).sendType
    listenerTypeUrl snapshot.version (.listeners snapshot.listeners)

def sendSubscribed (stream : AdsStream) : AdsStream :=
  match stream.latestSnapshot with
  | some snapshot => if stream.streamClosed then stream else stream.sendSnapshotForTypes snapshot
  | none => stream

/-- The callback of the cache. -/
def onSnapshot (stream : AdsStream) (snapshot : XdsSnapshot) : AdsStream :=
  if stream.watching then { stream with latestSnapshot := some snapshot }.sendSubscribed else stream

def subscribe (stream : AdsStream) (typeUrl : String) : AdsStream :=
  if typeUrl = "" ∨ typeUrl ∈ stream.subscribedTypes then stream
  else { stream with subscribedTypes := stream.subscribedTypes ++ [typeUrl] }

/-- A request with neither a version nor a nonce is an initial subscribe; any
    other counts as a NACK or an ACK, which are only logged. -/
def onData (stream : AdsStream) (request : DiscoveryRequest) : AdsStream :=
  let stream := stream.subscribe request.typeUrl
  if request.versionInfo = "" ∧ request.responseNonce = "" then stream.sendSubscribed else stream

/-- The handler of `end`. -/
def onEnd (stream : AdsStream) : AdsStream := { stream with streamClosed := true, watching := false }

/-- The handler of `error`, which differs in what it logs. -/
def onError (stream : AdsStream) : AdsStream := { stream with streamClosed := true, watching := false }

end AdsStream

/-- The snapshot cache and the ADS streams, in the order in which they connected. -/
structure XdsControlPlane where
  cache : Option XdsSnapshot := none
  streams : List AdsStream := []

namespace XdsControlPlane

/-- What happens to a control plane. A request that cannot be decoded is logged
    and changes nothing. -/
inductive Event where
  | connect
  | data (i : Nat) (request : DiscoveryRequest)
  | ended (i : Nat)
  | failed (i : Nat)
  | setSnapshot (snapshot : XdsSnapshot)
  deriving DecidableEq, Repr

def step (plane : XdsControlPlane) : Event → XdsControlPlane
  | .connect => { plane with streams := plane.streams ++ [{ latestSnapshot := plane.cache }] }
  | .data i request => { plane with streams := plane.streams.modify i (·.onData request) }
  | .ended i => { plane with streams := plane.streams.modify i (·.onEnd) }
  | .failed i => { plane with streams := plane.streams.modify i (·.onError) }
  | .setSnapshot snapshot => { cache := some snapshot, streams := plane.streams.map (·.onSnapshot snapshot) }

abbrev run (plane : XdsControlPlane) (events : List Event) : XdsControlPlane := Runs.run step plane events

end XdsControlPlane

end CatalystRouter
