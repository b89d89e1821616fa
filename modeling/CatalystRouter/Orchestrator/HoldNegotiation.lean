import Mathlib.Order.Basic
import CatalystRouter.Orchestrator.Runs

namespace CatalystRouter

namespace Bus

/-- The hold time that an event offers in a message of the peer. -/
def offerOf (name : String) : Event → Option Int
  | .dispatch _ (.internalProtocolOpen peerInfo holdTime) => if peerInfo.name = name then holdTime else none
  | _ => none

/-- The hold times that a peer offers, in order. -/
def offers (name : String) (events : List Event) : List Int := events.filterMap (offerOf name)

/-- The dial of the peer succeeds. -/
def Dials (name : String) : Event → Prop
  | .dispatch _ (.internalProtocolConnected peerInfo) => peerInfo.name = name
  | _ => False

def Deletes (name : String) : Event → Prop
  | .dispatch _ (.localPeerDelete deleted) => deleted = name
  | _ => False

/-- What an event leaves of the hold time of a known peer; closing the session does
    not touch it. -/
def holdTimeAfter (name : String) (holdTime : Int) (event : Event) : Int :=
  match event with
  | .dispatch _ (.internalProtocolConnected peerInfo) => if peerInfo.name = name then 90000 else holdTime
  | event => (offerOf name event).elim holdTime (min holdTime)

variable {config : BusConfig} {bus : Bus} {name : String} {p : PeerRecord}

theorem step_holdTime (hp : bus.state.peerAt name = some p) {event : Event} (hkept : ¬ Deletes name event) :
    ∃ p', (step config bus event).state.peerAt name = some p' ∧ p'.holdTime = holdTimeAfter name p.holdTime event := by
  cases event with
  | keepaliveSent => exact ⟨p, hp, rfl⟩
  | dispatch now action =>
    rcases dispatch_peers config bus now action with ⟨hsame, hrejected⟩ | hafter
    · refine ⟨p, (congrArg (fun bus : Bus => bus.state.peerAt name) hsame).trans hp, ?_⟩
      rcases hrejected with ⟨data, rfl⟩ | ⟨peerInfo, updates, rfl⟩ <;> rfl
    · have hstep : (step config bus (.dispatch now action)).state.peerAt name =
          Rib.peerAfter now action name (some p) := (hafter name).trans (congrArg _ hp)
      rw [hstep]
      cases action with
      | localPeerDelete deleted =>
        have hother : deleted ≠ name := hkept
        exact ⟨p, if_neg hother, rfl⟩
      | internalProtocolOpen peerInfo holdTime =>
        simp only [Rib.peerAfter, Rib.namedPeer, Option.some.injEq, holdTimeAfter, offerOf]
        split
        · cases holdTime <;> exact ⟨_, rfl, rfl⟩
        · exact ⟨p, rfl, rfl⟩
      | internalProtocolConnected peerInfo =>
        simp only [Rib.peerAfter, Rib.namedPeer, Option.some.injEq, holdTimeAfter]
        split
        · exact ⟨_, rfl, rfl⟩
        · exact ⟨p, rfl, rfl⟩
      | localPeerUpdate | internalProtocolClose | internalProtocolUpdate | internalProtocolKeepalive =>
        simp only [Rib.peerAfter, holdTimeAfter, offerOf]
        split
        · exact ⟨_, rfl, rfl⟩
        · exact ⟨p, rfl, rfl⟩
      | tick tickNow =>
        refine ⟨Rib.expirePeer tickNow p, rfl, ?_⟩
        unfold Rib.expirePeer
        split <;> rfl
      | localPeerCreate | localRouteCreate | localRouteDelete | localRouteHealthUpdate => exact ⟨p, rfl, rfl⟩

theorem run_holdTime (config : BusConfig) {events : List Event} (hkept : ∀ event ∈ events, ¬ Deletes name event) :
    ∀ {bus : Bus} {p : PeerRecord}, bus.state.peerAt name = some p →
      ∃ p', (run config bus events).state.peerAt name = some p' ∧
        p'.holdTime = events.foldl (holdTimeAfter name) p.holdTime := by
  induction events with
  | nil => exact fun hp => ⟨_, hp, rfl⟩
  | cons event rest ih =>
    intro bus p hp
    obtain ⟨next, hnext, hhold⟩ := step_holdTime hp (hkept event (by simp))
    obtain ⟨last, hlast, hrest⟩ := ih (fun later hlater => hkept later (by simp [hlater])) hnext
    exact ⟨last, hlast, by rw [hrest, hhold, List.foldl_cons]⟩

/-- Between two dials the hold time only takes offers. -/
theorem foldl_holdTimeAfter {events : List Event} (hdialed : ∀ event ∈ events, ¬ Dials name event) :
    ∀ holdTime, events.foldl (holdTimeAfter name) holdTime = (offers name events).foldl min holdTime := by
  induction events with
  | nil => exact fun _ => rfl
  | cons event rest ih =>
    intro holdTime
    have hevent : holdTimeAfter name holdTime event = (offerOf name event).elim holdTime (min holdTime) := by
      have hother := hdialed event (by simp)
      unfold holdTimeAfter
      split
      · exact if_neg hother
      · rfl
    rw [List.foldl_cons, ih (fun later hlater => hdialed later (by simp [hlater])), hevent]
    unfold offers
    rw [List.filterMap_cons]
    cases offerOf name event <;> rfl

theorem foldl_min_le {holdTime : Int} {l : List Int} {bound : Int} :
    l.foldl min holdTime ≤ bound ↔ holdTime ≤ bound ∨ ∃ offer ∈ l, offer ≤ bound := by
  induction l generalizing holdTime with
  | nil => simp
  | cons first rest ih => simp [ih, or_assoc]

theorem le_foldl_min {holdTime : Int} {l : List Int} {bound : Int} :
    bound ≤ l.foldl min holdTime ↔ bound ≤ holdTime ∧ ∀ offer ∈ l, bound ≤ offer := by
  induction l generalizing holdTime with
  | nil => simp
  | cons first rest ih => simp [ih, and_assoc]

/-- Earlier offers are idle exactly when none is below the minimum without them. -/
theorem foldl_min_append_iff {holdTime : Int} {first second : List Int} :
    second.foldl min holdTime = (first ++ second).foldl min holdTime ↔
      ∀ offer ∈ first, second.foldl min holdTime ≤ offer := by
  have hbelow := le_foldl_min.mp (le_refl (second.foldl min holdTime))
  have hall := le_foldl_min.mp (le_refl ((first ++ second).foldl min holdTime))
  constructor
  · intro heq offer hmem
    rw [heq]
    exact hall.2 offer (List.mem_append_left _ hmem)
  · intro hidle
    apply le_antisymm
    · refine le_foldl_min.mpr ⟨hbelow.1, fun offer hmem => ?_⟩
      exact (List.mem_append.mp hmem).elim (hidle offer) (hbelow.2 offer)
    · exact le_foldl_min.mpr ⟨hall.1, fun offer hmem => hall.2 offer (List.mem_append_right _ hmem)⟩

/-- A session of a peer, from when it was last closed to where both directions are
    established: one dial of the node succeeds, at `now`, with the messages of the
    peer before and after it. -/
structure Session (name : String) (before : List Event) (dial : Event) (after : List Event) : Prop where
  dial : Dials name dial
  dialedOnce : ∀ event ∈ before ++ after, ¬ Dials name event
  kept : ∀ event ∈ before ++ after, ¬ Deletes name event

/-- The peer's record ends with the minimum of the default and all the offers of the
    session exactly when no offer from before the dial is below the default and
    below all later ones. -/
theorem run_holdTime_iff (config : BusConfig) (hknown : bus.state.peerAt name = some p) {before after : List Event}
    {dial : Event} (h : Session name before dial after) :
    ∃ p', (run config bus (before ++ dial :: after)).state.peerAt name = some p' ∧
      (p'.holdTime = (offers name (before ++ dial :: after)).foldl min 90000 ↔
        ∀ offer ∈ offers name before, 90000 ≤ offer ∨ ∃ later ∈ offers name after, later ≤ offer) := by
  obtain ⟨hdial, honce, hkept⟩ := h
  have hkept' : ∀ event ∈ before ++ dial :: after, ¬ Deletes name event := by
    intro event hmem hdeletes
    rcases List.mem_append.mp hmem with hbefore | hmem
    · exact hkept event (List.mem_append_left _ hbefore) hdeletes
    · rcases List.mem_cons.mp hmem with rfl | hafter
      · unfold Dials at hdial
        split at hdial
        · exact hdeletes
        · exact hdial
      · exact hkept event (List.mem_append_right _ hafter) hdeletes
  obtain ⟨p', hp', hhold⟩ := run_holdTime config hkept' hknown
  refine ⟨p', hp', ?_⟩
  have hreset (holdTime : Int) : holdTimeAfter name holdTime dial = 90000 := by
    unfold Dials at hdial
    split at hdial
    · exact if_pos hdial
    · exact hdial.elim
  have hnone : offerOf name dial = none := by
    unfold Dials at hdial
    split at hdial
    · rfl
    · exact hdial.elim
  have hoffers : offers name (before ++ dial :: after) = offers name before ++ offers name after := by
    simp [offers, hnone]
  have hafter := foldl_holdTimeAfter (fun event hmem => honce event (List.mem_append_right _ hmem)) 90000
  rw [List.foldl_append, List.foldl_cons, hreset, hafter] at hhold
  rw [hhold, hoffers, foldl_min_append_iff]
  exact forall₂_congr fun offer _ => foldl_min_le

/-- `node-a` has `node-b` in its table, and dials it at 5. -/
def negotiatingNode : Bus :=
  run { node := { name := "node-a" } } { state := newRouteTable }
    [.dispatch 1 (.localPeerCreate { name := "node-b", peerToken := some "token" })]

def dialOfB : Event := .dispatch 5 (.internalProtocolConnected { name := "node-b" })

def openOfB (now : Int) (holdTime : Int) : Event :=
  .dispatch now (.internalProtocolOpen { name := "node-b" } (some holdTime))

/-- `node-b` offers 60 s before the dial and 30 s after it. -/
theorem holdTime_negotiated :
    ∃ p', (run { node := { name := "node-a" } } negotiatingNode
        ([openOfB 3 60000] ++ dialOfB :: [openOfB 7 30000])).state.peerAt "node-b" = some p' ∧
      (p'.holdTime = 30000 ↔ ∀ offer ∈ [60000], 90000 ≤ offer ∨ ∃ later ∈ [(30000 : Int)], later ≤ offer) := by
  have hsession : Session "node-b" [openOfB 3 60000] dialOfB [openOfB 7 30000] :=
    ⟨rfl, by simp [openOfB, Dials], by simp [openOfB, Deletes]⟩
  exact run_holdTime_iff { node := { name := "node-a" } }
    (p := { name := "node-b", peerToken := some "token", connectionStatus := .initializing }) (by decide) hsession

/-- The offer comes first, and the dial forgets it. -/
theorem holdTime_forgotten :
    ∃ p', (run { node := { name := "node-a" } } negotiatingNode [openOfB 3 30000, dialOfB]).state.peerAt "node-b" =
        some p' ∧ p'.holdTime ≠ (offers "node-b" [openOfB 3 30000, dialOfB]).foldl min 90000 :=
  ⟨{ name := "node-b", peerToken := some "token", connectionStatus := .connected, lastConnected := 5, lastReceived := 5 },
    by decide, by decide⟩

end Bus

end CatalystRouter
