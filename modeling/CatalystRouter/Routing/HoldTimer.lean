import Mathlib.Data.List.Induction
import CatalystRouter.Routing.Runs

namespace CatalystRouter

namespace Rib

/-- The peer whose session an action hears from. -/
def heardFrom : Action → Option String
  | .internalProtocolOpen peerInfo _ => some peerInfo.name
  | .internalProtocolConnected peerInfo => some peerInfo.name
  | .internalProtocolUpdate peerInfo _ => some peerInfo.name
  | .internalProtocolKeepalive peerInfo => some peerInfo.name
  | _ => none

/-- The hold time of `p` once an action heard from it is handled. -/
def negotiatedHoldTime (p : PeerRecord) : Action → Int
  | .internalProtocolOpen _ (some offered) => min p.holdTime offered
  | .internalProtocolConnected _ => 90000
  | _ => p.holdTime

/-- The hold timer of `p` is running and is out by `deadline`. -/
def LapsesBy (deadline : Int) (p : PeerRecord) : Prop :=
  0 < p.holdTime ∧ 0 < p.lastReceived ∧ p.lastReceived + p.holdTime ≤ deadline

variable {nodeId : String} {now : Int} {action : Action} {name : String} {p p' : PeerRecord}

theorem holdElapsed_iff :
    holdElapsed now p = true ↔ 0 < p.holdTime ∧ 0 < p.lastReceived ∧ p.holdTime < now - p.lastReceived := by
  simp [holdElapsed, and_assoc]

theorem lapsesBy_iff {deadline : Int} : LapsesBy deadline p ↔ ∀ now, deadline < now → holdElapsed now p = true := by
  constructor
  · rintro ⟨hhold, hheard, hlapse⟩ now hnow
    exact holdElapsed_iff.mpr ⟨hhold, hheard, by omega⟩
  · intro h
    obtain ⟨hhold, hheard, hlapse⟩ := holdElapsed_iff.mp (h (deadline + 1) (by omega))
    exact ⟨hhold, hheard, by omega⟩

/-! ### What one action does to the hold timer of a peer -/

theorem peerAfter_heard (h : heardFrom action = some name) (installed : Option PeerRecord) :
    peerAfter now action name installed = installed.map (touchPeer now action) := by
  cases action with
  | internalProtocolOpen | internalProtocolConnected | internalProtocolUpdate | internalProtocolKeepalive =>
    exact if_pos h
  | _ => cases h

theorem touchPeer_lastReceived (h : heardFrom action = some name) (p : PeerRecord) :
    (touchPeer now action p).lastReceived = now := by
  cases action with
  | internalProtocolOpen | internalProtocolConnected | internalProtocolUpdate | internalProtocolKeepalive => rfl
  | _ => cases h

theorem touchPeer_holdTime (h : heardFrom action = some name) (p : PeerRecord) :
    (touchPeer now action p).holdTime = negotiatedHoldTime p action := by
  cases action with
  | internalProtocolOpen peerInfo holdTime => cases holdTime <;> rfl
  | internalProtocolConnected | internalProtocolUpdate | internalProtocolKeepalive => rfl
  | _ => cases h

/-- Nothing else touches the timer of a peer on record. -/
theorem peerAfter_unheard (h : heardFrom action ≠ some name) (hp' : peerAfter now action name (some p) = some p') :
    p'.holdTime = p.holdTime ∧ p'.lastReceived = p.lastReceived := by
  cases action with
  | internalProtocolOpen | internalProtocolConnected | internalProtocolUpdate | internalProtocolKeepalive =>
    obtain rfl : p = p' := Option.some.inj ((if_neg h).symm.trans hp')
    exact ⟨rfl, rfl⟩
  | localPeerDelete deleted =>
    simp only [peerAfter] at hp'
    split at hp'
    · cases hp'
    · obtain rfl := Option.some.inj hp'
      exact ⟨rfl, rfl⟩
  | localPeerUpdate | internalProtocolClose =>
    simp only [peerAfter] at hp'
    split at hp' <;> obtain rfl := Option.some.inj hp' <;> exact ⟨rfl, rfl⟩
  | tick tickNow =>
    obtain rfl := Option.some.inj hp'
    unfold expirePeer
    split <;> exact ⟨rfl, rfl⟩
  | localPeerCreate | localRouteCreate | localRouteDelete | localRouteHealthUpdate =>
    obtain rfl : p = p' := Option.some.inj hp'
    exact ⟨rfl, rfl⟩

/-- Nothing else connects a peer. -/
theorem peerAfter_unheard_connected (h : heardFrom action ≠ some name)
    (hp' : peerAfter now action name (some p) = some p') (hconnected : p'.connectionStatus = .connected) :
    p.connectionStatus = .connected := by
  cases action with
  | internalProtocolOpen | internalProtocolConnected | internalProtocolUpdate | internalProtocolKeepalive =>
    obtain rfl : p = p' := Option.some.inj ((if_neg h).symm.trans hp')
    exact hconnected
  | localPeerDelete deleted =>
    simp only [peerAfter] at hp'
    split at hp'
    · cases hp'
    · obtain rfl := Option.some.inj hp'
      exact hconnected
  | localPeerUpdate =>
    simp only [peerAfter] at hp'
    split at hp' <;> obtain rfl := Option.some.inj hp' <;> exact hconnected
  | internalProtocolClose =>
    simp only [peerAfter] at hp'
    split at hp' <;> obtain rfl := Option.some.inj hp'
    · cases hconnected
    · exact hconnected
  | tick tickNow =>
    obtain rfl := Option.some.inj hp'
    unfold expirePeer at hconnected
    split at hconnected
    · cases hconnected
    · exact hconnected
  | localPeerCreate | localRouteCreate | localRouteDelete | localRouteHealthUpdate =>
    obtain rfl : p = p' := Option.some.inj hp'
    exact hconnected

/-- A session that has been up never becomes one that was never up. -/
theorem peerAfter_status (hstatus : p.connectionStatus ≠ .initializing)
    (hp' : peerAfter now action name (some p) = some p') : p'.connectionStatus ≠ .initializing := by
  cases action with
  | internalProtocolOpen | internalProtocolConnected | internalProtocolClose =>
    simp only [peerAfter] at hp'
    split at hp' <;> obtain rfl := Option.some.inj hp'
    · simp [touchPeer]
    · exact hstatus
  | internalProtocolUpdate | internalProtocolKeepalive | localPeerUpdate =>
    simp only [peerAfter] at hp'
    split at hp' <;> obtain rfl := Option.some.inj hp' <;> exact hstatus
  | localPeerDelete deleted =>
    simp only [peerAfter] at hp'
    split at hp'
    · cases hp'
    · obtain rfl := Option.some.inj hp'
      exact hstatus
  | tick tickNow =>
    obtain rfl := Option.some.inj hp'
    unfold expirePeer
    split
    · simp
    · exact hstatus
  | localPeerCreate | localRouteCreate | localRouteDelete | localRouteHealthUpdate =>
    obtain rfl : p = p' := Option.some.inj hp'
    exact hstatus

/-- A peer was last heard at the clock reading of some action, or never. -/
theorem reachable_lastReceived {steps : List (Int × Action)} :
    ∀ p ∈ (run nodeId newRouteTable steps).peers, p.lastReceived = 0 ∨ ∃ step ∈ steps, p.lastReceived = step.1 := by
  induction steps using List.reverseRecOn with
  | nil => exact fun p hp => (nomatch hp)
  | append_singleton earlier step ih =>
    intro p' hp'
    have hnames := (@run_wellFormed nodeId _ newRouteTable_wellFormed (earlier ++ [step])).peerNames
    have hat := (RouteTable.peerAt_eq_some_iff hnames).mpr ⟨hp', rfl⟩
    rw [run, Runs.run_concat, act, plan_peerAt] at hat
    cases hinstalled : (run nodeId newRouteTable earlier).peerAt p'.name with
    | none =>
      rw [run] at hinstalled
      rw [hinstalled] at hat
      obtain ⟨data, -, rfl⟩ := peerAfter_none hat
      exact .inl rfl
    | some p =>
      have hp := ih p (RouteTable.mem_of_peerAt hinstalled)
      rw [run] at hinstalled
      rw [hinstalled] at hat
      by_cases hheard : heardFrom step.2 = some p'.name
      · rw [peerAfter_heard hheard, Option.map_some] at hat
        rw [← Option.some.inj hat, touchPeer_lastReceived hheard]
        exact .inr ⟨step, by simp, rfl⟩
      · rw [(peerAfter_unheard hheard hat).2]
        refine hp.imp_right ?_
        rintro ⟨other, hother, hlast⟩
        exact ⟨other, by simp [hother], hlast⟩

/-- No timer is ahead of the clock. -/
theorem reachable_heardBy {later : Int} {steps : List (Int × Action)} (hlater : ∀ step ∈ steps, step.1 ≤ later)
    {p : PeerRecord} (hp : p ∈ (run nodeId newRouteTable steps).peers) : p.lastReceived ≤ max 0 later := by
  obtain hnever | ⟨step, hstep, hlast⟩ := reachable_lastReceived p hp
  · omega
  · have hle := hlater step hstep
    omega

end Rib

end CatalystRouter
