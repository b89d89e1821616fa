import CatalystRouter.Library.Runs
import CatalystRouter.Routing.Peers

namespace CatalystRouter

namespace Rib

variable (nodeId : String)

/-- Plan and commit one action at its clock reading. -/
def act (state : RouteTable) (step : Int × Action) : RouteTable := (plan nodeId step.1 step.2 state).newState

/-- The table after a list of actions, each at its clock reading. -/
abbrev run (state : RouteTable) (steps : List (Int × Action)) : RouteTable := Runs.run (act nodeId) state steps

/-- `C` holds of every action of the run, in the table it comes in. -/
abbrev EachStep (C : RouteTable → Int × Action → Prop) (state : RouteTable) (steps : List (Int × Action)) : Prop :=
  Runs.EachStep (act nodeId) C state steps

/-- The clock does not run backwards. -/
def ClockOrdered (steps : List (Int × Action)) : Prop := steps.Pairwise fun step later => step.1 ≤ later.1

end Rib

/-- The representation invariant: nothing is listed twice, and no route has
    passed through the node already. -/
structure RouteTable.WellFormed (nodeId : String) (state : RouteTable) : Prop where
  peerNames : (state.peers.map (·.name)).Nodup
  keyed : Rib.RouteTable.WellKeyed state
  loopFree : ∀ r ∈ state.internalRoutes, nodeId ∉ r.nodePath

namespace Rib

variable {nodeId : String}

theorem newRouteTable_wellFormed : newRouteTable.WellFormed nodeId :=
  ⟨by simp [newRouteTable], newRouteTable_wellKeyed, by simp [newRouteTable]⟩

theorem act_wellFormed {state : RouteTable} (h : state.WellFormed nodeId) (step : Int × Action) :
    (act nodeId state step).WellFormed nodeId := by
  refine ⟨plan_peerNames nodeId step.1 step.2 h.peerNames, plan_wellKeyed nodeId step.1 step.2 h.keyed, ?_⟩
  intro r hr
  cases plan_provenance nodeId step.1 step.2 state (.inl hr) with
  | kept hmem => exact h.loopFree r hmem
  | marked peerInfo old haction hmem hmarked =>
    subst hmarked
    exact h.loopFree old hmem
  | accepted peerInfo updates item haction hmem hadd hloop haccepted =>
    subst haccepted
    exact hloop

theorem run_wellFormed {state : RouteTable} (h : state.WellFormed nodeId) (steps : List (Int × Action)) :
    (run nodeId state steps).WellFormed nodeId :=
  Runs.run_invariant (I := RouteTable.WellFormed nodeId) (fun _ step hstate => act_wellFormed hstate step) h steps

/-- Whatever the actions and their payloads, peers and local routes stay named
    apart, internal routes stay apart by identity, and none loops. -/
theorem reachable_representation (nodeId : String) (steps : List (Int × Action)) :
    ((run nodeId newRouteTable steps).peers.map (·.name)).Nodup ∧
      ((run nodeId newRouteTable steps).localRoutes.map (·.name)).Nodup ∧
      ((run nodeId newRouteTable steps).internalRoutes.map fun r =>
        (routeKey r.toDataChannelDefinition, r.originNode)).Nodup ∧
      ∀ r ∈ (run nodeId newRouteTable steps).internalRoutes, nodeId ∉ r.nodePath := by
  have h := @run_wellFormed nodeId _ newRouteTable_wellFormed steps
  exact ⟨h.peerNames, h.keyed.localNames, h.keyed.internalKeys, h.loopFree⟩

end Rib

end CatalystRouter
