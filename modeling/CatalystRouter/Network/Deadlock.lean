import CatalystRouter.Network.Accounts

namespace CatalystRouter

open Relation

namespace Pipeline

variable {Node : Type} [DecidableEq Node] {cluster : Cluster Node} {s s' : Pipeline Node}

/-! ### Who waits for whom -/

/-- The running slot of `node` cannot go on before `other` has dispatched an
    action: a call that its callee lets through is on its way there, or its
    dispatch is queued or running there. -/
def Waits (cluster : Cluster Node) (s : Pipeline Node) (node other : Node) : Prop :=
  ∃ call, call.caller = node ∧ call.callee = other ∧
    ((call ∈ s.calls ∧ cluster.Admits call) ∨ call ∈ (s.node other).accepted)

/-- The stage that a slot of `node` starts calls nobody who waits for `node`,
    directly or through others. -/
def Move.SparesWaiters (cluster : Cluster Node) (s : Pipeline Node) : Move Node → Prop
  | .advance node => ∀ call ∈ s.issued cluster node, cluster.Admits call →
      ¬ ReflTransGen (s.Waits cluster) call.callee node
  | _ => True

omit [DecidableEq Node] in
theorem not_waits (hcalls : s.calls = []) (haccepted : ∀ node, (s.node node).accepted = []) (node other : Node) :
    ¬ s.Waits cluster node other := by
  rintro ⟨call, -, -, ⟨hcall, -⟩ | hcall⟩
  · rw [hcalls] at hcall
    cases hcall
  · rw [haccepted] at hcall
    cases hcall

/-- One step starts no wait but those for the calls of a new stage. -/
theorem step_waits {move : Move Node} (hstep : s.step cluster move = some s') {node other : Node}
    (hwaits : s'.Waits cluster node other) :
    s.Waits cluster node other ∨ move = .advance node ∧
      ∃ call ∈ s.issued cluster node, cluster.Admits call ∧ call.callee = other := by
  obtain ⟨call, hcaller, hcallee, hwhere⟩ := hwaits
  have hsame (hcalls : s'.calls = s.calls) (haccepted : ∀ third, (s'.node third).accepted = (s.node third).accepted) :
      s.Waits cluster node other := by
    rw [hcalls, haccepted] at hwhere
    exact ⟨call, hcaller, hcallee, hwhere⟩
  cases step_shape hstep with
  | submitted third action =>
    refine .inl (hsame rfl fun fourth => ?_)
    by_cases hfourth : fourth = third
    · subst hfourth
      simp [enqueue_accepted_self]
    · exact enqueue_accepted_of_ne s hfourth _
  | started third now job rest hrunning hqueue =>
    refine .inl (hsame rfl (put_of_same Orchestrator.accepted s third _ ?_))
    cases horigin : job.origin <;> simp [Orchestrator.accepted, hrunning, hqueue, horigin]
  | advanced third slot rest hrunning hawaiting =>
    have haccepted := put_of_same Orchestrator.accepted s third
      ({ s.node third with
        running := some { slot with awaiting := (s.issued cluster third).map (·.callee), stages := rest } } : Orchestrator Node)
      (by simp [Orchestrator.accepted, hrunning])
    obtain ⟨hcall, hadmits⟩ | hcall := hwhere
    · obtain hcall | hcall := List.mem_append.mp hcall
      · exact .inl ⟨call, hcaller, hcallee, .inl ⟨hcall, hadmits⟩⟩
      · obtain rfl : third = node := (issued_caller hcall).symm.trans hcaller
        exact .inr ⟨rfl, call, hcall, hadmits, hcallee⟩
    · rw [haccepted] at hcall
      exact .inl ⟨call, hcaller, hcallee, .inr hcall⟩
  | finished third slot hrunning hawaiting =>
    obtain hcall | hcall := hwhere
    · exact .inl ⟨call, hcaller, hcallee, .inl hcall⟩
    · refine .inl ⟨call, hcaller, hcallee, .inr ?_⟩
      by_cases hother : other = third
      · subst hother
        rw [put_node_self] at hcall
        have haccepted : (s.node other).accepted = slot.origin.toList ++
            ({ s.node other with running := none } : Orchestrator Node).accepted := by
          simp [Orchestrator.accepted, hrunning]
        rw [haccepted]
        exact List.mem_append_right _ hcall
      · rwa [put_node_of_ne s hother] at hcall
  | refused i refused fulfilled hrefused hnot =>
    obtain ⟨hcall, hadmits⟩ | hcall := hwhere
    · exact .inl ⟨call, hcaller, hcallee, .inl ⟨List.mem_of_mem_eraseIdx hcall, hadmits⟩⟩
    · exact .inl ⟨call, hcaller, hcallee, .inr hcall⟩
  | accepted i delivered hdelivered hadmits =>
    obtain ⟨hcall, hadmits⟩ | hcall := hwhere
    · exact .inl ⟨call, hcaller, hcallee, .inl ⟨List.mem_of_mem_eraseIdx hcall, hadmits⟩⟩
    · by_cases hother : other = delivered.callee
      · subst hother
        rw [enqueue_accepted_self, Option.toList_some] at hcall
        obtain hcall | hcall := List.mem_append.mp hcall
        · exact .inl ⟨call, hcaller, hcallee, .inr hcall⟩
        · obtain rfl := List.mem_singleton.mp hcall
          exact .inl ⟨call, hcaller, hcallee, .inl ⟨List.mem_of_getElem? hdelivered, hadmits⟩⟩
      · rw [enqueue_accepted_of_ne _ hother] at hcall
        exact .inl ⟨call, hcaller, hcallee, .inr hcall⟩
  | settled i reply slot bus hreply hrunning =>
    refine .inl (hsame rfl (put_of_same Orchestrator.accepted { s with replies := s.replies.eraseIdx i } _ _ ?_))
    simp [Orchestrator.accepted, hrunning]
  | forgotten i reply hreply hrunning => exact .inl ⟨call, hcaller, hcallee, hwhere⟩

/-- A step that calls nobody who waits closes no cycle. -/
theorem step_acyclic {move : Move Node} (h : WaitGraph.Acyclic (s.Waits cluster))
    (hspares : move.SparesWaiters cluster s) (hstep : s.step cluster move = some s') :
    WaitGraph.Acyclic (s'.Waits cluster) := by
  cases move with
  | advance node =>
    refine h.newEdges (a := node) fun other third hwaits => ?_
    obtain hold | ⟨hmove, call, hcall, hadmits, rfl⟩ := step_waits hstep hwaits
    · exact .inl hold
    · obtain rfl := Move.advance.inj hmove
      exact .inr ⟨rfl, hspares call hcall hadmits⟩
  | submit | start | finish | deliver | settle =>
    refine h.mono fun other third hwaits => ?_
    obtain hold | ⟨hmove, -⟩ := step_waits hstep hwaits
    · exact hold
    · cases hmove

/-- What every run keeps: the accounts, and no cycle of waiting nodes. -/
theorem Reachable.invariant {start : Pipeline Node} (hstart : start.Idle)
    (h : Reachable cluster start (Move.SparesWaiters cluster) s) :
    s.Accounted ∧ WaitGraph.Acyclic (s.Waits cluster) := by
  induction h with
  | start =>
    refine ⟨hstart.accounted, WaitGraph.acyclic_of_forall_not (not_waits hstart.calls fun node => ?_)⟩
    simp [Orchestrator.accepted, hstart.running node, hstart.queue node]
  | step h move hspares hstep ih => exact ⟨step_accounted ih.1 hstep, step_acyclic ih.2 hspares hstep⟩

/-! ### Progress -/

def Enabled (cluster : Cluster Node) (s : Pipeline Node) : Prop :=
  ∃ move : Move Node, move.isInternal = true ∧ (s.step cluster move).isSome = true

theorem enabled_of_calls (h : s.calls ≠ []) : s.Enabled cluster := by
  refine ⟨.deliver 0, rfl, ?_⟩
  obtain ⟨call, rest, hcalls⟩ := List.exists_cons_of_ne_nil h
  simp only [step, hcalls, List.getElem?_cons_zero]
  split
  · rfl
  · split <;> rfl

theorem enabled_of_replies (h : s.replies ≠ []) : s.Enabled cluster := by
  refine ⟨.settle 0, rfl, ?_⟩
  obtain ⟨reply, rest, hreplies⟩ := List.exists_cons_of_ne_nil h
  simp only [step, hreplies, List.getElem?_cons_zero]
  split <;> rfl

theorem enabled_of_queue {node : Node} (hrunning : (s.node node).running = none) (hqueue : (s.node node).queue ≠ []) :
    s.Enabled cluster := by
  refine ⟨.start node 0, rfl, ?_⟩
  obtain ⟨job, rest, hqueue⟩ := List.exists_cons_of_ne_nil hqueue
  simp [step, hrunning, hqueue]

/-- A slot that awaits nothing starts its next stage or gives the queue free. -/
theorem enabled_of_slot {node : Node} {slot : Slot Node} (hrunning : (s.node node).running = some slot)
    (hawaiting : slot.awaiting = []) : s.Enabled cluster := by
  cases hstages : slot.stages with
  | nil =>
    refine ⟨.finish node, rfl, ?_⟩
    simp only [step, hrunning, hawaiting, hstages]
    split <;> rfl
  | cons stage rest =>
    refine ⟨.advance node, rfl, ?_⟩
    simp [step, hrunning, hawaiting, hstages]

/-- With the accounts balanced, a node that is stuck awaits another that has
    something to do. -/
theorem Accounted.busy_next (h : s.Accounted) (hcalls : s.calls = []) (hreplies : s.replies = []) (node : Node)
    (hbusy : (s.node node).queue ≠ [] ∨ (s.node node).running ≠ none) :
    s.Enabled cluster ∨ ∃ other, s.Waits cluster node other ∧
      ((s.node other).queue ≠ [] ∨ (s.node other).running ≠ none) := by
  cases hrunning : (s.node node).running with
  | none =>
    left
    obtain hqueue | hslot := hbusy
    · exact enabled_of_queue hrunning hqueue
    · exact absurd hrunning hslot
  | some slot =>
    cases hawaiting : slot.awaiting with
    | nil => exact .inl (enabled_of_slot hrunning hawaiting)
    | cons other rest =>
      right
      have hbalanced := h.balanced node other
      have hpos : 0 < (s.node node).awaiting.count other := by
        simp [Orchestrator.awaiting, hrunning, hawaiting]
      have haccepted : 0 < (s.node other).accepted.countP (links node other) := by
        simp only [hcalls, hreplies, List.countP_nil] at hbalanced
        omega
      obtain ⟨call, hcall, hlinks⟩ := List.countP_pos_iff.mp haccepted
      simp only [links, Bool.and_eq_true, beq_iff_eq] at hlinks
      exact ⟨other, ⟨call, hlinks.1, hlinks.2, .inr hcall⟩, Orchestrator.busy_of_accepted hcall⟩

theorem Accounted.enabled [Finite Node] (h : s.Accounted) (hacyclic : WaitGraph.Acyclic (s.Waits cluster))
    (hpending : s.Pending) : s.Enabled cluster := by
  by_cases hcalls : s.calls = []
  · by_cases hreplies : s.replies = []
    · obtain hcall | ⟨node, hbusy⟩ := hpending
      · exact absurd hcalls hcall
      · obtain ⟨-, henabled⟩ := hacyclic.exists_ready (fun _ => s.Enabled cluster)
          (fun node => h.busy_next hcalls hreplies node) hbusy
        exact henabled
    · exact enabled_of_replies hreplies
  · exact enabled_of_calls hcalls

theorem Blocked.waits {node other : Node} (h : s.Accounted) (hblocked : s.Blocked node other) :
    s.Waits cluster node other := by
  obtain ⟨-, -, job, hjob, call, horigin, hcaller⟩ := hblocked
  have haccepted : call ∈ (s.node other).accepted :=
    List.mem_append_right _ (List.mem_filterMap.mpr ⟨job, hjob, horigin⟩)
  exact ⟨call, hcaller, h.routed other call haccepted, .inr haccepted⟩

/-- A run that never calls a node that waits for the caller is free of
    deadlocks. -/
theorem Reachable.deadlockFree [Finite Node] {start : Pipeline Node} (hstart : start.Idle)
    (h : Reachable cluster start (Move.SparesWaiters cluster) s) : DeadlockFree cluster s := by
  obtain ⟨haccounted, hacyclic⟩ := h.invariant hstart
  exact ⟨hacyclic.mono fun node other => Blocked.waits haccounted, haccounted.enabled hacyclic⟩

/-- The condition is sharp: a stage that calls a node that waits for the caller
    closes a cycle. -/
theorem advance_closes_cycle {node : Node} (hstep : s.step cluster (.advance node) = some s')
    {call : RemoteCall Node} (hcall : call ∈ s.issued cluster node) (hadmits : cluster.Admits call)
    (hback : ReflTransGen (s.Waits cluster) call.callee node) : TransGen (s'.Waits cluster) node node := by
  cases step_shape hstep with
  | advanced _ slot rest hrunning hawaiting =>
    have haccepted := put_of_same Orchestrator.accepted s node
      ({ s.node node with
        running := some { slot with awaiting := (s.issued cluster node).map (·.callee), stages := rest } } : Orchestrator Node)
      (by simp [Orchestrator.accepted, hrunning])
    refine TransGen.head' ⟨call, issued_caller hcall, rfl, .inl ⟨List.mem_append_right _ hcall, hadmits⟩⟩ ?_
    refine ReflTransGen.mono (fun other third hwaits => ?_) _ _ hback
    obtain ⟨old, hcaller, hcallee, hwhere⟩ := hwaits
    refine ⟨old, hcaller, hcallee, ?_⟩
    obtain ⟨hold, hadmitted⟩ | hold := hwhere
    · exact .inl ⟨List.mem_append_left _ hold, hadmitted⟩
    · right
      rw [haccepted]
      exact hold

/-! ### Two nodes -/

instance (s : Pipeline Node) (node other : Node) : Decidable (s.Blocked node other) :=
  inferInstanceAs (Decidable ((∃ slot ∈ (s.node node).running, other ∈ slot.awaiting) ∧
    (s.node other).running ≠ none ∧ ∃ job ∈ (s.node other).queue, ∃ call ∈ job.origin, call.caller = node))

def run (cluster : Cluster Node) (s : Pipeline Node) (moves : List (Move Node)) : Option (Pipeline Node) :=
  moves.foldlM (step cluster) s

/-- Every move of the list is allowed at its turn. -/
def EachMove (cluster : Cluster Node) (Allowed : Pipeline Node → Move Node → Prop) :
    Pipeline Node → List (Move Node) → Prop
  | _, [] => True
  | s, move :: rest => Allowed s move ∧ ∀ s' ∈ s.step cluster move, EachMove cluster Allowed s' rest

instance EachMove.decidable (cluster : Cluster Node) (Allowed : Pipeline Node → Move Node → Prop)
    [∀ s move, Decidable (Allowed s move)] :
    ∀ (s : Pipeline Node) (moves : List (Move Node)), Decidable (EachMove cluster Allowed s moves)
  | _, [] => isTrue trivial
  | s, move :: rest =>
    have := fun s' : Pipeline Node => EachMove.decidable cluster Allowed s' rest
    inferInstanceAs (Decidable (Allowed s move ∧ ∀ s' ∈ s.step cluster move, EachMove cluster Allowed s' rest))

theorem Reachable.run {start : Pipeline Node} {Allowed : Pipeline Node → Move Node → Prop}
    (moves : List (Move Node)) : ∀ {s s' : Pipeline Node}, Reachable cluster start Allowed s →
      EachMove cluster Allowed s moves → s.run cluster moves = some s' → Reachable cluster start Allowed s' := by
  induction moves with
  | nil =>
    intro s s' h _ hrun
    obtain rfl := Option.some.inj hrun
    exact h
  | cons move rest ih =>
    intro s s' h hall hrun
    obtain ⟨next, hstep, hrun⟩ := Option.bind_eq_some_iff.mp hrun
    exact ih (h.step move hall.1 hstep) (hall.2 next hstep) hrun

/-- A stage that starts while nobody waits, and calls others only. -/
def Quiet (cluster : Cluster Node) (s : Pipeline Node) : Move Node → Prop
  | .advance node => s.calls = [] ∧ (∀ other, (s.node other).accepted = []) ∧
      ∀ call ∈ s.issued cluster node, call.callee ≠ node
  | _ => True

instance [Fintype Node] (cluster : Cluster Node) (s : Pipeline Node) :
    ∀ move : Move Node, Decidable (Quiet cluster s move)
  | .advance node => inferInstanceAs (Decidable (s.calls = [] ∧ (∀ other, (s.node other).accepted = []) ∧
      ∀ call ∈ s.issued cluster node, call.callee ≠ node))
  | .submit _ _ | .start _ _ | .finish _ | .deliver _ | .settle _ => isTrue trivial

omit [DecidableEq Node] in
theorem Quiet.sparesWaiters {move : Move Node} (h : Quiet cluster s move) : move.SparesWaiters cluster s := by
  cases move with
  | advance node =>
    obtain ⟨hcalls, haccepted, hothers⟩ := h
    intro call hcall _ hpath
    obtain heq | ⟨other, hwaits, -⟩ := hpath.cases_head
    · exact hothers call hcall heq
    · exact not_waits hcalls haccepted _ _ hwaits
  | submit | start | finish | deliver | settle => trivial

theorem EachMove.mono {Allowed Allowed' : Pipeline Node → Move Node → Prop}
    (hsub : ∀ s move, Allowed s move → Allowed' s move) (moves : List (Move Node)) :
    ∀ {s : Pipeline Node}, EachMove cluster Allowed s moves → EachMove cluster Allowed' s moves := by
  induction moves with
  | nil => exact fun _ => trivial
  | cons move rest ih => exact fun h => ⟨hsub _ _ h.1, fun s' hstep => ih (h.2 s' hstep)⟩

/-- `node-a` and `node-b`; a token is the name of its bearer. -/
def twoNodes : Cluster Bool where
  config node := { node := { name := if node then "node-b" else "node-a" } }
  services _ := { validateToken := fun _ _ => .ok (), decodeSub := fun token => .ok (some token) }
  serves endpoint :=
    if endpoint = "ws://node-a" then some false else if endpoint = "ws://node-b" then some true else none

def fresh : Pipeline Bool where
  node _ := { bus := { state := newRouteTable } }

theorem fresh_idle : fresh.Idle := ⟨fun _ => rfl, fun _ => rfl, rfl, rfl⟩

/-- A node configures the other as its peer and connects. -/
def peering (node : Bool) : List (Move Bool) :=
  let self := if node then "node-b" else "node-a"
  let other := if node then "node-a" else "node-b"
  [.submit node (.localPeerCreate { name := other, endpoint := some ("ws://" ++ other), peerToken := some self }),
    .start node 0, .finish node, .submit node (.internalProtocolConnected { name := other }), .start node 1,
    .advance node, .finish node]

/-- A node creates a route and starts to tell the other. -/
def announcing (node : Bool) : List (Move Bool) :=
  [.submit node (.localRouteCreate { name := if node then "films" else "books", protocol := .http }),
    .start node 2, .advance node]

instance (s : Pipeline Bool) : Decidable s.Pending :=
  inferInstanceAs (Decidable (s.calls ≠ [] ∨ ∃ node, (s.node node).queue ≠ [] ∨ (s.node node).running ≠ none))

theorem twoNodes_deadlockFree :
    ∃ s ∈ fresh.run twoNodes (peering false ++ announcing false ++ [.deliver 0]), s.Pending ∧
      DeadlockFree twoNodes s := by
  have hpending : ∃ s ∈ fresh.run twoNodes (peering false ++ announcing false ++ [.deliver 0]), s.Pending := by
    decide +kernel
  have hquiet : EachMove twoNodes (Quiet twoNodes) fresh (peering false ++ announcing false ++ [.deliver 0]) := by
    decide +kernel
  obtain ⟨s, hrun, hpending⟩ := hpending
  have hreachable := Reachable.start.run _ (hquiet.mono (fun s move => Quiet.sparesWaiters) _) hrun
  exact ⟨s, hrun, hpending, hreachable.deadlockFree fresh_idle⟩

/-- Two peers that announce a route at the same time wait for each other
    forever. -/
theorem twoNodes_deadlock :
    ¬ ∀ (Node : Type) [DecidableEq Node] [Finite Node] (cluster : Cluster Node) (start s : Pipeline Node),
      start.Idle → Reachable cluster start (fun _ _ => True) s → DeadlockFree cluster s := by
  intro hclaim
  have hblocked : ∃ s ∈ fresh.run twoNodes (peering false ++ peering true ++ announcing false ++
      announcing true ++ [.deliver 0, .deliver 0]), s.Blocked false true ∧ s.Blocked true false := by decide +kernel
  have hall : EachMove twoNodes (fun _ _ => True) fresh (peering false ++ peering true ++ announcing false ++
      announcing true ++ [.deliver 0, .deliver 0]) := by decide +kernel
  obtain ⟨s, hrun, hforth, hback⟩ := hblocked
  have hfree := hclaim Bool twoNodes fresh s fresh_idle (Reachable.start.run _ hall hrun)
  have hcycle : TransGen s.Blocked false false := .tail (.single hforth) hback
  exact hfree.acyclic false hcycle

end Pipeline

end CatalystRouter
