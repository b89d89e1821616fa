import CatalystRouter.Network.Pipeline

namespace CatalystRouter

/-- The callee lets the call through to its bus. -/
def Cluster.Admits {Node : Type} (cluster : Cluster Node) (call : RemoteCall Node) : Prop :=
  ∃ client, createIBGPClient (cluster.services call.callee) call.token = .ok client ∧
    client.verify call.call = .ok ()

/-- A remote call is made by the node whose effect it is. -/
theorem Cluster.remoteCall_caller {Node : Type} {cluster : Cluster Node} {node : Node} {effect : Effect}
    {call : RemoteCall Node}
    (h : cluster.remoteCall node effect = some call) : call.caller = node := by
  have htransport {peer : PeerRecord} {c : IBGPCall} (h : cluster.transportCall node peer c = some call) :
      call.caller = node := by
    simp only [Cluster.transportCall, Option.bind_eq_bind, Option.bind_eq_some_iff] at h
    obtain ⟨endpoint, -, token, -, h⟩ := h
    split at h
    · cases h
    · obtain ⟨callee, -, h⟩ := Option.bind_eq_some_iff.mp h
      obtain rfl := Option.some.inj h
      rfl
  cases effect with
  | sendUpdate | sendKeepalive | closePeer => exact htransport h
  | updateConfig | updateRoutes => cases h

/-- So is every call that a node issues. -/
theorem Pipeline.issued_caller {Node : Type} {cluster : Cluster Node} {s : Pipeline Node} {node : Node}
    {call : RemoteCall Node} (h : call ∈ s.issued cluster node) : call.caller = node := by
  unfold issued at h
  split at h
  · obtain ⟨effect, -, heffect⟩ := List.mem_filterMap.mp h
    exact Cluster.remoteCall_caller heffect
  · cases h

section Orchestrator

variable {Node : Type}

/-- The callees that the running slot awaits. -/
def Orchestrator.awaiting (self : Orchestrator Node) : List Node :=
  match self.running with
  | some slot => slot.awaiting
  | none => []

/-- The remote calls whose dispatches have the running slot or are queued
    behind it. -/
def Orchestrator.accepted (self : Orchestrator Node) : List (RemoteCall Node) :=
  (self.running.bind fun slot => slot.origin).toList ++ self.queue.filterMap fun job => job.origin

/-- A node that has accepted calls has something queued or running. -/
theorem Orchestrator.busy_of_accepted {self : Orchestrator Node} {call : RemoteCall Node}
    (h : call ∈ self.accepted) : self.queue ≠ [] ∨ self.running ≠ none := by
  by_contra hidle
  obtain ⟨hqueue, hrunning⟩ := not_or.mp hidle
  rw [not_not] at hqueue hrunning
  simp [accepted, hqueue, hrunning] at h

end Orchestrator

namespace Pipeline

variable {Node : Type} [DecidableEq Node] {cluster : Cluster Node} {s s' : Pipeline Node}

/-! ### What a step can do -/

inductive StepShape (cluster : Cluster Node) (s : Pipeline Node) : Move Node → Pipeline Node → Prop where
  | submitted (node : Node) (action : Action) :
      StepShape cluster s (.submit node action) (s.enqueue node { action })
  | started (node : Node) (now : Int) (job : Job Node) (rest : List (Job Node))
      (hrunning : (s.node node).running = none) (hqueue : (s.node node).queue = job :: rest) :
      StepShape cluster s (.start node now)
        (s.put node
          { bus := (Bus.dispatch (cluster.config node) (s.node node).bus now job.action).bus
            queue := rest
            running := some { job with
              stages := (Bus.dispatch (cluster.config node) (s.node node).bus now job.action).stages } })
  | advanced (node : Node) (slot : Slot Node) (rest : List (List Effect))
      (hrunning : (s.node node).running = some slot) (hawaiting : slot.awaiting = []) :
      StepShape cluster s (.advance node)
        { s.put node { s.node node with
            running := some { slot with awaiting := (s.issued cluster node).map (·.callee), stages := rest } } with
          calls := s.calls ++ s.issued cluster node }
  | finished (node : Node) (slot : Slot Node) (hrunning : (s.node node).running = some slot)
      (hawaiting : slot.awaiting = []) :
      StepShape cluster s (.finish node)
        { s.put node { s.node node with running := none } with
          replies := s.replies ++ slot.origin.toList.map fun call => ⟨call, true⟩ }
  | refused (i : Nat) (call : RemoteCall Node) (fulfilled : Bool) (hcall : s.calls[i]? = some call)
      (hrefused : ¬ cluster.Admits call) :
      StepShape cluster s (.deliver i)
        { s with calls := s.calls.eraseIdx i, replies := s.replies ++ [⟨call, fulfilled⟩] }
  | accepted (i : Nat) (call : RemoteCall Node) (hcall : s.calls[i]? = some call) (hadmits : cluster.Admits call) :
      StepShape cluster s (.deliver i)
        (enqueue { s with calls := s.calls.eraseIdx i } call.callee
          { action := call.call.toAction, origin := some call })
  | settled (i : Nat) (reply : Reply Node) (slot : Slot Node) (bus : Bus) (hreply : s.replies[i]? = some reply)
      (hrunning : (s.node reply.call.caller).running = some slot) :
      StepShape cluster s (.settle i)
        (put { s with replies := s.replies.eraseIdx i } reply.call.caller
          { s.node reply.call.caller with
            bus
            running := some { slot with awaiting := slot.awaiting.erase reply.call.callee } })
  | forgotten (i : Nat) (reply : Reply Node) (hreply : s.replies[i]? = some reply)
      (hrunning : (s.node reply.call.caller).running = none) :
      StepShape cluster s (.settle i) { s with replies := s.replies.eraseIdx i }

/-- A move of the pipeline takes one of the steps of `StepShape`. -/
theorem step_shape {move : Move Node} (h : s.step cluster move = some s') : StepShape cluster s move s' := by
  cases move with
  | submit node action =>
    obtain rfl := Option.some.inj h
    exact .submitted node action
  | start node now =>
    simp only [step] at h
    split at h
    · rename_i job rest hrunning hqueue
      obtain rfl := Option.some.inj h
      exact .started node now job rest hrunning hqueue
    · cases h
  | advance node =>
    simp only [step] at h
    split at h
    · rename_i slot hrunning
      split at h
      · rename_i stage rest hawaiting hstages
        obtain rfl := Option.some.inj h
        exact .advanced node slot rest hrunning hawaiting
      · cases h
    · cases h
  | finish node =>
    simp only [step] at h
    split at h
    · rename_i slot hrunning
      split at h
      · rename_i hawaiting hstages
        have hshape : StepShape cluster s (.finish node) _ := .finished node slot hrunning hawaiting
        cases horigin : slot.origin with
        | none =>
          simp only [horigin] at h
          obtain rfl := Option.some.inj h
          rw [horigin, Option.toList_none, List.map_nil, List.append_nil] at hshape
          exact hshape
        | some call =>
          simp only [horigin] at h hshape
          obtain rfl := Option.some.inj h
          exact hshape
      · cases h
    · cases h
  | deliver i =>
    simp only [step] at h
    split at h
    · rename_i call hcall
      split at h
      · rename_i error hclient
        obtain rfl := Option.some.inj h
        refine .refused i call false hcall ?_
        rintro ⟨client, hok, -⟩
        rw [hclient] at hok
        cases hok
      · rename_i client hclient
        split at h
        · rename_i error hverify
          obtain rfl := Option.some.inj h
          refine .refused i call true hcall ?_
          rintro ⟨other, hok, hother⟩
          obtain rfl := Except.ok.inj (hclient.symm.trans hok)
          rw [hverify] at hother
          cases hother
        · rename_i hverify
          obtain rfl := Option.some.inj h
          exact .accepted i call hcall ⟨client, hclient, hverify⟩
    · cases h
  | settle i =>
    simp only [step] at h
    split at h
    · rename_i reply hreply
      split at h
      · rename_i slot hrunning
        obtain rfl := Option.some.inj h
        exact .settled i reply slot _ hreply hrunning
      · rename_i hrunning
        obtain rfl := Option.some.inj h
        exact .forgotten i reply hreply hrunning
    · cases h

/-! ### The calls that are awaited -/

@[simp] theorem put_node_self (s : Pipeline Node) (node : Node) (orchestrator : Orchestrator Node) :
    (s.put node orchestrator).node node = orchestrator := by
  simp [put]

@[simp] theorem put_node_of_ne (s : Pipeline Node) {node other : Node} (h : other ≠ node)
    (orchestrator : Orchestrator Node) : (s.put node orchestrator).node other = s.node other := by
  simp [put, h]

@[simp] theorem put_calls (s : Pipeline Node) (node : Node) (orchestrator : Orchestrator Node) :
    (s.put node orchestrator).calls = s.calls := rfl

@[simp] theorem put_replies (s : Pipeline Node) (node : Node) (orchestrator : Orchestrator Node) :
    (s.put node orchestrator).replies = s.replies := rfl

@[simp] theorem enqueue_calls (s : Pipeline Node) (node : Node) (job : Job Node) :
    (s.enqueue node job).calls = s.calls := rfl

@[simp] theorem enqueue_replies (s : Pipeline Node) (node : Node) (job : Job Node) :
    (s.enqueue node job).replies = s.replies := rfl

@[simp] theorem enqueue_awaiting (s : Pipeline Node) (node other : Node) (job : Job Node) :
    ((s.enqueue node job).node other).awaiting = (s.node other).awaiting := by
  by_cases h : other = node
  · subst h
    simp [enqueue, Orchestrator.awaiting]
  · simp [enqueue, h]

theorem enqueue_accepted_self (s : Pipeline Node) (node : Node) (job : Job Node) :
    ((s.enqueue node job).node node).accepted = (s.node node).accepted ++ job.origin.toList := by
  simp only [enqueue, put_node_self, Orchestrator.accepted, List.filterMap_append, List.append_assoc]
  cases horigin : job.origin <;> simp [horigin]

theorem enqueue_accepted_of_ne (s : Pipeline Node) {node other : Node} (h : other ≠ node) (job : Job Node) :
    ((s.enqueue node job).node other).accepted = (s.node other).accepted := by
  simp [enqueue, h]

/-- A step takes an orchestrator over unless it is of this node. -/
theorem put_of_same {A : Type} (f : Orchestrator Node → A) (s : Pipeline Node) (node : Node)
    (orchestrator : Orchestrator Node) (h : f orchestrator = f (s.node node)) (other : Node) :
    f ((s.put node orchestrator).node other) = f (s.node other) := by
  by_cases hother : other = node
  · subst hother
    rw [put_node_self, h]
  · rw [put_node_of_ne s hother]

/-- The call is one of `node` to `other`. -/
def links (node other : Node) (call : RemoteCall Node) : Bool := call.caller == node && call.callee == other

/-- Every call that a slot awaits is in one place: on its way, with its callee,
    or on its way back; and there are no others. -/
structure Accounted (s : Pipeline Node) : Prop where
  routed : ∀ node, ∀ call ∈ (s.node node).accepted, call.callee = node
  balanced : ∀ node other, (s.node node).awaiting.count other =
    s.calls.countP (links node other) + (s.node other).accepted.countP (links node other) +
      s.replies.countP fun reply => links node other reply.call

/-- An idle pipeline is accounted for. -/
theorem Idle.accounted (h : s.Idle) : s.Accounted := by
  have haccepted (node : Node) : (s.node node).accepted = [] := by
    simp [Orchestrator.accepted, h.running node, h.queue node]
  constructor
  · intro node call hcall
    rw [haccepted] at hcall
    cases hcall
  · intro node other
    simp [Orchestrator.awaiting, h.running node, haccepted, h.calls, h.replies]

/-- Erasing an entry takes it off the count. -/
theorem countP_eraseIdx {A : Type} {l : List A} {i : Nat} {a : A} (h : l[i]? = some a) (p : A → Bool) :
    l.countP p = (l.eraseIdx i).countP p + if p a then 1 else 0 := by
  obtain ⟨hi, rfl⟩ := List.getElem?_eq_some_iff.mp h
  rw [← (List.getElem_cons_eraseIdx_perm hi).countP_eq p, List.countP_cons]

/-- Calls of `node`, counted by their callee. -/
theorem count_callee {node other : Node} {calls : List (RemoteCall Node)} (h : ∀ call ∈ calls, call.caller = node) :
    (calls.map (·.callee)).count other = calls.countP (links node other) := by
  rw [List.count, List.countP_map]
  refine List.countP_congr fun call hcall => ?_
  simp [links, h call hcall]

/-- The calls of one node are not links of another. -/
theorem countP_links_of_ne {node caller other : Node} (hne : caller ≠ node) {calls : List (RemoteCall Node)}
    (h : ∀ call ∈ calls, call.caller = node) : calls.countP (links caller other) = 0 := by
  rw [List.countP_eq_zero]
  intro call hcall
  simp [links, h call hcall, Ne.symm hne]

/-- The account depends on the calls, the replies and who waits for whom. -/
theorem Accounted.congr (h : s.Accounted) (hawaiting : ∀ node, (s'.node node).awaiting = (s.node node).awaiting)
    (haccepted : ∀ node, (s'.node node).accepted = (s.node node).accepted) (hcalls : s'.calls = s.calls)
    (hreplies : s'.replies = s.replies) : s'.Accounted := by
  constructor
  · intro node
    rw [haccepted]
    exact h.routed node
  · intro node other
    rw [hawaiting, haccepted, hcalls, hreplies]
    exact h.balanced node other

/-- Every move keeps the account. -/
theorem step_accounted {move : Move Node} (h : s.Accounted) (hstep : s.step cluster move = some s') :
    s'.Accounted := by
  cases step_shape hstep with
  | submitted node action =>
    refine h.congr (fun other => enqueue_awaiting s node other _) (fun other => ?_) rfl rfl
    by_cases hother : other = node
    · subst hother
      simp [enqueue_accepted_self]
    · exact enqueue_accepted_of_ne s hother _
  | started node now job rest hrunning hqueue =>
    refine h.congr (put_of_same Orchestrator.awaiting s node _ ?_)
      (put_of_same Orchestrator.accepted s node _ ?_) rfl rfl
    · simp [Orchestrator.awaiting, hrunning]
    · cases horigin : job.origin <;> simp [Orchestrator.accepted, hrunning, hqueue, horigin]
  | advanced node slot rest hrunning hawaiting =>
    have hissued : ∀ call ∈ s.issued cluster node, call.caller = node := fun call => issued_caller
    have haccepted := put_of_same Orchestrator.accepted s node
      ({ s.node node with
        running := some { slot with awaiting := (s.issued cluster node).map (·.callee), stages := rest } } : Orchestrator Node)
      (by simp [Orchestrator.accepted, hrunning])
    refine ⟨fun other => ?_, fun other third => ?_⟩
    · rw [haccepted]
      exact h.routed other
    · have hbalanced := h.balanced other third
      rw [haccepted]
      simp only [List.countP_append, put_replies]
      by_cases hother : other = node
      · subst hother
        have hnone : (s.node other).awaiting.count third = 0 := by
          simp [Orchestrator.awaiting, hrunning, hawaiting]
        have hnew : ((s.issued cluster other).map (·.callee)).count third = _ := count_callee hissued
        simp only [put_node_self, Orchestrator.awaiting]
        omega
      · have hnew : (s.issued cluster node).countP (links other third) = 0 := countP_links_of_ne hother hissued
        rw [put_node_of_ne s hother]
        omega
  | finished node slot hrunning hawaiting =>
    have hsame := put_of_same Orchestrator.awaiting s node ({ s.node node with running := none } : Orchestrator Node)
      (by simp [Orchestrator.awaiting, hrunning, hawaiting])
    have haccepted : (s.node node).accepted = slot.origin.toList ++
        ({ s.node node with running := none } : Orchestrator Node).accepted := by
      simp [Orchestrator.accepted, hrunning]
    refine ⟨fun other call hcall => ?_, fun other third => ?_⟩
    · by_cases hother : other = node
      · subst hother
        rw [put_node_self] at hcall
        exact h.routed other call (by rw [haccepted]; exact List.mem_append_right _ hcall)
      · rw [put_node_of_ne s hother] at hcall
        exact h.routed other call hcall
    · have hbalanced := h.balanced other third
      have hanswered : (slot.origin.toList.map fun call => (⟨call, true⟩ : Reply Node)).countP
          (fun reply => links other third reply.call) = slot.origin.toList.countP (links other third) := by
        rw [List.countP_map]
        rfl
      rw [hsame]
      simp only [List.countP_append, put_calls, hanswered]
      by_cases hthird : third = node
      · subst hthird
        rw [haccepted, List.countP_append] at hbalanced
        rw [put_node_self]
        dsimp only at hbalanced ⊢
        omega
      · have hothers : slot.origin.toList.countP (links other third) = 0 := by
          rw [List.countP_eq_zero]
          intro call hcall
          have hcallee := h.routed node call (by rw [haccepted]; exact List.mem_append_left _ hcall)
          simp [links, hcallee, Ne.symm hthird]
        rw [put_node_of_ne s hthird]
        omega
  | refused i call fulfilled hcall hrefused =>
    refine ⟨h.routed, fun node other => ?_⟩
    have hbalanced := h.balanced node other
    rw [countP_eraseIdx hcall] at hbalanced
    simp only [List.countP_append, List.countP_singleton]
    omega
  | accepted i call hcall hadmits =>
    have hself := enqueue_accepted_self { s with calls := s.calls.eraseIdx i } call.callee
      { action := call.call.toAction, origin := some call }
    have hothers (other : Node) (hother : other ≠ call.callee) :=
      enqueue_accepted_of_ne { s with calls := s.calls.eraseIdx i } hother
        { action := call.call.toAction, origin := some call }
    refine ⟨fun other x hx => ?_, fun other third => ?_⟩
    · by_cases hother : other = call.callee
      · subst hother
        rw [hself, Option.toList_some] at hx
        obtain hx | hx := List.mem_append.mp hx
        · exact h.routed call.callee x hx
        · rw [List.mem_singleton.mp hx]
      · rw [hothers other hother] at hx
        exact h.routed other x hx
    · have hbalanced := h.balanced other third
      rw [countP_eraseIdx hcall] at hbalanced
      rw [enqueue_awaiting, enqueue_calls, enqueue_replies]
      by_cases hthird : third = call.callee
      · subst hthird
        rw [hself, Option.toList_some, List.countP_append, List.countP_singleton]
        dsimp only
        omega
      · have hskip : links other third call = false := by simp [links, Ne.symm hthird]
        rw [hothers third hthird]
        simp only [hskip, Bool.false_eq_true, if_false] at hbalanced
        omega
  | settled i reply slot bus hreply hrunning =>
    have haccepted := put_of_same Orchestrator.accepted { s with replies := s.replies.eraseIdx i } reply.call.caller
      ({ s.node reply.call.caller with
        bus, running := some { slot with awaiting := slot.awaiting.erase reply.call.callee } } : Orchestrator Node)
      (by simp [Orchestrator.accepted, hrunning])
    refine ⟨fun other => ?_, fun other third => ?_⟩
    · rw [haccepted]
      exact h.routed other
    · have hbalanced := h.balanced other third
      rw [countP_eraseIdx hreply] at hbalanced
      rw [haccepted, put_calls, put_replies]
      by_cases hother : other = reply.call.caller
      · subst hother
        have hslot : (s.node reply.call.caller).awaiting = slot.awaiting := by simp [Orchestrator.awaiting, hrunning]
        rw [hslot] at hbalanced
        rw [put_node_self]
        simp only [Orchestrator.awaiting, List.count_erase]
        by_cases hthird : reply.call.callee = third
        · simp only [links, hthird, beq_self_eq_true, Bool.and_true, if_true] at hbalanced ⊢
          omega
        · have hskip : links reply.call.caller third reply.call = false := by simp [links, hthird]
          simp only [hskip, beq_eq_false_iff_ne.mpr hthird, Bool.false_eq_true, if_false] at hbalanced ⊢
          omega
      · have hskip : links other third reply.call = false := by simp [links, Ne.symm hother]
        rw [put_node_of_ne _ hother]
        simp only [hskip, Bool.false_eq_true, if_false] at hbalanced
        exact hbalanced
  | forgotten i reply hreply hrunning =>
    refine ⟨h.routed, fun other third => ?_⟩
    have hbalanced := h.balanced other third
    rw [countP_eraseIdx hreply] at hbalanced
    by_cases hlinks : links other third reply.call = true
    · have hcaller : reply.call.caller = other := by
        simp only [links, Bool.and_eq_true, beq_iff_eq] at hlinks
        exact hlinks.1
      have hnone : (s.node other).awaiting.count third = 0 := by
        simp [Orchestrator.awaiting, ← hcaller, hrunning]
      rw [if_pos hlinks] at hbalanced
      omega
    · rw [if_neg hlinks] at hbalanced
      exact hbalanced

end Pipeline

end CatalystRouter
