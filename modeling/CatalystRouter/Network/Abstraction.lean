import CatalystRouter.Library.PathVector.Feasible
import CatalystRouter.Network.PathVector
import CatalystRouter.Orchestrator.KeyEffect

namespace CatalystRouter

open PathVector (Entry Item Label State Step receive receiveIf announcement guarding)

/-! For each identity, the network is a path-vector protocol run by its origin. -/

/-- Transports reach the node a peer record names. -/
def Fabric.Direct (fabric : Fabric) : Prop := ∀ peer, fabric.reaches peer = peer.name

namespace Network

/-- What the tables and the messages always satisfy. -/
structure Regular (s : Network) : Prop where
  keyed : ∀ node, Rib.RouteTable.WellKeyed (s.bus node).state
  sound : s.Sound
  distinct : ∀ env ∈ s.inFlight, (env.updates.map (·.key)).Nodup

/-- A new network is regular, whatever its allocators and peers are. -/
theorem initial_regular (alloc : String → Option PortAllocator) (peers : String → List PeerRecord) :
    (initial alloc peers).Regular where
  keyed _ := ⟨List.nodup_nil, List.nodup_nil⟩
  sound := initial_sound alloc peers
  distinct env henv := by cases henv

variable {fabric : Fabric} {s : Network} {node : String} {now : Int} {action : Action}

/-- An action of a regular network is one that the bus expects in its slot. -/
theorem Regular.slotInput_act (h : s.Regular) (fabric : Fabric) (node : String)
    (hupdate : action.isUpdate = false) : Bus.SlotInput (fabric.config node) (s.bus node) action := by
  refine ⟨h.keyed node, by rw [fabric.config_name]; exact h.sound.routes node, ?_, ?_⟩
  · intro peerInfo updates haction
    rw [haction] at hupdate
    cases hupdate
  · intro peerInfo updates haction
    rw [haction] at hupdate
    cases hupdate

/-- So is the delivery of an envelope. -/
theorem Regular.slotInput_deliver (h : s.Regular) (fabric : Fabric) {env : Envelope} (henv : env ∈ s.inFlight) :
    Bus.SlotInput (fabric.config env.receiver) (s.bus env.receiver)
      (.internalProtocolUpdate env.peerInfo env.updates) := by
  refine ⟨h.keyed _, by rw [fabric.config_name]; exact h.sound.routes _, ?_, ?_⟩
  · intro peerInfo updates haction
    obtain ⟨rfl, rfl⟩ := Action.internalProtocolUpdate.inj haction
    rw [h.sound.senders env henv]
    exact h.sound.entries env henv
  · intro peerInfo updates haction
    obtain ⟨rfl, rfl⟩ := Action.internalProtocolUpdate.inj haction
    exact h.distinct env henv

/-- Such an action keeps the network regular. -/
theorem Regular.dispatch (h : s.Regular) (hinput : Bus.SlotInput (fabric.config node) (s.bus node) action)
    (now : Int) : (s.dispatch fabric node now action).Regular := by
  refine ⟨fun other => ?_, dispatch_sound h.sound hinput.incoming now, fun env henv => ?_⟩
  · by_cases hother : other = node
    · subst hother
      rw [dispatch_bus_self]
      exact Bus.dispatch_wellKeyed _ now action (h.keyed other)
    · rw [dispatch_bus_of_ne fabric s hother]
      exact h.keyed other
  · obtain henv | henv := List.mem_append.mp henv
    · exact h.distinct env henv
    · obtain ⟨message, hmessage, rfl⟩ := List.mem_map.mp henv
      exact (Bus.dispatch_sends now hinput message hmessage).2

/-- Taking an envelope out keeps it regular as well. -/
theorem Regular.take (h : s.Regular) (i : Nat) (env : Envelope) : (s.take i env).Regular := by
  have hsubset : ∀ env' ∈ (s.take i env).inFlight, env' ∈ s.inFlight :=
    fun env' henv' => (List.eraseIdx_sublist _ _).subset henv'
  exact ⟨h.keyed, sound_of_subset h.sound (fun _ => rfl) hsubset,
    fun env' henv' => h.distinct env' (hsubset env' henv')⟩

/-! ### The abstraction -/

/-- The items about `k` among the messages from `a` to `z`. -/
def itemsOn (k : String × String) (envs : List Envelope) (a z : String) : List (Item String) :=
  (envs.filter fun env => env.sender == a && env.receiver == z).filterMap fun env =>
    (Rib.itemAt k env.updates).map UpdateItem.payload

def abstract (k : String × String) (s : Network) : State String where
  announced := (s.bus k.2).state.hasLocal k.1
  view node := (s.bus node).state.entryAt k
  received := itemsOn k s.received
  queue := itemsOn k s.inFlight

/-- The paths for `k` that `peer` relies on `node` for: the one it has installed
    from `node`, and those advertised to it that are under way and that no
    withdrawal follows. -/
def relied (s : Network) (k : String × String) (node peer : String) : List (List String) :=
  (s.abstract k).relied node peer

@[simp] theorem itemsOn_nil (k : String × String) (a z : String) : itemsOn k [] a z = [] := rfl

/-- The items on a link come in the order of the envelopes. -/
@[simp] theorem itemsOn_append (k : String × String) (first second : List Envelope) (a z : String) :
    itemsOn k (first ++ second) a z = itemsOn k first a z ++ itemsOn k second a z := by
  simp [itemsOn]

theorem itemsOn_cons (k : String × String) (env : Envelope) (rest : List Envelope) (a z : String) :
    itemsOn k (env :: rest) a z =
      (if a = env.sender ∧ z = env.receiver then ((Rib.itemAt k env.updates).map UpdateItem.payload).toList
        else []) ++ itemsOn k rest a z := by
  unfold itemsOn
  by_cases hlink : a = env.sender ∧ z = env.receiver
  · obtain ⟨rfl, rfl⟩ := hlink
    cases hitem : Rib.itemAt k env.updates <;> simp [hitem]
  · have hskip : (env.sender == a && env.receiver == z) = false := by
      rw [Bool.and_eq_false_iff, beq_eq_false_iff_ne, beq_eq_false_iff_ne]
      by_cases ha : env.sender = a
      · exact .inr fun hz => hlink ⟨ha.symm, hz.symm⟩
      · exact .inl ha
    simp [hlink, hskip]

/-- An item on a link is in an envelope of that link. -/
theorem exists_of_mem_itemsOn {k : String × String} {envs : List Envelope} {a z : String} {x : Item String}
    (h : x ∈ itemsOn k envs a z) : ∃ env ∈ envs, env.sender = a ∧ env.receiver = z := by
  obtain ⟨env, henv, -⟩ := List.mem_filterMap.mp h
  obtain ⟨hmem, hlink⟩ := List.mem_filter.mp henv
  rw [Bool.and_eq_true, beq_iff_eq, beq_iff_eq] at hlink
  exact ⟨env, hmem, hlink⟩

/-- The nodes that a batch of messages tells about `k`. -/
def recipients (fabric : Fabric) (k : String × String) (sends : List (PeerRecord × List UpdateItem)) :
    List String := (Bus.told k sends).map fabric.reaches

theorem told_cons (k : String × String) (message : PeerRecord × List UpdateItem)
    (rest : List (PeerRecord × List UpdateItem)) :
    Bus.told k (message :: rest) =
      (if (Rib.itemAt k message.2).isSome then [message.1] else []) ++ Bus.told k rest := by
  unfold Bus.told
  rw [List.filter_cons]
  split <;> rfl

/-- Posted messages append one and the same item, once for each recipient. -/
theorem itemsOn_posted {k : String × String} {x : Item String} (node : String)
    (sends : List (PeerRecord × List UpdateItem)) (htells : Bus.Says k sends x) (a z : String) :
    itemsOn k (sends.map (envelope fabric node)) a z =
      if a = node then List.replicate ((recipients fabric k sends).count z) x else [] := by
  induction sends with
  | nil => simp [recipients, Bus.told]
  | cons message rest ih =>
    have hrest := ih fun m hm => htells m (List.mem_cons_of_mem _ hm)
    rw [List.map_cons, itemsOn_cons, hrest]
    simp only [recipients, told_cons, List.map_append, List.count_append]
    by_cases ha : a = node
    · subst ha
      cases hitem : Rib.itemAt k message.2 with
      | none => simp [envelope, hitem]
      | some item =>
        have hx := htells message List.mem_cons_self item hitem
        by_cases hz : z = fabric.reaches message.1
        · subst hz
          simp only [envelope, hitem, and_self, if_true, Option.map_some, Option.toList_some, hx,
            Option.isSome_some, List.map_cons, List.map_nil, List.count_singleton_self, Nat.add_comm 1,
            List.replicate_succ, List.singleton_append]
        · have hcount : [fabric.reaches message.1].count z = 0 := by
            rw [List.count_eq_zero]
            simpa using hz
          simp [envelope, hz, Ne.symm hz]
    · simp [envelope, ha]

/-- Messages that say nothing of a key put no item of it on a link. -/
theorem itemsOn_posted_silent {k : String × String} (node : String)
    (sends : List (PeerRecord × List UpdateItem)) (hsilent : Bus.Silent k sends) (a z : String) :
    itemsOn k (sends.map (envelope fabric node)) a z = [] := by
  induction sends with
  | nil => rfl
  | cons message rest ih =>
    have hrest := ih fun m hm => hsilent m (List.mem_cons_of_mem _ hm)
    rw [List.map_cons, itemsOn_cons, hrest]
    have hnone : Rib.itemAt k (envelope fabric node message).updates = none :=
      hsilent message List.mem_cons_self
    simp [hnone]

/-- A slot at `node` rewrites `node`'s part of the abstract state and appends
    what it posts. -/
theorem abstract_dispatch (k : String × String) (fabric : Fabric) (s : Network) (node : String) (now : Int)
    (action : Action) :
    (s.dispatch fabric node now action).abstract k =
      { announced := if k.2 = node
          then (Bus.dispatch (fabric.config node) (s.bus node) now action).bus.state.hasLocal k.1
          else (s.abstract k).announced
        view := Function.update (s.abstract k).view node
          ((Bus.dispatch (fabric.config node) (s.bus node) now action).bus.state.entryAt k)
        received := (s.abstract k).received
        queue := fun a z => (s.abstract k).queue a z ++ itemsOn k (posted fabric s node now action) a z } := by
  ext1
  · by_cases hk : k.2 = node
    · simp [abstract, hk]
    · simp [abstract, hk, dispatch_bus_of_ne fabric s hk]
  · funext other
    by_cases hother : other = node
    · subst hother
      simp [abstract]
    · simp [abstract, hother, dispatch_bus_of_ne fabric s hother]
  · rfl
  · funext a z
    simp [abstract]

/-- A slot that does nothing to `k` and says nothing of it is no step of `k`'s
    protocol. -/
theorem abstract_dispatch_quiet {k : String × String}
    (hentry : (Bus.dispatch (fabric.config node) (s.bus node) now action).bus.state.entryAt k =
      (s.bus node).state.entryAt k)
    (hlocal : k.2 = node → (Bus.dispatch (fabric.config node) (s.bus node) now action).bus.state.hasLocal k.1 =
      (s.bus node).state.hasLocal k.1)
    (hsilent : Bus.Silent k (Bus.dispatch (fabric.config node) (s.bus node) now action).sends) :
    (s.dispatch fabric node now action).abstract k = s.abstract k := by
  rw [abstract_dispatch]
  simp only [posted, itemsOn_posted_silent node _ hsilent, hentry, List.append_nil]
  ext1
  · by_cases hk : k.2 = node
    · simp only [if_pos hk]
      rw [hlocal hk]
      simp [abstract, hk]
    · simp only [if_neg hk]
  · exact Function.update_eq_self node _
  · rfl
  · rfl

/-- What is known of the label of a node's own step. -/
inductive ActLabel (s : Network) (k : String × String) (node : String) (action : Action) (after : Bus) :
    Label String → Prop where
  | originate (rs : List String) (hnode : k.2 = node)
      (hpeers : ∀ r ∈ rs, ∃ peer ∈ Bus.connectedPeers after.state, peer.name = r)
      (htold : (s.bus node).state.hasLocal k.1 = false →
        ∀ peer ∈ Bus.connectedPeers after.state, peer.name ∈ rs) :
      ActLabel s k node action after (.originate rs)
  | retract (rs : List String) (hnode : k.2 = node) (haction : action = .localRouteDelete k.1)
      (hpeers : ∀ r ∈ rs, ∃ peer ∈ Bus.connectedPeers after.state, peer.name = r)
      (htold : ∀ peer ∈ Bus.connectedPeers after.state, peer.name ∈ rs)
      (hgone : after.state.hasLocal k.1 = false) : ActLabel s k node action after (.retract rs)
  | refresh (stale : Bool) (rs : List String) (e : Entry String)
      (hbefore : (s.bus node).state.entryAt k = some e)
      (hkind : stale = e.stale ∨ ∃ peerInfo, action = .internalProtocolClose peerInfo CloseCodes.transportError)
      (hpeers : ∀ r ∈ rs, ∃ peer ∈ Bus.connectedPeers after.state, peer.name = r) :
      ActLabel s k node action after (.refresh node stale rs)
  | drop (rs : List String) (e : Entry String) (hbefore : (s.bus node).state.entryAt k = some e)
      (hwithdrawn : e.hop ∈ Rib.withdrawnPeers (s.bus node).state action)
      (hpeers : ∀ r ∈ rs, ∃ peer ∈ Bus.connectedPeers after.state, peer.name = r)
      (htold : ∀ peer ∈ Bus.connectedPeers after.state, e.Exportable peer.name → peer.name ∈ rs)
      (hgone : after.state.entryAt k = none) : ActLabel s k node action after (.drop node rs)

/-- The receivers of news of a key are the peers that are told of it. -/
theorem mem_recipients (hdirect : fabric.Direct) {k : String × String}
    {sends : List (PeerRecord × List UpdateItem)} {r : String} :
    r ∈ recipients fabric k sends ↔ ∃ peer ∈ Bus.told k sends, peer.name = r := by
  have hreaches : fabric.reaches = fun peer => peer.name := funext hdirect
  simp [recipients, hreaches]

/-- Who is told something is connected after the dispatch. -/
theorem recipients_connected (hdirect : fabric.Direct)
    (hinput : Bus.SlotInput (fabric.config node) (s.bus node) action) (now : Int) (k : String × String) :
    ∀ r ∈ recipients fabric k (Bus.dispatch (fabric.config node) (s.bus node) now action).sends,
      ∃ peer ∈ Bus.connectedPeers (Bus.dispatch (fabric.config node) (s.bus node) now action).bus.state,
        peer.name = r := by
  intro r hr
  obtain ⟨peer, hpeer, hname⟩ := (mem_recipients hdirect).mp hr
  obtain ⟨updates, -, hmem, -⟩ := Bus.mem_told.mp hpeer
  exact ⟨peer, (Bus.dispatch_sends now hinput _ hmem).1, hname⟩

/-- A node's own slot is a step of the protocol of each identity, or none. -/
theorem act_abstract (hdirect : fabric.Direct) (h : s.Regular) (hupdate : action.isUpdate = false) (now : Int)
    (k : String × String) :
    (s.dispatch fabric node now action).abstract k = s.abstract k ∨
      ∃ l, Step k.2 (s.abstract k) l ((s.dispatch fabric node now action).abstract k) ∧
        ActLabel s k node action ((s.dispatch fabric node now action).bus node) l := by
  have hinput := h.slotInput_act fabric node hupdate
  have hname := fabric.config_name node
  have hpeers := recipients_connected hdirect hinput now k
  rw [dispatch_bus_self]
  have htoldOf {peer : PeerRecord}
      (hpeer : peer ∈ Bus.told k (Bus.dispatch (fabric.config node) (s.bus node) now action).sends) :
      peer.name ∈ recipients fabric k (Bus.dispatch (fabric.config node) (s.bus node) now action).sends :=
    (mem_recipients hdirect).mpr ⟨peer, hpeer, rfl⟩
  cases Bus.dispatch_keyEffect now hinput k with
  | quiet hentry hlocal hsilent hkept =>
    exact .inl (abstract_dispatch_quiet hentry (fun hk => hlocal (hk.trans hname.symm)) hsilent)
  | originated _ hk hentry hnow htells htold =>
    right
    rw [hname] at hk htells
    refine ⟨.originate _, ?_, .originate _ hk hpeers fun hfresh peer hpeer => htoldOf (htold hfresh peer hpeer)⟩
    have hpost := Step.originate (o := k.2) (s := s.abstract k)
      (recipients fabric k (Bus.dispatch (fabric.config node) (s.bus node) now action).sends)
    convert hpost using 1
    rw [abstract_dispatch]
    simp only [posted, itemsOn_posted node _ htells, hentry, hnow, if_pos hk]
    ext1
    · rfl
    · exact Function.update_eq_self node _
    · rfl
    · simp [State.post, hk]
  | retracted _ hk haction hentry hgone htells htold =>
    right
    rw [hname] at hk
    refine ⟨.retract _, ?_, .retract _ hk haction hpeers (fun peer hpeer => htoldOf (htold peer hpeer)) hgone⟩
    have hpost := Step.retract (o := k.2) (s := s.abstract k)
      (recipients fabric k (Bus.dispatch (fabric.config node) (s.bus node) now action).sends)
    convert hpost using 1
    rw [abstract_dispatch]
    simp only [posted, itemsOn_posted node _ htells, hentry, hgone, if_pos hk]
    ext1
    · rfl
    · exact Function.update_eq_self node _
    · rfl
    · simp [State.post, hk]
  | repeated e stale _ hk hbefore hafter hstale hkind htells hguard =>
    right
    rw [hname] at hk htells
    have hexport : ∀ r ∈ recipients fabric k (Bus.dispatch (fabric.config node) (s.bus node) now action).sends,
        e.Exportable r := by
      intro r hr
      obtain ⟨peer, hpeer, rfl⟩ := (mem_recipients hdirect).mp hr
      exact hguard peer hpeer
    have hview : (s.abstract k).view node = some e := hbefore
    refine ⟨_, ?_, .refresh stale _ e hbefore hkind hpeers⟩
    convert Step.refresh (o := k.2) stale hview hstale hexport using 1
    rw [abstract_dispatch]
    simp only [posted, itemsOn_posted node _ htells, hafter, if_neg hk]
    rfl
  | dropped e _ hk hwithdrawn hbefore hafter htells hguard htold =>
    right
    rw [hname] at hk
    have hexport : ∀ r ∈ recipients fabric k (Bus.dispatch (fabric.config node) (s.bus node) now action).sends,
        e.Exportable r := by
      intro r hr
      obtain ⟨peer, hpeer, rfl⟩ := (mem_recipients hdirect).mp hr
      exact hguard peer hpeer
    have hview : (s.abstract k).view node = some e := hbefore
    refine ⟨_, ?_, .drop _ e hbefore hwithdrawn hpeers
      (fun peer hpeer hexport => htoldOf (htold peer hpeer hexport)) hafter⟩
    convert Step.drop (o := k.2) hview hexport using 1
    rw [abstract_dispatch]
    simp only [posted, itemsOn_posted node _ htells, hafter, if_neg hk, State.change, announcement, hview]
    rfl
  | selected peerInfo updates item x haction =>
    rw [haction] at hupdate
    cases hupdate

/-! ### Deliveries -/

/-- How many items about `k` wait ahead of the `i`-th message on its own link. -/
def itemsAhead (k : String × String) (s : Network) (i : Nat) (env : Envelope) : Nat :=
  (itemsOn k (s.inFlight.take i) env.sender env.receiver).length

/-- The envelopes before and after the one at a position. -/
theorem inFlight_split {i : Nat} {env : Envelope} (henv : s.inFlight[i]? = some env) :
    s.inFlight = s.inFlight.take i ++ env :: s.inFlight.drop (i + 1) := by
  obtain ⟨hlt, rfl⟩ := List.getElem?_eq_some_iff.mp henv
  rw [List.getElem_cons_drop, List.take_append_drop]

/-- The queue of a link around an envelope. -/
theorem queue_split {i : Nat} {env : Envelope} (henv : s.inFlight[i]? = some env) (k : String × String)
    (a z : String) :
    (s.abstract k).queue a z = itemsOn k (s.inFlight.take i) a z ++
      ((if a = env.sender ∧ z = env.receiver then ((Rib.itemAt k env.updates).map UpdateItem.payload).toList
        else []) ++ itemsOn k (s.inFlight.drop (i + 1)) a z) := by
  rw [← itemsOn_cons, ← itemsOn_append, ← inFlight_split henv]
  rfl

/-- The queue of a link without an envelope. -/
theorem take_queue {i : Nat} (env : Envelope) (k : String × String) (a z : String) :
    ((s.take i env).abstract k).queue a z =
      itemsOn k (s.inFlight.take i) a z ++ itemsOn k (s.inFlight.drop (i + 1)) a z := by
  simp only [abstract, take, List.eraseIdx_eq_take_drop_succ, itemsOn_append]

/-- What a link has delivered, with the envelope taken from it. -/
theorem take_received {i : Nat} (env : Envelope) (k : String × String) (a z : String) :
    ((s.take i env).abstract k).received a z = (s.abstract k).received a z ++
      if a = env.sender ∧ z = env.receiver then ((Rib.itemAt k env.updates).map UpdateItem.payload).toList
      else [] := by
  simp [abstract, take, itemsOn_cons]

/-- Taking a message that does not speak of `k` is nothing to `k`'s protocol. -/
theorem abstract_take_none {i : Nat} {env : Envelope} (henv : s.inFlight[i]? = some env)
    {k : String × String} (hitem : Rib.itemAt k env.updates = none) :
    (s.take i env).abstract k = s.abstract k := by
  ext1
  · rfl
  · rfl
  · funext a z
    simp [take_received, hitem]
  · funext a z
    simp [take_queue, queue_split henv, hitem]

/-- The item of an envelope stands in the queue behind those of the envelopes ahead. -/
theorem getElem?_queue {i : Nat} {env : Envelope} (henv : s.inFlight[i]? = some env) {k : String × String}
    {item : UpdateItem} (hitem : Rib.itemAt k env.updates = some item) :
    ((s.abstract k).queue env.sender env.receiver)[itemsAhead k s i env]? = some item.payload := by
  rw [queue_split henv, itemsAhead, List.getElem?_append_right le_rfl]
  simp [hitem]

/-- Taking a message that speaks of `k` pops its item. -/
theorem abstract_take_some {i : Nat} {env : Envelope} (henv : s.inFlight[i]? = some env)
    {k : String × String} {item : UpdateItem} (hitem : Rib.itemAt k env.updates = some item) :
    (s.take i env).abstract k =
      (s.abstract k).pop env.sender env.receiver (itemsAhead k s i env) item.payload := by
  ext1
  · rfl
  · rfl
  · funext a z
    simp only [take_received, State.pop, hitem, Option.map_some, Option.toList_some]
    by_cases hlink : a = env.sender ∧ z = env.receiver
    · simp [hlink]
    · simp [hlink]
  · funext a z
    simp only [take_queue, State.pop, queue_split henv, hitem, Option.map_some, Option.toList_some]
    by_cases hlink : a = env.sender ∧ z = env.receiver
    · obtain ⟨rfl, rfl⟩ := hlink
      rw [if_pos ⟨rfl, rfl⟩, if_pos ⟨rfl, rfl⟩, itemsAhead, List.eraseIdx_append_of_length_le le_rfl]
      simp
    · simp [hlink]

/-- What is known of the label of a delivery that speaks of `k`. -/
inductive DeliverLabel (fabric : Fabric) (s : Network) (k : String × String) (i : Nat) (env : Envelope)
    (after : Bus) : Label String → Prop where
  | mk (accepted : Bool) (rs : List String) (item : UpdateItem)
      (hitem : Rib.itemAt k env.updates = some item)
      (haccepted : accepted = Bus.inboundPasses (fabric.config env.receiver) (s.bus env.receiver).state
        env.peerInfo env.updates k.1)
      (hafter : after.state.entryAt k = receiveIf accepted env.receiver env.sender
        ((s.bus env.receiver).state.entryAt k) item.payload)
      (hpeers : ∀ r ∈ rs, ∃ peer ∈ Bus.connectedPeers after.state, peer.name = r)
      (htold : after.state.entryAt k ≠ (s.bus env.receiver).state.entryAt k →
        ∀ e, guarding ((s.bus env.receiver).state.entryAt k) (after.state.entryAt k) = some e →
        after.state.entryAt k = none ∨ (fabric.config env.receiver).routePolicy = none →
        ∀ peer ∈ Bus.connectedPeers after.state, e.Exportable peer.name → peer.name ∈ rs) :
      DeliverLabel fabric s k i env after
        (.deliver env.sender env.receiver (itemsAhead k s i env) accepted rs)

/-- A delivery is a step of the protocol of each identity it speaks of. -/
theorem deliver_abstract (hdirect : fabric.Direct) (h : s.Regular) {i : Nat} {env : Envelope}
    (henv : s.inFlight[i]? = some env) (now : Int) (k : String × String) :
    ((s.take i env).dispatch fabric env.receiver now
        (.internalProtocolUpdate env.peerInfo env.updates)).abstract k = s.abstract k ∨
      ∃ l, Step k.2 (s.abstract k) l (((s.take i env).dispatch fabric env.receiver now
          (.internalProtocolUpdate env.peerInfo env.updates)).abstract k) ∧
        DeliverLabel fabric s k i env (((s.take i env).dispatch fabric env.receiver now
          (.internalProtocolUpdate env.peerInfo env.updates)).bus env.receiver) l := by
  have hmem : env ∈ s.inFlight := List.mem_of_getElem? henv
  have hinput := h.slotInput_deliver fabric hmem
  have hname := fabric.config_name env.receiver
  have hsender := h.sound.senders env hmem
  have hpeers := recipients_connected (s := s.take i env) hdirect hinput now k
  rw [take_bus] at hpeers
  rw [dispatch_bus_self, take_bus]
  have hold : (s.abstract k).view env.receiver = (s.bus env.receiver).state.entryAt k := rfl
  cases Bus.dispatch_keyEffect now hinput k with
  | originated hupdate => cases hupdate
  | retracted hupdate => cases hupdate
  | repeated e stale hupdate => cases hupdate
  | dropped e hupdate => cases hupdate
  | quiet hentry hlocal hsilent hkept =>
    have hsame := abstract_dispatch_quiet (s := s.take i env) hentry
      (fun hk => hlocal (hk.trans hname.symm)) hsilent
    rw [hsame]
    cases hitem : Rib.itemAt k env.updates with
    | none => exact .inl (abstract_take_none henv hitem)
    | some item =>
      right
      have hunmoved : receiveIf (Bus.inboundPasses (fabric.config env.receiver) (s.bus env.receiver).state
          env.peerInfo env.updates k.1) env.receiver env.sender ((s.bus env.receiver).state.entryAt k)
          item.payload = (s.bus env.receiver).state.entryAt k := by
        unfold receiveIf
        split
        · rename_i hpass
          have hreceive := hkept _ _ item rfl hitem hpass
          rwa [hname, hsender] at hreceive
        · rfl
      refine ⟨_, ?_, .mk _ [] item hitem rfl (by rw [hunmoved, hentry]) (fun r hr => by cases hr)
        fun hmoved => absurd hentry hmoved⟩
      have hstep := Step.deliver (o := k.2) (s := s.abstract k) (Bus.inboundPasses (fabric.config env.receiver)
        (s.bus env.receiver).state env.peerInfo env.updates k.1) (getElem?_queue henv hitem)
        (fun e _ r (hr : r ∈ []) => by cases hr)
      convert hstep using 1
      rw [abstract_take_some henv hitem, State.change, State.pop_view, hold, hunmoved]
      simp [announcement]
  | selected peerInfo updates item x haction hk hitem hpass hafter hannounced htells hguard htold =>
    right
    obtain ⟨rfl, rfl⟩ := Action.internalProtocolUpdate.inj haction
    rw [hname] at hk hafter hannounced
    rw [hsender] at hafter
    have hexport : ∀ e, guarding ((s.bus env.receiver).state.entryAt k)
        (receive env.receiver env.sender ((s.bus env.receiver).state.entryAt k) item.payload) = some e →
        ∀ r ∈ recipients fabric k (Bus.dispatch (fabric.config env.receiver) (s.bus env.receiver) now
          (.internalProtocolUpdate env.peerInfo env.updates)).sends, e.Exportable r := by
      intro e he r hr
      obtain ⟨peer, hpeer, rfl⟩ := (mem_recipients hdirect).mp hr
      rw [← hafter] at he
      exact hguard e he peer hpeer
    refine ⟨_, ?_, .mk true _ item hitem hpass.symm hafter hpeers fun _ e he hopen peer hpeer hexport =>
      (mem_recipients hdirect).mpr ⟨peer, htold e he hopen peer hpeer hexport, rfl⟩⟩
    have hstep := Step.deliver (o := k.2) (s := s.abstract k) true (getElem?_queue henv hitem) hexport
    convert hstep using 1
    rw [hafter] at hannounced
    rw [abstract_dispatch]
    simp only [posted, take_bus, itemsOn_posted env.receiver _ htells, hafter, if_neg hk, State.change,
      State.pop_view, receiveIf, if_true, hold, hannounced, abstract_take_some henv hitem]
    rfl

/-- No message ahead of the `i`-th is on the same link. -/
def FirstOnLink (s : Network) (i : Nat) : Prop :=
  ∀ env ∈ s.inFlight[i]?, ∀ earlier ∈ s.inFlight.take i,
    ¬ (earlier.sender = env.sender ∧ earlier.receiver = env.receiver)

instance (s : Network) (i : Nat) : Decidable (s.FirstOnLink i) :=
  inferInstanceAs (Decidable (∀ env ∈ s.inFlight[i]?, ∀ earlier ∈ s.inFlight.take i,
    ¬ (earlier.sender = env.sender ∧ earlier.receiver = env.receiver)))

/-- Messages are delivered in the order of their link. -/
def InOrder (s : Network) : Move → Prop
  | .deliver i _ => s.FirstOnLink i
  | _ => True

instance (s : Network) (move : Move) : Decidable (s.InOrder move) :=
  match move with
  | .deliver i _ => inferInstanceAs (Decidable (s.FirstOnLink i))
  | .act _ _ _ | .keepaliveSent _ _ _ | .duplicate _ | .drop _ => isTrue trivial

/-- The first envelope on its link has no items ahead. -/
theorem FirstOnLink.itemsAhead {i : Nat} (h : s.FirstOnLink i) {env : Envelope}
    (henv : s.inFlight[i]? = some env) (k : String × String) : itemsAhead k s i env = 0 := by
  have hnone : (s.inFlight.take i).filter
      (fun earlier => earlier.sender == env.sender && earlier.receiver == env.receiver) = [] := by
    rw [List.filter_eq_nil_iff]
    intro earlier hearlier hlink
    rw [Bool.and_eq_true, beq_iff_eq, beq_iff_eq] at hlink
    exact h env henv earlier hearlier hlink
  simp [Network.itemsAhead, itemsOn, hnone]

/-! ### Runs -/

/-- Every local move keeps the network regular. -/
theorem Regular.step (h : s.Regular) {move : Move} (hlocal : move.isLocal = true) :
    (s.step fabric move).Regular := by
  cases move with
  | act node now action =>
    have hupdate : action.isUpdate = false := by simpa [Move.isLocal] using hlocal
    exact h.dispatch (h.slotInput_act fabric node hupdate) now
  | deliver i now =>
    simp only [Network.step]
    cases henv : s.inFlight[i]? with
    | none => exact h
    | some env =>
      exact (h.take i env).dispatch (h.slotInput_deliver fabric (List.mem_of_getElem? henv)) now
  | keepaliveSent node peer now =>
    refine ⟨fun other => ?_, step_sound h.sound rfl, h.distinct⟩
    rw [Network.step, keepaliveSent_routes]
    exact h.keyed other
  | duplicate i =>
    refine ⟨h.keyed, step_sound h.sound rfl, fun env henv => ?_⟩
    obtain henv | henv := List.mem_append.mp henv
    · exact h.distinct env henv
    · exact h.distinct env (List.mem_of_getElem? (by simpa using henv))
  | drop i =>
    exact ⟨h.keyed, step_sound h.sound rfl, fun env henv => h.distinct env ((List.eraseIdx_sublist _ _).subset henv)⟩

/-- Every network reached by local moves is regular. -/
theorem reachable_regular {start : Network} {Allowed : Network → Move → Prop} (hstart : start.Regular)
    (hlocal : ∀ s move, Allowed s move → move.isLocal = true) (h : Reachable fabric start Allowed s) :
    s.Regular := by
  induction h with
  | start => exact hstart
  | step _ move hallowed ih => exact ih.step (hlocal _ _ hallowed)

/-- A run of the network is, for each identity, a run of its protocol, with the
    labels that the moves allow. -/
theorem reachable_run {start : Network} {Allowed : Network → Move → Prop}
    {A : State String → Label String → Prop} {k : String × String} (hdirect : fabric.Direct)
    (hstart : start.Regular) (hinitial : start.abstract k = State.initial String)
    (hreliable : ∀ s move, Allowed s move → move.isReliable = true)
    (hact : ∀ s node now action l, Reachable fabric start Allowed s → PathVector.Run k.2 A (s.abstract k) →
      Allowed s (.act node now action) →
      ActLabel s k node action ((s.dispatch fabric node now action).bus node) l → A (s.abstract k) l)
    (hdeliver : ∀ s i now env l, Reachable fabric start Allowed s → PathVector.Run k.2 A (s.abstract k) →
      Allowed s (.deliver i now) → s.inFlight[i]? = some env →
      DeliverLabel fabric s k i env (((s.take i env).dispatch fabric env.receiver now
        (.internalProtocolUpdate env.peerInfo env.updates)).bus env.receiver) l → A (s.abstract k) l)
    (h : Reachable fabric start Allowed s) : PathVector.Run k.2 A (s.abstract k) := by
  have hlocal : ∀ s move, Allowed s move → move.isLocal = true :=
    fun s move hallowed => Move.isLocal_of_isReliable (hreliable s move hallowed)
  induction h with
  | start => exact hinitial ▸ .start
  | @step s hs move hallowed ih =>
    have hregular := reachable_regular hstart hlocal hs
    cases move with
    | act node now action =>
      have hupdate : action.isUpdate = false := by simpa [Move.isLocal] using hlocal _ _ hallowed
      obtain hsame | ⟨l, hstep, hlabel⟩ := act_abstract hdirect hregular hupdate now k
      · rw [step, hsame]
        exact ih
      · exact ih.step (hact s node now action l hs ih hallowed hlabel) hstep
    | deliver i now =>
      simp only [step]
      cases henv : s.inFlight[i]? with
      | none => exact ih
      | some env =>
        obtain hsame | ⟨l, hstep, hlabel⟩ := deliver_abstract hdirect hregular henv now k
        · rw [hsame]
          exact ih
        · exact ih.step (hdeliver s i now env l hs ih hallowed henv hlabel) hstep
    | keepaliveSent node peer now =>
      have hsame : (s.step fabric (.keepaliveSent node peer now)).abstract k = s.abstract k := by
        simp only [step, abstract, keepaliveSent_routes]
      rw [hsame]
      exact ih
    | duplicate i => cases hreliable _ _ hallowed
    | drop i => cases hreliable _ _ hallowed

/-- No message in flight leaves every protocol quiet. -/
theorem quiet_abstract (hquiet : s.inFlight = []) (k : String × String) : (s.abstract k).Quiet := by
  intro a z
  simp [abstract, hquiet]

/-- A route of the table is the entry at its key. -/
theorem entryAt_of_mem (h : s.Regular) {node : String} {r : InternalRoute}
    (hr : r ∈ (s.bus node).state.internalRoutes) : (s.bus node).state.entryAt r.key = some r.entry := by
  have hview : (s.bus node).state.view r.key = some r :=
    (installedAt_eq_some_iff (h.keyed node).internalKeys).mpr ⟨hr, rfl⟩
  rw [RouteTable.entryAt, hview]
  rfl

/-- An entry is a route of the table. -/
theorem exists_of_entryAt {node : String} {k : String × String} {e : Entry String}
    (h : (s.bus node).state.entryAt k = some e) :
    ∃ r ∈ (s.bus node).state.internalRoutes, r.key = k ∧ r.entry = e := by
  obtain ⟨r, hview, hentry⟩ := Option.map_eq_some_iff.mp h
  exact ⟨r, mem_of_installedAt hview, installedAt_key hview, hentry⟩

end Network

end CatalystRouter
