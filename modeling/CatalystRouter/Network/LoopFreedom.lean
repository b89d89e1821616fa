import CatalystRouter.Network.Mesh

namespace CatalystRouter

open PathVector (Entry Item Label State receiveIf)

/-- Local route creations and deletions, transport errors, reconnections, Ticks
    and deliveries. -/
def Move.flaps : Move → Bool
  | .act _ _ (.localRouteCreate _) => true
  | .act _ _ (.localRouteDelete _) => true
  | .act _ _ (.internalProtocolClose _ code) => code == CloseCodes.transportError
  | .act _ _ (.internalProtocolOpen _ _) => true
  | .act _ _ (.internalProtocolConnected _) => true
  | .act _ _ (.tick _) => true
  | .deliver _ _ => true
  | _ => false

namespace Network

/-- The nodes that `node` has sent anything. -/
def correspondents (s : Network) (node : String) : List String :=
  ((s.received ++ s.inFlight).filter fun env => env.sender == node).map (·.receiver)

/-- What an entry of a delivered message must satisfy at `node`. -/
def FeasibleEntry (s : Network) (node sender : String) (passes : Bool) (item : UpdateItem) : Prop :=
  (passes = true → Rib.TakesEffect node (s.bus node).state.internalRoutes item →
    ∀ peer ∈ s.correspondents node, ∀ path ∈ s.relied item.key node peer, item.nodePath.length < path.length) ∧
  (passes = false → item.action = .remove →
    ∀ r ∈ (s.bus node).state.internalRoutes, r.key = item.key → r.peer.name ≠ sender)

instance (s : Network) (node sender : String) (passes : Bool) (item : UpdateItem) :
    Decidable (s.FeasibleEntry node sender passes item) :=
  inferInstanceAs (Decidable (_ ∧ _))

/-- A delivery only installs a path that is shorter than every path the node's
    peers rely on it for, and the inbound policy turns down no withdrawal by a
    route's own peer. -/
def Feasible (fabric : Fabric) (s : Network) : Move → Prop
  | .deliver i _ => ∀ env ∈ s.inFlight[i]?, ∀ item ∈ env.updates,
    s.FeasibleEntry env.receiver env.sender (Bus.inboundPasses (fabric.config env.receiver)
      (s.bus env.receiver).state env.peerInfo env.updates item.route.name) item
  | _ => True

instance (fabric : Fabric) (s : Network) (move : Move) : Decidable (s.Feasible fabric move) :=
  match move with
  | .deliver i _ => inferInstanceAs (Decidable (∀ env ∈ s.inFlight[i]?, ∀ item ∈ env.updates,
      s.FeasibleEntry env.receiver env.sender (Bus.inboundPasses (fabric.config env.receiver)
        (s.bus env.receiver).state env.peerInfo env.updates item.route.name) item))
  | .act _ _ _ | .keepaliveSent _ _ _ | .duplicate _ | .drop _ => isTrue trivial

variable {fabric : Fabric} {s : Network} {k : String × String}

theorem mem_correspondents {a z : String} (h : (s.abstract k).log a z ≠ []) : z ∈ s.correspondents a := by
  obtain ⟨x, hx⟩ := List.exists_mem_of_ne_nil _ h
  have hlog : itemsOn k (s.received ++ s.inFlight) a z = (s.abstract k).log a z := itemsOn_append k _ _ a z
  rw [← hlog] at hx
  obtain ⟨env, henv, hsender, rfl⟩ := exists_of_mem_itemsOn hx
  exact List.mem_map.mpr ⟨env, List.mem_filter.mpr ⟨henv, by simp [hsender]⟩, rfl⟩

/-- What replaces a selection is an `add` that takes effect. -/
theorem takesEffect_of_receiveIf {node sender : String} {accepted : Bool} {item : UpdateItem}
    (hkey : item.key = k) {e : Entry String}
    (hnew : receiveIf accepted node sender ((s.abstract k).view node) item.payload = some e)
    (hchanged : (s.abstract k).view node ≠ some e) :
    accepted = true ∧ Rib.TakesEffect node (s.bus node).state.internalRoutes item ∧ item.nodePath = e.path := by
  rcases PathVector.receiveIf_cases accepted node sender ((s.abstract k).view node) item.payload with
    ⟨hkept, -⟩ | ⟨path, hadd, hloop, hput⟩ | ⟨-, hgone⟩
  · exact absurd (hkept.symm.trans hnew) hchanged
  · obtain ⟨haction, rfl⟩ := UpdateItem.payload_eq_add_iff.mp hadd
    obtain rfl := Option.some.inj (hput.symm.trans hnew)
    refine ⟨?_, ⟨haction, hloop, fun r hr => ?_⟩, rfl⟩
    · cases accepted with
      | true => rfl
      | false => exact absurd hput hchanged
    · have hview : (s.abstract k).view node = some r.entry := by
        rw [← hkey]
        exact congrArg (Option.map InternalRoute.entry) hr
      rw [hview] at hput hchanged
      obtain hsame | ⟨path, hpath, -, hbetter⟩ := PathVector.receiveIf_replaces hput
      · exact absurd (congrArg some hsame.symm) hchanged
      · obtain ⟨-, rfl⟩ := UpdateItem.payload_eq_add_iff.mp hpath
        exact hbetter
  · cases hgone.symm.trans hnew

theorem deliverLabel_feasible {i : Nat} {now : Int} {env : Envelope} {after : Bus}
    {l : Label String} (henv : s.inFlight[i]? = some env) (hfirst : s.FirstOnLink i)
    (hfeasible : s.Feasible fabric (.deliver i now)) (hlabel : DeliverLabel fabric s k i env after l) :
    PathVector.Feasible (s.abstract k) l := by
  have hahead := hfirst.itemsAhead henv k
  cases hlabel with
  | mk accepted rs item hitem haccepted =>
    have hkey : item.key = k := Rib.itemAt_key hitem
    have hname : item.route.name = k.1 := congrArg Prod.fst hkey
    obtain ⟨hshorter, hrefused⟩ := hfeasible env henv item (List.mem_of_find?_eq_some hitem)
    rw [hname, ← haccepted] at hshorter hrefused
    refine ⟨hahead, fun x hx => ?_⟩
    have hqueue := getElem?_queue henv hitem
    rw [hahead, hx] at hqueue
    obtain rfl := Option.some.inj hqueue
    constructor
    · intro e hnew hchanged peer hlog path hpath
      obtain ⟨hpass, heffect, hlen⟩ := takesEffect_of_receiveIf hkey hnew hchanged
      rw [← hlen]
      exact hshorter hpass heffect peer (mem_correspondents hlog) path (hkey ▸ hpath)
    · intro hstop hremove e hview
      obtain ⟨r, hr, hrk, rfl⟩ := exists_of_entryAt hview
      exact hrefused hstop (UpdateItem.payload_eq_remove_iff.mp hremove) r hr (hrk.trans hkey.symm)

/-- Forwarding is loop-free. Whatever the nodes do on their own, when links
    deliver in order and every delivery is feasible: once no message is in
    flight, no walk along the installed routes for an identity visits a node
    twice. -/
theorem feasible_loopFree (hdirect : fabric.Direct) {alloc : String → Option PortAllocator}
    {peers : String → List PeerRecord}
    (h : Reachable fabric (initial alloc peers)
      (fun s move => move.isReliable = true ∧ s.InOrder move ∧ s.Feasible fabric move) s)
    (hquiet : s.inFlight = []) (k : String × String) {walk : List String}
    (hwalk : walk.IsChain fun a b => ∃ r ∈ (s.bus a).state.internalRoutes, r.key = k ∧ r.peer.name = b) :
    walk.Nodup := by
  have hreliable : ∀ (s : Network) (move : Move),
      move.isReliable = true ∧ s.InOrder move ∧ s.Feasible fabric move → move.isReliable = true :=
    fun s move hallowed => hallowed.1
  have hregular : s.Regular := reachable_regular (initial_regular alloc peers)
    (fun s move hallowed => Move.isLocal_of_isReliable hallowed.1) h
  have hrun : PathVector.Run k.2 PathVector.Feasible (s.abstract k) := by
    refine reachable_run hdirect (initial_regular alloc peers) rfl hreliable ?_ ?_ h
    · intro s node now action l _ _ _ hlabel
      cases hlabel <;> trivial
    · intro s i now env l hs _ hallowed henv hlabel
      exact deliverLabel_feasible henv hallowed.2.1 hallowed.2.2 hlabel
  refine PathVector.Run.loopFree (fun _ _ hl => hl) hrun (quiet_abstract hquiet k) (hwalk.imp fun a b hab => ?_)
  obtain ⟨r, hr, rfl, hpeer⟩ := hab
  exact ⟨r.entry, entryAt_of_mem hregular hr, hpeer⟩

/-- `books` travels down the line, and the session between `node-a` and
    `node-b` breaks and comes back. -/
def booksThroughFlap : List Move :=
  [.act "node-a" 1 (.localRouteCreate { name := "books", protocol := .http }), .deliver 0 2, .deliver 0 3,
    .act "node-b" 4 (.internalProtocolClose { name := "node-a" } CloseCodes.transportError),
    .act "node-a" 5 (.internalProtocolClose { name := "node-b" } CloseCodes.transportError), .deliver 0 6,
    .act "node-b" 7 (.internalProtocolOpen { name := "node-a" } none),
    .act "node-a" 8 (.internalProtocolConnected { name := "node-b" }), .deliver 0 9, .deliver 0 10]

theorem feasible_loopFree_flap :
    ["node-c", "node-b", "node-a"].IsChain (fun a b =>
      ∃ r ∈ (((initial (fun _ => none) line.peers).run .plain booksThroughFlap).bus a).state.internalRoutes,
        r.key = ("books", "node-a") ∧ r.peer.name = b) ∧
    ∀ walk : List String, walk.IsChain (fun a b =>
      ∃ r ∈ (((initial (fun _ => none) line.peers).run .plain booksThroughFlap).bus a).state.internalRoutes,
        r.key = ("books", "node-a") ∧ r.peer.name = b) → walk.Nodup := by
  have hrun : Reachable .plain (initial (fun _ => none) line.peers)
      (fun s move => move.isReliable = true ∧ s.InOrder move ∧ s.Feasible .plain move)
      ((initial (fun _ => none) line.peers).run .plain booksThroughFlap) :=
    Reachable.start.run booksThroughFlap (by decide +kernel)
  have hquiet : ((initial (fun _ => none) line.peers).run .plain booksThroughFlap).inFlight = [] := by decide +kernel
  exact ⟨by decide +kernel, fun walk hwalk => feasible_loopFree (fun _ => rfl) hrun hquiet _ hwalk⟩

def triangle : Mesh := .ofLinks [("node-o", "node-x"), ("node-o", "node-y"), ("node-x", "node-y")] (by decide)

/-- Both neighbours of `node-o` lose it, advertise their stale routes to each
    other, and each takes up the other's; then they dial `node-o` again. -/
def booksInCircles : List Move :=
  [.act "node-o" 1 (.localRouteCreate { name := "books", protocol := .http }),
    .deliver 0 2, .deliver 0 3, .deliver 0 4, .deliver 0 5,
    .act "node-x" 6 (.internalProtocolClose { name := "node-o" } CloseCodes.transportError),
    .act "node-y" 7 (.internalProtocolClose { name := "node-o" } CloseCodes.transportError),
    .act "node-o" 8 (.internalProtocolClose { name := "node-x" } CloseCodes.transportError),
    .act "node-o" 9 (.internalProtocolClose { name := "node-y" } CloseCodes.transportError),
    .deliver 0 10, .deliver 0 11,
    .act "node-o" 12 (.internalProtocolOpen { name := "node-x" } none),
    .act "node-x" 13 (.internalProtocolConnected { name := "node-o" }),
    .act "node-o" 14 (.internalProtocolOpen { name := "node-y" } none),
    .act "node-y" 15 (.internalProtocolConnected { name := "node-o" })]

/-- The triangle ends up quiet and connected, with `node-x` and `node-y` each
    forwarding to the other. -/
theorem flapping_loops :
    ¬ ∀ (mesh : Mesh) (s : Network),
      Reachable .plain (initial (fun _ => none) mesh.peers) (fun s move => move.flaps = true ∧ s.InOrder move) s →
      s.inFlight = [] → (∀ node, (s.bus node).state.AllConnected) →
      ∀ (k : String × String) (walk : List String), walk.IsChain (fun a b =>
        ∃ r ∈ (s.bus a).state.internalRoutes, r.key = k ∧ r.peer.name = b) → walk.Nodup := by
  intro hclaim
  have hrun : Reachable .plain (initial (fun _ => none) triangle.peers)
      (fun s move => move.flaps = true ∧ s.InOrder move)
      ((initial (fun _ => none) triangle.peers).run .plain booksInCircles) :=
    Reachable.start.run booksInCircles (by decide +kernel)
  have hnodes : ∀ node ∈ ["node-o", "node-x", "node-y"],
      ∀ p ∈ (((initial (fun _ => none) triangle.peers).run .plain booksInCircles).bus node).state.peers,
        p.connectionStatus = .connected := by decide +kernel
  have hactors : ∀ node ∈ actors .plain (initial (fun _ => none) triangle.peers) booksInCircles,
      node ∈ ["node-o", "node-x", "node-y"] := by decide +kernel
  have hconnected : ∀ node, (((initial (fun _ => none) triangle.peers).run .plain booksInCircles).bus
      node).state.AllConnected := by
    intro node
    by_cases hnode : node ∈ ["node-o", "node-x", "node-y"]
    · exact hnodes node hnode
    · rw [run_bus_of_notMem booksInCircles _ fun hmem => hnode (hactors node hmem)]
      exact triangle.peers_connected node
  have hloop := hclaim triangle _ hrun (by decide +kernel) hconnected ("books", "node-o")
    ["node-x", "node-y", "node-x"] (by decide +kernel)
  revert hloop
  decide

end Network

end CatalystRouter
