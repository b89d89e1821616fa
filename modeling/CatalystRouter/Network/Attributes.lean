import CatalystRouter.Network.Convergence

namespace CatalystRouter

/-! What a route carries of its origin's local route, across the network. -/

/-- Local route creations, health updates and deliveries. -/
def Move.advertises : Move → Bool
  | .act _ _ (.localRouteCreate _) => true
  | .act _ _ (.localRouteHealthUpdate _) => true
  | .deliver _ _ => true
  | _ => false

/-- What a move makes of the local route of a name at a node. -/
def Move.applyTo (node name : String) (current : Option DataChannelDefinition) : Move → Option DataChannelDefinition
  | .act actor _ action => if actor = node then action.applyTo name current else current
  | _ => current

/-- The local route that a move first creates under a name at a node. -/
def Move.creates (node name : String) : Move → Option DataChannelDefinition
  | .act actor _ (.localRouteCreate data) => if actor = node ∧ data.name = name then some data else none
  | _ => none

/-- A node's local route of a name as the first of the moves created it. -/
def createdAs (node name : String) (moves : List Move) : Option DataChannelDefinition :=
  moves.findSome? (Move.creates node name)

/-- A node's local route of a name after moves that delete nothing, but for its
    port. -/
def currentAs (node name : String) (moves : List Move) : Option DataChannelDefinition :=
  moves.foldl (Move.applyTo node name) none

section History

variable {node name : String} {moves : List Move} {move : Move}

/-- What a node has created under a name is the first channel that it was told to create. -/
@[simp] theorem createdAs_concat (node name : String) (moves : List Move) (move : Move) :
    createdAs node name (moves ++ [move]) = (createdAs node name moves).or (move.creates node name) := by
  simp [createdAs, List.findSome?_append]

/-- The current attributes follow from those before and the last move. -/
@[simp] theorem currentAs_concat (node name : String) (moves : List Move) (move : Move) :
    currentAs node name (moves ++ [move]) = move.applyTo node name (currentAs node name moves) := by
  simp [currentAs]

/-- A route has current attributes exactly if it has been created. -/
theorem currentAs_isSome (node name : String) (moves : List Move) :
    (currentAs node name moves).isSome = (createdAs node name moves).isSome := by
  induction moves using List.reverseRecOn with
  | nil => rfl
  | append_singleton moves move ih =>
    rw [createdAs_concat, currentAs_concat, Option.isSome_or, ← ih]
    cases move with
    | act actor now action =>
      by_cases hactor : actor = node
      · cases action with
        | localRouteCreate data =>
          by_cases hname : data.name = name
          · simp [Move.applyTo, Move.creates, Action.applyTo, hactor, hname]
          · simp [Move.applyTo, Move.creates, Action.applyTo, hactor, hname]
        | localRouteHealthUpdate data =>
          by_cases hname : data.name = name
          · simp [Move.applyTo, Move.creates, Action.applyTo, hactor, hname]
          · simp [Move.applyTo, Move.creates, Action.applyTo, hactor, hname]
        | _ => simp [Move.applyTo, Move.creates, Action.applyTo]
      · cases action <;> simp [Move.applyTo, Move.creates, hactor]
    | _ => simp [Move.applyTo, Move.creates]

theorem currentAs_eq_none (h : createdAs node name moves = none) : currentAs node name moves = none := by
  have hsome := currentAs_isSome node name moves
  rw [h] at hsome
  simpa using hsome

end History

/-- The first entry about an identity on a link. -/
def firstItem (k : String × String) (a z : String) (envs : List Envelope) : Option UpdateItem :=
  envs.findSome? fun env => if env.sender = a ∧ env.receiver = z then Rib.itemAt k env.updates else none

/-- The first item under a key in a list of envelopes is that of the first part, or of the
    second. -/
theorem firstItem_append (k : String × String) (a z : String) (first second : List Envelope) :
    firstItem k a z (first ++ second) = (firstItem k a z first).or (firstItem k a z second) :=
  List.findSome?_append

theorem firstItem_cons (k : String × String) (a z : String) (env : Envelope) (rest : List Envelope) :
    firstItem k a z (env :: rest) =
      (if env.sender = a ∧ env.receiver = z then Rib.itemAt k env.updates else none).or (firstItem k a z rest) := by
  unfold firstItem
  rw [List.findSome?_cons]
  cases (if env.sender = a ∧ env.receiver = z then Rib.itemAt k env.updates else none) <;> rfl

/-- The first item under a key is in one of the envelopes. -/
theorem exists_of_firstItem {k : String × String} {a z : String} {envs : List Envelope} {item : UpdateItem}
    (h : item ∈ firstItem k a z envs) :
    ∃ env ∈ envs, env.sender = a ∧ env.receiver = z ∧ item ∈ env.updates ∧ item.key = k := by
  obtain ⟨env, henv, hitem⟩ := List.exists_of_findSome?_eq_some (Option.mem_def.mp h)
  split at hitem
  · rename_i hlink
    exact ⟨env, henv, hlink.1, hlink.2, List.mem_of_find?_eq_some hitem, Rib.itemAt_key hitem⟩
  · cases hitem

/-- An envelope with an item under the key has a first one in the list. -/
theorem firstItem_isSome {k : String × String} {envs : List Envelope} {env : Envelope} (henv : env ∈ envs)
    {item : UpdateItem} (hitem : Rib.itemAt k env.updates = some item) :
    (firstItem k env.sender env.receiver envs).isSome = true := by
  unfold firstItem
  rw [List.findSome?_isSome_iff]
  exact ⟨env, henv, by simp [hitem]⟩

namespace Network

variable {mesh : Mesh} {fabric : Fabric} {s : Network} {k : String × String} {history : List Move}

theorem take_inFlight (s : Network) (i : Nat) (env : Envelope) :
    (s.take i env).inFlight = s.inFlight.take i ++ s.inFlight.drop (i + 1) :=
  List.eraseIdx_eq_take_drop_succ _ _

/-- Taking a message leaves the other links alone. -/
theorem firstItem_take_of_ne {i : Nat} {env : Envelope} (henv : s.inFlight[i]? = some env) {a z : String}
    (hlink : ¬ (env.sender = a ∧ env.receiver = z)) :
    firstItem k a z (s.take i env).inFlight = firstItem k a z s.inFlight := by
  have hsplit := congrArg (firstItem k a z) (inFlight_split henv)
  rw [hsplit, take_inFlight, firstItem_append, firstItem_append, firstItem_cons, if_neg hlink, Option.none_or]

/-- The first message of a link speaks first. -/
theorem FirstOnLink.firstItem_eq {i : Nat} (h : s.FirstOnLink i) {env : Envelope} (henv : s.inFlight[i]? = some env)
    (k : String × String) : firstItem k env.sender env.receiver s.inFlight =
      (Rib.itemAt k env.updates).or (firstItem k env.sender env.receiver (s.take i env).inFlight) := by
  have hnone : firstItem k env.sender env.receiver (s.inFlight.take i) = none := by
    unfold firstItem
    rw [List.findSome?_eq_none_iff]
    intro earlier hearlier
    exact if_neg (h env henv earlier hearlier)
  have hsplit := congrArg (firstItem k env.sender env.receiver) (inFlight_split henv)
  rw [hsplit, take_inFlight, firstItem_append, firstItem_append, firstItem_cons, hnone, if_pos ⟨rfl, rfl⟩,
    Option.none_or, Option.none_or]

theorem growing_of_advertises (s : Network) {move : Move} (h : move.advertises = true) : s.Growing move := by
  unfold Move.advertises at h
  split at h
  · refine ⟨rfl, fun node now action hmove => ?_, fun node now name hmove => ?_⟩
    · cases hmove
      trivial
    · cases hmove
  · refine ⟨rfl, fun node now action hmove => ?_, fun node now name hmove => ?_⟩
    · cases hmove
      trivial
    · cases hmove
  · refine ⟨rfl, fun node now action hmove => ?_, fun node now name hmove => ?_⟩
    · cases hmove
    · cases hmove
  · cases h

/-! ### The invariant -/

/-- The attributes of the identity's route as its origin, which has a neighbour,
    created it. -/
def FromOrigin (mesh : Mesh) (history : List Move) (k : String × String) (route : DataChannelDefinition) : Prop :=
  (∃ data ∈ createdAs k.2 k.1 history, data.attributes = route.attributes) ∧ ∃ y, mesh.graph.Adj k.2 y

/-- What is known of an entry on the wire. A sender's advertisement of its own
    route need not carry the attributes it was created with. -/
structure Carried (mesh : Mesh) (history : List Move) (sender : String) (item : UpdateItem) : Prop where
  add : item.action = .add
  relayed : item.originNode ≠ sender → FromOrigin mesh history item.key item.route
  own : item.originNode = sender → (createdAs sender item.route.name history).isSome = true

/-- Local routes are what the moves made of them, and internal routes are fresh
    and have the attributes they were created with. -/
structure Traced (mesh : Mesh) (history : List Move) (s : Network) : Prop where
  locals : ∀ node name, ((s.bus node).state.localNamed name).map DataChannelDefinition.attributes =
    (currentAs node name history).map DataChannelDefinition.attributes
  routes : ∀ node k, ∀ r ∈ (s.bus node).state.view k,
    r.isStale = false ∧ FromOrigin mesh history k r.toDataChannelDefinition
  wire : ∀ env ∈ s.inFlight, ∀ item ∈ env.updates, Carried mesh history env.sender item

/-- A neighbour of the origin holds a route that no advertisement betters, or the
    first to reach it has the attributes the route was created with. -/
def FirstHops (mesh : Mesh) (history : List Move) (s : Network) : Prop :=
  ∀ node name, ∀ data ∈ createdAs node name history, ∀ y, mesh.graph.Adj node y →
    (∃ r ∈ (s.bus y).state.view (name, node), r.nodePath.length ≤ 1) ∨
      ∃ item ∈ firstItem (name, node) node y s.inFlight, item.route.attributes = data.attributes

/-- In a new network nothing has been created, learned or sent. -/
theorem initial_traced (mesh : Mesh) (alloc : String → Option PortAllocator) :
    (initial alloc mesh.peers).Traced mesh [] where
  locals _ _ := rfl
  routes _ _ r hr := by cases hr
  wire env henv := by cases henv

/-- In a new network no route has been created. -/
theorem initial_firstHops (mesh : Mesh) (alloc : String → Option PortAllocator) :
    (initial alloc mesh.peers).FirstHops mesh [] := by
  intro node name data hdata
  cases hdata

/-- What has been created stays so. -/
theorem createdAs_concat_of_mem {node name : String} {data : DataChannelDefinition}
    (h : data ∈ createdAs node name history) (move : Move) : data ∈ createdAs node name (history ++ [move]) := by
  rw [createdAs_concat, Option.mem_def.mp h]
  rfl

/-- A route that goes back to its origin still does after another move. -/
theorem FromOrigin.concat {route : DataChannelDefinition} (h : FromOrigin mesh history k route) (move : Move) :
    FromOrigin mesh (history ++ [move]) k route := by
  obtain ⟨⟨data, hdata, hattributes⟩, hneighbour⟩ := h
  exact ⟨⟨data, createdAs_concat_of_mem hdata move, hattributes⟩, hneighbour⟩

/-- Where a route comes from depends on its attributes only. -/
theorem FromOrigin.congr {route route' : DataChannelDefinition} (h : FromOrigin mesh history k route)
    (heq : route.attributes = route'.attributes) : FromOrigin mesh history k route' := by
  obtain ⟨⟨data, hdata, hattributes⟩, hneighbour⟩ := h
  exact ⟨⟨data, hdata, hattributes.trans heq⟩, hneighbour⟩

theorem Carried.concat {sender : String} {item : UpdateItem} (h : Carried mesh history sender item) (move : Move) :
    Carried mesh (history ++ [move]) sender item := by
  refine ⟨h.add, fun horigin => (h.relayed horigin).concat move, fun horigin => ?_⟩
  rw [createdAs_concat, Option.isSome_or, h.own horigin, Bool.true_or]

/-- A node has a local route exactly if it has been told to create it. -/
theorem Traced.hasLocal (h : s.Traced mesh history) (node name : String) :
    (s.bus node).state.hasLocal name = (createdAs node name history).isSome := by
  rw [hasLocal_eq_isSome, ← currentAs_isSome, ← Option.isSome_map, h.locals, Option.isSome_map]

/-- Taking an envelope out of the network changes no trace. -/
theorem Traced.take (h : s.Traced mesh history) (i : Nat) (env : Envelope) : (s.take i env).Traced mesh history :=
  ⟨h.locals, h.routes, fun env' henv' => h.wire env' ((List.eraseIdx_sublist _ _).subset henv')⟩

/-- A slot keeps the invariant when its table does. -/
theorem Traced.dispatch (h : s.Traced mesh history) {node : String} {action : Action} {move : Move} (now : Int)
    (hpolicy : (fabric.config node).routePolicy = none)
    (hinput : Bus.SlotInput (fabric.config node) (s.bus node) action)
    (hkeeps : action.KeepsSessions (s.bus node).state) (hdelete : ∀ name, action ≠ .localRouteDelete name)
    (hadds : ∀ peerInfo updates, action = .internalProtocolUpdate peerInfo updates → ∀ item ∈ updates, item.action = .add)
    (hmove : ∀ other name current, move.applyTo other name current =
      if node = other then action.applyTo name current else current)
    (hroutes : ∀ k, ∀ r ∈ ((s.dispatch fabric node now action).bus node).state.view k,
      r.isStale = false ∧ FromOrigin mesh history k r.toDataChannelDefinition) :
    (s.dispatch fabric node now action).Traced mesh (history ++ [move]) := by
  have hlocals : ∀ other name,
      (((s.dispatch fabric node now action).bus other).state.localNamed name).map DataChannelDefinition.attributes =
        (currentAs other name (history ++ [move])).map DataChannelDefinition.attributes := by
    intro other name
    rw [currentAs_concat, hmove]
    by_cases hother : other = node
    · subst hother
      rw [if_pos rfl, dispatch_bus_self, Bus.dispatch_localNamed now hpolicy hkeeps hdelete]
      exact action.applyTo_congr name (h.locals other name)
    · rw [if_neg (Ne.symm hother), dispatch_bus_of_ne fabric s hother]
      exact h.locals other name
  have hall : ∀ other k, ∀ r ∈ ((s.dispatch fabric node now action).bus other).state.view k,
      r.isStale = false ∧ FromOrigin mesh (history ++ [move]) k r.toDataChannelDefinition := by
    intro other k r hr
    by_cases hother : other = node
    · subst hother
      obtain ⟨hfresh, horigin⟩ := hroutes k r hr
      exact ⟨hfresh, horigin.concat move⟩
    · rw [dispatch_bus_of_ne fabric s hother] at hr
      obtain ⟨hfresh, horigin⟩ := h.routes other k r hr
      exact ⟨hfresh, horigin.concat move⟩
  refine ⟨hlocals, hall, fun env henv item hitem => ?_⟩
  obtain henv | henv := List.mem_append.mp henv
  · exact (h.wire env henv item hitem).concat move
  · obtain ⟨message, hmessage, rfl⟩ := List.mem_map.mp henv
    obtain ⟨hadd, hrelayed, hown⟩ := Bus.dispatch_advertises now hpolicy hinput hkeeps hdelete hadds message hmessage item hitem
    rw [fabric.config_name, ← dispatch_bus_self] at hrelayed hown
    refine ⟨hadd, fun horigin => ?_, fun horigin => ?_⟩
    · obtain ⟨r, hr, hattributes⟩ := hrelayed horigin
      exact (hall node item.key r hr).2.congr hattributes
    · have hlocal := hown horigin
      rw [hasLocal_eq_isSome, ← Option.isSome_map, hlocals, Option.isSome_map, currentAs_isSome] at hlocal
      exact hlocal

/-- What is installed up to ports has the same attributes and path. -/
theorem exists_of_unstamped {installed installed' : Option InternalRoute}
    (h : installed'.map InternalRoute.unstamped = installed.map InternalRoute.unstamped) {r : InternalRoute}
    (hr : r ∈ installed') : ∃ r' ∈ installed, r'.unstamped = r.unstamped := by
  rw [Option.mem_def.mp hr] at h
  obtain ⟨r', hr', heq⟩ := Option.map_eq_some_iff.mp h.symm
  exact ⟨r', hr', heq⟩

theorem exists_short_of_unstamped {installed installed' : Option InternalRoute}
    (h : installed'.map InternalRoute.unstamped = installed.map InternalRoute.unstamped)
    (hshort : ∃ r ∈ installed, r.nodePath.length ≤ 1) : ∃ r ∈ installed', r.nodePath.length ≤ 1 := by
  obtain ⟨r, hr, hlength⟩ := hshort
  obtain ⟨r', hr', heq⟩ := exists_of_unstamped h.symm hr
  rw [← InternalRoute.nodePath_eq_of_unstamped heq] at hlength
  exact ⟨r', hr', hlength⟩

/-! ### A node's own slots -/

/-- An action of a node keeps every route and every envelope traced to an origin. -/
theorem Traced.act (h : s.Traced mesh history) (hregular : s.Regular)
    (hpolicy : ∀ node, (fabric.config node).routePolicy = none) {node : String} {now : Int} {action : Action}
    (hgrowing : s.Growing (.act node now action)) :
    (s.dispatch fabric node now action).Traced mesh (history ++ [.act node now action]) := by
  have hupdate : action.isUpdate = false := by simpa [Move.isReliable, Move.isLocal] using hgrowing.reliable
  have hkeeps := hgrowing.keeps node now action rfl
  refine h.dispatch now (hpolicy node) (hregular.slotInput_act fabric node hupdate) hkeeps ?_ ?_ ?_ ?_
  · rintro name rfl
    exact hgrowing.noDelete node now name rfl
  · rintro peerInfo updates rfl
    cases hupdate
  · exact fun _ _ _ => rfl
  · intro k r hr
    rw [dispatch_bus_self] at hr
    obtain ⟨r', hr', heq⟩ := exists_of_unstamped (Bus.dispatch_view_of_keeps now (hpolicy node) hkeeps hupdate k) hr
    obtain ⟨hfresh, horigin⟩ := h.routes node k r' hr'
    exact ⟨(InternalRoute.isStale_eq_of_unstamped heq).symm.trans hfresh, horigin.congr (attributes_eq_of_unstamped heq)⟩

/-- A new local route is advertised at once to every neighbour, ahead of
    whatever is said of it later. -/
theorem firstItem_created (h : s.Traced mesh history) (hregular : s.Regular) (hestablished : s.Established mesh)
    (hdirect : fabric.Direct) (hpolicy : ∀ node, (fabric.config node).routePolicy = none) {node : String} (now : Int)
    {data : DataChannelDefinition} (hnew : createdAs node data.name history = none) {y : String}
    (hadj : mesh.graph.Adj node y) :
    ∃ item ∈ firstItem (data.name, node) node y (s.dispatch fabric node now (.localRouteCreate data)).inFlight,
      item.route.attributes = data.attributes := by
  have hsilent : firstItem (data.name, node) node y s.inFlight = none := by
    rw [Option.eq_none_iff_forall_ne_some]
    intro item hitem
    obtain ⟨env, henv, hsender, -, hmem, hkey⟩ := exists_of_firstItem (Option.mem_def.mpr hitem)
    have horigin : item.originNode = env.sender := (congrArg Prod.snd hkey).trans hsender.symm
    have hown := (h.wire env henv item hmem).own horigin
    have hname : item.route.name = data.name := congrArg Prod.fst hkey
    rw [hsender, hname, hnew] at hown
    cases hown
  have hinput : Bus.SlotInput (fabric.config node) (s.bus node) (.localRouteCreate data) :=
    hregular.slotInput_act fabric node rfl
  have hkeeps : Action.KeepsSessions (s.bus node).state (.localRouteCreate data) := trivial
  have hbefore : (s.bus node).state.hasLocal data.name = false := by rw [h.hasLocal, hnew]; rfl
  have hafter : (Bus.dispatch (fabric.config node) (s.bus node) now (.localRouteCreate data)).bus.state.hasLocal
      data.name = true := by
    rw [hasLocal_eq_isSome, ← Option.isSome_map, Bus.dispatch_localNamed now (hpolicy node) hkeeps (by simp)]
    simp [Action.applyTo]
  have hsessions : (Bus.dispatch (fabric.config node) (s.bus node) now (.localRouteCreate data)).bus.state.sessions =
      (mesh.peers node).map fun p => (p.name, p.connectionStatus) := by
    rw [Bus.dispatch_sessions _ now hkeeps (allConnected_of_mesh (hestablished.sessions node)), hestablished.sessions]
  obtain ⟨peer, hpeer, rfl⟩ := (adj_iff_connectedPeer hsessions y).mp hadj
  have htold : peer ∈ Bus.told (data.name, node)
      (Bus.dispatch (fabric.config node) (s.bus node) now (.localRouteCreate data)).sends := by
    have hname := fabric.config_name node
    cases Bus.dispatch_keyEffect now hinput (data.name, node) with
    | quiet hentry hlocal =>
      have hsame := hlocal hname.symm
      rw [hafter, hbefore] at hsame
      cases hsame
    | originated _ _ _ _ _ htold => exact htold hbefore peer hpeer
    | retracted _ _ haction => cases haction
    | repeated _ _ _ hk | dropped _ _ hk | selected _ _ _ _ _ hk => exact absurd hname.symm hk
  obtain ⟨updates, told, hmessage, hitem⟩ := Bus.mem_told.mp htold
  have henv : envelope fabric node (peer, updates) ∈ posted fabric s node now (.localRouteCreate data) :=
    List.mem_map_of_mem hmessage
  have hsome := firstItem_isSome henv hitem
  obtain ⟨item, hfirst⟩ := Option.isSome_iff_exists.mp hsome
  have hreaches : fabric.reaches peer = peer.name := hdirect peer
  have hlink : firstItem (data.name, node) node peer.name (posted fabric s node now (.localRouteCreate data)) = some item := by
    rw [← hreaches]
    exact hfirst
  refine ⟨item, ?_, ?_⟩
  · rw [dispatch_inFlight, firstItem_append, hsilent, Option.none_or]
    exact hlink
  · obtain ⟨env, henv, -, -, hmem, -⟩ := exists_of_firstItem (Option.mem_def.mpr hlink)
    obtain ⟨message, hmessage, rfl⟩ := List.mem_map.mp henv
    exact Bus.dispatch_create now (hpolicy node) message hmessage item hmem

/-- An action of a node keeps that its neighbours hold a first-hand route to each of its channels,
    or get one first. -/
theorem FirstHops.act (hfirst : s.FirstHops mesh history) (h : s.Traced mesh history) (hregular : s.Regular)
    (hestablished : s.Established mesh) (hdirect : fabric.Direct)
    (hpolicy : ∀ node, (fabric.config node).routePolicy = none) {node : String} {now : Int} {action : Action}
    (hgrowing : s.Growing (.act node now action)) :
    (s.dispatch fabric node now action).FirstHops mesh (history ++ [.act node now action]) := by
  have hupdate : action.isUpdate = false := by simpa [Move.isReliable, Move.isLocal] using hgrowing.reliable
  have hkeeps := hgrowing.keeps node now action rfl
  intro origin name data hdata y hadj
  rw [createdAs_concat] at hdata
  cases hold : createdAs origin name history with
  | some created =>
    rw [hold] at hdata
    obtain rfl := Option.some.inj hdata
    obtain hshort | ⟨item, hitem, hattributes⟩ := hfirst origin name created hold y hadj
    · left
      by_cases hy : y = node
      · subst hy
        rw [dispatch_bus_self]
        exact exists_short_of_unstamped (Bus.dispatch_view_of_keeps now (hpolicy y) hkeeps hupdate (name, origin)) hshort
      · rw [dispatch_bus_of_ne fabric s hy]
        exact hshort
    · right
      refine ⟨item, ?_, hattributes⟩
      rw [dispatch_inFlight, firstItem_append, Option.mem_def.mp hitem]
      rfl
  | none =>
    rw [hold, Option.none_or] at hdata
    cases action with
    | localRouteCreate created =>
      simp only [Move.creates] at hdata
      split at hdata
      · rename_i hmatch
        obtain ⟨rfl, rfl⟩ := hmatch
        obtain rfl := Option.some.inj hdata
        exact .inr (firstItem_created h hregular hestablished hdirect hpolicy now hold hadj)
      · cases hdata
    | _ => cases hdata

/-! ### Deliveries -/

/-- An entry about the sender's own route has only the sender on its path. -/
theorem nodePath_of_own {sender : String} {item : UpdateItem} (h : EntrySound sender item)
    (horigin : item.originNode = sender) : item.nodePath = [sender] := by
  have hlast := h.lastHop
  rw [horigin] at hlast
  cases hpath : item.nodePath with
  | nil =>
    have hhead := h.firstHop
    rw [hpath] at hhead
    cases hhead
  | cons first rest =>
    have hhead := h.firstHop
    rw [hpath] at hhead hlast
    obtain rfl := Option.some.inj hhead
    cases rest with
    | nil => rfl
    | cons second rest =>
      have hnodup := h.nodup
      rw [hpath] at hnodup
      rw [List.getLast?_cons_cons] at hlast
      exact absurd (List.mem_of_getLast? hlast) (List.nodup_cons.mp hnodup).1

/-- An advertisement that takes effect carries the attributes its route was
    created with: one straight from the origin is the first of its link. -/
theorem fromOrigin_of_takesEffect (h : s.Traced mesh history) (hfirst : s.FirstHops mesh history)
    (hregular : s.Regular) (hestablished : s.Established mesh) {i : Nat} (horder : s.FirstOnLink i) {env : Envelope}
    (henv : s.inFlight[i]? = some env) {item : UpdateItem} (hitem : Rib.itemAt k env.updates = some item)
    (hbetter : ∀ existing ∈ (s.bus env.receiver).state.view k,
      item.nodePath.length < existing.nodePath.length ∨ existing.isStale = true) :
    FromOrigin mesh history k item.route := by
  have hmem := List.mem_of_getElem? henv
  have hcarried := h.wire env hmem item (List.mem_of_find?_eq_some hitem)
  have hkey := Rib.itemAt_key hitem
  subst hkey
  by_cases horigin : item.originNode = env.sender
  · obtain ⟨data, hdata⟩ := Option.isSome_iff_exists.mp (hcarried.own horigin)
    have hadj := hestablished.inFlightLinks env hmem
    have hkey : item.key = (item.route.name, env.sender) := Prod.ext rfl horigin
    have hneighbour : ∃ y, mesh.graph.Adj item.originNode y := ⟨env.receiver, by rw [horigin]; exact hadj⟩
    have hcreated : data ∈ createdAs item.originNode item.route.name history := by rw [horigin]; exact hdata
    obtain ⟨r, hr, hlength⟩ | ⟨first, hfirst, hattributes⟩ := hfirst env.sender item.route.name data hdata env.receiver hadj
    · rw [← hkey] at hr
      have hpath := nodePath_of_own (hregular.sound.entries env hmem item (List.mem_of_find?_eq_some hitem)) horigin
      obtain hshorter | hstale := hbetter r hr
      · rw [hpath, List.length_singleton] at hshorter
        omega
      · rw [(h.routes env.receiver item.key r hr).1] at hstale
        cases hstale
    · rw [← hkey, horder.firstItem_eq henv, hitem] at hfirst
      obtain rfl := Option.some.inj hfirst
      exact ⟨⟨data, hcreated, hattributes.symm⟩, hneighbour⟩
  · exact hcarried.relayed horigin

/-- So does the delivery of an envelope that is the first on its link. -/
theorem Traced.deliver (h : s.Traced mesh history) (hfirst : s.FirstHops mesh history) (hregular : s.Regular)
    (hestablished : s.Established mesh) (hpolicy : ∀ node, (fabric.config node).routePolicy = none) {i : Nat}
    {now : Int} (horder : s.FirstOnLink i) {env : Envelope} (henv : s.inFlight[i]? = some env) :
    ((s.take i env).dispatch fabric env.receiver now (.internalProtocolUpdate env.peerInfo env.updates)).Traced mesh
      (history ++ [.deliver i now]) := by
  have hmem := List.mem_of_getElem? henv
  have hkeeps : Action.KeepsSessions (s.bus env.receiver).state (.internalProtocolUpdate env.peerInfo env.updates) := trivial
  refine (h.take i env).dispatch now (hpolicy env.receiver) (hregular.slotInput_deliver fabric hmem) hkeeps ?_ ?_ ?_ ?_
  · simp
  · intro peerInfo updates haction item hitem
    obtain ⟨-, rfl⟩ := Action.internalProtocolUpdate.inj haction
    exact (h.wire env hmem item hitem).add
  · intro other name current
    split <;> rfl
  · intro k r hr
    rw [dispatch_bus_self, take_bus] at hr
    obtain ⟨r', hr', heq⟩ := exists_of_unstamped
      (Bus.dispatch_view_received _ now (hpolicy env.receiver) env.peerInfo (hregular.distinct env hmem) k) hr
    have hinstalled : r'.isStale = false ∧ FromOrigin mesh history k r'.toDataChannelDefinition := by
      cases hitem : Rib.itemAt k env.updates with
      | none =>
        rw [hitem] at hr'
        exact h.routes env.receiver k r' hr'
      | some item =>
        rw [hitem] at hr'
        have hadd := (h.wire env hmem item (List.mem_of_find?_eq_some hitem)).add
        obtain hold | ⟨rfl, hbetter⟩ := Rib.receiveItem_add_cases hadd hr'
        · exact h.routes env.receiver k r' hold
        · exact ⟨rfl, fromOrigin_of_takesEffect h hfirst hregular hestablished horder henv hitem hbetter⟩
    obtain ⟨hfresh, horigin⟩ := hinstalled
    exact ⟨(InternalRoute.isStale_eq_of_unstamped heq).symm.trans hfresh, horigin.congr (attributes_eq_of_unstamped heq)⟩

/-- A delivery in order keeps the first hops as well. -/
theorem FirstHops.deliver (hfirst : s.FirstHops mesh history) (h : s.Traced mesh history) (hregular : s.Regular)
    (hpolicy : ∀ node, (fabric.config node).routePolicy = none) {i : Nat}
    {now : Int} (horder : s.FirstOnLink i) {env : Envelope} (henv : s.inFlight[i]? = some env) :
    ((s.take i env).dispatch fabric env.receiver now (.internalProtocolUpdate env.peerInfo env.updates)).FirstHops mesh
      (history ++ [.deliver i now]) := by
  have hmem := List.mem_of_getElem? henv
  intro origin name data hdata y hadj
  change data ∈ (createdAs origin name (history ++ [.deliver i now])) at hdata
  rw [createdAs_concat] at hdata
  change data ∈ (createdAs origin name history).or none at hdata
  rw [Option.or_none] at hdata
  have hlater {item : UpdateItem} (hitem : item ∈ firstItem (name, origin) origin y (s.take i env).inFlight) :
      item ∈ firstItem (name, origin) origin y ((s.take i env).dispatch fabric env.receiver now
        (.internalProtocolUpdate env.peerInfo env.updates)).inFlight := by
    rw [dispatch_inFlight, firstItem_append, Option.mem_def.mp hitem]
    rfl
  have hview := Bus.dispatch_view_received (s.bus env.receiver) now (hpolicy env.receiver) env.peerInfo
    (hregular.distinct env hmem) (name, origin)
  rw [← take_bus s i env, ← dispatch_bus_self, take_bus, fabric.config_name] at hview
  obtain ⟨r, hr, hlength⟩ | ⟨item, hitem, hattributes⟩ := hfirst origin name data hdata y hadj
  · left
    by_cases hy : y = env.receiver
    · subst hy
      refine exists_short_of_unstamped hview ?_
      cases hat : Rib.itemAt (name, origin) env.updates with
      | none => exact ⟨r, hr, hlength⟩
      | some item =>
        have hadd := (h.wire env hmem item (List.mem_of_find?_eq_some hat)).add
        obtain ⟨r', hr', hle⟩ := Rib.receiveItem_shortens env.peerInfo hadd hr (h.routes _ _ r hr).1
        exact ⟨r', hr', hle.trans hlength⟩
    · rw [dispatch_bus_of_ne fabric _ hy]
      exact ⟨r, hr, hlength⟩
  · by_cases hlink : env.sender = origin ∧ env.receiver = y
    · obtain ⟨rfl, rfl⟩ := hlink
      rw [horder.firstItem_eq henv] at hitem
      cases hat : Rib.itemAt (name, env.sender) env.updates with
      | none =>
        rw [hat, Option.none_or] at hitem
        exact .inr ⟨item, hlater hitem, hattributes⟩
      | some first =>
        left
        refine exists_short_of_unstamped hview ?_
        have hmemFirst := List.mem_of_find?_eq_some hat
        have horigin : first.originNode = env.sender := congrArg Prod.snd (Rib.itemAt_key hat)
        have hpath := nodePath_of_own (hregular.sound.entries env hmem first hmemFirst) horigin
        have hloop : env.receiver ∉ first.nodePath := by
          rw [hpath, List.mem_singleton]
          exact hadj.ne'
        rw [hat]
        obtain ⟨r, hr, hle⟩ := Rib.receiveItem_length env.peerInfo ((s.bus env.receiver).state.view (name, env.sender))
          (h.wire env hmem first hmemFirst).add hloop
        rw [hpath] at hle
        exact ⟨r, hr, hle⟩
    · rw [← firstItem_take_of_ne henv hlink] at hitem
      exact .inr ⟨item, hlater hitem, hattributes⟩

/-! ### Runs -/

structure Propagates (mesh : Mesh) (history : List Move) (s : Network) : Prop where
  regular : s.Regular
  established : s.Established mesh
  traced : s.Traced mesh history
  firstHops : s.FirstHops mesh history

/-- A new network propagates the attributes of no routes. -/
theorem initial_propagates (mesh : Mesh) (alloc : String → Option PortAllocator) :
    (initial alloc mesh.peers).Propagates mesh [] where
  regular := initial_regular alloc mesh.peers
  established := initial_established mesh alloc
  traced := initial_traced mesh alloc
  firstHops := initial_firstHops mesh alloc

/-- Moves that touch neither the tables nor the wire change nothing. -/
theorem Propagates.idle (h : s.Propagates mesh history) {s' : Network} {move : Move}
    (hregular : s'.Regular) (hestablished : s'.Established mesh)
    (hstate : ∀ node, (s'.bus node).state = (s.bus node).state) (hwire : s'.inFlight = s.inFlight)
    (happly : ∀ node name current, move.applyTo node name current = current)
    (hcreates : ∀ node name, move.creates node name = none) : s'.Propagates mesh (history ++ [move]) := by
  refine ⟨hregular, hestablished, ⟨fun node name => ?_, fun node k r hr => ?_, fun env henv item hitem => ?_⟩, ?_⟩
  · rw [hstate, currentAs_concat, happly]
    exact h.traced.locals node name
  · rw [hstate] at hr
    obtain ⟨hfresh, horigin⟩ := h.traced.routes node k r hr
    exact ⟨hfresh, horigin.concat move⟩
  · rw [hwire] at henv
    exact (h.traced.wire env henv item hitem).concat move
  · intro node name data hdata y hadj
    rw [createdAs_concat, hcreates, Option.or_none] at hdata
    rw [hstate, hwire]
    exact h.firstHops node name data hdata y hadj

/-- Every move that grows the network in order keeps the propagation of attributes. -/
theorem Propagates.step (h : s.Propagates mesh history) (hdirect : fabric.Direct)
    (hpolicy : ∀ node, (fabric.config node).routePolicy = none) {move : Move} (hgrowing : s.Growing move)
    (horder : s.InOrder move) : (s.step fabric move).Propagates mesh (history ++ [move]) := by
  have hregular : (s.step fabric move).Regular := h.regular.step (Move.isLocal_of_isReliable hgrowing.reliable)
  have hestablished := h.established.step h.regular hdirect hgrowing.reliable hgrowing.keeps
  cases move with
  | act node now action =>
    exact ⟨hregular, hestablished, h.traced.act h.regular hpolicy hgrowing,
      h.firstHops.act h.traced h.regular h.established hdirect hpolicy hgrowing⟩
  | deliver i now =>
    simp only [Network.step] at hregular hestablished ⊢
    cases henv : s.inFlight[i]? with
    | none => exact h.idle h.regular h.established (fun _ => rfl) rfl (fun _ _ _ => rfl) fun _ _ => rfl
    | some env =>
      rw [henv] at hregular hestablished
      exact ⟨hregular, hestablished,
        h.traced.deliver h.firstHops h.regular h.established hpolicy horder henv,
        h.firstHops.deliver h.traced h.regular hpolicy horder henv⟩
  | keepaliveSent node peer now =>
    refine h.idle hregular hestablished (fun other => ?_) rfl (fun _ _ _ => rfl) fun _ _ => rfl
    rw [Network.step, keepaliveSent_routes]
  | duplicate i => cases hgrowing.reliable
  | drop i => cases hgrowing.reliable

/-- So does every run of such moves. -/
theorem Propagates.run (hdirect : fabric.Direct) (hpolicy : ∀ node, (fabric.config node).routePolicy = none)
    (moves : List Move) : ∀ {s : Network} {history : List Move}, s.Propagates mesh history →
      EachMove fabric (fun s move => s.Growing move ∧ s.InOrder move) s moves →
      (s.run fabric moves).Propagates mesh (history ++ moves) := by
  induction moves with
  | nil =>
    intro s history h _
    rw [List.append_nil]
    exact h
  | cons move rest ih =>
    intro s history h hmoves
    have hrest := ih (h.step hdirect hpolicy hmoves.1.1 hmoves.1.2) hmoves.2
    rw [List.append_assoc] at hrest
    exact hrest

/-- Every internal route has the attributes of its origin's local route of the
    same name. -/
def AttributesAgree (s : Network) : Prop :=
  ∀ node, ∀ r ∈ (s.bus node).state.internalRoutes, ∃ l ∈ (s.bus r.originNode).state.localRoutes,
    l.name = r.name ∧ l.attributes = r.attributes

/-- Health updates do not propagate. On a fixed mesh without policies, closes,
    expiries or deletions, with messages in the order of their links: once no
    message is in flight, routes agree with their origins exactly if the health
    updates of every node with a neighbour had no effect in the end. -/
theorem run_attributesAgree_iff (hdirect : fabric.Direct) (hpolicy : ∀ node, (fabric.config node).routePolicy = none)
    {alloc : String → Option PortAllocator} {moves : List Move}
    (hmoves : EachMove fabric (fun s move => s.Growing move ∧ s.InOrder move) (initial alloc mesh.peers) moves)
    (hquiet : ((initial alloc mesh.peers).run fabric moves).inFlight = []) :
    ((initial alloc mesh.peers).run fabric moves).AttributesAgree ↔
      ∀ node neighbour, mesh.graph.Adj node neighbour → ∀ name,
        (currentAs node name moves).map DataChannelDefinition.attributes =
          (createdAs node name moves).map DataChannelDefinition.attributes := by
  have hrun := Propagates.run hdirect hpolicy moves (initial_propagates mesh alloc) hmoves
  rw [List.nil_append] at hrun
  generalize (initial alloc mesh.peers).run fabric moves = s at hrun hquiet ⊢
  constructor
  · intro hagree node neighbour hadj name
    cases hcreated : createdAs node name moves with
    | none => rw [currentAs_eq_none hcreated]
    | some data =>
      obtain ⟨r, hr, -⟩ | ⟨item, hitem, -⟩ := hrun.firstHops node name data hcreated neighbour hadj
      · have hkey := installedAt_key hr
        obtain ⟨⟨created, hfrom, hattributes⟩, -⟩ := (hrun.traced.routes neighbour (name, node) r hr).2
        have hdata : data = created := Option.some.inj (hcreated.symm.trans hfrom)
        have horigin : r.originNode = node := congrArg Prod.snd hkey
        have hrname : r.name = name := congrArg Prod.fst hkey
        obtain ⟨l, hl, hname, hsame⟩ := hagree neighbour r (mem_of_installedAt hr)
        rw [horigin] at hl
        have hlocal := hrun.traced.locals node l.name
        rw [localNamed_of_mem (hrun.regular.keyed node) hl, hname, hrname] at hlocal
        rw [← hlocal, hdata, Option.map_some, Option.map_some, hsame, hattributes]
      · rw [hquiet] at hitem
        cases hitem
  · intro hkept node r hr
    have hview : (s.bus node).state.view r.key = some r :=
      (installedAt_eq_some_iff (hrun.regular.keyed node).internalKeys).mpr ⟨hr, rfl⟩
    obtain ⟨⟨data, hdata, hattributes⟩, y, hadj⟩ := (hrun.traced.routes node r.key r hview).2
    have hlocal := (hrun.traced.locals r.originNode r.name).trans (hkept r.originNode y hadj r.name)
    have hcreated : createdAs r.originNode r.name moves = some data := hdata
    rw [hcreated] at hlocal
    obtain ⟨l, hl, hsame⟩ := Option.map_eq_some_iff.mp hlocal
    obtain ⟨hmem, hname⟩ := localNamed_name hl
    exact ⟨l, hmem, hname, hsame.trans hattributes⟩

def booksUp : DataChannelDefinition where
  name := "books"
  protocol := .http
  healthStatus := some .up
  responseTimeMs := some (some 12)
  lastChecked := some "09:00"

/-- While the route travels down the line, `books` goes down and comes up
    again. -/
def booksRecover : List Move :=
  [.act "node-a" 1 (.localRouteCreate booksUp), .deliver 0 2,
    .act "node-a" 3 (.localRouteHealthUpdate ⟨"books", .down, none, "09:30"⟩), .deliver 1 4, .deliver 0 5,
    .act "node-a" 6 (.localRouteHealthUpdate ⟨"books", .up, some 12, "09:00"⟩), .deliver 0 7]

theorem run_attributesAgree_line :
    ((initial (fun _ => none) line.peers).run .plain booksRecover).AttributesAgree := by
  have hadvertises : EachMove .plain (fun s move => move.advertises = true ∧ s.InOrder move)
      (initial (fun _ => none) line.peers) booksRecover := by decide
  have hmoves := EachMove.mono (fun s move h => And.intro (growing_of_advertises s h.1) h.2) booksRecover hadvertises
  have hquiet : ((initial (fun _ => none) line.peers).run .plain booksRecover).inFlight = [] := by decide
  refine (run_attributesAgree_iff (fun _ => rfl) (fun _ => rfl) hmoves hquiet).mpr ?_
  intro node neighbour hadj name
  by_cases hbooks : "node-a" = node ∧ "books" = name
  · obtain ⟨rfl, rfl⟩ := hbooks
    rfl
  · have hcreated : createdAs node name booksRecover = none := by
      simpa [createdAs, booksRecover, booksUp, Move.creates] using hbooks
    rw [hcreated, currentAs_eq_none hcreated]

/-- `books` goes down for good once its route has travelled down the line. -/
def booksGoDown : List Move :=
  [.act "node-a" 1 (.localRouteCreate booksUp), .deliver 0 2, .deliver 0 3,
    .act "node-a" 4 (.localRouteHealthUpdate ⟨"books", .down, none, "09:30"⟩), .deliver 0 5]

/-- The network comes to rest with `node-b` and `node-c` taking `books` to be
    up. -/
theorem healthUpdate_ignored :
    ¬ ∀ (mesh : Mesh) (moves : List Move), EachMove .plain (fun s move => move.advertises = true ∧ s.InOrder move)
        (initial (fun _ => none) mesh.peers) moves →
      ((initial (fun _ => none) mesh.peers).run .plain moves).inFlight = [] →
      ((initial (fun _ => none) mesh.peers).run .plain moves).AttributesAgree := by
  intro hclaim
  have hagree := hclaim line booksGoDown (by decide) (by decide) "node-b"
  revert hagree
  decide

end Network

end CatalystRouter
