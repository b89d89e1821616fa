import Mathlib.Data.List.Find
import Mathlib.Data.List.Nodup
import CatalystRouter.Routing.Rib

namespace CatalystRouter

/-- The installed route of one identity. -/
def installedAt (routes : List InternalRoute) (k : String × String) : Option InternalRoute :=
  routes.find? fun r => r.key == k

def RouteTable.view (state : RouteTable) (k : String × String) : Option InternalRoute :=
  installedAt state.internalRoutes k

/-- What one change does to the installed route of identity `k`. -/
def RouteChange.applyTo (k : String × String) (installed : Option InternalRoute)
    (change : RouteChange) : Option InternalRoute :=
  match change.route with
  | .internal r => if r.key = k then if change.type = .removed then none else some r else installed
  | .channel _ => installed

/-- The change list's effect on the installed route of identity `k`. -/
def applyChanges (k : String × String) (installed : Option InternalRoute) (changes : List RouteChange) :
    Option InternalRoute :=
  changes.foldl (RouteChange.applyTo k) installed

@[simp] theorem applyChanges_nil (k : String × String) (installed : Option InternalRoute) :
    applyChanges k installed [] = installed := rfl

@[simp] theorem applyChanges_cons (k : String × String) (installed : Option InternalRoute)
    (change : RouteChange) (changes : List RouteChange) :
    applyChanges k installed (change :: changes) = applyChanges k (change.applyTo k installed) changes := rfl

/-- Changes are applied one after the other. -/
theorem applyChanges_append (k : String × String) (installed : Option InternalRoute)
    (first second : List RouteChange) :
    applyChanges k installed (first ++ second) = applyChanges k (applyChanges k installed first) second :=
  List.foldl_append

/-- A change of another route does nothing here. -/
theorem RouteChange.applyTo_of_ne {k : String × String} {r : InternalRoute} (h : r.key ≠ k)
    (type : RouteChangeType) (installed : Option InternalRoute) :
    RouteChange.applyTo k installed ⟨type, .internal r⟩ = installed := by
  simp [RouteChange.applyTo, h]

/-- A removal leaves no route. -/
theorem RouteChange.applyTo_removed (r : InternalRoute) (installed : Option InternalRoute) :
    RouteChange.applyTo r.key installed ⟨.removed, .internal r⟩ = none := by
  simp [RouteChange.applyTo]

/-- An added or updated route is the one that is then installed. -/
theorem RouteChange.applyTo_put {type : RouteChangeType} (h : type ≠ .removed) (r : InternalRoute)
    (installed : Option InternalRoute) :
    RouteChange.applyTo r.key installed ⟨type, .internal r⟩ = some r := by
  simp [RouteChange.applyTo, h]

/-- The route installed at a key has this key. -/
theorem installedAt_key {routes : List InternalRoute} {k : String × String} {r : InternalRoute}
    (h : installedAt routes k = some r) : r.key = k := by
  have := List.find?_some h
  simpa using this

/-- A route installed at a key is one of the table. -/
theorem mem_of_installedAt {routes : List InternalRoute} {k : String × String} {r : InternalRoute}
    (h : installedAt routes k = some r) : r ∈ routes := List.mem_of_find?_eq_some h

/-- Nothing is installed at a key that no route has. -/
theorem installedAt_eq_none_iff {routes : List InternalRoute} {k : String × String} :
    installedAt routes k = none ↔ ∀ r ∈ routes, r.key ≠ k := by
  simp [installedAt]

/-- With pairwise distinct identities, the installed route of an identity is
    the one member carrying it. -/
theorem installedAt_eq_some_iff {routes : List InternalRoute} (hnodup : (routes.map (·.key)).Nodup)
    {k : String × String} {r : InternalRoute} :
    installedAt routes k = some r ↔ r ∈ routes ∧ r.key = k := by
  constructor
  · exact fun h => ⟨mem_of_installedAt h, installedAt_key h⟩
  · rintro ⟨hmem, rfl⟩
    cases hfound : installedAt routes r.key with
    | none => exact absurd rfl (installedAt_eq_none_iff.mp hfound r hmem)
    | some other =>
      have hkey := installedAt_key hfound
      rw [List.inj_on_of_nodup_map hnodup (mem_of_installedAt hfound) hmem hkey]

/-- With distinct keys one route at most has a given key. -/
theorem filter_eq_singleton_of_nodup {routes : List InternalRoute} (hnodup : (routes.map (·.key)).Nodup)
    {k : String × String} {r : InternalRoute} (hmem : r ∈ routes) (hkey : r.key = k) :
    routes.filter (fun r => r.key == k) = [r] := by
  induction routes with
  | nil => cases hmem
  | cons first rest ih =>
    obtain ⟨hfresh, hrest⟩ := List.nodup_cons.mp hnodup
    obtain rfl | hmem := List.mem_cons.mp hmem
    · have hnone : rest.filter (fun r => r.key == k) = [] := by
        rw [List.filter_eq_nil_iff]
        intro other hother heq
        exact hfresh (List.mem_map.mpr ⟨other, hother, (beq_iff_eq.mp heq).trans hkey.symm⟩)
      simp [hkey, hnone]
    · have hother : first.key ≠ k := fun heq =>
        hfresh (List.mem_map.mpr ⟨r, hmem, hkey.trans heq.symm⟩)
      simp [hother, ih hrest hmem]

namespace Rib

/-- The route of an item has the key of the item. -/
@[simp] theorem itemRoute_key (peerInfo : PeerInfo) (item : UpdateItem) :
    (itemRoute peerInfo item).key = item.key := rfl

@[simp] theorem itemRoute_peer (peerInfo : PeerInfo) (item : UpdateItem) :
    (itemRoute peerInfo item).peer = peerInfo := rfl

@[simp] theorem itemRoute_nodePath (peerInfo : PeerInfo) (item : UpdateItem) :
    (itemRoute peerInfo item).nodePath = item.nodePath := rfl

@[simp] theorem itemRoute_isStale (peerInfo : PeerInfo) (item : UpdateItem) :
    (itemRoute peerInfo item).isStale = false := rfl

/-- An item looks its route up by key. -/
theorem find?_sameKey (routes : List InternalRoute) (item : UpdateItem) :
    routes.find? (sameKey item) = installedAt routes item.key := rfl

/-- The six outcomes of one turn of the update loop. -/
inductive ItemStep (nodeId : String) (peerInfo : PeerInfo) (routes : List InternalRoute)
    (item : UpdateItem) : UpdatePlan → Prop where
  | looped (hadd : item.action = .add) (hloop : nodeId ∈ item.nodePath) :
      ItemStep nodeId peerInfo routes item { routes }
  | kept (existing : InternalRoute) (hadd : item.action = .add) (hloop : nodeId ∉ item.nodePath)
      (hfound : installedAt routes item.key = some existing)
      (hlen : existing.nodePath.length ≤ item.nodePath.length) (hfresh : existing.isStale = false) :
      ItemStep nodeId peerInfo routes item { routes }
  | replaced (existing : InternalRoute) (hadd : item.action = .add) (hloop : nodeId ∉ item.nodePath)
      (hfound : installedAt routes item.key = some existing)
      (hbetter : item.nodePath.length < existing.nodePath.length ∨ existing.isStale = true) :
      ItemStep nodeId peerInfo routes item
        { routes := routes.modifyFirst (sameKey item) fun _ => itemRoute peerInfo item
          routeChanges := [⟨.updated, .internal (itemRoute peerInfo item)⟩] }
  | installed (hadd : item.action = .add) (hloop : nodeId ∉ item.nodePath)
      (hfound : installedAt routes item.key = none) :
      ItemStep nodeId peerInfo routes item
        { routes := routes ++ [itemRoute peerInfo item]
          routeChanges := [⟨.added, .internal (itemRoute peerInfo item)⟩] }
  | absent (hremove : item.action = .remove) (hfound : installedAt routes item.key = none) :
      ItemStep nodeId peerInfo routes item { routes }
  | withdrawn (removed : InternalRoute) (hremove : item.action = .remove)
      (hfound : installedAt routes item.key = some removed) :
      ItemStep nodeId peerInfo routes item
        { routes := routes.filter fun r => !sameKey item r
          routeChanges := [⟨.removed, .internal removed⟩]
          portOps := match removed.envoyPort with
            | some port => [.release (routeKey item.route) port]
            | none => [] }

/-- Every item takes one of the steps of `ItemStep`. -/
theorem planUpdateItem_step (nodeId : String) (peerInfo : PeerInfo) (routes : List InternalRoute)
    (item : UpdateItem) :
    ItemStep nodeId peerInfo routes item (planUpdateItem nodeId peerInfo routes item) := by
  unfold planUpdateItem
  simp only [find?_sameKey]
  cases haction : item.action with
  | add =>
    by_cases hloop : nodeId ∈ item.nodePath
    · simp only [if_pos hloop]
      exact .looped haction hloop
    · simp only [if_neg hloop]
      cases hfound : installedAt routes item.key with
      | none => exact .installed haction hloop hfound
      | some existing =>
        by_cases hbetter : item.nodePath.length < existing.nodePath.length ∨ existing.isStale = true
        · simp only [if_pos hbetter]
          exact .replaced existing haction hloop hfound hbetter
        · simp only [if_neg hbetter]
          obtain ⟨hlen, hfresh⟩ := not_or.mp hbetter
          exact .kept existing haction hloop hfound (by omega) (by simpa using hfresh)
  | remove =>
    cases hfound : installedAt routes item.key with
    | none => exact .absent haction hfound
    | some removed => exact .withdrawn removed haction hfound

/-! ### Running over a whole message -/

/-- `C` holds of every entry of the message at its own turn, with the routes
    the earlier entries left. -/
def EachTurn (nodeId : String) (peerInfo : PeerInfo) (C : List InternalRoute → UpdateItem → Prop) :
    List InternalRoute → List UpdateItem → Prop
  | _, [] => True
  | routes, item :: rest =>
    C routes item ∧ EachTurn nodeId peerInfo C (planUpdateItem nodeId peerInfo routes item).routes rest

instance EachTurn.decidable (nodeId : String) (peerInfo : PeerInfo) {C : List InternalRoute → UpdateItem → Prop}
    [∀ routes item, Decidable (C routes item)] :
    ∀ routes updates, Decidable (EachTurn nodeId peerInfo C routes updates)
  | _, [] => inferInstanceAs (Decidable True)
  | routes, item :: rest =>
    have : Decidable (EachTurn nodeId peerInfo C (planUpdateItem nodeId peerInfo routes item).routes rest) :=
      EachTurn.decidable nodeId peerInfo (planUpdateItem nodeId peerInfo routes item).routes rest
    inferInstanceAs (Decidable (C routes item ∧
      EachTurn nodeId peerInfo C (planUpdateItem nodeId peerInfo routes item).routes rest))

/-- A property of the routes that every turn preserves holds after the whole
    message. -/
theorem planUpdateItems_induct {nodeId : String} {peerInfo : PeerInfo}
    {C : List InternalRoute → UpdateItem → Prop} {I : List InternalRoute → Prop}
    (hturn : ∀ routes item, C routes item → I routes →
      I (planUpdateItem nodeId peerInfo routes item).routes)
    (updates : List UpdateItem) :
    ∀ routes, EachTurn nodeId peerInfo C routes updates → I routes →
      I (planUpdateItems nodeId peerInfo routes updates).routes := by
  induction updates with
  | nil => exact fun routes _ hI => hI
  | cons item rest ih =>
    intro routes hall hI
    exact ih _ hall.2 (hturn routes item hall.1 hI)

/-- What holds of the changes of every turn holds of the changes of the whole
    message. -/
theorem planUpdateItems_changes {nodeId : String} {peerInfo : PeerInfo}
    {C : List InternalRoute → UpdateItem → Prop} {A : RouteChange → Prop}
    (hturn : ∀ routes item, C routes item →
      ∀ change ∈ (planUpdateItem nodeId peerInfo routes item).routeChanges, A change)
    (updates : List UpdateItem) :
    ∀ routes, EachTurn nodeId peerInfo C routes updates →
      ∀ change ∈ (planUpdateItems nodeId peerInfo routes updates).routeChanges, A change := by
  induction updates with
  | nil =>
    intro routes _ change hmem
    cases hmem
  | cons item rest ih =>
    intro routes hall change hmem
    obtain hmem | hmem := List.mem_append.mp hmem
    · exact hturn routes item hall.1 change hmem
    · exact ih _ hall.2 change hmem

/-- What holds of all items holds at each turn. -/
theorem eachTurn_of_forall {nodeId : String} {peerInfo : PeerInfo}
    {C : List InternalRoute → UpdateItem → Prop} {updates : List UpdateItem}
    (h : ∀ routes, ∀ item ∈ updates, C routes item) (routes : List InternalRoute) :
    EachTurn nodeId peerInfo C routes updates := by
  induction updates generalizing routes with
  | nil => trivial
  | cons item rest ih =>
    exact ⟨h routes item (by simp), ih (fun routes' item' hmem => h routes' item' (by simp [hmem])) _⟩

/-- A turn keeps the identities of the running routes pairwise distinct. -/
theorem planUpdateItem_keys_nodup {nodeId : String} {peerInfo : PeerInfo} {routes : List InternalRoute}
    (item : UpdateItem) (hnodup : (routes.map (·.key)).Nodup) :
    ((planUpdateItem nodeId peerInfo routes item).routes.map (·.key)).Nodup := by
  have hstep := planUpdateItem_step nodeId peerInfo routes item
  generalize planUpdateItem nodeId peerInfo routes item = turn at hstep ⊢
  cases hstep with
  | looped | kept | absent => exact hnodup
  | replaced =>
    rw [List.map_modifyFirst]
    · exact hnodup
    · intro r _ hr
      simpa [sameKey] using (beq_iff_eq.mp hr).symm
  | installed hadd hloop hfound =>
    rw [List.map_append, List.nodup_append]
    refine ⟨hnodup, by simp, ?_⟩
    intro a ha b hb
    simp only [List.map_cons, List.map_nil, List.mem_singleton] at hb
    obtain ⟨r, hr, rfl⟩ := List.mem_map.mp ha
    subst hb
    exact installedAt_eq_none_iff.mp hfound r hr
  | withdrawn => exact hnodup.sublist (List.filter_sublist.map _)

/-- An update keeps the keys of the routes distinct. -/
theorem planUpdateItems_keys_nodup {nodeId : String} {peerInfo : PeerInfo} {routes : List InternalRoute}
    (updates : List UpdateItem) (hnodup : (routes.map (·.key)).Nodup) :
    ((planUpdateItems nodeId peerInfo routes updates).routes.map (·.key)).Nodup := by
  apply planUpdateItems_induct (C := fun _ _ => True) (I := fun routes => (routes.map (·.key)).Nodup)
  · exact fun _ item _ h => planUpdateItem_keys_nodup item h
  · exact eachTurn_of_forall (fun _ _ _ => trivial) routes
  · exact hnodup

/-- A turn's change, applied to any identity's installed route, gives that
    identity's route after the turn. -/
theorem planUpdateItem_view (nodeId : String) (peerInfo : PeerInfo) (routes : List InternalRoute)
    (item : UpdateItem) (k : String × String) :
    installedAt (planUpdateItem nodeId peerInfo routes item).routes k =
      applyChanges k (installedAt routes k) (planUpdateItem nodeId peerInfo routes item).routeChanges := by
  have hstep := planUpdateItem_step nodeId peerInfo routes item
  generalize planUpdateItem nodeId peerInfo routes item = turn at hstep ⊢
  cases hstep with
  | looped | kept | absent => rfl
  | replaced existing hadd hloop hfound hbetter =>
    rw [applyChanges_cons, applyChanges_nil]
    by_cases hk : item.key = k
    · subst hk
      have hmodify := List.find?_modifyFirst (p := sameKey item) (f := fun _ => itemRoute peerInfo item)
        (fun _ _ => by simp [sameKey]) routes
      rw [find?_sameKey, find?_sameKey, hfound] at hmodify
      exact hmodify.trans (RouteChange.applyTo_put (by simp) (itemRoute peerInfo item) _).symm
    · rw [RouteChange.applyTo_of_ne (by simpa using hk)]
      apply List.find?_modifyFirst_of_disjoint
      intro r hr
      have hrk : r.key = item.key := by simpa [sameKey] using hr
      simp [hrk, hk]
  | installed hadd hloop hfound =>
    rw [applyChanges_cons, applyChanges_nil]
    by_cases hk : item.key = k
    · subst hk
      have hnone : routes.find? (fun r => r.key == item.key) = none := hfound
      refine Eq.trans ?_ (RouteChange.applyTo_put (by simp) (itemRoute peerInfo item) _).symm
      simp [installedAt, hnone]
    · rw [RouteChange.applyTo_of_ne (by simpa using hk)]
      simp [installedAt, hk]
  | withdrawn removed hremove hfound =>
    have hkey := installedAt_key hfound
    rw [applyChanges_cons, applyChanges_nil]
    by_cases hk : removed.key = k
    · subst hk
      rw [RouteChange.applyTo_removed, installedAt_eq_none_iff]
      intro r hr
      simpa [sameKey, hkey] using (List.mem_filter.mp hr).2
    · rw [RouteChange.applyTo_of_ne hk]
      simp only [installedAt, List.find?_filter]
      congr 1
      funext r
      by_cases hr : r.key = k
      · have hne : k ≠ item.key := fun h => hk (hkey.trans h.symm)
        simp [sameKey, hr, hne]
      · simp [hr]

/-- The change list of a message is an exact per-identity record of what it
    did to the routes. -/
theorem planUpdateItems_view (nodeId : String) (peerInfo : PeerInfo) (updates : List UpdateItem)
    (k : String × String) :
    ∀ routes, installedAt (planUpdateItems nodeId peerInfo routes updates).routes k =
      applyChanges k (installedAt routes k)
        (planUpdateItems nodeId peerInfo routes updates).routeChanges := by
  induction updates with
  | nil => exact fun routes => rfl
  | cons item rest ih =>
    intro routes
    simp only [planUpdateItems, applyChanges_append, ih, planUpdateItem_view]

/-- What one entry does to the installed route of its own identity. -/
def receiveItem (nodeId : String) (peerInfo : PeerInfo) (installed : Option InternalRoute)
    (item : UpdateItem) : Option InternalRoute :=
  match item.action with
  | .add =>
    if nodeId ∈ item.nodePath then installed
    else
      match installed with
      | some existing =>
        if item.nodePath.length < existing.nodePath.length ∨ existing.isStale = true then
          some (itemRoute peerInfo item)
        else some existing
      | none => some (itemRoute peerInfo item)
  | .remove => none

/-- What an item leaves at its key depends on what was installed there only. -/
theorem planUpdateItem_installedAt (nodeId : String) (peerInfo : PeerInfo) (routes : List InternalRoute)
    (item : UpdateItem) :
    installedAt (planUpdateItem nodeId peerInfo routes item).routes item.key =
      receiveItem nodeId peerInfo (installedAt routes item.key) item := by
  rw [planUpdateItem_view]
  have hstep := planUpdateItem_step nodeId peerInfo routes item
  generalize planUpdateItem nodeId peerInfo routes item = turn at hstep ⊢
  have hput (type : RouteChangeType) (htype : type ≠ .removed) (installed : Option InternalRoute) :
      applyChanges item.key installed [⟨type, .internal (itemRoute peerInfo item)⟩] =
        some (itemRoute peerInfo item) := RouteChange.applyTo_put htype (itemRoute peerInfo item) installed
  cases hstep with
  | looped hadd hloop => simp [receiveItem, hadd, hloop]
  | kept existing hadd hloop hfound hlen hfresh =>
    simp [receiveItem, hadd, hloop, hfound, hfresh, Nat.not_lt.mpr hlen]
  | replaced existing hadd hloop hfound hbetter =>
    rw [hput _ (by simp)]
    simp [receiveItem, hadd, hloop, hfound, hbetter]
  | installed hadd hloop hfound =>
    rw [hput _ (by simp)]
    simp [receiveItem, hadd, hloop, hfound]
  | absent hremove hfound => simp [receiveItem, hremove, hfound]
  | withdrawn removed hremove hfound =>
    simp only [receiveItem, hremove]
    rw [← installedAt_key hfound]
    exact RouteChange.applyTo_removed removed _

/-- At other keys it changes nothing. -/
theorem planUpdateItem_installedAt_of_ne (nodeId : String) (peerInfo : PeerInfo)
    (routes : List InternalRoute) {item : UpdateItem} {k : String × String} (hk : item.key ≠ k) :
    installedAt (planUpdateItem nodeId peerInfo routes item).routes k = installedAt routes k := by
  rw [planUpdateItem_view]
  have hstep := planUpdateItem_step nodeId peerInfo routes item
  generalize planUpdateItem nodeId peerInfo routes item = turn at hstep ⊢
  cases hstep with
  | looped | kept | absent => rfl
  | replaced | installed => exact RouteChange.applyTo_of_ne (by simpa using hk) _ _
  | withdrawn removed hremove hfound =>
    exact RouteChange.applyTo_of_ne (by rwa [installedAt_key hfound]) _ _

/-- The entry changes the running routes: it is an advertisement free of loops,
    and nothing fresh and as short is installed for its identity. -/
def TakesEffect (nodeId : String) (routes : List InternalRoute) (item : UpdateItem) : Prop :=
  item.action = .add ∧ nodeId ∉ item.nodePath ∧ ∀ existing ∈ installedAt routes item.key,
    item.nodePath.length < existing.nodePath.length ∨ existing.isStale = true

instance (nodeId : String) (routes : List InternalRoute) (item : UpdateItem) :
    Decidable (TakesEffect nodeId routes item) :=
  inferInstanceAs (Decidable (item.action = .add ∧ nodeId ∉ item.nodePath ∧
    ∀ existing ∈ installedAt routes item.key,
      item.nodePath.length < existing.nodePath.length ∨ existing.isStale = true))

/-- An added item replaces the installed route exactly if it takes effect. -/
theorem receiveItem_add {nodeId : String} {peerInfo : PeerInfo} {routes : List InternalRoute} {item : UpdateItem}
    (hadd : item.action = .add) :
    receiveItem nodeId peerInfo (installedAt routes item.key) item =
      if TakesEffect nodeId routes item then some (itemRoute peerInfo item)
      else installedAt routes item.key := by
  by_cases heffect : TakesEffect nodeId routes item
  · rw [if_pos heffect]
    obtain ⟨-, hloop, hbetter⟩ := heffect
    cases hfound : installedAt routes item.key with
    | none => simp [receiveItem, hadd, hloop]
    | some existing => simp [receiveItem, hadd, hloop, hbetter existing hfound]
  · rw [if_neg heffect]
    by_cases hloop : nodeId ∈ item.nodePath
    · simp [receiveItem, hadd, hloop]
    · cases hfound : installedAt routes item.key with
      | none => exact absurd ⟨hadd, hloop, by simp [hfound]⟩ heffect
      | some existing =>
        have hworse : ¬ (item.nodePath.length < existing.nodePath.length ∨ existing.isStale = true) :=
          fun hbetter => heffect ⟨hadd, hloop, by simpa [hfound] using hbetter⟩
        simp [receiveItem, hadd, hloop, hworse]

/-- What an advertisement leaves installed was installed before, or is the
    advertised route taking effect. -/
theorem receiveItem_add_cases {nodeId : String} {peerInfo : PeerInfo} {installed : Option InternalRoute}
    {item : UpdateItem} (hadd : item.action = .add) {r : InternalRoute}
    (hr : r ∈ receiveItem nodeId peerInfo installed item) :
    r ∈ installed ∨ r = itemRoute peerInfo item ∧
      ∀ existing ∈ installed, item.nodePath.length < existing.nodePath.length ∨ existing.isStale = true := by
  simp only [receiveItem, hadd] at hr
  split at hr
  · exact .inl hr
  · split at hr
    · rename_i existing
      split at hr
      · rename_i hbetter
        refine .inr ⟨(Option.some.inj hr).symm, fun other hother => ?_⟩
        obtain rfl := Option.some.inj hother
        exact hbetter
      · exact .inl hr
    · exact .inr ⟨(Option.some.inj hr).symm, fun existing hexisting => by cases hexisting⟩

/-- A loop-free advertisement leaves a route installed that is no longer. -/
theorem receiveItem_length {nodeId : String} (peerInfo : PeerInfo) (installed : Option InternalRoute)
    {item : UpdateItem} (hadd : item.action = .add) (hloop : nodeId ∉ item.nodePath) :
    ∃ r ∈ receiveItem nodeId peerInfo installed item, r.nodePath.length ≤ item.nodePath.length := by
  simp only [receiveItem, hadd, hloop, if_false]
  cases installed with
  | none => exact ⟨itemRoute peerInfo item, rfl, le_rfl⟩
  | some existing =>
    dsimp only
    split
    · exact ⟨itemRoute peerInfo item, rfl, le_rfl⟩
    · rename_i hworse
      refine ⟨existing, rfl, ?_⟩
      omega

/-- An advertisement never lengthens a fresh route. -/
theorem receiveItem_shortens {nodeId : String} (peerInfo : PeerInfo) {installed : Option InternalRoute}
    {item : UpdateItem} (hadd : item.action = .add) {existing : InternalRoute} (hexisting : existing ∈ installed)
    (hfresh : existing.isStale = false) :
    ∃ r ∈ receiveItem nodeId peerInfo installed item, r.nodePath.length ≤ existing.nodePath.length := by
  obtain rfl := Option.mem_def.mp hexisting
  simp only [receiveItem, hadd]
  split
  · exact ⟨existing, rfl, le_rfl⟩
  · split
    · rename_i hbetter
      refine ⟨itemRoute peerInfo item, rfl, ?_⟩
      obtain hshorter | hstale := hbetter
      · exact hshorter.le
      · rw [hfresh] at hstale
        cases hstale
    · exact ⟨existing, rfl, le_rfl⟩

/-- An identity that no entry of the message names keeps its route. -/
theorem planUpdateItems_installedAt_of_ne {nodeId : String} {peerInfo : PeerInfo} {k : String × String}
    (updates : List UpdateItem) : ∀ {routes}, (∀ item ∈ updates, item.key ≠ k) →
      installedAt (planUpdateItems nodeId peerInfo routes updates).routes k = installedAt routes k := by
  induction updates with
  | nil => exact fun _ => rfl
  | cons item rest ih =>
    intro routes hother
    have hrest : installedAt (planUpdateItems nodeId peerInfo (planUpdateItem nodeId peerInfo routes item).routes
        rest).routes k = installedAt (planUpdateItem nodeId peerInfo routes item).routes k :=
      ih fun later hlater => hother later (by simp [hlater])
    exact hrest.trans (planUpdateItem_installedAt_of_ne nodeId peerInfo routes (hother item (by simp)))

/-- Removals alone leave nothing for the identities they name. -/
theorem planUpdateItems_installedAt_of_removed {nodeId : String} {peerInfo : PeerInfo} {k : String × String}
    (updates : List UpdateItem) : ∀ {routes}, (∀ item ∈ updates, item.key = k → item.action = .remove) →
      (installedAt routes k = none ∨ ∃ item ∈ updates, item.key = k) →
      installedAt (planUpdateItems nodeId peerInfo routes updates).routes k = none := by
  induction updates with
  | nil => exact fun _ h => h.elim id fun ⟨_, hmem, _⟩ => (nomatch hmem)
  | cons item rest ih =>
    intro routes hremoves h
    refine ih (fun later hlater => hremoves later (by simp [hlater])) ?_
    by_cases hkey : item.key = k
    · have hremove := hremoves item (by simp) hkey
      subst hkey
      left
      rw [planUpdateItem_installedAt]
      simp [receiveItem, hremove]
    · rw [planUpdateItem_installedAt_of_ne nodeId peerInfo routes hkey]
      refine h.imp_right ?_
      rintro ⟨later, hmem, hlater⟩
      obtain rfl | hmem := List.mem_cons.mp hmem
      · exact absurd hlater hkey
      · exact ⟨later, hmem, hlater⟩

/-- Filtering a table filters what is installed at a key. -/
theorem installedAt_filter {routes : List InternalRoute} (hnodup : (routes.map (·.key)).Nodup)
    (kept : InternalRoute → Bool) (k : String × String) :
    installedAt (routes.filter kept) k = (installedAt routes k).filter kept := by
  induction routes with
  | nil => rfl
  | cons first rest ih =>
    obtain ⟨hfresh, hrest⟩ := List.nodup_cons.mp hnodup
    have htail := ih hrest
    by_cases hkey : first.key = k
    · have hnone : installedAt rest k = none := by
        refine installedAt_eq_none_iff.mpr fun r hr hk => hfresh ?_
        exact List.mem_map.mpr ⟨r, hr, hk.trans hkey.symm⟩
      cases hkept : kept first with
      | true => simp [installedAt, hkey, hkept, Option.filter]
      | false =>
        rw [List.filter_cons_of_neg (by simp [hkept]), htail, hnone]
        simp [installedAt, hkey, hkept, Option.filter]
    · cases hkept : kept first with
      | true => simpa [installedAt, hkey, hkept] using htail
      | false => simpa [installedAt, hkey, hkept] using htail

end Rib

end CatalystRouter
