import CatalystRouter.Orchestrator.Advertised

namespace CatalystRouter

open KeyedLog Bus

/-! ### Following the deltas of one identity -/

section Export

variable (config : BusConfig) (peer : PeerRecord)

/-- Some port makes the peer hear of the route. -/
def MayExport (r : InternalRoute) : Prop :=
  exportGuards peer r = true ∧ ∃ port, policyAllowsSend config peer { r with envoyPort := port } = true

/-- The peer hears of the route whatever its port. -/
def MustExport (r : InternalRoute) : Prop :=
  exportGuards peer r = true ∧ ∀ port, policyAllowsSend config peer { r with envoyPort := port } = true

/-- A route announced in the place of one that the peer may have been told of is
    one that it will be told of, and it is not told of stale routes. -/
def KeepsExported (installed : Option InternalRoute) (change : RouteChange) : Prop :=
  change.type ≠ .removed → ∀ r, change.route = .internal r →
    (∀ old ∈ installed, old.isStale = false → MayExport config peer old → r.isStale = false ∧ MustExport config peer r) ∧
    (r.isStale = true → ¬ MayExport config peer r)

/-- `C` holds of every internal change at its turn, with the route its identity
    then has. -/
def EachChange (C : Option InternalRoute → RouteChange → Prop) :
    (String × String → Option InternalRoute) → List RouteChange → Prop
  | _, [] => True
  | view, change :: rest =>
    (∀ r, change.route = .internal r → C (view r.key) change) ∧
      EachChange C (fun k => change.applyTo k (view k)) rest

end Export

theorem Told.hear_append (told : Told) (items others : List UpdateItem) :
    told.hear (items ++ others) = (told.hear items).hear others := by
  simp [Told.hear, replay, List.foldl_append]

@[simp] theorem Told.hear_nil (told : Told) : told.hear [] = told := rfl

theorem Told.hear_self (told : Told) (item : UpdateItem) :
    told.hear [item] item.key = match item.action with
      | .add => some item
      | .remove => none :=
  apply_self told item.key _

theorem Told.hear_of_forall_ne {k : String × String} {items : List UpdateItem} (h : ∀ item ∈ items, item.key ≠ k)
    (told : Told) : told.hear items k = told k := by
  refine replay_of_forall_ne (fun entry hentry => ?_) told
  obtain ⟨item, hmem, rfl⟩ := List.mem_map.mp hentry
  exact h item hmem

section Changes

variable {config : BusConfig} {peer : PeerRecord} {σ : InternalRoute → InternalRoute}
  {stamp : RouteChange → RouteChange}

/-- The peer was told of an identity only while a route stands there that it
    may be told of. -/
def Backed (config : BusConfig) (peer : PeerRecord) (known : Option UpdateItem) (installed : Option InternalRoute) :
    Prop :=
  known ≠ none → ∃ r ∈ installed, r.isStale = false ∧ MayExport config peer r

/-- How a plan's announcements are stamped. -/
structure StampsChanges (node : String) (σ : InternalRoute → InternalRoute) (stamp : RouteChange → RouteChange) :
    Prop where
  keys : ∀ change, (stamp change).keyAt node = change.keyAt node
  ports : ∀ r, ∃ port, σ r = { r with envoyPort := port }
  puts : ∀ type r, type ≠ .removed → stamp ⟨type, .internal r⟩ = ⟨type, .internal (σ r)⟩
  removed : ∀ route, stamp ⟨.removed, route⟩ = ⟨.removed, route⟩

theorem exported_backed (hσ : StampsChanges config.node.name σ stamp) (r : InternalRoute) :
    Backed config peer (exported config peer (σ r)) (some r) := by
  intro hexported
  obtain ⟨port, hport⟩ := hσ.ports r
  unfold exported at hexported
  split at hexported
  · rename_i hsync
    rw [hport] at hsync
    simp only [syncable, Bool.and_eq_true, Bool.not_eq_true'] at hsync
    exact ⟨r, rfl, hsync.1.1, hsync.1.2, port, hsync.2⟩
  · exact absurd rfl hexported

/-- One change tells the peer what the new route of its identity is exported
    as. -/
theorem hear_change (hσ : StampsChanges config.node.name σ stamp) {change : RouteChange} {r : InternalRoute}
    (hr : change.route = .internal r) {told : Told} {installed : Option InternalRoute}
    (hremoved : change.type = .removed → installed = some r) (hkeeps : KeepsExported config peer installed change)
    (hbacked : Backed config peer (told r.key) installed) :
    told.hear (changeItem config peer (stamp change)).toList r.key =
      (change.applyTo r.key installed).bind fun r => exported config peer (σ r) := by
  obtain ⟨type, route⟩ := change
  subst hr
  by_cases htype : type = .removed
  · subst htype
    obtain rfl := hremoved rfl
    rw [RouteChange.applyTo_removed, hσ.removed, Option.bind_none]
    cases hguards : exportGuards peer r with
    | true =>
      have hitem : changeItem config peer ⟨.removed, .internal r⟩ = some (internalItem config .remove r) := by
        simp [changeItem, hguards, changeAction]
      rw [hitem]
      exact Told.hear_self told (internalItem config .remove r)
    | false =>
      have hitem : changeItem config peer ⟨.removed, .internal r⟩ = none := by
        simp [changeItem, hguards]
      rw [hitem]
      by_contra hknown
      obtain ⟨old, hold, -, hmay, -⟩ := hbacked hknown
      obtain rfl := Option.some.inj hold
      simp [hguards] at hmay
  · obtain ⟨hreplaces, hstale⟩ := hkeeps htype r rfl
    obtain ⟨port, hport⟩ := hσ.ports r
    rw [RouteChange.applyTo_put htype, hσ.puts type r htype, Option.bind_some]
    have hkey : (σ r).key = r.key := by rw [hport]; rfl
    cases hexports : exportGuards peer (σ r) && policyAllowsSend config peer (σ r) with
    | true =>
      have hfresh : r.isStale = false := by
        rw [Bool.and_eq_true, hport] at hexports
        by_contra hnot
        exact hstale (by simpa using hnot) ⟨hexports.1, port, hexports.2⟩
      have hitem : changeItem config peer ⟨type, .internal (σ r)⟩ = some (internalItem config .add (σ r)) := by
        rw [Bool.and_eq_true] at hexports
        cases type with
        | removed => exact absurd rfl htype
        | added | updated => simp [changeItem, hexports.1, hexports.2, changeAction]
      have hsync : syncable config peer (σ r) = true := by
        rw [Bool.and_eq_true] at hexports
        have hfresh' : (σ r).isStale = false := by rw [hport]; exact hfresh
        simp [syncable, hfresh', hexports.1, hexports.2]
      rw [hitem, ← hkey, exported, if_pos hsync]
      exact Told.hear_self told (internalItem config .add (σ r))
    | false =>
      have hitem : changeItem config peer ⟨type, .internal (σ r)⟩ = none := by
        rw [Bool.and_eq_false_iff] at hexports
        cases type with
        | removed => exact absurd rfl htype
        | added | updated => rcases hexports with h | h <;> simp [changeItem, h]
      have hsync : ¬ syncable config peer (σ r) = true := by
        rw [Bool.and_eq_false_iff] at hexports
        rcases hexports with h | h <;> simp [syncable, h]
      rw [hitem, exported, if_neg hsync]
      by_contra hknown
      obtain ⟨old, hold, hfresh, hmay⟩ := hbacked hknown
      obtain ⟨-, hguards, hpolicy⟩ := hreplaces old hold hfresh hmay
      have hguards' : exportGuards peer (σ r) = true := by rw [hport]; exact hguards
      have hpolicy' : policyAllowsSend config peer (σ r) = true := by rw [hport]; exact hpolicy port
      simp [hguards', hpolicy'] at hexports

/-- The delta of a change list, as the peer hears it. -/
def Told.hearChanges (config : BusConfig) (peer : PeerRecord) (told : Told) (changes : List RouteChange) : Told :=
  told.hear (changes.filterMap (changeItem config peer))

theorem Told.hearChanges_cons (told : Told) (change : RouteChange) (rest : List RouteChange) :
    told.hearChanges config peer (change :: rest) =
      Told.hearChanges config peer (told.hear (changeItem config peer change).toList) rest := by
  unfold Told.hearChanges
  cases hitem : changeItem config peer change with
  | none => simp [hitem]
  | some item =>
    rw [List.filterMap_cons_some hitem, ← Told.hear_append]
    rfl

/-- Without a change under its identity, a peer hears nothing about a route. -/
theorem Told.hearChanges_of_none {k : String × String} {changes : List RouteChange}
    (h : changeAt config.node.name k changes = none) (told : Told) :
    told.hearChanges config peer changes k = told k := by
  refine Told.hear_of_forall_ne (fun item hitem => ?_) told
  obtain ⟨change, hmem, hchange⟩ := List.mem_filterMap.mp hitem
  rw [changeItem_key hchange]
  exact changeAt_eq_none_iff.mp h change hmem

theorem StampsChanges.changeAt_none (hσ : StampsChanges config.node.name σ stamp) {k : String × String}
    {changes : List RouteChange} (h : changeAt config.node.name k changes = none) :
    changeAt config.node.name k (changes.map stamp) = none := by
  rw [changeAt_eq_none_iff] at h ⊢
  intro change hmem
  obtain ⟨original, horiginal, rfl⟩ := List.mem_map.mp hmem
  rw [hσ.keys]
  exact h original horiginal

/-- After the delta of a list of internal changes, the peer has been told of
    every identity under change just what its route is exported as. Induction
    on the changes; what carries it is that whatever the peer knows is backed by
    a route it may be told of. -/
theorem hear_changes (hσ : StampsChanges config.node.name σ stamp) (k : String × String) (changes : List RouteChange)
    (hinternal : ∀ change ∈ changes, ∃ r, change.route = .internal r) :
    ∀ (told : Told) (view : String × String → Option InternalRoute), Rib.RemovesInstalled view changes →
      EachChange (KeepsExported config peer) view changes → Backed config peer (told k) (view k) →
      changeAt config.node.name k changes = none ∨
        told.hearChanges config peer (changes.map stamp) k =
          (applyChanges k (view k) changes).bind fun r => exported config peer (σ r) := by
  induction changes with
  | nil => exact fun _ _ _ _ _ => .inl rfl
  | cons change rest ih =>
    intro told view hremoves hkeeps hbacked
    obtain ⟨r, hr⟩ := hinternal change (by simp)
    have hkeyAt : change.keyAt config.node.name = r.key := by simp [RouteChange.keyAt, hr]
    have ih := ih (fun other hmem => hinternal other (by simp [hmem]))
      (told.hear (changeItem config peer (stamp change)).toList) _ hremoves.2 hkeeps.2
    rw [List.map_cons, Told.hearChanges_cons, applyChanges_cons]
    by_cases hk : r.key = k
    · right
      subst hk
      have hfirst := hear_change hσ hr (fun htype => hremoves.1 r (by rw [← htype, ← hr])) (hkeeps.1 r hr) hbacked
      have hbacked' : Backed config peer (told.hear (changeItem config peer (stamp change)).toList r.key)
          (change.applyTo r.key (view r.key)) := by
        rw [hfirst]
        cases change.applyTo r.key (view r.key) with
        | none => exact fun h => absurd rfl h
        | some r' => exact exported_backed hσ r'
      obtain huntouched | htold := ih hbacked'
      · rw [applyChanges_of_none rest _ huntouched, ← hfirst]
        exact Told.hearChanges_of_none (hσ.changeAt_none huntouched) _
      · exact htold
    · have hfirst : told.hear (changeItem config peer (stamp change)).toList k = told k := by
        refine Told.hear_of_forall_ne (fun item hitem => ?_) told
        rw [Option.mem_toList] at hitem
        rw [changeItem_key hitem, hσ.keys, hkeyAt]
        exact hk
      have hview : change.applyTo k (view k) = view k := by
        obtain ⟨type, route⟩ := change
        subst hr
        exact RouteChange.applyTo_of_ne hk type (view k)
      rcases ih (by rw [hfirst, hview]; exact hbacked) with huntouched | htold
      · left
        simpa [changeAt, hkeyAt, hk] using huntouched
      · exact .inr htold

end Changes

end CatalystRouter
