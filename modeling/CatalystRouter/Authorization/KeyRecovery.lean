import Mathlib.Data.List.Nodup
import CatalystRouter.Authorization.GracePeriod

namespace CatalystRouter.KeyManager

variable {Key : Type} {manager : KeyManager Key}

/-- Where a rotation stops, by a crash or by a `saveKeys` that throws: between its two
    writes of the store, or before or after both. -/
inductive Interruption where
  | beforeWrites
  | betweenWrites
  | afterWrites
  deriving DecidableEq, Repr

/-- The manager, and its store, where a rotation with a grace period stops. -/
def interrupt (jose : Jose Key) (manager : KeyManager Key) (point : Interruption) (createdAt now : Nat)
    (gracePeriodMs : Option JsNumber) (fresh : Key) : KeyManager Key :=
  match point with
  | .beforeWrites => manager
  | .betweenWrites => (manager.generateNewKey jose createdAt fresh).1
  | .afterWrites => (manager.rotate jose createdAt now { gracePeriodMs } fresh).1

/-- The manager that opens the store again has done so, has one current key, and accepts the
    tokens of every key that was in use, or in its grace period, at time `now`. -/
structure Recovered (jose : Jose Key) (now : Nat) (before after : KeyManager Key) : Prop where
  initialized : after.initialized = true
  current : ∃! current, after.currentKey = some current
  verifies : ∀ key ∈ before.heldKeys,
    (before.currentKey = some key ∨ ∃ expiry, key.expiresAt = some expiry ∧ JsNumber.lt (.integer now) expiry = true) →
      ∀ token audience t, token.kid = some key.kid → jose.jwtVerify token key.key audience t = true →
        after.verify jose token audience t = true

/-- The manager holds the keys that a store gives, whose expiries can be logged. -/
structure Loaded (manager : KeyManager Key) (jwks : List (StoredKey Key)) : Prop where
  current : manager.currentKey.map (fun key => (key.key, key.kid)) =
    (jwks.filter fun jwk => !truthyTime jwk.exp).getLast?.map fun jwk => (jwk.key, jwk.kid)
  previous : (manager.previousKeys.map fun key => (key.key, key.kid, key.expiresAt)) =
    (jwks.filter fun jwk => truthyTime jwk.exp).map fun jwk => (jwk.key, jwk.kid, jwk.exp)
  loadable : ∀ jwk ∈ jwks, Loadable jwk.exp

section Loaded

variable {jwks : List (StoredKey Key)}

/-- A new process on a store that can be loaded, with a key that has no expiry, loads it. -/
theorem loaded_initializeKeys [DecidableEq Key] {jose : Jose Key} (hjose : jose.Documented)
    (hstore : manager.store = some jwks) (hloadable : ∀ jwk ∈ jwks, Loadable jwk.exp)
    (hendless : ∃ jwk ∈ jwks, truthyTime jwk.exp = false) (now : Nat) (fresh : Key) :
    ∃ opened, manager.shutdown.initializeKeys jose now fresh = (opened, .ok ()) ∧ opened.store = some jwks ∧
      opened.initialized = true ∧ Loaded opened jwks := by
  obtain ⟨jwk, hmem, hfalsy⟩ := hendless
  have hfound : jwk ∈ jwks.filter fun jwk => !truthyTime jwk.exp := List.mem_filter.mpr ⟨hmem, by simp [hfalsy]⟩
  obtain ⟨last, hlast⟩ := Option.isSome_iff_exists.mp (List.getLast?_isSome.mpr (List.ne_nil_of_mem hfound))
  have hread : manager.store.getD [] = jwks := by rw [hstore]; rfl
  obtain ⟨opened, hopened, hsame, -, hstarted, hprevious, hcurrent⟩ :=
    initializeKeys_shutdown hjose now fresh (hread ▸ hloadable) (hread ▸ hlast)
  rw [hread] at hprevious
  exact ⟨opened, hopened, hsame.trans hstore, hstarted, by rw [hcurrent, hlast]; rfl, hprevious, hloadable⟩

/-- A loaded key is in the store. -/
theorem Loaded.stored (h : Loaded manager jwks) {key : ManagedKey Key} (hkey : key ∈ manager.heldKeys) :
    ∃ jwk ∈ jwks, jwk.key = key.key ∧ jwk.kid = key.kid := by
  rcases List.mem_append.mp hkey with hcurrent | hprevious
  · have hloaded := h.current
    rw [Option.mem_toList.mp hcurrent, Option.map_some] at hloaded
    obtain ⟨jwk, hlast, hview⟩ := Option.map_eq_some_iff.mp hloaded.symm
    exact ⟨jwk, (List.mem_filter.mp (List.mem_of_getLast? hlast)).1, Prod.mk.inj hview⟩
  · have hloaded := List.mem_map_of_mem (f := fun key => (key.key, key.kid, key.expiresAt)) hprevious
    rw [h.previous] at hloaded
    obtain ⟨jwk, hmem, hview⟩ := List.mem_map.mp hloaded
    obtain ⟨hname, hrest⟩ := Prod.mk.inj hview
    exact ⟨jwk, (List.mem_filter.mp hmem).1, hname, (Prod.mk.inj hrest).1⟩

/-- A key of the store is loaded if it has an expiry, or if all keys after it have one. -/
theorem Loaded.held (h : Loaded manager jwks) {before later : List (StoredKey Key)} {jwk : StoredKey Key}
    (hsplit : jwks = before ++ jwk :: later)
    (hread : truthyTime jwk.exp = true ∨ ∀ other ∈ later, truthyTime other.exp = true) :
    ∃ key ∈ manager.heldKeys, key.key = jwk.key ∧ key.kid = jwk.kid := by
  cases htruthy : truthyTime jwk.exp with
  | true =>
    have hlisted : (jwk.key, jwk.kid, jwk.exp) ∈
        manager.previousKeys.map fun key => (key.key, key.kid, key.expiresAt) := by
      rw [h.previous]
      exact List.mem_map.mpr ⟨jwk, List.mem_filter.mpr ⟨by simp [hsplit], htruthy⟩, rfl⟩
    obtain ⟨key, hkey, hview⟩ := List.mem_map.mp hlisted
    obtain ⟨hname, hrest⟩ := Prod.mk.inj hview
    exact ⟨key, by simp [heldKeys, hkey], hname, (Prod.mk.inj hrest).1⟩
  | false =>
    have hlater := hread.resolve_left (by simp [htruthy])
    have hnone : later.filter (fun other => !truthyTime other.exp) = [] :=
      List.filter_eq_nil_iff.mpr fun other hmem => by simp [hlater other hmem]
    have hlast : (jwks.filter fun other => !truthyTime other.exp).getLast? = some jwk := by
      rw [hsplit, List.filter_append, List.filter_cons_of_pos (by simp [htruthy]), hnone]
      exact List.getLast?_concat
    have hloaded := h.current
    rw [hlast, Option.map_some] at hloaded
    obtain ⟨key, hkey, hview⟩ := Option.map_eq_some_iff.mp hloaded
    exact ⟨key, by simp [heldKeys, hkey], Prod.mk.inj hview⟩

/-- A previous key that was loaded has an expiry that can be read. -/
theorem Loaded.expiries (h : Loaded manager jwks) :
    ∀ key ∈ manager.previousKeys, ∃ expiry, key.expiresAt = some expiry ∧ Readable expiry := by
  intro key hkey
  have hlisted := List.mem_map_of_mem (f := fun key => (key.key, key.kid, key.expiresAt)) hkey
  rw [h.previous] at hlisted
  obtain ⟨jwk, hmem, hview⟩ := List.mem_map.mp hlisted
  obtain ⟨hstored, htruthy⟩ := List.mem_filter.mp hmem
  have hdate := h.loadable jwk hstored htruthy
  rw [← (Prod.mk.inj (Prod.mk.inj hview).2).2]
  cases hexp : jwk.exp with
  | none => simp [hexp, truthyTime] at htruthy
  | some expiry =>
    rw [hexp] at htruthy hdate
    exact ⟨expiry, rfl, htruthy, hdate⟩

/-- The keys held are the last of the store without an expiry, and all with one. -/
theorem Loaded.heldKeys_eq (h : Loaded manager jwks) :
    (manager.heldKeys.map fun key => (key.key, key.kid)) =
      ((jwks.filter fun jwk => !truthyTime jwk.exp).getLast?.toList ++
        jwks.filter fun jwk => truthyTime jwk.exp).map fun jwk => (jwk.key, jwk.kid) := by
  have hcurrent := congrArg Option.toList h.current
  have hprevious := congrArg (List.map fun entry => (entry.1, entry.2.1)) h.previous
  simp only [Option.toList_map, List.map_map, Function.comp_def] at hcurrent hprevious
  rw [heldKeys, List.map_append, List.map_append, hcurrent, hprevious]

/-- A key without an expiry is not loaded if one after it has none either. -/
theorem Loaded.lost (h : Loaded manager jwks) (hnodup : (jwks.map (·.key)).Nodup) {before later : List (StoredKey Key)}
    {jwk other : StoredKey Key} (hsplit : jwks = before ++ jwk :: later) (hfalsy : truthyTime jwk.exp = false)
    (hother : other ∈ later) (hendless : truthyTime other.exp = false) : jwk.key ∉ manager.heldKeys.map (·.key) := by
  intro hheld
  have hkeys := congrArg (List.map Prod.fst) h.heldKeys_eq
  simp only [List.map_map, Function.comp_def] at hkeys
  rw [hkeys] at hheld
  obtain ⟨found, hfound, hname⟩ := List.mem_map.mp hheld
  have hmem : jwk ∈ jwks := by simp [hsplit]
  rcases List.mem_append.mp hfound with hlast | htruthy
  · have hfinal := Option.mem_toList.mp hlast
    obtain rfl : found = jwk :=
      List.inj_on_of_nodup_map hnodup (List.mem_filter.mp (List.mem_of_getLast? hfinal)).1 hmem hname
    -- the last one stands after the other one, or is it
    have hafter : found ∈ later := by
      have hkept : other ∈ later.filter fun jwk => !truthyTime jwk.exp := List.mem_filter.mpr ⟨hother, by simp [hendless]⟩
      obtain ⟨last, hlater⟩ := Option.isSome_iff_exists.mp (List.getLast?_isSome.mpr (List.ne_nil_of_mem hkept))
      have hsame : some last = some found := by
        rw [← Option.mem_def.mp hfinal, hsplit, List.filter_append, List.filter_cons_of_pos (by simp [hfalsy]),
          List.getLast?_append, List.getLast?_cons, hlater]
        rfl
      obtain rfl := Option.some.inj hsame
      exact (List.mem_filter.mp (List.mem_of_getLast? hlater)).1
    have hentries : (before ++ found :: later).Nodup := hsplit ▸ List.Nodup.of_map _ hnodup
    exact (List.nodup_cons.mp (List.nodup_append.mp hentries).2.1).1 hafter
  · obtain ⟨hin, htrue⟩ := List.mem_filter.mp htruthy
    obtain rfl : found = jwk := List.inj_on_of_nodup_map hnodup hin hmem hname
    exact absurd htrue (by simp [hfalsy])

/-- Distinct keys of the store are distinct when loaded. -/
theorem Loaded.heldKeys_nodup (h : Loaded manager jwks) (hnodup : (jwks.map (·.key)).Nodup) :
    (manager.heldKeys.map (·.key)).Nodup := by
  have hlast : (jwks.filter fun jwk => !truthyTime jwk.exp).getLast?.toList.Sublist
      (jwks.filter fun jwk => !truthyTime jwk.exp) := by
    cases hfinal : (jwks.filter fun jwk => !truthyTime jwk.exp).getLast? with
    | none => exact List.nil_sublist _
    | some final => exact List.singleton_sublist.mpr (List.mem_of_getLast? hfinal)
  have hperm : ((jwks.filter fun jwk => !truthyTime jwk.exp) ++ jwks.filter fun jwk => truthyTime jwk.exp).Perm jwks :=
    List.perm_append_comm.trans (List.filter_append_perm _ jwks)
  have hkeys := congrArg (List.map Prod.fst) h.heldKeys_eq
  simp only [List.map_map, Function.comp_def] at hkeys
  rw [hkeys]
  exact ((hperm.map (·.key)).nodup_iff.mpr hnodup).sublist ((hlast.append_right _).map (·.key))

end Loaded

/-- A manager with keys under their thumbprints, all of them drawn before, and its store,
    which it has written or read. -/
structure Ready (jose : Jose Key) (drawn : List Key) (manager : KeyManager Key)
    (jwks : List (StoredKey Key)) : Prop where
  current : manager.currentKey.isSome = true
  initialized : manager.initialized = true
  store : manager.store = some jwks
  nodup : (jwks.map (·.key)).Nodup
  names : ∀ jwk ∈ jwks, jwk.key ∈ drawn ∧ jwk.kid = jose.calculateJwkThumbprint jwk.key
  synced : jwks = manager.keySet ∨ Loaded manager jwks

section Ready

variable {jose : Jose Key} {drawn : List Key} {jwks : List (StoredKey Key)}

/-- The current key is written first. -/
theorem keySet_of_current {current : ManagedKey Key} (hcurrent : manager.currentKey = some current) :
    manager.keySet = stored none current :: manager.previousKeys.map fun key => stored key.expiresAt key := by
  simp [keySet, hcurrent]

/-- The keys written are the keys held. -/
theorem keySet_keys (manager : KeyManager Key) :
    manager.keySet.map (fun jwk => (jwk.key, jwk.kid)) = manager.heldKeys.map fun key => (key.key, key.kid) := by
  simp [keySet, stored, heldKeys, Function.comp_def]

/-- A ready manager holds distinct keys. -/
theorem Ready.heldKeys_nodup (h : Ready jose drawn manager jwks) : (manager.heldKeys.map (·.key)).Nodup := by
  rcases h.synced with rfl | hloaded
  · have hkeys := congrArg (List.map Prod.fst) (keySet_keys manager)
    simp only [List.map_map, Function.comp_def] at hkeys
    rw [← hkeys]
    exact h.nodup
  · exact hloaded.heldKeys_nodup h.nodup

/-- The keys of a ready manager have been drawn, and have their thumbprints as names. -/
theorem Ready.held (h : Ready jose drawn manager jwks) {key : ManagedKey Key} (hkey : key ∈ manager.heldKeys) :
    key.key ∈ drawn ∧ key.kid = jose.calculateJwkThumbprint key.key := by
  obtain ⟨jwk, hmem, hname, hkid⟩ : ∃ jwk ∈ jwks, jwk.key = key.key ∧ jwk.kid = key.kid := by
    rcases h.synced with rfl | hloaded
    · have hlisted := List.mem_map_of_mem (f := fun key => (key.key, key.kid)) hkey
      rw [← keySet_keys] at hlisted
      obtain ⟨jwk, hmem, hview⟩ := List.mem_map.mp hlisted
      exact ⟨jwk, hmem, Prod.mk.inj hview⟩
    · exact hloaded.stored hkey
  rw [← hname, ← hkid]
  exact h.names jwk hmem

/-- The current key is none of the previous ones. -/
theorem Ready.current_apart (h : Ready jose drawn manager jwks) {current : ManagedKey Key}
    (hcurrent : manager.currentKey = some current) :
    current.key ∉ manager.previousKeys.map (·.key) := by
  have hheld := h.heldKeys_nodup
  rw [heldKeys, hcurrent, Option.toList_some, List.singleton_append, List.map_cons] at hheld
  exact (List.nodup_cons.mp hheld).1

/-- The store has a key without an expiry. -/
theorem Ready.endless (h : Ready jose drawn manager jwks) : ∃ jwk ∈ jwks, truthyTime jwk.exp = false := by
  obtain ⟨current, hcurrent⟩ := Option.isSome_iff_exists.mp h.current
  rcases h.synced with rfl | hloaded
  · exact ⟨_, by rw [keySet_of_current hcurrent]; exact List.mem_cons_self, rfl⟩
  · have hview := hloaded.current
    rw [hcurrent, Option.map_some] at hview
    obtain ⟨jwk, hlast, -⟩ := Option.map_eq_some_iff.mp hview.symm
    obtain ⟨hmem, hfalsy⟩ := List.mem_filter.mp (List.mem_of_getLast? hlast)
    exact ⟨jwk, hmem, by simpa using hfalsy⟩

/-- Drawing more keys leaves the manager ready. -/
theorem Ready.mono (h : Ready jose drawn manager jwks) (more : List Key) :
    Ready jose (drawn ++ more) manager jwks :=
  { h with names := fun jwk hmem => (h.names jwk hmem).imp_left (List.mem_append_left _) }

/-- A new process on a store of a ready manager is ready, if all expiries can be logged. -/
theorem Ready.reopen [DecidableEq Key] (hjose : jose.Documented) (h : Ready jose drawn manager jwks)
    (hloadable : ∀ jwk ∈ jwks, Loadable jwk.exp) (now : Nat) (fresh : Key) :
    ∃ opened, manager.shutdown.initializeKeys jose now fresh = (opened, .ok ()) ∧ Ready jose drawn opened jwks ∧
      Loaded opened jwks := by
  obtain ⟨jwk, hmem, hfalsy⟩ := h.endless
  obtain ⟨opened, hopened, hstore, hstarted, hloaded⟩ := loaded_initializeKeys hjose h.store hloadable h.endless now fresh
  have hcurrent : opened.currentKey.isSome = true := by
    rw [← Option.isSome_map, hloaded.current, Option.isSome_map]
    have hlast : jwk ∈ jwks.filter fun jwk => !truthyTime jwk.exp := List.mem_filter.mpr ⟨hmem, by simp [hfalsy]⟩
    exact List.getLast?_isSome.mpr (List.ne_nil_of_mem hlast)
  exact ⟨opened, hopened, ⟨hcurrent, hstarted, hstore, h.nodup, h.names, .inr hloaded⟩, hloaded⟩

/-- A manager that saves a new current key with the previous keys. -/
theorem ready_saved (manager : KeyManager Key) (previousKeys : List (ManagedKey Key))
    (hstarted : manager.initialized = true) (createdAt : Nat) {fresh : Key} (hfresh : fresh ∉ drawn)
    (hnodup : (previousKeys.map (·.key)).Nodup)
    (hnames : ∀ key ∈ previousKeys, key.key ∈ drawn ∧ key.kid = jose.calculateJwkThumbprint key.key) :
    Ready jose (drawn ++ [fresh]) (saved { manager with currentKey := some (newKey jose createdAt fresh), previousKeys })
      (keySet { manager with currentKey := some (newKey jose createdAt fresh), previousKeys }) := by
  have hnew : fresh ∉ previousKeys.map (·.key) := fun hmem => by
    obtain ⟨key, hkey, rfl⟩ := List.mem_map.mp hmem
    exact hfresh (hnames key hkey).1
  have hkeys := congrArg (List.map Prod.fst)
    (keySet_keys { manager with currentKey := some (newKey jose createdAt fresh), previousKeys })
  simp only [List.map_map, Function.comp_def] at hkeys
  constructor
  case current => rfl
  case initialized => exact hstarted
  case store => rfl
  case nodup =>
    rw [hkeys]
    exact List.nodup_cons.mpr ⟨hnew, hnodup⟩
  case names =>
    intro jwk hmem
    rcases List.mem_cons.mp hmem with rfl | hprevious
    · exact ⟨List.mem_append_right _ List.mem_cons_self, rfl⟩
    · obtain ⟨key, hkey, rfl⟩ := List.mem_map.mp hprevious
      exact (hnames key hkey).imp_left (List.mem_append_left _)
  case synced => exact .inl rfl

/-- A rotation that can export its keys leaves the manager ready. -/
theorem Ready.rotate [DecidableEq Key] (hjose : jose.Documented) {oldKey : ManagedKey Key} (h : Ready jose drawn manager jwks)
    (hold : manager.currentKey = some oldKey) (createdAt now : Nat) {options : RotateOptions}
    (hexportable : manager.Exportable options) {fresh : Key} (hfresh : fresh ∉ drawn) :
    Ready jose (drawn ++ [fresh]) (manager.rotate jose createdAt now options fresh).1
      (manager.rotate jose createdAt now options fresh).1.keySet := by
  rw [rotate_of_current hjose hold createdAt now hexportable]
  have hheld := h.heldKeys_nodup
  rw [heldKeys, hold, Option.toList_some, List.singleton_append, List.map_cons, List.nodup_cons] at hheld
  refine ready_saved manager _ h.initialized createdAt hfresh ?_ fun key hkey => ?_
  · split
    case isTrue => exact List.nodup_nil
    case isFalse =>
      rw [List.map_append, List.nodup_append]
      refine ⟨hheld.2, List.nodup_singleton _, fun key hkey other hother heq => hheld.1 ?_⟩
      obtain rfl : other = oldKey.key := by simpa using hother
      exact heq ▸ hkey
  · split at hkey
    case isTrue => cases hkey
    case isFalse =>
      rcases List.mem_append.mp hkey with hkey | hkey
      · exact h.held (by simp [heldKeys, hkey])
      · have hheldOld := h.held (show oldKey ∈ manager.heldKeys by simp [heldKeys, hold])
        rw [List.mem_singleton.mp hkey]
        exact hheldOld

/-- A restart that can read what the manager has saved can read the expiry of every previous
    key. -/
theorem readable_saved {current : ManagedKey Key} (hcurrent : manager.currentKey = some current)
    (hstore : manager.store = some manager.keySet) {now : Nat} {fresh : Key}
    (hcompletes : manager.Completes (.restart now fresh)) :
    ∀ key ∈ manager.previousKeys, ∃ expiry, writtenTime key.expiresAt = some expiry ∧ Readable expiry := by
  have hread : manager.store.getD [] = manager.keySet := by rw [hstore]; rfl
  simp only [Completes, hread, keySet_of_current hcurrent, List.tail_cons] at hcompletes
  exact fun key hkey => hcompletes _ (List.mem_map_of_mem (f := fun key => stored key.expiresAt key) hkey)

/-- A store that a restart can read can be loaded. -/
theorem Ready.loadable (h : Ready jose drawn manager jwks) {now : Nat} {fresh : Key}
    (hcompletes : manager.Completes (.restart now fresh)) : ∀ jwk ∈ jwks, Loadable jwk.exp := by
  rcases h.synced with rfl | hloaded
  · obtain ⟨current, hcurrent⟩ := Option.isSome_iff_exists.mp h.current
    rw [keySet_of_current hcurrent]
    refine List.forall_mem_cons.mpr ⟨fun htruthy => (by cases htruthy), fun jwk hmem => ?_⟩
    obtain ⟨key, hkey, rfl⟩ := List.mem_map.mp hmem
    obtain ⟨expiry, hwritten, hreadable⟩ := readable_saved hcurrent h.store hcompletes key hkey
    rw [stored, hwritten]
    exact hreadable.loadable
  · exact hloaded.loadable

/-- So does every event that runs to its end. -/
theorem Ready.step [DecidableEq Key] (hjose : jose.Documented) (h : Ready jose drawn manager jwks) {event : Event Key}
    (hcompletes : manager.Completes event) (hfresh : event.fresh ∉ drawn) :
    ∃ later, Ready jose (drawn ++ [event.fresh]) (manager.step jose event) later := by
  cases event with
  | init now fresh =>
    have hunchanged : manager.step jose (.init now fresh) = manager := by
      simp [KeyManager.step, initializeKeys, h.initialized]
    rw [hunchanged]
    exact ⟨jwks, h.mono [fresh]⟩
  | restart now fresh =>
    obtain ⟨opened, hopened, hready, -⟩ := h.reopen hjose (h.loadable hcompletes) now fresh
    rw [KeyManager.step, hopened]
    exact ⟨jwks, hready.mono [fresh]⟩
  | rotate createdAt now options fresh =>
    obtain ⟨oldKey, hold⟩ := Option.isSome_iff_exists.mp h.current
    exact ⟨_, h.rotate hjose hold createdAt now (hcompletes h.current) hfresh⟩

/-- So does every run of such events. -/
theorem run_ready [DecidableEq Key] (hjose : jose.Documented) {configured : Option JsNumber} {start : Nat} {first : Key}
    {events : List (Event Key)}
    (hcompletes : Runs.EachStep (step jose) Completes { gracePeriodMs := configured } (.init start first :: events))
    (hfresh : (first :: events.map Event.fresh).Nodup) :
    ∃ jwks, Ready jose (first :: events.map Event.fresh) (run jose configured (.init start first :: events)) jwks := by
  induction events using List.reverseRecOn with
  | nil =>
    rw [run, Runs.run_cons, KeyManager.step, initializeKeys_empty hjose]
    exact ⟨_, ready_saved { gracePeriodMs := configured, initialized := true } [] rfl start List.not_mem_nil
      List.nodup_nil (by simp)⟩
  | append_singleton events event ih =>
    rw [List.map_append, ← List.cons_append, List.nodup_append] at hfresh
    rw [← List.cons_append] at hcompletes
    obtain ⟨hearly, hlast, -⟩ := (Runs.eachStep_append _).mp hcompletes
    obtain ⟨jwks, hready⟩ := ih hearly hfresh.1
    rw [run, ← List.cons_append, Runs.run_concat, List.map_append, ← List.cons_append]
    exact hready.step hjose hlast fun hmem => hfresh.2.2 _ hmem _ (by simp) rfl

variable {current : ManagedKey Key}

/-- With an expiry for every previous key, what the manager has saved gives its keys
    again. -/
theorem held_again {after : KeyManager Key} (hloaded : Loaded after manager.keySet)
    (hcurrent : manager.currentKey = some current)
    (hexpiries : ∀ key ∈ manager.previousKeys, truthyTime (writtenTime key.expiresAt) = true) {key : ManagedKey Key}
    (hheld : key ∈ manager.heldKeys) : ∃ held ∈ after.heldKeys, held.key = key.key ∧ held.kid = key.kid := by
  have hentries : ∀ jwk ∈ manager.previousKeys.map (fun key => stored key.expiresAt key), truthyTime jwk.exp = true := by
    intro jwk hmem
    obtain ⟨key, hkey, rfl⟩ := List.mem_map.mp hmem
    exact hexpiries key hkey
  rw [keySet_of_current hcurrent] at hloaded
  rcases List.mem_append.mp hheld with hmem | hmem
  · obtain rfl : current = key := Option.some.inj (hcurrent.symm.trans (Option.mem_toList.mp hmem))
    exact hloaded.held (List.nil_append _).symm (.inr hentries)
  · obtain ⟨before, later, hsplit⟩ := List.append_of_mem
      (List.mem_map_of_mem (f := fun key => stored key.expiresAt key) hmem)
    rw [hsplit, ← List.cons_append] at hloaded
    exact hloaded.held rfl (.inl (hexpiries key hmem))

end Ready

section Recovery

variable [DecidableEq Key] {jose : Jose Key} {drawn : List Key} {jwks : List (StoredKey Key)}

omit [DecidableEq Key] in
/-- A ready manager accepts the tokens of the keys that it holds, and of no others. -/
theorem Ready.verify_of_held (h : Ready jose drawn manager jwks) (hnames : (drawn.map jose.calculateJwkThumbprint).Nodup)
    {held : ManagedKey Key} (hheld : held ∈ manager.heldKeys) {token : Token Key} {audience : Option (List String)}
    {t : Nat} (hkid : token.kid = some held.kid) (haccepted : jose.jwtVerify token held.key audience t = true) :
    manager.verify jose token audience t = true := by
  obtain ⟨key, hresolved⟩ := resolveKey_of_held hheld
  obtain ⟨other, hother, rfl, hname⟩ := resolveKey_held hresolved
  have hsame : other.key = held.key := by
    obtain ⟨hdrawn, hthumb⟩ := h.held hheld
    obtain ⟨hdrawn', hthumb'⟩ := h.held hother
    refine List.inj_on_of_nodup_map hnames hdrawn' hdrawn ?_
    rw [← hthumb, ← hthumb', Option.some.inj hname]
  rw [verify, hkid, hresolved]
  exact hsame ▸ haccepted

/-- Where a key in use or in grace is not held afterwards, the manager has not recovered. -/
theorem not_recovered (hjose : jose.Documented) {now : Nat} {after : KeyManager Key} {key : ManagedKey Key}
    (hheld : key ∈ manager.heldKeys)
    (hvalid : manager.currentKey = some key ∨
      ∃ expiry, key.expiresAt = some expiry ∧ JsNumber.lt (.integer now) expiry = true)
    (hlost : key.key ∉ after.heldKeys.map (·.key)) : ¬ Recovered jose now manager after := by
  intro hrecovered
  have hverified := hrecovered.verifies key hheld hvalid { signer := key.key, kid := some key.kid, exp := 1 } none 0 rfl
    (by simp [hjose.verifies, Token.accepted])
  exact hlost (by simpa [getJwks, heldKeys, Function.comp_def] using verify_held hjose hverified)

omit [DecidableEq Key] in
/-- A manager that still holds the keys in use or in grace has recovered. -/
theorem Ready.recovered {before : KeyManager Key} {now : Nat} (h : Ready jose drawn manager jwks)
    (hnames : (drawn.map jose.calculateJwkThumbprint).Nodup)
    (hheld : ∀ key ∈ before.heldKeys,
      (before.currentKey = some key ∨ ∃ expiry, key.expiresAt = some expiry ∧ JsNumber.lt (.integer now) expiry = true) →
        ∃ held ∈ manager.heldKeys, held.key = key.key ∧ held.kid = key.kid) : Recovered jose now before manager := by
  obtain ⟨current, hcurrent⟩ := Option.isSome_iff_exists.mp h.current
  refine ⟨h.initialized, ⟨current, hcurrent, fun other hother => Option.some.inj (hother.symm.trans hcurrent)⟩, ?_⟩
  intro key hkey hvalid token audience t hkid haccepted
  obtain ⟨held, hmem, hname, hheldKid⟩ := hheld key hkey hvalid
  exact h.verify_of_held hnames hmem (hheldKid ▸ hkid) (hname ▸ haccepted)

variable {current : ManagedKey Key} {point : Interruption} {createdAt now again : Nat} {gracePeriodMs : Option JsNumber}
  {fresh freshAgain : Key}

omit [DecidableEq Key] in
/-- A store with an expiry that cannot be logged is not opened again. -/
theorem not_recovered_of_unloadable {before : KeyManager Key} (hstore : manager.store = some jwks)
    (hunloadable : ¬ ∀ jwk ∈ jwks, Loadable jwk.exp) :
    ¬ Recovered jose createdAt before (manager.shutdown.initializeKeys jose again freshAgain).1 := by
  intro hrecovered
  have hfailed : (manager.shutdown.initializeKeys jose again freshAgain).1.initialized = false := by
    refine initializeKeys_error ?_ freshAgain
    rw [hstore]
    simpa using hunloadable
  exact absurd hrecovered.initialized (by rw [hfailed]; exact Bool.false_ne_true)

/-- The first write of a rotation drops the key in use from the store. -/
theorem Ready.lost_between (hjose : jose.Documented) (h : Ready jose drawn manager jwks)
    (hexportable : manager.Exportable { gracePeriodMs }) (hfresh : fresh ∉ drawn) :
    ¬ Recovered jose createdAt manager
      ((manager.generateNewKey jose createdAt fresh).1.shutdown.initializeKeys jose again freshAgain).1 := by
  obtain ⟨current, hcurrent⟩ := Option.isSome_iff_exists.mp h.current
  have hmem : current ∈ manager.heldKeys := by simp [heldKeys, hcurrent]
  rw [generateNewKey_eq hjose hexportable.previous]
  generalize hgenerated : saved { manager with currentKey := some (newKey jose createdAt fresh) } = generated
  have hstore : generated.store = some (stored none (newKey jose createdAt fresh) ::
      manager.previousKeys.map fun key => stored key.expiresAt key) := by
    rw [← hgenerated]
    rfl
  by_cases hloadable : ∀ jwk ∈ stored none (newKey jose createdAt fresh) ::
      manager.previousKeys.map (fun key => stored key.expiresAt key), Loadable jwk.exp
  · obtain ⟨opened, hopened, -, -, hloaded⟩ := loaded_initializeKeys hjose hstore hloadable
      ⟨_, List.mem_cons_self, rfl⟩ again freshAgain
    rw [hopened]
    refine not_recovered hjose hmem (.inl hcurrent) fun hheld => ?_
    obtain ⟨held, hheld, hname⟩ := List.mem_map.mp hheld
    obtain ⟨jwk, hstored, hkey, -⟩ := hloaded.stored hheld
    rcases List.mem_cons.mp hstored with rfl | hprevious
    · have hnew : fresh = current.key := hkey.trans hname
      exact hfresh (hnew ▸ (h.held hmem).1)
    · obtain ⟨previous, hin, rfl⟩ := List.mem_map.mp hprevious
      exact h.current_apart hcurrent (List.mem_map.mpr ⟨previous, hin, hkey.trans hname⟩)
  · exact not_recovered_of_unloadable hstore hloadable

/-- A time that has not come yet is kept in the store, unless it never comes. -/
theorem truthy_of_later {t : Nat} {expiry : JsNumber} (hlater : JsNumber.lt (.integer t) expiry = true) :
    truthyTime (writtenTime (some expiry)) = true ∨ expiry = .infinity := by
  cases expiry with
  | nan | negInfinity => cases hlater
  | infinity => exact .inr rfl
  | integer value =>
    have hpositive : (t : Int) < value := by simpa [JsNumber.lt] using hlater
    have hnonzero : value ≠ 0 := by omega
    exact .inl (by simpa [truthyTime, writtenTime, JsNumber.finite, JsNumber.truthy] using hnonzero)

/-- Of what a rotation writes, all that comes after a key in grace for ever has an expiry that
    is read back. -/
def EndlessLast (manager : KeyManager Key) (expiry : JsNumber) : Prop :=
  ∀ before key later, manager.previousKeys = before ++ key :: later → key.expiresAt = some .infinity →
    ∀ time ∈ later.map (·.expiresAt) ++ [some expiry], truthyTime (writtenTime time) = true

/-- What a rotation with a grace period writes: the new key, the previous ones, and the old one
    with its expiry. -/
theorem rotate_keySet (hjose : jose.Documented) (hcurrent : manager.currentKey = some current) (createdAt now : Nat)
    (hexportable : manager.Exportable { gracePeriodMs }) (fresh : Key) :
    (manager.rotate jose createdAt now { gracePeriodMs } fresh).1.keySet =
      (stored none (newKey jose createdAt fresh) :: manager.previousKeys.map fun key => stored key.expiresAt key) ++
        [stored (some (graceEnd manager.gracePeriodMs { gracePeriodMs } now)) current] := by
  rw [rotate_of_current hjose hcurrent createdAt now hexportable]
  simp [saved, keySet, stored]

omit [DecidableEq Key] in
/-- The keys that a process has loaded of what a rotation has written: the retired one, and of
    the others the ones with an expiry and the last one without. -/
theorem endlessLast_iff {after : KeyManager Key} {first retired : StoredKey Key} {expiry : JsNumber}
    (hretired : retired.exp = writtenTime (some expiry))
    (hloaded : Loaded after ((first :: manager.previousKeys.map fun key => stored key.expiresAt key) ++ [retired]))
    (hnodup : (((first :: manager.previousKeys.map fun key => stored key.expiresAt key) ++ [retired]).map (·.key)).Nodup) :
    manager.EndlessLast expiry ↔ ∀ key ∈ manager.previousKeys, key.expiresAt = some .infinity →
      ∃ held ∈ after.heldKeys, held.key = key.key ∧ held.kid = key.kid := by
  have hwritten (later : List (ManagedKey Key)) :
      (∀ time ∈ later.map (·.expiresAt) ++ [some expiry], truthyTime (writtenTime time) = true) ↔
        ∀ other ∈ later.map (fun key => stored key.expiresAt key) ++ [retired], truthyTime other.exp = true := by
    simp only [List.forall_mem_append, List.forall_mem_map, List.forall_mem_singleton, hretired]
    rfl
  have hentries (before later : List (ManagedKey Key)) (key : ManagedKey Key)
      (hsplit : manager.previousKeys = before ++ key :: later) :
      (first :: manager.previousKeys.map fun key => stored key.expiresAt key) ++ [retired] =
        (first :: before.map fun key => stored key.expiresAt key) ++ stored key.expiresAt key ::
          (later.map (fun key => stored key.expiresAt key) ++ [retired]) := by
    rw [hsplit]
    simp
  constructor
  · intro hlast key hmem hendless
    obtain ⟨before, later, hsplit⟩ := List.append_of_mem hmem
    exact hloaded.held (hentries before later key hsplit) (.inr ((hwritten later).mp (hlast before key later hsplit hendless)))
  · intro hheld before key later hsplit hendless
    refine (hwritten later).mpr fun other hother => ?_
    by_contra hfalsy
    obtain ⟨held, hin, hname, -⟩ := hheld key (by simp [hsplit]) hendless
    refine hloaded.lost hnodup (hentries before later key hsplit) ?_ hother (Bool.eq_false_iff.mpr hfalsy)
      (List.mem_map.mpr ⟨held, hin, hname⟩)
    simp [stored, hendless, writtenTime, truthyTime, JsNumber.finite]

omit [DecidableEq Key] in
/-- The expiries of what a rotation has written can be logged if those of the previous keys
    and of the retired one can: the new key has none. -/
theorem written_loadable_iff {retired : StoredKey Key} {expiry : JsNumber}
    (hretired : retired.exp = writtenTime (some expiry)) :
    (∀ jwk ∈ (stored none (newKey jose createdAt fresh) ::
        manager.previousKeys.map fun key => stored key.expiresAt key) ++ [retired], Loadable jwk.exp) ↔
      (∀ key ∈ manager.previousKeys, Loadable (writtenTime key.expiresAt)) ∧ Loadable (writtenTime (some expiry)) := by
  have hnew : Loadable (stored none (newKey jose createdAt fresh)).exp := fun htruthy => by cases htruthy
  rw [List.forall_mem_append, List.forall_mem_cons, List.forall_mem_singleton, hretired]
  simp only [hnew, true_and, List.forall_mem_map]
  rfl

/-- Both writes leave every key that is needed in the store. It is opened again if its
    expiries can be logged, and of the keys in grace for ever it gives the last one. -/
theorem Ready.recovered_after_iff (hjose : jose.Documented) (h : Ready jose drawn manager jwks)
    (hexportable : manager.Exportable { gracePeriodMs })
    (hnames : ((drawn ++ [fresh]).map jose.calculateJwkThumbprint).Nodup) (hfresh : fresh ∉ drawn) :
    Recovered jose createdAt manager
        ((manager.rotate jose createdAt now { gracePeriodMs } fresh).1.shutdown.initializeKeys jose again freshAgain).1 ↔
      (∀ key ∈ manager.previousKeys, Loadable (writtenTime key.expiresAt)) ∧
        Loadable (writtenTime (some (graceEnd manager.gracePeriodMs { gracePeriodMs } now))) ∧
          manager.EndlessLast (graceEnd manager.gracePeriodMs { gracePeriodMs } now) := by
  obtain ⟨current, hcurrent⟩ := Option.isSome_iff_exists.mp h.current
  have hrotated := h.rotate hjose hcurrent createdAt now hexportable hfresh
  rw [rotate_keySet hjose hcurrent createdAt now hexportable fresh] at hrotated
  generalize graceEnd manager.gracePeriodMs { gracePeriodMs } now = expiry at hrotated ⊢
  generalize hretired : stored (some expiry) current = retired at hrotated
  have hexpiry : retired.exp = writtenTime (some expiry) := by rw [← hretired]; rfl
  rw [← and_assoc, ← written_loadable_iff hexpiry]
  by_cases hloadable : ∀ jwk ∈ (stored none (newKey jose createdAt fresh) ::
      manager.previousKeys.map fun key => stored key.expiresAt key) ++ [retired], Loadable jwk.exp
  · obtain ⟨opened, hopened, hready, hloaded⟩ := hrotated.reopen hjose hloadable again freshAgain
    rw [hopened, endlessLast_iff hexpiry hloaded hrotated.nodup]
    constructor
    · refine fun hrecovered => ⟨hloadable, fun key hmem hendless => Classical.byContradiction fun hlost => ?_⟩
      refine not_recovered hjose (List.mem_append_right _ hmem) (.inr ⟨_, hendless, rfl⟩) (fun hin => hlost ?_) hrecovered
      obtain ⟨held, hheld, hname⟩ := List.mem_map.mp hin
      have hkid : held.kid = key.kid := by
        rw [(hready.held hheld).2, (h.held (List.mem_append_right _ hmem)).2, hname]
      exact ⟨held, hheld, hname, hkid⟩
    · rintro ⟨-, hendless⟩
      refine hready.recovered hnames fun key hheld hvalid => ?_
      rcases List.mem_append.mp hheld with hmem | hmem
      · obtain rfl : current = key := Option.some.inj (hcurrent.symm.trans (Option.mem_toList.mp hmem))
        have hlast : ∀ other ∈ ([] : List (StoredKey Key)), truthyTime other.exp = true := by simp
        obtain ⟨held, hin, hname, hkid⟩ := hloaded.held rfl (.inr hlast)
        exact ⟨held, hin, hname.trans (by rw [← hretired]; rfl), hkid.trans (by rw [← hretired]; rfl)⟩
      · rcases hvalid with hcurrent' | ⟨expiry', hexpires, hahead⟩
        · obtain rfl : current = key := Option.some.inj (hcurrent.symm.trans hcurrent')
          exact absurd (List.mem_map_of_mem hmem) (h.current_apart hcurrent)
        · rcases truthy_of_later hahead with htruthy | rfl
          · have hread : truthyTime (stored key.expiresAt key).exp = true := by rw [hexpires]; exact htruthy
            have hwritten : stored key.expiresAt key ∈ (stored none (newKey jose createdAt fresh) ::
                manager.previousKeys.map fun key => stored key.expiresAt key) ++ [retired] :=
              List.mem_append_left _ (List.mem_cons_of_mem _ (List.mem_map_of_mem hmem))
            obtain ⟨before, later, hsplit⟩ := List.append_of_mem hwritten
            exact hloaded.held hsplit (.inl hread)
          · exact hendless key hmem hexpires
  · exact iff_of_false (not_recovered_of_unloadable hrotated.store hloadable) fun hcond => hloadable hcond.1

/-- An expiry is read as it was saved exactly if it can be read at all. -/
theorem readable_iff {expiresAt : Option JsNumber} :
    (∃ expiry, expiresAt = some expiry ∧ Readable expiry) ↔
      truthyTime (writtenTime expiresAt) = true ∧ Loadable (writtenTime expiresAt) := by
  cases expiresAt with
  | none => simp [writtenTime, truthyTime]
  | some expiry =>
    cases expiry with
    | nan | infinity | negInfinity => simp [writtenTime, truthyTime, JsNumber.finite, Readable, isDate]
    | integer value =>
      simp only [writtenTime, truthyTime, JsNumber.finite, Readable, Loadable, Option.filter_some, Option.any_some,
        if_true, Option.some.injEq, exists_eq_left']
      exact and_congr_right fun htruthy => ⟨fun hdate _ => hdate, fun hloadable => hloadable htruthy⟩

/-- Without a write, the store gives the keys again unless one has an expiry that cannot be
    read. -/
theorem Ready.recovered_before_iff (hjose : jose.Documented) (h : Ready jose drawn manager jwks)
    (hnames : (drawn.map jose.calculateJwkThumbprint).Nodup) :
    Recovered jose createdAt manager (manager.shutdown.initializeKeys jose again freshAgain).1 ↔
      ∀ key ∈ manager.previousKeys, ∃ expiry, key.expiresAt = some expiry ∧ Readable expiry := by
  obtain ⟨current, hcurrent⟩ := Option.isSome_iff_exists.mp h.current
  by_cases hloadable : ∀ jwk ∈ jwks, Loadable jwk.exp
  · obtain ⟨opened, hopened, hready, hloaded⟩ := h.reopen hjose hloadable again freshAgain
    rw [hopened]
    rcases h.synced with rfl | hsynced
    · constructor
      · intro hrecovered key hkey
        refine readable_iff.mpr ⟨?_, ?_⟩
        · by_contra hfalsy
          refine not_recovered hjose (by simp [heldKeys, hcurrent]) (.inl hcurrent) ?_ hrecovered
          have hwritten : stored key.expiresAt key ∈ manager.previousKeys.map fun key => stored key.expiresAt key :=
            List.mem_map_of_mem hkey
          have hread : truthyTime (stored none current).exp = false := rfl
          have hfalsy : truthyTime (stored key.expiresAt key).exp = false := Bool.eq_false_iff.mpr hfalsy
          exact hloaded.lost h.nodup ((keySet_of_current hcurrent).trans (List.nil_append _).symm) hread hwritten hfalsy
        · rw [keySet_of_current hcurrent] at hloadable
          exact (List.forall_mem_cons.mp hloadable).2 _ (List.mem_map_of_mem (f := fun key => stored key.expiresAt key) hkey)
      · intro hreadable
        exact hready.recovered hnames fun key hheld _ =>
          held_again hloaded hcurrent (fun key hkey => (readable_iff.mp (hreadable key hkey)).1) hheld
    · -- the manager has read its keys from the store, and reads them again
      refine iff_of_true (hready.recovered hnames fun key hheld _ => ?_) hsynced.expiries
      have hlisted := List.mem_map_of_mem (f := fun key => (key.key, key.kid)) hheld
      rw [hsynced.heldKeys_eq, ← hloaded.heldKeys_eq] at hlisted
      obtain ⟨held, hin, hview⟩ := List.mem_map.mp hlisted
      exact ⟨held, hin, Prod.mk.inj hview⟩
  · refine iff_of_false (not_recovered_of_unloadable h.store hloadable) fun hreadable => hloadable ?_
    rcases h.synced with rfl | hsynced
    · rw [keySet_of_current hcurrent]
      refine List.forall_mem_cons.mpr ⟨fun htruthy => (by cases htruthy), fun jwk hmem => ?_⟩
      obtain ⟨key, hkey, rfl⟩ := List.mem_map.mp hmem
      exact (readable_iff.mp (hreadable key hkey)).2
    · exact hsynced.loadable

/-- In a run whose rotations and restarts run to their end, after a rotation with a grace
    period that has stopped at some point: the store gives the keys again exactly when no
    write was done and every previous key has an expiry that can be read, or both were, no
    expiry stops the next process, and a key in grace for ever is the last without one. -/
theorem interrupt_recovered_iff (hjose : jose.Documented) {configured : Option JsNumber} {start : Nat} {first : Key}
    {events : List (Event Key)}
    (hnames : ((first :: events.map Event.fresh ++ [fresh]).map jose.calculateJwkThumbprint).Nodup)
    (hcompletes : Runs.EachStep (step jose) Completes { gracePeriodMs := configured } (.init start first :: events))
    (hexportable : (run jose configured (.init start first :: events)).Exportable { gracePeriodMs }) :
    Recovered jose createdAt (run jose configured (.init start first :: events))
        (((run jose configured (.init start first :: events)).interrupt jose point createdAt now
          gracePeriodMs fresh).shutdown.initializeKeys jose again freshAgain).1 ↔
      (point = .beforeWrites ∧ ∀ key ∈ (run jose configured (.init start first :: events)).previousKeys,
          ∃ expiry, key.expiresAt = some expiry ∧ Readable expiry) ∨
        point = .afterWrites ∧
          (∀ key ∈ (run jose configured (.init start first :: events)).previousKeys,
            Loadable (writtenTime key.expiresAt)) ∧
          Loadable (writtenTime
            (some (graceEnd (run jose configured (.init start first :: events)).gracePeriodMs { gracePeriodMs } now))) ∧
          (run jose configured (.init start first :: events)).EndlessLast
            (graceEnd (run jose configured (.init start first :: events)).gracePeriodMs { gracePeriodMs } now) := by
  have hdrawn := List.nodup_append.mp hnames.of_map
  obtain ⟨jwks, hready⟩ := run_ready hjose hcompletes hdrawn.1
  have hfresh : fresh ∉ first :: events.map Event.fresh := fun hmem =>
    hdrawn.2.2 _ hmem _ (List.mem_singleton_self _) rfl
  cases point with
  | beforeWrites =>
    rw [List.map_append] at hnames
    simpa [interrupt] using hready.recovered_before_iff hjose (List.nodup_append.mp hnames).1
  | betweenWrites => simpa [interrupt] using hready.lost_between hjose hexportable hfresh
  | afterWrites => simpa [interrupt] using hready.recovered_after_iff hjose hexportable hnames hfresh

theorem recovered_after_writes :
    Recovered numberedKeys 2000 (run numberedKeys none [.init 1000 0])
      (((run numberedKeys none [.init 1000 0]).interrupt numberedKeys .afterWrites 2000 2000 none
        1).shutdown.initializeKeys numberedKeys 3000 2).1 := by
  have hcompletes : Runs.EachStep (step numberedKeys) Completes { gracePeriodMs := none } [.init 1000 0] := ⟨trivial, trivial⟩
  have hnone : ∀ key, key ∉ (run numberedKeys none [.init 1000 0]).previousKeys := fun _ => List.not_mem_nil
  have hcurrent : ∀ key ∈ (run numberedKeys none [.init 1000 0]).currentKey, key.extractable = true := by
    intro key hkey
    obtain rfl := Option.some.inj hkey
    rfl
  refine (interrupt_recovered_iff numberedKeys_documented (by decide) hcompletes
    ⟨fun key hkey => absurd hkey (hnone key), fun _ => hcurrent⟩).mpr
    (.inr ⟨rfl, fun key hkey => absurd hkey (hnone key), fun _ => rfl, fun before key later hsplit _ => ?_⟩)
  exact absurd (show key ∈ _ by rw [hsplit]; simp) (hnone key)

/-- A crash after the first write of the first rotation loses the key in use. -/
theorem lost_between_writes :
    ¬ Recovered numberedKeys 2000 (run numberedKeys none [.init 1000 0])
      (((run numberedKeys none [.init 1000 0]).interrupt numberedKeys .betweenWrites 2000 2000 none
        1).shutdown.initializeKeys numberedKeys 3000 2).1 := by
  intro hrecovered
  have hverified := hrecovered.verifies { key := 0, kid := "0", createdAt := 1000, extractable := true } (by decide) (.inl rfl)
    { signer := 0, kid := some "0", exp := 10 } none 3000 rfl (by decide)
  exact absurd hverified (by decide)

end Recovery

end CatalystRouter.KeyManager
