import CatalystRouter.Authorization.KeyManager

namespace CatalystRouter.KeyManager

/-! What the manager of a process writes to its `IKeyStore`, and reads of it. -/

variable {Key : Type} {manager : KeyManager Key} {now : Nat}

/-! ### Writing the store -/

/-- The entry of a key in the store, if it can be exported. -/
def stored (expiresAt : Option JsNumber) (key : ManagedKey Key) : StoredKey Key :=
  { key := key.key, kid := key.kid, iat := key.createdAt, exp := writtenTime expiresAt }

/-- What `persist` writes, if all keys can be exported. -/
def keySet (manager : KeyManager Key) : List (StoredKey Key) :=
  manager.currentKey.toList.map (stored none) ++ manager.previousKeys.map fun key => stored key.expiresAt key

/-- The manager with its keys in the store. -/
def saved (manager : KeyManager Key) : KeyManager Key := { manager with store := some manager.keySet }

/-- A time that can be logged when it is read as an expiry. -/
def Loadable (time : Option JsNumber) : Prop := truthyTime time = true → time.any isDate = true

/-- Loading one key only reads the store. -/
theorem loadKey_same (jose : Jose Key) (now : Nat) (manager : KeyManager Key) (jwk : StoredKey Key) :
    (manager.loadKey jose now jwk).1.initialized = manager.initialized ∧
      (manager.loadKey jose now jwk).1.store = manager.store := by
  unfold loadKey
  split
  · exact ⟨rfl, rfl⟩
  · dsimp only
    split
    · split <;> exact ⟨rfl, rfl⟩
    · exact ⟨rfl, rfl⟩

/-- Loading only reads the store. -/
theorem loadKeys_same (jose : Jose Key) (now : Nat) (jwks : List (StoredKey Key)) (manager : KeyManager Key) :
    (manager.loadKeys jose now jwks).1.initialized = manager.initialized ∧
      (manager.loadKeys jose now jwks).1.store = manager.store := by
  induction jwks generalizing manager with
  | nil => exact ⟨rfl, rfl⟩
  | cons jwk rest ih =>
    have hfirst := loadKey_same jose now manager jwk
    rw [loadKeys]
    split
    · rename_i loaded error hload
      rwa [hload] at hfirst
    · rename_i loaded hload
      rw [hload] at hfirst
      exact ⟨(ih loaded).1.trans hfirst.1, (ih loaded).2.trans hfirst.2⟩

/-- A key whose expiry cannot be logged stops the loading. -/
theorem loadKeys_error (jose : Jose Key) (now : Nat) {jwks : List (StoredKey Key)} (h : ∃ jwk ∈ jwks, ¬ Loadable jwk.exp)
    (manager : KeyManager Key) : ∃ error, (manager.loadKeys jose now jwks).2 = .error error := by
  induction jwks generalizing manager with
  | nil => simp at h
  | cons jwk rest ih =>
    rw [loadKeys]
    split
    case h_1 loaded error hload => exact ⟨error, rfl⟩
    case h_2 loaded hload =>
      obtain ⟨other, hmem, hbad⟩ := h
      rcases List.mem_cons.mp hmem with rfl | hrest
      · exfalso
        -- the key itself would have stopped it
        have htruthy : truthyTime other.exp = true := Classical.byContradiction fun hfalsy =>
          hbad fun htrue => absurd htrue hfalsy
        have hthrows : logTime other.exp = .error "Invalid time value" := by
          have hnot : other.exp.any isDate = false := Bool.eq_false_iff.mpr fun hdate => hbad fun _ => hdate
          simp [logTime, htruthy, hnot]
        unfold loadKey at hload
        split at hload
        · cases hload
        · simp [htruthy, hthrows] at hload
      · exact ih ⟨other, hrest, hbad⟩ loaded

/-- A new process on a store with such a key does not get through `initialize`. -/
theorem initializeKeys_error {jose : Jose Key} (h : ∃ jwk ∈ manager.store.getD [], ¬ Loadable jwk.exp) (fresh : Key) :
    (manager.shutdown.initializeKeys jose now fresh).1.initialized = false := by
  obtain ⟨error, hfailed⟩ := loadKeys_error jose now h manager.shutdown
  have hsame := (loadKeys_same jose now (manager.store.getD []) manager.shutdown).1
  have hfrom : manager.shutdown.store = manager.store := rfl
  have hstart : manager.shutdown.initialized = false := rfl
  simp only [initializeKeys, hstart, hfrom, Bool.false_eq_true, if_false]
  generalize manager.shutdown.loadKeys jose now (manager.store.getD []) = result at hfailed hsame
  obtain ⟨loaded, done⟩ := result
  dsimp only at hfailed hsame ⊢
  rw [hfailed]
  exact hsame.trans hstart

/-- All keys that the manager holds, and all in its store, are among these. -/
structure Within (among : Key → Prop) (manager : KeyManager Key) : Prop where
  held : ∀ key ∈ manager.heldKeys, among key.key
  store : ∀ jwks ∈ manager.store, ∀ jwk ∈ jwks, among jwk.key

variable {among : Key → Prop}

theorem Within.mono {more : Key → Prop} (h : manager.Within among) (hmore : ∀ key, among key → more key) :
    manager.Within more :=
  ⟨fun key hkey => hmore _ (h.held key hkey), fun jwks hjwks jwk hjwk => hmore _ (h.store jwks hjwks jwk hjwk)⟩

theorem Within.saved (h : manager.Within among) : manager.saved.Within among where
  held := h.held
  store := by
    intro jwks hjwks jwk hjwk
    obtain rfl : manager.keySet = jwks := Option.some.inj hjwks
    rcases List.mem_append.mp hjwk with hcurrent | hprevious
    · obtain ⟨key, hkey, rfl⟩ := List.mem_map.mp hcurrent
      exact h.held key (List.mem_append_left _ hkey)
    · obtain ⟨key, hkey, rfl⟩ := List.mem_map.mp hprevious
      exact h.held key (List.mem_append_right _ hkey)

variable [DecidableEq Key] {jose : Jose Key}

/-- A key that is extractable is written with its expiry. -/
theorem exportKey_eq (hjose : jose.Documented) (expiresAt : Option JsNumber) {key : ManagedKey Key}
    (hextractable : key.extractable = true) : exportKey jose expiresAt key = .ok (stored expiresAt key) := by
  unfold exportKey ManagedKey.privateKey
  rw [hextractable, hjose.exports]
  rfl

/-- So are all of them. -/
theorem mapM_exportKey (hjose : jose.Documented) (expiresAt : ManagedKey Key → Option JsNumber)
    {keys : List (ManagedKey Key)} (hextractable : ∀ key ∈ keys, key.extractable = true) :
    (keys.mapM fun key => exportKey jose (expiresAt key) key) = .ok (keys.map fun key => stored (expiresAt key) key) := by
  induction keys with
  | nil => rfl
  | cons key rest ih =>
    obtain ⟨hkey, hrest⟩ := List.forall_mem_cons.mp hextractable
    rw [List.mapM_cons, exportKey_eq hjose _ hkey, ih hrest]
    rfl

/-- Extractable keys are saved as they are. -/
theorem persist_eq (hjose : jose.Documented) (hextractable : ∀ key ∈ manager.heldKeys, key.extractable = true) :
    manager.persist jose = (manager.saved, .ok ()) := by
  obtain ⟨hcurrent, hprevious⟩ := List.forall_mem_append.mp hextractable
  have hkeys : manager.exportKeys jose = .ok manager.keySet := by
    unfold exportKeys
    rw [mapM_exportKey hjose (fun _ => none) hcurrent, mapM_exportKey hjose (·.expiresAt) hprevious]
    rfl
  simp only [persist, hkeys, saved]

/-- The first write of a rotation, if the previous keys can be exported. -/
theorem generateNewKey_eq (hjose : jose.Documented) (hprevious : ∀ key ∈ manager.previousKeys, key.extractable = true)
    (now : Nat) (fresh : Key) :
    manager.generateNewKey jose now fresh =
      (saved { manager with currentKey := some (newKey jose now fresh) }, .ok ()) := by
  refine persist_eq hjose fun key hkey => ?_
  rcases List.mem_append.mp hkey with hcurrent | hmem
  · obtain rfl : key = newKey jose now fresh := by simpa using hcurrent
    rfl
  · exact hprevious key hmem

/-- The keys that a rotation writes can be exported. -/
structure Exportable (manager : KeyManager Key) (options : RotateOptions) : Prop where
  previous : ∀ key ∈ manager.previousKeys, key.extractable = true
  current : options.immediate = false → ∀ key ∈ manager.currentKey, key.extractable = true

/-- A rotation with its writes: the new key is current, and the old one follows the
    previous keys or goes with them. -/
theorem rotate_of_current (hjose : jose.Documented) {oldKey : ManagedKey Key} (h : manager.currentKey = some oldKey)
    (createdAt now : Nat) {options : RotateOptions} (hexportable : manager.Exportable options) (fresh : Key) :
    (manager.rotate jose createdAt now options fresh).1 =
      saved { manager with
        currentKey := some (newKey jose createdAt fresh)
        previousKeys := if options.immediate then []
          else manager.previousKeys ++
            [{ oldKey with expiresAt := some (graceEnd manager.gracePeriodMs options now) }] } := by
  simp only [rotate, h, generateNewKey_eq hjose hexportable.previous]
  have hretired : (saved { manager with currentKey := some (newKey jose createdAt fresh) }).retire oldKey options now =
      { saved { manager with currentKey := some (newKey jose createdAt fresh) } with
        previousKeys := if options.immediate then []
          else manager.previousKeys ++
            [{ oldKey with expiresAt := some (graceEnd manager.gracePeriodMs options now) }] } := by
    unfold retire
    cases options.immediate <;> rfl
  rw [hretired, persist_eq hjose]
  · rfl
  · intro key hkey
    rcases List.mem_append.mp hkey with hcurrent | hmem
    · obtain rfl : key = newKey jose createdAt fresh := by simpa [saved] using hcurrent
      rfl
    · cases himmediate : options.immediate with
      | true => simp [himmediate] at hmem
      | false =>
        rw [himmediate, if_neg Bool.false_ne_true] at hmem
        rcases List.mem_append.mp hmem with hmem | hmem
        · exact hexportable.previous key hmem
        · rw [List.mem_singleton.mp hmem]
          exact hexportable.current himmediate oldKey h

/-! ### Reading the store -/

/-- The log line of a time that can be logged does not throw. -/
theorem logTime_eq {time : Option JsNumber} (h : Loadable time) : logTime time = .ok () := by
  unfold logTime
  cases htruthy : truthyTime time with
  | false => rfl
  | true => simp [h htruthy]

/-- A key is loaded as the current one or as a previous one, by its expiry. -/
theorem loadKey_eq (hjose : jose.Documented) (now : Nat) (manager : KeyManager Key) {jwk : StoredKey Key} (hloadable : Loadable jwk.exp) :
    ∃ key : ManagedKey Key, key.key = jwk.key ∧ key.kid = jwk.kid ∧ key.expiresAt = jwk.exp ∧
      manager.loadKey jose now jwk =
        (if truthyTime jwk.exp then { manager with previousKeys := manager.previousKeys ++ [key] }
          else { manager with currentKey := some key }, .ok ()) := by
  obtain ⟨extractable, himported⟩ := hjose.imports jwk.key
  refine ⟨{
    key := jwk.key
    kid := jwk.kid
    createdAt := if jwk.iat = 0 then now else jwk.iat
    expiresAt := jwk.exp
    extractable }, rfl, rfl, rfl, ?_⟩
  simp only [loadKey, himported, logTime_eq hloadable]
  split <;> rfl

/-- Loading keeps the keys with an expiry as previous ones, and the last without as
    the current one. -/
theorem loadKeys_eq (hjose : jose.Documented) (now : Nat) {jwks : List (StoredKey Key)}
    (hloadable : ∀ jwk ∈ jwks, Loadable jwk.exp) (manager : KeyManager Key) :
    ∃ loaded, manager.loadKeys jose now jwks = (loaded, .ok ()) ∧ loaded.store = manager.store ∧
      loaded.gracePeriodMs = manager.gracePeriodMs ∧
      (loaded.previousKeys.map fun key => (key.key, key.kid, key.expiresAt)) =
        (manager.previousKeys.map fun key => (key.key, key.kid, key.expiresAt)) ++
          (jwks.filter fun jwk => truthyTime jwk.exp).map (fun jwk => (jwk.key, jwk.kid, jwk.exp)) ∧
      loaded.currentKey.map (fun key => (key.key, key.kid)) =
        ((jwks.filter fun jwk => !truthyTime jwk.exp).getLast?.map fun jwk => (jwk.key, jwk.kid)).or
          (manager.currentKey.map fun key => (key.key, key.kid)) := by
  induction jwks generalizing manager with
  | nil => exact ⟨manager, rfl, rfl, rfl, by simp, by simp⟩
  | cons jwk rest ih =>
    obtain ⟨hfirst, hrest⟩ := List.forall_mem_cons.mp hloadable
    obtain ⟨key, hkey, hkid, hexpires, hload⟩ := loadKey_eq hjose now manager hfirst
    simp only [loadKeys, hload]
    cases htruthy : truthyTime jwk.exp with
    | true =>
      obtain ⟨loaded, hloaded, hstore, hgrace, hprevious, hcurrent⟩ :=
        ih hrest { manager with previousKeys := manager.previousKeys ++ [key] }
      exact ⟨loaded, hloaded, hstore, hgrace, by simp [hprevious, hkey, hkid, hexpires, htruthy], by simp [hcurrent, htruthy]⟩
    | false =>
      obtain ⟨loaded, hloaded, hstore, hgrace, hprevious, hcurrent⟩ := ih hrest { manager with currentKey := some key }
      refine ⟨loaded, hloaded, hstore, hgrace, by simp [hprevious, htruthy], ?_⟩
      rw [hcurrent]
      cases hlast : (rest.filter fun jwk => !truthyTime jwk.exp).getLast? <;>
        simp [htruthy, List.getLast?_cons, hlast, hkey, hkid]

/-- A new process on a store with a key that has no expiry has the last such key as
    its current one, and those with an expiry as the previous ones. -/
theorem initializeKeys_shutdown (hjose : jose.Documented) (now : Nat) (fresh : Key)
    (hloadable : ∀ jwk ∈ manager.store.getD [], Loadable jwk.exp) {current : StoredKey Key}
    (hcurrent : ((manager.store.getD []).filter fun jwk => !truthyTime jwk.exp).getLast? = some current) :
    ∃ opened, manager.shutdown.initializeKeys jose now fresh = (opened, .ok ()) ∧ opened.store = manager.store ∧
      opened.gracePeriodMs = manager.gracePeriodMs ∧ opened.initialized = true ∧
      (opened.previousKeys.map fun key => (key.key, key.kid, key.expiresAt)) =
        ((manager.store.getD []).filter fun jwk => truthyTime jwk.exp).map (fun jwk => (jwk.key, jwk.kid, jwk.exp)) ∧
      opened.currentKey.map (fun key => (key.key, key.kid)) = some (current.key, current.kid) := by
  obtain ⟨loaded, hloaded, hstore, hgrace, hprevious, hkey⟩ := loadKeys_eq hjose now hloadable manager.shutdown
  rw [hcurrent, Option.map_some, Option.some_or] at hkey
  have hsome : loaded.currentKey.isSome = true := by
    rw [← Option.isSome_map, hkey]
    rfl
  refine ⟨{ loaded with initialized := true }, ?_, hstore, hgrace, rfl, hprevious, hkey⟩
  have hfrom : manager.shutdown.store = manager.store := rfl
  have hstart : manager.shutdown.initialized = false := rfl
  simp [initializeKeys, hstart, hfrom, hloaded, hsome]

/-- `initialize` on an empty store. -/
theorem initializeKeys_empty (hjose : jose.Documented) (configured : Option JsNumber) (start : Nat)
    (first : Key) :
    ({ gracePeriodMs := configured } : KeyManager Key).initializeKeys jose start first =
      (saved { gracePeriodMs := configured, initialized := true, currentKey := some (newKey jose start first) }, .ok ()) := by
  have hidle : ∀ key ∈ ({ gracePeriodMs := configured } : KeyManager Key).previousKeys, key.extractable = true := by simp
  have hgenerated := generateNewKey_eq hjose hidle start first
  simp only [initializeKeys, Option.getD_none, loadKeys, hgenerated]
  rfl

/-! ### What every event keeps -/

/-- What has been exported was extractable. -/
theorem mapM_exportKey_ok (hjose : jose.Documented) (expiresAt : ManagedKey Key → Option JsNumber)
    {keys : List (ManagedKey Key)} {jwks : List (StoredKey Key)}
    (h : (keys.mapM fun key => exportKey jose (expiresAt key) key) = .ok jwks) : ∀ key ∈ keys, key.extractable = true := by
  induction keys generalizing jwks with
  | nil => simp
  | cons key rest ih =>
    cases hextractable : key.extractable with
    | false =>
      obtain ⟨error, hkept⟩ := hjose.keeps key.key
      have hthrows : exportKey jose (expiresAt key) key = .error error := by
        rw [exportKey, ManagedKey.privateKey, hextractable, hkept]
        rfl
      rw [List.mapM_cons, hthrows] at h
      cases h
    | true =>
      rw [List.mapM_cons, exportKey_eq hjose _ hextractable] at h
      cases hrest : rest.mapM fun key => exportKey jose (expiresAt key) key with
      | error error =>
        rw [hrest] at h
        cases h
      | ok written => exact List.forall_mem_cons.mpr ⟨hextractable, ih hrest⟩

/-- `persist` writes all keys, or it throws and writes nothing. -/
theorem persist_cases (hjose : jose.Documented) (manager : KeyManager Key) :
    manager.persist jose = (manager.saved, .ok ()) ∨ ∃ error, manager.persist jose = (manager, .error error) := by
  by_cases hextractable : ∀ key ∈ manager.heldKeys, key.extractable = true
  · exact .inl (persist_eq hjose hextractable)
  · cases hkeys : manager.exportKeys jose with
    | error error => exact .inr ⟨error, by simp only [persist, hkeys]⟩
    | ok keys =>
      refine absurd (List.forall_mem_append.mpr ?_) hextractable
      unfold exportKeys at hkeys
      cases hcurrent : manager.currentKey.toList.mapM (exportKey jose none) with
      | error error =>
        rw [hcurrent] at hkeys
        cases hkeys
      | ok current =>
        rw [hcurrent] at hkeys
        cases hprevious : manager.previousKeys.mapM fun key => exportKey jose key.expiresAt key with
        | error error =>
          rw [hprevious] at hkeys
          cases hkeys
        | ok previous =>
          exact ⟨mapM_exportKey_ok hjose (fun _ => none) hcurrent, mapM_exportKey_ok hjose (·.expiresAt) hprevious⟩

/-- `persist` writes only keys that are held. -/
theorem Within.persist (hjose : jose.Documented) (h : manager.Within among) : (manager.persist jose).1.Within among := by
  rcases persist_cases hjose manager with hsaved | ⟨error, hfailed⟩
  · rw [hsaved]
    exact h.saved
  · rw [hfailed]
    exact h

/-- `generateNewKey` adds the new key to those held and stored. -/
theorem Within.generateNewKey (hjose : jose.Documented) (now : Nat) (h : manager.Within among) {fresh : Key} (hfresh : among fresh) :
    (manager.generateNewKey jose now fresh).1.Within among := by
  refine Within.persist hjose ⟨fun key hkey => ?_, h.store⟩
  rcases List.mem_append.mp hkey with hcurrent | hprevious
  · obtain rfl : key = newKey jose now fresh := by simpa using hcurrent
    exact hfresh
  · exact h.held key (List.mem_append_right _ hprevious)

/-- Loading adds the keys of the store. -/
theorem Within.loadKeys (hjose : jose.Documented) (now : Nat) {jwks : List (StoredKey Key)} (hjwks : ∀ jwk ∈ jwks, among jwk.key)
    (h : manager.Within among) : (manager.loadKeys jose now jwks).1.Within among := by
  induction jwks generalizing manager with
  | nil => exact h
  | cons jwk rest ih =>
    obtain ⟨hfirst, hrest⟩ := List.forall_mem_cons.mp hjwks
    have hloaded : (manager.loadKey jose now jwk).1.Within among := by
      obtain ⟨extractable, himported⟩ := hjose.imports jwk.key
      simp only [loadKey, himported]
      split
      · split
        · exact h
        · refine ⟨fun key hkey => ?_, h.store⟩
          simp only [heldKeys, List.mem_append, List.mem_singleton] at hkey
          rcases hkey with hcurrent | hprevious | rfl
          · exact h.held key (List.mem_append_left _ hcurrent)
          · exact h.held key (List.mem_append_right _ hprevious)
          · exact hfirst
      · refine ⟨fun key hkey => ?_, h.store⟩
        rcases List.mem_append.mp hkey with hcurrent | hprevious
        · obtain rfl := Option.some.inj (Option.mem_toList.mp hcurrent)
          exact hfirst
        · exact h.held key (List.mem_append_right _ hprevious)
    rw [KeyManager.loadKeys]
    split
    · rename_i loaded error hload
      rwa [hload] at hloaded
    · rename_i loaded hload
      rw [hload] at hloaded
      exact ih hrest hloaded

/-- `initialize` holds keys of the store, or a new one. -/
theorem Within.initializeKeys (hjose : jose.Documented) (h : manager.Within among) {fresh : Key} (hfresh : among fresh) :
    (manager.initializeKeys jose now fresh).1.Within among := by
  have hstore : ∀ jwk ∈ manager.store.getD [], among jwk.key := by
    cases hjwks : manager.store with
    | none => simp
    | some jwks => exact h.store jwks hjwks
  have hloaded := h.loadKeys hjose now hstore
  unfold KeyManager.initializeKeys
  split
  · exact h
  · split
    · rename_i loaded error hload
      rwa [hload] at hloaded
    · rename_i loaded hload
      rw [hload] at hloaded
      split
      · exact ⟨hloaded.held, hloaded.store⟩
      · have hstarted := hloaded.generateNewKey hjose now hfresh
        split
        · rename_i started error hgenerated
          rwa [hgenerated] at hstarted
        · rename_i started hgenerated
          rw [hgenerated] at hstarted
          exact ⟨hstarted.held, hstarted.store⟩

/-- `rotate` holds the keys from before, and the new one. -/
theorem Within.rotate (hjose : jose.Documented) (h : manager.Within among) (createdAt now : Nat) (options : RotateOptions)
    {fresh : Key} (hfresh : among fresh) : (manager.rotate jose createdAt now options fresh).1.Within among := by
  unfold KeyManager.rotate
  split
  · exact h
  · rename_i oldKey hold
    have hgenerated := h.generateNewKey hjose createdAt hfresh
    split
    · rename_i generated error hfailed
      rwa [hfailed] at hgenerated
    · rename_i generated hdone
      rw [hdone] at hgenerated
      have hretired : (generated.retire oldKey options now).Within among := by
        unfold retire
        split
        · exact ⟨fun key hkey => hgenerated.held key (by simp [heldKeys] at hkey ⊢; exact .inl hkey), hgenerated.store⟩
        · refine ⟨fun key hkey => ?_, hgenerated.store⟩
          simp only [heldKeys, List.mem_append, List.mem_singleton] at hkey
          rcases hkey with hcurrent | hprevious | rfl
          · exact hgenerated.held key (List.mem_append_left _ hcurrent)
          · exact hgenerated.held key (List.mem_append_right _ hprevious)
          · exact h.held oldKey (List.mem_append_left _ (by simp [hold]))
      have hwritten := hretired.persist hjose
      split
      · rename_i retired error hfailed
        rwa [hfailed] at hwritten
      · rename_i retired hpersisted
        rwa [hpersisted] at hwritten

/-- The keys held and stored after an event were so before, or are drawn for it. -/
theorem Within.step (hjose : jose.Documented) (h : manager.Within among) (event : Event Key) (hfresh : among event.fresh) :
    (manager.step jose event).Within among := by
  cases event with
  | init now fresh => exact h.initializeKeys hjose hfresh
  | rotate createdAt now options fresh => exact h.rotate hjose createdAt now options hfresh
  | restart now fresh =>
    have hshutdown : manager.shutdown.Within among := ⟨fun key hkey => by simp [heldKeys, shutdown] at hkey, h.store⟩
    exact hshutdown.initializeKeys hjose hfresh

/-! ### A store that opens again -/

/-- The store has a key without an expiry, if it has been written. -/
def Endless (manager : KeyManager Key) : Prop := ∀ jwks ∈ manager.store, ∃ jwk ∈ jwks, truthyTime jwk.exp = false

omit [DecidableEq Key] in
/-- `persist` leaves the current key, whether it throws or not. -/
theorem persist_currentKey (jose : Jose Key) (manager : KeyManager Key) :
    (manager.persist jose).1.currentKey = manager.currentKey := by
  unfold persist
  split <;> rfl

/-- A manager with a current key writes it without an expiry. -/
theorem Endless.persist (hjose : jose.Documented) (h : manager.Endless) (hcurrent : manager.currentKey.isSome = true) :
    (manager.persist jose).1.Endless := by
  rcases persist_cases hjose manager with hsaved | ⟨error, hfailed⟩
  · obtain ⟨current, hcurrent⟩ := Option.isSome_iff_exists.mp hcurrent
    rw [hsaved]
    intro jwks hjwks
    obtain rfl : manager.keySet = jwks := Option.some.inj hjwks
    exact ⟨stored none current, by simp [keySet, hcurrent], rfl⟩
  · rw [hfailed]
    exact h

/-- `initialize` writes nothing, or a new key without an expiry. -/
theorem Endless.initializeKeys (hjose : jose.Documented) (h : manager.Endless) (now : Nat) (fresh : Key) :
    (manager.initializeKeys jose now fresh).1.Endless := by
  have hloaded := (loadKeys_same jose now (manager.store.getD []) manager).2
  unfold KeyManager.initializeKeys
  split
  · exact h
  · split
    · rename_i loaded error hload
      rw [hload] at hloaded
      exact fun jwks hjwks => h jwks (hloaded ▸ hjwks)
    · rename_i loaded hload
      rw [hload] at hloaded
      have hsame : loaded.Endless := fun jwks hjwks => h jwks (hloaded ▸ hjwks)
      split
      · exact hsame
      · have hstarted : (loaded.generateNewKey jose now fresh).1.Endless := Endless.persist hjose hsame rfl
        split
        · rename_i started error hgenerated
          rwa [hgenerated] at hstarted
        · rename_i started hgenerated
          rw [hgenerated] at hstarted
          exact hstarted

/-- Every event leaves a store that has a key without an expiry. -/
theorem Endless.step (hjose : jose.Documented) (h : manager.Endless) (event : Event Key) : (manager.step jose event).Endless := by
  cases event with
  | init now fresh => exact h.initializeKeys hjose now fresh
  | restart now fresh => exact (show manager.shutdown.Endless from h).initializeKeys hjose now fresh
  | rotate createdAt now options fresh =>
    simp only [KeyManager.step, KeyManager.rotate]
    split
    · exact h
    · rename_i oldKey hold
      have hgenerated : (manager.generateNewKey jose createdAt fresh).1.Endless := Endless.persist hjose h rfl
      have hcurrent : (manager.generateNewKey jose createdAt fresh).1.currentKey.isSome = true := by
        rw [generateNewKey, persist_currentKey]
        rfl
      split
      · rename_i generated error hfailed
        rwa [hfailed] at hgenerated
      · rename_i generated hdone
        rw [hdone] at hgenerated hcurrent
        have hretired : ((generated.retire oldKey options now).persist jose).1.Endless := by
          refine Endless.persist hjose ?_ ?_
          · unfold retire
            split <;> exact hgenerated
          · unfold retire
            split <;> exact hcurrent
        split
        · rename_i retired error hfailed
          rwa [hfailed] at hretired
        · rename_i retired hpersisted
          rwa [hpersisted] at hretired

/-- A new process opens such a store, if its expiries can be logged, and has a current key. -/
theorem Endless.opens (hjose : jose.Documented) (h : manager.Endless)
    (hloadable : ∀ jwk ∈ manager.store.getD [], Loadable jwk.exp) (now : Nat) (fresh : Key) :
    ∃ opened current, manager.shutdown.initializeKeys jose now fresh = (opened, .ok ()) ∧ opened.currentKey = some current := by
  cases hstore : manager.store with
  | none =>
    have hblank : manager.shutdown = { gracePeriodMs := manager.gracePeriodMs } := by rw [shutdown, hstore]
    rw [hblank, initializeKeys_empty hjose]
    exact ⟨_, _, rfl, rfl⟩
  | some jwks =>
    obtain ⟨jwk, hmem, hfalsy⟩ := h jwks hstore
    have hread : manager.store.getD [] = jwks := by rw [hstore]; rfl
    have hfound : jwk ∈ jwks.filter fun jwk => !truthyTime jwk.exp := List.mem_filter.mpr ⟨hmem, by simp [hfalsy]⟩
    obtain ⟨last, hlast⟩ := Option.isSome_iff_exists.mp (List.getLast?_isSome.mpr (List.ne_nil_of_mem hfound))
    obtain ⟨opened, hopened, -, -, -, -, hcurrent⟩ :=
      initializeKeys_shutdown hjose now fresh hloadable (hread.symm ▸ hlast)
    obtain ⟨current, hcurrent, -⟩ := Option.map_eq_some_iff.mp hcurrent
    exact ⟨opened, current, hopened, hcurrent⟩

end CatalystRouter.KeyManager
