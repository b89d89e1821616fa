import Mathlib.Data.List.Nodup
import CatalystRouter.Authorization.KeyLedger

namespace CatalystRouter.KeyManager

variable {Key : Type} {configured : Option JsNumber}

/-- The key is in use, or in its grace period at time `t`. -/
def Ledger.Valid (ledger : Ledger Key) (t : Nat) (key : Key) : Prop :=
  ledger.currentKey = some key ∨ ∃ expiry, (key, some expiry) ∈ ledger.rotations ∧ JsNumber.lt (.integer t) expiry = true

/-- At time `t` the manager accepts tokens of valid keys only, and publishes exactly
    these keys. -/
structure Enforces (jose : Jose Key) (manager : KeyManager Key) (ledger : Ledger Key) (t : Nat) : Prop where
  verify : ∀ token audience, manager.verify jose token audience t = true → ledger.Valid t token.signer
  getJwks : ∀ key, key ∈ manager.getJwks.map (·.key) ↔ ledger.Valid t key

section Keys

/-- The keys of a ledger in the order in which they were drawn. -/
def Ledger.keys (book : Ledger Key) : List Key := book.rotations.map Prod.fst ++ book.currentKey.toList

/-- An event draws one key, or none. -/
theorem Ledger.step_keys (book : Ledger Key) (event : Event Key) :
    (book.step configured event).keys = book.keys ∨ (book.step configured event).keys = book.keys ++ [event.fresh] := by
  cases hkey : book.currentKey <;> cases event <;> simp [Ledger.keys, Ledger.step, Event.fresh, hkey]

/-- The keys of the ledger were drawn by the events, in their order. -/
theorem ledger_keys_sublist (events : List (Event Key)) :
    (ledger configured events).keys.Sublist (events.map Event.fresh) := by
  induction events using List.reverseRecOn with
  | nil => exact List.nil_sublist _
  | append_singleton events event ih =>
    rw [ledger, Runs.run_concat, List.map_append]
    rcases (ledger configured events).step_keys event with hkeys | hkeys
    · rw [hkeys]
      exact ih.trans (List.sublist_append_left _ _)
    · rw [hkeys]
      exact ih.append (List.Sublist.refl _)

/-- A key that a rotation has retired is retired once and not in use. -/
structure Ledger.RetiredOnce (book : Ledger Key) (key : Key) (expiry : Option JsNumber) (after : List (Key × Option JsNumber)) :
    Prop where
  unused : book.currentKey ≠ some key
  expiry_eq : ∀ {other}, (key, other) ∈ book.rotations → other = expiry
  after_eq : ∀ {early late}, book.rotations = early ++ (key, expiry) :: late → late = after

/-- Fresh keys are retired once. -/
theorem ledger_retiredOnce {events : List (Event Key)} (hfresh : (events.map Event.fresh).Nodup) {key : Key}
    {expiry : Option JsNumber} {before after : List (Key × Option JsNumber)}
    (hsplit : (ledger configured events).rotations = before ++ (key, expiry) :: after) :
    (ledger configured events).RetiredOnce key expiry after := by
  have hnodup : (ledger configured events).keys.Nodup := hfresh.sublist (ledger_keys_sublist events)
  rw [Ledger.keys, List.nodup_append] at hnodup
  obtain ⟨hretired, -, hapart⟩ := hnodup
  have hmem : (key, expiry) ∈ (ledger configured events).rotations := by simp [hsplit]
  constructor
  case unused =>
    intro hcurrent
    exact hapart key (List.mem_map_of_mem hmem) key (by simp [hcurrent]) rfl
  case expiry_eq =>
    intro other hother
    exact congrArg Prod.snd (List.inj_on_of_nodup_map hretired hother hmem rfl)
  case after_eq =>
    intro early late hother
    have hentries : (before ++ (key, expiry) :: after).Nodup := hsplit ▸ List.Nodup.of_map _ hretired
    obtain ⟨-, hnotAfter, hnotBefore⟩ := List.nodup_append.mp hentries
    have hbefore : (key, expiry) ∉ before := fun hin => hnotBefore _ hin _ List.mem_cons_self rfl
    have hafter : (key, expiry) ∉ after := (List.nodup_cons.mp hnotAfter).1
    exact ((List.append_cons_inj_of_notMem hbefore hafter).mp (hsplit.symm.trans hother)).2.2.symm

end Keys

section Grace

variable {manager : KeyManager Key} {book : Ledger Key} {t : Nat}

/-- Published are the key in use and those kept. -/
theorem Agrees.mem_getJwks (h : Agrees configured manager book) (key : Key) :
    key ∈ manager.getJwks.map (·.key) ↔ book.currentKey = some key ∨ ∃ expiry, (key, expiry) ∈ kept book.rotations := by
  have hprevious : key ∈ manager.previousKeys.map (·.key) ↔ ∃ expiry, (key, expiry) ∈ kept book.rotations := by
    have hkeys := congrArg (List.map Prod.fst) h.previous
    rw [List.map_map, List.map_map] at hkeys
    rw [show manager.previousKeys.map (·.key) = (kept book.rotations).map Prod.fst from hkeys]
    simp
  rw [← hprevious, ← h.current]
  simp [getJwks]

/-- A key that is kept was retired with its expiry. -/
theorem mem_rotations_of_kept {rotations : List (Key × Option JsNumber)} {key : Key} {expiry : JsNumber}
    (hkept : (key, expiry) ∈ kept rotations) : (key, some expiry) ∈ rotations := by
  obtain ⟨before, after, hsplit, -⟩ := mem_kept_iff.mp hkept
  simp [hsplit]

/-- A key that is retired once is held as long as no immediate rotation follows. -/
theorem Ledger.RetiredOnce.kept_iff {key : Key} {expiry : JsNumber} {before after : List (Key × Option JsNumber)}
    (h : book.RetiredOnce key (some expiry) after) (hsplit : book.rotations = before ++ (key, some expiry) :: after) :
    (∃ other, (key, other) ∈ kept book.rotations) ↔ ∀ rotation ∈ after, rotation.2 ≠ none := by
  constructor
  · rintro ⟨other, hother⟩
    obtain rfl := Option.some.inj (h.expiry_eq (mem_rotations_of_kept hother))
    obtain ⟨early, late, hlate, hnone⟩ := mem_kept_iff.mp hother
    rwa [← h.after_eq hlate]
  · exact fun hnone => ⟨expiry, mem_kept_iff.mpr ⟨before, after, hsplit, hnone⟩⟩

/-- A key that is retired once is valid until its expiry. -/
theorem Ledger.RetiredOnce.valid_iff {key : Key} {expiry : JsNumber} {before after : List (Key × Option JsNumber)}
    (h : book.RetiredOnce key (some expiry) after) (hsplit : book.rotations = before ++ (key, some expiry) :: after) :
    book.Valid t key ↔ JsNumber.lt (.integer t) expiry = true := by
  rw [Ledger.Valid, or_iff_right h.unused]
  constructor
  · rintro ⟨other, hother, hahead⟩
    rwa [← Option.some.inj (h.expiry_eq hother)]
  · exact fun hahead => ⟨expiry, by simp [hsplit], hahead⟩

variable [DecidableEq Key] {jose : Jose Key}

/-- What is published is what is accepted, so that the grace period is enforced where
    the keys held are the valid ones. -/
theorem Agrees.enforces (hjose : jose.Documented) (h : Agrees configured manager book)
    (hvalid : ∀ key, (∃ expiry, (key, expiry) ∈ kept book.rotations) ↔
      ∃ expiry, (key, some expiry) ∈ book.rotations ∧ JsNumber.lt (.integer t) expiry = true) :
    Enforces jose manager book t := by
  have hjwks : ∀ key, key ∈ manager.getJwks.map (·.key) ↔ book.Valid t key := fun key => by
    rw [h.mem_getJwks, hvalid, Ledger.Valid]
  exact ⟨fun token audience haccepted => (hjwks _).mp (verify_held hjose haccepted), hjwks⟩

/-- The grace periods are enforced exactly where the keys kept are those whose expiry is ahead.
    -/
theorem Agrees.enforces_iff (hjose : jose.Documented) (h : Agrees configured manager book)
    (honce : ∀ {before key expiry after}, book.rotations = before ++ (key, expiry) :: after →
      book.RetiredOnce key expiry after) :
    Enforces jose manager book t ↔ ∀ before key expiry after, book.rotations = before ++ (key, some expiry) :: after →
      (JsNumber.lt (.integer t) expiry = true ↔ ∀ rotation ∈ after, rotation.2 ≠ none) := by
  constructor
  · intro henforces before key expiry after hsplit
    have hlisted := henforces.getJwks key
    rw [h.mem_getJwks, or_iff_right (honce hsplit).unused, (honce hsplit).kept_iff hsplit,
      (honce hsplit).valid_iff hsplit] at hlisted
    exact hlisted.symm
  · intro hcond
    refine h.enforces hjose fun key => ?_
    constructor
    · rintro ⟨expiry, hkept⟩
      obtain ⟨before, after, hsplit, hnone⟩ := mem_kept_iff.mp hkept
      exact ⟨expiry, mem_rotations_of_kept hkept, (hcond before key expiry after hsplit).mpr hnone⟩
    · rintro ⟨expiry, hmem, hahead⟩
      obtain ⟨before, after, hsplit⟩ := List.append_of_mem hmem
      exact ⟨expiry, mem_kept_iff.mpr ⟨before, after, hsplit, (hcond before key expiry after hsplit).mp hahead⟩⟩

/-- In a run whose rotations and restarts run to their end, the manager enforces the grace
    periods at a time exactly when the expiry of every key that a rotation has retired with
    one is then ahead if and only if no immediate rotation has followed. -/
theorem run_enforces_iff (hjose : jose.Documented) {events : List (Event Key)} (hfresh : (events.map Event.fresh).Nodup)
    (hcompletes : Runs.EachStep (step jose) Completes { gracePeriodMs := configured } events) (t : Nat) :
    Enforces jose (run jose configured events) (ledger configured events) t ↔
      ∀ before key expiry after, (ledger configured events).rotations = before ++ (key, some expiry) :: after →
        (JsNumber.lt (.integer t) expiry = true ↔ ∀ rotation ∈ after, rotation.2 ≠ none) :=
  (run_agrees hjose hcompletes).enforces_iff hjose (ledger_retiredOnce hfresh)

/-- Keys that are numbers, imported as the package does it without an `ext` member. -/
def numberedKeys : Jose Nat where
  exportJWK key := if key.extractable then .ok key.key else .error "non-extractable CryptoKey cannot be exported as a JWK"
  importJWK key := .ok { key, extractable := false }
  calculateJwkThumbprint := toString
  jwtVerify := Token.accepted

/-- The numbered keys behave as documented. -/
theorem numberedKeys_documented : numberedKeys.Documented where
  exports _ := rfl
  keeps _ := ⟨_, rfl⟩
  imports _ := ⟨_, rfl⟩
  verifies _ _ _ _ := rfl

/-- A key is drawn at 1000, and retired at 2000 for half a second. -/
def halfSecond : List (Event Nat) := [.init 1000 0, .rotate 2000 2000 { gracePeriodMs := some (.integer 500) } 1]

theorem halfSecond_completes : Runs.EachStep (step numberedKeys) Completes {} halfSecond := by
  have hextractable : ∀ key ∈ ((step numberedKeys {} (.init 1000 0)).heldKeys), key.extractable = true := by decide
  refine ⟨trivial, fun _ => ⟨fun key hkey => ?_, fun _ key hkey => ?_⟩, trivial⟩
  · exact hextractable key (List.mem_append_right _ hkey)
  · exact hextractable key (List.mem_append_left _ (Option.mem_toList.mpr hkey))

/-- A grace period that no immediate rotation has cut short is enforced until its end. -/
theorem enforces_before_end : Enforces numberedKeys (run numberedKeys none halfSecond) (ledger none halfSecond) 2200 := by
  refine (run_enforces_iff numberedKeys_documented (by decide) halfSecond_completes 2200).mpr fun before key expiry after hsplit => ?_
  have hrotations : [((0 : Nat), some (JsNumber.integer 2500))] = before ++ (key, some expiry) :: after := hsplit
  cases before with
  | nil =>
    obtain ⟨⟨-, rfl⟩, rfl⟩ : (0 = key ∧ .integer 2500 = expiry) ∧ after = [] := by simpa using hrotations
    simp [JsNumber.lt]
  | cons first rest => simp at hrotations

/-- After its end, the retired key is still published and its tokens are accepted. -/
theorem accepted_after_end :
    (run numberedKeys none halfSecond).verify numberedKeys { signer := 0, kid := some "0", exp := 10 } none 3000 = true ∧
      0 ∈ (run numberedKeys none halfSecond).getJwks.map (·.key) ∧ ¬ (ledger none halfSecond).Valid 3000 0 := by
  refine ⟨by decide, by decide, ?_⟩
  rintro (hcurrent | ⟨expiry, hmem, hahead⟩)
  · cases hcurrent
  · have hrotation : (0, some expiry) ∈ [((0 : Nat), some (JsNumber.integer 2500))] := hmem
    obtain ⟨-, rfl⟩ : 0 = 0 ∧ expiry = .integer 2500 := by simpa using hrotation
    cases hahead

end Grace

end CatalystRouter.KeyManager
