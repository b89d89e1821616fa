import Mathlib.Data.List.Induction
import CatalystRouter.Authorization.KeyStore
import CatalystRouter.Library.Lists
import CatalystRouter.Library.Runs

namespace CatalystRouter.KeyManager

variable {Key : Type} {configured : Option JsNumber}

/-- The key in use, and the keys that rotations have retired with the time at which
    their grace period ends; an immediate rotation grants none. -/
structure Ledger (Key : Type) where
  currentKey : Option Key := none
  rotations : List (Key × Option JsNumber) := []

def Ledger.step (configured : Option JsNumber) (ledger : Ledger Key) : Event Key → Ledger Key
  | .init _ fresh => { ledger with currentKey := ledger.currentKey <|> some fresh }
  | .restart _ fresh => { ledger with currentKey := ledger.currentKey <|> some fresh }
  | .rotate _ now options fresh =>
    match ledger.currentKey with
    | none => ledger
    | some oldKey =>
      { currentKey := some fresh
        rotations := ledger.rotations ++
          [(oldKey, if options.immediate then none else some (graceEnd configured options now))] }

/-- The ledger of a list of events. -/
abbrev ledger (configured : Option JsNumber) (events : List (Event Key)) : Ledger Key :=
  Runs.run (Ledger.step configured) {} events

/-- The manager after a list of events, on an empty store. -/
abbrev run (jose : Jose Key) (configured : Option JsNumber) (events : List (Event Key)) : KeyManager Key :=
  Runs.run (step jose) { gracePeriodMs := configured } events

/-- An expiry that the store gives back: a valid date other than that at time 0. -/
def Readable (expiry : JsNumber) : Prop := expiry.truthy = true ∧ isDate expiry = true

/-- The event runs to its end: a rotation finds keys that can be exported, and a restart
    expiries that can be read. -/
def Completes (manager : KeyManager Key) : Event Key → Prop
  | .init _ _ => True
  | .rotate _ _ options _ => manager.currentKey.isSome = true → manager.Exportable options
  | .restart _ _ => ∀ jwk ∈ (manager.store.getD []).tail, ∃ expiry, jwk.exp = some expiry ∧ Readable expiry

/-- An expiry that is read back can be logged. -/
theorem Readable.loadable {expiry : JsNumber} (h : Readable expiry) : Loadable (some expiry) := fun _ => h.2

/-- An expiry that is read back is written as it is. -/
theorem Readable.written {expiry : JsNumber} (h : Readable expiry) : writtenTime (some expiry) = some expiry := by
  cases expiry with
  | integer value => rfl
  | nan | infinity | negInfinity => exact absurd h.2 (by decide)

section Kept

/-- The retired keys that the manager still holds. -/
def kept (rotations : List (Key × Option JsNumber)) : List (Key × JsNumber) :=
  rotations.foldl (fun kept rotation =>
    match rotation.2 with
    | none => []
    | some expiry => kept ++ [(rotation.1, expiry)]) []

/-- An immediate rotation keeps no key. -/
theorem kept_concat_immediate (rotations : List (Key × Option JsNumber)) (key : Key) :
    kept (rotations ++ [(key, none)]) = [] := by simp [kept]

/-- A rotation with a grace period keeps the old key and those kept before. -/
theorem kept_concat_grace (rotations : List (Key × Option JsNumber)) (key : Key) (expiry : JsNumber) :
    kept (rotations ++ [(key, some expiry)]) = kept rotations ++ [(key, expiry)] := by simp [kept]

/-- A key is held until an immediate rotation comes. -/
theorem mem_kept_iff {rotations : List (Key × Option JsNumber)} {key : Key} {expiry : JsNumber} :
    (key, expiry) ∈ kept rotations ↔ ∃ before after, rotations = before ++ (key, some expiry) :: after ∧
      ∀ rotation ∈ after, rotation.2 ≠ none := by
  induction rotations using List.reverseRecOn with
  | nil => simp [kept]
  | append_singleton rotations last ih =>
    obtain ⟨other, ends⟩ := last
    cases ends with
    | none =>
      rw [kept_concat_immediate]
      refine iff_of_false (by simp) ?_
      rintro ⟨before, after, hsplit, hafter⟩
      rcases Lists.concat_eq_append_cons.mp hsplit with ⟨-, -, hlast⟩ | ⟨rest, rfl, -⟩
      · cases hlast
      · exact hafter (other, none) (by simp) rfl
    | some ending =>
      rw [kept_concat_grace, List.mem_append, ih]
      constructor
      · rintro (⟨before, after, rfl, hafter⟩ | hlast)
        · refine ⟨before, after ++ [(other, some ending)], by simp, fun rotation hmem => ?_⟩
          rcases List.mem_append.mp hmem with hmem | hmem
          · exact hafter rotation hmem
          · simp [List.mem_singleton.mp hmem]
        · obtain ⟨rfl, rfl⟩ := Prod.mk.inj (List.mem_singleton.mp hlast)
          exact ⟨rotations, [], rfl, by simp⟩
      · rintro ⟨before, after, hsplit, hafter⟩
        rcases Lists.concat_eq_append_cons.mp hsplit with ⟨-, -, hlast⟩ | ⟨rest, rfl, hlist⟩
        · exact .inr (by simpa using hlast.symm)
        · exact .inl ⟨before, rest, hlist, fun rotation hmem => hafter rotation (by simp [hmem])⟩

end Kept

section Agrees

variable {manager : KeyManager Key} {book : Ledger Key}

/-- The manager and its store against the ledger. -/
structure Agrees (configured : Option JsNumber) (manager : KeyManager Key) (book : Ledger Key) : Prop where
  grace : manager.gracePeriodMs = configured
  started : manager.initialized = book.currentKey.isSome
  unused : book.currentKey = none → book.rotations = []
  current : manager.currentKey.map (·.key) = book.currentKey
  previous : manager.previousKeys.map (fun key => (key.key, key.expiresAt)) =
    (kept book.rotations).map fun entry => (entry.1, some entry.2)
  stored : (manager.store.getD []).map (fun jwk => (jwk.key, jwk.exp)) =
    book.currentKey.toList.map (fun key => (key, none)) ++
      (kept book.rotations).map fun entry => (entry.1, writtenTime (some entry.2))

/-- A manager on an empty store agrees with an empty ledger. -/
theorem agrees_start : Agrees configured ({ gracePeriodMs := configured } : KeyManager Key) {} where
  grace := rfl
  started := rfl
  unused _ := rfl
  current := rfl
  previous := rfl
  stored := rfl

/-- The store of a manager that has saved its keys. -/
theorem keySet_view (manager : KeyManager Key) :
    manager.keySet.map (fun jwk => (jwk.key, jwk.exp)) =
      (manager.currentKey.map (·.key)).toList.map (fun key => (key, none)) ++
        (manager.previousKeys.map fun key => (key.key, key.expiresAt)).map
          fun entry => (entry.1, writtenTime entry.2) := by
  cases hcurrent : manager.currentKey <;> simp [keySet, stored, hcurrent, Function.comp_def, writtenTime]

variable [DecidableEq Key] {jose : Jose Key}

/-- A manager that opens a store with a current key has the keys of the store again,
    if the expiries can be read. -/
theorem Agrees.reopen (hjose : jose.Documented) {key : Key} (h : Agrees configured manager book)
    (hkey : book.currentKey = some key) {now : Nat} {fresh : Key} (hcompletes : manager.Completes (.restart now fresh)) :
    Agrees configured (manager.shutdown.initializeKeys jose now fresh).1 book := by
  have hstored := h.stored
  rw [hkey] at hstored
  obtain ⟨first, rest, hstore, hfirst, hrest⟩ := List.map_eq_cons_iff.mp hstored
  obtain ⟨hfirstKey, hfirstExp⟩ := Prod.mk.inj hfirst
  have hreadable : ∀ jwk ∈ rest, ∃ expiry, jwk.exp = some expiry ∧ Readable expiry := by
    have htail : (manager.store.getD []).tail = rest := by rw [hstore]; rfl
    rw [← htail]
    exact hcompletes
  have hfalsy : truthyTime first.exp = false := by rw [hfirstExp]; rfl
  have htruthy : ∀ jwk ∈ rest, truthyTime jwk.exp = true := fun jwk hmem => by
    obtain ⟨expiry, hexp, hread⟩ := hreadable jwk hmem
    rw [hexp]
    exact hread.1
  have hloadable : ∀ jwk ∈ manager.store.getD [], Loadable jwk.exp := by
    rw [hstore]
    refine List.forall_mem_cons.mpr ⟨fun htrue => absurd htrue (by simp [hfalsy]), fun jwk hmem => ?_⟩
    obtain ⟨expiry, hexp, hread⟩ := hreadable jwk hmem
    rw [hexp]
    exact hread.loadable
  -- the store has one key without an expiry
  have hunending : (manager.store.getD []).filter (fun jwk => !truthyTime jwk.exp) = [first] := by
    rw [hstore, List.filter_cons_of_pos (by simp [hfalsy])]
    exact congrArg _ (List.filter_eq_nil_iff.mpr fun jwk hmem => by simp [htruthy jwk hmem])
  have hending : (manager.store.getD []).filter (fun jwk => truthyTime jwk.exp) = rest := by
    rw [hstore, List.filter_cons_of_neg (by simp [hfalsy])]
    exact List.filter_eq_self.mpr htruthy
  have hlast : ((manager.store.getD []).filter fun jwk => !truthyTime jwk.exp).getLast? = some first := by
    rw [hunending]
    rfl
  obtain ⟨opened, hopened, hsame, hgrace, hinitialized, hprevious, hcurrent⟩ :=
    initializeKeys_shutdown hjose now fresh hloadable hlast
  rw [hopened]
  constructor
  case grace => rw [hgrace, h.grace]
  case started => rw [hinitialized, hkey]; rfl
  case unused => exact h.unused
  case current =>
    have hkeys := congrArg (Option.map Prod.fst) hcurrent
    rw [Option.map_map, Option.map_some, hfirstKey] at hkeys
    rw [hkey, ← hkeys]
    rfl
  case previous =>
    have hpairs := congrArg (List.map fun entry => (entry.1, entry.2.2)) hprevious
    rw [hending, List.map_map, List.map_map] at hpairs
    have hwritten : (kept book.rotations).map (fun entry => (entry.1, writtenTime (some entry.2))) =
        (kept book.rotations).map fun entry => (entry.1, some entry.2) := by
      refine List.map_congr_left fun entry hmem => ?_
      have hin : (entry.1, writtenTime (some entry.2)) ∈ rest.map fun jwk => (jwk.key, jwk.exp) := by
        rw [hrest]
        exact List.mem_map_of_mem (f := fun entry : Key × JsNumber => (entry.1, writtenTime (some entry.2))) hmem
      obtain ⟨jwk, hjwk, hview⟩ := List.mem_map.mp hin
      obtain ⟨expiry, hexp, hread⟩ := hreadable jwk hjwk
      have hsome : writtenTime (some entry.2) = some expiry := (Prod.mk.inj hview).2.symm.trans hexp
      have hkept : some entry.2 = some expiry := (Option.filter_eq_some_iff.mp hsome).1
      rw [hsome, hkept]
    exact hpairs.trans (hrest.trans hwritten)
  case stored => rw [hsame]; exact h.stored

/-- A store of no keys gets its first one. -/
theorem Agrees.first (hjose : jose.Documented) (h : Agrees configured manager book) (hnone : book.currentKey = none)
    (now : Nat) (fresh : Key) :
    Agrees configured (manager.initializeKeys jose now fresh).1 { book with currentKey := some fresh } := by
  have hunused := h.unused hnone
  have hstored := h.stored
  have hprevious := h.previous
  have hcurrent := h.current
  have hstarted := h.started
  rw [hunused] at hstored hprevious
  rw [hnone] at hstored hcurrent hstarted
  have hempty : manager.store.getD [] = [] := List.map_eq_nil_iff.mp hstored
  have hstart : manager.initialized = false := hstarted
  have hkey : manager.currentKey = none := Option.map_eq_none_iff.mp hcurrent
  have hnoneLeft : manager.previousKeys = [] := List.map_eq_nil_iff.mp hprevious
  have hidle : ∀ key ∈ manager.previousKeys, key.extractable = true := by simp [hnoneLeft]
  have hgenerated := generateNewKey_eq hjose hidle now fresh
  have hopened : (manager.initializeKeys jose now fresh).1 =
      { saved { manager with currentKey := some (newKey jose now fresh) } with initialized := true } := by
    simp [initializeKeys, hstart, hempty, hkey, loadKeys, hgenerated]
  rw [hopened, hunused]
  exact
    { grace := h.grace
      started := rfl
      unused := fun _ => rfl
      current := rfl
      previous := hprevious
      stored := by
        rw [saved, Option.getD_some, keySet_view, hprevious]
        rfl }

/-- A rotation retires the key in use, or drops it with all that were retired before. -/
theorem Agrees.rotate (hjose : jose.Documented) {oldKey : ManagedKey Key} (h : Agrees configured manager book)
    (hold : manager.currentKey = some oldKey) (createdAt now : Nat) {options : RotateOptions}
    (hexportable : manager.Exportable options) (fresh : Key) :
    Agrees configured (manager.rotate jose createdAt now options fresh).1
      { currentKey := some fresh
        rotations := book.rotations ++
          [(oldKey.key, if options.immediate then none else some (graceEnd configured options now))] } := by
  rw [rotate_of_current hjose hold createdAt now hexportable]
  have hstarted : manager.initialized = true := by rw [h.started, ← h.current, hold]; rfl
  generalize hafter : (if options.immediate then [] else manager.previousKeys ++
    [{ oldKey with expiresAt := some (graceEnd manager.gracePeriodMs options now) }]) = previousKeys
  have hprevious : previousKeys.map (fun key : ManagedKey Key => (key.key, key.expiresAt)) =
      (kept (book.rotations ++
        [(oldKey.key, if options.immediate then none else some (graceEnd configured options now))])).map
        fun entry => (entry.1, some entry.2) := by
    rw [← hafter]
    cases options.immediate with
    | true => simp [kept_concat_immediate]
    | false => simp [kept_concat_grace, h.previous, h.grace]
  exact
    { grace := h.grace
      started := hstarted
      unused := fun hnone => by cases hnone
      current := rfl
      previous := hprevious
      stored := by
        rw [saved, Option.getD_some, keySet_view, hprevious, List.map_map]
        rfl }

omit [DecidableEq Key] in
/-- A manager that stops before it has drawn a key is one that has not started. -/
theorem Agrees.unopened (h : Agrees configured manager book) (hnone : book.currentKey = none) :
    Agrees configured manager.shutdown book where
  grace := h.grace
  started := by rw [hnone]; rfl
  unused := h.unused
  current := by rw [hnone]; rfl
  previous := by rw [h.unused hnone]; rfl
  stored := h.stored

/-- One event that runs to its end. -/
theorem Agrees.step (hjose : jose.Documented) (h : Agrees configured manager book) {event : Event Key}
    (hcompletes : manager.Completes event) : Agrees configured (manager.step jose event) (book.step configured event) := by
  cases hkey : book.currentKey with
  | none =>
    have hidle : manager.currentKey = none := Option.map_eq_none_iff.mp (h.current.trans hkey)
    cases event with
    | init now fresh => simpa [KeyManager.step, Ledger.step, hkey] using h.first hjose hkey now fresh
    | restart now fresh => simpa [KeyManager.step, Ledger.step, hkey] using (h.unopened hkey).first hjose hkey now fresh
    | rotate createdAt now options fresh => simpa [KeyManager.step, Ledger.step, hkey, KeyManager.rotate, hidle] using h
  | some key =>
    have hstarted : manager.initialized = true := by rw [h.started, hkey]; rfl
    have hsame : ({ book with currentKey := some key } : Ledger Key) = book := by rw [← hkey]
    cases event with
    | init now fresh => simpa [KeyManager.step, Ledger.step, hkey, initializeKeys, hstarted, hsame] using h
    | restart now fresh =>
      simpa only [KeyManager.step, Ledger.step, hkey, Option.orElse_eq_orElse, Option.orElse_some, hsame] using
        h.reopen hjose hkey hcompletes
    | rotate createdAt now options fresh =>
      obtain ⟨oldKey, hold, rfl⟩ := Option.map_eq_some_iff.mp (h.current.trans hkey)
      simpa only [KeyManager.step, Ledger.step, hkey] using
        h.rotate hjose hold createdAt now (hcompletes (by rw [hold]; rfl)) fresh

/-- The manager agrees with the ledger after any events that run to their end. -/
theorem run_agrees (hjose : jose.Documented) {events : List (Event Key)}
    (hcompletes : Runs.EachStep (step jose) Completes { gracePeriodMs := configured } events) :
    Agrees configured (run jose configured events) (ledger configured events) := by
  induction events using List.reverseRecOn with
  | nil => exact agrees_start
  | append_singleton events event ih =>
    obtain ⟨hearly, hlast, -⟩ := (Runs.eachStep_append _).mp hcompletes
    rw [run, ledger, Runs.run_concat, Runs.run_concat]
    exact (ih hearly).step hjose hlast

end Agrees

end CatalystRouter.KeyManager
