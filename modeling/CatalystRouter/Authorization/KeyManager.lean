import Mathlib.Data.List.Basic
import CatalystRouter.Library.JsValue

namespace CatalystRouter

/-! The `PersistentLocalKeyManager` and what its `IKeyStore` holds. A key pair is one
    value of `Key`; clock readings are milliseconds since 1970. -/

/-- A token as `jwtVerify` sees it: the key pair it is signed with, its `kid` header
    and the claims that are checked. `exp` is in seconds. -/
structure Token (Key : Type) where
  signer : Key
  kid : Option String
  audience : List String := []
  exp : Nat
  deriving DecidableEq, Repr

/-- A private key: the pair that it belongs to, and whether it may be exported. -/
structure CryptoKey (Key : Type) where
  key : Key
  extractable : Bool
  deriving DecidableEq, Repr

/-- What the key manager uses of the `jose` package; a JWK of a private key is its pair. -/
structure Jose (Key : Type) where
  exportJWK : CryptoKey Key → Except String Key
  importJWK : Key → Except String (CryptoKey Key)
  calculateJwkThumbprint : Key → String
  jwtVerify : Token Key → Key → Option (List String) → Nat → Bool

/-- A token that is signed with the key, has not expired and is meant for the audience. -/
def Token.accepted {Key : Type} [DecidableEq Key] (token : Token Key) (key : Key) (audience : Option (List String))
    (now : Nat) : Bool :=
  token.signer = key && now / 1000 < token.exp &&
    match audience with
    | some expected => token.audience.any expected.contains
    | none => true

/-- The documented behaviour: a key is exported exactly if it is extractable, and a JWK is
    imported as a key of its pair, extractable or not. -/
structure Jose.Documented {Key : Type} [DecidableEq Key] (jose : Jose Key) : Prop where
  exports : ∀ key, jose.exportJWK { key, extractable := true } = .ok key
  keeps : ∀ key, ∃ error, jose.exportJWK { key, extractable := false } = .error error
  imports : ∀ key, ∃ extractable, jose.importJWK key = .ok { key, extractable }
  verifies : ∀ token key audience now, jose.jwtVerify token key audience now = token.accepted key audience now

/-- `extractable` is that of the private key; a public key always is. -/
structure ManagedKey (Key : Type) where
  key : Key
  kid : String
  createdAt : Nat
  expiresAt : Option JsNumber := none
  extractable : Bool
  deriving DecidableEq, Repr

def ManagedKey.privateKey {Key : Type} (self : ManagedKey Key) : CryptoKey Key :=
  { key := self.key, extractable := self.extractable }

/-- A JWK of the store, with the private key. -/
structure StoredKey (Key : Type) where
  key : Key
  kid : String
  iat : Nat
  exp : Option JsNumber := none
  deriving DecidableEq, Repr

/-- An entry of `getJwks`, with the public key. -/
structure PublicJwk (Key : Type) where
  key : Key
  kid : String
  use : String := "sig"
  alg : String := "ES384"
  deriving DecidableEq, Repr

structure RotateOptions where
  immediate : Bool := false
  gracePeriodMs : Option JsNumber := none
  deriving DecidableEq, Repr

structure RotationResult where
  previousKeyId : String
  newKeyId : String
  gracePeriodEndsAt : Option JsNumber
  deriving DecidableEq, Repr

structure KeyManager (Key : Type) where
  currentKey : Option (ManagedKey Key) := none
  previousKeys : List (ManagedKey Key) := []
  initialized : Bool := false
  gracePeriodMs : Option JsNumber := none
  store : Option (List (StoredKey Key)) := none
  deriving DecidableEq, Repr

def defaultGracePeriodMs : JsNumber := .integer (24 * 60 * 60 * 1000)

/-- Whether a time is there, and is not falsy. -/
def truthyTime (time : Option JsNumber) : Bool := time.any JsNumber.truthy

/-- The range of a `Date`, in milliseconds. -/
def maxTime : Int := 8640000000000000

/-- The time of a valid `Date`. -/
def isDate : JsNumber → Bool
  | .integer time => -maxTime ≤ time && time ≤ maxTime
  | _ => false

/-- `toISOString` of a truthy time throws where the time is not that of a valid `Date`. -/
def logTime (time : Option JsNumber) : Except String Unit :=
  if truthyTime time && !time.any isDate then .error "Invalid time value" else .ok ()

/-- What `JSON.stringify` keeps of a time: one that is not finite becomes `null`. -/
def writtenTime (time : Option JsNumber) : Option JsNumber := time.filter JsNumber.finite

namespace KeyManager

variable {Key : Type}

/-- One JWK of the store; without an expiry it becomes the current key. The expiry of
    another one is logged before it is kept. -/
def loadKey (jose : Jose Key) (now : Nat) (manager : KeyManager Key) (jwk : StoredKey Key) :
    KeyManager Key × Except String Unit :=
  match jose.importJWK jwk.key with
  | .error error => (manager, .error error)
  | .ok privateKey =>
    let managed : ManagedKey Key :=
      { key := privateKey.key
        kid := jwk.kid
        createdAt := if jwk.iat = 0 then now else jwk.iat
        expiresAt := jwk.exp
        extractable := privateKey.extractable }
    if truthyTime managed.expiresAt then
      match logTime managed.expiresAt with
      | .error error => (manager, .error error)
      | .ok () => ({ manager with previousKeys := manager.previousKeys ++ [managed] }, .ok ())
    else ({ manager with currentKey := some managed }, .ok ())

/-- The loop of `initialize`, which ends where a key cannot be loaded. -/
def loadKeys (jose : Jose Key) (now : Nat) (manager : KeyManager Key) :
    List (StoredKey Key) → KeyManager Key × Except String Unit
  | [] => (manager, .ok ())
  | jwk :: rest =>
    match manager.loadKey jose now jwk with
    | (loaded, .error error) => (loaded, .error error)
    | (loaded, .ok ()) => loaded.loadKeys jose now rest

/-- The entry of a key in the store. -/
def exportKey (jose : Jose Key) (expiresAt : Option JsNumber) (key : ManagedKey Key) : Except String (StoredKey Key) :=
  (jose.exportJWK key.privateKey).map fun jwk =>
    { key := jwk, kid := key.kid, iat := key.createdAt, exp := writtenTime expiresAt }

/-- What `persist` writes: the current key first, without an expiry. -/
def exportKeys (jose : Jose Key) (manager : KeyManager Key) : Except String (List (StoredKey Key)) := do
  let current ← manager.currentKey.toList.mapM (exportKey jose none)
  let previous ← manager.previousKeys.mapM fun key => exportKey jose key.expiresAt key
  return current ++ previous

def persist (jose : Jose Key) (manager : KeyManager Key) : KeyManager Key × Except String Unit :=
  match manager.exportKeys jose with
  | .ok keys => ({ manager with store := some keys }, .ok ())
  | .error error => (manager, .error error)

/-- A new extractable key, under its thumbprint. -/
def newKey (jose : Jose Key) (now : Nat) (fresh : Key) : ManagedKey Key where
  key := fresh
  kid := jose.calculateJwkThumbprint fresh
  createdAt := now
  extractable := true

/-- `fresh` is the key pair of `jose.generateKeyPair`. -/
def generateNewKey (jose : Jose Key) (manager : KeyManager Key) (now : Nat) (fresh : Key) :
    KeyManager Key × Except String Unit :=
  { manager with currentKey := some (newKey jose now fresh) }.persist jose

/-- `initialize`. -/
def initializeKeys (jose : Jose Key) (manager : KeyManager Key) (now : Nat) (fresh : Key) :
    KeyManager Key × Except String Unit :=
  if manager.initialized then (manager, .ok ())
  else
    match manager.loadKeys jose now (manager.store.getD []) with
    | (loaded, .error error) => (loaded, .error error)
    | (loaded, .ok ()) =>
      if loaded.currentKey.isSome then ({ loaded with initialized := true }, .ok ())
      else
        match loaded.generateNewKey jose now fresh with
        | (started, .error error) => (started, .error error)
        | (started, .ok ()) => ({ started with initialized := true }, .ok ())

/-- When the grace period of a rotation ends. -/
def graceEnd (configured : Option JsNumber) (options : RotateOptions) (now : Nat) : JsNumber :=
  .add (.integer now) ((options.gracePeriodMs <|> configured).getD defaultGracePeriodMs)

/-- What becomes of the previous keys between the two writes of a rotation. -/
def retire (manager : KeyManager Key) (oldKey : ManagedKey Key) (options : RotateOptions) (now : Nat) :
    KeyManager Key :=
  if options.immediate then { manager with previousKeys := [] }
  else
    { manager with
      previousKeys := manager.previousKeys ++
        [{ oldKey with expiresAt := some (graceEnd manager.gracePeriodMs options now) }] }

/-- `createdAt` and `now` are the clock readings of the new key and of the expiry, which is
    logged after the second write. -/
def rotate (jose : Jose Key) (manager : KeyManager Key) (createdAt now : Nat) (options : RotateOptions)
    (fresh : Key) : KeyManager Key × Except String RotationResult :=
  match manager.currentKey with
  | none => (manager, .error "Not initialized")
  | some oldKey =>
    match manager.generateNewKey jose createdAt fresh with
    | (generated, .error error) => (generated, .error error)
    | (generated, .ok ()) =>
      match (generated.retire oldKey options now).persist jose with
      | (retired, .error error) => (retired, .error error)
      | (retired, .ok ()) =>
        let expiresAt := if options.immediate then oldKey.expiresAt else some (graceEnd manager.gracePeriodMs options now)
        (retired, (logTime expiresAt).map fun _ =>
          { previousKeyId := oldKey.kid
            newKeyId := jose.calculateJwkThumbprint fresh
            gracePeriodEndsAt := if truthyTime expiresAt then expiresAt else none })

/-- The key resolver of `verify`. -/
def resolveKey (manager : KeyManager Key) (kid : Option String) : Option Key :=
  let previous := (manager.previousKeys.find? fun key => some key.kid = kid).map (·.key)
  match manager.currentKey with
  | some current => if some current.kid = kid then some current.key else previous
  | none => previous

/-- Whether `verify` reports a token as valid. -/
def verify (jose : Jose Key) (manager : KeyManager Key) (token : Token Key) (audience : Option (List String))
    (now : Nat) : Bool :=
  match manager.resolveKey token.kid with
  | some key => jose.jwtVerify token key audience now
  | none => false

def getJwks (manager : KeyManager Key) : List (PublicJwk Key) :=
  manager.currentKey.toList.map (fun key => { key := key.key, kid := key.kid }) ++
    manager.previousKeys.map fun key => { key := key.key, kid := key.kid }

/-- The manager of a new process on the same store, which is also what `shutdown`
    leaves. -/
def shutdown (manager : KeyManager Key) : KeyManager Key :=
  { gracePeriodMs := manager.gracePeriodMs, store := manager.store }

/-- What happens to a key manager: `initialize`, `rotate`, or a restart that ends with
    `initialize`. `fresh` is the key pair that would be generated. -/
inductive Event (Key : Type) where
  | init (now : Nat) (fresh : Key)
  | rotate (createdAt now : Nat) (options : RotateOptions) (fresh : Key)
  | restart (now : Nat) (fresh : Key)
  deriving DecidableEq, Repr

def Event.fresh : Event Key → Key
  | .init _ fresh => fresh
  | .rotate _ _ _ fresh => fresh
  | .restart _ fresh => fresh

def step (jose : Jose Key) (manager : KeyManager Key) : Event Key → KeyManager Key
  | .init now fresh => (manager.initializeKeys jose now fresh).1
  | .rotate createdAt now options fresh => (manager.rotate jose createdAt now options fresh).1
  | .restart now fresh => (manager.shutdown.initializeKeys jose now fresh).1

/-- The keys that the manager holds, the current one first. -/
def heldKeys (manager : KeyManager Key) : List (ManagedKey Key) := manager.currentKey.toList ++ manager.previousKeys

variable {manager : KeyManager Key} {now : Nat}

/-- The resolver returns a key that the manager holds, under the `kid` asked for. -/
theorem resolveKey_held {kid : Option String} {key : Key} (h : manager.resolveKey kid = some key) :
    ∃ held ∈ manager.heldKeys, held.key = key ∧ some held.kid = kid := by
  have hprevious : ∀ {key}, (manager.previousKeys.find? fun key => some key.kid = kid).map (·.key) = some key →
      ∃ held ∈ manager.heldKeys, held.key = key ∧ some held.kid = kid := by
    intro key hfound
    obtain ⟨held, hheld, rfl⟩ := Option.map_eq_some_iff.mp hfound
    exact ⟨held, by simp [heldKeys, List.mem_of_find?_eq_some hheld], rfl, by simpa using List.find?_some hheld⟩
  unfold resolveKey at h
  cases hcurrent : manager.currentKey with
  | none => exact hprevious (by simpa [hcurrent] using h)
  | some current =>
    simp only [hcurrent] at h
    split at h
    case isTrue hkid => exact ⟨current, by simp [heldKeys, hcurrent], Option.some.inj h, hkid⟩
    case isFalse => exact hprevious h

theorem resolveKey_of_held {held : ManagedKey Key} (hheld : held ∈ manager.heldKeys) :
    ∃ key, manager.resolveKey (some held.kid) = some key := by
  unfold resolveKey
  cases hcurrent : manager.currentKey with
  | none =>
    have hprevious : held ∈ manager.previousKeys := by simpa [heldKeys, hcurrent] using hheld
    exact Option.isSome_iff_exists.mp (by simpa using ⟨held, hprevious, rfl⟩)
  | some current =>
    dsimp only
    split
    case isTrue => exact ⟨_, rfl⟩
    case isFalse hother =>
      rw [heldKeys, hcurrent, Option.toList_some, List.singleton_append, List.mem_cons] at hheld
      have hprevious : held ∈ manager.previousKeys := hheld.resolve_left fun heq => hother (by rw [heq])
      exact Option.isSome_iff_exists.mp (by simpa using ⟨held, hprevious, rfl⟩)

theorem verify_held [DecidableEq Key] {jose : Jose Key} (hjose : jose.Documented) {token : Token Key}
    {audience : Option (List String)} (h : manager.verify jose token audience now = true) :
    token.signer ∈ manager.getJwks.map (·.key) := by
  unfold verify at h
  cases hresolved : manager.resolveKey token.kid with
  | none => simp [hresolved] at h
  | some key =>
    have hsigner : token.signer = key := by
      simp only [hresolved, hjose.verifies, Token.accepted, Bool.and_eq_true, decide_eq_true_eq] at h
      exact h.1.1
    obtain ⟨held, hmem, hkey, -⟩ := resolveKey_held hresolved
    have hheld : token.signer ∈ manager.heldKeys.map (·.key) := List.mem_map.mpr ⟨held, hmem, hkey.trans hsigner.symm⟩
    simpa [getJwks, heldKeys, Function.comp_def] using hheld

end KeyManager

end CatalystRouter
