import CatalystRouter.Authorization.KeyManager
import CatalystRouter.Authorization.TokenStore
import CatalystRouter.Library.Cedar

namespace CatalystRouter

/-! The `JWTTokenFactory`: a key manager, and a `LocalTokenManager` on a token store. -/

/-- The `entity` claim. -/
structure TokenEntity where
  id : String
  name : String
  type : EntityType
  nodeId : Option String := none
  trustedNodes : Option (List String) := none
  trustedDomains : Option (List String) := none
  deriving DecidableEq, Repr

/-- The claims of a payload that are read anywhere, beside those of `Token`. -/
structure Payload where
  jti : Option String := none
  sub : String
  principal : Option String := none
  entity : Option TokenEntity := none
  nodes : Option (List String) := none
  domains : Option (List String) := none
  claims : Option (List (String × Cedar.Value)) := none
  deriving DecidableEq, Repr

structure Jwt (Key : Type) extends Token Key where
  payload : Payload
  deriving DecidableEq, Repr

/-- The custom claims that `mint` copies into the payload. -/
structure MintClaims where
  nodes : Option (List String) := none
  domains : Option (List String) := none
  claims : Option (List (String × Cedar.Value)) := none
  deriving DecidableEq, Repr

/-- Times are milliseconds since 1970. -/
structure MintOptions where
  subject : String
  audience : List String := []
  expiresAt : Option Nat := none
  claims : MintClaims := {}
  principal : String
  certificateFingerprint : Option String := none
  sans : Option (List String) := none
  entity : TokenEntity
  deriving DecidableEq, Repr

/-- `jti` is the random UUID of the token. -/
def KeyManager.sign {Key : Type} (manager : KeyManager Key) (now : Nat) (jti : String) (options : MintOptions) :
    Except String (Jwt Key) :=
  match manager.currentKey with
  | none => .error "Not initialized"
  | some current =>
    .ok
      { signer := current.key
        kid := some current.kid
        audience := options.audience
        exp := options.expiresAt.getD (now + 3600000) / 1000
        payload :=
          { jti := some jti
            sub := options.subject
            principal := some options.principal
            entity := some options.entity
            nodes := options.claims.nodes
            domains := options.claims.domains
            claims := options.claims.claims } }

structure JWTTokenFactory (Key : Type) where
  keyManager : KeyManager Key
  tokens : List TokenRow := []
  nodeId : Option String := none
  deriving DecidableEq, Repr

/-- Why `verify` rejects a token; the first reason comes with an error of the key manager. -/
inductive Rejection where
  | notVerified
  | missingJti
  | revoked
  deriving DecidableEq, Repr

def Rejection.text : Rejection → Option String
  | .notVerified => none
  | .missingJti => some "Token missing jti"
  | .revoked => some "Token is revoked"

structure RevokeOptions where
  jti : Option String := none
  san : Option String := none
  deriving DecidableEq, Repr

namespace JWTTokenFactory

variable {Key : Type}

/-- The entity with the node that mints the token, unless it names one. -/
def injectNodeId (factory : JWTTokenFactory Key) (entity : TokenEntity) : TokenEntity :=
  match orUndefined factory.nodeId, orUndefined entity.nodeId with
  | some nodeId, none => { entity with nodeId := some nodeId }
  | _, _ => entity

/-- The record of a token that `mint` has signed. -/
def minted (options : MintOptions) (jti : String) (exp : Nat) : TokenRecord where
  jti
  expiry := exp
  cfn := options.certificateFingerprint
  sans := options.sans.getD []
  entityId := options.entity.id
  entityName := options.entity.name
  entityType := options.entity.type
  revoked := false

def mint (factory : JWTTokenFactory Key) (now : Nat) (jti : String) (options : MintOptions) :
    JWTTokenFactory Key × Except String (Jwt Key) :=
  let named := { options with entity := factory.injectNodeId options.entity }
  match factory.keyManager.sign now jti named with
  | .error error => (factory, .error error)
  | .ok token =>
    if jti = "" ∨ token.exp = 0 then (factory, .error "Minted token missing required claims (jti, exp)")
    else
      match SqliteTokenStore.recordToken factory.tokens (minted named jti token.exp) with
      | .error error => (factory, .error error)
      | .ok tokens => ({ factory with tokens }, .ok token)

/-- What revoking by the `jti` leaves of the rows. -/
def revokeByJti (factory : JWTTokenFactory Key) (options : RevokeOptions) : List TokenRow :=
  match orUndefined options.jti with
  | some jti => SqliteTokenStore.revokeToken factory.tokens jti
  | none => factory.tokens

/-- Where revoking by the SAN fails, what was revoked by the `jti` stays. -/
def revoke (factory : JWTTokenFactory Key) (options : RevokeOptions) : JWTTokenFactory Key × Except String Unit :=
  let byJti := factory.revokeByJti options
  match orUndefined options.san with
  | none => ({ factory with tokens := byJti }, .ok ())
  | some san =>
    match SqliteTokenStore.revokeBySan byJti san with
    | .ok tokens => ({ factory with tokens }, .ok ())
    | .error error => ({ factory with tokens := byJti }, .error error)

def verify (jose : Jose Key) (factory : JWTTokenFactory Key) (token : Jwt Key) (audience : Option (List String))
    (now : Nat) : Except Rejection Payload :=
  if factory.keyManager.verify jose token.toToken audience now then
    match orUndefined token.payload.jti with
    | none => .error .missingJti
    | some jti => if SqliteTokenStore.isRevoked factory.tokens jti then .error .revoked else .ok token.payload
  else .error .notVerified

/-- `rotate`. -/
def rotateKeys (jose : Jose Key) (factory : JWTTokenFactory Key) (createdAt now : Nat) (options : RotateOptions)
    (fresh : Key) : JWTTokenFactory Key × Except String RotationResult :=
  let (keyManager, result) := factory.keyManager.rotate jose createdAt now options fresh
  ({ factory with keyManager }, result)

/-- What happens to a factory. Its stores outlive the process. -/
inductive Event (Key : Type) where
  | keys (event : KeyManager.Event Key)
  | mint (now : Nat) (jti : String) (options : MintOptions)
  | revoke (options : RevokeOptions)
  deriving DecidableEq, Repr

def step (jose : Jose Key) (factory : JWTTokenFactory Key) : Event Key → JWTTokenFactory Key
  | .keys event => { factory with keyManager := factory.keyManager.step jose event }
  | .mint now jti options => (factory.mint now jti options).1
  | .revoke options => (factory.revoke options).1

end JWTTokenFactory

end CatalystRouter
