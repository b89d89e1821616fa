import CatalystRouter.Authorization.Permissions
import CatalystRouter.Authorization.TokenLifecycle

namespace CatalystRouter

/-! The auth service with its callers: who holds the handlers of `tokens` and `certs`, and
    which tokens have been created through them. -/

/-! ### `parseDuration` -/

def durationMultiplier (unit : Char) : Option Nat :=
  [('s', 1000), ('m', 60 * 1000), ('h', 60 * 60 * 1000), ('d', 24 * 60 * 60 * 1000), ('w', 7 * 24 * 60 * 60 * 1000)].lookup
    unit.toLower

/-- White space of a regular expression. -/
def isRegexSpace (c : Char) : Bool :=
  c ∈ ['\t', '\n', '\x0b', '\x0c', '\r', ' ', '\u00a0', '\u1680', '\u2028', '\u2029', '\u202f', '\u205f', '\u3000', '\ufeff'] ||
    '\u2000' ≤ c && c ≤ '\u200a'

def digitsValue (digits : List Char) : Nat := digits.foldl (fun value c => 10 * value + (c.toNat - '0'.toNat)) 0

/-- Digits, white space and a unit; the milliseconds. -/
def parseDuration (duration : String) : Except String Nat :=
  let digits := duration.toList.takeWhile Char.isDigit
  match digits, (duration.toList.dropWhile Char.isDigit).dropWhile isRegexSpace with
  | _ :: _, [unit] =>
    match durationMultiplier unit with
    | some multiplier => .ok (digitsValue digits * multiplier)
    | none => .error ("Invalid duration format: " ++ duration)
  | _, _ => .error ("Invalid duration format: " ++ duration)

/-! ### The service -/

/-- A request of `create`. -/
structure CreateTokenRequest where
  subject : String
  entity : TokenEntity
  principal : Option String := none
  sans : Option (List String) := none
  expiresIn : Option String := none
  deriving DecidableEq, Repr

inductive HandlerKind where
  | tokens
  | certs
  deriving DecidableEq, Repr

/-- Handlers that a caller holds, and the token that it has shown for them. -/
structure Handlers (Key : Type) where
  kind : HandlerKind
  token : Jwt Key
  deriving DecidableEq, Repr

structure NodeConfig where
  name : String
  domains : List String
  deriving DecidableEq, Repr

def NodeConfig.domainId (node : NodeConfig) : String := (orUndefined node.domains.head?).getD ""

/-- An administrator who is trusted with the node. -/
def NodeConfig.Administers (node : NodeConfig) (payload : Payload) : Prop :=
  (jwtToEntity payload).uid.type = Policy.roleToPrincipal .admin ∧
    Policy.Trusts .admin payload.trustedDomains payload.trustedNodes node.domainId node.name

/-- A service on its stores; it serves when `onInitialize` has returned. `issued` and `drawn`
    are its history: the tokens that it has handed out, with the token of the caller that had
    it created, and the key pairs that it has drawn. -/
structure AuthService (Key : Type) where
  rpcServer : AuthRpcServer Key
  serving : Bool := false
  handlers : List (Handlers Key) := []
  issued : List (Jwt Key × Option (Jwt Key)) := []
  drawn : List Key := []

namespace AuthService

open KeyManager (numberedKeys numberedKeys_documented)

variable {Key : Type}

/-- The stores before the first process. -/
def blank : AuthService Key where
  rpcServer := { tokenFactory := { keyManager := {} } }

/-- The options of the system token. -/
def systemTokenOptions (node : NodeConfig) (now : Nat) : MintOptions where
  subject := "bootstrap"
  entity :=
    { id := "system", name := "System Admin", type := .service, trustedDomains := some node.domains, trustedNodes := some [] }
  principal := Policy.roleToPrincipal .admin
  expiresAt := some (now + 365 * 24 * 60 * 60 * 1000)

/-- `mint` for a caller with this token, or for the service itself. -/
def issue (service : AuthService Key) (opener : Option (Jwt Key)) (now : Nat) (jti : String) (options : MintOptions) :
    AuthService Key × Except String (Jwt Key) :=
  match service.rpcServer.tokenFactory.mint now jti options with
  | (tokenFactory, .ok token) =>
    ({ service with rpcServer := { service.rpcServer with tokenFactory }, issued := service.issued ++ [(token, opener)] },
      .ok token)
  | (tokenFactory, .error error) =>
    ({ service with rpcServer := { service.rpcServer with tokenFactory } }, .error error)

/-- The server that `onInitialize` makes, with the keys of `initialize`; the callers of an
    earlier process are gone. -/
def opened (cedar : Cedar.Call → Cedar.Answer) (jose : Jose Key) (node : NodeConfig) (service : AuthService Key)
    (now : Nat) (fresh : Key) : AuthService Key × Except String Unit :=
  let factory := service.rpcServer.tokenFactory
  let (keyManager, result) := factory.keyManager.shutdown.initializeKeys jose now fresh
  ({  rpcServer :=
        { tokenFactory := { factory with keyManager, nodeId := some node.name }
          policyService := some (catalystEngine cedar)
          nodeId := node.name
          domainId := node.domainId }
      issued := service.issued
      drawn := service.drawn ++ [fresh] }, result)

/-- `onInitialize` throws where the keys are not opened or no system token is minted. -/
def onInitialize (cedar : Cedar.Call → Cedar.Answer) (jose : Jose Key) (node : NodeConfig)
    (service : AuthService Key) (now : Nat) (fresh : Key) (jti : String) : AuthService Key :=
  match service.opened cedar jose node now fresh with
  | (service, .error _) => service
  | (service, .ok ()) =>
    match service.issue none now jti (systemTokenOptions node now) with
    | (service, .ok _) => { service with serving := true }
    | (service, .error _) => service

/-- `create` of the handlers that were opened with a token. -/
def create (service : AuthService Key) (opener : Jwt Key) (now : Nat) (jti : String) (request : CreateTokenRequest) :
    AuthService Key × Except String (Jwt Key) :=
  let expiresAt : Except String (Option Nat) :=
    match orUndefined request.expiresIn with
    | some expiresIn => (parseDuration expiresIn).map fun duration => some (now + duration)
    | none => .ok none
  match expiresAt with
  | .error error => (service, .error error)
  | .ok expiresAt =>
    service.issue (some opener) now jti
      { subject := request.subject
        entity := request.entity
        principal := (orUndefined request.principal).getD (Policy.roleToPrincipal .user)
        sans := request.sans
        expiresAt }

/-- What happens to a service: it is started again, a caller asks for handlers with a token, or
    a caller uses the handlers that it got, as long as the process runs. -/
inductive Event (Key : Type) where
  | restart (now : Nat) (fresh : Key) (jti : String)
  | ask (kind : HandlerKind) (token : Jwt Key) (now : Nat)
  | create (i : Nat) (now : Nat) (jti : String) (request : CreateTokenRequest)
  | revoke (i : Nat) (options : RevokeOptions)
  | rotate (i : Nat) (createdAt now : Nat) (options : RotateOptions) (fresh : Key)
  deriving DecidableEq, Repr

/-- `tokens` or `certs`. -/
def answer (jose : Jose Key) (service : AuthService Key) (kind : HandlerKind) (token : Jwt Key) (now : Nat) :
    Except String Unit :=
  match kind with
  | .tokens => service.rpcServer.tokens jose token now
  | .certs => service.rpcServer.certs jose token now

def step (cedar : Cedar.Call → Cedar.Answer) (jose : Jose Key) (node : NodeConfig)
    (service : AuthService Key) : Event Key → AuthService Key
  | .restart now fresh jti => service.onInitialize cedar jose node now fresh jti
  | .ask kind token now =>
    match service.serving, service.answer jose kind token now with
    | true, .ok () => { service with handlers := service.handlers ++ [⟨kind, token⟩] }
    | _, _ => service
  | .create i now jti request =>
    match service.handlers[i]? with
    | some ⟨.tokens, opener⟩ => (service.create opener now jti request).1
    | _ => service
  | .revoke i options =>
    match service.handlers[i]? with
    | some ⟨.tokens, _⟩ =>
      { service with
        rpcServer := { service.rpcServer with tokenFactory := (service.rpcServer.tokenFactory.revoke options).1 } }
    | _ => service
  | .rotate i createdAt now options fresh =>
    match service.handlers[i]? with
    | some ⟨.certs, _⟩ =>
      { service with
        rpcServer :=
          { service.rpcServer with
            tokenFactory := (service.rpcServer.tokenFactory.rotateKeys jose createdAt now options fresh).1 }
        drawn := service.drawn ++ [fresh] }
    | _ => service

/-! ### What one step keeps -/

/-- The keys are among those that were drawn, the store has one without an expiry, and the
    server is that of the node. -/
structure Sound (cedar : Cedar.Call → Cedar.Answer) (node : NodeConfig)
    (service : AuthService Key) : Prop where
  within : service.rpcServer.tokenFactory.keyManager.Within (· ∈ service.drawn)
  endless : service.rpcServer.tokenFactory.keyManager.Endless
  policyService : service.rpcServer.policyService = some (catalystEngine cedar)
  nodeId : service.rpcServer.nodeId = node.name
  domainId : service.rpcServer.domainId = node.domainId

/-- What `issue` does: it hands out nothing, or a token that the current key has signed. -/
inductive IssueShape (service : AuthService Key) (opener : Option (Jwt Key)) (now : Nat) (jti : String)
    (options : MintOptions) : AuthService Key × Except String (Jwt Key) → Prop where
  | failed (error : String) : IssueShape service opener now jti options (service, .error error)
  | issued (tokenFactory : JWTTokenFactory Key) (token : Jwt Key)
      (hminted : service.rpcServer.tokenFactory.mint now jti options = (tokenFactory, .ok token))
      (hkeys : tokenFactory.keyManager = service.rpcServer.tokenFactory.keyManager) :
      IssueShape service opener now jti options
        ({ service with
            rpcServer := { service.rpcServer with tokenFactory }, issued := service.issued ++ [(token, opener)] }, .ok token)

/-- `issue` does one of the two. -/
theorem issue_shape (service : AuthService Key) (opener : Option (Jwt Key)) (now : Nat) (jti : String) (options : MintOptions) :
    IssueShape service opener now jti options (service.issue opener now jti options) := by
  have hshape := JWTTokenFactory.mint_shape service.rpcServer.tokenFactory now jti options
  unfold issue
  generalize hminted : service.rpcServer.tokenFactory.mint now jti options = result at hshape ⊢
  cases hshape with
  | failed error => exact .failed error
  | minted current token => exact .issued _ token hminted rfl

/-- A token that is minted was signed by the key manager. -/
theorem mint_signed {factory after : JWTTokenFactory Key} {now : Nat} {jti : String} {options : MintOptions} {token : Jwt Key}
    (h : factory.mint now jti options = (after, .ok token)) :
    factory.keyManager.sign now jti { options with entity := factory.injectNodeId options.entity } = .ok token := by
  unfold JWTTokenFactory.mint at h
  dsimp only at h
  cases hsigned : factory.keyManager.sign now jti { options with entity := factory.injectNodeId options.entity } with
  | error error => simp [hsigned] at h
  | ok signed =>
    rw [hsigned] at h
    dsimp only at h
    split at h
    · simp at h
    · split at h
      · simp at h
      · obtain rfl := Except.ok.inj (Prod.mk.inj h).2
        rfl

/-- A key manager with a current key signs every token with a new `jti`. -/
theorem mint_new (factory : JWTTokenFactory Key) {current : ManagedKey Key} (hcurrent : factory.keyManager.currentKey = some current)
    {jti : String} (hjti : jti ≠ "") (hnew : ∀ row ∈ factory.tokens, row.jti ≠ jti) (now : Nat) (options : MintOptions)
    {expiresAt : Nat} (hexpires : options.expiresAt = some expiresAt) (hlate : 1000 ≤ expiresAt) :
    ∃ after token, factory.mint now jti options = (after, .ok token) ∧ token.exp = expiresAt / 1000 := by
  have hexp : expiresAt / 1000 ≠ 0 := by omega
  have hunused : ¬ (factory.tokens.any fun row => row.jti == jti) = true := by simpa using hnew
  simp only [JWTTokenFactory.mint, KeyManager.sign, hcurrent, hexpires, Option.getD_some, hjti, hexp, or_self, if_false,
    SqliteTokenStore.recordToken, JWTTokenFactory.minted, hunused]
  exact ⟨_, _, rfl, rfl⟩

/-- A factory accepts the token that it has just minted, until it expires. -/
theorem mint_accepted [DecidableEq Key] {jose : Jose Key} (hjose : jose.Documented) {factory after : JWTTokenFactory Key} {now later : Nat} {jti : String} {options : MintOptions}
    {token : Jwt Key} (h : factory.mint now jti options = (after, .ok token)) (hlater : later / 1000 < token.exp) :
    after.verify jose token none later = .ok token.payload := by
  have hshape := JWTTokenFactory.mint_shape factory now jti options
  rw [h] at hshape
  cases hshape with
  | minted current token hcurrent hsigner hkid hjti hsome hnew =>
    have hfound : (factory.tokens.find? fun row => decide (row.jti = jti)) = none := by simpa using hnew
    have hresolved : factory.keyManager.resolveKey token.kid = some current.key := by
      simp [KeyManager.resolveKey, hcurrent, hkid]
    have hverified : jose.jwtVerify token.toToken current.key none later = true :=
      (hjose.verifies _ _ _ _).trans (JWTTokenFactory.accepted_iff.mpr ⟨hsigner, hlater, by simp⟩)
    simp [JWTTokenFactory.verify, KeyManager.verify, hresolved, hverified, hjti, orUndefined, hsome,
      SqliteTokenStore.isRevoked, List.find?_append, hfound, JWTTokenFactory.minted, TokenRecord.toRow]

/-- The domain of the node is one of its domains, if it has any. -/
theorem domainId_trusted (node : NodeConfig) : node.domainId ∈ node.domains ∨ node.domains = [] := by
  unfold NodeConfig.domainId orUndefined
  cases node.domains with
  | nil => exact .inr rfl
  | cons domain rest => by_cases hempty : domain = "" <;> simp [hempty]

/-- The system token is one of an administrator, whatever the domains of the node are. -/
theorem system_administers {factory after : JWTTokenFactory Key} {node : NodeConfig} {now : Nat} {jti : String}
    {token : Jwt Key} (h : factory.mint now jti (systemTokenOptions node now) = (after, .ok token)) :
    node.Administers token.payload ∧ Admitted token.payload "MANAGE" := by
  have hsigned := mint_signed h
  unfold KeyManager.sign at hsigned
  cases hcurrent : factory.keyManager.currentKey with
  | none => simp [hcurrent] at hsigned
  | some current =>
    rw [hcurrent] at hsigned
    obtain rfl := Except.ok.inj hsigned
    have hdomains : (factory.injectNodeId (systemTokenOptions node now).entity).trustedDomains = some node.domains := by
      unfold JWTTokenFactory.injectNodeId
      split <;> rfl
    have hnodes : (factory.injectNodeId (systemTokenOptions node now).entity).trustedNodes = some [] := by
      unfold JWTTokenFactory.injectNodeId
      split <;> rfl
    refine ⟨⟨rfl, ?_, ?_⟩, (admitted_iff rfl rfl).mpr ⟨.admin, .manage, rfl, rfl, by decide, by decide⟩⟩
    · simpa [Payload.trustedDomains, hdomains] using domainId_trusted node
    · simp [Payload.trustedNodes, hnodes]

section Steps

variable {cedar : Cedar.Call → Cedar.Answer} {jose : Jose Key} {node : NodeConfig} {service : AuthService Key}

/-- What `onInitialize` does: it throws, or hands out a system token. -/
inductive InitShape (cedar : Cedar.Call → Cedar.Answer) (jose : Jose Key) (node : NodeConfig)
    (service : AuthService Key) (now : Nat) (fresh : Key) (jti : String) : AuthService Key → Prop where
  | failed : InitShape cedar jose node service now fresh jti (service.opened cedar jose node now fresh).1
  | started (tokenFactory : JWTTokenFactory Key) (token : Jwt Key)
      (hminted : (service.opened cedar jose node now fresh).1.rpcServer.tokenFactory.mint now jti
        (systemTokenOptions node now) = (tokenFactory, .ok token))
      (hkeys : tokenFactory.keyManager = (service.opened cedar jose node now fresh).1.rpcServer.tokenFactory.keyManager) :
      InitShape cedar jose node service now fresh jti
        { (service.opened cedar jose node now fresh).1 with
          rpcServer := { (service.opened cedar jose node now fresh).1.rpcServer with tokenFactory }
          issued := service.issued ++ [(token, none)]
          serving := true }

/-- `onInitialize` does one of the two. -/
theorem onInitialize_shape (cedar : Cedar.Call → Cedar.Answer) (jose : Jose Key) (node : NodeConfig)
    (service : AuthService Key) (now : Nat) (fresh : Key) (jti : String) :
    InitShape cedar jose node service now fresh jti (service.onInitialize cedar jose node now fresh jti) := by
  have hshape := issue_shape (service.opened cedar jose node now fresh).1 none now jti (systemTokenOptions node now)
  have hissued : (service.opened cedar jose node now fresh).1.issued = service.issued := rfl
  have hfailed := @InitShape.failed Key cedar jose node service now fresh jti
  have hstarted := @InitShape.started Key cedar jose node service now fresh jti
  unfold onInitialize
  generalize service.opened cedar jose node now fresh = opening at *
  obtain ⟨opened, _ | _⟩ := opening
  · exact hfailed
  · dsimp only at *
    generalize opened.issue none now jti (systemTokenOptions node now) = result at hshape ⊢
    cases hshape with
    | failed error => exact hfailed
    | issued tokenFactory token hminted hkeys =>
      dsimp only
      rw [hissued]
      exact hstarted tokenFactory token hminted hkeys

/-- With a current key and a new `jti` it hands out a system token, which its server accepts
    until it expires. -/
theorem onInitialize_started [DecidableEq Key] (hjose : jose.Documented) (cedar : Cedar.Call → Cedar.Answer) (node : NodeConfig)
    {now : Nat} {fresh : Key} {opened : KeyManager Key} {current : ManagedKey Key}
    (hopened : service.rpcServer.tokenFactory.keyManager.shutdown.initializeKeys jose now fresh = (opened, .ok ()))
    (hcurrent : opened.currentKey = some current)
    {jti : String} (hjti : jti ≠ "") (hnew : ∀ row ∈ service.rpcServer.tokenFactory.tokens, row.jti ≠ jti) :
    ∃ token, (service.onInitialize cedar jose node now fresh jti).issued = service.issued ++ [(token, none)] ∧
      (service.onInitialize cedar jose node now fresh jti).serving = true ∧
      node.Administers token.payload ∧ Admitted token.payload "MANAGE" ∧
      ∀ later, later / 1000 < now / 1000 + 365 * 24 * 60 * 60 →
        (service.onInitialize cedar jose node now fresh jti).rpcServer.tokenFactory.verify jose token none later =
          .ok token.payload := by
  generalize hfactory : ({ service.rpcServer.tokenFactory with keyManager := opened, nodeId := some node.name } :
    JWTTokenFactory Key) = factory
  have hkey : factory.keyManager.currentKey = some current := by rw [← hfactory, hcurrent]
  have hrows : ∀ row ∈ factory.tokens, row.jti ≠ jti := by rw [← hfactory]; exact hnew
  obtain ⟨tokenFactory, token, hminted, hexp⟩ := mint_new factory hkey hjti hrows now (systemTokenOptions node now) rfl
    (by omega)
  obtain ⟨hadmin, hadmitted⟩ := system_administers hminted
  simp only [onInitialize, AuthService.opened, hopened, hfactory, issue, hminted]
  exact ⟨token, rfl, trivial, hadmin, hadmitted, fun later hlater => mint_accepted hjose hminted (by omega)⟩

/-- The service is sound after `onInitialize`, whatever comes of it. -/
theorem onInitialize_sound [DecidableEq Key] (hjose : jose.Documented) (cedar : Cedar.Call → Cedar.Answer) (node : NodeConfig)
    (hwithin : service.rpcServer.tokenFactory.keyManager.Within (· ∈ service.drawn))
    (hendless : service.rpcServer.tokenFactory.keyManager.Endless) (now : Nat) (fresh : Key) (jti : String) :
    (service.onInitialize cedar jose node now fresh jti).Sound cedar node := by
  have hkeys := (hwithin.mono fun key hkey => List.mem_append_left [fresh] hkey).step hjose
    (.restart now fresh) (List.mem_append_right _ List.mem_cons_self)
  have hstore := hendless.step hjose (.restart now fresh)
  have hshape := onInitialize_shape cedar jose node service now fresh jti
  generalize service.onInitialize cedar jose node now fresh jti = started at hshape ⊢
  cases hshape with
  | failed => exact ⟨hkeys, hstore, rfl, rfl, rfl⟩
  | started tokenFactory token _ hsame => exact ⟨hsame ▸ hkeys, hsame ▸ hstore, rfl, rfl, rfl⟩

/-- A new process has no handlers in use. -/
theorem onInitialize_handlers (service : AuthService Key) (now : Nat) (fresh : Key) (jti : String) :
    (service.onInitialize cedar jose node now fresh jti).handlers = [] := by
  have hshape := onInitialize_shape cedar jose node service now fresh jti
  generalize service.onInitialize cedar jose node now fresh jti = started at hshape ⊢
  cases hshape <;> rfl

/-- The server counts as administrators those of the node. -/
theorem Sound.administers_iff (h : service.Sound cedar node) {payload : Payload} :
    service.rpcServer.Administers payload ↔ node.Administers payload := by
  rw [AuthRpcServer.Administers, h.domainId, h.nodeId, NodeConfig.Administers]

/-- A token that is shown and would be verified is one that was handed out: nobody else has
    the private keys. -/
def Genuine (service : AuthService Key) (token : Jwt Key) : Prop :=
  token.signer ∈ service.drawn → ∃ opener, (token, opener) ∈ service.issued

/-- Tokens are not forged. -/
def Event.Fair (service : AuthService Key) : Event Key → Prop
  | .ask _ token _ => service.Genuine token
  | _ => True

/-- `create` changes nothing, or issues a token for its caller. -/
theorem create_shape (service : AuthService Key) (opener : Jwt Key) (now : Nat) (jti : String) (request : CreateTokenRequest) :
    (service.create opener now jti request).1 = service ∨
      ∃ options, IssueShape service (some opener) now jti options (service.create opener now jti request) := by
  unfold create
  dsimp only
  split
  · exact .inl rfl
  · exact .inr ⟨_, issue_shape _ _ _ _ _⟩

/-- Every event keeps the service sound. -/
theorem step_sound [DecidableEq Key] (hjose : jose.Documented) (h : service.Sound cedar node) (event : Event Key) :
    (service.step cedar jose node event).Sound cedar node := by
  cases event with
  | restart now fresh jti => exact onInitialize_sound hjose cedar node h.within h.endless now fresh jti
  | ask kind token now =>
    simp only [step]
    split
    · exact { h with }
    · exact h
  | create i now jti request =>
    simp only [step]
    split
    · rename_i opener _
      rcases create_shape service opener now jti request with hsame | ⟨options, hshape⟩
      · rwa [hsame]
      · generalize service.create opener now jti request = result at hshape ⊢
        cases hshape with
        | failed => exact h
        | issued tokenFactory token _ hkeys =>
          exact { h with within := hkeys ▸ h.within, endless := hkeys ▸ h.endless }
    · exact h
  | revoke i options =>
    simp only [step]
    split
    · exact { h with within := by simpa using h.within, endless := by simpa using h.endless }
    · exact h
  | rotate i createdAt now options fresh =>
    simp only [step]
    split
    · have hkeys := (h.within.mono fun key hkey => List.mem_append_left [fresh] hkey).rotate hjose createdAt now options
        (List.mem_append_right _ List.mem_cons_self)
      exact { h with within := hkeys, endless := h.endless.step hjose (.rotate createdAt now options fresh) }
    · exact h

/-- A restart is `onInitialize`. -/
theorem step_restart (now : Nat) (fresh : Key) (jti : String) :
    service.step cedar jose node (.restart now fresh jti) = service.onInitialize cedar jose node now fresh jti :=
  rfl

/-- A request with an accepted token of an administrator gives its caller the handlers. -/
theorem step_ask (hserving : service.serving = true) (hpolicy : service.rpcServer.policyService = some (catalystEngine cedar))
    {kind : HandlerKind} {token : Jwt Key} {now : Nat} {payload : Payload}
    (hverified : service.rpcServer.tokenFactory.verify jose token none now = .ok payload) (hadmitted : Admitted payload "MANAGE")
    (hadmin : service.rpcServer.Administers payload) (hcedar : Cedar.Conforms cedar) :
    service.step cedar jose node (.ask kind token now) =
      { service with handlers := service.handlers ++ [⟨kind, token⟩] } := by
  have hanswer : service.answer jose kind token now = .ok () := by
    cases kind <;> exact AuthRpcServer.requireAdmin_of_admitted hcedar hpolicy hverified hadmitted hadmin
  simp only [step, hserving, hanswer]

/-- A step hands out system tokens, and tokens for the holders of handlers. -/
theorem step_issued (cedar : Cedar.Call → Cedar.Answer) (jose : Jose Key) (node : NodeConfig)
    (service : AuthService Key) (event : Event Key) :
    ∃ more, (service.step cedar jose node event).issued = service.issued ++ more ∧
      ∀ token opener, (token, opener) ∈ more →
        opener = none ∧ node.Administers token.payload ∨
          ∃ shown, opener = some shown ∧ ⟨.tokens, shown⟩ ∈ service.handlers := by
  cases event with
  | restart now fresh jti =>
    have hshape := onInitialize_shape cedar jose node service now fresh jti
    simp only [step]
    generalize service.onInitialize cedar jose node now fresh jti = started at hshape ⊢
    cases hshape with
    | failed => exact ⟨[], by simp [opened], by simp⟩
    | started tokenFactory token hminted => exact ⟨[(token, none)], rfl, by simp [(system_administers hminted).1]⟩
  | create i now jti request =>
    simp only [step]
    split
    · rename_i opener hheld
      rcases create_shape service opener now jti request with hsame | ⟨options, hshape⟩
      · exact ⟨[], by simp [hsame], by simp⟩
      · generalize service.create opener now jti request = result at hshape ⊢
        cases hshape with
        | failed => exact ⟨[], by simp, by simp⟩
        | issued tokenFactory token => exact ⟨[(token, some opener)], rfl, by simp [List.mem_of_getElem? hheld]⟩
    · exact ⟨[], by simp, by simp⟩
  | ask kind token now =>
    simp only [step]
    split <;> exact ⟨[], by simp, by simp⟩
  | revoke i options =>
    simp only [step]
    split <;> exact ⟨[], by simp, by simp⟩
  | rotate i createdAt now options fresh =>
    simp only [step]
    split <;> exact ⟨[], by simp, by simp⟩

/-- A step gives handlers to a caller only where it answers the request for them. -/
theorem step_handlers {event : Event Key} {held : Handlers Key}
    (h : held ∈ (service.step cedar jose node event).handlers) :
    held ∈ service.handlers ∨
      ∃ now, event = .ask held.kind held.token now ∧ service.answer jose held.kind held.token now = .ok () := by
  cases event with
  | restart now fresh jti => simp [step, onInitialize_handlers] at h
  | ask kind token now =>
    simp only [step] at h
    split at h
    · rename_i hanswer
      rcases List.mem_append.mp h with hheld | hheld
      · exact .inl hheld
      · rw [List.mem_singleton.mp hheld]
        exact .inr ⟨now, rfl, hanswer⟩
    · exact .inl h
  | create i now jti request =>
    simp only [step] at h
    split at h
    · rename_i opener _
      rcases create_shape service opener now jti request with hsame | ⟨options, hshape⟩
      · rw [hsame] at h
        exact .inl h
      · generalize service.create opener now jti request = result at hshape h
        cases hshape with
        | failed => exact .inl h
        | issued => exact .inl h
    · exact .inl h
  | revoke i options =>
    simp only [step] at h
    split at h <;> exact .inl h
  | rotate i createdAt now options fresh =>
    simp only [step] at h
    split at h <;> exact .inl h

/-- An accepted token is returned as its payload, and is one that the key manager verifies. -/
theorem verify_ok {factory : JWTTokenFactory Key} {token : Jwt Key} {audience : Option (List String)} {now : Nat}
    {payload : Payload} (h : factory.verify jose token audience now = .ok payload) :
    payload = token.payload ∧ factory.keyManager.verify jose token.toToken audience now = true := by
  unfold JWTTokenFactory.verify at h
  split at h
  · rename_i hverified
    split at h
    · cases h
    · split at h
      · cases h
      · exact ⟨(Except.ok.inj h).symm, hverified⟩
  · cases h

/-- An accepted token was signed with a key of the service. -/
theorem Sound.signer_mem [DecidableEq Key] (hjose : jose.Documented) (h : service.Sound cedar node) {token : Jwt Key} {audience : Option (List String)} {now : Nat}
    {payload : Payload} (haccepted : service.rpcServer.tokenFactory.verify jose token audience now = .ok payload) :
    token.signer ∈ service.drawn := by
  obtain ⟨held, hheld, hname, -⟩ := JWTTokenFactory.verified_held hjose (verify_ok haccepted).2
  exact hname ▸ h.within.held held hheld

/-- Handlers are given for accepted tokens of administrators of the node. -/
theorem Sound.answer_ok (h : service.Sound cedar node) (hcedar : Cedar.Conforms cedar) {kind : HandlerKind}
    {token : Jwt Key} {now : Nat} (hanswer : service.answer jose kind token now = .ok ()) :
    service.rpcServer.tokenFactory.verify jose token none now = .ok token.payload ∧ node.Administers token.payload := by
  have hadmin : service.rpcServer.requireAdmin jose token now = .ok () := by cases kind <;> exact hanswer
  obtain ⟨payload, hverified, hpayload⟩ := AuthRpcServer.requireAdmin_ok hcedar h.policyService hadmin
  obtain rfl := (verify_ok hverified).1
  exact ⟨hverified, h.administers_iff.mp hpayload⟩

end Steps

/-! ### What a run keeps -/

section History

variable (cedar : Cedar.Call → Cedar.Answer) (jose : Jose Key) (node : NodeConfig)
  (start : AuthService Key)

abbrev run (events : List (Event Key)) : AuthService Key := Runs.run (step cedar jose node) start events

theorem run_concat (events : List (Event Key)) (event : Event Key) :
    run cedar jose node start (events ++ [event]) =
      (run cedar jose node start events).step cedar jose node event :=
  Runs.run_concat _ _ _ _

/-- The token has been shown for handlers, and was accepted then as one of an administrator
    of the node. -/
def Shown (events : List (Event Key)) (token : Jwt Key) : Prop :=
  ∃ early kind now late, events = early ++ .ask kind token now :: late ∧
    (run cedar jose node start early).rpcServer.tokenFactory.verify jose token none now = .ok token.payload ∧
    node.Administers token.payload

/-- The tokens whose creation goes back to a system token, every one of them created for an
    administrator with the token before it. -/
inductive Descends (events : List (Event Key)) : Jwt Key → Prop where
  | system {token : Jwt Key} (hissued : (token, none) ∈ (run cedar jose node start events).issued)
      (hadmin : node.Administers token.payload) : Descends events token
  | created {token opener : Jwt Key} (hissued : (token, some opener) ∈ (run cedar jose node start events).issued)
      (hshown : Shown cedar jose node start events opener) (hopener : Descends events opener) : Descends events token

end History

section Runs

variable {cedar : Cedar.Call → Cedar.Answer} {jose : Jose Key} {node : NodeConfig}
  {start : AuthService Key}

/-- A token that has been shown stays so. -/
theorem Shown.concat {events : List (Event Key)} {token : Jwt Key} (h : Shown cedar jose node start events token)
    (event : Event Key) : Shown cedar jose node start (events ++ [event]) token := by
  obtain ⟨early, kind, now, late, rfl, hshown⟩ := h
  exact ⟨early, kind, now, late ++ [event], by simp, hshown⟩

/-- So does the descent of a token. -/
theorem Descends.concat {events : List (Event Key)} {token : Jwt Key} (h : Descends cedar jose node start events token)
    (event : Event Key) : Descends cedar jose node start (events ++ [event]) token := by
  obtain ⟨more, hissued, -⟩ := step_issued cedar jose node (run cedar jose node start events) event
  rw [← run_concat] at hissued
  induction h with
  | system hold hadmin => exact .system (by rw [hissued]; exact List.mem_append_left _ hold) hadmin
  | created hold hshown _ ih => exact .created (by rw [hissued]; exact List.mem_append_left _ hold) (hshown.concat event) ih

/-- The service with its history: whoever holds handlers has shown a token for them, and every
    token descends from a system token. -/
structure Governed (cedar : Cedar.Call → Cedar.Answer) (jose : Jose Key) (node : NodeConfig)
    (start : AuthService Key) (events : List (Event Key)) : Prop where
  sound : (run cedar jose node start events).Sound cedar node
  handlers : ∀ held ∈ (run cedar jose node start events).handlers,
    Shown cedar jose node start events held.token ∧ Descends cedar jose node start events held.token
  issued : ∀ token opener, (token, opener) ∈ (run cedar jose node start events).issued →
    Descends cedar jose node start events token

/-- Every genuine token that is accepted descends from a system token. -/
theorem Governed.genuine [DecidableEq Key] (hjose : jose.Documented) {events : List (Event Key)} (h : Governed cedar jose node start events) {token : Jwt Key}
    (hgenuine : (run cedar jose node start events).Genuine token) {audience : Option (List String)} {now : Nat}
    {payload : Payload}
    (haccepted : (run cedar jose node start events).rpcServer.tokenFactory.verify jose token audience now = .ok payload) :
    Descends cedar jose node start events token := by
  obtain ⟨opener, hissued⟩ := hgenuine (h.sound.signer_mem hjose haccepted)
  exact h.issued token opener hissued

/-- Every fair event keeps the service governed. -/
theorem Governed.step [DecidableEq Key] (hjose : jose.Documented) (hcedar : Cedar.Conforms cedar) {events : List (Event Key)} (h : Governed cedar jose node start events)
    {event : Event Key} (hfair : event.Fair (run cedar jose node start events)) :
    Governed cedar jose node start (events ++ [event]) := by
  have hafter := run_concat cedar jose node start events event
  constructor
  case sound =>
    rw [hafter]
    exact step_sound hjose h.sound event
  case handlers =>
    intro held hheld
    rw [hafter] at hheld
    rcases step_handlers hheld with hold | ⟨now, rfl, hanswer⟩
    · exact ⟨(h.handlers held hold).1.concat event, (h.handlers held hold).2.concat event⟩
    · obtain ⟨haccepted, hadmin⟩ := h.sound.answer_ok hcedar hanswer
      exact ⟨⟨events, held.kind, now, [], rfl, haccepted, hadmin⟩, (h.genuine hjose hfair haccepted).concat _⟩
  case issued =>
    intro token opener hissued
    obtain ⟨more, hmore, hnew⟩ := step_issued cedar jose node (run cedar jose node start events) event
    have hmem := hissued
    rw [hafter, hmore] at hmem
    rcases List.mem_append.mp hmem with hold | hmem
    · exact (h.issued token opener hold).concat event
    · rcases hnew token opener hmem with ⟨rfl, hadmin⟩ | ⟨shown, rfl, hheld⟩
      · exact .system hissued hadmin
      · obtain ⟨hshown, hdescends⟩ := h.handlers _ hheld
        exact .created hissued (hshown.concat event) (hdescends.concat event)

end Runs

section Service

variable [DecidableEq Key] {cedar : Cedar.Call → Cedar.Answer} {jose : Jose Key} {node : NodeConfig}
  {now₀ : Nat} {first : Key} {jti₀ : String} {events : List (Event Key)}

/-- The first start leaves a sound service. -/
theorem opening_sound (hjose : jose.Documented) (cedar : Cedar.Call → Cedar.Answer) (node : NodeConfig) (now₀ : Nat) (first : Key)
    (jti₀ : String) : (onInitialize cedar jose node blank now₀ first jti₀).Sound cedar node :=
  onInitialize_sound hjose cedar node ⟨by simp [blank, KeyManager.heldKeys], by simp [blank]⟩ (by simp [blank, KeyManager.Endless])
    now₀ first jti₀

/-- Whatever the events, the service stays sound. -/
theorem run_sound (hjose : jose.Documented) :
    (run cedar jose node (onInitialize cedar jose node blank now₀ first jti₀) events).Sound cedar node :=
  Runs.run_invariant (I := fun service : AuthService Key => service.Sound cedar node)
    (fun _ event h => step_sound hjose h event) (opening_sound hjose cedar node now₀ first jti₀) events

/-- The service is governed after any fair events. -/
theorem run_governed (hjose : jose.Documented) (hcedar : Cedar.Conforms cedar)
    (hfair : Runs.EachStep (step cedar jose node) (fun service event => event.Fair service)
      (onInitialize cedar jose node blank now₀ first jti₀) events) :
    Governed cedar jose node (onInitialize cedar jose node blank now₀ first jti₀) events := by
  induction events using List.reverseRecOn with
  | nil =>
    refine ⟨opening_sound hjose cedar node now₀ first jti₀, ?_, fun token opener hissued => ?_⟩
    · rw [run, Runs.run_nil, onInitialize_handlers]
      simp
    · obtain ⟨more, hmore, hnew⟩ := step_issued cedar jose node blank (.restart now₀ first jti₀)
      have hmem := hissued
      rw [run, Runs.run_nil, ← step, hmore] at hmem
      rcases hnew token opener (by simpa [blank] using hmem) with ⟨rfl, hadmin⟩ | ⟨shown, rfl, hheld⟩
      · exact .system hissued hadmin
      · simp [blank] at hheld
  | append_singleton events event ih =>
    obtain ⟨hearly, hlast⟩ := (Runs.eachStep_append _).mp hfair
    exact (ih hearly).step hjose hcedar hlast.1

/-- After any history of restarts, rotations, revocations and calls, whoever holds handlers has
    shown a token of an administrator for them, and every token that is accepted goes back to a
    system token through administrators who created the next one. -/
theorem accepted_descends (hjose : jose.Documented) (hcedar : Cedar.Conforms cedar)
    (hfair : Runs.EachStep (step cedar jose node) (fun service event => event.Fair service)
      (onInitialize cedar jose node blank now₀ first jti₀) events) :
    (∀ held ∈ (run cedar jose node (onInitialize cedar jose node blank now₀ first jti₀) events).handlers,
      Shown cedar jose node (onInitialize cedar jose node blank now₀ first jti₀) events held.token) ∧
    ∀ token audience now payload,
      (run cedar jose node (onInitialize cedar jose node blank now₀ first jti₀) events).Genuine token →
      (run cedar jose node (onInitialize cedar jose node blank now₀ first jti₀)
        events).rpcServer.tokenFactory.verify jose token audience now = .ok payload →
      payload = token.payload ∧
        Descends cedar jose node (onInitialize cedar jose node blank now₀ first jti₀) events token := by
  have hgoverned := run_governed hjose hcedar hfair
  refine ⟨fun held hheld => (hgoverned.handlers held hheld).1, fun token audience now payload hgenuine haccepted => ?_⟩
  exact ⟨(verify_ok haccepted).1, hgoverned.genuine hjose hgenuine haccepted⟩

/-- A service whose first administrator has created a second one, and was revoked by then. -/
def books : NodeConfig where
  name := "node-a"
  domains := ["books.local"]

def booksStart : AuthService Nat := onInitialize Cedar.isAuthorized numberedKeys books blank 0 1 "token-0"

def systemToken : Jwt Nat where
  signer := 1
  kid := some "1"
  exp := 31536000
  payload :=
    { jti := some "token-0", sub := "bootstrap", principal := some "CATALYST::ADMIN",
      entity := some
        { id := "system", name := "System Admin", type := .service, nodeId := some "node-a", trustedNodes := some [],
          trustedDomains := some ["books.local"] } }

def annaToken : Jwt Nat where
  signer := 1
  kid := some "1"
  exp := 3602
  payload :=
    { jti := some "token-1", sub := "anna", principal := some "CATALYST::ADMIN",
      entity := some { id := "user-1", name := "anna", type := .user, nodeId := some "node-a" } }

def annaEvents : List (Event Nat) :=
  [.ask .tokens systemToken 1000,
    .create 0 2000 "token-1"
      { subject := "anna", entity := { id := "user-1", name := "anna", type := .user }, principal := some "CATALYST::ADMIN",
        expiresIn := some "1h" },
    .ask .certs annaToken 3000, .revoke 0 { jti := some "token-0" }, .rotate 1 4000 4000 {} 2]

theorem annaEvents_fair : Runs.EachStep (step Cedar.isAuthorized numberedKeys books) (fun service event => event.Fair service)
    booksStart annaEvents :=
  ⟨fun _ => ⟨none, by decide +kernel⟩, trivial, fun _ => ⟨some systemToken, by decide +kernel⟩, trivial, trivial, trivial⟩

theorem accepted_descends_anna : Descends Cedar.isAuthorized numberedKeys books booksStart annaEvents annaToken :=
  ((accepted_descends numberedKeys_documented Cedar.conforms_isAuthorized annaEvents_fair).2 annaToken none 5000 annaToken.payload
    (fun _ => ⟨some systemToken, by decide +kernel⟩) (by decide +kernel)).2

/-- Whatever has been revoked or rotated, a restart that can log the expiries in the store hands
    out a token that opens both kinds of handlers until it expires. -/
theorem restart_admits (hjose : jose.Documented) (hcedar : Cedar.Conforms cedar) (now : Nat) (fresh : Key)
    (hloadable : ∀ jwk ∈ (run cedar jose node (onInitialize cedar jose node blank now₀ first jti₀)
      events).rpcServer.tokenFactory.keyManager.store.getD [], KeyManager.Loadable jwk.exp) {jti : String}
    (hjti : jti ≠ "") (hnew : ∀ row ∈ (run cedar jose node (onInitialize cedar jose node blank now₀ first jti₀)
      events).rpcServer.tokenFactory.tokens, row.jti ≠ jti) :
    ∃ token, (token, none) ∈ (run cedar jose node (onInitialize cedar jose node blank now₀ first jti₀)
        (events ++ [.restart now fresh jti])).issued ∧
      ∀ kind later, later / 1000 < now / 1000 + 365 * 24 * 60 * 60 →
        (run cedar jose node (onInitialize cedar jose node blank now₀ first jti₀)
          (events ++ [.restart now fresh jti] ++ [.ask kind token later])).handlers = [⟨kind, token⟩] := by
  have hsound := @run_sound Key _ cedar jose node now₀ first jti₀ events hjose
  obtain ⟨opened, current, hopened, hcurrent⟩ := hsound.endless.opens hjose hloadable now fresh
  have hagain := onInitialize_sound hjose cedar node hsound.within hsound.endless now fresh jti
  obtain ⟨token, hissued, hserving, hadmin, hadmitted, haccepted⟩ :=
    onInitialize_started hjose cedar node hopened hcurrent hjti hnew
  simp only [run_concat, step_restart]
  refine ⟨token, by simp [hissued], fun kind later hlater => ?_⟩
  rw [step_ask hserving hagain.policyService (haccepted later hlater) hadmitted (hagain.administers_iff.mpr hadmin) hcedar,
    onInitialize_handlers]
  rfl

/-- Anna's rotation grants the default grace period. -/
theorem annaEvents_loadable : ∀ jwk ∈ (run Cedar.isAuthorized numberedKeys books booksStart
    annaEvents).rpcServer.tokenFactory.keyManager.store.getD [], KeyManager.Loadable jwk.exp := by
  unfold KeyManager.Loadable
  decide +kernel

theorem restart_admits_books :
    ∃ token, (token, none) ∈
        (run Cedar.isAuthorized numberedKeys books booksStart (annaEvents ++ [.restart 5000 3 "token-2"])).issued ∧
      ∀ kind later, later / 1000 < 31536005 →
        (run Cedar.isAuthorized numberedKeys books booksStart
          (annaEvents ++ [.restart 5000 3 "token-2"] ++ [.ask kind token later])).handlers = [⟨kind, token⟩] :=
  restart_admits numberedKeys_documented Cedar.conforms_isAuthorized 5000 3 annaEvents_loadable (by decide)
    (by decide +kernel)

end Service

end AuthService

end CatalystRouter
