import CatalystRouter.Orchestrator.Bus

namespace CatalystRouter

/-- The two outside services a session depends on. `decodeSub` is `decodeJwt`
    read at its `sub` claim; an error carries the exception's text. -/
structure TokenServices where
  validateToken : String → String → Except String Unit
  decodeSub : String → Except String (Option String)

def extractPeerIdentity (services : TokenServices) (token : String) : Except String String :=
  match services.decodeSub token with
  | .ok (some sub) => if sub.length = 0 then .error "JWT missing sub claim" else .ok sub
  | .ok none => .error "JWT missing sub claim"
  | .error err => .error ("Failed to decode peer JWT: " ++ err)

/-- An `IBGPClient`: its four methods close over the authenticated identity. -/
structure IBGPClient where
  peerIdentity : String

def createIBGPClient (services : TokenServices) (token : String) : Except String IBGPClient := do
  services.validateToken token "IBGP_CONNECT"
  let peerIdentity ← extractPeerIdentity services token
  return ⟨peerIdentity⟩

/-- A call of one of the four methods, with its arguments. -/
inductive IBGPCall where
  | openCall (peerInfo : PeerInfo) (holdTime : Option Int)
  | closeCall (peerInfo : PeerInfo) (code : Int)
  | updateCall (peerInfo : PeerInfo) (updates : List UpdateItem)
  | keepaliveCall (peerInfo : PeerInfo)
  deriving DecidableEq, Repr

def IBGPCall.peerInfo : IBGPCall → PeerInfo
  | .openCall peerInfo _ => peerInfo
  | .closeCall peerInfo _ => peerInfo
  | .updateCall peerInfo _ => peerInfo
  | .keepaliveCall peerInfo => peerInfo

/-- The action the method dispatches when its checks pass. -/
def IBGPCall.toAction : IBGPCall → Action
  | .openCall peerInfo holdTime => .internalProtocolOpen peerInfo holdTime
  | .closeCall peerInfo code => .internalProtocolClose peerInfo code
  | .updateCall peerInfo updates => .internalProtocolUpdate peerInfo updates
  | .keepaliveCall peerInfo => .internalProtocolKeepalive peerInfo

namespace IBGPClient

def verifyPeerName (self : IBGPClient) (peerInfo : PeerInfo) : Except String Unit :=
  if peerInfo.name ≠ self.peerIdentity then
    .error "Peer identity mismatch: peerInfo.name does not match authenticated identity"
  else .ok ()

/-- The entry loop of `update`; an entry with an empty path passes. -/
def verifyNodePaths (self : IBGPClient) : List UpdateItem → Except String Unit
  | [] => .ok ()
  | entry :: rest =>
    if entry.nodePath.length > 0 ∧ entry.nodePath.head? ≠ some self.peerIdentity then
      .error "Route origin mismatch: nodePath[0] does not match authenticated identity"
    else self.verifyNodePaths rest

/-- The checks a method makes before it dispatches. -/
def verify (self : IBGPClient) (call : IBGPCall) : Except String Unit :=
  match call with
  | .updateCall peerInfo updates => do
    self.verifyPeerName peerInfo
    self.verifyNodePaths updates
  | call => self.verifyPeerName call.peerInfo

/-- One method call as a queue slot of the bus. A refused call never reaches
    the bus. -/
def call (self : IBGPClient) (config : BusConfig) (bus : Bus) (now : Int) (call : IBGPCall) :
    Bus.DispatchResult :=
  match self.verify call with
  | .ok () => Bus.dispatch config bus now call.toAction
  | .error error => { bus, outcome := .error error }

/-- What passing the checks guarantees about a call's arguments. -/
structure Verified (client : IBGPClient) (call : IBGPCall) : Prop where
  peerName : call.peerInfo.name = client.peerIdentity
  firstHop : ∀ peerInfo updates, call = .updateCall peerInfo updates →
    ∀ entry ∈ updates, entry.nodePath = [] ∨ entry.nodePath.head? = some client.peerIdentity

theorem verifyPeerName_ok_iff {self : IBGPClient} {peerInfo : PeerInfo} :
    self.verifyPeerName peerInfo = .ok () ↔ peerInfo.name = self.peerIdentity := by
  simp [verifyPeerName]

theorem verifyNodePaths_ok_iff {self : IBGPClient} {updates : List UpdateItem} :
    self.verifyNodePaths updates = .ok () ↔
      ∀ entry ∈ updates, entry.nodePath = [] ∨ entry.nodePath.head? = some self.peerIdentity := by
  induction updates with
  | nil => simp [verifyNodePaths]
  | cons entry rest ih =>
    rw [verifyNodePaths, List.forall_mem_cons]
    by_cases hbad : entry.nodePath.length > 0 ∧ entry.nodePath.head? ≠ some self.peerIdentity
    · rw [if_pos hbad]
      have hne : entry.nodePath ≠ [] := List.ne_nil_of_length_pos hbad.1
      simp [hne, hbad.2]
    · rw [if_neg hbad, ih]
      have hgood : entry.nodePath = [] ∨ entry.nodePath.head? = some self.peerIdentity := by
        obtain h | h := not_and_or.mp hbad
        · exact .inl (List.length_eq_zero_iff.mp (by omega))
        · exact .inr (not_not.mp h)
      simp [hgood]

theorem verify_ok_iff {self : IBGPClient} {call : IBGPCall} :
    self.verify call = .ok () ↔ self.Verified call := by
  cases call with
  | updateCall peerInfo updates =>
    have hbind : self.verify (.updateCall peerInfo updates) = .ok () ↔
        self.verifyPeerName peerInfo = .ok () ∧ self.verifyNodePaths updates = .ok () := by
      simp only [verify]
      cases self.verifyPeerName peerInfo <;> simp [bind, Except.bind]
    rw [hbind, verifyPeerName_ok_iff, verifyNodePaths_ok_iff]
    constructor
    · rintro ⟨hname, hpaths⟩
      refine ⟨hname, fun _ _ h => ?_⟩
      cases h
      exact hpaths
    · exact fun h => ⟨h.peerName, h.firstHop _ _ rfl⟩
  | openCall | closeCall | keepaliveCall =>
    simp only [verify, verifyPeerName_ok_iff]
    exact ⟨fun h => ⟨h, fun _ _ hcall => by cases hcall⟩, fun h => h.peerName⟩

/-- A call either is refused and leaves the bus alone, or is verified and
    dispatched. -/
theorem call_cases (self : IBGPClient) (config : BusConfig) (bus : Bus) (now : Int) (call : IBGPCall) :
    (¬ self.Verified call ∧ ∃ error, self.call config bus now call = { bus, outcome := .error error }) ∨
    (self.Verified call ∧ self.call config bus now call = Bus.dispatch config bus now call.toAction) := by
  unfold IBGPClient.call
  cases hverify : self.verify call with
  | ok => exact .inr ⟨verify_ok_iff.mp hverify, rfl⟩
  | error error =>
    refine .inl ⟨fun h => ?_, error, rfl⟩
    rw [verify_ok_iff.mpr h] at hverify
    cases hverify

end IBGPClient

/-- A session's identity is its token's `sub`. -/
theorem createIBGPClient_identity {services : TokenServices} {token sub : String} {client : IBGPClient}
    (hsub : services.decodeSub token = .ok (some sub))
    (hclient : createIBGPClient services token = .ok client) : client.peerIdentity = sub := by
  unfold createIBGPClient extractPeerIdentity at hclient
  rw [hsub] at hclient
  cases hvalid : services.validateToken token "IBGP_CONNECT" with
  | error err => simp [hvalid, bind, Except.bind] at hclient
  | ok =>
    simp only [hvalid, bind, Except.bind] at hclient
    split at hclient
    · cases hclient
    · rename_i heq
      split at heq
      · cases heq
      · cases heq
        cases hclient
        rfl

end CatalystRouter
