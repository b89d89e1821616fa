import CatalystRouter.Authorization.KeyRecovery
import CatalystRouter.Authorization.TokenFactory

namespace CatalystRouter

namespace KeyManager

variable {Key : Type} {jose : Jose Key} {manager : KeyManager Key} {drawn : List Key} {jwks : List (StoredKey Key)}

/-- The key pairs that the manager verifies with. -/
def keys (manager : KeyManager Key) : List Key := manager.heldKeys.map (·.key)

/-- An immediate rotation drops the keys that were held. -/
def Event.drops : Event Key → Bool
  | .rotate _ _ options _ => options.immediate
  | _ => false

section Keys

variable [DecidableEq Key]

/-- A restart that can read the store gives the keys again. -/
theorem Ready.reopen_keys (hjose : jose.Documented) (h : Ready jose drawn manager jwks) {now : Nat} {fresh : Key}
    (hcompletes : manager.Completes (.restart now fresh)) (key : Key) :
    key ∈ (manager.shutdown.initializeKeys jose now fresh).1.keys ↔ key ∈ manager.keys := by
  obtain ⟨opened, hopened, -, hloaded⟩ := h.reopen hjose (h.loadable hcompletes) now fresh
  rw [hopened]
  rcases h.synced with rfl | hsame
  · obtain ⟨current, hcurrent⟩ := Option.isSome_iff_exists.mp h.current
    have hexpiries : ∀ key ∈ manager.previousKeys, truthyTime (writtenTime key.expiresAt) = true := by
      intro key hkey
      obtain ⟨expiry, hwritten, hreadable⟩ := readable_saved hcurrent h.store hcompletes key hkey
      rw [hwritten]
      exact hreadable.1
    constructor
    · intro hmem
      obtain ⟨held, hheld, rfl⟩ := List.mem_map.mp hmem
      obtain ⟨jwk, hjwk, hname, -⟩ := hloaded.stored hheld
      have hlisted := List.mem_map_of_mem (f := fun jwk => (jwk.key, jwk.kid)) hjwk
      rw [keySet_keys] at hlisted
      obtain ⟨old, hold, hview⟩ := List.mem_map.mp hlisted
      exact List.mem_map.mpr ⟨old, hold, (Prod.mk.inj hview).1.trans hname⟩
    · intro hmem
      obtain ⟨old, hold, rfl⟩ := List.mem_map.mp hmem
      obtain ⟨held, hheld, hname, -⟩ := held_again hloaded hcurrent hexpiries hold
      exact List.mem_map.mpr ⟨held, hheld, hname⟩
  · have hviews := congrArg (List.map Prod.fst) (hloaded.heldKeys_eq.trans hsame.heldKeys_eq.symm)
    simp only [List.map_map, Function.comp_def] at hviews
    rw [keys, hviews, keys]

/-- After a rotation the new key is held, and those before unless it was immediate. -/
theorem rotate_keys (hjose : jose.Documented) {oldKey : ManagedKey Key} (hold : manager.currentKey = some oldKey)
    (createdAt now : Nat) {options : RotateOptions} (hexportable : manager.Exportable options) (fresh key : Key) :
    key ∈ (manager.rotate jose createdAt now options fresh).1.keys ↔
      key = fresh ∨ options.immediate = false ∧ key ∈ manager.keys := by
  rw [rotate_of_current hjose hold createdAt now hexportable]
  cases options.immediate with
  | true => simp [keys, saved, heldKeys, newKey]
  | false => simp [keys, saved, heldKeys, newKey, hold, or_comm]

/-- The keys drawn before are those that are still held, unless the event drops them. -/
theorem Ready.step_keys (hjose : jose.Documented) (h : Ready jose drawn manager jwks) {event : Event Key}
    (hcompletes : manager.Completes event) (hfresh : event.fresh ∉ drawn) {key : Key} (hkey : key ∈ drawn) :
    key ∈ (manager.step jose event).keys ↔ event.drops = false ∧ key ∈ manager.keys := by
  cases event with
  | init now fresh => simp [KeyManager.step, initializeKeys, h.initialized, Event.drops]
  | restart now fresh => simpa [KeyManager.step, Event.drops] using h.reopen_keys hjose hcompletes key
  | rotate createdAt now options fresh =>
    obtain ⟨oldKey, hold⟩ := Option.isSome_iff_exists.mp h.current
    have hother : key ≠ fresh := fun hsame => hfresh (hsame ▸ hkey)
    exact (rotate_keys hjose hold createdAt now (hcompletes h.current) fresh key).trans (by simp [hother, Event.drops])

end Keys

/-- A token is signed with the current key, under its `kid`. -/
theorem sign_ok {now : Nat} {jti : String} {options : MintOptions} {token : Jwt Key}
    (h : manager.sign now jti options = .ok token) :
    ∃ current, manager.currentKey = some current ∧ token.signer = current.key ∧ token.kid = some current.kid ∧
      token.payload.jti = some jti := by
  unfold sign at h
  cases hcurrent : manager.currentKey with
  | none => simp [hcurrent] at h
  | some current =>
    simp only [hcurrent] at h
    obtain rfl := Except.ok.inj h
    exact ⟨current, rfl, rfl, rfl, rfl⟩

/-- The published keys resolve a `kid` as the manager does. -/
theorem find?_getJwks (kid : Option String) :
    (manager.getJwks.find? fun jwk => some jwk.kid = kid).map (·.key) = manager.resolveKey kid := by
  unfold getJwks resolveKey
  cases manager.currentKey with
  | none => simp [List.find?_map, Function.comp_def]
  | some current =>
    simp only [Option.toList_some, List.map_cons, List.map_nil, List.singleton_append, List.find?_cons]
    by_cases hkid : some current.kid = kid
    · simp [hkid]
    · simp [hkid, List.find?_map, Function.comp_def]

end KeyManager

namespace JWTTokenFactory

open KeyManager (numberedKeys numberedKeys_documented)

variable {Key : Type} {jose : Jose Key}

/-- What a call of `mint` does. -/
inductive MintShape (factory : JWTTokenFactory Key) (now : Nat) (jti : String) (options : MintOptions) :
    JWTTokenFactory Key × Except String (Jwt Key) → Prop where
  | failed (error : String) : MintShape factory now jti options (factory, .error error)
  | minted (current : ManagedKey Key) (token : Jwt Key) (hcurrent : factory.keyManager.currentKey = some current)
      (hsigner : token.signer = current.key) (hkid : token.kid = some current.kid) (hjti : token.payload.jti = some jti)
      (hsome : jti ≠ "") (hnew : ∀ row ∈ factory.tokens, row.jti ≠ jti) :
      MintShape factory now jti options
        ({ factory with tokens := factory.tokens ++
            [(minted { options with entity := factory.injectNodeId options.entity } jti token.exp).toRow] }, .ok token)

/-- `mint` does one of the two. -/
theorem mint_shape (factory : JWTTokenFactory Key) (now : Nat) (jti : String) (options : MintOptions) :
    MintShape factory now jti options (factory.mint now jti options) := by
  unfold mint
  dsimp only
  cases hsigned : factory.keyManager.sign now jti { options with entity := factory.injectNodeId options.entity } with
  | error error => exact .failed error
  | ok token =>
    obtain ⟨current, hcurrent, hsigner, hkid, hjti⟩ := KeyManager.sign_ok hsigned
    dsimp only
    split
    · exact .failed _
    · rename_i hclaims
      obtain ⟨hsome, -⟩ := not_or.mp hclaims
      unfold SqliteTokenStore.recordToken
      split
      · rename_i hrecorded
        split at hrecorded
        · exact .failed _
        · cases hrecorded
      · rename_i hrecorded
        split at hrecorded
        · cases hrecorded
        · rename_i hnew
          obtain rfl := Except.ok.inj hrecorded
          refine .minted current token hcurrent hsigner hkid hjti hsome fun row hrow hsame => hnew ?_
          exact List.any_eq_true.mpr ⟨row, hrow, by simpa [JWTTokenFactory.minted] using hsame⟩

/-- The factory after a list of events. -/
abbrev run (jose : Jose Key) (factory : JWTTokenFactory Key) (events : List (Event Key)) : JWTTokenFactory Key :=
  Runs.run (step jose) factory events

/-- The key pairs that are drawn for an event. -/
def Event.drawn : Event Key → List Key
  | .keys event => [event.fresh]
  | _ => []

def Event.drops : Event Key → Bool
  | .keys event => event.drops
  | _ => false

/-- A revocation covers a token by its `jti`, or by a SAN whose pattern `LIKE` accepts and finds in its list. -/
def Event.revokes (jti : String) (sans : List String) : Event Key → Bool
  | .revoke options =>
    decide (orUndefined options.jti = some jti) ||
      (orUndefined options.san).any fun san => SqliteTokenStore.selectsSan (stringifySans sans) san
  | _ => false

def Event.mints (factory : JWTTokenFactory Key) (token : Jwt Key) (sans : List String) (event : Event Key) : Prop :=
  ∃ now jti options, event = .mint now jti options ∧ (factory.mint now jti options).2 = .ok token ∧
    sans = options.sans.getD []

section History

variable (jose) (start : JWTTokenFactory Key)

/-- The token was minted for the SANs, and the events `after` came after it. -/
def MintedBefore (events : List (Event Key)) (token : Jwt Key) (sans : List String) (after : List (Event Key)) : Prop :=
  ∃ before event, events = before ++ event :: after ∧ event.mints (run jose start before) token sans

def Minted (events : List (Event Key)) (token : Jwt Key) : Prop :=
  ∃ sans after, MintedBefore jose start events token sans after

/-- Since the token was minted, nothing has revoked it or dropped its key. -/
def Outstanding (events : List (Event Key)) (token : Jwt Key) : Prop :=
  ∃ sans after, MintedBefore jose start events token sans after ∧
    ∀ event ∈ after, event.drops = false ∧ ∀ jti, token.payload.jti = some jti → event.revokes jti sans = false

/-- The row of a token that was minted for the SANs. -/
structure RowOf (token : Jwt Key) (sans : List String) (row : TokenRow) : Prop where
  jti : token.payload.jti = some row.jti
  named : row.jti ≠ ""
  sans : row.subjectAlternativeNames = stringifySans sans
  expiry : row.expiresAt = token.exp

/-- The rows against the history: every token has one, which is not revoked as long as nothing
    has come that revokes the token. -/
structure Booked (events : List (Event Key)) : Prop where
  jtis : ((run jose start events).tokens.map (·.jti)).Nodup
  minted : ∀ token sans after, MintedBefore jose start events token sans after →
    ∃ row ∈ (run jose start events).tokens, RowOf token sans row ∧
      (row.isRevoked = false ↔ ∀ event ∈ after, event.revokes row.jti sans = false)

/-- The keys against the history: that of a token is held as long as nothing has come that
    drops it. -/
structure Keyed (drawn : List Key) (events : List (Event Key)) : Prop where
  ready : ∃ jwks, KeyManager.Ready jose drawn (run jose start events).keyManager jwks
  minted : ∀ token sans after, MintedBefore jose start events token sans after →
    token.signer ∈ drawn ∧ token.kid = some (jose.calculateJwkThumbprint token.signer) ∧
      (token.signer ∈ (run jose start events).keyManager.keys ↔ ∀ event ∈ after, event.drops = false)

end History

variable {start : JWTTokenFactory Key} {token : Jwt Key} {sans : List String}

/-- A token was minted by the last event, or before it. -/
theorem mintedBefore_concat {events after : List (Event Key)} {event : Event Key} :
    MintedBefore jose start (events ++ [event]) token sans after ↔
      (after = [] ∧ event.mints (run jose start events) token sans) ∨
        ∃ rest, after = rest ++ [event] ∧ MintedBefore jose start events token sans rest := by
  constructor
  · rintro ⟨before, first, hsplit, hmints⟩
    rcases Lists.concat_eq_append_cons.mp hsplit with ⟨rfl, rfl, rfl⟩ | ⟨rest, rfl, hevents⟩
    · exact .inl ⟨rfl, hmints⟩
    · exact .inr ⟨rest, rfl, before, first, hevents, hmints⟩
  · rintro (⟨rfl, hmints⟩ | ⟨rest, rfl, before, first, rfl, hmints⟩)
    · exact ⟨events, event, rfl, hmints⟩
    · exact ⟨before, first, by simp, hmints⟩

/-- A revocation marks the rows that it covers. -/
theorem revoke_tokens (factory : JWTTokenFactory Key) (options : RevokeOptions) :
    (factory.revoke options).1.tokens = factory.tokens.map fun row =>
      if orUndefined options.jti = some row.jti ∨
          ∃ san, orUndefined options.san = some san ∧ SqliteTokenStore.selectsSan row.subjectAlternativeNames san = true then
        { row with isRevoked := true }
      else row := by
  have hstages : (factory.revoke options).1.tokens = (factory.revokeByJti options).map fun row =>
      if ∃ san, orUndefined options.san = some san ∧ SqliteTokenStore.selectsSan row.subjectAlternativeNames san = true then
        { row with isRevoked := true }
      else row := by
    unfold revoke
    cases orUndefined options.san with
    | none => simp
    | some san =>
      have hrows := SqliteTokenStore.revokeBySan_rows (factory.revokeByJti options) san
      cases hrevoked : SqliteTokenStore.revokeBySan (factory.revokeByJti options) san with
      | ok tokens => simpa [hrevoked, Except.toOption] using hrows
      | error error => simpa [hrevoked, Except.toOption] using hrows
  rw [hstages, revokeByJti]
  cases orUndefined options.jti with
  | none => simp
  | some jti =>
    have hnamed (row : TokenRow) : row.jti = jti ↔ some jti = some row.jti := by simp [eq_comm (a := jti)]
    simp only [SqliteTokenStore.revokeToken, List.map_map, hnamed]
    refine List.map_congr_left fun row _ => ?_
    by_cases hjti : jti = row.jti <;> simp [hjti]

/-- A revocation does not touch the keys. -/
@[simp] theorem revoke_keyManager (factory : JWTTokenFactory Key) (options : RevokeOptions) :
    (factory.revoke options).1.keyManager = factory.keyManager := by
  unfold revoke
  dsimp only
  split
  · rfl
  · split <;> rfl

/-- A revocation keeps the rows and their `jti`s. -/
theorem revoke_jtis (factory : JWTTokenFactory Key) (options : RevokeOptions) :
    (factory.revoke options).1.tokens.map (·.jti) = factory.tokens.map (·.jti) := by
  rw [revoke_tokens, List.map_map]
  refine List.map_congr_left fun row _ => ?_
  dsimp only [Function.comp_apply]
  split <;> rfl

/-- A revoked `jti` stays revoked. -/
theorem step_isRevoked (factory : JWTTokenFactory Key) (event : Event Key) {jti : String}
    (h : SqliteTokenStore.isRevoked factory.tokens jti = true) :
    SqliteTokenStore.isRevoked (step jose factory event).tokens jti = true := by
  unfold SqliteTokenStore.isRevoked at h
  cases hfound : factory.tokens.find? fun row => row.jti = jti with
  | none => simp [hfound] at h
  | some row =>
    rw [hfound] at h
    dsimp only at h
    cases event with
    | keys event => simp only [step, SqliteTokenStore.isRevoked, hfound, h]
    | mint now jti' options =>
      simp only [step]
      have hshape := mint_shape factory now jti' options
      generalize factory.mint now jti' options = result at hshape ⊢
      cases hshape with
      | failed => simp only [SqliteTokenStore.isRevoked, hfound, h]
      | minted => simp only [SqliteTokenStore.isRevoked, List.find?_append, hfound, Option.some_or, h]
    | revoke options =>
      have hname : ((fun row : TokenRow => decide (row.jti = jti)) ∘ fun row : TokenRow =>
          if orUndefined options.jti = some row.jti ∨
            ∃ san, orUndefined options.san = some san ∧ SqliteTokenStore.selectsSan row.subjectAlternativeNames san = true then
          { row with isRevoked := true } else row) = fun row => decide (row.jti = jti) := by
        funext row
        dsimp only [Function.comp_apply]
        split <;> rfl
      rw [step, SqliteTokenStore.isRevoked, revoke_tokens, List.find?_map, hname, hfound, Option.map_some]
      dsimp only
      split
      · rfl
      · exact h

section Rows

variable {events : List (Event Key)}

/-- An event that mints nothing for this token leaves its history one event longer. -/
theorem MintedBefore.earlier {event : Event Key} {after : List (Event Key)}
    (h : MintedBefore jose start (events ++ [event]) token sans after)
    (hnot : ¬ event.mints (run jose start events) token sans) :
    ∃ rest, after = rest ++ [event] ∧ MintedBefore jose start events token sans rest :=
  (mintedBefore_concat.mp h).resolve_left fun ⟨_, hmints⟩ => hnot hmints

/-- An event of the keys leaves the rows booked. -/
theorem booked_keys (h : Booked jose start events) (event : KeyManager.Event Key) :
    Booked jose start (events ++ [.keys event]) := by
  have hrun : (run jose start (events ++ [.keys event])).tokens = (run jose start events).tokens := by
    rw [run, Runs.run_concat, step]
  refine ⟨by rw [hrun]; exact h.jtis, fun token sans after hminted => ?_⟩
  obtain ⟨rest, rfl, hbefore⟩ := hminted.earlier (by rintro ⟨now, jti, options, hevent, -⟩; cases hevent)
  obtain ⟨row, hrow, hof, hclean⟩ := h.minted token sans rest hbefore
  refine ⟨row, by rw [hrun]; exact hrow, hof, ?_⟩
  rw [hclean, List.forall_mem_append, List.forall_mem_singleton]
  exact (and_iff_left rfl).symm

/-- The token that `mint` returns is the one that it mints. -/
theorem mints_mint_iff {factory : JWTTokenFactory Key} {now : Nat} {jti : String} {options : MintOptions} :
    (Event.mint now jti options).mints factory token sans ↔
      (factory.mint now jti options).2 = .ok token ∧ sans = options.sans.getD [] := by
  constructor
  · rintro ⟨now', jti', options', hevent, hresult, hsans⟩
    cases hevent
    exact ⟨hresult, hsans⟩
  · exact fun ⟨hresult, hsans⟩ => ⟨now, jti, options, rfl, hresult, hsans⟩

/-- `mint` books a row that is not revoked. -/
theorem booked_mint (h : Booked jose start events) (now : Nat) (jti : String) (options : MintOptions) :
    Booked jose start (events ++ [.mint now jti options]) := by
  have hrun : run jose start (events ++ [.mint now jti options]) = ((run jose start events).mint now jti options).1 :=
    Runs.run_concat _ start events _
  have hshape := mint_shape (run jose start events) now jti options
  have hmints (token : Jwt Key) (sans : List String) :=
    @mints_mint_iff Key token sans (run jose start events) now jti options
  generalize (run jose start events).mint now jti options = result at hrun hshape hmints
  cases hshape with
  | failed error =>
    refine ⟨by rw [hrun]; exact h.jtis, fun token sans after hminted => ?_⟩
    obtain ⟨rest, rfl, hbefore⟩ := hminted.earlier fun hnow => by simpa using ((hmints token sans).mp hnow).1
    obtain ⟨row, hrow, hof, hclean⟩ := h.minted token sans rest hbefore
    refine ⟨row, by rw [hrun]; exact hrow, hof, ?_⟩
    rw [hclean, List.forall_mem_append, List.forall_mem_singleton]
    exact (and_iff_left rfl).symm
  | minted current new hcurrent hsigner hkid hjti hsome hnew =>
    refine ⟨?_, fun token sans after hminted => ?_⟩
    · rw [hrun, List.map_append, List.nodup_append]
      refine ⟨h.jtis, by simp, fun a ha b hb heq => ?_⟩
      obtain ⟨row, hrow, rfl⟩ := List.mem_map.mp ha
      obtain rfl : b = jti := by simpa [TokenRecord.toRow, JWTTokenFactory.minted] using hb
      exact hnew row hrow heq
    · rcases mintedBefore_concat.mp hminted with ⟨rfl, hnow⟩ | ⟨rest, rfl, hbefore⟩
      · obtain ⟨hresult, rfl⟩ := (hmints token sans).mp hnow
        obtain rfl : new = token := Except.ok.inj hresult
        refine ⟨_, by rw [hrun]; exact List.mem_append_right _ List.mem_cons_self, ⟨hjti, hsome, rfl, rfl⟩, ?_⟩
        simp [TokenRecord.toRow, JWTTokenFactory.minted]
      · obtain ⟨row, hrow, hof, hclean⟩ := h.minted token sans rest hbefore
        refine ⟨row, by rw [hrun]; exact List.mem_append_left _ hrow, hof, ?_⟩
        rw [hclean, List.forall_mem_append, List.forall_mem_singleton]
        exact (and_iff_left rfl).symm

/-- A revocation marks the rows of the tokens that it covers, and only these. -/
theorem booked_revoke (h : Booked jose start events) (options : RevokeOptions) :
    Booked jose start (events ++ [.revoke options]) := by
  have hrun : run jose start (events ++ [.revoke options]) = ((run jose start events).revoke options).1 :=
    Runs.run_concat _ start events _
  have htokens := revoke_tokens (run jose start events) options
  refine ⟨by rw [hrun, revoke_jtis]; exact h.jtis, fun token sans after hminted => ?_⟩
  obtain ⟨rest, rfl, hbefore⟩ := hminted.earlier (by rintro ⟨now, jti, options', hevent, -⟩; cases hevent)
  obtain ⟨row, hrow, hof, hclean⟩ := h.minted token sans rest hbefore
  have hcovers : (Event.revoke options : Event Key).revokes row.jti sans = true ↔
      orUndefined options.jti = some row.jti ∨
        ∃ san, orUndefined options.san = some san ∧ SqliteTokenStore.selectsSan row.subjectAlternativeNames san = true := by
    rw [hof.sans]
    simp [Event.revokes, Option.any_eq_true]
  refine ⟨_, by rw [hrun, htokens]; exact List.mem_map_of_mem hrow, ?_, ?_⟩
  · split
    · exact ⟨hof.jti, hof.named, hof.sans, hof.expiry⟩
    · exact hof
  · rw [List.forall_mem_append]
    split
    · rename_i hcovered
      refine iff_of_false (by simp) fun hall => ?_
      have hnot := hall.2 _ List.mem_cons_self
      simp [hcovers.mpr hcovered] at hnot
    · rename_i hspared
      have hnot : (Event.revoke options : Event Key).revokes row.jti sans = false :=
        Bool.eq_false_iff.mpr fun hcovered => hspared (hcovers.mp hcovered)
      rw [hclean]
      simp [hnot]

/-- The token store of a factory that has started with none, after any events. -/
theorem run_booked (hstart : start.tokens = []) (events : List (Event Key)) : Booked jose start events := by
  induction events using List.reverseRecOn with
  | nil =>
    refine ⟨by simp [hstart], ?_⟩
    rintro token sans after ⟨before, event, hsplit, -⟩
    simp at hsplit
  | append_singleton events event ih =>
    cases event with
    | keys event => exact booked_keys ih event
    | mint now jti options => exact booked_mint ih now jti options
    | revoke options => exact booked_revoke ih options

end Rows

section Keyed

variable {drawn : List Key} {events : List (Event Key)}

/-- An event that runs to its end keeps the keys of the tokens, or drops all that are held. -/
theorem keyed_keys [DecidableEq Key] (hjose : jose.Documented) (h : Keyed jose start drawn events)
    {event : KeyManager.Event Key} (hcompletes : (run jose start events).keyManager.Completes event)
    (hfresh : event.fresh ∉ drawn) : Keyed jose start (drawn ++ [event.fresh]) (events ++ [.keys event]) := by
  obtain ⟨jwks, hready⟩ := h.ready
  obtain ⟨later, hstep⟩ := hready.step hjose hcompletes hfresh
  have hrun : (run jose start (events ++ [.keys event])).keyManager = (run jose start events).keyManager.step jose event := by
    rw [run, Runs.run_concat, step]
  refine ⟨⟨later, hrun ▸ hstep⟩, fun token sans after hminted => ?_⟩
  obtain ⟨rest, rfl, hbefore⟩ := hminted.earlier (by rintro ⟨now, jti, options, hevent, -⟩; cases hevent)
  obtain ⟨hsigner, hkid, hheld⟩ := h.minted token sans rest hbefore
  refine ⟨List.mem_append_left _ hsigner, hkid, ?_⟩
  rw [hrun, hready.step_keys hjose hcompletes hfresh hsigner, hheld]
  simp only [List.forall_mem_append, List.forall_mem_singleton, Event.drops]
  exact and_comm

/-- An event that leaves the key manager, and mints only with the current key. -/
theorem keyed_same (h : Keyed jose start drawn events) {event : Event Key} (hdrops : event.drops = false)
    (hsame : (run jose start (events ++ [event])).keyManager = (run jose start events).keyManager)
    (hmints : ∀ token sans, event.mints (run jose start events) token sans →
      ∃ current, (run jose start events).keyManager.currentKey = some current ∧ token.signer = current.key ∧
        token.kid = some current.kid) :
    Keyed jose start drawn (events ++ [event]) := by
  obtain ⟨jwks, hready⟩ := h.ready
  refine ⟨⟨jwks, hsame ▸ hready⟩, fun token sans after hminted => ?_⟩
  rw [hsame]
  rcases mintedBefore_concat.mp hminted with ⟨rfl, hnow⟩ | ⟨rest, rfl, hbefore⟩
  · obtain ⟨current, hcurrent, hsigner, hkid⟩ := hmints token sans hnow
    have hheld : current ∈ (run jose start events).keyManager.heldKeys := by simp [KeyManager.heldKeys, hcurrent]
    obtain ⟨hdrawn, hthumb⟩ := hready.held hheld
    refine ⟨hsigner ▸ hdrawn, by rw [hkid, hthumb, hsigner], iff_of_true ?_ (by simp)⟩
    rw [hsigner]
    exact List.mem_map_of_mem (f := fun key => key.key) hheld
  · obtain ⟨hsigner, hkid, hheld⟩ := h.minted token sans rest hbefore
    refine ⟨hsigner, hkid, ?_⟩
    rw [hheld, List.forall_mem_append, List.forall_mem_singleton]
    exact (and_iff_left hdrops).symm

/-- A token is minted with a key that is held. -/
theorem keyed_mint (h : Keyed jose start drawn events) (now : Nat) (jti : String) (options : MintOptions) :
    Keyed jose start drawn (events ++ [.mint now jti options]) := by
  have hrun : (run jose start (events ++ [.mint now jti options])).keyManager =
      ((run jose start events).mint now jti options).1.keyManager := by
    rw [run, Runs.run_concat, step]
  have hshape := mint_shape (run jose start events) now jti options
  have hmints (token : Jwt Key) (sans : List String) :=
    @mints_mint_iff Key token sans (run jose start events) now jti options
  generalize (run jose start events).mint now jti options = result at hrun hshape hmints
  refine keyed_same h rfl ?_ fun token sans hnow => ?_
  · rw [hrun]
    cases hshape <;> rfl
  · have hresult := ((hmints token sans).mp hnow).1
    cases hshape with
    | failed error => cases hresult
    | minted current new hcurrent hsigner hkid =>
      obtain rfl : new = token := Except.ok.inj hresult
      exact ⟨current, hcurrent, hsigner, hkid⟩

/-- A revocation drops no key. -/
theorem keyed_revoke (h : Keyed jose start drawn events) (options : RevokeOptions) :
    Keyed jose start drawn (events ++ [.revoke options]) := by
  refine keyed_same h rfl ?_ (by rintro token sans ⟨now, jti, options', hevent, -⟩; cases hevent)
  rw [run, Runs.run_concat, step, revoke_keyManager]

end Keyed

/-- A factory after `initialize`, on empty stores. -/
def opened (jose : Jose Key) (configured : Option JsNumber) (nodeId : Option String) (now : Nat) (first : Key) :
    JWTTokenFactory Key where
  keyManager := (({ gracePeriodMs := configured } : KeyManager Key).initializeKeys jose now first).1
  nodeId

/-- The rotations and restarts among the events run to their end. -/
def Completes (factory : JWTTokenFactory Key) : Event Key → Prop
  | .keys event => factory.keyManager.Completes event
  | _ => True

def aliceOptions : MintOptions where
  subject := "alice"
  principal := "CATALYST::USER"
  entity := { id := "user-1", name := "alice", type := .user }

/-- Two tokens before and after a rotation; the second one is revoked. -/
def aliceEvents : List (Event Nat) :=
  [.mint 1000 "token-1" aliceOptions, .keys (.rotate 2000 2000 {} 2), .mint 3000 "token-2" aliceOptions,
    .revoke { jti := some "token-2" }, .keys (.restart 4000 3)]

def aliceToken : Jwt Nat where
  signer := 1
  kid := some "1"
  exp := 3601
  payload :=
    { jti := some "token-1", sub := "alice", principal := some "CATALYST::USER",
      entity := some { id := "user-1", name := "alice", type := .user, nodeId := some "node-a" } }

theorem aliceEvents_completes :
    Runs.EachStep (step numberedKeys) Completes (opened numberedKeys none (some "node-a") 0 1) aliceEvents := by
  have hextractable : ∀ key ∈ (opened numberedKeys none (some "node-a") 0 1).keyManager.heldKeys, key.extractable = true := by
    decide
  refine ⟨trivial, fun _ => ⟨fun key hkey => ?_, fun _ key hkey => ?_⟩, trivial, trivial, fun jwk hjwk => ?_, trivial⟩
  · exact hextractable key (List.mem_append_right _ hkey)
  · exact hextractable key (List.mem_append_left _ (Option.mem_toList.mpr hkey))
  · obtain rfl := List.mem_singleton.mp hjwk
    exact ⟨_, rfl, rfl, rfl⟩

theorem aliceToken_minted : Minted numberedKeys (opened numberedKeys none (some "node-a") 0 1) aliceEvents aliceToken :=
  ⟨[], aliceEvents.tail, [], .mint 1000 "token-1" aliceOptions, rfl, 1000, "token-1", aliceOptions, rfl, rfl, rfl⟩

section Lifecycle

variable {configured : Option JsNumber} {nodeId : Option String} {now₀ : Nat} {first : Key} {events : List (Event Key)}

/-- After any events that run to their end, the keys of the tokens are held or dropped as the
    events say. -/
theorem run_keyed [DecidableEq Key] (hjose : jose.Documented)
    (hcompletes : Runs.EachStep (step jose) Completes (opened jose configured nodeId now₀ first) events)
    (hfresh : (first :: events.flatMap Event.drawn).Nodup) :
    Keyed jose (opened jose configured nodeId now₀ first) (first :: events.flatMap Event.drawn) events := by
  induction events using List.reverseRecOn with
  | nil =>
    constructor
    · rw [run, Runs.run_nil, opened, KeyManager.initializeKeys_empty hjose]
      exact ⟨_, KeyManager.ready_saved { gracePeriodMs := configured, initialized := true } [] rfl now₀ List.not_mem_nil
        List.nodup_nil (by simp)⟩
    · rintro token sans after ⟨before, event, hsplit, -⟩
      simp at hsplit
  | append_singleton events event ih =>
    rw [List.flatMap_append, ← List.cons_append, List.nodup_append] at hfresh
    obtain ⟨hearly, hlast, -⟩ := (Runs.eachStep_append _).mp hcompletes
    have hkeyed := ih hearly hfresh.1
    rw [List.flatMap_append, ← List.cons_append]
    cases event with
    | keys event =>
      have hnew : event.fresh ∉ first :: events.flatMap Event.drawn := fun hmem =>
        hfresh.2.2 _ hmem _ (by simp [Event.drawn]) rfl
      simpa [Event.drawn] using keyed_keys hjose hkeyed hlast hnew
    | mint now jti options => simpa [Event.drawn] using keyed_mint hkeyed now jti options
    | revoke options => simpa [Event.drawn] using keyed_revoke hkeyed options

/-- After any events, the keys are among those that were drawn. -/
theorem run_within [DecidableEq Key] (hjose : jose.Documented) :
    (run jose (opened jose configured nodeId now₀ first) events).keyManager.Within
      (· ∈ first :: events.flatMap Event.drawn) := by
  induction events using List.reverseRecOn with
  | nil =>
    have hempty : ({ gracePeriodMs := configured } : KeyManager Key).Within (· ∈ [first]) :=
      ⟨by simp [KeyManager.heldKeys], by simp⟩
    exact hempty.initializeKeys hjose List.mem_cons_self
  | append_singleton events event ih =>
    have hearlier := ih.mono fun key hkey =>
      show key ∈ first :: (events ++ [event]).flatMap Event.drawn by
        rw [List.flatMap_append, ← List.cons_append]
        exact List.mem_append_left _ hkey
    rw [run, Runs.run_concat]
    cases event with
    | keys event => exact hearlier.step hjose event (by simp [Event.drawn])
    | mint now jti options =>
      have hshape := mint_shape (run jose (opened jose configured nodeId now₀ first) events) now jti options
      rw [step]
      generalize JWTTokenFactory.mint _ now jti options = result at hshape ⊢
      cases hshape <;> exact hearlier
    | revoke options => rwa [step, revoke_keyManager]

/-- With distinct `jti`s a row says whether its token is revoked. -/
theorem isRevoked_of_mem {rows : List TokenRow} (hnodup : (rows.map (·.jti)).Nodup) {row : TokenRow} (hrow : row ∈ rows) :
    SqliteTokenStore.isRevoked rows row.jti = row.isRevoked := by
  obtain ⟨found, hfound⟩ : ∃ found, rows.find? (fun other => other.jti = row.jti) = some found :=
    Option.isSome_iff_exists.mp (List.find?_isSome.mpr ⟨row, hrow, by simp⟩)
  have hname : found.jti = row.jti := by simpa using List.find?_some hfound
  rw [SqliteTokenStore.isRevoked, hfound, List.inj_on_of_nodup_map hnodup (List.mem_of_find?_eq_some hfound) hrow hname]

/-- A token with a good signature is one that was minted: nobody else has the private keys. -/
def Authentic (jose : Jose Key) (start : JWTTokenFactory Key) (drawn : List Key) (events : List (Event Key))
    (token : Jwt Key) : Prop :=
  token.signer ∈ drawn → Minted jose start events token

variable [DecidableEq Key]

/-- What is accepted at a time, for an audience. -/
def Current (token : Jwt Key) (audience : Option (List String)) (now : Nat) : Prop :=
  now / 1000 < token.exp ∧ ∀ expected, audience = some expected → ∃ name ∈ token.audience, name ∈ expected

/-- A token is accepted with the key that has signed it, in its time and for its audience. -/
theorem accepted_iff {token : Jwt Key} {key : Key} {audience : Option (List String)} {now : Nat} :
    token.toToken.accepted key audience now = true ↔ token.signer = key ∧ Current token audience now := by
  cases audience <;> simp [Token.accepted, Current, and_assoc]

/-- The key manager verifies with a key that it holds. -/
theorem verified_held (hjose : jose.Documented) {manager : KeyManager Key} {token : Jwt Key}
    {audience : Option (List String)} {now : Nat} (h : manager.verify jose token.toToken audience now = true) :
    ∃ held ∈ manager.heldKeys, held.key = token.signer ∧ Current token audience now := by
  unfold KeyManager.verify at h
  cases hresolved : manager.resolveKey token.kid with
  | none => simp [hresolved] at h
  | some key =>
    obtain ⟨held, hheld, rfl, -⟩ := KeyManager.resolveKey_held hresolved
    simp only [hresolved, hjose.verifies] at h
    obtain ⟨hsigner, hcurrent⟩ := accepted_iff.mp h
    exact ⟨held, hheld, hsigner.symm, hcurrent⟩

/-- After any history of mintings, revocations, rotations and restarts, where these run to
    their end, a token is accepted iff it was minted, nothing has revoked it since, no immediate
    rotation has come since, and it is meant for this audience and time. -/
theorem verify_iff (hjose : jose.Documented)
    (hnames : ((first :: events.flatMap Event.drawn).map jose.calculateJwkThumbprint).Nodup)
    (hcompletes : Runs.EachStep (step jose) Completes (opened jose configured nodeId now₀ first) events) {token : Jwt Key}
    (hauthentic : Authentic jose (opened jose configured nodeId now₀ first)
      (first :: events.flatMap Event.drawn) events token) (audience : Option (List String)) (now : Nat) (payload : Payload) :
    (run jose (opened jose configured nodeId now₀ first) events).verify jose token audience now = .ok payload ↔
      payload = token.payload ∧ Outstanding jose (opened jose configured nodeId now₀ first) events token ∧
        Current token audience now := by
  have hkeyed := run_keyed hjose hcompletes hnames.of_map
  have hbooked : Booked jose (opened jose configured nodeId now₀ first) events := run_booked rfl events
  obtain ⟨jwks, hready⟩ := hkeyed.ready
  unfold verify
  constructor
  · intro haccepted
    split at haccepted
    case isFalse => cases haccepted
    case isTrue hverified =>
      obtain ⟨held, hheld, hname, hcurrent⟩ := verified_held hjose hverified
      obtain ⟨sans, after, hminted⟩ := hauthentic (hname ▸ (hready.held hheld).1)
      obtain ⟨row, hrow, hof, hrevoked⟩ := hbooked.minted token sans after hminted
      obtain ⟨-, -, hdropped⟩ := hkeyed.minted token sans after hminted
      have hjti : orUndefined token.payload.jti = some row.jti := by simp [orUndefined, hof.jti, hof.named]
      rw [hjti] at haccepted
      dsimp only at haccepted
      rw [isRevoked_of_mem hbooked.jtis hrow] at haccepted
      split at haccepted
      case isTrue => cases haccepted
      case isFalse hunrevoked =>
        have hkept := hdropped.mp (List.mem_map.mpr ⟨held, hheld, hname⟩)
        have hspared := hrevoked.mp (Bool.eq_false_iff.mpr hunrevoked)
        refine ⟨(Except.ok.inj haccepted).symm, ⟨sans, after, hminted, fun event hevent => ?_⟩, hcurrent⟩
        refine ⟨hkept event hevent, fun jti hnamed => ?_⟩
        obtain rfl : row.jti = jti := Option.some.inj (hof.jti.symm.trans hnamed)
        exact hspared event hevent
  · rintro ⟨rfl, ⟨sans, after, hminted, hclean⟩, hcurrent⟩
    obtain ⟨row, hrow, hof, hrevoked⟩ := hbooked.minted token sans after hminted
    obtain ⟨hsigner, hkid, hdropped⟩ := hkeyed.minted token sans after hminted
    have hunrevoked := hrevoked.mpr fun event hevent => (hclean event hevent).2 _ hof.jti
    obtain ⟨held, hheld, hname⟩ := List.mem_map.mp (hdropped.mpr fun event hevent => (hclean event hevent).1)
    have hheldKid : token.kid = some held.kid := by rw [hkid, (hready.held hheld).2, hname]
    have hverified := hready.verify_of_held hnames hheld hheldKid
      ((hjose.verifies _ _ _ _).trans (accepted_iff.mpr ⟨hname.symm, hcurrent⟩))
    have hjti : orUndefined token.payload.jti = some row.jti := by simp [orUndefined, hof.jti, hof.named]
    rw [if_pos hverified, hjti]
    dsimp only
    rw [isRevoked_of_mem hbooked.jtis hrow, hunrevoked]
    rfl

theorem verify_iff_alice :
    Outstanding numberedKeys (opened numberedKeys none (some "node-a") 0 1) aliceEvents aliceToken := by
  have haccepted : (run numberedKeys (opened numberedKeys none (some "node-a") 0 1) aliceEvents).verify numberedKeys
      aliceToken none 5000 = .ok aliceToken.payload := by decide
  exact ((verify_iff numberedKeys_documented (by decide) aliceEvents_completes (fun _ => aliceToken_minted) none 5000 _).mp
    haccepted).2.1

/-- A verifier of its own, which knows the published keys and the published revocations. -/
def offlineVerify (jose : Jose Key) (jwks : List (PublicJwk Key)) (revocationList : List String) (token : Jwt Key)
    (audience : Option (List String)) (now : Nat) : Bool :=
  match jwks.find? fun jwk => some jwk.kid = token.kid, token.payload.jti with
  | some jwk, some jti => jose.jwtVerify token.toToken jwk.key audience now && !revocationList.contains jti
  | _, _ => false

/-- The list has the revoked tokens that have not expired. -/
theorem mem_revocationList {rows : List TokenRow} (hnodup : (rows.map (·.jti)).Nodup) {row : TokenRow} (hrow : row ∈ rows)
    (published : Nat) : row.jti ∈ SqliteTokenStore.getRevocationList rows published ↔
      row.isRevoked = true ∧ ((published / 1000 : Nat) : Int) < row.expiresAt := by
  simp only [SqliteTokenStore.getRevocationList, List.mem_map, List.mem_filter, Bool.and_eq_true, decide_eq_true_eq]
  constructor
  · rintro ⟨other, ⟨hother, hlisted⟩, hname⟩
    obtain rfl := List.inj_on_of_nodup_map hnodup hother hrow hname
    exact hlisted
  · exact fun hlisted => ⟨row, ⟨hrow, hlisted⟩, rfl⟩

/-- With the keys and the revocations that a factory has published, a verifier of its own
    accepts a token, then or later, iff the factory would have accepted it without a change. -/
theorem offline_agrees (hjose : jose.Documented) {token : Jwt Key}
    (hauthentic : Authentic jose (opened jose configured nodeId now₀ first)
      (first :: events.flatMap Event.drawn) events token) (audience : Option (List String)) {published now : Nat}
    (hlater : published ≤ now) :
    offlineVerify jose (run jose (opened jose configured nodeId now₀ first) events).keyManager.getJwks
        (SqliteTokenStore.getRevocationList (run jose (opened jose configured nodeId now₀ first) events).tokens
          published) token audience now = true ↔
      (run jose (opened jose configured nodeId now₀ first) events).verify jose token audience now =
        .ok token.payload := by
  have hbooked : Booked jose (opened jose configured nodeId now₀ first) events := run_booked rfl events
  have hwithin := @run_within Key jose configured nodeId now₀ first events _ hjose
  have hfound := @KeyManager.find?_getJwks Key
    (run jose (opened jose configured nodeId now₀ first) events).keyManager token.kid
  unfold verify offlineVerify
  cases hverified : (run jose (opened jose configured nodeId now₀ first) events).keyManager.verify jose
      token.toToken audience now with
  | false =>
    refine iff_of_false (fun haccepted => ?_) (by simp)
    split at haccepted
    · rename_i jwk jti hjwk hjti
      rw [hjwk, Option.map_some] at hfound
      simp only [KeyManager.verify, ← hfound] at hverified
      simp [hverified] at haccepted
    · cases haccepted
  | true =>
    obtain ⟨held, hheld, hname, hcurrent⟩ := verified_held hjose hverified
    obtain ⟨sans, after, hminted⟩ := hauthentic (hname ▸ hwithin.held held hheld)
    obtain ⟨row, hrow, hof, -⟩ := hbooked.minted token sans after hminted
    have hjti : orUndefined (some row.jti) = some row.jti := by simp [orUndefined, hof.named]
    -- the token has not expired, so its revocation is on the list
    have hlisted : row.jti ∈ SqliteTokenStore.getRevocationList
        (run jose (opened jose configured nodeId now₀ first) events).tokens published ↔ row.isRevoked = true := by
      refine (mem_revocationList hbooked.jtis hrow published).trans (and_iff_left ?_)
      have hearlier := Nat.div_le_div_right (c := 1000) hlater
      have hexp := hcurrent.1
      rw [hof.expiry]
      omega
    unfold KeyManager.verify at hverified
    cases hresolved : (run jose (opened jose configured nodeId now₀ first) events).keyManager.resolveKey
        token.kid with
    | none => simp [hresolved] at hverified
    | some key =>
      rw [hresolved] at hfound hverified
      obtain ⟨jwk, hjwk, rfl⟩ := Option.map_eq_some_iff.mp hfound
      rw [hjwk, hof.jti, if_pos rfl, hjti]
      dsimp only at hverified ⊢
      rw [hverified, Bool.true_and, isRevoked_of_mem hbooked.jtis hrow]
      cases hrevoked : row.isRevoked with
      | true => simp [hlisted.mpr hrevoked]
      | false =>
        have hunlisted : row.jti ∉ SqliteTokenStore.getRevocationList
            (run jose (opened jose configured nodeId now₀ first) events).tokens published := fun hmem => by
          simp [hlisted.mp hmem] at hrevoked
        simp [hunlisted]

theorem offline_agrees_alice :
    offlineVerify numberedKeys
      (run numberedKeys (opened numberedKeys none (some "node-a") 0 1) aliceEvents).keyManager.getJwks
      (SqliteTokenStore.getRevocationList
        (run numberedKeys (opened numberedKeys none (some "node-a") 0 1) aliceEvents).tokens 4000)
      aliceToken none 5000 = true :=
  (offline_agrees numberedKeys_documented (fun _ => aliceToken_minted) none (by decide)).mpr (by decide)

end Lifecycle

/-- A revoked token is rejected for good, whatever is minted, rotated or restarted later. -/
theorem revoked_final {factory : JWTTokenFactory Key} {token : Jwt Key} {audience : Option (List String)}
    {now : Nat} (h : factory.verify jose token audience now = .error .revoked) (events : List (Event Key))
    (audience' : Option (List String)) (now' : Nat) (payload : Payload) :
    (run jose factory events).verify jose token audience' now' ≠ .ok payload := by
  obtain ⟨jti, hjti, hrevoked⟩ : ∃ jti, orUndefined token.payload.jti = some jti ∧
      SqliteTokenStore.isRevoked factory.tokens jti = true := by
    unfold verify at h
    split at h
    · split at h
      · cases h
      · rename_i jti hjti
        split at h
        · rename_i hrevoked
          exact ⟨jti, hjti, hrevoked⟩
        · cases h
    · cases h
  have hlater : SqliteTokenStore.isRevoked (run jose factory events).tokens jti = true :=
    Runs.run_invariant (I := fun factory : JWTTokenFactory Key => SqliteTokenStore.isRevoked factory.tokens jti = true)
      (fun factory event => step_isRevoked factory event) hrevoked events
  unfold verify
  split
  · simp [hjti, hlater]
  · simp

def aliceRevokedToken : Jwt Nat where
  signer := 2
  kid := some "2"
  exp := 3603
  payload :=
    { jti := some "token-2", sub := "alice", principal := some "CATALYST::USER",
      entity := some { id := "user-1", name := "alice", type := .user, nodeId := some "node-a" } }

theorem revoked_final_alice :
    (run numberedKeys (opened numberedKeys none (some "node-a") 0 1) (aliceEvents ++ [.mint 5000 "token-2" aliceOptions])).verify
      numberedKeys aliceRevokedToken none 6000 ≠ .ok aliceRevokedToken.payload := by
  have hrevoked : (run numberedKeys (opened numberedKeys none (some "node-a") 0 1) aliceEvents).verify numberedKeys
      aliceRevokedToken none 5000 = .error .revoked := by decide
  rw [run, Runs.run_append]
  exact revoked_final hrevoked _ none 6000 _

end JWTTokenFactory

end CatalystRouter
