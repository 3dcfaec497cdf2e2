-- SUMMARY: The credential store: principals and their keys in memory and in their two files, and the operations on both.
import AgentProtocol.Lib.Json
import AgentProtocol.Lib.Text
import AgentProtocol.Register.Service

/-!
# Credential store

Three indexes are kept in memory: principals by id, keys by id, and the id of a key by the hash of its
token. Two files hold the dumps of the first two; a load rebuilds all three from them.

`hashToken` stands for the digest of a token.
-/

namespace AgentProtocol

open Lib

/-- `VALID_ROLES`. -/
def Role.text : Role → String
  | .admin => "admin"
  | .provider => "provider"
  | .user => "user"

def Role.parse (role : String) : Option Role := [Role.admin, .provider, .user].find? (·.text = role)

@[simp] theorem Role.parse_text (r : Role) : Role.parse r.text = some r := by
  cases r <;> decide

theorem Role.text_of_parse {role : String} {r : Role} (h : Role.parse role = some r) : r.text = role := by
  have := List.find?_some h
  simpa using this

namespace Auth

/-! ## Models -/

structure Principal where
  id : String
  handle : String
  role : Role
  /-- `none` means all namespaces. -/
  namespaces : Option (List String) := none
  createdAt : String
  disabledAt : Option String := none
  note : String := ""

structure ApiKey where
  keyId : String
  principalId : String
  keyHash : String
  keyPrefix : String
  name : String := ""
  createdAt : String
  expiresAt : Option String := none
  lastUsedAt : Option String := none
  revokedAt : Option String := none

def Principal.isDisabled (p : Principal) : Bool := p.disabledAt.isSome

def Principal.toContext (p : Principal) : AuthContext where
  principalId := p.id
  role := p.role
  namespaces := p.namespaces

def ApiKey.isRevoked (k : ApiKey) : Bool := k.revokedAt.isSome

/-! ## Dumps -/

def optionalText : Option String → Json
  | none => .null
  | some s => .str s

def optionalTexts : Option (List String) → Json
  | none => .null
  | some l => .strs l

def Principal.modelDump (p : Principal) : Json :=
  .object [("id", .str p.id), ("handle", .str p.handle), ("role", .str p.role.text),
    ("namespaces", optionalTexts p.namespaces), ("created_at", .str p.createdAt),
    ("disabled_at", optionalText p.disabledAt), ("note", .str p.note)]

def ApiKey.modelDump (k : ApiKey) : Json :=
  .object [("key_id", .str k.keyId), ("principal_id", .str k.principalId), ("key_hash", .str k.keyHash),
    ("key_prefix", .str k.keyPrefix), ("name", .str k.name), ("created_at", .str k.createdAt),
    ("expires_at", optionalText k.expiresAt), ("last_used_at", optionalText k.lastUsedAt),
    ("revoked_at", optionalText k.revokedAt)]

/-- An optional field; `none` when it holds something of another type. -/
def parseOptionalText : Option Json → Option (Option String)
  | none | some .null => some none
  | some j => j.asStr.map some

def parseOptionalTexts : Option Json → Option (Option (List String))
  | none | some .null => some none
  | some j => j.asStrs.map some

def parseTextOr (default : String) : Option Json → Option String
  | none => some default
  | some j => j.asStr

/-- `Principal(**item)`. -/
def Principal.parse (item : Json) : Option Principal := do
  let fields ← item.asObject
  let get := fun key => (fields.find? (·.1 = key)).map Prod.snd
  let id ← (get "id").bind Json.asStr
  let handle ← (get "handle").bind Json.asStr
  let role ← ((get "role").bind Json.asStr).bind Role.parse
  let namespaces ← parseOptionalTexts (get "namespaces")
  let createdAt ← (get "created_at").bind Json.asStr
  let disabledAt ← parseOptionalText (get "disabled_at")
  let note ← parseTextOr "" (get "note")
  some { id, handle, role, namespaces, createdAt, disabledAt, note }

/-- `ApiKey(**item)`. -/
def ApiKey.parse (item : Json) : Option ApiKey := do
  let fields ← item.asObject
  let get := fun key => (fields.find? (·.1 = key)).map Prod.snd
  let keyId ← (get "key_id").bind Json.asStr
  let principalId ← (get "principal_id").bind Json.asStr
  let keyHash ← (get "key_hash").bind Json.asStr
  let keyPrefix ← (get "key_prefix").bind Json.asStr
  let name ← parseTextOr "" (get "name")
  let createdAt ← (get "created_at").bind Json.asStr
  let expiresAt ← parseOptionalText (get "expires_at")
  let lastUsedAt ← parseOptionalText (get "last_used_at")
  let revokedAt ← parseOptionalText (get "revoked_at")
  some { keyId, principalId, keyHash, keyPrefix, name, createdAt, expiresAt, lastUsedAt, revokedAt }

@[simp] theorem parseOptionalText_dump (o : Option String) : parseOptionalText (some (optionalText o)) = some o := by
  cases o <;> rfl

@[simp] theorem parseOptionalTexts_dump (o : Option (List String)) : parseOptionalTexts (some (optionalTexts o)) = some o := by
  cases o with
  | none => rfl
  | some l =>
    change (Json.strs l).asStrs.map some = _
    simp

theorem Principal.parse_modelDump (p : Principal) : Principal.parse p.modelDump = some p := by
  simp [Principal.parse, Principal.modelDump, Json.asStr, parseTextOr]

theorem ApiKey.parse_modelDump (k : ApiKey) : ApiKey.parse k.modelDump = some k := by
  simp [ApiKey.parse, ApiKey.modelDump, Json.asStr, parseTextOr]

/-! ## Tokens -/

def tokenPrefix : String := "a2x_pat_"

/-- What the random source and the clock give to a call. -/
structure Generated where
  principalHex : String
  tokenBody : String
  keyHex : String
  now : String

def generateToken (body : String) : String := tokenPrefix ++ body

/-- `token_prefix`, the part of a token that may be displayed. -/
def displayPrefix (token : String) : String := String.ofList (token.toList.take 12)

def newId (kind hex : String) : String := kind ++ "_" ++ hex

def Generated.principalId (g : Generated) : String := newId "u" g.principalHex

def Generated.keyId (g : Generated) : String := newId "k" g.keyHex

def Generated.token (g : Generated) : String := generateToken g.tokenBody

/-! ## Failures -/

/-- Why a token is refused, in the words of the audit log. -/
inductive AuthFailure where
  | emptyToken
  | wrongPrefix
  | invalidToken
  | danglingKey
  | hashMismatch
  | revoked
  | principalDisabled

inductive AuthError where
  /-- `FileExistsError`. -/
  | alreadyInitialized
  | adminTokenPrefix
  | invalidRole (role : String)
  | adminNamespaces
  | namespacesRequired (role : Role)
  | handleInUse (handle : String)
  /-- `KeyError`. -/
  | principalNotFound (principalId : String)
  | keyNotFound (keyId : String)
  | authentication (reason : AuthFailure)

/-! ## The store -/

/-- `principals.json` and `api_keys.json`; `none` for a missing file. -/
structure AuthData where
  principals : Option Json := none
  apiKeys : Option Json := none

structure AuthStore where
  dir : AuthData := {}
  principals : Table Principal.id := ∅
  keys : Table ApiKey.keyId := ∅
  keysByHash : Dict String String := ∅

namespace AuthStore

def loadRows {α : Type} (parse : Json → Option α) (file : Json) : Option (List α) := file.asList.bind (·.mapM parse)

/-- `_load_from_disk`; `none` when it raises. -/
def loadFromDisk (dir : AuthData) : Option AuthStore := do
  let principals ← loadRows Principal.parse (← dir.principals)
  let keys ← (dir.apiKeys.map (loadRows ApiKey.parse)).getD (some [])
  some { dir, principals := (∅ : Table Principal.id).insertAll principals, keys := (∅ : Table ApiKey.keyId).insertAll keys
         keysByHash := Dict.ofList (keys.map fun k => (k.keyHash, k.keyId)) }

def persistPrincipals (s : AuthStore) : AuthStore :=
  { s with dir := { s.dir with principals := some (.list (s.principals.rows.map Principal.modelDump)) } }

def persistKeys (s : AuthStore) : AuthStore :=
  { s with dir := { s.dir with apiKeys := some (.list (s.keys.rows.map ApiKey.modelDump)) } }

def addPrincipal (s : AuthStore) (p : Principal) : AuthStore := { s with principals := s.principals.insert p }

/-- A key enters both indexes of keys. -/
def addKey (s : AuthStore) (k : ApiKey) : AuthStore :=
  { s with keys := s.keys.insert k, keysByHash := s.keysByHash.set k.keyHash k.keyId }

variable (hashToken : String → String)

def issue (g : Generated) (principalId token name : String) : ApiKey where
  keyId := g.keyId
  principalId := principalId
  keyHash := hashToken token
  keyPrefix := displayPrefix token
  name := name
  createdAt := g.now

/-- `bootstrap`: the store and the token of its administrator. -/
def bootstrap (dir : AuthData) (adminToken : Option String) (adminHandle : String) (g : Generated) :
    Except AuthError (AuthStore × String) :=
  if dir.principals.isSome then .error .alreadyInitialized
  else
    let token := (adminToken.filter (· ≠ "")).getD g.token
    if !Text.startsWith token tokenPrefix then .error .adminTokenPrefix
    else
      let principal : Principal := { id := g.principalId, handle := adminHandle, role := .admin, createdAt := g.now, note := "Bootstrap admin (root)" }
      let key := issue hashToken g principal.id token "bootstrap"
      .ok (((({ dir : AuthStore }.addPrincipal principal).addKey key).persistPrincipals.persistKeys), token)

/-- Administrators have no list of namespaces, everyone else has one. -/
def checkNamespaces (role : Role) (namespaces : Option (List String)) : Except AuthError Unit :=
  if role = .admin ∧ namespaces.isSome then .error .adminNamespaces
  else if role ≠ .admin ∧ namespaces.isNone then .error (.namespacesRequired role)
  else .ok ()

def createPrincipal (s : AuthStore) (handle role : String) (namespaces : Option (List String)) (note : String) (g : Generated) :
    Except AuthError (AuthStore × Principal × String) := do
  let some role := Role.parse role | .error (.invalidRole role)
  checkNamespaces role namespaces
  if s.principals.rows.any (·.handle = handle) then .error (.handleInUse handle)
  else
    let principal : Principal := { id := g.principalId, handle, role, namespaces, createdAt := g.now, note }
    let key := issue hashToken g principal.id g.token "initial"
    .ok (((s.addPrincipal principal).addKey key).persistPrincipals.persistKeys, principal, g.token)

/-- `update_principal`: a field that is not given is kept; `some none` sets the namespaces to all of them. -/
def updatePrincipal (s : AuthStore) (principalId : String) (namespaces : Option (Option (List String))) (role : Option String)
    (disabled : Option Bool) (note : Option String) (now : String) : Except AuthError (AuthStore × Principal) := do
  let some principal := s.principals.get? principalId | .error (.principalNotFound principalId)
  let newRole := (role.filter (· ≠ "")).getD principal.role.text
  let some newRole := Role.parse newRole | .error (.invalidRole newRole)
  let newNs := namespaces.getD principal.namespaces
  checkNamespaces newRole newNs
  let newDisabledAt := match disabled with
    | some true => some ((principal.disabledAt.filter (· ≠ "")).getD now)
    | some false => none
    | none => principal.disabledAt
  let updated := { principal with role := newRole, namespaces := newNs, disabledAt := newDisabledAt, note := note.getD principal.note }
  .ok ((s.addPrincipal updated).persistPrincipals, updated)

def createKey (s : AuthStore) (principalId name : String) (g : Generated) : Except AuthError (AuthStore × ApiKey × String) :=
  if (s.principals.get? principalId).isNone then .error (.principalNotFound principalId)
  else
    let key := issue hashToken g principalId g.token name
    .ok ((s.addKey key).persistKeys, key, g.token)

/-- `revoke_key`: revoking again returns the key as it is. -/
def revokeKey (s : AuthStore) (keyId now : String) : Except AuthError (AuthStore × ApiKey) :=
  match s.keys.get? keyId with
  | none => .error (.keyNotFound keyId)
  | some key =>
    if key.isRevoked then .ok (s, key)
    else
      let key := { key with revokedAt := some now }
      .ok ({ s with keys := s.keys.insert key, keysByHash := s.keysByHash.erase key.keyHash }.persistKeys, key)

/-- `authenticate`: the key that is used remembers when, in memory only. -/
def authenticate (s : AuthStore) (token now : String) : Except AuthFailure (AuthStore × AuthContext) :=
  if token = "" then .error .emptyToken
  else if !Text.startsWith token tokenPrefix then .error .wrongPrefix
  else
    let h := hashToken token
    match s.keysByHash.lookup h with
    | none => .error .invalidToken
    | some keyId =>
      match s.keys.get? keyId with
      | none => .error .danglingKey
      | some key =>
        match s.principals.get? key.principalId with
        | none => .error .danglingKey
        | some principal =>
          if key.keyHash ≠ h then .error .hashMismatch
          else if key.isRevoked then .error .revoked
          else if principal.isDisabled then .error .principalDisabled
          else .ok ({ s with keys := s.keys.insert { key with lastUsedAt := some now } }, principal.toContext)

/-- The store as the other components see it. -/
def callersView (s : AuthStore) (now : String) : AgentProtocol.AuthStore where
  authenticate token := (s.authenticate hashToken token now).toOption.map Prod.snd

/-! ## What a successful call did -/

variable {hashToken} {s s' : AuthStore} {g : Generated}

theorem checkNamespaces_eq_ok {r : Role} {namespaces : Option (List String)} :
    checkNamespaces r namespaces = .ok () ↔ (r = .admin ↔ namespaces = none) := by
  unfold checkNamespaces
  cases namespaces <;> by_cases hr : r = .admin <;> simp [hr]

theorem createPrincipal_eq_ok {handle role note token : String} {namespaces : Option (List String)} {p : Principal}
    (h : s.createPrincipal hashToken handle role namespaces note g = .ok (s', p, token)) :
    p.role.text = role ∧ p.namespaces = namespaces ∧ (p.role = .admin ↔ p.namespaces = none) ∧ p.isDisabled = false ∧
      p.id = g.principalId ∧ token = g.token ∧
      s' = ((s.addPrincipal p).addKey (issue hashToken g p.id g.token "initial")).persistPrincipals.persistKeys := by
  unfold createPrincipal at h
  cases hrole : Role.parse role with
  | none => simp [hrole] at h
  | some r =>
    simp only [hrole] at h
    cases hns : checkNamespaces r namespaces with
    | error e => simp [hns, bind, Except.bind] at h
    | ok u =>
      simp only [hns, bind, Except.bind] at h
      split at h
      · cases h
      simp only [Except.ok.injEq, Prod.mk.injEq] at h
      obtain ⟨rfl, rfl, rfl⟩ := h
      exact ⟨Role.text_of_parse hrole, rfl, checkNamespaces_eq_ok.mp hns, rfl, rfl, rfl, rfl⟩

theorem updatePrincipal_eq_ok {principalId now : String} {namespaces : Option (Option (List String))} {role note : Option String}
    {disabled : Option Bool} {p : Principal} (h : s.updatePrincipal principalId namespaces role disabled note now = .ok (s', p)) :
    ∃ old, s.principals.get? principalId = some old ∧ p.id = old.id ∧ p.role.text = (role.filter (· ≠ "")).getD old.role.text ∧
      p.namespaces = namespaces.getD old.namespaces ∧ p.isDisabled = disabled.getD old.isDisabled ∧
      (p.role = .admin ↔ p.namespaces = none) ∧ s' = (s.addPrincipal p).persistPrincipals := by
  unfold updatePrincipal at h
  cases hget : s.principals.get? principalId with
  | none => simp [hget] at h
  | some old =>
    simp only [hget] at h
    cases hrole : Role.parse ((role.filter (· ≠ "")).getD old.role.text) with
    | none =>
      rw [hrole] at h
      cases h
    | some r =>
      simp only [hrole] at h
      cases hns : checkNamespaces r (namespaces.getD old.namespaces) with
      | error e => simp [hns, bind, Except.bind] at h
      | ok u =>
        simp only [hns, bind, Except.bind, Except.ok.injEq, Prod.mk.injEq] at h
        obtain ⟨rfl, rfl⟩ := h
        refine ⟨old, rfl, rfl, Role.text_of_parse hrole, rfl, ?_, checkNamespaces_eq_ok.mp hns, rfl⟩
        cases disabled with
        | none => rfl
        | some b => cases b <;> rfl

theorem createKey_eq_ok {principalId name token : String} {k : ApiKey}
    (h : s.createKey hashToken principalId name g = .ok (s', k, token)) :
    (s.principals.get? principalId).isSome ∧ k = issue hashToken g principalId g.token name ∧ token = g.token ∧
      s' = (s.addKey k).persistKeys := by
  unfold createKey at h
  split at h
  · cases h
  rename_i hsome
  simp only [Except.ok.injEq, Prod.mk.injEq] at h
  obtain ⟨rfl, rfl, rfl⟩ := h
  exact ⟨by simpa [Option.isSome_iff_ne_none] using hsome, rfl, rfl, rfl⟩

theorem revokeKey_eq_ok {keyId now : String} {k : ApiKey} (h : s.revokeKey keyId now = .ok (s', k)) :
    ∃ old, s.keys.get? keyId = some old ∧ ((old.isRevoked = true ∧ s' = s) ∨
        s' = { s with keys := s.keys.insert { old with revokedAt := some now }
                      keysByHash := s.keysByHash.erase old.keyHash }.persistKeys) := by
  unfold revokeKey at h
  cases hget : s.keys.get? keyId with
  | none => simp [hget] at h
  | some old =>
    simp only [hget] at h
    split at h
    · rename_i hrev
      simp only [Except.ok.injEq, Prod.mk.injEq] at h
      exact ⟨old, rfl, .inl ⟨hrev, h.1.symm⟩⟩
    · simp only [Except.ok.injEq, Prod.mk.injEq] at h
      exact ⟨old, rfl, .inr h.1.symm⟩

theorem authenticate_eq_ok {token now : String} {ctx : AuthContext} : s.authenticate hashToken token now = .ok (s', ctx) ↔
      token ≠ "" ∧ Text.startsWith token tokenPrefix = true ∧ ∃ keyId key principal,
        s.keysByHash.lookup (hashToken token) = some keyId ∧ s.keys.get? keyId = some key ∧
        s.principals.get? key.principalId = some principal ∧ key.keyHash = hashToken token ∧ key.isRevoked = false ∧
        principal.isDisabled = false ∧ s' = { s with keys := s.keys.insert { key with lastUsedAt := some now } } ∧
        ctx = principal.toContext := by
  unfold authenticate
  by_cases hempty : token = ""
  · simp [hempty]
  by_cases hstart : Text.startsWith token tokenPrefix = true
  · cases hid : s.keysByHash.lookup (hashToken token) with
    | none => simp [hempty, hstart, hid]
    | some keyId =>
      cases hkey : s.keys.get? keyId with
      | none => simp [hempty, hstart, hid, hkey]
      | some key =>
        cases hp : s.principals.get? key.principalId with
        | none => simp [hempty, hstart, hid, hkey, hp]
        | some principal =>
          simp only [hempty, hstart, hid, hkey, hp]
          grind
  · simp [hempty, hstart]

theorem bootstrap_eq_ok {dir : AuthData} {adminToken : Option String} {adminHandle token : String}
    (h : bootstrap hashToken dir adminToken adminHandle g = .ok (s', token)) :
    dir.principals = none ∧ Text.startsWith token tokenPrefix = true ∧ ∃ p : Principal,
      p.id = g.principalId ∧ p.role = .admin ∧ p.namespaces = none ∧ p.isDisabled = false ∧
      s' = (({ dir : AuthStore }.addPrincipal p).addKey (issue hashToken g p.id token "bootstrap")).persistPrincipals.persistKeys := by
  unfold bootstrap at h
  split at h
  · cases h
  rename_i hnone
  dsimp only at h
  split at h
  · cases h
  rename_i hstart
  simp only [Except.ok.injEq, Prod.mk.injEq] at h
  obtain ⟨rfl, rfl⟩ := h
  exact ⟨by simpa using hnone, by simpa using hstart, _, rfl, rfl, rfl, rfl, rfl⟩

end AuthStore

end Auth

end AgentProtocol
