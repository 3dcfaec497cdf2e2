-- SUMMARY: Runs of the credential store with reloads in between, and that a token is accepted exactly by the history of its key and principal.
import AgentProtocol.Auth.Store
import AgentProtocol.Lib.Except
import AgentProtocol.Lib.Run

/-!
# Credentials and their history

A `World` is a server together with the events of all calls that succeeded so far, newest first. What
the events say about a principal is its `Standing`; a key is known by the event that created it and
dead by the one that revoked it.

`Recorded` relates a table of principals and a table of keys to a history. It holds of the tables in
memory and of those in the files, and it does not see when a key was last used.
-/

namespace AgentProtocol.Auth

open Lib

/-! ## Servers -/

/-- A server with its store, or before the first `bootstrap`. -/
inductive Server where
  | uninitialized (dir : AuthData)
  | running (store : AuthStore)

inductive Call where
  | bootstrap (adminToken : Option String) (adminHandle : String) (g : Generated)
  | createPrincipal (handle role : String) (namespaces : Option (List String)) (note : String) (g : Generated)
  | updatePrincipal (principalId : String) (namespaces : Option (Option (List String))) (role : Option String)
      (disabled : Option Bool) (note : Option String) (now : String)
  | createKey (principalId name : String) (g : Generated)
  | revokeKey (keyId now : String)
  | authenticate (token now : String)
  /-- The server is started again from its files. -/
  | reload

/-- What a call did, when it succeeded. -/
inductive Event where
  | principalCreated (principalId role : String) (namespaces : Option (List String))
  | principalUpdated (principalId : String) (role : Option String) (namespaces : Option (Option (List String)))
      (disabled : Option Bool)
  | keyCreated (keyId principalId token : String)
  | keyRevoked (keyId : String)

/-- Newest first. -/
abbrev History := List Event

namespace Server

def dir : Server → AuthData
  | uninitialized dir => dir
  | running s => s.dir

def principals : Server → List Principal
  | uninitialized _ => []
  | running s => s.principals.rows

variable (hashToken : String → String)

/-- The caller that a token stands for. Without a store nobody is identified. -/
def authenticate (token now : String) : Server → Option AuthContext
  | uninitialized _ => none
  | running s => (s.callersView hashToken now).authenticate token

def reload (sv : Server) : Server :=
  match AuthStore.loadFromDisk sv.dir with
  | none => .uninitialized sv.dir
  | some s => .running s

/-- A call of a method of the store, with what is recorded of it when it succeeds. -/
def onStore (s : AuthStore) : Call → Except AuthError (AuthStore × History)
  | .createPrincipal handle role namespaces note g =>
    (s.createPrincipal hashToken handle role namespaces note g).map fun (s', p, token) =>
      (s', [.keyCreated g.keyId p.id token, .principalCreated p.id role namespaces])
  | .updatePrincipal principalId namespaces role disabled note now =>
    (s.updatePrincipal principalId namespaces role disabled note now).map fun (s', _) =>
      (s', [.principalUpdated principalId role namespaces disabled])
  | .createKey principalId name g =>
    (s.createKey hashToken principalId name g).map fun (s', k, token) => (s', [.keyCreated k.keyId principalId token])
  | .revokeKey keyId now => (s.revokeKey keyId now).map fun (s', _) => (s', [.keyRevoked keyId])
  | .authenticate token now =>
    ((s.authenticate hashToken token now).map fun (s', _) => (s', [])).mapError .authentication
  | .bootstrap .. | .reload => .ok (s, [])

end Server

structure World where
  server : Server
  history : History := []

namespace World

variable (hashToken : String → String)

/-- One call. One that fails changes nothing. -/
def step (w : World) (c : Call) : World :=
  match c with
  | .reload => { w with server := w.server.reload }
  | .bootstrap adminToken adminHandle g =>
    match AuthStore.bootstrap hashToken w.server.dir adminToken adminHandle g with
    | .error _ => w
    | .ok (s, token) =>
      ⟨.running s, .keyCreated g.keyId g.principalId token :: .principalCreated g.principalId "admin" none :: w.history⟩
  | c =>
    match w.server with
    | .uninitialized _ => w
    | .running s =>
      match Server.onStore hashToken s c with
      | .error _ => w
      | .ok (s', events) => ⟨.running s', events ++ w.history⟩

end World

/-! ## What a history says -/

structure Standing where
  role : String
  namespaces : Option (List String)
  disabled : Bool

/-- An update with the fields that it gives; an empty role is not given. -/
def Standing.update (st : Standing) (role : Option String) (namespaces : Option (Option (List String))) (disabled : Option Bool) :
    Standing where
  role := (role.filter (· ≠ "")).getD st.role
  namespaces := namespaces.getD st.namespaces
  disabled := disabled.getD st.disabled

/-- What a principal is after a history. -/
def standing : History → String → Option Standing
  | [], _ => none
  | .principalCreated p role namespaces :: h, q => if p = q then some ⟨role, namespaces, false⟩ else standing h q
  | .principalUpdated p role namespaces disabled :: h, q =>
    if p = q then (standing h q).map (·.update role namespaces disabled) else standing h q
  | .keyCreated .. :: h, q => standing h q
  | .keyRevoked _ :: h, q => standing h q

/-- The key that a call generates was not there before, and neither was its token. -/
def Event.Avoids (g : Generated) : Event → Prop
  | .keyCreated keyId _ token => keyId ≠ g.keyId ∧ token ≠ g.token
  | _ => True

instance (g : Generated) : DecidablePred (Event.Avoids g)
  | .keyCreated keyId _ token => inferInstanceAs (Decidable (keyId ≠ g.keyId ∧ token ≠ g.token))
  | .principalCreated .. | .principalUpdated .. | .keyRevoked _ => .isTrue trivial

def Fresh (w : World) : Call → Prop
  | .createPrincipal _ _ _ _ g | .createKey _ _ g => ∀ e ∈ w.history, e.Avoids g
  | _ => True

instance (w : World) : DecidablePred (Fresh w)
  | .createPrincipal _ _ _ _ g | .createKey _ _ g => inferInstanceAs (Decidable (∀ e ∈ w.history, e.Avoids g))
  | .bootstrap .. | .updatePrincipal .. | .revokeKey .. | .authenticate .. | .reload => .isTrue trivial

/-! ## Histories -/

structure WellFormed (h : History) : Prop where
  /-- A key is created for a principal that exists. -/
  owner : ∀ keyId principalId token, .keyCreated keyId principalId token ∈ h → (standing h principalId).isSome
  /-- A token is issued once. -/
  once : ∀ keyId keyId' principalId principalId' token, .keyCreated keyId principalId token ∈ h →
    .keyCreated keyId' principalId' token ∈ h → keyId = keyId'
  marked : ∀ keyId principalId token, .keyCreated keyId principalId token ∈ h → Text.startsWith token tokenPrefix = true
  revoked : ∀ keyId, .keyRevoked keyId ∈ h → ∃ principalId token, .keyCreated keyId principalId token ∈ h

variable {hashToken : String → String} {h h' : History} {g : Generated}

theorem WellFormed.nil : WellFormed [] where
  owner _ _ _ hmem := nomatch hmem
  once _ _ _ _ _ hmem := nomatch hmem
  marked _ _ _ hmem := nomatch hmem
  revoked _ hmem := nomatch hmem

variable (hw : WellFormed h)
include hw

theorem WellFormed.principal {e : Event} (hcreated : ∀ k p t, e ≠ .keyCreated k p t)
    (hrevoked : ∀ k, e ≠ .keyRevoked k) (hstanding : ∀ q, (standing h q).isSome → (standing (e :: h) q).isSome) :
    WellFormed (e :: h) := by
  have hold : ∀ {k p t}, .keyCreated k p t ∈ e :: h → .keyCreated k p t ∈ h := fun hmem =>
    (List.mem_cons.mp hmem).resolve_left fun he => hcreated _ _ _ he.symm
  refine ⟨fun k p t hmem => hstanding p (hw.owner k p t (hold hmem)), ?_, fun k p t hmem => hw.marked k p t (hold hmem), ?_⟩
  · exact fun k k' p p' t hmem hmem' => hw.once k k' p p' t (hold hmem) (hold hmem')
  · intro k hmem
    obtain ⟨p, t, hk⟩ := hw.revoked k ((List.mem_cons.mp hmem).resolve_left fun he => hrevoked k he.symm)
    exact ⟨p, t, List.mem_cons_of_mem _ hk⟩

theorem WellFormed.principalCreated (p role : String) (namespaces : Option (List String)) :
    WellFormed (.principalCreated p role namespaces :: h) := by
  apply hw.principal (by simp) (by simp)
  intro q hq
  by_cases hp : p = q <;> simp [standing, hp, hq]

theorem WellFormed.principalUpdated (p : String) (role : Option String)
    (namespaces : Option (Option (List String))) (disabled : Option Bool) :
    WellFormed (.principalUpdated p role namespaces disabled :: h) := by
  apply hw.principal (by simp) (by simp)
  intro q hq
  by_cases hp : p = q <;> simp [standing, hp, hq]

theorem WellFormed.keyCreated {keyId principalId token : String} (howner : (standing h principalId).isSome)
    (hnew : ∀ k p, .keyCreated k p token ∉ h) (hmarked : Text.startsWith token tokenPrefix = true) :
    WellFormed (.keyCreated keyId principalId token :: h) where
  owner k p t hmem := by
    rcases List.mem_cons.mp hmem with he | hmem
    · cases he
      exact howner
    · exact hw.owner k p t hmem
  once k k' p p' t hmem hmem' := by
    rcases List.mem_cons.mp hmem with he | hmem
    · cases he
      rcases List.mem_cons.mp hmem' with he' | hmem'
      · cases he'
        rfl
      · exact absurd hmem' (hnew k' p')
    · rcases List.mem_cons.mp hmem' with he' | hmem'
      · cases he'
        exact absurd hmem (hnew k p)
      · exact hw.once k k' p p' t hmem hmem'
  marked k p t hmem := by
    rcases List.mem_cons.mp hmem with he | hmem
    · cases he
      exact hmarked
    · exact hw.marked k p t hmem
  revoked k hmem := by
    obtain ⟨p, t, hk⟩ := hw.revoked k ((List.mem_cons.mp hmem).resolve_left fun he => nomatch he)
    exact ⟨p, t, List.mem_cons_of_mem _ hk⟩

theorem WellFormed.keyRevoked {keyId principalId token : String}
    (hcreated : .keyCreated keyId principalId token ∈ h) : WellFormed (.keyRevoked keyId :: h) where
  owner k p t hmem := hw.owner k p t ((List.mem_cons.mp hmem).resolve_left fun he => nomatch he)
  once k k' p p' t hmem hmem' :=
    hw.once k k' p p' t ((List.mem_cons.mp hmem).resolve_left fun he => nomatch he)
      ((List.mem_cons.mp hmem').resolve_left fun he => nomatch he)
  marked k p t hmem := hw.marked k p t ((List.mem_cons.mp hmem).resolve_left fun he => nomatch he)
  revoked k hmem := by
    rcases List.mem_cons.mp hmem with he | hmem
    · cases he
      exact ⟨principalId, token, List.mem_cons_of_mem _ hcreated⟩
    · obtain ⟨p, t, hk⟩ := hw.revoked k hmem
      exact ⟨p, t, List.mem_cons_of_mem _ hk⟩

omit hw

/-! ## Tables of a history -/

def Principal.standing (p : Principal) : Standing := ⟨p.role.text, p.namespaces, p.isDisabled⟩

/-- The principals are those of the history, with a list of namespaces unless they are administrators. -/
structure PrincipalsOf (h : History) (ps : Table Principal.id) : Prop where
  known : ∀ q, standing h q = (ps.get? q).map Principal.standing
  confined : ∀ p ∈ ps.rows, p.role = .admin ↔ p.namespaces = none

/-- The keys are those of the history, each with the hash of its token and revoked when the history says so. -/
structure KeysOf (hashToken : String → String) (h : History) (ks : Table ApiKey.keyId) : Prop where
  issued : ∀ k ∈ ks.rows, ∃ token, .keyCreated k.keyId k.principalId token ∈ h ∧ k.keyHash = hashToken token
  revoked : ∀ k ∈ ks.rows, k.isRevoked = true ↔ .keyRevoked k.keyId ∈ h
  kept : ∀ keyId principalId token, .keyCreated keyId principalId token ∈ h →
    ∃ k ∈ ks.rows, k.keyId = keyId ∧ k.principalId = principalId ∧ k.keyHash = hashToken token

/-- Every key that is not revoked is found by its hash. -/
def Indexed (ks : Table ApiKey.keyId) (index : Dict String String) : Prop :=
  ∀ k ∈ ks.rows, k.isRevoked = false → index.lookup k.keyHash = some k.keyId

section Principals

variable {ps : Table Principal.id} {p old : Principal}

theorem PrincipalsOf.congr (hps : PrincipalsOf h ps) (hstanding : ∀ q, standing h' q = standing h q) : PrincipalsOf h' ps :=
  ⟨fun q => (hstanding q).trans (hps.known q), hps.confined⟩

theorem PrincipalsOf.insert (hps : PrincipalsOf h ps) (hconfined : p.role = .admin ↔ p.namespaces = none)
    (hself : standing h' p.id = some p.standing) (hothers : ∀ q, p.id ≠ q → standing h' q = standing h q) :
    PrincipalsOf h' (ps.insert p) where
  known q := by
    rw [Table.get?_insert]
    by_cases hq : p.id = q
    · subst hq
      simp [hself]
    · simp [hq, hothers q hq, hps.known q]
  confined p' hmem := by
    rcases Table.mem_insert.mp hmem with rfl | ⟨hmem, -⟩
    · exact hconfined
    · exact hps.confined p' hmem

theorem PrincipalsOf.created (hps : PrincipalsOf h ps) (hconfined : p.role = .admin ↔ p.namespaces = none)
    (henabled : p.isDisabled = false) : PrincipalsOf (.principalCreated p.id p.role.text p.namespaces :: h) (ps.insert p) := by
  apply hps.insert hconfined
  · simp [standing, Principal.standing, henabled]
  · intro q hq
    simp [standing, hq]

theorem PrincipalsOf.updated (hps : PrincipalsOf h ps) {role : Option String} {namespaces : Option (Option (List String))}
    {disabled : Option Bool} (hold : ps.get? p.id = some old) (hconfined : p.role = .admin ↔ p.namespaces = none)
    (hp : p.standing = old.standing.update role namespaces disabled) :
    PrincipalsOf (.principalUpdated p.id role namespaces disabled :: h) (ps.insert p) := by
  apply hps.insert hconfined
  · simp [standing, hps.known, hold, hp]
  · intro q hq
    simp [standing, hq]

end Principals

section Keys

variable {ks : Table ApiKey.keyId} {k k' : ApiKey} {index : Dict String String}

variable (hks : KeysOf hashToken h ks)
include hks

theorem KeysOf.congr (hcreated : ∀ k p t, .keyCreated k p t ∈ h' ↔ .keyCreated k p t ∈ h)
    (hrevoked : ∀ k, .keyRevoked k ∈ h' ↔ .keyRevoked k ∈ h) : KeysOf hashToken h' ks := by
  refine ⟨fun k hk => ?_, fun k hk => ?_, fun keyId p t hmem => hks.kept keyId p t ((hcreated ..).mp hmem)⟩
  · obtain ⟨t, hmem, hhash⟩ := hks.issued k hk
    exact ⟨t, (hcreated ..).mpr hmem, hhash⟩
  · rw [hks.revoked k hk, hrevoked]

theorem KeysOf.eq_of_hash (hw : WellFormed h) (hinj : Function.Injective hashToken)
    (hk : k ∈ ks.rows) (hk' : k' ∈ ks.rows) (hhash : k.keyHash = k'.keyHash) : k = k' := by
  obtain ⟨t, hmem, ht⟩ := hks.issued k hk
  obtain ⟨t', hmem', ht'⟩ := hks.issued k' hk'
  have htoken : t = t' := hinj (by rw [← ht, ← ht', hhash])
  subst htoken
  exact Table.eq_of_key hk hk' (hw.once _ _ _ _ _ hmem hmem')

theorem KeysOf.create (hw : WellFormed h) {token : String} (hhash : k.keyHash = hashToken token)
    (hlive : k.isRevoked = false) (hnew : ∀ p t, .keyCreated k.keyId p t ∉ h) :
    KeysOf hashToken (.keyCreated k.keyId k.principalId token :: h) (ks.insert k) where
  issued k' hk' := by
    rcases Table.mem_insert.mp hk' with rfl | ⟨hk', -⟩
    · exact ⟨token, by simp, hhash⟩
    · obtain ⟨t, hmem, ht⟩ := hks.issued k' hk'
      exact ⟨t, List.mem_cons_of_mem _ hmem, ht⟩
  revoked k' hk' := by
    rcases Table.mem_insert.mp hk' with rfl | ⟨hk', -⟩
    · have hunrevoked : Event.keyRevoked k'.keyId ∉ h := fun hmem =>
        have ⟨p, t, hcreated⟩ := hw.revoked _ hmem
        hnew p t hcreated
      simp [hlive, hunrevoked]
    · simp [hks.revoked k' hk']
  kept keyId p t hmem := by
    rcases List.mem_cons.mp hmem with he | hmem
    · cases he
      exact ⟨k, Table.mem_insert.mpr (.inl rfl), rfl, rfl, hhash⟩
    · obtain ⟨k', hk', rfl, rfl, ht⟩ := hks.kept keyId p t hmem
      refine ⟨k', Table.mem_insert.mpr (.inr ⟨hk', ?_⟩), rfl, rfl, ht⟩
      rintro he
      exact hnew _ _ (he ▸ hmem)

theorem KeysOf.replace (hk : k ∈ ks.rows) (hid : k'.keyId = k.keyId)
    (hprincipal : k'.principalId = k.principalId) (hhash : k'.keyHash = k.keyHash)
    (hcreated : ∀ k p t, .keyCreated k p t ∈ h' ↔ .keyCreated k p t ∈ h) (hself : k'.isRevoked = true ↔ .keyRevoked k.keyId ∈ h')
    (hothers : ∀ keyId, keyId ≠ k.keyId → (.keyRevoked keyId ∈ h' ↔ .keyRevoked keyId ∈ h)) : KeysOf hashToken h' (ks.insert k') where
  issued r hr := by
    rcases Table.mem_insert.mp hr with rfl | ⟨hr, -⟩
    · obtain ⟨t, hmem, ht⟩ := hks.issued k hk
      exact ⟨t, by rw [hid, hprincipal, hcreated]; exact hmem, hhash.trans ht⟩
    · obtain ⟨t, hmem, ht⟩ := hks.issued r hr
      exact ⟨t, (hcreated ..).mpr hmem, ht⟩
  revoked r hr := by
    rcases Table.mem_insert.mp hr with rfl | ⟨hr, hne⟩
    · rw [hid]
      exact hself
    · rw [hks.revoked r hr, hothers]
      rw [← hid]
      exact hne
  kept keyId p t hmem := by
    obtain ⟨r, hr, rfl, rfl, ht⟩ := hks.kept keyId p t ((hcreated ..).mp hmem)
    by_cases he : r.keyId = k.keyId
    · have hrk := Table.eq_of_key hr hk he
      subst hrk
      exact ⟨k', Table.mem_insert.mpr (.inl rfl), hid, hprincipal, hhash.trans ht⟩
    · exact ⟨r, Table.mem_insert.mpr (.inr ⟨hr, by rwa [hid]⟩), rfl, rfl, ht⟩

omit hks

theorem Indexed.create (hindex : Indexed ks index) (hother : ∀ r ∈ ks.rows, r.keyHash ≠ k.keyHash) :
    Indexed (ks.insert k) (index.set k.keyHash k.keyId) := by
  intro r hr hlive
  rcases Table.mem_insert.mp hr with rfl | ⟨hr, -⟩
  · exact Dict.lookup_set_self _ _ _
  · rw [Dict.lookup_set_of_ne (hother r hr).symm]
    exact hindex r hr hlive

theorem Indexed.touch (hindex : Indexed ks index) (hk : k ∈ ks.rows) (hid : k'.keyId = k.keyId) (hhash : k'.keyHash = k.keyHash)
    (hrevoked : k'.isRevoked = k.isRevoked) : Indexed (ks.insert k') index := by
  intro r hr hlive
  rcases Table.mem_insert.mp hr with rfl | ⟨hr, -⟩
  · rw [hid, hhash]
    exact hindex k hk (hrevoked ▸ hlive)
  · exact hindex r hr hlive

theorem Indexed.revoke (hindex : Indexed ks index) (hrevoked : k'.isRevoked = true)
    (hother : ∀ r ∈ ks.rows, r.keyId ≠ k'.keyId → r.keyHash ≠ k'.keyHash) : Indexed (ks.insert k') (index.erase k'.keyHash) := by
  intro r hr hlive
  rcases Table.mem_insert.mp hr with rfl | ⟨hr, hne⟩
  · simp [hrevoked] at hlive
  · rw [Dict.lookup_erase, if_neg (hother r hr hne)]
    exact hindex r hr hlive

theorem indexed_ofList (hunique : ∀ r ∈ ks.rows, ∀ r' ∈ ks.rows, r.keyHash = r'.keyHash → r = r') :
    Indexed ks (Dict.ofList (ks.rows.map fun k => (k.keyHash, k.keyId))) := by
  intro r hr _
  have hin : (r.keyHash, r.keyId) ∈ ks.rows.map fun k => (k.keyHash, k.keyId) := List.mem_map.mpr ⟨r, hr, rfl⟩
  apply Dict.lookup_insertAll_of_mem hin
  intro keyId hmem
  obtain ⟨r', hr', he⟩ := List.mem_map.mp hmem
  obtain ⟨hhash, rfl⟩ := Prod.mk.inj he
  rw [hunique r' hr' r hr hhash]

end Keys

/-! ## The store -/

/-- The tables and the index in memory show the history. -/
structure InMemory (hashToken : String → String) (h : History) (s : AuthStore) : Prop where
  wellFormed : WellFormed h
  principals : PrincipalsOf h s.principals
  keys : KeysOf hashToken h s.keys
  index : Indexed s.keys s.keysByHash

/-- The files hold tables that show the history. -/
def Stored (hashToken : String → String) (h : History) (dir : AuthData) : Prop :=
  ∃ (ps : Table Principal.id) (ks : Table ApiKey.keyId), dir.principals = some (.list (ps.rows.map Principal.modelDump)) ∧
    dir.apiKeys = some (.list (ks.rows.map ApiKey.modelDump)) ∧ PrincipalsOf h ps ∧ KeysOf hashToken h ks

structure Faithful (hashToken : String → String) (h : History) (s : AuthStore) : Prop extends InMemory hashToken h s where
  stored : Stored hashToken h s.dir

section Store

variable {s s' : AuthStore} {token now : String}

theorem InMemory.persist (hm : InMemory hashToken h s) : Faithful hashToken h s.persistPrincipals.persistKeys :=
  ⟨⟨hm.wellFormed, hm.principals, hm.keys, hm.index⟩, s.principals, s.keys, rfl, rfl, hm.principals, hm.keys⟩

theorem InMemory.empty (dir : AuthData) : InMemory hashToken [] { dir } where
  wellFormed := .nil
  principals := ⟨fun _ => rfl, by simp⟩
  keys := ⟨by simp, by simp, by simp⟩
  index _ hk := nomatch hk

theorem InMemory.addPrincipal (hm : InMemory hashToken h s) {p : Principal} (hconfined : p.role = .admin ↔ p.namespaces = none)
    (henabled : p.isDisabled = false) :
    InMemory hashToken (.principalCreated p.id p.role.text p.namespaces :: h) (s.addPrincipal p) where
  wellFormed := hm.wellFormed.principalCreated _ _ _
  principals := hm.principals.created hconfined henabled
  keys := hm.keys.congr (by simp) (by simp)
  index := hm.index

theorem InMemory.addKey (hm : InMemory hashToken h s) (hinj : Function.Injective hashToken) {principalId : String} (name : String)
    (howner : (standing h principalId).isSome) (hfresh : ∀ k p t, .keyCreated k p t ∈ h → k ≠ g.keyId ∧ t ≠ token)
    (hmarked : Text.startsWith token tokenPrefix = true) :
    InMemory hashToken (.keyCreated g.keyId principalId token :: h) (s.addKey (AuthStore.issue hashToken g principalId token name)) where
  wellFormed := hm.wellFormed.keyCreated howner (fun k p hmem => (hfresh k p token hmem).2 rfl) hmarked
  principals := hm.principals.congr fun _ => rfl
  keys := by
    apply KeysOf.create (k := AuthStore.issue hashToken g principalId token name) hm.keys hm.wellFormed rfl rfl
    exact fun p t hmem => (hfresh _ p t hmem).1 rfl
  index := by
    apply hm.index.create
    intro r hr hhash
    obtain ⟨t, hmem, ht⟩ := hm.keys.issued r hr
    exact (hfresh _ _ t hmem).2 (hinj (ht.symm.trans hhash))

theorem Stored.congr {dir : AuthData} (hs : Stored hashToken h dir) (hstanding : ∀ q, standing h' q = standing h q)
    (hcreated : ∀ k p t, .keyCreated k p t ∈ h' ↔ .keyCreated k p t ∈ h) (hrevoked : ∀ k, .keyRevoked k ∈ h' ↔ .keyRevoked k ∈ h) :
    Stored hashToken h' dir := by
  obtain ⟨ps, ks, hp, hk, hps, hks⟩ := hs
  exact ⟨ps, ks, hp, hk, hps.congr hstanding, hks.congr hcreated hrevoked⟩

theorem InMemory.persistPrincipals (hm : InMemory hashToken h' s) (hs : Stored hashToken h s.dir)
    (hcreated : ∀ k p t, .keyCreated k p t ∈ h' ↔ .keyCreated k p t ∈ h) (hrevoked : ∀ k, .keyRevoked k ∈ h' ↔ .keyRevoked k ∈ h) :
    Faithful hashToken h' s.persistPrincipals := by
  obtain ⟨-, ks, -, hk, -, hks⟩ := hs
  exact ⟨⟨hm.wellFormed, hm.principals, hm.keys, hm.index⟩, s.principals, ks, rfl, hk, hm.principals, hks.congr hcreated hrevoked⟩

theorem InMemory.persistKeys (hm : InMemory hashToken h' s) (hs : Stored hashToken h s.dir)
    (hstanding : ∀ q, standing h' q = standing h q) : Faithful hashToken h' s.persistKeys := by
  obtain ⟨ps, -, hp, -, hps, -⟩ := hs
  exact ⟨⟨hm.wellFormed, hm.principals, hm.keys, hm.index⟩, ps, s.keys, hp, rfl, hps.congr hstanding, hm.keys⟩

theorem startsWith_token (g : Generated) : Text.startsWith g.token tokenPrefix = true := by
  simp [Text.startsWith, Generated.token, generateToken]

theorem InMemory.enrol (hm : InMemory hashToken h s) (hinj : Function.Injective hashToken) {p : Principal} (name : String)
    (hconfined : p.role = .admin ↔ p.namespaces = none) (henabled : p.isDisabled = false)
    (hfresh : ∀ k p t, .keyCreated k p t ∈ h → k ≠ g.keyId ∧ t ≠ token) (hmarked : Text.startsWith token tokenPrefix = true) :
    Faithful hashToken (.keyCreated g.keyId p.id token :: .principalCreated p.id p.role.text p.namespaces :: h)
      ((s.addPrincipal p).addKey (AuthStore.issue hashToken g p.id token name)).persistPrincipals.persistKeys := by
  apply InMemory.persist
  apply (hm.addPrincipal hconfined henabled).addKey hinj name
  · simp [standing]
  · intro k q t hmem
    exact hfresh k q t ((List.mem_cons.mp hmem).resolve_left fun he => nomatch he)
  · exact hmarked

theorem fresh_of_avoids (hfresh : ∀ e ∈ h, e.Avoids g) : ∀ k p t, .keyCreated k p t ∈ h → k ≠ g.keyId ∧ t ≠ g.token :=
  fun _ _ _ hmem => hfresh _ hmem

variable (hf : Faithful hashToken h s)
include hf

theorem Faithful.updatePrincipal {principalId : String} {namespaces : Option (Option (List String))}
    {role note : Option String} {disabled : Option Bool} {p : Principal}
    (hok : s.updatePrincipal principalId namespaces role disabled note now = .ok (s', p)) :
    Faithful hashToken (.principalUpdated principalId role namespaces disabled :: h) s' := by
  obtain ⟨old, hget, hid, hrole, hns, hdisabled, hconfined, rfl⟩ := AuthStore.updatePrincipal_eq_ok hok
  have hprincipal : p.id = principalId := hid.trans (Table.key_of_get? hget)
  subst hprincipal
  have hp : p.standing = old.standing.update role namespaces disabled := by
    simp only [Principal.standing, Standing.update, hrole, hns, hdisabled]
  have hm : InMemory hashToken (.principalUpdated p.id role namespaces disabled :: h) (s.addPrincipal p) :=
    ⟨hf.wellFormed.principalUpdated _ _ _ _, hf.principals.updated hget hconfined hp, hf.keys.congr (by simp) (by simp), hf.index⟩
  exact hm.persistPrincipals hf.stored (by simp) (by simp)

theorem Faithful.createKey (hinj : Function.Injective hashToken) (hfresh : ∀ e ∈ h, e.Avoids g)
    {principalId name : String} {k : ApiKey} (hok : s.createKey hashToken principalId name g = .ok (s', k, token)) :
    Faithful hashToken (.keyCreated k.keyId principalId token :: h) s' := by
  obtain ⟨howner, rfl, rfl, rfl⟩ := AuthStore.createKey_eq_ok hok
  refine InMemory.persistKeys ?_ hf.stored (by simp [standing])
  refine hf.toInMemory.addKey hinj name ?_ (fresh_of_avoids hfresh) (startsWith_token g)
  rw [hf.principals.known]
  simpa using howner

theorem Faithful.revokeKey (hinj : Function.Injective hashToken) {keyId : String} {k : ApiKey}
    (hok : s.revokeKey keyId now = .ok (s', k)) : Faithful hashToken (.keyRevoked keyId :: h) s' := by
  obtain ⟨old, hget, hcase⟩ := AuthStore.revokeKey_eq_ok hok
  obtain ⟨hmem, rfl⟩ := Table.get?_eq_some.mp hget
  obtain ⟨t, hcreated, -⟩ := hf.keys.issued old hmem
  have hw : WellFormed (.keyRevoked old.keyId :: h) := hf.wellFormed.keyRevoked hcreated
  rcases hcase with ⟨hrevoked, rfl⟩ | rfl
  · have hagain : ∀ k, Event.keyRevoked k ∈ .keyRevoked old.keyId :: h ↔ .keyRevoked k ∈ h := by
      intro k
      have hin := (hf.keys.revoked old hmem).mp hrevoked
      simp only [List.mem_cons, Event.keyRevoked.injEq]
      exact ⟨fun hk => hk.elim (fun he => he ▸ hin) id, .inr⟩
    exact ⟨⟨hw, hf.principals.congr fun _ => rfl, hf.keys.congr (by simp) hagain, hf.index⟩,
      hf.stored.congr (fun _ => rfl) (by simp) hagain⟩
  · refine InMemory.persistKeys ⟨hw, hf.principals.congr fun _ => rfl, ?_, ?_⟩ hf.stored fun _ => rfl
    · apply KeysOf.replace hf.keys hmem
      · rfl
      · rfl
      · rfl
      · simp
      · simp [ApiKey.isRevoked]
      · intro keyId hne
        simp [hne]
    · apply Indexed.revoke hf.index
      · rfl
      · intro r hr hne hhash
        have hsame : r = old := hf.keys.eq_of_hash hf.wellFormed hinj hr hmem hhash
        subst hsame
        exact hne rfl

theorem Faithful.authenticate {ctx : AuthContext}
    (hok : s.authenticate hashToken token now = .ok (s', ctx)) : Faithful hashToken h s' := by
  obtain ⟨-, -, keyId, key, p, -, hget, -, -, -, -, rfl, -⟩ := AuthStore.authenticate_eq_ok.mp hok
  obtain ⟨hmem, rfl⟩ := Table.get?_eq_some.mp hget
  refine ⟨⟨hf.wellFormed, hf.principals, ?_, ?_⟩, hf.stored⟩
  · exact hf.keys.replace hmem rfl rfl rfl (fun _ _ _ => Iff.rfl) (hf.keys.revoked key hmem) fun _ _ => Iff.rfl
  · exact hf.index.touch hmem rfl rfl rfl

omit hf

theorem Stored.load {dir : AuthData} (hs : Stored hashToken h dir) (hw : WellFormed h) (hinj : Function.Injective hashToken) :
    ∃ s, AuthStore.loadFromDisk dir = some s ∧ Faithful hashToken h s := by
  obtain ⟨ps, ks, hp, hk, hps, hks⟩ := hs
  have hpload : AuthStore.loadRows Principal.parse (.list (ps.rows.map Principal.modelDump)) = some ps.rows := by
    rw [AuthStore.loadRows, Json.asList_list]
    exact Json.mapM_map Principal.parse_modelDump _
  have hkload : AuthStore.loadRows ApiKey.parse (.list (ks.rows.map ApiKey.modelDump)) = some ks.rows := by
    rw [AuthStore.loadRows, Json.asList_list]
    exact Json.mapM_map ApiKey.parse_modelDump _
  refine ⟨{ dir, principals := ps, keys := ks, keysByHash := Dict.ofList (ks.rows.map fun k => (k.keyHash, k.keyId)) }, ?_, ?_⟩
  · simp [AuthStore.loadFromDisk, hp, hk, hpload, hkload, Table.insertAll_self]
  · refine ⟨⟨hw, hps, hks, indexed_ofList ?_⟩, ps, ks, hp, hk, hps, hks⟩
    exact fun r hr r' hr' => hks.eq_of_hash hw hinj hr hr'

end Store

/-! ## Authentication -/

/-- The history accepts a token for a caller: it was issued with a key of the caller that was never revoked, and
the caller stands as given and is not disabled. -/
def Accepts (h : History) (token : String) (ctx : AuthContext) : Prop :=
  ∃ keyId, .keyCreated keyId ctx.principalId token ∈ h ∧ .keyRevoked keyId ∉ h ∧
    standing h ctx.principalId = some ⟨ctx.role.text, ctx.namespaces, false⟩

theorem Role.text_injective : Function.Injective Role.text := by
  intro a b h
  have := congrArg Role.parse h
  simpa using this

theorem InMemory.authenticate_iff {s : AuthStore} {token now : String} {ctx : AuthContext} (hm : InMemory hashToken h s)
    (hinj : Function.Injective hashToken) : (∃ s', s.authenticate hashToken token now = .ok (s', ctx)) ↔ Accepts h token ctx := by
  constructor
  · rintro ⟨s', hok⟩
    obtain ⟨-, -, keyId, key, p, -, hget, hp, hhash, hlive, henabled, -, rfl⟩ := AuthStore.authenticate_eq_ok.mp hok
    obtain ⟨hmem, -⟩ := Table.get?_eq_some.mp hget
    obtain ⟨t, hcreated, ht⟩ := hm.keys.issued key hmem
    have htoken : t = token := hinj (ht.symm.trans hhash)
    have hid : p.id = key.principalId := Table.key_of_get? hp
    change Accepts h token p.toContext
    refine ⟨key.keyId, ?_, ?_, ?_⟩
    · rw [Principal.toContext, hid, ← htoken]
      exact hcreated
    · rw [← hm.keys.revoked key hmem]
      simp [hlive]
    · rw [Principal.toContext, hid, hm.principals.known, hp]
      simp [Principal.standing, henabled]
  · rintro ⟨keyId, hcreated, hlive, hstanding⟩
    obtain ⟨k, hmem, rfl, hprincipal, hhash⟩ := hm.keys.kept _ _ _ hcreated
    have hunrevoked : k.isRevoked = false := by
      rw [← Bool.not_eq_true, hm.keys.revoked k hmem]
      exact hlive
    rw [hm.principals.known] at hstanding
    obtain ⟨p, hp, hshown⟩ := Option.map_eq_some_iff.mp hstanding
    have hid : p.id = ctx.principalId := Table.key_of_get? hp
    simp only [Principal.standing, Standing.mk.injEq] at hshown
    obtain ⟨hrole, hns, henabled⟩ := hshown
    have hmarked := hm.wellFormed.marked _ _ _ hcreated
    refine ⟨_, AuthStore.authenticate_eq_ok.mpr ⟨?_, hmarked, k.keyId, k, p, ?_, Table.mem_iff_get?.mp hmem, ?_, hhash,
      hunrevoked, henabled, rfl, ?_⟩⟩
    · rintro rfl
      exact absurd hmarked (by decide)
    · rw [← hhash]
      exact hm.index k hmem hunrevoked
    · rw [hprincipal]
      exact hp
    · cases ctx
      simp only [AuthContext.mk.injEq, Principal.toContext]
      exact ⟨hid.symm, (Role.text_injective hrole).symm, hns.symm⟩

namespace World

variable (hashToken) in
/-- Either nothing happened yet, or the store and its files show the history. -/
def Invariant (w : World) : Prop :=
  match w.server with
  | .uninitialized dir => dir.principals = none ∧ w.history = []
  | .running s => Faithful hashToken w.history s

variable {w : World}

variable {sv : Server} (hI : Invariant hashToken ⟨sv, h⟩) (hinj : Function.Injective hashToken)
include hI hinj

theorem Invariant.reload : Invariant hashToken ⟨sv.reload, h⟩ := by
  cases sv with
  | uninitialized dir =>
    have hnone : AuthStore.loadFromDisk dir = none := by simp [AuthStore.loadFromDisk, hI.1]
    simpa [Invariant, Server.reload, Server.dir, hnone] using hI
  | running s =>
    have hf : Faithful hashToken h s := hI
    obtain ⟨s', hload, hf'⟩ := hf.stored.load hf.wellFormed hinj
    simpa [Invariant, Server.reload, Server.dir, hload] using hf'

theorem Invariant.bootstrap {adminToken : Option String} {adminHandle token : String} {s : AuthStore}
    (hok : AuthStore.bootstrap hashToken sv.dir adminToken adminHandle g = .ok (s, token)) :
    Faithful hashToken (.keyCreated g.keyId g.principalId token :: .principalCreated g.principalId "admin" none :: h) s := by
  obtain ⟨hnone, hmarked, p, hid, hrole, hns, henabled, rfl⟩ := AuthStore.bootstrap_eq_ok hok
  have hempty : h = [] := by
    cases sv with
    | uninitialized dir => exact hI.2
    | running s =>
      -- A running server has written its principals, so it cannot be set up again.
      have hf : Faithful hashToken h s := hI
      obtain ⟨ps, -, hps, -⟩ := hf.stored
      exact absurd (hps.symm.trans hnone) (by simp)
  subst hempty
  have hnew : InMemory hashToken [] { dir := sv.dir } := .empty sv.dir
  have henrol := hnew.enrol (g := g) hinj "bootstrap" (p := p) (by simp [hrole, hns]) henabled (by simp) hmarked
  rw [hid, hrole, hns] at henrol
  rw [hid]
  exact henrol

omit hI hinj

theorem faithful_onStore {s s' : AuthStore} {events : History} {c : Call} (hf : Faithful hashToken h s)
    (hinj : Function.Injective hashToken) (hfresh : Fresh ⟨.running s, h⟩ c) (hok : Server.onStore hashToken s c = .ok (s', events)) :
    Faithful hashToken (events ++ h) s' := by
  cases c with
  | createPrincipal handle role namespaces note g =>
    obtain ⟨⟨s₁, p, token⟩, hcall, he⟩ := map_eq_ok.mp hok
    obtain ⟨rfl, rfl⟩ := Prod.mk.inj he
    obtain ⟨rfl, rfl, hconfined, henabled, -, rfl, rfl⟩ := AuthStore.createPrincipal_eq_ok hcall
    exact hf.toInMemory.enrol hinj "initial" hconfined henabled (fresh_of_avoids hfresh) (startsWith_token g)
  | updatePrincipal principalId namespaces role disabled note now =>
    obtain ⟨⟨s₁, p⟩, hcall, he⟩ := map_eq_ok.mp hok
    obtain ⟨rfl, rfl⟩ := Prod.mk.inj he
    exact hf.updatePrincipal hcall
  | createKey principalId name g =>
    obtain ⟨⟨s₁, k, token⟩, hcall, he⟩ := map_eq_ok.mp hok
    obtain ⟨rfl, rfl⟩ := Prod.mk.inj he
    exact hf.createKey hinj hfresh hcall
  | revokeKey keyId now =>
    obtain ⟨⟨s₁, k⟩, hcall, he⟩ := map_eq_ok.mp hok
    obtain ⟨rfl, rfl⟩ := Prod.mk.inj he
    exact hf.revokeKey hinj hcall
  | authenticate token now =>
    cases hcall : s.authenticate hashToken token now with
    | error reason => simp [Server.onStore, hcall, Except.map, Except.mapError] at hok
    | ok r =>
      obtain ⟨s₁, ctx⟩ := r
      simp only [Server.onStore, hcall, Except.map, Except.mapError, Except.ok.injEq, Prod.mk.injEq] at hok
      obtain ⟨rfl, rfl⟩ := hok
      exact hf.authenticate hcall
  | bootstrap | reload =>
    cases hok
    exact hf

theorem Invariant.step (hI : Invariant hashToken w) (hinj : Function.Injective hashToken) {c : Call} (hfresh : Fresh w c) :
    Invariant hashToken (World.step hashToken w c) := by
  obtain ⟨sv, h⟩ := w
  cases c with
  | reload => exact hI.reload hinj
  | bootstrap adminToken adminHandle g =>
    unfold World.step
    dsimp only
    split
    · exact hI
    · rename_i hok
      exact hI.bootstrap hinj hok
  | createPrincipal | updatePrincipal | createKey | revokeKey | authenticate =>
    unfold World.step
    dsimp only
    cases sv with
    | uninitialized dir => exact hI
    | running s =>
      dsimp only
      split
      · exact hI
      · rename_i hok
        exact faithful_onStore hI hinj hfresh hok

/-- A provider is made an administrator, one of its keys is revoked, and the server is started again in between. -/
def exampleCalls : List Call :=
  [.bootstrap none "root" ⟨"00", "r", "00", "t0"⟩, .createPrincipal "ann" "provider" (some ["ds"]) "" ⟨"01", "a", "01", "t1"⟩,
    .reload, .createKey "u_01" "laptop" ⟨"", "b", "02", "t2"⟩, .revokeKey "k_01" "t3", .reload,
    .updatePrincipal "u_01" (some none) (some "admin") (some true) none "t4", .authenticate "a2x_pat_b" "t5",
    .updatePrincipal "u_01" none none (some false) none "t6", .reload]

deriving instance DecidableEq for AuthContext

example :
    let w := run (World.step id) ⟨.uninitialized {}, []⟩ exampleCalls
    w.server.authenticate id "a2x_pat_a" "t7" = none ∧
      w.server.authenticate id "a2x_pat_b" "t7" = some { principalId := "u_01", role := .admin } := by decide +kernel

end World

end AgentProtocol.Auth
