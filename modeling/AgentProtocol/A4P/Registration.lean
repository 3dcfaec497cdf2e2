-- SUMMARY: Runs of credential registrations: whom a registration touches, and how many users a key may have.
import AgentProtocol.A4P.Credentials

/-!
# Registration

Requests of all users come in any order, for both methods. A WebAuthn registration replaces whatever
is stored under the id that the authenticator names, and the authenticator is the user's own.
-/

namespace AgentProtocol.A4P

open Lib

structure CredentialServer where
  store : CredentialStore := ∅
  challenges : RegistrationChallenges := ∅
  /-- The Ed25519 keys that were registered, and their users; nothing reads them. -/
  registered : List (String × String) := []

namespace CredentialServer

inductive Event where
  | registerEd25519 (request : Fields) (token : String) (now : ℚ)
  /-- `registration_options`, with the random part of the id. -/
  | registrationOptions (userId token : String) (challenge : List UInt8)
  | verifyRegistration (payload : Fields) (now : ℚ)
  | ed25519Verify (context : UserSignatureContext) (signature : Fields)
  | webauthnVerify (context : UserSignatureContext) (signature : Fields)
  /-- The store is kept, the challenges are not. -/
  | restart

variable (c : CredentialSetup) (s : CredentialServer)

/-- The key of a registration that created a credential, and its user. -/
def created (request : Fields) : Except RegistrationError Registered → List (String × String)
  | .ok { created := true, credential } =>
    ((normalizePublicJwk c.printer (request.get? "publicKey")).toOption.map fun x => (x, credential.userId)).toList
  | _ => []

def step (s : CredentialServer) : Event → CredentialServer
  | .registerEd25519 request token now =>
    let (result, store) := registerEd25519 c.printer s.store request token now
    { s with store, registered := created c request result ++ s.registered }
  | .registrationOptions userId token challenge =>
    { s with challenges := s.challenges.set ("webauthn_registration_" ++ token) (userId, challenge) }
  | .verifyRegistration payload now =>
    let (_, challenges, store) := A4P.verifyRegistration c s.challenges s.store payload now
    { s with challenges, store }
  | .ed25519Verify .. => s
  | .webauthnVerify context signature => { s with store := (A4P.webauthnVerify c s.store context signature).2 }
  | .restart => { s with challenges := ∅ }

def registeredUser : Event → Option String
  | .registerEd25519 request token now => (registerEd25519 c.printer s.store request token now).1.toOption.map (·.credential.userId)
  | .verifyRegistration payload now => (A4P.verifyRegistration c s.challenges s.store payload now).1.toOption.map (·.userId)
  | _ => none

abbrev Registers (user : String) (e : Event) : Prop := registeredUser c s e = some user

/-- The credentials of other users stay as they are. -/
def OthersKept (user : String) (e : Event) : Prop :=
  ∀ k r, s.store.get? k = some r → r.userId ≠ user → (step c s e).store.get? k = some r

/-- The event completes a WebAuthn registration with the id of a credential that is there. -/
def Takes (P : String → UserCredentialRecord → Prop) : Event → Prop
  | .verifyRegistration payload _ => match readWebauthn c s.challenges payload with
    | .ok (userId, _, verified) => ∃ r ∈ s.store.get? (b64urlEncode verified.credentialId), P userId r
    | .error _ => False
  | _ => False

instance (P : String → UserCredentialRecord → Prop) [∀ userId r, Decidable (P userId r)] : (e : Event) → Decidable (Takes c s P e)
  | .verifyRegistration payload _ => by
    unfold Takes
    dsimp only
    split <;> infer_instance
  | .registerEd25519 .. => inferInstanceAs (Decidable False)
  | .registrationOptions .. => inferInstanceAs (Decidable False)
  | .ed25519Verify .. => inferInstanceAs (Decidable False)
  | .webauthnVerify .. => inferInstanceAs (Decidable False)
  | .restart => inferInstanceAs (Decidable False)

abbrev TakesOther (e : Event) : Prop := Takes c s (fun userId r => r.userId ≠ userId) e

/-- The id is that of another user's credential, or of an Ed25519 credential. -/
abbrev TakesKey (e : Event) : Prop := Takes c s (fun userId r => r.userId ≠ userId ∨ r.signatureMethod = ed25519SignatureMethod) e

/-- The random part of a new id was not drawn before. -/
def Fresh : Event → Prop
  | .registerEd25519 _ token _ => s.store.get? ("cred_" ++ token) = none
  | _ => True

variable {c} {s}

/-! ## One registration -/

theorem toOption_map_eq_some {ε α β : Type} {x : Except ε α} {f : α → β} {b : β} :
    x.toOption.map f = some b ↔ ∃ a, x = .ok a ∧ f a = b := by
  cases x <;> simp [Except.toOption]

theorem eq_publicJwk (x y : String) : (Value.obj (publicJwk x)).eq (.obj (publicJwk y)) = decide (x = y) := by
  simp [publicJwk, Fields.ofList, Value.eq, Value.eqFields, Fields.get?, Fields.toList]

theorem registerEd25519_cases (store : CredentialStore) (request : Fields) (token : String) (now : ℚ) :
    (∃ e, registerEd25519 c.printer store request token now = (.error e, store)) ∨
      (∃ r, registerEd25519 c.printer store request token now = (.ok { created := false, credential := r }, store)) ∨
      ∃ x r, normalizePublicJwk c.printer (request.get? "publicKey") = .ok x ∧ r.credentialId = "cred_" ++ token ∧
        r.signatureMethod = ed25519SignatureMethod ∧ r.publicKey = publicJwk x ∧
        (∀ r' ∈ store.rows, r'.signatureMethod = ed25519SignatureMethod → r'.publicKey ≠ publicJwk x) ∧
        registerEd25519 c.printer store request token now = (.ok { created := true, credential := r }, store.insert r) := by
  unfold registerEd25519
  split
  · exact .inl ⟨_, rfl⟩
  · rename_i userId x metadata hread
    split
    · split
      · exact .inl ⟨_, rfl⟩
      · exact .inr (.inl ⟨_, rfl⟩)
    · rename_i hnone
      have hx : normalizePublicJwk c.printer (request.get? "publicKey") = .ok x := by
        unfold readRegistration at hread
        simp only [bind, Except.bind, pure, Except.pure] at hread
        split at hread
        · cases hread
        split at hread
        · cases hread
        rename_i x' hx
        split at hread
        · cases hread
        obtain ⟨-, rfl, -⟩ : userId = _ ∧ x' = x ∧ _ := by simpa [eq_comm] using hread
        exact hx
      refine .inr (.inr ⟨x, _, hx, rfl, rfl, rfl, fun r hr hmethod hkey => ?_, rfl⟩)
      have hno := List.find?_eq_none.mp hnone r hr
      rw [hmethod, hkey, eq_publicJwk] at hno
      simp at hno

theorem verifyRegistration_ok {payload : Fields} {now : ℚ} {r : UserCredentialRecord}
    (h : (A4P.verifyRegistration c s.challenges s.store payload now).1 = .ok r) :
    ∃ credential verified, readWebauthn c s.challenges payload = .ok (r.userId, credential, verified) ∧
      r.credentialId = b64urlEncode verified.credentialId ∧ r.signatureMethod = webauthnSignatureMethod ∧
      (step c s (.verifyRegistration payload now)).store = s.store.insert r := by
  unfold A4P.verifyRegistration at h
  split at h
  · cases h
  rename_i userId credential verified hread
  obtain rfl := Except.ok.inj h
  refine ⟨credential, verified, hread, rfl, rfl, ?_⟩
  simp only [step, A4P.verifyRegistration, hread]

theorem othersKept_iff {user : String} {e : Event} (hfresh : Fresh s e) (h : Registers c s user e) :
    OthersKept c s user e ↔ ¬ TakesOther c s e := by
  cases e with
  | registerEd25519 request token now =>
    refine iff_of_true (fun k r hget _ => ?_) not_false
    have hcases := registerEd25519_cases (c := c) s.store request token now
    rcases hcases with ⟨e, he⟩ | ⟨r', hr'⟩ | ⟨x, r', -, hid, -, -, -, hr'⟩
    · simp only [step, he, hget]
    · simp only [step, hr', hget]
    · -- the new id was free
      simp only [step, hr']
      rw [Table.get?_insert_of_ne, hget]
      intro hk
      rw [hid] at hk
      rw [← hk, hfresh] at hget
      cases hget
  | verifyRegistration payload now =>
    obtain ⟨r, hr, rfl⟩ := toOption_map_eq_some.mp h
    obtain ⟨credential, verified, hread, hid, -, hstore⟩ := verifyRegistration_ok hr
    have htakes : TakesOther c s (.verifyRegistration payload now) ↔
        ∃ r' ∈ s.store.get? r.credentialId, r'.userId ≠ r.userId := by
      simp only [TakesOther, Takes, hread, hid]
    rw [htakes]
    constructor
    · rintro hkept ⟨r', hget, hne⟩
      have hself := hkept r.credentialId r' hget hne
      rw [hstore, Table.get?_insert_self] at hself
      exact hne (congrArg _ (Option.some.inj hself).symm)
    · intro hnone k r' hget hne
      rw [hstore, Table.get?_insert_of_ne, hget]
      rintro rfl
      exact hnone ⟨r', hget, hne⟩
  | registrationOptions | ed25519Verify | webauthnVerify | restart => cases h

/-! ## One user for a key -/

/-- Every key that was registered is stored for its user, and for no one else. -/
structure Keys (s : CredentialServer) : Prop where
  stored : ∀ q ∈ s.registered, ∃ r ∈ s.store.rows,
    r.signatureMethod = ed25519SignatureMethod ∧ r.publicKey = publicJwk q.1 ∧ r.userId = q.2
  one : ∀ x u u', (x, u) ∈ s.registered → (x, u') ∈ s.registered → u = u'

theorem mem_insert_of_ne {store : CredentialStore} {r r' : UserCredentialRecord} (hmem : r' ∈ store.rows)
    (hne : r'.credentialId ≠ r.credentialId) : r' ∈ (store.insert r).rows := Table.mem_insert.mpr (.inr ⟨hmem, hne⟩)

theorem Keys.insert (h : Keys s) {r : UserCredentialRecord} {challenges : RegistrationChallenges}
    (hfree : ∀ r' ∈ s.store.get? r.credentialId, r'.signatureMethod ≠ ed25519SignatureMethod) :
    Keys { s with store := s.store.insert r, challenges } where
  stored q hq := by
    obtain ⟨r', hmem, hmethod, hrest⟩ := h.stored q hq
    refine ⟨r', mem_insert_of_ne hmem fun hid => ?_, hmethod, hrest⟩
    have hget := Table.mem_iff_get?.mp hmem
    rw [hid] at hget
    exact hfree r' hget hmethod
  one := h.one

theorem Keys.step (h : Keys s) {e : Event} (hfresh : Fresh s e) (htakes : ¬ TakesKey c s e) : Keys (step c s e) := by
  cases e with
  | registerEd25519 request token now =>
    have hcases := registerEd25519_cases (c := c) s.store request token now
    rcases hcases with ⟨e, he⟩ | ⟨r, hr⟩ | ⟨x, r, hx, hid, hmethod, hkey, hnew, hr⟩
    · simpa only [CredentialServer.step, he, created, List.nil_append] using h
    · simpa only [CredentialServer.step, hr, created, List.nil_append] using h
    · have hcreated : created c request (.ok { created := true, credential := r }) = [(x, r.userId)] := by
        simp [created, hx, Except.toOption]
      simp only [CredentialServer.step, hr, hcreated, List.singleton_append]
      have hold : ∀ u, (x, u) ∉ s.registered := by
        intro u hu
        obtain ⟨r', hmem, hmethod', hkey', -⟩ := h.stored _ hu
        exact hnew r' hmem hmethod' hkey'
      refine ⟨fun q hq => ?_, fun y u u' hu hu' => ?_⟩
      · rcases List.mem_cons.mp hq with rfl | hq
        · exact ⟨r, Table.mem_insert.mpr (.inl rfl), hmethod, hkey, rfl⟩
        · obtain ⟨r', hmem, hrest⟩ := h.stored q hq
          refine ⟨r', mem_insert_of_ne hmem fun heq => ?_, hrest⟩
          have hget := Table.mem_iff_get?.mp hmem
          rw [heq, hid, hfresh] at hget
          cases hget
      · rcases List.mem_cons.mp hu with heq | hu <;> rcases List.mem_cons.mp hu' with heq' | hu'
        · rw [(Prod.mk.inj heq).2, (Prod.mk.inj heq').2]
        · rw [(Prod.mk.inj heq).1] at hu'
          exact absurd hu' (hold _)
        · rw [(Prod.mk.inj heq').1] at hu
          exact absurd hu (hold _)
        · exact h.one y u u' hu hu'
  | verifyRegistration payload now =>
    cases hread : readWebauthn c s.challenges payload with
    | error message =>
      simp only [CredentialServer.step, A4P.verifyRegistration, hread]
      exact ⟨h.stored, h.one⟩
    | ok q =>
      obtain ⟨userId, credential, verified⟩ := q
      simp only [CredentialServer.step, A4P.verifyRegistration, hread]
      apply h.insert
      intro r' hget hmethod
      apply htakes
      simp only [TakesKey, Takes, hread]
      exact ⟨r', hget, .inr hmethod⟩
  | webauthnVerify context signature =>
    simp only [CredentialServer.step, A4P.webauthnVerify]
    split
    · exact h
    · rename_i r hfind
      split
      · exact h
      · apply h.insert
        intro r' hget hmethod
        -- what is verified is a WebAuthn credential
        obtain ⟨hfound, hwebauthn, -⟩ := findCredential_ok hfind
        have hid := Table.key_of_get? hfound
        have hself : s.store.get? r.credentialId = some r := by rw [hid, hfound]
        obtain rfl := Option.some.inj (hself.symm.trans hget)
        rw [hwebauthn] at hmethod
        exact absurd hmethod (by decide)
  | registrationOptions | restart => exact ⟨h.stored, h.one⟩
  | ed25519Verify context signature => exact h

/-- In every run, a registration leaves the credentials of other users alone iff it does not take the
id of one; and where none takes the id of another user's or of an Ed25519 credential, no Ed25519 key
is ever registered to two users. -/
theorem registrations_apart (c : CredentialSetup) (events : List Event) (hfresh : Along (CredentialServer.step c) Fresh {} events) :
    Along (CredentialServer.step c) (fun s e => ∀ user, Registers c s user e → (OthersKept c s user e ↔ ¬ TakesOther c s e)) {} events ∧
      (Along (CredentialServer.step c) (fun s e => ¬ TakesKey c s e) {} events →
        ∀ x u u', (x, u) ∈ (run (CredentialServer.step c) {} events).registered →
          (x, u') ∈ (run (CredentialServer.step c) {} events).registered → u = u') := by
  constructor
  · apply hfresh.imp (I := fun _ => True) trivial
    · exact fun s e _ _ => trivial
    · exact fun s e _ he user hregisters => othersKept_iff he hregisters
  · intro htakes
    have hinit : Keys {} := { stored := by rintro q ⟨⟩, one := by rintro x u u' ⟨⟩ }
    have hkeys := (hfresh.and htakes).invariant hinit fun s e hs he => hs.step he.1 he.2
    exact hkeys.one

/-! ### Two users -/

/-- A library that takes the id in a credential at its word. -/
def plainWebAuthn : WebAuthnLibrary where
  verifyRegistrationResponse credential _ _ _ := match credential.get? "id" with
    | some (.int n) => .ok { credentialId := [UInt8.ofNat n.toNat], credentialPublicKey := [], signCount := 0, aaguid := "", fmt := "none"
                             credentialDeviceType := "single_device", credentialBackedUp := false }
    | _ => .error "no id"
  verifyAuthenticationResponse _ _ _ _ _ signCount := .ok { userVerified := true, newSignCount := signCount + 1 }

def plainCredentials : CredentialSetup where
  printer := { float := Value.fractionText, str := fun _ => "" }
  verifyText _ _ signature := signature = "sig"
  webauthn := plainWebAuthn
  rpId := "localhost"
  expectedOrigin := "http://localhost:8970"

def opens (user : String) : Event := .registrationOptions user user []

/-- The end of a WebAuthn registration, with the id of the credential. -/
def enrolls (user : String) (id : ℤ) : Event :=
  .verifyRegistration (.ofList [("userId", .str user), ("registrationRequestId", .str ("webauthn_registration_" ++ user)),
    ("credential", .obj (.ofList [("id", .int id)]))]) 0

/-- Alice has a credential, and Bob has begun to register one. -/
def enrolled : CredentialServer := run (CredentialServer.step plainCredentials) {} [opens "alice", enrolls "alice" 1, opens "bob"]

/-- Bob's own id leaves Alice's credential alone. -/
theorem registrations_apart_sample : OthersKept plainCredentials enrolled "bob" (enrolls "bob" 2) := by
  have hrun := registrations_apart plainCredentials [opens "alice", enrolls "alice" 1, opens "bob", enrolls "bob" 2]
    ⟨trivial, trivial, trivial, trivial, trivial⟩
  exact (hrun.1.2.2.2.1 "bob" (by decide +kernel)).mpr (by decide +kernel)

/-- With the id of Alice's credential, Bob's registration replaces it. -/
theorem registration_replaces : ¬ ∀ (c : CredentialSetup) (events : List Event), Along (CredentialServer.step c) Fresh {} events →
    Along (CredentialServer.step c) (fun s e => ∀ user, Registers c s user e → OthersKept c s user e) {} events := by
  intro h
  have hrun := h plainCredentials [opens "alice", enrolls "alice" 1, opens "bob", enrolls "bob" 1] ⟨trivial, trivial, trivial, trivial, trivial⟩
  have hregisters : Registers plainCredentials enrolled "bob" (enrolls "bob" 1) := by decide +kernel
  have htakes : TakesOther plainCredentials enrolled (enrolls "bob" 1) := by decide +kernel
  have hfresh : Fresh enrolled (enrolls "bob" 1) := trivial
  exact (othersKept_iff hfresh hregisters).mp (hrun.2.2.2.1 "bob" hregisters) htakes

end CredentialServer

end AgentProtocol.A4P
