-- SUMMARY: User credentials: the store, registration and verification by Ed25519 and WebAuthn, and whom a registration touches.
import AgentProtocol.A4P.Mandate
import AgentProtocol.Lib.Run
import AgentProtocol.Lib.Table

/-!
# User credentials

Both methods keep their credentials in one store, by credential id. An Ed25519 credential gets a
random id and a key that no other user has; a WebAuthn credential gets the id that the authenticator
names, whether it is taken or not.
-/

namespace AgentProtocol.A4P

open Lib

structure UserCredentialRecord where
  userId : String
  credentialId : String
  signatureMethod : String
  publicKey : Fields
  details : Fields := .nil
  metadata : Fields := .nil
  createdAt : String := ""

abbrev CredentialStore := Table UserCredentialRecord.credentialId

def CredentialStore.listForUser (store : CredentialStore) (userId : String) : List UserCredentialRecord :=
  store.rows.filter (·.userId = userId)

/-! ## What is not part of the repository -/

structure VerifiedRegistration where
  credentialId : List UInt8
  credentialPublicKey : List UInt8
  signCount : ℤ
  aaguid : String
  fmt : String
  credentialDeviceType : String
  credentialBackedUp : Bool

structure VerifiedAuthentication where
  userVerified : Bool
  newSignCount : ℤ

/-- The `webauthn` package. A stored key is passed as it is stored; errors come with their text. -/
structure WebAuthnLibrary where
  verifyRegistrationResponse : (credential : Fields) → (challenge : List UInt8) → (rpId origin : String) →
    Except String VerifiedRegistration
  verifyAuthenticationResponse : (credential : Fields) → (challenge : List UInt8) → (rpId origin publicKey : String) →
    (signCount : ℤ) → Except String VerifiedAuthentication

structure CredentialSetup where
  printer : Printer
  /-- `ed25519_verify_text`, with the key in base64url. -/
  verifyText : (publicKey text signature : String) → Bool
  webauthn : WebAuthnLibrary
  rpId : String
  expectedOrigin : String

/-! ## Base64 -/

def b64Alphabet : List Char := "ABCDEFGHIJKLMNOPQRSTUVWXYZabcdefghijklmnopqrstuvwxyz0123456789-_".toList

def b64Char (n : ℕ) : Char := b64Alphabet.getD n 'A'

def b64Chars : List UInt8 → List Char
  | [] => []
  | [a] => [b64Char (a.toNat / 4), b64Char (a.toNat % 4 * 16)]
  | [a, b] => [b64Char (a.toNat / 4), b64Char (a.toNat % 4 * 16 + b.toNat / 16), b64Char (b.toNat % 16 * 4)]
  | a :: b :: c :: rest =>
    b64Char (a.toNat / 4) :: b64Char (a.toNat % 4 * 16 + b.toNat / 16) :: b64Char (b.toNat % 16 * 4 + c.toNat / 64) ::
      b64Char (c.toNat % 64) :: b64Chars rest

def b64urlEncode (data : List UInt8) : String := String.ofList (b64Chars data)

example : b64urlEncode [255, 238, 1, 7] = "_-4BBw" := by decide +kernel

/-- `ed25519_public_key_from_base64url`, which fails unless a key of 32 bytes is encoded canonically. -/
def checkPublicKey (value : String) : Except String Unit :=
  let l := value.toList
  if l = [] ∨ l.any (· ∉ b64Alphabet) then .error "Ed25519 public key must be valid base64url"
  else if l.length % 4 = 1 then .error "Ed25519 public key must be valid base64url"
  else if l.length * 6 / 8 ≠ 32 then .error "Ed25519 public key must decode to 32 bytes"
  else if l.getLast?.any fun c => b64Alphabet.idxOf c % 4 ≠ 0 then
    .error "Ed25519 public key must use unpadded canonical base64url"
  else .ok ()

/-! ## Registered Ed25519 -/

def ed25519SignatureMethod : String := "ed25519"

/-- The JWK of a key. -/
def publicJwk (x : String) : Fields :=
  .ofList [("kty", .str "OKP"), ("crv", .str "Ed25519"), ("x", .str x), ("alg", .str "EdDSA")]

inductive RegistrationError where
  | valueError (message : String)
  /-- `CredentialKeyConflictError`. -/
  | keyConflict
  | other

/-- `_normalize_public_jwk`; the key of the normalized JWK. -/
def normalizePublicJwk (p : Printer) (value : Option Value) : Except String String :=
  match value with
  | some (.obj d) =>
    if (d.get? "d").isSome then .error "publicKey must not contain private key material"
    else if d.get? "kty" ≠ some (.str "OKP") then .error "publicKey.kty must be 'OKP'"
    else if d.get? "crv" ≠ some (.str "Ed25519") then .error "publicKey.crv must be 'Ed25519'"
    else if (d.get? "alg").isSome ∧ d.get? "alg" ≠ some (.str "EdDSA") then .error "publicKey.alg must be 'EdDSA'"
    else
      let encodedKey := p.fieldText d "x"
      (checkPublicKey encodedKey).map fun _ => encodedKey
  | _ => .error "publicKey must be an OKP JWK object"

def readMetadata : Option Value → Except String Fields
  | none => .ok .nil
  | some .null => .ok .nil
  | some (.obj d) => .ok d
  | some _ => .error "metadata must be an object"

structure Registered where
  created : Bool
  credential : UserCredentialRecord

/-- What a request for a registration asks for: a user, a key and metadata. -/
def readRegistration (p : Printer) (request : Fields) : Except String (String × String × Fields) := do
  let userId := p.fieldText request "userId"
  if userId = "" then throw "userId missing"
  let x ← normalizePublicJwk p (request.get? "publicKey")
  let metadata ← readMetadata (request.get? "metadata")
  pure (userId, x, metadata)

def utcNowIso (now : ℚ) : String := (gmtime ⌊now⌋).iso

/-- `RegisteredEd25519Method.register`, with the random part of a new id. -/
def registerEd25519 (p : Printer) (store : CredentialStore) (request : Fields) (token : String) (now : ℚ) :
    Except RegistrationError Registered × CredentialStore :=
  match readRegistration p request with
  | .error message => (.error (.valueError message), store)
  | .ok (userId, x, metadata) =>
    match store.rows.find? fun r => r.signatureMethod = ed25519SignatureMethod && (Value.obj r.publicKey).eq (.obj (publicJwk x)) with
    | some r => if r.userId ≠ userId then (.error .keyConflict, store) else (.ok { created := false, credential := r }, store)
    | none =>
      let r : UserCredentialRecord :=
        { userId, credentialId := "cred_" ++ token, signatureMethod := ed25519SignatureMethod, publicKey := publicJwk x, metadata
          createdAt := utcNowIso now }
      (.ok { created := true, credential := r }, store.insert r)

/-- The options for the user's device; the mandate does not matter. -/
def ed25519SigningOptions (store : CredentialStore) (userId : String) : Except Raised Fields :=
  let ids := (store.listForUser userId).filter (·.signatureMethod = ed25519SignatureMethod) |>.map (·.credentialId)
  if ids = [] then
    .error (.notRegistered ("No '" ++ ed25519SignatureMethod ++ "' credential is registered for user: " ++ userId)
      "USER_CREDENTIAL_NOT_REGISTERED")
  else .ok (.ofList [("signatureMethod", .str ed25519SignatureMethod),
    ("methodOptions", .obj (.ofList [("allowedCredentialIds", listValue (ids.map .str))]))])

section Verify

variable (c : CredentialSetup) (store : CredentialStore) (context : UserSignatureContext) (signature : Fields)

/-- The credential that a signature names, if it is the user's; `label` begins the messages of the method. -/
def findCredential (label method : String) : Except String UserCredentialRecord :=
  let credentialId := c.printer.fieldText signature "credentialId"
  if credentialId = "" then .error (label ++ " credentialId missing")
  else match store.get? credentialId with
    | none => .error (label ++ " credential not registered: " ++ credentialId)
    | some r =>
      if r.signatureMethod ≠ method then .error (label ++ " credential signature method mismatch")
      else if r.userId ≠ context.expectedUserId then
        .error (label ++ " credential user mismatch: expected '" ++ context.expectedUserId ++ "', got '" ++ r.userId ++ "'")
      else .ok r

variable {c store context signature} in
theorem findCredential_ok {label method : String} {r : UserCredentialRecord}
    (h : findCredential c store context signature label method = .ok r) :
    store.get? (c.printer.fieldText signature "credentialId") = some r ∧ r.signatureMethod = method ∧
      r.userId = context.expectedUserId := by
  unfold findCredential at h
  dsimp only at h
  split at h
  · cases h
  split at h
  · cases h
  rename_i hget
  split at h
  · cases h
  rename_i hmethod
  split at h
  · cases h
  rename_i huser
  obtain rfl := Except.ok.inj h
  exact ⟨hget, by simpa using hmethod, by simpa using huser⟩

/-- The proof in a signature, checked against a credential; without a text there is nothing to prove. -/
def checkProof (r : UserCredentialRecord) : Except String Unit :=
  match asDict (signature.get? "proof") with
  | none => .error "User signature proof missing"
  | some proof =>
    let encodedSignature := c.printer.fieldText proof "signature"
    if proof.get? "alg" ≠ some (.str "EdDSA") then .error "User signature proof alg must be 'EdDSA'"
    else if encodedSignature = "" then .error "User signature missing"
    else
      let x := c.printer.text (((r.publicKey.get? "x").filter truthy).getD (.str ""))
      match checkPublicKey x, canonicalUserAuthorizationPayload c.printer context.serverSignedMandate with
      | .error e, _ => .error ("Registered Ed25519 public key invalid: " ++ e)
      | .ok _, .error _ => .error "User signature invalid"
      | .ok _, .ok text => if c.verifyText x text encodedSignature then .ok () else .error "User signature invalid"

/-- `RegisteredEd25519Method.verify`. -/
def ed25519Verify : Except String Unit := do
  let r ← findCredential c store context signature "User" ed25519SignatureMethod
  checkProof c context signature r

end Verify

/-! ## WebAuthn -/

def webauthnSignatureMethod : String := "webauthn"

def asInt (value : Option Value) : Except String ℤ :=
  match value.filter truthy with
  | none => .ok 0
  | some (.bool _) => .ok 1
  | some (.int n) => .ok n
  | some (.float (.finite q)) => .ok (if 0 ≤ q then ⌊q⌋ else ⌈q⌉)
  | some (.str s) => match Text.parseInt s with
    | some n => .ok n
    | none => .error "invalid literal for int() with base 10"
  | some _ => .error "int() argument must be a string, a bytes-like object or a real number"

section WebAuthn

variable (c : CredentialSetup)

/-- The transports that a response names. -/
def readTransports (credential : Fields) : Items :=
  match ((asDict (credential.get? "response")).getD .nil).get? "transports" with
  | some (.arr items) => texts items
  | _ => .nil
where
  texts : Items → Items
    | .nil => .nil
    | .cons item rest => .cons (.str (c.printer.text item)) (texts rest)

def webauthnRecord (userId : String) (credential : Fields) (verified : VerifiedRegistration) (now : ℚ) : UserCredentialRecord where
  userId := userId
  credentialId := b64urlEncode verified.credentialId
  signatureMethod := webauthnSignatureMethod
  publicKey := .ofList [("format", .str "cose"), ("value", .str (b64urlEncode verified.credentialPublicKey))]
  details := .ofList [("signCount", .int verified.signCount), ("rpId", .str c.rpId), ("origin", .str c.expectedOrigin),
    ("transports", .arr (readTransports c credential)), ("aaguid", .str verified.aaguid), ("fmt", .str verified.fmt),
    ("credentialDeviceType", .str verified.credentialDeviceType), ("credentialBackedUp", .bool verified.credentialBackedUp)]
  createdAt := utcNowIso now

/-- The challenges of registrations that were begun, with their users. -/
abbrev RegistrationChallenges := Dict String (String × List UInt8)

/-- A registration that is to be completed: its user, its credential, and what the authenticator says. -/
def readWebauthn (challenges : RegistrationChallenges) (payload : Fields) : Except String (String × Fields × VerifiedRegistration) := do
  let userId := c.printer.fieldText payload "userId"
  if userId = "" then throw "userId missing"
  let requestId := c.printer.fieldText payload "registrationRequestId"
  if requestId = "" then throw "registrationRequestId missing"
  match challenges.lookup requestId with
  | none => throw ("No WebAuthn registration challenge: " ++ requestId)
  | some (pendingUserId, challenge) =>
    if pendingUserId ≠ userId then
      throw ("WebAuthn registration user mismatch: expected '" ++ pendingUserId ++ "', got '" ++ userId ++ "'")
    match asDict (payload.get? "credential") with
    | none => throw "credential missing"
    | some credential => do
      let verified ← c.webauthn.verifyRegistrationResponse credential challenge c.rpId c.expectedOrigin
      pure (userId, credential, verified)

/-- The challenges after a registration was to be completed; one that was named is used up. -/
def popChallenge (challenges : RegistrationChallenges) (payload : Fields) : RegistrationChallenges :=
  let requestId := c.printer.fieldText payload "registrationRequestId"
  if c.printer.fieldText payload "userId" = "" ∨ requestId = "" then challenges else challenges.erase requestId

def verifyRegistration (challenges : RegistrationChallenges) (store : CredentialStore) (payload : Fields) (now : ℚ) :
    Except String UserCredentialRecord × RegistrationChallenges × CredentialStore :=
  match readWebauthn c challenges payload with
  | .error message => (.error message, popChallenge c challenges payload, store)
  | .ok (userId, credential, verified) =>
    let r := webauthnRecord c userId credential verified now
    (.ok r, popChallenge c challenges payload, store.insert r)

variable (store : CredentialStore) (context : UserSignatureContext) (signature : Fields)

def detailText (r : UserCredentialRecord) (key : String) : String := c.printer.text (((r.details.get? key).filter truthy).getD (.str ""))

/-- The assertion in a signature, checked against a credential: the new count of its signatures. -/
def checkAssertion (r : UserCredentialRecord) : Except String ℤ := do
  let rpId := detailText c r "rpId"
  let origin := detailText c r "origin"
  if rpId ≠ "" ∧ rpId ≠ c.rpId then throw ("WebAuthn credential RP ID mismatch: expected '" ++ c.rpId ++ "', got '" ++ rpId ++ "'")
  if origin ≠ "" ∧ origin ≠ c.expectedOrigin then
    throw ("WebAuthn credential origin mismatch: expected '" ++ c.expectedOrigin ++ "', got '" ++ origin ++ "'")
  match (asDict (signature.get? "proof")).bind fun proof => asDict (proof.get? "assertion") with
  | none => throw "WebAuthn assertion missing"
  | some assertion =>
    match deriveUserAuthorizationChallenge c.printer context.serverSignedMandate, asInt (r.details.get? "signCount") with
    | .ok challenge, .ok signCount =>
      let value := c.printer.text (((r.publicKey.get? "value").filter truthy).getD (.str ""))
      match c.webauthn.verifyAuthenticationResponse assertion challenge c.rpId c.expectedOrigin value signCount with
      | .error e => throw ("WebAuthn signature invalid: " ++ e)
      | .ok verified => if verified.userVerified then pure verified.newSignCount else throw "WebAuthn user verification missing"
    | .error _, _ => throw "WebAuthn signature invalid: no payload"
    | _, .error e => throw ("WebAuthn signature invalid: " ++ e)

/-- `WebAuthnSignatureMethod.verify`, which stores the new count. -/
def webauthnVerify : Except String Unit × CredentialStore :=
  match findCredential c store context signature "WebAuthn" webauthnSignatureMethod with
  | .error message => (.error message, store)
  | .ok r => match checkAssertion c context signature r with
    | .error message => (.error message, store)
    | .ok signCount => (.ok (), store.insert { r with details := r.details.set "signCount" (.int signCount) })

end WebAuthn

end AgentProtocol.A4P
