-- SUMMARY: Intent authorization: prepare, complete, and the tokens that a completion issues.
import AgentProtocol.A4P.IntentMandate
import AgentProtocol.A4P.OperationService

/-!
# Intent authorization

`prepare` signs a mandate for an intent and keeps it as pending; `complete` approves the mandate once,
if it comes back as it was and in its time, and issues a token for it. Nothing else drops a pending
authorization.
-/

namespace AgentProtocol.A4P

open Lib

structure PendingIntent where
  request : Fields
  mandate : Fields

structure IntentAuthorizationResponse where
  mandate : Option Fields := none
  signingOptions : Fields := .nil
  intentToken : Option Fields := none
  approved : Bool := false
  verificationResult : Option VerificationResult := none
  rejectReason : Option String := none

def IntentAuthorizationResponse.reject (reason code : String) : IntentAuthorizationResponse :=
  { rejectReason := some reason, verificationResult := some (.fail reason code) }

/-- `mandate_matches_pending`, of either kind. -/
def MandateKind.matchesPending (k : MandateKind) (p : Printer) (signed pending : Fields) : Bool :=
  match k.normalize p signed, k.normalize p pending with
  | .ok signed, .ok pending =>
    (Value.obj (OperationAuthorizationService.withoutUser signed)).eq (.obj (OperationAuthorizationService.withoutUser pending))
  | _, _ => false

theorem mandateMatchesPending_eq (c : Setup) (signed pending : Fields) :
    OperationAuthorizationService.mandateMatchesPending c signed pending = MandateKind.operation.matchesPending c.printer signed pending := by
  have hnormalize : ∀ mandate, MandateKind.operation.normalize c.printer mandate = normalizeOperationMandate c.printer mandate := fun _ => rfl
  unfold OperationAuthorizationService.mandateMatchesPending MandateKind.matchesPending
  cases hsigned : normalizeOperationMandate c.printer signed with
  | error => simp only [hnormalize, hsigned]
  | ok =>
    cases hpending : normalizeOperationMandate c.printer pending with
    | error | ok => simp only [hnormalize, hsigned, hpending]

/-! ## Tokens -/

def intentTokenType : String := "a4p/v1/intent-token"

def intentTokenKeyId (mandateId : String) : String :=
  if Text.strip mandateId = "" then tokenKeyId else tokenKeyId ++ ":" ++ Text.strip mandateId

/-- The random parts of a token. -/
structure TokenSeed where
  tokenId : String
  nonce : String

/-- A text of a mandate, with a default for an empty one. -/
def textOr (p : Printer) (d : Fields) (key default : String) : String :=
  let text := Text.strip (p.text (((d.get? key).filter truthy).getD (.str default)))
  if text = "" then default else text

/-- The subject of a token, which is that of the mandate. -/
def tokenSubject (p : Printer) (subject : Fields) : Fields :=
  .ofList ([("type", .str (textOr p subject "type" "agent")), ("id", .str (p.fieldText subject "id"))] ++
    ((asDict (subject.get? "agentKey")).map fun key => ("agentKey", Value.obj key)).toList)

/-- A token before it is signed. -/
def draftToken (p : Printer) (normalized : Fields) (scope : IntentScope) (userId mandateId issuedAt expireAt : String) (seed : TokenSeed) :
    Fields :=
  .ofList [
    ("type", .str intentTokenType),
    ("tokenId", .str seed.tokenId),
    ("mandateId", .str mandateId),
    ("subject", .obj (tokenSubject p ((asDict (normalized.get? "subject")).getD .nil))),
    ("user", .obj (.ofList [("id", .str (if Text.strip userId = "" then "user:unknown" else Text.strip userId))])),
    ("intent", scope.toValue),
    ("issuedAt", .str issuedAt),
    ("expireAt", .str expireAt),
    ("nonce", .str seed.nonce),
    ("signature", .str ""),
    ("alg", .str "EdDSA"),
    ("keyId", .str (intentTokenKeyId mandateId))]

def issueIntentToken (c : Setup) (mandate : Fields) (userId : String) (seed : TokenSeed) (now : ℚ) : Except Raised Fields := do
  let normalized ← normalizeIntentMandate c.printer mandate
  let mandateId := c.printer.fieldText normalized "mandateId"
  if mandateId = "" then throw (.valueError "mandateId missing")
  let expireAt := c.printer.fieldText ((asDict (normalized.get? "validTime")).getD .nil) "end"
  if expireAt = "" then throw (.valueError "mandate validTime.end missing")
  let scope ← raisedScope c.printer (some (.obj ((asDict (normalized.get? "intent")).getD .nil)))
  let token := draftToken c.printer normalized scope userId mandateId (gmtime ⌊now⌋).iso expireAt seed
  let text ← (tokenText c.printer token).mapError .valueError
  pure (token.set "signature" (.str (c.key.sign text)))

structure IntentAuthorizationService where
  pending : Dict String PendingIntent := ∅
  /-- The mandates that were signed so far; nothing reads them, nor the tokens. -/
  signed : List Fields := []
  issued : List Fields := []

namespace IntentAuthorizationService

variable (c : Setup) (s : IntentAuthorizationService)

/-! ## Prepare -/

def readValidity : Option Value → Except Raised ℤ
  | none => .ok 3600
  | some .null => .ok 3600
  | some (.int n) => if n ≤ 0 then .error (.valueError "validitySeconds must be a positive integer") else .ok n
  | some _ => .error (.valueError "validitySeconds must be a positive integer")

/-- The server that a request names, or this one. -/
def requestServer (payload : Fields) : String := c.printer.text (((payload.get? "server").filter truthy).getD (.str c.serverId))

/-- The request for a mandate that a payload makes, and its user. -/
def readPrepare (payload : Fields) : Except Raised (IntentMandateRequest × String) := do
  let intent := (asDict (payload.get? "intent")).getD .nil
  let agentId := c.printer.fieldText payload "agentId"
  if agentId = "" then throw (.valueError "agentId missing")
  let userId := c.printer.fieldText payload "userId"
  if userId = "" then throw (.valueError "userId missing")
  let validitySeconds ← readValidity (payload.get? "validitySeconds")
  if intent.get? "executionPolicy" = some .null then throw (.valueError "executionPolicy must include maxExecutions")
  pure ({ server := requestServer c payload, agentId, actions := intent.get? "actions"
          executionPolicy := intent.get? "executionPolicy", validitySeconds
          agentPublicKey := asDict (payload.get? "agentPublicKey") }, userId)

/-- A failure while a request is prepared. -/
def refused : Raised → Except Raised IntentAuthorizationResponse
  | .notRegistered message code => .ok (.reject message code)
  | .valueError message => .ok (.reject message "MANDATE_INVALID")
  | .other => .error .other

/-- `prepare`, with the random part of the id. -/
def prepare (req : Request) (token : String) (now : ℚ) : Except Raised IntentAuthorizationResponse × IntentAuthorizationService :=
  match readPrepare c req.payload with
  | .error e => (refused e, s)
  | .ok (mandateRequest, userId) => match createIntentMandate c mandateRequest token now with
    | .error e => (refused e, s)
    | .ok mandate =>
      let s := { s with signed := mandate :: s.signed }
      match mandateIdentifier c.printer mandate with
      | .error e => (refused e, s)
      | .ok mandateId => match OperationAuthorizationService.signingOptions c userId mandate with
        | .error e => (refused e, s)
        | .ok options =>
          (.ok { mandate := some mandate, signingOptions := options },
            { s with pending := s.pending.set mandateId { request := req.payload, mandate } })

/-! ## Complete -/

/-- `complete` after the pending authorization was found; a token, or why there is none. -/
def checkCompletion (signedMandate : Fields) (p : PendingIntent) (now later : ℚ) (seed : TokenSeed) :
    Except Raised (IntentAuthorizationResponse ⊕ Except Raised Fields) := do
  if !MandateKind.intent.matchesPending c.printer signedMandate p.mandate then
    return .inl { IntentAuthorizationResponse.reject "Signed mandate does not match pending intent authorization" "MANDATE_PENDING_MISMATCH" with
                  mandate := some p.mandate }
  let expectedUserId := c.printer.text (((p.request.get? "userId").filter truthy).getD (.str ""))
  match ← verifyIntentMandate c signedMandate (requestServer c p.request) expectedUserId now with
  | some reason => return .inl { IntentAuthorizationResponse.reject reason (errorCode reason "MANDATE") with mandate := some p.mandate }
  | none =>
    let userId := c.printer.text (((p.request.get? "userId").filter truthy).getD (.str "user:unknown"))
    return .inr (issueIntentToken c signedMandate userId seed later)

/-- `complete`; the clock is read again for the token. The authorization is no longer pending when the
token is issued. -/
def complete (req : Request) (now later : ℚ) (seed : TokenSeed) : Except Raised IntentAuthorizationResponse × IntentAuthorizationService :=
  if req.isDataclass then (.error .other, s)
  else match asDict (req.fields.get? "signedMandate") with
  | none => (.ok (.reject "signedMandate missing" "MANDATE_INVALID"), s)
  | some signedMandate => match caught (mandateIdentifier c.printer signedMandate) with
    | .error e => (.error e, s)
    | .ok (.inl reason) => (.ok (.reject reason "MANDATE_INVALID"), s)
    | .ok (.inr mandateId) => match s.pending.lookup mandateId with
      | none =>
        (.ok { rejectReason := some ("No pending intent authorization: " ++ mandateId)
               verificationResult := some (.fail "No pending intent authorization" "AUTHORIZATION_NOT_PENDING") }, s)
      | some p => match checkCompletion c signedMandate p now later seed with
        | .error e => (.error e, s)
        | .ok (.inl response) => (.ok response, s)
        | .ok (.inr (.error e)) => (.error e, { s with pending := s.pending.erase mandateId })
        | .ok (.inr (.ok token)) =>
          (.ok { mandate := some signedMandate, intentToken := some token, approved := true, verificationResult := some { valid := true } },
            { s with pending := s.pending.erase mandateId, issued := token :: s.issued })

/-! ## Runs -/

inductive Event where
  | prepare (req : Request) (token : String) (now : ℚ)
  | complete (req : Request) (now later : ℚ) (seed : TokenSeed)

end IntentAuthorizationService

end AgentProtocol.A4P
