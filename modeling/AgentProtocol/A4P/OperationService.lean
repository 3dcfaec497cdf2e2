-- SUMMARY: One-time operation authorization: prepare and complete.
import AgentProtocol.A4P.OperationMandate
import AgentProtocol.Lib.Run
import AgentProtocol.Lib.Table

/-!
# Operation authorization

`prepare` signs a mandate for an operation and keeps it as pending; `complete` approves the operation
once, if it and the mandate that comes back match what is pending.
-/

namespace AgentProtocol.A4P

open Lib

structure Pending where
  request : Fields
  operation : Operation
  mandate : Fields
  expireAtEpoch : ℤ
  /-- The request as it was submitted; nothing reads it. -/
  submitted : Request

structure Challenge where
  mandate : Option Fields := none
  signingOptions : Fields := .nil
  verificationResult : Option VerificationResult := none
  rejectReason : Option String := none

structure AuthorizationResult where
  operationId : Option String := none
  approved : Bool := false
  verificationResult : Option VerificationResult := none
  rejectReason : Option String := none

def Challenge.reject (reason code : String) : Challenge :=
  { rejectReason := some reason, verificationResult := some (.fail reason code) }

def AuthorizationResult.reject (reason code : String) : AuthorizationResult :=
  { rejectReason := some reason, verificationResult := some (.fail reason code) }

structure OperationAuthorizationService where
  pending : Dict String Pending := ∅
  /-- The mandates that were signed so far; nothing reads them. -/
  signed : List Fields := []

namespace OperationAuthorizationService

variable (c : Setup) (s : OperationAuthorizationService)

def pruneExpired (now : ℚ) : OperationAuthorizationService :=
  { s with pending := s.pending.filter fun p => !decide (p.2.expireAtEpoch ≤ ⌊now⌋) }

/-! ## Prepare -/

def readValidity : Option Value → Except Raised ℤ
  | none => .ok 300
  | some .null => .ok 300
  | some (.int n) => if n ≤ 0 then .error (.valueError "validitySeconds must be a positive integer") else .ok n
  | some _ => .error (.valueError "validitySeconds must be a positive integer")

/-- The request for a mandate that a payload makes, and its user. -/
def readPrepare (payload : Fields) : Except Raised (MandateRequest × String) := do
  let agentId := c.printer.fieldText payload "agentId"
  if agentId = "" then throw (.valueError "agentId missing")
  let userId := c.printer.fieldText payload "userId"
  if userId = "" then throw (.valueError "userId missing")
  let validitySeconds ← readValidity (payload.get? "validitySeconds")
  let operation ← normalizeOperation c.printer (payload.get? "operation")
  let serverUrl := c.printer.text (((payload.get? "server").filter truthy).getD (.str c.serverId))
  pure ({ operation, serverUrl, agentId, validitySeconds, agentPublicKey := asDict (payload.get? "agentPublicKey") }, userId)

def signingOptions (userId : String) (mandate : Fields) : Except Raised Fields :=
  if c.requireUserSignature then
    match c.userSignatureMethod with
    | none => .ok .nil
    | some method => method.signingOptions userId mandate
  else .ok .nil

/-- The end of a mandate's validity. -/
def expireAtEpoch (mandate : Fields) : Except Raised ℤ :=
  match (asDict (mandate.get? "validTime")).bind (·.get? "until") with
  | some (.str untilStr) => match strptime untilStr with
    | none => .error (.valueError "time data does not match format")
    | some t => .ok (timegm t)
  | _ => .error .other

/-- A failure while a request is prepared. -/
def refused (e : Raised) : Except Raised Challenge :=
  match e with
  | .notRegistered message code => .ok (.reject message code)
  | .valueError message => .ok (.reject message "MANDATE_INVALID")
  | .other => .error .other

/-- `prepare`, with the random part of the id. -/
def prepare (req : Request) (token : String) (now : ℚ) : Except Raised Challenge × OperationAuthorizationService :=
  let s := s.pruneExpired now
  match readPrepare c req.payload with
  | .error e => (refused e, s)
  | .ok (mandateRequest, userId) => match createOperationMandate c mandateRequest token now with
    | .error e => (refused e, s)
    | .ok mandate =>
      let s := { s with signed := mandate :: s.signed }
      match mandateIdentifier c.printer mandate with
      | .error e => (refused e, s)
      | .ok operationId => match signingOptions c userId mandate with
        | .error e => (refused e, s)
        | .ok options => match expireAtEpoch mandate with
          | .error e => (.error e, s)
          | .ok expireAtEpoch =>
            let entry := { request := req.payload, operation := mandateRequest.operation, mandate, expireAtEpoch, submitted := req }
            (.ok { mandate := some mandate, signingOptions := options },
              { s with pending := s.pending.set operationId entry })

/-! ## Complete -/

def withoutUser (normalized : Fields) : Fields :=
  match normalized.get? "signatures" with
  | some (.obj signatures) => normalized.set "signatures" (.obj (signatures.set "user" (.obj .nil)))
  | _ => normalized

def mandateMatchesPending (signed pending : Fields) : Bool :=
  match normalizeOperationMandate c.printer signed, normalizeOperationMandate c.printer pending with
  | .ok signed, .ok pending => (Value.obj (withoutUser signed)).eq (.obj (withoutUser pending))
  | _, _ => false

/-- `complete` after the pending authorization was found. -/
def checkCompletion (payload signedMandate : Fields) (operationId : String) (p : Pending) (now : ℚ) :
    Except Raised AuthorizationResult := do
  match ← caught (normalizeOperation c.printer (payload.get? "operation")) with
  | .inl reason => return .reject reason "OPERATION_INVALID"
  | .inr current =>
    if !current.toValue.eq p.operation.toValue then
      return .reject "Current operation does not match pending operation authorization" "OPERATION_PENDING_MISMATCH"
    if !mandateMatchesPending c signedMandate p.mandate then
      return .reject "Signed mandate does not match pending operation authorization" "MANDATE_PENDING_MISMATCH"
    match ← caught (normalizeOperation c.printer (signedMandate.get? "operation")) with
    | .inl reason => return .reject reason "MANDATE_INVALID"
    | .inr signedOperation =>
      if !signedOperation.toValue.eq current.toValue then
        return .reject "Signed mandate operation does not match current operation" "OPERATION_MANDATE_MISMATCH"
      let expectedUserId := c.printer.text (((p.request.get? "userId").filter truthy).getD (.str ""))
      match ← verifyOperationMandateForCompletion c signedMandate current expectedUserId now with
      | some reason => return .reject reason (errorCode reason "MANDATE")
      | none => return { operationId := some operationId, verificationResult := some { valid := true }, approved := true }

/-- `complete`; the clock is read again at the end. -/
def complete (req : Request) (now later : ℚ) : Except Raised AuthorizationResult × OperationAuthorizationService :=
  let s := s.pruneExpired now
  match asDict (req.payload.get? "signedMandate") with
  | none => (.ok (.reject "signedMandate missing" "MANDATE_INVALID"), s)
  | some signedMandate => match caught (mandateIdentifier c.printer signedMandate) with
    | .error e => (.error e, s)
    | .ok (.inl reason) => (.ok (.reject reason "MANDATE_INVALID"), s)
    | .ok (.inr operationId) => match s.pending.lookup operationId with
      | none =>
        (.ok { rejectReason := some ("No pending operation authorization: " ++ operationId)
               verificationResult := some (.fail "No pending operation authorization" "AUTHORIZATION_NOT_PENDING") }, s)
      | some p => match checkCompletion c req.payload signedMandate operationId p later with
        | .error e => (.error e, s)
        | .ok result => (.ok result, if result.approved then { s with pending := s.pending.erase operationId } else s)

/-! ## Runs -/

inductive Event where
  | prepare (req : Request) (token : String) (now : ℚ)
  | complete (req : Request) (now later : ℚ)

def step (s : OperationAuthorizationService) : Event → OperationAuthorizationService
  | .prepare req token now => (s.prepare c req token now).2
  | .complete req now later => (s.complete c req now later).2

section Approval

variable {c : Setup} {s : OperationAuthorizationService}

variable {result : AuthorizationResult}

theorem rejected {reason code : String}
    (h : (.ok (.reject reason code) : Except Raised AuthorizationResult) = .ok result) (happroved : result.approved = true) : False := by
  obtain rfl := Except.ok.inj h
  cases happroved

theorem checkCompletion_approved {payload signedMandate : Fields} {operationId : String} {p : Pending} {now : ℚ}
    (h : checkCompletion c payload signedMandate operationId p now = .ok result) (happroved : result.approved = true) :
    result = { operationId := some operationId, verificationResult := some { valid := true }, approved := true } ∧
      ∃ current signedOperation, normalizeOperation c.printer (payload.get? "operation") = .ok current ∧
        current.toValue.eq p.operation.toValue = true ∧ mandateMatchesPending c signedMandate p.mandate = true ∧
        normalizeOperation c.printer (signedMandate.get? "operation") = .ok signedOperation ∧
        verifyOperationMandateForCompletion c signedMandate current
          (c.printer.text (((p.request.get? "userId").filter truthy).getD (.str ""))) now = .ok none := by
  have hreject : ∀ reason code, (.reject reason code : AuthorizationResult) ≠ result := fun _ _ heq => rejected (congrArg Except.ok heq) happroved
  have hnever : ∀ reason code, (pure (.reject reason code) : Except Raised AuthorizationResult) ≠ .ok result :=
    fun _ _ heq => rejected heq happroved
  obtain ⟨current, hcurrent, h⟩ := of_caught h fun _ => hnever _ _
  obtain ⟨heq, h⟩ := passes h (hreject _ _)
  obtain ⟨hmatch, h⟩ := passes h (hreject _ _)
  obtain ⟨signedOperation, hsigned, h⟩ := of_caught h fun _ => hnever _ _
  obtain ⟨-, h⟩ := passes h (hreject _ _)
  obtain ⟨reason | _, hverify, h⟩ := bind_eq_ok.mp h
  · exact ⟨(Except.ok.inj h).symm, current, signedOperation, hcurrent, by simpa using heq, by simpa using hmatch, hsigned, hverify⟩
  · exact absurd h (hnever _ _)

end Approval

def Approves (c : Setup) (s : OperationAuthorizationService) : Event → Prop
  | .prepare .. => False
  | .complete req now later => (s.complete c req now later).1.toOption.any (·.approved) = true

instance (c : Setup) (s : OperationAuthorizationService) : (e : Event) → Decidable (Approves c s e)
  | .prepare .. => inferInstanceAs (Decidable False)
  | .complete req now later => inferInstanceAs (Decidable ((s.complete c req now later).1.toOption.any (·.approved) = true))

variable {c : Setup} {p : Printer}

theorem fieldText_of_str {d : Fields} {key text : String} (h : d.get? key = some (.str text)) :
    p.fieldText d key = Text.strip text := by
  by_cases hempty : text = ""
  · simp [Printer.fieldText, h, Option.filter, truthy, Printer.text, hempty]
  · simp [Printer.fieldText, h, Option.filter, truthy, Printer.text, hempty]

theorem eq_str_of_sorted {v : Value} {text : String} (h : v.sorted = .str text) : v = .str text := by
  cases v <;> simp [Value.sorted] at h ⊢
  exact h

theorem readPrepare_operation {payload : Fields} {req : MandateRequest} {userId : String}
    (h : readPrepare c payload = .ok (req, userId)) :
    normalizeOperation c.printer (payload.get? "operation") = .ok req.operation := by
  unfold readPrepare at h
  simp only [bind, Except.bind, pure, Except.pure] at h
  split at h
  · cases h
  split at h
  · cases h
  split at h
  · cases h
  split at h
  · cases h
  rename_i o ho
  obtain ⟨rfl, -⟩ := Prod.mk.inj (Except.ok.inj h)
  exact ho

/-! ### A setup -/

/-- A server without user signatures that signs everything in one way. -/
def plainSetup : Setup where
  printer := { float := Value.fractionText, str := fun _ => "" }
  key := { sign := fun _ => "sig", verify := fun _ signature => signature = "sig" }
  serverId := "a4p"
  displayTextRenderer := none
  requireUserSignature := false
  userSignatureMethod := none

def pay (amount : Value) : Value :=
  .obj (.ofList [("action", .str "pay"), ("params", .obj (.ofList [("amount", amount)]))])

/-- One unit is to be paid. -/
def prepareOne : Request where
  fields := .ofList [("agentId", .str "agent"), ("userId", .str "user"), ("operation", pay (.int 1))]
  distinct := by decide +kernel

def mandateOne : Fields := (((prepare plainSetup {} prepareOne "t" 0).1.toOption.bind (·.mandate)).getD .nil)

theorem distinct_mandateOne : (Value.obj mandateOne).distinct = true := by decide +kernel

end OperationAuthorizationService

end AgentProtocol.A4P
