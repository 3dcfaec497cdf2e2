-- SUMMARY: Operation mandates: normalization, the signed core, creation and the checks at completion.
import AgentProtocol.A4P.Payload

/-!
# Operation mandates

A mandate is a dict. What the server signs is the canonical text of its core, which is made of the
normalized mandate. The signature scheme and the user's proof are not part of the repository.
-/

namespace AgentProtocol.A4P

open Lib

/-- Signing with the server's key, and checking such a signature. -/
structure ServerKey where
  sign : String → String
  verify : String → String → Bool

structure UserSignatureContext where
  mandateType : String
  serverSignedMandate : Fields
  signatureMethod : String
  expectedUserId : String

structure UserSignatureMethod where
  signatureMethod : String
  methodPolicy : Fields
  signingOptions : String → Fields → Except Raised Fields
  verify : UserSignatureContext → Fields → Bool × String

/-- How a server is set up. -/
structure Setup where
  printer : Printer
  key : ServerKey
  serverId : String
  displayTextRenderer : Option (Fields → Except Raised Value)
  requireUserSignature : Bool
  userSignatureMethod : Option UserSignatureMethod

/-! ## Operations -/

structure Operation where
  action : String
  params : Fields

def Operation.toValue (o : Operation) : Value := .obj (.ofList [("action", .str o.action), ("params", .obj o.params)])

def normalizeOperation (p : Printer) (operation : Option Value) : Except Raised Operation :=
  match operation with
  | some (.obj d) =>
    let action := p.fieldText d "action"
    if action = "" then .error (.valueError "Operation action missing")
    else match d.get? "params" with
      | none => .ok { action, params := .nil }
      | some .null => .ok { action, params := .nil }
      | some (.obj params) => .ok { action, params }
      | some _ => .error (.valueError "Operation params must be an object")
  | _ => .error (.valueError "Operation must be an object")

/-! ## Display text -/

mutual

/-- `json.dumps` with sorted keys and the default separators. -/
def spaced (p : Printer) : Value → String
  | .null => "null"
  | .bool b => if b then "true" else "false"
  | .int n => Int.repr n
  | .float x => p.float x
  | .str s => String.ofList (Value.quoteChars s)
  | .arr items => "[" ++ ", ".intercalate (spacedItems p items) ++ "]"
  | .obj fields => String.singleton '\x7b' ++
      ", ".intercalate (((spacedFields p fields).insertionSort fun a b => a.1 ≤ b.1).map fun f => String.ofList (Value.quoteChars f.1) ++ ": " ++ f.2) ++
      String.singleton '\x7d'

def spacedItems (p : Printer) : Items → List String
  | .nil => []
  | .cons item rest => spaced p item :: spacedItems p rest

def spacedFields (p : Printer) : Fields → List (String × String)
  | .nil => []
  | .cons key value rest => (key, spaced p value) :: spacedFields p rest

end

def operationCallText (p : Printer) (o : Operation) : String :=
  if o.params = .nil then o.action ++ "(无参数)"
  else o.action ++ "(" ++ ", ".intercalate (o.params.sort.toList.map fun f => f.1 ++ "=" ++ spaced p f.2) ++ ")"

def formatBeijingDisplayTime (utc : String) : Except Raised String :=
  match strptime utc with
  | none => .error (.valueError "time data does not match format")
  | some c =>
    let b := gmtime (timegm c + 8 * 3600)
    if 9999 < b.year then .error .other
    else .ok (padded 4 b.year ++ "-" ++ padded 2 b.month ++ "-" ++ padded 2 b.day ++ " " ++ padded 2 b.hour ++ ":" ++
      padded 2 b.minute ++ ":" ++ padded 2 b.second ++ " 北京时间")

def operationDisplayText (p : Printer) (o : Operation) (localUntil : String) : String :=
  "授权执行 " ++ operationCallText p o ++ "（有效期至 " ++ localUntil ++ "）"

/-! ## Normalization and core -/

def mandateType : String := "a4p/v1/operation-mandate"

def normalizeOperationMandate (p : Printer) (mandate : Fields) : Except Raised Fields := do
  let operation := (asDict (mandate.get? "operation")).getD .nil
  let operation ← normalizeOperation p (some (.obj operation))
  let signatures := (asDict (mandate.get? "signatures")).getD .nil
  let server ← dictOf (signatures.get? "server")
  let user ← dictOf (signatures.get? "user")
  let userAuthorization := (asDict (mandate.get? "userAuthorization")).getD .nil
  pure ((((mandate.set "operation" operation.toValue).set "signatures"
    (.obj (.ofList [("server", .obj server), ("user", .obj user)]))).set "userAuthorization" (.obj userAuthorization)).set
      "type" (.str mandateType))

def coreOf (normalized : Fields) : Fields :=
  .ofList [
    ("type", (normalized.get? "type").getD (.str "")),
    ("operationId", (normalized.get? "operationId").getD (.str "")),
    ("server", (normalized.get? "server").getD (.str "")),
    ("subject", (normalized.get? "subject").getD (.obj .nil)),
    ("operation", (normalized.get? "operation").getD (.obj .nil)),
    ("validTime", (normalized.get? "validTime").getD (.obj .nil)),
    ("userAuthorization", (normalized.get? "userAuthorization").getD (.obj .nil)),
    ("displayText", (normalized.get? "displayText").getD (.str ""))]

def operationMandateCorePayload (p : Printer) (mandate : Fields) : Except Raised Fields := do
  let normalized ← normalizeOperationMandate p mandate
  pure (coreOf normalized)

def canonicalJson (p : Printer) (v : Value) : Except Raised String :=
  match v.canonicalJson p.float with
  | none => .error (.valueError "Out of range float values are not JSON compliant")
  | some text => .ok text

def serverPayload (p : Printer) (mandate : Fields) : Except Raised String := do
  let core ← operationMandateCorePayload p mandate
  canonicalJson p (.obj (.ofList [("scope", .str "server"), ("mandate", .obj core)]))

def mandateIdentifier (p : Printer) (mandate : Fields) : Except Raised String :=
  match mandate.get? "type" with
  | some (.arr _) => .error .other
  | some (.obj _) => .error .other
  | type =>
    let isIntent := type = some (.str "a4p/v1/intent-mandate")
    if ¬ isIntent ∧ type ≠ some (.str mandateType) then .error (.valueError "Unsupported A4P mandate type")
    else
      let field := if isIntent then "mandateId" else "operationId"
      let identifier := p.fieldText mandate field
      if identifier = "" then .error (.valueError (field ++ " missing")) else .ok identifier

/-! ## Creation -/

def operationServerKeyId : String := "server#operation-mandate-k1"

def signServerMandate (c : Setup) (mandate : Fields) : Except Raised Fields := do
  let signed ← normalizeOperationMandate c.printer mandate
  let text ← serverPayload c.printer signed
  let server := Value.obj (.ofList [("alg", .str "EdDSA"), ("keyId", .str operationServerKeyId), ("signature", .str (c.key.sign text))])
  let signatures := (asDict (signed.get? "signatures")).getD .nil
  pure (signed.set "signatures" (.obj (signatures.set "server" server)))

structure MandateRequest where
  operation : Operation
  serverUrl : String
  agentId : String
  validitySeconds : ℤ
  agentPublicKey : Option Fields

/-- The display text of a mandate, by the custom renderer if there is one. -/
def renderDisplayText (c : Setup) (mandate : Fields) : Except Raised Fields :=
  match c.displayTextRenderer with
  | none => .ok mandate
  | some renderer => match renderer mandate with
    | .error e => .error e
    | .ok (.str text) => .ok (mandate.set "displayText" (.str text))
    | .ok _ => .error (.valueError "Operation display text renderer must return a string")

/-- A mandate before it is signed. -/
def draftMandate (c : Setup) (req : MandateRequest) (signatureMethod operationId untilIso displayUntil : String) : Fields :=
  .ofList [
    ("type", .str mandateType),
    ("operationId", .str operationId),
    ("server", .str req.serverUrl),
    ("subject", .obj (.ofList ([("type", .str "agent"), ("id", .str ("agent:" ++ req.agentId))] ++
      (req.agentPublicKey.map fun key => ("agentKey", Value.obj key)).toList))),
    ("operation", req.operation.toValue),
    ("validTime", .obj (.ofList [("until", .str untilIso), ("displayUntil", .str displayUntil), ("timezone", .str "Asia/Shanghai")])),
    ("userAuthorization", if c.requireUserSignature then
        .obj (.ofList [("required", .bool true), ("signatureMethod", .str signatureMethod),
          ("methodPolicy", .obj ((c.userSignatureMethod.map (·.methodPolicy)).getD .nil))])
      else .obj (.ofList [("required", .bool false)])),
    ("displayText", .str (operationDisplayText c.printer req.operation displayUntil)),
    ("signatures", .obj (.ofList [
      ("server", .obj (.ofList [("alg", .str "EdDSA"), ("keyId", .str operationServerKeyId), ("signature", .str "")])),
      ("user", .obj .nil)]))]

/-- `create_operation_mandate`, with the random part of the id. -/
def createOperationMandate (c : Setup) (req : MandateRequest) (token : String) (now : ℚ) : Except Raised Fields := do
  let signatureMethod := Text.strip ((c.userSignatureMethod.map (·.signatureMethod)).getD "")
  if c.requireUserSignature ∧ signatureMethod = "" then throw (.valueError "userSignatureMethod missing")
  let untilIso := (gmtime (⌊now⌋ + req.validitySeconds)).iso
  let displayUntil ← formatBeijingDisplayTime untilIso
  let mandate ← renderDisplayText c (draftMandate c req signatureMethod ("op_" ++ token) untilIso displayUntil)
  signServerMandate c mandate

/-! ## Completion -/

def serverSignedMandateWithoutUserSignature (p : Printer) (mandate : Fields) : Except Raised Fields := do
  let core ← operationMandateCorePayload p mandate
  match asDict (mandate.get? "signatures") with
  | none => throw (.valueError "Server signature missing")
  | some signatures => match asDict (signatures.get? "server") with
    | none => throw (.valueError "Server signature missing")
    | some server => pure (core.set "signatures" (.obj (.ofList [("server", .obj server)])))

def operationUserSignatureContext (p : Printer) (mandate : Fields) (expectedUserId : String) :
    Except Raised UserSignatureContext := do
  let normalized ← normalizeOperationMandate p mandate
  let userAuthorization := (asDict (normalized.get? "userAuthorization")).getD .nil
  match userAuthorization.get? "required" with
  | some (.bool required) =>
    let signatureMethod := p.fieldText userAuthorization "signatureMethod"
    if required ∧ signatureMethod = "" then throw (.valueError "userAuthorization.signatureMethod missing")
    let serverSignedMandate ← serverSignedMandateWithoutUserSignature p normalized
    pure { mandateType, serverSignedMandate, signatureMethod, expectedUserId }
  | _ => throw (.valueError "userAuthorization.required missing")

/-- `verify_user_signature`; a failure comes with its reason. -/
def verifyUserSignature (c : Setup) (context : UserSignatureContext) (signature : Fields) : Option String :=
  if ¬ c.requireUserSignature then (if signature = .nil then none else some "User signature must be empty")
  else match c.userSignatureMethod with
    | none => some "User signature method missing"
    | some method =>
      let signatureMethod := c.printer.fieldText signature "signatureMethod"
      if signatureMethod = "" then some "User signature missing"
      else if signatureMethod ≠ context.signatureMethod then
        some ("User signature method mismatch: mandate requires '" ++ context.signatureMethod ++ "', got '" ++ signatureMethod ++ "'")
      else if method.signatureMethod ≠ context.signatureMethod then
        some ("Configured user signature method mismatch: mandate requires '" ++ context.signatureMethod ++
          "', configured method is '" ++ method.signatureMethod ++ "'")
      else match method.verify context signature with
        | (true, _) => none
        | (false, reason) => some reason

/-- The signatures of a normalized mandate, which is where the checks take them from. -/
def signatureOf (normalized : Fields) (who : String) : Fields :=
  (asDict (((asDict (normalized.get? "signatures")).getD .nil).get? who)).getD .nil

def serverSignature (normalized : Fields) : Except Raised String :=
  match ((signatureOf normalized "server").get? "signature").filter truthy with
  | none => .ok ""
  | some (.str s) => .ok (Text.strip s)
  | some _ => .error .other

/-- The expiry check at the end. -/
def checkUntil (normalized : Fields) (now : ℚ) : Except Raised (Option String) :=
  match (normalized.get? "validTime").getD (.obj .nil) with
  | .obj validTime => match (validTime.get? "until").filter truthy with
    | none => .ok (some "Mandate has no validTime")
    | some (.str untilStr) => match strptime untilStr with
      | none => .ok (some "Mandate validTime format invalid")
      | some c => if (timegm c : ℚ) < now then .ok (some ("Mandate has expired (expired at " ++ untilStr ++ ")")) else .ok none
    | some _ => .error .other
  | _ => .error .other

/-- A check that failed with a `ValueError` gives its text as the reason. -/
def caught {α : Type} (x : Except Raised α) : Except Raised (String ⊕ α) :=
  match x with
  | .ok a => .ok (.inr a)
  | .error (.valueError message) => .ok (.inl message)
  | .error e => .error e

/-- `verify_operation_mandate_for_completion`; a failure comes with its reason. -/
def verifyOperationMandateForCompletion (c : Setup) (mandate : Fields) (expected : Operation) (expectedUserId : String) (now : ℚ) :
    Except Raised (Option String) := do
  if mandate.get? "type" ≠ some (.str mandateType) then return some "Invalid mandate type"
  match ← caught (normalizeOperationMandate c.printer mandate) with
  | .inl reason => return some reason
  | .inr normalized =>
    match ← caught (normalizeOperation c.printer (some expected.toValue)) with
    | .inl reason => return some reason
    | .inr expectedOperation =>
      let operation := (asDict (normalized.get? "operation")).getD .nil
      if !((operation.get? "action").getD .null).eq (.str expectedOperation.action) then return some "Operation action mismatch"
      if !((operation.get? "params").getD .null).eq (.obj expectedOperation.params) then return some "Operation params mismatch"
      let serverAlg := c.printer.fieldText (signatureOf normalized "server") "alg"
      if serverAlg ≠ "EdDSA" then
        return some ("Server signature alg mismatch: expected 'EdDSA', got '" ++ serverAlg ++ "'")
      let signature ← serverSignature normalized
      if signature = "" then return some "Server signature missing"
      let text ← serverPayload c.printer normalized
      if !c.key.verify text signature then return some "Server signature invalid"
      match ← caught (operationUserSignatureContext c.printer normalized expectedUserId) with
      | .inl reason => return some reason
      | .inr context => match verifyUserSignature c context (signatureOf normalized "user") with
        | some reason => return some reason
        | none => checkUntil normalized now

/-! ## What the checks say -/

section Checks

variable {p : Printer} {c : Setup}

theorem caught_eq_inr {α : Type} {x : Except Raised α} {a : α} (h : caught x = .ok (.inr a)) : x = .ok a := by
  unfold caught at h
  split at h
  · exact congrArg Except.ok (Sum.inr.inj (Except.ok.inj h))
  · exact nomatch Except.ok.inj h
  · cases h

variable {o : Operation}

theorem normalizeOperation_action {v : Option Value} (h : normalizeOperation p v = .ok o) :
    Text.strip o.action = o.action ∧ o.action ≠ "" := by
  unfold normalizeOperation at h
  split at h
  · rename_i d
    dsimp only at h
    split at h
    · cases h
    rename_i hne
    have hstrip : Text.strip (p.fieldText d "action") = p.fieldText d "action" := Text.strip_idem _
    split at h
    · exact Except.ok.inj h ▸ ⟨hstrip, hne⟩
    · exact Except.ok.inj h ▸ ⟨hstrip, hne⟩
    · exact Except.ok.inj h ▸ ⟨hstrip, hne⟩
    · cases h
  · cases h

theorem normalizeOperation_toValue (hstrip : Text.strip o.action = o.action) (hne : o.action ≠ "") :
    normalizeOperation p (some o.toValue) = .ok o := by
  have htext : p.fieldText (.ofList [("action", .str o.action), ("params", .obj o.params)]) "action" = o.action := by
    simp [Printer.fieldText, Fields.ofList, Fields.get?, Option.filter, truthy, hne, Printer.text, hstrip]
  simp only [normalizeOperation, Operation.toValue, htext, hne, if_false]
  simp [Fields.ofList, Fields.get?]

theorem distinct_normalizeOperation {v : Value} (hv : v.distinct = true)
    (h : normalizeOperation p (some v) = .ok o) : o.toValue.distinct = true := by
  have hparams : ∀ params : Fields, (Value.obj params).distinct = true →
      (Operation.toValue { action := o.action, params }).distinct = true := by
    intro params hdistinct
    simpa [Operation.toValue, Fields.ofList, Value.distinct, Value.distinctFields, Fields.keys, Fields.toList] using hdistinct
  unfold normalizeOperation at h
  split at h
  · rename_i d hd
    obtain rfl := Option.some.inj hd
    simp only [Value.distinct, Bool.and_eq_true] at hv
    dsimp only at h
    split at h
    · cases h
    split at h
    · obtain rfl := Except.ok.inj h
      exact hparams _ rfl
    · obtain rfl := Except.ok.inj h
      exact hparams _ rfl
    · rename_i params hget
      obtain rfl := Except.ok.inj h
      exact hparams _ (Value.distinctFields_iff.mp hv.2 _ (Fields.mem_of_get? hget))
    · cases h
  · cases h

variable {mandate : Fields}

theorem passes {α : Type} {p : Prop} [Decidable p] {a r : α} {k : Except Raised α}
    (h : (if p then (pure a : Except Raised α) else k) = .ok r) (ha : a ≠ r) : ¬ p ∧ k = .ok r := by
  split at h
  · exact absurd (Except.ok.inj h) ha
  exact ⟨‹_›, h⟩

theorem of_caught {α β : Type} {x : Except Raised α} {f : String ⊕ α → Except Raised β} {r : β} (h : (caught x >>= f) = .ok r)
    (hf : ∀ reason, f (.inl reason) ≠ .ok r) : ∃ a, x = .ok a ∧ f (.inr a) = .ok r := by
  obtain ⟨reason | a, hcaught, h⟩ := bind_eq_ok.mp h
  · exact absurd h (hf reason)
  exact ⟨a, caught_eq_inr hcaught, h⟩

theorem verify_eq_none {expected : Operation} {expectedUserId : String} {now : ℚ}
    (h : verifyOperationMandateForCompletion c mandate expected expectedUserId now = .ok none) :
    ∃ n signature text context, mandate.get? "type" = some (.str mandateType) ∧ normalizeOperationMandate c.printer mandate = .ok n ∧
      serverSignature n = .ok signature ∧ serverPayload c.printer n = .ok text ∧ c.key.verify text signature = true ∧
      operationUserSignatureContext c.printer n expectedUserId = .ok context ∧ verifyUserSignature c context (signatureOf n "user") = none ∧
      checkUntil n now = .ok none := by
  obtain ⟨htype, h⟩ := passes h nofun
  obtain ⟨n, hnormalize, h⟩ := of_caught h fun _ => nofun
  obtain ⟨expectedOperation, -, h⟩ := of_caught h fun _ => nofun
  -- the action, the parameters and the algorithm
  obtain ⟨-, h⟩ := passes h nofun
  obtain ⟨-, h⟩ := passes h nofun
  obtain ⟨-, h⟩ := passes h nofun
  obtain ⟨signature, hsignature, h⟩ := bind_eq_ok.mp h
  obtain ⟨-, h⟩ := passes h nofun
  obtain ⟨text, htext, h⟩ := bind_eq_ok.mp h
  obtain ⟨hverify, h⟩ := passes h nofun
  obtain ⟨context, hcontext, h⟩ := of_caught h fun _ => nofun
  dsimp only at h
  split at h
  · cases h
  rename_i huser
  exact ⟨n, signature, text, context, not_not.mp htype, hnormalize, hsignature, htext, by simpa using hverify, hcontext, huser, h⟩

end Checks

end AgentProtocol.A4P
