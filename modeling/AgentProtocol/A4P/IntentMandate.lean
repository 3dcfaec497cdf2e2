-- SUMMARY: Intent mandates: display text, creation, and the checks at completion.
import AgentProtocol.A4P.Mandate

/-!
# Intent mandates

A mandate that is created is normalized and signed. Times are printed in UTC; the year of an end far
away has more than four digits.
-/

namespace AgentProtocol.A4P

open Lib

/-! ## Display text -/

/-- `_format_beijing_display_time`, which returns a time that it cannot read. -/
def intentDisplayTime (utc : String) : Except Raised String :=
  match formatBeijingDisplayTime utc with
  | .error (.valueError _) => .ok utc
  | x => x

def formatParams (p : Printer) : Option Fields → String
  | none => "任意参数"
  | some params =>
    if params = .nil then "无参数"
    else ", ".intercalate (params.sort.toList.map fun f => if f.2 = .str "*" then f.1 ++ "=任意" else f.1 ++ "=" ++ spaced p f.2)

def formatActionCall (p : Printer) (a : ActionSpec) : String := a.name ++ "(" ++ formatParams p a.params ++ ")"

def buildIntentDisplayText (p : Printer) (agentId : String) (scope : IntentScope) (startIso endIso : String) : Except Raised String := do
  let startLocal ← intentDisplayTime startIso
  let endLocal ← intentDisplayTime endIso
  let actionText := "；".intercalate (scope.actions.map (formatActionCall p))
  let policyText := match scope.maxExecutions with
    | none => ""
    | some n => "，最多 " ++ Int.repr n ++ " 次"
  pure ("授权 agent:" ++ agentId ++ " 在 " ++ startLocal ++ " 至 " ++ endLocal ++ " 期间调用 " ++ actionText ++ policyText)

/-! ## Creation -/

namespace MandateKind

def keyId : MandateKind → String
  | .intent => "server#intent-mandate-k1"
  | .operation => operationServerKeyId

def serverSignature (k : MandateKind) (c : Setup) (text : String) : Fields :=
  .ofList [("alg", .str "EdDSA"), ("keyId", .str k.keyId), ("signature", .str (c.key.sign text))]

def sign (c : Setup) (mandate : Fields) (k : MandateKind) : Except Raised Fields := do
  let signed ← k.normalize c.printer mandate
  let core ← k.corePayload c.printer signed
  let text ← serverText c.printer core
  let signatures := (asDict (signed.get? "signatures")).getD .nil
  pure (signed.set "signatures" (.obj (signatures.set "server" (.obj (k.serverSignature c text)))))

end MandateKind

theorem signServerMandate_eq (c : Setup) (mandate : Fields) : signServerMandate c mandate = MandateKind.operation.sign c mandate := by
  unfold signServerMandate MandateKind.sign serverPayload
  simp only [operationMandateCorePayload_eq, MandateKind.normalize, MandateKind.serverText, bind_assoc]
  rfl

namespace MandateKind

/-- What is known of a mandate that the server has signed: it is normalized, and it has the server's
signature on its core. -/
structure Signed (c : Setup) (k : MandateKind) (mandate : Fields) : Prop where
  type : mandate.get? "type" = some (.str k.typeText)
  normalized : k.normalize c.printer mandate = .ok mandate
  signatures : ∃ text user, serverText c.printer (k.core mandate) = .ok text ∧
    mandate.get? "signatures" = some (.obj (.ofList [("server", .obj (k.serverSignature c text)), ("user", .obj user)]))

variable {k : MandateKind} {draft mandate : Fields} {c : Setup}

theorem sign_eq_ok (h : k.sign c draft = .ok mandate) :
    ∃ n text user, k.normalize c.printer draft = .ok n ∧ signature draft "user" = .ok user ∧ serverText c.printer (k.core n) = .ok text ∧
      mandate = n.set "signatures" (.obj (.ofList [("server", .obj (k.serverSignature c text)), ("user", .obj user)])) := by
  unfold sign at h
  obtain ⟨n, hn, hrest⟩ := bind_eq_ok.mp h
  obtain ⟨core, hcore, hrest'⟩ := bind_eq_ok.mp hrest
  obtain ⟨text, htext, hmandate⟩ := bind_eq_ok.mp hrest'
  have hcore' : k.core n = core := Except.ok.inj ((normalize_corePayload (normalize_idem hn)).symm.trans hcore)
  obtain ⟨server, user, -, huser, hsignatures⟩ := (normalize_eq_ok hn).signatures
  refine ⟨n, text, user, hn, huser, hcore' ▸ htext, ?_⟩
  rw [← Except.ok.inj hmandate, hsignatures]
  simp [Fields.ofList, Fields.set]

theorem normalize_set_signatures {p : Printer} {n server user : Fields} (h : k.normalize p n = .ok n) :
    k.normalize p (n.set "signatures" (.obj (.ofList [("server", .obj server), ("user", .obj user)]))) =
      .ok (n.set "signatures" (.obj (.ofList [("server", .obj server), ("user", .obj user)]))) := by
  have hn := normalize_eq_ok h
  obtain ⟨v, hv, hbody⟩ := hn.body
  set n' := n.set "signatures" (.obj (.ofList [("server", .obj server), ("user", .obj user)])) with hn'
  have hget : ∀ key ≠ "signatures", n'.get? key = n.get? key := fun key hkey => by rw [hn', Fields.get?_set, if_neg hkey.symm]
  have hsignatures : n'.get? "signatures" = some (.obj (.ofList [("server", .obj server), ("user", .obj user)])) := by
    rw [hn', Fields.get?_set, if_pos rfl]
  have hbodyKey : k.bodyKey ≠ "signatures" := by cases k <;> decide
  apply NormalizedTo.normalize_self
  refine { type := (hget _ (by decide)).trans hn.type, body := ⟨v, ?_, (hget _ hbodyKey).trans hbody⟩, userAuthorization := ?_
           same := fun _ _ => rfl, signatures := ⟨server, user, ?_, ?_, hsignatures⟩ }
  · rw [hget _ hbodyKey, hv]
  · rw [hget _ (by decide), hn.userAuthorization]
    rfl
  · simp [signature, hsignatures, Fields.ofList, Fields.get?]
  · simp [signature, hsignatures, Fields.ofList, Fields.get?]

theorem signed_of_sign (h : k.sign c draft = .ok mandate) : Signed c k mandate := by
  obtain ⟨n, text, user, hn, -, htext, rfl⟩ := sign_eq_ok h
  have hcore : k.core (n.set "signatures" (.obj (.ofList [("server", .obj (k.serverSignature c text)), ("user", .obj user)]))) = k.core n :=
    core_congr fun key hkey => by rw [Fields.get?_set, if_neg hkey.symm]
  refine ⟨?_, normalize_set_signatures (normalize_idem hn), text, user, hcore ▸ htext, ?_⟩
  · rw [Fields.get?_set, if_neg (by decide)]
    exact (normalize_eq_ok hn).type
  · rw [Fields.get?_set, if_pos rfl]

end MandateKind

structure IntentMandateRequest where
  server : String
  agentId : String
  actions : Option Value
  executionPolicy : Option Value
  validitySeconds : ℤ
  agentPublicKey : Option Fields

/-- The text of a time; the platform has no years beyond 32 bits. -/
def utcIso (t : ℤ) : Except Raised String := if 2147485547 < (gmtime t).year then .error .other else .ok (gmtime t).iso

/-- `normalize_execution_policy`, where no policy is none. -/
def optionalPolicy : Option Value → Except Raised (Option ℤ)
  | none => .ok none
  | some policy => ((normalizeExecutionPolicy policy).mapError .valueError).map some

/-- A mandate before it is signed. -/
def draftIntentMandate (c : Setup) (req : IntentMandateRequest) (scope : IntentScope) (signatureMethod mandateId startIso endIso displayText : String) :
    Fields :=
  .ofList [
    ("type", .str intentMandateType),
    ("mandateId", .str mandateId),
    ("server", .str req.server),
    ("subject", .obj (.ofList ([("type", .str "agent"), ("id", .str ("agent:" ++ req.agentId))] ++
      (req.agentPublicKey.map fun key => ("agentKey", Value.obj key)).toList))),
    ("intent", scope.toValue),
    ("validTime", .obj (.ofList [("start", .str startIso), ("end", .str endIso)])),
    ("userAuthorization", if c.requireUserSignature then
        .obj (.ofList [("required", .bool true), ("signatureMethod", .str signatureMethod),
          ("methodPolicy", .obj ((c.userSignatureMethod.map (·.methodPolicy)).getD .nil))])
      else .obj (.ofList [("required", .bool false)])),
    ("displayText", .str displayText),
    ("signatures", .obj (.ofList [
      ("server", .obj (.ofList [("alg", .str "EdDSA"), ("keyId", .str MandateKind.intent.keyId), ("signature", .str "")])),
      ("user", .obj .nil)]))]

/-- `_render_custom_display_text`, if there is a renderer. -/
def renderIntentDisplayText (c : Setup) (mandate : Fields) : Except Raised Fields :=
  match c.displayTextRenderer with
  | none => .ok mandate
  | some renderer => match renderer mandate with
    | .error e => .error e
    | .ok (.str text) => .ok (mandate.set "displayText" (.str text))
    | .ok _ => .error (.valueError "Intent display text renderer must return a string")

/-- `create_intent_mandate`, with the random part of the id. -/
def createIntentMandate (c : Setup) (req : IntentMandateRequest) (token : String) (now : ℚ) : Except Raised Fields := do
  let signatureMethod := Text.strip ((c.userSignatureMethod.map (·.signatureMethod)).getD "")
  if c.requireUserSignature ∧ signatureMethod = "" then throw (.valueError "userSignatureMethod missing")
  let startIso ← utcIso ⌊now⌋
  let endIso ← utcIso (⌊now⌋ + req.validitySeconds)
  let actions ← (normalizeActionSpecs c.printer req.actions).mapError .valueError
  let maxExecutions ← optionalPolicy req.executionPolicy
  let scope : IntentScope := { actions, maxExecutions }
  let displayText ← buildIntentDisplayText c.printer req.agentId scope startIso endIso
  let mandate ← renderIntentDisplayText c (draftIntentMandate c req scope signatureMethod ("mdt_" ++ token) startIso endIso displayText)
  MandateKind.intent.sign c mandate

/-! ## Completion -/

def intentUserSignatureContext (p : Printer) (mandate : Fields) (expectedUserId : String) : Except Raised UserSignatureContext := do
  let normalized ← normalizeIntentMandate p mandate
  let userAuthorization := (asDict (normalized.get? "userAuthorization")).getD .nil
  match userAuthorization.get? "required" with
  | some (.bool required) =>
    let signatureMethod := p.fieldText userAuthorization "signatureMethod"
    if required ∧ signatureMethod = "" then throw (.valueError "userAuthorization.signatureMethod missing")
    let serverSignedMandate ← serverSignedMandate p normalized
    pure { mandateType := intentMandateType, serverSignedMandate, signatureMethod, expectedUserId }
  | _ => throw (.valueError "userAuthorization.required missing")

def parseTime : Value → Except Raised (Option Civil)
  | .str s => .ok (strptime s)
  | _ => .error .other

def checkValidTime (normalized : Fields) (now : ℚ) : Except Raised (Option String) :=
  match (normalized.get? "validTime").getD (.obj .nil) with
  | .obj validTime => match (validTime.get? "start").filter truthy, (validTime.get? "end").filter truthy with
    | some startValue, some endValue => do
      match ← parseTime startValue with
      | none => return some "Mandate validTime format invalid"
      | some start => match ← parseTime endValue with
        | none => return some "Mandate validTime format invalid"
        | some last =>
          if now < (timegm start : ℚ) then return some "Mandate not yet valid"
          else if (timegm last : ℚ) < now then return some "Mandate has expired"
          else return none
    | _, _ => .ok (some "Mandate has no validTime")
  | _ => .error .other

/-- `verify_intent_mandate`; a failure comes with its reason. -/
def verifyIntentMandate (c : Setup) (mandate : Fields) (expectedServer expectedUserId : String) (now : ℚ) :
    Except Raised (Option String) := do
  if mandate.get? "type" ≠ some (.str intentMandateType) then return some "Invalid mandate type"
  match ← caught (normalizeIntentMandate c.printer mandate) with
  | .inl reason => return some reason
  | .inr normalized =>
    let serverAlg := c.printer.fieldText (signatureOf normalized "server") "alg"
    if serverAlg ≠ "EdDSA" then
      return some ("Server signature alg mismatch: expected 'EdDSA', got '" ++ serverAlg ++ "'")
    let signature ← serverSignature normalized
    if signature = "" then return some "Server signature missing"
    let core ← intentMandateCorePayload c.printer normalized
    let text ← MandateKind.serverText c.printer core
    if !c.key.verify text signature then return some "Server signature invalid"
    match ← caught (intentUserSignatureContext c.printer normalized expectedUserId) with
    | .inl reason => return some reason
    | .inr context => match verifyUserSignature c context (signatureOf normalized "user") with
      | some reason => return some reason
      | none => match ← checkValidTime normalized now with
        | some reason => return some reason
        | none =>
          let mandateServer := c.printer.fieldText normalized "server"
          let normalizedExpected := Text.strip expectedServer
          if mandateServer ≠ normalizedExpected then
            return some ("Mandate server mismatch: expected '" ++ normalizedExpected ++ "', got '" ++ mandateServer ++ "'")
          return none

end AgentProtocol.A4P
