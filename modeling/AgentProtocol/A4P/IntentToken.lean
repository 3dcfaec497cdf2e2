-- SUMMARY: Intent tokens: the action scope, its matching with glob patterns, and the stateless verification.
import AgentProtocol.A4P.Payload

/-!
# Intent tokens

A token grants actions with constraints on their parameters. Verification checks the server's
signature on the core of the token, the expiry against the clock, and the call that is expected.
-/

namespace AgentProtocol.A4P

open Lib

/-! ## Scope -/

structure ActionSpec where
  name : String
  /-- `none` stands for any parameters. -/
  params : Option Fields
  allowExtraParams : Bool
  deriving DecidableEq

def ActionSpec.toValue (a : ActionSpec) : Value :=
  .obj (.ofList [("name", .str a.name), ("params", match a.params with
    | none => .str "*"
    | some params => .obj params), ("allowExtraParams", .bool a.allowExtraParams)])

structure IntentScope where
  actions : List ActionSpec
  maxExecutions : Option ℤ := none
  deriving DecidableEq

def listValue (l : List Value) : Value := .arr (l.foldr Items.cons .nil)

def IntentScope.toValue (s : IntentScope) : Value :=
  .obj (.ofList ([("actions", listValue (s.actions.map ActionSpec.toValue))] ++
    (s.maxExecutions.map fun n => ("executionPolicy", Value.obj (.ofList [("maxExecutions", .int n)]))).toList))

def normalizeParamsConstraint : Option Value → Except String (Option Fields)
  | some (.str "*") => .ok none
  | none => .ok (some .nil)
  | some .null => .ok (some .nil)
  | some (.obj params) => .ok (some params)
  | some _ => .error "Action params must be an object or '*'"

def normalizeActionSpec (p : Printer) : Value → Except String ActionSpec
  | .obj d => do
    let name := p.fieldText d "name"
    if name = "" then throw "Intent action name missing"
    let allowExtraParams ← match d.get? "allowExtraParams" with
      | none => .ok false
      | some (.bool b) => .ok b
      | some _ => .error "Intent action allowExtraParams must be a boolean"
    let params ← normalizeParamsConstraint (d.get? "params")
    pure { name, params, allowExtraParams }
  | _ => .error "Intent actions must be objects with name and params"

def normalizeItems (p : Printer) : Items → Except String (List ActionSpec)
  | .nil => .ok []
  | .cons item rest => do
    let action ← normalizeActionSpec p item
    let actions ← normalizeItems p rest
    pure (action :: actions)

def normalizeActionSpecs (p : Printer) : Option Value → Except String (List ActionSpec)
  | some (.arr items) => do
    let actions ← normalizeItems p items
    if actions = [] then throw "Intent actions must not be empty"
    pure actions
  | _ => .error "Intent actions must be a list"

def normalizeExecutionPolicy : Value → Except String ℤ
  | .null => .error "executionPolicy must include maxExecutions"
  | .obj policy => match policy.get? "maxExecutions" with
    | none => .error "executionPolicy must include maxExecutions"
    | some .null => .error "executionPolicy must include maxExecutions"
    | some (.int n) => if n ≤ 0 then .error "executionPolicy.maxExecutions must be a positive integer" else .ok n
    | some _ => .error "executionPolicy.maxExecutions must be a positive integer"
  | _ => .error "Intent executionPolicy must be an object"

def normalizeIntentScope (p : Printer) (intent : Option Value) : Except String IntentScope := do
  let raw := (asDict intent).getD .nil
  let actions ← normalizeActionSpecs p (raw.get? "actions")
  match raw.get? "executionPolicy" with
  | none => pure { actions }
  | some policy => do
    let n ← normalizeExecutionPolicy policy
    pure { actions, maxExecutions := some n }

theorem normalizeExecutionPolicy_pos {policy : Value} {n : ℤ} (h : normalizeExecutionPolicy policy = .ok n) : 0 < n := by
  unfold normalizeExecutionPolicy at h
  split at h
  · cases h
  · split at h
    · cases h
    · cases h
    · split at h
      · cases h
      obtain rfl := Except.ok.inj h
      omega
    · cases h
  · cases h

theorem normalizeIntentScope_pos {p : Printer} {intent : Option Value} {scope : IntentScope} {n : ℤ}
    (h : normalizeIntentScope p intent = .ok scope) (hn : scope.maxExecutions = some n) : 0 < n := by
  unfold normalizeIntentScope at h
  simp only [bind, Except.bind, pure, Except.pure] at h
  split at h
  · cases h
  split at h
  · obtain rfl := Except.ok.inj h
    cases hn
  · split at h
    · cases h
    rename_i n' hpolicy
    obtain rfl := Except.ok.inj h
    obtain rfl := Option.some.inj hn
    exact normalizeExecutionPolicy_pos hpolicy

/-! ## Matching -/

/-- Whether a character is in the text of a bracket expression. -/
def inBracket (c : Char) : List Char → Bool
  | a :: '-' :: b :: rest => (a ≤ c && c ≤ b) || inBracket c rest
  | a :: rest => a = c || inBracket c rest
  | [] => false

/-- The text of a bracket expression after its `[`, and the pattern after its `]`. -/
def bracket (pattern : List Char) : Option (List Char × List Char) :=
  let (lead, rest) := match pattern with
    | '!' :: ']' :: rest => (['!', ']'], rest)
    | '!' :: rest => (['!'], rest)
    | ']' :: rest => ([']'], rest)
    | rest => ([], rest)
  match rest.span (· ≠ ']') with
  | (stuff, _ :: rest) => some (lead ++ stuff, rest)
  | (_, []) => none

def bracketMatches (c : Char) : List Char → Bool
  | '!' :: stuff => !inBracket c stuff
  | stuff => inBracket c stuff

/-- `fnmatch.fnmatchcase` on characters, for as many steps as are given. -/
def globMatch : ℕ → List Char → List Char → Bool
  | 0, _, _ => false
  | _ + 1, [], text => text = []
  | steps + 1, '*' :: pattern, text =>
    globMatch steps pattern text || (match text with
      | [] => false
      | _ :: text => globMatch steps ('*' :: pattern) text)
  | _ + 1, _ :: _, [] => false
  | steps + 1, '?' :: pattern, _ :: text => globMatch steps pattern text
  | steps + 1, '[' :: pattern, c :: text => match bracket pattern with
    | some (stuff, rest) => bracketMatches c stuff && globMatch steps rest text
    | none => c = '[' && globMatch steps pattern text
  | steps + 1, d :: pattern, c :: text => c = d && globMatch steps pattern text

def fnmatchcase (text pattern : String) : Bool :=
  globMatch (text.length + pattern.length + 1) pattern.toList text.toList

def paramValueMatches (actual expected : Value) : Bool :=
  match actual, expected with
  | _, .str "*" => true
  | .str a, .str e => fnmatchcase a e
  | a, e => a.eq e

/-- Why the parameters do not satisfy the constraint of an action, if they do not. -/
def mismatchReason (p : Printer) (action : String) (actual : Fields) (constraint : Fields) (allowExtra : Bool) : Option String :=
  let extra := (actual.keys.filter (· ∉ constraint.keys)).insertionSort (· ≤ ·)
  if !allowExtra && extra ≠ [] then
    some ("Unexpected params for action '" ++ action ++ "': " ++ p.text (listValue (extra.map .str)))
  else
    constraint.toList.findSome? fun (key, expected) =>
      match actual.get? key with
      | none => some ("Required param '" ++ key ++ "' missing for action '" ++ action ++ "'")
      | some value =>
        if paramValueMatches value expected then none
        else some ("Param '" ++ key ++ "' mismatch for action '" ++ action ++ "'")

/-- `params_match_intent_scope`; a failure comes with its reason. -/
def paramsMatchIntentScope (p : Printer) (intent : Fields) (action : String) (params : Fields) : Option String :=
  let expected := Text.strip action
  if expected = "" then some "Expected action missing"
  else match normalizeActionSpecs p (intent.get? "actions") with
    | .error reason => some reason
    | .ok actions =>
      let reasons := (actions.filter (·.name = expected)).map fun allowed =>
        match allowed.params with
        | none => none
        | some constraint => mismatchReason p expected params constraint allowed.allowExtraParams
      if reasons.any (·.isNone) then none
      else match reasons.head? with
        | some reason => reason
        | none => some ("Action '" ++ expected ++ "' not in token actions: " ++ p.text (listValue (actions.map fun a => .str a.name)))

example : fnmatchcase "note-17" "note-[0-9]?" = true ∧ fnmatchcase "note-x7" "note-[!a-z]*" = false := by decide +kernel

/-! ## Verification -/

structure TokenKey where
  verify : String → String → Bool

def tokenKeyId : String := "server#intent-token-v1"

def intentTokenCorePayload (p : Printer) (token : Fields) : Except String Fields := do
  let intent ← normalizeIntentScope p (token.get? "intent")
  pure (.ofList [
    ("type", (token.get? "type").getD (.str "")),
    ("tokenId", (token.get? "tokenId").getD (.str "")),
    ("mandateId", (token.get? "mandateId").getD (.str "")),
    ("subject", (token.get? "subject").getD (.obj .nil)),
    ("user", (token.get? "user").getD (.obj .nil)),
    ("intent", intent.toValue),
    ("issuedAt", (token.get? "issuedAt").getD (.str "")),
    ("expireAt", (token.get? "expireAt").getD (.str "")),
    ("nonce", (token.get? "nonce").getD (.str ""))])

def tokenText (p : Printer) (token : Fields) : Except String String := do
  let core ← intentTokenCorePayload p token
  match (Value.obj (.ofList [("scope", .str "server.intent_token"), ("token", .obj core)])).canonicalJson p.float with
  | none => throw "Out of range float values are not JSON compliant"
  | some text => pure text

/-- The call that a token is presented for. -/
structure Expected where
  action : String
  params : Fields
  agentId : Option String
  userId : Option String
  agentKeyId : Option String

def agentKeyIdOf (p : Printer) (subject : Fields) : String :=
  let agentKey := (asDict (subject.get? "agentKey")).getD .nil
  Text.strip (p.text ((((agentKey.get? "kid").filter truthy).orElse fun _ => (agentKey.get? "keyId").filter truthy).getD (.str "")))

/-- `verify_intent_token` at a time; a failure comes with its reason. -/
def verifyIntentToken (p : Printer) (key : TokenKey) (token : Fields) (expected : Expected) (now : ℚ) : Option String :=
  if token.get? "type" ≠ some (.str "a4p/v1/intent-token") then some "Invalid token type"
  else
    let alg := p.fieldText token "alg"
    let signature := p.fieldText token "signature"
    let mandateId := p.fieldText token "mandateId"
    let keyId := p.fieldText token "keyId"
    let expectedKeyId := tokenKeyId ++ ":" ++ mandateId
    if alg ≠ "EdDSA" then some ("Token alg mismatch: expected 'EdDSA', got '" ++ alg ++ "'")
    else if signature = "" then some "Token signature missing"
    else if mandateId = "" then some "Token mandateId missing"
    else if keyId ≠ expectedKeyId then some ("Token keyId mismatch: expected '" ++ expectedKeyId ++ "', got '" ++ keyId ++ "'")
    else match tokenText p token with
      | .error reason => some reason
      | .ok text =>
        let expireAt := p.fieldText token "expireAt"
        let subject := (asDict (token.get? "subject")).getD .nil
        let user := (asDict (token.get? "user")).getD .nil
        let mismatched (what wanted actual : String) : Option String :=
          if wanted ≠ "" ∧ actual ≠ wanted then
            some ("Token " ++ what ++ " mismatch: expected '" ++ wanted ++ "', got '" ++ actual ++ "'")
          else none
        if !key.verify text signature then some "Token signature invalid"
        else if expireAt = "" then some "Token expireAt missing"
        else match strptime expireAt with
          | none => some "Token expireAt format invalid"
          | some expire =>
            if (timegm expire : ℚ) < now then some "Token expired"
            else
              (mismatched "subject" (expected.agentId.getD "") (p.fieldText subject "id")).orElse fun _ =>
                (mismatched "agent key" (expected.agentKeyId.getD "") (agentKeyIdOf p subject)).orElse fun _ =>
                  (mismatched "user" (expected.userId.getD "") (p.fieldText user "id")).orElse fun _ =>
                    paramsMatchIntentScope p ((asDict (token.get? "intent")).getD .nil) expected.action expected.params

end AgentProtocol.A4P
