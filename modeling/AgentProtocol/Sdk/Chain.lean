-- SUMMARY: Validation and signing of a chain of intents in the ArkTS SDK, and when the copy of a lower intent keeps its signature.
import AgentProtocol.Lib.Except
import AgentProtocol.Sdk.Objects

/-!
# The intent chain

`issueIntent`, `signIntent` and `activateIntent` verify the signature of an intent and embed a copy of it. Intents are
values as they come out of `JSON.parse`; the other arguments may be any values.

Errors are their codes: the texts of the validators only go to a log.
-/

namespace AgentProtocol.Sdk.ArkTs

open Lib

/-! ## Values that validators look at -/

/-- The language, as far as validators depend on it: its numbers, and `i < value` where the value may have to be
converted to a number. -/
structure Language extends Doubles where
  below : ℕ → Option Js → Bool
  below_num : ∀ (i : ℕ) (q : ℚ), below i (some (.num (some q))) = decide ((i : ℚ) < q)
  below_undefined : ∀ i : ℕ, below i none = false

def field (value : Option Js) (name : String) : Option Js := Js.field value (utf16 name)

def integer? : Option Js → Option ℤ
  | some (.num (some q)) => if q.den = 1 then some q.num else none
  | _ => none

def isNonNegativeInteger (v : Option Js) : Bool := (integer? v).any fun n => 0 ≤ n && n ≤ maxSafeInteger

def isPositiveInteger (v : Option Js) : Bool := (integer? v).any fun n => 0 < n && n ≤ maxSafeInteger

def isNonBlankString : Option Js → Bool
  | some (.str s) => !blank s
  | _ => false

/-- A number that was checked to be an integer. -/
def integerOf (v : Option Js) : ℤ := (integer? v).getD 0

def isText (v : Option Js) (text : String) : Bool := v = some (.str (utf16 text))

def isValidIntentActionType (action : Option Js) : Bool := isText action "AI_PAY"

def isValidAlgorithmType (alg : Option Js) : Bool := isText alg "RSA3072"

mutual

def elementBound : Js → ℕ
  | .arr items => items.toList.length
  | .str s => s.length
  | .obj proto props => props.toList.length + inheritedBound proto
  | _ => 0

def inheritedBound : Proto → ℕ
  | .of value => elementBound value
  | _ => 0

end

section Validation

variable (L : Language)

/-- The elements that `for (let i = 0; i < value.length; i++)` comes to, up to the first that is missing: no validator
goes on after that one. -/
def elementsFrom (value : Js) : ℕ → ℕ → List (Option Js)
  | 0, _ => []
  | fuel + 1, i =>
    if L.below i (value.get lengthKey) then
      match value.at i with
      | none => [none]
      | some element => some element :: elementsFrom value fuel (i + 1)
    else []

def elements : Option Js → List (Option Js)
  | none => []
  | some value => elementsFrom L value (elementBound value + 1) 0

def isFilled (value : Option Js) : Bool := Js.truthy value && !Js.same (Js.field value lengthKey) (some (.num (some 0)))

abbrev Validation := Except A4pErrorCode Unit

def check (condition : Bool) : Validation := require condition .invalidParameter

/-! ## Validators -/

def validatePaymentConstraints (pc : Option Js) : Validation := do
  let absent (name : String) : Bool := (field pc name).isNone
  check (absent "singleOrderMaxAmount" || isPositiveInteger (field pc "singleOrderMaxAmount"))
  check (isPositiveInteger (field pc "totalMaxAmount"))
  check (isNonBlankString (field pc "currency"))
  check (isNonNegativeInteger (field pc "validFrom"))
  check (isNonNegativeInteger (field pc "validUntil"))
  check (integerOf (field pc "validFrom") ≤ integerOf (field pc "validUntil"))
  check (absent "maxExecutionCount" || isPositiveInteger (field pc "maxExecutionCount"))
  if absent "anchorTime" && absent "periodSeconds" && absent "maxExecutionCountPerPeriod" then .ok ()
  else do
    check (!absent "anchorTime" && !absent "periodSeconds" && !absent "maxExecutionCountPerPeriod")
    check (isNonNegativeInteger (field pc "anchorTime"))
    check (integerOf (field pc "anchorTime") ≤ integerOf (field pc "validFrom"))
    check (isPositiveInteger (field pc "periodSeconds"))
    check (integerOf (field pc "periodSeconds") ≤ maxPeriodSeconds)
    check (isPositiveInteger (field pc "maxExecutionCountPerPeriod"))

def productMatches (a b : Option Js) : Bool :=
  Js.same (field (field a "seller") "id") (field (field b "seller") "id") &&
    Js.same (field (field a "spusku") "spuId") (field (field b "spusku") "spuId") &&
    Js.same (field (field a "spusku") "skuId") (field (field b "spusku") "skuId")

def validateProduct (product : Option Js) : Validation := do
  check (Js.truthy (field product "seller"))
  check (isNonBlankString (field (field product "seller") "id"))
  let spusku := field product "spusku"
  check (Js.truthy spusku)
  check ((field spusku "spuId").isNone || isNonBlankString (field spusku "spuId"))
  check ((field spusku "skuId").isNone || isNonBlankString (field spusku "skuId"))
  check (!((field spusku "spuId").isNone && (field spusku "skuId").isNone))

def validateProducts (earlier : List (Option Js)) : List (Option Js) → Validation
  | [] => .ok ()
  | product :: rest => do
    check (Js.truthy product)
    validateProduct product
    check (!earlier.any fun p => productMatches product p)
    validateProducts (earlier ++ [product]) rest

def validateItemWhiteList (group : Option Js) : Validation := do
  check (Js.truthy group)
  check (isFilled (field group "whiteList"))
  validateProducts [] (elements L (field group "whiteList"))
  check (isPositiveInteger (field group "quantity"))

def validateGroups (earlier : List (Option Js)) : List (Option Js) → Validation
  | [] => .ok ()
  | group :: rest => do
    validateItemWhiteList L group
    check (!earlier.any fun g => (elements L (field group "whiteList")).any fun a =>
      (elements L (field g "whiteList")).any fun b => productMatches a b)
    validateGroups (earlier ++ [group]) rest

def validateShoppingItems (resources : Option Js) : Validation := do
  check (isFilled (field resources "itemsWhiteList"))
  validateGroups L [] (elements L (field resources "itemsWhiteList"))

def validateStructuredIntent (si : Option Js) : Validation := do
  check (isValidIntentActionType (field si "action"))
  check (Js.truthy (field si "resources"))
  validateShoppingItems L (field si "resources")
  check (Js.truthy (field si "constraints"))
  validatePaymentConstraints (field si "constraints")

def validateIdentity (identity : Option Js) : Validation := do
  check (isNonBlankString (field identity "identityProvider"))
  check (isNonBlankString (field identity "id"))

def validateUserIdentity (ui : Option Js) : Validation := validateIdentity ui

def validateAgentIdentity (ai : Option Js) : Validation := validateIdentity ai

def validateServiceProviderIdentity (spi : Option Js) : Validation := check (isNonBlankString (field spi "id"))

def validateSigningEnv (env : Option Js) : Validation := do
  check (Js.truthy env)
  check (Js.truthy (field env "device"))
  check (Js.truthy (field env "app"))

/-- The three identities of an L2, and of an issue context. -/
def validateIdentities (holder : Option Js) : Validation := do
  check (Js.truthy (field holder "userIdentity"))
  validateUserIdentity (field holder "userIdentity")
  check (Js.truthy (field holder "agentIdentity"))
  validateAgentIdentity (field holder "agentIdentity")
  check (Js.truthy (field holder "serviceProviderIdentity"))
  validateServiceProviderIdentity (field holder "serviceProviderIdentity")

def validateIssueContext (ctx : Option Js) : Validation := do
  check (Js.truthy ctx)
  validateIdentities ctx

def validateSignatureInfo (info : Option Js) : Validation := do
  check (Js.truthy info)
  check (isValidAlgorithmType (field info "alg"))
  check (isNonBlankString (field info "keyIdentifier"))
  check (isNonBlankString (field info "sign"))

def validateIntentL1 (intent : Option Js) : Validation := do
  check (Js.truthy intent)
  check (isNonBlankString (field intent "version"))
  check (isNonBlankString (field intent "intentId"))
  check (isNonBlankString (field intent "intentConversation"))
  check (isNonBlankString (field intent "intentSummary"))
  check (Js.truthy (field intent "structuredIntent"))
  validateStructuredIntent L (field intent "structuredIntent")
  check (isNonNegativeInteger (field intent "timestamp"))
  validateSignatureInfo (field intent "sign")

/-- The stamp of an intent is not before that of the intent in it. -/
def validateTimestamp (intent lower : Option Js) : Validation := do
  check (isNonNegativeInteger (field intent "timestamp"))
  check (integerOf (field lower "timestamp") ≤ integerOf (field intent "timestamp"))

def validateIntentL2 (intent : Option Js) : Validation := do
  check (Js.truthy intent)
  check (isNonBlankString (field intent "version"))
  check (Js.truthy (field intent "intentL1"))
  validateIntentL1 L (field intent "intentL1")
  validateIdentities intent
  validateTimestamp intent (field intent "intentL1")
  validateSignatureInfo (field intent "sign")

def validateIntentL3 (intent : Option Js) : Validation := do
  check (Js.truthy intent)
  check (isNonBlankString (field intent "version"))
  check (Js.truthy (field intent "intentL2"))
  validateIntentL2 L (field intent "intentL2")
  check (Js.truthy (field intent "signingEnv"))
  validateSigningEnv (field intent "signingEnv")
  validateTimestamp intent (field intent "intentL2")
  validateSignatureInfo (field intent "sign")

/-- `validateNow`, where an instant is given. -/
def validateNow (now : Option Js) : Validation := check (now.isNone || isNonNegativeInteger now)

end Validation

/-! ## Signers and verifiers -/

structure VerificationResult where
  valid : Bool
  code : ℤ

/-- None if the call throws or has no result. -/
abbrev SignatureVerifier := List ℕ → Option Js → Option VerificationResult

abbrev Signer := List ℕ → Option Js

/-- `runVerifier`: a verdict whose parts agree. -/
def runVerifier (verifier : SignatureVerifier) (data : List ℕ) (signature : Option Js) : Except A4pErrorCode VerificationResult :=
  match verifier data signature with
  | none => .error .verifyFail
  | some result => if (result.valid && result.code ≠ 0) || (!result.valid && result.code = 0) then .error .verifyFail else .ok result

def verifyOrThrow (verifier : SignatureVerifier) (data : List ℕ) (signature : Option Js) : Except A4pErrorCode Unit := do
  let result ← runVerifier verifier data signature
  require result.valid .verifyFail

def runSigner (signer : Signer) (data : List ℕ) : Except A4pErrorCode Js :=
  match signer data with
  | none => .error .signingFail
  | some info =>
    match validateSignatureInfo (some info) with
    | .ok () => .ok info
    | .error _ => .error .signingFail

/-! ## Intents -/

def object (members : List (String × Js)) : Js := Objects.literal (.standard, .ofList (members.map fun m => ⟨utf16 m.1, m.2⟩))

def timestampJs (timestamp : ℤ) : Js := .num (some timestamp)

structure IntentL2 where
  intentL1 : Js
  userIdentity : Js
  agentIdentity : Js
  serviceProviderIdentity : Js
  timestamp : ℤ
  sign : Option Js := none

def IntentL2.toJs (i : IntentL2) : Js :=
  object ([("version", .str protocolVersion), ("intentL1", i.intentL1), ("userIdentity", i.userIdentity),
    ("agentIdentity", i.agentIdentity), ("serviceProviderIdentity", i.serviceProviderIdentity),
    ("timestamp", timestampJs i.timestamp)] ++ i.sign.toList.map fun sign => ("sign", sign))

structure IntentL3 where
  intentL2 : Js
  signingEnv : Js
  timestamp : ℤ
  sign : Option Js := none

def IntentL3.toJs (i : IntentL3) : Js :=
  object ([("version", .str protocolVersion), ("intentL2", i.intentL2), ("signingEnv", i.signingEnv),
    ("timestamp", timestampJs i.timestamp)] ++ i.sign.toList.map fun sign => ("sign", sign))

structure IntentExecutionContext where
  intentId : Option Js
  authorizedIntent : Js
  status : IntentExecutionStatus
  activatedTime : ℤ
  executions : List ExecutionRecord
  executionInfo : PaymentExecutionInfo

/-- `computeExecutionInfo` of an empty ledger. -/
def computeExecutionInfo (constraints : Option Js) (now : ℤ) : PaymentExecutionInfo where
  leftExecutionCount := (field constraints "maxExecutionCount").map fun v => integerOf (some v)
  leftAmount := integerOf (field constraints "totalMaxAmount")
  periodIndex :=
    if (field constraints "anchorTime").isNone then none
    else some ((now - integerOf (field constraints "anchorTime")) / (integerOf (field constraints "periodSeconds") * 1000))
  leftPeriodExecutionCount := (field constraints "maxExecutionCountPerPeriod").map fun v => integerOf (some v)

/-! ## The chain -/

section Api

variable (L : Language)

/-- `now`, or the clock. -/
def instant (clock : ℤ) (now : Option Js) : ℤ := if now.isNone then clock else integerOf now

def checkVersion (intent : Option Js) : Except A4pErrorCode Unit :=
  require (field intent "version" = some (.str protocolVersion)) .unsupportedVersion

/-- What is signed or verified. -/
def signable (v : Js) : Except A4pErrorCode (List ℕ) := orFail .serializeFail (Objects.toSignableBytes v)

/-- A value that a validator found. -/
def present (v : Option Js) : Js := v.getD .null

def issueIntent (intentL1 : Js) (agentVerifier : SignatureVerifier) (issueContext : Option Js) (serverSigner : Signer)
    (now : Option Js) (clock : ℤ) : Except A4pErrorCode IntentL2 := do
  validateNow now
  validateIssueContext issueContext
  validateIntentL1 L (some intentL1)
  checkVersion (some intentL1)
  let timestamp := instant clock now
  require (integerOf (field (some intentL1) "timestamp") ≤ timestamp) .invalidParameter
  let l1Data ← signable intentL1
  verifyOrThrow agentVerifier l1Data (field (some intentL1) "sign")
  let intentL2 : IntentL2 :=
    { intentL1 := Objects.deepClone intentL1
      userIdentity := Objects.deepClone (present (field issueContext "userIdentity"))
      agentIdentity := Objects.deepClone (present (field issueContext "agentIdentity"))
      serviceProviderIdentity := Objects.deepClone (present (field issueContext "serviceProviderIdentity"))
      timestamp := timestamp }
  let dataToSign ← signable intentL2.toJs
  let sign ← runSigner serverSigner dataToSign
  .ok { intentL2 with sign := some sign }

def constraintsOf (intentL1 : Option Js) : Option Js := field (field intentL1 "structuredIntent") "constraints"

def signIntent (intentL2 : Js) (serverVerifier : SignatureVerifier) (signingEnv : Option Js) (userSigner : Signer)
    (now : Option Js) (clock : ℤ) : Except A4pErrorCode IntentL3 := do
  validateNow now
  validateSigningEnv signingEnv
  validateIntentL2 L (some intentL2)
  checkVersion (some intentL2)
  checkVersion (field (some intentL2) "intentL1")
  let timestamp := instant clock now
  require (integerOf (field (some intentL2) "timestamp") ≤ timestamp) .invalidParameter
  require (timestamp ≤ integerOf (field (constraintsOf (field (some intentL2) "intentL1")) "validUntil")) .timestampExpired
  let l2Data ← signable intentL2
  verifyOrThrow serverVerifier l2Data (field (some intentL2) "sign")
  let intentL3 : IntentL3 :=
    { intentL2 := Objects.deepClone intentL2, signingEnv := Objects.deepClone (present signingEnv), timestamp := timestamp }
  let dataToSign ← signable intentL3.toJs
  let sign ← runSigner userSigner dataToSign
  .ok { intentL3 with sign := some sign }

def checkChainVersions (intentL3 : Option Js) : Except A4pErrorCode Unit := do
  checkVersion intentL3
  checkVersion (field intentL3 "intentL2")
  checkVersion (field (field intentL3 "intentL2") "intentL1")

def activateIntent (intentL3 : Js) (userVerifier : SignatureVerifier) (now : Option Js) (clock : ℤ) :
    Except A4pErrorCode IntentExecutionContext := do
  validateNow now
  validateIntentL3 L (some intentL3)
  checkChainVersions (some intentL3)
  let nowMs := instant clock now
  require (integerOf (field (some intentL3) "timestamp") ≤ nowMs) .invalidParameter
  let intentL1 := field (field (some intentL3) "intentL2") "intentL1"
  require (nowMs ≤ integerOf (field (constraintsOf intentL1) "validUntil")) .timestampExpired
  let l3Data ← signable intentL3
  verifyOrThrow userVerifier l3Data (field (some intentL3) "sign")
  .ok
    { intentId := field intentL1 "intentId"
      authorizedIntent := Objects.deepFreeze (Objects.deepClone intentL3)
      status := .active
      activatedTime := nowMs
      executions := []
      executionInfo := computeExecutionInfo (constraintsOf intentL1) nowMs }

end Api

/-! ## Accepted intents -/

theorem check_eq_ok {condition : Bool} {u : Unit} : check condition = .ok u ↔ condition = true := require_eq_ok

theorem truthy_of_validateSignatureInfo {info : Option Js} {u : Unit} (h : validateSignatureInfo info = .ok u) : Js.truthy info = true := by
  obtain ⟨_, htruthy, -⟩ := bind_eq_ok.mp h
  exact check_eq_ok.mp htruthy

section Accepted

variable {L : Language} {intent : Option Js} {u : Unit}

theorem sign_of_validateIntentL1 (h : validateIntentL1 L intent = .ok u) : Js.truthy (field intent "sign") = true := by
  iterate 8 obtain ⟨_, -, h⟩ := bind_eq_ok.mp h
  exact truthy_of_validateSignatureInfo h

theorem sign_of_validateIntentL2 (h : validateIntentL2 L intent = .ok u) : Js.truthy (field intent "sign") = true := by
  iterate 6 obtain ⟨_, -, h⟩ := bind_eq_ok.mp h
  exact truthy_of_validateSignatureInfo h

theorem sign_of_validateIntentL3 (h : validateIntentL3 L intent = .ok u) : Js.truthy (field intent "sign") = true := by
  iterate 7 obtain ⟨_, -, h⟩ := bind_eq_ok.mp h
  exact truthy_of_validateSignatureInfo h

/-- An intent that has a signature and can be signed, with its copy. -/
structure Copied (intent copy : Js) : Prop where
  signed : Js.truthy (field (some intent) "sign") = true
  signable : (Objects.toSignableBytes intent).isSome = true
  copy : copy = Objects.deepClone intent

theorem isSome_of_signable {v : Js} {bytes : List ℕ} (h : signable v = .ok bytes) : (Objects.toSignableBytes v).isSome = true := by
  rw [orFail_eq_ok.mp h]
  rfl

variable {now : Option Js} {clock : ℤ}

theorem copied_of_issueIntent {intentL1 : Js} {agentVerifier : SignatureVerifier} {issueContext : Option Js} {serverSigner : Signer}
    {r : IntentL2}
    (h : issueIntent L intentL1 agentVerifier issueContext serverSigner now clock = .ok r) : Copied intentL1 r.intentL1 := by
  obtain ⟨_, -, h⟩ := bind_eq_ok.mp h
  obtain ⟨_, -, h⟩ := bind_eq_ok.mp h
  obtain ⟨_, hvalid, h⟩ := bind_eq_ok.mp h
  obtain ⟨_, -, h⟩ := bind_eq_ok.mp h
  obtain ⟨_, -, h⟩ := bind_eq_ok.mp h
  obtain ⟨_, hbytes, h⟩ := bind_eq_ok.mp h
  obtain ⟨_, -, h⟩ := bind_eq_ok.mp h
  obtain ⟨_, -, h⟩ := bind_eq_ok.mp h
  obtain ⟨sign, -, h⟩ := bind_eq_ok.mp h
  rw [← Except.ok.inj h]
  exact ⟨sign_of_validateIntentL1 hvalid, isSome_of_signable hbytes, rfl⟩

theorem copied_of_signIntent {intentL2 : Js} {serverVerifier : SignatureVerifier} {signingEnv : Option Js} {userSigner : Signer}
    {r : IntentL3}
    (h : signIntent L intentL2 serverVerifier signingEnv userSigner now clock = .ok r) : Copied intentL2 r.intentL2 := by
  obtain ⟨_, -, h⟩ := bind_eq_ok.mp h
  obtain ⟨_, -, h⟩ := bind_eq_ok.mp h
  obtain ⟨_, hvalid, h⟩ := bind_eq_ok.mp h
  iterate 4 obtain ⟨_, -, h⟩ := bind_eq_ok.mp h
  obtain ⟨_, hbytes, h⟩ := bind_eq_ok.mp h
  obtain ⟨_, -, h⟩ := bind_eq_ok.mp h
  obtain ⟨_, -, h⟩ := bind_eq_ok.mp h
  obtain ⟨sign, -, h⟩ := bind_eq_ok.mp h
  rw [← Except.ok.inj h]
  exact ⟨sign_of_validateIntentL2 hvalid, isSome_of_signable hbytes, rfl⟩

theorem copied_of_activateIntent {intentL3 : Js} {userVerifier : SignatureVerifier}
    {r : IntentExecutionContext} (h : activateIntent L intentL3 userVerifier now clock = .ok r) : Copied intentL3 r.authorizedIntent := by
  obtain ⟨_, -, h⟩ := bind_eq_ok.mp h
  obtain ⟨_, hvalid, h⟩ := bind_eq_ok.mp h
  iterate 3 obtain ⟨_, -, h⟩ := bind_eq_ok.mp h
  obtain ⟨_, hbytes, h⟩ := bind_eq_ok.mp h
  obtain ⟨_, -, h⟩ := bind_eq_ok.mp h
  rw [← Except.ok.inj h]
  exact ⟨sign_of_validateIntentL3 hvalid, isSome_of_signable hbytes, rfl⟩

end Accepted

/-! ## Copies of parsed intents -/

/-- What `JSON.parse` gives: no key twice. -/
structure Parsed where
  doc : Doc
  distinct : doc.distinct = true

def Parsed.value (L : Language) (d : Parsed) : Js := Js.ofDoc L.double d.doc

/-- A parsed intent that was accepted, the path to its structured intent, and the copy that was embedded or frozen. -/
inductive Embedded (L : Language) : Parsed → List Access → Js → Prop
  | issued {d : Parsed} {agentVerifier : SignatureVerifier} {issueContext : Option Js} {serverSigner : Signer} {now : Option Js}
      {clock : ℤ} {r : IntentL2} (h : issueIntent L (d.value L) agentVerifier issueContext serverSigner now clock = .ok r) :
      Embedded L d [.field (utf16 "structuredIntent")] r.intentL1
  | signed {d : Parsed} {serverVerifier : SignatureVerifier} {signingEnv : Option Js} {userSigner : Signer} {now : Option Js}
      {clock : ℤ} {r : IntentL3} (h : signIntent L (d.value L) serverVerifier signingEnv userSigner now clock = .ok r) :
      Embedded L d [.field (utf16 "intentL1"), .field (utf16 "structuredIntent")] r.intentL2
  | activated {d : Parsed} {userVerifier : SignatureVerifier} {now : Option Js} {clock : ℤ} {r : IntentExecutionContext}
      (h : activateIntent L (d.value L) userVerifier now clock = .ok r) :
      Embedded L d [.field (utf16 "intentL2"), .field (utf16 "intentL1"), .field (utf16 "structuredIntent")] r.authorizedIntent

/-- The copy has the signable bytes that were verified, and every constraint and resource that they cover. -/
def Keeps (L : Language) (d : Parsed) (structured : List Access) (copy : Js) : Prop :=
  (∃ bytes, Objects.toSignableBytes (d.value L) = some bytes ∧ Objects.toSignableBytes copy = some bytes) ∧
    ∀ path : List Access, copy.read (structured ++ path) = (d.value L).read (structured ++ path)

variable {L : Language}

variable {d : Parsed} {copy : Js}

theorem Copied.members (h : Copied (d.value L) copy) : ∃ f, d.doc = .obj f ∧ signKey ∈ f.keys := by
  have hsigned := h.signed
  unfold Parsed.value at hsigned
  have hlength : utf16 "sign" ≠ lengthKey := by decide
  cases hdoc : d.doc with
  | obj f =>
    refine ⟨f, rfl, ?_⟩
    by_contra hnot
    have hlookup : f.toList.dlookup (utf16 "sign") = none := List.dlookup_eq_none.mpr hnot
    have hnone : (Props.ofMembers L.double f).get? (utf16 "sign") = none := by
      rw [Props.get?, Props.toList_ofMembers, dlookup_mapValues, hlookup]
      rfl
    have hget : (Js.ofDoc L.double (.obj f)).get (utf16 "sign") = none := by rw [Js.ofDoc, Js.get, hnone]; rfl
    rw [hdoc, field, Js.field, Option.bind_some, hget] at hsigned
    exact Bool.noConfusion hsigned
  | arr | str =>
    rw [hdoc, field, Js.field, Option.bind_some, Js.ofDoc, Js.get, if_neg hlength] at hsigned
    exact Bool.noConfusion hsigned
  | _ =>
    rw [hdoc] at hsigned
    exact Bool.noConfusion hsigned

theorem Copied.keeps_iff (h : Copied (d.value L) copy) {key : Utf16} (hsign : key ≠ signKey)
    (hproto : key ≠ protoKey) (rest : List Access) : Keeps L d (.field key :: rest) copy ↔ Objects.nestedProto d.doc = false := by
  obtain ⟨f, hdoc, hmem⟩ := h.members
  obtain ⟨bytes, hbytes⟩ := Option.isSome_iff_exists.mp h.signable
  have hd := d.distinct
  rw [hdoc] at hd ⊢
  have hvalue : d.value L = Js.ofDoc L.double (.obj f) := by rw [Parsed.value, hdoc]
  have hcopy : copy = Objects.cloned L.toDoubles (.obj f) := by rw [h.copy, hvalue]; rfl
  have hnodup : f.keys.Nodup := by
    rw [Doc.distinct, Bool.and_eq_true, decide_eq_true_eq] at hd
    exact hd.1
  rw [hvalue] at hbytes
  have hiff := Objects.toSignableBytes_cloned_iff hd hmem hbytes
  constructor
  · rintro ⟨⟨bytes', hsame, hcloned⟩, -⟩
    rw [hvalue, hbytes] at hsame
    cases hsame
    exact hiff.mp (hcopy ▸ hcloned)
  · intro hnested
    refine ⟨⟨bytes, hvalue ▸ hbytes, hcopy ▸ hiff.mpr hnested⟩, fun path => ?_⟩
    rw [hcopy, hvalue]
    exact Objects.read_cloned hd (Objects.toSignableBytes_ofDoc hnodup hmem hbytes).1 hnested hsign hproto (rest ++ path)

/-! ## Sample intents -/

/-- Numbers that are read as they are written; nothing but a number bounds a loop. -/
def plainLanguage : Language where
  double q := some q
  exact _ _ _ := rfl
  far n m h _ _ := by exact_mod_cast Option.some.inj h
  below
    | i, some (.num (some q)) => decide ((i : ℚ) < q)
    | _, _ => false
  below_num _ _ := rfl
  below_undefined _ := rfl

def document (members : List (String × Doc)) : Doc := .object (members.map fun m => ⟨utf16 m.1, m.2⟩)

def text (s : String) : Doc := .str (utf16 s)

def sampleSign : Doc := document [("alg", text "RSA3072"), ("keyIdentifier", text "k"), ("sign", text "s")]

def sampleIdentity : Doc := document [("identityProvider", text "p"), ("id", text "i")]

/-- A chain whose constraints have some more members. -/
def sampleChain (more : List (String × Doc)) : Doc :=
  let product := document [("seller", document [("id", text "s")]), ("spusku", document [("skuId", text "x")])]
  let group := document [("whiteList", .list [product]), ("quantity", .int 1)]
  let constraints := document ([("totalMaxAmount", .int 100), ("currency", text "CNY"), ("validFrom", .int 0), ("validUntil", .int 9)] ++ more)
  let structuredIntent := document [("action", text "AI_PAY"), ("resources", document [("itemsWhiteList", .list [group])]),
    ("constraints", constraints)]
  let intentL1 := document [("version", text "1.0"), ("intentId", text "i"), ("intentConversation", text "c"), ("intentSummary", text "s"),
    ("structuredIntent", structuredIntent), ("timestamp", .int 1), ("sign", sampleSign)]
  let intentL2 := document [("version", text "1.0"), ("intentL1", intentL1), ("userIdentity", sampleIdentity),
    ("agentIdentity", sampleIdentity), ("serviceProviderIdentity", sampleIdentity), ("timestamp", .int 2), ("sign", sampleSign)]
  document [("version", text "1.0"), ("intentL2", intentL2), ("signingEnv", document [("device", document []), ("app", document [])]),
    ("timestamp", .int 3), ("sign", sampleSign)]

def sampleParsed : Parsed := ⟨sampleChain [], by decide +kernel⟩

/-- The constraints have no limit of executions; the member named `__proto__` has one. -/
def tamperedParsed : Parsed := ⟨sampleChain [("__proto__", document [("maxExecutionCount", .int 5)])], by decide +kernel⟩

def sampleVerifier : SignatureVerifier := fun _ _ => some ⟨true, 0⟩

theorem sample_activated : ∃ r, activateIntent plainLanguage (sampleParsed.value plainLanguage) sampleVerifier none 5 = .ok r :=
  exists_ok (by decide +kernel)

theorem tampered_activated : ∃ r, activateIntent plainLanguage (tamperedParsed.value plainLanguage) sampleVerifier none 5 = .ok r :=
  exists_ok (by decide +kernel)

/-! ## Signatures of embedded intents -/

/-- An accepted intent is embedded with its signature intact iff no member below its top is named `__proto__`. -/
theorem embedded_keeps_iff {d : Parsed} {structured : List Access} {copy : Js} (h : Embedded L d structured copy) :
    Keeps L d structured copy ↔ Objects.nestedProto d.doc = false := by
  cases h with
  | issued h => exact (copied_of_issueIntent h).keeps_iff (by decide) (by decide) []
  | signed h => exact (copied_of_signIntent h).keeps_iff (by decide) (by decide) _
  | activated h => exact (copied_of_activateIntent h).keeps_iff (by decide) (by decide) _

theorem embedded_keeps_iff_sample : ∃ structured copy, Embedded plainLanguage sampleParsed structured copy ∧
    Keeps plainLanguage sampleParsed structured copy := by
  obtain ⟨r, hr⟩ := sample_activated
  exact ⟨_, _, .activated hr, (embedded_keeps_iff (.activated hr)).mpr (by decide +kernel)⟩

/-- The frozen copy of the tampered intent does not have the bytes that the user signed. -/
theorem embedded_not_kept : ∃ structured copy, Embedded plainLanguage tamperedParsed structured copy ∧
    ¬ Keeps plainLanguage tamperedParsed structured copy := by
  obtain ⟨r, hr⟩ := tampered_activated
  refine ⟨_, _, .activated hr, fun h => ?_⟩
  have hnested := ((copied_of_activateIntent hr).keeps_iff (by decide) (by decide) _).mp h
  exact absurd hnested (by decide +kernel)

end AgentProtocol.Sdk.ArkTs
