-- SUMMARY: The two kinds of mandates: normalization, the signed core, and the text that a user proves.
import AgentProtocol.A4P.IntentToken
import AgentProtocol.A4P.OperationMandate
import AgentProtocol.Lib.Sha256

/-!
# Mandates

An intent mandate and an operation mandate differ in their type, in the field of their id and in
what they grant, which is their body here. The user proves the text of the core with the server's
signature; both sides derive it, each from the mandate that it has.
-/

namespace AgentProtocol.A4P

open Lib

inductive MandateKind where
  | intent
  | operation

def intentMandateType : String := "a4p/v1/intent-mandate"

/-! ## Normalization -/

/-- `normalize_intent_scope` with its errors as exceptions. -/
def raisedScope (p : Printer) (intent : Option Value) : Except Raised IntentScope :=
  (normalizeIntentScope p intent).mapError .valueError

def normalizeIntentMandate (p : Printer) (mandate : Fields) : Except Raised Fields := do
  let signatures := (asDict (mandate.get? "signatures")).getD .nil
  let intent ← raisedScope p (mandate.get? "intent")
  let server ← dictOf (signatures.get? "server")
  let user ← dictOf (signatures.get? "user")
  let userAuthorization := (asDict (mandate.get? "userAuthorization")).getD .nil
  pure ((((mandate.set "type" (.str intentMandateType)).set "intent" intent.toValue).set "signatures"
    (.obj (.ofList [("server", .obj server), ("user", .obj user)]))).set "userAuthorization" (.obj userAuthorization))

namespace MandateKind

def typeText : MandateKind → String
  | .intent => intentMandateType
  | .operation => mandateType

def identifierKey : MandateKind → String
  | .intent => "mandateId"
  | .operation => "operationId"

def bodyKey : MandateKind → String
  | .intent => "intent"
  | .operation => "operation"

def normalizeBody (p : Printer) (body : Option Value) : MandateKind → Except Raised Value
  | .intent => (raisedScope p body).map IntentScope.toValue
  | .operation => (normalizeOperation p (some (.obj ((asDict body).getD .nil)))).map Operation.toValue

def normalize (p : Printer) (mandate : Fields) : MandateKind → Except Raised Fields
  | .intent => normalizeIntentMandate p mandate
  | .operation => normalizeOperationMandate p mandate

def core (k : MandateKind) (normalized : Fields) : Fields :=
  .ofList [
    ("type", (normalized.get? "type").getD (.str "")),
    (k.identifierKey, (normalized.get? k.identifierKey).getD (.str "")),
    ("server", (normalized.get? "server").getD (.str "")),
    ("subject", (normalized.get? "subject").getD (.obj .nil)),
    (k.bodyKey, (normalized.get? k.bodyKey).getD (.obj .nil)),
    ("validTime", (normalized.get? "validTime").getD (.obj .nil)),
    ("userAuthorization", (normalized.get? "userAuthorization").getD (.obj .nil)),
    ("displayText", (normalized.get? "displayText").getD (.str ""))]

def corePayload (p : Printer) (mandate : Fields) (k : MandateKind) : Except Raised Fields := do
  let normalized ← k.normalize p mandate
  pure (k.core normalized)

def serverText (p : Printer) (core : Fields) : Except Raised String :=
  canonicalJson p (.obj (.ofList [("scope", .str "server"), ("mandate", .obj core)]))

end MandateKind

def intentMandateCorePayload (p : Printer) (mandate : Fields) : Except Raised Fields := MandateKind.intent.corePayload p mandate

theorem operationMandateCorePayload_eq (p : Printer) (mandate : Fields) :
    operationMandateCorePayload p mandate = MandateKind.operation.corePayload p mandate := rfl

/-- What a mandate's type says. -/
def kindOf (mandate : Fields) : Option MandateKind :=
  match mandate.get? "type" with
  | some (.str type) =>
    if type = intentMandateType then some .intent else if type = mandateType then some .operation else none
  | _ => none

def mandateCorePayload (p : Printer) (mandate : Fields) : Except Raised Fields :=
  match kindOf mandate with
  | none => .error (.valueError "Unsupported A4P mandate type")
  | some k => k.corePayload p mandate

/-! ## What the user proves -/

/-- `server_signed_mandate_without_user_signature`, of either kind. -/
def serverSignedMandate (p : Printer) (mandate : Fields) : Except Raised Fields := do
  let core ← mandateCorePayload p mandate
  match asDict (((asDict (mandate.get? "signatures")).getD .nil).get? "server") with
  | none => throw (.valueError "Server signature missing")
  | some server => pure (core.set "signatures" (.obj (.ofList [("server", .obj server)])))

def userAuthorizationScope : String := "a4p/v1/user-authorization"

def canonicalUserAuthorizationPayload (p : Printer) (mandate : Fields) : Except Raised String := do
  let signed ← serverSignedMandate p mandate
  canonicalJson p (.obj (.ofList [("scope", .str userAuthorizationScope), ("mandate", .obj signed)]))

def deriveUserAuthorizationChallenge (p : Printer) (mandate : Fields) : Except Raised (List UInt8) := do
  let text ← canonicalUserAuthorizationPayload p mandate
  pure (sha256 (utf8 text))

/-! ## Normalized mandates -/

section Normalized

variable {p : Printer}

@[simp] theorem asDict_obj (d : Fields) : asDict (some (.obj d)) = some d := rfl

@[simp] theorem dictOf_obj (d : Fields) : dictOf (some (.obj d)) = .ok d := by
  cases d <;> rfl

theorem normalizeActionSpec_toValue {a : ActionSpec} (hstrip : Text.strip a.name = a.name) (hne : a.name ≠ "") :
    normalizeActionSpec p a.toValue = .ok a := by
  obtain ⟨name, params, allowExtraParams⟩ := a
  have htext : ∀ v : Value, p.fieldText (.cons "name" (.str name) (.cons "params" v
      (.cons "allowExtraParams" (.bool allowExtraParams) .nil))) "name" = name := by
    intro v
    simp [Printer.fieldText, Fields.get?, Option.filter, truthy, hne, Printer.text, hstrip]
  cases params with
  | none | some =>
    simp [normalizeActionSpec, ActionSpec.toValue, Fields.ofList, htext, hne, Fields.get?, normalizeParamsConstraint, bind, Except.bind,
      pure, Except.pure]

theorem normalizeActionSpec_name {v : Value} {a : ActionSpec} (h : normalizeActionSpec p v = .ok a) :
    Text.strip a.name = a.name ∧ a.name ≠ "" := by
  unfold normalizeActionSpec at h
  split at h
  · rename_i d
    simp only [bind, Except.bind, pure, Except.pure] at h
    split at h
    · cases h
    rename_i hne
    have hstrip : Text.strip (p.fieldText d "name") = p.fieldText d "name" := Text.strip_idem _
    split at h
    · split at h
      · cases h
      obtain rfl := Except.ok.inj h
      exact ⟨hstrip, hne⟩
    · split at h
      · cases h
      obtain rfl := Except.ok.inj h
      exact ⟨hstrip, hne⟩
    · cases h
  · cases h

theorem normalizeItems_toValue : ∀ {items : Items} {actions : List ActionSpec}, normalizeItems p items = .ok actions →
    normalizeItems p ((actions.map ActionSpec.toValue).foldr Items.cons .nil) = .ok actions
  | .nil, actions, h => by
    obtain rfl := Except.ok.inj h
    rfl
  | .cons item rest, actions, h => by
    simp only [normalizeItems, bind, Except.bind, pure, Except.pure] at h
    split at h
    · cases h
    rename_i action haction
    split at h
    · cases h
    rename_i others hothers
    obtain rfl := Except.ok.inj h
    obtain ⟨hstrip, hne⟩ := normalizeActionSpec_name haction
    have hrest := normalizeItems_toValue hothers
    simp only [List.map_cons, List.foldr_cons, normalizeItems, normalizeActionSpec_toValue hstrip hne, hrest, bind, Except.bind,
      pure, Except.pure]

theorem normalizeExecutionPolicy_toValue {n : ℤ} (hn : 0 < n) :
    normalizeExecutionPolicy (.obj (.ofList [("maxExecutions", .int n)])) = .ok n := by
  simp [normalizeExecutionPolicy, Fields.ofList, Fields.get?, not_le.mpr hn]

theorem normalizeActionSpecs_toValue {v : Option Value} {actions : List ActionSpec} (h : normalizeActionSpecs p v = .ok actions) :
    normalizeActionSpecs p (some (listValue (actions.map ActionSpec.toValue))) = .ok actions := by
  unfold normalizeActionSpecs at h
  split at h
  · obtain ⟨actions', hitems, hrest⟩ := bind_eq_ok.mp h
    split at hrest
    · cases hrest
    rename_i hne
    obtain rfl := Except.ok.inj hrest
    simp [normalizeActionSpecs, listValue, normalizeItems_toValue hitems, hne, bind, Except.bind, pure, Except.pure]
  · cases h

theorem normalizeIntentScope_toValue {intent : Option Value} {scope : IntentScope} (h : normalizeIntentScope p intent = .ok scope) :
    normalizeIntentScope p (some scope.toValue) = .ok scope := by
  unfold normalizeIntentScope at h
  obtain ⟨actions, hactions, h⟩ := bind_eq_ok.mp h
  have hagain := normalizeActionSpecs_toValue hactions
  split at h
  · obtain rfl := Except.ok.inj h
    simp [normalizeIntentScope, IntentScope.toValue, asDict, Fields.ofList, Fields.get?, hagain, bind, Except.bind, pure, Except.pure]
  · obtain ⟨n, hpolicy, h⟩ := bind_eq_ok.mp h
    obtain rfl := Except.ok.inj h
    have hn := normalizeExecutionPolicy_toValue (normalizeExecutionPolicy_pos hpolicy)
    simp only [Fields.ofList, List.foldr_cons, List.foldr_nil] at hn
    simp [normalizeIntentScope, IntentScope.toValue, asDict, Fields.ofList, Fields.get?, hagain, hn, bind, Except.bind, pure, Except.pure]

end Normalized

namespace MandateKind

variable {p : Printer} {k : MandateKind} {mandate n : Fields}

theorem normalizeBody_idem {body : Option Value} {v : Value} (h : k.normalizeBody p body = .ok v) :
    k.normalizeBody p (some v) = .ok v := by
  cases k with
  | intent =>
    simp only [normalizeBody, raisedScope] at h ⊢
    cases hscope : normalizeIntentScope p body with
    | error e => rw [hscope] at h; cases h
    | ok scope =>
      rw [hscope] at h
      obtain rfl : scope.toValue = v := Except.ok.inj h
      rw [normalizeIntentScope_toValue hscope]
      rfl
  | operation =>
    simp only [normalizeBody] at h ⊢
    cases hoperation : normalizeOperation p (some (.obj ((asDict body).getD .nil))) with
    | error e => rw [hoperation] at h; cases h
    | ok o =>
      rw [hoperation] at h
      obtain rfl : o.toValue = v := Except.ok.inj h
      obtain ⟨hstrip, hne⟩ := normalizeOperation_action hoperation
      have hagain := normalizeOperation_toValue (p := p) hstrip hne
      simp only [Operation.toValue] at hagain ⊢
      simp [asDict, hagain, Except.map, Operation.toValue]

def signature (mandate : Fields) (who : String) : Except Raised Fields :=
  dictOf (((asDict (mandate.get? "signatures")).getD .nil).get? who)

/-- What normalization makes of the fields of a mandate, other than the signatures. -/
structure CoreOf (p : Printer) (k : MandateKind) (mandate n : Fields) : Prop where
  type : n.get? "type" = some (.str k.typeText)
  body : ∃ v, k.normalizeBody p (mandate.get? k.bodyKey) = .ok v ∧ n.get? k.bodyKey = some v
  userAuthorization : n.get? "userAuthorization" = some (.obj ((asDict (mandate.get? "userAuthorization")).getD .nil))
  same : ∀ key, key ∉ ["type", k.bodyKey, "signatures", "userAuthorization"] → n.get? key = mandate.get? key

structure NormalizedTo (p : Printer) (k : MandateKind) (mandate n : Fields) : Prop extends CoreOf p k mandate n where
  signatures : ∃ server user, signature mandate "server" = .ok server ∧ signature mandate "user" = .ok user ∧
    n.get? "signatures" = some (.obj (.ofList [("server", .obj server), ("user", .obj user)]))

/-- A mandate with the fields that normalization sets; the order in which they are set is the source's. -/
def filled (k : MandateKind) (mandate : Fields) (body : Value) (server user : Fields) : Fields :=
  let signatures := Value.obj (.ofList [("server", .obj server), ("user", .obj user)])
  let userAuthorization := Value.obj ((asDict (mandate.get? "userAuthorization")).getD .nil)
  match k with
  | .intent => (((mandate.set "type" (.str intentMandateType)).set "intent" body).set "signatures" signatures).set "userAuthorization" userAuthorization
  | .operation => (((mandate.set "operation" body).set "signatures" signatures).set "userAuthorization" userAuthorization).set "type" (.str mandateType)

theorem normalize_eq (p : Printer) (k : MandateKind) (mandate : Fields) : k.normalize p mandate = (do
    let body ← k.normalizeBody p (mandate.get? k.bodyKey)
    let server ← signature mandate "server"
    let user ← signature mandate "user"
    pure (k.filled mandate body server user)) := by
  cases k with
  | intent => cases h : raisedScope p (mandate.get? "intent") <;> simp [normalize, normalizeIntentMandate, normalizeBody, bodyKey, h, signature, filled, Except.map, bind, Except.bind]
  | operation =>
    cases h : normalizeOperation p (some (.obj ((asDict (mandate.get? "operation")).getD .nil))) <;>
      simp [normalize, normalizeOperationMandate, normalizeBody, bodyKey, h, signature, filled, Except.map, bind, Except.bind]

theorem eq_filled (h : k.normalize p mandate = .ok n) : ∃ body server user, n = k.filled mandate body server user := by
  rw [normalize_eq] at h
  obtain ⟨body, -, h⟩ := bind_eq_ok.mp h
  obtain ⟨server, -, h⟩ := bind_eq_ok.mp h
  obtain ⟨user, -, h⟩ := bind_eq_ok.mp h
  exact ⟨body, server, user, (Except.ok.inj h).symm⟩

theorem normalize_eq_ok (h : k.normalize p mandate = .ok n) : NormalizedTo p k mandate n := by
  rw [normalize_eq] at h
  obtain ⟨body, hbody, h⟩ := bind_eq_ok.mp h
  obtain ⟨server, hserver, h⟩ := bind_eq_ok.mp h
  obtain ⟨user, huser, h⟩ := bind_eq_ok.mp h
  obtain rfl := Except.ok.inj h
  refine { type := ?_, body := ⟨body, hbody, ?_⟩, userAuthorization := ?_, same := fun key hkey => ?_,
           signatures := ⟨server, user, hserver, huser, ?_⟩ }
  · cases k <;> simp [filled, Fields.get?_set, typeText]
  · cases k <;> simp [filled, Fields.get?_set, bodyKey]
  · cases k <;> simp [filled, Fields.get?_set]
  · simp only [List.mem_cons, List.not_mem_nil, or_false, not_or] at hkey
    cases k <;> simp only [bodyKey] at hkey <;>
      simp [filled, Fields.get?_set, Ne.symm hkey.1, Ne.symm hkey.2.1, Ne.symm hkey.2.2.1, Ne.symm hkey.2.2.2]
  · cases k <;> simp [filled, Fields.get?_set]

theorem normalize_isOk {v : Value} {server user : Fields} (hbody : k.normalizeBody p (mandate.get? k.bodyKey) = .ok v)
    (hserver : signature mandate "server" = .ok server) (huser : signature mandate "user" = .ok user) :
    ∃ n, k.normalize p mandate = .ok n := by
  rw [normalize_eq, hbody, hserver, huser]
  exact ⟨_, rfl⟩

theorem NormalizedTo.signature_eq (h : NormalizedTo p k mandate n) :
    signature n "server" = signature mandate "server" ∧ signature n "user" = signature mandate "user" := by
  obtain ⟨server, user, hserver, huser, hsignatures⟩ := h.signatures
  simp [signature, hsignatures, asDict, Fields.ofList, Fields.get?] at hserver huser ⊢
  exact ⟨hserver.symm, huser.symm⟩

theorem NormalizedTo.normalize_self (h : NormalizedTo p k n n) : k.normalize p n = .ok n := by
  obtain ⟨v, hv, hbody⟩ := h.body
  obtain ⟨server, user, hserver, huser, hsignatures⟩ := h.signatures
  have hauthorization := Fields.set_self h.userAuthorization
  -- every key is set to what it has
  have hsame : k.filled n v server user = n := by
    cases k with
    | intent =>
      have htype : n.set "type" (.str intentMandateType) = n := Fields.set_self h.type
      have hintent : n.set "intent" v = n := Fields.set_self hbody
      simp only [filled]
      rw [htype, hintent, Fields.set_self hsignatures, hauthorization]
    | operation =>
      have htype : n.set "type" (.str mandateType) = n := Fields.set_self h.type
      have hoperation : n.set "operation" v = n := Fields.set_self hbody
      simp only [filled]
      rw [hoperation, Fields.set_self hsignatures, hauthorization, htype]
  rw [normalize_eq, hv, hserver, huser]
  exact congrArg Except.ok hsame

theorem normalize_idem (h : k.normalize p mandate = .ok n) : k.normalize p n = .ok n := by
  have hn := normalize_eq_ok h
  obtain ⟨v, hv, hbody⟩ := hn.body
  obtain ⟨server, user, hserver, huser, hsignatures⟩ := hn.signatures
  apply NormalizedTo.normalize_self
  refine { type := hn.type, body := ⟨v, ?_, hbody⟩, userAuthorization := ?_, same := fun _ _ => rfl,
           signatures := ⟨server, user, ?_, ?_, hsignatures⟩ }
  · rw [hbody]
    exact normalizeBody_idem hv
  · rw [hn.userAuthorization, asDict_obj, Option.getD_some]
  · exact hn.signature_eq.1.trans hserver
  · exact hn.signature_eq.2.trans huser

theorem core_congr {n' : Fields} (h : ∀ key ≠ "signatures", n'.get? key = n.get? key) : k.core n' = k.core n := by
  have hbody : k.bodyKey ≠ "signatures" := by cases k <;> decide
  have hidentifier : k.identifierKey ≠ "signatures" := by cases k <;> decide
  simp only [core]
  rw [h "type" (by decide), h k.identifierKey hidentifier, h "server" (by decide), h "subject" (by decide), h k.bodyKey hbody,
    h "validTime" (by decide), h "userAuthorization" (by decide), h "displayText" (by decide)]

@[simp] theorem kindOf_typeText (h : mandate.get? "type" = some (.str k.typeText)) : kindOf mandate = some k := by
  cases k <;> simp [kindOf, h, typeText, intentMandateType, mandateType]

theorem CoreOf.corePayload_eq (h : CoreOf p k mandate n) {server user : Fields} (hserver : signature mandate "server" = .ok server)
    (huser : signature mandate "user" = .ok user) : k.corePayload p mandate = .ok (k.core n) := by
  obtain ⟨v, hv, hbody⟩ := h.body
  obtain ⟨n', hn'⟩ := normalize_isOk hv hserver huser
  have hto := normalize_eq_ok hn'
  have hcore : k.core n' = k.core n := by
    apply core_congr
    intro key hkey
    by_cases hkeys : key ∈ ["type", k.bodyKey, "signatures", "userAuthorization"]
    · simp only [List.mem_cons, List.not_mem_nil, or_false] at hkeys
      rcases hkeys with rfl | rfl | rfl | rfl
      · rw [hto.type, h.type]
      · obtain ⟨w, hw, hget⟩ := hto.body
        rw [hget, hbody, Except.ok.inj (hv.symm.trans hw)]
      · exact absurd rfl hkey
      · rw [hto.userAuthorization, h.userAuthorization]
    · rw [hto.same key hkeys, h.same key hkeys]
  simp only [corePayload, hn', bind, Except.bind, pure, Except.pure, hcore]

theorem normalize_corePayload (h : k.normalize p mandate = .ok n) : k.corePayload p mandate = .ok (k.core n) := by
  simp only [corePayload, h, bind, Except.bind, pure, Except.pure]

theorem corePayload_core (h : k.normalize p n = .ok n) (server : Fields) :
    k.corePayload p ((k.core n).set "signatures" (.obj (.ofList [("server", .obj server)]))) = .ok (k.core n) := by
  have hn := normalize_eq_ok h
  obtain ⟨v, hv, hbody⟩ := hn.body
  set w := (k.core n).set "signatures" (.obj (.ofList [("server", .obj server)])) with hw
  have hget : ∀ key, key ≠ "signatures" → w.get? key = (k.core n).get? key := fun key hkey => by rw [hw, Fields.get?_set, if_neg hkey.symm]
  have hbodyCore : (k.core n).get? k.bodyKey = some v := by
    cases k <;> simp only [bodyKey] at hbody <;> simp [core, Fields.ofList, Fields.get?, hbody, bodyKey, identifierKey]
  have hwbody : k.normalizeBody p (w.get? k.bodyKey) = .ok v := by
    rw [hget _ (by cases k <;> decide), hbodyCore]
    exact normalizeBody_idem hv
  have hsignatures : w.get? "signatures" = some (.obj (.ofList [("server", .obj server)])) := by rw [hw, Fields.get?_set, if_pos rfl]
  have hserver : signature w "server" = .ok server := by
    simp [signature, hsignatures, Fields.ofList, Fields.get?]
  have huser : signature w "user" = .ok .nil := by
    simp [signature, hsignatures, Fields.ofList, Fields.get?, dictOf]
  obtain ⟨n', hn'⟩ := normalize_isOk hwbody hserver huser
  have hto := normalize_eq_ok hn'
  rw [normalize_corePayload hn']
  -- what was missing in the mandate has its default in the core
  have hsame : ∀ key, key ∉ ["type", k.bodyKey, "signatures", "userAuthorization"] → n'.get? key = (k.core n).get? key := by
    intro key hkey
    rw [hto.same key hkey, hget key (by simp only [List.mem_cons, not_or] at hkey; exact hkey.2.2.1)]
  have hbody' : n'.get? k.bodyKey = some v := by
    obtain ⟨u, hu, hgetu⟩ := hto.body
    rw [hgetu, ← Except.ok.inj (hwbody.symm.trans hu)]
  have huserAuthorization : n'.get? "userAuthorization" = n.get? "userAuthorization" := by
    have hcore : (k.core n).get? "userAuthorization" = some ((n.get? "userAuthorization").getD (.obj .nil)) := by cases k <;> rfl
    have hdict := hn.userAuthorization
    rw [hto.userAuthorization, hget _ (by decide), hcore, hdict, Option.getD_some, asDict_obj, Option.getD_some]
  have hfield : ∀ key value, key ∉ ["type", k.bodyKey, "signatures", "userAuthorization"] →
      (k.core n).get? key = some ((n.get? key).getD value) → (n'.get? key).getD value = (n.get? key).getD value := by
    intro key value hkey hcore
    rw [hsame key hkey, hcore, Option.getD_some]
  have hid : (n'.get? k.identifierKey).getD (.str "") = (n.get? k.identifierKey).getD (.str "") := by
    cases k <;> exact hfield _ _ (by decide) rfl
  have hserver : (n'.get? "server").getD (.str "") = (n.get? "server").getD (.str "") := by
    cases k <;> exact hfield _ _ (by decide) rfl
  have hsubject : (n'.get? "subject").getD (.obj .nil) = (n.get? "subject").getD (.obj .nil) := by
    cases k <;> exact hfield _ _ (by decide) rfl
  have hvalid : (n'.get? "validTime").getD (.obj .nil) = (n.get? "validTime").getD (.obj .nil) := by
    cases k <;> exact hfield _ _ (by decide) rfl
  have htext : (n'.get? "displayText").getD (.str "") = (n.get? "displayText").getD (.str "") := by
    cases k <;> exact hfield _ _ (by decide) rfl
  rw [core, core, hid, hserver, hsubject, hvalid, htext, hbody, hbody', huserAuthorization, hto.type, hn.type]

end MandateKind

/-! ## One text for both sides -/

section Payload

variable {p : Printer} {k : MandateKind} {mandate n core server : Fields}

def attachUserSignature (mandate signature : Fields) : Fields :=
  mandate.set "signatures" (.obj (((asDict (mandate.get? "signatures")).getD .nil).set "user" (.obj signature)))

/-- The server's signature in a mandate, if it is a dict. -/
def serverSignatureOf (mandate : Fields) : Option Fields := asDict (((asDict (mandate.get? "signatures")).getD .nil).get? "server")

theorem canonicalJson_eq_some {v : Value} {text : String} (h : canonicalJson p v = .ok text) : v.canonicalJson p.float = some text := by
  unfold canonicalJson at h
  split at h
  · cases h
  rename_i htext
  rw [htext, Except.ok.inj h]

def proofText (p : Printer) (core server : Fields) : Except Raised String :=
  canonicalJson p (.obj (.ofList [("scope", .str userAuthorizationScope),
    ("mandate", .obj (core.set "signatures" (.obj (.ofList [("server", .obj server)]))))]))

theorem canonicalUserAuthorizationPayload_eq (hkind : kindOf mandate = some k) (hcore : k.corePayload p mandate = .ok core)
    (hserver : serverSignatureOf mandate = some server) : canonicalUserAuthorizationPayload p mandate = proofText p core server := by
  unfold serverSignatureOf at hserver
  simp only [canonicalUserAuthorizationPayload, serverSignedMandate, mandateCorePayload, hkind, hcore, hserver, bind, Except.bind, pure,
    Except.pure, proofText]

theorem signature_server (h : serverSignatureOf mandate = some server) : MandateKind.signature mandate "server" = .ok server := by
  unfold serverSignatureOf at h
  unfold MandateKind.signature
  cases hget : ((asDict (mandate.get? "signatures")).getD .nil).get? "server" with
  | none => rw [hget] at h; cases h
  | some v =>
    rw [hget] at h
    cases v with
    | obj d =>
      obtain rfl := Option.some.inj h
      exact dictOf_obj _
    | null | bool | int | float | str | arr => cases h

/-- The text that is proved is the same for a mandate, for what normalization makes of it, for both
with any signature of a user, and for what is left of it without one. -/
theorem payload_agree (htype : mandate.get? "type" = some (.str k.typeText)) (hn : k.normalize p mandate = .ok n)
    (hserver : serverSignatureOf mandate = some server) :
    canonicalUserAuthorizationPayload p mandate = proofText p (k.core n) server ∧
      canonicalUserAuthorizationPayload p n = proofText p (k.core n) server ∧
      (∀ signature, canonicalUserAuthorizationPayload p (attachUserSignature mandate signature) = proofText p (k.core n) server) ∧
      canonicalUserAuthorizationPayload p ((k.core n).set "signatures" (.obj (.ofList [("server", .obj server)]))) =
        proofText p (k.core n) server := by
  have hto := MandateKind.normalize_eq_ok hn
  have hagain := MandateKind.normalize_idem hn
  obtain ⟨server', user, hserver', huser, hsignatures⟩ := hto.signatures
  obtain rfl : server = server' := Except.ok.inj ((signature_server hserver).symm.trans hserver')
  refine ⟨?_, ?_, fun signature => ?_, ?_⟩
  · exact canonicalUserAuthorizationPayload_eq (MandateKind.kindOf_typeText htype) (MandateKind.normalize_corePayload hn) hserver
  · apply canonicalUserAuthorizationPayload_eq (MandateKind.kindOf_typeText hto.type) (MandateKind.normalize_corePayload hagain)
    simp [serverSignatureOf, hsignatures, Fields.ofList, Fields.get?]
  · have hget : ∀ key ≠ "signatures", (attachUserSignature mandate signature).get? key = mandate.get? key := by
      intro key hkey
      rw [attachUserSignature, Fields.get?_set, if_neg hkey.symm]
    have hattached : (attachUserSignature mandate signature).get? "signatures" =
        some (.obj (((asDict (mandate.get? "signatures")).getD .nil).set "user" (.obj signature))) := by
      rw [attachUserSignature, Fields.get?_set, if_pos rfl]
    have hserverAttached : serverSignatureOf (attachUserSignature mandate signature) = some server := by
      rw [serverSignatureOf, hattached, asDict_obj, Option.getD_some, Fields.get?_set, if_neg (by decide)]
      exact hserver
    have hcoreOf : MandateKind.CoreOf p k (attachUserSignature mandate signature) n := by
      obtain ⟨v, hv, hbody⟩ := hto.body
      refine ⟨hto.type, ⟨v, ?_, hbody⟩, ?_, fun key hkey => ?_⟩
      · rw [hget _ (by cases k <;> decide), hv]
      · rw [hget _ (by decide), hto.userAuthorization]
      · simp only [List.mem_cons, not_or] at hkey
        rw [hget _ hkey.2.2.1]
        exact hto.same key (by simpa only [List.mem_cons, not_or] using hkey)
    have huserAttached : MandateKind.signature (attachUserSignature mandate signature) "user" = .ok signature := by
      rw [MandateKind.signature, hattached, asDict_obj, Option.getD_some, Fields.get?_set, if_pos rfl, dictOf_obj]
    apply canonicalUserAuthorizationPayload_eq (k := k) _ (hcoreOf.corePayload_eq (signature_server hserverAttached) huserAttached) hserverAttached
    apply MandateKind.kindOf_typeText
    rw [hget _ (by decide), htype]
  · apply canonicalUserAuthorizationPayload_eq (k := k) _ (MandateKind.corePayload_core hagain server)
    · simp [serverSignatureOf, Fields.get?_set, Fields.ofList, Fields.get?]
    · apply MandateKind.kindOf_typeText
      rw [Fields.get?_set, if_neg (by decide)]
      cases k <;> simp [MandateKind.core, Fields.ofList, Fields.get?, hto.type]

/-- Two mandates are of one kind and have the same core, with the same id and display text, and the same
server's signature, but for the order of keys. -/
def SameMandate (p : Printer) (mandate mandate' : Fields) : Prop :=
  ∃ k n n' server server', kindOf mandate = some k ∧ kindOf mandate' = some k ∧
    MandateKind.normalize p mandate k = .ok n ∧ MandateKind.normalize p mandate' k = .ok n' ∧
    serverSignatureOf mandate = some server ∧ serverSignatureOf mandate' = some server' ∧
    Value.sorted (.obj (k.core n)) = Value.sorted (.obj (k.core n')) ∧ Value.sorted (.obj server) = Value.sorted (.obj server')

theorem payload_binds (hfloat : Value.FloatText p.float) {mandate' : Fields} {text : String}
    (h : canonicalUserAuthorizationPayload p mandate = .ok text) (h' : canonicalUserAuthorizationPayload p mandate' = .ok text) :
    SameMandate p mandate mandate' := by
  have hparts : ∀ {m : Fields}, canonicalUserAuthorizationPayload p m = .ok text → ∃ k n server, kindOf m = some k ∧
      MandateKind.normalize p m k = .ok n ∧ serverSignatureOf m = some server ∧ proofText p (k.core n) server = .ok text := by
    intro m hm
    have hm' := hm
    obtain ⟨signed, hsigned, -⟩ := bind_eq_ok.mp hm
    obtain ⟨core, hcore, hrest⟩ := bind_eq_ok.mp hsigned
    unfold mandateCorePayload at hcore
    split at hcore
    · cases hcore
    rename_i k hkind
    obtain ⟨n, hn, hcore'⟩ := bind_eq_ok.mp hcore
    obtain rfl := Except.ok.inj hcore'
    cases hserver : serverSignatureOf m with
    | none =>
      unfold serverSignatureOf at hserver
      rw [hserver] at hrest
      cases hrest
    | some server =>
      rw [canonicalUserAuthorizationPayload_eq hkind hcore hserver] at hm'
      exact ⟨k, n, server, hkind, hn, rfl, hm'⟩
  obtain ⟨k, n, server, hkind, hn, hserver, htext⟩ := hparts h
  obtain ⟨k', n', server', hkind', hn', hserver', htext'⟩ := hparts h'
  -- the members of the two texts are the same
  have hkeys : ∀ a b : Value, (Fields.ofList [("scope", a), ("mandate", b)]).keys.Nodup := by
    intro a b
    simp [Fields.keys]
  have hcoreKeys : ∀ (k : MandateKind) (n : Fields) (v : Value), ((k.core n).set "signatures" v).keys.Nodup := by
    intro k n v
    cases k <;> simp [MandateKind.core, Fields.ofList, Fields.set, Fields.keys, Fields.toList, MandateKind.identifierKey, MandateKind.bodyKey]
  have hmandate := Value.sorted_get? (Value.sorted_eq_of_canonicalJson hfloat (canonicalJson_eq_some htext) (canonicalJson_eq_some htext'))
    (hkeys _ _) (hkeys _ _) "mandate"
  simp only [Fields.ofList, List.foldr_cons, List.foldr_nil, Fields.get?, String.reduceEq, if_false, if_true, Option.map_some,
    Option.some.injEq] at hmandate
  have hmember := Value.sorted_get? hmandate (hcoreKeys k n _) (hcoreKeys k' n' _)
  have htype := hmember "type"
  have hn₁ := MandateKind.normalize_eq_ok hn
  have hn₂ := MandateKind.normalize_eq_ok hn'
  have hsame : k = k' := by
    rw [Fields.get?_set, Fields.get?_set, if_neg (by decide), if_neg (by decide)] at htype
    cases k <;> cases k' <;> first
      | rfl
      | simp [MandateKind.core, Fields.ofList, Fields.get?, hn₁.type, hn₂.type, MandateKind.typeText, Value.sorted, intentMandateType,
          mandateType] at htype
  subst hsame
  have hcore : ∀ key ≠ "signatures", ((k.core n).get? key).map Value.sorted = ((k.core n').get? key).map Value.sorted := by
    intro key hkey
    have hboth := hmember key
    rwa [Fields.get?_set, Fields.get?_set, if_neg hkey.symm, if_neg hkey.symm] at hboth
  have hsignatures := hmember "signatures"
  rw [Fields.get?_set, Fields.get?_set, if_pos rfl, if_pos rfl, Option.map_some, Option.map_some, Option.some.injEq] at hsignatures
  have hserverKeys : ∀ a : Value, (Fields.ofList [("server", a)]).keys.Nodup := by
    intro a
    simp [Fields.keys]
  have hservers := Value.sorted_get? hsignatures (hserverKeys _) (hserverKeys _) "server"
  refine ⟨k, n, n', server, server', hkind, hkind', hn, hn', hserver, hserver', ?_, by simpa [Fields.ofList, Fields.get?] using hservers⟩
  have hlist : Value.sortedFields (k.core n) = Value.sortedFields (k.core n') := by
    have h₁ := hcore "type" (by decide)
    have h₂ := hcore k.identifierKey (by cases k <;> decide)
    have h₃ := hcore "server" (by decide)
    have h₄ := hcore "subject" (by decide)
    have h₅ := hcore k.bodyKey (by cases k <;> decide)
    have h₆ := hcore "validTime" (by decide)
    have h₇ := hcore "userAuthorization" (by decide)
    have h₈ := hcore "displayText" (by decide)
    cases k <;>
      simp [MandateKind.core, Fields.ofList, Fields.get?, MandateKind.identifierKey, MandateKind.bodyKey] at h₁ h₂ h₃ h₄ h₅ h₆ h₇ h₈ <;>
      simp [MandateKind.core, Fields.ofList, Value.sortedFields, MandateKind.identifierKey, MandateKind.bodyKey, h₁, h₂, h₃, h₄, h₅, h₆,
        h₇, h₈]
  exact congrArg (fun f => Value.obj (Fields.sort f)) hlist

end Payload

end AgentProtocol.A4P
