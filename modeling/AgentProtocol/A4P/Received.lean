-- SUMMARY: What a user proves: both sides derive one text exactly if the way to the user drops no null, and mandates that differ have different texts.
import AgentProtocol.A4P.Created

/-!
# What a user's proof is bound to

The server derives the text to prove from the pending mandate, and the user authorizer from the mandate that it
received, before or after a signature is attached. An HTTP answer passes through `to_payload`, which drops the
nulls of dicts. The text fixes the mandate's core and the server's signature, so it is another one then.
-/

namespace AgentProtocol.A4P

open Lib

/-! ## Nulls -/

mutual

def nullFree : Value → Bool
  | .arr items => nullFreeItems items
  | .obj fields => nullFreeFields fields
  | _ => true

def nullFreeItems : Items → Bool
  | .nil => true
  | .cons item rest => nullFree item && nullFreeItems rest

def nullFreeFields : Fields → Bool
  | .nil => true
  | .cons _ value rest => (value ≠ .null && nullFree value) && nullFreeFields rest

end

theorem toPayload_eq_null {v : Value} : toPayload v = .null ↔ v = .null := by
  cases v <;> simp [toPayload]

mutual

theorem nullFree_toPayload : ∀ v : Value, nullFree (toPayload v) = true
  | .null | .bool _ | .int _ | .float _ | .str _ => rfl
  | .arr items => nullFree_payloadItems items
  | .obj fields => nullFree_payloadFields fields

theorem nullFree_payloadItems : ∀ items : Items, nullFreeItems (payloadItems items) = true
  | .nil => rfl
  | .cons item rest => by rw [payloadItems, nullFreeItems, nullFree_toPayload, nullFree_payloadItems, Bool.and_self]

theorem nullFree_payloadFields : ∀ fields : Fields, nullFreeFields (payloadFields fields) = true
  | .nil => rfl
  | .cons key value rest => by
    unfold payloadFields
    split
    · exact nullFree_payloadFields rest
    · rename_i hvalue
      simp [nullFreeFields, toPayload_eq_null, hvalue, nullFree_toPayload, nullFree_payloadFields]

end

mutual

theorem toPayload_of_nullFree : ∀ {v : Value}, nullFree v = true → toPayload v = v
  | .null, _ | .bool _, _ | .int _, _ | .float _, _ | .str _, _ => rfl
  | .arr _, h => congrArg Value.arr (payloadItems_of_nullFree h)
  | .obj _, h => congrArg Value.obj (payloadFields_of_nullFree h)

theorem payloadItems_of_nullFree : ∀ {items : Items}, nullFreeItems items = true → payloadItems items = items
  | .nil, _ => rfl
  | .cons item rest, h => by
    simp only [nullFreeItems, Bool.and_eq_true] at h
    rw [payloadItems, toPayload_of_nullFree h.1, payloadItems_of_nullFree h.2]

theorem payloadFields_of_nullFree : ∀ {fields : Fields}, nullFreeFields fields = true → payloadFields fields = fields
  | .nil, _ => rfl
  | .cons key value rest, h => by
    simp only [nullFreeFields, Bool.and_eq_true, decide_eq_true_eq] at h
    rw [payloadFields, if_neg h.1.1, toPayload_of_nullFree h.1.2, payloadFields_of_nullFree h.2]

end

theorem nullFreeFields_iff : ∀ {d : Fields}, nullFreeFields d = true ↔ ∀ q ∈ d.toList, q.2 ≠ .null ∧ nullFree q.2 = true
  | .nil => by simp [nullFreeFields, Fields.toList]
  | .cons key value rest => by
    rw [nullFreeFields, Bool.and_eq_true, nullFreeFields_iff, Fields.toList, List.forall_mem_cons, Bool.and_eq_true, decide_eq_true_eq]

mutual

theorem nullFree_sorted : ∀ v : Value, nullFree v.sorted = nullFree v
  | .null | .bool _ | .int _ | .float _ | .str _ => rfl
  | .arr items => nullFreeItems_sorted items
  | .obj fields => by
    have hsort : nullFreeFields (Value.sortedFields fields).sort = nullFreeFields (Value.sortedFields fields) := by
      rw [Bool.eq_iff_iff, nullFreeFields_iff, nullFreeFields_iff]
      exact ⟨fun h q hq => h q ((Fields.sort_perm _).mem_iff.mpr hq), fun h q hq => h q ((Fields.sort_perm _).mem_iff.mp hq)⟩
    exact hsort.trans (nullFreeFields_sorted fields)

theorem nullFreeItems_sorted : ∀ items : Items, nullFreeItems (Value.sortedItems items) = nullFreeItems items
  | .nil => rfl
  | .cons item rest => by rw [Value.sortedItems, nullFreeItems, nullFreeItems, nullFree_sorted, nullFreeItems_sorted]

theorem nullFreeFields_sorted : ∀ fields : Fields, nullFreeFields (Value.sortedFields fields) = nullFreeFields fields
  | .nil => rfl
  | .cons key value rest => by
    have hnull : value.sorted = .null ↔ value = .null := by cases value <;> simp [Value.sorted]
    simp only [Value.sortedFields, nullFreeFields, nullFree_sorted, nullFreeFields_sorted, ne_eq, hnull]

end

theorem nullFree_get? {d : Fields} {key : String} {v : Value} (h : nullFreeFields d = true) (hget : d.get? key = some v) :
    v ≠ .null ∧ nullFree v = true :=
  nullFreeFields_iff.mp h (key, v) (Fields.mem_of_get? hget)

theorem nullFreeFields_iff_get? {d : Fields} (hd : d.keys.Nodup) :
    nullFreeFields d = true ↔ ∀ key ∈ d.keys, ∀ v, d.get? key = some v → v ≠ .null ∧ nullFree v = true := by
  refine ⟨fun h key _ v hv => nullFree_get? h hv, fun h => nullFreeFields_iff.mpr fun q hq => ?_⟩
  exact h q.1 (List.mem_map_of_mem hq) q.2 (Fields.get?_of_mem hd hq)

theorem nullFree_asDict {v : Option Value} (h : ∀ w, v = some w → nullFree w = true) : nullFreeFields ((asDict v).getD .nil) = true := by
  unfold asDict
  split
  · exact h _ rfl
  · rfl

/-! ## Normalization adds no null -/

variable {p : Printer}

def IntentScope.params (scope : IntentScope) : List Fields := scope.actions.filterMap (·.params)

theorem nullFree_scope {scope : IntentScope} : nullFree scope.toValue = true ↔ ∀ d ∈ scope.params, nullFreeFields d = true := by
  have hactions : ∀ actions : List ActionSpec, nullFreeItems ((actions.map ActionSpec.toValue).foldr Items.cons .nil) = true ↔
      ∀ d ∈ actions.filterMap (·.params), nullFreeFields d = true := by
    intro actions
    induction actions with
    | nil => simp [nullFreeItems]
    | cons a actions ih =>
      obtain ⟨name, params, allowExtraParams⟩ := a
      cases params with
      | none => simpa [nullFreeItems, ActionSpec.toValue, Fields.ofList, nullFree, nullFreeFields] using ih
      | some params =>
        simp only [List.map_cons, List.foldr_cons, nullFreeItems, Bool.and_eq_true, ih]
        simp [ActionSpec.toValue, Fields.ofList, nullFree, nullFreeFields]
  rw [IntentScope.params, ← hactions]
  cases h : scope.maxExecutions <;>
    simp [IntentScope.toValue, listValue, h, Fields.ofList, nullFree, nullFreeFields]

theorem nullFree_operation {o : Operation} : nullFree o.toValue = true ↔ nullFreeFields o.params = true := by
  simp [Operation.toValue, Fields.ofList, nullFree, nullFreeFields]

theorem normalizeParamsConstraint_nullFree {v : Option Value} {params : Option Fields} (h : normalizeParamsConstraint v = .ok params)
    (hv : ∀ w, v = some w → nullFree w = true) : ∀ d ∈ params, nullFreeFields d = true := by
  unfold normalizeParamsConstraint at h
  split at h
  · obtain rfl := Except.ok.inj h
    simp
  · obtain rfl := Except.ok.inj h
    simp [nullFreeFields]
  · obtain rfl := Except.ok.inj h
    simp [nullFreeFields]
  · obtain rfl := Except.ok.inj h
    intro d hd
    obtain rfl := Option.some.inj hd
    exact hv _ rfl
  · cases h

theorem normalizeActionSpec_params {v : Value} {a : ActionSpec} (h : normalizeActionSpec p v = .ok a) (hv : nullFree v = true) :
    ∀ d ∈ a.params, nullFreeFields d = true := by
  unfold normalizeActionSpec at h
  split at h
  · rename_i fields
    have hget : ∀ w, fields.get? "params" = some w → nullFree w = true := fun w hw => (nullFree_get? hv hw).2
    simp only [bind, Except.bind, pure, Except.pure] at h
    split at h
    · cases h
    cases hparams : normalizeParamsConstraint (fields.get? "params") with
    | error e =>
      rw [hparams] at h
      split at h <;> cases h
    | ok params =>
      rw [hparams] at h
      split at h
      · obtain rfl := Except.ok.inj h
        exact normalizeParamsConstraint_nullFree hparams hget
      · obtain rfl := Except.ok.inj h
        exact normalizeParamsConstraint_nullFree hparams hget
      · cases h
  · cases h

theorem normalizeItems_params : ∀ {items : Items} {actions : List ActionSpec}, normalizeItems p items = .ok actions →
    nullFreeItems items = true → ∀ d ∈ actions.filterMap (·.params), nullFreeFields d = true
  | .nil, actions, h, _ => by
    obtain rfl := Except.ok.inj h
    simp
  | .cons item rest, actions, h, hfree => by
    obtain ⟨action, haction, h⟩ := bind_eq_ok.mp h
    obtain ⟨others, hothers, h⟩ := bind_eq_ok.mp h
    obtain rfl := Except.ok.inj h
    simp only [nullFreeItems, Bool.and_eq_true] at hfree
    intro d hd
    obtain ⟨a, ha, hparams⟩ := List.mem_filterMap.mp hd
    rcases List.mem_cons.mp ha with rfl | ha
    · exact normalizeActionSpec_params haction hfree.1 d hparams
    · exact normalizeItems_params hothers hfree.2 d (List.mem_filterMap.mpr ⟨a, ha, hparams⟩)

theorem raisedScope_actions {intent : Option Value} {scope : IntentScope} (h : raisedScope p intent = .ok scope) :
    ∃ actions, normalizeActionSpecs p (((asDict intent).getD .nil).get? "actions") = .ok actions ∧ scope.actions = actions := by
  unfold raisedScope at h
  cases hscope : normalizeIntentScope p intent with
  | error e => rw [hscope] at h; cases h
  | ok scope' =>
    rw [hscope] at h
    obtain rfl := Except.ok.inj h
    obtain ⟨actions, hactions, hrest⟩ := bind_eq_ok.mp hscope
    refine ⟨actions, hactions, ?_⟩
    split at hrest
    · obtain rfl := Except.ok.inj hrest
      rfl
    · obtain ⟨n, -, hn⟩ := bind_eq_ok.mp hrest
      obtain rfl := Except.ok.inj hn
      rfl

namespace MandateKind

variable {k : MandateKind} {mandate n : Fields}

theorem normalizeBody_ne_null {body : Option Value} {v : Value} (h : k.normalizeBody p body = .ok v) : v ≠ .null := by
  cases k with
  | operation =>
    obtain ⟨o, -, rfl⟩ := map_eq_ok.mp h
    simp [Operation.toValue]
  | intent =>
    obtain ⟨scope, -, rfl⟩ := map_eq_ok.mp h
    simp [IntentScope.toValue]

theorem normalizeBody_nullFree {body : Option Value} {v : Value} (h : k.normalizeBody p body = .ok v)
    (hbody : ∀ w, body = some w → nullFree w = true) : nullFree v = true := by
  have hdict := nullFree_asDict hbody
  cases k with
  | operation =>
    obtain ⟨o, ho, rfl⟩ := map_eq_ok.mp h
    apply nullFree_operation.mpr
    unfold normalizeOperation at ho
    dsimp only at ho
    split at ho
    · cases ho
    split at ho
    · obtain rfl := Except.ok.inj ho
      rfl
    · obtain rfl := Except.ok.inj ho
      rfl
    · rename_i hget
      obtain rfl := Except.ok.inj ho
      exact (nullFree_get? hdict hget).2
    · cases ho
  | intent =>
    obtain ⟨scope, hscope, rfl⟩ := map_eq_ok.mp h
    apply nullFree_scope.mpr
    obtain ⟨actions, hactions, hsame⟩ := raisedScope_actions hscope
    rw [IntentScope.params, hsame]
    unfold normalizeActionSpecs at hactions
    split at hactions
    · rename_i hget
      obtain ⟨actions', hitems, hrest⟩ := bind_eq_ok.mp hactions
      split at hrest
      · cases hrest
      obtain rfl := Except.ok.inj hrest
      exact normalizeItems_params hitems (nullFree_get? hdict hget).2
    · cases hactions

theorem core_nullFree (h : k.normalize p mandate = .ok n) (hfree : nullFreeFields mandate = true) : nullFreeFields (k.core n) = true := by
  have hto := normalize_eq_ok h
  have hmember : ∀ key ≠ "signatures", ∀ v, n.get? key = some v → v ≠ .null ∧ nullFree v = true := by
    intro key hkey v hv
    by_cases hkeys : key ∈ ["type", k.bodyKey, "signatures", "userAuthorization"]
    · simp only [List.mem_cons, List.not_mem_nil, or_false] at hkeys
      rcases hkeys with rfl | rfl | rfl | rfl
      · rw [hto.type] at hv
        obtain rfl := Option.some.inj hv
        exact ⟨by simp, rfl⟩
      · obtain ⟨w, hw, hbody⟩ := hto.body
        rw [hbody] at hv
        obtain rfl := Option.some.inj hv
        exact ⟨normalizeBody_ne_null hw, normalizeBody_nullFree hw fun u hu => (nullFree_get? hfree hu).2⟩
      · exact absurd rfl hkey
      · rw [hto.userAuthorization] at hv
        obtain rfl := Option.some.inj hv
        exact ⟨by simp, nullFree_asDict fun w hw => (nullFree_get? hfree hw).2⟩
    · exact nullFree_get? hfree ((hto.same key hkeys).symm.trans hv)
  have hdefault : ∀ {v : Value}, v ≠ .null → nullFree v = true → ∀ key ≠ "signatures",
      (n.get? key).getD v ≠ .null ∧ nullFree ((n.get? key).getD v) = true := by
    intro v hv hfree key hkey
    cases hget : n.get? key with
    | none => exact ⟨hv, hfree⟩
    | some w => exact hmember key hkey w hget
  have htext := hdefault (v := .str "") (by simp) rfl
  have hdict := hdefault (v := .obj .nil) (by simp) rfl
  rw [nullFreeFields_iff, core, Fields.toList_ofList]
  simp only [List.forall_mem_cons]
  exact ⟨htext _ (by decide), htext _ (by cases k <;> decide), htext _ (by decide), hdict _ (by decide), hdict _ (by cases k <;> decide),
    hdict _ (by decide), hdict _ (by decide), htext _ (by decide), by simp⟩

variable {c : Setup} {id : String}

theorem Created.nullFree_of_core (h : Created c k id mandate) (hcore : nullFreeFields (k.core mandate) = true) :
    nullFreeFields mandate = true := by
  rw [nullFreeFields_iff_get? (h.keys ▸ k.nodup_keys_created), h.keys]
  intro key hkey v hv
  rcases List.mem_append.mp hkey with hkey | hkey
  · exact nullFree_get? hcore (core_get? hkey hv)
  · obtain rfl := List.mem_singleton.mp hkey
    obtain ⟨text, -, hsignatures⟩ := h.signatures
    obtain rfl := Option.some.inj (hsignatures.symm.trans hv)
    simp [nullFree, nullFreeFields, Fields.ofList, serverSignature]

end MandateKind

/-! ## What a request puts into a mandate -/

/-- What goes into a mandate as it was given has no null: parameters, the agent's key, and the method's policy. -/
structure NullFree (c : Setup) (params : List Fields) (agentPublicKey : Option Fields) : Prop where
  params : ∀ d ∈ params, nullFreeFields d = true
  agentKey : ∀ key ∈ agentPublicKey, nullFreeFields key = true
  policy : c.requireUserSignature = true → ∀ method ∈ c.userSignatureMethod, nullFreeFields method.methodPolicy = true

theorem nullFree_of_sign {c : Setup} {k : MandateKind} {draft mandate : Fields} {id url text agentId signatureMethod : String}
    {agentPublicKey : Option Fields} {params : List Fields} {validTime : Value}
    (hkeys : draft.keys = k.coreKeys ++ ["signatures"]) (hid : draft.get? k.identifierKey = some (.str id))
    (huser : MandateKind.signature draft "user" = .ok .nil) (hserver : draft.get? "server" = some (.str url))
    (hsubject : draft.get? "subject" = some (.obj (.ofList (("type", .str "agent") :: ("id", .str agentId) ::
      (agentPublicKey.map fun key => ("agentKey", Value.obj key)).toList))))
    (hbody : ∀ v, k.normalizeBody c.printer (draft.get? k.bodyKey) = .ok v → (nullFree v = true ↔ ∀ d ∈ params, nullFreeFields d = true))
    (hvalid : draft.get? "validTime" = some validTime) (hvalidTime : validTime ≠ .null ∧ nullFree validTime = true)
    (hauthorization : draft.get? "userAuthorization" = some (if c.requireUserSignature then
        .obj (.ofList [("required", .bool true), ("signatureMethod", .str signatureMethod),
          ("methodPolicy", .obj ((c.userSignatureMethod.map (·.methodPolicy)).getD .nil))])
      else .obj (.ofList [("required", .bool false)])))
    (htext : draft.get? "displayText" = some (.str text)) (h : k.sign c draft = .ok mandate) :
    nullFreeFields mandate = true ↔ NullFree c params agentPublicKey := by
  have hcreated := MandateKind.created_of_sign hkeys hid huser h
  have hto := MandateKind.coreOf_of_sign h
  have hkept : ∀ key ∈ ["server", "subject", "validTime", "displayText"], mandate.get? key = draft.get? key := by
    intro key hkey
    simp only [List.mem_cons, List.not_mem_nil, or_false] at hkey
    rcases hkey with rfl | rfl | rfl | rfl <;> exact hto.same _ (by cases k <;> decide)
  obtain ⟨v, hv, hbodyM⟩ := hto.body
  have hauthorizationM : mandate.get? "userAuthorization" = draft.get? "userAuthorization" := by
    rw [hto.userAuthorization, hauthorization]
    split <;> rfl
  obtain ⟨serverText, -, hsignatures⟩ := hcreated.signatures
  rw [nullFreeFields_iff_get? (hcreated.keys ▸ k.nodup_keys_created), hcreated.keys, MandateKind.coreKeys]
  simp only [List.cons_append, List.nil_append, List.forall_mem_cons, List.not_mem_nil, false_imp_iff, implies_true, and_true, hcreated.type,
    hcreated.identifier, hkept "server" (by simp), hserver, hkept "subject" (by simp), hsubject, hbodyM, hkept "validTime" (by simp), hvalid,
    hauthorizationM, hauthorization, hkept "displayText" (by simp), htext, hsignatures, Option.some.injEq, forall_eq']
  have hsubjectFree : nullFree (.obj (.ofList (("type", .str "agent") :: ("id", .str agentId) ::
      (agentPublicKey.map fun key => ("agentKey", Value.obj key)).toList))) = true ↔ ∀ key ∈ agentPublicKey, nullFreeFields key = true := by
    cases agentPublicKey <;> simp [nullFree, nullFreeFields, Fields.ofList]
  have hpolicy : nullFreeFields ((c.userSignatureMethod.map (·.methodPolicy)).getD .nil) = true ↔
      ∀ method ∈ c.userSignatureMethod, nullFreeFields method.methodPolicy = true := by
    cases c.userSignatureMethod <;> simp [nullFreeFields]
  rw [hsubjectFree, hbody v hv]
  constructor
  · rintro ⟨-, -, -, hkey, hparams, -, hauth, -⟩
    refine ⟨hparams.2, hkey.2, fun hrequired => hpolicy.mp ?_⟩
    simpa [hrequired, nullFree, nullFreeFields, Fields.ofList] using hauth
  · rintro ⟨hparams, hkey, hauth⟩
    refine ⟨⟨by simp, rfl⟩, ⟨by simp, rfl⟩, ⟨by simp, rfl⟩, ⟨by simp, hkey⟩, ⟨MandateKind.normalizeBody_ne_null hv, hparams⟩, hvalidTime, ?_,
      ⟨by simp, rfl⟩, by simp, ?_⟩
    · split
      · rename_i hrequired
        simp [nullFree, nullFreeFields, Fields.ofList, hpolicy.mpr (hauth hrequired)]
      · simp [nullFree, nullFreeFields, Fields.ofList]
    · simp [nullFree, nullFreeFields, Fields.ofList, MandateKind.serverSignature]

variable {c : Setup} {token : String} {now : ℚ} {mandate : Fields}

theorem normalizeOperation_params {p : Printer} {o o' : Operation} (h : normalizeOperation p (some o.toValue) = .ok o') :
    o'.params = o.params := by
  simp only [normalizeOperation, Operation.toValue, Fields.ofList, List.foldr_cons, List.foldr_nil, Fields.get?, String.reduceEq, if_false,
    if_true] at h
  split at h
  · cases h
  · exact (congrArg Operation.params (Except.ok.inj h)).symm

theorem nullFree_of_createOperation {req : MandateRequest} (h : createOperationMandate c req token now = .ok mandate) :
    nullFreeFields mandate = true ↔ NullFree c [req.operation.params] req.agentPublicKey := by
  obtain ⟨_, _, _, rendered, -, ⟨hkeys, ⟨text, htext⟩, hsame⟩, hsign⟩ := createOperationMandate_ok h
  refine nullFree_of_sign hkeys (hsame _ (by decide)) ?_ (hsame _ (by decide)) (hsame _ (by decide)) ?_ (hsame _ (by decide)) ?_
    (hsame _ (by decide)) htext hsign
  · rw [MandateKind.signature, hsame _ (by decide)]
    rfl
  · intro v hv
    have hbody : rendered.get? "operation" = some req.operation.toValue := hsame _ (by decide)
    simp only [MandateKind.normalizeBody, MandateKind.bodyKey, hbody] at hv
    obtain ⟨o, ho, rfl⟩ := map_eq_ok.mp hv
    rw [nullFree_operation, normalizeOperation_params ho, List.forall_mem_singleton]
  · simp [nullFree, nullFreeFields, Fields.ofList]

theorem nullFree_of_createIntent {req : IntentMandateRequest} (h : createIntentMandate c req token now = .ok mandate) :
    ∃ actions, normalizeActionSpecs c.printer req.actions = .ok actions ∧
      (nullFreeFields mandate = true ↔ NullFree c (actions.filterMap (·.params)) req.agentPublicKey) := by
  obtain ⟨actions, maxExecutions, _, _, _, _, rendered, hspecs, ⟨hkeys, ⟨text, htext⟩, hsame⟩, hsign⟩ := createIntentMandate_ok h
  refine ⟨actions, hspecs, nullFree_of_sign hkeys (hsame _ (by decide)) ?_ (hsame _ (by decide)) (hsame _ (by decide)) ?_
    (hsame _ (by decide)) ?_ (hsame _ (by decide)) htext hsign⟩
  · rw [MandateKind.signature, hsame _ (by decide)]
    rfl
  · intro v hv
    have hbody : rendered.get? "intent" = some (IntentScope.toValue { actions, maxExecutions }) := hsame _ (by decide)
    simp only [MandateKind.normalizeBody, MandateKind.bodyKey, hbody] at hv
    obtain ⟨scope, hscope, rfl⟩ := map_eq_ok.mp hv
    obtain ⟨actions', hagain, hsame'⟩ := raisedScope_actions hscope
    obtain rfl : actions' = actions := Except.ok.inj (hagain.symm.trans (normalizeActionSpecs_toValue hspecs))
    rw [nullFree_scope, IntentScope.params, hsame']
  · simp [nullFree, nullFreeFields, Fields.ofList]

/-! ## One text for both sides -/

/-- What the user authorizer has of a mandate: what it received, in memory or in an HTTP answer, or this with a
signature of the user. -/
def Copy (mandate copy : Fields) : Prop :=
  ∃ received, (received = mandate ∨ received = payloadFields mandate) ∧
    (copy = received ∨ ∃ signature, copy = attachUserSignature received signature)

variable {k : MandateKind}

theorem proofText_isOk {c : Setup} {core : Fields} {text : String}
    (h : MandateKind.serverText c.printer core = .ok text) : ∃ proof, proofText c.printer core (k.serverSignature c text) = .ok proof := by
  have hsigned := canonicalJson_eq_some h
  unfold Value.canonicalJson at hsigned
  split at hsigned
  · rename_i hfinite
    have hcore : Value.finiteFields core = true :=
      Value.finiteFields_iff.mp hfinite ("mandate", .obj core) (by simp)
    have hmembers : Value.finite (.obj (core.set "signatures" (.obj (.ofList [("server", .obj (k.serverSignature c text))])))) = true := by
      apply Value.finiteFields_iff.mpr
      intro q hq
      rcases Fields.mem_set hq with rfl | hq
      · simp [Value.finite, Value.finiteFields, Fields.ofList, MandateKind.serverSignature]
      · exact Value.finiteFields_iff.mp hcore q hq
    have hall : Value.finite (.obj (.ofList [("scope", .str userAuthorizationScope),
        ("mandate", .obj (core.set "signatures" (.obj (.ofList [("server", .obj (k.serverSignature c text))]))))])) = true := by
      simpa [Value.finite, Value.finiteFields, Fields.ofList] using hmembers
    exact ⟨_, by simp only [proofText, canonicalJson, Value.canonicalJson, hall, if_true]; rfl⟩
  · cases hsigned

/-- Everyone derives one text from a mandate: from a copy of it, from what normalization makes of the
copy, and from the context in which a signature is made or checked. -/
def OneText (p : Printer) (k : MandateKind) (mandate : Fields) : Prop :=
  ∃ text, ∀ copy, Copy mandate copy → canonicalUserAuthorizationPayload p copy = .ok text ∧
    ∀ n, k.normalize p copy = .ok n → canonicalUserAuthorizationPayload p n = .ok text ∧
      ∀ expectedUserId context, k.userSignatureContext p n expectedUserId = .ok context →
        canonicalUserAuthorizationPayload p context.serverSignedMandate = .ok text

variable {id : String}

theorem MandateKind.Created.oneText (h : k.Created c id mandate) (hfree : nullFreeFields mandate = true) : OneText c.printer k mandate := by
  obtain ⟨text, htext, hsignatures⟩ := h.signatures
  obtain ⟨proof, hproof⟩ := proofText_isOk (k := k) htext
  have hserver : serverSignatureOf mandate = some (k.serverSignature c text) := by
    simp [serverSignatureOf, hsignatures, Fields.ofList, Fields.get?]
  obtain ⟨hown, -, hattached, -⟩ := payload_agree h.type h.normalized hserver
  refine ⟨proof, fun copy hcopy => ?_⟩
  obtain ⟨received, hreceived, hcopy⟩ := hcopy
  rw [payloadFields_of_nullFree hfree, or_self] at hreceived
  subst hreceived
  have hcopyProof : canonicalUserAuthorizationPayload c.printer copy = .ok proof := by
    rcases hcopy with rfl | ⟨signature, rfl⟩
    · exact hown.trans hproof
    · exact (hattached signature).trans hproof
  have htype : copy.get? "type" = some (.str k.typeText) := by
    rcases hcopy with rfl | ⟨signature, rfl⟩
    · exact h.type
    · rw [attachUserSignature, Fields.get?_set, if_neg (by decide)]
      exact h.type
  have hcopied : serverSignatureOf copy = some (k.serverSignature c text) := by
    rcases hcopy with rfl | ⟨signature, rfl⟩
    · exact hserver
    · rw [serverSignatureOf, attachUserSignature, Fields.get?_set, if_pos rfl, asDict_obj, Option.getD_some, Fields.get?_set,
        if_neg (by decide)]
      exact hserver
  refine ⟨hcopyProof, fun n hn => ?_⟩
  obtain ⟨hcopyText, hnormalized, -, hcontext⟩ := payload_agree htype hn hcopied
  have hsame := hcopyText.symm.trans hcopyProof
  refine ⟨hnormalized.trans hsame, fun expectedUserId context hok => ?_⟩
  obtain ⟨-, server, hserverN, hmandate⟩ := MandateKind.userSignatureContext_ok (MandateKind.normalize_idem hn) hok
  have hkept : server = k.serverSignature c text := by
    have hsigned := (MandateKind.normalize_eq_ok hn).signature_eq.1
    rw [signature_server hserverN, signature_server hcopied] at hsigned
    exact Except.ok.inj hsigned
  rw [hmandate, hkept]
  exact hcontext.trans hsame

theorem MandateKind.Created.oneText_iff (h : k.Created c id mandate) (hfloat : Value.FloatText c.printer.float) :
    OneText c.printer k mandate ↔ nullFreeFields mandate = true := by
  refine ⟨fun hone => h.nullFree_of_core ?_, h.oneText⟩
  obtain ⟨text, hall⟩ := hone
  have hown := (hall mandate ⟨mandate, .inl rfl, .inl rfl⟩).1
  have hreceived := (hall (payloadFields mandate) ⟨_, .inr rfl, .inl rfl⟩).1
  obtain ⟨k', n, n', -, -, hkind, -, hn, hn', -, -, hcore, -⟩ := payload_binds hfloat hown hreceived
  obtain rfl : k = k' := Option.some.inj ((MandateKind.kindOf_typeText h.type).symm.trans hkind)
  obtain rfl : mandate = n := Except.ok.inj (h.normalized.symm.trans hn)
  -- nulls are neither lost nor found when keys are sorted
  have hfree : nullFree (.obj (k.core n')) = true := core_nullFree hn' (nullFree_payloadFields mandate)
  rwa [← nullFree_sorted, ← hcore, nullFree_sorted] at hfree

/-- **Normalization is idempotent. The user authorizer and the server derive one text from a prepared mandate exactly
if what the request puts into it has no null.** Canonical texts determine their values, so the text that is proved
determines the mandate, and a proof that is accepted for one text only is accepted for one mandate only. -/
theorem challenges_bound_iff (c : Setup) (hfloat : Value.FloatText c.printer.float) :
    (∀ (k : MandateKind) mandate n, k.normalize c.printer mandate = .ok n → k.normalize c.printer n = .ok n) ∧
    (∀ (s : OperationAuthorizationService) req token now challenge mandate, (s.prepare c req token now).1 = .ok challenge →
      challenge.mandate = some mandate → (∃ q ∈ (s.prepare c req token now).2.pending.rows, q.2.mandate = mandate) ∧
        ∃ mandateRequest userId, OperationAuthorizationService.readPrepare c req.payload = .ok (mandateRequest, userId) ∧
          (OneText c.printer .operation mandate ↔ NullFree c [mandateRequest.operation.params] mandateRequest.agentPublicKey)) ∧
    (∀ (s : IntentAuthorizationService) req token now response mandate, (s.prepare c req token now).1 = .ok response →
      response.mandate = some mandate → (∃ q ∈ (s.prepare c req token now).2.pending.rows, q.2.mandate = mandate) ∧
        ∃ mandateRequest userId actions, IntentAuthorizationService.readPrepare c req.payload = .ok (mandateRequest, userId) ∧
          normalizeActionSpecs c.printer mandateRequest.actions = .ok actions ∧
          (OneText c.printer .intent mandate ↔ NullFree c (actions.filterMap (·.params)) mandateRequest.agentPublicKey)) ∧
    (∀ v w text, canonicalJson c.printer v = .ok text → canonicalJson c.printer w = .ok text → v.sorted = w.sorted) ∧
    ∀ mandate mandate' text text', canonicalUserAuthorizationPayload c.printer mandate = .ok text →
      canonicalUserAuthorizationPayload c.printer mandate' = .ok text' → (text = text' → SameMandate c.printer mandate mandate') ∧
        ∀ accepts : String → Prop, (∀ t t', accepts t → accepts t' → t = t') → accepts text → accepts text' →
          SameMandate c.printer mandate mandate' := by
  refine ⟨fun k mandate n h => MandateKind.normalize_idem h, ?_, ?_, ?_, ?_⟩
  · intro s req token now challenge mandate h hmandate
    rcases OperationAuthorizationService.prepare_cases c s req token now with
      ⟨_, _, mandateRequest, userId, operationId, expireAt, hok, hreturned, hprepares⟩ | ⟨hnone, -⟩
    · obtain rfl := Except.ok.inj (hok.symm.trans h)
      obtain rfl := Option.some.inj (hreturned.symm.trans hmandate)
      refine ⟨?_, mandateRequest, userId, hprepares.read, ?_⟩
      · rw [hprepares.pending]
        exact ⟨_, Table.mem_insert.mpr (.inl rfl), rfl⟩
      · exact ((created_of_createOperation hprepares.create).oneText_iff hfloat).trans (nullFree_of_createOperation hprepares.create)
    · rw [hnone challenge h] at hmandate
      cases hmandate
  · intro s req token now response mandate h hmandate
    rcases IntentAuthorizationService.prepare_cases c s req token now with
      ⟨_, _, mandateRequest, userId, mandateId, hok, hreturned, hprepares⟩ | ⟨hnone, -⟩
    · obtain rfl := Except.ok.inj (hok.symm.trans h)
      obtain rfl := Option.some.inj (hreturned.symm.trans hmandate)
      obtain ⟨actions, hactions, hfree⟩ := nullFree_of_createIntent hprepares.create
      refine ⟨?_, mandateRequest, userId, actions, hprepares.read, hactions, ?_⟩
      · rw [hprepares.pending]
        exact ⟨_, Table.mem_insert.mpr (.inl rfl), rfl⟩
      · exact ((created_of_createIntent hprepares.create).oneText_iff hfloat).trans hfree
    · rw [hnone response h] at hmandate
      cases hmandate
  · intro v w text hv hw
    exact Value.sorted_eq_of_canonicalJson hfloat (canonicalJson_eq_some hv) (canonicalJson_eq_some hw)
  · intro mandate mandate' text text' h h'
    have hsame : text = text' → SameMandate c.printer mandate mandate' := by
      rintro rfl
      exact payload_binds hfloat h h'
    exact ⟨hsame, fun accepts hone haccepts haccepts' => hsame (hone text text' haccepts haccepts')⟩

/-! ## A prepared mandate -/

namespace OperationAuthorizationService

/-- The mandate for one unit is sent without a null, so it has one text. -/
theorem challenges_bound_iff_sample : OneText plainSetup.printer .operation mandateOne := by
  have hsome : ((prepare plainSetup {} prepareOne "t" 0).1.toOption.bind (·.mandate)).isSome = true := by decide +kernel
  obtain ⟨mandate, hmandate⟩ := Option.isSome_iff_exists.mp hsome
  have hone : mandateOne = mandate := by rw [mandateOne, hmandate, Option.getD_some]
  obtain ⟨challenge, hchallenge, hreturned⟩ := Option.bind_eq_some_iff.mp hmandate
  obtain ⟨-, mandateRequest, userId, hread, hiff⟩ := (challenges_bound_iff plainSetup Value.floatText_fractionText).2.1 {}
    prepareOne "t" 0 challenge mandate (ok_of_toOption hchallenge) hreturned
  have hnulls : (readPrepare plainSetup prepareOne.payload).toOption.map
      (fun q => (nullFreeFields q.1.operation.params, q.1.agentPublicKey.isNone)) = some (true, true) := by decide +kernel
  rw [hread] at hnulls
  obtain ⟨hparams, hkey⟩ := Prod.mk.inj (Option.some.inj hnulls)
  rw [hone]
  refine hiff.mpr { params := List.forall_mem_singleton.mpr hparams, agentKey := ?_, policy := ?_ }
  · rw [Option.isNone_iff_eq_none.mp hkey]
    rintro key ⟨⟩
  · rintro ⟨⟩

/-- A payment with a member that is null. -/
def prepareNull : Request where
  fields := .ofList [("agentId", .str "agent"), ("userId", .str "user"),
    ("operation", .obj (.ofList [("action", .str "pay"), ("params", .obj (.ofList [("memo", .null)]))]))]
  distinct := by decide +kernel

/-- The payment that arrives without its null has another text. -/
theorem challenge_unbound :
    ¬ ∀ (c : Setup), Value.FloatText c.printer.float → ∀ (s : OperationAuthorizationService) req token now challenge mandate,
      (s.prepare c req token now).1 = .ok challenge → challenge.mandate = some mandate → OneText c.printer .operation mandate := by
  intro h
  have htexts : ((prepare plainSetup {} prepareNull "t" 0).1.toOption.bind (·.mandate)).map (fun mandate =>
      ((canonicalUserAuthorizationPayload plainSetup.printer mandate).toOption ==
        (canonicalUserAuthorizationPayload plainSetup.printer (payloadFields mandate)).toOption)) = some false := by decide +kernel
  obtain ⟨mandate, hmandate, hdiffer⟩ := Option.map_eq_some_iff.mp htexts
  obtain ⟨challenge, hchallenge, hreturned⟩ := Option.bind_eq_some_iff.mp hmandate
  obtain ⟨text, hall⟩ := h plainSetup Value.floatText_fractionText {} prepareNull "t" 0 challenge mandate (ok_of_toOption hchallenge) hreturned
  rw [(hall mandate ⟨mandate, .inl rfl, .inl rfl⟩).1, (hall (payloadFields mandate) ⟨_, .inr rfl, .inl rfl⟩).1] at hdiffer
  simp at hdiffer

end OperationAuthorizationService

end AgentProtocol.A4P
