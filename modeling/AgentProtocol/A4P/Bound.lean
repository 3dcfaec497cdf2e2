-- SUMMARY: What an approval is bound to: the operation that was prepared, signed and shown, up to the types of its numbers.
import AgentProtocol.A4P.Approvals

/-!
# Bound approvals

Operations are compared with `==`, which takes `1`, `1.0` and `True` for the same, so an approval is bound to the
operation up to the types of its numbers.
-/

namespace AgentProtocol.A4P

open Lib

namespace OperationAuthorizationService

section Bound

variable (c : Setup)

/-- The signed mandate in a completion, and the pending authorization that it is about. -/
def pendingFor (s : OperationAuthorizationService) (req : Request) (now : ℚ) : Option (Fields × Pending) := do
  let signedMandate ← asDict (req.payload.get? "signedMandate")
  let operationId ← (mandateIdentifier c.printer signedMandate).toOption
  let p ← (s.pruneExpired now).pending.lookup operationId
  pure (signedMandate, p)

def submittedOperation (req : Request) : Except Raised Operation := normalizeOperation c.printer (req.fields.get? "operation")

/-- The completion submits the operation that was prepared and signed, and that was shown. -/
def Bound (s : OperationAuthorizationService) : Event → Prop
  | .prepare .. => True
  | .complete req now _ => ∃ signedMandate p current prepared signedOperation text,
      pendingFor c s req now = some (signedMandate, p) ∧ submittedOperation c req = .ok current ∧
        submittedOperation c p.submitted = .ok prepared ∧
        normalizeOperation c.printer (signedMandate.get? "operation") = .ok signedOperation ∧
        canonicalJson c.printer current.toValue = .ok text ∧ canonicalJson c.printer prepared.toValue = .ok text ∧
        canonicalJson c.printer signedOperation.toValue = .ok text ∧
        (c.displayTextRenderer = none → ∃ localUntil,
          signedMandate.get? "displayText" = some (.str (operationDisplayText c.printer prepared localUntil)))

/-- Where the operation of a completion and the prepared one have numbers or booleans, they have them of one type. -/
def SameTypes (s : OperationAuthorizationService) : Event → Prop
  | .prepare .. => True
  | .complete req now _ =>
    match pendingFor c s req now, normalizeOperation c.printer (req.payload.get? "operation") with
    | some (_, p), .ok current => current.toValue.sameKinds p.operation.toValue = true
    | _, _ => True

instance (s : OperationAuthorizationService) : (e : Event) → Decidable (SameTypes c s e)
  | .prepare .. => inferInstanceAs (Decidable True)
  | .complete req now later => by
    unfold SameTypes
    dsimp only
    split <;> infer_instance

/-- The conversion to a payload keeps the operation; JSON requests are not converted. -/
def Request.Kept (req : Request) : Prop :=
  normalizeOperation c.printer (req.payload.get? "operation") = submittedOperation c req

def Event.Kept : Event → Prop
  | .prepare req .. => Request.Kept c req
  | .complete req .. => Request.Kept c req

/-- The random part of a new id was not drawn before. -/
def Fresh (s : OperationAuthorizationService) : Event → Prop
  | .prepare _ token _ => ∀ m ∈ s.signed, c.printer.fieldText m "operationId" ≠ Text.strip ("op_" ++ token)
  | .complete .. => True

/-- Nobody but the server can sign: what comes back with a good signature was signed. -/
def Unforged (s : OperationAuthorizationService) : Event → Prop
  | .prepare .. => True
  | .complete req .. => ∀ signedMandate normalized signature text, asDict (req.payload.get? "signedMandate") = some signedMandate →
      normalizeOperationMandate c.printer signedMandate = .ok normalized → serverSignature normalized = .ok signature →
      serverPayload c.printer normalized = .ok text → c.key.verify text signature = true →
      ∃ m ∈ s.signed, serverPayload c.printer m = .ok text

/-! ### The invariant -/

/-- What a pending authorization has of the request that it was made for. -/
structure Prepared (p : Pending) : Prop where
  request : p.request = p.submitted.payload
  kept : Request.Kept c p.submitted
  operation : normalizeOperation c.printer (p.request.get? "operation") = .ok p.operation
  body : p.mandate.get? "operation" = some p.operation.toValue
  displayText : c.displayTextRenderer = none →
    ∃ localUntil, p.mandate.get? "displayText" = some (.str (operationDisplayText c.printer p.operation localUntil))

structure Inv (s : OperationAuthorizationService) : Prop where
  sound : Authorizations.Sound c .operation (authorizations s)
  prepared : ∀ id p, s.pending.lookup id = some p → Prepared c p

variable {c} {s : OperationAuthorizationService}

theorem mandate_of_create {req : MandateRequest} {token : String} {now : ℚ} {mandate : Fields} {payload : Option Value}
    (hoperation : normalizeOperation c.printer payload = .ok req.operation) (h : createOperationMandate c req token now = .ok mandate) :
    mandate.get? "operation" = some req.operation.toValue ∧ (c.displayTextRenderer = none →
      ∃ localUntil, mandate.get? "displayText" = some (.str (operationDisplayText c.printer req.operation localUntil))) := by
  obtain ⟨_, _, displayUntil, rendered, hrendered, ⟨-, -, hsame⟩, hsign⟩ := createOperationMandate_ok h
  have hcore := MandateKind.coreOf_of_sign hsign
  have hrenderedBody : rendered.get? "operation" = some req.operation.toValue := hsame _ (by decide)
  refine ⟨?_, fun hnone => ⟨displayUntil, ?_⟩⟩
  · obtain ⟨v, hv, hbody⟩ := hcore.body
    obtain ⟨hstrip, hne⟩ := normalizeOperation_action hoperation
    have hagain := normalizeOperation_toValue (p := c.printer) hstrip hne
    simp only [MandateKind.normalizeBody, MandateKind.bodyKey, hrenderedBody] at hv hbody
    obtain ⟨o, ho, rfl⟩ := map_eq_ok.mp hv
    rw [hbody, Except.ok.inj (hagain.symm.trans ho)]
  · rw [renderDisplayText, hnone] at hrendered
    obtain rfl := Except.ok.inj hrendered
    exact hcore.same _ (by decide)

theorem Inv.step (h : Inv c s) {e : Event} (hfresh : Fresh c s e) (hkept : Event.Kept c e) : Inv c (step c s e) := by
  refine ⟨h.sound.change (change_stepWith (e := (c.userSignatureMethod, e)) ?_), fun id p hp => ?_⟩
  · cases e with
    | prepare => exact hfresh
    | complete => trivial
  · rcases pending_stepWith (e := (c.userSignatureMethod, e)) hp with
      hold | ⟨method, req, token, now, challenge, mandateRequest, userId, expireAt, he, -, -, hprepares, hrow⟩
    · exact h.prepared id p hold
    · obtain ⟨rfl, rfl⟩ := Prod.mk.inj he
      have hoperation := readPrepare_operation hprepares.read
      obtain ⟨hbody, hdisplay⟩ := mandate_of_create hoperation hprepares.create
      rw [hrow] at hbody hdisplay ⊢
      exact ⟨rfl, hkept, hoperation, hbody, hdisplay⟩

/-! ### An approval -/

variable {p : Printer} {text : String} {v : Value}

theorem canonicalJson_eq_ok : canonicalJson p v = .ok text ↔ v.canonicalJson p.float = some text := by
  unfold canonicalJson
  cases v.canonicalJson p.float <;> simp

variable {req : Request}

theorem distinct_operation {o : Operation}
    (h : normalizeOperation c.printer (req.payload.get? "operation") = .ok o) : o.toValue.distinct = true := by
  cases hget : req.payload.get? "operation" with
  | none =>
    rw [hget] at h
    cases h
  | some v =>
    rw [hget] at h
    have hpayload := distinct_payload req
    simp only [Value.distinct, Bool.and_eq_true] at hpayload
    exact distinct_normalizeOperation (Value.distinctFields_iff.mp hpayload.2 _ (Fields.mem_of_get? hget)) h

theorem get?_withoutUser {n : Fields} {key : String} (hkey : key ≠ "signatures") : (withoutUser n).get? key = n.get? key := by
  unfold withoutUser
  split
  · rw [Fields.get?_set, if_neg hkey.symm]
  · rfl

theorem nodup_withoutUser {n : Fields} (hn : n.keys.Nodup) : (withoutUser n).keys.Nodup := by
  unfold withoutUser
  split
  · exact Fields.nodup_keys_set hn
  · exact hn

theorem Inv.unforged (h : Inv c s) {now later : ℚ} {mandate : Fields} (hunforged : Unforged c s (.complete req now later))
    (hmandate : asDict (req.payload.get? "signedMandate") = some mandate) : MandateKind.operation.Unforged c s.signed mandate := by
  intro n signature text hn hsignature htext hverify
  have hpayload := (MandateKind.serverPayload_core (MandateKind.normalize_idem hn)).trans htext
  obtain ⟨m, hm, hmtext⟩ := hunforged mandate n signature text hmandate hn hsignature hpayload hverify
  obtain ⟨id, hcreated⟩ := h.sound.apart.created m hm
  exact ⟨m, hm, (MandateKind.serverPayload_core hcreated.normalized).symm.trans hmtext⟩

theorem Inv.signedMandate_eq (h : Inv c s) (hfloat : Value.FloatText c.printer.float) {now later : ℚ} {mandate n : Fields}
    {operationId : String} {p : Pending} {signedOperation : Operation} (happroved : Approved c s req now later mandate operationId p n)
    (hunforged : Unforged c s (.complete req now later)) (hoperation : normalizeOperation c.printer (mandate.get? "operation") = .ok signedOperation) :
    signedOperation.toValue.sorted = p.operation.toValue.sorted ∧ p.operation.toValue.finite = true ∧
      (c.displayTextRenderer = none → ∃ localUntil,
        mandate.get? "displayText" = some (.str (operationDisplayText c.printer p.operation localUntil))) := by
  have hlookup := lookup_pruneExpired happroved.pending
  have hp := h.prepared _ _ hlookup
  obtain ⟨id, hcreated⟩ := h.sound.apart.created _ (h.sound.pending operationId (p.request, p.mandate) (by simp [authorizations, hlookup])).1
  obtain ⟨n', m, hn', hm, hsame⟩ := happroved.sameMandate h.sound hfloat (h.unforged hunforged happroved.submitted)
  obtain rfl := Except.ok.inj (hn'.symm.trans happroved.verified.normalize)
  obtain rfl := Except.ok.inj (hm.symm.trans hcreated.normalized)
  have hto := MandateKind.normalize_eq_ok hn'
  have hnodup := MandateKind.nodup_normalize (nodup_keys (distinct_get? (distinct_payload req) (get?_of_asDict happroved.submitted))) hn'
  have hmember : ∀ key ≠ "signatures", (n'.get? key).map Value.sorted = (p.mandate.get? key).map Value.sorted := by
    intro key hkey
    have hboth := Value.sorted_get? hsame (nodup_withoutUser hnodup)
      (nodup_withoutUser (hcreated.keys ▸ MandateKind.operation.nodup_keys_created)) key
    rwa [get?_withoutUser hkey, get?_withoutUser hkey] at hboth
  -- what was submitted as the signed operation is what normalization makes of it
  have hsigned : n'.get? "operation" = some signedOperation.toValue := by
    obtain ⟨v, hv, hbody⟩ := hto.body
    obtain ⟨o, ho, rfl⟩ := map_eq_ok.mp hv
    rw [show n'.get? "operation" = _ from hbody]
    cases hget : mandate.get? "operation" with
    | none => rw [hget] at hoperation; cases hoperation
    | some w =>
      cases w with
      | obj d =>
        rw [MandateKind.bodyKey, hget] at ho
        rw [hget] at hoperation
        rw [Except.ok.inj (ho.symm.trans hoperation)]
      | null | bool | int | float | str | arr => rw [hget] at hoperation; cases hoperation
  refine ⟨?_, ?_, fun hrenderer => ?_⟩
  · have hsorted := hmember "operation" (by decide)
    rw [hsigned, hp.body] at hsorted
    exact Option.some.inj hsorted
  · obtain ⟨text, htext, -⟩ := hcreated.signatures
    exact Value.finiteFields_iff.mp (MandateKind.finite_core htext) _
      (Fields.mem_of_get? (MandateKind.core_get? (show "operation" ∈ MandateKind.operation.coreKeys by decide) hp.body))
  · obtain ⟨localUntil, hdisplay⟩ := hp.displayText hrenderer
    have hsorted := hmember "displayText" (by decide)
    rw [hto.same _ (by decide), hdisplay] at hsorted
    obtain ⟨v, hv, hvalue⟩ := Option.map_eq_some_iff.mp hsorted
    exact ⟨localUntil, hv.trans (congrArg some (eq_str_of_sorted hvalue))⟩

theorem Inv.bound_iff (h : Inv c s) (hfloat : Value.FloatText c.printer.float) {e : Event} (hunforged : Unforged c s e)
    (hkept : Event.Kept c e) (happroves : Approves c s e) : Bound c s e ↔ SameTypes c s e := by
  cases e with
  | prepare => exact happroves.elim
  | complete req now later =>
    rcases complete_cases c s req now later with ⟨signedMandate, operationId, p, n, happroved⟩ | ⟨hnot, -⟩
    swap
    · exact absurd happroves hnot
    obtain ⟨result, hcheck, hresult⟩ := happroved.checked
    obtain ⟨-, current, signedOperation, hcurrent, heq, -, hoperation, -⟩ := checkCompletion_approved hcheck hresult
    have hp := h.prepared _ _ (lookup_pruneExpired happroved.pending)
    obtain ⟨hsorted, hfinite, hdisplay⟩ := h.signedMandate_eq hfloat happroved hunforged hoperation
    have hpending : pendingFor c s req now = some (signedMandate, p) := by
      simp [pendingFor, happroved.submitted, happroved.identifier, happroved.pending, Except.toOption]
    have hsubmitted : submittedOperation c req = .ok current := hkept.symm.trans hcurrent
    have hprepared : submittedOperation c p.submitted = .ok p.operation := by
      have hop := hp.operation
      rw [hp.request] at hop
      exact hp.kept.symm.trans hop
    have hdistinct := distinct_operation hcurrent
    have hdistinctP : p.operation.toValue.distinct = true := by
      have hop := hp.operation
      rw [hp.request] at hop
      exact distinct_operation hop
    have hiff : SameTypes c s (.complete req now later) ↔ current.toValue.sameKinds p.operation.toValue = true := by
      simp [SameTypes, hpending, hcurrent]
    rw [hiff]
    constructor
    · rintro ⟨_, _, current', prepared, _, text', hpending', hsubmitted', hprepared', -, hcur, hprep, -, -⟩
      obtain ⟨rfl, rfl⟩ := Prod.mk.inj (Option.some.inj (hpending.symm.trans hpending'))
      obtain rfl := Except.ok.inj (hsubmitted.symm.trans hsubmitted')
      obtain rfl := Except.ok.inj (hprepared.symm.trans hprepared')
      have hsame := Value.sorted_eq_of_canonicalJson hfloat (canonicalJson_eq_ok.mp hcur) (canonicalJson_eq_ok.mp hprep)
      exact Value.sameKinds_of_sorted_eq hsame hdistinctP
    · intro hsame
      have hcanonical : ∃ t, p.operation.toValue.canonicalJson c.printer.float = some t := by
        simp [Value.canonicalJson, hfinite]
      obtain ⟨t, ht⟩ := hcanonical
      have hcur := Value.sorted_eq_of_eq heq hsame hdistinct hdistinctP
      refine ⟨signedMandate, p, current, p.operation, signedOperation, t, hpending, hsubmitted, hprepared, hoperation, ?_, ?_, ?_, hdisplay⟩
      · rw [canonicalJson_eq_ok, Value.canonicalJson_congr _ hcur, ht]
      · rw [canonicalJson_eq_ok, ht]
      · rw [canonicalJson_eq_ok, Value.canonicalJson_congr _ hsorted, ht]

/-- In every run, an approval is bound to the operation that was prepared, signed and shown if and
only if the operation that is submitted with it has numbers and booleans of the same types. -/
theorem approvals_bound (c : Setup) (hfloat : Value.FloatText c.printer.float) (events : List Event)
    (hfresh : Along (step c) (Fresh c) {} events) (hunforged : Along (step c) (Unforged c) {} events)
    (hkept : Along (step c) (fun _ e => Event.Kept c e) {} events) :
    Along (step c) (fun s e => Approves c s e → (Bound c s e ↔ SameTypes c s e)) {} events := by
  have hinit : Inv c {} := { sound := Authorizations.sound_empty, prepared := by rintro id p ⟨⟩ }
  apply ((hfresh.and hunforged).and hkept).imp hinit
  · exact fun s e hs he => hs.step he.1.1 he.2
  · exact fun s e hs he happroves => hs.bound_iff hfloat he.1.2 he.2 happroves

end Bound

/-! ### A run -/

def completeWith (amount : Value) (h : amount.distinct = true) : Request where
  fields := .ofList [("signedMandate", .obj mandateOne), ("operation", pay amount)]
  distinct := by
    have hmandate := distinct_mandateOne
    simp only [Value.distinct, Bool.and_eq_true] at hmandate
    simp [Fields.ofList, pay, Fields.keys, Fields.toList, Value.distinct, Value.distinctFields, h, hmandate.2]
    simpa [Fields.keys] using hmandate.1

def paid (amount : Value) (h : amount.distinct = true) : List Event := [.prepare prepareOne "t" 0, .complete (completeWith amount h) 1 1]

section Paid

variable {amount : Value} {h : amount.distinct = true}

theorem fresh_paid : Along (step plainSetup) (Fresh plainSetup) {} (paid amount h) := by
  refine ⟨?_, trivial, trivial⟩
  rintro m ⟨⟩

theorem kept_paid : Along (step plainSetup) (fun _ e => Event.Kept plainSetup e) {} (paid amount h) := ⟨rfl, rfl, trivial⟩

theorem unforged_paid : Along (step plainSetup) (Unforged plainSetup) {} (paid amount h) := by
  refine ⟨trivial, ?_, trivial⟩
  intro signedMandate normalized signature text hsigned hnormalized _ htext _
  obtain rfl : mandateOne = signedMandate := Option.some.inj hsigned
  have hmem : mandateOne ∈ (step plainSetup {} (.prepare prepareOne "t" 0)).signed := by decide +kernel
  exact ⟨mandateOne, hmem, (MandateKind.serverPayload_core hnormalized).trans ((MandateKind.serverPayload_core
    (MandateKind.normalize_idem hnormalized)).symm.trans htext)⟩

end Paid

/-- A completion with the operation that was prepared is approved, and bound to it. -/
theorem approvals_bound_sample : Bound plainSetup (step plainSetup {} (.prepare prepareOne "t" 0)) (.complete (completeWith (.int 1) rfl) 1 1) := by
  have hrun := approvals_bound plainSetup Value.floatText_fractionText (paid (.int 1) rfl) fresh_paid unforged_paid kept_paid
  exact (hrun.2.1 (by decide +kernel)).mpr (by decide +kernel)

/-- A completion with `true` for `1` is approved, too. -/
theorem approval_unbound : ¬ ∀ (c : Setup), Value.FloatText c.printer.float → ∀ events : List Event,
      Along (step c) (Fresh c) {} events → Along (step c) (Unforged c) {} events →
      Along (step c) (fun _ e => Event.Kept c e) {} events →
        Along (step c) (fun s e => Approves c s e → Bound c s e) {} events := by
  intro h
  have hrun := h plainSetup Value.floatText_fractionText (paid (.bool true) rfl) fresh_paid unforged_paid kept_paid
  obtain ⟨signedMandate, p, current, prepared, signedOperation, text, hpending, hcurrent, hprepared, -, htext, htext', -⟩ :=
    hrun.2.1 (by decide +kernel)
  have hsubmitted : (submittedOperation plainSetup (completeWith (.bool true) rfl)).toOption.map (canonicalJson plainSetup.printer ·.toValue) =
      some (.ok "\x7b\"action\":\"pay\",\"params\":\x7b\"amount\":true\x7d\x7d") := by decide +kernel
  have hpendingText : (pendingFor plainSetup (step plainSetup {} (.prepare prepareOne "t" 0)) (completeWith (.bool true) rfl) 1).map
      (fun q => (submittedOperation plainSetup q.2.submitted).toOption.map (canonicalJson plainSetup.printer ·.toValue)) =
      some (some (.ok "\x7b\"action\":\"pay\",\"params\":\x7b\"amount\":1\x7d\x7d")) := by decide +kernel
  rw [hcurrent] at hsubmitted
  rw [hpending, Option.map_some, hprepared] at hpendingText
  have hleft := htext.symm.trans (Option.some.inj hsubmitted)
  have hright := htext'.symm.trans (Option.some.inj (Option.some.inj hpendingText))
  exact absurd (hleft.symm.trans hright) (by decide)

end OperationAuthorizationService

end AgentProtocol.A4P
