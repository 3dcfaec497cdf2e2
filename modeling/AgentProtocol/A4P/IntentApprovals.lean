-- SUMMARY: Runs of intent authorization: a mandate that passes gets its token, and every authorization is approved at most once.
import AgentProtocol.A4P.Approvals

namespace AgentProtocol.A4P

open Lib

/-! ## Issuing a token -/

theorem stripChars_ne_nil {p : Char → Bool} {l : List Char} {a : Char} (hmem : a ∈ l) (ha : p a = false) : Text.stripChars p l ≠ [] := by
  intro hnil
  have hdrop : (l.dropWhile p).reverse.dropWhile p = [] := List.reverse_eq_nil_iff.mp hnil
  have hall : ∀ b ∈ l.dropWhile p, p b = true := by
    intro b hb
    exact List.dropWhile_eq_nil_iff.mp hdrop b (List.mem_reverse.mpr hb)
  have hne : l.dropWhile p ≠ [] := by
    intro hempty
    rw [List.dropWhile_eq_nil_iff.mp hempty a hmem] at ha
    cases ha
  have hhead := List.head_dropWhile_not p hne
  rw [hall _ (List.head_mem hne)] at hhead
  cases hhead

theorem strip_ne_of_strptime {s : String} {t : Civil} (h : strptime s = some t) : Text.strip s ≠ "" := by
  intro hstrip
  have hchars : Text.stripChars Text.isSpace s.toList = [] := by
    have hlist := congrArg String.toList hstrip
    simpa [Text.strip] using hlist
  unfold strptime at h
  obtain ⟨r, hyear, -⟩ := Option.bind_eq_some_iff.mp h
  unfold digitsUntil at hyear
  cases hl : s.toList with
  | nil => rw [hl] at hyear; cases hyear
  | cons a rest =>
    have hdigit : a.isDigit = true := by
      cases ha : a.isDigit with
      | true => rfl
      | false =>
        rw [hl, List.span_eq_takeWhile_dropWhile] at hyear
        simp [ha] at hyear
    refine stripChars_ne_nil (a := a) (by simp [hl]) ?_ hchars
    simp only [Char.isDigit, Bool.and_eq_true, decide_eq_true_eq] at hdigit
    have hlow : 48 ≤ a.toNat := hdigit.1
    have hhigh : a.toNat ≤ 57 := hdigit.2
    simp [Text.isSpace]
    omega

variable {text : String}

theorem finite_asDict {d f : Fields} {key : String} (hd : Value.finiteFields d = true) (h : asDict (d.get? key) = some f) :
    Value.finiteFields f = true :=
  Value.finiteFields_iff.mp hd _ (Fields.mem_of_get? (get?_of_asDict h))

theorem finite_tokenSubject {p : Printer} {subject : Fields} (h : Value.finiteFields subject = true) :
    Value.finiteFields (tokenSubject p subject) = true := by
  unfold tokenSubject
  cases hkey : asDict (subject.get? "agentKey") with
  | none => simp [Fields.ofList, Value.finiteFields, Value.finite]
  | some key => simp [Fields.ofList, Value.finiteFields, Value.finite, finite_asDict h hkey]

theorem tokenText_draftToken {p : Printer} {n : Fields} {scope : IntentScope} (userId mandateId issuedAt expireAt : String) (seed : TokenSeed)
    (hscope : normalizeIntentScope p (some scope.toValue) = .ok scope) (hfinite : scope.toValue.finite = true)
    (hsubject : Value.finiteFields ((asDict (n.get? "subject")).getD .nil) = true) :
    ∃ text, tokenText p (draftToken p n scope userId mandateId issuedAt expireAt seed) = .ok text := by
  have hintent : (draftToken p n scope userId mandateId issuedAt expireAt seed).get? "intent" = some scope.toValue := by
    simp [draftToken, Fields.ofList, Fields.get?]
  unfold tokenText intentTokenCorePayload
  rw [hintent]
  simp only [hscope, bind, Except.bind, pure, Except.pure]
  split
  · rename_i hnone
    exfalso
    unfold Value.canonicalJson at hnone
    split at hnone
    · cases hnone
    rename_i hnot
    apply hnot
    simp [draftToken, Fields.ofList, Fields.get?, Value.finite, Value.finiteFields, hfinite, finite_tokenSubject hsubject]
  · exact ⟨_, rfl⟩

theorem issueIntentToken_isOk {c : Setup} {mandate n : Fields} {expectedUserId : String} {now : ℚ} (userId : String) (seed : TokenSeed) (later : ℚ)
    (h : MandateKind.intent.Verified c mandate n expectedUserId now) (hid : c.printer.fieldText mandate "mandateId" ≠ "") :
    ∃ token, issueIntentToken c mandate userId seed later = .ok token := by
  have hn := MandateKind.normalize_eq_ok h.normalize
  obtain ⟨signature, text, -, htext, -⟩ := h.server
  have hfinite := MandateKind.finite_core htext
  obtain ⟨validTime, last, t, hvalid, hlast, ht, -⟩ := h.time
  have hidN : c.printer.fieldText n "mandateId" ≠ "" := by
    simp only [Printer.fieldText, hn.same "mandateId" (by decide)]
    exact hid
  have hexpire : c.printer.fieldText validTime "end" ≠ "" := by
    have hend : validTime.get? "end" = some (.str last) := hlast
    rw [OperationAuthorizationService.fieldText_of_str hend]
    exact strip_ne_of_strptime ht
  obtain ⟨v, hv, hbody⟩ := hn.body
  obtain ⟨scope, hscope, rfl⟩ := map_eq_ok.mp (MandateKind.normalizeBody_idem hv)
  have hintent : n.get? "intent" = some scope.toValue := hbody
  have hscopeFinite : scope.toValue.finite = true :=
    Value.finiteFields_iff.mp hfinite _ (Fields.mem_of_get? (MandateKind.core_get? (by decide) hintent))
  have hsubject : Value.finiteFields ((asDict (n.get? "subject")).getD .nil) = true := by
    cases hget : asDict (n.get? "subject") with
    | none => rfl
    | some subject => exact finite_asDict hfinite (by rw [MandateKind.core_get? (by decide) (get?_of_asDict hget)]; rfl)
  have hscope' : normalizeIntentScope c.printer (some scope.toValue) = .ok scope := by
    unfold raisedScope at hscope
    cases hraw : normalizeIntentScope c.printer (some scope.toValue) with
    | error e => rw [hraw] at hscope; cases hscope
    | ok s => rw [hraw] at hscope; exact congrArg Except.ok (Except.ok.inj hscope)
  obtain ⟨tokenText', htoken⟩ := tokenText_draftToken userId (c.printer.fieldText n "mandateId") (gmtime ⌊later⌋).iso
    (c.printer.fieldText validTime "end") seed hscope' hscopeFinite hsubject
  have hnormalize : normalizeIntentMandate c.printer mandate = .ok n := h.normalize
  have hintentObj : some (Value.obj ((asDict (n.get? "intent")).getD .nil)) = some scope.toValue := by
    rw [hintent]
    rfl
  refine ⟨(draftToken c.printer n scope userId (c.printer.fieldText n "mandateId") (gmtime ⌊later⌋).iso
    (c.printer.fieldText validTime "end") seed).set "signature" (.str (c.key.sign tokenText')), ?_⟩
  unfold issueIntentToken
  simp only [hnormalize, hidN, hvalid, asDict_obj, Option.getD_some, hexpire, hintentObj, hscope, htoken, if_false, bind, Except.bind,
    Except.mapError, pure, Except.pure]

namespace IntentAuthorizationService

variable {c : Setup} {s : IntentAuthorizationService}

/-! ## Steps -/

/-- What an approval of a completion went through. -/
structure Approved (c : Setup) (s : IntentAuthorizationService) (req : Request) (now later : ℚ) (seed : TokenSeed) (mandate : Fields)
    (mandateId : String) (p : PendingIntent) (n token : Fields) : Prop where
  submitted : asDict (req.fields.get? "signedMandate") = some mandate
  identifier : mandateIdentifier c.printer mandate = .ok mandateId
  pending : s.pending.lookup mandateId = some p
  same : MandateKind.intent.matchesPending c.printer mandate p.mandate = true
  verified : MandateKind.intent.Verified c mandate n (OperationAuthorizationService.requestUser c.printer p.request) now
  issued : issueIntentToken c mandate (c.printer.text (((p.request.get? "userId").filter truthy).getD (.str "user:unknown"))) seed later = .ok token
  result : (s.complete c req now later seed).1 =
    .ok { mandate := some mandate, intentToken := some token, approved := true, verificationResult := some { valid := true } }
  taken : (s.complete c req now later seed).2 = { s with pending := s.pending.erase mandateId, issued := token :: s.issued }

/-- A completion that is not approved. -/
structure Rejected (c : Setup) (s : IntentAuthorizationService) (req : Request) (now later : ℚ) (seed : TokenSeed) : Prop where
  result : ∀ response, (s.complete c req now later seed).1 = .ok response → response.approved = false
  kept : (s.complete c req now later seed).2 = s

variable {seed : TokenSeed} {now later : ℚ} {req : Request}

theorem Rejected.of_eq {r : Except Raised IntentAuthorizationResponse}
    (h : s.complete c req now later seed = (r, s)) (hr : ∀ response, r = .ok response → response.approved = false) :
    Rejected c s req now later seed := by
  refine ⟨fun response hresponse => hr response ?_, ?_⟩
  · rw [h] at hresponse
    exact hresponse
  · rw [h]

variable {p : PendingIntent}

variable {mandate : Fields}

theorem checkCompletion_cases
    {answer : IntentAuthorizationResponse ⊕ Except Raised Fields} (h : checkCompletion c mandate p now later seed = .ok answer) :
    (∃ response, answer = .inl response ∧ response.approved = false) ∨
      ∃ n, answer = .inr (issueIntentToken c mandate (c.printer.text (((p.request.get? "userId").filter truthy).getD (.str "user:unknown"))) seed later) ∧
        MandateKind.intent.matchesPending c.printer mandate p.mandate = true ∧
        MandateKind.intent.Verified c mandate n (OperationAuthorizationService.requestUser c.printer p.request) now := by
  unfold checkCompletion at h
  dsimp only at h
  split at h
  · obtain rfl := Except.ok.inj h
    exact .inl ⟨_, rfl, rfl⟩
  · rename_i hmatch
    obtain ⟨verdict, hverify, hrest⟩ := bind_eq_ok.mp h
    cases verdict with
    | some reason =>
      obtain rfl := Except.ok.inj hrest
      exact .inl ⟨_, rfl, rfl⟩
    | none =>
      obtain rfl := Except.ok.inj hrest
      obtain ⟨n, hverified⟩ := MandateKind.verified_of_intent hverify
      exact .inr ⟨n, rfl, by simpa using hmatch, hverified⟩

theorem complete_cases (c : Setup) (s : IntentAuthorizationService) (req : Request) (now later : ℚ) (seed : TokenSeed) :
    (∃ mandate mandateId p n token, Approved c s req now later seed mandate mandateId p n token) ∨ Rejected c s req now later seed := by
  cases hclass : req.isDataclass with
  | true => exact .inr (.of_eq (r := .error .other) (by simp [complete, hclass]) fun _ h => nomatch h)
  | false =>
    cases hmandate : asDict (req.fields.get? "signedMandate") with
    | none => exact .inr (.of_eq (by simp [complete, hclass, hmandate]; rfl) fun _ h => Except.ok.inj h ▸ rfl)
    | some mandate =>
      cases hcaught : caught (mandateIdentifier c.printer mandate) with
      | error e => exact .inr (.of_eq (r := .error e) (by simp [complete, hclass, hmandate, hcaught]) fun _ h => nomatch h)
      | ok r =>
        cases r with
        | inl reason => exact .inr (.of_eq (by simp [complete, hclass, hmandate, hcaught]; rfl) fun _ h => Except.ok.inj h ▸ rfl)
        | inr mandateId =>
          cases hlookup : s.pending.lookup mandateId with
          | none => exact .inr (.of_eq (by simp [complete, hclass, hmandate, hcaught, hlookup]; rfl) fun _ h => Except.ok.inj h ▸ rfl)
          | some p =>
            cases hcheck : checkCompletion c mandate p now later seed with
            | error e => exact .inr (.of_eq (r := .error e) (by simp [complete, hclass, hmandate, hcaught, hlookup, hcheck]) fun _ h => nomatch h)
            | ok answer =>
              rcases checkCompletion_cases hcheck with ⟨response, rfl, happroved⟩ | ⟨n, rfl, hmatch, hverified⟩
              · exact .inr (.of_eq (r := .ok response) (by simp [complete, hclass, hmandate, hcaught, hlookup, hcheck]) fun _ h => Except.ok.inj h ▸ happroved)
              · have hidentifier := caught_eq_inr hcaught
                obtain ⟨hid, hne⟩ := mandateIdentifier_ok hverified.type hidentifier
                obtain ⟨token, htoken⟩ := issueIntentToken_isOk
                  (c.printer.text (((p.request.get? "userId").filter truthy).getD (.str "user:unknown"))) seed later hverified (hid.trans_ne hne)
                rw [htoken] at hcheck
                refine .inl ⟨mandate, mandateId, p, n, token, hmandate, hidentifier, hlookup, hmatch, hverified, htoken, ?_, ?_⟩
                · simp [complete, hclass, hmandate, hcaught, hlookup, hcheck]
                · simp [complete, hclass, hmandate, hcaught, hlookup, hcheck]

/-! ### Runs -/

def step (c : Setup) (s : IntentAuthorizationService) : Event → IntentAuthorizationService
  | .prepare req token now => (s.prepare c req token now).2
  | .complete req now later seed => (s.complete c req now later seed).2

def stepWith (c : Setup) (s : IntentAuthorizationService) (e : Option UserSignatureMethod × Event) : IntentAuthorizationService :=
  step (c.withMethod e.1) s e.2

def authorizations (s : IntentAuthorizationService) : Authorizations where
  signed := s.signed
  pending id := (s.pending.lookup id).map fun p => (p.request, p.mandate)

def approvedId (c : Setup) (s : IntentAuthorizationService) : Option UserSignatureMethod × Event → Option String
  | (_, .prepare ..) => none
  | (method, .complete req now later seed) =>
    ((s.complete (c.withMethod method) req now later seed).1.toOption.filter (·.approved)).bind fun response =>
      response.mandate.bind fun mandate => (mandateIdentifier c.printer mandate).toOption

/-- The random part of a new id was not drawn before. -/
def FreshId (c : Setup) (s : IntentAuthorizationService) : Option UserSignatureMethod × Event → Prop
  | (_, .prepare _ token _) => MandateKind.intent.New c s.signed ("mdt_" ++ token)
  | (_, .complete ..) => True

/-- Nobody but the server can sign. -/
def UnforgedMandate (c : Setup) (s : IntentAuthorizationService) : Option UserSignatureMethod × Event → Prop
  | (_, .prepare ..) => True
  | (_, .complete req ..) => ∀ mandate, asDict (req.fields.get? "signedMandate") = some mandate →
      MandateKind.intent.Unforged c s.signed mandate

variable {method : Option UserSignatureMethod}

theorem authorizations_eq {s : IntentAuthorizationService} {d : Dict String PendingIntent} {signed : List Fields} (hpending : s.pending = d)
    (hsigned : s.signed = signed) : authorizations s = .ofDict (fun p => (p.request, p.mandate)) signed d := by
  rw [← hpending, ← hsigned]
  rfl

theorem approvedId_of_approved {mandateId : String} {n token : Fields}
    (h : Approved (c.withMethod method) s req now later seed mandate mandateId p n token) :
    approvedId c s (method, .complete req now later seed) = some mandateId := by
  have hidentifier : mandateIdentifier c.printer mandate = .ok mandateId := h.identifier
  simp only [approvedId, h.result]
  simp [Except.toOption, Option.filter, hidentifier]

theorem approvedId_of_rejected
    (h : Rejected (c.withMethod method) s req now later seed) : approvedId c s (method, .complete req now later seed) = none := by
  simp only [approvedId]
  cases hresult : (s.complete (c.withMethod method) req now later seed).1 with
  | error e => rfl
  | ok response =>
    have hno := h.result response hresult
    simp [Except.toOption, Option.filter, hno]

theorem change_stepWith {e : Option UserSignatureMethod × Event} (hfresh : FreshId c s e) :
    Authorizations.Change c .intent (authorizations s) (authorizations (stepWith c s e)) (approvedId c s e) := by
  obtain ⟨method, e⟩ := e
  cases e with
  | prepare req token now =>
    have hstep : stepWith c s (method, .prepare req token now) = (s.prepare (c.withMethod method) req token now).2 := rfl
    have hid : approvedId c s (method, .prepare req token now) = none := rfl
    rw [hstep, hid]
    rcases prepare_cases (c.withMethod method) s req token now with
      ⟨response, mandate, mandateRequest, userId, mandateId, -, -, hprepares⟩ | ⟨-, hpending, hsigned⟩
    · have hcreated := MandateKind.Created.withMethod_iff.mp (created_of_createIntent hprepares.create)
      rw [authorizations_eq hprepares.pending hprepares.signed]
      exact .set (fun _ _ => id) ⟨_, hcreated, hfresh, rfl⟩ (mandateIdentifier_ok hcreated.type hprepares.identifier).1
    · rw [authorizations_eq hpending rfl]
      refine .kept (fun _ _ => id) (hsigned.imp_right ?_)
      rintro ⟨mandateRequest, mandate, hcreate, hsigned⟩
      exact ⟨mandate, _, MandateKind.Created.withMethod_iff.mp (created_of_createIntent hcreate), hfresh, hsigned⟩
  | complete req now later seed =>
    have hstep : stepWith c s (method, .complete req now later seed) = (s.complete (c.withMethod method) req now later seed).2 := rfl
    rw [hstep]
    rcases complete_cases (c.withMethod method) s req now later seed with ⟨mandate, mandateId, p, n, token, happroved⟩ | hrejected
    · rw [approvedId_of_approved happroved]
      rw [authorizations_eq (congrArg pending happroved.taken) (congrArg signed happroved.taken)]
      exact .erase (fun _ _ => id) happroved.pending
    · rw [approvedId_of_rejected hrejected, hrejected.kept]
      exact .kept (fun _ _ => id) (.inl rfl)

/-- A pending authorization is what a `prepare` of the run returned. -/
def WasPrepared (c : Setup) (events : List (Option UserSignatureMethod × Event)) (request mandate : Fields) : Prop :=
  ∃ pre post method req token now response, events = pre ++ (method, .prepare req token now) :: post ∧
    ((run (stepWith c) {} pre).prepare (c.withMethod method) req token now).1 = .ok response ∧ response.mandate = some mandate ∧
    request = req.payload

/-- An event that approves an id takes an authorization of the run for its mandate. -/
def ApprovesPrepared (c : Setup) (pre : List (Option UserSignatureMethod × Event)) : Option UserSignatureMethod × Event → Prop
  | (_, .prepare ..) => False
  | (method, .complete req now later seed) => ∃ mandate id p, asDict (req.fields.get? "signedMandate") = some mandate ∧
      mandateIdentifier c.printer mandate = .ok id ∧ approvedId c (run (stepWith c) {} pre) (method, .complete req now later seed) = some id ∧
      (run (stepWith c) {} pre).pending.lookup id = some p ∧ WasPrepared c pre p.request p.mandate ∧
      Granted (c.withMethod method) .intent mandate p.request p.mandate now

variable {events : List (Option UserSignatureMethod × Event)}

theorem WasPrepared.append {request mandate : Fields}
    (h : WasPrepared c events request mandate) (e : Option UserSignatureMethod × Event) : WasPrepared c (events ++ [e]) request mandate := by
  obtain ⟨pre, post, method, req, token, now, response, rfl, hrest⟩ := h
  exact ⟨pre, post ++ [e], method, req, token, now, response, by simp, hrest⟩

theorem wasPrepared_of_pending (events : List (Option UserSignatureMethod × Event)) :
    ∀ id p, (run (stepWith c) {} events).pending.lookup id = some p → WasPrepared c events p.request p.mandate := by
  refine run_induct
    (I := fun events (s : IntentAuthorizationService) => ∀ id p, s.pending.lookup id = some p → WasPrepared c events p.request p.mandate) ?_ ?_ events
  · intro id p hp
    cases hp
  · rintro pre ⟨method, e⟩ ih id p hp
    cases e with
    | prepare req token now =>
      rcases prepare_cases (c.withMethod method) (run (stepWith c) {} pre) req token now with
        ⟨response, mandate, mandateRequest, userId, mandateId, hok, hmandate, hprepares⟩ | ⟨-, hpending, -⟩
      · simp only [stepWith, step, hprepares.pending, Dict.lookup_set] at hp
        split at hp
        · obtain rfl := Option.some.inj hp
          exact ⟨pre, [], method, req, token, now, response, rfl, hok, hmandate, rfl⟩
        · exact (ih id p hp).append _
      · simp only [stepWith, step, hpending] at hp
        exact (ih id p hp).append _
    | complete req now later seed =>
      refine (ih id p ?_).append _
      rcases complete_cases (c.withMethod method) (run (stepWith c) {} pre) req now later seed with
        ⟨mandate, mandateId, p', n, token, happroved⟩ | hrejected
      · simp only [stepWith, step, happroved.taken, Dict.lookup_erase] at hp
        split at hp
        · cases hp
        exact hp
      · simpa only [stepWith, step, hrejected.kept] using hp

/-- What a run of intent authorizations has. Nothing expires here. -/
structure OneTime (c : Setup) (events : List (Option UserSignatureMethod × Event)) : Prop where
  once : (observed (stepWith c) (approvedId c) {} events).Nodup
  granted : ∀ pre e post, events = pre ++ e :: post → (approvedId c (run (stepWith c) {} pre) e).isSome = true → ApprovesPrepared c pre e
  kept : ∀ pre method req now later seed post, events = pre ++ (method, .complete req now later seed) :: post →
    approvedId c (run (stepWith c) {} pre) (method, .complete req now later seed) = none →
      stepWith c (run (stepWith c) {} pre) (method, .complete req now later seed) = run (stepWith c) {} pre

theorem oneTime (hfloat : Value.FloatText c.printer.float)
    (hfresh : Along (stepWith c) (FreshId c) {} events) (hunforged : Along (stepWith c) (UnforgedMandate c) {} events) : OneTime c events := by
  obtain ⟨honce, hall⟩ := Authorizations.once_sound authorizations hfresh rfl fun s e he => change_stepWith he
  refine ⟨honce, ?_, ?_⟩
  · rintro pre ⟨method, e⟩ post rfl hsome
    obtain ⟨-, hunforged, -⟩ := along_append.mp hunforged
    have hsound := hall pre _ post rfl
    have horigin := wasPrepared_of_pending (c := c) pre
    generalize hs : run (stepWith c) {} pre = s at *
    cases e with
    | prepare req token now => cases hsome
    | complete req now later seed =>
      rcases complete_cases (c.withMethod method) s req now later seed with ⟨mandate, mandateId, p, n, token, happroved⟩ | hrejected
      · obtain ⟨hmem, hid⟩ := hsound.pending mandateId (p.request, p.mandate) (by simp [authorizations, happroved.pending])
        have hidentifier := (mandateIdentifier_ok happroved.verified.type happroved.identifier).1
        have hsame := (hsound.apart.withMethod method).same hfloat hmem (hidentifier.trans hid.symm)
          (distinct_get? req.distinct (get?_of_asDict happroved.submitted)) happroved.verified happroved.same
          (hunforged mandate happroved.submitted)
        exact ⟨mandate, mandateId, p, happroved.submitted, happroved.identifier, hs ▸ approvedId_of_approved happroved, hs ▸ happroved.pending,
          horigin mandateId p happroved.pending, granted_of_verified happroved.verified hsame⟩
      · rw [approvedId_of_rejected hrejected] at hsome
        cases hsome
  · rintro pre method req now later seed post rfl hnone
    generalize run (stepWith c) {} pre = s at *
    rcases complete_cases (c.withMethod method) s req now later seed with ⟨mandate, mandateId, p, n, token, happroved⟩ | hrejected
    · rw [approvedId_of_approved happroved] at hnone
      cases hnone
    · exact hrejected.kept

end IntentAuthorizationService

/-! ## Both services -/

namespace OperationAuthorizationService

/-- The mandate for one unit with a note among its signatures. -/
def mandateNoted : Fields :=
  mandateOne.set "signatures" (.obj (((asDict (mandateOne.get? "signatures")).getD .nil).set "note" (.int 1)))

def completeMandate (mandate : Fields) (h : (Value.obj mandate).distinct = true) : Request where
  fields := .ofList [("signedMandate", .obj mandate), ("operation", pay (.int 1))]
  distinct := by
    simp only [Value.distinct, Bool.and_eq_true] at h
    simp [Fields.ofList, pay, Fields.keys, Fields.toList, Value.distinct, Value.distinctFields, h.2]
    simpa [Fields.keys] using h.1

/-- One unit is prepared and completed at some time. -/
def completed (mandate : Fields) (h : (Value.obj mandate).distinct = true) (now later : ℚ) : List (Option UserSignatureMethod × Event) :=
  [(none, .prepare prepareOne "t" 0), (none, .complete (completeMandate mandate h) now later)]

theorem distinct_mandateNoted : (Value.obj mandateNoted).distinct = true := by decide +kernel

theorem freshId_completed {mandate : Fields} {h : (Value.obj mandate).distinct = true} {now later : ℚ} :
    Along (stepWith plainSetup) (FreshId plainSetup) {} (completed mandate h now later) :=
  ⟨fun _ hm => (nomatch hm), trivial, trivial⟩

theorem unforged_completed {mandate n : Fields} {h : (Value.obj mandate).distinct = true} {now later : ℚ}
    (hn : (MandateKind.operation.normalize plainSetup.printer mandate).toOption = some n)
    (hcore : MandateKind.operation.core n = MandateKind.operation.core mandateOne) :
    Along (stepWith plainSetup) (UnforgedMandate plainSetup) {} (completed mandate h now later) := by
  refine ⟨trivial, ?_, trivial⟩
  rintro _ hsubmitted n' signature text hnormalize - htext -
  obtain rfl := Option.some.inj hsubmitted
  obtain rfl := Except.ok.inj ((ok_of_toOption hn).symm.trans hnormalize)
  have hmem : mandateOne ∈ (stepWith plainSetup {} (none, .prepare prepareOne "t" 0)).signed := by decide +kernel
  exact ⟨mandateOne, hmem, hcore ▸ htext⟩

end OperationAuthorizationService

namespace IntentAuthorizationService

/-- An agent asks for one action. -/
def prepareAct : Request where
  fields := .ofList [("agentId", .str "agent"), ("userId", .str "user"), ("intent", .obj (.ofList [
    ("actions", listValue [.obj (.ofList [("name", .str "act"), ("params", .str "*")])])]))]
  distinct := by decide +kernel

def plainSetup : Setup := OperationAuthorizationService.plainSetup

def mandateAct : Fields := (((prepare plainSetup {} prepareAct "t" 0).1.toOption.bind (·.mandate)).getD .nil)

theorem distinct_mandateAct : (Value.obj mandateAct).distinct = true := by decide +kernel

def completeAct : Request where
  fields := .ofList [("signedMandate", .obj mandateAct)]
  distinct := by
    have hmandate := distinct_mandateAct
    simp only [Value.distinct, Bool.and_eq_true] at hmandate
    simp [Fields.ofList, Fields.keys, Fields.toList, Value.distinct, Value.distinctFields, hmandate.2]
    simpa [Fields.keys] using hmandate.1

/-- The intent is prepared and approved. -/
def approvedAct : List (Option UserSignatureMethod × Event) :=
  [(none, .prepare prepareAct "t" 0), (none, .complete completeAct 1 1 { tokenId := "token", nonce := "nonce" })]

theorem freshId_approvedAct : Along (stepWith plainSetup) (FreshId plainSetup) {} approvedAct :=
  ⟨fun _ hm => (nomatch hm), trivial, trivial⟩

theorem unforged_approvedAct : Along (stepWith plainSetup) (UnforgedMandate plainSetup) {} approvedAct := by
  refine ⟨trivial, ?_, trivial⟩
  rintro _ hsubmitted n signature text hnormalize - htext -
  obtain rfl := Option.some.inj hsubmitted
  have hn : (MandateKind.intent.normalize plainSetup.printer mandateAct).toOption = some mandateAct := by decide +kernel
  obtain rfl := Except.ok.inj ((ok_of_toOption hn).symm.trans hnormalize)
  have hmem : mandateAct ∈ (stepWith plainSetup {} (none, .prepare prepareAct "t" 0)).signed := by decide +kernel
  exact ⟨mandateAct, hmem, htext⟩

end IntentAuthorizationService

open OperationAuthorizationService

def ApprovedOnly (P : (mandate pending : Fields) → (later : ℚ) → Prop) : Prop :=
  ∀ (c : Setup), Value.FloatText c.printer.float → ∀ events,
    Along (stepWith c) (FreshId c) {} events → Along (stepWith c) (UnforgedMandate c) {} events →
    ∀ pre method req now later post, events = pre ++ (method, .complete req now later) :: post →
      (approvedId c (run (stepWith c) {} pre) (method, .complete req now later)).isSome = true →
      ∃ mandate, asDict (req.payload.get? "signedMandate") = some mandate ∧
        ∃ q ∈ (run (stepWith c) {} pre).pending.rows, P mandate q.2.mandate later

end AgentProtocol.A4P
