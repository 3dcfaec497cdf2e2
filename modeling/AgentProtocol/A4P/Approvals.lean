-- SUMMARY: Runs of both services: every authorization is approved at most once, by its user, in time, and as it was prepared.
import AgentProtocol.A4P.OneShot

namespace AgentProtocol.A4P

open Lib

theorem mandateIdentifier_ok {p : Printer} {k : MandateKind} {mandate : Fields} {id : String} (htype : mandate.get? "type" = some (.str k.typeText))
    (h : mandateIdentifier p mandate = .ok id) : p.fieldText mandate k.identifierKey = id ∧ id ≠ "" := by
  unfold mandateIdentifier at h
  rw [htype] at h
  cases k with
  | intent =>
    simp [MandateKind.typeText, intentMandateType] at h
    split at h
    · cases h
    rename_i hne
    obtain rfl := Except.ok.inj h
    exact ⟨rfl, hne⟩
  | operation =>
    simp [MandateKind.typeText, mandateType] at h
    split at h
    · cases h
    rename_i hne
    obtain rfl := Except.ok.inj h
    exact ⟨rfl, hne⟩

theorem get?_of_asDict {d : Fields} {key : String} {f : Fields} (h : asDict (d.get? key) = some f) : d.get? key = some (.obj f) := by
  cases hget : d.get? key with
  | none => rw [hget] at h; cases h
  | some v =>
    rw [hget] at h
    cases v with
    | obj f' => exact congrArg some (congrArg Value.obj (Option.some.inj h))
    | null | bool | int | float | str | arr => cases h

namespace OperationAuthorizationService

variable {c : Setup} {s : OperationAuthorizationService}

/-- What an approval of a completion went through. -/
structure Approved (c : Setup) (s : OperationAuthorizationService) (req : Request) (now later : ℚ) (mandate : Fields) (operationId : String)
    (p : Pending) (n : Fields) : Prop where
  submitted : asDict (req.payload.get? "signedMandate") = some mandate
  identifier : mandateIdentifier c.printer mandate = .ok operationId
  pending : (s.pruneExpired now).pending.lookup operationId = some p
  checked : ∃ result, checkCompletion c req.payload mandate operationId p later = .ok result ∧ result.approved = true
  same : MandateKind.operation.matchesPending c.printer mandate p.mandate = true
  verified : MandateKind.operation.Verified c mandate n (requestUser c.printer p.request) later
  result : (s.complete c req now later).1 = .ok { operationId := some operationId, verificationResult := some { valid := true }, approved := true }
  taken : (s.complete c req now later).2 = { s.pruneExpired now with pending := (s.pruneExpired now).pending.erase operationId }

variable {p : Pending} {now : ℚ}

theorem checkCompletion_cases {payload mandate : Fields} {operationId : String} {result : AuthorizationResult}
    (h : checkCompletion c payload mandate operationId p now = .ok result) (happroved : result.approved = true) :
    result = { operationId := some operationId, verificationResult := some { valid := true }, approved := true } ∧
      MandateKind.operation.matchesPending c.printer mandate p.mandate = true ∧
      ∃ n, MandateKind.operation.Verified c mandate n (requestUser c.printer p.request) now := by
  obtain ⟨hresult, current, signedOperation, -, -, hmatch, -, hverify⟩ := checkCompletion_approved h happroved
  exact ⟨hresult, by simpa [mandateMatchesPending_eq] using hmatch, MandateKind.verified_of_operation hverify⟩

theorem complete_cases (c : Setup) (s : OperationAuthorizationService) (req : Request) (now later : ℚ) :
    (∃ mandate operationId p n, Approved c s req now later mandate operationId p n) ∨
      ¬ Approves c s (.complete req now later) ∧ (s.complete c req now later).2 = s.pruneExpired now := by
  unfold Approves
  dsimp only
  cases hmandate : asDict (req.payload.get? "signedMandate") with
  | none =>
    simp only [complete, hmandate]
    exact .inr ⟨Bool.false_ne_true, trivial⟩
  | some mandate =>
    cases hcaught : caught (mandateIdentifier c.printer mandate) with
    | error e =>
      simp only [complete, hmandate, hcaught]
      exact .inr ⟨Bool.false_ne_true, trivial⟩
    | ok r =>
      cases r with
      | inl reason =>
        simp only [complete, hmandate, hcaught]
        exact .inr ⟨Bool.false_ne_true, trivial⟩
      | inr operationId =>
        cases hlookup : (s.pruneExpired now).pending.lookup operationId with
        | none =>
          simp only [complete, hmandate, hcaught, hlookup]
          exact .inr ⟨Bool.false_ne_true, trivial⟩
        | some p =>
          cases hcheck : checkCompletion c req.payload mandate operationId p later with
          | error e =>
            simp only [complete, hmandate, hcaught, hlookup, hcheck]
            exact .inr ⟨Bool.false_ne_true, trivial⟩
          | ok result =>
            cases happroved : result.approved with
            | false =>
              simp only [complete, hmandate, hcaught, hlookup, hcheck, happroved]
              exact .inr ⟨by simp [Except.toOption, happroved], by simp⟩
            | true =>
              obtain ⟨rfl, hmatch, n, hverified⟩ := checkCompletion_cases hcheck happroved
              refine .inl ⟨mandate, operationId, p, n, hmandate, caught_eq_inr hcaught, hlookup, ⟨_, hcheck, rfl⟩, hmatch, hverified, ?_, ?_⟩
              · simp only [complete, hmandate, hcaught, hlookup, hcheck]
              · simp only [complete, hmandate, hcaught, hlookup, hcheck, if_true]

/-! ### Runs -/

def stepWith (c : Setup) (s : OperationAuthorizationService) (e : Option UserSignatureMethod × Event) : OperationAuthorizationService :=
  step (c.withMethod e.1) s e.2

def authorizations (s : OperationAuthorizationService) : Authorizations where
  signed := s.signed
  pending id := (s.pending.lookup id).map fun p => (p.request, p.mandate)

def approvedId (c : Setup) (s : OperationAuthorizationService) : Option UserSignatureMethod × Event → Option String
  | (_, .prepare ..) => none
  | (method, .complete req now later) =>
    ((s.complete (c.withMethod method) req now later).1.toOption.filter (·.approved)).bind (·.operationId)

/-- The random part of a new id was not drawn before. -/
def FreshId (c : Setup) (s : OperationAuthorizationService) : Option UserSignatureMethod × Event → Prop
  | (_, .prepare _ token _) => MandateKind.operation.New c s.signed ("op_" ++ token)
  | (_, .complete ..) => True

/-- Nobody but the server can sign. -/
def UnforgedMandate (c : Setup) (s : OperationAuthorizationService) : Option UserSignatureMethod × Event → Prop
  | (_, .prepare ..) => True
  | (_, .complete req ..) => ∀ mandate, asDict (req.payload.get? "signedMandate") = some mandate →
      MandateKind.operation.Unforged c s.signed mandate

variable {id : String}

theorem lookup_pruneExpired (h : (s.pruneExpired now).pending.lookup id = some p) : s.pending.lookup id = some p := by
  rw [pruneExpired, Dict.lookup_filter] at h
  exact (Option.filter_eq_some_iff.mp h).1

theorem Approved.sameMandate {req : Request} {later : ℚ} {mandate n : Fields} (h : Approved c s req now later mandate id p n)
    (hsound : Authorizations.Sound c .operation (authorizations s)) (hfloat : Value.FloatText c.printer.float)
    (hunforged : MandateKind.operation.Unforged c s.signed mandate) : MandateKind.operation.Same c mandate p.mandate := by
  obtain ⟨hmem, hid⟩ := hsound.pending id (p.request, p.mandate) (by simp [authorizations, lookup_pruneExpired h.pending])
  have hidentifier := (mandateIdentifier_ok h.verified.type h.identifier).1
  exact hsound.apart.same hfloat hmem (hidentifier.trans hid.symm) (distinct_get? (distinct_payload req) (get?_of_asDict h.submitted))
    h.verified h.same hunforged

theorem authorizations_eq {s : OperationAuthorizationService} {d : Dict String Pending} {signed : List Fields} (hpending : s.pending = d)
    (hsigned : s.signed = signed) : authorizations s = .ofDict (fun p => (p.request, p.mandate)) signed d := by
  rw [← hpending, ← hsigned]
  rfl

theorem approvedId_of_not {method : Option UserSignatureMethod} {req : Request} {now later : ℚ}
    (h : ¬ Approves (c.withMethod method) s (.complete req now later)) : approvedId c s (method, .complete req now later) = none := by
  unfold Approves at h
  unfold approvedId
  dsimp only at h ⊢
  cases hresult : (s.complete (c.withMethod method) req now later).1.toOption with
  | none => rfl
  | some result =>
    rw [hresult] at h
    have hno : result.approved = false := by simpa using h
    simp [Option.filter, hno]

theorem change_stepWith {e : Option UserSignatureMethod × Event} (hfresh : FreshId c s e) :
    Authorizations.Change c .operation (authorizations s) (authorizations (stepWith c s e)) (approvedId c s e) := by
  obtain ⟨method, e⟩ := e
  cases e with
  | prepare req token now =>
    have hstep : stepWith c s (method, .prepare req token now) = (s.prepare (c.withMethod method) req token now).2 := rfl
    have hid : approvedId c s (method, .prepare req token now) = none := rfl
    rw [hstep, hid]
    rcases prepare_cases (c.withMethod method) s req token now with
      ⟨challenge, mandate, mandateRequest, userId, operationId, expireAt, -, -, hprepares⟩ | ⟨-, hpending, hsigned⟩
    · have hcreated := MandateKind.Created.withMethod_iff.mp (created_of_createOperation hprepares.create)
      rw [authorizations_eq hprepares.pending hprepares.signed]
      exact .set (fun _ _ => lookup_pruneExpired) ⟨_, hcreated, hfresh, rfl⟩ (mandateIdentifier_ok hcreated.type hprepares.identifier).1
    · rw [authorizations_eq hpending rfl]
      refine .kept (fun _ _ => lookup_pruneExpired) (hsigned.imp_right ?_)
      rintro ⟨mandateRequest, mandate, hcreate, hsigned⟩
      exact ⟨mandate, _, MandateKind.Created.withMethod_iff.mp (created_of_createOperation hcreate), hfresh, hsigned⟩
  | complete req now later =>
    have hstep : stepWith c s (method, .complete req now later) = (s.complete (c.withMethod method) req now later).2 := rfl
    rw [hstep]
    rcases complete_cases (c.withMethod method) s req now later with ⟨mandate, operationId, p, n, happroved⟩ | ⟨hnot, hkept⟩
    · have hid : approvedId c s (method, .complete req now later) = some operationId := by
        simp only [approvedId, happroved.result]
        rfl
      rw [hid]
      rw [authorizations_eq (congrArg pending happroved.taken) (congrArg signed happroved.taken)]
      exact .erase (fun _ _ => lookup_pruneExpired) happroved.pending
    · rw [approvedId_of_not hnot, hkept]
      exact .kept (fun _ _ => lookup_pruneExpired) (.inl rfl)

/-- A pending authorization is what a `prepare` of the run returned. -/
def WasPrepared (c : Setup) (events : List (Option UserSignatureMethod × Event)) (request mandate : Fields) : Prop :=
  ∃ pre post method req token now challenge, events = pre ++ (method, .prepare req token now) :: post ∧
    ((run (stepWith c) {} pre).prepare (c.withMethod method) req token now).1 = .ok challenge ∧ challenge.mandate = some mandate ∧
    request = req.payload

/-- An event that approves an id takes an authorization of the run for its mandate. -/
def ApprovesPrepared (c : Setup) (pre : List (Option UserSignatureMethod × Event)) : Option UserSignatureMethod × Event → Prop
  | (_, .prepare ..) => False
  | (method, .complete req now later) => ∃ mandate id p, asDict (req.payload.get? "signedMandate") = some mandate ∧
      mandateIdentifier c.printer mandate = .ok id ∧ approvedId c (run (stepWith c) {} pre) (method, .complete req now later) = some id ∧
      (run (stepWith c) {} pre).pending.lookup id = some p ∧ WasPrepared c pre p.request p.mandate ∧
      Granted (c.withMethod method) .operation mandate p.request p.mandate later

/-- A completion leaves every authorization that is not expired. -/
def KeepsPending (c : Setup) (s : OperationAuthorizationService) : Option UserSignatureMethod × Event → Prop
  | (_, .prepare ..) => True
  | (method, .complete req now later) => ∀ id p, s.pending.lookup id = some p → now < p.expireAtEpoch →
      (stepWith c s (method, .complete req now later)).pending.lookup id = some p

variable {events : List (Option UserSignatureMethod × Event)}

theorem WasPrepared.append {request mandate : Fields}
    (h : WasPrepared c events request mandate) (e : Option UserSignatureMethod × Event) : WasPrepared c (events ++ [e]) request mandate := by
  obtain ⟨pre, post, method, req, token, now, challenge, rfl, hrest⟩ := h
  exact ⟨pre, post ++ [e], method, req, token, now, challenge, by simp, hrest⟩

theorem pending_stepWith {e : Option UserSignatureMethod × Event} (hp : (stepWith c s e).pending.lookup id = some p) :
    s.pending.lookup id = some p ∨ ∃ method req token now challenge mandateRequest userId expireAt, e = (method, .prepare req token now) ∧
      (s.prepare (c.withMethod method) req token now).1 = .ok challenge ∧ challenge.mandate = some p.mandate ∧
      Prepares (c.withMethod method) s req token now p.mandate challenge.signingOptions mandateRequest userId id expireAt ∧
      p = { request := req.payload, operation := mandateRequest.operation, mandate := p.mandate, expireAtEpoch := expireAt, submitted := req } := by
  obtain ⟨method, e⟩ := e
  cases e with
  | prepare req token now =>
    rcases prepare_cases (c.withMethod method) s req token now with
      ⟨challenge, mandate, mandateRequest, userId, operationId, expireAt, hok, hmandate, hprepares⟩ | ⟨-, hpending, -⟩
    · simp only [stepWith, step, hprepares.pending, Dict.lookup_set] at hp
      split at hp
      · rename_i hid
        obtain rfl := Option.some.inj hp
        exact .inr ⟨method, req, token, now, challenge, mandateRequest, userId, expireAt, rfl, hok, hmandate, hid ▸ hprepares, rfl⟩
      · exact .inl (lookup_pruneExpired hp)
    · simp only [stepWith, step, hpending] at hp
      exact .inl (lookup_pruneExpired hp)
  | complete req now later =>
    rcases complete_cases (c.withMethod method) s req now later with ⟨mandate, operationId, p', n, happroved⟩ | ⟨-, hkept⟩
    · simp only [stepWith, step, happroved.taken, Dict.lookup_erase] at hp
      split at hp
      · cases hp
      exact .inl (lookup_pruneExpired hp)
    · simp only [stepWith, step, hkept] at hp
      exact .inl (lookup_pruneExpired hp)

theorem wasPrepared_of_pending (events : List (Option UserSignatureMethod × Event)) :
    ∀ id p, (run (stepWith c) {} events).pending.lookup id = some p → WasPrepared c events p.request p.mandate := by
  refine run_induct
    (I := fun events (s : OperationAuthorizationService) => ∀ id p, s.pending.lookup id = some p → WasPrepared c events p.request p.mandate) ?_ ?_ events
  · intro id p hp
    cases hp
  · intro pre e ih id p hp
    rcases pending_stepWith hp with hold | ⟨method, req, token, now, challenge, mandateRequest, userId, expireAt, rfl, hok, hmandate, -, hrow⟩
    · exact (ih id p hold).append e
    · exact ⟨pre, [], method, req, token, now, challenge, rfl, hok, hmandate, congrArg Pending.request hrow⟩

/-- What a run of operation authorizations has. -/
structure OneTime (c : Setup) (events : List (Option UserSignatureMethod × Event)) : Prop where
  once : (observed (stepWith c) (approvedId c) {} events).Nodup
  granted : ∀ pre e post, events = pre ++ e :: post → (approvedId c (run (stepWith c) {} pre) e).isSome = true → ApprovesPrepared c pre e
  kept : ∀ pre e post, events = pre ++ e :: post → approvedId c (run (stepWith c) {} pre) e = none →
    KeepsPending c (run (stepWith c) {} pre) e

theorem oneTime (hfloat : Value.FloatText c.printer.float)
    (hfresh : Along (stepWith c) (FreshId c) {} events) (hunforged : Along (stepWith c) (UnforgedMandate c) {} events) : OneTime c events := by
  obtain ⟨honce, hall⟩ := Authorizations.once_sound authorizations hfresh rfl fun s e he => change_stepWith he
  refine ⟨honce, ?_, ?_⟩
  · rintro pre ⟨method, e⟩ post rfl hsome
    obtain ⟨-, hunforged, -⟩ := along_append.mp hunforged
    have hsound := hall pre _ post rfl
    have horigin := wasPrepared_of_pending (c := c) pre
    generalize hs : run (stepWith c) {} pre = s at *
    cases e with
    | prepare req token now => cases hsome
    | complete req now later =>
      rcases complete_cases (c.withMethod method) s req now later with ⟨mandate, operationId, p, n, happroved⟩ | ⟨hnot, -⟩
      · have hlookup := lookup_pruneExpired happroved.pending
        have hsame := happroved.sameMandate ⟨hsound.apart.withMethod method, hsound.pending⟩ hfloat (hunforged mandate happroved.submitted)
        have hid : approvedId c s (method, .complete req now later) = some operationId := by
          simp only [approvedId, happroved.result]
          rfl
        exact ⟨mandate, operationId, p, happroved.submitted, happroved.identifier, hs ▸ hid, hs ▸ hlookup, horigin operationId p hlookup,
          granted_of_verified happroved.verified hsame⟩
      · rw [approvedId_of_not hnot] at hsome
        cases hsome
  · rintro pre ⟨method, e⟩ post rfl hnone
    cases e with
    | prepare req token now => trivial
    | complete req now later =>
      generalize run (stepWith c) {} pre = s at *
      intro id p hlookup hnow
      rcases complete_cases (c.withMethod method) s req now later with ⟨mandate, operationId, p, n, happroved⟩ | ⟨-, hkept⟩
      · simp only [approvedId, happroved.result] at hnone
        cases hnone
      · have hfloor : ¬ p.expireAtEpoch ≤ ⌊now⌋ := not_le.mpr (Int.floor_lt.mpr hnow)
        simp [stepWith, step, hkept, pruneExpired, Dict.lookup_filter, hlookup, Option.filter, hfloor]

end OperationAuthorizationService

end AgentProtocol.A4P
