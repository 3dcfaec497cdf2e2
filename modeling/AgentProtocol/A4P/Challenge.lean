-- SUMMARY: What `prepare` returns, and the context in which a user's signature is made or checked.
import AgentProtocol.A4P.IntentAuthorization
import AgentProtocol.Lib.Fields

namespace AgentProtocol.A4P

open Lib

/-! ## What `prepare` returns -/

theorem ok_of_toOption {ε α : Type} {x : Except ε α} {a : α} (h : x.toOption = some a) : x = .ok a := by
  cases x with
  | error e => cases h
  | ok b => exact congrArg Except.ok (Option.some.inj h)

namespace OperationAuthorizationService

variable {c : Setup} {s : OperationAuthorizationService}

/-- What a `prepare` that returns a mandate did. -/
structure Prepares (c : Setup) (s : OperationAuthorizationService) (req : Request) (token : String) (now : ℚ) (mandate options : Fields)
    (mandateRequest : MandateRequest) (userId operationId : String) (expireAt : ℤ) : Prop where
  read : readPrepare c req.payload = .ok (mandateRequest, userId)
  create : createOperationMandate c mandateRequest token now = .ok mandate
  identifier : mandateIdentifier c.printer mandate = .ok operationId
  options : signingOptions c userId mandate = .ok options
  expire : expireAtEpoch mandate = .ok expireAt
  pending : (s.prepare c req token now).2.pending = (s.pruneExpired now).pending.set operationId
    { request := req.payload, operation := mandateRequest.operation, mandate, expireAtEpoch := expireAt, submitted := req }
  signed : (s.prepare c req token now).2.signed = mandate :: s.signed

variable {challenge : Challenge}

theorem refused_mandate {e : Raised} (h : refused e = .ok challenge) : challenge.mandate = none := by
  cases e with
  | notRegistered | valueError => exact Except.ok.inj h ▸ rfl
  | other => cases h

theorem prepare_cases (c : Setup) (s : OperationAuthorizationService) (req : Request) (token : String) (now : ℚ) :
    (∃ challenge mandate mandateRequest userId operationId expireAt, (s.prepare c req token now).1 = .ok challenge ∧
        challenge.mandate = some mandate ∧
        Prepares c s req token now mandate challenge.signingOptions mandateRequest userId operationId expireAt) ∨
      (∀ challenge, (s.prepare c req token now).1 = .ok challenge → challenge.mandate = none) ∧
        (s.prepare c req token now).2.pending = (s.pruneExpired now).pending ∧
        ((s.prepare c req token now).2.signed = s.signed ∨ ∃ mandateRequest mandate,
          createOperationMandate c mandateRequest token now = .ok mandate ∧ (s.prepare c req token now).2.signed = mandate :: s.signed) := by
  unfold prepare
  dsimp only
  split
  · exact .inr ⟨fun _ => refused_mandate, rfl, .inl rfl⟩
  · rename_i mandateRequest userId hread
    split
    · exact .inr ⟨fun _ => refused_mandate, rfl, .inl rfl⟩
    · rename_i mandate hcreate
      split
      · exact .inr ⟨fun _ => refused_mandate, rfl, .inr ⟨_, mandate, hcreate, rfl⟩⟩
      · rename_i operationId hidentifier
        split
        · exact .inr ⟨fun _ => refused_mandate, rfl, .inr ⟨_, mandate, hcreate, rfl⟩⟩
        · rename_i options hoptions
          split
          · exact .inr ⟨fun _ h => (nomatch h), rfl, .inr ⟨_, mandate, hcreate, rfl⟩⟩
          · rename_i expireAt hexpire
            refine .inl ⟨_, mandate, mandateRequest, userId, operationId, expireAt, rfl, rfl, hread, hcreate, hidentifier, hoptions, hexpire,
              ?_, ?_⟩
            · simp only [prepare, hread, hcreate, hidentifier, hoptions, hexpire]
            · simp only [prepare, hread, hcreate, hidentifier, hoptions, hexpire, pruneExpired]

end OperationAuthorizationService

namespace IntentAuthorizationService

variable {c : Setup} {s : IntentAuthorizationService}

/-- What a `prepare` that returns a mandate did. -/
structure Prepares (c : Setup) (s : IntentAuthorizationService) (req : Request) (token : String) (now : ℚ) (mandate options : Fields)
    (mandateRequest : IntentMandateRequest) (userId mandateId : String) : Prop where
  read : readPrepare c req.payload = .ok (mandateRequest, userId)
  create : createIntentMandate c mandateRequest token now = .ok mandate
  identifier : mandateIdentifier c.printer mandate = .ok mandateId
  options : OperationAuthorizationService.signingOptions c userId mandate = .ok options
  pending : (s.prepare c req token now).2.pending = s.pending.set mandateId { request := req.payload, mandate }
  signed : (s.prepare c req token now).2.signed = mandate :: s.signed

variable {response : IntentAuthorizationResponse}

theorem refused_mandate {e : Raised} (h : refused e = .ok response) : response.mandate = none := by
  cases e with
  | notRegistered | valueError => exact Except.ok.inj h ▸ rfl
  | other => cases h

theorem prepare_cases (c : Setup) (s : IntentAuthorizationService) (req : Request) (token : String) (now : ℚ) :
    (∃ response mandate mandateRequest userId mandateId, (s.prepare c req token now).1 = .ok response ∧ response.mandate = some mandate ∧
        Prepares c s req token now mandate response.signingOptions mandateRequest userId mandateId) ∨
      (∀ response, (s.prepare c req token now).1 = .ok response → response.mandate = none) ∧
        (s.prepare c req token now).2.pending = s.pending ∧
        ((s.prepare c req token now).2.signed = s.signed ∨ ∃ mandateRequest mandate,
          createIntentMandate c mandateRequest token now = .ok mandate ∧ (s.prepare c req token now).2.signed = mandate :: s.signed) := by
  unfold prepare
  split
  · exact .inr ⟨fun _ => refused_mandate, rfl, .inl rfl⟩
  · rename_i mandateRequest userId hread
    split
    · exact .inr ⟨fun _ => refused_mandate, rfl, .inl rfl⟩
    · rename_i mandate hcreate
      dsimp only
      split
      · exact .inr ⟨fun _ => refused_mandate, rfl, .inr ⟨_, mandate, hcreate, rfl⟩⟩
      · rename_i mandateId hidentifier
        split
        · exact .inr ⟨fun _ => refused_mandate, rfl, .inr ⟨_, mandate, hcreate, rfl⟩⟩
        · rename_i options hoptions
          refine .inl ⟨_, mandate, mandateRequest, userId, mandateId, rfl, rfl, hread, hcreate, hidentifier, hoptions, ?_, ?_⟩
          · simp only [prepare, hread, hcreate, hidentifier, hoptions]
          · simp only [prepare, hread, hcreate, hidentifier, hoptions]

end IntentAuthorizationService

/-! ## The text that is proved -/

namespace MandateKind

def userSignatureContext (p : Printer) (mandate : Fields) (expectedUserId : String) : MandateKind → Except Raised UserSignatureContext
  | .intent => intentUserSignatureContext p mandate expectedUserId
  | .operation => operationUserSignatureContext p mandate expectedUserId

variable {p : Printer} {n : Fields}

theorem serverSignedMandate_operation (htype : n.get? "type" = some (.str mandateType)) :
    serverSignedMandate p n = serverSignedMandateWithoutUserSignature p n := by
  have hkind : kindOf n = some .operation := kindOf_typeText (k := .operation) htype
  simp only [serverSignedMandate, serverSignedMandateWithoutUserSignature, mandateCorePayload, hkind, operationMandateCorePayload_eq]
  cases MandateKind.operation.corePayload p n with
  | error e => rfl
  | ok core => cases asDict (n.get? "signatures") <;> rfl

theorem userSignatureContext_ok {k : MandateKind} {expectedUserId : String} {context : UserSignatureContext}
    (hn : k.normalize p n = .ok n) (h : k.userSignatureContext p n expectedUserId = .ok context) :
    context.expectedUserId = expectedUserId ∧ ∃ server, serverSignatureOf n = some server ∧
      context.serverSignedMandate = (k.core n).set "signatures" (.obj (.ofList [("server", .obj server)])) := by
  have hcore := normalize_corePayload hn
  obtain ⟨server, user, -, -, hsignatures⟩ := (normalize_eq_ok hn).signatures
  have hserver : serverSignatureOf n = some server := by simp [serverSignatureOf, hsignatures, Fields.ofList, Fields.get?]
  have hstripped : ∀ signed, serverSignedMandate p n = .ok signed →
      signed = (k.core n).set "signatures" (.obj (.ofList [("server", .obj server)])) := by
    intro signed hsigned
    unfold serverSignatureOf at hserver
    simp only [serverSignedMandate, mandateCorePayload, kindOf_typeText (normalize_eq_ok hn).type, hcore, hserver, bind, Except.bind,
      pure, Except.pure] at hsigned
    exact (Except.ok.inj hsigned).symm
  suffices hboth : context.expectedUserId = expectedUserId ∧ serverSignedMandate p n = .ok context.serverSignedMandate from
    ⟨hboth.1, server, hserver, hstripped _ hboth.2⟩
  cases k with
  | intent | operation =>
    obtain ⟨n', hn', hrest⟩ := bind_eq_ok.mp h
    obtain rfl : n = n' := Except.ok.inj (hn.symm.trans hn')
    dsimp only at hrest
    split at hrest
    · split at hrest
      · cases hrest
      obtain ⟨signed, hsigned, hcontext⟩ := bind_eq_ok.mp hrest
      obtain rfl := Except.ok.inj hcontext
      refine ⟨rfl, ?_⟩
      first
        | exact hsigned
        | exact (serverSignedMandate_operation (normalize_eq_ok hn).type).symm ▸ hsigned
    · cases hrest

end MandateKind

end AgentProtocol.A4P
