-- SUMMARY: What both payment SDKs share: error codes, validated payloads and orders, and the ledger of an execution context.
import AgentProtocol.Lib.Doc

/-!
# Models of the payment SDKs

Payloads and orders as they are after validation, so that they carry what the validators establish. The
ledger of a context has one entry for each reservation, and keeps canceled ones.
-/

namespace AgentProtocol.Sdk

open Lib

inductive A4pErrorCode where
  | invalidParameter
  | unsupportedVersion
  | duplicateId
  | signingFail
  | verifyFail
  | invalidStatus
  | timestampExpired
  | timestampTooEarly
  | executionCountExceeded
  | amountExceeded
  | periodExecutionCountExceeded
  | cartMismatch
  | singleOrderAmountExceeded
  | productNotAuthorized
  | serializeFail
  | deserializeFail

def maxSafeInteger : ℤ := 9007199254740991

def maxPeriodSeconds : ℤ := maxSafeInteger / 1000

def protocolVersion : Utf16 := utf16 "1.0"

/-- What `String.prototype.trim` strips. -/
def isBlankUnit (c : CodeUnit) : Bool :=
  c.val ∈ [0x09, 0x0B, 0x0C, 0x20, 0xA0, 0xFEFF, 0x0A, 0x0D, 0x2028, 0x2029, 0x1680, 0x202F, 0x205F, 0x3000] ||
    (0x2000 ≤ c.val && c.val ≤ 0x200A)

def blank (s : Utf16) : Bool := s.all isBlankUnit

/-- A result that is fine, or an error. -/
def require (condition : Bool) (code : A4pErrorCode) : Except A4pErrorCode Unit :=
  if condition then .ok () else .error code

@[simp] theorem require_eq_ok {condition : Bool} {code : A4pErrorCode} {u : Unit} : require condition code = .ok u ↔ condition = true := by
  cases condition <;> simp [require]

/-! ## Payloads -/

inductive IntentActionType where
  | aiPay

/-! ## Execution contexts -/

inductive IntentExecutionStatus where
  | active
  | consumed
  | revoked
  | expired

inductive ExecutionStatus where
  | pending
  | completed
  | canceled

structure ExecutionRecord where
  executionId : Utf16
  status : ExecutionStatus
  action : IntentActionType
  executionContent : Doc
  periodIndex : Option ℤ
  reservedAt : ℤ
  completedAt : Option ℤ
  canceledAt : Option ℤ

structure PaymentExecutionInfo where
  leftExecutionCount : Option ℤ
  leftAmount : ℤ
  periodIndex : Option ℤ
  leftPeriodExecutionCount : Option ℤ

end AgentProtocol.Sdk
