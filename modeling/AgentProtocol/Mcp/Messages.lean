-- SUMMARY: Request ids, progress tokens and the JSON-RPC messages that sessions exchange.
import AgentProtocol.Lib.Value

/-!
# JSON-RPC messages

An id or a progress token is a 64-bit integer or a string, and the two are never equal. Typed parameters and
results are parameters of the model: a session passes them on without looking inside.
-/

namespace AgentProtocol.Mcp

open Lib

/-- `RequestId`, a variant of `int64_t` and `std::string`. -/
inductive RequestId where
  | int (value : Int64)
  | str (value : String)
  deriving DecidableEq, Inhabited

/-- `ProgressToken`, the same variant. -/
abbrev ProgressToken := RequestId

/-! ## Strings read as integers -/

/-- `isspace` of the C locale. -/
def isSpace (c : Char) : Bool := c = ' ' || (9 ≤ c.toNat && c.toNat ≤ 13)

/-- The number the leading digits spell. -/
def leadingNumber (cs : List Char) : Option ℕ :=
  match cs.takeWhile Char.isDigit with
  | [] => none
  | ds => some (ds.foldl (fun n d => 10 * n + (d.toNat - '0'.toNat)) 0)

/-- The integer a string starts with, after blanks and a sign. -/
def leadingInteger (s : String) : Option ℤ :=
  match s.toList.dropWhile isSpace with
  | '-' :: ds => (leadingNumber ds).map fun n => -(n : ℤ)
  | '+' :: ds => (leadingNumber ds).map Int.ofNat
  | ds => (leadingNumber ds).map Int.ofNat

/-- `std::stoll`: what follows the digits is ignored; it throws without a digit and out of range. -/
def stoll (s : String) : Option Int64 :=
  (leadingInteger s).bind fun n => if -2 ^ 63 ≤ n ∧ n < 2 ^ 63 then some (Int64.ofInt n) else none

example : stoll " -12abc" = some (-12) := by decide

/-! ## Messages -/

/-- `RequestParams`: the optional `_meta` and the parameters of the method. -/
structure RequestParams (π : Type) where
  progressToken : Option ProgressToken := none
  fields : π

structure Request (π : Type) where
  method : String
  params : Option (RequestParams π)

structure JSONRPCRequest (π : Type) where
  id : RequestId
  method : String
  request : Request π

structure JSONRPCResponse (ρ : Type) where
  id : RequestId
  result : Option ρ

structure JSONRPCError where
  id : RequestId
  code : ℤ
  message : String
  data : Option Value

inductive JsonRpcErrorCode where
  | parseError
  | invalidRequest
  | methodNotFound
  | invalidParams
  | internalError
  | serverError

def JsonRpcErrorCode.toInt : JsonRpcErrorCode → ℤ
  | .parseError => -32700
  | .invalidRequest => -32600
  | .methodNotFound => -32601
  | .invalidParams => -32602
  | .internalError => -32603
  | .serverError => -32000

/-- `ErrorResult`, which travels where a result does. -/
structure ErrorResult where
  code : ℤ
  message : String
  data : Option Value := none

/-- What a completion receives: a `Result`, which may be missing, or the `ErrorResult` of an error. -/
inductive Outcome (ρ : Type) where
  | result (result : Option ρ)
  | error (error : ErrorResult)

end AgentProtocol.Mcp
