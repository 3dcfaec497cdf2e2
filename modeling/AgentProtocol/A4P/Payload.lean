-- SUMMARY: What the authorization services share: payload fields, conversions that drop nulls, UTC times, and error codes.
import AgentProtocol.Lib.Except
import AgentProtocol.Lib.Value

/-!
# Payloads

The services work on parsed JSON. `Printer` is what the language prints for floats and containers;
the canonical text depends on the first only.
-/

namespace AgentProtocol.A4P

open Lib

/-- An exception, as far as its handlers tell them apart. -/
inductive Raised where
  | valueError (message : String)
  | notRegistered (message code : String)
  /-- `TypeError`, `AttributeError` and others that nobody handles. -/
  | other
  deriving DecidableEq

structure Printer where
  /-- The JSON text of a float. -/
  float : FloatVal → String
  /-- `str` of a float or a container. -/
  str : Value → String

namespace Printer

variable (p : Printer)

def text : Value → String
  | .str s => s
  | .null => "None"
  | .bool true => "True"
  | .bool false => "False"
  | .int n => Int.repr n
  | v => p.str v

end Printer

def truthy : Value → Bool
  | .null => false
  | .bool b => b
  | .int n => n ≠ 0
  | .float x => x ≠ .finite 0 && x ≠ .negZero
  | .str s => s ≠ ""
  | .arr items => items ≠ .nil
  | .obj fields => fields ≠ .nil

/-- `str(d.get(key) or "").strip()`. -/
def Printer.fieldText (p : Printer) (d : Fields) (key : String) : String :=
  Text.strip (p.text (((d.get? key).filter truthy).getD (.str "")))

def asDict : Option Value → Option Fields
  | some (.obj d) => some d
  | _ => none

/-! ## Conversions -/

mutual

/-- `to_payload`, which drops the nulls of dicts. -/
def toPayload : Value → Value
  | .arr items => .arr (payloadItems items)
  | .obj fields => .obj (payloadFields fields)
  | v => v

def payloadItems : Items → Items
  | .nil => .nil
  | .cons item rest => .cons (toPayload item) (payloadItems rest)

def payloadFields : Fields → Fields
  | .nil => .nil
  | .cons key value rest => if value = .null then payloadFields rest else .cons key (toPayload value) (payloadFields rest)

end

mutual

theorem distinct_toPayload : ∀ {v : Value}, v.distinct = true → (toPayload v).distinct = true
  | .null, h | .bool _, h | .int _, h | .float _, h | .str _, h => h
  | .arr items, h => distinct_payloadItems h
  | .obj fields, h => by
    simp only [Value.distinct, Bool.and_eq_true, decide_eq_true_eq] at h
    simp only [toPayload, Value.distinct, Bool.and_eq_true, decide_eq_true_eq]
    exact ⟨h.1.sublist (keys_payloadFields fields), distinct_payloadFields h.2⟩

theorem distinct_payloadItems : ∀ {items : Items}, Value.distinctItems items = true → Value.distinctItems (payloadItems items) = true
  | .nil, h => h
  | .cons item rest, h => by
    simp only [Value.distinctItems, Bool.and_eq_true] at h
    simp only [payloadItems, Value.distinctItems, Bool.and_eq_true]
    exact ⟨distinct_toPayload h.1, distinct_payloadItems h.2⟩

theorem distinct_payloadFields : ∀ {fields : Fields}, Value.distinctFields fields = true →
    Value.distinctFields (payloadFields fields) = true
  | .nil, h => h
  | .cons key value rest, h => by
    simp only [Value.distinctFields, Bool.and_eq_true] at h
    unfold payloadFields
    split
    · exact distinct_payloadFields h.2
    · simp only [Value.distinctFields, Bool.and_eq_true]
      exact ⟨distinct_toPayload h.1, distinct_payloadFields h.2⟩

theorem keys_payloadFields : ∀ fields : Fields, (payloadFields fields).keys.Sublist fields.keys
  | .nil => List.Sublist.refl _
  | .cons key value rest => by
    unfold payloadFields
    split
    · exact (keys_payloadFields rest).cons _
    · exact (keys_payloadFields rest).cons_cons _

end

/-- A request: parsed JSON, or the fields of a dataclass. -/
structure Request where
  fields : Fields
  isDataclass : Bool := false
  /-- Parsed objects have their keys once. -/
  distinct : (Value.obj fields).distinct = true

def Request.payload (req : Request) : Fields := if req.isDataclass then payloadFields req.fields else req.fields

theorem distinct_payload (req : Request) : (Value.obj req.payload).distinct = true := by
  unfold Request.payload
  split
  · exact distinct_toPayload req.distinct
  · exact req.distinct

/-- A pair within the argument of `dict`, if its key is text. -/
def asPair : Value → Option (String × Value)
  | .arr (.cons (.str key) (.cons value .nil)) => some (key, value)
  | .obj (.cons first _ (.cons second _ .nil)) => some (first, .str second)
  | .str s => match s.toList with
    | [c, d] => some (String.singleton c, .str (String.singleton d))
    | _ => none
  | _ => none

def dictOfItems (d : Fields) : Items → Except Raised Fields
  | .nil => .ok d
  | .cons item rest => match asPair item with
    | none => .error .other
    | some (key, value) => dictOfItems (d.set key value) rest

def dictOf (value : Option Value) : Except Raised Fields :=
  match value.filter truthy with
  | none => .ok .nil
  | some (.obj d) => .ok d
  | some (.arr items) => dictOfItems .nil items
  | some (.str _) => .error (.valueError "dictionary update sequence element #0 has length 1; 2 is required")
  | some _ => .error .other

/-! ## Times -/

structure Civil where
  year : ℤ
  month : ℤ
  day : ℤ
  hour : ℤ
  minute : ℤ
  second : ℤ

/-- Days from the epoch to a date of the Gregorian calendar. -/
def daysFromCivil (year month day : ℤ) : ℤ :=
  let y := if month ≤ 2 then year - 1 else year
  let era := y / 400
  let yoe := y - era * 400
  let doy := (153 * (if month > 2 then month - 3 else month + 9) + 2) / 5 + day - 1
  era * 146097 + (yoe * 365 + yoe / 4 - yoe / 100 + doy) - 719468

def timegm (c : Civil) : ℤ := ((daysFromCivil c.year c.month c.day * 24 + c.hour) * 60 + c.minute) * 60 + c.second

def gmtime (t : ℤ) : Civil :=
  let z := t / 86400 + 719468
  let era := z / 146097
  let doe := z - era * 146097
  let yoe := (doe - doe / 1460 + doe / 36524 - doe / 146096) / 365
  let doy := doe - (365 * yoe + yoe / 4 - yoe / 100)
  let mp := (5 * doy + 2) / 153
  let month := if mp < 10 then mp + 3 else mp - 9
  let rest := t % 86400
  { year := yoe + era * 400 + (if month ≤ 2 then 1 else 0), month, day := doy - (153 * mp + 2) / 5 + 1
    hour := rest / 3600, minute := rest % 3600 / 60, second := rest % 60 }

/-- A number with leading zeros. -/
def padded (width : ℕ) (n : ℤ) : String :=
  let text := Int.repr n
  String.ofList (List.replicate (width - text.length) '0') ++ text

/-- The format `%Y-%m-%dT%H:%M:%SZ`. -/
def Civil.iso (c : Civil) : String :=
  padded 4 c.year ++ "-" ++ padded 2 c.month ++ "-" ++ padded 2 c.day ++ "T" ++ padded 2 c.hour ++ ":" ++
    padded 2 c.minute ++ ":" ++ padded 2 c.second ++ "Z"

def digitsValue (l : List Char) : ℤ := l.foldl (fun n c => 10 * n + (c.toNat - 48)) 0

/-- The digits up to a separator, whose case does not matter, and what follows it. -/
def digitsUntil (sep : Char) (most : ℕ) (l : List Char) : Option (ℤ × List Char) :=
  match l.span Char.isDigit with
  | ([], _) => none
  | (digits, c :: rest) =>
    if c.toUpper = sep ∧ digits.length ≤ most then some (digitsValue digits, rest) else none
  | (_, []) => none

def daysInMonth (year month : ℤ) : ℤ :=
  if month = 2 then (if year % 4 = 0 ∧ (year % 100 ≠ 0 ∨ year % 400 = 0) then 29 else 28)
  else if month ∈ ([4, 6, 9, 11] : List ℤ) then 30
  else 31

/-- `time.strptime` of the format `%Y-%m-%dT%H:%M:%SZ`. -/
def strptime (s : String) : Option Civil := do
  let (year, l) ← digitsUntil '-' 4 s.toList
  if s.toList.take 4 |>.any (!·.isDigit) then none
  let (month, l) ← digitsUntil '-' 2 l
  let (day, l) ← digitsUntil 'T' 2 (match l with
    | ' ' :: c :: 'T' :: rest => c :: 'T' :: rest
    | l => l)
  let (hour, l) ← digitsUntil ':' 2 l
  let (minute, l) ← digitsUntil ':' 2 l
  let (second, l) ← digitsUntil 'Z' 2 l
  if l = [] ∧ 1 ≤ year ∧ 1 ≤ month ∧ month ≤ 12 ∧ 1 ≤ day ∧ day ≤ daysInMonth year month ∧ hour ≤ 23 ∧ minute ≤ 59 ∧ second ≤ 61 then
    some { year, month, day, hour, minute, second }
  else none

example : (strptime "2024-02-29T12:30:05Z").map timegm = some 1709209805 ∧ (gmtime 1709209805).iso = "2024-02-29T12:30:05Z" := by
  decide +kernel

/-! ## Results -/

structure VerificationResult where
  valid : Bool
  reason : Option String := none
  code : Option String := none

def VerificationResult.fail (reason code : String) : VerificationResult := { valid := false, reason := some reason, code := some code }

def errorCode (reason codePrefix : String) : String :=
  let lower := reason.toLower
  let has (sub : String) := Text.contains lower sub
  if has "expired" then codePrefix ++ "_EXPIRED"
  else if has "usage" || has "execution" || has "limit" then codePrefix ++ "_USAGE_EXCEEDED"
  else if has "signature" then codePrefix ++ "_SIGNATURE_INVALID"
  else if has "mismatch" || has "scope" || has "actions" || has "param" then codePrefix ++ "_SCOPE_MISMATCH"
  else codePrefix ++ "_INVALID"

end AgentProtocol.A4P
