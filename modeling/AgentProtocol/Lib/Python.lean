-- SUMMARY: Parsed JSON as Python handles it: truth, lookups that raise, numbers, and the conversions to float and int.
import AgentProtocol.Lib.Value

/-!
# Python

Operations of Python on the values of its JSON parser. An operation on a value of the wrong type raises, and callers
tell the exceptions apart. Floats are doubles: integers and decimal texts are rounded to the nearest one, ties to even.
-/

namespace Lib

inductive PyError where
  | attributeError
  | typeError
  | keyError
  | indexError
  | valueError
  | overflowError
  deriving DecidableEq

namespace PyError

/-- `type(error).__name__` -/
def name : PyError → String
  | attributeError => "AttributeError"
  | typeError => "TypeError"
  | keyError => "KeyError"
  | indexError => "IndexError"
  | valueError => "ValueError"
  | overflowError => "OverflowError"

end PyError

namespace Value

/-- `bool(value)` -/
def truthy : Value → Bool
  | .null => false
  | .bool b => b
  | .int n => n ≠ 0
  | .float f => f ≠ .finite 0 && f ≠ .negZero
  | .str s => s ≠ ""
  | .arr .nil => false
  | .arr (.cons _ _) => true
  | .obj .nil => false
  | .obj (.cons _ _ _) => true

/-- `a or b` -/
def orElse (a b : Value) : Value := if a.truthy then a else b

/-- `value.get(key, default)`; only objects have it. -/
def getD (v : Value) (key : String) (default : Value) : Except PyError Value :=
  match v with
  | .obj fields => .ok ((fields.get? key).getD default)
  | _ => .error .attributeError

/-- `value.get(key)` -/
def get (v : Value) (key : String) : Except PyError Value := v.getD key .null

def isObject : Value → Bool
  | .obj _ => true
  | _ => false

def items : Items → List Value
  | .nil => []
  | .cons item rest => item :: items rest

/-- `value[0]` of a value that is true. -/
def first : Value → Except PyError Value
  | .arr (.cons item _) => .ok item
  | .arr .nil => .error .indexError
  | .str s => match s.toList with
    | c :: _ => .ok (.str (String.singleton c))
    | [] => .error .indexError
  | .obj _ => .error .keyError
  | _ => .error .typeError

/-- What a `for` loop over a value runs through. -/
def iterate : Value → Except PyError (List Value)
  | .arr xs => .ok (items xs)
  | .str s => .ok (s.toList.map fun c => .str (String.singleton c))
  | .obj fields => .ok (fields.keys.map .str)
  | _ => .error .typeError

/-- Integers, floats and booleans: what arithmetic and `max` with an integer are defined for. -/
def isNumber : Value → Bool
  | .int _ => true
  | .float _ => true
  | .bool _ => true
  | _ => false

/-! ## Doubles -/

/-- The integer nearest to a number, the even one of two. -/
def roundHalfEven (q : ℚ) : ℤ :=
  let below := ⌊q⌋
  if q - below < 1 / 2 then below
  else if 1 / 2 < q - below then below + 1
  else if below % 2 = 0 then below
  else below + 1

/-- The double nearest to a number. -/
def toDouble (q : ℚ) : FloatVal :=
  if q = 0 then .finite 0
  else
    let scale : ℚ := 2 ^ (max (Int.log 2 |q|) (-1022) - 52)
    let size := roundHalfEven (|q| / scale) * scale
    if 2 ^ 1024 ≤ size then .infinite (q < 0)
    else if q < 0 then if size = 0 then .negZero else .finite (-size)
    else .finite size

/-- Whether every underscore stands between two digits; `previous` is the character before. -/
def underscoresOk (previous : Char) : List Char → Bool
  | [] => true
  | '_' :: rest => previous.isDigit && (rest.head?.map Char.isDigit).getD false && underscoresOk '_' rest
  | c :: rest => underscoresOk c rest

/-- The digits of a text that has nothing else but underscores. -/
def digits (cs : List Char) : Option (List Char) :=
  let ds := cs.filter (· ≠ '_')
  if underscoresOk '_' cs && ds.all Char.isDigit then some ds else none

def ofDigits (ds : List Char) : ℕ := ds.foldl (fun n d => 10 * n + (d.toNat - '0'.toNat)) 0

/-- `12.5`, `12.`, `.5` -/
def mantissa (cs : List Char) : Option ℚ :=
  let whole := cs.takeWhile (· ≠ '.')
  let fraction := (cs.dropWhile (· ≠ '.')).drop 1
  match digits whole, digits fraction with
  | some ds, some ds' =>
    if ds ++ ds' = [] then none else some (ofDigits ds + (ofDigits ds' : ℚ) / 10 ^ ds'.length)
  | _, _ => none

def exponent (cs : List Char) : Option ℤ :=
  let unsigned (cs : List Char) : Option ℤ :=
    match digits cs with
    | some (d :: ds) => some (ofDigits (d :: ds))
    | _ => none
  match cs with
  | '-' :: cs => (unsigned cs).map (-·)
  | '+' :: cs => unsigned cs
  | cs => unsigned cs

def isE (c : Char) : Bool := c = 'e' || c = 'E'

/-- A decimal number without its sign. -/
def decimal (cs : List Char) : Option ℚ :=
  match mantissa (cs.takeWhile fun c => !isE c), cs.dropWhile fun c => !isE c with
  | some m, [] => some m
  | some m, _ :: e => (exponent e).map fun n => m * 10 ^ n
  | none, _ => none

def unsignedFloat (negative : Bool) (cs : List Char) : Option FloatVal :=
  match String.ofList (cs.map Char.toLower) with
  | "inf" => some (.infinite negative)
  | "infinity" => some (.infinite negative)
  | "nan" => some .nan
  | _ => (decimal cs).map fun q => if negative then if q = 0 then .negZero else toDouble (-q) else toDouble q

/-- `float(text)`, for texts of ASCII characters. -/
def floatOfText (s : String) : Option FloatVal :=
  let blank (c : Char) : Bool := c.toNat = 32 || (9 ≤ c.toNat && c.toNat ≤ 13) || (28 ≤ c.toNat && c.toNat ≤ 31)
  match ((s.toList.dropWhile blank).reverse.dropWhile blank).reverse with
  | '-' :: cs => unsignedFloat true cs
  | '+' :: cs => unsignedFloat false cs
  | cs => unsignedFloat false cs

/-- `float(value)` -/
def toFloat : Value → Except PyError FloatVal
  | .int n => match toDouble n with
    | .infinite _ => .error .overflowError
    | f => .ok f
  | .float f => .ok f
  | .bool b => .ok (.finite (if b then 1 else 0))
  | .str s => match floatOfText s with
    | some f => .ok f
    | none => .error .valueError
  | _ => .error .typeError

end Value

/-- `int(f)` -/
def FloatVal.toInt : FloatVal → Except PyError ℤ
  | .finite q => .ok (if 0 ≤ q then ⌊q⌋ else ⌈q⌉)
  | .negZero => .ok 0
  | .infinite _ => .error .overflowError
  | .nan => .error .valueError

namespace Value

example : floatOfText " -1_0.5e1 " = some (.finite (-105)) := by decide +kernel

example : toFloat (.int (2 ^ 53 + 1)) = .ok (.finite (2 ^ 53)) := by decide +kernel

/-- The sum of two floats. -/
def addFloats : FloatVal → FloatVal → FloatVal
  | .nan, _ => .nan
  | _, .nan => .nan
  | .infinite a, .infinite b => if a = b then .infinite a else .nan
  | .infinite a, _ => .infinite a
  | _, .infinite b => .infinite b
  | .negZero, .negZero => .negZero
  | .negZero, f => f
  | f, .negZero => f
  | .finite a, .finite b => toDouble (a + b)

/-- The integer that an integer or a boolean is. -/
def toInt? : Value → Option ℤ
  | .int n => some n
  | .bool b => some (if b then 1 else 0)
  | _ => none

/-- `a + b` -/
def add : Value → Value → Except PyError Value
  | .str s, .str t => .ok (.str (s ++ t))
  | .arr xs, .arr ys => .ok (.arr ((items xs).foldr .cons ys))
  | a, b =>
    if a.isNumber && b.isNumber then
      match a.toInt?, b.toInt? with
      | some m, some n => .ok (.int (m + n))
      | _, _ => do return .float (addFloats (← a.toFloat) (← b.toFloat))
    else .error .typeError

/-- `x / max(value, 1)`, which is not defined for what is no number, nor for an integer that no double is near. -/
def divides : Value → Except PyError Unit
  | .int n => match toDouble n with
    | .infinite false => .error .overflowError
    | _ => .ok ()
  | .float _ => .ok ()
  | .bool _ => .ok ()
  | _ => .error .typeError

end Value

end Lib
