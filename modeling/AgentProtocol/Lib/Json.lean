-- SUMMARY: JSON values with decidable equality, and the texts that a plain dump and Python's str give for them.
import Mathlib

/-!
# JSON values

Lists and objects have their own cell types, so that equality of values can be derived.
A number is kept as the text that is printed for it. Objects keep their fields in order.
-/

namespace Lib

mutual

inductive Json where
  | null
  | bool (value : Bool)
  | num (text : String)
  | str (value : String)
  | arr (items : JsonItems)
  | obj (fields : JsonFields)
  deriving DecidableEq

inductive JsonItems where
  | nil
  | cons (item : Json) (rest : JsonItems)

inductive JsonFields where
  | nil
  | cons (key : String) (value : Json) (rest : JsonFields)

end

namespace JsonItems

def ofList (l : List Json) : JsonItems := l.foldr cons nil

def toList : JsonItems → List Json
  | nil => []
  | cons item rest => item :: rest.toList

end JsonItems

namespace JsonFields

def ofList (l : List (String × Json)) : JsonFields := l.foldr (fun p => cons p.1 p.2) nil

def toList : JsonFields → List (String × Json)
  | nil => []
  | cons key value rest => (key, value) :: rest.toList

end JsonFields

namespace Json

def list (l : List Json) : Json := .arr (.ofList l)

def object (l : List (String × Json)) : Json := .obj (.ofList l)

def strs (l : List String) : Json := list (l.map .str)

def asStr : Json → Option String
  | .str s => some s
  | _ => none

def asList : Json → Option (List Json)
  | .arr items => some items.toList
  | _ => none

def asObject : Json → Option (List (String × Json))
  | .obj fields => some fields.toList
  | _ => none

def asStrs (j : Json) : Option (List String) := j.asList.bind fun l => l.mapM asStr

@[simp] theorem asList_list (l : List Json) : (list l).asList = some l := by
  induction l with
  | nil => rfl
  | cons item l ih =>
    simp only [list, asList, JsonItems.ofList, List.foldr_cons, JsonItems.toList, Option.some.injEq, List.cons.injEq, true_and] at ih ⊢
    exact ih

@[simp] theorem asObject_object (l : List (String × Json)) : (object l).asObject = some l := by
  induction l with
  | nil => rfl
  | cons p l ih =>
    simp only [object, asObject, JsonFields.ofList, List.foldr_cons, JsonFields.toList, Option.some.injEq, List.cons.injEq,
      true_and] at ih ⊢
    exact ih

theorem mapM_map {α β : Type} {f : α → β} {g : β → Option α} (h : ∀ a, g (f a) = some a) : ∀ l : List α, (l.map f).mapM g = some l
  | [] => rfl
  | a :: l => by
    rw [List.map_cons, List.mapM_cons, h, mapM_map h l]
    rfl

@[simp] theorem asStrs_strs (l : List String) : (strs l).asStrs = some l := by
  simp only [strs, asStrs, asList_list, Option.bind_some]
  exact mapM_map (f := str) (fun _ => rfl) l

/-! ## Dumping -/

def hexDigit (n : ℕ) : Char := if n < 10 then Char.ofNat (n + 48) else Char.ofNat (n + 87)

/-- A character within a quoted string; only what JSON demands is escaped. -/
def escape (c : Char) : List Char :=
  match c with
  | '"' => ['\\', '"']
  | '\\' => ['\\', '\\']
  | '\n' => ['\\', 'n']
  | '\r' => ['\\', 'r']
  | '\t' => ['\\', 't']
  | c =>
    if c.toNat = 8 then ['\\', 'b']
    else if c.toNat = 12 then ['\\', 'f']
    else if c.toNat < 32 then ['\\', 'u', '0', '0', hexDigit (c.toNat / 16), hexDigit (c.toNat % 16)]
    else [c]

def quote (s : String) : String := "\"" ++ String.ofList (s.toList.flatMap escape) ++ "\""

mutual

def dumps : Json → String
  | .null => "null"
  | .bool true => "true"
  | .bool false => "false"
  | .num text => text
  | .str s => quote s
  | .arr items => "[" ++ ", ".intercalate (dumpsItems items) ++ "]"
  | .obj fields => String.singleton '\x7b' ++ ", ".intercalate (dumpsFields fields) ++ String.singleton '\x7d'

def dumpsItems : JsonItems → List String
  | .nil => []
  | .cons item rest => dumps item :: dumpsItems rest

def dumpsFields : JsonFields → List String
  | .nil => []
  | .cons key value rest => (quote key ++ ": " ++ dumps value) :: dumpsFields rest

end

example : dumps (list [strs ["a\"", "b"], .null]) = "[[\"a\\\"\", \"b\"], null]" := by decide

/-! ## Printing as Python does

Which characters beyond ASCII are printable depends on the version of Unicode. -/

def hexDigits (width n : ℕ) : List Char := (List.range width).reverse.map fun i => hexDigit (n / 16 ^ i % 16)

/-- A character in `repr` of a text. -/
def reprChar (isPrintable : Char → Bool) (quote c : Char) : List Char :=
  if c = quote || c = '\\' then ['\\', c]
  else if c = '\t' then ['\\', 't']
  else if c = '\n' then ['\\', 'n']
  else if c = '\r' then ['\\', 'r']
  else
    let n := c.toNat
    if (32 ≤ n && n < 127) || (127 < n && isPrintable c) then [c]
    else if n ≤ 0xff then ['\\', 'x'] ++ hexDigits 2 n
    else if n ≤ 0xffff then ['\\', 'u'] ++ hexDigits 4 n
    else ['\\', 'U'] ++ hexDigits 8 n

/-- `repr` of a text: in single quotes, unless it has such and no double ones. -/
def reprText (isPrintable : Char → Bool) (s : String) : String :=
  let single := Char.ofNat 39
  let quote := if single ∈ s.toList ∧ '"' ∉ s.toList then '"' else single
  String.ofList (quote :: s.toList.flatMap (reprChar isPrintable quote) ++ [quote])

mutual

/-- `repr` -/
def pyRepr (isPrintable : Char → Bool) : Json → String
  | .null => "None"
  | .bool true => "True"
  | .bool false => "False"
  | .num "NaN" => "nan"
  | .num "Infinity" => "inf"
  | .num "-Infinity" => "-inf"
  | .num text => text
  | .str s => reprText isPrintable s
  | .arr items => "[" ++ ", ".intercalate (reprItems isPrintable items) ++ "]"
  | .obj fields => String.singleton '\x7b' ++ ", ".intercalate (reprFields isPrintable fields) ++ String.singleton '\x7d'

def reprItems (isPrintable : Char → Bool) : JsonItems → List String
  | .nil => []
  | .cons item rest => pyRepr isPrintable item :: reprItems isPrintable rest

def reprFields (isPrintable : Char → Bool) : JsonFields → List String
  | .nil => []
  | .cons key value rest => (reprText isPrintable key ++ ": " ++ pyRepr isPrintable value) :: reprFields isPrintable rest

end

/-- `str` -/
def pyStr (isPrintable : Char → Bool) : Json → String
  | .str s => s
  | j => j.pyRepr isPrintable

example : pyStr (fun _ => true) (list [.str "it's", .bool true, object [("k", .str "\"\n")]]) =
    "[\"it's\", True, " ++ String.singleton '\x7b' ++ "'k': '\"\\n'" ++ String.singleton '\x7d' ++ "]" := by decide +kernel

end Json

end Lib
