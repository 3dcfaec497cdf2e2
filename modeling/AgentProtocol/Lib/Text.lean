-- SUMMARY: Text functions of a scripting language: Unicode whitespace, stripping, line splitting and splitting at a separator.
import Mathlib

/-!
# Text

Functions on strings that agree with those of Python. They work on character lists, so
that they can be evaluated in proofs.
-/

namespace Lib.Text

/-- `str.isspace` of one character. -/
def isSpace (c : Char) : Bool :=
  let n := c.toNat
  (9 ≤ n && n ≤ 13) || (28 ≤ n && n ≤ 32) || n = 0x85 || n = 0xa0 || n = 0x1680 || (0x2000 ≤ n && n ≤ 0x200a) ||
    n = 0x2028 || n = 0x2029 || n = 0x202f || n = 0x205f || n = 0x3000

/-- Where `str.splitlines` ends a line. -/
def isLineBreak (c : Char) : Bool :=
  let n := c.toNat
  (10 ≤ n && n ≤ 13) || (28 ≤ n && n ≤ 30) || n = 0x85 || n = 0x2028 || n = 0x2029

def stripChars (p : Char → Bool) (l : List Char) : List Char := ((l.dropWhile p).reverse.dropWhile p).reverse

def strip (s : String) : String := String.ofList (stripChars isSpace s.toList)

theorem dropWhile_stripChars (p : Char → Bool) (l : List Char) : (stripChars p l).dropWhile p = stripChars p l := by
  rw [List.dropWhile_eq_self_iff]
  intro hpos
  have hpre : stripChars p l <+: l.dropWhile p := by
    rw [stripChars, ← List.reverse_suffix, List.reverse_reverse]
    exact List.dropWhile_suffix p
  obtain ⟨rest, hrest⟩ := hpre
  have hne : l.dropWhile p ≠ [] := by
    rw [← hrest]
    exact List.append_ne_nil_of_left_ne_nil (List.ne_nil_of_length_pos hpos) rest
  have hhead := List.head_dropWhile_not p hne
  have hsame : (stripChars p l)[0] = (l.dropWhile p).head hne := by
    simp only [← hrest, List.head_append_of_ne_nil (List.ne_nil_of_length_pos hpos)]
    exact (List.head_eq_getElem _).symm
  rw [hsame, hhead]
  simp

theorem stripChars_idem (p : Char → Bool) (l : List Char) : stripChars p (stripChars p l) = stripChars p l := by
  conv_lhs => rw [stripChars, dropWhile_stripChars, stripChars, List.reverse_reverse, List.dropWhile_idempotent]
  rfl

theorem strip_idem (s : String) : strip (strip s) = strip s := by
  simp [strip, stripChars_idem]

/-- `str.rstrip` of one character. -/
def rstrip (c : Char) (s : String) : String := String.ofList (s.toList.reverse.dropWhile (· = c)).reverse

def splitLinesFrom (line : List Char) : List Char → List (List Char)
  | [] => if line = [] then [] else [line.reverse]
  | '\r' :: '\n' :: rest => line.reverse :: splitLinesFrom [] rest
  | c :: rest => if isLineBreak c then line.reverse :: splitLinesFrom [] rest else splitLinesFrom (c :: line) rest

def splitLines (l : List Char) : List (List Char) := splitLinesFrom [] l

/-- What stands before and after the first occurrence of `sep`. -/
def splitOnce (sep : List Char) : List Char → Option (List Char × List Char)
  | [] => if sep = [] then some ([], []) else none
  | c :: rest =>
    if sep.isPrefixOf (c :: rest) then some ([], (c :: rest).drop sep.length)
    else (splitOnce sep rest).map fun p => (c :: p.1, p.2)

/-- `str.split` at most `n` times. -/
def splitMax (sep : List Char) : ℕ → List Char → List (List Char)
  | 0, l => [l]
  | n + 1, l => match splitOnce sep l with
    | none => [l]
    | some (before, after) => before :: splitMax sep n after

/-- `sub in s`. -/
def contains (s sub : String) : Bool := (splitOnce sub.toList s.toList).isSome

def startsWith (s pre : String) : Bool := pre.toList.isPrefixOf s.toList

def endsWith (s suf : String) : Bool := suf.toList.isSuffixOf s.toList

def digitsNat (l : List Char) : ℕ := l.foldl (fun n c => 10 * n + (c.toNat - 48)) 0

/-- `int(text)` for decimal digits: a sign, single underscores between digits, and blanks around it are allowed. -/
def parseInt (s : String) : Option ℤ :=
  let (negative, body) := match (strip s).toList with
    | '-' :: rest => (true, rest)
    | '+' :: rest => (false, rest)
    | rest => (false, rest)
  let groups := body.splitOn '_'
  if groups.all (fun g => g ≠ [] && g.all Char.isDigit) && groups.flatten.length ≤ 4300 then
    some (if negative then -(digitsNat groups.flatten : ℤ) else digitsNat groups.flatten)
  else none

example : parseInt " -1_024" = some (-1024) ∧ parseInt "1__0" = none ∧ parseInt "" = none := by decide

example : strip " \ta b\u3000" = "a b" := by decide

example : splitMax "---".toList 2 "---a---b---c".toList = ["".toList, "a".toList, "b---c".toList] := by decide

end Lib.Text
