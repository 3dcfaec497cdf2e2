-- SUMMARY: The sort key of a version of an image.
import AgentProtocol.Lib.Text

/-!
# Images

The images registry has one row for each version of a name. The sort key is derived from the version alone, so that
different versions may have one key.
-/

namespace AgentProtocol.Image

open Lib

/-- A number with at least five digits. -/
def padFive (n : ℕ) : String :=
  let digits := (toString n).toList
  String.ofList (List.replicate (5 - digits.length) '0' ++ digits)

/-- The zeros of the decimal digits of Unicode 14. The other nine digits follow each of them. -/
def decimalZeros : List ℕ :=
  [48, 1632, 1776, 1984, 2406, 2534, 2662, 2790, 2918, 3046, 3174, 3302, 3430, 3558, 3664, 3792, 3872, 4160, 4240, 6112, 6160, 6470,
    6608, 6784, 6800, 6992, 7088, 7232, 7248, 42528, 43216, 43264, 43472, 43504, 43600, 44016, 65296, 66720, 68912, 69734, 69872, 69942,
    70096, 70384, 70736, 70864, 71248, 71360, 71472, 71904, 72016, 72784, 73040, 73120, 92768, 92864, 93008, 120782, 120792, 120802,
    120812, 120822, 123200, 123632, 125264, 130032]

/-- The value of a decimal digit, of any script. -/
def decimalValue (ch : Char) : Option ℕ :=
  (decimalZeros.find? fun first => first ≤ ch.toNat && ch.toNat ≤ first + 9).map (ch.toNat - ·)

/-- What `\d` matches. -/
def isDecimal (ch : Char) : Bool := (decimalValue ch).isSome

def decimalNat (digits : List Char) : ℕ := digits.foldl (fun n ch => 10 * n + (decimalValue ch).getD 0) 0

/-- How many digits `int` converts. -/
def maxStrDigits : ℕ := 4300

/-- `int` of decimal digits, or the text of its `ValueError`. -/
def intOf (digits : List Char) : Except String ℕ :=
  if digits.length ≤ maxStrDigits then .ok (decimalNat digits)
  else .error ("Exceeds the limit (4300 digits) for integer string conversion: value has " ++ toString digits.length ++
    " digits; use sys.set_int_max_str_digits() to increase the limit")

/-- The digits at the start of a text and what follows them. -/
def leadingDigits (l : List Char) : Option (List Char × List Char) :=
  match l.span isDecimal with
  | ([], _) => none
  | (digits, rest) => some (digits, rest)

/-- The groups of `_SEMVER` in a text. -/
structure Groups where
  major : List Char
  minor : List Char
  patch : List Char
  pre : Option (List Char)

/-- `_SEMVER.match` of a stripped text: `v?major.minor.patch(-pre)?`. -/
def matchSemver (text : List Char) : Option Groups :=
  match leadingDigits (if text.head? = some 'v' then text.tail else text) with
  | some (major, '.' :: afterMajor) => match leadingDigits afterMajor with
    | some (minor, '.' :: afterMinor) => match leadingDigits afterMinor with
      | some (patch, []) => some { major, minor, patch, pre := none }
      | some (patch, '-' :: pre) => if pre ≠ [] ∧ '\n' ∉ pre then some { major, minor, patch, pre := some pre } else none
      | _ => none
    | _ => none
  | _ => none

/-- The key of a version that does not match. -/
def zeroKey : String := "00000.00000.00000"

def keyOf (major minor patch : ℕ) (pre : Option (List Char)) : String :=
  padFive major ++ "." ++ padFive minor ++ "." ++ padFive patch ++
    match pre with
    | none => "~"
    | some pre => "-" ++ String.ofList pre

/-- `version_key`: releases sort after the pre-releases of the same numbers, and everything else first. -/
def versionKey (version : String) : Except String String :=
  match matchSemver (Text.strip version).toList with
  | none => .ok zeroKey
  | some groups => do
    let major ← intOf groups.major
    let minor ← intOf groups.minor
    let patch ← intOf groups.patch
    return keyOf major minor patch groups.pre

example : versionKey "v0.10.0" = .ok "00000.00010.00000~" ∧ versionKey "0.2.0-beta" = .ok "00000.00002.00000-beta" ∧
    versionKey "nightly" = .ok zeroKey ∧ versionKey "１.2.3" = .ok "00001.00002.00003~" := by decide +kernel

end AgentProtocol.Image
