-- SUMMARY: Canonical JSON as the ArkTS SDK writes it, and its bytes.
import AgentProtocol.Sdk.Models

namespace AgentProtocol.Sdk

open Lib

def signKey : Utf16 := utf16 "sign"

/-- `Collectors.joining` and `join`: parts between brackets, with commas. -/
def joined (before after : CodeUnit) (parts : List Utf16) : Utf16 := before :: (List.intercalate [44] parts ++ [after])

/-- A code unit in a quoted text, with four hexadecimal digits for a control character. -/
def escapeWith (hex4 : ℕ → Utf16) (c : CodeUnit) : Utf16 :=
  if c = 34 then [92, 34]
  else if c = 92 then [92, 92]
  else if c = 8 then [92, 98]
  else if c = 12 then [92, 102]
  else if c = 10 then [92, 110]
  else if c = 13 then [92, 114]
  else if c = 9 then [92, 116]
  else if c.val < 0x20 then 92 :: 117 :: hex4 c.val
  else [c]

namespace Java

/-- `new BigDecimal(number).longValueExact()`, if it is a safe integer. -/
def safeInteger (q : ℚ) : Option ℤ :=
  if q.den = 1 ∧ -maxSafeInteger ≤ q.num ∧ q.num ≤ maxSafeInteger then some q.num else none

end Java

/-! ## ArkTS -/

namespace ArkTs

/-- The numbers of the language: the number that a literal is rounded to, if it is finite. Safe integers
are exact, and no other integer is rounded to one. -/
structure Doubles where
  double : ℚ → Option ℚ
  exact : ∀ n : ℤ, -maxSafeInteger ≤ n → n ≤ maxSafeInteger → double (n : ℚ) = some (n : ℚ)
  far : ∀ n m : ℤ, double (n : ℚ) = some (m : ℚ) → -maxSafeInteger ≤ m → m ≤ maxSafeInteger → n = m

variable (D : Doubles)

def Doubles.safeInteger (q : ℚ) : Option ℤ := (D.double q).bind Java.safeInteger

/-- `toString(16)` of a small number. -/
def toString16 (n : ℕ) : Utf16 := (Nat.toDigits 16 n).map fun c => Fin.ofNat _ c.toNat

def padStart (length : ℕ) (fill : CodeUnit) (s : Utf16) : Utf16 := List.replicate (length - s.length) fill ++ s

def escapeJsonString (s : Utf16) : Utf16 := 34 :: (s.flatMap (escapeWith fun n => padStart 4 48 (toString16 n)) ++ [34])

mutual

def canonicalStringify : Doc → Option Utf16
  | .null => some (utf16 "null")
  | .bool b => some (utf16 (if b then "true" else "false"))
  | .int n => (D.safeInteger n).map fun n => utf16 (Int.repr n)
  | .dec q => (D.safeInteger q).map fun n => utf16 (Int.repr n)
  | .str s => some (escapeJsonString s)
  | .arr items => (stringifyDocs items).map (joined 91 93)
  -- the pairs are written in the order of the keys
  | .obj f => (stringifyMembers f).map fun pairs =>
    joined 123 125 ((pairs.insertionSort fun p q => p.1 ≤ q.1).map fun p => escapeJsonString p.1 ++ 58 :: p.2)

def stringifyDocs : Docs → Option (List Utf16)
  | .nil => some []
  | .cons item rest => (canonicalStringify item).bind fun text => (stringifyDocs rest).map (text :: ·)

def stringifyMembers : Members → Option (List (Σ _ : Utf16, Utf16))
  | .nil => some []
  | .cons key value rest => (canonicalStringify value).bind fun text => (stringifyMembers rest).map (⟨key, text⟩ :: ·)

end

/-- `encodeUtf8`; a lone surrogate is an error. -/
def encodeUtf8 : Utf16 → Option (List ℕ)
  | [] => some []
  | c :: rest =>
    if c.val < 0x80 then (encodeUtf8 rest).map ([c.val] ++ ·)
    else if c.val < 0x800 then (encodeUtf8 rest).map ([0xC0 ||| c.val >>> 6, 0x80 ||| c.val &&& 0x3F] ++ ·)
    else if 0xD800 ≤ c.val ∧ c.val ≤ 0xDBFF then
      match rest with
      | [] => none
      | d :: rest =>
        if 0xDC00 ≤ d.val ∧ d.val ≤ 0xDFFF then
          let p := 0x10000 + ((c.val - 0xD800) <<< 10) + (d.val - 0xDC00)
          (encodeUtf8 rest).map ([0xF0 ||| p >>> 18, 0x80 ||| p >>> 12 &&& 0x3F, 0x80 ||| p >>> 6 &&& 0x3F, 0x80 ||| p &&& 0x3F] ++ ·)
        else none
    else if 0xDC00 ≤ c.val ∧ c.val ≤ 0xDFFF then none
    else (encodeUtf8 rest).map ([0xE0 ||| c.val >>> 12, 0x80 ||| c.val >>> 6 &&& 0x3F, 0x80 ||| c.val &&& 0x3F] ++ ·)

end ArkTs

/-! ## The canonical text -/

theorem escapeWith_eq {hex4 : ℕ → Utf16} (h : ∀ n < 32, hex4 n = [48, 48, Doc.hexUnit (n / 16), Doc.hexUnit (n % 16)]) :
    escapeWith hex4 = Doc.escape := by
  funext c
  unfold escapeWith Doc.escape
  by_cases hlow : c.val < 32
  · rw [if_pos hlow, if_pos hlow, h c.val hlow]
  · rw [if_neg hlow, if_neg hlow]

theorem ArkTs.escape_eq : (escapeWith fun n => ArkTs.padStart 4 48 (ArkTs.toString16 n)) = Doc.escape := escapeWith_eq (by decide +kernel)

theorem ArkTs.escapeJsonString_eq (s : Utf16) : ArkTs.escapeJsonString s = Doc.quoteUnits s := by
  rw [ArkTs.escapeJsonString, ArkTs.escape_eq]
  rfl

theorem joined_cons (before after : CodeUnit) (part : Utf16) (parts : List Utf16) :
    joined before after (part :: parts) = before :: (part ++ (parts.flatMap (44 :: ·) ++ [after])) := by
  have hrest : ∀ (part : Utf16) (parts : List Utf16), List.intercalate [44] (part :: parts) = part ++ parts.flatMap (44 :: ·) := by
    intro part parts
    induction parts generalizing part with
    | nil => simp [List.intercalate]
    | cons part' parts ih =>
      rw [List.flatMap_cons, ← List.cons_append.symm, ← ih part']
      simp [List.intercalate]
  rw [joined, hrest, List.append_assoc]

def memberUnits (p : Σ _ : Utf16, Doc) : Utf16 := Doc.quoteUnits p.1 ++ 58 :: Doc.units p.2

theorem moreDocs_eq (items : Docs) : Doc.moreDocs items = (items.toList.map Doc.units).flatMap (44 :: ·) ++ [93] := by
  cases items with
  | nil => rfl
  | cons item rest =>
    rw [Doc.moreDocs, moreDocs_eq rest, Docs.toList, List.map_cons, List.flatMap_cons]
    simp

theorem moreMembers_eq (f : Members) : Doc.moreMembers f = (f.toList.map memberUnits).flatMap (44 :: ·) ++ [125] := by
  cases f with
  | nil => rfl
  | cons key value rest =>
    rw [Doc.moreMembers, moreMembers_eq rest, Members.toList, List.map_cons, List.flatMap_cons]
    simp [memberUnits]

theorem units_arr (items : Docs) : Doc.units (.arr items) = joined 91 93 (items.toList.map Doc.units) := by
  cases items with
  | nil => rfl
  | cons item rest => rw [Doc.units, moreDocs_eq, Docs.toList, List.map_cons, joined_cons]

theorem units_obj (f : Members) : Doc.units (.obj f) = joined 123 125 (f.toList.map memberUnits) := by
  cases f with
  | nil => rfl
  | cons key value rest =>
    rw [Doc.units, moreMembers_eq, Members.toList, List.map_cons, joined_cons]
    simp [memberUnits]

namespace ArkTs

variable {D : Doubles}

mutual

theorem canonicalStringify_eq : ∀ d : Doc, canonicalStringify D d = (Doc.normal D.safeInteger d).map Doc.units
  | .null => rfl
  | .bool b => by cases b <;> rfl
  | .int n => by simp [canonicalStringify, Doc.normal, Doc.units, Function.comp_def]
  | .dec q => by simp [canonicalStringify, Doc.normal, Doc.units, Function.comp_def]
  | .str s => congrArg some (escapeJsonString_eq s)
  | .arr items => by
    rw [canonicalStringify, stringifyDocs_eq, Doc.normal]
    cases Doc.normalDocs D.safeInteger items with
    | none => rfl
    | some items' => exact congrArg some (units_arr items').symm
  | .obj f => by
    rw [canonicalStringify, stringifyMembers_eq, Doc.normal]
    cases Doc.normalMembers D.safeInteger f with
    | none => rfl
    | some f' =>
      -- sorting looks at the keys only
      have hsort := List.map_insertionSort (r := fun p q : Σ _ : Utf16, Doc => p.1 ≤ q.1) (s := fun p q : Σ _ : Utf16, Utf16 => p.1 ≤ q.1)
        (fun p => ⟨p.1, Doc.units p.2⟩) f'.toList (fun _ _ _ _ => Iff.rfl)
      simp only [Option.map_some]
      rw [← hsort, List.map_map, units_obj, Members.sort, Members.toList_ofList]
      simp only [Function.comp_def, escapeJsonString_eq]
      rfl

theorem stringifyDocs_eq : ∀ items : Docs, stringifyDocs D items = (Doc.normalDocs D.safeInteger items).map fun items => items.toList.map Doc.units
  | .nil => rfl
  | .cons item rest => by
    rw [stringifyDocs, canonicalStringify_eq item, stringifyDocs_eq rest, Doc.normalDocs]
    cases Doc.normal D.safeInteger item <;> cases Doc.normalDocs D.safeInteger rest <;> rfl

theorem stringifyMembers_eq : ∀ f : Members, stringifyMembers D f =
    (Doc.normalMembers D.safeInteger f).map fun f => f.toList.map fun p => ⟨p.1, Doc.units p.2⟩
  | .nil => rfl
  | .cons key value rest => by
    rw [stringifyMembers, canonicalStringify_eq value, stringifyMembers_eq rest, Doc.normalMembers]
    cases Doc.normal D.safeInteger value <;> cases Doc.normalMembers D.safeInteger rest <;> rfl

end

theorem or_eq_add {a b : ℕ} (i : ℕ) (hb : b < 2 ^ i) : (a * 2 ^ i) ||| b = a * 2 ^ i + b := by
  rw [← Nat.shiftLeft_eq, ← Nat.shiftLeft_add_eq_or_of_lt hb]

theorem continuation_eq (n : ℕ) : 0x80 ||| n &&& 0x3F = 0x80 + n % 0x40 := by
  have hand : n &&& 0x3F = n % 0x40 := Nat.and_two_pow_sub_one_eq_mod n 6
  have hlt : n % 0x40 < 2 ^ 6 := Nat.mod_lt n (by decide)
  rw [hand]
  exact or_eq_add (a := 2) 6 hlt

theorem lead_two {n : ℕ} (h : n < 0x800) : 0xC0 ||| n >>> 6 = 0xC0 + n / 0x40 := by
  rw [Nat.shiftRight_eq_div_pow]
  exact or_eq_add (a := 6) 5 (by omega)

theorem lead_three {n : ℕ} (h : n < 0x10000) : 0xE0 ||| n >>> 12 = 0xE0 + n / 0x1000 := by
  rw [Nat.shiftRight_eq_div_pow]
  exact or_eq_add (a := 14) 4 (by omega)

theorem lead_four {n : ℕ} (h : n < 0x110000) : 0xF0 ||| n >>> 18 = 0xF0 + n / 0x40000 := by
  rw [Nat.shiftRight_eq_div_pow]
  exact or_eq_add (a := 30) 3 (by omega)

theorem isHigh_iff {c : CodeUnit} : c.isHigh = true ↔ 0xD800 ≤ c.val ∧ c.val ≤ 0xDBFF := by simp [CodeUnit.isHigh]

theorem isLow_iff {c : CodeUnit} : c.isLow = true ↔ 0xDC00 ≤ c.val ∧ c.val ≤ 0xDFFF := by simp [CodeUnit.isLow]

theorem encode_unit {c : CodeUnit} {rest : Utf16} {bytes : List ℕ} (hhigh : ¬(0xD800 ≤ c.val ∧ c.val ≤ 0xDBFF))
    (hlow : ¬(0xDC00 ≤ c.val ∧ c.val ≤ 0xDFFF)) (hbytes : Utf16.utf8 c.val = bytes) :
    (Utf16.encode rest).map (bytes ++ ·) = Utf16.encode (c :: rest) := by
  have hhigh' : c.isHigh = false := Bool.eq_false_iff.mpr fun h => hhigh (isHigh_iff.mp h)
  have hlow' : c.isLow = false := Bool.eq_false_iff.mpr fun h => hlow (isLow_iff.mp h)
  rw [Utf16.encode_cons hhigh' hlow', hbytes]

theorem encodeUtf8_eq (s : Utf16) : encodeUtf8 s = Utf16.encode s := by
  fun_induction encodeUtf8 s with
  | case1 => rfl
  | case2 c rest h ih =>
    rw [ih]
    exact encode_unit (by omega) (by omega) (by rw [Utf16.utf8, if_pos h])
  | case3 c rest h h' ih =>
    rw [ih]
    apply encode_unit (by omega) (by omega)
    rw [Utf16.utf8, if_neg h, if_pos h', lead_two h', continuation_eq]
  | case4 c h h' hhigh =>
    have hhigh' := isHigh_iff.mpr hhigh
    simp [Utf16.encode, Utf16.codePoints, hhigh']
  | case5 c h h' hhigh d rest hlow p ih =>
    have hp : p = 0x10000 + (c.val - 0xD800) * 0x400 + (d.val - 0xDC00) := by rw [← Nat.shiftLeft_eq _ 10]
    have hlt : p < 0x110000 := by omega
    have hdiv : ∀ n i : ℕ, n >>> i = n / 2 ^ i := Nat.shiftRight_eq_div_pow
    rw [ih, Utf16.encode_pair (isHigh_iff.mpr hhigh) (isLow_iff.mpr hlow), ← hp, Utf16.utf8, if_neg (by omega), if_neg (by omega),
      if_neg (by omega), lead_four hlt, continuation_eq, continuation_eq, continuation_eq, hdiv, hdiv]
    rfl
  | case6 c h h' hhigh d rest hlow =>
    have hhigh' := isHigh_iff.mpr hhigh
    have hlow' : d.isLow = false := Bool.eq_false_iff.mpr fun h => hlow (isLow_iff.mp h)
    simp [Utf16.encode, Utf16.codePoints, hhigh', hlow']
  | case7 c rest h h' hhigh hlow =>
    have hhigh' : c.isHigh = false := Bool.eq_false_iff.mpr fun h => hhigh (isHigh_iff.mp h)
    have hlow' := isLow_iff.mpr hlow
    cases rest <;> simp [Utf16.encode, Utf16.codePoints, hhigh', hlow']
  | case8 c rest h h' hhigh hlow ih =>
    have hlt : c.val < 0x10000 := c.isLt
    rw [ih]
    apply encode_unit hhigh hlow
    rw [Utf16.utf8, if_neg h, if_neg h', if_pos hlt, lead_three hlt, continuation_eq, continuation_eq, Nat.shiftRight_eq_div_pow]

end ArkTs

end AgentProtocol.Sdk
