-- SUMMARY: The order of version keys: what a version is, and for which versions the keys are ordered as their numbers are.
import AgentProtocol.Image.Model
import AgentProtocol.Lib.FixedWidth

/-!
# The order of version keys

A key has each number with at least five digits, so that keys are compared as numbers are while five digits
are enough. A number with more of them is longer, and what is compared with a shorter one are its first digits.
-/

namespace AgentProtocol.Image

open Lib

/-! ## Versions -/

structure Digits where
  text : List Char
  nonempty : text ≠ []
  decimal : ∀ ch ∈ text, isDecimal ch = true

def Digits.value (digits : Digits) : ℕ := decimalNat digits.text

structure PreRelease where
  text : List Char
  nonempty : text ≠ []
  oneLine : '\n' ∉ text

structure Semver where
  major : Digits
  minor : Digits
  patch : Digits
  pre : Option PreRelease := none

namespace Semver

def suffix : Option PreRelease → List Char
  | none => []
  | some pre => '-' :: pre.text

/-- The text is `[v]MAJOR.MINOR.PATCH[-PRE]` for the version, with blanks around it. -/
def IsTextOf (x : Semver) (version : String) : Prop :=
  ∃ v : List Char, (v = [] ∨ v = ['v']) ∧
    (Text.strip version).toList = v ++ (x.major.text ++ '.' :: (x.minor.text ++ '.' :: (x.patch.text ++ suffix x.pre)))

/-- The numbers, compared one after the other. -/
def numbers (x : Semver) : ℕ ×ₗ ℕ ×ₗ ℕ := toLex (x.major.value, toLex (x.minor.value, x.patch.value))

/-- No number has more digits than `int` converts. -/
def Converts (x : Semver) : Prop :=
  x.major.text.length ≤ maxStrDigits ∧ x.minor.text.length ≤ maxStrDigits ∧ x.patch.text.length ≤ maxStrDigits

def key (x : Semver) : String := keyOf x.major.value x.minor.value x.patch.value (x.pre.map PreRelease.text)

/-- The number that the first digits of `n` make, as many as `m` is written with. -/
def cut (m n : ℕ) : ℕ := n / 10 ^ ((padFive n).length - (padFive m).length)

/-- At the first number that is smaller in `x`, it is not above the first digits of the other one, and below them if it is
the last number of a release. -/
structure Fits (x y : Semver) : Prop where
  major : x.major.value < y.major.value → x.major.value ≤ cut x.major.value y.major.value
  minor : x.major.value = y.major.value → x.minor.value < y.minor.value → x.minor.value ≤ cut x.minor.value y.minor.value
  patch : x.major.value = y.major.value → x.minor.value = y.minor.value → x.patch.value < y.patch.value →
    if x.pre.isNone then x.patch.value < cut x.patch.value y.patch.value else x.patch.value ≤ cut x.patch.value y.patch.value

end Semver

/-- Both texts have a key. Keys are ordered as the numbers are, a release comes after the pre-releases with its numbers, and
what is no version comes before or with all versions. -/
def OrderFaithful (a b : String) : Prop :=
  ∃ keyA keyB, versionKey a = .ok keyA ∧ versionKey b = .ok keyB ∧
    (∀ x y : Semver, x.IsTextOf a → y.IsTextOf b →
      (x.numbers < y.numbers → keyA < keyB) ∧ (y.numbers < x.numbers → keyB < keyA) ∧
      (x.numbers = y.numbers → (x.pre.isNone → y.pre.isSome → keyB < keyA) ∧ (y.pre.isNone → x.pre.isSome → keyA < keyB) ∧
        (x.pre.isNone → y.pre.isNone → keyA = keyB))) ∧
    ((∀ x : Semver, ¬ x.IsTextOf a) → (∃ y : Semver, y.IsTextOf b) → keyA ≤ keyB) ∧
    ((∀ x : Semver, ¬ x.IsTextOf b) → (∃ y : Semver, y.IsTextOf a) → keyB ≤ keyA)

/-! ## Reading -/

theorem leadingDigits_append (digits : Digits) {rest : List Char} (hrest : ∀ ch ∈ rest.head?, isDecimal ch = false) :
    leadingDigits (digits.text ++ rest) = some (digits.text, rest) := by
  have hspan : (digits.text ++ rest).span isDecimal = (digits.text, rest) := by
    rw [List.span_eq_takeWhile_dropWhile, List.takeWhile_append_of_pos digits.decimal, List.dropWhile_append_of_pos digits.decimal]
    cases rest with
    | nil => simp
    | cons ch rest =>
      have hch := hrest ch rfl
      simp [hch]
  unfold leadingDigits
  rw [hspan]
  split
  · rename_i hnil
    exact absurd (congrArg Prod.fst hnil) digits.nonempty
  · rename_i heq
    rw [heq]

theorem leadingDigits_eq_some {l text rest : List Char} (h : leadingDigits l = some (text, rest)) :
    (∃ digits : Digits, digits.text = text) ∧ l = text ++ rest := by
  unfold leadingDigits at h
  rw [List.span_eq_takeWhile_dropWhile] at h
  split at h
  · cases h
  rename_i digits rest' hne heq
  obtain ⟨rfl, rfl⟩ := Prod.mk.inj (Option.some.inj h)
  obtain ⟨hdigits, hrest⟩ := Prod.mk.inj heq
  refine ⟨⟨⟨digits, ?_, ?_⟩, rfl⟩, ?_⟩
  · rintro rfl
    exact hne rfl
  · intro ch hch
    exact List.mem_takeWhile_imp (hdigits ▸ hch)
  · rw [← hdigits, ← hrest, List.takeWhile_append_dropWhile]

theorem Digits.head_ne (digits : Digits) (rest : List Char) : (digits.text ++ rest).head? ≠ some 'v' := by
  obtain ⟨ch, text, htext⟩ := List.exists_cons_of_ne_nil digits.nonempty
  rw [htext]
  intro hhead
  obtain rfl : ch = 'v' := Option.some.inj hhead
  exact absurd (digits.decimal 'v' (by rw [htext]; exact List.mem_cons_self)) (by decide)

namespace Semver

/-- The groups that a version matches with. -/
def groups (x : Semver) : Groups :=
  { major := x.major.text, minor := x.minor.text, patch := x.patch.text, pre := x.pre.map PreRelease.text }

theorem matchSemver_of_isTextOf {x : Semver} {version : String} (h : x.IsTextOf version) :
    matchSemver (Text.strip version).toList = some x.groups := by
  obtain ⟨v, hv, htext⟩ := h
  have hnumbers : (if (Text.strip version).toList.head? = some 'v' then (Text.strip version).toList.tail
      else (Text.strip version).toList) = x.major.text ++ '.' :: (x.minor.text ++ '.' :: (x.patch.text ++ suffix x.pre)) := by
    rw [htext]
    rcases hv with rfl | rfl
    · rw [List.nil_append, if_neg (x.major.head_ne _)]
    · simp
  have hsuffix : ∀ ch ∈ (suffix x.pre).head?, isDecimal ch = false := by
    cases x.pre with
    | none => simp [suffix]
    | some pre =>
      intro ch hch
      obtain rfl : '-' = ch := Option.some.inj hch
      decide
  have hdot : ∀ rest : List Char, ∀ ch ∈ ('.' :: rest).head?, isDecimal ch = false := by
    intro rest ch hch
    obtain rfl : '.' = ch := Option.some.inj hch
    decide
  unfold matchSemver
  simp only [hnumbers, leadingDigits_append x.major (hdot _), leadingDigits_append x.minor (hdot _), leadingDigits_append x.patch hsuffix]
  unfold groups
  cases hpre : x.pre with
  | none => rfl
  | some pre =>
    simp only [suffix]
    exact if_pos ⟨pre.nonempty, pre.oneLine⟩

theorem exists_prefix_v (text : List Char) : ∃ v, (v = [] ∨ v = ['v']) ∧ text = v ++ if text.head? = some 'v' then text.tail else text := by
  split
  · rename_i hhead
    obtain ⟨rest, rfl⟩ := List.head?_eq_some_iff.mp hhead
    exact ⟨['v'], .inr rfl, rfl⟩
  · exact ⟨[], .inl rfl, rfl⟩

theorem exists_isTextOf_of_match {version : String} {groups : Groups} (h : matchSemver (Text.strip version).toList = some groups) :
    ∃ x : Semver, x.IsTextOf version := by
  obtain ⟨v, hv, htext⟩ := exists_prefix_v (Text.strip version).toList
  unfold matchSemver at h
  generalize (if (Text.strip version).toList.head? = some 'v' then (Text.strip version).toList.tail
    else (Text.strip version).toList) = numbers at h htext
  split at h
  · rename_i major afterMajor hmajor
    split at h
    · rename_i minor afterMinor hminor
      obtain ⟨⟨majorDigits, rfl⟩, rfl⟩ := leadingDigits_eq_some hmajor
      obtain ⟨⟨minorDigits, rfl⟩, rfl⟩ := leadingDigits_eq_some hminor
      split at h
      · rename_i patch hpatch
        obtain ⟨⟨patchDigits, rfl⟩, rfl⟩ := leadingDigits_eq_some hpatch
        exact ⟨{ major := majorDigits, minor := minorDigits, patch := patchDigits }, v, hv, htext⟩
      · rename_i patch pre hpatch
        obtain ⟨⟨patchDigits, rfl⟩, rfl⟩ := leadingDigits_eq_some hpatch
        split at h
        · rename_i hpre
          exact ⟨{ major := majorDigits, minor := minorDigits, patch := patchDigits, pre := some ⟨pre, hpre.1, hpre.2⟩ }, v, hv, htext⟩
        · cases h
      · cases h
    · cases h
  · cases h

theorem versionKey_eq_ok_iff {x : Semver} {version key : String} (h : x.IsTextOf version) :
    versionKey version = .ok key ↔ x.Converts ∧ key = x.key := by
  have hint : ∀ digits : Digits, digits.text.length ≤ maxStrDigits ∧ intOf digits.text = .ok digits.value ∨
      ¬ digits.text.length ≤ maxStrDigits ∧ ∃ message, intOf digits.text = .error message := by
    intro digits
    unfold intOf
    split_ifs with hlength
    · exact .inl ⟨hlength, rfl⟩
    · exact .inr ⟨hlength, _, rfl⟩
  unfold versionKey Converts
  rw [matchSemver_of_isTextOf h]
  simp only [groups]
  rcases hint x.major with ⟨hmajor, hvalue⟩ | ⟨hmajor, message, hvalue⟩
  · rcases hint x.minor with ⟨hminor, hvalue'⟩ | ⟨hminor, message, hvalue'⟩
    · rcases hint x.patch with ⟨hpatch, hvalue''⟩ | ⟨hpatch, message, hvalue''⟩
      · rw [hvalue, hvalue', hvalue'']
        exact ⟨fun hok => ⟨⟨hmajor, hminor, hpatch⟩, (Except.ok.inj hok).symm⟩, fun hkey => congrArg Except.ok hkey.2.symm⟩
      · rw [hvalue, hvalue', hvalue'']
        exact iff_of_false (by simp [bind, Except.bind]) fun hconverts => hpatch hconverts.1.2.2
    · rw [hvalue, hvalue']
      exact iff_of_false (by simp [bind, Except.bind]) fun hconverts => hminor hconverts.1.2.1
  · rw [hvalue]
    exact iff_of_false (by simp [bind, Except.bind]) fun hconverts => hmajor hconverts.1.1

theorem versionKey_of_other {version : String} (h : ∀ x : Semver, ¬ x.IsTextOf version) : versionKey version = .ok zeroKey := by
  unfold versionKey
  cases hmatch : matchSemver (Text.strip version).toList with
  | none => rfl
  | some groups =>
    obtain ⟨x, hx⟩ := exists_isTextOf_of_match hmatch
    exact absurd hx (h x)

end Semver

/-! ## Numbers as texts -/

open FixedWidth

theorem digitChar_lt : ∀ i j, i < j → j < 10 → Nat.digitChar i < Nat.digitChar j := by
  have hall : ∀ j < 10, ∀ i < j, Nat.digitChar i < Nat.digitChar j := by decide
  exact fun i j hij hj => hall j hj i hij

theorem toDigits_spec (n : ℕ) : ∃ w, Nat.toDigits 10 n = digits 10 Nat.digitChar w n ∧ n < 10 ^ w ∧ (1 < w → 10 ^ (w - 1) ≤ n) := by
  induction n using Nat.strongRecOn with
  | _ n ih =>
    rw [Nat.toDigits_eq_if (by omega)]
    split
    · rename_i hlt
      refine ⟨1, ?_, by omega, by omega⟩
      simp [digits, Nat.mod_eq_of_lt hlt]
    · rename_i hge
      obtain ⟨w, hdigits, hlt, hneeded⟩ := ih (n / 10) (Nat.div_lt_self (by omega) (by omega))
      refine ⟨w + 1, by rw [hdigits, digits], ?_, fun _ => ?_⟩
      · rw [Nat.pow_succ]
        exact (Nat.div_lt_iff_lt_mul (by omega)).mp hlt
      · rw [Nat.add_sub_cancel]
        rcases Nat.lt_or_ge 1 w with hw | hw
        · have hpow : 10 ^ w = 10 ^ (w - 1) * 10 := by rw [← Nat.pow_succ, Nat.succ_eq_add_one, Nat.sub_add_cancel (by omega)]
          rw [hpow]
          exact (Nat.le_div_iff_mul_le (by omega)).mp (hneeded hw)
        · exact (Nat.pow_le_pow_right (by omega) hw).trans (by omega)

theorem padFive_spec (n : ℕ) : (padFive n).toList = digits 10 Nat.digitChar (padFive n).length n ∧ n < 10 ^ (padFive n).length ∧
    5 ≤ (padFive n).length ∧ (5 < (padFive n).length → 10 ^ ((padFive n).length - 1) ≤ n) := by
  obtain ⟨w, hdigits, hlt, hneeded⟩ := toDigits_spec n
  have hchars : (toString n).toList = digits 10 Nat.digitChar w n := by
    rw [← hdigits]
    exact Nat.toList_repr
  have htext : (padFive n).toList = digits 10 Nat.digitChar (5 - w + w) n := by
    unfold padFive
    rw [hchars, String.toList_ofList, length_digits, digits_of_lt _ hlt]
    rfl
  have hlen : (padFive n).length = 5 - w + w := by rw [← String.length_toList, htext, length_digits]
  rw [hlen]
  refine ⟨htext, hlt.trans_le (Nat.pow_le_pow_right (by omega) (by omega)), by omega, fun hlong => ?_⟩
  have hw : 5 - w + w = w := by omega
  rw [hw]
  exact hneeded (by omega)

theorem length_padFive_mono {m n : ℕ} (h : m < n) : (padFive m).length ≤ (padFive n).length := by
  obtain ⟨-, -, -, hneeded⟩ := padFive_spec m
  obtain ⟨-, hn, hfive, -⟩ := padFive_spec n
  by_contra hlonger
  have hm := hneeded (by omega)
  have hpow : 10 ^ (padFive n).length ≤ 10 ^ ((padFive m).length - 1) := Nat.pow_le_pow_right (by omega) (by omega)
  omega

section Compare

variable {m n : ℕ} {s t : List Char}

theorem padFive_append_lt_iff (h : m < n) : (padFive m).toList ++ s < (padFive n).toList ++ t ↔
    m < Semver.cut m n ∨ m = Semver.cut m n ∧ s < digits 10 Nat.digitChar ((padFive n).length - (padFive m).length) n ++ t := by
  obtain ⟨hm, hmlt, -⟩ := padFive_spec m
  obtain ⟨hn, hnlt, -⟩ := padFive_spec n
  have hwidth : (padFive n).length = (padFive m).length + ((padFive n).length - (padFive m).length) := by
    have hmono := length_padFive_mono h
    omega
  have hcut : Semver.cut m n < 10 ^ (padFive m).length := by
    unfold Semver.cut
    rw [hwidth, Nat.pow_add] at hnlt
    rw [hwidth, Nat.add_sub_cancel_left]
    exact Nat.div_lt_of_lt_mul (by rwa [Nat.mul_comm])
  have hfirst : (padFive n).toList = digits 10 Nat.digitChar (padFive m).length (Semver.cut m n) ++
      digits 10 Nat.digitChar ((padFive n).length - (padFive m).length) n := by
    rw [hn]
    conv_lhs => rw [hwidth]
    exact digits_add _ _ _
  rw [hfirst, hm, List.append_assoc, append_lt_append_iff (by rw [length_digits, length_digits])]
  have hlt : m < Semver.cut m n → digits 10 Nat.digitChar (padFive m).length m < digits 10 Nat.digitChar (padFive m).length (Semver.cut m n) :=
    digits_lt digitChar_lt (by omega) hcut
  have hgt : Semver.cut m n < m → digits 10 Nat.digitChar (padFive m).length (Semver.cut m n) < digits 10 Nat.digitChar (padFive m).length m :=
    digits_lt digitChar_lt (by omega) hmlt
  rcases lt_trichotomy m (Semver.cut m n) with hless | hsame | hmore
  · exact iff_of_true (.inl (hlt hless)) (.inl hless)
  · rw [← hsame]
    simp
  · refine iff_of_false ?_ ?_
    · rintro (hless | ⟨hsame, -⟩)
      · exact absurd hless (hgt hmore).asymm
      · exact absurd hsame (hgt hmore).ne'
    · rintro (hless | ⟨hsame, -⟩) <;> omega

theorem digits_eq_cons (h : m < n) (hsame : m = Semver.cut m n) :
    ∃ d rest, d < 10 ∧ digits 10 Nat.digitChar ((padFive n).length - (padFive m).length) n = Nat.digitChar d :: rest := by
  cases hdigits : digits 10 Nat.digitChar ((padFive n).length - (padFive m).length) n with
  | nil =>
    have hnone := congrArg List.length hdigits
    rw [length_digits, List.length_nil] at hnone
    rw [Semver.cut, hnone, Nat.pow_zero, Nat.div_one] at hsame
    omega
  | cons ch rest =>
    obtain ⟨d, hd, rfl⟩ := mem_digits (by omega) (hdigits ▸ List.mem_cons_self : ch ∈ digits 10 Nat.digitChar _ n)
    exact ⟨d, rest, hd, rfl⟩

theorem padFive_append_lt_of_low {ch : Char} (hch : ch < '0') (h : m < n) :
    (padFive m).toList ++ ch :: s < (padFive n).toList ++ t ↔ m ≤ Semver.cut m n := by
  rw [padFive_append_lt_iff h, le_iff_lt_or_eq]
  refine or_congr_right (and_iff_left_of_imp fun hsame => ?_)
  obtain ⟨d, rest, hd, hdigits⟩ := digits_eq_cons h hsame
  have hzero : ∀ d < 10, '0' ≤ Nat.digitChar d := by decide
  rw [hdigits, List.cons_append, List.cons_lt_cons_iff]
  exact .inl (hch.trans_le (hzero d hd))

theorem padFive_append_lt_of_high {ch : Char} (hch : '9' < ch) (h : m < n) :
    (padFive m).toList ++ ch :: s < (padFive n).toList ++ t ↔ m < Semver.cut m n := by
  rw [padFive_append_lt_iff h]
  refine or_iff_left ?_
  rintro ⟨hsame, hlt⟩
  obtain ⟨d, rest, hd, hdigits⟩ := digits_eq_cons h hsame
  have hnine : ∀ d < 10, Nat.digitChar d ≤ '9' := by decide
  have habove : Nat.digitChar d < ch := (hnine d hd).trans_lt hch
  rw [hdigits, List.cons_append, List.cons_lt_cons_iff] at hlt
  rcases hlt with hlt | ⟨rfl, -⟩
  · exact absurd hlt habove.asymm
  exact absurd habove (lt_irrefl _)

theorem append_lt_append_left_iff {p : List Char} : p ++ s < p ++ t ↔ s < t := by
  rw [append_lt_append_iff rfl]
  simp

end Compare

/-! ## Keys -/

namespace Semver

variable {x y : Semver}

def ending : Option PreRelease → List Char
  | none => ['~']
  | some pre => '-' :: pre.text

theorem toList_key (x : Semver) : x.key.toList = (padFive x.major.value).toList ++
    '.' :: ((padFive x.minor.value).toList ++ '.' :: ((padFive x.patch.value).toList ++ ending x.pre)) := by
  unfold key keyOf
  cases x.pre with
  | none | some => simp [ending]

theorem numbers_lt_iff : x.numbers < y.numbers ↔ x.major.value < y.major.value ∨ x.major.value = y.major.value ∧
      (x.minor.value < y.minor.value ∨ x.minor.value = y.minor.value ∧ x.patch.value < y.patch.value) := by
  unfold numbers
  rw [Prod.Lex.toLex_lt_toLex, Prod.Lex.toLex_lt_toLex]

theorem numbers_eq_iff : x.numbers = y.numbers ↔
    x.major.value = y.major.value ∧ x.minor.value = y.minor.value ∧ x.patch.value = y.patch.value := by
  unfold numbers
  simp

theorem dot_lt : '.' < '0' := by decide

theorem key_lt_iff (h : x.numbers < y.numbers) : x.key < y.key ↔ Fits x y := by
  rw [String.lt_iff_toList_lt, toList_key, toList_key]
  rcases numbers_lt_iff.mp h with hmajor | ⟨hmajor, hminor | ⟨hminor, hpatch⟩⟩
  · rw [padFive_append_lt_of_low dot_lt hmajor]
    constructor
    · intro hcut
      exact ⟨fun _ => hcut, fun hsame => by omega, fun hsame => by omega⟩
    · exact fun hfits => hfits.major hmajor
  · rw [hmajor, append_lt_append_left_iff, List.cons_lt_cons_self, padFive_append_lt_of_low dot_lt hminor]
    constructor
    · intro hcut
      exact ⟨fun hlt => by omega, fun _ _ => hcut, fun _ hsame => by omega⟩
    · exact fun hfits => hfits.minor hmajor hminor
  · rw [hmajor, append_lt_append_left_iff, List.cons_lt_cons_self, hminor, append_lt_append_left_iff, List.cons_lt_cons_self]
    have hlast : (padFive x.patch.value).toList ++ ending x.pre < (padFive y.patch.value).toList ++ ending y.pre ↔
        if x.pre.isNone then x.patch.value < cut x.patch.value y.patch.value else x.patch.value ≤ cut x.patch.value y.patch.value := by
      cases x.pre with
      | none => exact padFive_append_lt_of_high (by decide) hpatch
      | some pre => exact padFive_append_lt_of_low (by decide) hpatch
    rw [hlast]
    constructor
    · intro hcut
      exact ⟨fun hlt => by omega, fun _ hlt => by omega, fun _ _ _ => hcut⟩
    · exact fun hfits => hfits.patch hmajor hminor hpatch

theorem key_lt_of_release (h : x.numbers = y.numbers) (hx : x.pre.isSome) (hy : y.pre.isNone) : x.key < y.key := by
  obtain ⟨hmajor, hminor, hpatch⟩ := numbers_eq_iff.mp h
  obtain ⟨pre, hpre⟩ := Option.isSome_iff_exists.mp hx
  have hnone : y.pre = none := by simpa using hy
  rw [String.lt_iff_toList_lt, toList_key, toList_key, hmajor, hminor, hpatch, append_lt_append_left_iff, List.cons_lt_cons_self,
    append_lt_append_left_iff, List.cons_lt_cons_self, append_lt_append_left_iff, hpre, hnone]
  exact List.cons_lt_cons_iff.mpr (.inl (by decide))

theorem padFive_zero_append_lt {n : ℕ} {s t : List Char} (hdot : ∀ ch ∈ s.head?, ch < '0') (h : s < t) (ht : t ≠ []) :
    (padFive 0).toList ++ s < (padFive n).toList ++ t := by
  rcases Nat.eq_zero_or_pos n with rfl | hpos
  · exact append_lt_append_left_iff.mpr h
  · cases s with
    | nil =>
      rw [padFive_append_lt_iff hpos]
      rcases Nat.eq_zero_or_pos (cut 0 n) with hzero | hcut
      · refine .inr ⟨hzero.symm, ?_⟩
        cases hnext : digits 10 Nat.digitChar ((padFive n).length - (padFive 0).length) n ++ t with
        | nil => exact absurd (List.append_eq_nil_iff.mp hnext).2 ht
        | cons ch rest => exact List.nil_lt_cons ch rest
      · exact .inl hcut
    | cons ch s => exact (padFive_append_lt_of_low (hdot ch rfl) hpos).mpr (Nat.zero_le _)

theorem zeroKey_lt_key (x : Semver) : zeroKey < x.key := by
  have hzero : zeroKey.toList = (padFive 0).toList ++ '.' :: ((padFive 0).toList ++ '.' :: ((padFive 0).toList ++ [])) := by decide
  have hending : [] < ending x.pre ∧ ending x.pre ≠ [] := by
    cases x.pre with
    | none | some => exact ⟨List.nil_lt_cons _ _, List.cons_ne_nil _ _⟩
  have hdot : ∀ (rest : List Char), ∀ ch ∈ ('.' :: rest).head?, ch < '0' := by
    intro rest ch hch
    obtain rfl : '.' = ch := Option.some.inj hch
    exact dot_lt
  rw [String.lt_iff_toList_lt, hzero, toList_key]
  refine padFive_zero_append_lt (hdot _) (List.cons_lt_cons_self.mpr ?_) (List.cons_ne_nil _ _)
  refine padFive_zero_append_lt (hdot _) (List.cons_lt_cons_self.mpr ?_) (List.cons_ne_nil _ _)
  exact padFive_zero_append_lt (by simp) hending.1 hending.2

theorem key_eq_of_releases (h : x.numbers = y.numbers) (hx : x.pre.isNone) (hy : y.pre.isNone) : x.key = y.key := by
  obtain ⟨hmajor, hminor, hpatch⟩ := numbers_eq_iff.mp h
  unfold key
  rw [hmajor, hminor, hpatch, Option.isNone_iff_eq_none.mp hx, Option.isNone_iff_eq_none.mp hy]

end Semver

/-- The keys of two texts are there and faithful to the order of versions exactly if the numbers can be converted and fit. -/
theorem versionKey_orderFaithful_iff (a b : String) : OrderFaithful a b ↔
    (∀ x : Semver, x.IsTextOf a ∨ x.IsTextOf b → x.Converts) ∧ ∀ x y : Semver, x.IsTextOf a → y.IsTextOf b →
      (x.numbers < y.numbers → Semver.Fits x y) ∧ (y.numbers < x.numbers → Semver.Fits y x) := by
  constructor
  · rintro ⟨keyA, keyB, ha, hb, hversions, -⟩
    refine ⟨fun x hx => ?_, fun x y hx hy => ?_⟩
    · rcases hx with hx | hx
      · exact ((Semver.versionKey_eq_ok_iff hx).mp ha).1
      · exact ((Semver.versionKey_eq_ok_iff hx).mp hb).1
    · obtain rfl := ((Semver.versionKey_eq_ok_iff hx).mp ha).2
      obtain rfl := ((Semver.versionKey_eq_ok_iff hy).mp hb).2
      obtain ⟨hlt, hgt, -⟩ := hversions x y hx hy
      exact ⟨fun hnumbers => (Semver.key_lt_iff hnumbers).mp (hlt hnumbers), fun hnumbers => (Semver.key_lt_iff hnumbers).mp (hgt hnumbers)⟩
  · rintro ⟨hconverts, hfits⟩
    have hkey : ∀ version, (∀ x : Semver, x.IsTextOf version → x.Converts) →
        (∃ x : Semver, x.IsTextOf version ∧ versionKey version = .ok x.key) ∨
          (∀ x : Semver, ¬ x.IsTextOf version) ∧ versionKey version = .ok zeroKey := by
      intro version hversion
      by_cases hsome : ∃ x : Semver, x.IsTextOf version
      · obtain ⟨x, hx⟩ := hsome
        exact .inl ⟨x, hx, (Semver.versionKey_eq_ok_iff hx).mpr ⟨hversion x hx, rfl⟩⟩
      · have hother : ∀ x : Semver, ¬ x.IsTextOf version := not_exists.mp hsome
        exact .inr ⟨hother, Semver.versionKey_of_other hother⟩
    have hsame : ∀ {version key : String} {x : Semver}, versionKey version = .ok key → x.IsTextOf version → key = x.key := by
      intro version key x hok hx
      exact ((Semver.versionKey_eq_ok_iff hx).mp hok).2
    have hbelow : ∀ {version key : String}, versionKey version = .ok key → (∃ y : Semver, y.IsTextOf version) → zeroKey ≤ key := by
      rintro version key hok ⟨y, hy⟩
      rw [hsame hok hy]
      exact y.zeroKey_lt_key.le
    obtain ⟨keyA, hA⟩ : ∃ keyA, versionKey a = .ok keyA := by
      rcases hkey a fun x hx => hconverts x (.inl hx) with ⟨x, -, hx⟩ | ⟨-, hzero⟩
      · exact ⟨_, hx⟩
      · exact ⟨_, hzero⟩
    obtain ⟨keyB, hB⟩ : ∃ keyB, versionKey b = .ok keyB := by
      rcases hkey b fun x hx => hconverts x (.inr hx) with ⟨x, -, hx⟩ | ⟨-, hzero⟩
      · exact ⟨_, hx⟩
      · exact ⟨_, hzero⟩
    refine ⟨keyA, keyB, hA, hB, fun x y hx hy => ?_, fun hother hb => ?_, fun hother ha => ?_⟩
    · obtain ⟨hlt, hgt⟩ := hfits x y hx hy
      rw [hsame hA hx, hsame hB hy]
      refine ⟨fun hnumbers => (Semver.key_lt_iff hnumbers).mpr (hlt hnumbers), fun hnumbers => (Semver.key_lt_iff hnumbers).mpr (hgt hnumbers),
        fun hequal => ⟨fun hx hy => Semver.key_lt_of_release hequal.symm hy hx, fun hy hx => Semver.key_lt_of_release hequal hx hy,
          Semver.key_eq_of_releases hequal⟩⟩
    · obtain rfl := Except.ok.inj (hA.symm.trans (Semver.versionKey_of_other hother))
      exact hbelow hB hb
    · obtain rfl := Except.ok.inj (hB.symm.trans (Semver.versionKey_of_other hother))
      exact hbelow hA ha

/-- The number whose only digit is 0. -/
def Digits.nought : Digits := { text := ['0'], nonempty := by simp, decimal := List.all_eq_true.mp (by decide +kernel) }

/-- Version 99999.0.0. -/
def fiveDigits : Semver :=
  { major := { text := ['9', '9', '9', '9', '9'], nonempty := by simp, decimal := List.all_eq_true.mp (by decide +kernel) }
    minor := .nought
    patch := .nought }

/-- Version 100000.0.0. -/
def sixDigits : Semver :=
  { major := { text := ['1', '0', '0', '0', '0', '0'], nonempty := by simp, decimal := List.all_eq_true.mp (by decide +kernel) }
    minor := .nought
    patch := .nought }

/-- A version with six digits comes before one with five that is smaller. -/
theorem sixDigits_not_faithful : ¬ OrderFaithful "v99999.0.0" "v100000.0.0" := by
  have hfive : fiveDigits.IsTextOf "v99999.0.0" := ⟨['v'], .inr rfl, by decide +kernel⟩
  have hsix : sixDigits.IsTextOf "v100000.0.0" := ⟨['v'], .inr rfl, by decide +kernel⟩
  have hnumbers : fiveDigits.numbers < sixDigits.numbers := Semver.numbers_lt_iff.mpr (.inl (by decide +kernel))
  rintro ⟨keyA, keyB, hA, hB, hversions, -⟩
  obtain rfl : keyA = "99999.00000.00000~" := Except.ok.inj (hA.symm.trans (by decide +kernel))
  obtain rfl : keyB = "100000.00000.00000~" := Except.ok.inj (hB.symm.trans (by decide +kernel))
  exact absurd ((hversions fiveDigits sixDigits hfive hsix).1 hnumbers) (by decide)

end AgentProtocol.Image
