-- SUMMARY: Texts of UTF-16 code units: code points, the UTF-8 encoding, and which texts have one.
import Mathlib

/-!
# UTF-16 texts

Some languages keep a text as 16-bit code units, and let surrogates stand alone. Such a text has no
UTF-8 encoding. Where there is one, it determines the text.
-/

namespace Lib

/-- A UTF-16 code unit. -/
abbrev CodeUnit := Fin 0x10000

instance neZeroUnits : NeZero 0x10000 := ⟨by decide⟩

/-- A text as a language with 16-bit characters holds it. -/
abbrev Utf16 := List CodeUnit

def CodeUnit.isHigh (c : CodeUnit) : Bool := 0xD800 ≤ c.val && c.val ≤ 0xDBFF

def CodeUnit.isLow (c : CodeUnit) : Bool := 0xDC00 ≤ c.val && c.val ≤ 0xDFFF

/-- The code units of a code point. -/
def unitsOf (c : ℕ) : Utf16 :=
  if c < 0x10000 then [Fin.ofNat _ c]
  else [Fin.ofNat _ (0xD800 + (c - 0x10000) / 0x400), Fin.ofNat _ (0xDC00 + (c - 0x10000) % 0x400)]

/-- A text without lone surrogates. -/
def utf16 (s : String) : Utf16 := s.toList.flatMap fun c => unitsOf c.toNat

namespace Utf16

/-- The code points of a text, if its surrogates are paired. -/
def codePoints : Utf16 → Option (List ℕ)
  | [] => some []
  | c :: rest =>
    if c.isHigh then
      match rest with
      | [] => none
      | d :: rest =>
        if d.isLow then (codePoints rest).map ((0x10000 + (c.val - 0xD800) * 0x400 + (d.val - 0xDC00)) :: ·) else none
    else if c.isLow then none
    else (codePoints rest).map (c.val :: ·)

/-- The bytes of a code point. -/
def utf8 (c : ℕ) : List ℕ :=
  if c < 0x80 then [c]
  else if c < 0x800 then [0xC0 + c / 0x40, 0x80 + c % 0x40]
  else if c < 0x10000 then [0xE0 + c / 0x1000, 0x80 + c / 0x40 % 0x40, 0x80 + c % 0x40]
  else [0xF0 + c / 0x40000, 0x80 + c / 0x1000 % 0x40, 0x80 + c / 0x40 % 0x40, 0x80 + c % 0x40]

/-- The strict UTF-8 encoding of a text. -/
def encode (s : Utf16) : Option (List ℕ) := (codePoints s).map (·.flatMap utf8)

/-- The surrogates of the text are paired. -/
def wellFormed (s : Utf16) : Bool := (codePoints s).isSome

theorem isSome_encode (s : Utf16) : (encode s).isSome = wellFormed s := by
  simp [encode, wellFormed]

/-! ## The encoding determines the text -/

theorem flatMap_unitsOf : ∀ {s : Utf16} {l : List ℕ}, codePoints s = some l → l.flatMap unitsOf = s
  | [], l, h => by
    obtain rfl := Option.some.inj h
    rfl
  | [c], l, h => by
    have hc := c.isLt
    simp only [codePoints] at h
    split at h
    · cases h
    split at h
    · cases h
    obtain rfl := Option.some.inj h
    simp [unitsOf, hc]
  | c :: d :: rest, l, h => by
    have hc := c.isLt
    have hd := d.isLt
    simp only [codePoints] at h
    split at h
    · rename_i hhigh
      split at h
      · rename_i hlow
        obtain ⟨l', hrest, rfl⟩ := Option.map_eq_some_iff.mp h
        simp only [CodeUnit.isHigh, CodeUnit.isLow, Bool.and_eq_true, decide_eq_true_eq] at hhigh hlow
        have hunits : unitsOf (0x10000 + (c.val - 0xD800) * 0x400 + (d.val - 0xDC00)) = [c, d] := by
          have hfirst : (0xD800 + (0x10000 + (c.val - 0xD800) * 0x400 + (d.val - 0xDC00) - 0x10000) / 0x400) % 0x10000 = c.val := by omega
          have hsecond : (0xDC00 + (0x10000 + (c.val - 0xD800) * 0x400 + (d.val - 0xDC00) - 0x10000) % 0x400) % 0x10000 = d.val := by omega
          rw [unitsOf, if_neg (by omega)]
          exact congrArg₂ (fun a b => [a, b]) (Fin.ext hfirst) (Fin.ext hsecond)
        rw [List.flatMap_cons, hunits, flatMap_unitsOf hrest]
        rfl
      · cases h
    · split at h
      · cases h
      obtain ⟨l', hrest, rfl⟩ := Option.map_eq_some_iff.mp h
      have hunits : unitsOf c.val = [c] := by simp [unitsOf, hc]
      rw [List.flatMap_cons, hunits, flatMap_unitsOf (s := d :: rest) hrest]
      rfl

theorem codePoints_lt : ∀ {s : Utf16} {l : List ℕ}, codePoints s = some l → ∀ c ∈ l, c < 0x110000
  | [], l, h => by
    obtain rfl := Option.some.inj h
    exact fun _ hc => nomatch hc
  | [c], l, h => by
    have hc := c.isLt
    simp only [codePoints] at h
    split at h
    · cases h
    split at h
    · cases h
    obtain rfl := Option.some.inj h
    simp
    omega
  | c :: d :: rest, l, h => by
    have hc := c.isLt
    simp only [codePoints] at h
    split at h
    · rename_i hhigh
      split at h
      · rename_i hlow
        obtain ⟨l', hrest, rfl⟩ := Option.map_eq_some_iff.mp h
        simp only [CodeUnit.isHigh, CodeUnit.isLow, Bool.and_eq_true, decide_eq_true_eq] at hhigh hlow
        rw [List.forall_mem_cons]
        exact ⟨by omega, codePoints_lt hrest⟩
      · cases h
    · split at h
      · cases h
      obtain ⟨l', hrest, rfl⟩ := Option.map_eq_some_iff.mp h
      rw [List.forall_mem_cons]
      exact ⟨by omega, codePoints_lt (s := d :: rest) hrest⟩

theorem utf8_cases (c : ℕ) (hc : c < 0x110000) : (c < 0x80 ∧ utf8 c = [c]) ∨
      (0x80 ≤ c ∧ c < 0x800 ∧ utf8 c = [0xC0 + c / 0x40, 0x80 + c % 0x40]) ∨
      (0x800 ≤ c ∧ c < 0x10000 ∧ utf8 c = [0xE0 + c / 0x1000, 0x80 + c / 0x40 % 0x40, 0x80 + c % 0x40]) ∨
      (0x10000 ≤ c ∧ c < 0x110000 ∧
        utf8 c = [0xF0 + c / 0x40000, 0x80 + c / 0x1000 % 0x40, 0x80 + c / 0x40 % 0x40, 0x80 + c % 0x40]) := by
  unfold utf8
  split
  · exact .inl ⟨‹_›, rfl⟩
  · split
    · exact .inr (.inl ⟨not_lt.mp ‹_›, ‹_›, rfl⟩)
    · split
      · exact .inr (.inr (.inl ⟨not_lt.mp ‹_›, ‹_›, rfl⟩))
      · exact .inr (.inr (.inr ⟨not_lt.mp ‹_›, hc, rfl⟩))

theorem utf8_append_inj {c d : ℕ} {r s : List ℕ} (hc : c < 0x110000) (hd : d < 0x110000) (h : utf8 c ++ r = utf8 d ++ s) : c = d ∧ r = s := by
  rcases utf8_cases c hc with ⟨hc, hce⟩ | ⟨hc, hc', hce⟩ | ⟨hc, hc', hce⟩ | ⟨hc, hc', hce⟩ <;>
    rcases utf8_cases d hd with ⟨hd, hde⟩ | ⟨hd, hd', hde⟩ | ⟨hd, hd', hde⟩ | ⟨hd, hd', hde⟩ <;>
    rw [hce, hde] at h <;> simp only [List.cons_append, List.nil_append, List.cons.injEq] at h
  -- only encodings of one length begin with one byte
  case inl.inl => exact h
  case inr.inl.inr.inl => exact ⟨by omega, h.2.2⟩
  case inr.inr.inl.inr.inr.inl => exact ⟨by omega, h.2.2.2⟩
  case inr.inr.inr.inr.inr.inr => exact ⟨by omega, h.2.2.2.2⟩
  all_goals exact absurd h.1 (by omega)

theorem utf8_ne_nil (c : ℕ) : utf8 c ≠ [] := by
  unfold utf8
  split <;> (try split) <;> (try split) <;> simp

theorem flatMap_utf8_inj : ∀ {l m : List ℕ}, (∀ c ∈ l, c < 0x110000) → (∀ c ∈ m, c < 0x110000) → l.flatMap utf8 = m.flatMap utf8 → l = m
  | [], [], _, _, _ => rfl
  | [], d :: m, _, _, h => by
    rw [List.flatMap_cons] at h
    exact absurd (List.append_eq_nil_iff.mp h.symm).1 (utf8_ne_nil d)
  | c :: l, [], _, _, h => by
    rw [List.flatMap_cons] at h
    exact absurd (List.append_eq_nil_iff.mp h).1 (utf8_ne_nil c)
  | c :: l, d :: m, hl, hm, h => by
    rw [List.flatMap_cons, List.flatMap_cons] at h
    obtain ⟨rfl, hrest⟩ := utf8_append_inj (hl c (List.mem_cons_self ..)) (hm d (List.mem_cons_self ..)) h
    rw [flatMap_utf8_inj (fun c hc => hl c (List.mem_cons_of_mem _ hc)) (fun c hc => hm c (List.mem_cons_of_mem _ hc)) hrest]

theorem encode_inj {s t : Utf16} {bytes : List ℕ} (hs : encode s = some bytes) (ht : encode t = some bytes) : s = t := by
  obtain ⟨l, hl, hbytes⟩ := Option.map_eq_some_iff.mp hs
  obtain ⟨m, hm, hbytes'⟩ := Option.map_eq_some_iff.mp ht
  obtain rfl := flatMap_utf8_inj (codePoints_lt hl) (codePoints_lt hm) (hbytes.trans hbytes'.symm)
  rw [← flatMap_unitsOf hl, flatMap_unitsOf hm]

/-! ## Well-formed texts -/

theorem codePoints_cons {c : CodeUnit} {t : Utf16} (hhigh : c.isHigh = false) (hlow : c.isLow = false) :
    codePoints (c :: t) = (codePoints t).map (c.val :: ·) := by
  cases t <;> simp [codePoints, hhigh, hlow]

theorem encode_cons {c : CodeUnit} {t : Utf16} (hhigh : c.isHigh = false) (hlow : c.isLow = false) :
    encode (c :: t) = (encode t).map (utf8 c.val ++ ·) := by
  rw [encode, codePoints_cons hhigh hlow, encode]
  cases codePoints t <;> rfl

theorem encode_pair {c d : CodeUnit} {t : Utf16} (hhigh : c.isHigh = true) (hlow : d.isLow = true) :
    encode (c :: d :: t) = (encode t).map (utf8 (0x10000 + (c.val - 0xD800) * 0x400 + (d.val - 0xDC00)) ++ ·) := by
  have hpoints : codePoints (c :: d :: t) = (codePoints t).map ((0x10000 + (c.val - 0xD800) * 0x400 + (d.val - 0xDC00)) :: ·) := by
    simp only [codePoints, hhigh, hlow, if_true]
  simp only [encode, hpoints, Option.map_map, Function.comp_def, List.flatMap_cons]

end Utf16

end Lib
