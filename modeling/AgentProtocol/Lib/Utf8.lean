-- SUMMARY: Well-formed UTF-8: the table of byte sequences, the bytes of characters, and the UTF-16 texts that they encode.
import AgentProtocol.Lib.Utf16

/-!
# UTF-8

The table of well-formed sequences (RFC 3629) lists the encodings of the Unicode characters, each in its shortest form. A
UTF-16 text has an encoding exactly if it is made of characters, and the encoding is then the bytes of those.
-/

namespace Lib

namespace Utf8

/-! ## The table -/

/-- `UTF8-tail`. -/
def Tail (b : ℕ) : Prop := 0x80 ≤ b ∧ b ≤ 0xBF

/-- A row of the table: the first and the second byte are in a range, and a number of tails follows. -/
structure Row where
  lead : ℕ × ℕ
  second : ℕ × ℕ
  tails : ℕ

def table : List Row :=
  [⟨(0xC2, 0xDF), (0x80, 0xBF), 0⟩,
    ⟨(0xE0, 0xE0), (0xA0, 0xBF), 1⟩, ⟨(0xE1, 0xEC), (0x80, 0xBF), 1⟩, ⟨(0xED, 0xED), (0x80, 0x9F), 1⟩, ⟨(0xEE, 0xEF), (0x80, 0xBF), 1⟩,
    ⟨(0xF0, 0xF0), (0x90, 0xBF), 2⟩, ⟨(0xF1, 0xF3), (0x80, 0xBF), 2⟩, ⟨(0xF4, 0xF4), (0x80, 0x8F), 2⟩]

def Row.Matches (row : Row) : List ℕ → Prop
  | b :: x :: rest => (row.lead.1 ≤ b ∧ b ≤ row.lead.2) ∧ (row.second.1 ≤ x ∧ x ≤ row.second.2) ∧ rest.length = row.tails ∧ ∀ t ∈ rest, Tail t
  | _ => False

/-- The bytes are one `UTF8-char`. -/
def InTable (bytes : List ℕ) : Prop := (∃ b ≤ 0x7F, bytes = [b]) ∨ ∃ row ∈ table, row.Matches bytes

/-- The bytes are a sequence of them. -/
def WellFormed (bytes : List ℕ) : Prop := ∃ chars : List (List ℕ), (∀ ch ∈ chars, InTable ch) ∧ bytes = chars.flatten

/-! ## Characters -/

theorem exists_char {n : ℕ} (h : n < 0x110000) (hscalar : ¬(0xD800 ≤ n ∧ n ≤ 0xDFFF)) : ∃ c : Char, c.toNat = n := by
  have hvalid : n.isValidChar := by
    rw [Nat.isValidChar]
    omega
  refine ⟨Char.ofNat n, ?_⟩
  rw [Char.ofNat, dif_pos hvalid]
  rfl

theorem toNat_scalar (c : Char) : c.toNat < 0x110000 ∧ ¬(0xD800 ≤ c.toNat ∧ c.toNat ≤ 0xDFFF) := by
  have hvalid : c.toNat.isValidChar := c.valid
  rw [Nat.isValidChar] at hvalid
  omega

theorem exists_char_one {b : ℕ} (h : b < 0x80) : ∃ c : Char, c.toNat = b ∧ Utf16.utf8 c.toNat = [b] := by
  obtain ⟨c, hc⟩ := exists_char (n := b) (by omega) (by omega)
  refine ⟨c, hc, ?_⟩
  rw [hc, Utf16.utf8, if_pos h]

theorem exists_char_two {b x : ℕ} (hb : 0xC0 ≤ b ∧ b < 0xE0) (hx : Tail x) (hlong : 0x80 ≤ (b - 0xC0) * 0x40 + (x - 0x80)) :
    ∃ c : Char, c.toNat = (b - 0xC0) * 0x40 + (x - 0x80) ∧ Utf16.utf8 c.toNat = [b, x] := by
  unfold Tail at hx
  obtain ⟨c, hc⟩ := exists_char (n := (b - 0xC0) * 0x40 + (x - 0x80)) (by omega) (by omega)
  refine ⟨c, hc, ?_⟩
  have hlead : 0xC0 + ((b - 0xC0) * 0x40 + (x - 0x80)) / 0x40 = b := by omega
  have hsecond : 0x80 + ((b - 0xC0) * 0x40 + (x - 0x80)) % 0x40 = x := by omega
  rw [hc, Utf16.utf8, if_neg (by omega), if_pos (by omega), hlead, hsecond]

theorem exists_char_three {b x y : ℕ} (hb : 0xE0 ≤ b ∧ b < 0xF0) (hx : Tail x) (hy : Tail y)
    (hlong : 0x800 ≤ (b - 0xE0) * 0x1000 + (x - 0x80) * 0x40 + (y - 0x80))
    (hscalar : ¬(0xD800 ≤ (b - 0xE0) * 0x1000 + (x - 0x80) * 0x40 + (y - 0x80) ∧ (b - 0xE0) * 0x1000 + (x - 0x80) * 0x40 + (y - 0x80) ≤ 0xDFFF)) :
    ∃ c : Char, c.toNat = (b - 0xE0) * 0x1000 + (x - 0x80) * 0x40 + (y - 0x80) ∧ Utf16.utf8 c.toNat = [b, x, y] := by
  unfold Tail at hx hy
  obtain ⟨c, hc⟩ := exists_char (n := (b - 0xE0) * 0x1000 + (x - 0x80) * 0x40 + (y - 0x80)) (by omega) hscalar
  refine ⟨c, hc, ?_⟩
  have hlead : 0xE0 + ((b - 0xE0) * 0x1000 + (x - 0x80) * 0x40 + (y - 0x80)) / 0x1000 = b := by omega
  have hsecond : 0x80 + ((b - 0xE0) * 0x1000 + (x - 0x80) * 0x40 + (y - 0x80)) / 0x40 % 0x40 = x := by omega
  have hthird : 0x80 + ((b - 0xE0) * 0x1000 + (x - 0x80) * 0x40 + (y - 0x80)) % 0x40 = y := by omega
  rw [hc, Utf16.utf8, if_neg (by omega), if_neg (by omega), if_pos (by omega), hlead, hsecond, hthird]

theorem exists_char_four {b x y z : ℕ} (hb : 0xF0 ≤ b) (hx : Tail x) (hy : Tail y) (hz : Tail z)
    (hlong : 0x10000 ≤ (b - 0xF0) * 0x40000 + (x - 0x80) * 0x1000 + (y - 0x80) * 0x40 + (z - 0x80))
    (hrange : (b - 0xF0) * 0x40000 + (x - 0x80) * 0x1000 + (y - 0x80) * 0x40 + (z - 0x80) < 0x110000) :
    ∃ c : Char, c.toNat = (b - 0xF0) * 0x40000 + (x - 0x80) * 0x1000 + (y - 0x80) * 0x40 + (z - 0x80) ∧ Utf16.utf8 c.toNat = [b, x, y, z] := by
  unfold Tail at hx hy hz
  obtain ⟨c, hc⟩ := exists_char hrange (by omega)
  refine ⟨c, hc, ?_⟩
  have hlead : 0xF0 + ((b - 0xF0) * 0x40000 + (x - 0x80) * 0x1000 + (y - 0x80) * 0x40 + (z - 0x80)) / 0x40000 = b := by omega
  have hsecond : 0x80 + ((b - 0xF0) * 0x40000 + (x - 0x80) * 0x1000 + (y - 0x80) * 0x40 + (z - 0x80)) / 0x1000 % 0x40 = x := by omega
  have hthird : 0x80 + ((b - 0xF0) * 0x40000 + (x - 0x80) * 0x1000 + (y - 0x80) * 0x40 + (z - 0x80)) / 0x40 % 0x40 = y := by omega
  have hfourth : 0x80 + ((b - 0xF0) * 0x40000 + (x - 0x80) * 0x1000 + (y - 0x80) * 0x40 + (z - 0x80)) % 0x40 = z := by omega
  rw [hc, Utf16.utf8, if_neg (by omega), if_neg (by omega), if_neg (by omega), hlead, hsecond, hthird, hfourth]

theorem inTable_utf8 (c : Char) : InTable (Utf16.utf8 c.toNat) := by
  obtain ⟨hlt, hscalar⟩ := toNat_scalar c
  generalize c.toNat = n at hlt hscalar
  -- in each length the lead byte picks the row
  have hrow : ∀ row ∈ table, row.Matches (Utf16.utf8 n) → InTable (Utf16.utf8 n) := fun row hrow hmatches => .inr ⟨row, hrow, hmatches⟩
  rcases Utf16.utf8_cases n hlt with ⟨hn, hutf8⟩ | ⟨hn, hn', hutf8⟩ | ⟨hn, hn', hutf8⟩ | ⟨hn, hn', hutf8⟩
  · exact .inl ⟨n, by omega, hutf8⟩
  · refine hrow ⟨(0xC2, 0xDF), (0x80, 0xBF), 0⟩ (by simp [table]) ?_
    rw [hutf8]
    have hlead : 0xC2 ≤ 0xC0 + n / 0x40 ∧ 0xC0 + n / 0x40 ≤ 0xDF := by omega
    have hsecond : 0x80 ≤ 0x80 + n % 0x40 ∧ 0x80 + n % 0x40 ≤ 0xBF := by omega
    exact ⟨hlead, hsecond, rfl, by simp⟩
  · have hrows : ∀ low high low' high' : ℕ, ⟨(low, high), (low', high'), 1⟩ ∈ table → low ≤ 0xE0 + n / 0x1000 ∧ 0xE0 + n / 0x1000 ≤ high →
        low' ≤ 0x80 + n / 0x40 % 0x40 ∧ 0x80 + n / 0x40 % 0x40 ≤ high' → InTable (Utf16.utf8 n) := by
      intro low high low' high' hmem hlead hsecond
      refine hrow _ hmem ?_
      rw [hutf8]
      refine ⟨hlead, hsecond, rfl, ?_⟩
      simp only [List.mem_singleton, forall_eq]
      exact ⟨by omega, by omega⟩
    rcases Nat.lt_or_ge n 0x1000 with h1 | h1
    · exact hrows 0xE0 0xE0 0xA0 0xBF (by simp [table]) ⟨by omega, by omega⟩ ⟨by omega, by omega⟩
    · rcases Nat.lt_or_ge n 0xD000 with h2 | h2
      · exact hrows 0xE1 0xEC 0x80 0xBF (by simp [table]) ⟨by omega, by omega⟩ ⟨by omega, by omega⟩
      · rcases Nat.lt_or_ge n 0xE000 with h3 | h3
        · exact hrows 0xED 0xED 0x80 0x9F (by simp [table]) ⟨by omega, by omega⟩ ⟨by omega, by omega⟩
        · exact hrows 0xEE 0xEF 0x80 0xBF (by simp [table]) ⟨by omega, by omega⟩ ⟨by omega, by omega⟩
  · have hrows : ∀ low high low' high' : ℕ, ⟨(low, high), (low', high'), 2⟩ ∈ table → low ≤ 0xF0 + n / 0x40000 ∧ 0xF0 + n / 0x40000 ≤ high →
        low' ≤ 0x80 + n / 0x1000 % 0x40 ∧ 0x80 + n / 0x1000 % 0x40 ≤ high' → InTable (Utf16.utf8 n) := by
      intro low high low' high' hmem hlead hsecond
      refine hrow _ hmem ?_
      rw [hutf8]
      refine ⟨hlead, hsecond, rfl, ?_⟩
      simp only [List.mem_cons, List.not_mem_nil, or_false, forall_eq_or_imp, forall_eq]
      exact ⟨⟨by omega, by omega⟩, ⟨by omega, by omega⟩⟩
    rcases Nat.lt_or_ge n 0x40000 with h1 | h1
    · exact hrows 0xF0 0xF0 0x90 0xBF (by simp [table]) ⟨by omega, by omega⟩ ⟨by omega, by omega⟩
    · rcases Nat.lt_or_ge n 0x100000 with h2 | h2
      · exact hrows 0xF1 0xF3 0x80 0xBF (by simp [table]) ⟨by omega, by omega⟩ ⟨by omega, by omega⟩
      · exact hrows 0xF4 0xF4 0x80 0x8F (by simp [table]) ⟨by omega, by omega⟩ ⟨by omega, by omega⟩

theorem exists_char_of_inTable {bytes : List ℕ} (h : InTable bytes) : ∃ c : Char, Utf16.utf8 c.toNat = bytes := by
  rcases h with ⟨b, hb, rfl⟩ | ⟨row, hrow, hmatches⟩
  · obtain ⟨c, -, hc⟩ := exists_char_one (b := b) (by omega)
    exact ⟨c, hc⟩
  · match bytes, hmatches with
    | b :: x :: rest, ⟨hlead, hsecond, htails, hrest⟩ =>
      have htwo : rest.length = 0 → 0xC2 ≤ b → b ≤ 0xDF → Tail x → ∃ c : Char, Utf16.utf8 c.toNat = b :: x :: rest := by
        intro hlen hb hb' hx
        obtain rfl := List.eq_nil_of_length_eq_zero hlen
        obtain ⟨c, -, hc⟩ := exists_char_two (b := b) ⟨by omega, by omega⟩ hx (by omega)
        exact ⟨c, hc⟩
      have hthree : rest.length = 1 → 0xE0 ≤ b → b < 0xF0 → Tail x → (b = 0xE0 → 0xA0 ≤ x) → (b = 0xED → x ≤ 0x9F) →
          ∃ c : Char, Utf16.utf8 c.toNat = b :: x :: rest := by
        intro hlen hb hb' hx hlow hhigh
        obtain ⟨y, rfl⟩ := List.length_eq_one_iff.mp hlen
        have hy := hrest y List.mem_cons_self
        have hy' : 0x80 ≤ y ∧ y ≤ 0xBF := hy
        have hx' : 0x80 ≤ x ∧ x ≤ 0xBF := hx
        obtain ⟨c, -, hc⟩ := exists_char_three (b := b) ⟨hb, hb'⟩ hx hy (by omega) (by omega)
        exact ⟨c, hc⟩
      have hfour : rest.length = 2 → 0xF0 ≤ b → b ≤ 0xF4 → Tail x → (b = 0xF0 → 0x90 ≤ x) → (b = 0xF4 → x ≤ 0x8F) →
          ∃ c : Char, Utf16.utf8 c.toNat = b :: x :: rest := by
        intro hlen hb hb' hx hlow hhigh
        obtain ⟨y, z, rfl⟩ := List.length_eq_two.mp hlen
        have hy := hrest y List.mem_cons_self
        have hz := hrest z (List.mem_cons_of_mem _ List.mem_cons_self)
        have hy' : 0x80 ≤ y ∧ y ≤ 0xBF := hy
        have hz' : 0x80 ≤ z ∧ z ≤ 0xBF := hz
        have hx' : 0x80 ≤ x ∧ x ≤ 0xBF := hx
        obtain ⟨c, -, hc⟩ := exists_char_four (b := b) hb hx hy hz (by omega) (by omega)
        exact ⟨c, hc⟩
      simp only [table, List.mem_cons, List.not_mem_nil, or_false] at hrow
      rcases hrow with rfl | rfl | rfl | rfl | rfl | rfl | rfl | rfl
      all_goals dsimp only at hlead hsecond htails
      · exact htwo htails hlead.1 hlead.2 hsecond
      · exact hthree htails (by omega) (by omega) ⟨by omega, by omega⟩ (by omega) (by omega)
      · exact hthree htails (by omega) (by omega) ⟨by omega, by omega⟩ (by omega) (by omega)
      · exact hthree htails (by omega) (by omega) ⟨by omega, by omega⟩ (by omega) (by omega)
      · exact hthree htails (by omega) (by omega) ⟨by omega, by omega⟩ (by omega) (by omega)
      · exact hfour htails (by omega) (by omega) ⟨by omega, by omega⟩ (by omega) (by omega)
      · exact hfour htails (by omega) (by omega) ⟨by omega, by omega⟩ (by omega) (by omega)
      · exact hfour htails (by omega) (by omega) ⟨by omega, by omega⟩ (by omega) (by omega)

/-! ## Texts -/

/-- The bytes of a text. -/
def bytesOf (text : List Char) : List ℕ := text.flatMap fun c => Utf16.utf8 c.toNat

/-- The code units of a text. -/
def units (text : List Char) : Utf16 := text.flatMap fun c => unitsOf c.toNat

theorem bytesOf_cons (c : Char) (text : List Char) : bytesOf (c :: text) = Utf16.utf8 c.toNat ++ bytesOf text := List.flatMap_cons

theorem units_cons (c : Char) (text : List Char) : units (c :: text) = unitsOf c.toNat ++ units text := List.flatMap_cons

theorem wellFormed_iff {bytes : List ℕ} : WellFormed bytes ↔ ∃ text : List Char, bytesOf text = bytes := by
  constructor
  · rintro ⟨chars, hchars, rfl⟩
    induction chars with
    | nil => exact ⟨[], rfl⟩
    | cons ch chars ih =>
      obtain ⟨c, hc⟩ := exists_char_of_inTable (hchars ch List.mem_cons_self)
      obtain ⟨text, htext⟩ := ih fun ch hch => hchars ch (List.mem_cons_of_mem _ hch)
      exact ⟨c :: text, by rw [bytesOf_cons, hc, htext, List.flatten_cons]⟩
  · rintro ⟨text, rfl⟩
    refine ⟨text.map fun c => Utf16.utf8 c.toNat, ?_, by rw [bytesOf, List.flatMap_def]⟩
    intro ch hch
    obtain ⟨c, -, rfl⟩ := List.mem_map.mp hch
    exact inTable_utf8 c

theorem isHigh_iff {c : CodeUnit} : c.isHigh = true ↔ 0xD800 ≤ c.val ∧ c.val ≤ 0xDBFF := by simp [CodeUnit.isHigh]

theorem isLow_iff {c : CodeUnit} : c.isLow = true ↔ 0xDC00 ≤ c.val ∧ c.val ≤ 0xDFFF := by simp [CodeUnit.isLow]

theorem encode_units (text : List Char) : Utf16.encode (units text) = some (bytesOf text) := by
  induction text with
  | nil => rfl
  | cons c text ih =>
    obtain ⟨hlt, hscalar⟩ := toNat_scalar c
    rw [units_cons, bytesOf_cons]
    generalize c.toNat = n at hlt hscalar
    rcases Nat.lt_or_ge n 0x10000 with hn | hn
    · have hunits : unitsOf n = [⟨n, hn⟩] := by
        rw [unitsOf, if_pos hn]
        exact congrArg (fun c => [c]) (Fin.ext (Nat.mod_eq_of_lt hn))
      rw [hunits, List.singleton_append, Utf16.encode_cons, ih]
      · rfl
      · exact Bool.eq_false_iff.mpr fun h => hscalar ⟨(isHigh_iff.mp h).1, by have := (isHigh_iff.mp h).2; dsimp only at this; omega⟩
      · exact Bool.eq_false_iff.mpr fun h => hscalar ⟨by have := (isLow_iff.mp h).1; dsimp only at this; omega, (isLow_iff.mp h).2⟩
    · have hhigh : 0xD800 + (n - 0x10000) / 0x400 < 0x10000 := by omega
      have hlow : 0xDC00 + (n - 0x10000) % 0x400 < 0x10000 := by omega
      have hunits : unitsOf n = [⟨_, hhigh⟩, ⟨_, hlow⟩] := by
        rw [unitsOf, if_neg (by omega)]
        exact congrArg₂ (fun c d => [c, d]) (Fin.ext (Nat.mod_eq_of_lt hhigh)) (Fin.ext (Nat.mod_eq_of_lt hlow))
      have hpoint : 0x10000 + (0xD800 + (n - 0x10000) / 0x400 - 0xD800) * 0x400 + (0xDC00 + (n - 0x10000) % 0x400 - 0xDC00) = n := by omega
      rw [hunits, List.cons_append, List.singleton_append, Utf16.encode_pair, ih]
      · dsimp only
        rw [hpoint]
        rfl
      · exact isHigh_iff.mpr ⟨by dsimp only; omega, by dsimp only; omega⟩
      · exact isLow_iff.mpr ⟨by dsimp only; omega, by dsimp only; omega⟩

theorem codePoints_scalar {s : Utf16} {l : List ℕ} (h : Utf16.codePoints s = some l) : ∀ c ∈ l, ¬(0xD800 ≤ c ∧ c ≤ 0xDFFF) := by
  cases s with
  | nil =>
    obtain rfl := Option.some.inj h
    intro _ hc
    cases hc
  | cons c t =>
    cases t with
    | nil =>
      simp only [Utf16.codePoints] at h
      split at h
      · cases h
      split at h
      · cases h
      rename_i hhigh hlow
      obtain rfl := Option.some.inj h
      rw [isHigh_iff] at hhigh
      rw [isLow_iff] at hlow
      simp
      omega
    | cons d rest =>
      simp only [Utf16.codePoints] at h
      split at h
      · split at h
        · obtain ⟨l', hrest, rfl⟩ := Option.map_eq_some_iff.mp h
          rw [List.forall_mem_cons]
          exact ⟨by omega, codePoints_scalar hrest⟩
        · cases h
      · split at h
        · cases h
        rename_i hhigh hlow
        obtain ⟨l', hrest, rfl⟩ := Option.map_eq_some_iff.mp h
        rw [isHigh_iff] at hhigh
        rw [isLow_iff] at hlow
        rw [List.forall_mem_cons]
        exact ⟨by omega, codePoints_scalar (s := d :: rest) hrest⟩

theorem exists_units {s : Utf16} (h : s.wellFormed = true) : ∃ text : List Char, units text = s := by
  obtain ⟨l, hl⟩ := Option.isSome_iff_exists.mp h
  have hchars : ∀ {l : List ℕ}, (∀ c ∈ l, c < 0x110000) → (∀ c ∈ l, ¬(0xD800 ≤ c ∧ c ≤ 0xDFFF)) → ∃ text : List Char, text.map Char.toNat = l := by
    intro l hlt hscalar
    induction l with
    | nil => exact ⟨[], rfl⟩
    | cons n l ih =>
      obtain ⟨c, hc⟩ := exists_char (hlt n List.mem_cons_self) (hscalar n List.mem_cons_self)
      obtain ⟨text, htext⟩ := ih (fun c hc => hlt c (List.mem_cons_of_mem _ hc)) (fun c hc => hscalar c (List.mem_cons_of_mem _ hc))
      exact ⟨c :: text, by rw [List.map_cons, hc, htext]⟩
  obtain ⟨text, rfl⟩ := hchars (Utf16.codePoints_lt hl) (codePoints_scalar hl)
  refine ⟨text, ?_⟩
  rw [← Utf16.flatMap_unitsOf hl, List.flatMap_map]
  rfl

end Utf8

end Lib
