-- SUMMARY: The ArkTS SDK's UTF-8 decoder, which byte arrays it accepts, and its round trips with the encoder.
import AgentProtocol.Sdk.Canonical
import AgentProtocol.Lib.Except
import AgentProtocol.Lib.Utf8

/-!
# UTF-8 in ArkTS

The decoder masks a lead byte with the bits that its sequence has. A lead byte from 0xF8 on is masked like one of a
four-byte sequence, so that it is read as the byte without bit 3; `cleared` is the array that is read.
-/

namespace AgentProtocol.Sdk

open Lib

namespace ArkTs

/-! ## The decoder -/

/-- `readContinuation`: the bits of the byte at an index, and what follows it. -/
def readContinuation (i : ℕ) : List UInt8 → Except String (ℕ × List UInt8)
  | [] => .error "Truncated UTF-8 sequence"
  | b :: rest =>
    if b.toNat &&& 0xC0 ≠ 0x80 then .error ("Invalid UTF-8 continuation byte at index " ++ toString i)
    else .ok (b.toNat &&& 0x3F, rest)

/-- A turn of the loop of `decodeUtf8` at an index: what is added to the text, and the bytes that are left. -/
def decodeStep (i : ℕ) (byte : UInt8) (rest : List UInt8) : Except String (Utf16 × List UInt8) :=
  let b := byte.toNat
  if b < 0x80 then .ok ([Fin.ofNat _ b], rest)
  else if b < 0xC0 then .error ("Unexpected UTF-8 continuation byte at index " ++ toString i)
  else if b < 0xE0 then do
    let (x, rest) ← readContinuation (i + 1) rest
    let c := (b &&& 0x1F) <<< 6 ||| x
    if c < 0x80 then .error ("Overlong UTF-8 encoding at index " ++ toString i)
    else .ok ([Fin.ofNat _ c], rest)
  else if b < 0xF0 then do
    let (x, rest) ← readContinuation (i + 1) rest
    let (y, rest) ← readContinuation (i + 2) rest
    let c := (b &&& 0x0F) <<< 12 ||| x <<< 6 ||| y
    if c < 0x800 then .error ("Overlong UTF-8 encoding at index " ++ toString i)
    else if 0xD800 ≤ c ∧ c ≤ 0xDFFF then .error ("UTF-8-encoded surrogate code point at index " ++ toString i)
    else .ok ([Fin.ofNat _ c], rest)
  else do
    let (x, rest) ← readContinuation (i + 1) rest
    let (y, rest) ← readContinuation (i + 2) rest
    let (z, rest) ← readContinuation (i + 3) rest
    let c := (b &&& 0x07) <<< 18 ||| x <<< 12 ||| y <<< 6 ||| z
    if c < 0x10000 ∨ c > 0x10FFFF then .error ("Overlong or out-of-range UTF-8 encoding at index " ++ toString i)
    else
      let offset := c - 0x10000
      .ok ([Fin.ofNat _ (0xD800 + offset >>> 10), Fin.ofNat _ (0xDC00 + (offset &&& 0x3FF))], rest)

/-- A byte as the decoder takes it for the first of a sequence. -/
def clear (b : UInt8) : ℕ := if 0xF8 ≤ b.toNat then b.toNat - 8 else b.toNat

def cleared (bytes : List UInt8) : List ℕ := bytes.map clear

/-! ## Bits -/

theorem or_shift {a x : ℕ} (hx : x < 0x40) : a <<< 6 ||| x = a * 0x40 + x := by
  rw [← Nat.shiftLeft_add_eq_or_of_lt (i := 6) hx, Nat.shiftLeft_eq]

theorem or_shift_two {a x y : ℕ} (hx : x < 0x40) (hy : y < 0x40) : a <<< 12 ||| x <<< 6 ||| y = a * 0x1000 + x * 0x40 + y := by
  have hshift : a <<< 12 ||| x <<< 6 = (a <<< 6 ||| x) <<< 6 := by rw [Nat.shiftLeft_or_distrib, ← Nat.shiftLeft_add]
  rw [hshift, or_shift hy, or_shift hx]
  omega

theorem or_shift_three {a x y z : ℕ} (hx : x < 0x40) (hy : y < 0x40) (hz : z < 0x40) :
    a <<< 18 ||| x <<< 12 ||| y <<< 6 ||| z = a * 0x40000 + x * 0x1000 + y * 0x40 + z := by
  have hshift : a <<< 18 ||| x <<< 12 ||| y <<< 6 = (a <<< 12 ||| x <<< 6 ||| y) <<< 6 := by
    rw [Nat.shiftLeft_or_distrib, Nat.shiftLeft_or_distrib, ← Nat.shiftLeft_add, ← Nat.shiftLeft_add]
  rw [hshift, or_shift hz, or_shift_two hx hy]
  omega

theorem isTail_iff (b : UInt8) : b.toNat &&& 0xC0 = 0x80 ↔ Utf8.Tail b.toNat := by
  have hall : ∀ n < 0x100, n &&& 0xC0 = 0x80 ↔ 0x80 ≤ n ∧ n ≤ 0xBF := by decide +kernel
  exact hall b.toNat b.toNat_lt

theorem readContinuation_eq_ok {i x : ℕ} {bytes rest : List UInt8} :
    readContinuation i bytes = .ok (x, rest) ↔ ∃ b, bytes = b :: rest ∧ Utf8.Tail b.toNat ∧ x = b.toNat - 0x80 := by
  cases bytes with
  | nil => simp [readContinuation]
  | cons b bytes =>
    have hbits : Utf8.Tail b.toNat → b.toNat &&& 0x3F = b.toNat - 0x80 := by
      intro htail
      unfold Utf8.Tail at htail
      have hmod : b.toNat &&& 0x3F = b.toNat % 0x40 := Nat.and_two_pow_sub_one_eq_mod _ 6
      omega
    unfold readContinuation
    dsimp only
    split
    · rename_i hno
      refine iff_of_false (fun h => nomatch h) ?_
      rintro ⟨b', heq, htail, -⟩
      obtain ⟨rfl, rfl⟩ := List.cons.inj heq
      exact hno ((isTail_iff b).mpr htail)
    · rename_i htail
      have htail' := (isTail_iff b).mp (not_not.mp htail)
      rw [hbits htail']
      constructor
      · intro h
        obtain ⟨hx, rfl⟩ := Prod.mk.inj (Except.ok.inj h)
        exact ⟨b, rfl, htail', hx.symm⟩
      · rintro ⟨b', heq, -, hx⟩
        obtain ⟨rfl, rfl⟩ := List.cons.inj heq
        rw [hx]

/-! ## A turn of the loop -/

variable {b : UInt8}

theorem clear_of_lt (h : b.toNat < 0xF0) : clear b = b.toNat := if_neg (by omega)

variable {n : ℕ}

theorem clear_eq_iff (h : n < 0xF0) : clear b = n ↔ b.toNat = n := by
  unfold clear
  split <;> omega

theorem cleared_cons (b : UInt8) (bytes : List UInt8) : cleared (b :: bytes) = clear b :: cleared bytes := rfl

theorem Tail.clear (h : Utf8.Tail b.toNat) : ArkTs.clear b = b.toNat := clear_of_lt (by have := h.2; omega)

theorem unitsOf_of_lt (h : n < 0x10000) : unitsOf n = [Fin.ofNat _ n] := if_pos h

variable {rest rest' : List UInt8} {units : Utf16} {i : ℕ}

theorem decodeStep_eq_ok (h : decodeStep i b rest = .ok (units, rest')) :
    ∃ c : Char, units = unitsOf c.toNat ∧ cleared (b :: rest) = Utf16.utf8 c.toNat ++ cleared rest' := by
  have hb := b.toNat_lt
  unfold decodeStep at h
  dsimp only at h
  split at h
  · rename_i hone
    obtain ⟨rfl, rfl⟩ := Prod.mk.inj (Except.ok.inj h)
    obtain ⟨c, hc, hutf8⟩ := Utf8.exists_char_one hone
    refine ⟨c, by rw [hc, unitsOf_of_lt (by omega)], ?_⟩
    rw [hutf8, cleared_cons, clear_of_lt (by omega)]
    rfl
  · split at h
    · cases h
    split at h
    · rename_i htwo
      obtain ⟨⟨x', rest₁⟩, hx, h₁⟩ := bind_eq_ok.mp h
      obtain ⟨x, rfl, hxtail, hxval⟩ := readContinuation_eq_ok.mp hx
      have hx' : 0x80 ≤ x.toNat ∧ x.toNat ≤ 0xBF := hxtail
      have hmask : b.toNat &&& 0x1F = b.toNat - 0xC0 := by
        have hmod : b.toNat &&& 0x1F = b.toNat % 0x20 := Nat.and_two_pow_sub_one_eq_mod _ 5
        omega
      simp only [hxval, hmask, or_shift (show x.toNat - 0x80 < 0x40 by omega)] at h₁
      split at h₁
      · cases h₁
      obtain ⟨rfl, rfl⟩ := Prod.mk.inj (Except.ok.inj h₁)
      obtain ⟨c, hc, hutf8⟩ := Utf8.exists_char_two (b := b.toNat) (x := x.toNat) ⟨by omega, by omega⟩ hxtail (by omega)
      refine ⟨c, by rw [hc, unitsOf_of_lt (by omega)], ?_⟩
      rw [hutf8, cleared_cons, cleared_cons, clear_of_lt (by omega), Tail.clear hxtail]
      rfl
    · split at h
      · rename_i hthree
        obtain ⟨⟨x', rest₁⟩, hx, h₁⟩ := bind_eq_ok.mp h
        obtain ⟨x, rfl, hxtail, hxval⟩ := readContinuation_eq_ok.mp hx
        obtain ⟨⟨y', rest₂⟩, hy, h₂⟩ := bind_eq_ok.mp h₁
        obtain ⟨y, rfl, hytail, hyval⟩ := readContinuation_eq_ok.mp hy
        have hx' : 0x80 ≤ x.toNat ∧ x.toNat ≤ 0xBF := hxtail
        have hy' : 0x80 ≤ y.toNat ∧ y.toNat ≤ 0xBF := hytail
        have hmask : b.toNat &&& 0x0F = b.toNat - 0xE0 := by
          have hmod : b.toNat &&& 0x0F = b.toNat % 0x10 := Nat.and_two_pow_sub_one_eq_mod _ 4
          omega
        simp only [hxval, hyval, hmask, or_shift_two (show x.toNat - 0x80 < 0x40 by omega) (show y.toNat - 0x80 < 0x40 by omega)] at h₂
        split at h₂
        · cases h₂
        split at h₂
        · cases h₂
        rename_i hlong hscalar
        obtain ⟨rfl, rfl⟩ := Prod.mk.inj (Except.ok.inj h₂)
        obtain ⟨c, hc, hutf8⟩ := Utf8.exists_char_three (b := b.toNat) (x := x.toNat) (y := y.toNat) ⟨by omega, by omega⟩ hxtail
          hytail (by omega) hscalar
        refine ⟨c, by rw [hc, unitsOf_of_lt (by omega)], ?_⟩
        rw [hutf8, cleared_cons, cleared_cons, cleared_cons, clear_of_lt (by omega), Tail.clear hxtail, Tail.clear hytail]
        rfl
      · obtain ⟨⟨x', rest₁⟩, hx, h₁⟩ := bind_eq_ok.mp h
        obtain ⟨x, rfl, hxtail, hxval⟩ := readContinuation_eq_ok.mp hx
        obtain ⟨⟨y', rest₂⟩, hy, h₂⟩ := bind_eq_ok.mp h₁
        obtain ⟨y, rfl, hytail, hyval⟩ := readContinuation_eq_ok.mp hy
        obtain ⟨⟨z', rest₃⟩, hz, h₃⟩ := bind_eq_ok.mp h₂
        obtain ⟨z, rfl, hztail, hzval⟩ := readContinuation_eq_ok.mp hz
        have hx' : 0x80 ≤ x.toNat ∧ x.toNat ≤ 0xBF := hxtail
        have hy' : 0x80 ≤ y.toNat ∧ y.toNat ≤ 0xBF := hytail
        have hz' : 0x80 ≤ z.toNat ∧ z.toNat ≤ 0xBF := hztail
        -- the mask takes bit 3 off, as `clear` does
        have hmask : b.toNat &&& 0x07 = clear b - 0xF0 := by
          have hmod : b.toNat &&& 0x07 = b.toNat % 0x08 := Nat.and_two_pow_sub_one_eq_mod _ 3
          unfold clear
          split <;> omega
        have hlead : 0xF0 ≤ clear b := by
          unfold clear
          split <;> omega
        simp only [hxval, hyval, hzval, hmask, or_shift_three (show x.toNat - 0x80 < 0x40 by omega) (show y.toNat - 0x80 < 0x40 by omega)
          (show z.toNat - 0x80 < 0x40 by omega)] at h₃
        split at h₃
        · cases h₃
        rename_i hrange
        obtain ⟨hunits, rfl⟩ := Prod.mk.inj (Except.ok.inj h₃)
        obtain ⟨c, hc, hutf8⟩ := Utf8.exists_char_four (b := clear b) (x := x.toNat) (y := y.toNat) (z := z.toNat) hlead hxtail hytail
          hztail (by omega) (by omega)
        refine ⟨c, ?_, ?_⟩
        · have hlow : ∀ n : ℕ, n &&& 0x3FF = n % 0x400 := fun n => Nat.and_two_pow_sub_one_eq_mod n 10
          rw [← hunits, hc, unitsOf, if_neg (by omega), hlow, Nat.shiftRight_eq_div_pow]
        · rw [hutf8, cleared_cons, cleared_cons, cleared_cons, cleared_cons, Tail.clear hxtail, Tail.clear hytail, Tail.clear hztail]
          rfl

variable {bytes : List UInt8}

theorem readContinuation_of_cleared {k : ℕ} {tail : List ℕ} (h : cleared bytes = (0x80 + k) :: tail) (hk : k < 0x40)
    (i : ℕ) : ∃ rest, cleared rest = tail ∧ readContinuation i bytes = .ok (k, rest) := by
  cases bytes with
  | nil => cases h
  | cons b rest =>
    rw [cleared_cons] at h
    obtain ⟨hb, htail⟩ := List.cons.inj h
    rw [clear_eq_iff (by omega)] at hb
    refine ⟨rest, htail, readContinuation_eq_ok.mpr ⟨b, rfl, ?_, by omega⟩⟩
    unfold Utf8.Tail
    omega

theorem decodeStep_of_utf8 {c : Char} {rest : List UInt8} {tail : List ℕ} (h : cleared (b :: rest) = Utf16.utf8 c.toNat ++ tail)
    (i : ℕ) : ∃ rest', cleared rest' = tail ∧ decodeStep i b rest = .ok (unitsOf c.toNat, rest') := by
  obtain ⟨hlt, hscalar⟩ := Utf8.toNat_scalar c
  have hb := b.toNat_lt
  generalize c.toNat = n at h hlt hscalar
  rw [cleared_cons] at h
  unfold decodeStep
  dsimp only
  rcases Utf16.utf8_cases n hlt with ⟨hn, hutf8⟩ | ⟨hn, hn', hutf8⟩ | ⟨hn, hn', hutf8⟩ | ⟨hn, hn', hutf8⟩
  all_goals
    rw [hutf8] at h
    simp only [List.cons_append, List.nil_append] at h
    obtain ⟨hlead, htail⟩ := List.cons.inj h
  · rw [clear_eq_iff (by omega)] at hlead
    exact ⟨rest, htail, by rw [if_pos (by omega), hlead, unitsOf_of_lt (by omega)]⟩
  · rw [clear_eq_iff (by omega)] at hlead
    obtain ⟨rest₁, htail₁, hx⟩ := readContinuation_of_cleared htail (by omega) (i + 1)
    refine ⟨rest₁, htail₁, ?_⟩
    have hmask : b.toNat &&& 0x1F = n / 0x40 := by
      have hmod : b.toNat &&& 0x1F = b.toNat % 0x20 := Nat.and_two_pow_sub_one_eq_mod _ 5
      omega
    have hvalue : n / 0x40 * 0x40 + n % 0x40 = n := by omega
    rw [if_neg (by omega), if_neg (by omega), if_pos (by omega), hx]
    simp only [bind, Except.bind, hmask, or_shift (show n % 0x40 < 0x40 by omega), hvalue]
    rw [if_neg (by omega), unitsOf_of_lt (by omega)]
  · rw [clear_eq_iff (by omega)] at hlead
    obtain ⟨rest₁, htail₁, hx⟩ := readContinuation_of_cleared htail (by omega) (i + 1)
    obtain ⟨rest₂, htail₂, hy⟩ := readContinuation_of_cleared htail₁ (by omega) (i + 2)
    refine ⟨rest₂, htail₂, ?_⟩
    have hmask : b.toNat &&& 0x0F = n / 0x1000 := by
      have hmod : b.toNat &&& 0x0F = b.toNat % 0x10 := Nat.and_two_pow_sub_one_eq_mod _ 4
      omega
    have hvalue : n / 0x1000 * 0x1000 + n / 0x40 % 0x40 * 0x40 + n % 0x40 = n := by omega
    rw [if_neg (by omega), if_neg (by omega), if_neg (by omega), if_pos (by omega), hx]
    simp only [bind, Except.bind, hy, hmask, or_shift_two (show n / 0x40 % 0x40 < 0x40 by omega) (show n % 0x40 < 0x40 by omega), hvalue]
    rw [if_neg (by omega), if_neg hscalar, unitsOf_of_lt (by omega)]
  · obtain ⟨rest₁, htail₁, hx⟩ := readContinuation_of_cleared htail (by omega) (i + 1)
    obtain ⟨rest₂, htail₂, hy⟩ := readContinuation_of_cleared htail₁ (by omega) (i + 2)
    obtain ⟨rest₃, htail₃, hz⟩ := readContinuation_of_cleared htail₂ (by omega) (i + 3)
    refine ⟨rest₃, htail₃, ?_⟩
    have hlead' : b.toNat = 0xF0 + n / 0x40000 ∨ b.toNat = 0xF8 + n / 0x40000 := by
      unfold clear at hlead
      split at hlead <;> omega
    have hmask : b.toNat &&& 0x07 = n / 0x40000 := by
      have hmod : b.toNat &&& 0x07 = b.toNat % 0x08 := Nat.and_two_pow_sub_one_eq_mod _ 3
      omega
    have hvalue : n / 0x40000 * 0x40000 + n / 0x1000 % 0x40 * 0x1000 + n / 0x40 % 0x40 * 0x40 + n % 0x40 = n := by omega
    have hlow : ∀ n : ℕ, n &&& 0x3FF = n % 0x400 := fun n => Nat.and_two_pow_sub_one_eq_mod n 10
    rw [if_neg (by omega), if_neg (by omega), if_neg (by omega), if_neg (by omega), hx]
    simp only [bind, Except.bind, hy, hz, hmask, or_shift_three (show n / 0x1000 % 0x40 < 0x40 by omega)
      (show n / 0x40 % 0x40 < 0x40 by omega) (show n % 0x40 < 0x40 by omega), hvalue]
    rw [if_neg (by omega), unitsOf, if_neg (by omega), hlow, Nat.shiftRight_eq_div_pow]

theorem decodeStep_length (h : decodeStep i b rest = .ok (units, rest')) : rest'.length < (b :: rest).length := by
  obtain ⟨c, -, hbytes⟩ := decodeStep_eq_ok h
  have hlength := congrArg List.length hbytes
  have hpos := List.length_pos_of_ne_nil (Utf16.utf8_ne_nil c.toNat)
  simp only [cleared, List.length_map, List.length_append] at hlength
  omega

/-! ## The loop -/

/-- The loop of `decodeUtf8` from an index on. -/
def decodeFrom (i : ℕ) : List UInt8 → Except String Utf16
  | [] => .ok []
  | b :: rest => match _h : decodeStep i b rest with
    | .error message => .error message
    | .ok (units, rest') => (decodeFrom (i + ((b :: rest).length - rest'.length)) rest').map (units ++ ·)
termination_by bytes => bytes.length
decreasing_by exact decodeStep_length _h

def decodeUtf8 (bytes : List UInt8) : Except String Utf16 := decodeFrom 0 bytes

theorem decodeFrom_cons_of_ok (h : decodeStep i b rest = .ok (units, rest')) :
    decodeFrom i (b :: rest) = (decodeFrom (i + ((b :: rest).length - rest'.length)) rest').map (units ++ ·) := by
  rw [decodeFrom]
  split
  · rename_i heq
    exact nomatch heq.symm.trans h
  · rename_i heq
    obtain ⟨rfl, rfl⟩ := Prod.mk.inj (Except.ok.inj (heq.symm.trans h))
    rfl

theorem decodeFrom_eq_ok_iff {s : Utf16} :
    decodeFrom i bytes = .ok s ↔ ∃ text : List Char, Utf8.bytesOf text = cleared bytes ∧ Utf8.units text = s := by
  constructor
  · intro h
    fun_induction decodeFrom i bytes generalizing s with
    | case1 =>
      obtain rfl := Except.ok.inj h
      exact ⟨[], rfl, rfl⟩
    | case2 => cases h
    | case3 i b rest units rest' hstep ih =>
      obtain ⟨s', hs', rfl⟩ := map_eq_ok.mp h
      obtain ⟨text, hbytes, hunits⟩ := ih hs'
      obtain ⟨c, rfl, hc⟩ := decodeStep_eq_ok hstep
      exact ⟨c :: text, by rw [Utf8.bytesOf_cons, hbytes, hc], by rw [Utf8.units_cons, hunits]⟩
  · rintro ⟨text, hbytes, rfl⟩
    induction text generalizing i bytes with
    | nil =>
      obtain rfl : bytes = [] := List.map_eq_nil_iff.mp hbytes.symm
      rw [decodeFrom]
      rfl
    | cons c text ih =>
      rw [Utf8.bytesOf_cons] at hbytes
      cases bytes with
      | nil => exact absurd (List.append_eq_nil_iff.mp hbytes).1 (Utf16.utf8_ne_nil c.toNat)
      | cons b rest =>
        obtain ⟨rest', htail, hstep⟩ := decodeStep_of_utf8 hbytes.symm i
        rw [decodeFrom_cons_of_ok hstep, ih htail.symm, Utf8.units_cons]
        rfl

/-! ## The codec -/

/-- The array is accepted exactly if it is well formed, and what is read is encoded as the array. -/
structure DecodesExactly (bytes : List UInt8) : Prop where
  accepts : (∃ s, decodeUtf8 bytes = .ok s) ↔ Utf8.WellFormed (bytes.map UInt8.toNat)
  encoded : ∀ s, decodeUtf8 bytes = .ok s → encodeUtf8 s = some (bytes.map UInt8.toNat)

/-- A text without lone surrogates is read back from its bytes, and no other text has bytes. -/
structure EncodesExactly (s : Utf16) : Prop where
  decoded : s.wellFormed = true → ∃ bytes : List UInt8, encodeUtf8 s = some (bytes.map UInt8.toNat) ∧ decodeUtf8 bytes = .ok s
  throws : s.wellFormed = false → encodeUtf8 s = none

theorem lt_of_mem_bytesOf {text : List Char} (h : n ∈ Utf8.bytesOf text) : n < 0xF8 := by
  obtain ⟨c, -, hc⟩ := List.mem_flatMap.mp h
  obtain ⟨hlt, -⟩ := Utf8.toNat_scalar c
  rcases Utf16.utf8_cases c.toNat hlt with ⟨hn, hutf8⟩ | ⟨hn, hn', hutf8⟩ | ⟨hn, hn', hutf8⟩ | ⟨hn, hn', hutf8⟩
  all_goals
    rw [hutf8] at hc
    simp only [List.mem_cons, List.not_mem_nil, or_false] at hc
    omega

theorem cleared_of_lt (h : ∀ b ∈ bytes, b.toNat < 0xF8) : cleared bytes = bytes.map UInt8.toNat :=
  List.map_congr_left fun b hb => if_neg (by have := h b hb; omega)

theorem encodesExactly (s : Utf16) : EncodesExactly s := by
  refine ⟨fun hs => ?_, fun hs => ?_⟩
  · obtain ⟨text, rfl⟩ := Utf8.exists_units hs
    have hbytes : ((Utf8.bytesOf text).map UInt8.ofNat).map UInt8.toNat = Utf8.bytesOf text := by
      have hid : ∀ n ∈ Utf8.bytesOf text, (UInt8.ofNat n).toNat = n := by
        intro n hn
        have hlt := lt_of_mem_bytesOf hn
        exact UInt8.toNat_ofNat_of_lt (by change n < 256; omega)
      rw [List.map_map]
      exact (List.map_congr_left hid).trans (List.map_id' _)
    refine ⟨(Utf8.bytesOf text).map UInt8.ofNat, ?_, decodeFrom_eq_ok_iff.mpr ⟨text, ?_, rfl⟩⟩
    · rw [encodeUtf8_eq, Utf8.encode_units, hbytes]
    · rw [cleared_of_lt, hbytes]
      intro b hb
      exact lt_of_mem_bytesOf (hbytes ▸ List.mem_map_of_mem hb)
  · rw [encodeUtf8_eq]
    exact Option.isNone_iff_eq_none.mp (by rw [← Option.not_isSome, Utf16.isSome_encode, hs]; rfl)

/-- The codec is exact exactly if no array with a byte from 0xF8 on is well formed once bit 3 of those bytes is cleared. -/
theorem codec_exact_iff (bytes : List UInt8) (s : Utf16) : DecodesExactly bytes ∧ EncodesExactly s ↔
    ((∃ b ∈ bytes, 0xF8 ≤ b.toNat) → ¬ Utf8.WellFormed (cleared bytes)) := by
  rw [and_iff_left (encodesExactly s)]
  have hnot : (∃ b ∈ bytes, 0xF8 ≤ b.toNat) → ¬ Utf8.WellFormed (bytes.map UInt8.toNat) := by
    rintro ⟨b, hb, hhigh⟩ hwell
    obtain ⟨text, htext⟩ := Utf8.wellFormed_iff.mp hwell
    have hlt := lt_of_mem_bytesOf (htext ▸ List.mem_map_of_mem hb)
    omega
  have hread : (∃ s, decodeUtf8 bytes = .ok s) ↔ Utf8.WellFormed (cleared bytes) := by
    rw [Utf8.wellFormed_iff]
    constructor
    · rintro ⟨s, hs⟩
      obtain ⟨text, htext, -⟩ := decodeFrom_eq_ok_iff.mp hs
      exact ⟨text, htext⟩
    · rintro ⟨text, htext⟩
      exact ⟨Utf8.units text, decodeFrom_eq_ok_iff.mpr ⟨text, htext, rfl⟩⟩
  constructor
  · intro h hhigh hwell
    exact hnot hhigh (h.accepts.mp (hread.mpr hwell))
  · intro h
    rcases em (∃ b ∈ bytes, 0xF8 ≤ b.toNat) with hhigh | hlow
    · have hrefused : ¬ ∃ s, decodeUtf8 bytes = .ok s := fun hs => h hhigh (hread.mp hs)
      exact ⟨iff_of_false hrefused (hnot hhigh), fun s hs => absurd ⟨s, hs⟩ hrefused⟩
    · have hsame : cleared bytes = bytes.map UInt8.toNat := cleared_of_lt fun b hb => not_le.mp fun hhigh => hlow ⟨b, hb, hhigh⟩
      refine ⟨by rw [hread, hsame], fun s hs => ?_⟩
      obtain ⟨text, htext, rfl⟩ := decodeFrom_eq_ok_iff.mp hs
      rw [encodeUtf8_eq, Utf8.encode_units, htext, hsame]

/-- The array F8 90 80 80 is read as the one with F0. -/
theorem wideLead_accepted : ¬ (DecodesExactly [0xF8, 0x90, 0x80, 0x80] ∧ EncodesExactly []) := by
  rintro ⟨hexact, -⟩
  obtain ⟨c, hc⟩ := Utf8.exists_char (n := 0x10000) (by omega) (by omega)
  have hread : decodeUtf8 [0xF8, 0x90, 0x80, 0x80] = .ok (Utf8.units [c]) := by
    refine decodeFrom_eq_ok_iff.mpr ⟨[c], ?_, rfl⟩
    rw [Utf8.bytesOf_cons, hc]
    rfl
  obtain ⟨text, htext⟩ := Utf8.wellFormed_iff.mp (hexact.accepts.mp ⟨_, hread⟩)
  have hmem : 0xF8 ∈ Utf8.bytesOf text := htext ▸ List.mem_cons_self
  exact absurd (lt_of_mem_bytesOf hmem) (by omega)

end ArkTs

end AgentProtocol.Sdk
