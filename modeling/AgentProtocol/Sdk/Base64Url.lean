-- SUMMARY: The ArkTS SDK's base64url codec, and that it accepts exactly the texts that it writes.
import AgentProtocol.Lib.Except
import AgentProtocol.Lib.Utf16

/-!
# Base64url in ArkTS

Three bytes are written as four characters, and the one or two bytes of the last group as two or three. The decoder takes
the characters apart in the same groups and refuses a last group whose unused bits are set, so that every group that it
accepts is the one that the encoder writes for its bytes.
-/

namespace AgentProtocol.Sdk

open Lib

namespace ArkTs

/-! ## The codec -/

def base64UrlChars : List CodeUnit :=
  "ABCDEFGHIJKLMNOPQRSTUVWXYZabcdefghijklmnopqrstuvwxyz0123456789-_".toList.map fun c => Fin.ofNat _ c.toNat

def charAt (n : ℕ) : CodeUnit := base64UrlChars.getD n 0

/-- The characters of a group of bytes; a byte that is not there counts as 0. -/
def encodeGroup (a : UInt8) (b c : Option UInt8) : Utf16 :=
  let b' := (b.map UInt8.toNat).getD 0
  let c' := (c.map UInt8.toNat).getD 0
  [charAt (a.toNat >>> 2 &&& 0x3F), charAt ((a.toNat <<< 4 ||| b' >>> 4) &&& 0x3F)] ++
    (if b.isSome then [charAt ((b' <<< 2 ||| c' >>> 6) &&& 0x3F)] else []) ++
    (if c.isSome then [charAt (c' &&& 0x3F)] else [])

def base64UrlEncode : List UInt8 → Utf16
  | [] => []
  | [a] => encodeGroup a none none
  | [a, b] => encodeGroup a (some b) none
  | a :: b :: c :: rest => encodeGroup a (some b) (some c) ++ base64UrlEncode rest

/-- The value of the character at a position. -/
def valueAt (i : ℕ) (c : CodeUnit) : Except String ℕ :=
  orFail ("Invalid base64url character at position " ++ toString i) (base64UrlChars.idxOf? c)

/-- A character that is not there counts as 0. -/
def valueOr (i : ℕ) : Option CodeUnit → Except String ℕ
  | none => .ok 0
  | some c => valueAt i c

/-- The three bytes of a group of characters that starts at a position. -/
def decodeGroup (i : ℕ) (a : CodeUnit) (b c d : Option CodeUnit) : Except String (List UInt8) := do
  let a' ← valueAt i a
  let b' ← valueOr (i + 1) b
  let c' ← valueOr (i + 2) c
  let d' ← valueOr (i + 3) d
  if c.isNone ∧ b' &&& 0x0F ≠ 0 then .error ("Invalid base64url padding bits at position " ++ toString (i + 1))
  else if d.isNone ∧ c' &&& 0x03 ≠ 0 then .error ("Invalid base64url padding bits at position " ++ toString (i + 2))
  else
    .ok [UInt8.ofNat ((a' <<< 2 ||| b' >>> 4) &&& 0xFF), UInt8.ofNat ((b' <<< 4 ||| c' >>> 2) &&& 0xFF), UInt8.ofNat ((c' <<< 6 ||| d') &&& 0xFF)]

/-- The loop of `base64UrlDecode` from a position on, with the bytes of the result that are not written yet. -/
def decodeGroups (i left : ℕ) : Utf16 → Except String (List UInt8)
  | [] => .ok (List.replicate left 0)
  | [a] => (decodeGroup i a none none none).map fun bytes => bytes.take left ++ List.replicate (left - 3) 0
  | [a, b] => (decodeGroup i a (some b) none none).map fun bytes => bytes.take left ++ List.replicate (left - 3) 0
  | [a, b, c] => (decodeGroup i a (some b) (some c) none).map fun bytes => bytes.take left ++ List.replicate (left - 3) 0
  | a :: b :: c :: d :: rest => do
    let bytes ← decodeGroup i a (some b) (some c) (some d)
    (decodeGroups (i + 4) (left - 3) rest).map fun others => bytes.take left ++ others

def base64UrlDecode (str : Utf16) : Except String (List UInt8) :=
  if str.length % 4 = 1 then .error ("Invalid base64url length: " ++ toString str.length)
  else decodeGroups 0 (str.length * 3 / 4) str

/-! ## Characters -/

theorem idxOf?_charAt : ∀ n < 64, base64UrlChars.idxOf? (charAt n) = some n := by decide +kernel

theorem valueAt_eq_ok {i n : ℕ} {c : CodeUnit} : valueAt i c = .ok n ↔ n < 64 ∧ charAt n = c := by
  unfold valueAt
  rw [orFail_eq_ok]
  constructor
  · intro h
    obtain ⟨hlt, hget, -⟩ := List.idxOf?_eq_some_iff.mp h
    exact ⟨hlt, by rw [charAt, List.getD_eq_getElem _ _ hlt, hget]⟩
  · rintro ⟨hlt, rfl⟩
    exact idxOf?_charAt n hlt

/-! ## Bits -/

section Bits

theorem and_six (n : ℕ) : n &&& 0x3F = n % 64 := Nat.and_two_pow_sub_one_eq_mod n 6

theorem and_eight (n : ℕ) : n &&& 0xFF = n % 256 := Nat.and_two_pow_sub_one_eq_mod n 8

theorem shiftLeft_or {a b i : ℕ} (hb : b < 2 ^ i) : a <<< i ||| b = a * 2 ^ i + b := by
  rw [← Nat.shiftLeft_add_eq_or_of_lt hb, Nat.shiftLeft_eq]

variable {a b c d : ℕ}

theorem first_bits (ha : a < 256) : a >>> 2 &&& 0x3F = a / 4 := by
  rw [Nat.shiftRight_eq_div_pow, and_six]
  omega

theorem second_bits (hb : b < 256) : (a <<< 4 ||| b >>> 4) &&& 0x3F = a % 4 * 16 + b / 16 := by
  rw [Nat.shiftRight_eq_div_pow, shiftLeft_or (i := 4) (by omega), and_six]
  omega

theorem third_bits (hc : c < 256) : (b <<< 2 ||| c >>> 6) &&& 0x3F = b % 16 * 4 + c / 64 := by
  rw [Nat.shiftRight_eq_div_pow, shiftLeft_or (i := 2) (by omega), and_six]
  omega

theorem fourth_bits (c : ℕ) : c &&& 0x3F = c % 64 := and_six c

theorem first_byte (ha : a < 64) (hb : b < 64) : (a <<< 2 ||| b >>> 4) &&& 0xFF = a * 4 + b / 16 := by
  rw [Nat.shiftRight_eq_div_pow, shiftLeft_or (i := 2) (by omega), and_eight]
  omega

theorem second_byte (hc : c < 64) : (b <<< 4 ||| c >>> 2) &&& 0xFF = b % 16 * 16 + c / 4 := by
  rw [Nat.shiftRight_eq_div_pow, shiftLeft_or (i := 4) (by omega), and_eight]
  omega

theorem third_byte (hd : d < 64) : (c <<< 6 ||| d) &&& 0xFF = c % 4 * 64 + d := by
  rw [shiftLeft_or (i := 6) (by omega), and_eight]
  omega

end Bits

theorem encodeGroup_three (a b c : UInt8) : encodeGroup a (some b) (some c) =
    [charAt (a.toNat / 4), charAt (a.toNat % 4 * 16 + b.toNat / 16), charAt (b.toNat % 16 * 4 + c.toNat / 64), charAt (c.toNat % 64)] := by
  simp only [encodeGroup, Option.map_some, Option.getD_some, first_bits a.toNat_lt, second_bits b.toNat_lt, third_bits c.toNat_lt, fourth_bits]
  rfl

theorem encodeGroup_two (a b : UInt8) : encodeGroup a (some b) none =
    [charAt (a.toNat / 4), charAt (a.toNat % 4 * 16 + b.toNat / 16), charAt (b.toNat % 16 * 4)] := by
  simp only [encodeGroup, Option.map_some, Option.map_none, Option.getD_some, Option.getD_none, first_bits a.toNat_lt, second_bits b.toNat_lt,
    third_bits (show 0 < 256 by omega)]
  rfl

theorem encodeGroup_one (a : UInt8) : encodeGroup a none none = [charAt (a.toNat / 4), charAt (a.toNat % 4 * 16)] := by
  simp only [encodeGroup, Option.map_none, Option.getD_none, first_bits a.toNat_lt, second_bits (show 0 < 256 by omega)]
  rfl

/-! ## Groups -/

theorem valueOr_none {i n : ℕ} : valueOr i none = .ok n ↔ 0 = n := by
  constructor
  · exact Except.ok.inj
  · rintro rfl
    rfl

theorem valueOr_some {i n : ℕ} {c : CodeUnit} : valueOr i (some c) = .ok n ↔ n < 64 ∧ charAt n = c := valueAt_eq_ok

theorem valueOr_lt {i n : ℕ} {c : Option CodeUnit} (h : valueOr i c = .ok n) : n < 64 := by
  cases c with
  | none =>
    obtain rfl := valueOr_none.mp h
    omega
  | some c => exact (valueOr_some.mp h).1

theorem decodeGroup_eq_ok {i : ℕ} {a : CodeUnit} {b c d : Option CodeUnit} {bytes : List UInt8} :
    decodeGroup i a b c d = .ok bytes ↔ ∃ a' b' c' d', valueAt i a = .ok a' ∧ valueOr (i + 1) b = .ok b' ∧ valueOr (i + 2) c = .ok c' ∧
      valueOr (i + 3) d = .ok d' ∧ (c = none → b' % 16 = 0) ∧ (d = none → c' % 4 = 0) ∧
      bytes = [UInt8.ofNat (a' * 4 + b' / 16), UInt8.ofNat (b' % 16 * 16 + c' / 4), UInt8.ofNat (c' % 4 * 64 + d')] := by
  have hfour : ∀ n : ℕ, n &&& 0x0F = n % 16 := fun n => Nat.and_two_pow_sub_one_eq_mod n 4
  have htwo : ∀ n : ℕ, n &&& 0x03 = n % 4 := fun n => Nat.and_two_pow_sub_one_eq_mod n 2
  constructor
  · intro h
    obtain ⟨a', ha, h⟩ := bind_eq_ok.mp h
    obtain ⟨b', hb, h⟩ := bind_eq_ok.mp h
    obtain ⟨c', hc, h⟩ := bind_eq_ok.mp h
    obtain ⟨d', hd, h⟩ := bind_eq_ok.mp h
    rw [first_byte (valueAt_eq_ok.mp ha).1 (valueOr_lt hb), second_byte (valueOr_lt hc), third_byte (valueOr_lt hd), hfour, htwo] at h
    split at h
    · cases h
    rename_i hspare
    split at h
    · cases h
    rename_i hspare'
    refine ⟨a', b', c', d', ha, hb, hc, hd, fun hnone => ?_, fun hnone => ?_, (Except.ok.inj h).symm⟩
    · by_contra hset
      exact hspare ⟨by rw [hnone]; rfl, hset⟩
    · by_contra hset
      exact hspare' ⟨by rw [hnone]; rfl, hset⟩
  · rintro ⟨a', b', c', d', ha, hb, hc, hd, hspare, hspare', rfl⟩
    unfold decodeGroup
    simp only [ha, hb, hc, hd, bind, Except.bind, hfour, htwo]
    rw [first_byte (valueAt_eq_ok.mp ha).1 (valueOr_lt hb), second_byte (valueOr_lt hc), third_byte (valueOr_lt hd), if_neg, if_neg]
    · rintro ⟨hnone, hset⟩
      exact hset (hspare' (Option.isNone_iff_eq_none.mp hnone))
    · rintro ⟨hnone, hset⟩
      exact hset (hspare (Option.isNone_iff_eq_none.mp hnone))

theorem toNat_ofNat_byte {n : ℕ} (h : n < 256) : (UInt8.ofNat n).toNat = n := UInt8.toNat_ofNat_of_lt h

theorem eq_ofNat_byte {n : ℕ} {x : UInt8} (h : n = x.toNat) : UInt8.ofNat n = x := by rw [h, UInt8.ofNat_toNat]

section Groups

variable {i : ℕ} {a b c d : CodeUnit} {bytes : List UInt8}

theorem decodeGroup_four : decodeGroup i a (some b) (some c) (some d) = .ok bytes ↔
    ∃ x y z, bytes = [x, y, z] ∧ encodeGroup x (some y) (some z) = [a, b, c, d] := by
  rw [decodeGroup_eq_ok]
  constructor
  · rintro ⟨a', b', c', d', ha, hb, hc, hd, -, -, rfl⟩
    obtain ⟨ha, rfl⟩ := valueAt_eq_ok.mp ha
    obtain ⟨hb, rfl⟩ := valueOr_some.mp hb
    obtain ⟨hc, rfl⟩ := valueOr_some.mp hc
    obtain ⟨hd, rfl⟩ := valueOr_some.mp hd
    refine ⟨_, _, _, rfl, ?_⟩
    rw [encodeGroup_three, toNat_ofNat_byte (by omega), toNat_ofNat_byte (by omega), toNat_ofNat_byte (by omega)]
    have h0 : (a' * 4 + b' / 16) / 4 = a' := by omega
    have h1 : (a' * 4 + b' / 16) % 4 * 16 + (b' % 16 * 16 + c' / 4) / 16 = b' := by omega
    have h2 : (b' % 16 * 16 + c' / 4) % 16 * 4 + (c' % 4 * 64 + d') / 64 = c' := by omega
    have h3 : (c' % 4 * 64 + d') % 64 = d' := by omega
    rw [h0, h1, h2, h3]
  · rintro ⟨x, y, z, rfl, h⟩
    have hx := x.toNat_lt
    have hy := y.toNat_lt
    have hz := z.toNat_lt
    simp only [encodeGroup_three, List.cons.injEq, and_true] at h
    obtain ⟨ha, hb, hc, hd⟩ := h
    refine ⟨_, _, _, _, valueAt_eq_ok.mpr ⟨by omega, ha⟩, valueOr_some.mpr ⟨by omega, hb⟩, valueOr_some.mpr ⟨by omega, hc⟩,
      valueOr_some.mpr ⟨by omega, hd⟩, fun hnone => (nomatch hnone), fun hnone => (nomatch hnone), ?_⟩
    rw [eq_ofNat_byte (x := x) (by omega), eq_ofNat_byte (x := y) (by omega), eq_ofNat_byte (x := z) (by omega)]

theorem decodeGroup_three : decodeGroup i a (some b) (some c) none = .ok bytes ↔
    ∃ x y, bytes = [x, y, 0] ∧ encodeGroup x (some y) none = [a, b, c] := by
  rw [decodeGroup_eq_ok]
  constructor
  · rintro ⟨a', b', c', d', ha, hb, hc, hd, -, hspare, rfl⟩
    obtain ⟨ha, rfl⟩ := valueAt_eq_ok.mp ha
    obtain ⟨hb, rfl⟩ := valueOr_some.mp hb
    obtain ⟨hc, rfl⟩ := valueOr_some.mp hc
    obtain rfl := valueOr_none.mp hd
    have hspare := hspare rfl
    refine ⟨_, _, by rw [hspare]; rfl, ?_⟩
    rw [encodeGroup_two, toNat_ofNat_byte (by omega), toNat_ofNat_byte (by omega)]
    have h0 : (a' * 4 + b' / 16) / 4 = a' := by omega
    have h1 : (a' * 4 + b' / 16) % 4 * 16 + (b' % 16 * 16 + c' / 4) / 16 = b' := by omega
    have h2 : (b' % 16 * 16 + c' / 4) % 16 * 4 = c' := by omega
    rw [h0, h1, h2]
  · rintro ⟨x, y, rfl, h⟩
    have hx := x.toNat_lt
    have hy := y.toNat_lt
    simp only [encodeGroup_two, List.cons.injEq, and_true] at h
    obtain ⟨ha, hb, hc⟩ := h
    refine ⟨_, _, _, _, valueAt_eq_ok.mpr ⟨by omega, ha⟩, valueOr_some.mpr ⟨by omega, hb⟩, valueOr_some.mpr ⟨by omega, hc⟩,
      valueOr_none.mpr rfl, fun hnone => (nomatch hnone), fun _ => by omega, ?_⟩
    rw [eq_ofNat_byte (x := x) (by omega), eq_ofNat_byte (x := y) (by omega), eq_ofNat_byte (x := 0) (by change _ = 0; omega)]

theorem decodeGroup_two : decodeGroup i a (some b) none none = .ok bytes ↔ ∃ x, bytes = [x, 0, 0] ∧ encodeGroup x none none = [a, b] := by
  rw [decodeGroup_eq_ok]
  constructor
  · rintro ⟨a', b', c', d', ha, hb, hc, hd, hspare, -, rfl⟩
    obtain ⟨ha, rfl⟩ := valueAt_eq_ok.mp ha
    obtain ⟨hb, rfl⟩ := valueOr_some.mp hb
    obtain rfl := valueOr_none.mp hc
    obtain rfl := valueOr_none.mp hd
    have hspare := hspare rfl
    refine ⟨_, by rw [hspare]; rfl, ?_⟩
    rw [encodeGroup_one, toNat_ofNat_byte (by omega)]
    have h0 : (a' * 4 + b' / 16) / 4 = a' := by omega
    have h1 : (a' * 4 + b' / 16) % 4 * 16 = b' := by omega
    rw [h0, h1]
  · rintro ⟨x, rfl, h⟩
    have hx := x.toNat_lt
    simp only [encodeGroup_one, List.cons.injEq, and_true] at h
    obtain ⟨ha, hb⟩ := h
    refine ⟨_, _, _, _, valueAt_eq_ok.mpr ⟨by omega, ha⟩, valueOr_some.mpr ⟨by omega, hb⟩, valueOr_none.mpr rfl, valueOr_none.mpr rfl,
      fun _ => by omega, fun _ => rfl, ?_⟩
    rw [eq_ofNat_byte (x := x) (by omega), eq_ofNat_byte (x := 0) (by change _ = 0; omega)]
    rfl

end Groups

/-! ## Texts -/

theorem length_encodeGroup_three (a b c : UInt8) : (encodeGroup a (some b) (some c)).length = 4 := by rw [encodeGroup_three]; rfl

theorem length_encodeGroup_two (a b : UInt8) : (encodeGroup a (some b) none).length = 3 := by rw [encodeGroup_two]; rfl

theorem length_encodeGroup_one (a : UInt8) : (encodeGroup a none none).length = 2 := by rw [encodeGroup_one]; rfl

theorem length_base64UrlEncode_mod (bytes : List UInt8) : (base64UrlEncode bytes).length % 4 ≠ 1 := by
  fun_induction base64UrlEncode bytes with
  | case1 => decide
  | case2 a => rw [length_encodeGroup_one]; decide
  | case3 a b => rw [length_encodeGroup_two]; decide
  | case4 a b c rest ih =>
    rw [List.length_append, length_encodeGroup_three]
    omega

theorem base64UrlEncode_eq_nil {bytes : List UInt8} : base64UrlEncode bytes = [] ↔ bytes = [] := by
  constructor
  · intro h
    match bytes with
    | [] => rfl
    | [x] => cases h
    | [x, y] => cases h
    | x :: y :: z :: others => cases h
  · rintro rfl
    rfl

section Lengths

variable {bytes : List UInt8} {a b c d : CodeUnit} {rest : Utf16}

theorem base64UrlEncode_eq_two : base64UrlEncode bytes = [a, b] ↔ ∃ x, bytes = [x] ∧ encodeGroup x none none = [a, b] := by
  constructor
  · intro h
    have hlength := congrArg List.length h
    match bytes with
    | [] => cases h
    | [x] => exact ⟨x, rfl, h⟩
    | [x, y] =>
      rw [base64UrlEncode, length_encodeGroup_two] at hlength
      cases hlength
    | x :: y :: z :: others =>
      rw [base64UrlEncode, List.length_append, length_encodeGroup_three] at hlength
      simp only [List.length_cons, List.length_nil] at hlength
      omega
  · rintro ⟨x, rfl, h⟩
    exact h

theorem base64UrlEncode_eq_three : base64UrlEncode bytes = [a, b, c] ↔ ∃ x y, bytes = [x, y] ∧ encodeGroup x (some y) none = [a, b, c] := by
  constructor
  · intro h
    have hlength := congrArg List.length h
    match bytes with
    | [] => cases h
    | [x] =>
      rw [base64UrlEncode, length_encodeGroup_one] at hlength
      cases hlength
    | [x, y] => exact ⟨x, y, rfl, h⟩
    | x :: y :: z :: others =>
      rw [base64UrlEncode, List.length_append, length_encodeGroup_three] at hlength
      simp only [List.length_cons, List.length_nil] at hlength
      omega
  · rintro ⟨x, y, rfl, h⟩
    exact h

theorem base64UrlEncode_eq_four : base64UrlEncode bytes = a :: b :: c :: d :: rest ↔
    ∃ x y z others, bytes = x :: y :: z :: others ∧ encodeGroup x (some y) (some z) = [a, b, c, d] ∧ base64UrlEncode others = rest := by
  constructor
  · intro h
    have hlength := congrArg List.length h
    simp only [List.length_cons] at hlength
    match bytes with
    | [] => cases h
    | [x] =>
      rw [base64UrlEncode, length_encodeGroup_one] at hlength
      omega
    | [x, y] =>
      rw [base64UrlEncode, length_encodeGroup_two] at hlength
      omega
    | x :: y :: z :: others =>
      have happend : encodeGroup x (some y) (some z) ++ base64UrlEncode others = [a, b, c, d] ++ rest := h
      obtain ⟨hgroup, hrest⟩ := List.append_inj happend (length_encodeGroup_three x y z)
      exact ⟨x, y, z, others, rfl, hgroup, hrest⟩
  · rintro ⟨x, y, z, others, rfl, hgroup, rfl⟩
    rw [base64UrlEncode, hgroup]
    rfl

end Lengths

theorem decodeGroups_eq_ok {i left : ℕ} {str : Utf16} {bytes : List UInt8} (hlength : str.length % 4 ≠ 1) (hleft : left = str.length * 3 / 4) :
    decodeGroups i left str = .ok bytes ↔ base64UrlEncode bytes = str := by
  fun_induction decodeGroups i left str generalizing bytes with
  | case1 =>
    obtain rfl : _ = 0 := hleft
    rw [base64UrlEncode_eq_nil, List.replicate_zero, Except.ok.injEq, eq_comm]
  | case2 => exact absurd rfl hlength
  | case3 i left a b =>
    simp only [List.length_cons, List.length_nil, Nat.reduceAdd, Nat.reduceMul, Nat.reduceDiv] at hleft
    subst hleft
    rw [map_eq_ok, base64UrlEncode_eq_two]
    simp only [decodeGroup_two]
    constructor
    · rintro ⟨-, ⟨x, rfl, hgroup⟩, rfl⟩
      exact ⟨x, rfl, hgroup⟩
    · rintro ⟨x, rfl, hgroup⟩
      exact ⟨_, ⟨x, rfl, hgroup⟩, rfl⟩
  | case4 i left a b c =>
    simp only [List.length_cons, List.length_nil, Nat.reduceAdd, Nat.reduceMul, Nat.reduceDiv] at hleft
    subst hleft
    rw [map_eq_ok, base64UrlEncode_eq_three]
    simp only [decodeGroup_three]
    constructor
    · rintro ⟨-, ⟨x, y, rfl, hgroup⟩, rfl⟩
      exact ⟨x, y, rfl, hgroup⟩
    · rintro ⟨x, y, rfl, hgroup⟩
      exact ⟨_, ⟨x, y, rfl, hgroup⟩, rfl⟩
  | case5 i left a b c d rest ih =>
    simp only [List.length_cons] at hlength hleft
    obtain ⟨k, rfl⟩ : ∃ k, left = k + 3 := ⟨rest.length * 3 / 4, by omega⟩
    rw [bind_eq_ok, base64UrlEncode_eq_four]
    simp only [decodeGroup_four, map_eq_ok]
    have htake : ∀ x y z : UInt8, [x, y, z].take (k + 3) = [x, y, z] := fun x y z => List.take_of_length_le (Nat.le_add_left 3 k)
    constructor
    · rintro ⟨-, ⟨x, y, z, rfl, hgroup⟩, others, hothers, rfl⟩
      exact ⟨x, y, z, others, by rw [htake]; rfl, hgroup, (ih (by omega) (by omega)).mp hothers⟩
    · rintro ⟨x, y, z, others, rfl, hgroup, hothers⟩
      exact ⟨_, ⟨x, y, z, rfl, hgroup⟩, others, (ih (by omega) (by omega)).mpr hothers, by rw [htake]; rfl⟩

theorem base64UrlDecode_eq_ok_iff {str : Utf16} {bytes : List UInt8} : base64UrlDecode str = .ok bytes ↔ base64UrlEncode bytes = str := by
  unfold base64UrlDecode
  split
  · rename_i hlength
    refine iff_of_false (fun h => nomatch h) ?_
    rintro rfl
    exact length_base64UrlEncode_mod bytes hlength
  · rename_i hlength
    exact decodeGroups_eq_ok hlength rfl

/-- The codec is a bijection between the byte arrays and the texts that are accepted. -/
theorem base64Url_bijection : (∀ bytes : List UInt8, base64UrlDecode (base64UrlEncode bytes) = .ok bytes) ∧
    (∀ str : Utf16, (∃ message, base64UrlDecode str = .error message) ∨ ∃ bytes, base64UrlDecode str = .ok bytes ∧ base64UrlEncode bytes = str) ∧
    ∀ bytes : List UInt8, {str : Utf16 | base64UrlDecode str = .ok bytes}.Subsingleton := by
  refine ⟨fun bytes => base64UrlDecode_eq_ok_iff.mpr rfl, fun str => ?_, fun bytes s hs t ht => ?_⟩
  · cases h : base64UrlDecode str with
    | error message => exact .inl ⟨message, rfl⟩
    | ok bytes => exact .inr ⟨bytes, rfl, base64UrlDecode_eq_ok_iff.mp h⟩
  · rw [← base64UrlDecode_eq_ok_iff.mp hs, ← base64UrlDecode_eq_ok_iff.mp ht]

end ArkTs

end AgentProtocol.Sdk
