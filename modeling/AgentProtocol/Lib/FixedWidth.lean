-- SUMMARY: Numbers written with a fixed number of digits, and their order as texts.
import Mathlib

/-!
# Fixed width

Numbers that are written with equally many digits, the most significant first, are ordered as texts as they are as
numbers. Where one has more digits than the other, the text of the shorter one is compared with the first digits of the
longer one.
-/

namespace Lib

theorem append_lt_append_iff {α : Type} [LinearOrder α] {p q : List α} (h : p.length = q.length) {s t : List α} :
    p ++ s < q ++ t ↔ p < q ∨ p = q ∧ s < t := by
  induction p generalizing q with
  | nil =>
    obtain rfl := List.eq_nil_of_length_eq_zero h.symm
    simp
  | cons a p ih =>
    cases q with
    | nil => cases h
    | cons b q =>
      have hlen : p.length = q.length := Nat.succ.inj h
      rw [List.cons_append, List.cons_append, List.cons_lt_cons_iff, List.cons_lt_cons_iff, ih hlen, List.cons.injEq]
      constructor
      · rintro (hlt | ⟨rfl, hlt | ⟨rfl, hlt⟩⟩)
        · exact .inl (.inl hlt)
        · exact .inl (.inr ⟨rfl, hlt⟩)
        · exact .inr ⟨⟨rfl, rfl⟩, hlt⟩
      · rintro ((hlt | ⟨rfl, hlt⟩) | ⟨⟨rfl, rfl⟩, hlt⟩)
        · exact .inl hlt
        · exact .inr ⟨rfl, .inl hlt⟩
        · exact .inr ⟨rfl, .inr ⟨rfl, hlt⟩⟩

namespace FixedWidth

variable {α : Type} (b : ℕ) (digit : ℕ → α)

/-- The last `w` digits of `n`. -/
def digits : ℕ → ℕ → List α
  | 0, _ => []
  | w + 1, n => digits w (n / b) ++ [digit (n % b)]

variable {b digit}

@[simp] theorem length_digits (w n : ℕ) : (digits b digit w n).length = w := by
  induction w generalizing n with
  | zero => rfl
  | succ w ih => rw [digits, List.length_append, ih, List.length_singleton]

theorem digits_add (w j n : ℕ) : digits b digit (w + j) n = digits b digit w (n / b ^ j) ++ digits b digit j n := by
  induction j generalizing n with
  | zero => simp [digits]
  | succ j ih => rw [← Nat.add_assoc, digits, ih, digits, List.append_assoc, Nat.div_div_eq_div_mul, Nat.pow_succ']

theorem digits_zero (w : ℕ) : digits b digit w 0 = List.replicate w (digit 0) := by
  induction w with
  | zero => rfl
  | succ w ih => rw [digits, Nat.zero_div, Nat.zero_mod, ih, ← List.replicate_succ']

theorem digits_of_lt {w n : ℕ} (j : ℕ) (h : n < b ^ w) :
    digits b digit (j + w) n = List.replicate j (digit 0) ++ digits b digit w n := by
  rw [digits_add, Nat.div_eq_of_lt h, digits_zero]

theorem mem_digits (hb : 0 < b) {w n : ℕ} {a : α} (h : a ∈ digits b digit w n) : ∃ d < b, a = digit d := by
  induction w generalizing n with
  | zero => cases h
  | succ w ih =>
    rcases List.mem_append.mp h with hmem | hlast
    · exact ih hmem
    · exact ⟨n % b, Nat.mod_lt n hb, List.mem_singleton.mp hlast⟩

section Order

variable [LinearOrder α] (hdigit : ∀ i j, i < j → j < b → digit i < digit j)

include hdigit in
theorem digits_lt (hb : 0 < b) {w m n : ℕ} (hn : n < b ^ w) (h : m < n) : digits b digit w m < digits b digit w n := by
  induction w generalizing m n with
  | zero =>
    rw [Nat.pow_zero] at hn
    omega
  | succ w ih =>
    rw [digits, digits, append_lt_append_iff (by rw [length_digits, length_digits])]
    rcases Nat.lt_or_eq_of_le (Nat.div_le_div_right (c := b) h.le) with hlt | heq
    · refine .inl (ih ?_ hlt)
      rw [Nat.div_lt_iff_lt_mul hb, ← Nat.pow_succ]
      exact hn
    · refine .inr ⟨by rw [heq], ?_⟩
      have hmod : m % b < n % b := by
        have hm := Nat.div_add_mod m b
        have hn := Nat.div_add_mod n b
        rw [heq] at hm
        omega
      exact List.cons_lt_cons_iff.mpr (.inl (hdigit _ _ hmod (Nat.mod_lt n hb)))

end Order

end FixedWidth

end Lib
