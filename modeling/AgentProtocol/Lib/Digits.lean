-- SUMMARY: Numbers written in digits of a base up to sixteen, and read back.
import Mathlib

/-!
# Digits

`Nat.toDigits` writes a number with lower-case digits. `readDigits` reads upper and lower case and refuses an empty
text.
-/

namespace Lib

def digitVal (c : Char) : Option ℕ :=
  if '0' ≤ c ∧ c ≤ '9' then some (c.toNat - '0'.toNat)
  else if 'a' ≤ c ∧ c ≤ 'f' then some (c.toNat - 'a'.toNat + 10)
  else if 'A' ≤ c ∧ c ≤ 'F' then some (c.toNat - 'A'.toNat + 10)
  else none

/-- Read on from `n`. -/
def readDigitsFrom (b : ℕ) : ℕ → List Char → Option ℕ
  | n, [] => some n
  | n, c :: cs => (digitVal c).bind fun d => if d < b then readDigitsFrom b (b * n + d) cs else none

def readDigits (b : ℕ) : List Char → Option ℕ
  | [] => none
  | cs => readDigitsFrom b 0 cs

theorem digitVal_digitChar : ∀ d < 16, digitVal d.digitChar = some d := by decide

theorem digitChar_ne_cr : ∀ d < 16, d.digitChar ≠ '\r' := by decide

variable {b n : ℕ}

theorem readDigitsFrom_append {m : ℕ} (cs : List Char) (c : Char) : readDigitsFrom b m (cs ++ [c]) =
    (readDigitsFrom b m cs).bind fun n => (digitVal c).bind fun d => if d < b then some (b * n + d) else none := by
  induction cs generalizing m with
  | nil => simp [readDigitsFrom]
  | cons c' cs ih =>
    rw [List.cons_append, readDigitsFrom, readDigitsFrom]
    cases digitVal c' with
    | none => rfl
    | some d =>
      simp only [Option.bind_some]
      split
      · exact ih
      · rfl

theorem readDigitsFrom_toDigits (hb : 1 < b) (hb' : b ≤ 16) (n : ℕ) : readDigitsFrom b 0 (Nat.toDigits b n) = some n := by
  induction n using Nat.strongRecOn with
  | _ n ih =>
    rw [Nat.toDigits_eq_if hb]
    split
    · rename_i hlt
      simp [readDigitsFrom, digitVal_digitChar n (by omega), hlt]
    · rename_i hge
      have hmod : n % b < b := Nat.mod_lt n (by omega)
      rw [readDigitsFrom_append, ih (n / b) (Nat.div_lt_self (by omega) hb)]
      simp [digitVal_digitChar (n % b) (by omega), hmod, Nat.div_add_mod]

theorem readDigits_toDigits (hb : 1 < b) (hb' : b ≤ 16) (n : ℕ) : readDigits b (Nat.toDigits b n) = some n := by
  rw [← readDigitsFrom_toDigits hb hb' n, readDigits.eq_2 _ _ fun h => Nat.toDigits_ne_nil h]

theorem mem_toDigits (hb : 1 < b) {n : ℕ} {c : Char} (hc : c ∈ Nat.toDigits b n) : ∃ d < b, c = d.digitChar := by
  induction n using Nat.strongRecOn with
  | _ n ih =>
    rw [Nat.toDigits_eq_if hb] at hc
    split at hc
    · rename_i hlt
      exact ⟨n, hlt, List.mem_singleton.mp hc⟩
    · rcases List.mem_append.mp hc with hc | hc
      · exact ih (n / b) (Nat.div_lt_self (by omega) hb) hc
      · exact ⟨n % b, Nat.mod_lt n (by omega), List.mem_singleton.mp hc⟩

theorem cr_notMem_toDigits (hb : 1 < b) (hb' : b ≤ 16) (n : ℕ) : '\r' ∉ Nat.toDigits b n := by
  intro hmem
  obtain ⟨d, hd, heq⟩ := mem_toDigits hb hmem
  exact digitChar_ne_cr d (by omega) heq.symm

end Lib
