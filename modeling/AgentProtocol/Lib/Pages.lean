-- SUMMARY: Pages of a list: consecutive slices of one size, and that they make up the list.
import Mathlib

/-!
# Pages

A page is a slice of a list. Pages of a positive size that follow each other give the list back, each
element once and in its place. The number of pages is the length over the size, rounded up.
-/

namespace Lib

variable {α β : Type}

/-- The slice of `size` elements from `start` on. -/
def page (l : List α) (start size : ℕ) : List α := (l.drop start).take size

/-- The number of pages, and one for the empty list. -/
def pageCount (total size : ℕ) : ℕ := max 1 ((total + size - 1) / size)

variable (l : List α)

@[simp] theorem page_zero (start : ℕ) : page l start 0 = [] := List.take_zero

theorem page_min (start size : ℕ) : page l start (min (start + size) l.length - start) = page l start size := by
  rw [page, page, List.take_eq_take_iff, List.length_drop]
  omega

theorem take_append_page (start size : ℕ) : l.take start ++ page l start size = l.take (start + size) := by
  rw [page, List.take_add]

theorem page_append_drop (start size : ℕ) : page l start size ++ l.drop (start + size) = l.drop start := by
  rw [page, ← List.drop_drop, List.take_append_drop]

theorem flatMap_page (size n : ℕ) : (List.range n).flatMap (fun i => page l (i * size) size) = l.take (n * size) := by
  induction n with
  | zero => simp
  | succ n ih => rw [List.range_succ, List.flatMap_append, ih, List.flatMap_singleton, take_append_page, Nat.succ_mul]

theorem le_pageCount_mul (total : ℕ) {size : ℕ} (h : 0 < size) : total ≤ pageCount total size * size := by
  have hceil : total ≤ (total + size - 1) / size * size := by
    have hdiv := Nat.div_add_mod (total + size - 1) size
    have hmod := Nat.mod_lt (total + size - 1) h
    rw [Nat.mul_comm]
    omega
  exact hceil.trans (Nat.mul_le_mul_right _ (Nat.le_max_right _ _))

theorem flatMap_pages {size : ℕ} (h : 0 < size) :
    (List.range (pageCount l.length size)).flatMap (fun i => page l (i * size) size) = l := by
  rw [flatMap_page, List.take_of_length_le (le_pageCount_mul l.length h)]

end Lib
