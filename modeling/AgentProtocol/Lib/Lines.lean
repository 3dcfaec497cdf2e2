-- SUMMARY: A scanner that collects characters to a separator and hands each line on, fed in chunks cut anywhere.
import Mathlib

/-!
# Lines

A stream is cut into chunks at arbitrary places. A scanner keeps the line it has not finished and a state of its own,
which `accept` advances at each separator. What it does depends on the stream only, not on the chunks, and of a stream
that is cut off it has accepted a prefix of the lines.
-/

namespace Lib

variable {α σ : Type}

/-- The pieces of a stream: one for each size, and the rest. -/
def cutAt : List ℕ → List α → List (List α)
  | [], as => [as]
  | n :: sizes, as => as.take n :: cutAt sizes (as.drop n)

@[simp] theorem flatten_cutAt (sizes : List ℕ) (as : List α) : (cutAt sizes as).flatten = as := by
  induction sizes generalizing as with
  | nil => simp [cutAt]
  | cons n sizes ih => rw [cutAt, List.flatten_cons, ih, List.take_append_drop]

namespace Lines

variable [DecidableEq α] (sep : α) (accept : σ → List α → σ)

/-- The unfinished line and the state, after one more character. -/
def push (s : List α × σ) (a : α) : List α × σ :=
  if a = sep then ([], accept s.2 s.1) else (s.1 ++ [a], s.2)

def feed (s : List α × σ) (as : List α) : List α × σ := as.foldl (push sep accept) s

/-- Lines, each with its separator. -/
def join (lines : List (List α)) : List α := lines.flatMap (· ++ [sep])

variable {sep accept} {s : List α × σ} {t : σ} {as bs line : List α} {lines : List (List α)}

@[simp] theorem feed_nil : feed sep accept s [] = s := rfl

theorem feed_append : feed sep accept s (as ++ bs) = feed sep accept (feed sep accept s as) bs := List.foldl_append

theorem feed_chunks (chunks : List (List α)) : chunks.foldl (feed sep accept) s = feed sep accept s chunks.flatten := by
  induction chunks generalizing s with
  | nil => rfl
  | cons c chunks ih => rw [List.foldl_cons, ih, List.flatten_cons, feed_append]

theorem feed_plain (h : sep ∉ as) : feed sep accept s as = (s.1 ++ as, s.2) := by
  induction as generalizing s with
  | nil => simp
  | cons a as ih =>
    obtain ⟨ha, has⟩ : sep ≠ a ∧ sep ∉ as := by simpa using h
    have hstep : feed sep accept s (a :: as) = feed sep accept (s.1 ++ [a], s.2) as := by
      simp [feed, push, ha.symm]
    rw [hstep, ih has]
    simp

theorem feed_line (h : sep ∉ line) : feed sep accept s (line ++ [sep]) = ([], accept s.2 (s.1 ++ line)) := by
  rw [feed_append, feed_plain h]
  simp [feed, push]

theorem feed_join (h : ∀ l ∈ lines, sep ∉ l) : feed sep accept ([], t) (join sep lines) = ([], lines.foldl accept t) := by
  induction lines generalizing t with
  | nil => rfl
  | cons line lines ih =>
    have hsplit : join sep (line :: lines) = (line ++ [sep]) ++ join sep lines := List.flatMap_cons
    rw [hsplit, feed_append, feed_line (h line (by simp))]
    exact ih fun l hl => h l (by simp [hl])

theorem exists_join (sep : α) (as : List α) :
    ∃ (lines : List (List α)) (rest : List α), (∀ l ∈ lines, sep ∉ l) ∧ sep ∉ rest ∧ as = join sep lines ++ rest := by
  induction as with
  | nil => exact ⟨[], [], fun l hl => (nomatch hl), List.not_mem_nil, rfl⟩
  | cons a as ih =>
    obtain ⟨lines, rest, hlines, hrest, rfl⟩ := ih
    by_cases ha : a = sep
    · subst ha
      exact ⟨[] :: lines, rest, List.forall_mem_cons.mpr ⟨List.not_mem_nil, hlines⟩, hrest, rfl⟩
    · have hcons : ∀ {l : List α}, sep ∉ l → sep ∉ a :: l := fun hl hmem => (List.mem_cons.mp hmem).elim (fun h => ha h.symm) hl
      -- the character belongs to the first line, or to the rest if there is none
      cases lines with
      | nil => exact ⟨[], a :: rest, hlines, hcons hrest, rfl⟩
      | cons line lines =>
        obtain ⟨hline, hlines⟩ := List.forall_mem_cons.mp hlines
        exact ⟨(a :: line) :: lines, rest, List.forall_mem_cons.mpr ⟨hcons hline, hlines⟩, hrest, rfl⟩

theorem feed_invariant {I : σ → Prop} (hI : I t) (hstep : ∀ t line, sep ∉ line → I t → I (accept t line)) :
    I (feed sep accept ([], t) as).2 := by
  suffices h : sep ∉ (feed sep accept ([], t) as).1 ∧ I (feed sep accept ([], t) as).2 from h.2
  induction as using List.reverseRecOn with
  | nil => exact ⟨List.not_mem_nil, hI⟩
  | append_singleton as a ih =>
    rw [feed_append]
    by_cases ha : a = sep
    · simpa [feed, push, ha] using hstep _ _ ih.1 ih.2
    · simpa [feed, push, ha, Ne.symm ha] using ih

theorem feed_fst_eq_nil : (feed sep accept ([], t) as).1 = [] ↔ as = [] ∨ as.getLast? = some sep := by
  cases as using List.reverseRecOn with
  | nil => simp
  | append_singleton as a =>
    rw [feed_append]
    by_cases ha : a = sep <;> simp [feed, push, ha]

theorem feed_prefix (accept : σ → List α → σ) (t : σ) (h : ∀ l ∈ lines, sep ∉ l) (hp : as <+: join sep lines) :
    ∃ done, done <+: lines ∧ (feed sep accept ([], t) as).2 = done.foldl accept t := by
  induction lines generalizing t as with
  | nil =>
    obtain rfl : as = [] := List.prefix_nil.mp hp
    exact ⟨[], List.nil_prefix, rfl⟩
  | cons line lines ih =>
    have hsplit : join sep (line :: lines) = (line ++ [sep]) ++ join sep lines := List.flatMap_cons
    rw [hsplit] at hp
    by_cases hlen : as.length ≤ line.length
    · -- the cut is inside the first line
      have has : as <+: line := by
        have hfull : line <+: (line ++ [sep]) ++ join sep lines := by simp
        exact List.prefix_of_prefix_length_le hp hfull hlen
      refine ⟨[], List.nil_prefix, ?_⟩
      rw [feed_plain fun hmem => h line (by simp) (has.subset hmem)]
      rfl
    · have hfirst : line ++ [sep] <+: as :=
        List.prefix_of_prefix_length_le (List.prefix_append ..) hp (by simp; omega)
      obtain ⟨later, rfl⟩ := hfirst
      rw [List.prefix_append_right_inj] at hp
      obtain ⟨done, hdone, hfeed⟩ := ih (accept t line) (fun l hl => h l (by simp [hl])) hp
      refine ⟨line :: done, List.cons_prefix_cons.mpr ⟨rfl, hdone⟩, ?_⟩
      rw [feed_append, feed_line (h line (by simp))]
      exact hfeed

end Lines

end Lib
