-- SUMMARY: Streams of words of a prefix-free code: what is unfinished, the only way to take a stream apart, and where a stream breaks off.
import Mathlib

/-!
# Prefix-free codes

No word of the code begins another one. A stream is a sequence of words and the beginning of one more, which may be
empty; it is taken apart in one way only, whoever reads it.
-/

namespace Lib

variable {α : Type}

structure PrefixFree (code : Set (List α)) : Prop where
  nonempty : ∀ t ∈ code, t ≠ []
  eq_of_prefix : ∀ t ∈ code, ∀ t' ∈ code, t <+: t' → t = t'

namespace PrefixFree

variable (code : Set (List α))

/-- The beginning of a word that is not the word. -/
def Unfinished (p : List α) : Prop := p = [] ∨ ∃ t ∈ code, p <+: t ∧ p ≠ t

/-- Words and the beginning of one more. -/
def IsStream (u : List α) : Prop := ∃ (ts : List (List α)) (p : List α), (∀ t ∈ ts, t ∈ code) ∧ Unfinished code p ∧ u = ts.flatten ++ p

variable {code} {ts ts' : List (List α)} {t t' p p' u rest : List α} {a : α}

theorem unfinished_nil : Unfinished code [] := .inl rfl

theorem not_prefix_unfinished (h : PrefixFree code) (ht : t ∈ code) (hp : Unfinished code p) : ¬t <+: p := by
  intro hpre
  rcases hp with rfl | ⟨t', ht', hp, hne⟩
  · exact h.nonempty t ht (List.prefix_nil.mp hpre)
  · obtain rfl := h.eq_of_prefix t ht t' ht' (hpre.trans hp)
    exact hne (hp.eq_of_length_le hpre.length_le)

theorem eq_of_append_eq (h : PrefixFree code) (ht : t ∈ code) (ht' : t' ∈ code) (heq : t ++ u = t' ++ rest) : t = t' := by
  rcases List.prefix_or_prefix_of_prefix (List.prefix_append t u) (heq ▸ List.prefix_append t' rest) with hpre | hpre
  · exact h.eq_of_prefix t ht t' ht' hpre
  · exact (h.eq_of_prefix t' ht' t ht hpre).symm

theorem unique (h : PrefixFree code) (hts : ∀ t ∈ ts, t ∈ code) (hts' : ∀ t ∈ ts', t ∈ code) (hp : Unfinished code p)
    (hp' : Unfinished code p') (heq : ts.flatten ++ p = ts'.flatten ++ p') : ts = ts' ∧ p = p' := by
  induction ts generalizing ts' with
  | nil =>
    cases ts' with
    | nil => exact ⟨rfl, heq⟩
    | cons t' ts' =>
      have hpre : t' <+: p := ⟨ts'.flatten ++ p', by simpa using heq.symm⟩
      exact absurd hpre (h.not_prefix_unfinished (hts' t' (by simp)) hp)
  | cons t ts ih =>
    cases ts' with
    | nil =>
      have hpre : t <+: p' := ⟨ts.flatten ++ p, by simpa using heq⟩
      exact absurd hpre (h.not_prefix_unfinished (hts t (by simp)) hp')
    | cons t' ts' =>
      rw [List.flatten_cons, List.flatten_cons, List.append_assoc, List.append_assoc] at heq
      obtain rfl := h.eq_of_append_eq (hts t (by simp)) (hts' t' (by simp)) heq
      obtain ⟨rfl, rfl⟩ := ih (fun w hw => hts w (by simp [hw])) (fun w hw => hts' w (by simp [hw])) (List.append_cancel_left heq)
      exact ⟨rfl, rfl⟩

theorem not_isStream (h : PrefixFree code) (hts : ∀ t ∈ ts, t ∈ code) (ha : ∀ t ∈ code, t.head? ≠ some a) :
    ¬IsStream code (ts.flatten ++ a :: rest) := by
  rintro ⟨ts', p, hts', hp, heq⟩
  induction ts generalizing ts' with
  | nil =>
    cases ts' with
    | nil =>
      obtain rfl : p = a :: rest := by simpa using heq.symm
      rcases hp with hp | ⟨t, ht, ⟨later, rfl⟩, -⟩
      · cases hp
      exact ha _ ht rfl
    | cons t' ts' =>
      obtain ⟨b, bs, hb⟩ := List.exists_cons_of_ne_nil (h.nonempty t' (hts' t' (by simp)))
      rw [hb] at heq
      have hhead : a = b := by simpa using congrArg List.head? heq
      exact ha t' (hts' t' (by simp)) (by rw [hb, hhead]; rfl)
  | cons t ts ih =>
    cases ts' with
    | nil =>
      have hpre : t <+: p := ⟨ts.flatten ++ a :: rest, by simpa using heq⟩
      exact h.not_prefix_unfinished (hts t (by simp)) hp hpre
    | cons t' ts' =>
      rw [List.flatten_cons, List.flatten_cons, List.append_assoc, List.append_assoc] at heq
      obtain rfl := h.eq_of_append_eq (hts t (by simp)) (hts' t' (by simp)) heq
      exact ih (fun w hw => hts w (by simp [hw])) _ (fun w hw => hts' w (by simp [hw])) (List.append_cancel_left heq)

theorem isStream_of_prefix (h : IsStream code (u ++ rest)) : IsStream code u := by
  obtain ⟨ts, p, hts, hp, heq⟩ := h
  induction ts generalizing u with
  | nil =>
    have hpre : u <+: p := ⟨rest, heq⟩
    refine ⟨[], u, by simp, ?_, by simp⟩
    rcases hp with rfl | ⟨t, ht, hpt, hne⟩
    · exact .inl (List.prefix_nil.mp hpre)
    · refine .inr ⟨t, ht, hpre.trans hpt, ?_⟩
      rintro rfl
      exact hne (hpt.eq_of_length_le hpre.length_le)
  | cons t ts ih =>
    rw [List.flatten_cons, List.append_assoc] at heq
    rcases List.prefix_or_prefix_of_prefix (List.prefix_append u rest) (heq ▸ List.prefix_append t _) with hpre | hpre
    · by_cases hut : u = t
      · exact ⟨[t], [], by simpa using hts t (by simp), unfinished_nil, by simp [hut]⟩
      · exact ⟨[], u, by simp, .inr ⟨t, hts t (by simp), hpre, hut⟩, by simp⟩
    · obtain ⟨later, rfl⟩ := hpre
      rw [List.append_assoc] at heq
      obtain ⟨ts', p', hts', hp', rfl⟩ := ih (fun w hw => hts w (by simp [hw])) (List.append_cancel_left heq)
      refine ⟨t :: ts', p', ?_, hp', by simp⟩
      intro w hw
      rcases List.mem_cons.mp hw with rfl | hw
      · exact hts _ (by simp)
      · exact hts' w hw

end PrefixFree

end Lib
