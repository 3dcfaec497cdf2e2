-- SUMMARY: Patterns with wildcards as languages, and how a text is matched with one from the left.
import Mathlib

/-!
# Globs

A pattern is a list of pieces: one letter that passes a test, or any text. Its language is the product of the languages of
its pieces. The equations below read a text from the left, as matchers do.
-/

namespace Lib.Glob

variable {α : Type}

/-- A piece of a pattern. -/
inductive Piece (α : Type) where
  /-- Any text. -/
  | many
  /-- One letter that passes a test. -/
  | one (test : α → Bool)

def Piece.language : Piece α → Language α
  | .many => ⊤
  | .one test => {text | ∃ c, test c = true ∧ text = [c]}

/-- The texts that a pattern stands for. -/
def language (pattern : List (Piece α)) : Language α := (pattern.map Piece.language).prod

variable {pattern : List (Piece α)} {text : List α}

theorem language_cons (piece : Piece α) (pattern : List (Piece α)) : language (piece :: pattern) = piece.language * language pattern :=
  List.prod_cons

@[simp] theorem mem_language_nil : text ∈ language ([] : List (Piece α)) ↔ text = [] := Language.mem_one text

theorem mem_language_many_cons : text ∈ language (.many :: pattern) ↔ ∃ pre post, pre ++ post = text ∧ post ∈ language pattern := by
  rw [language_cons, Language.mem_mul]
  constructor
  · rintro ⟨pre, -, post, hpost, heq⟩
    exact ⟨pre, post, heq, hpost⟩
  · rintro ⟨pre, post, heq, hpost⟩
    exact ⟨pre, trivial, post, hpost, heq⟩

theorem mem_language_one_cons {test : α → Bool} : text ∈ language (.one test :: pattern) ↔
    ∃ c rest, text = c :: rest ∧ test c = true ∧ rest ∈ language pattern := by
  rw [language_cons, Language.mem_mul]
  constructor
  · rintro ⟨-, ⟨c, hc, rfl⟩, rest, hrest, rfl⟩
    exact ⟨c, rest, rfl, hc, hrest⟩
  · rintro ⟨c, rest, rfl, hc, hrest⟩
    exact ⟨[c], ⟨c, hc, rfl⟩, rest, hrest, rfl⟩

theorem mem_language_many_cons_iff : text ∈ language (.many :: pattern) ↔
    text ∈ language pattern ∨ ∃ c rest, text = c :: rest ∧ rest ∈ language (.many :: pattern) := by
  rw [mem_language_many_cons]
  constructor
  · rintro ⟨pre, post, rfl, hpost⟩
    cases pre with
    | nil => exact .inl hpost
    | cons c pre => exact .inr ⟨c, pre ++ post, rfl, mem_language_many_cons.mpr ⟨pre, post, rfl, hpost⟩⟩
  · rintro (htext | ⟨c, rest, rfl, hrest⟩)
    · exact ⟨[], text, rfl, htext⟩
    · obtain ⟨pre, post, rfl, hpost⟩ := mem_language_many_cons.mp hrest
      exact ⟨c :: pre, post, rfl, hpost⟩

end Lib.Glob
