-- SUMMARY: Steps that fail with an error: what a successful sequence says about its steps.
import Mathlib.Init

namespace Lib

variable {ε α β : Type}

theorem bind_eq_ok {x : Except ε α} {f : α → Except ε β} {b : β} : (x >>= f) = .ok b ↔ ∃ a, x = .ok a ∧ f a = .ok b := by
  cases x <;> simp [bind, Except.bind]

theorem map_eq_ok {f : α → β} {x : Except ε α} {b : β} : x.map f = .ok b ↔ ∃ a, x = .ok a ∧ f a = b := by
  cases x <;> simp [Except.map]

theorem exists_ok {x : Except ε α} (h : x.isOk = true) : ∃ a, x = .ok a := by
  cases x with
  | ok a => exact ⟨a, rfl⟩
  | error e => exact Bool.noConfusion h

/-- A value, or the error that there is none. -/
def orFail (error : ε) : Option α → Except ε α
  | some a => .ok a
  | none => .error error

@[simp] theorem orFail_eq_ok {error : ε} {o : Option α} {a : α} : orFail error o = .ok a ↔ o = some a := by
  cases o <;> simp [orFail]

end Lib
