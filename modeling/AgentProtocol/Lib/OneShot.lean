-- SUMMARY: Offers that are taken at most once: a step rule and what it says of every run.
import AgentProtocol.Lib.Run

/-!
# Offers

A system makes offers under new names, some of which are pending. What is taken was pending and is not any
more, and a name that was once offered is not offered again. So nothing is taken twice.
-/

namespace Lib

variable {σ ε ι : Type}

/-- The rule for a step under a condition `P`. -/
structure OneShot (step : σ → ε → σ) (P : σ → ε → Prop) (taken : σ → ε → Option ι) (offered pending : σ → ι → Prop) : Prop where
  keeps : ∀ {s e i}, P s e → offered s i → offered (step s e) i
  opens : ∀ {s e i}, P s e → pending (step s e) i → pending s i ∨ ¬ offered s i ∧ offered (step s e) i
  takes : ∀ {s e i}, P s e → taken s e = some i → pending s i ∧ ¬ pending (step s e) i

namespace OneShot

variable {step : σ → ε → σ} {P : σ → ε → Prop} {taken : σ → ε → Option ι} {offered pending : σ → ι → Prop} {s : σ} {e : ε} {es : List ε} {i : ι}

theorem pending_offered (h : OneShot step P taken offered pending) (he : P s e) (hs : ∀ i, pending s i → offered s i) :
    ∀ i, pending (step s e) i → offered (step s e) i := fun i hi =>
  match h.opens he hi with
  | .inl hold => h.keeps he (hs i hold)
  | .inr hnew => hnew.2

variable (h : OneShot step P taken offered pending) (hP : Along step P s es) (hs : ∀ i, pending s i → offered s i)
include h hP hs

theorem mem_observed (hi : i ∈ observed step taken s es) : pending s i ∨ ¬ offered s i := by
  induction es generalizing s with
  | nil => cases hi
  | cons e es ih =>
    rcases List.mem_append.mp hi with hnow | hlater
    · exact .inl (h.takes hP.1 (Option.mem_toList.mp hnow)).1
    · rcases ih hP.2 (h.pending_offered hP.1 hs) hlater with hpending | hnot
      · exact (h.opens hP.1 hpending).imp_right And.left
      · exact .inr fun hoffered => hnot (h.keeps hP.1 hoffered)

theorem nodup : (observed step taken s es).Nodup := by
  induction es generalizing s with
  | nil => exact List.nodup_nil
  | cons e es ih =>
    have hs' := h.pending_offered hP.1 hs
    have hrest := ih hP.2 hs'
    unfold observed
    cases htaken : taken s e with
    | none => exact hrest
    | some i =>
      obtain ⟨hpending, hnot⟩ := h.takes hP.1 htaken
      refine List.nodup_cons.mpr ⟨fun hagain => ?_, hrest⟩
      rcases h.mem_observed hP.2 hs' hagain with hstill | hnever
      · exact hnot hstill
      · exact hnever (h.keeps hP.1 (hs i hpending))

omit h hP hs

end OneShot

end Lib
