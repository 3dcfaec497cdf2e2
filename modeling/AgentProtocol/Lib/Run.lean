-- SUMMARY: Runs of a deterministic step function, conditions along a run, and the invariant rules.
import Mathlib

/-!
# Runs

A system steps on events. `run` is the state after a list of events, `Along P` says
that `P` holds at every event, of the state in which it happens.
-/

namespace Lib

variable {σ ε : Type}

def run (step : σ → ε → σ) (s : σ) (es : List ε) : σ := es.foldl step s

/-- `P` holds of every event and the state before it. -/
def Along (step : σ → ε → σ) (P : σ → ε → Prop) : σ → List ε → Prop
  | _, [] => True
  | s, e :: es => P s e ∧ Along step P (step s e) es

instance Along.decidable (step : σ → ε → σ) (P : σ → ε → Prop) [∀ s e, Decidable (P s e)] :
    (s : σ) → (es : List ε) → Decidable (Along step P s es)
  | _, [] => .isTrue trivial
  | s, e :: es =>
    have := Along.decidable step P (step s e) es
    inferInstanceAs (Decidable (P s e ∧ Along step P (step s e) es))

variable {step : σ → ε → σ} {P Q : σ → ε → Prop} {s : σ} {e : ε} {es es' : List ε}

@[simp] theorem run_nil : run step s [] = s := rfl

@[simp] theorem run_cons : run step s (e :: es) = run step (step s e) es := rfl

@[simp] theorem run_append : run step s (es ++ es') = run step (run step s es) es' :=
  List.foldl_append

@[simp] theorem along_nil : Along step P s [] := trivial

@[simp] theorem along_cons : Along step P s (e :: es) ↔ P s e ∧ Along step P (step s e) es := Iff.rfl

theorem along_append : Along step P s (es ++ es') ↔ Along step P s es ∧ Along step P (run step s es) es' := by
  induction es generalizing s with
  | nil => simp
  | cons e es ih => simp [ih, and_assoc]

theorem along_true : Along step (fun _ _ => True) s es := by
  induction es generalizing s with
  | nil => trivial
  | cons e es ih => exact ⟨trivial, ih⟩

theorem along_of_forall {P : ε → Prop} (h : ∀ e ∈ es, P e) : Along step (fun _ e => P e) s es := by
  induction es generalizing s with
  | nil => trivial
  | cons e es ih => exact ⟨h e List.mem_cons_self, ih fun e' he' => h e' (List.mem_cons_of_mem _ he')⟩

/-- What `f` reports along a run. -/
def observed {α : Type} (step : σ → ε → σ) (f : σ → ε → Option α) : σ → List ε → List α
  | _, [] => []
  | s, e :: es => (f s e).toList ++ observed step f (step s e) es

theorem observed_append {α : Type} {f : σ → ε → Option α} :
    observed step f s (es ++ es') = observed step f s es ++ observed step f (run step s es) es' := by
  induction es generalizing s with
  | nil => rfl
  | cons e es ih => simp [observed, ih]

theorem run_induct {I : List ε → σ → Prop} (h : I [] s)
    (hstep : ∀ pre e, I pre (run step s pre) → I (pre ++ [e]) (step (run step s pre) e)) (es : List ε) :
    I es (run step s es) := by
  induction es using List.reverseRecOn with
  | nil => exact h
  | append_singleton pre e ih =>
    rw [run_append]
    exact hstep pre e ih

variable {I : σ → Prop}

theorem Along.invariant (h : Along step P s es) (hI : I s) (hstep : ∀ s e, I s → P s e → I (step s e)) : I (run step s es) := by
  induction es generalizing s with
  | nil => exact hI
  | cons e es ih => exact ih h.2 (hstep s e hI h.1)

theorem Along.and (hP : Along step P s es) (hQ : Along step Q s es) :
    Along step (fun s e => P s e ∧ Q s e) s es := by
  induction es generalizing s with
  | nil => trivial
  | cons e es ih => exact ⟨⟨hP.1, hQ.1⟩, ih hP.2 hQ.2⟩

theorem Along.imp (h : Along step P s es) (hI : I s) (hstep : ∀ s e, I s → P s e → I (step s e))
    (hPQ : ∀ s e, I s → P s e → Q s e) : Along step Q s es := by
  induction es generalizing s with
  | nil => trivial
  | cons e es ih => exact ⟨hPQ s e hI h.1, ih h.2 (hstep s e hI h.1)⟩

theorem along_congr (hI : I s) (hstep : ∀ s, ∀ e ∈ es, I s → I (step s e))
    (hPQ : ∀ s, ∀ e ∈ es, I s → (P s e ↔ Q s e)) : Along step P s es ↔ Along step Q s es := by
  induction es generalizing s with
  | nil => exact Iff.rfl
  | cons e es ih =>
    refine and_congr (hPQ s e (by simp) hI) ?_
    apply ih (hstep s e (by simp) hI)
    · exact fun s e he => hstep s e (by simp [he])
    · exact fun s e he => hPQ s e (by simp [he])

theorem along_iff (hI : I s) (hPQ : ∀ s e, I s → (P s e ↔ Q s e)) (hkeep : ∀ s e, I s → Q s e → I (step s e)) :
    Along step P s es ↔ Along step Q s es := by
  induction es generalizing s with
  | nil => exact Iff.rfl
  | cons e es ih =>
    rw [along_cons, along_cons, hPQ s e hI]
    constructor
    · exact fun h => ⟨h.1, (ih (hkeep s e hI h.1)).mp h.2⟩
    · exact fun h => ⟨h.1, (ih (hkeep s e hI h.1)).mpr h.2⟩

theorem constant_iff_along {α : Type} {f : σ → α} :
    (∀ pre, pre <+: es → f (run step s pre) = f s) ↔ Along step (fun s e => f (step s e) = f s) s es := by
  induction es generalizing s with
  | nil => simp
  | cons e es ih =>
    rw [along_cons, ← ih]
    constructor
    · intro h
      have he : f (step s e) = f s := h [e] (by simp)
      exact ⟨he, fun pre hpre => (h (e :: pre) (List.cons_prefix_cons.mpr ⟨rfl, hpre⟩)).trans he.symm⟩
    · rintro ⟨he, h⟩ pre hpre
      obtain rfl | ⟨pre', rfl, hpre'⟩ := List.prefix_cons_iff.mp hpre
      · rfl
      · exact (h pre' hpre').trans he

theorem along_of_holds {F : σ → ε → Prop} {I J : σ → Prop} (hJ : J s) (hF : Along step F s es)
    (hkeep : ∀ s e, J s → F s e → P s e → J (step s e)) (hbreak : ∀ s e, J s → F s e → ¬ P s e → ¬ I (step s e))
    (h : ∀ pre, pre <+: es → I (run step s pre)) : Along step P s es := by
  induction es generalizing s with
  | nil => exact along_nil
  | cons e es ih =>
    have hnext : ∀ pre, pre <+: es → I (run step (step s e) pre) := fun pre hpre =>
      h (e :: pre) (List.cons_prefix_cons.mpr ⟨rfl, hpre⟩)
    have he : P s e := by
      by_contra hnot
      exact hbreak s e hJ hF.1 hnot (hnext [] List.nil_prefix)
    exact ⟨he, ih (hkeep s e hJ hF.1 he) hF.2 hnext⟩

theorem Along.holds {I J : σ → Prop} (h : Along step P s es) (hJ : J s) (hI : ∀ s, J s → I s)
    (hkeep : ∀ s e, J s → P s e → J (step s e)) : ∀ pre, pre <+: es → I (run step s pre) := by
  rintro pre ⟨later, rfl⟩
  exact hI _ ((along_append.mp h).1.invariant hJ hkeep)

theorem holds_iff_along {I J : σ → Prop} (hJ : J s) (hI : ∀ s, J s → I s) (hkeep : ∀ s e, J s → P s e → J (step s e))
    (hbreak : ∀ s e, J s → ¬ P s e → ¬ I (step s e)) : (∀ pre, pre <+: es → I (run step s pre)) ↔ Along step P s es := by
  constructor
  · intro h
    exact along_of_holds hJ along_true (fun s e hs _ => hkeep s e hs) (fun s e hs _ => hbreak s e hs) h
  · exact fun h => h.holds hJ hI hkeep

theorem run_countP {f : σ → ℕ} {p : ε → Bool} (h : ∀ s, ∀ e ∈ es, f (step s e) = f s + (p e).toNat) :
    f (run step s es) = f s + es.countP p := by
  induction es generalizing s with
  | nil => rfl
  | cons e es ih =>
    have he : f (step s e) = f s + (p e).toNat := h s e (by simp)
    rw [run_cons, ih fun s e he => h s e (by simp [he]), he, List.countP_cons]
    cases p e with
    | false => simp
    | true => simp only [Bool.toNat_true, if_true]; omega

theorem run_invariant (hI : I s) (hstep : ∀ s e, I s → I (step s e)) : I (run step s es) := by
  induction es generalizing s with
  | nil => exact hI
  | cons e es ih => exact ih (hstep s e hI)

end Lib
