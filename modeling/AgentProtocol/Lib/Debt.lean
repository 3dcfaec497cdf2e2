-- SUMMARY: What threads have still to do: sections that a thread runs on every path, and what holds of each section with what follows it.
import AgentProtocol.Lib.Thread

/-!
# Debts of threads

A thread may change the shared state in one section and make up for it in a later one, as
a writer does that records a change after it has let go of the lock. `Thread.Owes want`
says that whatever happens, a section that meets `want` is still to come, and
`Thread.Throughout P` that `P` holds of every section and of what follows it.

A pool owes what one of its threads owes. The debt stays until such a section is run, and
a pool whose threads are all finished owes nothing.
-/

namespace Lib

variable {σ ι ε : Type}

namespace Thread

/-- On every path the thread runs a section that meets `want`. -/
inductive Owes (want : ε → Prop) : Thread σ ι ε → Prop
  | now {e : ε} {next : σ → ι → Thread σ ι ε} (h : want e) : Owes want (.step e next)
  | later {e : ε} {next : σ → ι → Thread σ ι ε} (h : ∀ s i, Owes want (next s i)) : Owes want (.step e next)

/-- `P` holds of every section together with what follows it. -/
def Throughout (P : ε → (σ → ι → Thread σ ι ε) → Prop) : Thread σ ι ε → Prop
  | .done => True
  | .step e next => P e next ∧ ∀ s i, Throughout P (next s i)

variable {want : ε → Prop}

theorem not_owes_of_finished {t : Thread σ ι ε} (h : t.finished = true) : ¬ t.Owes want := by
  intro howes
  cases howes with
  | now | later => cases h

theorem Owes.next {e : ε} {next : σ → ι → Thread σ ι ε} (h : (Thread.step e next).Owes want) (he : ¬ want e) (s : σ)
    (i : ι) : (next s i).Owes want := by
  cases h with
  | now hwant => exact absurd hwant he
  | later hnext => exact hnext s i

end Thread

namespace Pool

variable {want : ε → Prop}

/-- Some thread owes. -/
def Owed (p : Pool σ ι ε) (want : ε → Prop) : Prop := ∃ t ∈ p.threads, t.Owes want

theorem not_owed_of_finished {p : Pool σ ι ε} (h : ∀ t ∈ p.threads, t.finished = true) : ¬ p.Owed want := by
  rintro ⟨t, ht, howes⟩
  exact Thread.not_owes_of_finished (h t ht) howes

variable {s : σ} {ts : List (Thread σ ι ε)} {n : ℕ} {e : ε} {next : σ → ι → Thread σ ι ε}

theorem owed_of_next (hn : ts[n]? = some (.step e next)) {t : Thread σ ι ε} (ht : t.Owes want) :
    Pool.Owed { state := s, threads := ts.set n t } want := by
  obtain ⟨hlt, -⟩ := List.getElem?_eq_some_iff.mp hn
  exact ⟨t, List.mem_set hlt t, ht⟩

theorem Owed.set {s' : σ} (h : Pool.Owed { state := s, threads := ts } want) (hn : ts[n]? = some (.step e next))
    (he : ¬ want e) (s₀ : σ) (i : ι) : Pool.Owed { state := s', threads := ts.set n (next s₀ i) } want := by
  obtain ⟨t, ht, howes⟩ := h
  obtain ⟨j, hj⟩ := List.mem_iff_getElem?.mp ht
  rcases eq_or_ne n j with rfl | hne
  · -- the thread at hand owes, so what follows its section does
    obtain rfl : t = .step e next := Option.some.inj (hj.symm.trans hn)
    exact owed_of_next hn (howes.next he s₀ i)
  · exact ⟨t, List.mem_of_getElem? ((List.getElem?_set_ne hne).trans hj), howes⟩

theorem Owed.spawn {p : Pool σ ι ε} (h : p.Owed want) (ts : List (Thread σ ι ε)) : (p.spawn ts).Owed want := by
  obtain ⟨t, ht, howes⟩ := h
  exact ⟨t, List.mem_append_left _ ht, howes⟩

end Pool

end Lib
