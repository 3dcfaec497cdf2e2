-- SUMMARY: Threads made of atomic sections, pools of them under an arbitrary schedule, and the rely-guarantee rule for pools.
import AgentProtocol.Lib.Run

/-!
# Threads

A thread is a sequence of atomic sections on a shared state. What comes after a section
may depend on the state that the section found and on an input, such as the time or the
answer of somebody outside. Sections are named by a type `ε`, and `exec` says what they
do to the state.

A pool is a state with threads. An event picks the thread that runs its next section,
and the input; further threads may be started. `Thread.Safe` is the usual rely-guarantee
judgement, and a pool of safe threads keeps the invariant under every schedule.
`Thread.Keeps` is the judgement for a thread that runs alone.
-/

namespace Lib

inductive Thread (σ ι ε : Type) where
  | done
  | step (e : ε) (next : σ → ι → Thread σ ι ε)

structure Pool (σ ι ε : Type) where
  state : σ
  threads : List (Thread σ ι ε)

variable {σ ι ε : Type} (exec : σ → ι → ε → σ)

namespace Pool

/-- The section that a thread would run next. -/
def pending (p : Pool σ ι ε) (i : ℕ) : Option ε :=
  match p.threads[i]? with
  | some (.step e _) => some e
  | _ => none

/-- A thread runs its next section. -/
def step (p : Pool σ ι ε) (ev : ℕ × ι) : Pool σ ι ε :=
  match p.threads[ev.1]? with
  | some (.step e next) =>
    { state := exec p.state ev.2 e, threads := p.threads.set ev.1 (next p.state ev.2) }
  | _ => p

/-- Start further threads. -/
def spawn (p : Pool σ ι ε) (ts : List (Thread σ ι ε)) : Pool σ ι ε := { p with threads := p.threads ++ ts }

theorem step_cases (p : Pool σ ι ε) (ev : ℕ × ι) : (∃ e next, p.threads[ev.1]? = some (.step e next) ∧ p.pending ev.1 = some e ∧
      p.step exec ev = { state := exec p.state ev.2 e, threads := p.threads.set ev.1 (next p.state ev.2) }) ∨
    (p.pending ev.1 = none ∧ p.step exec ev = p) := by
  unfold step pending
  split
  · rename_i e next h
    exact .inl ⟨e, next, h, rfl, rfl⟩
  · exact .inr ⟨rfl, rfl⟩

theorem step_state (p : Pool σ ι ε) (ev : ℕ × ι) :
    (p.step exec ev).state = match p.pending ev.1 with
      | some e => exec p.state ev.2 e
      | none => p.state := by
  rcases p.step_cases exec ev with ⟨e, next, -, hpending, hstep⟩ | ⟨hpending, hstep⟩
  · rw [hstep, hpending]
  · rw [hstep, hpending]

end Pool

/-! ## One thread alone -/

/-- The thread has nothing left to run. -/
def Thread.finished : Thread σ ι ε → Bool
  | .done => true
  | .step _ _ => false

/-- Run alone from `s`, every section keeps `inv`, and `post` holds at the end. Only inputs
that meet `given` count. -/
def Thread.Keeps (given : σ → ι → ε → Prop) (inv post : σ → Prop) : Thread σ ι ε → σ → Prop
  | .done, s => post s
  | .step e next, s => ∀ i, given s i e →
      inv (exec s i e) ∧ Thread.Keeps given inv post (next s i) (exec s i e)

theorem Thread.keeps_each {exec : σ → ι → ε → σ} {given : σ → ι → ε → Prop} {inv post A : σ → Prop} {α : Type}
    {f : α → Thread σ ι ε → Thread σ ι ε} {l : List α}
    (hf : ∀ x ∈ l, ∀ k : Thread σ ι ε, (∀ s, A s → k.Keeps exec given inv post s) →
      ∀ s, A s → (f x k).Keeps exec given inv post s) {k : Thread σ ι ε} (hk : ∀ s, A s → k.Keeps exec given inv post s) :
    ∀ s, A s → (l.foldr f k).Keeps exec given inv post s := by
  induction l with
  | nil => exact hk
  | cons x l ih =>
    apply hf x (by simp)
    exact ih fun y hy => hf y (by simp [hy])

/-! ## Rely and guarantee -/

/-- From `s` on, whatever the others do within `rely` while `inv` holds, every section
keeps `inv`, stays within `rely` itself, and leads to a thread that is safe again;
`post` holds at the end. Only inputs that meet `given` count. -/
def Thread.Safe (given : σ → ι → ε → Prop) (inv : σ → Prop) (rely : σ → σ → Prop) (post : σ → Prop) :
    Thread σ ι ε → σ → Prop
  | .done, s => ∀ s', rely s s' → inv s' → post s'
  | .step e next, s => ∀ s', rely s s' → inv s' → ∀ i, given s' i e →
      inv (exec s' i e) ∧ rely s' (exec s' i e) ∧ Thread.Safe given inv rely post (next s' i) (exec s' i e)

variable {exec} {given : σ → ι → ε → Prop} {inv : σ → Prop} {rely : σ → σ → Prop} {post : σ → Prop}

theorem Thread.Safe.wait {t : Thread σ ι ε} {s s' : σ} (htrans : ∀ a b c, rely a b → rely b c → rely a c)
    (h : t.Safe exec given inv rely post s) (hrely : rely s s') : t.Safe exec given inv rely post s' := by
  cases t with
  | done | step => exact fun s'' hrely' => h s'' (htrans _ _ _ hrely hrely')

theorem Thread.safe_each {α : Type} {f : α → Thread σ ι ε → Thread σ ι ε} {l : List α} {s : σ}
    (hf : ∀ x ∈ l, ∀ (k : Thread σ ι ε) s', rely s s' → k.Safe exec given inv rely post s' →
      (f x k).Safe exec given inv rely post s') {k : Thread σ ι ε} : ∀ s', rely s s' → k.Safe exec given inv rely post s' →
      (l.foldr f k).Safe exec given inv rely post s' := by
  induction l with
  | nil => exact fun _ _ hk => hk
  | cons x l ih =>
    intro s' hrely hk
    apply hf x (by simp) _ s' hrely
    exact ih (fun y hy => hf y (by simp [hy])) s' hrely hk

namespace Pool

/-- The input of an event meets what the section it runs is given. -/
def Given (given : σ → ι → ε → Prop) (p : Pool σ ι ε) (ev : ℕ × ι) : Prop :=
  ∀ e, p.pending ev.1 = some e → given p.state ev.2 e

/-- The invariant holds and every thread is safe. -/
def Sound (exec : σ → ι → ε → σ) (given : σ → ι → ε → Prop) (inv : σ → Prop) (rely : σ → σ → Prop)
    (p : Pool σ ι ε) : Prop :=
  inv p.state ∧ ∀ t ∈ p.threads, t.Safe exec given inv rely (fun _ => True) p.state

theorem sound_step (hrefl : ∀ s, rely s s) (htrans : ∀ a b c, rely a b → rely b c → rely a c)
    {p : Pool σ ι ε} (hp : p.Sound exec given inv rely) {ev : ℕ × ι} (hev : p.Given given ev) :
    (p.step exec ev).Sound exec given inv rely := by
  obtain ⟨hinv, hthreads⟩ := hp
  rcases p.step_cases exec ev with ⟨e, next, ht, hpending, hstep⟩ | ⟨-, hstep⟩
  · have hsafe := hthreads _ (List.mem_of_getElem? ht)
    obtain ⟨hinv', hrely', hnext⟩ := hsafe p.state (hrefl _) hinv ev.2 (hev e hpending)
    rw [hstep]
    refine ⟨hinv', fun t ht => ?_⟩
    rcases List.mem_or_eq_of_mem_set ht with ht | rfl
    · exact (hthreads t ht).wait htrans hrely'
    · exact hnext
  · rw [hstep]
    exact ⟨hinv, hthreads⟩

theorem sound_spawn {p : Pool σ ι ε} (hp : p.Sound exec given inv rely) {ts : List (Thread σ ι ε)}
    (hts : ∀ t ∈ ts, t.Safe exec given inv rely (fun _ => True) p.state) : (p.spawn ts).Sound exec given inv rely := by
  refine ⟨hp.1, fun t ht => ?_⟩
  rcases List.mem_append.mp ht with ht | ht
  · exact hp.2 t ht
  · exact hts t ht

end Pool

end Lib
