-- SUMMARY: The fallback loop of completion: which deployments it tries, where it ends, and what the state is told of it.
import AgentProtocol.Router.Calls

namespace AgentProtocol.Router

open Lib

variable {T C : Type}

/-! ## Attempts -/

inductive AttemptOutcome where
  | succeeded (response : Value)
  | failed (error : CallError)
  | cancelled

def attemptOutcome (deployment : Deployment T) (attempt : Attempt T) : AttemptOutcome :=
  match requestKwargsError deployment, attempt.reply with
  | some error, _ => .failed error
  | none, .raised error => .failed error
  | none, .response response => .succeeded response
  | none, .cancelled => .cancelled

/-- The tokens of a response can be divided by, and added up. -/
def Countable (response : Value) : Prop :=
  (usageEntry response "completion_tokens").divides = .ok () ∧
    ∃ sum, (usageEntry response "prompt_tokens").add (usageEntry response "completion_tokens") = .ok sum

/-- What a call does, its events apart. -/
def Trace.work (t : Trace T C) : List (Effect T C) := t.effects.filter fun
  | .report (.emit _) => false
  | .report (.background _) => false
  | _ => true

/-- The outcome of a call that is left to end when an event was awaited. -/
def Delivery.ending (delivery : Delivery) (outcome : Outcome) : Outcome := if delivery = .done then outcome else .cancelled

section Spec

variable (router : Settings T) (attempts : ℕ → Attempt T) (final : Delivery)

/-- What is done in the attempts from this number on, at these deployments. -/
def workOf : ℕ → List (Deployment T) → List (Effect T C)
  | _, [] => []
  | i, d :: tried => .attempted i d :: (match attemptOutcome d (attempts i) with
    | .succeeded response => [.report (.onSuccess d.id (attempts i).latency (usageEntry response "completion_tokens"))]
    | .failed error => .failed d.id :: if isRequestSideError error then [] else [.report (.onFailure d.id)]
    | .cancelled => []) ++ workOf (i + 1) tried

/-- The outcome of a call that has `n` attempts to make from this number on, and makes them at these deployments. -/
def EndsWith : ℕ → ℕ → List (Deployment T) → Outcome → Prop
  | i, n, [], outcome =>
    n = 0 ∧ outcome = final.ending (.raised allDeploymentsFailed) ∨
      router.fallbackToFirstOnEmptySelection = false ∧ (attempts i).selection = .chosen none ∧
        outcome = if i = 0 then ((attempts i).emits .allDeploymentsExhausted).ending (.raised noDeploymentAvailable)
          else final.ending (.raised allDeploymentsFailed)
  | i, n, d :: tried, outcome => match attemptOutcome d (attempts i) with
    | .succeeded response => tried = [] ∧ outcome = ((attempts i).emits .requestSucceeded).ending (.returned (some response))
    | .failed _ => EndsWith (i + 1) (n - 1) tried outcome ∨
        tried = [] ∧ (attempts i).emits .requestRetried ≠ .done ∧ outcome = .cancelled
    | .cancelled => tried = [] ∧ outcome = .cancelled

def givenTo (available : List (Deployment T)) : ℕ → List (Deployment T)
  | 0 => available
  | i + 1 => match selectDeployment router (attempts i).selection (givenTo available i) with
    | .chosen (some d) => (givenTo available i).filter fun x => x.id ≠ d.id
    | _ => givenTo available i

end Spec

/-! ## The loop -/

section Loop

variable {router : Settings T} {model : String} {attempts : ℕ → Attempt T} {final : Delivery} {available : List (Deployment T)}

@[simp] theorem work_emitting (event : RoutingEvent T) (delivery : Delivery) (interrupted next : Trace T C) :
    (emitting event delivery interrupted next).work = if delivery = .done then next.work else interrupted.work := by
  rcases delivery with _ | (_ | _) <;> rfl

@[simp] theorem outcome_emitting (event : RoutingEvent T) (delivery : Delivery) {interrupted : Trace T C}
    (h : interrupted.outcome = .cancelled) (next : Trace T C) :
    (emitting event delivery interrupted next).outcome = delivery.ending next.outcome := by
  rcases delivery with _ | (_ | _)
  · rfl
  · exact h
  · exact h

theorem workOf_cons (i : ℕ) (d : Deployment T) (tried : List (Deployment T)) :
    (workOf attempts i (d :: tried) : List (Effect T C)) = workOf attempts i [d] ++ workOf attempts (i + 1) tried := by
  simp [workOf]

theorem work_failed {i : ℕ} {d : Deployment T} {error : CallError} {t : Trace T C} (h : attemptOutcome d (attempts i) = .failed error) :
    (Trace.after [.attempted i d] (.after [.failed d.id] (reportFailure d error t))).work = workOf attempts i [d] ++ t.work := by
  simp only [workOf, h, reportFailure]
  split <;> rfl

theorem outcome_failed {i : ℕ} {d : Deployment T} {error : CallError} {t : Trace T C} :
    (Trace.after [.attempted i d] (.after [.failed d.id] (reportFailure d error t))).outcome = t.outcome := by
  unfold reportFailure
  split <;> rfl

theorem retried_cases (last : Bool) (event : RoutingEvent T) (delivery : Delivery) (next : Trace T C) :
    let t := if last then next else emitting event delivery (.ended .cancelled) next
    t.work = next.work ∧ t.outcome = next.outcome ∨ delivery ≠ .done ∧ t.work = [] ∧ t.outcome = .cancelled := by
  cases last with
  | true => exact .inl ⟨rfl, rfl⟩
  | false =>
    rcases delivery with _ | (_ | _)
    · exact .inl ⟨rfl, rfl⟩
    · exact .inr ⟨by rintro ⟨⟩, rfl, rfl⟩
    · exact .inr ⟨by rintro ⟨⟩, rfl, rfl⟩

theorem attemptCompletion_eq (d : Deployment T) {attempt : Attempt T} (failed : CallError → Trace T C)
    (hcount : ∀ response, attempt.reply = .response response → Countable response) :
    attemptCompletion model d attempt failed = match attemptOutcome d attempt with
      | .succeeded response =>
        Trace.reporting (.onSuccess d.id attempt.latency (usageEntry response "completion_tokens"))
          (emitting (requestSucceeded model d attempt.latency (usageEntry response "completion_tokens")
            (usageEntry response "prompt_tokens")) (attempt.emits .requestSucceeded) (requestCancelled model)
            (.ended (.returned (some response))))
      | .failed error => failed error
      | .cancelled => requestCancelled model := by
  rw [attemptCompletion, attemptOutcome]
  cases requestKwargsError d with
  | some error => rfl
  | none =>
    cases hreply : attempt.reply with
    | raised error => rfl
    | cancelled => rfl
    | response response =>
      obtain ⟨hdivides, sum, hsum⟩ := hcount response hreply
      simp only [hdivides, hsum]

theorem length_left {left : List (Deployment T)} (hnodup : (left.map Deployment.id).Nodup) {d : Deployment T} (hd : d ∈ left) :
    (left.filter fun x => x.id ≠ d.id).length = left.length - 1 := by
  have hone : left.countP (fun x => x.id = d.id) = 1 := by
    have h := List.count_eq_one_of_mem hnodup (List.mem_map_of_mem hd)
    rwa [List.count, List.countP_map] at h
  have hsum := List.length_eq_countP_add_countP (fun x : Deployment T => decide (x.id = d.id)) (l := left)
  rw [← List.countP_eq_length_filter]
  simp only [ne_eq, decide_not, decide_eq_true_eq] at hsum ⊢
  omega

theorem select_cases {left : List (Deployment T)} {selection : Selection T} (hleft : left ≠ [])
    (h : ∃ d, selection = .chosen d ∧ ∀ x ∈ d, x ∈ left) :
    (∃ d ∈ left, selectDeployment router selection left = .chosen (some d)) ∨
      router.fallbackToFirstOnEmptySelection = false ∧ selection = .chosen none ∧
        selectDeployment router selection left = .chosen none := by
  obtain ⟨d, rfl, hd⟩ := h
  cases d with
  | some d => exact .inl ⟨d, hd d rfl, rfl⟩
  | none =>
    obtain ⟨d, rest, rfl⟩ := List.exists_cons_of_ne_nil hleft
    cases hfallback : router.fallbackToFirstOnEmptySelection with
    | true => exact .inl ⟨d, List.mem_cons_self, by simp [selectDeployment, hfallback]⟩
    | false => exact .inr ⟨rfl, rfl, by simp [selectDeployment, hfallback]⟩

theorem completionLoop_falls_back (hstrict : router.strictFallbackErrors = false)
    (hmember : ∀ i, ∃ d, (attempts i).selection = .chosen d ∧ ∀ x ∈ d, x ∈ givenTo router attempts available i)
    (hcount : ∀ i response, (attempts i).reply = .response response → Countable response) {total : ℕ} (remaining : ℕ) :
    ∀ {i : ℕ} {left : List (Deployment T)} {previous : Option (Deployment T)} {failure : Option (Deployment T × CallError)},
      total = i + remaining → left = givenTo router attempts available i → left ≠ [] → (left.map Deployment.id).Nodup →
      (failure = none ↔ i = 0) →
      let t : Trace T C := completionLoop router model total attempts final remaining left previous failure
      ∃ tried, tried ⊆ left ∧ (tried.map Deployment.id).Nodup ∧ t.work = workOf attempts i tried ∧
        EndsWith router attempts final i (min remaining left.length) tried t.outcome := by
  induction remaining with
  | zero =>
    intro i left previous failure _ _ _ _ _
    refine ⟨[], List.nil_subset _, List.nodup_nil, ?_, .inl ⟨Nat.zero_min _, ?_⟩⟩
    · rw [completionLoop, retryLoop, work_emitting]
      exact ite_self _
    · rw [completionLoop, retryLoop, outcome_emitting _ _ rfl]
      rfl
  | succ remaining ih =>
    intro i left previous failure htotal hgiven hleft hnodup hfirst
    have hi : total - (remaining + 1) = i := by omega
    simp only [completionLoop, retryLoop, hi]
    rcases @select_cases T router left _ hleft (hgiven ▸ hmember _) with ⟨d, hd, hselect⟩ | ⟨hfallback, hnone, hselect⟩
    · simp only [hselect, attemptCompletion_eq d _ (hcount _)]
      cases hend : attemptOutcome d (attempts i) with
      | succeeded response =>
        refine ⟨[d], List.cons_subset.mpr ⟨hd, List.nil_subset _⟩, List.nodup_singleton _, ?_, ?_⟩
        · simp only [workOf, hend]
          rcases (attempts i).emits .requestSucceeded with _ | (_ | _) <;> rfl
        · simp only [EndsWith, hend]
          exact ⟨trivial, outcome_emitting _ _ rfl _⟩
      | cancelled =>
        refine ⟨[d], List.cons_subset.mpr ⟨hd, List.nil_subset _⟩, List.nodup_singleton _, ?_, ?_⟩
        · simp only [workOf, hend]
          rfl
        · simp only [EndsWith, hend]
          exact ⟨trivial, rfl⟩
      | failed error =>
        have hlength := length_left hnodup hd
        simp only [attemptFailed, hstrict, Bool.false_and, Bool.or_false, Bool.false_eq_true, if_false, work_failed hend, outcome_failed]
        cases hrest : left.filter fun x => x.id ≠ d.id with
        | nil =>
          refine ⟨[d], List.cons_subset.mpr ⟨hd, List.nil_subset _⟩, List.nodup_singleton _, ?_, ?_⟩
          · rw [work_emitting, Trace.work]
            exact (congrArg _ (ite_self _)).trans (List.append_nil _)
          · simp only [EndsWith, hend]
            rw [hrest, List.length_nil] at hlength
            exact .inl (.inl ⟨by omega, outcome_emitting _ _ rfl _⟩)
        | cons d' rest =>
          rw [hrest] at hlength
          have hleft' : (d' :: rest).Sublist left := hrest ▸ List.filter_sublist
          obtain ⟨tried, hsub, hids, hwork, hends⟩ := @ih (i + 1) (d' :: rest) (some d) (some (d, error)) (by omega)
            (by rw [givenTo, ← hgiven, hselect, ← hrest]) (List.cons_ne_nil _ _) (hnodup.sublist (hleft'.map _)) (by simp)
          rcases retried_cases (remaining = 0) (retried model d error) ((attempts i).emits .requestRetried)
            (completionLoop router model total attempts final remaining (d' :: rest) (some d) (some (d, error)) : Trace T C)
            with ⟨hw, ho⟩ | ⟨hdelivery, hw, ho⟩
          · refine ⟨d :: tried, ?_, ?_, ?_, ?_⟩
            · exact List.cons_subset.mpr ⟨hd, List.Subset.trans hsub hleft'.subset⟩
            · refine List.nodup_cons.mpr ⟨fun hmem => ?_, hids⟩
              obtain ⟨x, hx, hxid⟩ := List.mem_map.mp hmem
              have hx := hsub hx
              rw [← hrest] at hx
              simpa [hxid] using List.mem_filter.mp hx
            · exact (congrArg _ (hw.trans hwork)).trans (workOf_cons _ _ _).symm
            · simp only [EndsWith, hend]
              left
              have hn : min (remaining + 1) left.length - 1 = min remaining (d' :: rest).length := by omega
              rw [hn]
              exact ho ▸ hends
          · refine ⟨[d], List.cons_subset.mpr ⟨hd, List.nil_subset _⟩, List.nodup_singleton _, ?_, ?_⟩
            · exact (congrArg _ hw).trans (List.append_nil _)
            · simp only [EndsWith, hend]
              exact .inr ⟨trivial, hdelivery, ho⟩
    · rw [hselect]
      dsimp only
      refine ⟨[], List.nil_subset _, List.nodup_nil, ?_, .inr ⟨hfallback, hnone, ?_⟩⟩
      · cases failure <;> exact (work_emitting _ _ _ _).trans (ite_self _)
      · cases failure with
        | none =>
          rw [if_pos (hfirst.mp rfl)]
          exact outcome_emitting _ _ rfl _
        | some failure =>
          rw [if_neg fun h => by cases hfirst.mpr h]
          exact outcome_emitting _ _ rfl _

/-- A call of `completion`, with a strategy that is not strict and selects of what it is given or nothing, tries
different deployments in turn. One that succeeds ends it with its response; without one it ends as it has made as many
attempts as it may, or as nothing is selected. Events apart it does what these attempts do, in this order. -/
theorem completion_falls_back (router : Settings T) (model : String) (available : List (Deployment T)) (attempts : ℕ → Attempt T)
    (final : Delivery) (hstrict : router.strictFallbackErrors = false) (hretries : 0 ≤ router.numRetries)
    (hnodup : (available.map Deployment.id).Nodup)
    (hmember : ∀ i, ∃ d, (attempts i).selection = .chosen d ∧ ∀ x ∈ d, x ∈ givenTo router attempts available i)
    (hcount : ∀ i response, (attempts i).reply = .response response → Countable response) :
    let t : Trace T C := completion router model none available attempts final
    (available = [] → t.work = [] ∧ t.outcome = final.ending (.raised noDeploymentAvailable)) ∧
      (available ≠ [] → ∃ tried, tried ⊆ available ∧ (tried.map Deployment.id).Nodup ∧ t.work = workOf attempts 0 tried ∧
        EndsWith router attempts final 0 (min (router.numRetries.toNat + 1) available.length) tried t.outcome) := by
  refine ⟨?_, fun hne => ?_⟩
  · rintro rfl
    rcases final with _ | (_ | _) <;> exact ⟨rfl, rfl⟩
  · have htotal : totalAttempts router available = min (router.numRetries.toNat + 1) available.length := by
      unfold totalAttempts
      omega
    obtain ⟨tried, hsub, hids, hwork, hends⟩ := @completionLoop_falls_back T C router model attempts final available hstrict
      hmember hcount _ (totalAttempts router available) 0 available none none (Nat.zero_add _).symm rfl hne hnodup (by simp)
    rw [completion, if_neg hne]
    refine ⟨tried, hsub, hids, hwork, ?_⟩
    rw [htotal, Nat.min_assoc, Nat.min_self] at hends
    exact htotal ▸ hends

end Loop

section Sample

def router (fallback : Bool) : Settings ℕ where
  fallbackToFirstOnEmptySelection := fallback
  transformStreamChunk _ _ chunk := .ok (some chunk)

def twoDeployments : List (Deployment ℕ) := [{ id := "a", modelName := "m" }, { id := "b", modelName := "m" }]

def firstFails (selection : ℕ → Option (Deployment ℕ)) (i : ℕ) : Attempt ℕ where
  selection := .chosen (selection i)
  reply := if i = 0 then .raised ⟨.network, "DeploymentNetworkError"⟩ else .response .null
  latency := 1
  emits _ := .done

/-- A strategy that selects nothing after a failure ends the call, with an attempt left to make. -/
theorem unselected_ends_early :
    let attempts := firstFails fun i => if i = 0 then twoDeployments.head? else none
    let t : Trace ℕ Unit := completion (router false) "m" none twoDeployments attempts .done
    t.attempts.length = 1 ∧ totalAttempts (router false) twoDeployments = 2 ∧ t.outcome = .raised allDeploymentsFailed :=
  ⟨rfl, rfl, rfl⟩

theorem completion_falls_back_sample :
    let attempts := firstFails fun _ => none
    let t : Trace ℕ Unit := completion (router true) "m" none twoDeployments attempts .done
    ∃ tried, tried ⊆ twoDeployments ∧ (tried.map Deployment.id).Nodup ∧ t.work = workOf attempts 0 tried ∧
      EndsWith (router true) attempts .done 0 2 tried t.outcome := by
  refine (completion_falls_back (router true) "m" twoDeployments (firstFails fun _ => none) .done rfl (by decide) (by decide)
    (fun _ => ⟨none, rfl, by rintro _ ⟨⟩⟩) ?_).2 (List.cons_ne_nil _ _)
  intro i response hreply
  cases i with
  | zero => cases hreply
  | succ i =>
    cases hreply
    exact ⟨rfl, _, rfl⟩

end Sample

end AgentProtocol.Router
