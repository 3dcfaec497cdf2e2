-- SUMMARY: The cooldown state machine of the router: over every history, status, deadline and failure count agree with what happened last.
import AgentProtocol.Lib.Run
import AgentProtocol.Router.State

/-!
# Cooldown

Routers that share a state call its operations at times that never decrease. A deployment goes into cooldown with a
failure, or because a router is constructed with it in this status, and comes out with a success, a good health check, a
reset or its removal. A look at what is available brings those back whose time is up.

`Benched` says which deployments should be in cooldown, from the history alone.
-/

namespace AgentProtocol.Router

open Lib

variable {T : Type}

/-- The operations of routers on a state. -/
inductive RouterEvent (T : Type) where
  | construct (deployments : List (Deployment T)) (cooldownTime : T)
  | onSuccess (deploymentId : String) (latency : T) (tokens : ℤ)
  | onFailure (deploymentId : String) (cooldownTime : T)
  | updateHealth (deploymentId : String) (isHealthy : Bool)
  | resetDeployment (deploymentId : String)
  | removeDeployment (deploymentId : String)
  | availableForModel (deployments : List (Deployment T)) (model : String)
  | getAvailableDeployments

namespace RouterEvent

/-- The deployment whose status the event sets, apart from those that have waited long enough. -/
def changes (id : String) : RouterEvent T → Bool
  | .construct deployments _ => deployments.any fun dep => dep.id = id ∧ dep.status = .cooldown
  | .onSuccess deploymentId _ _ => deploymentId = id
  | .onFailure deploymentId _ => deploymentId = id
  | .updateHealth deploymentId isHealthy => deploymentId = id && isHealthy
  | .resetDeployment deploymentId => deploymentId = id
  | .removeDeployment deploymentId => deploymentId = id
  | .availableForModel _ _ => false
  | .getAvailableDeployments => false

/-- The failure count of a deployment starts again. -/
def clears (id : String) : RouterEvent T → Bool
  | .onSuccess deploymentId _ _ => deploymentId = id
  | .removeDeployment deploymentId => deploymentId = id
  | _ => false

def fails (id : String) : RouterEvent T → Bool
  | .onFailure deploymentId _ => deploymentId = id
  | _ => false

/-- The failures of a deployment since its last success or its removal. -/
def failuresSince (id : String) (es : List (T × RouterEvent T)) : ℕ :=
  (es.reverse.takeWhile fun e => !e.2.clears id).countP fun e => e.2.fails id

variable [Field T] [LinearOrder T]

/-- Until when the event makes the deployment wait, where `failures` is how often it has failed by then. -/
def deadline (id : String) (failures : ℕ) (time : T) : RouterEvent T → Option T
  | .construct deployments cooldownTime =>
    ((deployments.filter fun dep => dep.id = id ∧ dep.status = .cooldown).getLast?).map fun dep =>
      dep.cooldownUntil.getD (time + cooldownTime)
  | .onFailure deploymentId cooldownTime => if deploymentId = id then some (time + cooldownTime * failures) else none
  | _ => none

/-- The last event that set the status of the deployment was a failure or an initial cooldown, with this deadline. -/
def Benched (id : String) (es : List (T × RouterEvent T)) (limit : T) : Prop :=
  ∃ pre e post, es = pre ++ e :: post ∧ (∀ x ∈ post, x.2.changes id = false) ∧ e.2.changes id = true ∧
    e.2.deadline id (failuresSince id es) e.1 = some limit

/-! ## The history grows -/

variable {id : String} {es : List (T × RouterEvent T)} {e : T × RouterEvent T}

omit [Field T] [LinearOrder T] in
theorem changes_of_clears {e : RouterEvent T} (h : e.clears id = true) : e.changes id = true := by
  cases e with
  | onSuccess | removeDeployment => exact h
  | construct | onFailure | updateHealth | resetDeployment | availableForModel | getAvailableDeployments => cases h

omit [Field T] [LinearOrder T] in
theorem changes_of_fails {e : RouterEvent T} (h : e.fails id = true) : e.changes id = true := by
  cases e with
  | onFailure deploymentId cooldownTime => exact h
  | onSuccess | removeDeployment | construct | updateHealth | resetDeployment | availableForModel | getAvailableDeployments => cases h

omit [Field T] [LinearOrder T] in
theorem failuresSince_append : failuresSince id (es ++ [e]) =
    if e.2.clears id then 0 else failuresSince id es + if e.2.fails id then 1 else 0 := by
  rw [failuresSince, List.reverse_append, List.reverse_singleton, List.singleton_append, List.takeWhile_cons]
  cases hclears : e.2.clears id with
  | true => simp
  | false => simp [failuresSince, List.countP_cons]

omit [Field T] [LinearOrder T] in
theorem failuresSince_of_not_changes (h : e.2.changes id = false) : failuresSince id (es ++ [e]) = failuresSince id es := by
  have hclears : e.2.clears id = false := by
    by_contra hclears
    rw [changes_of_clears (Bool.not_eq_false _ ▸ hclears)] at h
    cases h
  have hfails : e.2.fails id = false := by
    by_contra hfails
    rw [changes_of_fails (Bool.not_eq_false _ ▸ hfails)] at h
    cases h
  simp [failuresSince_append, hclears, hfails]

omit [LinearOrder T] in
theorem benched_append_of_changes {d : T} (h : e.2.changes id = true) :
    Benched id (es ++ [e]) d ↔ e.2.deadline id (failuresSince id (es ++ [e])) e.1 = some d := by
  constructor
  · rintro ⟨pre, e', post, heq, hpost, -, hdeadline⟩
    rcases List.eq_nil_or_concat' post with rfl | ⟨post, x, rfl⟩
    · obtain ⟨-, hlast⟩ := List.append_inj' heq rfl
      cases hlast
      exact hdeadline
    · have hlast : es ++ [e] = (pre ++ e' :: post) ++ [x] := by simpa using heq
      obtain ⟨-, hlast⟩ := List.append_inj' hlast rfl
      cases hlast
      rw [hpost e (by simp)] at h
      cases h
  · exact fun hdeadline => ⟨es, e, [], rfl, by simp, h, hdeadline⟩

omit [LinearOrder T] in
theorem benched_append_of_not_changes {d : T} (h : e.2.changes id = false) : Benched id (es ++ [e]) d ↔ Benched id es d := by
  rw [Benched, failuresSince_of_not_changes h]
  constructor
  · rintro ⟨pre, e', post, heq, hpost, hchanges, hdeadline⟩
    rcases List.eq_nil_or_concat' post with rfl | ⟨post, x, rfl⟩
    · obtain ⟨-, hlast⟩ := List.append_inj' heq rfl
      cases hlast
      rw [h] at hchanges
      cases hchanges
    · have hlast : es ++ [e] = (pre ++ e' :: post) ++ [x] := by simpa using heq
      obtain ⟨hes, -⟩ := List.append_inj' hlast rfl
      exact ⟨pre, e', post, hes, fun y hy => hpost y (by simp [hy]), hchanges, hdeadline⟩
  · rintro ⟨pre, e', post, rfl, hpost, hchanges, hdeadline⟩
    refine ⟨pre, e', post ++ [e], by simp, ?_, hchanges, hdeadline⟩
    intro x hx
    rcases List.mem_append.mp hx with hx | hx
    · exact hpost x hx
    · rw [List.mem_singleton.mp hx]
      exact h

omit [LinearOrder T] in
theorem Benched.unique {d d' : T} (h : Benched id es d) (h' : Benched id es d') : d = d' := by
  induction es using List.reverseRecOn with
  | nil =>
    obtain ⟨pre, e, post, heq, -⟩ := h
    exact absurd heq (by simp)
  | append_singleton es e ih =>
    cases hchanges : e.2.changes id with
    | true =>
      rw [benched_append_of_changes hchanges] at h h'
      exact Option.some.inj (h.symm.trans h')
    | false =>
      rw [benched_append_of_not_changes hchanges] at h h'
      exact ih h h'

end RouterEvent

namespace LocalRouterState

variable [Field T] [LinearOrder T]

def step (s : LocalRouterState T) (e : T × RouterEvent T) : LocalRouterState T :=
  match e.2 with
  | .construct deployments cooldownTime => s.construct e.1 deployments cooldownTime
  | .onSuccess deploymentId latency tokens => s.onSuccess e.1 deploymentId latency tokens
  | .onFailure deploymentId cooldownTime => s.onFailure e.1 deploymentId cooldownTime
  | .updateHealth deploymentId isHealthy => s.updateHealth deploymentId isHealthy
  | .resetDeployment deploymentId => s.resetDeployment deploymentId
  | .removeDeployment deploymentId => (s.removeDeployment deploymentId).1
  | .availableForModel deployments model => (s.availableForModel e.1 deployments model).1
  | .getAvailableDeployments => (s.getAvailableDeployments e.1).1

/-! ## What a look at the available deployments does -/

/-- The entries of a deployment that was reset. -/
def Entries.recovered {T : Type} (entries : Entries T) : Entries T :=
  { entries with status := some .healthy, cooldownUntil := some none, health := some true }

/-- A deployment may be brought back. -/
def Due (s : LocalRouterState T) (now : T) (id : String) : Prop :=
  s.deploymentStatus.lookup id = some .cooldown ∧ ∃ d, (s.cooldownUntil.lookup id).getD (some 0) = some d ∧ d ≤ now

/-- Either nothing happened to a deployment, or its time was up and it was reset. -/
def Looked (now : T) (s s' : LocalRouterState T) (id : String) : Prop :=
  s'.entries id = s.entries id ∨ s.Due now id ∧ s'.entries id = (s.entries id).recovered

variable {s s' : LocalRouterState T} {now : T} {id deploymentId : String}

omit [Field T] [LinearOrder T] in
theorem entries_reset_self : (s.resetDeployment id).entries id = (s.entries id).recovered := by
  rw [entries_resetDeployment, if_pos rfl]
  rfl

omit [Field T] [LinearOrder T] in
theorem entries_reset_of_ne (h : deploymentId ≠ id) : (s.resetDeployment deploymentId).entries id = s.entries id := by
  rw [entries_resetDeployment, if_neg h]

theorem due_congr (h : s'.entries id = s.entries id) : s'.Due now id ↔ s.Due now id := by
  have hstatus : s'.deploymentStatus.lookup id = s.deploymentStatus.lookup id := congrArg Entries.status h
  have hcooldown : s'.cooldownUntil.lookup id = s.cooldownUntil.lookup id := congrArg Entries.cooldownUntil h
  rw [Due, Due, hstatus, hcooldown]

theorem not_due_reset : ¬ (s.resetDeployment id).Due now id := by
  rintro ⟨hstatus, -⟩
  have hhealthy : (s.resetDeployment id).deploymentStatus.lookup id = some .healthy := Dict.lookup_set_self _ _ _
  rw [hhealthy] at hstatus
  cases hstatus

theorem Looked.of_reset (hdue : s.Due now deploymentId) (h : Looked now (s.resetDeployment deploymentId) s' id) :
    Looked now s s' id := by
  by_cases heq : deploymentId = id
  · subst heq
    rcases h with h | ⟨hdue', -⟩
    · exact .inr ⟨hdue, h.trans entries_reset_self⟩
    · exact absurd hdue' not_due_reset
  · have hsame := entries_reset_of_ne (s := s) heq
    rcases h with h | ⟨hdue', h⟩
    · exact .inl (h.trans hsame)
    · exact .inr ⟨(due_congr hsame).mp hdue', hsame ▸ h⟩

theorem selectAvailable_looked (deps : List (Deployment T)) (s : LocalRouterState T) (id : String) :
    Looked now s (selectAvailable now deps s).1 id := by
  induction deps generalizing s with
  | nil => exact .inl rfl
  | cons dep deps ih =>
    rw [selectAvailable]
    cases hstatus : (s.deploymentStatus.lookup dep.id).getD .healthy with
    | healthy => exact ih s
    | cooldown =>
      cases hcooldown : (s.cooldownUntil.lookup dep.id).getD (some 0) with
      | none => exact .inl rfl
      | some d =>
        dsimp only
        by_cases hlt : now < d
        · rw [if_pos hlt]
          exact ih s
        · rw [if_neg hlt]
          refine (ih (s.resetDeployment dep.id)).of_reset ⟨?_, d, hcooldown, not_lt.mp hlt⟩
          cases hlookup : s.deploymentStatus.lookup dep.id with
          | none =>
            rw [hlookup] at hstatus
            cases hstatus
          | some status =>
            rw [hlookup] at hstatus
            exact congrArg some hstatus

omit [Field T] [LinearOrder T] in
theorem rows_of_reset {rows : List (String × DeploymentStatus)} (hnew : id ∉ rows.map Prod.fst)
    (hrows : ∀ row ∈ rows, s.deploymentStatus.lookup row.1 = some row.2) :
    ∀ row ∈ rows, (s.resetDeployment id).deploymentStatus.lookup row.1 = some row.2 := by
  intro row hrow
  have hne : id ≠ row.1 := by
    rintro rfl
    exact hnew (List.mem_map_of_mem hrow)
  rw [resetDeployment, Dict.lookup_set_of_ne hne]
  exact hrows row hrow

theorem selectIds_looked (rows : List (String × DeploymentStatus)) (s : LocalRouterState T) (id : String)
    (hnodup : (rows.map Prod.fst).Nodup) (hrows : ∀ row ∈ rows, s.deploymentStatus.lookup row.1 = some row.2) :
    Looked now s (selectIds now rows s).1 id := by
  induction rows generalizing s with
  | nil => exact .inl rfl
  | cons row rows ih =>
    obtain ⟨rowId, status⟩ := row
    obtain ⟨hnew, hnodup'⟩ := List.nodup_cons.mp hnodup
    have hrest : ∀ row ∈ rows, s.deploymentStatus.lookup row.1 = some row.2 := fun row hrow => hrows row (by simp [hrow])
    cases status with
    | healthy => exact ih s hnodup' hrest
    | cooldown =>
      rw [selectIds]
      cases hcooldown : (s.cooldownUntil.lookup rowId).getD (some 0) with
      | none => exact .inl rfl
      | some d =>
        dsimp only
        by_cases hle : d ≤ now
        · rw [if_pos hle]
          have hdue : s.Due now rowId := ⟨hrows (rowId, .cooldown) (by simp), d, hcooldown, hle⟩
          exact (ih (s.resetDeployment rowId) hnodup' (rows_of_reset hnew hrest)).of_reset hdue
        · rw [if_neg hle]
          exact ih s hnodup' hrest

theorem getAvailableDeployments_looked (s : LocalRouterState T) (now : T) (id : String) :
    Looked now s (s.getAvailableDeployments now).1 id :=
  selectIds_looked _ s id s.deploymentStatus.nodup fun _ hrow => Dict.lookup_eq_some.mpr hrow

/-! ## What an event does -/

/-- The status, the deadline and the failure count of a deployment are all that the invariant is about. -/
def Agree (s s' : LocalRouterState T) (id : String) : Prop :=
  s'.deploymentStatus.lookup id = s.deploymentStatus.lookup id ∧
    s'.cooldownUntil.lookup id = s.cooldownUntil.lookup id ∧ s'.consecutiveFailures.lookup id = s.consecutiveFailures.lookup id

omit [Field T] [LinearOrder T] in
theorem agree_of_entries (h : s'.entries id = s.entries id) : Agree s s' id :=
  ⟨congrArg Entries.status h, congrArg Entries.cooldownUntil h, congrArg Entries.failures h⟩

omit [Field T] [LinearOrder T] in
theorem syncQuotaState_agree (s : LocalRouterState T) (deployments : List (Deployment T)) (id : String) :
    Agree s (s.syncQuotaState deployments) id := by
  induction deployments generalizing s with
  | nil => exact ⟨rfl, rfl, rfl⟩
  | cons dep deps ih => exact ih (s.syncQuota dep)

/-- The deployment with which an initial cooldown ends up. -/
def lastInCooldown (deployments : List (Deployment T)) (id : String) : Option (Deployment T) :=
  (deployments.filter fun dep => dep.id = id ∧ dep.status = .cooldown).getLast?

/-- What the state says about a deployment that is to wait until `limit`, or is not to wait. -/
def Says (s : LocalRouterState T) (id : String) : Option T → Prop
  | some limit => s.deploymentStatus.lookup id = some .cooldown ∧ s.cooldownUntil.lookup id = some (some limit)
  | none => s.deploymentStatus.lookup id ≠ some .cooldown ∧ ∀ d, s.cooldownUntil.lookup id ≠ some (some d)

omit [LinearOrder T] in
theorem initialCooldown_eq (s : LocalRouterState T) (now cooldownTime : T) (deployments : List (Deployment T)) (id : String) :
    let s' := deployments.foldl (initialCooldown now cooldownTime) s
    s'.consecutiveFailures.lookup id = s.consecutiveFailures.lookup id ∧
      match lastInCooldown deployments id with
      | some dep => s'.Says id (some (dep.cooldownUntil.getD (now + cooldownTime)))
      | none => Agree s s' id := by
  induction deployments using List.reverseRecOn with
  | nil => exact ⟨rfl, rfl, rfl, rfl⟩
  | append_singleton deps dep ih =>
    dsimp only at ih ⊢
    rw [List.foldl_append, List.foldl_cons, List.foldl_nil]
    rw [lastInCooldown, List.filter_append, List.getLast?_append]
    rw [lastInCooldown] at ih
    generalize deps.foldl (initialCooldown now cooldownTime) s = s₁ at ih ⊢
    cases hstatus : dep.status with
    | healthy =>
      simpa [initialCooldown, hstatus] using ih
    | cooldown =>
      by_cases hid : dep.id = id
      · subst hid
        simpa [initialCooldown, hstatus, Says] using ih.1
      · have hstatus' : (initialCooldown now cooldownTime s₁ dep).deploymentStatus.lookup id = s₁.deploymentStatus.lookup id := by
          simp [initialCooldown, hstatus, Dict.lookup_set_of_ne hid]
        have hcooldown' : (initialCooldown now cooldownTime s₁ dep).cooldownUntil.lookup id = s₁.cooldownUntil.lookup id := by
          simp [initialCooldown, hstatus, Dict.lookup_set_of_ne hid]
        have hfailures' : (initialCooldown now cooldownTime s₁ dep).consecutiveFailures = s₁.consecutiveFailures := by
          simp [initialCooldown, hstatus]
        simpa [Says, Agree, hid, hstatus', hcooldown', hfailures'] using ih

open RouterEvent

variable {e : T × RouterEvent T} {es : List (T × RouterEvent T)}

theorem failures_step (s : LocalRouterState T) (e : T × RouterEvent T) (id : String) :
    (s.step e).failures id = if e.2.clears id then 0 else s.failures id + if e.2.fails id then 1 else 0 := by
  obtain ⟨time, ev⟩ := e
  cases ev with
  | construct deployments cooldownTime =>
    have hquota := syncQuotaState_agree (deployments.foldl (initialCooldown time cooldownTime) s) deployments id
    have hinitial := (initialCooldown_eq s time cooldownTime deployments id).1
    show ((s.construct time deployments cooldownTime).consecutiveFailures.lookup id).getD 0 = s.failures id + 0
    rw [construct, hquota.2.2, hinitial]
    rfl
  | onSuccess deploymentId latency tokens =>
    by_cases h : deploymentId = id
    · simp [step, onSuccess, failures, clears, h]
    · simp [step, onSuccess, failures, clears, fails, Dict.lookup_set_of_ne h, h]
  | onFailure deploymentId cooldownTime =>
    by_cases h : deploymentId = id
    · simp [step, onFailure, failures, clears, fails, h]
    · simp [step, onFailure, failures, clears, fails, Dict.lookup_set_of_ne h, h]
  | updateHealth deploymentId isHealthy => cases isHealthy <;> rfl
  | resetDeployment deploymentId => rfl
  | removeDeployment deploymentId =>
    by_cases h : deploymentId = id
    · simp [step, removeDeployment, failures, clears, Dict.lookup_erase, h]
    · simp [step, removeDeployment, failures, clears, fails, Dict.lookup_erase, h, Ne.symm h]
  | availableForModel deployments model =>
    have hlooked : Looked time s _ id := selectAvailable_looked (candidates deployments model) s id
    rcases hlooked with h | ⟨-, h⟩
    · exact congrArg (fun entries => entries.failures.getD 0) h
    · exact congrArg (fun entries => entries.failures.getD 0) h
  | getAvailableDeployments =>
    rcases s.getAvailableDeployments_looked time id with h | ⟨-, h⟩
    · exact congrArg (fun entries => entries.failures.getD 0) h
    · exact congrArg (fun entries => entries.failures.getD 0) h

theorem step_says (h : e.2.changes id = true) : (s.step e).Says id (e.2.deadline id ((s.step e).failures id) e.1) := by
  obtain ⟨time, ev⟩ := e
  cases ev with
  | construct deployments cooldownTime =>
    have hquota := syncQuotaState_agree (deployments.foldl (initialCooldown time cooldownTime) s) deployments id
    have hinitial := (initialCooldown_eq s time cooldownTime deployments id).2
    have hsome : ∃ dep, lastInCooldown deployments id = some dep := by
      rw [← Option.isSome_iff_exists, lastInCooldown, List.getLast?_isSome]
      obtain ⟨dep, hmem, hdep⟩ := List.any_eq_true.mp h
      exact List.ne_nil_of_mem (List.mem_filter.mpr ⟨hmem, hdep⟩)
    obtain ⟨dep, hdep⟩ := hsome
    rw [hdep] at hinitial
    rw [lastInCooldown] at hdep
    show (s.construct time deployments cooldownTime).Says id _
    simp only [deadline, hdep, Option.map_some]
    exact ⟨hquota.1.trans hinitial.1, hquota.2.1.trans hinitial.2⟩
  | onSuccess deploymentId | onFailure deploymentId | resetDeployment deploymentId | removeDeployment deploymentId =>
    obtain rfl : deploymentId = id := by simpa [changes] using h
    simp [step, onSuccess, onFailure, resetDeployment, removeDeployment, Says, deadline, failures, Dict.lookup_erase]
  | updateHealth deploymentId isHealthy =>
    obtain ⟨rfl, rfl⟩ : deploymentId = id ∧ isHealthy = true := by simpa [changes] using h
    simp [step, updateHealth, Says, deadline]
  | availableForModel | getAvailableDeployments => cases h

theorem step_keeps (h : e.2.changes id = false) :
    Agree s (s.step e) id ∨ s.Due e.1 id ∧ (s.step e).entries id = (s.entries id).recovered := by
  obtain ⟨time, ev⟩ := e
  cases ev with
  | construct deployments cooldownTime =>
    have hquota := syncQuotaState_agree (deployments.foldl (initialCooldown time cooldownTime) s) deployments id
    have hinitial := (initialCooldown_eq s time cooldownTime deployments id).2
    have hnone : lastInCooldown deployments id = none := by
      rw [lastInCooldown, List.getLast?_eq_none_iff, List.filter_eq_nil_iff]
      intro dep hmem
      exact List.any_eq_false.mp h dep hmem
    rw [hnone] at hinitial
    exact .inl ⟨hquota.1.trans hinitial.1, hquota.2.1.trans hinitial.2.1, hquota.2.2.trans hinitial.2.2⟩
  | onSuccess deploymentId | onFailure deploymentId | resetDeployment deploymentId =>
    have hne : deploymentId ≠ id := by simpa [changes] using h
    simp [step, onSuccess, onFailure, resetDeployment, Agree, Dict.lookup_set_of_ne hne]
  | updateHealth deploymentId isHealthy =>
    cases isHealthy with
    | false => exact .inl ⟨rfl, rfl, rfl⟩
    | true =>
      have hne : deploymentId ≠ id := by simpa [changes] using h
      simp [step, updateHealth, Agree, Dict.lookup_set_of_ne hne]
  | removeDeployment deploymentId =>
    have hne : deploymentId ≠ id := by simpa [changes] using h
    simp [step, removeDeployment, Agree, Dict.lookup_erase, hne.symm]
  | availableForModel deployments model =>
    exact (selectAvailable_looked (candidates deployments model) s id).imp_left agree_of_entries
  | getAvailableDeployments => exact (s.getAvailableDeployments_looked time id).imp_left agree_of_entries

/-! ## Over a history -/

/-- What the history says is what the state says, except for deployments whose time was up when somebody looked. -/
structure Inv (es : List (T × RouterEvent T)) (s : LocalRouterState T) : Prop where
  failures : ∀ id, s.failures id = failuresSince id es
  cooling : ∀ id, s.deploymentStatus.lookup id = some .cooldown →
    ∃ d, s.cooldownUntil.lookup id = some (some d) ∧ Benched id es d
  available : ∀ id, s.deploymentStatus.lookup id ≠ some .cooldown →
    (∀ d, s.cooldownUntil.lookup id ≠ some (some d)) ∧ ∀ d, Benched id es d → ∃ e ∈ es, d ≤ e.1

theorem Inv.start : Inv [] ({} : LocalRouterState T) where
  failures _ := rfl
  cooling id h := by cases h
  available id _ := by
    refine ⟨fun d h => (by cases h), ?_⟩
    rintro d ⟨pre, e, post, h, -⟩
    exact absurd h (by simp)

theorem Inv.step (h : Inv es s) (e : T × RouterEvent T) : Inv (es ++ [e]) (s.step e) := by
  have hfailures : ∀ id, (s.step e).failures id = failuresSince id (es ++ [e]) := fun id => by
    rw [failures_step, failuresSince_append, h.failures id]
  refine ⟨hfailures, fun id hstatus => ?_, fun id hstatus => ?_⟩
  · cases hchanges : e.2.changes id with
    | true =>
      have hstep := step_says (s := s) hchanges
      rw [hfailures] at hstep
      simp only [benched_append_of_changes hchanges]
      cases hdeadline : e.2.deadline id (failuresSince id (es ++ [e])) e.1 with
      | none =>
        rw [hdeadline] at hstep
        exact absurd hstatus hstep.1
      | some d =>
        rw [hdeadline] at hstep
        exact ⟨d, hstep.2, rfl⟩
    | false =>
      simp only [benched_append_of_not_changes hchanges]
      rcases step_keeps (s := s) hchanges with ⟨hsame, hcooldown, -⟩ | ⟨-, hrecovered⟩
      · rw [hcooldown]
        exact h.cooling id (hsame ▸ hstatus)
      · have hhealthy : (s.step e).deploymentStatus.lookup id = some .healthy := congrArg Entries.status hrecovered
        rw [hhealthy] at hstatus
        cases hstatus
  · cases hchanges : e.2.changes id with
    | true =>
      have hstep := step_says (s := s) hchanges
      rw [hfailures] at hstep
      simp only [benched_append_of_changes hchanges]
      cases hdeadline : e.2.deadline id (failuresSince id (es ++ [e])) e.1 with
      | none =>
        rw [hdeadline] at hstep
        exact ⟨hstep.2, fun d hd => by cases hd⟩
      | some d =>
        rw [hdeadline] at hstep
        exact absurd hstep.1 hstatus
    | false =>
      simp only [benched_append_of_not_changes hchanges]
      rcases step_keeps (s := s) hchanges with ⟨hsame, hcooldown, -⟩ | ⟨⟨hbefore, d, hd, hle⟩, hrecovered⟩
      · rw [hcooldown]
        obtain ⟨hnone, hover⟩ := h.available id (hsame ▸ hstatus)
        refine ⟨hnone, fun d hd => ?_⟩
        obtain ⟨x, hx, hle⟩ := hover d hd
        exact ⟨x, List.mem_append_left _ hx, hle⟩
      · have hnone : (s.step e).cooldownUntil.lookup id = some none := congrArg Entries.cooldownUntil hrecovered
        obtain ⟨limit, hlimit, hbenched⟩ := h.cooling id hbefore
        rw [hlimit] at hd
        cases hd
        refine ⟨fun d' hd' => ?_, fun d' hd' => ⟨e, by simp, ?_⟩⟩
        · rw [hnone] at hd'
          cases hd'
        · rw [hd'.unique hbenched]
          exact hle

theorem Inv.run (es : List (T × RouterEvent T)) : Inv es (Lib.run LocalRouterState.step {} es) :=
  run_induct (I := Inv) Inv.start (fun _ e h => h.step e) es

/-! ## What is left out -/

/-- A deployment that a look at this time passes over. -/
def Waiting (s : LocalRouterState T) (now : T) (id : String) : Prop :=
  s.deploymentStatus.lookup id = some .cooldown ∧ ∃ d, s.cooldownUntil.lookup id = some (some d) ∧ now < d

/-- No deployment in cooldown is without a deadline. -/
def Timed (s : LocalRouterState T) : Prop :=
  ∀ id, s.deploymentStatus.lookup id = some .cooldown → ∃ d, s.cooldownUntil.lookup id = some (some d)

omit [Field T] [LinearOrder T] in
theorem Timed.reset (h : s.Timed) (id : String) : (s.resetDeployment id).Timed := by
  intro id' hstatus
  by_cases heq : id = id'
  · subst heq
    rw [resetDeployment, Dict.lookup_set_self] at hstatus
    cases hstatus
  · rw [resetDeployment, Dict.lookup_set_of_ne heq] at hstatus
    obtain ⟨d, hd⟩ := h id' hstatus
    exact ⟨d, by rw [resetDeployment, Dict.lookup_set_of_ne heq, hd]⟩

omit [Field T] in
theorem waiting_reset (h : ¬ s.Waiting now deploymentId) : (s.resetDeployment deploymentId).Waiting now id ↔ s.Waiting now id := by
  by_cases heq : deploymentId = id
  · subst heq
    refine iff_of_false ?_ h
    rintro ⟨hstatus, -⟩
    rw [resetDeployment, Dict.lookup_set_self] at hstatus
    cases hstatus
  · rw [Waiting, Waiting, resetDeployment, Dict.lookup_set_of_ne heq, Dict.lookup_set_of_ne heq]

theorem selectAvailable_spec (deps : List (Deployment T)) (h : s.Timed) :
    ∃ available, (selectAvailable now deps s).2 = some available ∧
      ∀ dep, dep ∈ available ↔ dep ∈ deps ∧ ¬ s.Waiting now dep.id := by
  induction deps generalizing s with
  | nil => exact ⟨[], rfl, by simp⟩
  | cons dep deps ih =>
    rw [selectAvailable]
    cases hstatus : (s.deploymentStatus.lookup dep.id).getD .healthy with
    | healthy =>
      have hnot : ¬ s.Waiting now dep.id := by
        rintro ⟨hcooldown, -⟩
        rw [hcooldown] at hstatus
        cases hstatus
      obtain ⟨available, havailable, hmem⟩ := ih h
      refine ⟨dep :: available, by simp [havailable], fun dep' => ?_⟩
      rw [List.mem_cons, List.mem_cons, hmem]
      constructor
      · rintro (rfl | hdep')
        · exact ⟨.inl rfl, hnot⟩
        · exact ⟨.inr hdep'.1, hdep'.2⟩
      · rintro ⟨rfl | hdep', hwait⟩
        · exact .inl rfl
        · exact .inr ⟨hdep', hwait⟩
    | cooldown =>
      have hcooldown : s.deploymentStatus.lookup dep.id = some .cooldown := by
        cases hlookup : s.deploymentStatus.lookup dep.id with
        | none =>
          rw [hlookup] at hstatus
          cases hstatus
        | some status =>
          rw [hlookup] at hstatus
          exact congrArg some hstatus
      obtain ⟨d, hd⟩ := h dep.id hcooldown
      rw [hd]
      dsimp only [Option.getD_some]
      by_cases hlt : now < d
      · rw [if_pos hlt]
        obtain ⟨available, havailable, hmem⟩ := ih h
        refine ⟨available, havailable, fun dep' => ?_⟩
        rw [hmem, List.mem_cons]
        constructor
        · exact fun hdep' => ⟨.inr hdep'.1, hdep'.2⟩
        · rintro ⟨rfl | hdep', hwait⟩
          · exact absurd ⟨hcooldown, d, hd, hlt⟩ hwait
          · exact ⟨hdep', hwait⟩
      · rw [if_neg hlt]
        have hnot : ¬ s.Waiting now dep.id := by
          rintro ⟨-, d', hd', hlt'⟩
          rw [hd] at hd'
          cases hd'
          exact hlt hlt'
        obtain ⟨available, havailable, hmem⟩ := ih (h.reset dep.id)
        refine ⟨dep :: available, by simp [havailable], fun dep' => ?_⟩
        rw [List.mem_cons, List.mem_cons, hmem, waiting_reset hnot]
        constructor
        · rintro (rfl | hdep')
          · exact ⟨.inl rfl, hnot⟩
          · exact ⟨.inr hdep'.1, hdep'.2⟩
        · rintro ⟨rfl | hdep', hwait⟩
          · exact .inl rfl
          · exact .inr ⟨hdep', hwait⟩

theorem selectIds_isSome (rows : List (String × DeploymentStatus)) (h : s.Timed) (hnodup : (rows.map Prod.fst).Nodup)
    (hrows : ∀ row ∈ rows, s.deploymentStatus.lookup row.1 = some row.2) : (selectIds now rows s).2.isSome := by
  induction rows generalizing s with
  | nil => rfl
  | cons row rows ih =>
    obtain ⟨rowId, status⟩ := row
    obtain ⟨hnew, hnodup'⟩ := List.nodup_cons.mp hnodup
    have hrest : ∀ row ∈ rows, s.deploymentStatus.lookup row.1 = some row.2 := fun row hrow => hrows row (by simp [hrow])
    cases status with
    | healthy => simpa [selectIds] using ih h hnodup' hrest
    | cooldown =>
      obtain ⟨d, hd⟩ := h rowId (hrows (rowId, .cooldown) (by simp))
      rw [selectIds, hd]
      dsimp only [Option.getD_some]
      by_cases hle : d ≤ now
      · rw [if_pos hle, Option.isSome_map]
        exact ih (h.reset rowId) hnodup' (rows_of_reset hnew hrest)
      · rw [if_neg hle]
        exact ih h hnodup' hrest

theorem Inv.timed (h : Inv es s) : s.Timed := fun id hstatus =>
  have ⟨d, hd, _⟩ := h.cooling id hstatus
  ⟨d, hd⟩

theorem Inv.waiting_iff (h : Inv es s) (hnow : ∀ e ∈ es, e.1 ≤ now) : s.Waiting now id ↔ ∃ d, Benched id es d ∧ now < d := by
  constructor
  · rintro ⟨hstatus, d, hd, hlt⟩
    obtain ⟨limit, hlimit, hbenched⟩ := h.cooling id hstatus
    rw [hd] at hlimit
    cases hlimit
    exact ⟨d, hbenched, hlt⟩
  · rintro ⟨d, hbenched, hlt⟩
    by_cases hstatus : s.deploymentStatus.lookup id = some .cooldown
    · obtain ⟨limit, hlimit, hbenched'⟩ := h.cooling id hstatus
      rw [hbenched'.unique hbenched] at hlimit
      exact ⟨hstatus, d, hlimit, hlt⟩
    · obtain ⟨e, he, hle⟩ := (h.available id hstatus).2 d hbenched
      exact absurd hlt (not_lt.mpr (hle.trans (hnow e he)))

/-- Status and deadline go together, failures are counted from the last success or removal, and a look at what is
available passes over exactly the deployments that the history has benched, and changes nothing about them. -/
theorem cooldown_follows_history (es : List (T × RouterEvent T)) :
    let s := Lib.run LocalRouterState.step {} es
    (∀ id, (∃ d, s.cooldownUntil.lookup id = some (some d)) ↔ s.deploymentStatus.lookup id = some .cooldown) ∧
    (∀ id, s.failures id = failuresSince id es) ∧
    ∀ now, (∀ e ∈ es, e.1 ≤ now) → (s.getAvailableDeployments now).2.isSome ∧ ∀ deployments model,
      (∃ available, (s.availableForModel now deployments model).2 = some available ∧
        ∀ dep, dep ∈ available ↔
          dep ∈ candidates deployments model ∧ ¬ ∃ d, Benched dep.id es d ∧ now < d) ∧
      ∀ id d, Benched id es d → now < d → (s.availableForModel now deployments model).1.entries id = s.entries id := by
  intro s
  have hinv : Inv es s := Inv.run es
  refine ⟨fun id => ⟨fun ⟨d, hd⟩ => ?_, hinv.timed id⟩, hinv.failures, fun now hnow => ⟨?_, fun deployments model => ⟨?_, ?_⟩⟩⟩
  · by_contra hstatus
    exact (hinv.available id hstatus).1 d hd
  · exact selectIds_isSome _ hinv.timed s.deploymentStatus.nodup fun _ hrow => Dict.lookup_eq_some.mpr hrow
  · obtain ⟨available, havailable, hmem⟩ := @selectAvailable_spec _ _ _ _ now (candidates deployments model) hinv.timed
    refine ⟨available, havailable, fun dep => ?_⟩
    rw [hmem, hinv.waiting_iff hnow]
  · intro id d hbenched hlt
    have hlooked : Looked now s _ id := selectAvailable_looked (candidates deployments model) s id
    rcases hlooked with hsame | ⟨⟨hstatus, d', hd', hle⟩, -⟩
    · exact hsame
    · obtain ⟨limit, hlimit, hbenched'⟩ := hinv.cooling id hstatus
      rw [hlimit] at hd'
      cases hd'
      rw [hbenched'.unique hbenched] at hle
      exact absurd hlt (not_lt.mpr hle)

/-- Two failures, the second of them while the first cooldown lasts. -/
theorem left_out_after_second_failure :
    let dep : Deployment ℚ := { id := "d", modelName := "m" }
    let es : List (ℚ × RouterEvent ℚ) := [(0, .onFailure "d" 60), (5, .availableForModel [dep] "m"), (10, .onFailure "d" 60)]
    let s := Lib.run LocalRouterState.step {} es
    Benched "d" es 130 ∧ s.failures "d" = 2 ∧
      ∃ available, (s.availableForModel 100 [dep] "m").2 = some available ∧
        ∀ dep', dep' ∈ available ↔ dep' ∈ candidates [dep] "m" ∧ ¬ ∃ d, Benched dep'.id es d ∧ 100 < d := by
  intro dep es s
  have h := cooldown_follows_history es
  have hnow : ∀ e ∈ es, e.1 ≤ 100 := by norm_num [es]
  have hfailures : failuresSince "d" es = 2 := rfl
  refine ⟨⟨es.take 2, (10, .onFailure "d" 60), [], rfl, by simp, rfl, ?_⟩, (h.2.1 "d").trans hfailures,
    ((h.2.2 100 hnow).2 [dep] "m").1⟩
  rw [hfailures]
  norm_num [deadline]

end LocalRouterState

end AgentProtocol.Router
