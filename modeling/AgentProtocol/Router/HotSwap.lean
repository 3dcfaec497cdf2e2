-- SUMMARY: Hot swap of deployments: update_deployments between calls in flight, health checks and background events, and what is left of deployments that are gone.
import AgentProtocol.Router.Cooldown
import AgentProtocol.Router.Metrics
import AgentProtocol.Router.Streaming

/-!
# Hot swap

A router with its health checker and one collector of metrics, in steps: the deployments are replaced, a call begins,
makes its next report or ends, a background task emits its event, the strategy records a session, and a round of health
checks begins or comes to its results. A call is the reports that it still has to make. Any order of the steps is a run.

A usage that is a number but not a whole one is counted by its whole part here; nothing below depends on how much it is.
-/

namespace AgentProtocol.Router

open Lib

variable {T : Type}

/-! ## What is known about a deployment -/

namespace LocalRouterState

/-- There is an entry for the deployment, or a session that is bound to it. -/
def Known (s : LocalRouterState T) (id : String) : Prop :=
  s.entries id ≠ ({} : LocalRouterState T).entries id ∨ ∃ sessionId, s.sessionDeploymentMap.lookup sessionId = some id

def updateSessionMapping (s : LocalRouterState T) (sessionId deploymentId : String) (now : T) : LocalRouterState T :=
  { s with
    sessionDeploymentMap := s.sessionDeploymentMap.set sessionId deploymentId
    sessionTimestamps := s.sessionTimestamps.set sessionId now }

/-- `on_success` up to the record of the latency. -/
def beginSuccess (s : LocalRouterState T) (deploymentId : String) : LocalRouterState T :=
  { s with
    consecutiveFailures := s.consecutiveFailures.set deploymentId 0
    deploymentStatus := s.deploymentStatus.set deploymentId .healthy
    cooldownUntil := s.cooldownUntil.set deploymentId none }

/-- The whole part of a number of tokens. -/
def wholeTokens : Value → ℤ
  | .float tokens => tokens.toInt.toOption.getD 0
  | tokens => tokens.toInt?.getD 0

theorem known_of_entries {s s' : LocalRouterState T} {target id : String} (hentries : id ≠ target → s'.entries id = s.entries id)
    (hsessions : s'.sessionDeploymentMap = s.sessionDeploymentMap) (h : s'.Known id) : s.Known id ∨ id = target := by
  by_cases hid : id = target
  · exact .inr hid
  · refine .inl ?_
    rw [Known, hentries hid, hsessions] at h
    exact h

variable {s : LocalRouterState T}

theorem known_updateSessionMapping {sessionId deploymentId id : String} {now : T}
    (h : (s.updateSessionMapping sessionId deploymentId now).Known id) : s.Known id ∨ id = deploymentId := by
  rcases h with h | ⟨session, h⟩
  · exact .inl (.inl h)
  · rw [updateSessionMapping, Dict.lookup_set] at h
    split at h
    · exact .inr (Option.some.inj h).symm
    · exact .inl (.inr ⟨session, h⟩)

variable {deploymentId id : String}

theorem known_beginSuccess (h : (s.beginSuccess deploymentId).Known id) : s.Known id ∨ id = deploymentId := by
  refine known_of_entries ?_ ?_ h
  · intro hid
    simp [entries, beginSuccess, Dict.lookup_set, Ne.symm hid]
  · rfl

theorem known_updateHealth {isHealthy : Bool}
    (h : (s.updateHealth deploymentId isHealthy).Known id) : s.Known id ∨ id = deploymentId := by
  refine known_of_entries ?_ ?_ h
  · intro hid
    rw [entries_updateHealth, if_neg (Ne.symm hid)]
  · unfold updateHealth
    cases isHealthy <;> rfl

theorem known_removeDeployment (h : (s.removeDeployment deploymentId).1.Known id) : s.Known id ∧ id ≠ deploymentId := by
  rcases h with h | ⟨session, h⟩
  · rw [entries_removeDeployment] at h
    split at h
    · exact absurd rfl h
    next hid => exact ⟨.inl h, Ne.symm hid⟩
  · have hlookup : Dict.lookup (s.sessionDeploymentMap.filter fun entry => entry.2 ≠ deploymentId) session = some id := h
    rw [Dict.lookup_filter, Option.filter_eq_some_iff] at hlookup
    exact ⟨.inr ⟨session, hlookup.1⟩, by simpa using hlookup.2⟩

theorem known_foldl_removeDeployment {ids : List String} {id : String}
    (h : (ids.foldl (fun s id => (s.removeDeployment id).1) s).Known id) : s.Known id ∧ id ∉ ids := by
  induction ids generalizing s with
  | nil => exact ⟨h, by simp⟩
  | cons removed ids ih =>
    obtain ⟨hknown, hids⟩ := ih h
    obtain ⟨hknown, hid⟩ := known_removeDeployment hknown
    exact ⟨hknown, by simp [hid, hids]⟩

/-- The quota entries that a deployment is to have, of those that there are. -/
def quotaEntries (dep : Deployment T) (e : Entries T) : Entries T :=
  { e with
    tokenUsage := dep.tpm.map fun tpm =>
      match e.tokenUsage with
      | some usage => { usage with limit := tpm }
      | none => { limit := tpm }
    rpmTracker := dep.rpm.map fun rpm =>
      match e.rpmTracker with
      | some tracker => { tracker with rpmLimit := rpm }
      | none => { rpmLimit := rpm } }

section

theorem tokenUsage_syncQuota (s : LocalRouterState T) (dep : Deployment T) (id : String) :
    (s.syncQuota dep).tokenUsage.lookup id =
      if dep.id = id then (quotaEntries dep (s.entries id)).tokenUsage else s.tokenUsage.lookup id := by
  unfold syncQuota quotaEntries entries
  by_cases hid : dep.id = id
  · subst hid
    cases dep.tpm with
    | none => simp [Dict.lookup_erase]
    | some tpm =>
      cases husage : s.tokenUsage.lookup dep.id with
      | none => simp
      | some usage =>
        by_cases hlimit : usage.limit = tpm
        · subst hlimit
          simp [husage]
        · simp [hlimit]
  · cases dep.tpm with
    | none => simp [Dict.lookup_erase, hid, Ne.symm hid]
    | some tpm =>
      cases s.tokenUsage.lookup dep.id with
      | none => simp [Dict.lookup_set, hid]
      | some usage => by_cases hlimit : usage.limit = tpm <;> simp [Dict.lookup_set, hlimit, hid]

theorem rpmTracker_syncQuota (s : LocalRouterState T) (dep : Deployment T) (id : String) :
    (s.syncQuota dep).rpmTracker.lookup id =
      if dep.id = id then (quotaEntries dep (s.entries id)).rpmTracker else s.rpmTracker.lookup id := by
  unfold syncQuota quotaEntries entries
  by_cases hid : dep.id = id
  · subst hid
    cases dep.rpm with
    | none => simp [Dict.lookup_erase]
    | some rpm =>
      cases htracker : s.rpmTracker.lookup dep.id with
      | none => simp
      | some tracker =>
        by_cases hlimit : tracker.rpmLimit = rpm
        · subst hlimit
          simp [htracker]
        · simp [hlimit]
  · cases dep.rpm with
    | none => simp [Dict.lookup_erase, hid, Ne.symm hid]
    | some rpm =>
      cases s.rpmTracker.lookup dep.id with
      | none => simp [Dict.lookup_set, hid]
      | some tracker => by_cases hlimit : tracker.rpmLimit = rpm <;> simp [Dict.lookup_set, hlimit, hid]

theorem entries_syncQuota (s : LocalRouterState T) (dep : Deployment T) (id : String) :
    (s.syncQuota dep).entries id = if dep.id = id then quotaEntries dep (s.entries id) else s.entries id := by
  have htoken := tokenUsage_syncQuota s dep id
  have hrpm := rpmTracker_syncQuota s dep id
  by_cases hid : dep.id = id
  · rw [if_pos hid] at htoken hrpm ⊢
    simp only [entries, htoken, hrpm]
    rfl
  · rw [if_neg hid] at htoken hrpm ⊢
    simp only [entries, htoken, hrpm]
    rfl

theorem known_syncQuota {s : LocalRouterState T} {dep : Deployment T} {id : String} (h : (s.syncQuota dep).Known id) :
    s.Known id ∨ id = dep.id := by
  refine known_of_entries ?_ ?_ h
  · intro hid
    rw [entries_syncQuota, if_neg (Ne.symm hid)]
  · rfl

theorem known_syncQuotaState {deployments : List (Deployment T)} {s : LocalRouterState T} {id : String}
    (h : (s.syncQuotaState deployments).Known id) : s.Known id ∨ id ∈ deployments.map Deployment.id := by
  induction deployments generalizing s with
  | nil => exact .inl h
  | cons dep deps ih =>
    rcases ih h with hknown | hmem
    · rcases known_syncQuota hknown with hknown | rfl
      · exact .inl hknown
      · exact .inr (by simp)
    · exact .inr (by simp [hmem])

variable {deployments : List (Deployment T)}

theorem entries_syncQuotaState_congr {s s' : LocalRouterState T} {id : String} (h : s.entries id = s'.entries id) :
    (s.syncQuotaState deployments).entries id = (s'.syncQuotaState deployments).entries id := by
  induction deployments generalizing s s' with
  | nil => exact h
  | cons dep deps ih =>
    apply ih
    rw [entries_syncQuota, entries_syncQuota, h]

variable [Field T] [LinearOrder T]

theorem known_onSuccess {s : LocalRouterState T} {now latency : T} {deploymentId id : String} {tokens : ℤ}
    (h : (s.onSuccess now deploymentId latency tokens).Known id) : s.Known id ∨ id = deploymentId := by
  refine known_of_entries ?_ ?_ h
  · intro hid
    unfold onSuccess entries
    cases s.tokenUsage.lookup deploymentId <;> cases s.rpmTracker.lookup deploymentId <;>
      simp [Dict.lookup_set, Ne.symm hid]
  · rfl

omit [LinearOrder T] in
theorem known_onFailure {s : LocalRouterState T} {now cooldownTime : T} {deploymentId id : String}
    (h : (s.onFailure now deploymentId cooldownTime).Known id) : s.Known id ∨ id = deploymentId := by
  refine known_of_entries ?_ ?_ h
  · intro hid
    simp [entries, onFailure, Dict.lookup_set, Ne.symm hid]
  · rfl

/-- `on_success`, with any value for the tokens. -/
def onSuccessOf (s : LocalRouterState T) (now : T) (deploymentId : String) (latency : T) (tokens : Value) :
    LocalRouterState T :=
  match tokens.divides with
  | .error _ => s.beginSuccess deploymentId
  | .ok _ => s.onSuccess now deploymentId latency (wholeTokens tokens)

theorem known_onSuccessOf {s : LocalRouterState T} {now latency : T} {deploymentId id : String} {tokens : Value}
    (h : (s.onSuccessOf now deploymentId latency tokens).Known id) : s.Known id ∨ id = deploymentId := by
  unfold onSuccessOf at h
  cases htokens : tokens.divides with
  | error error =>
    rw [htokens] at h
    exact known_beginSuccess h
  | ok quotient =>
    rw [htokens] at h
    exact known_onSuccess h

theorem known_availableForModel {s : LocalRouterState T} {now : T} {model id : String}
    (h : (s.availableForModel now deployments model).1.Known id) : s.Known id := by
  have hsessions : ∀ (deps : List (Deployment T)) (s : LocalRouterState T),
      (selectAvailable now deps s).1.sessionDeploymentMap = s.sessionDeploymentMap := by
    intro deps
    induction deps with
    | nil => exact fun s => rfl
    | cons dep deps ih =>
      intro s
      rw [selectAvailable]
      cases (s.deploymentStatus.lookup dep.id).getD .healthy with
      | healthy => exact ih s
      | cooldown =>
        cases (s.cooldownUntil.lookup dep.id).getD (some 0) with
        | none => rfl
        | some d =>
          dsimp only
          split
          · exact ih s
          · exact ih (s.resetDeployment dep.id)
  rcases h with h | ⟨session, h⟩
  · rcases selectAvailable_looked (candidates deployments model) s id with hsame | ⟨hdue, -⟩
    · exact .inl (hsame ▸ h)
    · refine .inl fun hempty => ?_
      have hstatus : s.deploymentStatus.lookup id = none := congrArg Entries.status hempty
      rw [hdue.1] at hstatus
      cases hstatus
  · rw [availableForModel, hsessions] at h
    exact .inr ⟨session, h⟩

omit [LinearOrder T] in
theorem entries_construct (s : LocalRouterState T) {now cooldownTime : T} {id : String}
    (h : ∀ dep ∈ deployments, dep.id = id → dep.status = .healthy) :
    (s.construct now deployments cooldownTime).entries id = (s.syncQuotaState deployments).entries id := by
  have hinitial : ∀ (deps : List (Deployment T)) (s : LocalRouterState T), (∀ dep ∈ deps, dep.id = id → dep.status = .healthy) →
      (deps.foldl (initialCooldown now cooldownTime) s).entries id = s.entries id := by
    intro deps
    induction deps with
    | nil => exact fun s _ => rfl
    | cons dep deps ih =>
      intro s hdeps
      rw [List.foldl_cons, ih _ fun d hd => hdeps d (by simp [hd])]
      unfold initialCooldown
      cases hstatus : dep.status with
      | healthy => rfl
      | cooldown =>
        have hid : dep.id ≠ id := fun hid => by
          have hhealthy := hdeps dep (by simp) hid
          rw [hstatus] at hhealthy
          cases hhealthy
        simp [entries, Dict.lookup_set, hid]
  exact entries_syncQuotaState_congr (hinitial deployments s h)

omit [LinearOrder T] in
theorem known_construct {s : LocalRouterState T} {now cooldownTime : T} {deployments : List (Deployment T)} {id : String}
    (h : (s.construct now deployments cooldownTime).Known id) : s.Known id ∨ id ∈ deployments.map Deployment.id := by
  have hinitial : ∀ (deps : List (Deployment T)) (s : LocalRouterState T),
      (deps.foldl (initialCooldown now cooldownTime) s).Known id → s.Known id ∨ id ∈ deps.map Deployment.id := by
    intro deps
    induction deps with
    | nil => exact fun s h => .inl h
    | cons dep deps ih =>
      intro s h
      rcases ih _ h with hknown | hmem
      · unfold initialCooldown at hknown
        cases hstatus : dep.status with
        | healthy =>
          rw [hstatus] at hknown
          exact .inl hknown
        | cooldown =>
          rw [hstatus] at hknown
          have hone : s.Known id ∨ id = dep.id := by
            refine known_of_entries ?_ ?_ hknown
            · intro hid
              simp [entries, Dict.lookup_set, Ne.symm hid]
            · rfl
          exact hone.imp_right fun hid => by simp [hid]
      · exact .inr (by simp [hmem])
  rcases known_syncQuotaState h with hknown | hmem
  · exact hinitial deployments s hknown
  · exact .inr hmem

end

end LocalRouterState

/-! ## What the collector counts for a deployment -/

namespace RoutingEvent

/-- The deployment that an event is counted for. -/
def names (event : RoutingEvent T) : Option String :=
  match event.eventType with
  | .requestSucceeded | .streamSucceeded | .requestRetried => named event.deploymentId
  | .allDeploymentsExhausted => named event.routeId
  | _ => none

/-- The deployments that an event tells to be gone. -/
def removes (event : RoutingEvent T) : List String :=
  match event.eventType with
  | .deploymentsUpdated => event.removedIds.getD []
  | _ => []

end RoutingEvent

namespace MetricsCollector

/-- There is an entry for the deployment. -/
def Known (m : MetricsCollector T) (id : String) : Prop :=
  m.deploymentRequests.contains id ∨ m.deploymentSuccesses.contains id ∨ m.deploymentFailures.contains id ∨
    m.deploymentLatency.contains id ∨ m.deploymentTokens.contains id ∨ m.deploymentProvider.contains id

variable {m : MetricsCollector T} {event : RoutingEvent T}

theorem known_deploymentSucceeded {deploymentId id : String}
    (h : (m.deploymentSucceeded event deploymentId).Known id) : m.Known id ∨ deploymentId = id := by
  by_cases hid : deploymentId = id
  · exact .inr hid
  · refine .inl ?_
    have hlatency : (m.deploymentSucceeded event deploymentId).deploymentLatency.contains id =
        m.deploymentLatency.contains id := by
      unfold deploymentSucceeded
      cases event.latency <;> simp [Dict.contains_set, hid]
    have htokens : (m.deploymentSucceeded event deploymentId).deploymentTokens.contains id =
        m.deploymentTokens.contains id := by
      unfold deploymentSucceeded
      dsimp only
      split
      · split <;> simp [Dict.contains_set, hid]
      · rfl
    have hprovider : (m.deploymentSucceeded event deploymentId).deploymentProvider.contains id =
        m.deploymentProvider.contains id := by
      unfold deploymentSucceeded
      cases named event.provider <;> simp [Dict.contains_set, hid]
    have hcounts : (m.deploymentSucceeded event deploymentId).deploymentRequests.contains id =
          m.deploymentRequests.contains id ∧
        (m.deploymentSucceeded event deploymentId).deploymentSuccesses.contains id =
          m.deploymentSuccesses.contains id := by
      simp [deploymentSucceeded, increment, Dict.contains_set, hid]
    rw [Known, hlatency, htokens, hprovider, hcounts.1, hcounts.2] at h
    exact h

theorem known_deploymentFailed {deploymentId id : String}
    (h : (m.deploymentFailed deploymentId).Known id) : m.Known id ∨ deploymentId = id := by
  by_cases hid : deploymentId = id
  · exact .inr hid
  · refine .inl ?_
    simpa [Known, deploymentFailed, increment, Dict.contains_set, hid] using h

theorem known_dropDeploymentKeys {deploymentIds : List String} {id : String}
    (h : (m.dropDeploymentKeys deploymentIds).Known id) : m.Known id ∧ id ∉ deploymentIds := by
  induction deploymentIds generalizing m with
  | nil => exact ⟨h, by simp⟩
  | cons dropped ids ih =>
    rw [dropDeploymentKeys, List.foldl_cons] at h
    obtain ⟨hknown, hids⟩ := ih h
    simp only [Known, Dict.contains_erase, Bool.and_eq_true, decide_eq_true_eq, ← and_or_left] at hknown
    exact ⟨hknown.2, by simp [hknown.1, hids]⟩

theorem known_onSucceeded {id : String} (h : (m.onSucceeded event).Known id) :
    m.Known id ∨ named event.deploymentId = some id := by
  unfold onSucceeded at h
  cases hnamed : named event.deploymentId with
  | none =>
    rw [hnamed] at h
    exact .inl h
  | some d =>
    rw [hnamed] at h
    exact (known_deploymentSucceeded h).imp_right (congrArg some)

theorem known_onRequestRetried {id : String}
    (h : (m.onRequestRetried event).Known id) : m.Known id ∨ named event.deploymentId = some id := by
  unfold onRequestRetried at h
  cases hnamed : named event.deploymentId with
  | none =>
    rw [hnamed] at h
    exact .inl h
  | some d =>
    rw [hnamed] at h
    exact (known_deploymentFailed h).imp_right (congrArg some)

theorem known_onAllExhausted {id : String}
    (h : (m.onAllExhausted event).Known id) : m.Known id ∨ named event.routeId = some id := by
  unfold onAllExhausted at h
  cases hnamed : named event.routeId with
  | none =>
    rw [hnamed] at h
    exact .inl h
  | some d =>
    rw [hnamed] at h
    exact (known_deploymentFailed h).imp_right (congrArg some)

theorem known_handleEvent {id : String} (h : (m.handleEvent event).Known id) :
    (m.Known id ∨ event.names = some id) ∧ id ∉ event.removes := by
  unfold handleEvent at h
  unfold RoutingEvent.names RoutingEvent.removes
  cases hevent : event.eventType with
  | requestSucceeded | streamSucceeded =>
    rw [hevent] at h
    exact ⟨known_onSucceeded h, by simp⟩
  | requestRetried =>
    rw [hevent] at h
    exact ⟨known_onRequestRetried h, by simp⟩
  | allDeploymentsExhausted =>
    rw [hevent] at h
    exact ⟨known_onAllExhausted h, by simp⟩
  | deploymentsUpdated =>
    rw [hevent] at h
    obtain ⟨hknown, hids⟩ := known_dropDeploymentKeys h
    exact ⟨.inl hknown, hids⟩
  | requestStarted | streamStarted | requestCancelled | streamCancelled | streamRouteSelected =>
    rw [hevent] at h
    exact ⟨.inl h, by simp⟩

end MetricsCollector

/-! ## The system -/

/-- A call that is not over: the reports that it still makes, and whether the deployments were replaced since it began. -/
structure InFlight (T : Type) where
  reports : List (Report T)
  earlier : Bool := false

/-- What the check of one deployment found out. -/
structure HealthCheckResult where
  deploymentId : String
  isHealthy : Bool

structure System (T : Type) where
  deployments : List (Deployment T)
  state : LocalRouterState T
  metrics : MetricsCollector T := {}
  inFlight : List (InFlight T) := []
  background : List (RoutingEvent T) := []
  probes : List (List (Deployment T)) := []

inductive Action (T : Type) where
  | updateDeployments (newDeployments : List (Deployment T))
  | beginCall (call : Call T)
  | performReport (call : ℕ)
  | emitBackground (task : ℕ)
  | recordSession (sessionId deploymentId : String)
  | beginChecks
  | endChecks (round : ℕ) (isHealthy : ℕ → Bool)

/-- The model whose deployments a call looks for, if it looks for any. -/
def Call.looksFor (deployments : List (Deployment T)) : Call T → Option String
  | .completion model none _ _ _ => some model
  | .completion _ (some _) _ _ _ => none
  | .invoke model none _ _ _ => resolveModelName deployments model
  | .invoke _ (some _) _ _ _ => none
  | .streamCompletion model _ _ _ => some model
  | .stream model _ _ _ => resolveModelName deployments model

def Call.finding (available : List (Deployment T)) : Call T → Call T
  | .completion model deployment _ attempts final => .completion model deployment available attempts final
  | .invoke model deployment _ attempts final => .invoke model deployment available attempts final
  | .streamCompletion model _ attempts final => .streamCompletion model available attempts final
  | .stream model _ attempts final => .stream model available attempts final

namespace System

def ids (s : System T) : List String := s.deployments.map Deployment.id

variable [Field T] [LinearOrder T]

/-- A router that is constructed with these deployments. -/
def start (now cooldownTime : T) (deployments : List (Deployment T)) : System T where
  deployments := deployments
  state := ({} : LocalRouterState T).construct now deployments cooldownTime

/-- `update_deployments`, where a loop is running. -/
def updateDeployments (s : System T) (newDeployments : List (Deployment T)) : System T :=
  let removedIds := (s.ids.filter fun id => id ∉ newDeployments.map Deployment.id).dedup.mergeSort
  { s with
    deployments := newDeployments
    state := (removedIds.foldl (fun state id => (state.removeDeployment id).1) s.state).syncQuotaState newDeployments
    inFlight := s.inFlight.map fun call => { call with earlier := true }
    background := s.background ++
      if removedIds = [] then []
      else [{ eventType := .deploymentsUpdated, model := some "", removedIds := some removedIds }] }

def beginCall (router : Settings T) (s : System T) (now : T) (call : Call T) : System T :=
  match call.looksFor s.deployments with
  | none => { s with inFlight := s.inFlight ++ [{ reports := (call.trace router s.deployments).reports }] }
  | some model =>
    match s.state.availableForModel now s.deployments model with
    | (state, none) => { s with state := state }
    | (state, some available) =>
      { s with
        state := state
        inFlight := s.inFlight ++ [{ reports := ((call.finding available).trace router s.deployments).reports }] }

def report (cooldownTime : T) (s : System T) (now : T) : Report T → System T
  | .emit event => { s with metrics := s.metrics.handleEvent event }
  | .background event => { s with background := s.background ++ [event] }
  | .onSuccess deploymentId latency tokens => { s with state := s.state.onSuccessOf now deploymentId latency tokens }
  | .onFailure deploymentId => { s with state := s.state.onFailure now deploymentId cooldownTime }

/-- A call makes its next report, or ends. -/
def performReport (cooldownTime : T) (s : System T) (now : T) (call : ℕ) : System T :=
  match s.inFlight[call]? with
  | none => s
  | some { reports := [], .. } => { s with inFlight := s.inFlight.eraseIdx call }
  | some { reports := r :: reports, earlier } =>
    ({ s with inFlight := s.inFlight.set call { reports := reports, earlier := earlier } }).report cooldownTime now r

def emitBackground (s : System T) (task : ℕ) : System T :=
  match s.background[task]? with
  | none => s
  | some event => { s with metrics := s.metrics.handleEvent event, background := s.background.eraseIdx task }

/-- The results of a round, in the order of the deployments that were checked. -/
def checkResults (probed : List (Deployment T)) (isHealthy : ℕ → Bool) : List HealthCheckResult :=
  probed.zipIdx.map fun d => { deploymentId := d.1.id, isHealthy := isHealthy d.2 }

/-- The results of a round with the deployments that they are applied to, which are those that there are now. -/
def paired (s : System T) (probed : List (Deployment T)) (isHealthy : ℕ → Bool) : List (String × HealthCheckResult) :=
  s.ids.zip (checkResults probed isHealthy)

def endChecks (s : System T) (round : ℕ) (isHealthy : ℕ → Bool) : System T :=
  match s.probes[round]? with
  | none => s
  | some probed =>
    { s with
      state := (s.paired probed isHealthy).foldl (fun state r => state.updateHealth r.1 r.2.isHealthy) s.state
      probes := s.probes.eraseIdx round }

def step (router : Settings T) (cooldownTime : T) (s : System T) (e : T × Action T) : System T :=
  match e.2 with
  | .updateDeployments newDeployments => s.updateDeployments newDeployments
  | .beginCall call => s.beginCall router e.1 call
  | .performReport call => s.performReport cooldownTime e.1 call
  | .emitBackground task => s.emitBackground task
  | .recordSession sessionId deploymentId =>
    { s with state := s.state.updateSessionMapping sessionId deploymentId e.1 }
  | .beginChecks => { s with probes := s.probes ++ [s.deployments] }
  | .endChecks round isHealthy => s.endChecks round isHealthy

/-! ## Hot swap is clean -/

/-- A deployment of the router, or one that a pending event is about to remove from the metrics. -/
def Covers (s : System T) (id : String) : Prop := id ∈ s.ids ∨ ∃ event ∈ s.background, id ∈ event.removes

/-- What is to hold of a step: a result is applied to the deployment that was checked, and a new deployment starts as in a
router that is constructed with it. -/
def Sound (cooldownTime : T) (s : System T) (e : T × Action T) : Prop :=
  match e.2 with
  | .endChecks round isHealthy => ∀ probed, s.probes[round]? = some probed →
      ∀ r ∈ s.paired probed isHealthy, r.2.deploymentId = r.1
  | .updateDeployments newDeployments => ∀ d ∈ newDeployments, d.id ∉ s.ids →
      (s.updateDeployments newDeployments).state.entries d.id = (start e.1 cooldownTime newDeployments).state.entries d.id
  | _ => True

/-- What is to hold of a state: when the calls from before the last swap are over and its event was handled, nothing is
known about deployments that are gone. -/
def Tidy (s : System T) : Prop :=
  (∀ call ∈ s.inFlight, call.earlier = false) → (∀ event ∈ s.background, event.eventType ≠ .deploymentsUpdated) →
    ∀ id, id ∉ s.ids → ¬ s.state.Known id ∧ ¬ s.metrics.Known id

/-- A report that is about no deployment that is gone. -/
def Current (s : System T) : Report T → Prop
  | .emit event => ∀ id, event.names = some id → s.Covers id
  | .background _ => True
  | .onSuccess deploymentId _ _ => deploymentId ∈ s.ids
  | .onFailure deploymentId => deploymentId ∈ s.ids

/-- A step that no swap comes in the way of: deployments are new in good health, what is reported is about deployments
that are still there, and the checked deployments are in the same places. -/
def Undisturbed (s : System T) (e : T × Action T) : Prop :=
  match e.2 with
  | .updateDeployments newDeployments => ∀ d ∈ newDeployments, d.id ∉ s.ids → d.status = .healthy
  | .beginCall _ => True
  | .performReport call => ∀ c ∈ s.inFlight[call]?, ∀ r ∈ c.reports.head?, s.Current r
  | .emitBackground task => ∀ event ∈ s.background[task]?, ∀ id, event.names = some id → s.Covers id
  | .recordSession _ deploymentId => deploymentId ∈ s.ids
  | .beginChecks => True
  | .endChecks round _ => ∀ probed ∈ s.probes[round]?,
      s.ids.take probed.length <+: probed.map Deployment.id

structure Inv (s : System T) : Prop where
  state : ∀ id, s.state.Known id → id ∈ s.ids
  metrics : ∀ id, s.metrics.Known id → s.Covers id

omit [Field T] [LinearOrder T] in
theorem Inv.tidy {s : System T} (h : s.Inv) : s.Tidy := by
  intro _ hbackground id hid
  refine ⟨fun hknown => hid (h.state id hknown), fun hknown => ?_⟩
  rcases h.metrics id hknown with hcurrent | ⟨event, hevent, hremoves⟩
  · exact hid hcurrent
  · have hupdate := hbackground event hevent
    unfold RoutingEvent.removes at hremoves
    cases htype : event.eventType with
    | deploymentsUpdated => exact hupdate htype
    | requestStarted | requestSucceeded | requestRetried | allDeploymentsExhausted | requestCancelled | streamStarted
      | streamRouteSelected | streamSucceeded | streamCancelled => simp [htype] at hremoves

omit [Field T] [LinearOrder T] in
theorem not_known_empty (id : String) : ¬ ({} : LocalRouterState T).Known id := by
  rintro (h | ⟨session, h⟩)
  · exact h rfl
  · cases h

omit [LinearOrder T] in
theorem Inv.start (now cooldownTime : T) (deployments : List (Deployment T)) : (start now cooldownTime deployments).Inv where
  state := fun id h => (LocalRouterState.known_construct h).resolve_left (not_known_empty id)
  metrics := fun id h => by
    rcases h with h | h | h | h | h | h <;> cases h

omit [Field T] [LinearOrder T] in
theorem Inv.updateDeployments {s : System T} (h : s.Inv) (newDeployments : List (Deployment T)) :
    (s.updateDeployments newDeployments).Inv := by
  have hremoved : ∀ id, id ∈ (s.ids.filter fun id => id ∉ newDeployments.map Deployment.id).dedup.mergeSort ↔
      id ∈ s.ids ∧ id ∉ newDeployments.map Deployment.id := by
    intro id
    rw [(List.mergeSort_perm _ _).mem_iff, List.mem_dedup, List.mem_filter, decide_eq_true_eq]
  constructor
  · intro id hknown
    rcases LocalRouterState.known_syncQuotaState hknown with hknown | hnew
    · obtain ⟨hknown, hkept⟩ := LocalRouterState.known_foldl_removeDeployment hknown
      by_contra hnew
      exact hkept ((hremoved id).mpr ⟨h.state id hknown, hnew⟩)
    · exact hnew
  · intro id hknown
    rcases h.metrics id hknown with hcurrent | ⟨event, hevent, hremoves⟩
    · by_cases hnew : id ∈ newDeployments.map Deployment.id
      · exact .inl hnew
      · have hmem := (hremoved id).mpr ⟨hcurrent, hnew⟩
        have hne : (s.ids.filter fun id => id ∉ newDeployments.map Deployment.id).dedup.mergeSort ≠ [] :=
          List.ne_nil_of_mem hmem
        let removedIds := (s.ids.filter fun id => id ∉ newDeployments.map Deployment.id).dedup.mergeSort
        refine .inr ⟨{ eventType := .deploymentsUpdated, model := some "", removedIds := some removedIds }, ?_, hmem⟩
        refine List.mem_append_right _ ?_
        rw [if_neg hne]
        exact List.mem_singleton_self _
    · exact .inr ⟨event, List.mem_append_left _ hevent, hremoves⟩

omit [Field T] [LinearOrder T] in
theorem Inv.mono {s s' : System T} (h : s.Inv) (hids : s'.ids = s.ids) (hbackground : s'.background = s.background)
    (hstate : ∀ id, s'.state.Known id → s.state.Known id ∨ id ∈ s.ids)
    (hmetrics : ∀ id, s'.metrics.Known id → s.metrics.Known id ∨ s.Covers id) : s'.Inv where
  state := fun id hknown => hids ▸ (hstate id hknown).elim (h.state id) fun h => h
  metrics := fun id hknown => by
    rw [Covers, hids, hbackground]
    exact (hmetrics id hknown).elim (h.metrics id) fun h => h

theorem Inv.report {s : System T} (h : s.Inv) (now cooldownTime : T) {r : Report T} (hr : s.Current r) :
    (s.report cooldownTime now r).Inv := by
  cases r with
  | emit event =>
    refine h.mono rfl rfl (fun id hknown => .inl hknown) fun id hknown => ?_
    exact (MetricsCollector.known_handleEvent hknown).1.imp_right fun hnames => hr id hnames
  | background event =>
    refine ⟨h.state, fun id hknown => ?_⟩
    rcases h.metrics id hknown with hcurrent | ⟨pending, hpending, hremoves⟩
    · exact .inl hcurrent
    · exact .inr ⟨pending, List.mem_append_left _ hpending, hremoves⟩
  | onSuccess deploymentId latency tokens =>
    refine h.mono rfl rfl (fun id hknown => ?_) fun id hknown => .inl hknown
    rcases LocalRouterState.known_onSuccessOf hknown with hknown | rfl
    · exact .inl hknown
    · exact .inr hr
  | onFailure deploymentId =>
    refine h.mono rfl rfl (fun id hknown => ?_) fun id hknown => .inl hknown
    rcases LocalRouterState.known_onFailure hknown with hknown | rfl
    · exact .inl hknown
    · exact .inr hr

omit [Field T] [LinearOrder T] in
theorem Inv.emitBackground {s : System T} (h : s.Inv) {task : ℕ}
    (htask : ∀ event ∈ s.background[task]?, ∀ id, event.names = some id → s.Covers id) : (s.emitBackground task).Inv := by
  unfold System.emitBackground
  cases hevent : s.background[task]? with
  | none => exact h
  | some event =>
    refine ⟨h.state, fun id hknown => ?_⟩
    obtain ⟨hbefore, hkept⟩ := MetricsCollector.known_handleEvent hknown
    have hcovers : s.Covers id := hbefore.elim (h.metrics id) fun hnames => htask event hevent id hnames
    rcases hcovers with hcurrent | ⟨pending, hpending, hremoves⟩
    · exact .inl hcurrent
    · obtain ⟨j, hj⟩ := List.mem_iff_getElem?.mp hpending
      have hne : j ≠ task := by
        rintro rfl
        rw [hevent] at hj
        cases hj
        exact hkept hremoves
      exact .inr ⟨pending, List.mem_eraseIdx_iff_getElem?.mpr ⟨j, hne, hj⟩, hremoves⟩

variable {s : System T} (h : s.Inv)
include h

omit [Field T] [LinearOrder T] in
theorem Inv.endChecks (round : ℕ) (isHealthy : ℕ → Bool) : (s.endChecks round isHealthy).Inv := by
  have hchecked : ∀ (results : List (String × HealthCheckResult)) (state : LocalRouterState T) (id : String),
      (results.foldl (fun state r => state.updateHealth r.1 r.2.isHealthy) state).Known id →
        state.Known id ∨ id ∈ results.map Prod.fst := by
    intro results
    induction results with
    | nil => exact fun state id hknown => .inl hknown
    | cons r results ih =>
      intro state id hknown
      rcases ih _ id hknown with hknown | hmem
      · exact (LocalRouterState.known_updateHealth hknown).imp_right fun hid => by simp [hid]
      · exact .inr (by simp [hmem])
  unfold System.endChecks
  cases s.probes[round]? with
  | none => exact h
  | some probed =>
    refine h.mono rfl rfl (fun id hknown => ?_) fun id hknown => .inl hknown
    refine (hchecked _ _ id hknown).imp_right fun hmem => ?_
    obtain ⟨r, hr, rfl⟩ := List.mem_map.mp hmem
    exact (List.of_mem_zip hr).1

theorem Inv.beginCall (router : Settings T) (now : T) (call : Call T) : (s.beginCall router now call).Inv := by
  unfold System.beginCall
  cases call.looksFor s.deployments with
  | none => exact h.mono rfl rfl (fun id hknown => .inl hknown) fun id hknown => .inl hknown
  | some model =>
    have hstate : ∀ id, (s.state.availableForModel now s.deployments model).1.Known id → s.state.Known id :=
      fun id => LocalRouterState.known_availableForModel
    cases hfound : s.state.availableForModel now s.deployments model with
    | mk state available =>
      rw [hfound] at hstate
      cases available with
      | none | some =>
        simp only [hfound]
        exact h.mono rfl rfl (fun id hknown => .inl (hstate id hknown)) fun id hknown => .inl hknown

theorem Inv.performReport (now cooldownTime : T) {call : ℕ}
    (hcall : ∀ c ∈ s.inFlight[call]?, ∀ r ∈ c.reports.head?, s.Current r) : (s.performReport cooldownTime now call).Inv := by
  have hsame : ∀ inFlight, ({ s with inFlight := inFlight } : System T).Inv := fun inFlight =>
    h.mono rfl rfl (fun id hknown => .inl hknown) fun id hknown => .inl hknown
  unfold System.performReport
  rcases hc : s.inFlight[call]? with _ | ⟨reports, earlier⟩
  · exact h
  · cases reports with
    | nil => exact hsame _
    | cons r reports =>
      apply (hsame _).report now cooldownTime
      have hcurrent := hcall ⟨r :: reports, earlier⟩ hc r rfl
      cases r <;> exact hcurrent

theorem Inv.step (router : Settings T) (cooldownTime : T) {e : T × Action T}
    (hu : s.Undisturbed e) : (s.step router cooldownTime e).Inv := by
  obtain ⟨now, action⟩ := e
  cases action with
  | updateDeployments newDeployments => exact h.updateDeployments newDeployments
  | beginCall call => exact h.beginCall router now call
  | performReport call => exact h.performReport now cooldownTime hu
  | emitBackground task => exact h.emitBackground hu
  | recordSession sessionId deploymentId =>
    refine h.mono rfl rfl (fun id hknown => ?_) fun id hknown => .inl hknown
    rcases LocalRouterState.known_updateSessionMapping hknown with hknown | rfl
    · exact .inl hknown
    · exact .inr hu
  | beginChecks => exact h.mono rfl rfl (fun id hknown => .inl hknown) fun id hknown => .inl hknown
  | endChecks round isHealthy => exact h.endChecks round isHealthy

omit h

omit [LinearOrder T] in
theorem Inv.entries_updateDeployments {s : System T} (h : s.Inv) (now cooldownTime : T) {newDeployments : List (Deployment T)}
    (hhealthy : ∀ d ∈ newDeployments, d.id ∉ s.ids → d.status = .healthy) {id : String} (hid : id ∉ s.ids) :
    (s.updateDeployments newDeployments).state.entries id = (System.start now cooldownTime newDeployments).state.entries id := by
  have hinitial : ∀ dep ∈ newDeployments, dep.id = id → dep.status = .healthy := by
    rintro dep hdep rfl
    exact hhealthy dep hdep hid
  rw [System.start, LocalRouterState.entries_construct _ hinitial]
  apply LocalRouterState.entries_syncQuotaState_congr
  by_contra hne
  exact hid (h.state id (LocalRouterState.known_foldl_removeDeployment (.inl hne)).1)

omit [Field T] [LinearOrder T] in
theorem deploymentId_of_mem_paired {s : System T} {probed : List (Deployment T)} {isHealthy : ℕ → Bool}
    (h : s.ids.take probed.length <+: probed.map Deployment.id) {r : String × HealthCheckResult}
    (hr : r ∈ s.paired probed isHealthy) : r.2.deploymentId = r.1 := by
  obtain ⟨i, hi⟩ := List.mem_iff_getElem?.mp hr
  rw [paired, List.getElem?_zip_eq_some] at hi
  obtain ⟨hid, hresult⟩ := hi
  simp only [checkResults, List.getElem?_map, List.getElem?_zipIdx, Option.map_map, Option.map_eq_some_iff] at hresult
  obtain ⟨d, hd, hr⟩ := hresult
  have hlt : i < probed.length := (List.getElem?_eq_some_iff.mp hd).1
  have hchecked : (s.ids.take probed.length)[i]? = some r.1 := by rw [List.getElem?_take_of_lt hlt, hid]
  have hplace : (probed.map Deployment.id)[i]? = some r.1 := by
    obtain ⟨rest, hplaces⟩ := h
    rw [← hplaces, List.getElem?_append_left (List.getElem?_eq_some_iff.mp hchecked).1, hchecked]
  rw [List.getElem?_map, hd] at hplace
  rw [← hr]
  exact Option.some.inj hplace

omit [LinearOrder T] in
theorem Inv.sound {s : System T} (h : s.Inv) (cooldownTime : T) {e : T × Action T} (hu : s.Undisturbed e) :
    s.Sound cooldownTime e := by
  obtain ⟨now, action⟩ := e
  cases action with
  | updateDeployments newDeployments =>
    intro d _ hid
    exact h.entries_updateDeployments now cooldownTime hu hid
  | endChecks round isHealthy =>
    intro probed hprobed r hr
    exact deploymentId_of_mem_paired (hu probed hprobed) hr
  | beginCall | performReport | emitBackground | recordSession | beginChecks => trivial

end System

variable [Field T] [LinearOrder T]

/-- A run whose steps no swap comes in the way of is clean throughout. -/
theorem hotSwap_clean (router : Settings T) (now cooldownTime : T) (deployments : List (Deployment T))
    {events : List (T × Action T)}
    (h : Along (System.step router cooldownTime) System.Undisturbed (System.start now cooldownTime deployments) events) :
    Along (System.step router cooldownTime) (System.Sound cooldownTime) (System.start now cooldownTime deployments) events ∧
      ∀ pre, pre <+: events → (run (System.step router cooldownTime) (System.start now cooldownTime deployments) pre).Tidy := by
  have hstart := System.Inv.start now cooldownTime deployments
  have hkeep : ∀ (s : System T) e, s.Inv → s.Undisturbed e → (s.step router cooldownTime e).Inv :=
    fun s e hs hu => hs.step router cooldownTime hu
  constructor
  · exact h.imp hstart hkeep fun s e hs hu => hs.sound cooldownTime hu
  · exact h.holds hstart (fun s hs => hs.tidy) hkeep

/-- A deployment is added while a call and a round of checks are under way. -/
theorem hotSwap_clean_added :
    let router : Settings ℚ := { transformStreamChunk := fun _ _ chunk => .ok (some chunk) }
    let first : Deployment ℚ := { id := "a", modelName := "m" }
    let second : Deployment ℚ := { id := "b", modelName := "m", tpm := some 100 }
    let attempt : Attempt ℚ :=
      { selection := .chosen (some first), reply := .response (.obj .nil), latency := 1, emits := fun _ => .done }
    let events : List (ℚ × Action ℚ) :=
      [(0, .beginChecks), (1, .beginCall (.completion "m" none [] (fun _ => attempt) .done)), (2, .performReport 0),
        (3, .updateDeployments [first, second]), (4, .performReport 0), (5, .performReport 0), (6, .performReport 0),
        (7, .endChecks 0 fun _ => true)]
    Along (System.step router 60) (System.Sound 60) (System.start 0 60 [first]) events ∧
      ∀ pre, pre <+: events → (run (System.step router 60) (System.start 0 60 [first]) pre).Tidy := by
  intro router first second attempt events
  apply hotSwap_clean
  refine ⟨trivial, trivial, ?_, ?_, ?_, ?_, ?_, ?_, trivial⟩
  · rintro c ⟨⟩ r ⟨⟩ id hid
    cases hid
  · intro d hd _
    simp only [List.mem_cons, List.not_mem_nil, or_false] at hd
    rcases hd with rfl | rfl <;> rfl
  · rintro c ⟨⟩ r ⟨⟩
    exact List.mem_cons_self
  · rintro c ⟨⟩ r ⟨⟩ id hid
    cases hid
    exact .inl List.mem_cons_self
  · rintro c ⟨⟩ r ⟨⟩
  · intro probed hprobed
    have hfirst : some [first] = some probed := hprobed
    rw [← Option.some.inj hfirst]
    exact List.prefix_rfl

/-- A deployment is replaced by a benched one while a call on it and a round of checks are under way: the new one is not
benched, it is given the health of the old one, and the failure of the call stays known when all is over. -/
theorem replaced_not_clean :
    let router : Settings ℚ := { transformStreamChunk := fun _ _ chunk => .ok (some chunk) }
    let old : Deployment ℚ := { id := "a", modelName := "m" }
    let new : Deployment ℚ := { id := "b", modelName := "m", status := .cooldown }
    let attempt : Attempt ℚ :=
      { selection := .chosen (some old), reply := .raised ⟨.network, "DeploymentNetworkError"⟩, latency := 1, emits := fun _ => .done }
    let before := run (System.step router 60) (System.start 0 60 [old])
      [(0, .beginChecks), (1, .beginCall (.completion "m" none [] (fun _ => attempt) .done)), (2, .performReport 0)]
    let swapped := before.step router 60 (3, .updateDeployments [new])
    let after := run (System.step router 60) swapped
      [(4, .endChecks 0 fun _ => true), (5, .emitBackground 0), (6, .performReport 0), (7, .performReport 0), (8, .performReport 0)]
    ¬ before.Sound 60 (3, .updateDeployments [new]) ∧ ¬ swapped.Sound 60 (4, .endChecks 0 fun _ => true) ∧ ¬ after.Tidy := by
  intro router old new attempt before swapped after
  refine ⟨fun h => ?_, fun h => ?_, fun h => ?_⟩
  · have hsame := h new List.mem_cons_self (by decide +kernel)
    exact absurd (congrArg LocalRouterState.Entries.status hsame) (by decide +kernel)
  · have hsame : "a" = "b" := h [old] rfl ("b", ⟨"a", true⟩) List.mem_cons_self
    exact absurd hsame (by decide)
  · have hcalls : after.inFlight = [] := List.length_eq_zero_iff.mp (by decide +kernel)
    have htasks : after.background = [] := List.length_eq_zero_iff.mp (by decide +kernel)
    have hgone := h (by simp [hcalls]) (by simp [htasks]) "a" (by decide +kernel)
    refine hgone.1 (.inl fun hentries => ?_)
    exact absurd (congrArg LocalRouterState.Entries.status hentries) (by decide +kernel)

end AgentProtocol.Router
