-- SUMMARY: MetricsCollector: what it counts for an event, its counters after a run of events, and when they are conserved.
import AgentProtocol.Lib.Run
import AgentProtocol.Router.Calls

/-!
# Metrics

The collector is a handler of events. An event is counted under its lock, so that handling one is one step. A handler
that raises is left by the bus, after everything that is counted here. Distributions of latencies and rates, totals of
tokens and chunks, the timeline and what is exported to Prometheus are left out.
-/

namespace AgentProtocol.Router

open Lib

variable {T : Type}

structure MetricsCollector (T : Type) where
  requestCount : ℕ := 0
  successCount : ℕ := 0
  failureCount : ℕ := 0
  retryCount : ℕ := 0
  exhaustedCount : ℕ := 0
  cancelledCount : ℕ := 0
  streamCount : ℕ := 0
  modelRequests : Dict (Option String) ℕ := ∅
  modelSuccesses : Dict (Option String) ℕ := ∅
  modelFailures : Dict (Option String) ℕ := ∅
  deploymentRequests : Dict String ℕ := ∅
  deploymentSuccesses : Dict String ℕ := ∅
  deploymentFailures : Dict String ℕ := ∅
  deploymentLatency : Dict String (List T) := ∅
  deploymentTokens : Dict String Value := ∅
  deploymentProvider : Dict String String := ∅
  errorsByType : Dict String ℕ := ∅

/-! ## Counting -/

section

variable {κ : Type} [DecidableEq κ]

/-- `d[k]` of a `defaultdict(int)`, as it is read. -/
def counted (d : Dict κ ℕ) (k : κ) : ℕ := (d.lookup k).getD 0

def increment (d : Dict κ ℕ) (k : κ) : Dict κ ℕ := d.set k (counted d k + 1)

theorem counted_increment (d : Dict κ ℕ) (k k' : κ) : counted (increment d k) k' = counted d k' + (decide (k = k')).toNat := by
  by_cases h : k = k'
  · subst h
    simp [counted, increment]
  · simp [counted, increment, Dict.lookup_set, h]

end

/-- A text that is there and not empty, as `if event.deployment_id` asks. -/
def named : Option String → Option String
  | some text => if text ≠ "" then some text else none
  | none => none

@[simp] theorem named_none : named none = none := rfl

theorem named_some {text : String} (h : text ≠ "") : named (some text) = some text := if_pos h

@[simp] theorem named_empty : named (some "") = none := rfl

namespace RoutingEvent

/-- What an event says of the request that it belongs to. -/
inductive Phase where
  | start
  | success
  | failure
  | cancellation
  deriving DecidableEq

def phase (event : RoutingEvent T) : Option Phase :=
  match event.eventType with
  | .requestStarted | .streamStarted => some .start
  | .requestSucceeded | .streamSucceeded => some .success
  | .allDeploymentsExhausted => some .failure
  | .requestCancelled | .streamCancelled => some .cancellation
  | .requestRetried | .streamRouteSelected | .deploymentsUpdated => none

def modelWhen (p : Phase → Bool) (event : RoutingEvent T) : Option (Option String) :=
  event.phase.bind fun phase => if p phase then some event.model else none

/-- The deployment that a failure is counted for. -/
def charge (event : RoutingEvent T) : Option String :=
  match event.eventType with
  | .requestRetried => named event.deploymentId
  | .allDeploymentsExhausted => named event.routeId
  | _ => none

end RoutingEvent

/-! ## The handlers -/

namespace MetricsCollector

def deploymentSucceeded (m : MetricsCollector T) (event : RoutingEvent T) (deploymentId : String) : MetricsCollector T :=
  let tokens := (m.deploymentTokens.lookup deploymentId).getD (.int 0)
  { m with
    deploymentRequests := increment m.deploymentRequests deploymentId
    deploymentSuccesses := increment m.deploymentSuccesses deploymentId
    deploymentProvider := match named event.provider with
      | some provider => m.deploymentProvider.set deploymentId provider
      | none => m.deploymentProvider
    deploymentLatency := match event.latency with
      | some latency =>
        m.deploymentLatency.set deploymentId ((m.deploymentLatency.lookup deploymentId).getD [] ++ [latency])
      | none => m.deploymentLatency
    deploymentTokens :=
      match ((event.promptTokens.getD .null).orElse (.int 0)).add ((event.completionTokens.getD .null).orElse (.int 0)) with
      | .ok total =>
        -- the entry is there also if the sum raises
        if total.truthy then m.deploymentTokens.set deploymentId ((tokens.add total).toOption.getD tokens) else m.deploymentTokens
      | .error _ => m.deploymentTokens }

def deploymentFailed (m : MetricsCollector T) (deploymentId : String) : MetricsCollector T :=
  { m with
    deploymentRequests := increment m.deploymentRequests deploymentId
    deploymentFailures := increment m.deploymentFailures deploymentId }

def onRequestStarted (m : MetricsCollector T) (event : RoutingEvent T) : MetricsCollector T :=
  { m with requestCount := m.requestCount + 1, modelRequests := increment m.modelRequests event.model }

/-- `_on_request_succeeded` and `_on_stream_succeeded` -/
def onSucceeded (m : MetricsCollector T) (event : RoutingEvent T) : MetricsCollector T :=
  let m := { m with successCount := m.successCount + 1, modelSuccesses := increment m.modelSuccesses event.model }
  match named event.deploymentId with
  | some deploymentId => m.deploymentSucceeded event deploymentId
  | none => m

def onRequestRetried (m : MetricsCollector T) (event : RoutingEvent T) : MetricsCollector T :=
  let m := { m with
    retryCount := m.retryCount + 1
    errorsByType := match named event.errorType with
      | some errorType => increment m.errorsByType errorType
      | none => m.errorsByType }
  match named event.deploymentId with
  | some deploymentId => m.deploymentFailed deploymentId
  | none => m

def onAllExhausted (m : MetricsCollector T) (event : RoutingEvent T) : MetricsCollector T :=
  let m := { m with
    exhaustedCount := m.exhaustedCount + 1
    failureCount := m.failureCount + 1
    modelFailures := increment m.modelFailures event.model }
  match named event.routeId with
  | some routeId => m.deploymentFailed routeId
  | none => m

def onStreamStarted (m : MetricsCollector T) (event : RoutingEvent T) : MetricsCollector T :=
  { m with
    streamCount := m.streamCount + 1
    requestCount := m.requestCount + 1
    modelRequests := increment m.modelRequests event.model }

/-- `_on_stream_cancelled` and `_on_request_cancelled` -/
def onCancelled (m : MetricsCollector T) : MetricsCollector T := { m with cancelledCount := m.cancelledCount + 1 }

def dropDeploymentKeys (m : MetricsCollector T) (deploymentIds : List String) : MetricsCollector T :=
  deploymentIds.foldl (fun m id =>
    { m with
      deploymentRequests := m.deploymentRequests.erase id
      deploymentSuccesses := m.deploymentSuccesses.erase id
      deploymentFailures := m.deploymentFailures.erase id
      deploymentLatency := m.deploymentLatency.erase id
      deploymentTokens := m.deploymentTokens.erase id
      deploymentProvider := m.deploymentProvider.erase id }) m

def handleEvent (m : MetricsCollector T) (event : RoutingEvent T) : MetricsCollector T :=
  match event.eventType with
  | .requestStarted => m.onRequestStarted event
  | .requestSucceeded => m.onSucceeded event
  | .requestRetried => m.onRequestRetried event
  | .allDeploymentsExhausted => m.onAllExhausted event
  | .streamStarted => m.onStreamStarted event
  | .streamSucceeded => m.onSucceeded event
  | .streamCancelled => m.onCancelled
  | .requestCancelled => m.onCancelled
  | .deploymentsUpdated => m.dropDeploymentKeys (event.removedIds.getD [])
  | .streamRouteSelected => m

def collect (events : List (RoutingEvent T)) : MetricsCollector T := run handleEvent {} events

/-! ## What one event changes -/

def count (m : MetricsCollector T) : RoutingEvent.Phase → ℕ
  | .start => m.requestCount
  | .success => m.successCount
  | .failure => m.failureCount
  | .cancellation => m.cancelledCount

/-- The counters of a phase by model. Those of cancelled requests are not kept. -/
def modelCount (m : MetricsCollector T) (model : Option String) : RoutingEvent.Phase → ℕ
  | .start => counted m.modelRequests model
  | .success => counted m.modelSuccesses model
  | .failure => counted m.modelFailures model
  | .cancellation => 0

theorem dropDeploymentKeys_count (m : MetricsCollector T) (deploymentIds : List String) (p : RoutingEvent.Phase) :
    (m.dropDeploymentKeys deploymentIds).count p = m.count p := by
  induction deploymentIds generalizing m with
  | nil => rfl
  | cons id ids ih =>
    rw [dropDeploymentKeys, List.foldl_cons]
    refine (ih _).trans ?_
    cases p <;> rfl

theorem dropDeploymentKeys_modelCount (m : MetricsCollector T) (deploymentIds : List String) (model : Option String)
    (p : RoutingEvent.Phase) : (m.dropDeploymentKeys deploymentIds).modelCount model p = m.modelCount model p := by
  induction deploymentIds generalizing m with
  | nil => rfl
  | cons id ids ih =>
    rw [dropDeploymentKeys, List.foldl_cons]
    refine (ih _).trans ?_
    cases p <;> rfl

variable (m : MetricsCollector T) (event : RoutingEvent T)

@[simp] theorem deploymentSucceeded_modelCount (id : String) (model : Option String) (p : RoutingEvent.Phase) :
    (m.deploymentSucceeded event id).modelCount model p = m.modelCount model p := by
  cases p <;> rfl

@[simp] theorem deploymentFailed_modelCount (m : MetricsCollector T) (id : String) (model : Option String)
    (p : RoutingEvent.Phase) : (m.deploymentFailed id).modelCount model p = m.modelCount model p := by
  cases p <;> rfl

variable (p : RoutingEvent.Phase)

theorem onSucceeded_count : (m.onSucceeded event).count p = m.count p + (decide (p = .success)).toNat := by
  unfold onSucceeded
  cases named event.deploymentId with
  | none | some => cases p <;> rfl

theorem onAllExhausted_count : (m.onAllExhausted event).count p = m.count p + (decide (p = .failure)).toNat := by
  unfold onAllExhausted
  cases named event.routeId with
  | none | some => cases p <;> rfl

theorem onRequestRetried_count : (m.onRequestRetried event).count p = m.count p := by
  unfold onRequestRetried
  cases named event.deploymentId with
  | none | some => cases p <;> rfl

theorem handleEvent_count : (m.handleEvent event).count p = m.count p + (decide (event.phase = some p)).toNat := by
  unfold handleEvent RoutingEvent.phase
  cases event.eventType with
  | requestSucceeded | streamSucceeded => exact (onSucceeded_count m event p).trans (by cases p <;> rfl)
  | allDeploymentsExhausted => exact (onAllExhausted_count m event p).trans (by cases p <;> rfl)
  | requestRetried => exact onRequestRetried_count m event p
  | deploymentsUpdated => exact dropDeploymentKeys_count m _ p
  | requestStarted | streamStarted | requestCancelled | streamCancelled | streamRouteSelected => cases p <;> rfl

variable (model : Option String) (p : RoutingEvent.Phase)

theorem onSucceeded_modelCount :
    (m.onSucceeded event).modelCount model p = m.modelCount model p + (decide (p = .success ∧ event.model = model)).toNat := by
  have h : ({ m with successCount := m.successCount + 1, modelSuccesses := increment m.modelSuccesses event.model } :
      MetricsCollector T).modelCount model p = m.modelCount model p + (decide (p = .success ∧ event.model = model)).toNat := by
    cases p <;> simp [modelCount, counted_increment]
  unfold onSucceeded
  cases named event.deploymentId with
  | none => exact h
  | some id => simpa using h

theorem onAllExhausted_modelCount : (m.onAllExhausted event).modelCount model p =
      m.modelCount model p + (decide (p = .failure ∧ event.model = model)).toNat := by
  have h : ({ m with
      exhaustedCount := m.exhaustedCount + 1
      failureCount := m.failureCount + 1
      modelFailures := increment m.modelFailures event.model } : MetricsCollector T).modelCount model p =
      m.modelCount model p + (decide (p = .failure ∧ event.model = model)).toNat := by
    cases p <;> simp [modelCount, counted_increment]
  unfold onAllExhausted
  cases named event.routeId with
  | none => exact h
  | some id => simpa using h

theorem onRequestRetried_modelCount : (m.onRequestRetried event).modelCount model p = m.modelCount model p := by
  unfold onRequestRetried
  cases named event.deploymentId with
  | none | some => cases p <;> rfl

variable {p : RoutingEvent.Phase}

variable (m : MetricsCollector T) (event : RoutingEvent T)

theorem handleEvent_modelCount (model : Option String) (hp : p ≠ .cancellation) : (m.handleEvent event).modelCount model p =
      m.modelCount model p + (decide (event.phase = some p ∧ event.model = model)).toNat := by
  unfold handleEvent RoutingEvent.phase
  cases event.eventType with
  | requestStarted | streamStarted =>
    cases p <;> simp [onRequestStarted, onStreamStarted, modelCount, counted_increment]
  | requestSucceeded | streamSucceeded =>
    refine (onSucceeded_modelCount m event model p).trans ?_
    cases p <;> simp
  | allDeploymentsExhausted =>
    refine (onAllExhausted_modelCount m event model p).trans ?_
    cases p <;> simp
  | requestCancelled | streamCancelled =>
    cases p with
    | cancellation => exact absurd rfl hp
    | start | success | failure => simp [onCancelled, modelCount]
  | requestRetried => simpa using onRequestRetried_modelCount m event model p
  | deploymentsUpdated => simpa using dropDeploymentKeys_modelCount m _ model p
  | streamRouteSelected => simp

theorem onSucceeded_failures (d : String) :
    counted (m.onSucceeded event).deploymentFailures d = counted m.deploymentFailures d := by
  unfold onSucceeded
  cases named event.deploymentId with
  | none | some => rfl

theorem onSucceeded_successes (d : String) : counted (m.onSucceeded event).deploymentSuccesses d =
      counted m.deploymentSuccesses d + (decide (named event.deploymentId = some d)).toNat := by
  unfold onSucceeded
  cases named event.deploymentId with
  | none => simp
  | some id => simp [deploymentSucceeded, counted_increment]

theorem onSucceeded_requests (d : String) : counted (m.onSucceeded event).deploymentRequests d =
      counted m.deploymentRequests d + (decide (named event.deploymentId = some d)).toNat := by
  unfold onSucceeded
  cases named event.deploymentId with
  | none => simp
  | some id => simp [deploymentSucceeded, counted_increment]

theorem deploymentFailed_counted (m : MetricsCollector T) (id d : String) :
    counted (m.deploymentFailed id).deploymentFailures d = counted m.deploymentFailures d + (decide (id = d)).toNat ∧
    counted (m.deploymentFailed id).deploymentRequests d = counted m.deploymentRequests d + (decide (id = d)).toNat ∧
    counted (m.deploymentFailed id).deploymentSuccesses d = counted m.deploymentSuccesses d := by
  simp [deploymentFailed, counted_increment]

variable {event : RoutingEvent T}

theorem handleEvent_failures (m : MetricsCollector T) (h : event.eventType ≠ .deploymentsUpdated) (d : String) :
    counted (m.handleEvent event).deploymentFailures d =
      counted m.deploymentFailures d + (decide (event.charge = some d)).toNat := by
  unfold handleEvent RoutingEvent.charge
  cases hevent : event.eventType with
  | requestSucceeded | streamSucceeded => simpa using onSucceeded_failures m event d
  | requestRetried =>
    unfold onRequestRetried
    cases named event.deploymentId with
    | none => simp
    | some id => simpa using (deploymentFailed_counted _ id d).1
  | allDeploymentsExhausted =>
    unfold onAllExhausted
    cases named event.routeId with
    | none => simp
    | some id => simpa using (deploymentFailed_counted _ id d).1
  | deploymentsUpdated => exact absurd hevent h
  | requestStarted | streamStarted | requestCancelled | streamCancelled | streamRouteSelected =>
    simp [onRequestStarted, onStreamStarted, onCancelled]

theorem handleEvent_requests (m : MetricsCollector T) (h : event.eventType ≠ .deploymentsUpdated) {d : String}
    (hm : counted m.deploymentRequests d = counted m.deploymentSuccesses d + counted m.deploymentFailures d) :
    counted (m.handleEvent event).deploymentRequests d =
      counted (m.handleEvent event).deploymentSuccesses d + counted (m.handleEvent event).deploymentFailures d := by
  have hfailed : ∀ (m : MetricsCollector T) (id : String),
      counted m.deploymentRequests d = counted m.deploymentSuccesses d + counted m.deploymentFailures d →
      counted (m.deploymentFailed id).deploymentRequests d =
        counted (m.deploymentFailed id).deploymentSuccesses d + counted (m.deploymentFailed id).deploymentFailures d := by
    intro m id hm
    obtain ⟨hfailures, hrequests, hsuccesses⟩ := deploymentFailed_counted m id d
    omega
  unfold handleEvent
  cases hevent : event.eventType with
  | requestSucceeded | streamSucceeded =>
    rw [onSucceeded_requests, onSucceeded_successes, onSucceeded_failures]
    omega
  | requestRetried =>
    unfold onRequestRetried
    cases named event.deploymentId with
    | none => exact hm
    | some id => exact hfailed _ id hm
  | allDeploymentsExhausted =>
    unfold onAllExhausted
    cases named event.routeId with
    | none => exact hm
    | some id => exact hfailed _ id hm
  | deploymentsUpdated => exact absurd hevent h
  | requestStarted | streamStarted | requestCancelled | streamCancelled | streamRouteSelected => exact hm

/-! ## What a run of events changes -/

theorem collect_count (events : List (RoutingEvent T)) (p : RoutingEvent.Phase) :
    (collect events).count p = events.countP fun event => event.phase = some p := by
  have h : (collect events).count p = ({} : MetricsCollector T).count p + events.countP fun event => event.phase = some p :=
    run_countP (f := fun m : MetricsCollector T => m.count p) fun m event _ => handleEvent_count m event p
  have hzero : ({} : MetricsCollector T).count p = 0 := by cases p <;> rfl
  rw [h, hzero, zero_add]

theorem collect_modelCount (events : List (RoutingEvent T)) (model : Option String) (hp : p ≠ .cancellation) :
    (collect events).modelCount model p = events.countP fun event => event.phase = some p ∧ event.model = model := by
  have h : (collect events).modelCount model p = ({} : MetricsCollector T).modelCount model p +
      events.countP fun event => event.phase = some p ∧ event.model = model :=
    run_countP (f := fun m : MetricsCollector T => m.modelCount model p) fun m event _ => handleEvent_modelCount m event model hp
  have hzero : ({} : MetricsCollector T).modelCount model p = 0 := by cases p <;> rfl
  rw [h, hzero, zero_add]

section

variable {events : List (RoutingEvent T)} (h : ∀ event ∈ events, event.eventType ≠ .deploymentsUpdated)

include h

theorem collect_failures (d : String) :
    counted (collect events).deploymentFailures d = (events.filterMap RoutingEvent.charge).count d := by
  have hrun : counted (collect events).deploymentFailures d =
      counted ({} : MetricsCollector T).deploymentFailures d + events.countP fun event => event.charge = some d :=
    run_countP (f := fun m : MetricsCollector T => counted m.deploymentFailures d) fun m event hevent =>
      handleEvent_failures m (h event hevent) d
  rw [hrun, List.count_filterMap]
  exact (Nat.zero_add _).trans (List.countP_congr fun event _ => by simp)

theorem collect_requests (d : String) : counted (collect events).deploymentRequests d =
      counted (collect events).deploymentSuccesses d + counted (collect events).deploymentFailures d := by
  unfold collect
  induction events using List.reverseRecOn with
  | nil => rfl
  | append_singleton pre event ih =>
    rw [run_append]
    apply handleEvent_requests _ (h event (by simp))
    exact ih fun event hevent => h event (by simp [hevent])

end

/-! ## Conservation -/

/-- The metrics are conserved, of calls of which these models were cancelled and these deployments failed in an attempt. -/
structure Conserved (m : MetricsCollector T) (cancelled : List (Option String)) (failed : List String) : Prop where
  total : m.successCount + m.failureCount + m.cancelledCount = m.requestCount
  perModel : ∀ model, counted m.modelSuccesses model + counted m.modelFailures model + cancelled.count model =
    counted m.modelRequests model
  failures : ∀ d, counted m.deploymentFailures d = failed.count d
  requests : ∀ d, counted m.deploymentRequests d = counted m.deploymentSuccesses d + counted m.deploymentFailures d

def models (p : RoutingEvent.Phase → Bool) (events : List (RoutingEvent T)) : List (Option String) :=
  events.filterMap (·.modelWhen p)

theorem count_models (p : RoutingEvent.Phase → Bool) (events : List (RoutingEvent T)) (model : Option String) :
    (models p events).count model = events.countP fun event => (event.phase.any p) ∧ event.model = model := by
  rw [models, List.count_filterMap]
  apply List.countP_congr
  intro event _
  cases hphase : event.phase with
  | none => simp [RoutingEvent.modelWhen, hphase]
  | some phase => cases hp : p phase <;> simp [RoutingEvent.modelWhen, hphase, hp]

variable (events : List (RoutingEvent T))

theorem count_ends (model : Option String) : (models (· ≠ .start) events).count model =
      (models (· = .success) events).count model + (models (· = .failure) events).count model +
        (models (· = .cancellation) events).count model := by
  induction events with
  | nil => rfl
  | cons event events ih =>
    have hcons : ∀ p, (models p (event :: events)).count model =
        (models p events).count model + (decide (event.modelWhen p = some model)).toNat := by
      intro p
      rw [models, List.count_filterMap, List.countP_cons, ← List.count_filterMap, models]
      by_cases hm : event.modelWhen p = some model <;> simp [hm]
    rw [hcons, hcons, hcons, hcons, ih]
    cases hphase : event.phase with
    | none => simp [RoutingEvent.modelWhen, hphase]
    | some phase => cases phase <;> simp [RoutingEvent.modelWhen, hphase] <;> omega

theorem ends_perm : (models (· ≠ .start) events).Perm
      (models (· = .success) events ++ models (· = .failure) events ++ models (· = .cancellation) events) := by
  rw [List.perm_iff_count]
  intro model
  rw [count_ends, List.count_append, List.count_append]

theorem length_models (p : RoutingEvent.Phase) : (models (· = p) events).length = (collect events).count p := by
  rw [models, List.length_filterMap_eq_countP, collect_count]
  apply List.countP_congr
  intro event _
  cases hphase : event.phase with
  | none => simp [RoutingEvent.modelWhen, hphase]
  | some phase => by_cases hp : phase = p <;> simp [RoutingEvent.modelWhen, hphase, hp]

theorem count_models_collect (model : Option String)
    (hp : p ≠ .cancellation) : (models (· = p) events).count model = (collect events).modelCount model p := by
  rw [count_models, collect_modelCount events model hp]
  apply List.countP_congr
  intro event _
  cases hphase : event.phase with
  | none | some => simp

/-- Metrics are conserved exactly if the models of the requests that ended are those of the requests that started, and
the deployments that are charged are those that failed. -/
theorem conserved_iff {events : List (RoutingEvent T)} (h : ∀ event ∈ events, event.eventType ≠ .deploymentsUpdated)
    {failed : List String} : Conserved (collect events) (models (· = .cancellation) events) failed ↔
      (models (· ≠ .start) events).Perm (models (· = .start) events) ∧ (events.filterMap RoutingEvent.charge).Perm failed := by
  have hends : ∀ model, (models (· ≠ .start) events).count model =
      counted (collect events).modelSuccesses model + counted (collect events).modelFailures model +
        (models (· = .cancellation) events).count model := by
    intro model
    rw [count_ends, count_models_collect events model (by decide), count_models_collect events model (by decide)]
    rfl
  have hstarts : ∀ model, (models (· = .start) events).count model = counted (collect events).modelRequests model :=
    fun model => count_models_collect events model (by decide)
  constructor
  · intro hm
    rw [List.perm_iff_count, List.perm_iff_count]
    constructor
    · intro model
      rw [hends, hstarts]
      exact hm.perModel model
    · intro d
      rw [← collect_failures h]
      exact hm.failures d
  · rintro ⟨hmodels, hcharges⟩
    have hlength : (models (· ≠ .start) events).length = (collect events).requestCount :=
      hmodels.length_eq.trans (length_models events .start)
    rw [(ends_perm events).length_eq, List.length_append, List.length_append, length_models, length_models,
      length_models] at hlength
    refine ⟨hlength, ?_, ?_, collect_requests h⟩
    · intro model
      rw [← hends, ← hstarts]
      exact hmodels.count_eq model
    · intro d
      rw [collect_failures h]
      exact hcharges.count_eq d

end MetricsCollector

end AgentProtocol.Router
