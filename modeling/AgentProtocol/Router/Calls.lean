-- SUMMARY: The calls of ReliableRouter: completion, stream_completion, stream and invoke with their retry loops, as the effects that they have.
import AgentProtocol.Router.Messages
import AgentProtocol.Router.State

/-!
# Calls

A call is described by what it does, in order: the events that it emits, the reports to the state, and the chunks that
its consumer is given. What the environment answers is an input: the choices of the strategy, the replies of the
providers line by line, where a task is cancelled or a stream is closed, and what is measured as latency. Every `await`
may be cancelled, also that of an event, before or after the event has reached its handlers.
-/

namespace AgentProtocol.Router

open Lib

/-! ## Errors -/

/-- What the router asks of an exception. -/
inductive ErrorKind where
  | network
  | rateLimit
  | server
  | timeout
  | auth
  | deployment (statusCode : Option ℤ)
  | jsonDecode
  | valueError
  | typeError
  | other
  deriving DecidableEq

structure CallError where
  kind : ErrorKind
  className : String

def CallError.ofPython (e : PyError) : CallError where
  kind := match e with
    | .valueError => .valueError
    | .typeError => .typeError
    | _ => .other
  className := e.name

def isRequestSideError (error : CallError) : Bool :=
  match error.kind with
  | .valueError => true
  | .typeError => true
  | .deployment (some statusCode) => 400 ≤ statusCode && statusCode < 500
  | _ => false

/-- `_is_fallbackable_error` before any output is visible. -/
def isFallbackableError (error : CallError) : Bool :=
  error.kind = .network || error.kind = .rateLimit || error.kind = .server || error.kind = .timeout

/-! ## Events and effects -/

inductive RoutingEventType where
  | requestStarted
  | requestSucceeded
  | requestRetried
  | allDeploymentsExhausted
  | requestCancelled
  | streamStarted
  | streamRouteSelected
  | streamSucceeded
  | streamCancelled
  | deploymentsUpdated

/-- The fields of an event that a handler reads; `routeId` and `removedIds` are entries of `extra`. -/
structure RoutingEvent (T : Type) where
  eventType : RoutingEventType
  model : Option String
  deploymentId : Option String := none
  provider : Option String := none
  latency : Option T := none
  promptTokens : Option Value := none
  completionTokens : Option Value := none
  errorType : Option String := none
  chunkCount : Option ℕ := none
  routeId : Option String := none
  removedIds : Option (List String) := none

/-- A report of a call: an event that it awaits or leaves to a background task, or an update of the state. -/
inductive Report (T : Type) where
  | emit (event : RoutingEvent T)
  | background (event : RoutingEvent T)
  | onSuccess (deploymentId : String) (latency : T) (tokens : Value)
  | onFailure (deploymentId : String)

/-- What a call does. A chunk is delivered with the number of its attempt; that an attempt is made, or fails with an
exception, is an effect here, which nobody sees. -/
inductive Effect (T C : Type) where
  | report (report : Report T)
  | attempted (attempt : ℕ) (deployment : Deployment T)
  | deliver (attempt : ℕ) (chunk : C)
  | failed (deploymentId : String)

inductive Outcome where
  | returned (response : Option Value)
  | raised (error : CallError)
  | cancelled
  | closed

structure Trace (T C : Type) where
  effects : List (Effect T C)
  outcome : Outcome

variable {T C U : Type}

namespace Trace

def ended (outcome : Outcome) : Trace T C := ⟨[], outcome⟩

def after (effects : List (Effect T C)) (t : Trace T C) : Trace T C := { t with effects := effects ++ t.effects }

def reporting (report : Report T) (t : Trace T C) : Trace T C := t.after [.report report]

/-- The same call with its chunks as they are seen elsewhere. -/
def mapChunks {D : Type} (f : C → D) (t : Trace T C) : Trace T D where
  effects := t.effects.map fun
    | .report report => .report report
    | .attempted attempt deployment => .attempted attempt deployment
    | .deliver attempt chunk => .deliver attempt (f chunk)
    | .failed deploymentId => .failed deploymentId
  outcome := t.outcome

def reports (t : Trace T C) : List (Report T) := t.effects.filterMap fun
  | .report report => some report
  | _ => none

def attempts (t : Trace T C) : List (ℕ × Deployment T) := t.effects.filterMap fun
  | .attempted attempt deployment => some (attempt, deployment)
  | _ => none

def delivered (t : Trace T C) : List (ℕ × C) := t.effects.filterMap fun
  | .deliver attempt chunk => some (attempt, chunk)
  | _ => none

end Trace

/-- How the `await` of an event goes: it may be cancelled, before or after the event was handled. -/
inductive Delivery where
  | done
  | cancelled (handled : Bool)
  deriving DecidableEq

/-- `await self.event_bus.emit(event)` -/
def emitting (event : RoutingEvent T) (delivery : Delivery) (interrupted next : Trace T C) : Trace T C :=
  match delivery with
  | .done => next.reporting (.emit event)
  | .cancelled true => interrupted.reporting (.emit event)
  | .cancelled false => interrupted

/-! ## The router -/

/-- The settings of a router and of its strategy, and the adapters of its providers. -/
structure Settings (T : Type) where
  numRetries : ℤ := 3
  fallbackToFirstOnEmptySelection : Bool := true
  strictFallbackErrors : Bool := false
  transformStreamChunk : Deployment T → String → Value → Except CallError (Option Value)

/-- What the strategy of a router does when it is asked. -/
inductive Selection (T : Type) where
  | chosen (deployment : Option (Deployment T))
  | raised (error : CallError)
  | cancelled

def selectDeployment (router : Settings T) (selection : Selection T) (available : List (Deployment T)) : Selection T :=
  match selection with
  | .chosen none => .chosen (if router.fallbackToFirstOnEmptySelection then available.head? else none)
  | selection => selection

def reservedRequestDefaultKeys : List String := ["model", "messages", "deployment", "stream"]

/-- Whether `_request_kwargs_for_deployment` raises. The keys that are internal to routing are not reserved. -/
def requestKwargsError (deployment : Deployment T) : Option CallError :=
  if deployment.requestDefaults.any (· ∈ reservedRequestDefaultKeys) then some (.ofPython .valueError) else none

def totalAttempts (router : Settings T) (available : List (Deployment T)) : ℕ :=
  (min (router.numRetries + 1) available.length).toNat

def resolveModelName (deployments : List (Deployment T)) (model : Option String) : Option String :=
  if model.getD "" ≠ "" then model else deployments.head?.map Deployment.modelName

def noDeploymentAvailable : CallError := ⟨.other, "NoDeploymentAvailable"⟩

def allDeploymentsFailed : CallError := ⟨.other, "AllDeploymentsFailed"⟩

/-- The terminal event of a request that failed, with the deployment of the last attempt in `extra`. -/
def exhausted (model : Option String) (failure : Option (Deployment T × CallError)) : RoutingEvent T where
  eventType := .allDeploymentsExhausted
  model := model
  errorType := failure.map fun f => f.2.className
  routeId := failure.map fun f => f.1.id

def retried (model : String) (deployment : Deployment T) (error : CallError) : RoutingEvent T where
  eventType := .requestRetried
  model := some model
  deploymentId := some deployment.id
  provider := some deployment.provider
  errorType := some error.className
  routeId := some deployment.id

/-- The state is told of a failure, unless it is due to the request. -/
def reportFailure (deployment : Deployment T) (error : CallError) (t : Trace T C) : Trace T C :=
  if isRequestSideError error then t else t.reporting (.onFailure deployment.id)

/-- The exits without a deployment: the request is counted as started and as failed. -/
def unavailable (model : String) (delivery : Delivery) : Trace T C :=
  Trace.reporting (.emit { eventType := .requestStarted, model := some model })
    (emitting (exhausted (some model) none) delivery (.ended .cancelled) (.ended (.raised noDeploymentAvailable)))

/-- The exit if no deployment is selected. -/
def noneSelected (model : String) (emits : RoutingEventType → Delivery) (final : Delivery) (interrupted : Trace T C) :
    Option (Deployment T × CallError) → Trace T C
  | some failure =>
    emitting (exhausted (some model) (some failure)) final (.ended .cancelled) (.ended (.raised allDeploymentsFailed))
  | none =>
    emitting (exhausted (some model) none) (emits .allDeploymentsExhausted) interrupted
      (.ended (.raised noDeploymentAvailable))

/-- The `except Exception` of an attempt: the call ends, or goes on with the deployments that are left. -/
def attemptFailed (router : Settings T) (model : String) (terminalModel : Option String) (emits : RoutingEventType → Delivery)
    (final : Delivery) (interrupted : Trace T C) (last : Bool) (available : List (Deployment T)) (selected : Deployment T)
    (next : CallError → List (Deployment T) → Trace T C) (error : CallError) (visible : Bool) : Trace T C :=
  Trace.after [.failed selected.id] <| reportFailure selected error
    (if visible || router.strictFallbackErrors && !isFallbackableError error then
      emitting (exhausted terminalModel (some (selected, error))) (emits .allDeploymentsExhausted) interrupted
        (.ended (.raised error))
    else
      match available.filter fun d => d.id ≠ selected.id with
      | [] =>
        emitting (exhausted (some model) (some (selected, error))) final (.ended .cancelled)
          (.ended (.raised allDeploymentsFailed))
      | d :: ds =>
        if last then next error (d :: ds)
        else emitting (retried model selected error) (emits .requestRetried) interrupted (next error (d :: ds)))

/-- The loop over attempts that the calls have in common. An attempt is given what to do if it fails, after output was
visible or before. `previous` is the deployment of the attempt before, and `failure` the last failure, if there were any;
`interrupted` is the handler of cancellations outside of an attempt, and `terminalModel` is named by the terminal event
of a failure that ends the call at once. -/
def retryLoop (router : Settings T) (model : String) (terminalModel : Option String) (total : ℕ) (selections : ℕ → Selection T)
    (emits : ℕ → RoutingEventType → Delivery) (final : Delivery) (interrupted : Option (Deployment T) → Trace T C)
    (attempt : ℕ → Deployment T → (CallError → Bool → Trace T C) → Trace T C) :
    ℕ → List (Deployment T) → Option (Deployment T) → Option (Deployment T × CallError) → Trace T C
  | 0, _, _, failure =>
    emitting (exhausted (some model) failure) final (.ended .cancelled) (.ended (.raised allDeploymentsFailed))
  | remaining + 1, available, previous, failure =>
    let i := total - (remaining + 1)
    match selectDeployment router (selections i) available with
    | .raised error => .ended (.raised error)
    | .cancelled => interrupted previous
    | .chosen none => noneSelected model (emits i) final (interrupted none) failure
    | .chosen (some selected) =>
      Trace.after [.attempted i selected] <| attempt i selected <|
        attemptFailed router model terminalModel (emits i) final (interrupted (some selected)) (remaining = 0) available
          selected fun error left =>
            retryLoop router model terminalModel total selections emits final interrupted attempt remaining left
              (some selected) (some (selected, error))

/-! ## completion -/

/-- What a provider answers to a request that is not a stream. -/
inductive Reply where
  | response (response : Value)
  | raised (error : CallError)
  | cancelled

structure Attempt (T : Type) where
  selection : Selection T
  reply : Reply
  latency : T
  emits : RoutingEventType → Delivery

/-- `_usage_from_response`, and one of its entries `or 0`. -/
def usageEntry (response : Value) (key : String) : Value :=
  match response.get "usage" with
  | .ok usage => ((usage.get key).toOption.getD .null).orElse (.int 0)
  | .error _ => .int 0

def requestSucceeded (model : String) (deployment : Deployment T) (latency : T) (tokens promptTokens : Value) : RoutingEvent T where
  eventType := .requestSucceeded
  model := some model
  deploymentId := some deployment.id
  provider := some deployment.provider
  latency := some latency
  promptTokens := some promptTokens
  completionTokens := some tokens
  routeId := some deployment.id

/-- The `except asyncio.CancelledError` of a request. -/
def requestCancelled (model : String) : Trace T C :=
  .reporting (.background { eventType := .requestCancelled, model := some model, errorType := some "CancelledError" })
    (.ended .cancelled)

/-- The `try` of one attempt. -/
def attemptCompletion (model : String) (deployment : Deployment T) (attempt : Attempt T) (failed : CallError → Trace T C) :
    Trace T C :=
  match requestKwargsError deployment with
  | some error => failed error
  | none =>
    match attempt.reply with
    | .raised error => failed error
    | .cancelled => requestCancelled model
    | .response response =>
      let tokens := usageEntry response "completion_tokens"
      let promptTokens := usageEntry response "prompt_tokens"
      Trace.reporting (.onSuccess deployment.id attempt.latency tokens)
        (match tokens.divides with
        | .error error => failed (.ofPython error)
        | .ok _ =>
          match promptTokens.add tokens with
          | .error error => failed (.ofPython error)
          | .ok _ =>
            emitting (requestSucceeded model deployment attempt.latency tokens promptTokens)
              (attempt.emits .requestSucceeded) (requestCancelled model) (.ended (.returned (some response))))

/-- `completion`, the attempts that remain. -/
def completionLoop (router : Settings T) (model : String) (total : ℕ) (attempts : ℕ → Attempt T) (final : Delivery) :
    ℕ → List (Deployment T) → Option (Deployment T) → Option (Deployment T × CallError) → Trace T C :=
  retryLoop router model (some model) total (fun i => (attempts i).selection) (fun i => (attempts i).emits) final
    (fun _ => .ended .cancelled) fun i selected failed => attemptCompletion model selected (attempts i) fun error => failed error false

def completionOnDeployment (model : String) (deployment : Deployment T) (attempt : Attempt T) : Trace T C :=
  let failed (error : CallError) : Trace T C :=
    Trace.after [.failed deployment.id] <| emitting (exhausted (some model) (some (deployment, error))) (attempt.emits .allDeploymentsExhausted) (.ended .cancelled)
      (.ended (.raised error))
  Trace.reporting (.emit { eventType := .requestStarted, model := some model })
    (match requestKwargsError deployment with
    | some error => failed error
    | none =>
      match attempt.reply with
      | .raised error => failed error
      | .cancelled => requestCancelled model
      | .response response =>
        let tokens := usageEntry response "completion_tokens"
        let promptTokens := usageEntry response "prompt_tokens"
        -- the sum of the tokens is outside the `try`
        match promptTokens.add tokens with
        | .error error => .ended (.raised (.ofPython error))
        | .ok _ =>
          emitting (requestSucceeded model deployment attempt.latency tokens promptTokens) (attempt.emits .requestSucceeded)
            (.ended .cancelled) (.ended (.returned (some response))))

/-- `completion` that finds these deployments available, or is given one. -/
def completion (router : Settings T) (model : String) (deployment : Option (Deployment T)) (available : List (Deployment T))
    (attempts : ℕ → Attempt T) (final : Delivery) : Trace T C :=
  match deployment with
  | some deployment => completionOnDeployment model deployment (attempts 0)
  | none =>
    if available = [] then unavailable model final
    else
      let total := totalAttempts router available
      Trace.reporting (.emit { eventType := .requestStarted, model := some model })
        (completionLoop router model total attempts final total available none none)

/-- `invoke`. What it makes of the response reports nothing. -/
def invoke (router : Settings T) (deployments : List (Deployment T)) (model : Option String)
    (deployment : Option (Deployment T)) (available : List (Deployment T)) (attempts : ℕ → Attempt T) (final : Delivery) :
    Trace T C :=
  match resolveModelName deployments model with
  | none => .ended (.raised (.ofPython .valueError))
  | some modelName =>
    let t := completion router modelName deployment available attempts final
    match t.outcome with
    | .returned (some response) =>
      match responseToMessage response with
      | .ok _ => t
      | .error error => { t with outcome := .raised (.ofPython error) }
    | _ => t

end AgentProtocol.Router
