-- SUMMARY: The streaming calls of ReliableRouter: lines of a provider, chunks of an attempt, buffering, and the retry loop of stream_completion and stream.
import AgentProtocol.Router.Calls

/-!
# Streaming

`stream_completion` and `stream` have the same loop. They differ in what a chunk becomes, in when it is visible, in
where the tokens of an answer are found, and in the model that some terminal events name. Chunks are held back until the
first visible one, and are given to the consumer before it; from then on a failure ends the call.
-/

namespace AgentProtocol.Router

open Lib

variable {T C U : Type}

/-! ## Upstream -/

/-- A line of a response: nothing to see, the end mark, or a chunk. -/
inductive Line where
  | skipped
  | done
  | data (chunk : Value)

/-- How something that is iterated comes to its end. -/
inductive StreamEnd where
  | complete
  | raised (error : CallError)
  | cancelled

/-- What a provider sends: an error before the first line, or lines and how they end. -/
structure Upstream where
  setup : Option CallError := none
  lines : List Line := []
  lineEnd : StreamEnd := .complete

def anyEntry (entries : Value) (key : String) : Bool :=
  match entries with
  | .arr xs => (Value.items xs).any fun entry => ((entry.get key).toOption.getD .null).truthy
  | _ => false

def chunkHasFinishSignal (chunk : Value) : Bool :=
  let field (key : String) : Value := (chunk.get key).toOption.getD .null
  chunk.isObject &&
    (anyEntry (field "choices") "finish_reason" || field "type" = .str "message_stop" ||
      (((field "delta").get "stop_reason").toOption.getD .null).truthy ||
      anyEntry (field "candidates") "finishReason" || (field "stopReason").truthy)

def truncatedStream : CallError := ⟨.network, "DeploymentNetworkError"⟩

/-- `iter_stream_events`; `finished` is whether a chunk had a finish signal. -/
def iterStreamEvents (lineEnd : StreamEnd) : Bool → List Line → List Value × StreamEnd
  | finished, [] =>
    ([], match lineEnd with
      | .complete => if finished then .complete else .raised truncatedStream
      | lineEnd => lineEnd)
  | finished, .skipped :: lines => iterStreamEvents lineEnd finished lines
  | _, .done :: _ => ([], .complete)
  | finished, .data chunk :: lines =>
    let (chunks, streamEnd) := iterStreamEvents lineEnd (finished || chunkHasFinishSignal chunk) lines
    (chunk :: chunks, streamEnd)

/-- The chunks that an adapter makes of native ones, up to the first that it raises on. -/
def transformChunks (transform : Value → Except CallError (Option Value)) (streamEnd : StreamEnd) : List Value → List Value × StreamEnd
  | [] => ([], streamEnd)
  | chunk :: chunks =>
    match transform chunk with
    | .error error => ([], .raised error)
    | .ok mapped =>
      let (rest, streamEnd) := transformChunks transform streamEnd chunks
      (mapped.toList ++ rest, streamEnd)

def acompletionStream (transform : Value → Except CallError (Option Value)) (upstream : Upstream) : List Value × StreamEnd :=
  match upstream.setup with
  | some error => ([], .raised error)
  | none =>
    let (chunks, streamEnd) := iterStreamEvents upstream.lineEnd false upstream.lines
    transformChunks transform streamEnd chunks

/-! ## Chunks -/

/-- `_has_visible_stream_output`. A chunk that is no object raises, and so do malformed choices. -/
def hasVisibleStreamOutput (chunk : Value) : Except PyError Bool := do
  let choices := (← chunk.get "choices").orElse (.arr .nil)
  if !choices.truthy then return false
  let choice := (← choices.first).orElse (.obj .nil)
  let delta := (← choice.get "delta").orElse (.obj .nil)
  let message := (← choice.get "message").orElse (.obj .nil)
  if (← delta.get "content").truthy || (← delta.get "reasoning_content").truthy || (← delta.get "tool_calls").truthy then
    return true
  return (← message.get "content").truthy || (← message.get "reasoning_content").truthy || (← message.get "tool_calls").truthy

/-- What `stream_completion` and `stream` do with a chunk: what is delivered of it if anything, whether that is visible,
its usage, and the tokens of a usage with those of the prompt. `terminalModel` is named by the events of a failure that
ends the call at once. -/
structure StreamKind (C U : Type) where
  convert : Value → Except PyError (Option C)
  visible : C → Except PyError Bool
  usage : C → Option U
  tokens : Option U → Value × Value
  terminalModel : Option String

/-- A chunk of `stream_completion` is delivered as it is. -/
def streamCompletionKind (model : String) : StreamKind Value Value where
  convert chunk := .ok (some chunk)
  visible := hasVisibleStreamOutput
  usage chunk := (chunk.get "usage").toOption.filter fun usage => usage.isObject && usage.truthy
  tokens usage :=
    let entry (key : String) : Value := (((usage.getD (.obj .nil)).get key).toOption.getD .null).orElse (.int 0)
    (entry "completion_tokens", entry "prompt_tokens")
  terminalModel := some model

def streamKind (model : Option String) : StreamKind AssistantMessageChunk UsageMetadata where
  convert := chunkToAssistantMessageChunk
  visible chunk := .ok (chunk.content.truthy || chunk.reasoningContent.truthy || !(chunk.toolCalls.getD []).isEmpty)
  usage := AssistantMessageChunk.usageMetadata
  tokens usage := (.int ((usage.map UsageMetadata.outputTokens).getD 0), .int ((usage.map UsageMetadata.inputTokens).getD 0))
  terminalModel := model

/-! ## One attempt -/

/-- What the environment does in one attempt of a stream: `closes n` is that the consumer closes the stream when it is
given its `n`th chunk. -/
structure StreamAttempt (T : Type) where
  selection : Selection T
  upstream : Upstream
  latency : T
  overall : T
  emits : RoutingEventType → Delivery
  closes : ℕ → Bool

/-- The loop over the chunks of an attempt: whether output is visible, the chunks that are held back, the last usage,
how many chunks were received, and how many were delivered. -/
structure Pump (C U : Type) where
  visible : Bool := false
  pending : List C := []
  usage : Option U := none
  count : ℕ := 0
  yields : ℕ := 0

/-- Chunks are given to the consumer, who may close the stream at each of them. -/
def yieldAll (i : ℕ) (closes : ℕ → Bool) (closed : Trace T C) (next : ℕ → Trace T C) : ℕ → List C → Trace T C
  | n, [] => next n
  | n, chunk :: chunks =>
    Trace.after [.deliver i chunk] (if closes n then closed else yieldAll i closes closed next (n + 1) chunks)

/-- The `except (GeneratorExit, asyncio.CancelledError)` of a stream. -/
def streamCancelled (model : String) (selected : Option (Deployment T)) (outcome : Outcome) : Trace T C :=
  .reporting (.background {
    eventType := .streamCancelled
    model := some model
    deploymentId := selected.map Deployment.id
    provider := selected.map Deployment.provider }) (.ended outcome)

def streamRouteSelected (model : String) (deployment : Deployment T) (latency : T) : RoutingEvent T where
  eventType := .streamRouteSelected
  model := some model
  deploymentId := some deployment.id
  provider := some deployment.provider
  latency := some latency
  routeId := some deployment.id

def streamSucceeded (model : String) (deployment : Deployment T) (latency : T) (tokens promptTokens : Value) (count : ℕ) :
    RoutingEvent T where
  eventType := .streamSucceeded
  model := some model
  deploymentId := some deployment.id
  provider := some deployment.provider
  latency := some latency
  promptTokens := some promptTokens
  completionTokens := some tokens
  chunkCount := some count
  routeId := some deployment.id

/-- The `async for` over the chunks of the `i`th attempt. -/
def pump (kind : StreamKind C U) (model : String) (i : ℕ) (selected : Deployment T) (attempt : StreamAttempt T)
    (failed : CallError → Bool → Trace T C) (finish : Pump C U → Trace T C) (streamEnd : StreamEnd) :
    List Value → Pump C U → Trace T C
  | [], p =>
    match streamEnd with
    | .complete => finish p
    | .raised error => failed error p.visible
    | .cancelled => streamCancelled model (some selected) .cancelled
  | value :: values, p =>
    let closed : Trace T C := streamCancelled model (some selected) .closed
    match kind.convert value with
    | .error error => failed (.ofPython error) p.visible
    | .ok none => pump kind model i selected attempt failed finish streamEnd values p
    | .ok (some chunk) =>
      let p := { p with count := p.count + 1, usage := kind.usage chunk <|> p.usage }
      if p.visible then
        yieldAll i attempt.closes closed
          (fun n => pump kind model i selected attempt failed finish streamEnd values { p with yields := n }) p.yields [chunk]
      else
        match kind.visible chunk with
        | .error error => failed (.ofPython error) false
        | .ok true =>
          emitting (streamRouteSelected model selected attempt.latency) (attempt.emits .streamRouteSelected)
            (streamCancelled model (some selected) .cancelled)
            (yieldAll i attempt.closes closed
              (fun n => pump kind model i selected attempt failed finish streamEnd values
                { p with visible := true, pending := [], yields := n }) p.yields (p.pending ++ [chunk]))
        | .ok false => pump kind model i selected attempt failed finish streamEnd values { p with pending := p.pending ++ [chunk] }

/-- The bookkeeping of a stream that came to its end. -/
def recordSuccess (kind : StreamKind C U) (model : String) (selected : Deployment T) (attempt : StreamAttempt T)
    (failed : CallError → Bool → Trace T C) (p : Pump C U) : Trace T C :=
  let (tokens, promptTokens) := kind.tokens p.usage
  Trace.reporting (.onSuccess selected.id attempt.latency tokens)
    (match tokens.divides with
    | .error error => failed (.ofPython error) p.visible
    | .ok _ =>
      match promptTokens.add tokens with
      | .error error => failed (.ofPython error) p.visible
      | .ok _ =>
        emitting (streamSucceeded model selected attempt.overall tokens promptTokens p.count) (attempt.emits .streamSucceeded)
          (streamCancelled model (some selected) .cancelled) (.ended (.returned none)))

/-- The end of a stream: what was held back is delivered, and the state and the handlers are told. -/
def finishStream (kind : StreamKind C U) (model : String) (i : ℕ) (selected : Deployment T) (attempt : StreamAttempt T)
    (failed : CallError → Bool → Trace T C) (p : Pump C U) : Trace T C :=
  yieldAll i attempt.closes (streamCancelled model (some selected) .closed)
    (fun _ => recordSuccess kind model selected attempt failed p) p.yields p.pending

/-- The `try` of one attempt. -/
def attemptStream (router : Settings T) (kind : StreamKind C U) (model : String) (i : ℕ) (selected : Deployment T)
    (attempt : StreamAttempt T) (failed : CallError → Bool → Trace T C) : Trace T C :=
  match requestKwargsError selected with
  | some error => failed error false
  | none =>
    let actualModel := if model = modelWildcard then selected.modelName else model
    let (values, streamEnd) := acompletionStream (router.transformStreamChunk selected actualModel) attempt.upstream
    pump kind model i selected attempt failed (finishStream kind model i selected attempt failed) streamEnd values {}

/-! ## The calls -/

def streamLoop (router : Settings T) (kind : StreamKind C U) (model : String) (total : ℕ) (attempts : ℕ → StreamAttempt T)
    (final : Delivery) :
    ℕ → List (Deployment T) → Option (Deployment T) → Option (Deployment T × CallError) → Trace T C :=
  retryLoop router model kind.terminalModel total (fun i => (attempts i).selection) (fun i => (attempts i).emits) final
    (fun selected => streamCancelled model selected .cancelled) fun i selected failed =>
      attemptStream router kind model i selected (attempts i) failed

def streamCall (router : Settings T) (kind : StreamKind C U) (model : String) (available : List (Deployment T))
    (attempts : ℕ → StreamAttempt T) (final : Delivery) : Trace T C :=
  if available = [] then unavailable model final
  else
    let total := totalAttempts router available
    Trace.reporting (.emit { eventType := .streamStarted, model := some model })
      (streamLoop router kind model total attempts final total available none none)

def streamCompletion (router : Settings T) (model : String) (available : List (Deployment T))
    (attempts : ℕ → StreamAttempt T) (final : Delivery) : Trace T Value :=
  streamCall router (streamCompletionKind model) model available attempts final

def stream (router : Settings T) (deployments : List (Deployment T)) (model : Option String) (available : List (Deployment T))
    (attempts : ℕ → StreamAttempt T) (final : Delivery) : Trace T AssistantMessageChunk :=
  match resolveModelName deployments model with
  | none => .ended (.raised (.ofPython .valueError))
  | some modelName => streamCall router (streamKind model) modelName available attempts final

/-- A call, the deployments that it finds available, and what the environment does in it. -/
inductive Call (T : Type) where
  | completion (model : String) (deployment : Option (Deployment T)) (available : List (Deployment T))
    (attempts : ℕ → Attempt T) (final : Delivery)
  | invoke (model : Option String) (deployment : Option (Deployment T)) (available : List (Deployment T))
    (attempts : ℕ → Attempt T) (final : Delivery)
  | streamCompletion (model : String) (available : List (Deployment T)) (attempts : ℕ → StreamAttempt T) (final : Delivery)
  | stream (model : Option String) (available : List (Deployment T)) (attempts : ℕ → StreamAttempt T) (final : Delivery)

/-- What a call does in a router with these deployments, whatever it delivers. -/
def Call.trace (router : Settings T) (deployments : List (Deployment T)) : Call T → Trace T Unit
  | .completion model deployment available attempts final => Router.completion router model deployment available attempts final
  | .invoke model deployment available attempts final =>
    Router.invoke router deployments model deployment available attempts final
  | .streamCompletion model available attempts final =>
    (Router.streamCompletion router model available attempts final).mapChunks fun _ => ()
  | .stream model available attempts final =>
    (Router.stream router deployments model available attempts final).mapChunks fun _ => ()

end AgentProtocol.Router
