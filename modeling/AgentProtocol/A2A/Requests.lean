-- SUMMARY: A2A requests as handlers that make one call after the other: when every accepted request is answered.
import AgentProtocol.A2A.Cancellation
import AgentProtocol.A2A.JsonRpc

/-!
# Requests that name one task

`Server` runs a handler in one step. Here a handler makes one call to the store or to the task manager in a step, so
that the handlers of any number of requests, the executors and cancellations come in any order. `Phase` is the call that
a handler makes next, with the local variables that it still needs.
-/

namespace AgentProtocol.A2A

open Lib

variable {M P : Type}

inductive Method (M : Type) where
  | sendMessage (params : MessageSendParams M)
  | sendMessageStreaming (params : MessageSendParams M)
  | resubscribeToTask (taskId : String)

inductive RequestKind where
  | send (blocking : Bool)
  | stream
  | resubscribe
  deriving DecidableEq

/-- The next call of a handler. `existing` is the pointer `existingTask`. -/
inductive Phase (M : Type) where
  | determineTaskId (params : MessageSendParams M)
  | checkState (params : MessageSendParams M) (existing : ℕ)
  | createNewTask (params : MessageSendParams M)
  | getTask (taskId : String)
  | registerTask (taskId : String) (existing : Option ℕ) (message : Option M)
  | updateWithMessage (taskId : String) (existing : ℕ) (message : M)
  | exchangeMessageSent (taskId : String)
  | emitTask (taskId : String) (existing : Option ℕ)
  | addEventCallback (taskId : String)
  | returned

/-- A request. It is accepted once its handler can no longer refuse it; it is due once a final event of the task was
processed since then, and it has ended once it is due, or has failed, or has nothing to wait for. -/
structure Request (M : Type) where
  kind : RequestKind
  id : Option Json
  phase : Phase M
  callback : Option ℕ := none
  emitter : StreamServerEmitter := {}
  accepted : Bool := false
  due : Bool := false
  ended : Bool := false

namespace Method

def kind : Method M → RequestKind
  | .sendMessage params => .send (!params.returnImmediately.getD false)
  | .sendMessageStreaming _ => .stream
  | .resubscribeToTask _ => .resubscribe

def phase : Method M → Phase M
  | .sendMessage params | .sendMessageStreaming params => .determineTaskId params
  | .resubscribeToTask taskId => .getTask taskId

/-- The method names a task, or its task is created under this id. -/
def Names (taskId : String) : Method M → Prop
  | .sendMessage params | .sendMessageStreaming params =>
    params.taskId = some taskId ∧ taskId ≠ "" ∨ params.taskId.getD "" = "" ∧ params.generatedTaskId = taskId
  | .resubscribeToTask id => id = taskId

end Method

def RequestKind.callbackKind : RequestKind → CallbackKind
  | .send blocking => .response blocking
  | .stream | .resubscribe => .streaming

def CallbackKind.isResponse : CallbackKind → Bool
  | .response _ => true
  | .streaming => false

/-- What `std::get` finds in an event for `message/send`. -/
def StreamEvent.sendResult? : StreamEvent M P → Option (SendResult M P)
  | .task t => some (.task t)
  | .message m => some (.message m)
  | _ => none

def determineCode (what : String) : ℤ := if what = "Task id not found" then -32001 else -32600

namespace Request

variable (encode : StreamEvent M P → Json)

/-- The id that `CreateStreamEmitter` reads. -/
def idText (r : Request M) : String :=
  match r.id with
  | some (.str text) => text
  | _ => ""

/-- The lambda of `CreateStreamEmitter`. An event that is no result is dropped by the callback, which catches the error. -/
def emit (r : Request M) (e : StreamServerEmitter) (event : StreamEvent M P) : StreamServerEmitter :=
  match r.kind with
  | .send _ =>
    match event.sendResult? with
    | some result => nonStreamEmit encode r.idText e result
    | none => e
  | .stream | .resubscribe => streamEmit encode r.idText e event

/-- The handler throws. A stream gets the error and its end, if an error can be built under the id of the request;
`message/send` gets an error for its response. -/
def fail (r : Request M) (thrown : Thrown) : Request M :=
  let id := r.id.getD .null
  { r with
    emitter :=
      match r.kind with
      | .send _ =>
        match caught id "" thrown with
        | .ok error => r.emitter.writeNonStreamingData error
        | .error (.server _ what) | .error (.std what) =>
          r.emitter.writeNonStreamingData (errorReply .null (-32603) ("Internal error: " ++ what))
      | .stream | .resubscribe =>
        match caught id "Streaming error: " thrown with
        | .ok error => (r.emitter.writeStreamingData error).writeDone
        | .error _ => r.emitter
    phase := .returned
    ended := true }

/-- What follows `RegisterTask` and `UpdateWithMessage`. -/
def registered (r : Request M) (taskId : String) (existing : Option ℕ) : Request M :=
  match r.kind with
  | .send _ => { r with phase := .exchangeMessageSent taskId }
  | .stream | .resubscribe => { r with phase := .emitTask taskId existing }

/-- The next call of the handler. Whether `Get` hands out a copy, and what the transport throws, is up to the
environment. -/
def advance (s : Server M P) (r : Request M) (copy : Bool) (throws : Option Thrown) : Except Thrown (Server M P × Request M) :=
  match r.phase with
  | .determineTaskId params =>
    match s.determineTaskId params with
    | .error what => .error (.server (determineCode what) what)
    | .ok none => .ok (s, { r with phase := .createNewTask params, accepted := true })
    | .ok (some _) =>
      match s.get (params.taskId.getD "") copy with
      | (s, some o) => .ok (s, { r with phase := .checkState params o })
      | (_, none) => .error (.server (-32001) "Task id not found")
  | .checkState params o =>
    if (s.objects o).status.state.isFinal then .error (.server (-32004) "Cannot execute task in final state")
    else .ok (s, { r with phase := .registerTask (params.taskId.getD "") (some o) (some params.message), accepted := true })
  | .createNewTask params =>
    let phase := match r.kind with
      | .send _ => .registerTask params.generatedTaskId none none
      | .stream | .resubscribe => .getTask params.generatedTaskId
    .ok (s.createNewTask params, { r with phase := phase })
  | .getTask taskId =>
    match r.kind, s.get taskId copy with
    | .resubscribe, (s, some o) => .ok (s, { r with phase := .emitTask taskId (some o), accepted := true })
    | .resubscribe, (_, none) => .error (.server (-32001) "Task id not found")
    | _, (s, fetched) => .ok (s, { r with phase := .registerTask taskId fetched none })
  | .registerTask taskId existing message =>
    .ok (s.registerTask taskId (some {}),
      match existing, message with
      | some o, some message => { r with phase := .updateWithMessage taskId o message }
      | _, _ => r.registered taskId existing)
  | .updateWithMessage taskId o message => .ok (s.updateWithMessage message (s.objects o), r.registered taskId (some o))
  | .exchangeMessageSent taskId => .ok ((s.exchangeMessageSent taskId false).1, { r with phase := .addEventCallback taskId })
  | .emitTask taskId existing =>
    match existing, throws with
    | none, _ => .error (.server (-32603) "find or create task failed")
    | some _, some thrown => .error thrown
    | some o, none =>
      let task := s.objects o
      let r := { r with emitter := r.emit encode r.emitter (.task task) }
      if r.kind = .resubscribe then
        -- the round is over, and the agent produces nothing more
        if task.status.state.isFinalOrInterrupted then .ok (s, { r with phase := .returned, ended := true })
        else .ok (s, { r with phase := .addEventCallback task.id })
      else .ok (s, { r with phase := .addEventCallback taskId })
  | .addEventCallback taskId =>
    .ok (s.addEventCallback taskId r.kind.callbackKind, { r with phase := .returned, callback := some s.callbacks })
  | .returned => .ok (s, r)

/-- The events that a callback emits between two states. -/
def sentTo (s s' : Server M P) (callback : ℕ) : List (StreamEvent M P) :=
  ((s'.emitted.drop s.emitted.length).filter fun e => e.1 = callback).map Prod.snd

/-- The callbacks have been given an event. -/
def hear (r : Request M) (s s' : Server M P) (final : Bool) : Request M :=
  { r with
    emitter := ((r.callback.map (sentTo s s')).getD []).foldl (r.emit encode) r.emitter
    due := r.due || r.accepted && final
    ended := r.ended || r.accepted && final }

end Request

/-- The server and the requests that it has been sent. -/
structure Conversation (M P : Type) where
  server : Server M P
  requests : List (Request M) := []

inductive ConversationEvent (M P : Type) where
  | arrive (id : Option Json) (method : Method M) (refusal : Option Thrown)
  | advance (i : ℕ) (copy : Bool) (throws : Option Thrown)
  | executorThrows (i : ℕ) (thrown : Thrown)
  | process (event : StreamEvent M P) (w : Choices)
  | beginCancel (copy : Bool)
  | endCancel (k : ℕ) (w : Choices)

namespace Conversation

variable (encode : StreamEvent M P → Json) (merge : String → String → Option String) (taskId : String)

/-- The server takes a step in which callbacks may be given an event. -/
def hear (x : Conversation M P) (s : Server M P) (final : Bool) : Conversation M P :=
  { server := s, requests := x.requests.map fun r => r.hear encode x.server s final }

/-- Whether `Process` goes on to the callbacks. -/
def processes (x : Conversation M P) (event : StreamEvent M P) : Bool :=
  (x.server.registered taskId).isSome && (x.server.saveTaskEvent merge event).isSome

/-- Whether a cancellation goes on to the callbacks. -/
def cancels (x : Conversation M P) (k : ℕ) : Bool :=
  match x.server.cancels[k]? with
  | some o => !(x.server.objects o).status.state.isFinal && (x.server.registered (x.server.objects o).id).isSome
  | none => false

/-- `refusal` is what is thrown before the handler is called: streaming is not supported, or the parameters cannot be
read. `executorThrows` is what `Execute` throws. -/
def step (x : Conversation M P) : ConversationEvent M P → Conversation M P
  | .arrive id method refusal =>
    let r : Request M := { kind := method.kind, id := id, phase := method.phase }
    match (id.map getString).getD (.ok ""), refusal with
    | .error thrown, _ | .ok _, some thrown => { x with requests := x.requests ++ [r.fail thrown] }
    | .ok _, none => { x with requests := x.requests ++ [r] }
  | .advance i copy throws =>
    match x.requests[i]? with
    | none => x
    | some r =>
      match r.advance encode x.server copy throws with
      | .error thrown => { x with requests := x.requests.set i (r.fail thrown) }
      | .ok (s, r) => { server := s, requests := x.requests.set i r }
  | .executorThrows i thrown =>
    match x.requests[i]? with
    | none => x
    | some r =>
      if r.callback.isSome && r.kind ≠ .resubscribe then { x with requests := x.requests.set i (r.fail thrown) } else x
  | .process event w =>
    x.hear encode (x.server.process merge taskId event w) (event.isFinal && x.processes merge taskId event)
  | .beginCancel copy => { x with server := x.server.step merge (.beginCancel taskId copy) }
  | .endCancel k w => x.hear encode (x.server.step merge (.endCancel k w)) (x.cancels k)

end Conversation

def ConversationEvent.Names (taskId : String) : ConversationEvent M P → Prop
  | .arrive _ method _ => method.Names taskId
  | .process event _ => Server.About taskId event
  | _ => True

/-! ## What is promised -/

/-- A stream has got a final event, which is not the task that `message/stream` starts with. -/
def Request.GotFinal (encode : StreamEvent M P → Json) (r : Request M) : Prop :=
  ∃ before event after, r.emitter.sent = before ++ .streaming (resultReply (.str r.idText) (resultOf encode event)) :: after ∧
    event.isFinal = true ∧ (r.kind = .stream → before ≠ [])

/-- A final event of the task was processed since a request was accepted, and the request has been answered. There is
never more than one response. -/
def Request.Answered (encode : StreamEvent M P → Json) (r : Request M) : Prop :=
  match r.kind with
  | .send _ => r.emitter.replies.length ≤ 1 ∧ (r.due = true → r.emitter.replies.length = 1)
  | .stream | .resubscribe => r.due = true → r.GotFinal encode

/-- A request needs nothing more from the callbacks. -/
def Request.served (r : Request M) : Bool :=
  match r.kind with
  | .send _ => r.emitter.responseSent
  | .stream | .resubscribe => r.due

/-- No emit of the callbacks of the task throws. -/
def Choices.Quiet (w : Choices) (info : Option TaskExecuteInfo) : Prop :=
  ∀ i, i < ((info.map TaskExecuteInfo.eventCb).getD []).length → w.throws i = false

/-- The steps that leave no request behind. `RegisterTask` drops no callback that is still needed. A callback is added to
a registered task, and next to no other callback of `message/send`. Every accepted request has its callback when a
final event is processed. The transport does not throw. -/
def Conversation.Safe (merge : String → String → Option String) (taskId : String) (x : Conversation M P) :
    ConversationEvent M P → Prop
  | .advance i _ throws => ∀ r, x.requests[i]? = some r →
      match r.phase with
      | .registerTask _ _ _ => ∀ r' ∈ x.requests, r'.callback.isSome = true → r'.served = true
      | .emitTask _ _ => throws = none
      | .addEventCallback id => ∃ info, x.server.registered id = some info ∧
          (r.kind.callbackKind.isResponse = true → ∀ c ∈ info.eventCb, c.kind.isResponse = false)
      | _ => True
  | .process event w => w.Quiet (x.server.registered taskId) ∧
      ((event.isFinal && x.processes merge taskId event) = true → ∀ r ∈ x.requests, r.accepted = true →
        r.callback.isSome = true ∨ r.ended = true)
  | .endCancel k w => w.Quiet (x.server.registered taskId) ∧
      (x.cancels k = true → ∀ r ∈ x.requests, r.accepted = true → r.callback.isSome = true ∨ r.ended = true)
  | _ => True

/-! ## What callbacks emit -/

/-- What the callbacks of a task emit for an event, in order. `sent` says that the task has been answered. -/
def Emissions (event : StreamEvent M P) : Bool → List Callback → List (ℕ × StreamEvent M P) → Prop
  | _, [], emissions => emissions = []
  | sent, c :: cs, emissions => ∃ first later, emissions = first ++ later ∧
      Emissions event (sent || c.answers event.isFinal) cs later ∧
      match c.kind with
      | .streaming => first = [(c.id, event)]
      | .response _ =>
        if c.answers event.isFinal && !sent then ∃ e, e.sendResult?.isSome = true ∧ first = [(c.id, e)] else first = []

theorem Callback.isResponse_of_answers {c : Callback} {final : Bool} (h : c.answers final = true) : c.kind.isResponse = true := by
  rw [Callback.answers] at h
  cases hkind : c.kind with
  | response blocking => rfl
  | streaming =>
    rw [hkind] at h
    cases h

section Emissions

variable {event : StreamEvent M P} {sent : Bool} {callbacks : List Callback} {emissions : List (ℕ × StreamEvent M P)}

theorem Emissions.mem (h : Emissions event sent callbacks emissions) {e : ℕ × StreamEvent M P} (he : e ∈ emissions) :
    e.1 ∈ callbacks.map Callback.id := by
  induction callbacks generalizing sent emissions with
  | nil =>
    rw [Emissions] at h
    rw [h] at he
    cases he
  | cons c cs ih =>
    obtain ⟨first, later, rfl, hlater, hfirst⟩ := h
    rw [List.map_cons]
    rcases List.mem_append.mp he with hfst | hrest
    · -- what one callback emits is under its number
      cases hkind : c.kind with
      | streaming =>
        rw [hkind] at hfirst
        rw [hfirst] at hfst
        rw [List.mem_singleton.mp hfst]
        exact List.mem_cons_self
      | response blocking =>
        rw [hkind] at hfirst
        dsimp only at hfirst
        split at hfirst
        · obtain ⟨result, -, rfl⟩ := hfirst
          rw [List.mem_singleton.mp hfst]
          exact List.mem_cons_self
        · rw [hfirst] at hfst
          cases hfst
    · exact List.mem_cons_of_mem _ (ih hlater hrest)

theorem Emissions.streaming (h : Emissions event sent callbacks emissions) {c : Callback} (hc : c ∈ callbacks)
    (hkind : c.kind = .streaming) : (c.id, event) ∈ emissions := by
  induction callbacks generalizing sent emissions with
  | nil => cases hc
  | cons c' cs ih =>
    obtain ⟨first, later, rfl, hlater, hfirst⟩ := h
    rcases List.mem_cons.mp hc with rfl | hc
    · rw [hkind] at hfirst
      rw [hfirst]
      exact List.mem_append_left _ (List.mem_singleton_self _)
    · exact List.mem_append_right _ (ih hlater hc)

theorem Emissions.response (h : Emissions event false callbacks emissions) {c : Callback} (hc : c ∈ callbacks)
    (hanswers : c.answers event.isFinal = true) (honly : ∀ c' ∈ callbacks, c'.kind.isResponse = true → c' = c) :
    ∃ e, e.sendResult?.isSome = true ∧ (c.id, e) ∈ emissions := by
  induction callbacks generalizing emissions with
  | nil => cases hc
  | cons c' cs ih =>
    obtain ⟨first, later, rfl, hlater, hfirst⟩ := h
    cases hkind : c'.kind with
    | streaming =>
      have hquiet : c'.answers event.isFinal = false := by rw [Callback.answers, hkind]
      have hc : c ∈ cs := by
        rcases List.mem_cons.mp hc with rfl | hc
        · rw [hquiet] at hanswers
          cases hanswers
        · exact hc
      rw [hquiet] at hlater
      obtain ⟨e, he, hmem⟩ := ih hlater hc fun c'' hc'' => honly c'' (List.mem_cons_of_mem _ hc'')
      exact ⟨e, he, List.mem_append_right _ hmem⟩
    | response blocking =>
      cases honly c' List.mem_cons_self (by rw [hkind]; rfl)
      rw [hkind, hanswers] at hfirst
      obtain ⟨e, he, rfl⟩ := hfirst
      exact ⟨e, he, List.mem_append_left _ (List.mem_singleton_self _)⟩

end Emissions

namespace Server

variable {s s' : Server M P} {taskId : String} {o : ℕ} {event : StreamEvent M P} {info : TaskExecuteInfo}

theorem get_emitted {copy : Bool} {fetched : Option ℕ} (h : s.get taskId copy = (s', fetched)) :
    s'.emitted = s.emitted ∧ s'.callbacks = s.callbacks ∧ ∀ id, s'.registered id = s.registered id := by
  cases fetched with
  | none =>
    rw [get_none h]
    exact ⟨rfl, rfl, fun _ => rfl⟩
  | some o =>
    obtain ⟨o', -, ⟨-, -, rfl⟩ | ⟨-, -, rfl⟩⟩ := get_cases h
    · exact ⟨rfl, rfl, fun _ => rfl⟩
    · exact ⟨rfl, rfl, fun _ => rfl⟩

theorem get_of_lookup (hlookup : s.tasks.lookup taskId ≠ none) (copy : Bool) : ∃ s' o, s.get taskId copy = (s', some o) := by
  obtain ⟨o, ho⟩ := Option.ne_none_iff_exists'.mp hlookup
  rw [get, ho]
  cases copy with
  | true | false => exact ⟨_, _, rfl⟩

theorem responseCallback_emits (hlookup : s.tasks.lookup taskId ≠ none) (hreg : s.registered taskId = some info) (n : ℕ)
    (blocking copy errorCopy : Bool) :
    let answers := event.isFinal || !blocking
    let s' := s.responseCallback taskId n blocking event copy false errorCopy
    s'.registered taskId = some { info with messageSent := info.messageSent || answers } ∧
      ∃ first, s'.emitted = s.emitted ++ first ∧
        if answers && !info.messageSent then ∃ e, e.sendResult?.isSome = true ∧ first = [(n, e)] else first = [] := by
  intro answers s'
  obtain ⟨s₁, o, hget⟩ := get_of_lookup hlookup copy
  obtain ⟨hemitted, -, hregistered⟩ := get_emitted hget
  -- the flag is exchanged, and the result is emitted if it was not set
  have hsends : ∀ (s₂ : Server M P) (e : StreamEvent M P), s₂.emitted = s.emitted → s₂.registered taskId = some info →
      e.sendResult?.isSome = true → answers = true →
      let s₃ := if (s₂.exchangeMessageSent taskId true).2 then (s₂.exchangeMessageSent taskId true).1
        else (s₂.exchangeMessageSent taskId true).1.emit taskId n e false errorCopy
      s₃.registered taskId = some { info with messageSent := info.messageSent || answers } ∧
        ∃ first, s₃.emitted = s.emitted ++ first ∧
          if answers && !info.messageSent then ∃ e, e.sendResult?.isSome = true ∧ first = [(n, e)] else first = [] := by
    intro s₂ e hs₂ hreg₂ he hanswers s₃
    have hexchanged : ({ s₂.registerTask taskId (some { info with messageSent := true }) with
        emitted := s₂.emitted ++ [(n, e)] } : Server M P).registered taskId = some { info with messageSent := true } :=
      (registered_registerTask s₂ taskId _ taskId).trans (if_pos rfl)
    have hs₃ : s₃ = if info.messageSent then s₂.registerTask taskId (some { info with messageSent := true })
        else (s₂.registerTask taskId (some { info with messageSent := true })).emit taskId n e false errorCopy := by
      show (if (s₂.exchangeMessageSent taskId true).2 then _ else _) = _
      rw [exchange_spec hreg₂]
    rw [hs₃, hanswers]
    cases hsent : info.messageSent with
    | true => exact ⟨hexchanged, [], by rw [List.append_nil]; exact hs₂, rfl⟩
    | false => exact ⟨hexchanged, [(n, e)], congrArg (· ++ [(n, e)]) hs₂, e, he, rfl⟩
  have hother : (∀ m, event ≠ .message m) → s' = if answers then
      if (s₁.exchangeMessageSent taskId true).2 then (s₁.exchangeMessageSent taskId true).1
      else (s₁.exchangeMessageSent taskId true).1.emit taskId n
        (.task ((s₁.exchangeMessageSent taskId true).1.objects o)) false errorCopy
      else s₁ := by
    intro hevent
    show s.responseCallback taskId n blocking event copy false errorCopy = _
    rw [responseCallback.eq_def, hget]
    cases event with
    | message m => exact absurd rfl (hevent m)
    | task | artifactUpdate | statusUpdate => rfl
  by_cases hmessage : ∃ m, event = .message m
  · obtain ⟨m, rfl⟩ := hmessage
    have hs' : s' = if ((s₁.setState o .completed).exchangeMessageSent taskId true).2 then
        ((s₁.setState o .completed).exchangeMessageSent taskId true).1
        else ((s₁.setState o .completed).exchangeMessageSent taskId true).1.emit taskId n (.message m) false errorCopy := by
      show s.responseCallback taskId n blocking (.message m) copy false errorCopy = _
      rw [responseCallback.eq_def, hget]
    rw [hs']
    exact hsends (s₁.setState o .completed) (.message m) hemitted ((hregistered taskId).trans hreg) rfl rfl
  · rw [hother fun m hm => hmessage ⟨m, hm⟩]
    cases hanswers : answers with
    | true =>
      have hsent := hsends s₁ (.task ((s₁.exchangeMessageSent taskId true).1.objects o)) hemitted
        ((hregistered taskId).trans hreg) rfl hanswers
      rw [hanswers] at hsent
      exact hsent
    | false =>
      refine ⟨?_, [], by rw [List.append_nil]; exact hemitted, rfl⟩
      rw [Bool.or_false]
      exact (hregistered taskId).trans hreg

theorem invoke_emits (event : StreamEvent M P) (hlookup : s.tasks.lookup taskId ≠ none)
    (hreg : s.registered taskId = some info) (callback : Callback) (copy errorCopy : Bool) :
    let s' := s.invoke taskId event callback copy false errorCopy
    s'.registered taskId = some { info with messageSent := info.messageSent || callback.answers event.isFinal } ∧
      ∃ first, s'.emitted = s.emitted ++ first ∧
        match callback.kind with
        | .streaming => first = [(callback.id, event)]
        | .response _ =>
          if callback.answers event.isFinal && !info.messageSent then
            ∃ e, e.sendResult?.isSome = true ∧ first = [(callback.id, e)]
          else first = [] := by
  intro s'
  let heard : Server M P := { s with received := s.received ++ [(callback.id, event)] }
  have hlookup' : heard.tasks.lookup taskId ≠ none := hlookup
  have hreg' : heard.registered taskId = some info := hreg
  cases hkind : callback.kind with
  | response blocking =>
    have hs' : s' = heard.responseCallback taskId callback.id blocking event copy false errorCopy := by
      show s.invoke taskId event callback copy false errorCopy = _
      rw [invoke, hkind]
    have hanswers : callback.answers event.isFinal = (event.isFinal || !blocking) := by rw [Callback.answers, hkind]
    rw [hs', hanswers]
    exact responseCallback_emits hlookup' hreg' callback.id blocking copy errorCopy
  | streaming =>
    have hs' : s' = heard.emit taskId callback.id event false errorCopy := by
      show s.invoke taskId event callback copy false errorCopy = _
      rw [invoke, hkind]
    have hanswers : callback.answers event.isFinal = false := by rw [Callback.answers, hkind]
    rw [hs', hanswers, Bool.or_false]
    exact ⟨hreg', _, rfl, rfl⟩

theorem invokeAll_emits (event : StreamEvent M P) {w : Choices} {i : ℕ} {callbacks : List Callback}
    (hlookup : s.tasks.lookup taskId ≠ none) (hreg : s.registered taskId = some info) (hquiet : ∀ j, j < callbacks.length → w.throws (i + j) = false) :
    let s' := s.invokeAll taskId event w i callbacks
    s'.registered taskId =
        some { info with messageSent := info.messageSent || callbacks.any (Callback.answers event.isFinal) } ∧
      ∃ emissions, s'.emitted = s.emitted ++ emissions ∧ Emissions event info.messageSent callbacks emissions := by
  induction callbacks generalizing s i info with
  | nil => exact ⟨by simpa [invokeAll] using hreg, [], (List.append_nil _).symm, rfl⟩
  | cons callback callbacks ih =>
    have hthrows : w.throws i = false := hquiet 0 (Nat.succ_pos _)
    obtain ⟨hreg', first, hfirst, hkind⟩ := invoke_emits event hlookup hreg callback (w.copies i) (w.errorCopies i)
    have hmarked : Marked taskId _ s (s.invoke taskId event callback (w.copies i) false (w.errorCopies i)) := marked_invoke
    obtain ⟨hreg'', later, hlater, hrest⟩ := ih (hmarked.tasks ▸ hlookup) hreg' fun j hj => by
      have := hquiet (j + 1) (Nat.succ_lt_succ hj)
      rwa [show i + (j + 1) = i + 1 + j by omega] at this
    rw [invokeAll, hthrows]
    refine ⟨?_, first ++ later, ?_, first, later, rfl, hrest, hkind⟩
    · rw [hreg'', List.any_cons, Bool.or_assoc]
    · rw [hlater, hfirst, List.append_assoc]

/-- The callbacks of a task are given an event, or nothing that matters to them happens. -/
structure Heard (taskId : String) (final : Bool) (s s' : Server M P) : Prop where
  callbacks : s'.callbacks = s.callbacks
  present : ∀ id, s.tasks.lookup id ≠ none → s'.tasks.lookup id ≠ none
  entries : ∀ id info', s'.registered id = some info' → ∃ info, s.registered id = some info
  heard : s'.emitted = s.emitted ∧ s'.registered taskId = s.registered taskId ∧ final = false ∨
    ∃ info event emissions, s.registered taskId = some info ∧ final = event.isFinal ∧ s'.emitted = s.emitted ++ emissions ∧
      Emissions event info.messageSent info.eventCb emissions ∧
      s'.registered taskId = if event.isFinal then none
        else some { info with messageSent := info.messageSent || info.eventCb.any (Callback.answers event.isFinal) }

theorem lookup_save (s : Server M P) (task : Task M P) (id : String) (h : s.tasks.lookup id ≠ none) :
    (s.save task).tasks.lookup id ≠ none := by
  show (s.tasks.set task.id s.allocated).lookup id ≠ none
  rw [Dict.lookup_set]
  by_cases hid : task.id = id
  · rw [if_pos hid]
    simp
  · rw [if_neg hid]
    exact h

theorem saveTaskEvent_saves {merge : String → String → Option String} (hlookup : s.tasks.lookup taskId ≠ none)
    (habout : About taskId event) (hsave : s.saveTaskEvent merge event = some s') : s' = s ∨ ∃ task, s' = s.save task := by
  obtain ⟨o, ho⟩ := Option.ne_none_iff_exists'.mp hlookup
  have hensure : ∀ contextId, s.ensureTask taskId contextId = (s, s.objects o) := by
    intro contextId
    rw [ensureTask, stored, ho]
    rfl
  cases event with
  | task t =>
    cases hsave
    exact .inr ⟨t, rfl⟩
  | message m =>
    cases hsave
    exact .inl rfl
  | artifactUpdate id contextId artifact append lastChunk metadata =>
    obtain rfl : id = taskId := habout
    rw [saveTaskEvent, hensure] at hsave
    cases hsave
    exact .inr ⟨_, rfl⟩
  | statusUpdate id contextId status metadata =>
    obtain rfl : id = taskId := habout
    rw [saveTaskEvent, hensure] at hsave
    obtain ⟨task, -, rfl⟩ := Option.map_eq_some_iff.mp hsave
    exact .inr ⟨_, rfl⟩

theorem Heard.refl (taskId : String) (s : Server M P) : Heard taskId false s s :=
  ⟨rfl, fun _ h => h, fun _ info h => ⟨info, h⟩, .inl ⟨rfl, rfl, rfl⟩⟩

theorem heard_invokeAll (event : StreamEvent M P) {s₀ : Server M P} {w : Choices} {erases : Bool} (hlookup : s.tasks.lookup taskId ≠ none)
    (hreg : s.registered taskId = some info) (hquiet : w.Quiet (some info)) (hcallbacks : s.callbacks = s₀.callbacks)
    (hpresent : ∀ id, s₀.tasks.lookup id ≠ none → s.tasks.lookup id ≠ none)
    (hentries : ∀ id, s.registered id = s₀.registered id) (hemitted : s.emitted = s₀.emitted) (hfinal : event.isFinal = erases) :
    let s' := s.invokeAll taskId event w 0 info.eventCb
    Heard taskId erases s₀ (if erases then { s' with taskExecuteMap := s'.taskExecuteMap.erase taskId } else s') := by
  intro s'
  have hmarked : Marked taskId _ s s' := marked_invokeAll
  have hthrows : ∀ j, j < info.eventCb.length → w.throws (0 + j) = false := by
    intro j hj
    rw [Nat.zero_add]
    exact hquiet j hj
  obtain ⟨hreg', emissions, hemissions, hspec⟩ := invokeAll_emits event hlookup hreg hthrows
  have hold : ∀ id info', s'.registered id = some info' → ∃ info, s₀.registered id = some info := by
    intro id info' hinfo'
    obtain ⟨info₁, hinfo₁, -⟩ := registered_invokeAll hinfo'
    exact ⟨info₁, (hentries id).symm.trans hinfo₁⟩
  have hkeeps : ∀ id, s₀.tasks.lookup id ≠ none → s'.tasks.lookup id ≠ none := by
    intro id hid
    rw [hmarked.tasks]
    exact hpresent id hid
  subst hfinal
  cases hevent : event.isFinal with
  | true =>
    rw [if_pos rfl]
    refine ⟨hmarked.callbacks.trans hcallbacks, hkeeps, fun id info' hinfo' => ?_, .inr ⟨info, event, emissions,
      (hentries taskId).symm.trans hreg, hevent.symm, hemissions.trans (by rw [hemitted]), hspec, ?_⟩⟩
    · rw [registered_erase] at hinfo'
      by_cases hid : id = taskId
      · rw [if_pos hid] at hinfo'
        cases hinfo'
      · rw [if_neg hid] at hinfo'
        exact hold id info' hinfo'
    · rw [registered_erase, if_pos rfl, hevent, if_pos rfl]
  | false =>
    rw [if_neg (by simp)]
    refine ⟨hmarked.callbacks.trans hcallbacks, hkeeps, hold, .inr ⟨info, event, emissions,
      (hentries taskId).symm.trans hreg, hevent.symm, hemissions.trans (by rw [hemitted]), hspec, ?_⟩⟩
    rw [hreg', hevent, if_neg (by simp)]

theorem heard_process {merge : String → String → Option String} {w : Choices}
    (hpresent : s.registered taskId ≠ none → s.tasks.lookup taskId ≠ none) (habout : About taskId event)
    (hquiet : w.Quiet (s.registered taskId)) :
    Heard taskId (event.isFinal && ((s.registered taskId).isSome && (s.saveTaskEvent merge event).isSome)) s
      (s.process merge taskId event w) := by
  rw [process]
  cases hreg : s.registered taskId with
  | none =>
    rw [Option.isSome_none, Bool.false_and, Bool.and_false]
    exact Heard.refl taskId s
  | some info =>
    have hlookup := hpresent (by rw [hreg]; simp)
    dsimp only
    cases hsave : s.saveTaskEvent merge event with
    | none =>
      rw [Option.isSome_none, Bool.and_false, Bool.and_false]
      exact Heard.refl taskId s
    | some s₁ =>
      rw [Option.isSome_some, Option.isSome_some, Bool.and_true, Bool.and_true]
      rw [hreg] at hquiet
      rcases saveTaskEvent_saves hlookup habout hsave with rfl | ⟨task, rfl⟩
      · exact heard_invokeAll event hlookup hreg hquiet rfl (fun _ h => h) (fun _ => rfl) rfl rfl
      · exact heard_invokeAll event (lookup_save s task taskId hlookup) hreg hquiet rfl (lookup_save s task) (fun _ => rfl) rfl rfl

theorem heard_cancelTask {w : Choices} (hpresent : s.registered taskId ≠ none → s.tasks.lookup taskId ≠ none)
    (honly : ∀ id info, s.registered id = some info → id = taskId) (hquiet : w.Quiet (s.registered taskId)) (o : ℕ) :
    Heard taskId (!(s.objects o).status.state.isFinal && (s.registered (s.objects o).id).isSome) s (s.cancelTask o w) := by
  rw [cancelTask]
  dsimp only
  cases (s.objects o).status.state.isFinal with
  | true => exact Heard.refl taskId s
  | false =>
    rw [if_neg (by simp)]
    cases hreg : s.registered (s.objects o).id with
    | none => exact ⟨rfl, fun _ h => h, fun _ info h => ⟨info, h⟩, .inl ⟨rfl, rfl, rfl⟩⟩
    | some info =>
      have hid := honly _ info hreg
      rw [hid] at hreg ⊢
      rw [hreg] at hquiet
      have hreg' : (s.setState o .canceled).registered taskId = some info := hreg
      have hlookup : (s.setState o .canceled).tasks.lookup taskId ≠ none := hpresent (by rw [hreg]; simp)
      exact heard_invokeAll (.statusUpdate taskId (s.objects o).contextId { state := .canceled } none) hlookup hreg' hquiet
        rfl (fun _ h => h) (fun _ => rfl) rfl rfl

end Server

/-! ## What emitters send -/

section Emitters

variable {encode : StreamEvent M P → Json} {r : Request M} {e : StreamServerEmitter} {s s' : Server M P}

theorem sent_foldl_streamEmit (id : String) (events : List (StreamEvent M P)) :
    ∃ later, (events.foldl (streamEmit encode id) e).sent = e.sent ++ later ∧
      ∀ event ∈ events, ∃ before after, later = before ++ .streaming (resultReply (.str id) (resultOf encode event)) :: after := by
  induction events generalizing e with
  | nil =>
    refine ⟨[], ?_, ?_⟩
    · rw [List.foldl_nil, List.append_nil]
    · intro event hevent
      exact absurd hevent List.not_mem_nil
  | cons event events ih =>
    obtain ⟨rest, hfirst⟩ : ∃ rest, (streamEmit encode id e event).sent =
        e.sent ++ .streaming (resultReply (.str id) (resultOf encode event)) :: rest := by
      rw [streamEmit]
      cases event.isFinal with
      | true => exact ⟨[.done], List.append_assoc _ _ _⟩
      | false => exact ⟨[], rfl⟩
    obtain ⟨later, hlater, hall⟩ := @ih (streamEmit encode id e event)
    rw [List.foldl_cons, hlater, hfirst]
    refine ⟨_, List.append_assoc _ _ _, fun event' hevent' => ?_⟩
    rcases List.mem_cons.mp hevent' with rfl | hmem
    · exact ⟨[], rest ++ later, rfl⟩
    · obtain ⟨before, after, rfl⟩ := hall event' hmem
      exact ⟨.streaming (resultReply (.str id) (resultOf encode event)) :: rest ++ before, after, by simp⟩

/-- A response is sent once. -/
structure Once (e : StreamServerEmitter) : Prop where
  marked : Marked e
  length : e.replies.length ≤ 1

theorem Once.new : Once {} := ⟨⟨nofun, fun h => absurd rfl h⟩, Nat.zero_le _⟩

theorem Once.write (h : Once e) (reply : Reply) :
    Once (e.writeNonStreamingData reply) ∧ (e.writeNonStreamingData reply).responseSent = true := by
  obtain ⟨hmarked, hreplies⟩ := h.marked.write reply
  have hsome : (e.writeNonStreamingData reply).replies ≠ [] ∧ (e.writeNonStreamingData reply).replies.length ≤ 1 := by
    rw [hreplies]
    by_cases hnone : e.replies = []
    · rw [if_pos hnone]
      exact ⟨List.cons_ne_nil _ _, le_refl _⟩
    · rw [if_neg hnone]
      exact ⟨hnone, h.length⟩
  exact ⟨⟨hmarked, hsome.2⟩, hmarked.mpr hsome.1⟩

theorem Once.replies_length (h : Once e) (hsent : e.responseSent = true) : e.replies.length = 1 :=
  le_antisymm h.length (List.length_pos_iff.mpr (h.marked.mp hsent))

theorem Once.foldl (h : Once e) {blocking : Bool} (hkind : r.kind = .send blocking) (events : List (StreamEvent M P)) :
    Once (events.foldl (r.emit encode) e) ∧ ((e.responseSent = true ∨ ∃ event ∈ events, event.sendResult?.isSome = true) →
        (events.foldl (r.emit encode) e).responseSent = true) := by
  induction events generalizing e with
  | nil => exact ⟨h, fun hor => hor.elim id fun ⟨event, hmem, _⟩ => absurd hmem List.not_mem_nil⟩
  | cons event events ih =>
    have hfirst : Once (r.emit encode e event) ∧
        (e.responseSent = true ∨ event.sendResult?.isSome = true → (r.emit encode e event).responseSent = true) := by
      rw [Request.emit, hkind]
      dsimp only
      cases event.sendResult? with
      | none => exact ⟨h, fun hor => hor.elim id nofun⟩
      | some result =>
        cases result with
        | task | message => exact ⟨(h.write _).1, fun _ => (h.write _).2⟩
    obtain ⟨honce, hsent⟩ := ih hfirst.1
    refine ⟨honce, fun hor => hsent ?_⟩
    rcases hor with hbefore | ⟨event', hmem, hresult⟩
    · exact .inl (hfirst.2 (.inl hbefore))
    · rcases List.mem_cons.mp hmem with rfl | hmem
      · exact .inl (hfirst.2 (.inr hresult))
      · exact .inr ⟨event', hmem, hresult⟩

variable {emissions : List (ℕ × StreamEvent M P)} (h : s'.emitted = s.emitted ++ emissions)
include h

theorem sentTo_eq (n : ℕ) :
    Request.sentTo s s' n = (emissions.filter fun e => e.1 = n).map Prod.snd := by
  rw [Request.sentTo, h, List.drop_left]

theorem mem_sentTo {n : ℕ} {event : StreamEvent M P} (hmem : (n, event) ∈ emissions) : event ∈ Request.sentTo s s' n := by
  rw [sentTo_eq h]
  exact List.mem_map.mpr ⟨(n, event), List.mem_filter.mpr ⟨hmem, by simp⟩, rfl⟩

omit h

theorem fail_send (h : Once r.emitter) {blocking : Bool} (hkind : r.kind = .send blocking) (thrown : Thrown) :
    Once (r.fail thrown).emitter ∧ (r.fail thrown).emitter.responseSent = true := by
  rw [Request.fail, hkind]
  dsimp only
  cases caught (r.id.getD .null) "" thrown with
  | ok error => exact h.write error
  | error escaped =>
    cases escaped with
    | server | std => exact h.write _

theorem fail_stream (hkind : r.kind.callbackKind.isResponse = false) (thrown : Thrown) :
    ∃ later, (r.fail thrown).emitter.sent = r.emitter.sent ++ later := by
  rw [Request.fail]
  cases hkind' : r.kind with
  | send blocking =>
    rw [hkind'] at hkind
    cases hkind
  | stream | resubscribe =>
    dsimp only
    cases caught (r.id.getD .null) "Streaming error: " thrown with
    | ok error => exact ⟨[.streaming error, .done], List.append_assoc _ _ _⟩
    | error escaped => exact ⟨[], (List.append_nil _).symm⟩

end Emitters

/-! ## The invariant -/

/-- What the next call of a handler relies on. -/
def Request.Ready (taskId : String) (s : Server M P) (r : Request M) : Prop :=
  match r.phase with
  | .determineTaskId params => r.kind ≠ .resubscribe ∧ r.accepted = false ∧
      (params.taskId = some taskId ∧ taskId ≠ "" ∨ params.taskId.getD "" = "" ∧ params.generatedTaskId = taskId)
  | .checkState params _ => r.accepted = false ∧ params.taskId.getD "" = taskId ∧ s.tasks.lookup taskId ≠ none
  | .createNewTask params => r.accepted = true ∧ r.kind ≠ .resubscribe ∧ params.generatedTaskId = taskId
  | .getTask id => id = taskId ∧ (r.kind = .resubscribe → r.accepted = false) ∧
      (r.kind ≠ .resubscribe → r.accepted = true ∧ s.tasks.lookup taskId ≠ none)
  | .registerTask id existing _ => r.accepted = true ∧ id = taskId ∧ s.tasks.lookup taskId ≠ none ∧
      (r.kind.callbackKind.isResponse = false → existing ≠ none)
  | .updateWithMessage _ _ _ => r.accepted = true
  | .exchangeMessageSent _ => r.accepted = true ∧ r.kind.callbackKind.isResponse = true
  | .emitTask _ existing => r.accepted = true ∧ existing ≠ none
  | .addEventCallback _ => r.accepted = true
  | .returned => True

/-- What holds of a request. A handler that goes on has sent nothing that counts; a callback that is still needed is in
the entry of the task; and who is due has been served. -/
structure Request.Kept (encode : StreamEvent M P → Json) (taskId : String) (s : Server M P) (r : Request M) : Prop where
  ready : r.Ready taskId s
  early : r.phase ≠ .returned → r.callback = none ∧ r.due = false ∧ r.ended = false
  once : r.kind.callbackKind.isResponse = true → Once r.emitter
  greeted : r.kind = .stream → (∃ id, r.phase = .addEventCallback id) ∨ r.callback.isSome = true → r.emitter.sent ≠ []
  accepted : r.callback.isSome = true → r.accepted = true
  waits : ∀ n, r.callback = some n → r.served = false → ∃ info, s.registered taskId = some info ∧
    ⟨n, r.kind.callbackKind⟩ ∈ info.eventCb
  quits : r.callback = none → r.ended = true → r.accepted = true → r.kind = .resubscribe ∧ r.GotFinal encode
  owed : r.due = true → r.served = true ∧ (r.kind.callbackKind.isResponse = false → r.GotFinal encode)

/-- The answered flag of a task belongs to the only callback of `message/send` in its entry. -/
structure Flagged (requests : List (Request M)) (info : TaskExecuteInfo) : Prop where
  only : ∀ c ∈ info.eventCb, ∀ c' ∈ info.eventCb, c.kind.isResponse = true → c'.kind.isResponse = true → c = c'
  sent : info.messageSent = true → (∃ c ∈ info.eventCb, c.kind.isResponse = true) ∧
    ∀ r ∈ requests, ∀ n, r.callback = some n → r.kind.callbackKind.isResponse = true →
      ⟨n, r.kind.callbackKind⟩ ∈ info.eventCb → r.emitter.responseSent = true

structure Conversation.Kept (encode : StreamEvent M P → Json) (taskId : String) (x : Conversation M P) : Prop where
  entries : ∀ id info, x.server.registered id = some info → id = taskId
  present : x.server.registered taskId ≠ none → x.server.tasks.lookup taskId ≠ none
  requests : ∀ r ∈ x.requests, r.Kept encode taskId x.server
  flagged : ∀ info, x.server.registered taskId = some info → Flagged x.requests info

section Invariant

variable {encode : StreamEvent M P → Json} {taskId : String} {s s' : Server M P} {r : Request M} {x : Conversation M P}

theorem Request.Ready.mono (h : r.Ready taskId s) (hpresent : s.tasks.lookup taskId ≠ none → s'.tasks.lookup taskId ≠ none) :
    r.Ready taskId s' := by
  rw [Request.Ready] at h ⊢
  cases hphase : r.phase <;> rw [hphase] at h
  case checkState => exact ⟨h.1, h.2.1, hpresent h.2.2⟩
  case getTask => exact ⟨h.1, h.2.1, fun hkind => ⟨(h.2.2 hkind).1, hpresent (h.2.2 hkind).2⟩⟩
  case registerTask => exact ⟨h.1, h.2.1, hpresent h.2.2.1, h.2.2.2⟩
  all_goals exact h

theorem Request.Kept.frame (h : r.Kept encode taskId s) (hpresent : s.tasks.lookup taskId ≠ none → s'.tasks.lookup taskId ≠ none)
    (hwaits : ∀ n, r.callback = some n → r.served = false → ∃ info, s'.registered taskId = some info ∧
      ⟨n, r.kind.callbackKind⟩ ∈ info.eventCb) : r.Kept encode taskId s' where
  ready := h.ready.mono hpresent
  early := h.early
  once := h.once
  greeted := h.greeted
  accepted := h.accepted
  waits := hwaits
  quits := h.quits
  owed := h.owed

theorem Request.GotFinal.append (h : r.GotFinal encode) {r' : Request M} (hkind : r'.kind = r.kind) (hid : r'.id = r.id)
    {later : List Write} (hsent : r'.emitter.sent = r.emitter.sent ++ later) : r'.GotFinal encode := by
  obtain ⟨before, event, after, heq, hfinal, hbefore⟩ := h
  refine ⟨before, event, after ++ later, ?_, hfinal, by rw [hkind]; exact hbefore⟩
  rw [hsent, heq, Request.idText, Request.idText, hid]
  simp

theorem Request.Kept.goOn (h : r.Kept encode taskId s) (hphase : r.phase ≠ .returned) {r' : Request M}
    (hready : r'.Ready taskId s') (hcallback : r'.callback = r.callback) (hdue : r'.due = r.due) (hended : r'.ended = r.ended)
    (honce : r'.kind.callbackKind.isResponse = true → Once r'.emitter)
    (hgreeted : r'.kind = .stream → (∃ id, r'.phase = .addEventCallback id) → r'.emitter.sent ≠ []) :
    r'.Kept encode taskId s' := by
  obtain ⟨hnone, hnot, hopen⟩ := h.early hphase
  rw [hnone] at hcallback
  rw [hnot] at hdue
  rw [hopen] at hended
  refine ⟨hready, fun _ => ⟨hcallback, hdue, hended⟩, honce, fun hkind hor => ?_, fun hsome => ?_, fun n hn => ?_,
    fun _ he => ?_, fun hd => ?_⟩
  · rcases hor with hadd | hsome
    · exact hgreeted hkind hadd
    · rw [hcallback] at hsome
      cases hsome
  · rw [hcallback] at hsome
    cases hsome
  · rw [hcallback] at hn
    cases hn
  · rw [hended] at he
    cases he
  · rw [hdue] at hd
    cases hd

theorem Request.Kept.refuse (h : r.Kept encode taskId s) (hphase : r.phase ≠ .returned) (haccepted : r.accepted = false)
    (thrown : Thrown) : (r.fail thrown).Kept encode taskId s := by
  obtain ⟨hnone, hnot, -⟩ := h.early hphase
  have hcallback : (r.fail thrown).callback = none := hnone
  have hdue : (r.fail thrown).due = false := hnot
  have haccepted' : (r.fail thrown).accepted = false := haccepted
  refine ⟨trivial, fun hreturned => absurd rfl hreturned, fun hkind => ?_, fun _ hor => ?_, fun hsome => ?_, fun n hn => ?_,
    fun _ _ ha => ?_, fun hd => ?_⟩
  · cases hkind' : r.kind with
    | send blocking => exact (fail_send (h.once hkind) hkind' thrown).1
    | stream | resubscribe =>
      have : r.kind.callbackKind.isResponse = true := hkind
      rw [hkind'] at this
      cases this
  · rcases hor with ⟨id, hid⟩ | hsome
    · cases hid
    rw [hcallback] at hsome
    cases hsome
  · rw [hcallback] at hsome
    cases hsome
  · rw [hcallback] at hn
    cases hn
  · rw [haccepted'] at ha
    cases ha
  · rw [hdue] at hd
    cases hd

theorem Conversation.Kept.set (h : x.Kept encode taskId) {i : ℕ} {r' : Request M}
    (hentries : ∀ id info, s'.registered id = some info → id = taskId)
    (hpresent : x.server.tasks.lookup taskId ≠ none → s'.tasks.lookup taskId ≠ none)
    (hregistered : s'.registered taskId ≠ none → x.server.tasks.lookup taskId ≠ none)
    (hwaits : ∀ r ∈ x.requests, ∀ n, r.callback = some n → r.served = false → ∃ info, s'.registered taskId = some info ∧
      ⟨n, r.kind.callbackKind⟩ ∈ info.eventCb) (hr' : r'.Kept encode taskId s')
    (hflagged : ∀ info, s'.registered taskId = some info → Flagged (x.requests.set i r') info) :
    Conversation.Kept encode taskId { server := s', requests := x.requests.set i r' } where
  entries := hentries
  present hne := hpresent (hregistered hne)
  requests r hr := by
    rcases List.mem_or_eq_of_mem_set hr with hold | rfl
    · exact (h.requests r hold).frame hpresent (hwaits r hold)
    · exact hr'
  flagged := hflagged

theorem Flagged.set {requests : List (Request M)} {info : TaskExecuteInfo} (h : Flagged requests info) {i : ℕ} {r' : Request M}
    (hr' : ∀ n, r'.callback = some n → r'.kind.callbackKind.isResponse = true → r'.emitter.responseSent = true) :
    Flagged (requests.set i r') info where
  only := h.only
  sent hsent := by
    refine ⟨(h.sent hsent).1, fun r hr n hn hkind hmem => ?_⟩
    rcases List.mem_or_eq_of_mem_set hr with hold | rfl
    · exact (h.sent hsent).2 r hold n hn hkind hmem
    · exact hr' n hn hkind

theorem Conversation.Kept.calm (h : x.Kept encode taskId) {i : ℕ} {r' : Request M}
    (hentries : ∀ id, s'.registered id = x.server.registered id)
    (hpresent : x.server.tasks.lookup taskId ≠ none → s'.tasks.lookup taskId ≠ none) (hr' : r'.Kept encode taskId s')
    (hflag : ∀ n, r'.callback = some n → r'.kind.callbackKind.isResponse = true → r'.emitter.responseSent = true) :
    Conversation.Kept encode taskId { server := s', requests := x.requests.set i r' } := by
  refine h.set (fun id info hinfo => h.entries id info ((hentries id).symm.trans hinfo)) hpresent (fun hne => ?_)
    (fun r hr n hn hserved => ?_) hr' fun info hinfo => ?_
  · rw [hentries] at hne
    exact h.present hne
  · obtain ⟨info, hinfo, hmem⟩ := (h.requests r hr).waits n hn hserved
    exact ⟨info, (hentries taskId).trans hinfo, hmem⟩
  · exact (h.flagged info ((hentries taskId).symm.trans hinfo)).set hflag

/-! ## One call of a handler -/

/-- The conversation after a call of the handler of the `i`th request. -/
def Next (encode : StreamEvent M P → Json) (taskId : String) (x : Conversation M P) (i : ℕ) (r : Request M)
    (result : Except Thrown (Server M P × Request M)) : Prop :=
  match result with
  | .error thrown => Conversation.Kept encode taskId { x with requests := x.requests.set i (r.fail thrown) }
  | .ok (s, r') => Conversation.Kept encode taskId { server := s, requests := x.requests.set i r' }

variable {i : ℕ} {copy : Bool} {throws : Option Thrown} {params : MessageSendParams M}

variable (h : x.Kept encode taskId) (hr : r ∈ x.requests)
include h hr

theorem Conversation.Kept.refuse (hphase : r.phase ≠ .returned)
    (haccepted : r.accepted = false) (thrown : Thrown) : Next encode taskId x i r (.error thrown) := by
  refine h.calm (fun _ => rfl) (fun hne => hne) ((h.requests r hr).refuse hphase haccepted thrown) fun n hn => ?_
  have hnone : (r.fail thrown).callback = none := ((h.requests r hr).early hphase).1
  rw [hnone] at hn
  cases hn

theorem Conversation.Kept.go (hphase : r.phase ≠ .returned) (hentries : ∀ id, s'.registered id = x.server.registered id)
    (hpresent : x.server.tasks.lookup taskId ≠ none → s'.tasks.lookup taskId ≠ none) {r' : Request M} (hready : r'.Ready taskId s')
    (hcallback : r'.callback = r.callback) (hdue : r'.due = r.due) (hended : r'.ended = r.ended)
    (honce : r'.kind.callbackKind.isResponse = true → Once r'.emitter)
    (hgreeted : r'.kind = .stream → (∃ id, r'.phase = .addEventCallback id) → r'.emitter.sent ≠ []) :
    Next encode taskId x i r (.ok (s', r')) := by
  refine h.calm hentries hpresent ((h.requests r hr).goOn hphase hready hcallback hdue hended honce hgreeted) fun n hn => ?_
  rw [hcallback, ((h.requests r hr).early hphase).1] at hn
  cases hn

omit h hr in
theorem determineTaskId_none (h : s.determineTaskId params = .ok none) : params.taskId.getD "" = "" := by
  unfold Server.determineTaskId at h
  cases hid : params.taskId with
  | none => rfl
  | some id =>
    rw [hid] at h
    dsimp only at h
    by_cases hempty : id = ""
    · exact hempty
    · rw [if_neg hempty] at h
      repeat (split at h <;> try cases h)

omit h hr in
theorem determineTaskId_some {task : Task M P} (h : s.determineTaskId params = .ok (some task)) :
    params.taskId.getD "" ≠ "" ∧ s.tasks.lookup (params.taskId.getD "") ≠ none := by
  unfold Server.determineTaskId at h
  cases hid : params.taskId with
  | none =>
    rw [hid] at h
    cases h
  | some id =>
    rw [hid] at h
    dsimp only at h
    by_cases hempty : id = ""
    · rw [if_pos hempty] at h
      cases h
    · refine ⟨hempty, fun hnone => ?_⟩
      have hnone : s.tasks.lookup id = none := hnone
      rw [if_neg hempty, Server.stored, hnone] at h
      cases h

theorem Conversation.Kept.determineTaskId
    (hphase : r.phase = .determineTaskId params) : Next encode taskId x i r (r.advance encode x.server copy throws) := by
  have hopen : r.phase ≠ .returned := by rw [hphase]; nofun
  have hk := h.requests r hr
  have hready := hk.ready
  rw [Request.Ready, hphase] at hready
  obtain ⟨hkind, haccepted, hnames⟩ := hready
  rw [Request.advance, hphase]
  dsimp only
  cases hdetermine : x.server.determineTaskId params with
  | error what => exact h.refuse hr hopen haccepted _
  | ok existing =>
    cases existing with
    | none =>
      have hnew : params.generatedTaskId = taskId := by
        rcases hnames with ⟨hid, hne⟩ | ⟨-, hid⟩
        · have hempty := determineTaskId_none hdetermine
          rw [hid] at hempty
          exact absurd hempty hne
        · exact hid
      exact h.go hr hopen (fun _ => rfl) (fun hne => hne) ⟨rfl, hkind, hnew⟩ rfl rfl rfl hk.once fun _ hadd => by
        obtain ⟨id, hid⟩ := hadd
        cases hid
    | some task =>
      obtain ⟨hne, hlookup⟩ := determineTaskId_some hdetermine
      have hold : params.taskId.getD "" = taskId := by
        rcases hnames with ⟨hid, -⟩ | ⟨hempty, -⟩
        · rw [hid]
          rfl
        · exact absurd hempty hne
      rw [hold] at hlookup ⊢
      obtain ⟨s₁, o, hget⟩ := Server.get_of_lookup hlookup copy
      dsimp only
      rw [hget]
      obtain ⟨-, -, hentries⟩ := Server.get_emitted hget
      have htasks : s₁.tasks = x.server.tasks := by
        obtain ⟨o', -, ⟨-, -, rfl⟩ | ⟨-, -, rfl⟩⟩ := Server.get_cases hget <;> rfl
      refine h.go hr hopen hentries (fun hne => htasks ▸ hne) ⟨haccepted, hold, htasks ▸ hlookup⟩ rfl rfl rfl hk.once ?_
      rintro - ⟨id, hid⟩
      cases hid

theorem Conversation.Kept.checkState {o : ℕ}
    (hphase : r.phase = .checkState params o) : Next encode taskId x i r (r.advance encode x.server copy throws) := by
  have hopen : r.phase ≠ .returned := by rw [hphase]; nofun
  have hk := h.requests r hr
  have hready := hk.ready
  rw [Request.Ready, hphase] at hready
  obtain ⟨haccepted, hid, hlookup⟩ := hready
  rw [Request.advance, hphase]
  dsimp only
  by_cases hfinal : (x.server.objects o).status.state.isFinal = true
  · rw [if_pos hfinal]
    exact h.refuse hr hopen haccepted _
  · rw [if_neg hfinal]
    refine h.go hr hopen (fun _ => rfl) (fun hne => hne) ⟨rfl, hid, hlookup, fun _ => nofun⟩ rfl rfl rfl hk.once ?_
    rintro - ⟨id, hadd⟩
    cases hadd

theorem Conversation.Kept.createNewTask
    (hphase : r.phase = .createNewTask params) : Next encode taskId x i r (r.advance encode x.server copy throws) := by
  have hopen : r.phase ≠ .returned := by rw [hphase]; rintro ⟨⟩
  have hk := h.requests r hr
  have hready := hk.ready
  rw [Request.Ready, hphase] at hready
  obtain ⟨haccepted, hkind, hid⟩ := hready
  rw [Request.advance, hphase]
  dsimp only
  have hlookup : (x.server.createNewTask params).tasks.lookup taskId ≠ none := by
    rw [Server.createNewTask, Server.save, hid, Dict.lookup_set_self]
    simp
  have hentries : ∀ id, (x.server.createNewTask params).registered id = x.server.registered id := fun _ => rfl
  refine h.go hr hopen hentries (fun _ => hlookup) ?_ rfl rfl rfl hk.once ?_
  · rw [Request.Ready]
    cases hkind' : r.kind with
    | send blocking => exact ⟨haccepted, hid, hlookup, by rintro ⟨⟩⟩
    | stream => exact ⟨hid, by rintro ⟨⟩, fun _ => ⟨haccepted, hlookup⟩⟩
    | resubscribe => exact absurd hkind' hkind
  · rintro hkind' ⟨id, hadd⟩
    have hkind' : r.kind = .stream := hkind'
    simp only [hkind'] at hadd
    cases hadd

theorem Conversation.Kept.getTask {id : String}
    (hphase : r.phase = .getTask id) : Next encode taskId x i r (r.advance encode x.server copy throws) := by
  have hopen : r.phase ≠ .returned := by rw [hphase]; nofun
  have hk := h.requests r hr
  have hready := hk.ready
  rw [Request.Ready, hphase] at hready
  obtain ⟨hid, haccepted, hlookup⟩ := hready
  -- what is fetched changes neither entries nor the map of the store
  have hfetch : ∀ s₁ fetched, x.server.get id copy = (s₁, fetched) →
      (∀ id, s₁.registered id = x.server.registered id) ∧ s₁.tasks = x.server.tasks := by
    intro s₁ fetched hget
    refine ⟨(Server.get_emitted hget).2.2, ?_⟩
    cases fetched with
    | none => rw [Server.get_none hget]
    | some o => obtain ⟨o', -, ⟨-, -, rfl⟩ | ⟨-, -, rfl⟩⟩ := Server.get_cases hget <;> rfl
  have hother : r.kind ≠ .resubscribe → ∃ s₁ o, x.server.get id copy = (s₁, some o) ∧
      Next encode taskId x i r (.ok (s₁, { r with phase := .registerTask id (some o) none })) := by
    intro hkind
    obtain ⟨s₁, o, hget⟩ := Server.get_of_lookup (hid ▸ (hlookup hkind).2) copy
    obtain ⟨hentries, htasks⟩ := hfetch s₁ _ hget
    refine ⟨s₁, o, hget, h.go hr hopen hentries (fun hne => htasks ▸ hne)
      ⟨(hlookup hkind).1, hid, htasks ▸ (hlookup hkind).2, fun _ => nofun⟩ rfl rfl rfl hk.once ?_⟩
    rintro - ⟨id, hadd⟩
    cases hadd
  by_cases hkind : r.kind = .resubscribe
  · rcases hget : x.server.get id copy with ⟨s₁, fetched⟩
    obtain ⟨hentries, htasks⟩ := hfetch s₁ fetched hget
    cases fetched with
    | none =>
      have hadvance : r.advance encode x.server copy throws = .error (.server (-32001) "Task id not found") := by
        rw [Request.advance, hphase]
        dsimp only
        rw [hget, hkind]
      rw [hadvance]
      exact h.refuse hr hopen (haccepted hkind) _
    | some o =>
      have hadvance : r.advance encode x.server copy throws =
          .ok (s₁, { r with phase := .emitTask id (some o), accepted := true }) := by
        rw [Request.advance, hphase]
        dsimp only
        rw [hget, hkind]
      rw [hadvance]
      refine h.go hr hopen hentries (fun hne => htasks ▸ hne) ⟨rfl, Option.some_ne_none o⟩ rfl rfl rfl hk.once ?_
      rintro - ⟨id, hadd⟩
      cases hadd
  · obtain ⟨s₁, o, hget, hnext⟩ := hother hkind
    have hadvance : r.advance encode x.server copy throws = .ok (s₁, { r with phase := .registerTask id (some o) none }) := by
      rw [Request.advance, hphase]
      dsimp only
      rw [hget]
      cases hkind' : r.kind with
      | send _ | stream => rfl
      | resubscribe => exact absurd hkind' hkind
    rw [hadvance]
    exact hnext

omit h hr in
theorem registered_ready {existing : Option ℕ} {id : String} (haccepted : r.accepted = true)
    (hexisting : r.kind.callbackKind.isResponse = false → existing ≠ none) :
    (r.registered id existing).Ready taskId s ∧ ¬∃ id', (r.registered id existing).phase = .addEventCallback id' := by
  rw [Request.registered]
  cases hkind : r.kind with
  | send blocking => exact ⟨⟨haccepted, rfl⟩, fun ⟨_, hadd⟩ => by cases hadd⟩
  | stream | resubscribe => exact ⟨⟨haccepted, hexisting (by rw [hkind]; rfl)⟩, fun ⟨_, hadd⟩ => by cases hadd⟩

omit h hr in
theorem registered_same (id : String) (existing : Option ℕ) : (r.registered id existing).callback = r.callback ∧
    (r.registered id existing).due = r.due ∧ (r.registered id existing).ended = r.ended ∧
    (r.registered id existing).kind = r.kind ∧ (r.registered id existing).emitter = r.emitter := by
  rw [Request.registered]
  cases r.kind <;> exact ⟨rfl, rfl, rfl, rfl, rfl⟩

theorem Conversation.Kept.updateWithMessage {id : String} {o : ℕ} {message : M}
    (hphase : r.phase = .updateWithMessage id o message) : Next encode taskId x i r (r.advance encode x.server copy throws) := by
  have hopen : r.phase ≠ .returned := by rw [hphase]; nofun
  have hk := h.requests r hr
  obtain ⟨hcallback, hdue, hended, hkind, hemitter⟩ := registered_same (r := r) id (some o)
  have haccepted := hk.ready
  rw [Request.Ready, hphase] at haccepted
  have hsome : r.kind.callbackKind.isResponse = false → some o ≠ none := fun _ => nofun
  have hentries : ∀ id, (x.server.updateWithMessage message (x.server.objects o)).registered id = x.server.registered id :=
    fun _ => rfl
  obtain ⟨hready, hadd⟩ := @registered_ready M P taskId (x.server.updateWithMessage message (x.server.objects o)) r _ id haccepted
    hsome
  rw [Request.advance, hphase]
  refine h.go hr hopen hentries (Server.lookup_save _ _ taskId) hready hcallback hdue hended ?_ fun _ hadd' => absurd hadd' hadd
  rw [hkind, hemitter]
  exact hk.once

theorem Conversation.Kept.registerTask {id : String} {existing : Option ℕ}
    {message : Option M} (hphase : r.phase = .registerTask id existing message)
    (hserved : ∀ r' ∈ x.requests, r'.callback.isSome = true → r'.served = true) :
    Next encode taskId x i r (r.advance encode x.server copy throws) := by
  have hopen : r.phase ≠ .returned := by rw [hphase]; nofun
  have hk := h.requests r hr
  have hready := hk.ready
  rw [Request.Ready, hphase] at hready
  obtain ⟨haccepted, hid, hlookup, hexisting⟩ := hready
  subst hid
  have hentry : ∀ id', (x.server.registerTask id (some {})).registered id' = if id = id' then some {} else x.server.registered id' :=
    Server.registered_registerTask x.server id (some {})
  -- the handler goes on
  obtain ⟨r', hadvance, hready', hsame, hadd⟩ : ∃ r' : Request M,
      r.advance encode x.server copy throws = .ok (x.server.registerTask id (some {}), r') ∧
      r'.Ready id (x.server.registerTask id (some {})) ∧
      (r'.callback = r.callback ∧ r'.due = r.due ∧ r'.ended = r.ended ∧ r'.kind = r.kind ∧ r'.emitter = r.emitter) ∧
      ¬∃ id', r'.phase = .addEventCallback id' := by
    have hregistered := @registered_ready M P id (x.server.registerTask id (some {})) r existing id haccepted hexisting
    rw [Request.advance, hphase]
    cases existing with
    | none => exact ⟨_, rfl, hregistered.1, registered_same id none, hregistered.2⟩
    | some o =>
      cases message with
      | none => exact ⟨_, rfl, hregistered.1, registered_same id (some o), hregistered.2⟩
      | some m => exact ⟨_, rfl, haccepted, ⟨rfl, rfl, rfl, rfl, rfl⟩, fun ⟨_, hadd⟩ => by cases hadd⟩
  obtain ⟨hcallback, hdue, hended, hkind, hemitter⟩ := hsame
  rw [hadvance]
  refine h.set (fun id' info hinfo => ?_) (fun hne => hne) (fun _ => hlookup) (fun r₁ hr₁ n hn hnot => ?_)
    (hk.goOn hopen hready' hcallback hdue hended (by rw [hkind, hemitter]; exact hk.once) fun _ hadd' => absurd hadd' hadd)
    fun info hinfo => ?_
  · rw [hentry] at hinfo
    by_cases hid : id = id'
    · exact hid.symm
    · rw [if_neg hid] at hinfo
      exact h.entries id' info hinfo
  · -- no callback that is dropped is needed
    rw [hserved r₁ hr₁ (by rw [hn]; rfl)] at hnot
    cases hnot
  · rw [hentry, if_pos rfl] at hinfo
    cases hinfo
    exact ⟨nofun, nofun⟩

theorem Conversation.Kept.exchangeMessageSent {id : String} (hphase : r.phase = .exchangeMessageSent id) :
    Next encode taskId x i r (r.advance encode x.server copy throws) := by
  have hopen : r.phase ≠ .returned := by rw [hphase]; rintro ⟨⟩
  have hk := h.requests r hr
  have hready := hk.ready
  rw [Request.Ready, hphase] at hready
  have hr' : ∀ s', Request.Kept encode taskId s' { r with phase := .addEventCallback id } := by
    intro s'
    refine hk.goOn hopen hready.1 rfl rfl rfl hk.once fun hstream => ?_
    have hresponse := hready.2
    rw [show r.kind = .stream from hstream] at hresponse
    cases hresponse
  have hnone : ({ r with phase := .addEventCallback id } : Request M).callback = none := (hk.early hopen).1
  rw [Request.advance, hphase]
  dsimp only
  rw [Server.exchangeMessageSent]
  cases hreg : x.server.registered id with
  | none =>
    refine h.calm (fun _ => rfl) (fun hne => hne) (hr' _) fun n hn => ?_
    rw [hnone] at hn
    cases hn
  | some info =>
    obtain rfl := h.entries id info hreg
    have hentry : ∀ id', (x.server.registerTask id (some { info with messageSent := false })).registered id' =
        if id = id' then some { info with messageSent := false } else x.server.registered id' :=
      Server.registered_registerTask x.server id _
    refine h.set (fun id' info' hinfo' => ?_) (fun hne => hne) (fun _ => h.present (by rw [hreg]; rintro ⟨⟩))
      (fun r₁ hr₁ n hn hnot => ?_) (hr' _) fun info' hinfo' => ?_
    · rw [hentry] at hinfo'
      by_cases hid : id = id'
      · exact hid.symm
      · rw [if_neg hid] at hinfo'
        exact h.entries id' info' hinfo'
    · obtain ⟨info₁, hinfo₁, hmem⟩ := (h.requests r₁ hr₁).waits n hn hnot
      cases hreg.symm.trans hinfo₁
      exact ⟨_, (hentry id).trans (if_pos rfl), hmem⟩
    · rw [hentry, if_pos rfl] at hinfo'
      cases hinfo'
      exact ⟨(h.flagged info hreg).only, by rintro ⟨⟩⟩

omit h hr in
theorem emit_streaming (hkind : r.kind.callbackKind.isResponse = false) : r.emit encode = streamEmit encode r.idText := by
  funext e event
  rw [Request.emit]
  cases hkind' : r.kind with
  | send blocking =>
    rw [hkind'] at hkind
    cases hkind
  | stream | resubscribe => rfl

theorem Conversation.Kept.emitTask {id : String} {existing : Option ℕ}
    (hphase : r.phase = .emitTask id existing) : Next encode taskId x i r (r.advance encode x.server copy none) := by
  have hopen : r.phase ≠ .returned := by rw [hphase]; nofun
  have hk := h.requests r hr
  have hready := hk.ready
  rw [Request.Ready, hphase] at hready
  obtain ⟨haccepted, hexisting⟩ := hready
  obtain ⟨o, rfl⟩ := Option.ne_none_iff_exists'.mp hexisting
  set task := x.server.objects o with htask
  set r₁ : Request M := { r with emitter := r.emit encode r.emitter (.task task) } with hr₁
  have honce : r₁.kind.callbackKind.isResponse = true → Once r₁.emitter := by
    intro hkind
    cases hkind' : r.kind with
    | send blocking => exact ((hk.once hkind).foldl hkind' [.task task]).1
    | stream | resubscribe =>
      rw [show r₁.kind = r.kind from rfl, hkind'] at hkind
      cases hkind
  have hsent : r.kind.callbackKind.isResponse = false → ∃ after,
      r₁.emitter.sent = r.emitter.sent ++ .streaming (resultReply (.str r.idText) (resultOf encode (.task task))) :: after := by
    intro hkind
    show ∃ after, (r.emit encode r.emitter (.task task)).sent = _
    rw [emit_streaming hkind, streamEmit]
    cases (StreamEvent.task task).isFinal with
    | true => exact ⟨[.done], List.append_assoc _ _ _⟩
    | false => exact ⟨[], rfl⟩
  -- the handler is about to add its callback
  have hadds : ∀ id', Next encode taskId x i r (.ok (x.server, { r₁ with phase := .addEventCallback id' })) := by
    intro id'
    refine h.go hr hopen (fun _ => rfl) (fun hne => hne) haccepted rfl rfl rfl honce fun hkind _ => ?_
    obtain ⟨after, hafter⟩ := hsent (by rw [show r.kind = .stream from hkind]; rfl)
    show r₁.emitter.sent ≠ []
    rw [hafter]
    simp
  rw [Request.advance, hphase]
  dsimp only
  rw [← htask]
  by_cases hkind : r.kind = .resubscribe
  · rw [if_pos hkind]
    by_cases hfinal : task.status.state.isFinalOrInterrupted = true
    · rw [if_pos hfinal]
      have hnone : r₁.callback = none := (hk.early hopen).1
      have hdue : r₁.due = false := (hk.early hopen).2.1
      have hgot : Request.GotFinal encode { r₁ with phase := .returned, ended := true } := by
        obtain ⟨after, hafter⟩ := hsent (by rw [show r.kind = .resubscribe from hkind]; rfl)
        refine ⟨r.emitter.sent, .task task, after, hafter, ?_, fun hstream => ?_⟩
        · rw [StreamEvent.isFinal, hfinal, Bool.true_or]
        · cases hkind.symm.trans hstream
      refine h.calm (fun _ => rfl) (fun hne => hne) ⟨trivial, fun hreturned => absurd rfl hreturned, honce, fun hstream => ?_, fun hsome => ?_,
        fun n hn => ?_, fun _ _ _ => ⟨hkind, hgot⟩, fun hd => ?_⟩ fun n hn => ?_
      · cases hkind.symm.trans hstream
      · rw [show ({ r₁ with phase := .returned, ended := true } : Request M).callback = none from hnone] at hsome
        cases hsome
      · cases hnone.symm.trans hn
      · cases hdue.symm.trans hd
      · cases hnone.symm.trans hn
    · rw [if_neg hfinal]
      exact hadds task.id
  · rw [if_neg hkind]
    exact hadds id

theorem Conversation.Kept.addEventCallback {id : String}
    (hphase : r.phase = .addEventCallback id) {info : TaskExecuteInfo} (hreg : x.server.registered id = some info)
    (hfirst : r.kind.callbackKind.isResponse = true → ∀ c ∈ info.eventCb, c.kind.isResponse = false) :
    Next encode taskId x i r (r.advance encode x.server copy throws) := by
  have hopen : r.phase ≠ .returned := by rw [hphase]; rintro ⟨⟩
  have hk := h.requests r hr
  have haccepted := hk.ready
  rw [Request.Ready, hphase] at haccepted
  obtain ⟨hnone, hdue, hended⟩ := hk.early hopen
  obtain rfl := h.entries id info hreg
  set c : Callback := ⟨x.server.callbacks, r.kind.callbackKind⟩ with hc
  have hserver : x.server.addEventCallback id r.kind.callbackKind =
      { x.server with callbacks := x.server.callbacks + 1 }.registerTask id (some { info with eventCb := info.eventCb ++ [c] }) := by
    rw [Server.addEventCallback, hreg]
  have hentry : ∀ id', (x.server.addEventCallback id r.kind.callbackKind).registered id' =
      if id = id' then some { info with eventCb := info.eventCb ++ [c] } else x.server.registered id' := by
    intro id'
    rw [hserver, Server.registered_registerTask]
    rfl
  have htasks : (x.server.addEventCallback id r.kind.callbackKind).tasks = x.server.tasks := by rw [hserver]; rfl
  have hflag := h.flagged info hreg
  -- the flag is clear if the callback is one of `message/send`
  have hclear : r.kind.callbackKind.isResponse = true → info.messageSent = false := by
    intro hkind
    cases hsent : info.messageSent with
    | false => rfl
    | true =>
      obtain ⟨⟨c', hc', hresponse⟩, -⟩ := hflag.sent hsent
      rw [hfirst hkind c' hc'] at hresponse
      cases hresponse
  rw [Request.advance, hphase]
  dsimp only
  refine h.set (fun id' info' hinfo' => ?_) (fun hne => htasks ▸ hne) (fun _ => h.present (by rw [hreg]; rintro ⟨⟩))
    (fun r₁ hr₁ n hn hnot => ?_) ⟨trivial, fun hreturned => absurd rfl hreturned, hk.once, fun hkind _ => hk.greeted hkind (.inl ⟨id, hphase⟩),
      fun _ => haccepted, fun n hn _ => ?_, fun hcallback => ?_, fun hd => ?_⟩ fun info' hinfo' => ?_
  · rw [hentry] at hinfo'
    by_cases hid : id = id'
    · exact hid.symm
    · rw [if_neg hid] at hinfo'
      exact h.entries id' info' hinfo'
  · obtain ⟨info₁, hinfo₁, hmem⟩ := (h.requests r₁ hr₁).waits n hn hnot
    cases hreg.symm.trans hinfo₁
    exact ⟨_, (hentry id).trans (if_pos rfl), List.mem_append_left _ hmem⟩
  · cases hn
    exact ⟨_, (hentry id).trans (if_pos rfl), List.mem_append_right _ (List.mem_singleton_self _)⟩
  · cases hcallback
  · cases hdue.symm.trans hd
  · rw [hentry, if_pos rfl] at hinfo'
    cases hinfo'
    refine ⟨fun c₁ hc₁ c₂ hc₂ hk₁ hk₂ => ?_, fun hsent => ?_⟩
    · rcases List.mem_append.mp hc₁ with hold₁ | hnew₁ <;> rcases List.mem_append.mp hc₂ with hold₂ | hnew₂
      · exact hflag.only c₁ hold₁ c₂ hold₂ hk₁ hk₂
      · rw [List.mem_singleton.mp hnew₂] at hk₂
        rw [hfirst hk₂ c₁ hold₁] at hk₁
        cases hk₁
      · rw [List.mem_singleton.mp hnew₁] at hk₁
        rw [hfirst hk₁ c₂ hold₂] at hk₂
        cases hk₂
      · exact (List.mem_singleton.mp hnew₁).trans (List.mem_singleton.mp hnew₂).symm
    · have hsent : info.messageSent = true := hsent
      have hstreaming : r.kind.callbackKind.isResponse = false := by
        cases hkind : r.kind.callbackKind.isResponse with
        | false => rfl
        | true =>
          rw [hclear hkind] at hsent
          cases hsent
      obtain ⟨⟨c', hc', hresponse⟩, hall⟩ := hflag.sent hsent
      refine ⟨⟨c', List.mem_append_left _ hc', hresponse⟩, fun r₁ hr₁ n hn hkind hmem => ?_⟩
      rcases List.mem_append.mp hmem with hold | hnew
      · rcases List.mem_or_eq_of_mem_set hr₁ with hr₁ | rfl
        · exact hall r₁ hr₁ n hn hkind hold
        · rw [show ({ r with phase := .returned, callback := some x.server.callbacks } : Request M).kind = r.kind from rfl, hstreaming] at hkind
          cases hkind
      · have hsame := congrArg (fun c => c.kind.isResponse) (List.mem_singleton.mp hnew)
        rw [show (⟨n, r₁.kind.callbackKind⟩ : Callback).kind.isResponse = true from hkind] at hsame
        rw [show c.kind.isResponse = false from hstreaming] at hsame
        cases hsame

omit h hr

/-! ## Callbacks are given an event -/

variable {n : ℕ} {event : StreamEvent M P} {info : TaskExecuteInfo} {emissions : List (ℕ × StreamEvent M P)} {final : Bool}

theorem hear_emitter (hcallback : r.callback = none) : (r.hear encode s s' final).emitter = r.emitter := by
  rw [Request.hear, hcallback]
  rfl

theorem hear_emitter_some (hcallback : r.callback = some n) :
    (r.hear encode s s' final).emitter = (Request.sentTo s s' n).foldl (r.emit encode) r.emitter := by
  rw [Request.hear, hcallback]
  rfl

theorem hear_same (hemitted : s'.emitted = s.emitted) : r.hear encode s s' false = r := by
  have hnothing : s'.emitted = s.emitted ++ [] := by rw [hemitted, List.append_nil]
  have hemitter : (r.hear encode s s' false).emitter = r.emitter := by
    cases hcallback : r.callback with
    | none => exact hear_emitter hcallback
    | some n =>
      rw [hear_emitter_some hcallback, sentTo_eq hnothing]
      rfl
  rw [Request.hear] at hemitter ⊢
  simp only [Bool.and_false, Bool.or_false] at hemitter ⊢
  rw [hemitter]

theorem hear_sent (hkind : r.kind.callbackKind.isResponse = false) :
    ∃ later, (r.hear encode s s' final).emitter.sent = r.emitter.sent ++ later ∧
      ∀ n, r.callback = some n → ∀ event ∈ Request.sentTo s s' n,
        ∃ before after, later = before ++ .streaming (resultReply (.str r.idText) (resultOf encode event)) :: after := by
  cases hcallback : r.callback with
  | none => exact ⟨[], by rw [hear_emitter hcallback, List.append_nil], nofun⟩
  | some n =>
    obtain ⟨later, hlater, hall⟩ := @sent_foldl_streamEmit M P encode r.emitter r.idText (Request.sentTo s s' n)
    refine ⟨later, ?_, fun n' hn' => ?_⟩
    · rw [hear_emitter_some hcallback, emit_streaming hkind, hlater]
    · cases hn'
      exact hall

theorem hear_once (hkind : r.kind.callbackKind.isResponse = true) (honce : Once r.emitter) :
    Once (r.hear encode s s' final).emitter ∧
      (r.emitter.responseSent = true → (r.hear encode s s' final).emitter.responseSent = true) ∧
      ∀ n, r.callback = some n → (∃ event ∈ Request.sentTo s s' n, event.sendResult?.isSome = true) →
        (r.hear encode s s' final).emitter.responseSent = true := by
  cases hcallback : r.callback with
  | none =>
    rw [hear_emitter hcallback]
    exact ⟨honce, fun hsent => hsent, nofun⟩
  | some n =>
    rw [hear_emitter_some hcallback]
    cases hkind' : r.kind with
    | send blocking =>
      obtain ⟨honce', hsent⟩ := @Once.foldl M P encode r _ honce blocking hkind' (Request.sentTo s s' n)
      refine ⟨honce', fun hold => hsent (.inl hold), fun n' hn' hevents => ?_⟩
      cases hn'
      exact hsent (.inr hevents)
    | stream | resubscribe =>
      rw [hkind'] at hkind
      cases hkind

theorem hear_answers (hkind : r.kind.callbackKind.isResponse = true) (honce : Once r.emitter) (hcallback : r.callback = some n)
    (hmem : ⟨n, r.kind.callbackKind⟩ ∈ info.eventCb) (hclear : info.messageSent = false) (hflagged : Flagged x.requests info)
    (hemitted : s'.emitted = s.emitted ++ emissions) (hspec : Emissions event info.messageSent info.eventCb emissions)
    (hanswers : Callback.answers event.isFinal ⟨n, r.kind.callbackKind⟩ = true) :
    (r.hear encode s s' final).emitter.responseSent = true := by
  rw [hclear] at hspec
  obtain ⟨e, hresult, he⟩ := hspec.response hmem hanswers fun c' hc' hresponse => hflagged.only c' hc' _ hmem hresponse hkind
  exact (hear_once hkind honce).2.2 n hcallback ⟨e, mem_sentTo hemitted he, hresult⟩

theorem Request.Kept.served_of_final (h : r.Kept encode taskId s) (hreg : s.registered taskId = some info)
    (hflagged : Flagged x.requests info) (hr : r ∈ x.requests) (hemitted : s'.emitted = s.emitted ++ emissions)
    (hspec : Emissions event info.messageSent info.eventCb emissions) (hfinal : event.isFinal = true)
    (hcallback : r.callback = some n) : (r.hear encode s s' true).served = true ∧
      (r.kind.callbackKind.isResponse = false → (r.hear encode s s' true).GotFinal encode) := by
  have haccepted : r.accepted = true := h.accepted (by rw [hcallback]; rfl)
  cases hkind : r.kind.callbackKind.isResponse with
  | true =>
    refine ⟨?_, nofun⟩
    have hsent : (r.hear encode s s' true).emitter.responseSent = true := by
      cases hserved : r.emitter.responseSent with
      | true => exact (hear_once hkind (h.once hkind)).2.1 hserved
      | false =>
        have hnot : r.served = false := by
          rw [Request.served]
          cases hkind' : r.kind with
          | send blocking => exact hserved
          | stream | resubscribe =>
            rw [hkind'] at hkind
            cases hkind
        obtain ⟨info', hinfo', hmem⟩ := h.waits n hcallback hnot
        cases hreg.symm.trans hinfo'
        have hclear : info.messageSent = false := by
          cases hmessage : info.messageSent with
          | false => rfl
          | true =>
            rw [(hflagged.sent hmessage).2 r hr n hcallback hkind hmem] at hserved
            cases hserved
        refine hear_answers hkind (h.once hkind) hcallback hmem hclear hflagged hemitted hspec ?_
        rw [hfinal, Callback.answers]
        cases hkind' : r.kind.callbackKind with
        | response blocking => rfl
        | streaming =>
          rw [hkind'] at hkind
          cases hkind
    rw [Request.served]
    cases hkind' : (r.hear encode s s' true).kind with
    | send blocking => exact hsent
    | stream | resubscribe =>
      rw [show r.kind = _ from hkind'] at hkind
      cases hkind
  | false =>
    have hdue : (r.hear encode s s' true).due = true := by
      show (r.due || r.accepted && true) = true
      rw [haccepted, Bool.and_self, Bool.or_true]
    have hserved : (r.hear encode s s' true).served = true := by
      rw [Request.served]
      cases hkind' : (r.hear encode s s' true).kind with
      | send blocking =>
        rw [show r.kind = _ from hkind'] at hkind
        cases hkind
      | stream | resubscribe => exact hdue
    refine ⟨hserved, fun _ => ?_⟩
    obtain ⟨later, hlater, hall⟩ := @hear_sent M P encode s s' r true hkind
    cases howed : r.due with
    | true => exact ((h.owed howed).2 hkind).append rfl rfl hlater
    | false =>
      have hnot : r.served = false := by
        rw [Request.served]
        cases hkind' : r.kind with
        | send blocking =>
          rw [hkind'] at hkind
          cases hkind
        | stream | resubscribe => exact howed
      obtain ⟨info', hinfo', hmem⟩ := h.waits n hcallback hnot
      cases hreg.symm.trans hinfo'
      have hstreaming : r.kind.callbackKind = .streaming := by
        cases hkind' : r.kind.callbackKind with
        | streaming => rfl
        | response blocking =>
          rw [hkind'] at hkind
          cases hkind
      obtain ⟨before, after, rfl⟩ := hall n hcallback event (mem_sentTo hemitted (hspec.streaming hmem hstreaming))
      refine ⟨r.emitter.sent ++ before, event, after, by rw [hlater, List.append_assoc]; rfl, hfinal, fun hstream hempty => ?_⟩
      exact h.greeted hstream (.inr (by rw [hcallback]; rfl)) (List.append_eq_nil_iff.mp hempty).1

theorem served_hear (hkind : r.kind.callbackKind.isResponse = true → Once r.emitter) (hserved : r.served = true) :
    (r.hear encode s s' final).served = true := by
  rw [Request.served] at hserved ⊢
  cases hkind' : r.kind with
  | send blocking =>
    have hresponse : r.kind.callbackKind.isResponse = true := by rw [hkind']; rfl
    rw [hkind'] at hserved
    rw [show (r.hear encode s s' final).kind = .send blocking from hkind']
    exact (hear_once hresponse (hkind hresponse)).2.1 hserved
  | stream | resubscribe =>
    rw [hkind'] at hserved
    rw [show (r.hear encode s s' final).kind = _ from hkind']
    show (r.due || r.accepted && final) = true
    rw [show r.due = true from hserved, Bool.true_or]

theorem Request.Kept.hear (h : r.Kept encode taskId s) (hreg : s.registered taskId = some info)
    (hflagged : Flagged x.requests info) (hr : r ∈ x.requests) (hemitted : s'.emitted = s.emitted ++ emissions)
    (hspec : Emissions event info.messageSent info.eventCb emissions)
    (hreg' : event.isFinal = false → ∃ info', s'.registered taskId = some info' ∧ info'.eventCb = info.eventCb)
    (hpresent : s.tasks.lookup taskId ≠ none → s'.tasks.lookup taskId ≠ none)
    (hall : event.isFinal = true → r.accepted = true → r.callback.isSome = true ∨ r.ended = true) :
    (r.hear encode s s' event.isFinal).Kept encode taskId s' where
  ready := Request.Ready.mono h.ready hpresent
  early hphase := by
    obtain ⟨hnone, hdue, hended⟩ := h.early hphase
    have hnot : (r.accepted && event.isFinal) = false := by
      cases haccepted : r.accepted with
      | false => rfl
      | true =>
        cases hfinal : event.isFinal with
        | false => rfl
        | true =>
          rcases hall hfinal haccepted with hsome | hend
          · rw [hnone] at hsome
            cases hsome
          · cases hended.symm.trans hend
    refine ⟨hnone, ?_, ?_⟩
    · show (r.due || r.accepted && event.isFinal) = false
      rw [hdue, hnot, Bool.or_self]
    · show (r.ended || r.accepted && event.isFinal) = false
      rw [hended, hnot, Bool.or_self]
  once hkind := (@hear_once M P encode s s' r event.isFinal hkind (h.once hkind)).1
  greeted hkind hor := by
    have hstreaming : r.kind.callbackKind.isResponse = false := by
      rw [show r.kind = .stream from hkind]
      rfl
    obtain ⟨later, hlater, -⟩ := @hear_sent M P encode s s' r event.isFinal hstreaming
    rw [hlater]
    exact fun hempty => h.greeted hkind hor (List.append_eq_nil_iff.mp hempty).1
  accepted := h.accepted
  waits n hn hserved := by
    have hn : r.callback = some n := hn
    have hnot : r.served = false := by
      cases hs : r.served with
      | false => rfl
      | true =>
        rw [served_hear h.once hs] at hserved
        cases hserved
    cases hfinal : event.isFinal with
    | true =>
      rw [hfinal, (h.served_of_final hreg hflagged hr hemitted hspec hfinal hn).1] at hserved
      cases hserved
    | false =>
      obtain ⟨info₁, hinfo₁, hmem⟩ := h.waits n hn hnot
      cases hreg.symm.trans hinfo₁
      obtain ⟨info', hinfo', hsame⟩ := hreg' hfinal
      exact ⟨info', hinfo', hsame ▸ hmem⟩
  quits hnone hended haccepted := by
    have hnone : r.callback = none := hnone
    have hend : r.ended = true := by
      cases hend : r.ended with
      | true => rfl
      | false =>
        have hended : (r.ended || r.accepted && event.isFinal) = true := hended
        rw [hend, show r.accepted = true from haccepted, Bool.false_or, Bool.true_and] at hended
        rcases hall hended haccepted with hsome | hend'
        · rw [hnone] at hsome
          cases hsome
        · exact hend.symm.trans hend'
    obtain ⟨hkind, hgot⟩ := h.quits hnone hend haccepted
    have hsame : (r.hear encode s s' event.isFinal).emitter.sent = r.emitter.sent ++ [] := by
      rw [hear_emitter hnone, List.append_nil]
    exact ⟨hkind, hgot.append rfl rfl hsame⟩
  owed hdue := by
    have hdue : (r.due || r.accepted && event.isFinal) = true := hdue
    cases howed : r.due with
    | true =>
      obtain ⟨hserved, hgot⟩ := h.owed howed
      refine ⟨served_hear h.once hserved, fun hkind => ?_⟩
      obtain ⟨later, hlater, -⟩ := @hear_sent M P encode s s' r event.isFinal hkind
      exact (hgot hkind).append rfl rfl hlater
    | false =>
      -- a final event was processed in this step
      rw [howed, Bool.false_or, Bool.and_eq_true] at hdue
      obtain ⟨haccepted, hfinal⟩ := hdue
      cases hcallback : r.callback with
      | some n =>
        rw [hfinal]
        exact h.served_of_final hreg hflagged hr hemitted hspec hfinal hcallback
      | none =>
        have hend : r.ended = true := by
          rcases hall hfinal haccepted with hsome | hend
          · rw [hcallback] at hsome
            cases hsome
          · exact hend
        obtain ⟨hkind, hgot⟩ := h.quits hcallback hend haccepted
        have hsame : (r.hear encode s s' event.isFinal).emitter.sent = r.emitter.sent ++ [] := by
          rw [hear_emitter hcallback, List.append_nil]
        refine ⟨?_, fun _ => hgot.append rfl rfl hsame⟩
        rw [Request.served, show (r.hear encode s s' event.isFinal).kind = .resubscribe from hkind]
        show (r.due || r.accepted && event.isFinal) = true
        rw [haccepted, hfinal, Bool.and_self, Bool.or_true]

theorem Conversation.Kept.hear (h : x.Kept encode taskId) (hheard : Server.Heard taskId final x.server s')
    (hall : final = true → ∀ r ∈ x.requests, r.accepted = true → r.callback.isSome = true ∨ r.ended = true) :
    (x.hear encode s' final).Kept encode taskId := by
  have hentries : ∀ id info', s'.registered id = some info' → id = taskId := by
    intro id info' hinfo'
    obtain ⟨info, hinfo⟩ := hheard.entries id info' hinfo'
    exact h.entries id info hinfo
  rcases hheard.heard with ⟨hemitted, hsame, rfl⟩ | ⟨info, event, emissions, hreg, rfl, hemitted, hspec, hreg'⟩
  · -- nothing is heard
    have hrequests : x.requests.map (fun r => r.hear encode x.server s' false) = x.requests :=
      (List.map_congr_left fun r _ => hear_same hemitted).trans (List.map_id _)
    rw [Conversation.hear, hrequests]
    refine ⟨hentries, fun hne => ?_, fun r hr => (h.requests r hr).frame (hheard.present taskId) fun n hn hnot => ?_, fun info hinfo => ?_⟩
    · rw [show ({ server := s', requests := x.requests } : Conversation M P).server = s' from rfl, hsame] at hne
      exact hheard.present taskId (h.present hne)
    · obtain ⟨info, hinfo, hmem⟩ := (h.requests r hr).waits n hn hnot
      exact ⟨info, hsame.trans hinfo, hmem⟩
    · exact h.flagged info (hsame.symm.trans hinfo)
  · have hflagged := h.flagged info hreg
    refine ⟨hentries, fun _ => hheard.present taskId (h.present (by rw [hreg]; nofun)), fun r' hr' => ?_, fun info' hinfo' => ?_⟩
    · obtain ⟨r, hr, rfl⟩ := List.mem_map.mp hr'
      refine (h.requests r hr).hear hreg hflagged hr hemitted hspec (fun hfinal => ?_) (hheard.present taskId) fun hfinal =>
        hall hfinal r hr
      rw [hfinal, if_neg (by simp)] at hreg'
      exact ⟨_, hreg', rfl⟩
    · cases hfinal : event.isFinal with
      | true =>
        rw [hfinal, if_pos rfl] at hreg'
        cases hreg'.symm.trans hinfo'
      | false =>
        rw [hfinal, if_neg (by simp)] at hreg'
        cases hreg'.symm.trans hinfo'
        refine ⟨hflagged.only, fun hsent => ?_⟩
        have hsent : (info.messageSent || info.eventCb.any (Callback.answers false)) = true := hsent
        -- the flag is as before, or it was set by the only callback of `message/send`
        have hanswered : ∀ r ∈ x.requests, ∀ n, r.callback = some n → r.kind.callbackKind.isResponse = true →
            ⟨n, r.kind.callbackKind⟩ ∈ info.eventCb → (r.hear encode x.server s' event.isFinal).emitter.responseSent = true := by
          intro r hr n hn hkind hmem
          have honce := (h.requests r hr).once hkind
          cases hmessage : info.messageSent with
          | true => exact (hear_once hkind honce).2.1 ((hflagged.sent hmessage).2 r hr n hn hkind hmem)
          | false =>
            rw [hmessage, Bool.false_or] at hsent
            obtain ⟨c, hc, hanswers⟩ := List.any_eq_true.mp hsent
            obtain rfl := hflagged.only c hc ⟨n, r.kind.callbackKind⟩ hmem (Callback.isResponse_of_answers hanswers) hkind
            exact hear_answers hkind honce hn hmem hmessage hflagged hemitted hspec (by rw [hfinal]; exact hanswers)
        refine ⟨?_, fun r' hr' n hn hkind hmem => ?_⟩
        · cases hmessage : info.messageSent with
          | true => exact (hflagged.sent hmessage).1
          | false =>
            rw [hmessage, Bool.false_or] at hsent
            obtain ⟨c, hc, hanswers⟩ := List.any_eq_true.mp hsent
            exact ⟨c, hc, Callback.isResponse_of_answers hanswers⟩
        · obtain ⟨r, hr, rfl⟩ := List.mem_map.mp hr'
          exact hanswered r hr n hn hkind hmem

/-! ## Runs -/

variable {merge : String → String → Option String} {method : Method M}

theorem Method.kept (hnames : method.Names taskId) (id : Option Json) :
    ({ kind := method.kind, id := id, phase := method.phase } : Request M).Kept encode taskId s := by
  have hready : ({ kind := method.kind, id := id, phase := method.phase } : Request M).Ready taskId s := by
    cases method with
    | sendMessage params | sendMessageStreaming params => exact ⟨nofun, rfl, hnames⟩
    | resubscribeToTask id => exact ⟨hnames, fun _ => rfl, fun hkind => absurd rfl hkind⟩
  refine ⟨hready, fun _ => ⟨rfl, rfl, rfl⟩, fun _ => Once.new, fun _ hor => ?_, nofun, nofun, fun _ => nofun, nofun⟩
  rcases hor with ⟨id, hadd⟩ | hsome
  · cases method <;> cases hadd
  · cases hsome

variable (h : x.Kept encode taskId)
include h

theorem Conversation.Kept.push (hr : r.Kept encode taskId x.server) (hcallback : r.callback = none) :
    Conversation.Kept encode taskId { x with requests := x.requests ++ [r] } where
  entries := h.entries
  present := h.present
  requests r' hr' := by
    rcases List.mem_append.mp hr' with hold | hnew
    · exact h.requests r' hold
    · rw [List.mem_singleton.mp hnew]
      exact hr
  flagged info hinfo := by
    refine ⟨(h.flagged info hinfo).only, fun hsent => ⟨((h.flagged info hinfo).sent hsent).1, fun r' hr' n hn hkind hmem => ?_⟩⟩
    rcases List.mem_append.mp hr' with hold | hnew
    · exact ((h.flagged info hinfo).sent hsent).2 r' hold n hn hkind hmem
    · rw [List.mem_singleton.mp hnew, hcallback] at hn
      cases hn

theorem Conversation.Kept.executorThrows (hr : r ∈ x.requests) (hsome : r.callback.isSome = true)
    (thrown : Thrown) : Conversation.Kept encode taskId { x with requests := x.requests.set i (r.fail thrown) } := by
  have hk := h.requests r hr
  have hsent : ∀ hkind : r.kind.callbackKind.isResponse = true, Once (r.fail thrown).emitter ∧ (r.fail thrown).emitter.responseSent = true := by
    intro hkind
    cases hkind' : r.kind with
    | send blocking => exact fail_send (hk.once hkind) hkind' thrown
    | stream | resubscribe =>
      rw [hkind'] at hkind
      cases hkind
  have hserved : r.served = true → (r.fail thrown).served = true := by
    intro hs
    rw [Request.served] at hs ⊢
    cases hkind : r.kind with
    | send blocking =>
      rw [show (r.fail thrown).kind = .send blocking from hkind]
      exact (hsent (by rw [hkind]; rfl)).2
    | stream | resubscribe =>
      rw [hkind] at hs
      rw [show (r.fail thrown).kind = _ from hkind]
      exact hs
  refine h.calm (fun _ => rfl) (fun hne => hne) ⟨trivial, fun hreturned => absurd rfl hreturned, fun hkind => (hsent hkind).1, fun hkind _ => ?_,
    hk.accepted, fun n hn hnot => ?_, fun hnone _ _ => ?_, fun hdue => ?_⟩ fun n _ hkind => (hsent hkind).2
  · obtain ⟨later, hlater⟩ := @fail_stream M r (by rw [show r.kind = .stream from hkind]; rfl) thrown
    rw [hlater]
    exact fun hempty => hk.greeted hkind (.inr hsome) (List.append_eq_nil_iff.mp hempty).1
  · refine hk.waits n hn ?_
    cases hs : r.served with
    | false => rfl
    | true =>
      rw [hserved hs] at hnot
      cases hnot
  · rw [show r.callback = none from hnone] at hsome
    cases hsome
  · obtain ⟨howed, hgot⟩ := hk.owed hdue
    refine ⟨hserved howed, fun hkind => ?_⟩
    obtain ⟨later, hlater⟩ := @fail_stream M r hkind thrown
    exact (hgot hkind).append rfl rfl hlater

theorem Conversation.Kept.advance (hsafe : x.Safe merge taskId (.advance i copy throws)) :
    (x.step encode merge taskId (.advance i copy throws)).Kept encode taskId := by
  rw [Conversation.step]
  cases hget : x.requests[i]? with
  | none => exact h
  | some r =>
    have hr : r ∈ x.requests := List.mem_of_getElem? hget
    have hcondition := hsafe r hget
    have hnext : r.phase ≠ .returned → Next encode taskId x i r (r.advance encode x.server copy throws) := by
      intro hopen
      cases hphase : r.phase with
      | determineTaskId params => exact h.determineTaskId hr hphase
      | checkState params o => exact h.checkState hr hphase
      | createNewTask params => exact h.createNewTask hr hphase
      | getTask id => exact h.getTask hr hphase
      | registerTask id existing message =>
        rw [hphase] at hcondition
        exact h.registerTask hr hphase hcondition
      | updateWithMessage id o message => exact h.updateWithMessage hr hphase
      | exchangeMessageSent id => exact h.exchangeMessageSent hr hphase
      | emitTask id existing =>
        rw [hphase] at hcondition
        have hquiet : throws = none := hcondition
        rw [hquiet]
        exact h.emitTask hr hphase
      | addEventCallback id =>
        rw [hphase] at hcondition
        obtain ⟨info, hreg, hfirst⟩ := hcondition
        exact h.addEventCallback hr hphase hreg hfirst
      | returned => exact absurd hphase hopen
    cases hphase : r.phase with
    | returned =>
      have hadvance : r.advance encode x.server copy throws = .ok (x.server, r) := by
        rw [Request.advance, hphase]
      have hsame : x.requests.set i r = x.requests := by
        obtain ⟨hlt, rfl⟩ := List.getElem?_eq_some_iff.mp hget
        exact List.set_getElem_self hlt
      dsimp only
      rw [hadvance]
      dsimp only
      rw [hsame]
      exact h
    | _ =>
      have hnext := hnext (by rw [hphase]; nofun)
      dsimp only
      cases hadvance : r.advance encode x.server copy throws with
      | error | ok =>
        rw [hadvance] at hnext
        exact hnext

theorem Conversation.Kept.heard_endCancel (merge : String → String → Option String) {k : ℕ} {w : Choices}
    (hquiet : w.Quiet (x.server.registered taskId)) :
    Server.Heard taskId (x.cancels k) x.server (x.server.step merge (.endCancel k w)) := by
  rw [Server.step, Conversation.cancels]
  cases x.server.cancels[k]? with
  | none => exact Server.Heard.refl taskId x.server
  | some o =>
    obtain ⟨hcallbacks, hpresent, hentries, hcases⟩ := Server.heard_cancelTask h.present h.entries hquiet o
    exact ⟨hcallbacks, hpresent, hentries, hcases⟩

theorem Conversation.Kept.step (e : ConversationEvent M P) (hnames : e.Names taskId)
    (hsafe : x.Safe merge taskId e) : (x.step encode merge taskId e).Kept encode taskId := by
  cases e with
  | arrive id method refusal =>
    have hr := @Method.kept M P encode taskId x.server method hnames id
    have hopen : method.phase ≠ .returned := by cases method <;> nofun
    have hrefused : ∀ thrown, Conversation.Kept encode taskId { x with requests := x.requests ++
        [({ kind := method.kind, id := id, phase := method.phase } : Request M).fail thrown] } := fun thrown =>
      h.push (hr.refuse hopen rfl thrown) rfl
    rw [Conversation.step.eq_def]
    dsimp only
    cases (id.map getString).getD (.ok "") with
    | error thrown => exact hrefused thrown
    | ok text =>
      cases refusal with
      | some thrown => exact hrefused thrown
      | none => exact h.push hr rfl
  | advance i copy throws => exact h.advance hsafe
  | executorThrows i thrown =>
    rw [Conversation.step]
    cases hget : x.requests[i]? with
    | none => exact h
    | some r =>
      dsimp only
      by_cases hruns : (r.callback.isSome && r.kind ≠ .resubscribe) = true
      · rw [if_pos hruns]
        exact h.executorThrows (List.mem_of_getElem? hget) (Bool.and_eq_true_iff.mp hruns).1 thrown
      · rw [if_neg hruns]
        exact h
  | process event w => exact h.hear (Server.heard_process h.present hnames hsafe.1) hsafe.2
  | beginCancel copy =>
    have hsame : (∀ id, (x.server.step merge (.beginCancel taskId copy)).registered id = x.server.registered id) ∧
        (x.server.step merge (.beginCancel taskId copy)).tasks = x.server.tasks := by
      rw [Server.step, Server.beginCancel.eq_def]
      rcases hget : x.server.get taskId copy with ⟨s₁, fetched⟩
      cases fetched with
      | none => exact ⟨fun _ => rfl, rfl⟩
      | some o =>
        dsimp only
        cases (s₁.objects o).status.state.isFinal with
        | true => exact ⟨fun _ => rfl, rfl⟩
        | false =>
          obtain ⟨o', -, ⟨-, -, rfl⟩ | ⟨-, -, rfl⟩⟩ := Server.get_cases hget
          · exact ⟨fun _ => rfl, rfl⟩
          · exact ⟨fun _ => rfl, rfl⟩
    obtain ⟨hentries, htasks⟩ := hsame
    refine ⟨fun id info hinfo => h.entries id info ((hentries id).symm.trans hinfo), fun hne => ?_, fun r hr => ?_, fun info hinfo =>
      h.flagged info ((hentries taskId).symm.trans hinfo)⟩
    · exact htasks.symm ▸ h.present ((hentries taskId) ▸ hne)
    · refine (h.requests r hr).frame (fun hne => htasks.symm ▸ hne) fun n hn hnot => ?_
      obtain ⟨info, hinfo, hmem⟩ := (h.requests r hr).waits n hn hnot
      exact ⟨info, (hentries taskId).trans hinfo, hmem⟩
  | endCancel k w => exact h.hear (h.heard_endCancel merge hsafe.1) hsafe.2

omit h in
theorem Conversation.Kept.start (tasks : List (Task M P)) : Conversation.Kept encode taskId { server := Server.start tasks } := by
  -- a store is filled without an entry
  have hentries : ∀ (tasks : List (Task M P)) (s : Server M P), (∀ id, s.registered id = none) →
      ∀ id, (tasks.foldl Server.save s).registered id = none := by
    intro tasks
    induction tasks with
    | nil => exact fun s hs => hs
    | cons task tasks ih => exact fun s hs => ih (s.save task) hs
  have hnone : ∀ id, (Server.start tasks).registered id = none := hentries tasks {} fun _ => rfl
  refine ⟨fun id info hinfo => ?_, fun hne => (hne (hnone taskId)).elim,
    fun r hr => absurd hr List.not_mem_nil, fun info hinfo => ?_⟩
  · cases (hnone id).symm.trans hinfo
  · cases (hnone taskId).symm.trans hinfo

theorem Conversation.Kept.answered (hr : r ∈ x.requests) : r.Answered encode := by
  have hk := h.requests r hr
  rw [Request.Answered]
  cases hkind : r.kind with
  | send blocking =>
    have honce := hk.once (by rw [hkind]; rfl)
    refine ⟨honce.length, fun hdue => honce.replies_length ?_⟩
    have hserved := (hk.owed hdue).1
    rw [Request.served, hkind] at hserved
    exact hserved
  | stream | resubscribe => exact fun hdue => (hk.owed hdue).2 (by rw [hkind]; rfl)

omit h

end Invariant

/-- No request is left unanswered in a run whose steps are safe. -/
theorem answered_along (encode : StreamEvent M P → Json) (merge : String → String → Option String) (taskId : String)
    (tasks : List (Task M P)) (es : List (ConversationEvent M P)) (hnames : ∀ e ∈ es, e.Names taskId)
    (hsafe : Along (Conversation.step encode merge taskId) (Conversation.Safe merge taskId) { server := Server.start tasks } es) :
    ∀ pre, pre <+: es → ∀ r ∈ (run (Conversation.step encode merge taskId) { server := Server.start tasks } pre).requests,
      r.Answered encode :=
  (hsafe.and (along_of_forall hnames)).holds (I := fun x => ∀ r ∈ x.requests, r.Answered encode)
    (J := Conversation.Kept encode taskId) (Conversation.Kept.start tasks) (fun _ hx _ hr => hx.answered hr)
    fun _ e hx he => hx.step e he.2 he.1

/-! ## Two runs -/

/-- A message without a task: the handler makes five calls. -/
def newTask : List (ConversationEvent String String) :=
  .arrive (some (.str "1")) (.sendMessage { message := "hi", generatedTaskId := "t", generatedContextId := "c" }) none ::
    List.replicate 5 (.advance 0 false none)

/-- A message to the task: six calls. -/
def sameTask : List (ConversationEvent String String) :=
  .arrive (some (.str "2")) (.sendMessage { message := "and", taskId := some "t", generatedTaskId := "", generatedContextId := "" }) none ::
    List.replicate 6 (.advance 1 false none)

def completes : ConversationEvent String String := .process (.statusUpdate "t" "c" { state := .completed } none) {}

/-- A resubscription to the task: three calls. -/
def resubscribes : List (ConversationEvent String String) :=
  .arrive (some (.str "2")) (.resubscribeToTask "t") none :: List.replicate 3 (.advance 1 false none)

theorem answered_newTask : newTask.length = 6 ∧ ∀ pre, pre <+: newTask ++ resubscribes ++ [completes] →
    ∀ r ∈ (run (Conversation.step (fun _ => .null) (fun _ new => some new) "t") { server := Server.start [] } pre).requests,
      r.Answered (P := String) fun _ => .null := by
  refine ⟨rfl, answered_along (fun _ => .null) (fun _ new => some new) "t" [] (newTask ++ resubscribes ++ [completes]) ?_ ?_⟩
  · intro e he
    fin_cases he
    · exact .inr ⟨rfl, rfl⟩
    all_goals trivial
  · refine ⟨trivial, ?_, ?_, ?_, ?_, ?_, trivial, ?_, ?_, ?_, ?_, trivial⟩
    -- the calls that may go wrong are the registration and the two callbacks
    case refine_3 =>
      rintro r hr
      cases hr
      intro r' hr' hsome
      cases List.mem_singleton.mp hr'
      cases hsome
    case refine_5 =>
      rintro r hr
      cases hr
      exact ⟨_, rfl, fun _ => nofun⟩
    case refine_8 =>
      rintro r hr
      cases hr
      exact ⟨_, rfl, nofun⟩
    case refine_9 =>
      refine ⟨fun _ _ => rfl, fun _ r hr _ => .inl ?_⟩
      fin_cases hr <;> rfl
    all_goals
      rintro r hr
      cases hr
      trivial

/-- The second message takes the place of the first one in the execute map, and the first one is not answered. -/
theorem not_answered_twice : ¬∀ es : List (ConversationEvent String String), (∀ e ∈ es, e.Names "t") →
    ∀ r ∈ (run (Conversation.step (fun _ => .null) (fun _ new => some new) "t") { server := Server.start [] } es).requests,
      r.Answered (P := String) fun _ => .null := by
  intro h
  have hnames : ∀ e ∈ newTask ++ sameTask ++ [completes], e.Names "t" := by
    intro e he
    fin_cases he
    · exact .inr ⟨rfl, rfl⟩
    all_goals first | trivial | exact .inl ⟨rfl, by decide⟩
  obtain ⟨-, hlength⟩ := h _ hnames _ List.mem_cons_self
  cases hlength rfl

end AgentProtocol.A2A
