-- SUMMARY: The JSON-RPC layer of the A2A server: which replies and stream events a request gets, and under which id.
import AgentProtocol.Lib.Json
import AgentProtocol.A2A.Tasks

/-!
# Replies under the id of a request

The id of a request is read in three places: as JSON, for errors and the replies of most methods; as a string with a
default, for what `message/send` and the streaming methods send; and as a string again when an error is built. What is
thrown in a catch block leaves it.

The request handler is an input: what it returns, what it emits and what it throws. So is the text of a result.
-/

namespace AgentProtocol.A2A

open Lib

variable {M P : Type}

/-! ## JSON -/

/-- What a call throws: an `A2AServerError`, or another exception. -/
inductive Thrown where
  | server (statusCode : ℤ) (what : String)
  | std (what : String)

def typeName : Json → String
  | .null => "null"
  | .bool _ => "boolean"
  | .num _ => "number"
  | .str _ => "string"
  | .arr _ => "array"
  | .obj _ => "object"

/-- The conversion of a value to a string. -/
def getString : Json → Except Thrown String
  | .str text => .ok text
  | j => .error (.std ("[json.exception.type_error.302] type must be string, but is " ++ typeName j))

abbrev JsonRpcRequest := Dict String Json

def valueJson (req : JsonRpcRequest) (key : String) (default : Json) : Json := (req.lookup key).getD default

def valueString (req : JsonRpcRequest) (key default : String) : Except Thrown String :=
  match req.lookup key with
  | some j => getString j
  | none => .ok default

/-- `at` -/
def atKey (req : JsonRpcRequest) (key : String) : Except Thrown Json :=
  match req.lookup key with
  | some j => .ok j
  | none => .error (.std ("[json.exception.out_of_range.403] key '" ++ key ++ "' not found"))

abbrev Reply := List (String × Json)

def resultReply (id result : Json) : Reply := [("jsonrpc", .str "2.0"), ("id", id), ("result", result)]

def errorReply (id : Json) (code : ℤ) (message : String) : Reply :=
  [("jsonrpc", .str "2.0"), ("id", id), ("error", .object [("code", .num code.repr), ("message", .str message)])]

/-- `MakeError`. Its id is a string; callers hand it JSON. -/
def makeError (id : Json) (code : ℤ) (message : String) : Except Thrown Reply := do
  let id ← getString id
  return errorReply (.str id) code message

/-! ## The emitter -/

inductive Write where
  | streaming (reply : Reply)
  | nonStreaming (reply : Reply)
  | done

/-- `StreamServerEmitter`, with what it has sent. -/
structure StreamServerEmitter where
  sent : List Write := []
  responseSent : Bool := false

namespace StreamServerEmitter

def writeStreamingData (e : StreamServerEmitter) (reply : Reply) : StreamServerEmitter :=
  { e with sent := e.sent ++ [.streaming reply] }

/-- Only the first one is sent. -/
def writeNonStreamingData (e : StreamServerEmitter) (reply : Reply) : StreamServerEmitter :=
  if e.responseSent then e else { sent := e.sent ++ [.nonStreaming reply], responseSent := true }

def writeDone (e : StreamServerEmitter) : StreamServerEmitter := { e with sent := e.sent ++ [.done] }

end StreamServerEmitter

/-! ## The request handler -/

/-- What `OnSendMessage` answers with. -/
inductive SendResult (M P : Type) where
  | task (task : Task M P)
  | message (message : M)

/-- What becomes of `OnSendMessage`: what its callback emits, and what is thrown. An accepted request is answered, since
the executor ends the task. -/
structure SendOutcome (M P : Type) where
  emitted : List (SendResult M P)
  failure : Option Thrown
  answered : failure = none → emitted ≠ []

/-- What becomes of a streaming method: the task that is emitted first, or what is thrown before; then the events that the
callback is given, and what the executor throws. -/
structure StreamOutcome (M P : Type) where
  task : Except Thrown (Task M P)
  events : List (StreamEvent M P) := []
  failure : Option Thrown := none

/-- What the request handler makes of the `params` of each method, with what reading them throws. -/
structure RequestHandler (M P : Type) where
  onGetCard : Except Thrown Json
  onGetTask : Json → Except Thrown Json
  onCancelTask : Json → Except Thrown Json
  onSetTaskPushNotificationConfig : Json → Except Thrown Json
  onGetTaskPushNotificationConfig : Json → Except Thrown Json
  onListTaskPushNotificationConfigs : Json → Except Thrown Json
  onDeleteTaskPushNotificationConfig : Json → Except Thrown Unit
  onSendMessage : Json → SendOutcome M P
  onSendMessageStreaming : Json → StreamOutcome M P
  onResubscribeToTask : Json → StreamOutcome M P

/-! ## JSONRPCHandler -/

def caught (id : Json) (note : String) : Thrown → Except Thrown Reply
  | .server code what => makeError id code what
  | .std what => makeError id (-32603) (note ++ what)

/-- A method that answers with a result. -/
def replyTo (req : JsonRpcRequest) (call : Except Thrown Json) : Except Thrown Reply :=
  let id := valueJson req "id" .null
  match call with
  | .ok result => .ok (resultReply id result)
  | .error e => caught id "" e

namespace RequestHandler

variable (h : RequestHandler M P) (req : JsonRpcRequest)

def getAgentCard : Except Thrown Reply := replyTo req h.onGetCard

def getTask : Except Thrown Reply := replyTo req (atKey req "params" >>= h.onGetTask)

def cancelTask : Except Thrown Reply := replyTo req (atKey req "params" >>= h.onCancelTask)

def setPushNotificationConfig : Except Thrown Reply := replyTo req (atKey req "params" >>= h.onSetTaskPushNotificationConfig)

def getPushNotificationConfig : Except Thrown Reply := replyTo req (atKey req "params" >>= h.onGetTaskPushNotificationConfig)

def listPushNotificationConfig : Except Thrown Reply := replyTo req (atKey req "params" >>= h.onListTaskPushNotificationConfigs)

def deletePushNotificationConfig : Except Thrown Reply :=
  replyTo req (atKey req "params" >>= fun params => (h.onDeleteTaskPushNotificationConfig params).map fun _ => .null)

end RequestHandler

section Server

variable (encode : StreamEvent M P → Json) (h : RequestHandler M P)

/-- The result of a reply, under the name of its kind. -/
def resultOf (event : StreamEvent M P) : Json :=
  match event with
  | .task _ => .object [("task", encode event)]
  | .message _ => .object [("message", encode event)]
  | .artifactUpdate _ _ _ _ _ _ => .object [("artifactUpdate", encode event)]
  | .statusUpdate _ _ _ _ => .object [("statusUpdate", encode event)]

/-- `CreateStreamEmitter` for a stream: an event, and the end of the stream if it is final. -/
def streamEmit (id : String) (e : StreamServerEmitter) (event : StreamEvent M P) : StreamServerEmitter :=
  let e := e.writeStreamingData (resultReply (.str id) (resultOf encode event))
  if event.isFinal then e.writeDone else e

/-- `CreateStreamEmitter` for a single reply. -/
def nonStreamEmit (id : String) (e : StreamServerEmitter) (result : SendResult M P) : StreamServerEmitter :=
  match result with
  | .task task => e.writeNonStreamingData (resultReply (.str id) (resultOf encode (.task task)))
  | .message message => e.writeNonStreamingData (resultReply (.str id) (resultOf encode (.message message)))

/-- `OnMessageSend`: the error reply, if there is one. -/
def onMessageSend (req : JsonRpcRequest) (id : String) (e : StreamServerEmitter) :
    StreamServerEmitter × Except Thrown (Option Reply) :=
  match atKey req "params" with
  | .error thrown => (e, (caught (valueJson req "id" .null) "" thrown).map some)
  | .ok params =>
    let outcome := h.onSendMessage params
    let e := outcome.emitted.foldl (nonStreamEmit encode id) e
    match outcome.failure with
    | none => (e, .ok none)
    | some thrown => (e, (caught (valueJson req "id" .null) "" thrown).map some)

/-- A streaming method: the task, and then the events. -/
def runStream (id : String) (e : StreamServerEmitter) (outcome : StreamOutcome M P) : StreamServerEmitter × Except Thrown Unit :=
  match outcome.task with
  | .error thrown => (e, .error thrown)
  | .ok task =>
    let e := (.task task :: outcome.events).foldl (streamEmit encode id) e
    match outcome.failure with
    | none => (e, .ok ())
    | some thrown => (e, .error thrown)

/-! ## ServerImpl -/

def isSupportedStreamingMethod (method : String) : Bool := method = "SendStreamingMessage" || method = "SubscribeToTask"

/-- What `HandleStreamingRequest` tries. -/
def streamingBody (streaming : Option Bool) (req : JsonRpcRequest) (method : String) (e : StreamServerEmitter) :
    StreamServerEmitter × Except Thrown Unit :=
  match valueString req "id" "" with
  | .error thrown => (e, .error thrown)
  | .ok id =>
    if !streaming.getD false then (e, .error (.server (-32004) "Streaming is not supported by the agent"))
    else if method = "SendStreamingMessage" then
      match atKey req "params" with
      | .error thrown => (e, .error thrown)
      | .ok params => runStream encode id e (h.onSendMessageStreaming params)
    else if method = "SubscribeToTask" then
      match atKey req "params" with
      | .error thrown => (e, .error thrown)
      | .ok params => runStream encode id e (h.onResubscribeToTask params)
    else
      match makeError (valueJson req "id" .null) (-32601) ("Unsupported streaming method: " ++ method) with
      | .error thrown => (e, .error thrown)
      | .ok error => ((e.writeStreamingData error).writeDone, .ok ())

/-- `HandleStreamingRequest`. What building an error reply throws leaves it. -/
def handleStreamingRequest (streaming : Option Bool) (req : JsonRpcRequest) (method : String) (e : StreamServerEmitter) :
    StreamServerEmitter × Except Thrown Unit :=
  match streamingBody encode h streaming req method e with
  | (e, .ok ()) => (e, .ok ())
  | (e, .error thrown) =>
    match caught (valueJson req "id" .null) "Streaming error: " thrown with
    | .error escaped => (e, .error escaped)
    | .ok error => ((e.writeStreamingData error).writeDone, .ok ())

/-- `ProcessStandardJsonRpc`: the body of the response, which may be empty. -/
def processStandardJsonRpc (req : JsonRpcRequest) (method : String) (e : StreamServerEmitter) :
    StreamServerEmitter × Except Thrown (Option Reply) :=
  if method = "GetAgentCard" then (e, (h.getAgentCard req).map some)
  else if method = "SendMessage" then
    match valueString req "id" "" with
    | .error thrown => (e, .error thrown)
    | .ok id => onMessageSend encode h req id e
  else if method = "GetTask" then (e, (h.getTask req).map some)
  else if method = "CancelTask" then (e, (h.cancelTask req).map some)
  else if method = "CreateTaskPushNotificationConfig" then (e, (h.setPushNotificationConfig req).map some)
  else if method = "GetTaskPushNotificationConfig" then (e, (h.getPushNotificationConfig req).map some)
  else if method = "ListTaskPushNotificationConfigs" then (e, (h.listPushNotificationConfig req).map some)
  else if method = "DeleteTaskPushNotificationConfig" then (e, (h.deletePushNotificationConfig req).map some)
  else (e, .ok (some (errorReply (valueJson req "id" .null) (-32601) ("Method not found: " ++ method))))

/-- The RPC handler: the body of the response. -/
def rpcHandler (streaming : Option Bool) (req : JsonRpcRequest) (e : StreamServerEmitter) : StreamServerEmitter × Option Reply :=
  let internalError (e : StreamServerEmitter) : Thrown → StreamServerEmitter × Option Reply
    | .server _ what | .std what => (e, some (errorReply .null (-32603) ("Internal error: " ++ what)))
  match valueString req "method" "" with
  | .error thrown => internalError e thrown
  | .ok method =>
    if isSupportedStreamingMethod method then
      match handleStreamingRequest encode h streaming req method e with
      | (e, .ok ()) => (e, none)
      | (e, .error thrown) => internalError e thrown
    else
      match processStandardJsonRpc encode h req method e with
      | (e, .ok body) => (e, body)
      | (e, .error thrown) => internalError e thrown

/-- The transport. The body of the response is sent for a method that does not stream. -/
def handleRequest (streaming : Option Bool) (req : JsonRpcRequest) : StreamServerEmitter :=
  let isStreaming := match valueString req "method" "" with
    | .ok method => isSupportedStreamingMethod method
    | .error _ => false
  match rpcHandler encode h streaming req {} with
  | (e, body) =>
    if isStreaming then e
    else
      match body with
      | some reply => e.writeNonStreamingData reply
      | none => e

end Server

/-! ## What is promised -/

def Write.reply? : Write → Option Reply
  | .streaming reply | .nonStreaming reply => some reply
  | .done => none

def StreamServerEmitter.replies (e : StreamServerEmitter) : List Reply := e.sent.filterMap Write.reply?

/-- A reply has the id of its request; to one without an id it has none, or null. -/
def Carries (id : Option Json) (reply : Reply) : Prop :=
  match id with
  | some id => reply.lookup "id" = some id
  | none => reply.lookup "id" = none ∨ reply.lookup "id" = some .null

/-- A streaming request does not succeed. -/
def StreamFails (h : RequestHandler M P) (streaming : Option Bool) (req : JsonRpcRequest) (method : String) : Prop :=
  streaming.getD false = false ∨
    match atKey req "params" with
    | .error _ => True
    | .ok params =>
      let outcome := if method = "SendStreamingMessage" then h.onSendMessageStreaming params else h.onResubscribeToTask params
      (∃ thrown, outcome.task = .error thrown) ∨ outcome.failure ≠ none

structure Answered (encode : StreamEvent M P → Json) (h : RequestHandler M P) (streaming : Option Bool) (req : JsonRpcRequest)
    (method : String) : Prop where
  own : ∀ reply ∈ (handleRequest encode h streaming req).replies, Carries (req.lookup "id") reply
  some : (handleRequest encode h streaming req).replies ≠ []
  closed : isSupportedStreamingMethod method = true → StreamFails h streaming req method →
    ∃ before, (handleRequest encode h streaming req).sent = before ++ [.done]

/-- What a method that answers at once has for its answer. -/
def standardCall (h : RequestHandler M P) (req : JsonRpcRequest) (method : String) : Option (Except Thrown Json) :=
  if method = "GetAgentCard" then some h.onGetCard
  else if method = "GetTask" then some (atKey req "params" >>= h.onGetTask)
  else if method = "CancelTask" then some (atKey req "params" >>= h.onCancelTask)
  else if method = "CreateTaskPushNotificationConfig" then some (atKey req "params" >>= h.onSetTaskPushNotificationConfig)
  else if method = "GetTaskPushNotificationConfig" then some (atKey req "params" >>= h.onGetTaskPushNotificationConfig)
  else if method = "ListTaskPushNotificationConfigs" then some (atKey req "params" >>= h.onListTaskPushNotificationConfigs)
  else if method = "DeleteTaskPushNotificationConfig" then
    some (atKey req "params" >>= fun params => (h.onDeleteTaskPushNotificationConfig params).map fun _ => .null)
  else none

/-- The requests that are answered under their ids. Their id is a string; or they do not stream, and it is null, or it is
missing and no reply of `message/send` is sent, or it is another value and they are answered at once, without an error. -/
def AnsweredWhen (h : RequestHandler M P) (req : JsonRpcRequest) (method : String) : Prop :=
  match req.lookup "id" with
  | some (.str _) => True
  | some .null => isSupportedStreamingMethod method = false
  | none => isSupportedStreamingMethod method = false ∧
      (method = "SendMessage" → ∀ params, atKey req "params" = .ok params → (h.onSendMessage params).emitted = [])
  | some _ => isSupportedStreamingMethod method = false ∧ method ≠ "SendMessage" ∧
      ∀ thrown, standardCall h req method ≠ some (.error thrown)

/-! ## Replies and errors -/

section Lemmas

variable {encode : StreamEvent M P → Json} {h : RequestHandler M P} {streaming : Option Bool} {req : JsonRpcRequest}
  {method id : String} {e : StreamServerEmitter}

@[simp] theorem lookup_errorReply (j : Json) (code : ℤ) (message : String) : (errorReply j code message).lookup "id" = some j := rfl

@[simp] theorem lookup_resultReply (j result : Json) : (resultReply j result).lookup "id" = some j := rfl

/-- A string, as the ids that errors are built with. -/
def IsString (j : Json) : Prop := ∃ text, j = .str text

theorem getString_of_not (j : Json) (hj : ¬IsString j) : ∃ thrown, getString j = .error thrown := by
  cases j with
  | str text => exact absurd ⟨text, rfl⟩ hj
  | _ => exact ⟨_, rfl⟩

theorem caught_str (text note : String) (thrown : Thrown) :
    ∃ code message, caught (.str text) note thrown = .ok (errorReply (.str text) code message) := by
  cases thrown with
  | server code what => exact ⟨code, what, rfl⟩
  | std what => exact ⟨-32603, note ++ what, rfl⟩

theorem caught_of_not {j : Json} (hj : ¬IsString j) (note : String) (thrown : Thrown) :
    ∃ escaped, caught j note thrown = .error escaped := by
  obtain ⟨escaped, hescaped⟩ := getString_of_not j hj
  refine ⟨escaped, ?_⟩
  cases thrown <;> simp [caught, makeError, hescaped, bind, Except.bind]

theorem not_isString_null : ¬IsString .null := by
  rintro ⟨text, htext⟩
  cases htext

@[simp] theorem replies_writeStreamingData (reply : Reply) : (e.writeStreamingData reply).replies = e.replies ++ [reply] := by
  simp [StreamServerEmitter.replies, StreamServerEmitter.writeStreamingData, Write.reply?]

@[simp] theorem replies_writeDone : e.writeDone.replies = e.replies := by
  simp [StreamServerEmitter.replies, StreamServerEmitter.writeDone, Write.reply?]

def Marked (e : StreamServerEmitter) : Prop := e.responseSent = true ↔ e.replies ≠ []

theorem Marked.write (hmarked : Marked e) (reply : Reply) : Marked (e.writeNonStreamingData reply) ∧
      (e.writeNonStreamingData reply).replies = if e.replies = [] then [reply] else e.replies := by
  rw [StreamServerEmitter.writeNonStreamingData]
  by_cases hsent : e.responseSent = true
  · rw [if_pos hsent, if_neg (hmarked.mp hsent)]
    exact ⟨hmarked, rfl⟩
  · have hnone : e.replies = [] := not_not.mp (mt hmarked.mpr hsent)
    have hreplies : (e.sent ++ [Write.nonStreaming reply]).filterMap Write.reply? = [reply] := by
      rw [List.filterMap_append, show e.sent.filterMap Write.reply? = [] from hnone]
      rfl
    rw [if_neg hsent, if_pos hnone]
    refine ⟨⟨fun _ => ?_, fun _ => rfl⟩, hreplies⟩
    show (e.sent ++ [Write.nonStreaming reply]).filterMap Write.reply? ≠ []
    rw [hreplies]
    exact List.cons_ne_nil _ _

theorem replies_foldl_streamEmit (events : List (StreamEvent M P)) : (events.foldl (streamEmit encode id) e).replies =
      e.replies ++ events.map fun event => resultReply (.str id) (resultOf encode event) := by
  induction events generalizing e with
  | nil => simp
  | cons event events ih =>
    have hfirst : (streamEmit encode id e event).replies = e.replies ++ [resultReply (.str id) (resultOf encode event)] := by
      rw [streamEmit]
      split <;> simp
    rw [List.foldl_cons, ih, hfirst, List.map_cons, List.append_assoc, List.singleton_append]

theorem replies_foldl_nonStreamEmit (results : List (SendResult M P)) (hmarked : Marked e)
    (hid : ∀ reply ∈ e.replies, reply.lookup "id" = some (.str id)) : Marked (results.foldl (nonStreamEmit encode id) e) ∧
      (∀ reply ∈ (results.foldl (nonStreamEmit encode id) e).replies, reply.lookup "id" = some (.str id)) ∧
      ((results.foldl (nonStreamEmit encode id) e).replies = [] ↔ results = [] ∧ e.replies = []) := by
  induction results generalizing e with
  | nil => exact ⟨hmarked, hid, by simp⟩
  | cons result results ih =>
    obtain ⟨reply, hreply, hemit⟩ : ∃ reply : Reply, reply.lookup "id" = some (.str id) ∧
        nonStreamEmit encode id e result = e.writeNonStreamingData reply := by
      cases result with
      | task | message => exact ⟨_, rfl, rfl⟩
    obtain ⟨hmarked', hreplies⟩ := hmarked.write reply
    have hid' : ∀ r ∈ (e.writeNonStreamingData reply).replies, r.lookup "id" = some (.str id) := by
      intro r hr
      rw [hreplies] at hr
      split at hr
      · rw [List.mem_singleton.mp hr]
        exact hreply
      · exact hid r hr
    have hsome : (e.writeNonStreamingData reply).replies ≠ [] := by
      rw [hreplies]
      split
      · exact List.cons_ne_nil _ _
      next hne => exact hne
    rw [List.foldl_cons, hemit]
    obtain ⟨hmarked'', hid'', hnone⟩ := ih hmarked' hid'
    refine ⟨hmarked'', hid'', ?_⟩
    rw [hnone]
    simp [hsome]

/-! ## Methods that stream -/

theorem runStream_cases (outcome : StreamOutcome M P) :
    (∀ reply ∈ (runStream encode id {} outcome).1.replies, reply.lookup "id" = some (.str id)) ∧
      ((runStream encode id {} outcome).2 = .ok () →
        (runStream encode id {} outcome).1.replies ≠ [] ∧ (∀ thrown, outcome.task ≠ .error thrown) ∧ outcome.failure = none) := by
  cases htask : outcome.task with
  | error thrown =>
    have hrun : runStream encode id {} outcome = ({}, .error thrown) := by rw [runStream, htask]
    rw [hrun]
    exact ⟨fun reply => nofun, nofun⟩
  | ok task =>
    have hrun : (runStream encode id {} outcome).1 = (.task task :: outcome.events).foldl (streamEmit encode id) {} := by
      rw [runStream, htask]
      cases outcome.failure <;> rfl
    have hreplies := @replies_foldl_streamEmit M P encode id {} (.task task :: outcome.events)
    rw [hrun, hreplies]
    refine ⟨fun reply hreply => ?_, fun hok => ⟨by simp, fun thrown hthrown => (by cases hthrown), ?_⟩⟩
    · rcases List.mem_append.mp hreply with hreply | hreply
      · cases hreply
      obtain ⟨event, -, rfl⟩ := List.mem_map.mp hreply
      rfl
    · cases hfailure : outcome.failure with
      | none => rfl
      | some thrown =>
        rw [runStream, htask, hfailure] at hok
        cases hok

theorem streamingBody_cases (hid : valueString req "id" "" = .ok id) (hmethod : isSupportedStreamingMethod method = true) :
    (∀ reply ∈ (streamingBody encode h streaming req method {}).1.replies, reply.lookup "id" = some (.str id)) ∧
      ((streamingBody encode h streaming req method {}).2 = .ok () →
        (streamingBody encode h streaming req method {}).1.replies ≠ [] ∧ ¬StreamFails h streaming req method) := by
  have hnothing : ∀ thrown, streamingBody encode h streaming req method {} = ({}, .error thrown) →
      (∀ reply ∈ (streamingBody encode h streaming req method {}).1.replies, reply.lookup "id" = some (.str id)) ∧
        ((streamingBody encode h streaming req method {}).2 = .ok () →
          (streamingBody encode h streaming req method {}).1.replies ≠ [] ∧ ¬StreamFails h streaming req method) := by
    intro thrown hbody
    rw [hbody]
    exact ⟨fun reply => nofun, nofun⟩
  have hone : method = "SendStreamingMessage" ∨ method ≠ "SendStreamingMessage" ∧ method = "SubscribeToTask" := by
    by_cases hone : method = "SendStreamingMessage"
    · exact .inl hone
    · exact .inr ⟨hone, by simpa [isSupportedStreamingMethod, hone] using hmethod⟩
  cases hstreaming : streaming.getD false with
  | false =>
    refine hnothing (.server (-32004) "Streaming is not supported by the agent") ?_
    rw [streamingBody, hid]
    simp only [hstreaming, Bool.not_false, if_true]
  | true =>
    cases hparams : atKey req "params" with
    | error thrown =>
      refine hnothing thrown ?_
      rw [streamingBody, hid]
      simp only [hstreaming, Bool.not_true, Bool.false_eq_true, if_false, hparams]
      rcases hone with hone | ⟨hne, hone⟩
      · rw [if_pos hone]
      · rw [if_neg hne, if_pos hone]
    | ok params =>
      obtain ⟨outcome, hbody, houtcome⟩ : ∃ outcome, streamingBody encode h streaming req method {} = runStream encode id {} outcome ∧
          (if method = "SendStreamingMessage" then h.onSendMessageStreaming params else h.onResubscribeToTask params) = outcome := by
        rw [streamingBody, hid]
        simp only [hstreaming, Bool.not_true, Bool.false_eq_true, if_false, hparams]
        rcases hone with hone | ⟨hne, hone⟩
        · exact ⟨h.onSendMessageStreaming params, by rw [if_pos hone], by rw [if_pos hone]⟩
        · exact ⟨h.onResubscribeToTask params, by rw [if_neg hne, if_pos hone], by rw [if_neg hne]⟩
      rw [hbody]
      obtain ⟨hown, hdone⟩ := @runStream_cases M P encode id outcome
      refine ⟨hown, fun hok => ?_⟩
      obtain ⟨hsome, htask, hfailure⟩ := hdone hok
      refine ⟨hsome, ?_⟩
      rw [StreamFails, hparams]
      dsimp only
      rw [houtcome, hstreaming]
      rintro (hfalse | ⟨thrown, hthrown⟩ | hne)
      · cases hfalse
      · exact htask thrown hthrown
      · exact hne hfailure

theorem handleStreamingRequest_string {text : String} (hid : req.lookup "id" = some (.str text))
    (hmethod : isSupportedStreamingMethod method = true) :
    ∃ e : StreamServerEmitter, handleStreamingRequest encode h streaming req method {} = (e, .ok ()) ∧
      (∀ reply ∈ e.replies, reply.lookup "id" = some (.str text)) ∧ e.replies ≠ [] ∧
      (StreamFails h streaming req method → ∃ before, e.sent = before ++ [.done]) := by
  have hvalue : valueString req "id" "" = .ok text := by
    rw [valueString, hid]
    rfl
  have hjson : valueJson req "id" .null = .str text := by
    rw [valueJson, hid]
    rfl
  obtain ⟨hown, hdone⟩ := @streamingBody_cases M P encode h streaming req method text hvalue hmethod
  rw [handleStreamingRequest]
  rcases hbody : streamingBody encode h streaming req method {} with ⟨e, result⟩
  rw [hbody] at hown hdone
  cases result with
  | ok u =>
    obtain ⟨hsome, hnot⟩ := hdone rfl
    exact ⟨e, rfl, hown, hsome, fun hfails => absurd hfails hnot⟩
  | error thrown =>
    obtain ⟨code, message, hcaught⟩ := caught_str text "Streaming error: " thrown
    dsimp only
    rw [hjson, hcaught]
    refine ⟨_, rfl, fun reply hreply => ?_, ?_, fun _ => ⟨_, rfl⟩⟩
    · rw [replies_writeDone, replies_writeStreamingData] at hreply
      rcases List.mem_append.mp hreply with hreply | hreply
      · exact hown reply hreply
      · rw [List.mem_singleton.mp hreply]
        rfl
    · simp

theorem handleStreamingRequest_other (hid : ¬∃ text, req.lookup "id" = some (.str text))
    (hmethod : isSupportedStreamingMethod method = true) :
    (∀ reply ∈ (handleStreamingRequest encode h streaming req method {}).1.replies,
      req.lookup "id" = none ∧ reply.lookup "id" = some (.str "")) := by
  have hjson : ¬IsString (valueJson req "id" .null) := by
    rw [valueJson]
    cases hlookup : req.lookup "id" with
    | none => exact not_isString_null
    | some j =>
      rintro ⟨text, rfl⟩
      exact hid ⟨text, hlookup⟩
  have hsame : (handleStreamingRequest encode h streaming req method {}).1 = (streamingBody encode h streaming req method {}).1 := by
    rw [handleStreamingRequest]
    rcases streamingBody encode h streaming req method {} with ⟨e, result⟩
    cases result with
    | ok u => rfl
    | error thrown =>
      obtain ⟨escaped, hescaped⟩ := caught_of_not hjson "Streaming error: " thrown
      dsimp only
      rw [hescaped]
  rw [hsame]
  cases hlookup : req.lookup "id" with
  | none =>
    have hvalue : valueString req "id" "" = .ok "" := by rw [valueString, hlookup]
    exact fun reply hreply => ⟨rfl, (streamingBody_cases hvalue hmethod).1 reply hreply⟩
  | some j =>
    have hj : ¬IsString j := by
      rintro ⟨text, rfl⟩
      exact hid ⟨text, hlookup⟩
    obtain ⟨thrown, hthrown⟩ := getString_of_not j hj
    have hvalue : valueString req "id" "" = .error thrown := by
      rw [valueString, hlookup]
      exact hthrown
    intro reply hreply
    rw [streamingBody, hvalue] at hreply
    cases hreply

/-! ## Methods that do not stream -/

/-- What the transport sends for a method that does not stream. -/
def finish (e : StreamServerEmitter) : Except Thrown (Option Reply) → StreamServerEmitter
  | .ok none => e
  | .ok (some reply) => e.writeNonStreamingData reply
  | .error (.server _ what) | .error (.std what) => e.writeNonStreamingData (errorReply .null (-32603) ("Internal error: " ++ what))

theorem handleRequest_streaming (hvalue : valueString req "method" "" = .ok method)
    (hmethod : isSupportedStreamingMethod method = true) :
    handleRequest encode h streaming req = (handleStreamingRequest encode h streaming req method {}).1 := by
  rw [handleRequest, rpcHandler, hvalue]
  simp only [hmethod, if_true]
  rcases handleStreamingRequest encode h streaming req method {} with ⟨e, result⟩
  cases result with
  | ok u => rfl
  | error thrown => cases thrown <;> rfl

theorem handleRequest_standard (hvalue : valueString req "method" "" = .ok method)
    (hmethod : isSupportedStreamingMethod method = false) : handleRequest encode h streaming req =
      finish (processStandardJsonRpc encode h req method {}).1 (processStandardJsonRpc encode h req method {}).2 := by
  rw [handleRequest, rpcHandler, hvalue]
  simp only [hmethod, Bool.false_eq_true, if_false]
  rcases processStandardJsonRpc encode h req method {} with ⟨e, result⟩
  cases result with
  | ok body => cases body <;> rfl
  | error thrown => cases thrown <;> rfl

theorem marked_new : Marked {} := by simp [Marked, StreamServerEmitter.replies]

theorem finish_ok_some (hmarked : Marked e) (reply : Reply) :
    (finish e (.ok (some reply))).replies = if e.replies = [] then [reply] else e.replies := (hmarked.write reply).2

theorem finish_error (hmarked : Marked e) (thrown : Thrown) : ∃ message, (finish e (.error thrown)).replies =
      if e.replies = [] then [errorReply .null (-32603) message] else e.replies := by
  cases thrown with
  | server | std => exact ⟨_, (hmarked.write _).2⟩

theorem processStandardJsonRpc_other (hsend : method ≠ "SendMessage") : processStandardJsonRpc encode h req method {} =
      match standardCall h req method with
      | some call => ({}, (replyTo req call).map some)
      | none => ({}, .ok (some (errorReply (valueJson req "id" .null) (-32601) ("Method not found: " ++ method)))) := by
  rw [processStandardJsonRpc, standardCall, if_neg hsend]
  split_ifs <;> rfl

theorem replies_other (hvalue : valueString req "method" "" = .ok method) (hmethod : isSupportedStreamingMethod method = false)
    (hsend : method ≠ "SendMessage") : ∃ reply, (handleRequest encode h streaming req).replies = [reply] ∧
      (reply.lookup "id" = some (valueJson req "id" .null) ∧
          (IsString (valueJson req "id" .null) ∨ ∀ thrown, standardCall h req method ≠ some (.error thrown)) ∨
        reply.lookup "id" = some .null ∧ ¬IsString (valueJson req "id" .null) ∧
          ∃ thrown, standardCall h req method = some (.error thrown)) := by
  rw [handleRequest_standard hvalue hmethod, processStandardJsonRpc_other hsend]
  have hone : ∀ reply, (finish {} (.ok (some reply))).replies = [reply] := fun reply =>
    (finish_ok_some marked_new reply).trans (if_pos rfl)
  cases hcall : standardCall h req method with
  | none => exact ⟨_, hone _, .inl ⟨rfl, .inr fun thrown => nofun⟩⟩
  | some call =>
    cases call with
    | ok result => exact ⟨_, hone (resultReply _ result), .inl ⟨rfl, .inr fun thrown => nofun⟩⟩
    | error thrown =>
      by_cases hstring : IsString (valueJson req "id" .null)
      · obtain ⟨text, htext⟩ := hstring
        obtain ⟨code, message, hcaught⟩ := caught_str text "" thrown
        refine ⟨errorReply (.str text) code message, ?_, .inl ⟨?_, .inl ⟨text, htext⟩⟩⟩
        · dsimp only
          rw [replyTo.eq_def, htext]
          dsimp only
          rw [hcaught]
          exact hone _
        · rw [htext]
          rfl
      · obtain ⟨escaped, hescaped⟩ := caught_of_not hstring "" thrown
        obtain ⟨message, hnull⟩ := finish_error marked_new escaped
        refine ⟨errorReply .null (-32603) message, ?_, .inr ⟨rfl, hstring, thrown, rfl⟩⟩
        dsimp only
        rw [replyTo.eq_def]
        dsimp only
        rw [hescaped]
        exact hnull.trans (if_pos rfl)

theorem replies_send (hvalue : valueString req "method" "" = .ok "SendMessage") (hid : valueString req "id" "" = .ok id) :
    (handleRequest encode h streaming req).replies ≠ [] ∧
      ((∀ reply ∈ (handleRequest encode h streaming req).replies, reply.lookup "id" = some (.str id)) ∧
          (∃ params, atKey req "params" = .ok params ∧ (h.onSendMessage params).emitted ≠ []) ∨
        (∀ params, atKey req "params" = .ok params → (h.onSendMessage params).emitted = []) ∧
          ∃ reply, (handleRequest encode h streaming req).replies = [reply] ∧
            reply.lookup "id" = some (match valueJson req "id" .null with | .str text => .str text | _ => .null)) := by
  -- an error is sent under the id if it is a string, and under null if it is not
  have herror : ∀ thrown, ∃ reply, (finish {} ((caught (valueJson req "id" .null) "" thrown).map some)).replies = [reply] ∧
      reply.lookup "id" = some (match valueJson req "id" .null with | .str text => .str text | _ => .null) := by
    intro thrown
    by_cases hstring : IsString (valueJson req "id" .null)
    · obtain ⟨text, htext⟩ := hstring
      obtain ⟨code, message, hcaught⟩ := caught_str text "" thrown
      rw [htext, hcaught]
      exact ⟨_, (finish_ok_some marked_new _).trans (if_pos rfl), rfl⟩
    · obtain ⟨escaped, hescaped⟩ := caught_of_not hstring "" thrown
      obtain ⟨message, hnull⟩ := finish_error marked_new escaped
      rw [hescaped]
      refine ⟨_, hnull.trans (if_pos rfl), ?_⟩
      cases hj : valueJson req "id" .null with
      | str text => exact absurd ⟨text, hj⟩ hstring
      | _ => rfl
  rw [handleRequest_standard hvalue rfl]
  have hprocess : processStandardJsonRpc encode h req "SendMessage" {} = onMessageSend encode h req id {} := by
    rw [processStandardJsonRpc, if_neg (by decide), if_pos rfl, hid]
  rw [hprocess, onMessageSend]
  cases hparams : atKey req "params" with
  | error thrown =>
    obtain ⟨reply, hreply, hlookup⟩ := herror thrown
    dsimp only
    rw [hreply]
    exact ⟨List.cons_ne_nil _ _, .inr ⟨fun params => nofun, reply, rfl, hlookup⟩⟩
  | ok params =>
    obtain ⟨hmarked, hown, hnone⟩ := @replies_foldl_nonStreamEmit M P encode id {}
      (h.onSendMessage params).emitted marked_new fun reply => nofun
    by_cases hemitted : (h.onSendMessage params).emitted = []
    · cases hfailure : (h.onSendMessage params).failure with
      | none => exact absurd hemitted ((h.onSendMessage params).answered hfailure)
      | some thrown =>
        obtain ⟨reply, hreply, hlookup⟩ := herror thrown
        dsimp only
        rw [hfailure, hemitted, List.foldl_nil]
        dsimp only
        rw [hreply]
        exact ⟨List.cons_ne_nil _ _, .inr ⟨fun params' hsame => by cases hsame; exact hemitted, reply, rfl, hlookup⟩⟩
    · have hsome : ((h.onSendMessage params).emitted.foldl (nonStreamEmit encode id) {}).replies ≠ [] :=
        fun hnil => hemitted (hnone.mp hnil).1
      have hfinish : ∀ result, (finish ((h.onSendMessage params).emitted.foldl (nonStreamEmit encode id) {}) result).replies =
          ((h.onSendMessage params).emitted.foldl (nonStreamEmit encode id) {}).replies := by
        intro result
        cases result with
        | ok body =>
          cases body with
          | none => rfl
          | some reply => exact (finish_ok_some hmarked reply).trans (if_neg hsome)
        | error thrown =>
          obtain ⟨message, hkept⟩ := finish_error hmarked thrown
          exact hkept.trans (if_neg hsome)
      cases hfailure : (h.onSendMessage params).failure with
      | none | some =>
        simp only [hfailure, hfinish]
        exact ⟨hsome, .inl ⟨hown, params, rfl, hemitted⟩⟩

end Lemmas

section Answers

variable {encode : StreamEvent M P → Json} {h : RequestHandler M P} {streaming : Option Bool} {req : JsonRpcRequest}
  {method : String}

theorem answered_streaming (hvalue : valueString req "method" "" = .ok method) (hstream : isSupportedStreamingMethod method = true) :
    Answered encode h streaming req method ↔ ∃ text, req.lookup "id" = some (.str text) := by
  have hrequest := @handleRequest_streaming M P encode h streaming req method hvalue hstream
  by_cases hid : ∃ text, req.lookup "id" = some (.str text)
  · refine ⟨fun _ => hid, fun _ => ?_⟩
    obtain ⟨text, htext⟩ := hid
    obtain ⟨e, hhandle, hown, hsome, hclosed⟩ := @handleStreamingRequest_string M P encode h streaming req
      method text htext hstream
    rw [hhandle] at hrequest
    constructor
    · rw [hrequest, htext]
      exact hown
    · rw [hrequest]
      exact hsome
    · rw [hrequest]
      exact fun _ => hclosed
  · refine ⟨fun hanswered => ?_, fun htext => absurd htext hid⟩
    obtain ⟨reply, hreply⟩ := List.exists_mem_of_ne_nil _ hanswered.some
    have hcarries := hanswered.own reply hreply
    rw [hrequest] at hreply
    obtain ⟨hnone, hempty⟩ := handleStreamingRequest_other hid hstream reply hreply
    rw [hnone, Carries, hempty] at hcarries
    rcases hcarries with hcarries | hcarries <;> cases hcarries

theorem answered_standard (hstream : isSupportedStreamingMethod method = false)
    (hsome : (handleRequest encode h streaming req).replies ≠ []) : Answered encode h streaming req method ↔
      ∀ reply ∈ (handleRequest encode h streaming req).replies, Carries (req.lookup "id") reply :=
  ⟨fun hanswered => hanswered.own, fun hown => ⟨hown, hsome, fun htrue => by rw [hstream] at htrue; cases htrue⟩⟩

theorem answered_send (hvalue : valueString req "method" "" = .ok "SendMessage") :
    Answered encode h streaming req "SendMessage" ↔ AnsweredWhen h req "SendMessage" := by
  cases hid : req.lookup "id" with
  | none =>
    have hjson : valueJson req "id" .null = .null := by rw [valueJson, hid, Option.getD_none]
    obtain ⟨hsome, hreplies⟩ := @replies_send M P encode h streaming req _ hvalue
      (show valueString req "id" "" = .ok "" by rw [valueString, hid])
    rw [answered_standard rfl hsome, AnsweredWhen]
    simp only [hid]
    rcases hreplies with ⟨hown, params, hparams, hemitted⟩ | ⟨hnothing, reply, hreply, hlookup⟩
    · refine ⟨fun hcarries => ?_, fun hwhen => absurd (hwhen.2 trivial params hparams) hemitted⟩
      obtain ⟨reply, hreply⟩ := List.exists_mem_of_ne_nil _ hsome
      have hboth := hcarries reply hreply
      rw [Carries, hown reply hreply] at hboth
      rcases hboth with hboth | hboth <;> cases hboth
    · refine ⟨fun _ => ⟨rfl, fun _ => hnothing⟩, fun _ reply' hreply' => ?_⟩
      rw [hreply] at hreply'
      rw [List.mem_singleton.mp hreply']
      rw [hjson] at hlookup
      exact .inr hlookup
  | some j =>
    by_cases hstring : IsString j
    · obtain ⟨text, rfl⟩ := hstring
      have hjson : valueJson req "id" .null = .str text := by rw [valueJson, hid, Option.getD_some]
      have hstr : valueString req "id" "" = .ok text := by
        rw [valueString, hid]
        rfl
      obtain ⟨hsome, hreplies⟩ := @replies_send M P encode h streaming req text hvalue hstr
      rw [answered_standard rfl hsome, AnsweredWhen]
      simp only [hid, iff_true]
      rcases hreplies with ⟨hown, -⟩ | ⟨-, reply, hreply, hlookup⟩
      · exact hown
      · rw [hreply]
        intro reply' hreply'
        rw [List.mem_singleton.mp hreply']
        rw [hjson] at hlookup
        exact hlookup
    · -- the emitter cannot be made, and the error goes under null
      obtain ⟨thrown, hthrown⟩ := getString_of_not j hstring
      have hprocess : processStandardJsonRpc encode h req "SendMessage" {} = ({}, .error thrown) := by
        have hstr : valueString req "id" "" = .error thrown := by
          rw [valueString, hid]
          exact hthrown
        rw [processStandardJsonRpc, if_neg (by decide), if_pos rfl, hstr]
      obtain ⟨message, hnull⟩ := finish_error marked_new thrown
      have hreplies : (handleRequest encode h streaming req).replies = [errorReply .null (-32603) message] := by
        rw [handleRequest_standard hvalue rfl, hprocess]
        exact hnull.trans (if_pos rfl)
      rw [answered_standard rfl (by rw [hreplies]; exact List.cons_ne_nil _ _), hreplies, AnsweredWhen]
      simp only [hid, List.mem_singleton, forall_eq, Carries, lookup_errorReply]
      cases j with
      | null => exact ⟨fun _ => rfl, fun _ => rfl⟩
      | str text => exact absurd ⟨text, rfl⟩ hstring
      | bool _ | num _ | arr _ | obj _ => exact ⟨by rintro ⟨⟩, fun hwhen => absurd rfl hwhen.2.1⟩

theorem answered_other (hvalue : valueString req "method" "" = .ok method) (hstream : isSupportedStreamingMethod method = false)
    (hsend : method ≠ "SendMessage") : Answered encode h streaming req method ↔ AnsweredWhen h req method := by
  obtain ⟨reply, hreplies, hreply⟩ := @replies_other M P encode h streaming req method hvalue hstream hsend
  rw [answered_standard hstream (by rw [hreplies]; exact List.cons_ne_nil _ _), hreplies, AnsweredWhen]
  simp only [List.mem_singleton, forall_eq, hstream, hsend, true_and, ne_eq, not_false_eq_true, false_implies, and_true]
  cases hid : req.lookup "id" with
  | none =>
    have hjson : valueJson req "id" .null = .null := by rw [valueJson, hid, Option.getD_none]
    rw [hjson] at hreply
    simp only [Carries, iff_true]
    rcases hreply with ⟨hnull, -⟩ | ⟨hnull, -⟩
    · exact .inr hnull
    · exact .inr hnull
  | some j =>
    have hjson : valueJson req "id" .null = j := by rw [valueJson, hid, Option.getD_some]
    rw [hjson] at hreply
    cases j with
    | null =>
      simp only [Carries, iff_true]
      rcases hreply with ⟨hnull, -⟩ | ⟨hnull, -⟩
      · exact hnull
      · exact hnull
    | str text =>
      simp only [Carries, iff_true]
      rcases hreply with ⟨hown, -⟩ | ⟨-, hnot, -⟩
      · exact hown
      · exact absurd ⟨text, rfl⟩ hnot
    | bool _ | num _ | arr _ | obj _ =>
      simp only [Carries]
      rcases hreply with ⟨hown, hstring | hcall⟩ | ⟨hnull, -, thrown, hcall⟩
      · obtain ⟨text, htext⟩ := hstring
        cases htext
      · exact ⟨fun _ => hcall, fun _ => hown⟩
      · rw [hnull]
        exact ⟨by rintro ⟨⟩, fun hwhen => absurd hcall (hwhen thrown)⟩

end Answers

/-- A request is answered under its id, and a stream that fails is closed, exactly where the request meets the condition. -/
theorem answered_iff (encode : StreamEvent M P → Json) (h : RequestHandler M P) (streaming : Option Bool) (req : JsonRpcRequest)
    (method : String) (hmethod : req.lookup "method" = some (.str method)) :
    Answered encode h streaming req method ↔ AnsweredWhen h req method := by
  have hvalue : valueString req "method" "" = .ok method := by
    rw [valueString, hmethod]
    rfl
  cases hstream : isSupportedStreamingMethod method with
  | true =>
    rw [answered_streaming hvalue hstream, AnsweredWhen]
    cases req.lookup "id" with
    | none => simp [hstream]
    | some j => cases j <;> simp [hstream]
  | false =>
    by_cases hsend : method = "SendMessage"
    · subst hsend
      exact answered_send hvalue
    · exact answered_other hvalue hstream hsend

/-- A server without tasks, whose agent answers each message. -/
def answeringHandler : RequestHandler String String where
  onGetCard := .ok .null
  onGetTask _ := .error (.server (-32001) "Task id not found")
  onCancelTask _ := .error (.server (-32001) "Task id not found")
  onSetTaskPushNotificationConfig _ := .error (.server (-32003) "Push notification config is not set")
  onGetTaskPushNotificationConfig _ := .error (.server (-32003) "Push notification config is not set")
  onListTaskPushNotificationConfigs _ := .error (.server (-32003) "Push notification config is not set")
  onDeleteTaskPushNotificationConfig _ := .error (.server (-32003) "Push notification config is not set")
  onSendMessage _ := { emitted := [.message "hi"], failure := none, answered := fun _ => List.cons_ne_nil _ _ }
  onSendMessageStreaming _ := { task := .ok { id := "t" }, events := [.message "hi"] }
  onResubscribeToTask _ := { task := .error (.server (-32001) "Task id not found") }

def requestWith (method : String) (id : List (String × Json)) : JsonRpcRequest :=
  Dict.ofList (("method", .str method) :: ("params", .object []) :: id)

theorem answered_string_id :
    Answered (fun _ => .null) answeringHandler (some true) (requestWith "SubscribeToTask" [("id", .str "1")]) "SubscribeToTask" :=
  (answered_iff _ _ _ _ _ rfl).mpr trivial

/-- An unknown task under a number, a stream under a number and one under null, and an answer without an id. -/
theorem not_answered :
    ¬Answered (fun _ => .null) answeringHandler (some true) (requestWith "GetTask" [("id", .num "7")]) "GetTask" ∧
      ¬Answered (fun _ => .null) answeringHandler (some true) (requestWith "SendStreamingMessage" [("id", .num "7")])
        "SendStreamingMessage" ∧
      ¬Answered (fun _ => .null) answeringHandler (some true) (requestWith "SubscribeToTask" [("id", .null)]) "SubscribeToTask" ∧
      ¬Answered (fun _ => .null) answeringHandler (some true) (requestWith "SendMessage" []) "SendMessage" := by
  refine ⟨fun h => ?_, fun h => ?_, fun h => ?_, fun h => ?_⟩
  · cases h.own _ (List.mem_singleton_self _)
  · exact h.some rfl
  · exact h.some rfl
  · rcases h.own _ (List.mem_singleton_self _) with hid | hid <;> cases hid

end AgentProtocol.A2A
