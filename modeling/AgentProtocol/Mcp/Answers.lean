-- SUMMARY: The requests of a server session: the table of running requests, the four places an answer comes from, and when each request has at most one answer.
import AgentProtocol.Mcp.Messages
import AgentProtocol.Lib.Run
import AgentProtocol.Lib.Table

/-!
# Answers of a server session

A request is filed in the table of running requests with a copy of its context, and the handler gets another copy.
It ends with a result, with an error, or with neither: then an asynchronous method has the callback, which holds a
third copy. The method may call it from any thread, also while the handler still runs, and as often as it likes; each
result travels through the queue of the worker thread with a copy of its own. A cancellation looks only at the copy in
the table.

The transport takes a message, or throws: `some what` is what it throws. `serial` numbers the requests of a session,
so that the copies of one context can be told from those of another request with its id.
-/

namespace AgentProtocol.Mcp

open Lib

variable {ρ : Type}

/-- `RequestContext`, without the function that sends. `serial` is not in the code. -/
structure RequestContext where
  connectionId : ℤ
  sessionId : String
  method : String
  isGetStream : Bool := false
  isCancelled : Bool := false
  serial : ℕ := 0

/-- The body of a `JSONRPCResponse` or a `JSONRPCError`. -/
inductive Body (ρ : Type) where
  | result (result : Option ρ)
  | error (code : ℤ) (message : String) (data : Option Value)

/-- A message that the session sent, with the context it was sent under. -/
structure Answer (ρ : Type) where
  id : RequestId
  body : Body ρ
  ctx : RequestContext

/-- What a handler works with; a callback captures the same. -/
structure Handler where
  requestId : RequestId
  ctx : RequestContext

structure DispatchResponseMsg (ρ : Type) where
  requestId : RequestId
  result : Option ρ
  context : RequestContext

/-- The session, its handlers that have started and not ended, the callbacks that asynchronous methods have, the responses
that are queued, and what it received and sent so far. -/
structure ServerSession (ρ : Type) where
  stateless : Bool := false
  isInitialized : Bool := false
  sessionRequests : Dict RequestId RequestContext := ∅
  running : List Handler := []
  callbacks : List Handler := []
  responses : List (DispatchResponseMsg ρ) := []
  received : List RequestId := []
  answers : List (Answer ρ) := []

/-- What the transport does with the messages of one step. -/
abbrev Fault := Option String

namespace ServerSession

/-! ## Sending an answer -/

/-- `serverTransport_->SendMessage`: the session, and what is thrown. -/
def sendMessage (s : ServerSession ρ) (answer : Answer ρ) : Fault → ServerSession ρ × Option String
  | none => ({ s with answers := s.answers ++ [answer] }, none)
  | some what => (s, some what)

/-- `SendResponse` with a result: the entry goes first. -/
def sendResponse (s : ServerSession ρ) (id : RequestId) (result : Option ρ) (ctx : RequestContext) (fault : Fault) :
    ServerSession ρ × Option String :=
  let s := { s with sessionRequests := s.sessionRequests.erase id }
  if ctx.isCancelled then (s, none) else s.sendMessage ⟨id, .result result, ctx⟩ fault

/-- `SendResponse` with an error: the entry stays. -/
def sendError (s : ServerSession ρ) (id : RequestId) (code : ℤ) (message : String) (data : Option Value)
    (ctx : RequestContext) (fault : Fault) : ServerSession ρ × Option String :=
  if ctx.isCancelled then (s, none) else s.sendMessage ⟨id, .error code message data, ctx⟩ fault

end ServerSession

/-! ## Requests -/

/-- What the decoder made of the parameters of a request: nothing for a method it does not know. -/
inductive TypedRequest (ρ : Type) where
  | unsupported
  | handshake (result : Option (Option ρ))
  | other
  deriving DecidableEq

structure IncomingRequest (ρ : Type) where
  id : RequestId
  method : String
  connectionId : ℤ
  sessionId : String
  request : TypedRequest ρ

namespace ServerSession

/-- `ProcessIncomingRequest` and `ReceivedRequest`, up to the handler of the method. `initialize` is answered here,
when its parameters have the right type; other requests wait for the handshake. -/
def processIncomingRequest (s : ServerSession ρ) (r : IncomingRequest ρ) (fault : Fault) : ServerSession ρ :=
  let ctx : RequestContext :=
    { connectionId := r.connectionId, sessionId := r.sessionId, method := r.method, serial := s.received.length }
  let s := { s with received := s.received ++ [r.id] }
  match r.request with
  | .unsupported =>
    (s.sendError r.id JsonRpcErrorCode.methodNotFound.toInt ("Method not found: " ++ r.method) none ctx fault).1
  | .handshake none => s
  | .handshake (some result) =>
    let (s, thrown) := s.sendResponse r.id result ctx fault
    { s with isInitialized := s.isInitialized || thrown.isNone }
  | .other =>
    if s.stateless || s.isInitialized then
      { s with
        sessionRequests := s.sessionRequests.set r.id ctx
        running := s.running ++ [⟨r.id, ctx⟩] }
    else s

end ServerSession

/-- How a handler ends. An asynchronous method returns no result. `throws` is an exception of the method's own code,
but what a tool throws is a result, which `CallTool` makes of it. `refuses` is an error that the handler sends itself,
inside or outside its `try` block. -/
inductive Ending (ρ : Type) where
  | returns (result : Option ρ)
  | suspends
  | throws (what : String) (data : Option Value)
  | refuses (inTry : Bool) (code : JsonRpcErrorCode) (message : String)

/-- What the transport does with the message of the handler, of its `catch` and of the outer `catch`. -/
structure Faults where
  body : Fault := none
  inner : Fault := none
  outer : Fault := none

/-- The `catch` block of a method's handler: the code and the start of the message it answers with. -/
def innerCatch (method : String) : Option (JsonRpcErrorCode × String) :=
  if method = "tools/call" ∨ method = "prompts/get" ∨ method = "resources/read" then some (.invalidParams, "")
  else if method = "resources/list" ∨ method = "resources/subscribe" ∨ method = "resources/unsubscribe" ∨
      method = "resources/templates/list" ∨ method = "logging/setLevel" then some (.serverError, "")
  else if method = "completion/complete" then some (.serverError, "Complete handler error: ")
  else none

namespace Ending

/-- The `catch` block that an exception of the handler reaches: its own, from inside the `try` block. -/
def caught (method : String) : Ending ρ → Option (JsonRpcErrorCode × String)
  | .refuses false .. => none
  | _ => innerCatch method

def data : Ending ρ → Option Value
  | .throws _ data => data
  | _ => none

def isResult : Ending ρ → Bool
  | .returns _ => true
  | _ => false

/-- What the transport does with the messages that the ending leads to, one after the other until it takes one. -/
def attempts (method : String) (f : Faults) : Ending ρ → List Fault
  | .suspends => []
  | e@(.throws ..) => ((e.caught method).map fun _ => f.inner).toList ++ [f.outer]
  | e => f.body :: ((e.caught method).map fun _ => f.inner).toList ++ [f.outer]

/-- The transport takes a message. -/
def sends (method : String) (f : Faults) (e : Ending ρ) : Bool := (e.attempts method f).any Option.isNone

end Ending

namespace ServerSession

/-! ## Handlers -/

/-- What the handler itself sends or throws. -/
def runBody (s : ServerSession ρ) (h : Handler) (e : Ending ρ) (fault : Fault) : ServerSession ρ × Option String :=
  match e with
  | .returns result => s.sendResponse h.requestId result h.ctx fault
  | .suspends => (s, none)
  | .throws what _ => (s, some what)
  | .refuses _ code message => s.sendError h.requestId code.toInt message none h.ctx fault

def runInnerCatch (h : Handler) (e : Ending ρ) (fault : Fault) : ServerSession ρ × Option String → ServerSession ρ × Option String
  | (s, none) => (s, none)
  | (s, some what) =>
    match e.caught h.ctx.method with
    | some (code, text) => s.sendError h.requestId code.toInt (text ++ what) e.data h.ctx fault
    | none => (s, some what)

/-- The `catch` block of `ReceiveIncomingMessages`. What it throws itself, the worker thread logs. -/
def runOuterCatch (h : Handler) (fault : Fault) : ServerSession ρ × Option String → ServerSession ρ
  | (s, none) => s
  | (s, some what) =>
    (s.sendError h.requestId JsonRpcErrorCode.serverError.toInt
      ("Server error handling " ++ h.ctx.method ++ ": " ++ what) none h.ctx fault).1

/-- `ReceiveIncomingMessages` from the start of the handler to its end. -/
def endHandler (s : ServerSession ρ) (h : Handler) (e : Ending ρ) (f : Faults) : ServerSession ρ :=
  runOuterCatch h f.outer (runInnerCatch h e f.inner (s.runBody h e f.body))

/-! ## Asynchronous results and cancellation -/

/-- The methods whose handlers make a `ResponseCallback`. -/
def takesCallback (method : String) : Bool := method ∈ ["tools/call", "prompts/get", "resources/read"]

/-- `DispatchResponse`, which a callback calls: the message is queued, or lost when the queue is full. -/
def dispatchResponse (s : ServerSession ρ) (callback : Handler) (result : Option ρ) (pushed : Bool) : ServerSession ρ :=
  if pushed then { s with responses := s.responses ++ [⟨callback.requestId, result, callback.ctx⟩] } else s

/-- `HandleResponse` of the worker thread, of the message at a place of the queue. -/
def handleResponse (s : ServerSession ρ) (k : ℕ) (fault : Fault) : ServerSession ρ :=
  match s.responses[k]? with
  | none => s
  | some m =>
    (({ s with responses := s.responses.eraseIdx k } : ServerSession ρ).sendResponse m.requestId m.result m.context fault).1

def handleCancelledNotification (s : ServerSession ρ) (id : RequestId) (fault : Fault) : ServerSession ρ :=
  match s.sessionRequests.lookup id with
  | none => s
  | some ctx =>
    match s.sendError id 0 "Request cancelled" none ctx fault with
    | (s, none) => { s with sessionRequests := s.sessionRequests.set id { ctx with isCancelled := true } }
    | (s, some _) => s

end ServerSession

/-! ## Runs -/

/-- A step of the session. `invokes` and `ends` are about the handler at a place of the list, `responds` about the callback
at a place, and `response` about the message at a place of the queue. -/
inductive ServerEvent (ρ : Type) where
  | request (request : IncomingRequest ρ) (fault : Fault)
  | invokes (i : ℕ)
  | ends (i : ℕ) (ending : Ending ρ) (faults : Faults)
  | responds (j : ℕ) (result : Option ρ) (pushed : Bool)
  | response (k : ℕ) (fault : Fault)
  | cancelled (id : RequestId) (fault : Fault)

namespace ServerSession

def step (s : ServerSession ρ) : ServerEvent ρ → ServerSession ρ
  | .request r fault => s.processIncomingRequest r fault
  | .invokes i =>
    match s.running[i]? with
    | none => s
    | some h => if takesCallback h.ctx.method then { s with callbacks := s.callbacks ++ [h] } else s
  | .ends i ending faults =>
    match s.running[i]? with
    | none => s
    | some h => ({ s with running := s.running.eraseIdx i } : ServerSession ρ).endHandler h ending faults
  | .responds j result pushed =>
    match s.callbacks[j]? with
    | none => s
    | some callback => s.dispatchResponse callback result pushed
  | .response k fault => s.handleResponse k fault
  | .cancelled id fault => s.handleCancelledNotification id fault

/-! ## One answer -/

def receivedCount (s : ServerSession ρ) (id : RequestId) : ℕ := s.received.count id

def answerCount (s : ServerSession ρ) (id : RequestId) : ℕ := s.answers.countP (·.id = id)

/-- Not more answers than requests, and no entry for an id all of whose requests are answered. For an id that is used
once: at most one answer, and no entry after it. -/
structure OneAnswer (s : ServerSession ρ) : Prop where
  atMost : ∀ id, s.answerCount id ≤ s.receivedCount id
  cleared : ∀ id, (s.sessionRequests.lookup id).isSome → s.answerCount id < s.receivedCount id

/-- The requests that were answered, or have a result in the queue. -/
def serials (s : ServerSession ρ) : List ℕ := s.answers.map (·.ctx.serial) ++ s.responses.map (·.context.serial)

/-- The steps that keep it so. A handler sends nothing, and a callback queues nothing, for a request that was answered
or has a result in the queue; no handler ends in an error while its request is in the table; and no cancellation finds
its request there. What the transport or the queue does not take does no harm. -/
def Keeps (s : ServerSession ρ) : ServerEvent ρ → Prop
  | .ends i ending faults => ∀ h, s.running[i]? = some h → ending.sends h.ctx.method faults = true →
      h.ctx.serial ∉ s.serials ∧
        (ending.isResult = true ∨ ∀ ctx, s.sessionRequests.lookup h.requestId = some ctx → ctx.serial ≠ h.ctx.serial)
  | .responds j _ pushed => ∀ callback, s.callbacks[j]? = some callback → pushed = true → callback.ctx.serial ∉ s.serials
  | .cancelled id fault => ∀ ctx, s.sessionRequests.lookup id = some ctx → fault.isSome
  | _ => True

/-- A client uses an id once, as the protocol asks. -/
def Fresh (s : ServerSession ρ) : ServerEvent ρ → Prop
  | .request r _ => r.id ∉ s.received
  | _ => True

/-- After the worker thread took `n` messages, and the transport their results. -/
def drained (s : ServerSession ρ) (n : ℕ) : ServerSession ρ := run step s (List.replicate n (.response 0 none))

/-! ## What an answer does to the session -/

/-- An answer was sent, or not, and the entry of its id erased, or not; nothing else changed. -/
structure Effect (s s' : ServerSession ρ) (id : RequestId) (ctx : RequestContext) (sent erased : Bool) : Prop where
  answers : ∃ body, s'.answers = s.answers ++ if sent then [⟨id, body, ctx⟩] else []
  table : ∀ id', s'.sessionRequests.lookup id' = if erased = true ∧ id' = id then none else s.sessionRequests.lookup id'
  running : s'.running = s.running
  callbacks : s'.callbacks = s.callbacks
  responses : s'.responses = s.responses
  received : s'.received = s.received

variable {s s' s'' : ServerSession ρ} {id : RequestId} {ctx : RequestContext} {fault : Fault} {sent erased : Bool}

theorem Effect.refl : Effect s s id ctx false false := ⟨⟨.result none, by simp⟩, by simp, rfl, rfl, rfl, rfl⟩

theorem Effect.trans (h : Effect s s' id ctx false erased) (h' : Effect s' s'' id ctx sent false) :
    Effect s s'' id ctx sent erased where
  answers := by
    obtain ⟨_, hsame⟩ := h.answers
    obtain ⟨body, hbody⟩ := h'.answers
    exact ⟨body, by simpa [hsame] using hbody⟩
  table id' := by simp [h'.table, h.table]
  running := h'.running.trans h.running
  callbacks := h'.callbacks.trans h.callbacks
  responses := h'.responses.trans h.responses
  received := h'.received.trans h.received

theorem Effect.answerCount (h : Effect s s' id ctx sent erased) (id' : RequestId) :
    s'.answerCount id' = s.answerCount id' + if sent = true ∧ id = id' then 1 else 0 := by
  obtain ⟨body, hbody⟩ := h.answers
  rw [ServerSession.answerCount, ServerSession.answerCount, hbody, List.countP_append]
  cases sent <;> simp [List.countP_singleton]

theorem sendMessage_snd (answer : Answer ρ) : (s.sendMessage answer fault).2 = fault := by
  cases fault <;> rfl

theorem sendMessage_effect (answer : Answer ρ) : Effect s (s.sendMessage answer fault).1 answer.id answer.ctx fault.isNone false := by
  cases fault with
  | some what => exact .refl
  | none => exact ⟨⟨answer.body, rfl⟩, by simp [sendMessage], rfl, rfl, rfl, rfl⟩

variable {data : Option Value} {message : String} {code : ℤ}

theorem sendError_snd (hctx : ctx.isCancelled = false) : (s.sendError id code message data ctx fault).2 = fault := by
  simp [sendError, hctx, sendMessage_snd]

theorem sendError_effect (hctx : ctx.isCancelled = false) :
    Effect s (s.sendError id code message data ctx fault).1 id ctx fault.isNone false := by
  simp only [sendError, hctx, Bool.false_eq_true, if_false]
  exact sendMessage_effect _

variable {result : Option ρ}

theorem sendResponse_snd (hctx : ctx.isCancelled = false) : (s.sendResponse id result ctx fault).2 = fault := by
  simp [sendResponse, hctx, sendMessage_snd]

theorem sendResponse_effect (result : Option ρ) (fault : Fault) (hctx : ctx.isCancelled = false) :
    Effect s (s.sendResponse id result ctx fault).1 id ctx fault.isNone true := by
  simp only [sendResponse, hctx, Bool.false_eq_true, if_false]
  set s₀ : ServerSession ρ := { s with sessionRequests := s.sessionRequests.erase id } with hs₀
  have h : Effect s₀ (s₀.sendMessage ⟨id, .result result, ctx⟩ fault).1 id ctx fault.isNone false := sendMessage_effect _
  refine ⟨h.answers, fun id' => ?_, h.running, h.callbacks, h.responses, h.received⟩
  rw [h.table, hs₀, Dict.lookup_erase]
  simp

/-! ## What the end of a handler does -/

variable {h : Handler} {e : Ending ρ} {f : Faults} {p : ServerSession ρ × Option String}

theorem runBody_effect (hctx : h.ctx.isCancelled = false) (he : e ≠ .suspends) :
    Effect s (s.runBody h e fault).1 h.requestId h.ctx (s.runBody h e fault).2.isNone e.isResult := by
  cases e with
  | returns result =>
    rw [runBody, sendResponse_snd hctx]
    exact sendResponse_effect _ _ hctx
  | suspends => exact absurd rfl he
  | throws what data => exact .refl
  | refuses inTry code message =>
    rw [runBody, sendError_snd hctx]
    exact sendError_effect hctx

theorem runInnerCatch_effect (fault : Fault) (hctx : h.ctx.isCancelled = false)
    (hp : Effect s p.1 h.requestId h.ctx p.2.isNone erased) :
    Effect s (runInnerCatch h e fault p).1 h.requestId h.ctx (runInnerCatch h e fault p).2.isNone erased := by
  obtain ⟨s', thrown⟩ := p
  cases thrown with
  | none => exact hp
  | some what =>
    cases hcaught : e.caught h.ctx.method with
    | none => simpa only [runInnerCatch, hcaught] using hp
    | some c =>
      simp only [runInnerCatch, hcaught, sendError_snd hctx]
      exact hp.trans (sendError_effect hctx)

theorem runInnerCatch_isNone (hctx : h.ctx.isCancelled = false) :
    (runInnerCatch h e fault p).2.isNone = (p.2.isNone || (e.caught h.ctx.method).isSome && fault.isNone) := by
  obtain ⟨s', thrown⟩ := p
  cases thrown with
  | none => rfl
  | some what => cases hcaught : e.caught h.ctx.method <;> simp [runInnerCatch, hcaught, sendError_snd hctx]

theorem runOuterCatch_effect (fault : Fault) (hctx : h.ctx.isCancelled = false)
    (hp : Effect s p.1 h.requestId h.ctx p.2.isNone erased) :
    Effect s (runOuterCatch h fault p) h.requestId h.ctx (p.2.isNone || fault.isNone) erased := by
  obtain ⟨s', thrown⟩ := p
  cases thrown with
  | none => exact hp
  | some what => exact hp.trans (sendError_effect hctx)

theorem endHandler_effect (hctx : h.ctx.isCancelled = false) :
    Effect s (s.endHandler h e f) h.requestId h.ctx (e.sends h.ctx.method f) e.isResult := by
  by_cases he : e = .suspends
  · subst he
    exact .refl
  have hbody : Effect s (s.runBody h e f.body).1 h.requestId h.ctx (s.runBody h e f.body).2.isNone e.isResult :=
    runBody_effect hctx he
  have hinner := runInnerCatch_effect (e := e) f.inner hctx hbody
  have houter := runOuterCatch_effect f.outer hctx hinner
  rw [runInnerCatch_isNone hctx] at houter
  have hsends : e.sends h.ctx.method f =
      ((s.runBody h e f.body).2.isNone || (e.caught h.ctx.method).isSome && f.inner.isNone || f.outer.isNone) := by
    cases e with
    | suspends => exact absurd rfl he
    | returns result =>
      rw [runBody, sendResponse_snd hctx]
      cases hcaught : (Ending.returns result).caught h.ctx.method <;> simp [Ending.sends, Ending.attempts, hcaught, Bool.or_assoc]
    | throws what data =>
      cases hcaught : (Ending.throws (ρ := ρ) what data).caught h.ctx.method <;>
        simp [runBody, Ending.sends, Ending.attempts, hcaught]
    | refuses inTry code message =>
      rw [runBody, sendError_snd hctx]
      cases hcaught : (Ending.refuses (ρ := ρ) inTry code message).caught h.ctx.method <;>
        simp [Ending.sends, Ending.attempts, hcaught, Bool.or_assoc]
  rw [hsends]
  exact houter

/-! ## The invariant -/

/-- A context of a request that was received with the id, not cancelled. -/
structure Owns (received : List RequestId) (ctx : RequestContext) (id : RequestId) : Prop where
  received : received[ctx.serial]? = some id
  live : ctx.isCancelled = false

/-- No request is answered, or has results in the queue, twice, and none in the table is answered. -/
structure Inv (s : ServerSession ρ) : Prop where
  once : s.serials.Nodup
  answers : ∀ a ∈ s.answers, Owns s.received a.ctx a.id
  responses : ∀ m ∈ s.responses, Owns s.received m.context m.requestId
  running : ∀ h ∈ s.running, Owns s.received h.ctx h.requestId
  callbacks : ∀ h ∈ s.callbacks, Owns s.received h.ctx h.requestId
  table : ∀ id ctx, s.sessionRequests.lookup id = some ctx → Owns s.received ctx id ∧ ctx.serial ∉ s.answers.map (·.ctx.serial)

theorem Owns.append {received : List RequestId} (h : Owns received ctx id) (rest : List RequestId) :
    Owns (received ++ rest) ctx id := by
  have hlt := (List.getElem?_eq_some_iff.mp h.received).1
  exact ⟨by rw [List.getElem?_append_left hlt, h.received], h.live⟩

theorem length_le_count {α : Type} [DecidableEq α] {xs : List α} {a : α} {l : List ℕ} (hl : l.Nodup)
    (h : ∀ n ∈ l, xs[n]? = some a) : l.length ≤ xs.count a := by
  induction xs using List.reverseRecOn generalizing l with
  | nil =>
    cases l with
    | nil => simp
    | cons n l => exact absurd (h n (by simp)) (by simp)
  | append_singleton xs x ih =>
    have hrest := ih (hl.erase xs.length) fun n hn => by
      obtain ⟨hne, hmem⟩ := hl.mem_erase_iff.mp hn
      have hn := h n hmem
      have hlt : n < (xs ++ [x]).length := (List.getElem?_eq_some_iff.mp hn).1
      rw [List.length_append, List.length_singleton] at hlt
      rwa [List.getElem?_append_left (by omega)] at hn
    rw [List.length_erase] at hrest
    rw [List.count_append, List.count_singleton]
    by_cases hmem : xs.length ∈ l
    · have hx : x = a := by simpa using h _ hmem
      rw [if_pos hmem] at hrest
      simp only [hx, beq_self_eq_true, if_true]
      omega
    · rw [if_neg hmem] at hrest
      omega

theorem Inv.count_le (h : s.Inv) {l : List ℕ} (hl : (l ++ s.answers.map (·.ctx.serial)).Nodup)
    (hown : ∀ n ∈ l, s.received[n]? = some id) : l.length + s.answerCount id ≤ s.receivedCount id := by
  have hsub := ((s.answers.filter_sublist (p := fun a => decide (a.id = id))).map (·.ctx.serial)).append_left l
  have hle := length_le_count (hl.sublist hsub) fun n hn => by
    rcases List.mem_append.mp hn with hn | hn
    · exact hown n hn
    · obtain ⟨a, ha, rfl⟩ := List.mem_map.mp hn
      obtain ⟨hmem, hid⟩ := List.mem_filter.mp ha
      rw [(h.answers a hmem).received, of_decide_eq_true hid]
  rwa [List.length_append, List.length_map, ← List.countP_eq_length_filter] at hle

theorem Inv.oneAnswer (h : s.Inv) : s.OneAnswer where
  atMost id := by
    have hle : ([] : List ℕ).length + s.answerCount id ≤ s.receivedCount id := h.count_le h.once.of_append_left (by simp)
    simpa using hle
  cleared id hid := by
    obtain ⟨ctx, hctx⟩ := Option.isSome_iff_exists.mp hid
    obtain ⟨howns, hnew⟩ := h.table id ctx hctx
    have hle := h.count_le (l := [ctx.serial]) (List.nodup_cons.mpr ⟨hnew, h.once.of_append_left⟩) (by simpa using howns.received)
    rw [List.length_singleton] at hle
    omega

theorem Inv.notMem (h : s.Inv) : s.received.length ∉ s.serials := by
  intro hmem
  rcases List.mem_append.mp hmem with hmem | hmem
  · obtain ⟨a, ha, hserial⟩ := List.mem_map.mp hmem
    have hget := (h.answers a ha).received
    rw [hserial, List.getElem?_length] at hget
    cases hget
  · obtain ⟨m, hm, hserial⟩ := List.mem_map.mp hmem
    have hget := (h.responses m hm).received
    rw [hserial, List.getElem?_length] at hget
    cases hget

theorem Inv.receive (h : s.Inv) (k : RequestId) : Inv { s with received := s.received ++ [k] } where
  once := h.once
  answers a ha := (h.answers a ha).append [k]
  responses m hm := (h.responses m hm).append [k]
  running t ht := (h.running t ht).append [k]
  callbacks t ht := (h.callbacks t ht).append [k]
  table id ctx hid := (h.table id ctx hid).imp_left fun howns => howns.append [k]

theorem Inv.answer (h : s.Inv) (he : Effect s s' id ctx sent erased) (howns : Owns s.received ctx id)
    (hk : sent = true → ctx.serial ∉ s.serials ∧
      (erased = true ∨ ∀ ctx', s.sessionRequests.lookup id = some ctx' → ctx'.serial ≠ ctx.serial)) : s'.Inv := by
  have hkeep : ∀ {ctx' id'}, Owns s.received ctx' id' → Owns s'.received ctx' id' := fun h => he.received ▸ h
  obtain ⟨body, hanswers⟩ := he.answers
  refine ⟨?_, fun a ha => ?_, ?_, ?_, ?_, fun id' ctx' hid => ?_⟩
  · rw [serials, hanswers, he.responses]
    cases sent with
    | false => simpa [serials] using h.once
    | true =>
      rw [if_pos rfl, List.map_append, List.append_assoc]
      exact List.perm_middle.nodup_iff.mpr (List.nodup_cons.mpr ⟨(hk rfl).1, h.once⟩)
  · rw [hanswers] at ha
    rcases List.mem_append.mp ha with ha | ha
    · exact hkeep (h.answers a ha)
    · cases sent with
      | false => cases ha
      | true =>
        rw [List.mem_singleton.mp ha]
        exact hkeep howns
  · rw [he.responses]
    exact fun m hm => hkeep (h.responses m hm)
  · rw [he.running]
    exact fun t ht => hkeep (h.running t ht)
  · rw [he.callbacks]
    exact fun t ht => hkeep (h.callbacks t ht)
  · rw [he.table] at hid
    split at hid
    · cases hid
    rename_i herased
    obtain ⟨howns', hnew⟩ := h.table id' ctx' hid
    refine ⟨hkeep howns', ?_⟩
    rw [hanswers, List.map_append, List.mem_append, not_or]
    refine ⟨hnew, ?_⟩
    cases sent with
    | false => simp
    | true =>
      simp only [if_true, List.map_cons, List.map_nil, List.mem_singleton]
      intro hserial
      -- the entry would be that of the request itself
      have hid' : id' = id := by
        have hget := howns'.received
        rw [hserial, howns.received] at hget
        exact (Option.some.inj hget).symm
      subst hid'
      rcases (hk rfl).2 with herase | hother
      · exact herased ⟨herase, rfl⟩
      · exact hother ctx' hid hserial

/-! ## One step -/

theorem inv_processIncomingRequest (h : s.Inv) (r : IncomingRequest ρ) (fault : Fault) : (s.processIncomingRequest r fault).Inv := by
  have hreceive := h.receive r.id
  have hnew : s.received.length ∉ s.serials := h.notMem
  have howns : ∀ ctx : RequestContext, ctx.serial = s.received.length → ctx.isCancelled = false →
      Owns (s.received ++ [r.id]) ctx r.id := by
    intro ctx hserial hlive
    refine ⟨?_, hlive⟩
    rw [hserial]
    exact List.getElem?_concat_length
  unfold processIncomingRequest
  cases r.request with
  | unsupported =>
    refine hreceive.answer (sendError_effect rfl) (howns _ rfl rfl) fun _ => ⟨hnew, .inr fun ctx hid hserial => ?_⟩
    -- an entry under the id is that of an earlier request
    have hget := (h.table _ ctx hid).1.received
    rw [hserial, List.getElem?_length] at hget
    cases hget
  | handshake result =>
    cases result with
    | none => exact hreceive
    | some result =>
      let ctx : RequestContext :=
        { connectionId := r.connectionId, sessionId := r.sessionId, method := r.method, serial := s.received.length }
      have hctx : ctx.isCancelled = false := rfl
      have hanswer := hreceive.answer (sendResponse_effect result fault hctx) (howns ctx rfl hctx) fun _ => ⟨hnew, .inl rfl⟩
      exact { hanswer with }
  | other =>
    dsimp only
    split
    · refine { hreceive with running := fun t ht => ?_, table := fun id ctx hid => ?_ }
      · rcases List.mem_append.mp ht with ht | ht
        · exact hreceive.running t ht
        · rw [List.mem_singleton.mp ht]
          exact howns _ rfl rfl
      · rw [Dict.lookup_set] at hid
        split at hid
        · rename_i heq
          subst heq
          rw [← Option.some.inj hid]
          exact ⟨howns _ rfl rfl, fun hmem => hnew (List.mem_append_left _ hmem)⟩
        · exact hreceive.table id ctx hid
    · exact hreceive

variable {t : Handler} {i : ℕ}

theorem inv_endHandler (h : s.Inv) (hi : s.running[i]? = some t) {e : Ending ρ} {f : Faults} (hk : s.Keeps (.ends i e f)) :
    (({ s with running := s.running.eraseIdx i } : ServerSession ρ).endHandler t e f).Inv := by
  have howns := h.running t (List.mem_of_getElem? hi)
  have hrest : Inv { s with running := s.running.eraseIdx i } :=
    { h with running := fun t ht => h.running t (List.mem_of_mem_eraseIdx ht) }
  exact hrest.answer (endHandler_effect howns.live) howns (hk t hi)

theorem inv_dispatchResponse (h : s.Inv) (ht : t ∈ s.callbacks) {pushed : Bool}
    (hk : pushed = true → t.ctx.serial ∉ s.serials) : (s.dispatchResponse t result pushed).Inv := by
  have howns := h.callbacks t ht
  unfold dispatchResponse
  split
  · rename_i hpushed
    refine { h with once := ?_, responses := fun m hm => ?_ }
    · rw [serials, List.map_append, ← List.append_assoc]
      exact (List.perm_append_singleton _ _).nodup_iff.mpr (List.nodup_cons.mpr ⟨hk hpushed, h.once⟩)
    · rcases List.mem_append.mp hm with hm | hm
      · exact h.responses m hm
      · rw [List.mem_singleton.mp hm]
        exact howns
  · exact h

theorem inv_handleResponse (h : s.Inv) (k : ℕ) (fault : Fault) : (s.handleResponse k fault).Inv := by
  unfold handleResponse
  split
  · exact h
  · rename_i m hm
    obtain ⟨hlt, hget⟩ := List.getElem?_eq_some_iff.mp hm
    have howns := h.responses m (List.mem_of_getElem? hm)
    have hperm : s.serials.Perm (m.context.serial :: serials { s with responses := s.responses.eraseIdx k }) := by
      have hqueue := (List.getElem_cons_eraseIdx_perm hlt).symm.map (·.context.serial)
      rw [hget, List.map_cons] at hqueue
      exact (hqueue.append_left _).trans List.perm_middle
    obtain ⟨hnew, honce⟩ := List.nodup_cons.mp (hperm.nodup_iff.mp h.once)
    have hrest : Inv { s with responses := s.responses.eraseIdx k } :=
      { h with once := honce, responses := fun m hm => h.responses m (List.mem_of_mem_eraseIdx hm) }
    exact hrest.answer (sendResponse_effect _ _ howns.live) howns fun _ => ⟨hnew, .inl rfl⟩

theorem handleCancelled_refused (h : s.Inv) (hk : ∀ ctx, s.sessionRequests.lookup id = some ctx → fault.isSome) :
    s.handleCancelledNotification id fault = s := by
  unfold handleCancelledNotification
  cases hid : s.sessionRequests.lookup id with
  | none => rfl
  | some ctx =>
    obtain ⟨what, rfl⟩ := Option.isSome_iff_exists.mp (hk ctx hid)
    simp [sendError, (h.table id ctx hid).1.live, sendMessage]

theorem server_step_inv (h : s.Inv) {e : ServerEvent ρ} (hk : s.Keeps e) : (step s e).Inv := by
  cases e with
  | request r fault => exact inv_processIncomingRequest h r fault
  | invokes i =>
    cases hi : s.running[i]? with
    | none => simpa [step, hi] using h
    | some t =>
      simp only [step, hi]
      split
      · refine { h with callbacks := fun x hx => ?_ }
        rcases List.mem_append.mp hx with hx | hx
        · exact h.callbacks x hx
        · rw [List.mem_singleton.mp hx]
          exact h.running t (List.mem_of_getElem? hi)
      · exact h
  | ends i ending faults =>
    cases hi : s.running[i]? with
    | none => simpa [step, hi] using h
    | some t => simpa [step, hi] using inv_endHandler h hi hk
  | responds j result pushed =>
    cases hj : s.callbacks[j]? with
    | none => simpa [step, hj] using h
    | some t => simpa [step, hj] using inv_dispatchResponse h (List.mem_of_getElem? hj) (hk t hj)
  | response k fault => exact inv_handleResponse h k fault
  | cancelled id fault =>
    have hsame := handleCancelled_refused h hk
    simpa only [step, hsame] using h

/-! ## Ids that are used once -/

/-- The answers of an id, sent or in the queue. -/
def total (s : ServerSession ρ) (id : RequestId) : ℕ := s.answerCount id + s.responses.countP (·.requestId = id)

theorem drained_spec (h : ∀ m ∈ s.responses, m.context.isCancelled = false) (id : RequestId) :
    (s.drained s.responses.length).answerCount id = s.total id ∧
      (s.drained s.responses.length).receivedCount id = s.receivedCount id := by
  generalize hm : s.responses = l at h
  induction l generalizing s with
  | nil => exact ⟨by rw [total, hm]; rfl, rfl⟩
  | cons m rest ih =>
    have he : Effect { s with responses := rest } (({ s with responses := rest } : ServerSession ρ).sendResponse m.requestId m.result m.context
        none).1 m.requestId m.context true true := sendResponse_effect _ _ (h m (by simp))
    have hstep : drained s (rest.length + 1) = drained (({ s with responses := rest } : ServerSession ρ).sendResponse
        m.requestId m.result m.context none).1 rest.length := by
      rw [drained, List.replicate_succ, run_cons, step, handleResponse, hm]
      rfl
    obtain ⟨hanswers, hreceived⟩ := ih he.responses fun m' hm' => h m' (by simp [hm'])
    rw [List.length_cons, hstep, hanswers, hreceived, total, total, he.answerCount, he.responses, hm, List.countP_cons,
      receivedCount, he.received]
    refine ⟨?_, rfl⟩
    simp only [answerCount, true_and, decide_eq_true_eq]
    omega

theorem Inv.total_pos (h : s.Inv) (howns : Owns s.received ctx id) (hmem : ctx.serial ∈ s.serials) : 0 < s.total id := by
  have hown : ∀ ctx' id', Owns s.received ctx' id' → ctx'.serial = ctx.serial → id' = id := by
    intro ctx' id' howns' hserial
    have hget := howns'.received
    rw [hserial, howns.received] at hget
    exact (Option.some.inj hget).symm
  rcases List.mem_append.mp hmem with hmem | hmem
  · obtain ⟨a, ha, hserial⟩ := List.mem_map.mp hmem
    have hpos : 0 < s.answerCount id := List.countP_pos_iff.mpr ⟨a, ha, by simp [hown _ _ (h.answers a ha) hserial]⟩
    exact Nat.add_pos_left hpos _
  · obtain ⟨m, hm, hserial⟩ := List.mem_map.mp hmem
    have hpos : 0 < s.responses.countP (·.requestId = id) :=
      List.countP_pos_iff.mpr ⟨m, hm, by simp [hown _ _ (h.responses m hm) hserial]⟩
    exact Nat.add_pos_right _ hpos

theorem not_oneAnswer_of_total (id : RequestId) (hlive : ∀ m ∈ s.responses, m.context.isCancelled = false) (honce : s.receivedCount id ≤ 1)
    (htwo : 1 < s.total id) : ¬ ∀ n, (s.drained n).OneAnswer := by
  intro hall
  obtain ⟨hanswers, hreceived⟩ := drained_spec hlive id
  have hle := (hall s.responses.length).atMost id
  omega

theorem not_oneAnswer_of_error (id : RequestId) (hid : (s.sessionRequests.lookup id).isSome) (hsent : 0 < s.answerCount id)
    (honce : s.receivedCount id ≤ 1) : ¬ ∀ n, (s.drained n).OneAnswer := by
  intro hall
  have hlt : s.answerCount id < s.receivedCount id := (hall 0).cleared id hid
  omega

/-- No id was used twice. -/
structure FreshInv (s : ServerSession ρ) : Prop extends s.Inv where
  distinct : ∀ id, s.receivedCount id ≤ 1

theorem received_processIncomingRequest (r : IncomingRequest ρ) (fault : Fault) :
    (s.processIncomingRequest r fault).received = s.received ++ [r.id] := by
  unfold processIncomingRequest
  cases r.request with
  | unsupported => exact (sendError_effect rfl).received
  | handshake result =>
    cases result with
    | none => rfl
    | some result => exact (sendResponse_effect result fault rfl).received
  | other =>
    dsimp only
    split <;> rfl

theorem received_step (h : s.Inv) (e : ServerEvent ρ) :
    (step s e).received = s.received ++ match e with
      | .request r _ => [r.id]
      | _ => [] := by
  cases e with
  | request r fault => exact received_processIncomingRequest r fault
  | invokes i =>
    simp only [step, List.append_nil]
    split
    · rfl
    · split <;> rfl
  | ends i ending faults =>
    simp only [step, List.append_nil]
    split
    · rfl
    · rename_i t hi
      exact (endHandler_effect (h.running t (List.mem_of_getElem? hi)).live).received
  | responds j result pushed =>
    simp only [step, List.append_nil]
    split
    · rfl
    · rw [dispatchResponse]
      split <;> rfl
  | response k fault =>
    simp only [step, handleResponse, List.append_nil]
    split
    · rfl
    · rename_i m hm
      exact (sendResponse_effect _ _ (h.responses m (List.mem_of_getElem? hm)).live).received
  | cancelled id fault =>
    simp only [step, handleCancelledNotification, List.append_nil]
    split
    · rfl
    · rename_i ctx hid
      have he : Effect s (s.sendError id 0 "Request cancelled" none ctx fault).1 id ctx fault.isNone false :=
        sendError_effect (h.table id ctx hid).1.live
      split <;> rename_i heq <;> rw [heq] at he <;> exact he.received

theorem FreshInv.step (h : s.FreshInv) {e : ServerEvent ρ} (hf : s.Fresh e) (hk : s.Keeps e) : (step s e).FreshInv := by
  refine { server_step_inv h.toInv hk with distinct := fun id => ?_ }
  have hold := h.distinct id
  rw [receivedCount, received_step h.toInv, List.count_append]
  rw [receivedCount] at hold
  cases e with
  | request r fault =>
    rw [List.count_singleton]
    split
    · rename_i heq
      have hzero : s.received.count id = 0 := List.count_eq_zero.mpr (eq_of_beq heq ▸ hf)
      omega
    · exact hold
  | _ => simpa using hold

theorem step_not_oneAnswer (h : s.FreshInv) {e : ServerEvent ρ} (hk : ¬ s.Keeps e) : ¬ ∀ n, ((ServerSession.step s e).drained n).OneAnswer := by
  cases e with
  | request | invokes | response => exact absurd trivial hk
  | ends i ending faults =>
    simp only [Keeps, not_forall] at hk
    obtain ⟨t, hi, hsends, hbad⟩ := hk
    have howns := h.running t (List.mem_of_getElem? hi)
    have he := endHandler_effect (s := { s with running := s.running.eraseIdx i }) (e := ending) (f := faults) howns.live
    have hcount := he.answerCount t.requestId
    have honce := h.distinct t.requestId
    rw [hsends] at hcount
    simp only [ServerSession.step, hi]
    by_cases hspent : t.ctx.serial ∈ s.serials
    · refine not_oneAnswer_of_total t.requestId ?_ ?_ ?_
      · rw [he.responses]
        exact fun m hm => (h.responses m hm).live
      · rwa [receivedCount, he.received]
      · have hpos := h.total_pos howns hspent
        rw [total, hcount, he.responses]
        simp only [total, answerCount, and_self, if_true] at hpos ⊢
        omega
    · simp only [not_and, not_or, not_forall] at hbad
      obtain ⟨hresult, ctx, hid, -⟩ := hbad hspent
      refine not_oneAnswer_of_error t.requestId ?_ ?_ ?_
      · rw [he.table, if_neg fun herased => hresult herased.1, hid]
        rfl
      · rw [hcount]
        simp
      · rwa [receivedCount, he.received]
  | responds j result pushed =>
    simp only [Keeps, not_forall, not_not] at hk
    obtain ⟨t, hj, hpushed, hspent⟩ := hk
    have howns := h.callbacks t (List.mem_of_getElem? hj)
    have hpos := h.total_pos howns hspent
    simp only [ServerSession.step, hj, dispatchResponse, hpushed, if_true]
    refine not_oneAnswer_of_total t.requestId (fun m hm => ?_) (h.distinct _) ?_
    · rcases List.mem_append.mp hm with hm | hm
      · exact (h.responses m hm).live
      · rw [List.mem_singleton.mp hm]
        exact howns.live
    · simp only [total, answerCount, List.countP_append, List.countP_singleton, decide_true, if_true] at hpos ⊢
      omega
  | cancelled id fault =>
    simp only [Keeps, not_forall] at hk
    obtain ⟨ctx, hid, hnone⟩ := hk
    obtain rfl : fault = none := by simpa using hnone
    have hctx := (h.table id ctx hid).1.live
    refine not_oneAnswer_of_error id ?_ ?_ ?_
    · simp [ServerSession.step, handleCancelledNotification, hid, sendError, hctx, sendMessage]
    · simp [ServerSession.step, handleCancelledNotification, hid, sendError, hctx, sendMessage, answerCount]
    · rw [receivedCount, received_step h.toInv, List.append_nil]
      exact h.distinct id

/-! ## Runs of a session -/

theorem inv_start (stateless initialized : Bool) : Inv ({ stateless, isInitialized := initialized } : ServerSession ρ) :=
  ⟨by simp [serials], by simp, by simp, by simp, by simp, by simp⟩

/-- In every run whose steps keep it so, no request has a second answer and no answered one has an entry. Where the
client uses every id once, no other run has this property in all its states, and when their queues are worked off. -/
theorem one_answer_of_keeps (stateless initialized : Bool) (es : List (ServerEvent ρ)) :
    let s : ServerSession ρ := { stateless, isInitialized := initialized }
    (Along step Keeps s es → ∀ pre, pre <+: es → (run step s pre).OneAnswer) ∧
      (Along step Fresh s es → (∀ pre, pre <+: es → ∀ n, ((run step s pre).drained n).OneAnswer) → Along step Keeps s es) := by
  intro s
  have hinv : s.Inv := inv_start stateless initialized
  constructor
  · exact fun h => h.holds hinv (fun _ h => h.oneAnswer) fun _ _ h hk => server_step_inv h hk
  · intro hfresh
    have hstart : s.FreshInv := { hinv with distinct := by simp [s, receivedCount] }
    exact along_of_holds (I := fun s => ∀ n, (drained s n).OneAnswer) hstart hfresh (fun _ _ h hf hk => h.step hf hk)
      fun _ _ h _ hk => step_not_oneAnswer h hk

/-- A tool call that is cancelled while its asynchronous method runs is answered by the cancellation and by the result. -/
theorem cancelled_answered_twice : ¬ ∀ (es pre : List (ServerEvent Unit)), pre <+: es →
    (run step { isInitialized := true } pre).OneAnswer := by
  intro h
  have hrun := h [.request ⟨.int 1, "tools/call", 7, "s", .other⟩ none, .invokes 0, .ends 0 .suspends {},
    .cancelled (.int 1) none, .responds 0 (some ()) true, .response 0 none] _ List.prefix_rfl
  exact absurd (hrun.atMost (.int 1)) (by decide)

/-- So is one whose method calls back and then throws. -/
example : ¬ (run step ({ isInitialized := true } : ServerSession Unit) [.request ⟨.int 1, "tools/call", 7, "s", .other⟩ none,
    .invokes 0, .responds 0 (some ()) true, .ends 0 (.returns (some ())) {}, .response 0 none]).OneAnswer :=
  fun h => absurd (h.atMost (.int 1)) (by decide)

end ServerSession
end AgentProtocol.Mcp
