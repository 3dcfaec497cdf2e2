-- SUMMARY: Requests from the HTTP server to the worker threads: when each of them is answered or handed to the application.
import AgentProtocol.Mcp.Lifecycle
import AgentProtocol.Mcp.MpscQueue

/-!
# Requests and worker threads

A request is put into the queue of the thread of its session, or dropped when `Push` refuses it. The queue is the ring
buffer of `MpscQueue`, access by access. The thread pops a message: a request is authenticated, given to the transport of
its session, and answered or handed to the handlers of the application; what is thrown on the way is logged and the next
message taken. Each response goes into the task queue of the HTTP server, which may refuse it as well.

Requests are numbered by their threads. A request counts as answered when all of a response is queued: a reply, an
event stream with its answer and its end, or the beginning of the stream of a GET.
-/

namespace AgentProtocol.Mcp

open Lib

variable {ρ : Type}

/-! ## The requests of a transport -/

/-- A JSON text that is read. -/
def PostBody.isJson : PostBody ρ → Bool
  | .malformed => false
  | .unreadable => false
  | _ => true

namespace Queued

def isReply : Queued → Bool
  | .reply .. => true
  | _ => false

/-- The responses that the task queue takes. -/
def taken (took : ℕ → Bool) (queued : List Queued) : List Queued := (queued.zipIdx.filter fun p => took p.2).map Prod.fst

def complete (r : HttpRequest ρ) (queued : List Queued) : Bool :=
  queued.any isReply ||
    queued.any SessionManager.isStart && (r.method = .get || queued.contains .event && queued.contains .finish)

end Queued

namespace ServerSession

variable {s : ServerSession ρ} {id : RequestId} {ctx : RequestContext} {fault : Fault}

theorem running_sendError {code : ℤ} {message : String} {data : Option Value} :
    (s.sendError id code message data ctx fault).1.running = s.running := by
  unfold sendError
  split
  · rfl
  · exact (sendMessage_effect _).running

theorem running_sendResponse {result : Option ρ} : (s.sendResponse id result ctx fault).1.running = s.running := by
  unfold sendResponse
  dsimp only
  split
  · rfl
  · exact (sendMessage_effect _).running

theorem running_handleCancelledNotification : (s.handleCancelledNotification id fault).running = s.running := by
  unfold handleCancelledNotification
  split
  · rfl
  · rename_i ctx _
    have hrunning : (s.sendError id 0 "Request cancelled" none ctx fault).1.running = s.running := running_sendError
    split
    · rename_i heq
      rw [heq] at hrunning
      exact hrunning
    · rename_i heq
      rw [heq] at hrunning
      exact hrunning

variable (request : IncomingRequest ρ)

theorem answers_processIncomingRequest (fault : Fault) :
    ∃ answers, (s.processIncomingRequest request fault).answers = s.answers ++ answers ∧
      answers.length = if (request.request.answeredAtOnce && fault.isNone) = true then 1 else 0 := by
  unfold processIncomingRequest
  cases request.request with
  | unsupported =>
    cases fault with
    | none => exact ⟨[_], rfl, rfl⟩
    | some what => exact ⟨[], (List.append_nil _).symm, rfl⟩
  | handshake result =>
    cases result with
    | none => exact ⟨[], (List.append_nil _).symm, rfl⟩
    | some result =>
      cases fault with
      | none => exact ⟨[_], rfl, rfl⟩
      | some what => exact ⟨[], (List.append_nil _).symm, rfl⟩
  | other =>
    dsimp only
    split
    · exact ⟨[], (List.append_nil _).symm, rfl⟩
    · exact ⟨[], (List.append_nil _).symm, rfl⟩

theorem running_processIncomingRequest (hother : request.request ≠ .other) :
    (s.processIncomingRequest request fault).running = s.running := by
  unfold processIncomingRequest
  cases hrequest : request.request with
  | unsupported => exact running_sendError
  | handshake result =>
    cases result with
    | none => rfl
    | some result => exact running_sendResponse
  | other => exact absurd hrequest hother

theorem length_running_processIncomingRequest (hother : request.request = .other) :
    (s.processIncomingRequest request fault).running.length =
      s.running.length + if (s.stateless || s.isInitialized) = true then 1 else 0 := by
  simp only [processIncomingRequest, hother]
  split
  · exact List.length_append
  · rfl

end ServerSession

namespace HttpSession

open Queued

variable (cfg : TransportConfig)

/-- A POST whose body is parsed. -/
def admits (s : HttpSession ρ) (r : HttpRequest ρ) : Bool :=
  r.method = .post && !s.isTerminated && (r.headersRefused cfg.isJsonResponseEnabled).isNone

/-- A POST that passes the checks up to its message. -/
def accepts (s : HttpSession ρ) (r : HttpRequest ρ) : Bool :=
  s.admits cfg r && r.body.isJson && (s.sessionRefused r).isNone && r.versionSupported

def requested (s : HttpSession ρ) (r : HttpRequest ρ) : Option (TypedRequest ρ) :=
  match r.body with
  | .request _ _ typed => if s.accepts cfg r then some typed else none
  | _ => none

/-- A GET that passes the checks up to the protocol version. -/
def acceptsGet (s : HttpSession ρ) (r : HttpRequest ρ) : Bool :=
  r.method = .get && !cfg.stateless && !s.isTerminated && r.acceptsSse && (s.mcpSessionId = "" || s.ownId r)

/-- A refusal repeats a text of the request: what the parser says, the protocol version, or the method. -/
def refusesWithText (s : HttpSession ρ) (r : HttpRequest ρ) : Bool :=
  s.admits cfg r && (r.body matches .malformed) ||
    s.admits cfg r && r.body.isJson && (s.sessionRefused r).isNone && !r.versionSupported ||
    s.accepts cfg r && (r.body matches .invalid ..) ||
    s.acceptsGet cfg r && !r.versionSupported

def takes (s : HttpSession ρ) (fault : Fault) : TypedRequest ρ → Bool
  | .other => s.server.stateless || s.server.isInitialized
  | typed => typed.answeredAtOnce && fault.isNone

/-- The request went to the handlers. -/
def handed (s s' : HttpSession ρ) : Bool := s.server.running.length < s'.server.running.length

/-- A request that the transport and its session answer or hand over: its body is no JSON that the parser throws at, a
refusal can be put into JSON, the session takes the request and the transport its answer, and the task queue has room
for the responses. -/
structure Served (s : HttpSession ρ) (r : HttpRequest ρ) (texts : Texts) (took : ℕ → Bool) : Prop where
  readable : s.admits cfg r = true → (r.body matches .unreadable) = false
  written : s.refusesWithText cfg r = true → texts.dumps = true
  handled : ∀ typed, s.requested cfg r = some typed → s.takes texts.message typed = true
  room : s.requested cfg r ≠ some .other → took 0 = true
  roomStream : ∀ typed, s.requested cfg r = some typed → typed ≠ .other → cfg.isJsonResponseEnabled = false →
    took 1 = true ∧ took 2 = true

/-! ### What becomes of a request -/

inductive Outcome (s : HttpSession ρ) (r : HttpRequest ρ) (texts : Texts) : HttpSession ρ × List Queued → Prop
  | replied {s' : HttpSession ρ} {status : ℕ} {id : String} (running : s'.server.running = s.server.running)
      (requested : s.requested cfg r = none) (readable : s.admits cfg r = true → (r.body matches .unreadable) = false)
      (written : s.refusesWithText cfg r = true → texts.dumps = true) : Outcome s r texts (s', [.reply status id])
  | unwritten (refuses : s.refusesWithText cfg r = true) (dumps : texts.dumps = false) : Outcome s r texts (s, [])
  | unread (admits : s.admits cfg r = true) (unreadable : (r.body matches .unreadable) = true) : Outcome s r texts (s, [])
  | streams {s' : HttpSession ρ} {id : String} (running : s'.server.running = s.server.running) (method : r.method = .get)
      (written : s.refusesWithText cfg r = false) : Outcome s r texts (s', [.start id])
  | received (request : IncomingRequest ρ) (method : r.method = .post) (requested : s.requested cfg r = some request.request)
      (readable : (r.body matches .unreadable) = false) (written : s.refusesWithText cfg r = false) :
      Outcome s r texts (s.receiveRequest cfg request texts)

variable {cfg} {s : HttpSession ρ} {r : HttpRequest ρ} {texts : Texts} {took : ℕ → Bool}

theorem admits_of_not_post (h : r.method ≠ .post) : s.admits cfg r = false := by simp [admits, h]

theorem accepts_of_not_admits (h : s.admits cfg r = false) : s.accepts cfg r = false := by simp [accepts, h]

theorem requested_of_not_accepts (h : s.accepts cfg r = false) : s.requested cfg r = none := by
  unfold requested
  split
  · rw [h]
    rfl
  · rfl

variable {s' : HttpSession ρ} {status : ℕ}

theorem Outcome.reply {id : String} (running : s'.server.running = s.server.running)
    (hadmits : s.admits cfg r = false) (hget : (s.acceptsGet cfg r && !r.versionSupported) = false) :
    Outcome cfg s r texts (s', [.reply status id]) := by
  have haccepts := accepts_of_not_admits hadmits
  refine .replied running (requested_of_not_accepts haccepts) (by simp [hadmits]) ?_
  simp [refusesWithText, hadmits, haccepts, hget]

theorem Outcome.refuse (refuses : s.refusesWithText cfg r = true) (requested : s.requested cfg r = none)
    (readable : s.admits cfg r = true → (r.body matches .unreadable) = false) :
    Outcome cfg s r texts (s.refuse status texts) := by
  unfold HttpSession.refuse
  split
  · rename_i hdumps
    exact .replied rfl requested readable fun _ => hdumps
  · rename_i hdumps
    exact .unwritten refuses (by simpa using hdumps)

theorem running_receiveNotification (method : String) (cancels : Option RequestId) :
    (s.receiveNotification method cancels texts).server.running = s.server.running := by
  unfold receiveNotification
  split
  · rfl
  · split
    · rfl
    · exact ServerSession.running_handleCancelledNotification

theorem acceptsGet_of_ne (h : r.method ≠ .get) : s.acceptsGet cfg r = false := by simp [acceptsGet, h]

theorem outcome_handleMessage (hmethod : r.method = .post) (hadmits : s.admits cfg r = true) (hjson : r.body.isJson = true) :
    Outcome cfg s r texts (s.handleMessage cfg r texts) := by
  have hget : s.acceptsGet cfg r = false := acceptsGet_of_ne (by simp [hmethod])
  have hmalformed : (r.body matches .malformed) = false := by
    cases hbody : r.body <;> simp_all [PostBody.isJson]
  have hreadable : (r.body matches .unreadable) = false := by
    cases hbody : r.body <;> simp_all [PostBody.isJson]
  unfold handleMessage
  split
  · rename_i status hrefused
    have haccepts : s.accepts cfg r = false := by simp [accepts, hrefused]
    refine .replied rfl (requested_of_not_accepts haccepts) (fun _ => hreadable) ?_
    simp [refusesWithText, hmalformed, hrefused, haccepts, hget]
  · rename_i hrefused
    split
    · rename_i hversion
      have haccepts : s.accepts cfg r = true := by simp [accepts, hadmits, hjson, hrefused, hversion]
      cases hbody : r.body with
      | malformed => simp [hbody] at hmalformed
      | unreadable => simp [hbody] at hreadable
      | message =>
        refine .replied rfl (by simp [HttpSession.requested, hbody]) (fun _ => hreadable) ?_
        simp [refusesWithText, hbody, hversion]
      | invalid method hasId =>
        exact .refuse (by simp [refusesWithText, haccepts, hbody]) (by simp [HttpSession.requested, hbody]) fun _ => hreadable
      | notification method cancels =>
        refine .replied (running_receiveNotification method cancels) (by simp [HttpSession.requested, hbody]) (fun _ => hreadable) ?_
        simp [refusesWithText, hbody, hversion]
      | request id method typed =>
        refine .received _ hmethod (by simp [HttpSession.requested, hbody, haccepts]) hreadable ?_
        simp [refusesWithText, hbody, hversion]
    · rename_i hversion
      have haccepts : s.accepts cfg r = false := by simp [accepts, hversion]
      refine .refuse ?_ (requested_of_not_accepts haccepts) fun _ => hreadable
      simp [refusesWithText, hadmits, hjson, hrefused, hversion]

theorem outcome_handlePostRequest (hmethod : r.method = .post) (hlive : s.isTerminated = false) :
    Outcome cfg s r texts (s.handlePostRequest cfg r texts) := by
  have hget : s.acceptsGet cfg r = false := acceptsGet_of_ne (by simp [hmethod])
  unfold handlePostRequest
  split
  · rename_i status hheaders
    exact .reply rfl (by simp [admits, hheaders]) (by simp [hget])
  · rename_i hheaders
    have hadmits : s.admits cfg r = true := by simp [admits, hmethod, hlive, hheaders]
    cases hbody : r.body with
    | malformed =>
      refine .refuse ?_ (by simp [HttpSession.requested, hbody]) (by simp [hbody])
      simp [refusesWithText, hadmits, hbody]
    | unreadable => exact .unread hadmits (by simp [hbody])
    | _ => exact outcome_handleMessage hmethod hadmits (by simp [PostBody.isJson, hbody])

theorem outcome_handleGetRequest (hmethod : r.method = .get) (hlive : s.isTerminated = false) (hcfg : cfg.stateless = false) :
    Outcome cfg s r texts (s.handleGetRequest r texts) := by
  have hadmits : s.admits cfg r = false := admits_of_not_post (by simp [hmethod])
  have haccepts := accepts_of_not_admits hadmits
  unfold handleGetRequest
  split
  · rename_i hsse
    exact .reply rfl hadmits (by simp [acceptsGet, (by simpa using hsse : r.acceptsSse = false)])
  · rename_i hsse
    split
    · rename_i hid
      obtain ⟨hne, hown⟩ : s.mcpSessionId ≠ "" ∧ s.ownId r = false := by simpa using hid
      exact .reply rfl hadmits (by simp [acceptsGet, hne, hown])
    · rename_i hid
      have hget : s.acceptsGet cfg r = true := by
        have hsse' : r.acceptsSse = true := by simpa using hsse
        have hid' : s.mcpSessionId = "" ∨ s.ownId r = true := by
          by_contra hnot
          exact hid (by simpa [not_or] using hnot)
        simpa [acceptsGet, hmethod, hcfg, hlive, hsse'] using hid'
      split
      · rename_i hversion
        exact .refuse (by simp [refusesWithText, hget, (by simpa using hversion : r.versionSupported = false)])
          (requested_of_not_accepts haccepts) (by simp [hadmits])
      · rename_i hversion
        have hversion' : r.versionSupported = true := by simpa using hversion
        split
        · exact .reply rfl hadmits (by simp [hversion'])
        · exact .streams rfl hmethod (by simp [refusesWithText, hadmits, haccepts, hversion'])

theorem outcome_handleDeleteRequest (hmethod : r.method = .delete) : Outcome cfg s r texts (s.handleDeleteRequest r) := by
  have hadmits : s.admits cfg r = false := admits_of_not_post (by simp [hmethod])
  have hget : (s.acceptsGet cfg r && !r.versionSupported) = false := by simp [acceptsGet_of_ne (r := r) (by simp [hmethod])]
  unfold handleDeleteRequest
  split
  · exact .reply rfl hadmits hget
  · split
    · exact .reply rfl hadmits hget
    · exact .reply rfl hadmits hget

theorem outcome_handleRequest : Outcome cfg s r texts (s.handleRequest cfg r texts) := by
  unfold handleRequest
  split
  · rename_i hstateless
    obtain ⟨hcfg, hmethod⟩ : cfg.stateless = true ∧ r.method ≠ .post := by simpa using hstateless
    exact .reply rfl (admits_of_not_post hmethod) (by simp [acceptsGet, hcfg])
  · rename_i hstateless
    split
    · rename_i hterminated
      exact .reply rfl (by simp [admits, hterminated]) (by simp [acceptsGet, hterminated])
    · rename_i hterminated
      have hlive : s.isTerminated = false := by simpa using hterminated
      cases hmethod : r.method with
      | post => exact outcome_handlePostRequest hmethod hlive
      | get =>
        have hcfg : cfg.stateless = false := by simpa [hmethod] using hstateless
        exact outcome_handleGetRequest hmethod hlive hcfg
      | delete => exact outcome_handleDeleteRequest hmethod
      | other => exact .reply rfl (admits_of_not_post (by simp [hmethod])) (by simp [acceptsGet_of_ne (r := r) (by simp [hmethod])])

/-! ### When it is answered or handed over -/

theorem complete_taken_nil : complete r (taken took []) = false := rfl

theorem complete_taken_reply {id : String} : complete r (taken took [.reply status id]) = took 0 := by
  cases htook : took 0 <;> simp [complete, taken, htook, isReply]

theorem complete_taken_start {id : String} : complete r (taken took [.start id]) = (took 0 && r.method = .get) := by
  cases htook : took 0 <;> simp [complete, taken, htook, isReply, SessionManager.isStart]

theorem complete_taken_stream {id : String} (hmethod : r.method = .post) :
    complete r (taken took [.start id, .event, .finish]) = (took 0 && took 1 && took 2) := by
  cases h0 : took 0 <;> cases h1 : took 1 <;> cases h2 : took 2 <;>
    simp [complete, taken, h0, h1, h2, isReply, SessionManager.isStart, hmethod]

variable (request : IncomingRequest ρ)

theorem snd_receiveRequest : (s.receiveRequest cfg request texts).2 =
      (if cfg.isJsonResponseEnabled then [] else [.start s.mcpSessionId]) ++
        if (request.request.answeredAtOnce && texts.message.isNone) = true then s.messageQueued cfg else [] := by
  obtain ⟨answers, hanswers, hlength⟩ := s.server.answers_processIncomingRequest request texts.message
  simp only [receiveRequest, hanswers, List.drop_left]
  split at hlength
  · rename_i h
    obtain ⟨answer, rfl⟩ := List.length_eq_one_iff.mp hlength
    simp [h]
  · rename_i h
    obtain rfl := List.length_eq_zero_iff.mp hlength
    simp [h]

theorem complete_receiveRequest (hmethod : r.method = .post) : complete r (taken took (s.receiveRequest cfg request texts).2) =
      (request.request.answeredAtOnce && texts.message.isNone && took 0 && (cfg.isJsonResponseEnabled || took 1 && took 2)) := by
  rw [snd_receiveRequest]
  cases hanswered : (request.request.answeredAtOnce && texts.message.isNone) <;> cases hjson : cfg.isJsonResponseEnabled
  · simp [complete_taken_start, hmethod]
  · simp [complete_taken_nil]
  · simp [messageQueued, hjson, complete_taken_stream hmethod, Bool.and_assoc]
  · simp [messageQueued, hjson, complete_taken_reply]

theorem handed_of_running (h : s'.server.running = s.server.running) : s.handed s' = false := by
  simp [handed, h]

theorem handed_receiveRequest (hother : request.request = .other) :
    s.handed (s.receiveRequest cfg request texts).1 = (s.server.stateless || s.server.isInitialized) := by
  simp only [handed, receiveRequest, ServerSession.length_running_processIncomingRequest request hother]
  cases hinitialized : s.server.stateless || s.server.isInitialized <;> simp

theorem not_handed_receiveRequest (hother : request.request ≠ .other) : s.handed (s.receiveRequest cfg request texts).1 = false :=
  handed_of_running (ServerSession.running_processIncomingRequest request hother)

theorem served_receiveRequest (hmethod : r.method = .post)
    (hrequested : s.requested cfg r = some request.request) (hreadable : (r.body matches .unreadable) = false)
    (hwritten : s.refusesWithText cfg r = false) : ((complete r (taken took (s.receiveRequest cfg request texts).2)).toNat +
      (s.handed (s.receiveRequest cfg request texts).1).toNat = 1 ↔ Served cfg s r texts took) ∧
    (complete r (taken took (s.receiveRequest cfg request texts).2)).toNat +
      (s.handed (s.receiveRequest cfg request texts).1).toNat ≤ 1 := by
  rw [complete_receiveRequest request hmethod]
  by_cases hother : request.request = .other
  · rw [handed_receiveRequest request hother]
    have hnot : request.request.answeredAtOnce = false := by rw [hother]; rfl
    have hserved : Served cfg s r texts took ↔ (s.server.stateless || s.server.isInitialized) = true := by
      constructor
      · intro h
        simpa [takes, hother] using h.handled _ hrequested
      · intro h
        refine ⟨fun _ => hreadable, by simp [hwritten], ?_, ?_, ?_⟩
        · intro typed htyped
          obtain rfl := Option.some.inj (hrequested.symm.trans htyped)
          simpa [takes, hother] using h
        · intro hne
          exact absurd (hrequested.trans (congrArg some hother)) hne
        · intro typed htyped hne
          obtain rfl := Option.some.inj (hrequested.symm.trans htyped)
          exact absurd hother hne
    rw [hserved, hnot]
    cases s.server.stateless || s.server.isInitialized <;> simp
  · rw [not_handed_receiveRequest request hother]
    have htakes : s.takes texts.message request.request = (request.request.answeredAtOnce && texts.message.isNone) := by
      cases hrequest : request.request with
      | other => exact absurd hrequest hother
      | _ => rfl
    have hserved : Served cfg s r texts took ↔ (request.request.answeredAtOnce && texts.message.isNone && took 0 &&
        (cfg.isJsonResponseEnabled || took 1 && took 2)) = true := by
      constructor
      · intro h
        have hhandled := h.handled _ hrequested
        have hroom := h.room (by rw [hrequested]; simpa using hother)
        have hstream := h.roomStream _ hrequested hother
        rw [htakes] at hhandled
        rw [hhandled, hroom]
        cases hjson : cfg.isJsonResponseEnabled with
        | true => rfl
        | false => simpa using hstream hjson
      · intro h
        rw [Bool.and_eq_true, Bool.and_eq_true] at h
        obtain ⟨⟨hhandled, hroom⟩, hstream⟩ := h
        refine ⟨fun _ => hreadable, by simp [hwritten], ?_, fun _ => hroom, ?_⟩
        · intro typed htyped
          obtain rfl := Option.some.inj (hrequested.symm.trans htyped)
          rw [htakes, hhandled]
        · intro typed _ _ hjson
          simpa [hjson] using hstream
    rw [hserved]
    cases request.request.answeredAtOnce && texts.message.isNone && took 0 && (cfg.isJsonResponseEnabled || took 1 && took 2) <;> simp

theorem Outcome.served {out : HttpSession ρ × List Queued} (h : Outcome cfg s r texts out) :
    ((complete r (taken took out.2)).toNat + (s.handed out.1).toNat = 1 ↔ Served cfg s r texts took) ∧
      (complete r (taken took out.2)).toNat + (s.handed out.1).toNat ≤ 1 := by
  cases h with
  | replied hrunning hrequested hreadable hwritten =>
    have hserved : Served cfg s r texts took ↔ took 0 = true := by
      refine ⟨fun h => h.room (by simp [hrequested]), fun h => ⟨hreadable, hwritten, ?_, fun _ => h, ?_⟩⟩
      · simp [hrequested]
      · simp [hrequested]
    rw [hserved, complete_taken_reply, handed_of_running hrunning]
    cases took 0 <;> simp
  | unwritten hrefuses hdumps =>
    have hserved : ¬Served cfg s r texts took := fun h => by
      have hdumps' := h.written hrefuses
      simp [hdumps] at hdumps'
    simp [complete_taken_nil, handed_of_running, hserved]
  | unread hadmits hunreadable =>
    have hserved : ¬Served cfg s r texts took := fun h => by
      have hreadable := h.readable hadmits
      simp [hunreadable] at hreadable
    simp [complete_taken_nil, handed_of_running, hserved]
  | streams hrunning hmethod hwritten =>
    have hadmits : s.admits cfg r = false := admits_of_not_post (by simp [hmethod])
    have hrequested : s.requested cfg r = none := requested_of_not_accepts (accepts_of_not_admits hadmits)
    have hserved : Served cfg s r texts took ↔ took 0 = true := by
      refine ⟨fun h => h.room (by simp [hrequested]), fun h => ⟨by simp [hadmits], by simp [hwritten], ?_, fun _ => h, ?_⟩⟩
      · simp [hrequested]
      · simp [hrequested]
    rw [hserved, complete_taken_start, handed_of_running hrunning]
    cases took 0 <;> simp [hmethod]
  | received request hmethod hrequested hreadable hwritten =>
    exact served_receiveRequest request hmethod hrequested hreadable hwritten

end HttpSession

/-! ## Worker threads -/

/-- What the authenticator and the authorizer of the server say, `passed` where there is none. -/
inductive Authentication where
  | passed
  /-- A 401 with the authenticator's text, which can be put into JSON or not. -/
  | rejected (dumps : Bool)
  | forbidden
  | throws

/-- What the rest of the program does while a message is handled: the authenticator, the parsers, and the task queue of
the HTTP server, which takes a response or has no room for it. -/
structure Environment where
  authentication : Authentication := .passed
  texts : Texts := {}
  took : ℕ → Bool := fun _ => true

inductive WorkerMessage (ρ : Type) where
  | request (number : ℕ) (request : HttpRequest ρ) (sessionId : String)
  | response (sessionId : String) (message : DispatchResponseMsg ρ)

/-- A worker thread: its sessions, its queue, how many requests were delivered to it, and which of them were answered
and which were handed to the application. -/
structure Worker (ρ : Type) where
  sessions : Dict String (HttpSession ρ) := ∅
  queue : MpscQueue (WorkerMessage ρ) := {}
  delivered : ℕ := 0
  answered : List ℕ := []
  handed : List ℕ := []

def queueCapacity : Capacity := ⟨4096, 12, by norm_num, rfl⟩

/-- What a request does: the sessions after it, the responses, and whether it went to the application. -/
structure Dispatched (ρ : Type) where
  sessions : Dict String (HttpSession ρ)
  queued : List Queued := []
  handed : Bool := false

namespace Worker

variable (cfg : TransportConfig)

/-- The session for a request: one of its own, the session of the id, or a new one. -/
def sessionFor (sessions : Dict String (HttpSession ρ)) (sessionId : String) : Option (HttpSession ρ) :=
  if cfg.stateless then some { server := { stateless := true } }
  else
    match sessions.lookup sessionId with
    | some s => some s
    | none => newSession sessionId

/-- `HandleRequest` of the manager. -/
def handleRequest (sessions : Dict String (HttpSession ρ)) (sessionId : String) (r : HttpRequest ρ) (env : Environment) :
    Dispatched ρ :=
  match env.authentication with
  | .throws => { sessions }
  | .rejected dumps => { sessions, queued := if dumps then [.reply 401 ""] else [] }
  | .forbidden => { sessions, queued := [.reply 403 ""] }
  | .passed =>
    match sessionFor cfg sessions sessionId with
    | none => { sessions }
    | some s =>
      let out := s.handleRequest cfg r env.texts
      { sessions := if cfg.stateless then sessions else sessions.set sessionId out.1
        queued := out.2
        handed := s.handed out.1 }

def onSession (w : Worker ρ) (sessionId : String) (f : ServerSession ρ → ServerSession ρ) : Worker ρ :=
  match w.sessions.lookup sessionId with
  | none => w
  | some s => { w with sessions := w.sessions.set sessionId { s with server := f s.server } }

/-- `DispatchRequest`: a thread that is not at work on the queue calls `Push`. -/
def deliver (w : Worker ρ) (p : ℕ) (r : HttpRequest ρ) (sessionId : String) : Worker ρ :=
  match w.queue.producers p with
  | .idle =>
    { w with
      queue := w.queue.setProducer p (.loading (.request w.delivered r sessionId))
      delivered := w.delivered + 1 }
  | _ => w

/-- `DispatchResponse`, which a callback of the session calls. -/
def dispatchResponse (w : Worker ρ) (p : ℕ) (sessionId : String) (j : ℕ) (result : Option ρ) : Worker ρ :=
  match (w.sessions.lookup sessionId).bind fun s => s.server.callbacks[j]? with
  | none => w
  | some callback =>
    { w with queue := w.queue.step queueCapacity (.push p (.response sessionId ⟨callback.requestId, result, callback.ctx⟩)) }

/-- The next access of the `Push` that a thread is in. -/
def produce (w : Worker ρ) (p : ℕ) : Worker ρ := { w with queue := w.queue.pushStep queueCapacity p }

def handle (w : Worker ρ) (env : Environment) : WorkerMessage ρ → Worker ρ
  | .response sessionId m =>
    w.onSession sessionId fun s => (s.sendResponse m.requestId m.result m.context env.texts.message).1
  | .request number r sessionId =>
    let out := handleRequest cfg w.sessions sessionId r env
    { w with
      sessions := out.sessions
      answered := w.answered ++ (if Queued.complete r (Queued.taken env.took out.queued) then [number] else [])
      handed := w.handed ++ (if out.handed then [number] else []) }

/-- `HandleQueueNotification`: the next access of `TryPop`, and what is done with the message that it returns. -/
def consume (w : Worker ρ) (env : Environment) : Worker ρ :=
  let w' : Worker ρ := { w with queue := w.queue.popStep queueCapacity }
  match w.queue.consumer with
  | .discounting message => w'.handle cfg env message
  | _ => w'

/-! ## No request vanishes -/

def number? : WorkerMessage ρ → Option ℕ
  | .request number .. => some number
  | .response .. => none

end Worker

/-- The request that a thread is about to put into the queue. -/
def Producer.carried : Producer (WorkerMessage ρ) → Option ℕ
  | .loading message => Worker.number? message
  | .claiming message => Worker.number? message
  | _ => none

namespace Worker

variable (cfg : TransportConfig)

def pushing (w : Worker ρ) (p : ℕ) : Option ℕ := (w.queue.producers p).carried

/-- The number of times a request waits: `Push` has taken a place for it, and `TryPop` has not returned it. -/
def waiting (w : Worker ρ) (n : ℕ) : ℕ := ((w.queue.claimed.drop w.queue.popped.length).filterMap number?).count n

/-- How often it waits, was answered, or was handed over. -/
def places (w : Worker ρ) (n : ℕ) : ℕ := w.waiting n + w.answered.count n + w.handed.count n

/-- A request is served: its session can be had, and the session serves it. -/
def Serves (sessions : Dict String (HttpSession ρ)) (sessionId : String) (r : HttpRequest ρ) (env : Environment) : Prop :=
  match env.authentication with
  | .throws => False
  | .rejected dumps => dumps = true ∧ env.took 0 = true
  | .forbidden => env.took 0 = true
  | .passed => ∃ s, sessionFor cfg sessions sessionId = some s ∧ s.Served cfg r env.texts env.took

/-- `Push` does not refuse a request: `size_` is below the capacity. -/
def HasRoom (w : Worker ρ) (p : ℕ) : Prop :=
  ∀ number r sessionId, w.queue.producers p = .loading (.request number r sessionId) → w.queue.size.toNat < queueCapacity.value

/-- The request that `TryPop` returns is served. -/
def ServesNext (w : Worker ρ) (env : Environment) : Prop :=
  ∀ number r sessionId, w.queue.consumer = .discounting (.request number r sessionId) → Serves cfg w.sessions sessionId r env

/-- Every request that was delivered is in one place, and no other is anywhere. -/
structure Inv (w : Worker ρ) : Prop where
  queue : MpscQueue.Inv queueCapacity w.queue
  pushing : ∀ p n, w.pushing p = some n → n < w.delivered ∧ w.places n = 0
  unique : ∀ p q n, w.pushing p = some n → w.pushing q = some n → p = q
  placed : ∀ n < w.delivered, (∀ p, w.pushing p ≠ some n) → w.places n = 1
  undelivered : ∀ n, w.delivered ≤ n → w.places n = 0

/-- Every request that was delivered is about to be put into the queue, or waits, or exactly one of the two happened to it.
Those that wait are popped when no thread is at work on the queue. -/
structure Keeps (w : Worker ρ) : Prop where
  once : ∀ n < w.delivered, (∃ p, w.pushing p = some n) ∧ w.places n = 0 ∨ (∀ p, w.pushing p ≠ some n) ∧ w.places n = 1
  drains : (∀ p, (w.queue.producers p).position = none) →
    ∃ k, (run (MpscQueue.step queueCapacity) w.queue (List.replicate k .consumer)).popped = w.queue.claimed

variable {cfg} {w w' : Worker ρ} {sessions : Dict String (HttpSession ρ)} {sessionId : String} {r : HttpRequest ρ} {env : Environment}
  {p : ℕ} {message : WorkerMessage ρ}

theorem Inv.keeps (h : w.Inv) : w.Keeps where
  once n hn := by
    by_cases hpushing : ∃ p, w.pushing p = some n
    · obtain ⟨p, hp⟩ := hpushing
      exact .inl ⟨⟨p, hp⟩, (h.pushing p n hp).2⟩
    · have hnone : ∀ p, w.pushing p ≠ some n := fun p hp => hpushing ⟨p, hp⟩
      exact .inr ⟨hnone, h.placed n hn hnone⟩
  drains := h.queue.drains

theorem serves_iff (cfg : TransportConfig) (sessions : Dict String (HttpSession ρ)) (sessionId : String) (r : HttpRequest ρ)
    (env : Environment) : ((Queued.complete r (Queued.taken env.took (handleRequest cfg sessions sessionId r env).queued)).toNat +
        (handleRequest cfg sessions sessionId r env).handed.toNat = 1 ↔ Serves cfg sessions sessionId r env) ∧
      (Queued.complete r (Queued.taken env.took (handleRequest cfg sessions sessionId r env).queued)).toNat +
        (handleRequest cfg sessions sessionId r env).handed.toNat ≤ 1 := by
  unfold handleRequest Serves
  cases env.authentication with
  | throws => simp [HttpSession.complete_taken_nil]
  | rejected dumps => cases dumps <;> simp [HttpSession.complete_taken_nil, HttpSession.complete_taken_reply, Bool.toNat_le]
  | forbidden => simp [HttpSession.complete_taken_reply, Bool.toNat_le]
  | passed =>
    dsimp only
    cases hs : sessionFor cfg sessions sessionId with
    | none => simp [HttpSession.complete_taken_nil]
    | some s =>
      have houtcome : HttpSession.Outcome cfg s r env.texts (s.handleRequest cfg r env.texts) := HttpSession.outcome_handleRequest
      simpa using houtcome.served

/-! ### Steps -/

theorem inv_empty : ({} : Worker ρ).Inv where
  queue := MpscQueue.Inv.start queueCapacity
  pushing p n h := by cases h
  unique p q n h := by cases h
  placed n hn := absurd hn (Nat.not_lt_zero n)
  undelivered n _ := rfl

theorem Inv.same (h : w.Inv) (hqueue : MpscQueue.Inv queueCapacity w'.queue) (hpushing : ∀ p, w'.pushing p = w.pushing p)
    (hplaces : ∀ n, w'.places n = w.places n) (hdelivered : w'.delivered = w.delivered) : w'.Inv := by
  refine ⟨hqueue, ?_, ?_, ?_, ?_⟩
  · simpa only [hpushing, hplaces, hdelivered] using h.pushing
  · simpa only [hpushing] using h.unique
  · simpa only [hpushing, hplaces, hdelivered] using h.placed
  · simpa only [hplaces, hdelivered] using h.undelivered

theorem Inv.onSession (h : w.Inv) (sessionId : String) (f : ServerSession ρ → ServerSession ρ) : (w.onSession sessionId f).Inv := by
  unfold Worker.onSession
  split
  · exact h
  · exact h.same h.queue (fun _ => rfl) (fun _ => rfl) rfl

/-! ### Putting messages into the queue -/

variable {u : MpscQueue (WorkerMessage ρ)} {next : Producer (WorkerMessage ρ)}

theorem pushing_update (hproducers : u.producers = Function.update w.queue.producers p next) (q : ℕ) :
    pushing { w with queue := u } q = if q = p then next.carried else w.pushing q := by
  rw [pushing, hproducers, Function.update_apply]
  split <;> rfl

theorem Inv.advance (h : w.Inv) (hqueue : MpscQueue.Inv queueCapacity u)
    (hproducers : u.producers = Function.update w.queue.producers p next)
    (hcarried : next.carried = w.pushing p) (hclaimed : u.claimed = w.queue.claimed)
    (hpopped : u.popped = w.queue.popped) : Inv { w with queue := u } := by
  refine h.same hqueue (fun q => ?_) (fun n => ?_) rfl
  · rw [pushing_update hproducers]
    split
    · rename_i hq
      rw [hcarried, hq]
    · rfl
  · simp only [places, waiting, hclaimed, hpopped]

theorem Inv.deliver (h : w.Inv) (p : ℕ) (r : HttpRequest ρ) (sessionId : String) : (w.deliver p r sessionId).Inv := by
  unfold Worker.deliver
  split
  · rename_i hidle
    have hpushing : ∀ q, Worker.pushing { w with queue := w.queue.setProducer p (.loading (.request w.delivered r sessionId)) } q =
        if q = p then (Producer.loading (WorkerMessage.request w.delivered r sessionId)).carried else w.pushing q := pushing_update rfl
    have hnone : w.pushing p = none := by rw [Worker.pushing, hidle]; rfl
    have hnew : ∀ q, w.pushing q ≠ some w.delivered := fun q hq => absurd (h.pushing q _ hq).1 (lt_irrefl _)
    refine ⟨?_, fun q n hq => ?_, fun q q' n hq hq' => ?_, fun n hn hnot => ?_, fun n hn => h.undelivered n (by exact Nat.le_of_succ_le hn)⟩
    · exact h.queue.setProducer (by rw [hidle]; rfl) (by rw [hidle]; rfl) fun _ _ _ heq => by cases heq
    · replace hq := (hpushing q).symm.trans hq
      split at hq
      · obtain rfl : w.delivered = n := Option.some.inj hq
        exact ⟨Nat.lt_succ_self _, h.undelivered _ le_rfl⟩
      · exact (h.pushing q n hq).imp_left Nat.lt_succ_of_lt
    · replace hq := (hpushing q).symm.trans hq
      replace hq' := (hpushing q').symm.trans hq'
      split at hq <;> split at hq'
      · rename_i heq heq'
        exact heq.trans heq'.symm
      · obtain rfl : w.delivered = n := Option.some.inj hq
        exact absurd hq' (hnew q')
      · obtain rfl : w.delivered = n := Option.some.inj hq'
        exact absurd hq (hnew q)
      · exact h.unique q q' n hq hq'
    · have hne : n ≠ w.delivered := by
        rintro rfl
        exact hnot p ((hpushing p).trans (if_pos rfl))
      refine h.placed n (by have hn : n < w.delivered + 1 := hn; omega) fun q hq => hnot q ((hpushing q).trans ?_)
      rw [if_neg]
      · exact hq
      · rintro rfl
        rw [hnone] at hq
        cases hq
  · exact h

theorem Inv.dispatchResponse (h : w.Inv) (p : ℕ) (sessionId : String) (j : ℕ) (result : Option ρ) :
    (w.dispatchResponse p sessionId j result).Inv := by
  unfold Worker.dispatchResponse
  split
  · exact h
  · rename_i callback _
    have hqueue := h.queue.step (.push p (.response sessionId ⟨callback.requestId, result, callback.ctx⟩)) trivial
    rw [MpscQueue.step] at hqueue ⊢
    cases hproducer : w.queue.producers p with
    | idle =>
      rw [hproducer] at hqueue
      refine h.advance hqueue rfl ?_ rfl rfl
      rw [Worker.pushing, hproducer]
      rfl
    | loading | claiming | owning | counting => exact h

theorem waiting_claim (hpopped : w.queue.popped.length ≤ w.queue.claimed.length) (message : WorkerMessage ρ) (n : ℕ) :
    (((w.queue.claimed ++ [message]).drop w.queue.popped.length).filterMap number?).count n =
      w.waiting n + if number? message = some n then 1 else 0 := by
  rw [List.drop_append_of_le_length hpopped, List.filterMap_append, List.count_append, waiting]
  cases hnumber : number? message with
  | none => simp [hnumber]
  | some k => simp [hnumber, List.count_singleton]

theorem Inv.claim (h : w.Inv) (hproducer : w.queue.producers p = .claiming message)
    (hqueue : MpscQueue.Inv queueCapacity (w.queue.pushStep queueCapacity p)) : (w.produce p).Inv := by
  have hcarried : w.pushing p = number? message := by rw [Worker.pushing, hproducer]; rfl
  have hstep : w.queue.pushStep queueCapacity p = { w.queue.setProducer p (.owning .waiting message w.queue.head) with
      head := w.queue.head + 1, claimed := w.queue.claimed ++ [message] } := by
    rw [MpscQueue.pushStep, hproducer]
  have hpushing : ∀ q, (w.produce p).pushing q = if q = p then none else w.pushing q :=
    pushing_update (u := w.queue.pushStep queueCapacity p) (by rw [hstep]; rfl)
  have hplaces : ∀ n, (w.produce p).places n = w.places n + if number? message = some n then 1 else 0 := by
    intro n
    have hwaiting : (w.produce p).waiting n = w.waiting n + if number? message = some n then 1 else 0 := by
      rw [waiting, Worker.produce, hstep]
      exact waiting_claim h.queue.popped_le message n
    rw [places, hwaiting, places]
    simp only [Worker.produce]
    omega
  have hother : ∀ q n, w.pushing q = some n → q ≠ p → number? message ≠ some n := by
    intro q n hq hne hnumber
    exact hne (h.unique q p n hq (hcarried.trans hnumber))
  refine ⟨hqueue, fun q n hq => ?_, fun q q' n hq hq' => ?_, fun n hn hnot => ?_, fun n hn => ?_⟩
  · rw [hpushing] at hq
    split at hq
    · cases hq
    · rename_i hne
      rw [hplaces, if_neg (hother q n hq hne)]
      exact h.pushing q n hq
  · rw [hpushing] at hq hq'
    split at hq
    · cases hq
    · split at hq'
      · cases hq'
      · exact h.unique q q' n hq hq'
  · rw [hplaces]
    by_cases hnumber : number? message = some n
    · rw [if_pos hnumber, (h.pushing p n (hcarried.trans hnumber)).2]
    · rw [if_neg hnumber]
      refine h.placed n hn fun q hq => hnot q ?_
      rw [hpushing, if_neg]
      · exact hq
      · rintro rfl
        exact hnumber (hcarried.symm.trans hq)
  · rw [hplaces, h.undelivered n hn, if_neg]
    intro hnumber
    exact absurd (h.pushing p n (hcarried.trans hnumber)).1 (Nat.not_lt.mpr hn)

theorem Inv.produce (h : w.Inv) (hclaims : w.queue.Claims queueCapacity (.producer p)) (hroom : w.HasRoom p) :
    (w.produce p).Inv := by
  have hqueue := h.queue.pushStep hclaims
  cases hproducer : w.queue.producers p with
  | idle => simpa only [Worker.produce, MpscQueue.pushStep, hproducer] using h
  | claiming message => exact h.claim hproducer hqueue
  | loading message =>
    have hcarried : w.pushing p = number? message := by rw [Worker.pushing, hproducer]; rfl
    have hstep : w.queue.pushStep queueCapacity p =
        w.queue.setProducer p (if queueCapacity.value ≤ w.queue.size.toNat then .idle else .claiming message) := by
      rw [MpscQueue.pushStep, hproducer]
    rw [hstep] at hqueue
    rw [Worker.produce, hstep]
    refine h.advance hqueue rfl ?_ rfl rfl
    rw [hcarried]
    split
    · rename_i hfull
      cases message with
      | response => rfl
      | request number r sessionId => exact absurd (hroom number r sessionId hproducer) (Nat.not_lt.mpr hfull)
    · rfl
  | owning stage message pos =>
    have hcarried : w.pushing p = none := by rw [Worker.pushing, hproducer]; rfl
    cases stage with
    | waiting =>
      by_cases hready : (w.queue.buffer (queueCapacity.index pos)).ready = true
      · simpa only [Worker.produce, MpscQueue.pushStep, hproducer, if_pos hready] using h
      · have hstep : w.queue.pushStep queueCapacity p = w.queue.setProducer p (.owning .storing message pos) := by
          rw [MpscQueue.pushStep, hproducer]
          exact if_neg hready
        rw [hstep] at hqueue
        rw [Worker.produce, hstep]
        exact h.advance hqueue rfl hcarried.symm rfl rfl
    | storing | publishing =>
      simp only [MpscQueue.pushStep, hproducer] at hqueue
      simp only [Worker.produce, MpscQueue.pushStep, hproducer]
      exact h.advance hqueue rfl hcarried.symm rfl rfl
  | counting pos =>
    have hcarried : w.pushing p = none := by rw [Worker.pushing, hproducer]; rfl
    simp only [MpscQueue.pushStep, hproducer] at hqueue
    simp only [Worker.produce, MpscQueue.pushStep, hproducer]
    have hidle : (Producer.idle : Producer (WorkerMessage ρ)).carried = w.pushing p := hcarried.symm
    exact h.advance hqueue rfl hidle rfl rfl

theorem Inv.not_keeps_produce (h : w.Inv) (hfull : ¬w.HasRoom p) : ¬(w.produce p).Keeps := by
  unfold HasRoom at hfull
  push Not at hfull
  obtain ⟨number, r, sessionId, hproducer, hle⟩ := hfull
  have hcarried : w.pushing p = some number := by rw [Worker.pushing, hproducer]; rfl
  obtain ⟨hlt, hplaces⟩ := h.pushing p number hcarried
  have hstep : w.produce p = { w with queue := w.queue.setProducer p .idle } := by
    rw [Worker.produce, MpscQueue.pushStep, hproducer]
    dsimp only
    rw [if_pos hle]
  intro hkeeps
  rw [hstep] at hkeeps
  rcases hkeeps.once number hlt with ⟨⟨q, hq⟩, -⟩ | ⟨-, hone⟩
  · rw [pushing_update rfl] at hq
    split at hq
    · cases hq
    · rename_i hne
      exact hne (h.unique q p number hq hcarried)
  · have hzero : places { w with queue := w.queue.setProducer p .idle } number = 0 := hplaces
    omega

/-! ### Taking messages out of it -/

theorem places_pop (h : w.Inv) (hconsumer : w.queue.consumer = .discounting message) (n : ℕ) :
    places { w with queue := w.queue.popStep queueCapacity } n + (if number? message = some n then 1 else 0) = w.places n := by
  have hdrop := h.queue.drop_popped hconsumer
  have hwaiting : waiting { w with queue := w.queue.popStep queueCapacity } n + (if number? message = some n then 1 else 0) =
      w.waiting n := by
    rw [waiting, waiting, hdrop, MpscQueue.popStep, hconsumer]
    cases hnumber : number? message with
    | none => simp [hnumber]
    | some k => simp [hnumber, List.count_cons]
  simp only [places] at hwaiting ⊢
  omega

theorem count_ite (b : Bool) (number n : ℕ) : (if b then [number] else []).count n = if number = n then b.toNat else 0 := by
  cases b with
  | false => simp
  | true => simp [List.count_singleton]

theorem places_handle (cfg : TransportConfig) (env : Environment) (number : ℕ) (n : ℕ) :
    (w.handle cfg env (.request number r sessionId)).places n = w.places n +
      if number = n then (Queued.complete r (Queued.taken env.took (handleRequest cfg w.sessions sessionId r env).queued)).toNat +
        (handleRequest cfg w.sessions sessionId r env).handed.toNat else 0 := by
  simp only [handle, places, waiting, List.count_append, count_ite]
  split <;> omega

theorem consume_of_discounting (hconsumer : w.queue.consumer = .discounting message) :
    w.consume cfg env = handle cfg { w with queue := w.queue.popStep queueCapacity } env message := by
  rw [consume, hconsumer]

theorem Inv.pop (h : w.Inv) (hnone : ∀ message, w.queue.consumer ≠ .discounting message) :
    Inv { w with queue := w.queue.popStep queueCapacity } := by
  have hpopped : (w.queue.popStep queueCapacity).popped = w.queue.popped := by
    rw [MpscQueue.popStep]
    cases hconsumer : w.queue.consumer with
    | discounting message => exact absurd hconsumer (hnone message)
    | idle | checking | taking | clearing | advancing => rfl
  refine h.same h.queue.popStep (fun p => ?_) (fun n => ?_) rfl
  · rw [Worker.pushing, MpscQueue.popStep_producers, Worker.pushing]
  · simp only [places, waiting, MpscQueue.popStep_claimed, hpopped]

theorem Inv.consume (h : w.Inv) (hserves : w.ServesNext cfg env) : (w.consume cfg env).Inv := by
  cases hconsumer : w.queue.consumer with
  | discounting message =>
    have hpushing : ∀ p, Worker.pushing { w with queue := w.queue.popStep queueCapacity } p = w.pushing p := fun p => by
      rw [Worker.pushing, MpscQueue.popStep_producers, Worker.pushing]
    have hplaces := places_pop h hconsumer
    rw [consume_of_discounting hconsumer]
    cases message with
    | response sessionId m =>
      have hpop : Inv { w with queue := w.queue.popStep queueCapacity } := h.same h.queue.popStep hpushing hplaces rfl
      exact hpop.onSession sessionId fun s => (s.sendResponse m.requestId m.result m.context env.texts.message).1
    | request number r sessionId =>
      have hone := (serves_iff ..).1.mpr (hserves number r sessionId hconsumer)
      refine h.same h.queue.popStep hpushing (fun n => ?_) rfl
      rw [places_handle, ← hplaces n, hone]
      simp [number?]
  | idle | checking | taking | clearing | advancing =>
    rw [Worker.consume, hconsumer]
    exact h.pop (by simp [hconsumer])

theorem Inv.not_keeps_consume (h : w.Inv) (hserves : ¬w.ServesNext cfg env) : ¬(w.consume cfg env).Keeps := by
  unfold ServesNext at hserves
  push Not at hserves
  obtain ⟨number, r, sessionId, hconsumer, hnot⟩ := hserves
  obtain ⟨hone, hle⟩ := serves_iff cfg w.sessions sessionId r env
  have hnone := mt hone.mp hnot
  have hplaces := places_pop h hconsumer number
  rw [number?, if_pos rfl] at hplaces
  have hpushing : ∀ p, w.pushing p ≠ some number := fun p hp => by
    have hzero := (h.pushing p number hp).2
    omega
  have hlt : number < w.delivered := by
    by_contra hge
    have hzero := h.undelivered number (Nat.not_lt.mp hge)
    omega
  have hplaced := h.placed number hlt hpushing
  intro hkeeps
  rw [consume_of_discounting hconsumer] at hkeeps
  rcases hkeeps.once number hlt with ⟨⟨p, hp⟩, -⟩ | ⟨-, honce⟩
  · refine hpushing p (Eq.trans ?_ hp)
    show w.pushing p = ((w.queue.popStep queueCapacity).producers p).carried
    rw [MpscQueue.popStep_producers, Worker.pushing]
  · rw [places_handle, if_pos rfl] at honce
    dsimp only at honce
    omega

end Worker

/-! ## The manager -/

/-- `ServerManager`: the worker threads. -/
structure ServerManager (ρ : Type) where
  workers : ℕ → Worker ρ := fun _ => {}

/-- What happens: a thread delivers a request, or makes the next access of its `Push`; a worker thread makes the next access
of its `TryPop`; a handler of a session passes its callback on or ends; and a thread calls a callback. -/
inductive DispatchEvent (ρ : Type) where
  | deliver (p : ℕ) (r : HttpRequest ρ) (generated : GeneratedId)
  | produce (thread p : ℕ)
  | consume (thread : ℕ) (env : Environment)
  | invokes (sessionId : String) (i : ℕ)
  | ends (sessionId : String) (i : ℕ) (ending : Ending ρ) (faults : Faults)
  | responds (p : ℕ) (sessionId : String) (j : ℕ) (result : Option ρ)

namespace ServerManager

open SessionManager (contextId)

variable (cfg : TransportConfig) (threadIdForSession : String → ℕ)

def modify (m : ServerManager ρ) (thread : ℕ) (f : Worker ρ → Worker ρ) : ServerManager ρ :=
  ⟨Function.update m.workers thread (f (m.workers thread))⟩

def step (m : ServerManager ρ) : DispatchEvent ρ → ServerManager ρ
  | .deliver p r generated =>
    m.modify (threadIdForSession (contextId r generated)) fun w => w.deliver p r (contextId r generated)
  | .produce thread p => m.modify thread fun w => w.produce p
  | .consume thread env => m.modify thread fun w => w.consume cfg env
  | .invokes sessionId i =>
    m.modify (threadIdForSession sessionId) fun w => w.onSession sessionId fun s => s.step (.invokes i)
  | .ends sessionId i ending faults =>
    m.modify (threadIdForSession sessionId) fun w => w.onSession sessionId fun s => s.step (.ends i ending faults)
  | .responds p sessionId j result =>
    m.modify (threadIdForSession sessionId) fun w => w.dispatchResponse p sessionId j result

/-- No request that was delivered is lost, and none is answered and handed over. -/
def NoneVanishes (m : ServerManager ρ) : Prop := ∀ thread, (m.workers thread).Keeps

/-- No thread takes a place of a queue that another one still fills. -/
def Claims (m : ServerManager ρ) : DispatchEvent ρ → Prop
  | .produce thread p => (m.workers thread).queue.Claims queueCapacity (.producer p)
  | _ => True

/-- The queue of its thread does not refuse a request, and the request is served when the thread takes it. -/
def Attends (m : ServerManager ρ) : DispatchEvent ρ → Prop
  | .produce thread p => (m.workers thread).HasRoom p
  | .consume thread env => (m.workers thread).ServesNext cfg env
  | _ => True

def Inv (m : ServerManager ρ) : Prop := ∀ thread, (m.workers thread).Inv

variable {cfg threadIdForSession} {m : ServerManager ρ} {thread : ℕ} {f : Worker ρ → Worker ρ}

@[simp] theorem workers_modify_self : (m.modify thread f).workers thread = f (m.workers thread) := Function.update_self ..

theorem Inv.modify (h : m.Inv) (thread : ℕ) (f : Worker ρ → Worker ρ) (hf : (f (m.workers thread)).Inv) :
    (m.modify thread f).Inv := by
  intro t
  by_cases ht : t = thread
  · subst ht
    rw [workers_modify_self]
    exact hf
  · have hsame : (m.modify thread f).workers t = m.workers t := Function.update_of_ne ht ..
    rw [hsame]
    exact h t

theorem Inv.step (h : m.Inv) (e : DispatchEvent ρ) (hclaims : m.Claims e) (he : m.Attends cfg e) :
    (m.step cfg threadIdForSession e).Inv := by
  cases e with
  | deliver p r generated =>
    rw [ServerManager.step]
    refine h.modify _ _ ?_
    exact (h _).deliver ..
  | produce thread p =>
    rw [ServerManager.step]
    refine h.modify _ _ ?_
    exact (h _).produce hclaims he
  | consume thread env =>
    rw [ServerManager.step]
    refine h.modify _ _ ?_
    exact (h _).consume he
  | invokes | ends =>
    rw [ServerManager.step]
    refine h.modify _ _ ?_
    exact (h _).onSession ..
  | responds p sessionId j result =>
    rw [ServerManager.step]
    refine h.modify _ _ ?_
    exact (h _).dispatchResponse ..

theorem Inv.vanishes (h : m.Inv) (e : DispatchEvent ρ) (he : ¬m.Attends cfg e) :
    ¬(m.step cfg threadIdForSession e).NoneVanishes := by
  intro hnone
  cases e with
  | produce thread p =>
    have hkeeps := hnone thread
    rw [ServerManager.step, workers_modify_self] at hkeeps
    exact (h _).not_keeps_produce he hkeeps
  | consume thread env =>
    have hkeeps := hnone thread
    rw [ServerManager.step, workers_modify_self] at hkeeps
    exact (h _).not_keeps_consume he hkeeps
  | deliver | invokes | ends | responds => exact he trivial

/-- **No request vanishes** all along the runs in which no queue lets two threads fill one place, none refuses a request, and
every request is served when its thread takes it. Of the runs that are of the first kind, it is so along no others. -/
theorem none_vanishes_iff (es : List (DispatchEvent ρ)) : (Along (step cfg threadIdForSession) Claims {} es ∧
        ∀ pre, pre <+: es → (run (step cfg threadIdForSession) {} pre).NoneVanishes) ↔
      Along (step cfg threadIdForSession) (fun m e => m.Claims e ∧ m.Attends cfg e) {} es := by
  have hstart : Inv ({} : ServerManager ρ) := fun _ => Worker.inv_empty
  constructor
  · rintro ⟨hclaims, hnone⟩
    exact along_of_holds (I := NoneVanishes) hstart hclaims (fun m e h _ he => h.step e he.1 he.2)
      (fun m e h hclaims he => h.vanishes e fun hattends => he ⟨hclaims, hattends⟩) hnone
  · intro h
    refine ⟨h.imp hstart (fun m e h he => h.step e he.1 he.2) fun _ _ _ he => he.1, ?_⟩
    exact h.holds hstart (fun m h thread => (h thread).keeps) fun m e h he => h.step e he.1 he.2

/-- A POST of a message under the id, on a connection of a client that takes JSON and event streams, and all that its
threads do for it. -/
def posted (id : String) (body : PostBody Unit) : List (DispatchEvent Unit) :=
  .deliver 0 ⟨1, .post, [("mcp-session-id", id), ("accept", "application/json, text/event-stream"),
    ("content-type", "application/json")], body⟩ SessionManager.otherId ::
    (List.replicate 6 (.produce 0 0) ++ List.replicate 6 (.consume 0 {}))

/-- A request before the handshake vanishes, and so does one under an id that no transport takes. -/
theorem vanishes :
    ¬(run (step {} fun _ => 0) {} (posted "a" (.request (.int 1) "tools/list" .other))).NoneVanishes ∧
      ¬(run (step {} fun _ => 0) {} (posted "a b" .message)).NoneVanishes := by
  constructor
  · intro h
    rcases (h 0).once 0 (by decide) with ⟨⟨p, hp⟩, -⟩ | ⟨-, hone⟩
    · cases p <;> cases hp
    · exact absurd hone (by decide)
  · intro h
    rcases (h 0).once 0 (by decide) with ⟨⟨p, hp⟩, -⟩ | ⟨-, hone⟩
    · cases p <;> cases hp
    · exact absurd hone (by decide)

end ServerManager

end AgentProtocol.Mcp
