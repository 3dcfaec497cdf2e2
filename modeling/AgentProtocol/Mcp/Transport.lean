-- SUMMARY: The streamable HTTP transport of a server session: what each request is answered with and what it does to the session.
import AgentProtocol.Mcp.Answers

/-!
# The streamable HTTP transport

A session and its transport live under one id. The transport checks the headers of a request, the body, the session id
and the protocol version, in this order, and hands a JSON-RPC message to the session. Responses are queued for the
connection that the request came from.

What the parsers make of a body is part of the request. Texts are put into JSON by the parsers too, which throw where a
text is not UTF-8; what is thrown is logged by the worker thread.
-/

namespace AgentProtocol.Mcp

open Lib

variable {ρ : Type}

inductive HttpMethod where
  | post
  | get
  | delete
  | other
  deriving DecidableEq

/-- What the parsers make of the body of a POST. -/
inductive PostBody (ρ : Type) where
  /-- No JSON. -/
  | malformed
  /-- JSON that the parser throws at otherwise, such as a number out of range. -/
  | unreadable
  /-- No method: a response, an error, or something else. -/
  | message
  /-- A method, and what is no request or notification of it. -/
  | invalid (method : String) (hasId : Bool)
  | notification (method : String) (cancels : Option RequestId)
  | request (id : RequestId) (method : String) (typed : TypedRequest ρ)

structure HttpRequest (ρ : Type) where
  connection : ℕ
  method : HttpMethod
  headers : List (String × String)
  body : PostBody ρ

namespace HttpRequest

/-- A header, or the empty text. -/
def header (r : HttpRequest ρ) (name : String) : String := (r.headers.lookup name).getD ""

/-- `GetSessionId`. -/
def sessionId (r : HttpRequest ρ) : String := r.header "mcp-session-id"

/-- `find` of a media type in a header. -/
def mentions (r : HttpRequest ρ) (name type : String) : Bool := decide (type.toList <:+: (r.header name).toList)

def acceptsJson (r : HttpRequest ρ) : Bool := r.mentions "accept" "application/json"

def acceptsSse (r : HttpRequest ρ) : Bool := r.mentions "accept" "text/event-stream"

def supportedProtocolVersions : List String := ["2025-03-26", "2025-06-18"]

/-- `ValidateProtocolVersion`; without the header the first version is meant. -/
def versionSupported (r : HttpRequest ρ) : Bool :=
  supportedProtocolVersions.contains ((r.headers.lookup "mcp-protocol-version").getD "2025-03-26")

/-- `isInitializationRequest`: the method of the body. -/
def isInitialization (r : HttpRequest ρ) : Bool :=
  match r.body with
  | .invalid method _ => method = "initialize"
  | .notification method _ => method = "initialize"
  | .request _ method _ => method = "initialize"
  | _ => false

/-- `ValidatePostRequestHeaders`: the status it answers with. -/
def headersRefused (r : HttpRequest ρ) (isJsonResponseEnabled : Bool) : Option ℕ :=
  if isJsonResponseEnabled && !r.acceptsJson then some 406
  else if !isJsonResponseEnabled && !(r.acceptsJson && r.acceptsSse) then some 406
  else if !r.mentions "content-type" "application/json" then some 415
  else none

end HttpRequest

/-- A response that is queued for the connection of a request; `sessionId` is its header, or empty. -/
inductive Queued where
  | reply (status : ℕ) (sessionId : String)
  | start (sessionId : String)
  | event
  | finish
  deriving DecidableEq

namespace Queued

/-- The session id that a response hands out. -/
def issues : Queued → Option String
  | .reply _ id => if id = "" then none else some id
  | .start id => if id = "" then none else some id
  | _ => none

end Queued

structure TransportConfig where
  isJsonResponseEnabled : Bool := false
  stateless : Bool := false

/-- `StreamableHttpServerTransport` and its session. `getStream` is the connection of the GET stream. -/
structure HttpSession (ρ : Type) where
  mcpSessionId : String := ""
  isTerminated : Bool := false
  getStream : Option ℕ := none
  server : ServerSession ρ := {}

/-- What the parsers do with the texts of a step: `dumps` if the text of a refusal can be put into JSON, `message`
what the transport throws at a JSON-RPC message, if it does. -/
structure Texts where
  dumps : Bool := true
  message : Fault := none

namespace HttpSession

variable (cfg : TransportConfig)

/-- `CreateErrorResponse` or `CreateJsonResponse`, and its sending. -/
def reply (s : HttpSession ρ) (status : ℕ) : HttpSession ρ × List Queued := (s, [.reply status s.mcpSessionId])

/-- A refusal with a text of the request in it. -/
def refuse (s : HttpSession ρ) (status : ℕ) (texts : Texts) : HttpSession ρ × List Queued :=
  if texts.dumps then s.reply status else (s, [])

/-- `ValidateSessionId`: the status it answers with. -/
def sessionRefused (s : HttpSession ρ) (r : HttpRequest ρ) : Option ℕ :=
  if r.isInitialization || s.mcpSessionId = "" then none
  else if r.sessionId = "" then some 400
  else if r.sessionId ≠ s.mcpSessionId then some 404
  else none

/-- `SendMessage` of an answer to the connection of the request. -/
def messageQueued (s : HttpSession ρ) : List Queued :=
  if cfg.isJsonResponseEnabled then [.reply 200 s.mcpSessionId] else [.event, .finish]

/-- A request for the session: the event stream begins first, then the session answers, takes it, or ignores it. -/
def receiveRequest (s : HttpSession ρ) (r : IncomingRequest ρ) (texts : Texts) : HttpSession ρ × List Queued :=
  let server := s.server.processIncomingRequest r texts.message
  let answers := server.answers.drop s.server.answers.length
  ({ s with server := server },
    (if cfg.isJsonResponseEnabled then [] else [.start s.mcpSessionId]) ++ answers.flatMap fun _ => s.messageQueued cfg)

def receiveNotification (s : HttpSession ρ) (method : String) (cancels : Option RequestId) (texts : Texts) : HttpSession ρ :=
  if method = "notifications/initialized" then { s with server := { s.server with isInitialized := true } }
  else
    match cancels with
    | none => s
    | some id => { s with server := s.server.handleCancelledNotification id texts.message }

/-- `HandlePostRequest`, from the checks of the session id and the protocol version on. -/
def handleMessage (s : HttpSession ρ) (r : HttpRequest ρ) (texts : Texts) : HttpSession ρ × List Queued :=
  match s.sessionRefused r with
  | some status => s.reply status
  | none =>
    if r.versionSupported then
      match r.body with
      | .malformed => (s, [])
      | .unreadable => (s, [])
      | .message => s.reply 202
      | .invalid _ _ => s.refuse (if cfg.isJsonResponseEnabled then 200 else 400) texts
      | .notification method cancels => (s.receiveNotification method cancels texts, (s.reply 202).2)
      | .request id method typed => s.receiveRequest cfg ⟨id, method, r.connection, r.sessionId, typed⟩ texts
    else s.refuse 400 texts

def handlePostRequest (s : HttpSession ρ) (r : HttpRequest ρ) (texts : Texts) : HttpSession ρ × List Queued :=
  match r.headersRefused cfg.isJsonResponseEnabled with
  | some status => s.reply status
  | none =>
    match r.body with
    | .malformed => s.refuse 400 texts
    | .unreadable => (s, [])
    | _ => s.handleMessage cfg r texts

/-- The session id of a GET or DELETE is that of the transport. -/
def ownId (s : HttpSession ρ) (r : HttpRequest ρ) : Bool := r.sessionId ≠ "" && r.sessionId = s.mcpSessionId

def handleGetRequest (s : HttpSession ρ) (r : HttpRequest ρ) (texts : Texts) : HttpSession ρ × List Queued :=
  if !r.acceptsSse then s.reply 406
  else if s.mcpSessionId ≠ "" && !s.ownId r then s.reply 400
  else if !r.versionSupported then s.refuse 400 texts
  else if s.getStream.isSome then s.reply 409
  else ({ s with getStream := some r.connection }, [.start s.mcpSessionId])

def terminate (s : HttpSession ρ) : HttpSession ρ := { s with isTerminated := true, getStream := none, mcpSessionId := "" }

def handleDeleteRequest (s : HttpSession ρ) (r : HttpRequest ρ) : HttpSession ρ × List Queued :=
  if s.mcpSessionId = "" then s.reply 405
  else if !s.ownId r then s.reply 400
  else s.terminate.reply 200

/-- `HandleRequest` of the transport. -/
def handleRequest (s : HttpSession ρ) (r : HttpRequest ρ) (texts : Texts) : HttpSession ρ × List Queued :=
  if cfg.stateless && r.method ≠ .post then s.reply 405
  else if s.isTerminated then s.reply 404
  else
    match r.method with
    | .post => s.handlePostRequest cfg r texts
    | .get => s.handleGetRequest r texts
    | .delete => s.handleDeleteRequest r
    | .other => s.reply 405

/-! ## What a request does to the transport -/

/-- The same id and the same GET stream, terminated or not as before. -/
structure Same (s s' : HttpSession ρ) : Prop where
  mcpSessionId : s'.mcpSessionId = s.mcpSessionId
  isTerminated : s'.isTerminated = s.isTerminated
  getStream : s'.getStream = s.getStream

variable {cfg} {s : HttpSession ρ} {r : HttpRequest ρ} {texts : Texts}

theorem Same.refl : Same s s := ⟨rfl, rfl, rfl⟩

theorem same_refuse (status : ℕ) : Same s (s.refuse status texts).1 := by
  unfold refuse
  split <;> exact .refl

theorem same_receiveNotification (method : String) (cancels : Option RequestId) : Same s (s.receiveNotification method cancels texts) := by
  unfold receiveNotification
  split
  · exact ⟨rfl, rfl, rfl⟩
  · split
    · exact .refl
    · exact ⟨rfl, rfl, rfl⟩

theorem same_handleMessage : Same s (s.handleMessage cfg r texts).1 := by
  unfold handleMessage
  split
  · exact .refl
  · split
    · split
      · exact .refl
      · exact .refl
      · exact .refl
      · exact same_refuse _
      · exact same_receiveNotification _ _
      · exact ⟨rfl, rfl, rfl⟩
    · exact same_refuse _

theorem same_handlePostRequest : Same s (s.handlePostRequest cfg r texts).1 := by
  unfold handlePostRequest
  split
  · exact .refl
  · split
    · exact same_refuse _
    · exact .refl
    · exact same_handleMessage

theorem handleGetRequest_cases (s : HttpSession ρ) (r : HttpRequest ρ) (texts : Texts) :
    Same s (s.handleGetRequest r texts).1 ∧ (∀ id, .start id ∉ (s.handleGetRequest r texts).2) ∨
      s.getStream = none ∧ s.handleGetRequest r texts = ({ s with getStream := some r.connection }, [.start s.mcpSessionId]) := by
  have hrefuse : ∀ status id, .start id ∉ (s.refuse status texts).2 := by
    intro status id
    unfold refuse
    split <;> simp [reply]
  unfold handleGetRequest
  split
  · exact .inl ⟨.refl, by simp [reply]⟩
  · split
    · exact .inl ⟨.refl, by simp [reply]⟩
    · split
      · exact .inl ⟨same_refuse _, hrefuse _⟩
      · split
        · exact .inl ⟨.refl, by simp [reply]⟩
        · rename_i hnone
          exact .inr ⟨by simpa using hnone, rfl⟩

theorem handleGetRequest_accepted (hsse : r.acceptsSse = true) (hid : s.mcpSessionId = "" ∨ s.ownId r = true)
    (hversion : r.versionSupported = true) (hnone : s.getStream = none) :
    s.handleGetRequest r texts = ({ s with getStream := some r.connection }, [.start s.mcpSessionId]) := by
  have hown : (s.mcpSessionId ≠ "" && !s.ownId r) = false := by
    rcases hid with hid | hid <;> simp [hid]
  simp only [handleGetRequest, hsse, hversion, hown, hnone, Bool.not_true, Bool.false_eq_true, if_false, Option.isSome_none]

theorem handleDeleteRequest_cases (s : HttpSession ρ) (r : HttpRequest ρ) :
    Same s (s.handleDeleteRequest r).1 ∧ (s.mcpSessionId = "" ∨ s.ownId r = false) ∨
      s.ownId r = true ∧ s.handleDeleteRequest r = (s.terminate, [.reply 200 ""]) := by
  unfold handleDeleteRequest
  split
  · rename_i hempty
    exact .inl ⟨.refl, .inl hempty⟩
  · cases hown : s.ownId r with
    | false => exact .inl ⟨.refl, .inr rfl⟩
    | true => exact .inr ⟨rfl, rfl⟩

end HttpSession

end AgentProtocol.Mcp
