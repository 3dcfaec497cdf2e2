-- SUMMARY: Sessions of a stateful server over any sequence of requests, and when they begin, end and stream as the protocol asks.
import AgentProtocol.Mcp.Transport

/-!
# The life cycle of sessions

The manager makes a session for every id it does not know, whoever made it up, and keeps a session that was terminated.
A GET stream is taken off its session only by termination.

Each session belongs to the worker thread of its id, which handles one request after the other; the steps are the
requests that workers take, in any order, and connections that close. Connections are numbered as they come.
-/

namespace AgentProtocol.Mcp

open Lib

variable {ρ : Type}

/-- The sessions, and what happened so far: the ids that were handed out in answer to initialize requests, the ids of
sessions that a DELETE ended, the GET streams that began, and the connections that closed. -/
structure SessionManager (ρ : Type) where
  sessions : Dict String (HttpSession ρ) := ∅
  issued : List String := []
  deleted : List String := []
  streams : List (String × ℕ) := []
  closed : List ℕ := []

/-- Visible ASCII characters, at least one. -/
def validSessionId (id : String) : Bool := id ≠ "" && id.toList.all fun c => 0x21 ≤ c.toNat && c.toNat ≤ 0x7E

/-- What `GenerateSessionId` gives. -/
structure GeneratedId where
  id : String
  valid : validSessionId id = true

/-- `NewSession`; the transport throws at an id that is not valid. -/
def newSession (id : String) : Option (HttpSession ρ) := if validSessionId id then some { mcpSessionId := id } else none

/-- A request that the session answers before the handshake. -/
def TypedRequest.answeredAtOnce : TypedRequest ρ → Bool
  | .unsupported => true
  | .handshake result => result.isSome
  | .other => false

namespace HttpRequest

/-- A JSON-RPC request to initialize, well-formed or not. -/
def asksToInitialize (r : HttpRequest ρ) : Bool :=
  r.method = .post &&
    match r.body with
    | .invalid method hasId => method = "initialize" && hasId
    | .request _ method _ => method = "initialize"
    | _ => false

/-- A request to initialize that a new session answers, with a refusal that can be written or otherwise. -/
def opensSession (r : HttpRequest ρ) (isJsonResponseEnabled : Bool) (texts : Texts) : Bool :=
  r.asksToInitialize &&
    if (r.headersRefused isJsonResponseEnabled).isSome then true
    else if !r.versionSupported then texts.dumps
    else
      match r.body with
      | .invalid _ _ => texts.dumps
      | .request _ _ typed => !isJsonResponseEnabled || typed.answeredAtOnce && texts.message.isNone
      | _ => false

end HttpRequest

namespace SessionManager

variable (isJsonResponseEnabled : Bool)

/-- A stateful server. -/
def config : TransportConfig := { isJsonResponseEnabled }

/-- The session of an id, or a new one. -/
def session? (m : SessionManager ρ) (id : String) : Option (HttpSession ρ) :=
  match m.sessions.lookup id with
  | some s => some s
  | none => newSession id

def handleRequestStateful (m : SessionManager ρ) (id : String) (r : HttpRequest ρ) (texts : Texts) :
    SessionManager ρ × List Queued :=
  match m.session? id with
  | none => (m, [])
  | some s =>
    let out := s.handleRequest (config isJsonResponseEnabled) r texts
    ({ m with sessions := m.sessions.set id out.1 }, out.2)

/-- `DispatchRequest`: the id of the request, or a new one. -/
def contextId (r : HttpRequest ρ) (generated : GeneratedId) : String := if r.sessionId = "" then generated.id else r.sessionId

def handle (m : SessionManager ρ) (r : HttpRequest ρ) (generated : GeneratedId) (texts : Texts) : SessionManager ρ × List Queued :=
  m.handleRequestStateful isJsonResponseEnabled (contextId r generated) r texts

/-- There is a session, and it was not terminated. -/
def live (m : SessionManager ρ) (id : String) : Bool := (m.sessions.lookup id).any fun s => !s.isTerminated

def isStart : Queued → Bool
  | .start _ => true
  | _ => false

/-- What a request adds to the history. -/
def record (m m' : SessionManager ρ) (id : String) (r : HttpRequest ρ) (queued : List Queued) : SessionManager ρ :=
  { m' with
    issued := m.issued ++ (if r.asksToInitialize then queued.filterMap Queued.issues else [])
    deleted := m.deleted ++ (if r.method = .delete ∧ m.live r.sessionId = true then [r.sessionId] else [])
    streams := m.streams ++ (if r.method = .get ∧ queued.any isStart = true then [(id, r.connection)] else []) }

inductive Event (ρ : Type) where
  | request (r : HttpRequest ρ) (generated : GeneratedId) (texts : Texts)
  | close (connection : ℕ)

def step (m : SessionManager ρ) : Event ρ → SessionManager ρ
  | .request r generated texts =>
    let out := m.handle isJsonResponseEnabled r generated texts
    m.record out.1 (contextId r generated) r out.2
  | .close c => { m with closed := m.closed ++ [c] }

def streamsOf (m : SessionManager ρ) (id : String) : List (String × ℕ) := m.streams.filter fun p => p.1 = id

def openStreams (m : SessionManager ρ) (id : String) : List (String × ℕ) :=
  (m.streamsOf id).filter fun p => !m.closed.contains p.2

/-! ## What the protocol asks -/

/-- The answer is 404. -/
def NotFound (queued : List Queued) : Prop := ∃ id, queued = [.reply 404 id]

/-- A request is handled as the protocol asks. -/
structure LawfulRequest (m : SessionManager ρ) (r : HttpRequest ρ) (generated : GeneratedId) (texts : Texts) : Prop where
  created : ∀ id, ((m.step isJsonResponseEnabled (.request r generated texts)).sessions.lookup id).isSome = true →
    id ∈ (m.step isJsonResponseEnabled (.request r generated texts)).issued
  refused : r.sessionId ≠ "" → m.live r.sessionId = false → NotFound (m.handle isJsonResponseEnabled r generated texts).2 ∧
    ∀ id, (m.step isJsonResponseEnabled (.request r generated texts)).sessions.lookup id = m.sessions.lookup id
  ends : r.method = .delete → r.sessionId ≠ "" →
    (m.step isJsonResponseEnabled (.request r generated texts)).live r.sessionId = false
  gone : r.sessionId ∈ m.deleted → NotFound (m.handle isJsonResponseEnabled r generated texts).2
  oneStream : ∀ id, ((m.step isJsonResponseEnabled (.request r generated texts)).openStreams id).length ≤ 1
  reopens : r.method = .get → m.live r.sessionId = true → r.acceptsSse = true → r.versionSupported = true →
    m.openStreams r.sessionId = [] → (m.handle isJsonResponseEnabled r generated texts).2 = [.start r.sessionId]

def Lawful (m : SessionManager ρ) : Event ρ → Prop
  | .request r generated texts => m.LawfulRequest isJsonResponseEnabled r generated texts
  | .close _ => True

/-! ## When it does -/

/-- A request that names a session there is, or none and is no reason for a new session but an answered request to
initialize. A GET does not come after the stream of its session was closed. -/
structure ProperRequest (m : SessionManager ρ) (r : HttpRequest ρ) (generated : GeneratedId) (texts : Texts) : Prop where
  known : r.sessionId ≠ "" → (m.sessions.lookup r.sessionId).isSome = true
  opens : r.sessionId = "" → m.sessions.lookup generated.id = none → r.opensSession isJsonResponseEnabled texts = true
  first : r.method = .get → r.acceptsSse = true → r.versionSupported = true → ∀ s, m.sessions.lookup r.sessionId = some s →
    s.isTerminated = false → ∀ c, s.getStream = some c → c ∉ m.closed

def Proper (m : SessionManager ρ) : Event ρ → Prop
  | .request r generated texts => m.ProperRequest isJsonResponseEnabled r generated texts
  | .close _ => True

end SessionManager

/-! ## What a request does to its session -/

namespace HttpSession

/-- What the transport can do with a request: it is gone, stays as it is, begins its GET stream, or is ended. -/
inductive Handled (s : HttpSession ρ) (r : HttpRequest ρ) : HttpSession ρ × List Queued → Prop
  | gone (terminated : s.isTerminated = true) : Handled s r (s, [.reply 404 s.mcpSessionId])
  | kept {s' : HttpSession ρ} {queued : List Queued} (live : s.isTerminated = false) (same : Same s s') (start : r.method = .get → ∀ id, .start id ∉ queued)
      (own : r.method = .delete → s.mcpSessionId = "" ∨ s.ownId r = false) : Handled s r (s', queued)
  | begins (live : s.isTerminated = false) (method : r.method = .get) (none : s.getStream = none) :
      Handled s r ({ s with getStream := some r.connection }, [.start s.mcpSessionId])
  | ended (live : s.isTerminated = false) (method : r.method = .delete) : Handled s r (s.terminate, [.reply 200 ""])

variable {cfg : TransportConfig} {s : HttpSession ρ} {r : HttpRequest ρ} {texts : Texts} {id : String} {queued : List Queued}

theorem handleRequest_handled (hcfg : cfg.stateless = false) : Handled s r (s.handleRequest cfg r texts) := by
  unfold handleRequest
  rw [hcfg, Bool.false_and, if_neg Bool.false_ne_true]
  split
  · rename_i hterminated
    exact .gone hterminated
  · rename_i hterminated
    have hlive : s.isTerminated = false := by simpa using hterminated
    split
    · rename_i hmethod
      exact .kept hlive same_handlePostRequest (by simp [hmethod]) (by simp [hmethod])
    · rename_i hmethod
      rcases handleGetRequest_cases s r texts with ⟨hsame, hstart⟩ | ⟨hnone, heq⟩
      · exact .kept hlive hsame (fun _ => hstart) (by simp [hmethod])
      · rw [heq]
        exact .begins hlive hmethod hnone
    · rename_i hmethod
      rcases handleDeleteRequest_cases s r with ⟨hsame, hown⟩ | ⟨-, heq⟩
      · exact .kept hlive hsame (by simp [hmethod]) fun _ => hown
      · rw [heq]
        exact .ended hlive hmethod
    · rename_i hmethod
      exact .kept hlive .refl (by simp [hmethod]) (by simp [hmethod])

theorem handleRequest_of_terminated (hcfg : cfg.stateless = false) (h : s.isTerminated = true) :
    s.handleRequest cfg r texts = (s, [.reply 404 s.mcpSessionId]) := by
  simp [handleRequest, hcfg, h, reply]

/-- The session ids in the responses are this one. -/
def Carries (id : String) (queued : List Queued) : Prop := ∀ q ∈ queued, ∀ id', q.issues = some id' → id' = id ∧ id ≠ ""

theorem carries_nil : Carries id [] := fun _ h => nomatch h

theorem carries_reply (status : ℕ) : Carries id [.reply status id] := by
  intro q hq id' h
  obtain rfl := List.mem_singleton.mp hq
  simp only [Queued.issues] at h
  split at h
  · cases h
  rename_i hne
  exact ⟨(Option.some.inj h).symm, hne⟩

theorem carries_start : Carries id [.start id] := by
  intro q hq id' h
  obtain rfl := List.mem_singleton.mp hq
  simp only [Queued.issues] at h
  split at h
  · cases h
  rename_i hne
  exact ⟨(Option.some.inj h).symm, hne⟩

theorem Carries.append {later : List Queued} (h : Carries id queued) (h' : Carries id later) : Carries id (queued ++ later) := by
  intro q hq
  rcases List.mem_append.mp hq with hq | hq
  · exact h q hq
  · exact h' q hq

theorem carries_refuse (status : ℕ) : Carries s.mcpSessionId (s.refuse status texts).2 := by
  unfold refuse
  split
  · exact carries_reply _
  · exact carries_nil

theorem carries_messageQueued : Carries s.mcpSessionId (s.messageQueued cfg) := by
  unfold messageQueued
  split
  · exact carries_reply _
  · intro q hq id' h
    rcases List.mem_pair.mp hq with rfl | rfl
    · cases h
    cases h

variable (request : IncomingRequest ρ)

theorem carries_receiveRequest : Carries s.mcpSessionId (s.receiveRequest cfg request texts).2 := by
  refine Carries.append ?_ ?_
  · split
    · exact carries_nil
    · exact carries_start
  · intro q hq
    obtain ⟨-, -, hq⟩ := List.mem_flatMap.mp hq
    exact carries_messageQueued q hq

theorem carries_handleMessage : Carries s.mcpSessionId (s.handleMessage cfg r texts).2 := by
  unfold handleMessage
  split
  · exact carries_reply _
  · split
    · split
      · exact carries_nil
      · exact carries_nil
      · exact carries_reply _
      · exact carries_refuse _
      · exact carries_reply _
      · exact carries_receiveRequest _
    · exact carries_refuse _

theorem carries_handlePostRequest : Carries s.mcpSessionId (s.handlePostRequest cfg r texts).2 := by
  unfold handlePostRequest
  split
  · exact carries_reply _
  · split
    · exact carries_refuse _
    · exact carries_nil
    · exact carries_handleMessage

theorem carries_handleGetRequest : Carries s.mcpSessionId (s.handleGetRequest r texts).2 := by
  unfold handleGetRequest
  split
  · exact carries_reply _
  · split
    · exact carries_reply _
    · split
      · exact carries_refuse _
      · split
        · exact carries_reply _
        · exact carries_start

theorem carries_handleDeleteRequest : Carries s.mcpSessionId (s.handleDeleteRequest r).2 := by
  unfold handleDeleteRequest
  split
  · exact carries_reply _
  · split
    · exact carries_reply _
    · intro q hq id' h
      obtain rfl := List.mem_singleton.mp hq
      cases h

theorem carries_handleRequest : Carries s.mcpSessionId (s.handleRequest cfg r texts).2 := by
  unfold handleRequest
  split
  · exact carries_reply _
  · split
    · exact carries_reply _
    · split
      · exact carries_handlePostRequest
      · exact carries_handleGetRequest
      · exact carries_handleDeleteRequest
      · exact carries_reply _

/-! ### New sessions -/

@[simp] theorem issues_reply {status : ℕ} (hid : id ≠ "") : (Queued.reply status id).issues = some id := if_neg hid

@[simp] theorem issues_start (hid : id ≠ "") : (Queued.start id).issues = some id := if_neg hid

theorem issues_refuse {status : ℕ} (hid : s.mcpSessionId ≠ "") :
    s.mcpSessionId ∈ (s.refuse status texts).2.filterMap Queued.issues ↔ texts.dumps = true := by
  unfold refuse
  split
  · rename_i h
    simp [reply, hid, h]
  · rename_i h
    simp [h]

theorem answers_processIncomingRequest (fault : Fault) :
    (({} : ServerSession ρ).processIncomingRequest request fault).answers = [] ↔
      (request.request.answeredAtOnce && fault.isNone) = false := by
  unfold ServerSession.processIncomingRequest
  cases request.request with
  | unsupported => cases fault <;> simp [TypedRequest.answeredAtOnce, ServerSession.sendError, ServerSession.sendMessage]
  | handshake result =>
    cases result with
    | none => simp [TypedRequest.answeredAtOnce]
    | some result => cases fault <;> simp [TypedRequest.answeredAtOnce, ServerSession.sendResponse, ServerSession.sendMessage]
  | other => simp [TypedRequest.answeredAtOnce]

theorem issues_receiveRequest (hid : id ≠ "") :
    id ∈ (({ mcpSessionId := id } : HttpSession ρ).receiveRequest cfg request texts).2.filterMap Queued.issues ↔
      (!cfg.isJsonResponseEnabled || request.request.answeredAtOnce && texts.message.isNone) = true := by
  have hanswers := answers_processIncomingRequest request texts.message
  cases hjson : cfg.isJsonResponseEnabled with
  | false => simp [receiveRequest, hjson, hid]
  | true =>
    simp only [receiveRequest, messageQueued, hjson, if_true, List.nil_append, Bool.not_true, Bool.false_or]
    rw [← Bool.not_eq_false, ← hanswers]
    constructor
    · intro h hnil
      simp [hnil] at h
    · intro h
      obtain ⟨answer, ha⟩ := List.exists_mem_of_ne_nil _ h
      exact List.mem_filterMap.mpr ⟨.reply 200 id, List.mem_flatMap.mpr ⟨answer, by simpa using ha, by simp⟩, issues_reply hid⟩

theorem issues_handleRequest (hasks : r.asksToInitialize = true) (hid : id ≠ "") (hcfg : cfg.stateless = false) :
    id ∈ (({ mcpSessionId := id } : HttpSession ρ).handleRequest cfg r texts).2.filterMap Queued.issues ↔
      r.opensSession cfg.isJsonResponseEnabled texts = true := by
  have hasks' := hasks
  simp only [HttpRequest.asksToInitialize, Bool.and_eq_true, decide_eq_true_eq] at hasks'
  obtain ⟨hmethod, hbody⟩ := hasks'
  simp only [handleRequest, hcfg, Bool.false_and, Bool.false_eq_true, if_false, hmethod, handlePostRequest,
    HttpRequest.opensSession, hasks, Bool.true_and]
  cases hheaders : r.headersRefused cfg.isJsonResponseEnabled with
  | some status => simp [reply, hid]
  | none =>
    have hsession : r.isInitialization = true → ({ mcpSessionId := id } : HttpSession ρ).sessionRefused r = none := by
      intro h
      simp [sessionRefused, h]
    cases hversion : r.versionSupported with
    | false =>
      cases hb : r.body with
      | invalid method hasId =>
        rw [hb] at hbody
        have hinit : r.isInitialization = true := by simpa [HttpRequest.isInitialization, hb] using (Bool.and_eq_true_iff.mp hbody).1
        simpa [handleMessage, hsession hinit, hversion] using issues_refuse (s := { mcpSessionId := id }) hid
      | request i method typed =>
        rw [hb] at hbody
        have hinit : r.isInitialization = true := by simpa [HttpRequest.isInitialization, hb] using hbody
        simpa [handleMessage, hsession hinit, hversion] using issues_refuse (s := { mcpSessionId := id }) hid
      | _ => simp [hb] at hbody
    | true =>
      cases hb : r.body with
      | invalid method hasId =>
        rw [hb] at hbody
        have hinit : r.isInitialization = true := by simpa [HttpRequest.isInitialization, hb] using (Bool.and_eq_true_iff.mp hbody).1
        simpa [handleMessage, hsession hinit, hversion, hb] using issues_refuse (s := { mcpSessionId := id }) hid
      | request i method typed =>
        rw [hb] at hbody
        have hinit : r.isInitialization = true := by simpa [HttpRequest.isInitialization, hb] using hbody
        simp only [handleMessage, hsession hinit, hversion, hb, if_true]
        simpa using issues_receiveRequest _ hid
      | _ => simp [hb] at hbody

end HttpSession

namespace SessionManager

open HttpSession

/-! ## What holds of a session -/

/-- A session under its id: the transport has the id until it is terminated, and the GET stream of the session is the
only one it ever had. -/
structure Fits (m : SessionManager ρ) (id : String) (s : HttpSession ρ) : Prop where
  mcpSessionId : s.mcpSessionId = if s.isTerminated then "" else id
  atMost : (m.streamsOf id).length ≤ 1
  getStream : s.isTerminated = false → m.streamsOf id = s.getStream.toList.map fun c => (id, c)

/-- The sessions are those of the ids that were handed out. -/
structure Sound (m : SessionManager ρ) : Prop where
  issued : ∀ id, id ∈ m.issued ↔ (m.sessions.lookup id).isSome = true
  unnamed : m.sessions.lookup "" = none
  fits : ∀ id s, m.sessions.lookup id = some s → m.Fits id s
  unused : ∀ id, m.sessions.lookup id = none → m.streamsOf id = []
  deleted : ∀ id ∈ m.deleted, ∃ s, m.sessions.lookup id = some s ∧ s.isTerminated = true

theorem sound_empty : Sound ({} : SessionManager ρ) where
  issued id := by simp
  unnamed := rfl
  fits id s h := by simp at h
  unused id _ := rfl
  deleted id h := by simp at h

variable {isJsonResponseEnabled} {m m' : SessionManager ρ} {id : String} {s : HttpSession ρ} {r : HttpRequest ρ}
  {generated : GeneratedId} {texts : Texts} {queued : List Queued}

theorem newSession_eq_some : newSession id = some s ↔ validSessionId id = true ∧ s = { mcpSessionId := id } := by
  unfold newSession
  split
  · rename_i h
    simp [h, eq_comm]
  · rename_i h
    simp [h]

theorem ne_empty_of_validSessionId (h : validSessionId id = true) : id ≠ "" := by
  simp only [validSessionId, Bool.and_eq_true, decide_eq_true_eq] at h
  exact h.1

theorem session?_of_lookup (h : m.sessions.lookup id = some s) : m.session? id = some s := by
  simp only [session?, h]

theorem session?_of_none (h : m.sessions.lookup id = none) : m.session? id = newSession id := by
  simp only [session?, h]

theorem contextId_of_sessionId (h : r.sessionId ≠ "") : contextId r generated = r.sessionId := if_neg h

theorem contextId_of_empty (h : r.sessionId = "") : contextId r generated = generated.id := if_pos h

theorem handle_eq (h : m.session? (contextId r generated) = some s) : m.handle isJsonResponseEnabled r generated texts =
      ({ m with sessions := m.sessions.set (contextId r generated) (s.handleRequest (config isJsonResponseEnabled) r texts).1 },
        (s.handleRequest (config isJsonResponseEnabled) r texts).2) := by
  simp only [handle, handleRequestStateful, h]

theorem handle_none (h : m.session? (contextId r generated) = none) :
    m.handle isJsonResponseEnabled r generated texts = (m, []) := by
  simp only [handle, handleRequestStateful, h]

theorem lookup_step (h : m.session? (contextId r generated) = some s) (id : String) :
    (m.step isJsonResponseEnabled (.request r generated texts)).sessions.lookup id =
      if contextId r generated = id then some (s.handleRequest (config isJsonResponseEnabled) r texts).1
      else m.sessions.lookup id := by
  simp only [step, record, handle_eq h, Dict.lookup_set]

theorem streamsOf_record_of_ne {id' : String} (h : id ≠ id') : (m.record m' id r queued).streamsOf id' = m.streamsOf id' := by
  simp only [streamsOf, record, List.filter_append]
  split
  · simp [h]
  · simp

theorem streamsOf_record (h : ¬(r.method = .get ∧ queued.any isStart = true)) :
    (m.record m' id r queued).streamsOf id = m.streamsOf id := by
  simp only [streamsOf, record, h, if_false, List.append_nil]

theorem streamsOf_record_start (h : r.method = .get ∧ queued.any isStart = true) :
    (m.record m' id r queued).streamsOf id = m.streamsOf id ++ [(id, r.connection)] := by
  simp [streamsOf, record, h]

theorem Fits.congr (h : m.Fits id s) (hstreams : m'.streamsOf id = m.streamsOf id) : m'.Fits id s := by
  obtain ⟨hid, hmost, hget⟩ := h
  exact ⟨hid, hstreams ▸ hmost, hstreams ▸ hget⟩

theorem not_any_isStart (h : ∀ id, .start id ∉ queued) : queued.any isStart = false := by
  rw [List.any_eq_false]
  rintro q hq
  cases q with
  | start id => exact absurd hq (h id)
  | _ => simp [isStart]

theorem Fits.handled {out : HttpSession ρ × List Queued} (h : m.Fits id s) (hout : Handled s r out) :
    (m.record m' id r out.2).Fits id out.1 := by
  cases hout with
  | gone hterminated =>
    exact h.congr (streamsOf_record (by simp [isStart]))
  | @kept s' queued hlive hsame hstart hown =>
    have hnone : ¬(r.method = .get ∧ queued.any isStart = true) := by
      rintro ⟨hget, hany⟩
      rw [not_any_isStart (hstart hget)] at hany
      cases hany
    have hfits : (m.record m' id r queued).Fits id s := h.congr (streamsOf_record hnone)
    refine ⟨?_, hfits.atMost, ?_⟩
    · rw [hsame.mcpSessionId, hsame.isTerminated]
      exact h.mcpSessionId
    · rw [hsame.getStream, hsame.isTerminated]
      exact hfits.getStream
  | begins hlive hget hnone =>
    have hstreams : (m.record m' id r [.start s.mcpSessionId]).streamsOf id = [(id, r.connection)] := by
      rw [streamsOf_record_start ⟨hget, rfl⟩, h.getStream hlive, hnone]
      rfl
    exact ⟨h.mcpSessionId, by simp [hstreams], fun _ => by simp [hstreams]⟩
  | ended hlive hdelete =>
    have hfits : (m.record m' id r [.reply 200 ""]).Fits id s := h.congr (streamsOf_record (by simp [hdelete]))
    exact ⟨rfl, hfits.atMost, fun hterminated => nomatch hterminated⟩

theorem Sound.fits_session (h : m.Sound) (hs : m.session? id = some s) : m.Fits id s := by
  cases hlookup : m.sessions.lookup id with
  | some s' =>
    obtain rfl : s' = s := by simpa [session?, hlookup] using hs
    exact h.fits id s' hlookup
  | none =>
    rw [session?_of_none hlookup, newSession_eq_some] at hs
    obtain ⟨-, rfl⟩ := hs
    have hstreams := h.unused id hlookup
    exact ⟨rfl, by simp [hstreams], fun _ => by simp [hstreams]⟩

theorem Sound.ne_empty (h : m.Sound) (hs : m.session? id = some s) : id ≠ "" := by
  rintro rfl
  rw [session?_of_none h.unnamed, newSession_eq_some] at hs
  exact ne_empty_of_validSessionId hs.1 rfl

theorem Fits.ended (h : m.Fits r.sessionId s) (hdelete : r.method = .delete) (hid : r.sessionId ≠ "") :
    (s.handleRequest (config isJsonResponseEnabled) r texts).1.isTerminated = true := by
  have hhandled : Handled s r (s.handleRequest (config isJsonResponseEnabled) r texts) := handleRequest_handled rfl
  generalize s.handleRequest (config isJsonResponseEnabled) r texts = out at hhandled
  cases hhandled with
  | gone hterminated => exact hterminated
  | kept hlive hsame hstart hown =>
    have hmcp : s.mcpSessionId = r.sessionId := by simpa [hlive] using h.mcpSessionId
    rcases hown hdelete with hempty | hother
    · exact absurd (hmcp.symm.trans hempty) hid
    simp [ownId, hmcp, hid] at hother
  | begins hlive hget => rw [hdelete] at hget; cases hget
  | ended hlive => rfl

theorem ProperRequest.session (h : m.ProperRequest isJsonResponseEnabled r generated texts) :
    ∃ s, m.session? (contextId r generated) = some s := by
  cases hlookup : m.sessions.lookup (contextId r generated) with
  | some s => exact ⟨s, session?_of_lookup hlookup⟩
  | none =>
    rw [session?_of_none hlookup]
    have hempty : r.sessionId = "" := by
      by_contra hid
      have hknown := h.known hid
      rw [contextId_of_sessionId hid] at hlookup
      simp [hlookup] at hknown
    rw [contextId_of_empty hempty]
    exact ⟨_, newSession_eq_some.mpr ⟨generated.valid, rfl⟩⟩

theorem opensSession_iff (hid : validSessionId id = true) (hnone : m.sessions.lookup id = none) (hs : m.session? id = some s) :
    (r.asksToInitialize = true ∧ id ∈ (s.handleRequest (config isJsonResponseEnabled) r texts).2.filterMap Queued.issues) ↔
      r.opensSession isJsonResponseEnabled texts = true := by
  rw [session?_of_none hnone, newSession_eq_some] at hs
  obtain ⟨-, rfl⟩ := hs
  constructor
  · rintro ⟨hasks, hmem⟩
    exact (issues_handleRequest hasks (ne_empty_of_validSessionId hid) rfl).mp hmem
  · intro h
    have hasks : r.asksToInitialize = true := (Bool.and_eq_true_iff.mp h).1
    exact ⟨hasks, (issues_handleRequest hasks (ne_empty_of_validSessionId hid) rfl).mpr h⟩

theorem mem_issued_step (h : m.session? (contextId r generated) = some s) {id : String} :
    id ∈ (m.step isJsonResponseEnabled (.request r generated texts)).issued ↔ id ∈ m.issued ∨ r.asksToInitialize = true ∧
        id ∈ (s.handleRequest (config isJsonResponseEnabled) r texts).2.filterMap Queued.issues := by
  simp only [step, record, handle_eq h, List.mem_append]
  split
  · rename_i hasks
    simp [hasks]
  · rename_i hasks
    simp [hasks]

/-! ### Steps -/

variable (h : m.Sound) (hr : m.ProperRequest isJsonResponseEnabled r generated texts)
include h hr

theorem Sound.issued_step (id : String) : id ∈ (m.step isJsonResponseEnabled (.request r generated texts)).issued ↔
      ((m.step isJsonResponseEnabled (.request r generated texts)).sessions.lookup id).isSome = true := by
  obtain ⟨s, hs⟩ := hr.session
  rw [mem_issued_step hs, lookup_step hs, h.issued]
  by_cases hid : contextId r generated = id
  · subst hid
    simp only [if_true, Option.isSome_some, iff_true]
    cases hlookup : m.sessions.lookup (contextId r generated) with
    | some s' => exact .inl rfl
    | none =>
      refine .inr ?_
      have hempty : r.sessionId = "" := by
        by_contra hne
        have hknown := hr.known hne
        rw [contextId_of_sessionId hne] at hlookup
        simp [hlookup] at hknown
      rw [contextId_of_empty hempty] at hlookup hs ⊢
      exact (opensSession_iff generated.valid hlookup hs).mpr (hr.opens hempty hlookup)
  · simp only [hid, if_false]
    refine or_iff_left ?_
    rintro ⟨-, hmem⟩
    obtain ⟨q, hq, hissues⟩ := List.mem_filterMap.mp hmem
    obtain ⟨heq, hne⟩ := carries_handleRequest q hq id hissues
    have hfits := (h.fits_session hs).mcpSessionId
    split at hfits
    · exact hne hfits
    · exact hid (hfits.symm.trans heq.symm)

theorem Sound.deleted_step (id : String) (hid : id ∈ (m.step isJsonResponseEnabled (.request r generated texts)).deleted) :
    ∃ s, (m.step isJsonResponseEnabled (.request r generated texts)).sessions.lookup id = some s ∧ s.isTerminated = true := by
  obtain ⟨s, hs⟩ := hr.session
  rw [lookup_step hs]
  simp only [step, record, List.mem_append] at hid
  rcases hid with hid | hid
  · obtain ⟨s', hlookup, hterminated⟩ := h.deleted id hid
    split
    · rename_i heq
      subst heq
      obtain rfl : s' = s := Option.some.inj ((session?_of_lookup hlookup).symm.trans hs)
      exact ⟨_, rfl, by simp [handleRequest_of_terminated, hterminated, config]⟩
    · exact ⟨s', hlookup, hterminated⟩
  · split at hid
    · rename_i hdelete
      obtain rfl := List.mem_singleton.mp hid
      have hne : r.sessionId ≠ "" := by
        intro hempty
        have hlive := hdelete.2
        simp [live, hempty, h.unnamed] at hlive
      rw [contextId_of_sessionId hne] at hs ⊢
      exact ⟨_, if_pos rfl, (h.fits_session hs).ended hdelete.1 hne⟩
    · cases hid

theorem Sound.request : (m.step isJsonResponseEnabled (.request r generated texts)).Sound := by
  obtain ⟨s, hs⟩ := hr.session
  have hstreams : ∀ id, contextId r generated ≠ id →
      (m.step isJsonResponseEnabled (.request r generated texts)).streamsOf id = m.streamsOf id := fun id hne =>
    streamsOf_record_of_ne hne
  refine ⟨h.issued_step hr, ?_, ?_, ?_, h.deleted_step hr⟩
  · rw [lookup_step hs, if_neg (h.ne_empty hs)]
    exact h.unnamed
  · intro id s' hlookup
    rw [lookup_step hs] at hlookup
    split at hlookup
    · rename_i heq
      subst heq
      obtain rfl := Option.some.inj hlookup
      rw [step, handle_eq hs]
      exact (h.fits_session hs).handled (handleRequest_handled rfl)
    · rename_i hne
      exact (h.fits id s' hlookup).congr (hstreams id hne)
  · intro id hlookup
    rw [lookup_step hs] at hlookup
    split at hlookup
    · cases hlookup
    rename_i hne
    rw [hstreams id hne]
    exact h.unused id hlookup

omit h hr

theorem Sound.step (h : m.Sound) (e : Event ρ) (he : m.Proper isJsonResponseEnabled e) : (m.step isJsonResponseEnabled e).Sound := by
  cases e with
  | request r generated texts => exact h.request he
  | close c => exact ⟨h.issued, h.unnamed, fun id s hs => (h.fits id s hs).congr rfl, h.unused, h.deleted⟩

theorem openStreams_length_le : (m.openStreams id).length ≤ (m.streamsOf id).length := List.length_filter_le _ _

theorem Sound.oneStream (h : m.Sound) (id : String) : (m.openStreams id).length ≤ 1 := by
  refine openStreams_length_le.trans ?_
  cases hlookup : m.sessions.lookup id with
  | some s => exact (h.fits id s hlookup).atMost
  | none => simp [h.unused id hlookup]

theorem Fits.openStreams_eq_nil (h : m.Fits id s) (hlive : s.isTerminated = false) :
    m.openStreams id = [] ↔ ∀ c, s.getStream = some c → c ∈ m.closed := by
  rw [openStreams, h.getStream hlive]
  cases s.getStream with
  | none | some => simp

theorem live_iff : m.live id = true ↔ ∃ s, m.sessions.lookup id = some s ∧ s.isTerminated = false := by
  rw [live, Option.any_eq_true]
  simp

theorem handle_of_terminated (hs : m.session? (contextId r generated) = some s) (h : s.isTerminated = true) :
    NotFound (m.handle isJsonResponseEnabled r generated texts).2 := by
  rw [handle_eq hs, handleRequest_of_terminated rfl h]
  exact ⟨_, rfl⟩

theorem Fits.begins (h : m.Fits r.sessionId s) (hid : r.sessionId ≠ "") (hlive : s.isTerminated = false)
    (hget : r.method = .get) (hsse : r.acceptsSse = true) (hversion : r.versionSupported = true) (hnone : s.getStream = none) :
    (s.handleRequest (config isJsonResponseEnabled) r texts).2 = [.start r.sessionId] := by
  have hmcp : s.mcpSessionId = r.sessionId := by simpa [hlive] using h.mcpSessionId
  have hown : s.ownId r = true := by simp [ownId, hmcp, hid]
  simp only [handleRequest, config, Bool.false_and, Bool.false_eq_true, if_false, hlive, hget,
    handleGetRequest_accepted hsse (.inr hown) hversion hnone, hmcp]

theorem not_begins (hget : r.method = .get) (hsome : s.getStream ≠ none) (id : String) :
    (s.handleRequest (config isJsonResponseEnabled) r texts).2 ≠ [.start id] := by
  have hhandled : Handled s r (s.handleRequest (config isJsonResponseEnabled) r texts) := handleRequest_handled rfl
  generalize s.handleRequest (config isJsonResponseEnabled) r texts = out at hhandled
  cases hhandled with
  | gone hterminated => simp
  | @kept s' queued _ _ hstart _ =>
    intro heq
    have hqueued : queued = [.start id] := heq
    exact hstart hget id (by simp [hqueued])
  | begins _ _ hnone => exact absurd hnone hsome
  | ended => simp

theorem Sound.lawful (h : m.Sound) (hr : m.ProperRequest isJsonResponseEnabled r generated texts) :
    m.LawfulRequest isJsonResponseEnabled r generated texts := by
  obtain ⟨s, hs⟩ := hr.session
  refine ⟨fun id hid => (h.issued_step hr id).mpr hid, ?_, ?_, ?_, (h.request hr).oneStream, ?_⟩
  · intro hid hdead
    obtain ⟨s', hlookup⟩ := Option.isSome_iff_exists.mp (hr.known hid)
    rw [contextId_of_sessionId hid, session?_of_lookup hlookup] at hs
    obtain rfl := Option.some.inj hs
    have hterminated : s'.isTerminated = true := by simpa [live, hlookup] using hdead
    have hcontext : m.session? (contextId r generated) = some s' := by
      rw [contextId_of_sessionId hid, session?_of_lookup hlookup]
    refine ⟨handle_of_terminated hcontext hterminated, fun id => ?_⟩
    rw [lookup_step hcontext, handleRequest_of_terminated rfl hterminated, contextId_of_sessionId hid]
    split
    · rename_i heq
      exact heq ▸ hlookup.symm
    · rfl
  · intro hdelete hid
    rw [contextId_of_sessionId hid] at hs
    have hended : (s.handleRequest (config isJsonResponseEnabled) r texts).1.isTerminated = true :=
      (h.fits_session hs).ended hdelete hid
    rw [live, lookup_step ((congrArg m.session? (contextId_of_sessionId hid)).trans hs), contextId_of_sessionId hid, if_pos rfl]
    simp [hended]
  · intro hdeleted
    obtain ⟨s', hlookup, hterminated⟩ := h.deleted _ hdeleted
    have hid : r.sessionId ≠ "" := by
      intro hempty
      rw [hempty, h.unnamed] at hlookup
      cases hlookup
    refine handle_of_terminated ?_ hterminated
    rw [contextId_of_sessionId hid]
    exact session?_of_lookup hlookup
  · intro hget hlive hsse hversion hopen
    obtain ⟨s', hlookup, hlive⟩ := live_iff.mp hlive
    have hid : r.sessionId ≠ "" := by
      intro hempty
      rw [hempty, h.unnamed] at hlookup
      cases hlookup
    have hfits := h.fits _ _ hlookup
    have hnone : s'.getStream = none := by
      cases hstream : s'.getStream with
      | none => rfl
      | some c => exact absurd ((hfits.openStreams_eq_nil hlive).mp hopen c hstream) (hr.first hget hsse hversion s' hlookup hlive c hstream)
    rw [handle_eq ((congrArg m.session? (contextId_of_sessionId hid)).trans (session?_of_lookup hlookup))]
    exact hfits.begins hid hlive hget hsse hversion hnone

theorem Sound.proper (h : m.Sound) (hr : m.LawfulRequest isJsonResponseEnabled r generated texts) :
    m.ProperRequest isJsonResponseEnabled r generated texts := by
  refine ⟨?_, ?_, ?_⟩
  · intro hid
    by_contra hunknown
    have hlookup : m.sessions.lookup r.sessionId = none := by simpa using hunknown
    obtain ⟨⟨_, hnotFound⟩, hsame⟩ := hr.refused hid (by simp [live, hlookup])
    cases hs : m.session? (contextId r generated) with
    | none => simp [handle_none hs] at hnotFound
    | some s =>
      have hnew := hsame r.sessionId
      rw [lookup_step hs, contextId_of_sessionId hid, if_pos rfl, hlookup] at hnew
      cases hnew
  · intro hempty hlookup
    have hcontext : contextId r generated = generated.id := contextId_of_empty hempty
    have hs : m.session? generated.id = some { mcpSessionId := generated.id } := by
      rw [session?_of_none hlookup, newSession_eq_some]
      exact ⟨generated.valid, rfl⟩
    have hs' : m.session? (contextId r generated) = some { mcpSessionId := generated.id } := by rw [hcontext, hs]
    have hissued := hr.created generated.id (by rw [lookup_step hs', hcontext, if_pos rfl]; rfl)
    rw [mem_issued_step hs', h.issued, hlookup] at hissued
    rcases hissued with hold | hnew
    · cases hold
    exact (opensSession_iff generated.valid hlookup hs).mp hnew
  · intro hget hsse hversion s hlookup hlive c hstream hclosed
    have hid : r.sessionId ≠ "" := by
      intro hempty
      rw [hempty, h.unnamed] at hlookup
      cases hlookup
    have hopen : m.openStreams r.sessionId = [] := by
      rw [(h.fits _ _ hlookup).openStreams_eq_nil hlive]
      intro c' hstream'
      obtain rfl : c' = c := Option.some.inj (hstream'.symm.trans hstream)
      exact hclosed
    have hout := hr.reopens hget (live_iff.mpr ⟨s, hlookup, hlive⟩) hsse hversion hopen
    rw [handle_eq ((congrArg m.session? (contextId_of_sessionId hid)).trans (session?_of_lookup hlookup))] at hout
    exact not_begins hget (by simp [hstream]) _ hout

/-- The life cycle of sessions is as the protocol asks all along the runs of proper requests, and only those. -/
theorem lawful_iff_proper (es : List (Event ρ)) : Along (step isJsonResponseEnabled) (Lawful isJsonResponseEnabled) {} es ↔
      Along (step isJsonResponseEnabled) (Proper isJsonResponseEnabled) {} es := by
  refine along_iff sound_empty ?_ fun m e h he => h.step e he
  intro m e h
  cases e with
  | request r generated texts => exact ⟨h.proper, h.lawful⟩
  | close c => exact Iff.rfl

/-! ### Runs that are not -/

/-- The id that is made up in a sample run, where one is. -/
def otherId : GeneratedId := ⟨"other", by decide⟩

def streamRequest (id : String) (connection : ℕ) : Event Unit :=
  .request ⟨connection, .get, [("mcp-session-id", id), ("accept", "text/event-stream")], .malformed⟩ otherId {}

/-- The handshake of a client that gets the id. -/
def initializeRequest (generated : GeneratedId) : Event Unit :=
  .request ⟨1, .post, [("accept", "application/json, text/event-stream"), ("content-type", "application/json")],
    .request (.int 1) "initialize" (.handshake (some (some ())))⟩ generated {}

/-- A made-up id opens a session, and a stream on it. After the stream of a session is closed there is no other. -/
theorem not_lawful : ¬Along (step false) (Lawful false) {} [streamRequest "forged" 1] ∧ ¬Along (step false) (Lawful false) {}
      [initializeRequest ⟨"a", by decide⟩, streamRequest "a" 2, .close 2, streamRequest "a" 3] := by
  refine ⟨fun h => ?_, fun h => ?_⟩
  · obtain ⟨⟨id, hnotFound⟩, -⟩ := h.1.refused (by decide) rfl
    have hout : [Queued.start "forged"] = [.reply 404 id] := hnotFound
    cases hout
  · have hout := h.2.2.2.1.reopens rfl (by decide) (by decide) (by decide) (by decide)
    exact absurd hout (by decide)

end SessionManager

end AgentProtocol.Mcp
