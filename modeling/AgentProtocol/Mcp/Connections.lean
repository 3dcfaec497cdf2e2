-- SUMMARY: Connections of the HTTP server named by recycled descriptors, responses that travel through the task queue, and when each reaches only its requester.
import AgentProtocol.Lib.Run
import AgentProtocol.Lib.Table

/-!
# Connections of the HTTP server

A request keeps the descriptor of its connection. Its response is queued with that number, and whoever is filed under
it when the event thread takes the task gets the bytes. Descriptors are given out again by the kernel once they are
closed. A socket sets its own descriptor to -1 before it reports that it was closed, so `HandleClose` finds nothing
to clean up and the entry of a closed connection stays until another one takes its place.
-/

namespace AgentProtocol.Mcp

open Lib

variable {β : Type}

/-- `TcpSocket`: the descriptor it was accepted with. -/
structure TcpSocket where
  fd : ℕ
  connected : Bool

/-- A request that was parsed: `connectionId` goes into its context, `origin` is the socket it was read from. -/
structure ReceivedRequest where
  connectionId : ℕ
  origin : ℕ
  deriving DecidableEq

/-- A task of `SendResponseAsync`. -/
structure ResponseTask (β : Type) where
  connectionId : ℕ
  request : ℕ
  response : β

/-- Bytes of the response to a request were handed to a socket. -/
structure Written (β : Type) where
  socket : ℕ
  connected : Bool
  request : ℕ
  response : β
  deriving DecidableEq

/-- What comes of a write: bytes were taken, and the connection failed. -/
structure Delivery where
  wrote : Bool := true
  failed : Bool := false

/-- The server of one event thread. Sockets and requests are numbered as they come. -/
structure HttpServer (β : Type) where
  sockets : List TcpSocket := []
  connections : Dict ℕ ℕ := ∅
  requests : List ReceivedRequest := []
  tasks : List (ResponseTask β) := []
  written : List (Written β) := []

namespace HttpServer

/-! ## Opening and closing -/

def closeSocket (s : HttpServer β) (n : ℕ) : HttpServer β :=
  { s with sockets := s.sockets.modify n fun sock => { sock with connected := false } }

def cleanupConnection (s : HttpServer β) (fd : ℕ) : HttpServer β :=
  match s.connections.lookup fd with
  | none => s
  | some n => ({ s with connections := s.connections.erase fd } : HttpServer β).closeSocket n

/-- The kernel gives out a descriptor that no open socket has. -/
def inUse (s : HttpServer β) (fd : ℕ) : Bool := s.sockets.any fun sock => sock.connected && sock.fd == fd

/-- `HandleNewConnection`: a connection that cannot be set up is closed at once. -/
def handleNewConnection (s : HttpServer β) (fd : ℕ) (ready : Bool) : HttpServer β :=
  if s.inUse fd then s
  else
    { s with
      sockets := s.sockets ++ [⟨fd, ready⟩]
      connections := if ready then s.connections.set fd s.sockets.length else s.connections }

/-- The peer closes the connection, or reading fails. Only an error is reported under the descriptor. -/
def disconnect (s : HttpServer β) (n : ℕ) (error : Bool) : HttpServer β :=
  match s.sockets[n]? with
  | none => s
  | some sock =>
    if sock.connected then (if error then s.cleanupConnection sock.fd else s).closeSocket n
    else s

/-! ## Requests and responses -/

def sendRawResponse (s : HttpServer β) (fd request : ℕ) (response : β) (d : Delivery) : HttpServer β :=
  match s.connections.lookup fd with
  | none => s
  | some n =>
    match s.sockets[n]? with
    | none => s
    | some sock =>
      if sock.connected then
        let s := if d.wrote then { s with written := s.written ++ [⟨n, sock.connected, request, response⟩] } else s
        if d.failed then s.cleanupConnection fd else s
      else s.cleanupConnection fd

/-- A request read from a socket: it is dispatched, or answered by the server itself (it does not parse, its URL has
no route, its handler throws). -/
def handleRequest (s : HttpServer β) (n : ℕ) (answer : Option β) (d : Delivery) : HttpServer β :=
  match s.sockets[n]? with
  | none => s
  | some sock =>
    if sock.connected && s.connections.contains sock.fd then
      let request := s.requests.length
      let s := { s with requests := s.requests ++ [⟨sock.fd, n⟩] }
      match answer with
      | none => s
      | some response => s.sendRawResponse sock.fd request response d
    else s

/-- `SendResponseAsync` under the context of a request, from any thread. The queue may be full. -/
def sendResponseAsync (s : HttpServer β) (request : ℕ) (response : β) (pushed : Bool) : HttpServer β :=
  match s.requests[request]? with
  | none => s
  | some r => if pushed then { s with tasks := s.tasks ++ [⟨r.connectionId, request, response⟩] } else s

/-- The event thread takes a task and runs `SendResponse`. -/
def sendResponse (s : HttpServer β) (d : Delivery) : HttpServer β :=
  match s.tasks with
  | [] => s
  | t :: rest => ({ s with tasks := rest } : HttpServer β).sendRawResponse t.connectionId t.request t.response d

end HttpServer

/-! ## Runs -/

inductive HttpEvent (β : Type) where
  | accept (fd : ℕ) (ready : Bool)
  | disconnect (n : ℕ) (error : Bool)
  | request (n : ℕ) (answer : Option β) (delivery : Delivery)
  | sendAsync (request : ℕ) (response : β) (pushed : Bool)
  | task (delivery : Delivery)

namespace HttpServer

def step (s : HttpServer β) : HttpEvent β → HttpServer β
  | .accept fd ready => s.handleNewConnection fd ready
  | .disconnect n error => s.disconnect n error
  | .request n answer d => s.handleRequest n answer d
  | .sendAsync request response pushed => s.sendResponseAsync request response pushed
  | .task d => s.sendResponse d

/-- The bytes of a response went only to the connection its request came on, and only while that was open. -/
def Own (s : HttpServer β) : Prop :=
  ∀ w ∈ s.written, w.connected = true ∧ ∃ r, s.requests[w.request]? = some r ∧ r.origin = w.socket

/-- When a response is taken from the queue, no other open connection has the descriptor its request came on. -/
def Keeps (s : HttpServer β) : HttpEvent β → Prop
  | .task d => d.wrote = true → ∀ t rest r, s.tasks = t :: rest → s.requests[t.request]? = some r →
      ∀ n sock, s.sockets[n]? = some sock → sock.connected = true → sock.fd = r.connectionId → n = r.origin
  | _ => True

/-- An open socket is filed under its descriptor, an entry is of a socket that was accepted with it, and a task has the
descriptor of its request. -/
structure Filed (s : HttpServer β) : Prop where
  listed : ∀ n sock, s.sockets[n]? = some sock → sock.connected = true → s.connections.lookup sock.fd = some n
  entry : ∀ fd n, s.connections.lookup fd = some n → ∃ sock, s.sockets[n]? = some sock ∧ sock.fd = fd
  task : ∀ t ∈ s.tasks, ∃ r, s.requests[t.request]? = some r ∧ r.connectionId = t.connectionId

variable {s : HttpServer β} {fd n request : ℕ} {response : β} {d : Delivery}

/-! ## Opening and closing keep the table -/

theorem getElem?_closeSocket (m : ℕ) : (s.closeSocket n).sockets[m]? =
    if n = m then (s.sockets[m]?).map fun sock => { sock with connected := false } else s.sockets[m]? := by
  rw [closeSocket, List.getElem?_modify]
  split <;> simp

variable {sock : TcpSocket}

theorem open_of_closeSocket {m : ℕ} (hm : (s.closeSocket n).sockets[m]? = some sock)
    (hsock : sock.connected = true) : n ≠ m ∧ s.sockets[m]? = some sock := by
  rw [getElem?_closeSocket] at hm
  split at hm
  · obtain ⟨old, -, rfl⟩ := Option.map_eq_some_iff.mp hm
    cases hsock
  · rename_i hne
    exact ⟨hne, hm⟩

theorem fd_closeSocket {m : ℕ} (hm : s.sockets[m]? = some sock) :
    ∃ sock', (s.closeSocket n).sockets[m]? = some sock' ∧ sock'.fd = sock.fd := by
  rw [getElem?_closeSocket, hm]
  split
  · exact ⟨_, rfl, rfl⟩
  · exact ⟨_, rfl, rfl⟩

theorem Filed.closeSocket (h : s.Filed) : (s.closeSocket n).Filed where
  listed m sock hm hsock := h.listed m sock (open_of_closeSocket hm hsock).2 hsock
  entry fd m hm := by
    obtain ⟨sock, hsock, hfd⟩ := h.entry fd m hm
    obtain ⟨sock', hsock', hfd'⟩ := fd_closeSocket hsock
    exact ⟨sock', hsock', hfd'.trans hfd⟩
  task := h.task

theorem Filed.cleanupConnection (h : s.Filed) : (s.cleanupConnection fd).Filed := by
  unfold HttpServer.cleanupConnection
  cases hfd : s.connections.lookup fd with
  | none => exact h
  | some n =>
    refine ⟨fun m sock hm hsock => ?_, fun fd' m hm => ?_, h.task⟩
    · obtain ⟨hne, hold⟩ := open_of_closeSocket hm hsock
      have hlisted := h.listed m sock hold hsock
      show Dict.lookup (s.connections.erase fd) sock.fd = some m
      rw [Dict.lookup_erase, if_neg, hlisted]
      intro heq
      rw [heq, hfd] at hlisted
      exact hne (Option.some.inj hlisted)
    · have hm' : Dict.lookup (s.connections.erase fd) fd' = some m := hm
      rw [Dict.lookup_erase] at hm'
      split at hm'
      · cases hm'
      obtain ⟨sock, hsock, hsockfd⟩ := h.entry fd' m hm'
      obtain ⟨sock', hsock', hfd'⟩ := fd_closeSocket (n := n)
        (s := { s with connections := s.connections.erase fd }) hsock
      exact ⟨sock', hsock', hfd'.trans hsockfd⟩

@[simp] theorem cleanupConnection_written : (s.cleanupConnection fd).written = s.written := by
  unfold cleanupConnection
  split <;> rfl

@[simp] theorem cleanupConnection_requests : (s.cleanupConnection fd).requests = s.requests := by
  unfold cleanupConnection
  split <;> rfl

theorem Own.of_eq {s' : HttpServer β} (h : s.Own) (hw : s'.written = s.written) (hr : s'.requests = s.requests) : s'.Own := by
  rw [Own, hw, hr]
  exact h

theorem Filed.handleNewConnection (h : s.Filed) {ready : Bool} : (s.handleNewConnection fd ready).Filed := by
  unfold HttpServer.handleNewConnection
  split
  · exact h
  · rename_i huse
    have hfree : ∀ (m : ℕ) (sock : TcpSocket), s.sockets[m]? = some sock → sock.connected = true → fd ≠ sock.fd := by
      rintro m sock hm hsock rfl
      exact huse (List.any_eq_true.mpr ⟨sock, List.mem_of_getElem? hm, by simp [hsock]⟩)
    refine ⟨fun m sock hm hsock => ?_, fun fd' m hm => ?_, h.task⟩
    · simp only [List.getElem?_append] at hm
      dsimp only
      split at hm
      · have hlisted := h.listed m sock hm hsock
        split
        · rw [Dict.lookup_set_of_ne (hfree m sock hm hsock), hlisted]
        · exact hlisted
      · rename_i hlen
        obtain ⟨hlt, heq⟩ := List.getElem?_eq_some_iff.mp hm
        obtain rfl : m = s.sockets.length := by
          have : m - s.sockets.length < 1 := hlt
          omega
        have hnew : (⟨fd, ready⟩ : TcpSocket) = sock := by simpa using heq
        subst hnew
        obtain rfl : ready = true := hsock
        simp
    · have hold : ∀ m, s.connections.lookup fd' = some m →
          ∃ sock, (s.sockets ++ [⟨fd, ready⟩])[m]? = some sock ∧ sock.fd = fd' := by
        intro m hm
        obtain ⟨sock, hsock, hsockfd⟩ := h.entry fd' m hm
        exact ⟨sock, by rw [List.getElem?_append_left (List.getElem?_eq_some_iff.mp hsock).1, hsock], hsockfd⟩
      dsimp only at hm
      split at hm
      · rw [Dict.lookup_set] at hm
        split at hm
        · rename_i heq
          obtain rfl := Option.some.inj hm
          exact ⟨⟨fd, ready⟩, by simp, heq⟩
        · exact hold m hm
      · exact hold m hm

variable {error : Bool}

theorem Filed.disconnect (h : s.Filed) : (s.disconnect n error).Filed := by
  unfold HttpServer.disconnect
  split
  · exact h
  · split
    · split
      · exact h.cleanupConnection.closeSocket
      · exact h.closeSocket
    · exact h

theorem Own.disconnect (h : s.Own) : (s.disconnect n error).Own := by
  unfold HttpServer.disconnect
  split
  · exact h
  · split
    · split
      · exact h.of_eq cleanupConnection_written cleanupConnection_requests
      · exact h
    · exact h

/-! ## What a write does -/

@[simp] theorem sendRawResponse_requests : (s.sendRawResponse fd request response d).requests = s.requests := by
  unfold sendRawResponse
  split
  · rfl
  · split
    · rfl
    · cases d.wrote <;> cases d.failed <;> split <;> simp

theorem Filed.sendRawResponse (h : s.Filed) : (s.sendRawResponse fd request response d).Filed := by
  unfold HttpServer.sendRawResponse
  split
  · exact h
  · split
    · exact h
    · split
      · have hwritten : ∀ written, ({ s with written } : HttpServer β).Filed := fun _ => ⟨h.listed, h.entry, h.task⟩
        cases d.wrote <;> cases d.failed
        · exact h
        · exact h.cleanupConnection
        · exact hwritten _
        · exact (hwritten _).cleanupConnection
      · exact h.cleanupConnection

theorem mem_sendRawResponse {w : Written β} (hw : w ∈ (s.sendRawResponse fd request response d).written) :
    w ∈ s.written ∨ ∃ n sock, s.connections.lookup fd = some n ∧ s.sockets[n]? = some sock ∧ sock.connected = true ∧
      d.wrote = true ∧ w = ⟨n, true, request, response⟩ := by
  unfold sendRawResponse at hw
  split at hw
  · exact .inl hw
  · rename_i n hn
    split at hw
    · exact .inl hw
    · rename_i sock hsock
      split at hw
      · rename_i hopen
        cases hwrote : d.wrote with
        | false =>
          cases hfailed : d.failed <;> exact .inl (by simpa [hwrote, hfailed] using hw)
        | true =>
          have hmem : w ∈ s.written ++ [⟨n, sock.connected, request, response⟩] := by
            cases hfailed : d.failed <;> simpa [hwrote, hfailed] using hw
          rcases List.mem_append.mp hmem with hold | hnew
          · exact .inl hold
          · exact .inr ⟨n, sock, hn, hsock, hopen, rfl, by rw [List.mem_singleton.mp hnew, hopen]⟩
      · exact .inl (by simpa using hw)

theorem mem_sendRawResponse_of_open (hn : s.connections.lookup fd = some n) (hsock : s.sockets[n]? = some sock)
    (hopen : sock.connected = true) (hwrote : d.wrote = true) :
    (⟨n, true, request, response⟩ : Written β) ∈ (s.sendRawResponse fd request response d).written := by
  unfold sendRawResponse
  cases hfailed : d.failed <;> simp [hn, hsock, hopen, hwrote]

theorem Own.sendRawResponse (h : s.Own) (hto : ∀ n sock, s.connections.lookup fd = some n → s.sockets[n]? = some sock →
    sock.connected = true → d.wrote = true → ∃ r, s.requests[request]? = some r ∧ r.origin = n) :
    (s.sendRawResponse fd request response d).Own := by
  intro w hw
  rw [sendRawResponse_requests]
  rcases mem_sendRawResponse hw with hold | ⟨n, sock, hn, hsock, hopen, hwrote, rfl⟩
  · exact h w hold
  · exact ⟨rfl, hto n sock hn hsock hopen hwrote⟩

/-! ## One step -/

/-- What holds in every state of a run that keeps responses to their requesters. -/
structure Routed (s : HttpServer β) : Prop where
  filed : s.Filed
  own : s.Own

theorem Routed.received (h : s.Routed) (r : ReceivedRequest) : ({ s with requests := s.requests ++ [r] } : HttpServer β).Routed := by
  have hkeep : ∀ (i : ℕ) (r' : ReceivedRequest), s.requests[i]? = some r' → (s.requests ++ [r])[i]? = some r' := by
    intro i r' hi
    rw [List.getElem?_append_left (List.getElem?_eq_some_iff.mp hi).1, hi]
  refine ⟨⟨h.filed.listed, h.filed.entry, fun t ht => ?_⟩, fun w hw => ?_⟩
  · obtain ⟨r', hr', hid⟩ := h.filed.task t ht
    exact ⟨r', hkeep _ _ hr', hid⟩
  · obtain ⟨hopen, r', hr', horigin⟩ := h.own w hw
    exact ⟨hopen, r', hkeep _ _ hr', horigin⟩

theorem Routed.handleRequest (h : s.Routed) {answer : Option β} : (s.handleRequest n answer d).Routed := by
  unfold HttpServer.handleRequest
  split
  · exact h
  · rename_i sock hsock
    split
    · rename_i hguard
      have hopen : sock.connected = true := (Bool.and_eq_true_iff.mp hguard).1
      have hreceived := h.received ⟨sock.fd, n⟩
      cases answer with
      | none => exact hreceived
      | some response =>
        refine ⟨hreceived.filed.sendRawResponse, hreceived.own.sendRawResponse fun m sock' hm _ _ _ => ?_⟩
        -- the connection under the descriptor is the one that was read
        have hlisted := h.filed.listed n sock hsock hopen
        obtain rfl : n = m := Option.some.inj (hlisted.symm.trans hm)
        exact ⟨⟨sock.fd, n⟩, by simp, rfl⟩
    · exact h

theorem Routed.sendResponseAsync (h : s.Routed) {pushed : Bool} : (s.sendResponseAsync request response pushed).Routed := by
  unfold HttpServer.sendResponseAsync
  split
  · exact h
  · rename_i r hr
    split
    · refine ⟨⟨h.filed.listed, h.filed.entry, fun t ht => ?_⟩, h.own⟩
      rcases List.mem_append.mp ht with ht | ht
      · exact h.filed.task t ht
      · rw [List.mem_singleton.mp ht]
        exact ⟨r, hr, rfl⟩
    · exact h

theorem Routed.sendResponse (h : s.Routed) (hk : s.Keeps (.task d)) : (s.sendResponse d).Routed := by
  unfold HttpServer.sendResponse
  split
  · exact h
  · rename_i t rest ht
    have hpopped : ({ s with tasks := rest } : HttpServer β).Filed :=
      ⟨h.filed.listed, h.filed.entry, fun t' ht' => h.filed.task t' (by simp [ht, ht'])⟩
    refine ⟨hpopped.sendRawResponse, Own.sendRawResponse h.own fun n sock hn hsock hopen hwrote => ?_⟩
    obtain ⟨r, hr, hid⟩ := h.filed.task t (by simp [ht])
    obtain ⟨sock', hsock', hfd⟩ := h.filed.entry _ n hn
    obtain rfl : sock = sock' := Option.some.inj (hsock.symm.trans hsock')
    exact ⟨r, hr, (hk hwrote t rest r ht hr n sock hsock hopen (hfd.trans hid.symm)).symm⟩

variable {e : HttpEvent β}

theorem http_step_routed (h : s.Routed) (hk : s.Keeps e) : (step s e).Routed := by
  cases e with
  | accept fd ready =>
    refine ⟨h.filed.handleNewConnection, h.own.of_eq ?_ ?_⟩
    · unfold step handleNewConnection
      dsimp only
      split <;> rfl
    · unfold step handleNewConnection
      dsimp only
      split <;> rfl
  | disconnect n error => exact ⟨h.filed.disconnect, h.own.disconnect⟩
  | request n answer d => exact h.handleRequest
  | sendAsync request response pushed => exact h.sendResponseAsync
  | task d => exact h.sendResponse hk

theorem step_not_own (h : s.Routed) (hk : ¬ s.Keeps e) : ¬ (step s e).Own := by
  cases e with
  | accept | disconnect | request | sendAsync => exact absurd trivial hk
  | task d =>
    simp only [Keeps, not_forall] at hk
    obtain ⟨hwrote, t, rest, r, ht, hr, n, sock, hsock, hopen, hfd, hother⟩ := hk
    obtain ⟨r', hr', hid⟩ := h.filed.task t (by simp [ht])
    obtain rfl : r = r' := Option.some.inj (hr.symm.trans hr')
    have hn : s.connections.lookup t.connectionId = some n := by
      rw [← hid, ← hfd]
      exact h.filed.listed n sock hsock hopen
    have hmem : (⟨n, true, t.request, t.response⟩ : Written β) ∈ (step s (.task d)).written := by
      simp only [step, HttpServer.sendResponse, ht]
      exact mem_sendRawResponse_of_open hn hsock hopen hwrote
    have hrequests : (step s (.task d)).requests = s.requests := by
      simp only [step, HttpServer.sendResponse, ht, sendRawResponse_requests]
    intro hown
    obtain ⟨-, r', hr', horigin⟩ := hown _ hmem
    rw [hrequests, hr] at hr'
    rw [← Option.some.inj hr'] at horigin
    exact hother horigin.symm

/-! ## Runs of the server -/

/-- All along a run the responses reach only their requesters, if and only if at every task no other open connection
has the descriptor of the requester. -/
theorem responses_own_iff (es : List (HttpEvent β)) :
    (∀ pre, pre <+: es → (run step {} pre).Own) ↔ Along step Keeps ({} : HttpServer β) es := by
  have hstart : ({} : HttpServer β).Routed := ⟨⟨by simp, by simp, by simp⟩, by simp [Own]⟩
  exact holds_iff_along hstart (fun _ h => h.own) (fun _ _ h hk => http_step_routed h hk) fun _ _ h hk => step_not_own h hk

/-- A client closes its connection before its answer is queued, and the next one gets the descriptor and the answer. -/
theorem response_misrouted : ¬ ∀ (es pre : List (HttpEvent String)), pre <+: es → (run step {} pre).Own := by
  intro h
  have hrun := h [.accept 7 true, .request 0 none {}, .disconnect 0 false, .accept 7 true, .sendAsync 0 "secret" true, .task {}]
    _ List.prefix_rfl
  obtain ⟨-, r, hr, horigin⟩ := hrun ⟨1, true, 0, "secret"⟩ (by decide)
  have hreq : r = ⟨7, 0⟩ := Option.some.inj (hr.symm.trans (by decide))
  rw [hreq] at horigin
  exact absurd horigin (by decide)

end HttpServer
end AgentProtocol.Mcp
