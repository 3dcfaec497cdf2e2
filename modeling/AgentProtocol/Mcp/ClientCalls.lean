-- SUMMARY: The requests of a client session: registration, sending, replies, progress, and when each completion is called exactly once.
import AgentProtocol.Mcp.Messages
import AgentProtocol.Lib.Run
import AgentProtocol.Lib.Table

/-!
# Calls of a client session

A call draws an id, files its callbacks under it and hands the message to the transport. The callbacks are
closures of the caller: here a callback is the number of the call that supplied it. `HandleResponse` moves a
completion out of the table under the lock and calls it after the lock is released, so the two are steps of their
own; between them the completion is in the hands of the thread that took it.
-/

namespace AgentProtocol.Mcp

open Lib

variable {π ρ : Type}

/-- A call of `SendRequest` that was accepted. -/
structure Call where
  id : RequestId
  completion : Bool
  token : Option ProgressToken
  deriving DecidableEq

/-- A thread inside `clientTransport_->SendMessage`. `completion` is its local, as the registration left it. -/
structure Sending (π : Type) where
  call : ℕ
  requestId : RequestId
  completion : Option ℕ
  message : JSONRPCRequest π

/-- A thread of `HandleResponse` that took a completion and is about to call it. -/
structure Handling (ρ : Type) where
  completion : ℕ
  responseId : RequestId
  outcome : Outcome ρ

/-- A completion was called; `replyTo` is the id of the message that made it so, if it was one. -/
structure Completed (ρ : Type) where
  completion : ℕ
  replyTo : Option RequestId
  outcome : Outcome ρ

/-- A completion that was called has an error, or the response with the call's own id. -/
def Completed.Own (calls : List Call) (e : Completed ρ) : Prop :=
  ∃ call, calls[e.completion]? = some call ∧ ((∃ error, e.outcome = .error error) ∨ e.replyTo = some call.id)

/-- What a progress notification carries besides its token. -/
structure Progress where
  progress : FloatVal
  total : Option FloatVal
  message : Option String

/-- A progress callback was called. -/
structure Progressed where
  callback : ℕ
  token : ProgressToken
  progress : Progress

/-- The session, and what its calls and callbacks have seen so far. -/
structure ClientSession (π ρ : Type) where
  requestId : Int64 := 1
  transport : Bool := true
  progressCallbacks : Dict RequestId ℕ := ∅
  completionCallbacks : Dict RequestId ℕ := ∅
  sending : List (Sending π) := []
  handling : List (Handling ρ) := []
  calls : List Call := []
  completed : List (Completed ρ) := []
  progressed : List Progressed := []

/-- A message of the server, as far as it concerns calls. -/
inductive Reply (ρ : Type) where
  | response (response : JSONRPCResponse ρ)
  | error (error : JSONRPCError)

def Reply.id : Reply ρ → RequestId
  | .response r => r.id
  | .error e => e.id

/-- What `HandleResponse` passes to the completion. -/
def Reply.outcome : Reply ρ → Outcome ρ
  | .response r => .result r.result
  | .error e => .error { code := e.code, message := e.message, data := e.data }

namespace ClientSession

/-! ## Sending -/

def nextCall (s : ClientSession π ρ) (completion progressCallback : Bool) : Call where
  id := .int s.requestId
  completion := completion
  token := if progressCallback then some (.int s.requestId) else none

/-- The message of a call: its token goes into the parameters, if there are any. -/
def callMessage (call : Call) (request : Request π) : JSONRPCRequest π where
  id := call.id
  method := request.method
  request := { request with params := request.params.map fun params =>
    match call.token with
    | some token => { params with progressToken := some token }
    | none => params }

/-- `SendRequest` up to the transport, of an accepted call. Assigning `completion` to the table moves it: the local
is empty afterwards, and it was empty before when it was not assigned. -/
def register (s : ClientSession π ρ) (request : Request π) (call : Call) : ClientSession π ρ :=
  { s with
    requestId := s.requestId + 1
    progressCallbacks := if call.token.isSome then s.progressCallbacks.set call.id s.calls.length else s.progressCallbacks
    completionCallbacks := if call.completion then s.completionCallbacks.set call.id s.calls.length else s.completionCallbacks
    sending := s.sending ++ [{
      call := s.calls.length, requestId := call.id, completion := none, message := callMessage call request }]
    calls := s.calls ++ [call] }

def sendRequest (s : ClientSession π ρ) (request : Option (Request π)) (completion progressCallback : Bool) :
    Except String (ClientSession π ρ) :=
  match request with
  | none => .error "Request cannot be null"
  | some request =>
    if s.transport then .ok (s.register request (s.nextCall completion progressCallback))
    else .error "Transport not set"

/-- The error a completion gets when the transport throws. -/
def transportError (what : String) : Outcome ρ :=
  .error { code := JsonRpcErrorCode.internalError.toInt, message := "Transport error: " ++ what }

/-- The transport returns, or throws `what`. -/
def sent (s : ClientSession π ρ) (t : Sending π) : Option String → ClientSession π ρ
  | none => { s with sending := s.sending.filter (·.call ≠ t.call) }
  | some what =>
    { s with
      sending := s.sending.filter (·.call ≠ t.call)
      completed := s.completed ++ (t.completion.toList.map fun c => ⟨c, none, transportError what⟩)
      completionCallbacks := s.completionCallbacks.erase t.requestId
      progressCallbacks := s.progressCallbacks.erase t.requestId }

/-! ## Replies and progress -/

/-- `HandleResponse` under the lock. -/
def takeCompletion (s : ClientSession π ρ) (r : Reply ρ) : ClientSession π ρ :=
  { s with
    progressCallbacks := s.progressCallbacks.erase r.id
    completionCallbacks := s.completionCallbacks.erase r.id
    handling := s.handling ++ ((s.completionCallbacks.lookup r.id).toList.map fun c => ⟨c, r.id, r.outcome⟩) }

/-- `HandleResponse` after the lock: the thread calls the completion it holds. -/
def complete (s : ClientSession π ρ) (i : ℕ) : ClientSession π ρ :=
  match s.handling[i]? with
  | none => s
  | some h =>
    { s with
      handling := s.handling.eraseIdx i
      completed := s.completed ++ [⟨h.completion, some h.responseId, h.outcome⟩] }

/-- The id a token stands for: a string that starts with a number is read as that number. -/
def tokenRequestId : ProgressToken → RequestId
  | .int n => .int n
  | .str t => match stoll t with
    | some n => .int n
    | none => .str t

def handleProgressNotification (s : ClientSession π ρ) (token : ProgressToken) (progress : Progress) : ClientSession π ρ :=
  match s.progressCallbacks.lookup (tokenRequestId token) with
  | none => s
  | some c => { s with progressed := s.progressed ++ [⟨c, token, progress⟩] }

end ClientSession

/-! ## Runs -/

inductive ClientEvent (π ρ : Type) where
  | call (request : Option (Request π)) (completion progressCallback : Bool)
  | sent (call : ℕ) (failure : Option String)
  | reply (reply : Reply ρ)
  | complete (i : ℕ)
  | progress (token : ProgressToken) (progress : Progress)

namespace ClientSession

/-- A call that is refused throws to its caller and changes nothing. -/
def step (s : ClientSession π ρ) : ClientEvent π ρ → ClientSession π ρ
  | .call request completion progressCallback => (s.sendRequest request completion progressCallback).toOption.getD s
  | .sent call failure =>
    match s.sending.find? (·.call = call) with
    | none => s
    | some t => s.sent t failure
  | .reply r => s.takeCompletion r
  | .complete i => s.complete i
  | .progress token progress => s.handleProgressNotification token progress

/-! ## Exactly once -/

/-- How often the completion of a call is in the hands of a thread or was called. -/
def attempts (s : ClientSession π ρ) (c : ℕ) : ℕ :=
  s.handling.countP (·.completion = c) + s.completed.countP (·.completion = c)

def Pending (s : ClientSession π ρ) (c : ℕ) (call : Call) : Prop := s.completionCallbacks.lookup call.id = some c

instance (s : ClientSession π ρ) (c : ℕ) (call : Call) : Decidable (s.Pending c call) :=
  inferInstanceAs (Decidable (_ = _))

/-- Every completion is called exactly once by the time the call is not pending, with an error or with the response
that carries the call's id, and every progress callback for exactly the token of its call. -/
structure ExactlyOnce (s : ClientSession π ρ) : Prop where
  pending : ∀ c call, s.calls[c]? = some call → call.completion → s.Pending c call → s.attempts c = 0
  settled : ∀ c call, s.calls[c]? = some call → call.completion → ¬ s.Pending c call → s.attempts c = 1
  own : ∀ e ∈ s.completed, e.Own s.calls
  token : ∀ p ∈ s.progressed, ∃ call, s.calls[p.callback]? = some call ∧ call.token = some p.token

/-- The steps that keep it so: an id is not drawn again while it is pending, a send does not fail while its id is
pending, and a string is not a token where it reads as the id of a call with a progress callback. -/
def Keeps (s : ClientSession π ρ) : ClientEvent π ρ → Prop
  | .call (some _) true _ => s.transport = true → s.completionCallbacks.lookup (.int s.requestId) = none
  | .sent call (some _) => ∀ t, s.sending.find? (·.call = call) = some t → s.completionCallbacks.lookup t.requestId = none
  | .progress (.str token) _ => ∀ n, stoll token = some n → s.progressCallbacks.lookup (.int n) = none
  | _ => True

/-- What every step that keeps it so preserves besides: whose the callbacks are, and that no sending thread still
holds a completion. -/
structure Inv (s : ClientSession π ρ) : Prop where
  exactly : s.ExactlyOnce
  completion : ∀ id c, s.completionCallbacks.lookup id = some c →
    ∃ call, s.calls[c]? = some call ∧ call.id = id ∧ call.completion = true
  progress : ∀ id c, s.progressCallbacks.lookup id = some c → ∃ call, s.calls[c]? = some call ∧ call.token = some id
  handling : ∀ h ∈ s.handling, ∃ call, s.calls[h.completion]? = some call ∧ call.id = h.responseId
  sending : ∀ t ∈ s.sending, t.completion = none

variable {s : ClientSession π ρ} {c : ℕ} {call : Call}

theorem inv_init (transport : Bool) : Inv ({ transport } : ClientSession π ρ) where
  exactly := {
    pending := by simp
    settled := by simp
    own := by simp
    token := by simp }
  completion := by simp
  progress := by simp
  handling := by simp
  sending := by simp

theorem getElem?_of_extends {calls calls' : List Call} (h : calls <+: calls') (hc : calls[c]? = some call) :
    calls'[c]? = some call := by
  obtain ⟨later, rfl⟩ := h
  rw [List.getElem?_append_left (List.getElem?_eq_some_iff.mp hc).1, hc]

theorem Own.mono {calls calls' : List Call} {e : Completed ρ} (h : calls <+: calls') (he : e.Own calls) : e.Own calls' := by
  obtain ⟨call, hcall, hown⟩ := he
  exact ⟨call, getElem?_of_extends h hcall, hown⟩

theorem Inv.attempts_length (h : s.Inv) : s.attempts s.calls.length = 0 := by
  have hnone : s.calls[s.calls.length]? = none := List.getElem?_eq_none le_rfl
  have hhandling : s.handling.countP (·.completion = s.calls.length) = 0 := by
    rw [List.countP_eq_zero]
    intro t ht he
    obtain ⟨call, hcall, -⟩ := h.handling t ht
    rw [of_decide_eq_true he, hnone] at hcall
    cases hcall
  have hcompleted : s.completed.countP (·.completion = s.calls.length) = 0 := by
    rw [List.countP_eq_zero]
    intro e he heq
    obtain ⟨call, hcall, -⟩ := h.exactly.own e he
    rw [of_decide_eq_true heq, hnone] at hcall
    cases hcall
  rw [attempts, hhandling, hcompleted]

theorem Inv.pending_of_lookup (h : s.Inv) {id : RequestId} (hc : s.completionCallbacks.lookup id = some c) :
    ∃ call, s.calls[c]? = some call ∧ call.id = id ∧ call.completion = true ∧ s.attempts c = 0 := by
  obtain ⟨call, hcall, rfl, hcompletion⟩ := h.completion id c hc
  exact ⟨call, hcall, rfl, hcompletion, h.exactly.pending c call hcall hcompletion hc⟩

theorem not_exactlyOnce_of_lost (h : s.Inv) {s' : ClientSession π ρ} {id : RequestId}
    (hc : s.completionCallbacks.lookup id = some c) (hcalls : s.calls <+: s'.calls)
    (hattempts : s'.attempts c = s.attempts c) (hlost : s'.completionCallbacks.lookup id ≠ some c) : ¬ s'.ExactlyOnce := by
  intro h'
  obtain ⟨call, hcall, rfl, hcompletion, hzero⟩ := h.pending_of_lookup hc
  have hone := h'.settled c call (getElem?_of_extends hcalls hcall) hcompletion hlost
  omega

/-! ## One step -/

section Register

variable {request : Request π} {new : Call}

@[simp] theorem register_calls : (s.register request new).calls = s.calls ++ [new] := rfl

theorem register_cases (hcall : (s.register request new).calls[c]? = some call) :
    s.calls[c]? = some call ∨ c = s.calls.length ∧ call = new := by
  rw [register_calls, List.getElem?_append] at hcall
  split at hcall
  · exact .inl hcall
  · obtain ⟨hlt, heq⟩ := List.getElem?_eq_some_iff.mp hcall
    have hzero : c - s.calls.length = 0 := by simpa using hlt
    refine .inr ⟨by omega, ?_⟩
    simpa [hzero] using heq.symm

theorem register_lookup {id : RequestId} : (s.register request new).completionCallbacks.lookup id =
    if new.completion = true ∧ new.id = id then some s.calls.length else s.completionCallbacks.lookup id := by
  cases hc : new.completion <;> simp [register, hc, Dict.lookup_set]

theorem register_progress {id : RequestId} : (s.register request new).progressCallbacks.lookup id =
    if new.token.isSome ∧ new.id = id then some s.calls.length else s.progressCallbacks.lookup id := by
  cases hc : new.token <;> simp [register, hc, Dict.lookup_set]

end Register

theorem inv_register (h : s.Inv) {request : Request π} {completion progressCallback : Bool}
    (hk : completion = true → s.completionCallbacks.lookup (.int s.requestId) = none) :
    (s.register request (s.nextCall completion progressCallback)).Inv := by
  set new := s.nextCall completion progressCallback with hnew
  have hcalls : s.calls <+: (s.register request new).calls := ⟨[new], rfl⟩
  have hlast : (s.register request new).calls[s.calls.length]? = some new := by simp
  -- an old call keeps its entry: the new id had none
  have hold : ∀ c call, s.calls[c]? = some call → ((s.register request new).Pending c call ↔ s.Pending c call) := by
    intro c call hcall
    rw [Pending, Pending, register_lookup]
    split
    · rename_i hid
      have hnone : s.completionCallbacks.lookup call.id = none := hid.2 ▸ hk hid.1
      have hlt := (List.getElem?_eq_some_iff.mp hcall).1
      simp only [hnone, Option.some.injEq, reduceCtorEq, iff_false]
      omega
    · rfl
  refine
    { exactly := { pending := ?_, settled := ?_, own := ?_, token := ?_ }
      completion := ?_, progress := ?_, handling := ?_, sending := ?_ }
  · intro c call hcall hcompletion hpending
    rcases register_cases hcall with hcall | ⟨rfl, rfl⟩
    · exact h.exactly.pending c call hcall hcompletion ((hold c call hcall).mp hpending)
    · exact h.attempts_length
  · intro c call hcall hcompletion hpending
    rcases register_cases hcall with hcall | ⟨rfl, rfl⟩
    · exact h.exactly.settled c call hcall hcompletion (mt (hold c call hcall).mpr hpending)
    · exact absurd (by simp [Pending, register_lookup, hcompletion]) hpending
  · intro e he
    exact Own.mono hcalls (h.exactly.own e he)
  · intro p hp
    obtain ⟨call, hcall, htoken⟩ := h.exactly.token p hp
    exact ⟨call, getElem?_of_extends hcalls hcall, htoken⟩
  · intro id c hc
    rw [register_lookup] at hc
    split at hc
    · rename_i hid
      obtain rfl : s.calls.length = c := Option.some.inj hc
      exact ⟨new, hlast, hid.2, hid.1⟩
    · obtain ⟨call, hcall, hrest⟩ := h.completion id c hc
      exact ⟨call, getElem?_of_extends hcalls hcall, hrest⟩
  · intro id c hc
    rw [register_progress] at hc
    split at hc
    · rename_i hid
      obtain rfl : s.calls.length = c := Option.some.inj hc
      refine ⟨new, hlast, ?_⟩
      cases progressCallback
      · simp [hnew, nextCall] at hid
      · simpa [hnew, nextCall] using hid.2
    · obtain ⟨call, hcall, htoken⟩ := h.progress id c hc
      exact ⟨call, getElem?_of_extends hcalls hcall, htoken⟩
  · intro t ht
    obtain ⟨call, hcall, hid⟩ := h.handling t ht
    exact ⟨call, getElem?_of_extends hcalls hcall, hid⟩
  · intro t ht
    rcases List.mem_append.mp ht with ht | ht
    · exact h.sending t ht
    · rw [List.mem_singleton.mp ht]

theorem inv_sent (h : s.Inv) {t : Sending π} (ht : t ∈ s.sending) {failure : Option String}
    (hk : failure.isSome → s.completionCallbacks.lookup t.requestId = none) : (s.sent t failure).Inv := by
  cases failure with
  | none =>
    exact {
      exactly := ⟨h.exactly.pending, h.exactly.settled, h.exactly.own, h.exactly.token⟩
      completion := h.completion
      progress := h.progress
      handling := h.handling
      sending := fun t ht => h.sending t (List.mem_of_mem_filter ht) }
  | some what =>
    have hlookup : ∀ id, (s.sent t (some what)).completionCallbacks.lookup id = s.completionCallbacks.lookup id := by
      intro id
      show Dict.lookup (s.completionCallbacks.erase t.requestId) id = _
      rw [Dict.lookup_erase]
      split
      · rename_i hid
        rw [hid, hk rfl]
      · rfl
    have hcompleted : (s.sent t (some what)).completed = s.completed := by simp [sent, h.sending t ht]
    have hattempts : ∀ c, (s.sent t (some what)).attempts c = s.attempts c := by
      intro c
      rw [attempts, attempts, hcompleted]
      rfl
    refine
      { exactly := { pending := ?_, settled := ?_, own := ?_, token := h.exactly.token }
        completion := ?_, progress := ?_, handling := h.handling, sending := ?_ }
    · intro c call hcall hcompletion hpending
      rw [hattempts]
      exact h.exactly.pending c call hcall hcompletion ((hlookup _).symm.trans hpending)
    · intro c call hcall hcompletion hpending
      rw [hattempts]
      exact h.exactly.settled c call hcall hcompletion fun hold => hpending ((hlookup _).trans hold)
    · rw [hcompleted]
      exact h.exactly.own
    · intro id c hc
      exact h.completion id c ((hlookup id).symm.trans hc)
    · intro id c hc
      have hc' : Dict.lookup (s.progressCallbacks.erase t.requestId) id = some c := hc
      rw [Dict.lookup_erase] at hc'
      split at hc'
      · cases hc'
      exact h.progress id c hc'
    · exact fun t ht => h.sending t (List.mem_of_mem_filter ht)

theorem inv_takeCompletion (h : s.Inv) (r : Reply ρ) : (s.takeCompletion r).Inv := by
  have hlookup : ∀ id, (s.takeCompletion r).completionCallbacks.lookup id =
      if id = r.id then none else s.completionCallbacks.lookup id := fun id => Dict.lookup_erase ..
  have hattempts : ∀ c, (s.takeCompletion r).attempts c =
      s.attempts c + if s.completionCallbacks.lookup r.id = some c then 1 else 0 := by
    intro c
    rw [attempts, attempts, takeCompletion]
    cases hc : s.completionCallbacks.lookup r.id with
    | none => simp
    | some d =>
      by_cases hd : d = c <;> simp [List.countP_append, hd]
      omega
  refine
    { exactly := { pending := ?_, settled := ?_, own := h.exactly.own, token := h.exactly.token }
      completion := ?_, progress := ?_, handling := ?_, sending := h.sending }
  · intro c call hcall hcompletion hpending
    rw [Pending, hlookup] at hpending
    split at hpending
    · cases hpending
    rename_i hid
    have hzero := h.exactly.pending c call hcall hcompletion hpending
    rw [hattempts, hzero, if_neg]
    intro hc
    obtain ⟨call', hcall', hid', -⟩ := h.pending_of_lookup hc
    obtain rfl : call = call' := Option.some.inj (hcall.symm.trans hcall')
    exact hid hid'
  · intro c call hcall hcompletion hpending
    rw [hattempts]
    by_cases hc : s.completionCallbacks.lookup r.id = some c
    · obtain ⟨-, -, -, -, hzero⟩ := h.pending_of_lookup hc
      rw [hzero, if_pos hc]
    · rw [if_neg hc]
      refine h.exactly.settled c call hcall hcompletion fun hold => ?_
      rw [Pending, hlookup] at hpending
      by_cases hid : call.id = r.id
      · exact hc (hid ▸ hold)
      · exact hpending (by rw [if_neg hid]; exact hold)
  · intro id c hc
    rw [hlookup] at hc
    split at hc
    · cases hc
    exact h.completion id c hc
  · intro id c hc
    have hc' : Dict.lookup (s.progressCallbacks.erase r.id) id = some c := hc
    rw [Dict.lookup_erase] at hc'
    split at hc'
    · cases hc'
    exact h.progress id c hc'
  · intro t ht
    rcases List.mem_append.mp ht with ht | ht
    · exact h.handling t ht
    · obtain ⟨c, hc, rfl⟩ := List.mem_map.mp ht
      obtain ⟨call, hcall, hid, -⟩ := h.pending_of_lookup (Option.mem_toList.mp hc)
      exact ⟨call, hcall, hid⟩

theorem inv_complete (h : s.Inv) (i : ℕ) : (s.complete i).Inv := by
  unfold complete
  cases hi : s.handling[i]? with
  | none => exact h
  | some t =>
    obtain ⟨hlt, hget⟩ := List.getElem?_eq_some_iff.mp hi
    have hmem : t ∈ s.handling := hget ▸ List.getElem_mem hlt
    set called : Completed ρ := ⟨t.completion, some t.responseId, t.outcome⟩
    have hcalled : called.completion = t.completion := rfl
    have hattempts : ∀ c, (s.handling.eraseIdx i).countP (·.completion = c) +
        (s.completed ++ [called]).countP (·.completion = c) = s.attempts c := by
      intro c
      have hperm := (List.getElem_cons_eraseIdx_perm hlt).countP_eq (·.completion = c)
      rw [hget, List.countP_cons] at hperm
      rw [attempts, List.countP_append, List.countP_singleton, hcalled]
      omega
    refine
      { exactly := { pending := ?_, settled := ?_, own := ?_, token := h.exactly.token }
        completion := h.completion, progress := h.progress, handling := ?_, sending := h.sending }
    · intro c call hcall hcompletion hpending
      exact (hattempts c).trans (h.exactly.pending c call hcall hcompletion hpending)
    · intro c call hcall hcompletion hpending
      exact (hattempts c).trans (h.exactly.settled c call hcall hcompletion hpending)
    · intro e he
      rcases List.mem_append.mp he with he | he
      · exact h.exactly.own e he
      · obtain ⟨call, hcall, hid⟩ := h.handling t hmem
        rw [List.mem_singleton.mp he]
        exact ⟨call, hcall, .inr (by rw [hid])⟩
    · exact fun t ht => h.handling t (List.mem_of_mem_eraseIdx ht)

theorem inv_progress (h : s.Inv) {token : ProgressToken} {progress : Progress}
    (hk : s.progressCallbacks.lookup (tokenRequestId token) ≠ none → tokenRequestId token = token) :
    (s.handleProgressNotification token progress).Inv := by
  unfold handleProgressNotification
  cases hc : s.progressCallbacks.lookup (tokenRequestId token) with
  | none => exact h
  | some c =>
    refine { h with exactly := ⟨h.exactly.pending, h.exactly.settled, h.exactly.own, fun p hp => ?_⟩ }
    rcases List.mem_append.mp hp with hp | hp
    · exact h.exactly.token p hp
    · obtain ⟨call, hcall, htoken⟩ := h.progress _ c hc
      rw [List.mem_singleton.mp hp]
      exact ⟨call, hcall, by rw [htoken, hk (by simp [hc])]⟩

theorem step_inv (h : s.Inv) {e : ClientEvent π ρ} (hk : s.Keeps e) : (step s e).Inv := by
  cases e with
  | call request completion progressCallback =>
    cases request with
    | none => exact h
    | some request =>
      cases htransport : s.transport with
      | false => simpa [step, sendRequest, htransport, Except.toOption] using h
      | true =>
        have hnew : completion = true → s.completionCallbacks.lookup (.int s.requestId) = none := by
          rintro rfl
          exact hk htransport
        simpa [step, sendRequest, htransport, Except.toOption] using inv_register h hnew
  | sent call failure =>
    cases ht : s.sending.find? (·.call = call) with
    | none =>
      have hstep : step s (.sent call failure) = s := by simp [step, ht]
      rwa [hstep]
    | some t =>
      have hstep : step s (.sent call failure) = s.sent t failure := by simp [step, ht]
      rw [hstep]
      refine inv_sent h (List.mem_of_find?_eq_some ht) fun hfailure => ?_
      obtain ⟨what, rfl⟩ := Option.isSome_iff_exists.mp hfailure
      exact hk t ht
  | reply r => exact inv_takeCompletion h r
  | complete i => exact inv_complete h i
  | progress token progress =>
    refine inv_progress h fun hfound => ?_
    cases token with
    | int n => rfl
    | str t =>
      cases hn : stoll t with
      | none => simp [tokenRequestId, hn]
      | some n => exact absurd (by simp [tokenRequestId, hn, hk n hn]) hfound

theorem step_breaks (h : s.Inv) {e : ClientEvent π ρ} (hk : ¬ s.Keeps e) : ¬ (step s e).ExactlyOnce := by
  cases e with
  | call request completion progressCallback =>
    cases request with
    | none => exact absurd trivial hk
    | some request =>
      cases completion with
      | false => exact absurd trivial hk
      | true =>
        -- the new call takes the entry of the one that had drawn the id before
        simp only [Keeps, Classical.not_imp] at hk
        obtain ⟨htransport, hfiled⟩ := hk
        obtain ⟨c, hc⟩ := Option.ne_none_iff_exists'.mp hfiled
        obtain ⟨call, hcall, -⟩ := h.completion _ c hc
        have hlt := (List.getElem?_eq_some_iff.mp hcall).1
        have hstep : step s (.call (some request) true progressCallback) =
            s.register request (s.nextCall true progressCallback) := by
          simp [step, sendRequest, htransport, Except.toOption]
        rw [hstep]
        refine not_exactlyOnce_of_lost h hc ⟨_, rfl⟩ rfl ?_
        rw [register_lookup, if_pos ⟨rfl, rfl⟩, ne_eq, Option.some.injEq]
        omega
  | sent call failure =>
    cases failure with
    | none => exact absurd trivial hk
    | some what =>
      -- the completion was moved into the entry that the failure erases
      simp only [Keeps, not_forall] at hk
      obtain ⟨t, ht, hfiled⟩ := hk
      obtain ⟨c, hc⟩ := Option.ne_none_iff_exists'.mp hfiled
      have hlocal := h.sending t (List.mem_of_find?_eq_some ht)
      have hstep : step s (.sent call (some what)) = s.sent t (some what) := by simp [step, ht]
      rw [hstep]
      refine not_exactlyOnce_of_lost h hc List.prefix_rfl ?_ ?_
      · simp [attempts, sent, hlocal]
      · simp [sent, Dict.lookup_erase]
  | reply | complete => exact absurd trivial hk
  | progress token progress =>
    cases token with
    | int n => exact absurd trivial hk
    | str t =>
      simp only [Keeps, not_forall] at hk
      obtain ⟨n, hn, hfiled⟩ := hk
      obtain ⟨c, hc⟩ := Option.ne_none_iff_exists'.mp hfiled
      intro h'
      have hmem : (⟨c, .str t, progress⟩ : Progressed) ∈ (step s (.progress (.str t) progress)).progressed := by
        simp [step, handleProgressNotification, tokenRequestId, hn, hc]
      have hcalls : (step s (.progress (.str t) progress)).calls = s.calls := by
        simp [step, handleProgressNotification, tokenRequestId, hn, hc]
      obtain ⟨call, hcall, htoken⟩ := h.progress _ c hc
      obtain ⟨call', hcall', htoken'⟩ := h'.token _ hmem
      rw [hcalls, hcall] at hcall'
      obtain rfl := Option.some.inj hcall'
      rw [htoken] at htoken'
      cases htoken'

/-! ## Runs of a session -/

/-- All along a run every completion is called exactly once when its call is settled, if and only if every step of the
run keeps it so. -/
theorem completes_exactly_once_iff (transport : Bool) (es : List (ClientEvent π ρ)) :
    (∀ pre, pre <+: es → (run step { transport } pre).ExactlyOnce) ↔ Along step Keeps { transport } es :=
  holds_iff_along (inv_init transport) (fun _ h => h.exactly) (fun _ _ h hk => step_inv h hk) fun _ _ h hk => step_breaks h hk

/-- A request whose message the transport refuses: its completion is never called. -/
theorem completion_lost : ¬ ∀ (es : List (ClientEvent Unit Unit)) (pre : List (ClientEvent Unit Unit)), pre <+: es →
    (run step {} pre).ExactlyOnce := by
  intro h
  have hrun := h [.call (some ⟨"ping", none⟩) true false, .sent 0 (some "HttpClientService is not running")] _ List.prefix_rfl
  exact absurd (hrun.settled 0 ⟨.int 1, true, none⟩ (by decide) rfl (by decide)) (by decide)

end ClientSession
end AgentProtocol.Mcp
