-- SUMMARY: A2A streams as sequences of events with one end: what a stream sends, and which steps keep its framing.
import AgentProtocol.A2A.Requests

/-!
# Framing of streams

A stream sends data, and then its end once. The end belongs after the event that ends the round of the conversation for
the request: a final event that is processed after it was accepted, an error, or the task itself if a resubscription has
nothing to wait for.
-/

namespace AgentProtocol.A2A

open Lib

variable {M P : Type}

def Request.data (encode : StreamEvent M P → Json) (r : Request M) (event : StreamEvent M P) : Write :=
  .streaming (resultReply (.str r.idText) (resultOf encode event))

/-- A stream has sent events that are not final, after the task that `message/stream` starts with. If its round is over,
the last event or an error follows, and then its end. -/
def Request.Framed (encode : StreamEvent M P → Json) (r : Request M) : Prop :=
  ∃ events : List (StreamEvent M P), (∀ event ∈ if r.kind = .stream then events.tail else events, event.isFinal = false) ∧
    if r.ended then
      ∃ last, r.emitter.sent = events.map (r.data encode) ++ [.streaming last, .done] ∧
        ((r.kind = .stream → events ≠ []) ∧ (∃ event, event.isFinal = true ∧ .streaming last = r.data encode event) ∨
          ∃ code message, last = errorReply (.str r.idText) code message)
    else r.emitter.sent = events.map (r.data encode)

/-- An error can be built under the id of the request. -/
def Request.HasText (r : Request M) : Prop := ∃ text, r.id = some (.str text)

def Request.Refused (s : Server M P) (r : Request M) : Prop :=
  match r.phase with
  | .determineTaskId params => ∃ what, s.determineTaskId params = .error what
  | .checkState _ o => (s.objects o).status.state.isFinal = true
  | .getTask id => r.kind = .resubscribe ∧ s.tasks.lookup id = none
  | _ => False

/-- No stream that has failed has a callback in the entry of the task. -/
def Conversation.Listening (taskId : String) (x : Conversation M P) : Prop :=
  ∀ r ∈ x.requests, r.kind.callbackKind.isResponse = false → r.ended = true → r.due = false → ∀ n, r.callback = some n →
    ∀ info, x.server.registered taskId = some info → n ∉ info.eventCb.map Callback.id

/-- The steps that keep the framing of streams, in a run that leaves no request behind. Requests that are refused, or
whose executor throws, have a string for an id. The task that `message/stream` starts with is neither interrupted nor
unspecified, and the one of a resubscription is not unspecified. An executor throws before its stream has ended, and
nothing is processed for it afterwards. -/
def Conversation.Ends (merge : String → String → Option String) (taskId : String) (x : Conversation M P) :
    ConversationEvent M P → Prop
  | .arrive id method refusal => method.kind.callbackKind.isResponse = false →
      match (id.map getString).getD (.ok "") with
      | .ok _ => refusal ≠ none → ∃ text, id = some (.str text)
      | .error _ => False
  | .advance i _ _ => ∀ r, x.requests[i]? = some r → r.kind.callbackKind.isResponse = false →
      (r.Refused x.server → r.HasText) ∧
      match r.phase with
      | .emitTask _ (some o) =>
        if r.kind = .resubscribe then (x.server.objects o).status.state ≠ .unspecified
        else (StreamEvent.task (x.server.objects o)).isFinal = false
      | _ => True
  | .executorThrows i _ => ∀ r, x.requests[i]? = some r → r.kind = .stream → r.HasText ∧ r.ended = false
  | .process event _ => x.processes merge taskId event = true → x.Listening taskId
  | .endCancel k _ => x.cancels k = true → x.Listening taskId
  | .beginCancel _ => True

/-! ## The invariant -/

/-- Phases in which a stream has sent nothing. -/
def Phase.starts : Phase M → Bool
  | .addEventCallback _ | .returned => false
  | _ => true

/-- What holds of a stream besides its framing: what is processed after a final event does not reach it. -/
structure Request.Framing (encode : StreamEvent M P → Json) (taskId : String) (s : Server M P) (r : Request M) : Prop where
  framed : r.Framed encode
  fresh : r.phase.starts = true → r.emitter.sent = []
  below : ∀ n, r.callback = some n → n < s.callbacks
  closed : r.due = true → r.ended = true
  left : r.due = true → ∀ n, r.callback = some n → ∀ info, s.registered taskId = some info → n ∉ info.eventCb.map Callback.id

structure Conversation.Framing (encode : StreamEvent M P → Json) (taskId : String) (x : Conversation M P) : Prop where
  waiting : x.server.Waiting
  streams : ∀ r ∈ x.requests, r.kind.callbackKind.isResponse = false → r.Framing encode taskId x.server

/-- Callbacks of the task are old ones, or have new numbers. -/
structure Server.Grows (taskId : String) (s s' : Server M P) : Prop where
  callbacks : s.callbacks ≤ s'.callbacks
  entry : ∀ info', s'.registered taskId = some info' → ∀ c ∈ info'.eventCb,
    s.callbacks ≤ c.id ∨ ∃ info, s.registered taskId = some info ∧ c ∈ info.eventCb

section Framing

variable {encode : StreamEvent M P → Json} {taskId : String} {s s' : Server M P} {r r' : Request M} {x : Conversation M P}
  {copy : Bool} {throws : Option Thrown} {merge : String → String → Option String}

theorem Server.Grows.of_same (hcallbacks : s'.callbacks = s.callbacks) (hentry : s'.registered taskId = s.registered taskId) :
    Server.Grows taskId s s' :=
  ⟨hcallbacks.ge, fun info' hinfo' _ hc => .inr ⟨info', hentry.symm.trans hinfo', hc⟩⟩

theorem Request.Framing.frame (h : r.Framing encode taskId s) (hgrows : Server.Grows taskId s s') :
    r.Framing encode taskId s' where
  framed := h.framed
  fresh := h.fresh
  below n hn := (h.below n hn).trans_le hgrows.callbacks
  closed := h.closed
  left hdue n hn info' hinfo' hmem := by
    obtain ⟨c, hc, rfl⟩ := List.mem_map.mp hmem
    rcases hgrows.entry info' hinfo' c hc with hnew | ⟨info, hinfo, hold⟩
    · exact absurd (h.below c.id hn) (Nat.not_lt.mpr hnew)
    exact h.left hdue c.id hn info hinfo (List.mem_map_of_mem hold)

theorem framed_of_silent (hsent : r.emitter.sent = []) (hended : r.ended = false) : r.Framed encode := by
  refine ⟨[], ?_, ?_⟩
  · simp
  · rw [if_neg (by rw [hended]; simp)]
    exact hsent

theorem data_congr (hid : r'.id = r.id) : r'.data encode = r.data encode := by
  funext event
  rw [Request.data, Request.data, Request.idText, Request.idText, hid]

theorem Request.Framed.congr (h : r.Framed encode) (hkind : r'.kind = r.kind) (hid : r'.id = r.id) (hended : r'.ended = r.ended)
    (hemitter : r'.emitter = r.emitter) : r'.Framed encode := by
  have htext : r'.idText = r.idText := by rw [Request.idText, Request.idText, hid]
  rw [Request.Framed, hkind, hended, hemitter, data_congr hid, htext]
  exact h

theorem Request.Framed.events (h : r.Framed encode) (hended : r.ended = false) : ∃ events : List (StreamEvent M P),
    (∀ event ∈ if r.kind = .stream then events.tail else events, event.isFinal = false) ∧
      r.emitter.sent = events.map (r.data encode) := by
  obtain ⟨events, hopen, hsent⟩ := h
  rw [if_neg (by rw [hended]; simp)] at hsent
  exact ⟨events, hopen, hsent⟩

theorem Request.Framed.fail (h : r.Framed encode) (hended : r.ended = false) (hkind : r.kind.callbackKind.isResponse = false)
    (htext : r.HasText) (thrown : Thrown) : (r.fail thrown).Framed encode := by
  obtain ⟨events, hopen, hsent⟩ := h.events hended
  obtain ⟨text, hid⟩ := htext
  obtain ⟨code, message, hcaught⟩ := caught_str text "Streaming error: " thrown
  have hemitter : (r.fail thrown).emitter.sent = r.emitter.sent ++ [.streaming (errorReply (.str text) code message), .done] := by
    rw [Request.fail]
    cases hkind' : r.kind with
    | send blocking =>
      rw [hkind'] at hkind
      cases hkind
    | stream | resubscribe =>
      rw [hid, Option.getD_some, hcaught]
      exact List.append_assoc _ _ _
  refine ⟨events, hopen, ?_⟩
  rw [if_pos (show (r.fail thrown).ended = true from rfl)]
  refine ⟨errorReply (.str text) code message, ?_, .inr ⟨code, message, ?_⟩⟩
  · rw [hemitter, hsent]
    rfl
  · rw [Request.idText, show (r.fail thrown).id = some (.str text) from hid]

theorem Request.Framing.fail (h : r.Framing encode taskId s) (hended : r.ended = false)
    (hkind : r.kind.callbackKind.isResponse = false) (htext : r.HasText) (thrown : Thrown) :
    (r.fail thrown).Framing encode taskId s where
  framed := h.framed.fail hended hkind htext thrown
  fresh := nofun
  below := h.below
  closed _ := rfl
  left := h.left

/-! ## Calls of a handler -/

theorem Request.Framing.quiet (h : r.Framing encode taskId s) (hkind : r'.kind = r.kind) (hid : r'.id = r.id)
    (hended : r'.ended = r.ended) (hemitter : r'.emitter = r.emitter) (hdue : r'.due = false)
    (hcallback : ∀ n, r'.callback = some n → n < s'.callbacks) (hfresh : r'.phase.starts = true → r.phase.starts = true) :
    r'.Framing encode taskId s' where
  framed := h.framed.congr hkind hid hended hemitter
  fresh hstarts := hemitter ▸ h.fresh (hfresh hstarts)
  below := hcallback
  closed hd := by
    cases hdue.symm.trans hd
  left hd := by
    cases hdue.symm.trans hd

theorem callbacks_addEventCallback (id : String) (kind : CallbackKind) :
    (s.addEventCallback id kind).callbacks = s.callbacks + 1 := by
  rw [Server.addEventCallback]
  cases s.registered id <;> rfl

theorem advance_starts (h : r.advance encode s copy throws = .ok (s', r')) (hstarts : r.phase.starts = true)
    (hphase : ∀ id existing, r.phase ≠ .emitTask id existing) :
    ∃ phase accepted, r' = { r with phase := phase, accepted := accepted } := by
  have hregistered : ∀ id existing, ∃ phase, r.registered id existing = { r with phase := phase } := by
    intro id existing
    rw [Request.registered]
    cases r.kind with
    | send | stream | resubscribe => exact ⟨_, rfl⟩
  rw [Request.advance] at h
  cases hp : r.phase with
  | determineTaskId params =>
    rw [hp] at h
    dsimp only at h
    split at h
    · cases h
    · cases h
      exact ⟨_, _, rfl⟩
    · split at h
      · cases h
        exact ⟨_, _, rfl⟩
      · cases h
  | checkState params o =>
    rw [hp] at h
    dsimp only at h
    split at h
    · cases h
    cases h
    exact ⟨_, _, rfl⟩
  | createNewTask | exchangeMessageSent =>
    rw [hp] at h
    cases h
    exact ⟨_, _, rfl⟩
  | getTask id =>
    rw [hp] at h
    dsimp only at h
    split at h
    · cases h
      exact ⟨_, _, rfl⟩
    · cases h
    · cases h
      exact ⟨_, _, rfl⟩
  | registerTask id existing message =>
    rw [hp] at h
    dsimp only at h
    cases h
    split
    · exact ⟨_, _, rfl⟩
    · obtain ⟨phase, hr⟩ := hregistered id existing
      exact ⟨phase, _, hr⟩
  | updateWithMessage id o message =>
    rw [hp] at h
    cases h
    obtain ⟨phase, hr⟩ := hregistered id (some o)
    exact ⟨phase, _, hr⟩
  | emitTask id existing => exact absurd hp (hphase id existing)
  | addEventCallback | returned =>
    rw [hp] at hstarts
    cases hstarts

variable (h : r.Framing encode taskId s) (hk : r.Kept encode taskId s) (hstreaming : r.kind.callbackKind.isResponse = false)
include h hk hstreaming

theorem Request.Framing.emitTask {id : String} {o : ℕ} (hphase : r.phase = .emitTask id (some o))
    (hends : if r.kind = .resubscribe then (s.objects o).status.state ≠ .unspecified
      else (StreamEvent.task (s.objects o)).isFinal = false)
    (hok : r.advance encode s copy none = .ok (s', r')) : r'.Framing encode taskId s' := by
  have hopen : r.phase ≠ .returned := by rw [hphase]; rintro ⟨⟩
  obtain ⟨hnone, hdue, hended⟩ := hk.early hopen
  have hfresh : r.emitter.sent = [] := h.fresh (by rw [hphase]; rfl)
  set task := s.objects o with htask
  have hemitter : (r.emit encode r.emitter (.task task)).sent =
      r.data encode (.task task) :: if (StreamEvent.task task).isFinal then [.done] else [] := by
    rw [emit_streaming hstreaming, streamEmit]
    cases (StreamEvent.task task).isFinal with
    | true =>
      show r.emitter.sent ++ [r.data encode (.task task)] ++ [.done] = _
      rw [hfresh]
      rfl
    | false =>
      show r.emitter.sent ++ [r.data encode (.task task)] = _
      rw [hfresh]
      rfl
  -- the handler goes on to add its callback
  have hadds : ∀ id', (StreamEvent.task task).isFinal = false →
      Request.Framing encode taskId s { r with emitter := r.emit encode r.emitter (.task task), phase := .addEventCallback id' } := by
    intro id' hnot
    refine ⟨⟨[.task task], fun event hevent => ?_, ?_⟩, by rintro ⟨⟩, fun n hn => ?_, fun hd => ?_, fun hd => ?_⟩
    · split at hevent
      · cases hevent
      rw [List.mem_singleton.mp hevent]
      exact hnot
    · rw [if_neg (by rw [hended]; simp), hemitter, hnot]
      rfl
    · cases hnone.symm.trans hn
    · cases hdue.symm.trans hd
    · cases hdue.symm.trans hd
  rw [Request.advance, hphase] at hok
  dsimp only at hok
  rw [← htask] at hok
  by_cases hkind : r.kind = .resubscribe
  · rw [if_pos hkind] at hok hends
    by_cases hfinal : task.status.state.isFinalOrInterrupted = true
    · rw [if_pos hfinal] at hok
      cases hok
      have hlast : (StreamEvent.task task).isFinal = true := by rw [StreamEvent.isFinal, hfinal, Bool.true_or]
      refine ⟨⟨[], fun event hevent => ?_, ?_⟩, by rintro ⟨⟩, fun n hn => ?_, fun hd => ?_, fun hd => ?_⟩
      · split at hevent <;> cases hevent
      · rw [if_pos rfl]
        refine ⟨resultReply (.str r.idText) (resultOf encode (.task task)), ?_, .inl ⟨fun hstream => ?_, .task task, hlast, rfl⟩⟩
        · rw [hemitter, hlast]
          rfl
        · cases hkind.symm.trans hstream
      · cases hnone.symm.trans hn
      · rfl
      · cases hdue.symm.trans hd
    · rw [if_neg hfinal] at hok
      cases hok
      refine hadds task.id ?_
      rw [StreamEvent.isFinal, Bool.eq_false_iff.mpr hfinal, Bool.false_or]
      exact decide_eq_false hends
  · rw [if_neg hkind] at hok hends
    cases hok
    exact hadds id hends

theorem Request.Framing.advance
    (hends : match r.phase with
      | .emitTask _ (some o) =>
        if r.kind = .resubscribe then (s.objects o).status.state ≠ .unspecified
        else (StreamEvent.task (s.objects o)).isFinal = false
      | _ => True)
    (hthrows : (∃ id existing, r.phase = .emitTask id existing) → throws = none)
    (hok : r.advance encode s copy throws = .ok (s', r')) : r'.Framing encode taskId s' := by
  by_cases hemit : ∃ id existing, r.phase = .emitTask id existing
  · rw [hthrows hemit] at hok
    obtain ⟨id, existing, hphase⟩ := hemit
    have hready := hk.ready
    rw [Request.Ready, hphase] at hready
    obtain ⟨o, rfl⟩ := Option.ne_none_iff_exists'.mp hready.2
    rw [hphase] at hends
    exact h.emitTask hk hstreaming hphase hends hok
  · by_cases hstarts : r.phase.starts = true
    · have hopen : r.phase ≠ .returned := by
        intro hreturned
        rw [hreturned] at hstarts
        cases hstarts
      obtain ⟨phase, accepted, rfl⟩ := advance_starts hok hstarts fun id existing hphase => hemit ⟨id, existing, hphase⟩
      obtain ⟨hnone, hdue, -⟩ := hk.early hopen
      exact h.quiet rfl rfl rfl rfl hdue (fun n hn => by cases hnone.symm.trans hn) fun _ => hstarts
    · cases hphase : r.phase with
      | addEventCallback id =>
        have hopen : r.phase ≠ .returned := by rw [hphase]; rintro ⟨⟩
        rw [Request.advance, hphase] at hok
        cases hok
        refine h.quiet rfl rfl rfl rfl (hk.early hopen).2.1 (fun n hn => ?_) (by rintro ⟨⟩)
        cases hn
        rw [callbacks_addEventCallback]
        exact Nat.lt_succ_self _
      | returned =>
        rw [Request.advance, hphase] at hok
        cases hok
        exact h
      | _ =>
        rw [hphase] at hstarts
        exact absurd rfl hstarts

omit h hk hstreaming

theorem waiting_of_same (h : s.Waiting) (hcallbacks : s'.callbacks = s.callbacks) (hreceived : s'.received = s.received)
    (hentries : ∀ id, s'.registered id = s.registered id) : s'.Waiting :=
  h.narrow hcallbacks hreceived fun id info' hinfo' => .inr ⟨info', (hentries id).symm.trans hinfo', rfl⟩

theorem advance_server (h : s.Waiting) (hok : r.advance encode s copy throws = .ok (s', r')) :
    s'.Waiting ∧ Server.Grows taskId s s' := by
  have hsame : ∀ s₁ : Server M P, s₁.callbacks = s.callbacks → s₁.received = s.received →
      (∀ id, s₁.registered id = s.registered id) → s₁.Waiting ∧ Server.Grows taskId s s₁ :=
    fun s₁ hcallbacks hreceived hentries => ⟨waiting_of_same h hcallbacks hreceived hentries, .of_same hcallbacks (hentries taskId)⟩
  have hget : ∀ {id : String} {fetched : Option ℕ} {s₁ : Server M P}, s.get id copy = (s₁, fetched) →
      s₁.Waiting ∧ Server.Grows taskId s s₁ := by
    intro id fetched s₁ hfetch
    obtain ⟨-, hcallbacks, hentries⟩ := Server.get_emitted hfetch
    exact hsame s₁ hcallbacks (Server.get_frame hfetch).1 hentries
  have hrefl := hsame s rfl rfl fun _ => rfl
  rw [Request.advance] at hok
  cases hphase : r.phase with
  | determineTaskId params =>
    rw [hphase] at hok
    dsimp only at hok
    split at hok
    · cases hok
    · cases hok
      exact hrefl
    · split at hok
      next hfetch =>
        cases hok
        exact hget hfetch
      · cases hok
  | checkState params o =>
    rw [hphase] at hok
    dsimp only at hok
    split at hok
    · cases hok
    cases hok
    exact hrefl
  | createNewTask | updateWithMessage =>
    rw [hphase] at hok
    cases hok
    exact hsame _ rfl rfl fun _ => rfl
  | getTask id =>
    rw [hphase] at hok
    dsimp only at hok
    split at hok
    next hfetch =>
      cases hok
      exact hget hfetch
    · cases hok
    next hfetch _ _ =>
      cases hok
      exact hget hfetch
  | registerTask id existing message =>
    rw [hphase] at hok
    cases hok
    have hentry := Server.registered_registerTask s id (some {})
    refine ⟨h.narrow rfl rfl fun id' info' hinfo' => ?_, le_refl _, fun info' hinfo' c hc => ?_⟩
    · rw [hentry] at hinfo'
      by_cases hid : id = id'
      · rw [if_pos hid] at hinfo'
        cases hinfo'
        exact .inl rfl
      · rw [if_neg hid] at hinfo'
        exact .inr ⟨info', hinfo', rfl⟩
    · rw [hentry] at hinfo'
      by_cases hid : id = taskId
      · rw [if_pos hid] at hinfo'
        cases hinfo'
        cases hc
      · rw [if_neg hid] at hinfo'
        exact .inr ⟨info', hinfo', hc⟩
  | exchangeMessageSent id =>
    rw [hphase] at hok
    cases hok
    refine ⟨h.exchange id false, ?_⟩
    rw [Server.exchangeMessageSent]
    cases hreg : s.registered id with
    | none => exact .of_same rfl rfl
    | some info =>
      refine ⟨le_refl _, fun info' hinfo' c hc => .inr ?_⟩
      rw [Server.registered_registerTask] at hinfo'
      by_cases hid : id = taskId
      · subst hid
        rw [if_pos rfl] at hinfo'
        cases hinfo'
        exact ⟨info, hreg, hc⟩
      · rw [if_neg hid] at hinfo'
        exact ⟨info', hinfo', hc⟩
  | emitTask id existing =>
    rw [hphase] at hok
    dsimp only at hok
    split at hok
    · cases hok
    · cases hok
    · split at hok
      · split at hok
        · cases hok
          exact hrefl
        · cases hok
          exact hrefl
      · cases hok
        exact hrefl
  | addEventCallback id =>
    rw [hphase] at hok
    cases hok
    refine ⟨h.addEventCallback id _, by rw [callbacks_addEventCallback]; exact Nat.le_succ _, fun info' hinfo' c hc => ?_⟩
    rw [Server.addEventCallback] at hinfo'
    cases hreg : s.registered id with
    | none =>
      rw [hreg] at hinfo'
      exact .inr ⟨info', hinfo', hc⟩
    | some info =>
      rw [hreg] at hinfo'
      dsimp only at hinfo'
      rw [Server.registered_registerTask] at hinfo'
      by_cases hid : id = taskId
      · subst hid
        rw [if_pos rfl] at hinfo'
        cases hinfo'
        rcases List.mem_append.mp hc with hold | hnew
        · exact .inr ⟨info, hreg, hold⟩
        · rw [List.mem_singleton.mp hnew]
          exact .inl (le_refl _)
      · rw [if_neg hid] at hinfo'
        exact .inr ⟨info', hinfo', hc⟩
  | returned =>
    rw [hphase] at hok
    cases hok
    exact hrefl

theorem advance_error (hk : r.Kept encode taskId s) (hthrows : (∃ id existing, r.phase = .emitTask id existing) → throws = none)
    {thrown : Thrown} (herror : r.advance encode s copy throws = .error thrown) : r.Refused s := by
  have hready := hk.ready
  rw [Request.Ready] at hready
  rw [Request.advance] at herror
  rw [Request.Refused]
  cases hphase : r.phase with
  | determineTaskId params =>
    rw [hphase] at herror
    dsimp only at herror ⊢
    cases hdetermine : s.determineTaskId params with
    | error what => exact ⟨what, rfl⟩
    | ok existing =>
      rw [hdetermine] at herror
      cases existing with
      | none => cases herror
      | some task =>
        dsimp only at herror
        obtain ⟨s₁, o, hget⟩ := Server.get_of_lookup (determineTaskId_some hdetermine).2 copy
        rw [hget] at herror
        cases herror
  | checkState params o =>
    rw [hphase] at herror
    dsimp only at herror ⊢
    split at herror
    next hfinal => exact hfinal
    · cases herror
  | getTask id =>
    rw [hphase] at herror
    dsimp only at herror ⊢
    split at herror
    · cases herror
    next s₁ hkind hget =>
      refine ⟨hkind, ?_⟩
      cases hlookup : s.tasks.lookup id with
      | none => rfl
      | some o =>
        have hne : s.tasks.lookup id ≠ none := by rw [hlookup]; simp
        obtain ⟨s₂, o', hsome⟩ := Server.get_of_lookup hne copy
        cases hget.symm.trans hsome
    · cases herror
  | emitTask id existing =>
    rw [hphase] at hready herror
    obtain ⟨o, rfl⟩ := Option.ne_none_iff_exists'.mp hready.2
    rw [hthrows ⟨id, some o, hphase⟩] at herror
    dsimp only at herror
    split at herror
    · split at herror <;> cases herror
    · cases herror
  | _ =>
    rw [hphase] at herror
    cases herror

/-! ## Callbacks are given an event -/

variable {n : ℕ} {event : StreamEvent M P} {info : TaskExecuteInfo} {emissions : List (ℕ × StreamEvent M P)} {sent : Bool}
  {callbacks : List Callback}

theorem Emissions.filter_of_not_mem (h : Emissions event sent callbacks emissions) (hn : n ∉ callbacks.map Callback.id) :
    (emissions.filter fun e => e.1 = n) = [] := by
  refine List.filter_eq_nil_iff.mpr fun e he hid => hn ?_
  rw [← of_decide_eq_true hid]
  exact h.mem he

theorem Emissions.filter_streaming (h : Emissions event sent callbacks emissions) (hnodup : (callbacks.map Callback.id).Nodup)
    {c : Callback} (hc : c ∈ callbacks) (hkind : c.kind = .streaming) :
    (emissions.filter fun e => e.1 = c.id) = [(c.id, event)] := by
  induction callbacks generalizing sent emissions with
  | nil => cases hc
  | cons c' cs ih =>
    obtain ⟨first, later, rfl, hlater, hfirst⟩ := h
    rw [List.map_cons, List.nodup_cons] at hnodup
    rw [List.filter_append]
    rcases List.mem_cons.mp hc with rfl | hmem
    · rw [hkind] at hfirst
      rw [hlater.filter_of_not_mem hnodup.1, hfirst]
      simp
    · -- what the first callback emits is under another number
      have hne : c'.id ≠ c.id := fun hid => hnodup.1 (hid ▸ List.mem_map_of_mem hmem)
      have hother : (first.filter fun e => e.1 = c.id) = [] := by
        cases hk : c'.kind with
        | streaming =>
          rw [hk] at hfirst
          rw [hfirst]
          simp [hne]
        | response blocking =>
          rw [hk] at hfirst
          dsimp only at hfirst
          split at hfirst
          · obtain ⟨e, -, rfl⟩ := hfirst
            simp [hne]
          · rw [hfirst]
            rfl
      rw [hother, List.nil_append]
      exact ih hlater hnodup.2 hmem

variable (h : r.Framing encode taskId s) (hk : r.Kept encode taskId s) (hstreaming : r.kind.callbackKind.isResponse = false)
include h hk hstreaming

theorem Request.Framing.listens (hcallback : r.callback = some n) (hended : r.ended = false)
    (hheard : Request.sentTo s s' n = [event]) : (r.hear encode s s' event.isFinal).Framed encode := by
  obtain ⟨events, hopen, hsent⟩ := h.framed.events hended
  have haccepted : r.accepted = true := hk.accepted (by rw [hcallback]; rfl)
  have hemitter : (r.hear encode s s' event.isFinal).emitter.sent =
      events.map (r.data encode) ++ r.data encode event :: if event.isFinal then [.done] else [] := by
    rw [hear_emitter_some hcallback, hheard, List.foldl_cons, List.foldl_nil, emit_streaming hstreaming, streamEmit]
    cases event.isFinal with
    | true =>
      show r.emitter.sent ++ [r.data encode event] ++ [.done] = _
      rw [hsent, List.append_assoc]
      rfl
    | false =>
      show r.emitter.sent ++ [r.data encode event] = _
      rw [hsent]
      rfl
  have hstarted : r.kind = .stream → events ≠ [] := by
    rintro hkind rfl
    exact hk.greeted hkind (.inr (by rw [hcallback]; rfl)) hsent
  have hends : (r.hear encode s s' event.isFinal).ended = event.isFinal := by
    show (r.ended || r.accepted && event.isFinal) = event.isFinal
    rw [hended, haccepted, Bool.true_and, Bool.false_or]
  cases hfinal : event.isFinal with
  | true =>
    rw [hfinal] at hemitter hends
    refine ⟨events, hopen, ?_⟩
    rw [if_pos hends]
    exact ⟨_, hemitter, .inl ⟨hstarted, event, hfinal, rfl⟩⟩
  | false =>
    rw [hfinal] at hemitter hends
    refine ⟨events ++ [event], fun event' hevent' => ?_, ?_⟩
    · have hmem : event' ∈ (if r.kind = .stream then events.tail else events) ++ [event] := by
        have hevent' : event' ∈ if r.kind = .stream then (events ++ [event]).tail else events ++ [event] := hevent'
        by_cases hkind : r.kind = .stream
        · rw [if_pos hkind] at hevent' ⊢
          rwa [List.tail_append_of_ne_nil (hstarted hkind)] at hevent'
        · rw [if_neg hkind] at hevent' ⊢
          exact hevent'
      rcases List.mem_append.mp hmem with hold | hnew
      · exact hopen event' hold
      · rw [List.mem_singleton.mp hnew]
        exact hfinal
    · rw [if_neg (by rw [hends]; simp), hemitter, List.map_append]
      rfl

theorem Request.Framing.hear (hreg : s.registered taskId = some info)
    (hnodup : (info.eventCb.map Callback.id).Nodup) (hemitted : s'.emitted = s.emitted ++ emissions)
    (hspec : Emissions event info.messageSent info.eventCb emissions) (hcallbacks : s'.callbacks = s.callbacks)
    (hentry : ∀ info', s'.registered taskId = some info' → event.isFinal = false ∧ info'.eventCb = info.eventCb)
    (hlistens : r.ended = true → r.due = false → ∀ n, r.callback = some n → n ∉ info.eventCb.map Callback.id)
    (hall : event.isFinal = true → r.accepted = true → r.callback.isSome = true ∨ r.ended = true) :
    (r.hear encode s s' event.isFinal).Framing encode taskId s' where
  framed := by
    have hsame : (r.hear encode s s' event.isFinal).emitter = r.emitter →
        (r.hear encode s s' event.isFinal).ended = r.ended → (r.hear encode s s' event.isFinal).Framed encode :=
      fun hemitter hended => h.framed.congr rfl rfl hended hemitter
    cases hended : r.ended with
    | true =>
      -- nothing is heard any more
      refine hsame ?_ ?_
      · cases hcallback : r.callback with
        | none => exact hear_emitter hcallback
        | some n =>
          have hout : n ∉ info.eventCb.map Callback.id := by
            cases hdue : r.due with
            | true => exact h.left hdue n hcallback info hreg
            | false => exact hlistens hended hdue n hcallback
          rw [hear_emitter_some hcallback, sentTo_eq hemitted, hspec.filter_of_not_mem hout]
          rfl
      · show (r.ended || r.accepted && event.isFinal) = r.ended
        rw [hended, Bool.true_or]
    | false =>
      cases hcallback : r.callback with
      | none =>
        refine hsame (hear_emitter hcallback) ?_
        show (r.ended || r.accepted && event.isFinal) = r.ended
        cases haccepted : r.accepted with
        | false => rw [Bool.false_and, Bool.or_false]
        | true =>
          cases hfinal : event.isFinal with
          | false => rw [Bool.and_false, Bool.or_false]
          | true =>
            rcases hall hfinal haccepted with hsome | hend
            · rw [hcallback] at hsome
              cases hsome
            · cases hended.symm.trans hend
      | some n =>
        have hdue : r.due = false := by
          cases hdue : r.due with
          | false => rfl
          | true => cases hended.symm.trans (h.closed hdue)
        have hnot : r.served = false ∧ r.kind.callbackKind = .streaming := by
          rw [Request.served]
          cases hkind : r.kind with
          | send blocking =>
            rw [hkind] at hstreaming
            cases hstreaming
          | stream | resubscribe => exact ⟨hdue, rfl⟩
        obtain ⟨info', hinfo', hmem⟩ := hk.waits n hcallback hnot.1
        cases hreg.symm.trans hinfo'
        refine h.listens hk hstreaming hcallback hended ?_
        rw [sentTo_eq hemitted, hspec.filter_streaming hnodup hmem hnot.2]
        rfl
  fresh hstarts := by
    have hopen : r.phase ≠ .returned := by
      intro hreturned
      rw [show (r.hear encode s s' event.isFinal).phase = .returned from hreturned] at hstarts
      cases hstarts
    rw [hear_emitter (hk.early hopen).1]
    exact h.fresh hstarts
  below n hn := by
    rw [hcallbacks]
    exact h.below n hn
  closed hdue := by
    have hdue : (r.due || r.accepted && event.isFinal) = true := hdue
    show (r.ended || r.accepted && event.isFinal) = true
    rcases Bool.or_eq_true_iff.mp hdue with hold | hnew
    · rw [h.closed hold, Bool.true_or]
    · rw [hnew, Bool.or_true]
  left hdue n hn info' hinfo' := by
    obtain ⟨hfinal, hsame⟩ := hentry info' hinfo'
    have hdue : (r.due || r.accepted && event.isFinal) = true := hdue
    rw [hfinal, Bool.and_false, Bool.or_false] at hdue
    rw [hsame]
    exact h.left hdue n hn info hreg

omit h hk hstreaming

theorem Conversation.Framing.hear_nothing (h : x.Framing encode taskId) (hwaiting : s'.Waiting)
    (hemitted : s'.emitted = x.server.emitted) (hcallbacks : s'.callbacks = x.server.callbacks)
    (hentry : s'.registered taskId = x.server.registered taskId) : (x.hear encode s' false).Framing encode taskId := by
  refine ⟨hwaiting, fun r' hr' hstreaming => ?_⟩
  obtain ⟨r, hr, rfl⟩ := List.mem_map.mp hr'
  rw [hear_same hemitted] at hstreaming ⊢
  exact (h.streams r hr hstreaming).frame (.of_same hcallbacks hentry)

theorem Conversation.Framing.hear {final : Bool} (h : x.Framing encode taskId) (hk : x.Kept encode taskId)
    (hwaiting : s'.Waiting) (hheard : Server.Heard taskId final x.server s') (hlistens : x.Listening taskId)
    (hall : final = true → ∀ r ∈ x.requests, r.accepted = true → r.callback.isSome = true ∨ r.ended = true) :
    (x.hear encode s' final).Framing encode taskId := by
  rcases hheard.heard with ⟨hemitted, hentry, rfl⟩ | ⟨info, event, emissions, hreg, rfl, hemitted, hspec, hreg'⟩
  · exact h.hear_nothing hwaiting hemitted hheard.callbacks hentry
  · refine ⟨hwaiting, fun r' hr' hstreaming => ?_⟩
    obtain ⟨r, hr, rfl⟩ := List.mem_map.mp hr'
    refine (h.streams r hr hstreaming).hear (hk.requests r hr) hstreaming hreg (h.waiting.once taskId info hreg) hemitted hspec
      hheard.callbacks (fun info' hinfo' => ?_) (fun hended hdue n hn => hlistens r hr hstreaming hended hdue n hn info hreg)
      fun hfinal => hall hfinal r hr
    have hinfo' : s'.registered taskId = some info' := hinfo'
    rw [hreg'] at hinfo'
    cases hfinal : event.isFinal with
    | true =>
      rw [hfinal, if_pos rfl] at hinfo'
      cases hinfo'
    | false =>
      rw [hfinal, if_neg (by simp)] at hinfo'
      cases hinfo'
      exact ⟨rfl, rfl⟩

/-! ## Runs -/

theorem Conversation.Framing.set {i : ℕ} (h : x.Framing encode taskId) (hwaiting : s'.Waiting)
    (hgrows : Server.Grows taskId x.server s') (hr' : r'.kind.callbackKind.isResponse = false → r'.Framing encode taskId s') :
    Conversation.Framing encode taskId { server := s', requests := x.requests.set i r' } := by
  refine ⟨hwaiting, fun r₁ hr₁ hstreaming => ?_⟩
  rcases List.mem_or_eq_of_mem_set hr₁ with hold | rfl
  · exact (h.streams r₁ hold hstreaming).frame hgrows
  · exact hr' hstreaming

theorem Conversation.Framing.refused {i : ℕ} (h : x.Framing encode taskId) (hr : r ∈ x.requests)
    (hends : r.kind.callbackKind.isResponse = false → r.HasText ∧ r.ended = false) (thrown : Thrown) :
    Conversation.Framing encode taskId { x with requests := x.requests.set i (r.fail thrown) } := by
  refine h.set h.waiting (.of_same rfl rfl) fun hstreaming => ?_
  obtain ⟨htext, hended⟩ := hends hstreaming
  exact (h.streams r hr hstreaming).fail hended hstreaming htext thrown

theorem advance_kind (hok : r.advance encode s copy throws = .ok (s', r')) : r'.kind = r.kind := by
  by_cases hstarts : r.phase.starts = true ∧ ∀ id existing, r.phase ≠ .emitTask id existing
  · obtain ⟨phase, accepted, rfl⟩ := advance_starts hok hstarts.1 hstarts.2
    rfl
  · rw [Request.advance] at hok
    cases hphase : r.phase with
    | emitTask id existing =>
      rw [hphase] at hok
      dsimp only at hok
      split at hok
      · cases hok
      · cases hok
      · split at hok
        · split at hok
          · cases hok
            rfl
          · cases hok
            rfl
        · cases hok
          rfl
    | addEventCallback | returned =>
      rw [hphase] at hok
      cases hok
      rfl
    | _ =>
      rw [hphase] at hstarts
      exact absurd ⟨rfl, fun _ _ => (by rintro ⟨⟩)⟩ hstarts

theorem Conversation.Framing.advance {i : ℕ} (h : x.Framing encode taskId) (hk : x.Kept encode taskId)
    (hsafe : x.Safe merge taskId (.advance i copy throws)) (hends : x.Ends merge taskId (.advance i copy throws)) :
    (x.step encode merge taskId (.advance i copy throws)).Framing encode taskId := by
  rw [Conversation.step]
  cases hget : x.requests[i]? with
  | none => exact h
  | some r =>
    have hr : r ∈ x.requests := List.mem_of_getElem? hget
    have hkr := hk.requests r hr
    have hthrows : (∃ id existing, r.phase = .emitTask id existing) → throws = none := by
      rintro ⟨id, existing, hphase⟩
      have hquiet := hsafe r hget
      rw [hphase] at hquiet
      exact hquiet
    dsimp only
    cases hadvance : r.advance encode x.server copy throws with
    | error thrown =>
      have hrefused := advance_error hkr hthrows hadvance
      refine h.refused hr (fun hstreaming => ⟨(hends r hget hstreaming).1 hrefused, ?_⟩) thrown
      refine (hkr.early ?_).2.2
      intro hreturned
      rw [Request.Refused, hreturned] at hrefused
      exact hrefused
    | ok next =>
      obtain ⟨s₁, r₁⟩ := next
      obtain ⟨hwaiting, hgrows⟩ := advance_server h.waiting hadvance
      refine h.set hwaiting hgrows fun hstreaming => ?_
      rw [advance_kind hadvance] at hstreaming
      exact (h.streams r hr hstreaming).advance hkr hstreaming (hends r hget hstreaming).2 hthrows hadvance

theorem Conversation.Framing.push (h : x.Framing encode taskId)
    (hr : r.kind.callbackKind.isResponse = false → r.Framing encode taskId x.server) :
    Conversation.Framing encode taskId { x with requests := x.requests ++ [r] } := by
  refine ⟨h.waiting, fun r₁ hr₁ hstreaming => ?_⟩
  rcases List.mem_append.mp hr₁ with hold | hnew
  · exact h.streams r₁ hold hstreaming
  · cases List.mem_singleton.mp hnew
    exact hr hstreaming

theorem Method.framing (method : Method M) (id : Option Json) :
    ({ kind := method.kind, id := id, phase := method.phase } : Request M).Framing encode taskId s where
  framed := framed_of_silent rfl rfl
  fresh _ := rfl
  below := nofun
  closed := nofun
  left := nofun

theorem endCancel_nothing (merge : String → String → Option String) {k : ℕ} (w : Choices) (h : x.cancels k = false) :
    (x.server.step merge (.endCancel k w)).emitted = x.server.emitted ∧
      (x.server.step merge (.endCancel k w)).callbacks = x.server.callbacks ∧
      (x.server.step merge (.endCancel k w)).registered taskId = x.server.registered taskId := by
  rw [Conversation.cancels] at h
  rw [Server.step]
  cases hget : x.server.cancels[k]? with
  | none => exact ⟨rfl, rfl, rfl⟩
  | some o =>
    rw [hget] at h
    dsimp only at h ⊢
    rw [Server.cancelTask]
    dsimp only
    cases hfinal : (x.server.objects o).status.state.isFinal with
    | true => exact ⟨rfl, rfl, rfl⟩
    | false =>
      rw [hfinal, Bool.not_false, Bool.true_and, Option.isSome_eq_false_iff, Option.isNone_iff_eq_none] at h
      rw [h]
      exact ⟨rfl, rfl, rfl⟩

theorem Conversation.Framing.step (h : x.Framing encode taskId) (hk : x.Kept encode taskId) (e : ConversationEvent M P)
    (hnames : e.Names taskId) (hsafe : x.Safe merge taskId e) (hends : x.Ends merge taskId e) :
    (x.step encode merge taskId e).Framing encode taskId := by
  cases e with
  | arrive id method refusal =>
    have hr := @Method.framing M P encode taskId x.server method id
    rw [Conversation.Ends] at hends
    rw [Conversation.step.eq_def]
    dsimp only
    cases hid : (id.map getString).getD (.ok "") with
    | error thrown =>
      refine h.push fun hstreaming => ?_
      have hnot := hends hstreaming
      rw [hid] at hnot
      exact hnot.elim
    | ok text =>
      rw [hid] at hends
      cases refusal with
      | some thrown => exact h.push fun hstreaming => hr.fail rfl hstreaming (hends hstreaming (by rintro ⟨⟩)) thrown
      | none => exact h.push fun _ => hr
  | advance i copy throws => exact h.advance hk hsafe hends
  | executorThrows i thrown =>
    rw [Conversation.step]
    cases hget : x.requests[i]? with
    | none => exact h
    | some r =>
      dsimp only
      by_cases hruns : (r.callback.isSome && r.kind ≠ .resubscribe) = true
      · rw [if_pos hruns]
        refine h.refused (List.mem_of_getElem? hget) (fun hstreaming => hends r hget ?_) thrown
        cases hkind : r.kind with
        | send blocking =>
          rw [hkind] at hstreaming
          cases hstreaming
        | stream => rfl
        | resubscribe =>
          rw [hkind] at hruns
          simp at hruns
      · rw [if_neg hruns]
        exact h
  | process event w =>
    have hwaiting : (x.server.process merge taskId event w).Waiting := h.waiting.process w
    cases hprocesses : x.processes merge taskId event with
    | true =>
      have hheard : Server.Heard taskId (event.isFinal && x.processes merge taskId event) x.server
          (x.server.process merge taskId event w) := Server.heard_process hk.present hnames hsafe.1
      exact h.hear hk hwaiting hheard (hends hprocesses) hsafe.2
    | false =>
      -- the event is dropped, or cannot be saved
      have hserver : x.server.process merge taskId event w = x.server := by
        rw [Conversation.processes] at hprocesses
        rw [Server.process]
        cases hreg : x.server.registered taskId with
        | none => rfl
        | some info =>
          rw [hreg, Option.isSome_some, Bool.true_and, Option.isSome_eq_false_iff, Option.isNone_iff_eq_none] at hprocesses
          rw [hprocesses]
      rw [Conversation.step, hprocesses, Bool.and_false, hserver]
      exact h.hear_nothing h.waiting rfl rfl rfl
  | beginCancel copy =>
    have hwaiting : (x.server.step merge (.beginCancel taskId copy)).Waiting := h.waiting.step _
    refine ⟨hwaiting, fun r hr hstreaming => (h.streams r hr hstreaming).frame ?_⟩
    show Server.Grows taskId x.server (x.server.step merge (.beginCancel taskId copy))
    rw [Server.step, Server.beginCancel.eq_def]
    rcases hget : x.server.get taskId copy with ⟨s₁, fetched⟩
    obtain ⟨-, hcallbacks, hentries⟩ := Server.get_emitted hget
    cases fetched with
    | none => exact .of_same rfl rfl
    | some o =>
      dsimp only
      cases (s₁.objects o).status.state.isFinal with
      | true => exact .of_same rfl rfl
      | false => exact .of_same hcallbacks (hentries taskId)
  | endCancel k w =>
    have hwaiting : (x.server.step merge (.endCancel k w)).Waiting := h.waiting.step _
    have hheard := hk.heard_endCancel merge (k := k) hsafe.1
    cases hcancels : x.cancels k with
    | true =>
      rw [hcancels] at hheard
      rw [Conversation.step, hcancels]
      exact h.hear hk hwaiting hheard (hends hcancels) fun _ => hsafe.2 hcancels
    | false =>
      obtain ⟨hemitted, hcallbacks, hentry⟩ := endCancel_nothing merge w hcancels
      rw [Conversation.step, hcancels]
      exact h.hear_nothing hwaiting hemitted hcallbacks hentry

end Framing

/-- Every stream is framed in a run that leaves no request behind, and whose steps keep the framing. -/
theorem framed_along (encode : StreamEvent M P → Json) (merge : String → String → Option String) (taskId : String)
    (tasks : List (Task M P)) (es : List (ConversationEvent M P)) (hnames : ∀ e ∈ es, e.Names taskId)
    (hends : Along (Conversation.step encode merge taskId) (fun x e => x.Safe merge taskId e ∧ x.Ends merge taskId e)
      { server := Server.start tasks } es) :
    ∀ pre, pre <+: es → ∀ r ∈ (run (Conversation.step encode merge taskId) { server := Server.start tasks } pre).requests,
      r.kind.callbackKind.isResponse = false → r.Framed encode :=
  (hends.and (along_of_forall hnames)).holds
    (I := fun x => ∀ r ∈ x.requests, r.kind.callbackKind.isResponse = false → r.Framed encode)
    (J := fun x => Conversation.Kept encode taskId x ∧ Conversation.Framing encode taskId x)
    ⟨Conversation.Kept.start tasks, Server.Waiting.start tasks, fun _ hr => absurd hr List.not_mem_nil⟩
    (fun _ hx r hr hstreaming => (hx.2.streams r hr hstreaming).framed)
    fun _ e hx he => ⟨hx.1.step e he.2 he.1.1, hx.2.step hx.1 e he.2 he.1.1 he.1.2⟩

/-- A stream on a new task, which is completed. -/
def newStream : List (ConversationEvent String String) :=
  .arrive (some (.str "1")) (.sendMessageStreaming { message := "hi", generatedTaskId := "t", generatedContextId := "c" }) none ::
    List.replicate 6 (.advance 0 false none) ++ [completes]

theorem framed_newStream : newStream.length = 8 ∧ ∀ pre, pre <+: newStream →
    ∀ r ∈ (run (Conversation.step (fun _ => .null) (fun _ new => some new) "t") { server := Server.start [] } pre).requests,
      r.kind.callbackKind.isResponse = false → r.Framed (P := String) fun _ => .null := by
  refine ⟨rfl, framed_along (fun _ => .null) (fun _ new => some new) "t" [] newStream ?_ ?_⟩
  · intro e he
    fin_cases he
    · exact .inr ⟨rfl, rfl⟩
    all_goals trivial
  · refine ⟨⟨trivial, fun _ hrefused => absurd rfl hrefused⟩, ?_, ?_, ?_, ?_, ?_, ?_, ?_, trivial⟩
    · refine ⟨fun r hr => ?_, fun r hr _ => ?_⟩
      · cases hr
        trivial
      · cases hr
        exact ⟨fun _ => ⟨"1", rfl⟩, trivial⟩
    · refine ⟨fun r hr => ?_, fun r hr _ => ?_⟩
      · cases hr
        trivial
      · cases hr
        exact ⟨fun _ => ⟨"1", rfl⟩, trivial⟩
    · refine ⟨fun r hr => ?_, fun r hr _ => ?_⟩
      · cases hr
        trivial
      · cases hr
        exact ⟨fun _ => ⟨"1", rfl⟩, trivial⟩
    · refine ⟨fun r hr => ?_, fun r hr _ => ?_⟩
      · cases hr
        intro r' hr' hsome
        cases List.mem_singleton.mp hr'
        cases hsome
      · cases hr
        exact ⟨fun _ => ⟨"1", rfl⟩, trivial⟩
    · refine ⟨fun r hr => ?_, fun r hr _ => ?_⟩
      · cases hr
        rfl
      · cases hr
        exact ⟨fun _ => ⟨"1", rfl⟩, rfl⟩
    · refine ⟨fun r hr => ?_, fun r hr _ => ?_⟩
      · cases hr
        exact ⟨_, rfl, nofun⟩
      · cases hr
        exact ⟨fun _ => ⟨"1", rfl⟩, trivial⟩
    · refine ⟨⟨fun _ _ => rfl, fun _ r hr _ => ?_⟩, fun _ r hr _ hended => ?_⟩
      · cases List.mem_singleton.mp hr
        exact .inl rfl
      · cases List.mem_singleton.mp hr
        cases hended

theorem not_framed_of_done {encode : StreamEvent M P → Json} {r : Request M} (hended : r.ended = false) (hdone : .done ∈ r.emitter.sent) :
    ¬r.Framed encode := by
  intro h
  obtain ⟨events, -, hsent⟩ := h.events hended
  rw [hsent] at hdone
  obtain ⟨event, -, hevent⟩ := List.mem_map.mp hdone
  cases hevent

/-- A message to a task that waits for input, up to the task that its stream starts with. -/
def resumedStream : List (ConversationEvent String String) :=
  .arrive (some (.str "1"))
    (.sendMessageStreaming { message := "hi", taskId := some "t", generatedTaskId := "", generatedContextId := "" }) none ::
    List.replicate 5 (.advance 0 false none)

/-- The stream of a task that waits for input is closed before the executor is called. -/
theorem not_framed_resumed : ¬∀ (tasks : List (Task String String)) (es : List (ConversationEvent String String)),
    (∀ e ∈ es, e.Names "t") →
    ∀ r ∈ (run (Conversation.step (fun _ => .null) (fun _ new => some new) "t") { server := Server.start tasks } es).requests,
      r.kind.callbackKind.isResponse = false → r.Framed (P := String) fun _ => .null := by
  intro h
  have hnames : ∀ e ∈ resumedStream, e.Names "t" := by
    intro e he
    fin_cases he
    · exact .inl ⟨rfl, by decide⟩
    all_goals trivial
  exact not_framed_of_done rfl (List.mem_cons_of_mem _ (List.mem_singleton_self _))
    (h [{ id := "t", contextId := "c", status := { state := .inputRequired } }] resumedStream hnames _ List.mem_cons_self rfl)

end AgentProtocol.A2A
