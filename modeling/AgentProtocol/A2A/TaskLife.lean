-- SUMMARY: Runs of the A2A server: what callbacks may do to the stored tasks, and when final states stay and tasks leave the execute map as they should.
import AgentProtocol.Lib.Run
import AgentProtocol.A2A.Tasks

/-!
# The life cycle of a task

A run is made of requests and of calls of updaters. `OnCancelTask` is two steps, since the executor runs in the middle
of it. Two promises are looked at: a final state that is stored stays, and a task leaves the execute map only in a state
that is final or interrupted.
-/

namespace AgentProtocol.A2A

open Lib

variable {M P : Type}

inductive ServerEvent (M P : Type) where
  | sendMessage (params : MessageSendParams M)
  | sendMessageStreaming (params : MessageSendParams M) (throws : Bool)
  | resubscribeToTask (taskId : String) (throws : Bool)
  | beginCancel (taskId : String) (copy : Bool)
  | endCancel (k : ℕ) (w : Choices)
  | update (k : ℕ) (call : UpdaterCall M P) (w : Choices)

namespace Server

def step (merge : String → String → Option String) (s : Server M P) : ServerEvent M P → Server M P
  | .sendMessage params => s.onSendMessage params
  | .sendMessageStreaming params throws => s.onSendMessageStreaming params throws
  | .resubscribeToTask taskId throws => s.onResubscribeToTask taskId throws
  | .beginCancel taskId copy =>
    match s.beginCancel taskId copy with
    | (s, none) => s
    | (s, some o) => { s with cancels := s.cancels ++ [o] }
  | .endCancel k w =>
    match s.cancels[k]? with
    | none => s
    | some o => { s.cancelTask o w with cancels := s.cancels.eraseIdx k }
  | .update k call w => s.update merge k call w

def start (tasks : List (Task M P)) : Server M P := tasks.foldl save {}

/-! ## What is promised -/

/-- A step keeps the final states of the store, and what it takes out of the execute map is final or interrupted. -/
structure Lawful (s s' : Server M P) : Prop where
  final : ∀ id task, s.stored id = some task → task.status.state.isFinal = true →
    ∃ task', s'.stored id = some task' ∧ task'.status.state = task.status.state
  leaves : ∀ id, s.taskExecuteMap.contains id = true → s'.taskExecuteMap.contains id = false →
    ∃ task', s'.stored id = some task' ∧ task'.status.state.isFinalOrInterrupted = true

/-- A callback of `OnSendMessage` among these is handed the stored object, counting from `i`. -/
def Answers (w : Choices) (i : ℕ) (callbacks : List Callback) : Prop :=
  ∃ j callback blocking, callbacks[j]? = some callback ∧ callback.kind = .response blocking ∧ w.copies (i + j) = false

/-- The steps that keep the promises. No status is reported for a task that failed because a callback threw, and a
message as the answer finds somebody who completes the task, unless it is over or interrupted anyway. A cancellation
that finds the task registered still has the object that is stored. New tasks get new ids. -/
def Orderly (s : Server M P) : ServerEvent M P → Prop
  | .sendMessage params => s.determineTaskId params = .ok none → s.tasks.lookup params.generatedTaskId = none
  | .sendMessageStreaming params _ => s.determineTaskId params = .ok none → s.tasks.lookup params.generatedTaskId = none
  | .resubscribeToTask _ _ => True
  | .beginCancel _ _ => True
  | .endCancel k _ => ∀ o, s.cancels[k]? = some o → (s.objects o).status.state.isFinal = false →
      s.registered (s.objects o).id ≠ none → s.tasks.lookup (s.objects o).id = some o ∨
        ∃ task, s.stored (s.objects o).id = some task ∧ task.status.state.isFinalOrInterrupted = true
  | .update k call w => ∀ u info task, s.updaters[k]? = some u → s.registered u.taskId = some info →
      s.stored u.taskId = some task →
      match call with
      | .updateStatus state _ _ _ => u.terminalStateReached = false → task.status.state.isFinal = true → state = .failed
      | .addArtifact _ _ _ => True
      | .sendResponseMessage _ => (task.status.state.isFinal = true → ¬ Answers w 0 info.eventCb) ∧
          (task.status.state.isFinalOrInterrupted = false → Answers w 0 info.eventCb)

/-! ## The invariant -/

def Filed (s : Server M P) : Prop := ∀ id o, s.tasks.lookup id = some o → o < s.allocated ∧ (s.objects o).id = id

structure Inv (s : Server M P) : Prop where
  filed : s.Filed
  cancels : ∀ o ∈ s.cancels, o < s.allocated
  registered : ∀ id, s.taskExecuteMap.contains id = true → s.registered id ≠ none ∧
    ∃ task, s.stored id = some task ∧ (task.status.state.isFinal = true → task.status.state = .failed)

variable {s s' s'' : Server M P} {taskId id : String} {o : ℕ}

variable {info : TaskExecuteInfo}

theorem contains_of_registered (h : s.registered id = some info) : s.taskExecuteMap.contains id = true := by
  rw [registered] at h
  rw [Dict.contains]
  cases hlookup : s.taskExecuteMap.lookup id with
  | none =>
    rw [hlookup] at h
    cases h
  | some entry => rfl

variable {task : Task M P}

theorem stored_eq_some : s.stored id = some task ↔ ∃ o, s.tasks.lookup id = some o ∧ s.objects o = task := by
  rw [stored, Option.map_eq_some_iff]

theorem Filed.stored_id (h : s.Filed) (hstored : s.stored id = some task) : task.id = id := by
  obtain ⟨o, ho, rfl⟩ := stored_eq_some.mp hstored
  exact (h id o ho).2

theorem Filed.unique (h : s.Filed) {id' : String} (ho : s.tasks.lookup id = some o) (ho' : s.tasks.lookup id' = some o) :
    id = id' := (h id o ho).2.symm.trans (h id' o ho').2

theorem Filed.stored_save (h : s.Filed) (task : Task M P) (id : String) :
    (s.save task).stored id = if task.id = id then some task else s.stored id := by
  rw [stored, save, Dict.lookup_set]
  by_cases hid : task.id = id
  · simp [hid]
  · rw [if_neg hid, if_neg hid, stored]
    refine Option.map_congr fun o ho => ?_
    exact Function.update_of_ne (h id o ho).1.ne _ _

theorem Filed.save (h : s.Filed) (task : Task M P) : (s.save task).Filed := by
  intro id o ho
  have ho : (s.tasks.set task.id s.allocated).lookup id = some o := ho
  rw [Dict.lookup_set] at ho
  by_cases hid : task.id = id
  · rw [if_pos hid] at ho
    cases ho
    refine ⟨Nat.lt_succ_self _, ?_⟩
    show (Function.update s.objects s.allocated task s.allocated).id = id
    rw [Function.update_self]
    exact hid
  · rw [if_neg hid] at ho
    obtain ⟨hlt, hobject⟩ := h id o ho
    refine ⟨Nat.lt_succ_of_lt hlt, ?_⟩
    show (Function.update s.objects s.allocated task o).id = id
    rw [Function.update_of_ne hlt.ne]
    exact hobject

/-- What a step does that is about one task. Under the condition `ok` it keeps the promises. -/
structure Touched (taskId : String) (ok : Prop) (s s' : Server M P) : Prop where
  filed : s'.Filed
  cancels : ∀ o ∈ s'.cancels, o < s'.allocated
  others : ∀ id, id ≠ taskId → s'.stored id = s.stored id ∧
    s'.taskExecuteMap.contains id = s.taskExecuteMap.contains id ∧ (s.registered id ≠ none → s'.registered id ≠ none)
  keeps : ok → ∀ task, s.stored taskId = some task → task.status.state.isFinal = true →
    ∃ task', s'.stored taskId = some task' ∧ task'.status.state = task.status.state
  leaves : ok → s.taskExecuteMap.contains taskId = true → s'.taskExecuteMap.contains taskId = false →
    ∃ task', s'.stored taskId = some task' ∧ task'.status.state.isFinalOrInterrupted = true
  stays : s'.taskExecuteMap.contains taskId = true → s'.registered taskId ≠ none ∧
    ∃ task', s'.stored taskId = some task' ∧ (task'.status.state.isFinal = true → task'.status.state = .failed)

variable {ok : Prop}

theorem Touched.lawful (h : Touched taskId ok s s') (hok : ok) : Lawful s s' where
  final id task hstored hfinal := by
    by_cases hid : id = taskId
    · subst hid
      exact h.keeps hok task hstored hfinal
    · exact ⟨task, (h.others id hid).1.trans hstored, rfl⟩
  leaves id hin hout := by
    by_cases hid : id = taskId
    · subst hid
      exact h.leaves hok hin hout
    · rw [(h.others id hid).2.1, hin] at hout
      cases hout

theorem Touched.inv (h : Touched taskId ok s s') (hinv : Inv s) : Inv s' where
  filed := h.filed
  cancels := h.cancels
  registered id hin := by
    by_cases hid : id = taskId
    · subst hid
      exact h.stays hin
    · obtain ⟨hstored, hcontains, hnull⟩ := h.others id hid
      rw [hcontains] at hin
      obtain ⟨hreg, task, htask, hfinal⟩ := hinv.registered id hin
      exact ⟨hnull hreg, task, hstored.trans htask, hfinal⟩

/-! ## What callbacks do -/

/-- Callbacks for a task may set its stored state to one of those in `p`, and nothing else that the invariant is
about. -/
structure Marked (taskId : String) (p : TaskState → Prop) (s s' : Server M P) : Prop where
  allocated : s.allocated ≤ s'.allocated
  tasks : s'.tasks = s.tasks
  cancels : s'.cancels = s.cancels
  updaters : s'.updaters = s.updaters
  callbacks : s'.callbacks = s.callbacks
  entries : ∀ id, (s'.taskExecuteMap.lookup id).map (Option.map TaskExecuteInfo.eventCb) =
    (s.taskExecuteMap.lookup id).map (Option.map TaskExecuteInfo.eventCb)
  objects : ∀ o, o < s.allocated → s'.objects o = s.objects o ∨
    s.tasks.lookup taskId = some o ∧ ∃ state, p state ∧ s'.objects o = (s.objects o).withState state

variable {p : TaskState → Prop}

theorem Marked.refl (taskId : String) (p : TaskState → Prop) (s : Server M P) : Marked taskId p s s :=
  ⟨le_refl _, rfl, rfl, rfl, rfl, fun _ => rfl, fun _ _ => .inl rfl⟩

theorem Marked.trans (h : Marked taskId p s s') (h' : Marked taskId p s' s'') : Marked taskId p s s'' where
  allocated := h.allocated.trans h'.allocated
  tasks := h'.tasks.trans h.tasks
  cancels := h'.cancels.trans h.cancels
  updaters := h'.updaters.trans h.updaters
  callbacks := h'.callbacks.trans h.callbacks
  entries id := (h'.entries id).trans (h.entries id)
  objects o ho := by
    rcases h'.objects o (ho.trans_le h.allocated) with hsame | ⟨hid, state, hstate, hmarked⟩
    · rw [hsame]
      exact h.objects o ho
    · rw [h.tasks] at hid
      refine .inr ⟨hid, state, hstate, ?_⟩
      rw [hmarked]
      rcases h.objects o ho with hsame | ⟨-, state', -, hmarked'⟩
      · rw [hsame]
      · rw [hmarked']
        rfl

theorem Marked.mono {q : TaskState → Prop} (h : Marked taskId p s s') (hpq : ∀ state, p state → q state) :
    Marked taskId q s s' where
  allocated := h.allocated
  tasks := h.tasks
  cancels := h.cancels
  updaters := h.updaters
  callbacks := h.callbacks
  entries := h.entries
  objects o ho := (h.objects o ho).imp_right fun ⟨hid, state, hstate, hmarked⟩ => ⟨hid, state, hpq state hstate, hmarked⟩

variable {copy : Bool}

theorem get_cases (h : s.get taskId copy = (s', some o)) : ∃ o', s.tasks.lookup taskId = some o' ∧
    ((copy = false ∧ o = o' ∧ s' = s) ∨ (copy = true ∧ o = s.allocated ∧ s' = { s with
        objects := Function.update s.objects s.allocated (s.objects o'), allocated := s.allocated + 1 })) := by
  rw [get] at h
  cases hlookup : s.tasks.lookup taskId with
  | none =>
    rw [hlookup] at h
    cases h
  | some o' =>
    rw [hlookup] at h
    refine ⟨o', rfl, ?_⟩
    cases copy with
    | true =>
      obtain ⟨hs, ho⟩ := Prod.mk.inj h
      exact .inr ⟨rfl, (Option.some.inj ho).symm, hs.symm⟩
    | false =>
      obtain ⟨hs, ho⟩ := Prod.mk.inj h
      exact .inl ⟨rfl, (Option.some.inj ho).symm, hs.symm⟩

theorem get_none (h : s.get taskId copy = (s', none)) : s' = s := by
  rw [get] at h
  cases hlookup : s.tasks.lookup taskId with
  | none =>
    rw [hlookup] at h
    exact (Prod.mk.inj h).1.symm
  | some o' =>
    rw [hlookup] at h
    cases copy with
    | true | false => cases (Prod.mk.inj h).2

theorem marked_get (h : s.get taskId copy = (s', some o)) : Marked taskId p s s' := by
  obtain ⟨o', -, ⟨-, -, rfl⟩ | ⟨-, -, rfl⟩⟩ := get_cases h
  · exact Marked.refl _ _ _
  · refine ⟨Nat.le_succ _, rfl, rfl, rfl, rfl, fun _ => rfl, fun o ho => .inl ?_⟩
    show Function.update s.objects s.allocated _ o = s.objects o
    rw [Function.update_of_ne ho.ne]

variable {state : TaskState}

theorem marked_setState (h : s.get taskId copy = (s', some o))
    (hstate : copy = false → p state) : Marked taskId p s (s'.setState o state) := by
  obtain ⟨o', hlookup, ⟨hcopy, rfl, rfl⟩ | ⟨-, rfl, rfl⟩⟩ := get_cases h
  · refine ⟨le_refl _, rfl, rfl, rfl, rfl, fun _ => rfl, fun o' ho => ?_⟩
    by_cases heq : o' = o
    · subst heq
      refine .inr ⟨hlookup, state, hstate hcopy, ?_⟩
      show Function.update s'.objects o' _ o' = _
      rw [Function.update_self]
    · left
      show Function.update s'.objects o _ o' = _
      rw [Function.update_of_ne heq]
  · refine ⟨Nat.le_succ _, rfl, rfl, rfl, rfl, fun _ => rfl, fun o ho => .inl ?_⟩
    show Function.update (Function.update s.objects s.allocated _) s.allocated _ o = s.objects o
    rw [Function.update_of_ne ho.ne, Function.update_of_ne ho.ne]

variable {event : StreamEvent M P} {callback : ℕ}

variable {throws errorCopy : Bool}

theorem marked_emit (hp : p .failed) : Marked taskId p s (s.emit taskId callback event throws errorCopy) := by
  rw [emit]
  cases throws with
  | false => exact ⟨le_refl _, rfl, rfl, rfl, rfl, fun _ => rfl, fun _ _ => .inl rfl⟩
  | true =>
    rw [if_pos rfl]
    rcases hget : s.get taskId errorCopy with ⟨s', fetched⟩
    cases fetched with
    | none =>
      rw [get_none hget]
      exact Marked.refl _ _ _
    | some o => exact marked_setState hget fun _ => hp

variable {value : Bool}

theorem marked_exchange : Marked taskId p s (s.exchangeMessageSent id value).1 := by
  rw [exchangeMessageSent]
  cases hreg : s.registered id with
  | none => exact Marked.refl _ _ _
  | some info =>
    refine ⟨le_refl _, rfl, rfl, rfl, rfl, fun id' => ?_, fun _ _ => .inl rfl⟩
    show ((s.taskExecuteMap.set id _).lookup id').map _ = _
    rw [Dict.lookup_set]
    by_cases hid : id = id'
    · subst hid
      rw [if_pos rfl]
      rw [registered] at hreg
      rw [Option.join_eq_some_iff.mp hreg]
      rfl
    · rw [if_neg hid]

/-- What a callback may set the stored state to: failed if its emit throws, and completed if it is a callback of
`OnSendMessage` that was handed the stored object with a message. -/
def Sets (event : StreamEvent M P) (answers : Prop) (state : TaskState) : Prop :=
  state = .failed ∨ state = .completed ∧ (∃ m, event = .message m) ∧ answers

variable {blocking : Bool}

theorem marked_responseCallback {copy throws errorCopy : Bool} : Marked taskId (Sets event (copy = false)) s
      (s.responseCallback taskId callback blocking event copy throws errorCopy) := by
  have hfailed : Sets event (copy = false) .failed := .inl rfl
  rw [responseCallback.eq_def]
  rcases hget : s.get taskId copy with ⟨s₁, fetched⟩
  cases fetched with
  | none =>
    rw [get_none hget]
    exact Marked.refl _ _ _
  | some o =>
    have hfetched : Marked taskId (Sets event (copy = false)) s s₁ := marked_get hget
    -- with an event other than a message, the task is emitted if the event is final or the request does not block
    have hother : Marked taskId (Sets event (copy = false)) s
        (if event.isFinal || !blocking then
          if (s₁.exchangeMessageSent taskId true).2 then (s₁.exchangeMessageSent taskId true).1
          else (s₁.exchangeMessageSent taskId true).1.emit taskId callback
            (.task ((s₁.exchangeMessageSent taskId true).1.objects o)) throws errorCopy
        else s₁) := by
      have hexchanged : Marked taskId (Sets event (copy = false)) s (s₁.exchangeMessageSent taskId true).1 :=
        hfetched.trans marked_exchange
      by_cases hemits : (event.isFinal || !blocking) = true
      · rw [if_pos hemits]
        cases (s₁.exchangeMessageSent taskId true).2 with
        | true => exact hexchanged
        | false => exact hexchanged.trans (marked_emit hfailed)
      · rw [if_neg hemits]
        exact hfetched
    cases event with
    | message m =>
      have hcompleted : Marked taskId (Sets (.message m : StreamEvent M P) (copy = false)) s (s₁.setState o .completed) :=
        marked_setState hget fun hcopy => .inr ⟨rfl, ⟨m, rfl⟩, hcopy⟩
      have hexchanged : Marked taskId (Sets (.message m : StreamEvent M P) (copy = false)) s
          ((s₁.setState o .completed).exchangeMessageSent taskId true).1 := hcompleted.trans marked_exchange
      dsimp only
      cases ((s₁.setState o .completed).exchangeMessageSent taskId true).2 with
      | true => exact hexchanged
      | false => exact hexchanged.trans (marked_emit hfailed)
    | task | artifactUpdate | statusUpdate => exact hother

theorem marked_invoke {callback : Callback} {copy throws errorCopy : Bool} :
    Marked taskId (Sets event (copy = false ∧ ∃ blocking, callback.kind = .response blocking)) s
      (s.invoke taskId event callback copy throws errorCopy) := by
  have hheard : Marked taskId (Sets event (copy = false ∧ ∃ blocking, callback.kind = .response blocking)) s
      { s with received := s.received ++ [(callback.id, event)] } :=
    ⟨le_refl _, rfl, rfl, rfl, rfl, fun _ => rfl, fun _ _ => .inl rfl⟩
  rw [invoke]
  cases hkind : callback.kind with
  | response blocking =>
    rw [hkind] at hheard
    refine hheard.trans (marked_responseCallback.mono fun state hstate => hstate.imp_right ?_)
    rintro ⟨hcompleted, hmessage, hcopy⟩
    exact ⟨hcompleted, hmessage, hcopy, blocking, rfl⟩
  | streaming =>
    rw [hkind] at hheard
    exact hheard.trans (marked_emit (.inl rfl))

variable {w : Choices}

variable {callbacks : List Callback}

theorem marked_invokeAll {i : ℕ} :
    Marked taskId (Sets event (Answers w i callbacks)) s (s.invokeAll taskId event w i callbacks) := by
  induction callbacks generalizing s i with
  | nil => exact Marked.refl _ _ _
  | cons callback callbacks ih =>
    rw [invokeAll]
    refine (marked_invoke.mono ?_).trans (ih.mono ?_)
    · rintro state (hfailed | ⟨hcompleted, hmessage, hcopy, blocking, hkind⟩)
      · exact .inl hfailed
      · exact .inr ⟨hcompleted, hmessage, 0, callback, blocking, rfl, hkind, hcopy⟩
    · rintro state (hfailed | ⟨hcompleted, hmessage, j, callback', blocking, hj, hkind, hcopy⟩)
      · exact .inl hfailed
      · exact .inr ⟨hcompleted, hmessage, j + 1, callback', blocking, hj, hkind, by rw [← hcopy]; congr 1; omega⟩

/-! ## What that means for the store -/

variable (h : Marked taskId p s s')
include h

theorem Marked.filed (hfiled : s.Filed) : s'.Filed := by
  intro id o ho
  rw [h.tasks] at ho
  obtain ⟨hlt, hobject⟩ := hfiled id o ho
  refine ⟨hlt.trans_le h.allocated, ?_⟩
  rcases h.objects o hlt with hsame | ⟨-, state, -, hmarked⟩
  · rw [hsame]
    exact hobject
  · rw [hmarked]
    exact hobject

theorem Marked.stored (hfiled : s.Filed) (hstored : s.stored id = some task) :
    s'.stored id = some task ∨ id = taskId ∧ ∃ state, p state ∧ s'.stored id = some (task.withState state) := by
  obtain ⟨o, ho, rfl⟩ := stored_eq_some.mp hstored
  have ho' : s'.tasks.lookup id = some o := h.tasks ▸ ho
  rcases h.objects o (hfiled id o ho).1 with hsame | ⟨hid, state, hstate, hmarked⟩
  · exact .inl (stored_eq_some.mpr ⟨o, ho', hsame⟩)
  · exact .inr ⟨hfiled.unique ho hid, state, hstate, stored_eq_some.mpr ⟨o, ho', hmarked⟩⟩

theorem Marked.stored_of_ne (hfiled : s.Filed) (hid : id ≠ taskId) : s'.stored id = s.stored id := by
  cases hstored : s.stored id with
  | some task =>
    rcases h.stored hfiled hstored with hsame | ⟨heq, -⟩
    · exact hsame
    · exact absurd heq hid
  | none =>
    rw [Server.stored, Option.map_eq_none_iff] at hstored ⊢
    rw [h.tasks]
    exact hstored

theorem Marked.contains (id : String) : s'.taskExecuteMap.contains id = s.taskExecuteMap.contains id := by
  have hentries := congrArg Option.isSome (h.entries id)
  rw [Option.isSome_map, Option.isSome_map] at hentries
  exact hentries

theorem Marked.registered (id : String) :
    (s'.registered id).map TaskExecuteInfo.eventCb = (s.registered id).map TaskExecuteInfo.eventCb := by
  have hentries := h.entries id
  rw [Server.registered, Server.registered]
  cases hs : s.taskExecuteMap.lookup id with
  | none =>
    rw [hs] at hentries
    cases hs' : s'.taskExecuteMap.lookup id with
    | none => rfl
    | some entry' =>
      rw [hs'] at hentries
      cases hentries
  | some entry =>
    rw [hs] at hentries
    cases hs' : s'.taskExecuteMap.lookup id with
    | none =>
      rw [hs'] at hentries
      cases hentries
    | some entry' =>
      rw [hs'] at hentries
      exact Option.some.inj hentries

theorem Marked.registered_ne_none (id : String) (hreg : s.registered id ≠ none) : s'.registered id ≠ none := by
  intro hnone
  have hmap := h.registered id
  rw [hnone, Option.map_none, eq_comm, Option.map_eq_none_iff] at hmap
  exact hreg hmap

theorem Marked.final (hfiled : s.Filed) (hp : ∀ state, p state → state.isFinal = true)
    (hstored : s.stored id = some task) (hfinal : task.status.state.isFinal = true) :
    ∃ task', s'.stored id = some task' ∧ task'.status.state.isFinal = true := by
  rcases h.stored hfiled hstored with hsame | ⟨-, state, hstate, hmarked⟩
  · exact ⟨task, hsame, hfinal⟩
  · exact ⟨_, hmarked, hp state hstate⟩

omit h

theorem sets_final {answers : Prop} (h : Sets event answers state) : state.isFinal = true := by
  rcases h with rfl | ⟨rfl, -⟩
  · rfl
  · rfl

theorem responseCallback_completes (hfiled : s.Filed) (hstored : s.stored taskId = some task) {m : M} :
    ∃ task', (s.responseCallback taskId callback blocking (.message m) false throws errorCopy).stored taskId = some task' ∧
      task'.status.state.isFinal = true := by
  obtain ⟨o, ho, rfl⟩ := stored_eq_some.mp hstored
  have hget : s.get taskId false = (s, some o) := by
    rw [get, ho]
    rfl
  have hcompleted : (s.setState o .completed).stored taskId = some ((s.objects o).withState .completed) :=
    stored_eq_some.mpr ⟨o, ho, Function.update_self _ _ _⟩
  have hfiled' : (s.setState o .completed).Filed :=
    (marked_setState (p := fun _ => True) hget fun _ => trivial).filed hfiled
  have hexchanged : Marked taskId (fun state => state = .failed) (s.setState o .completed)
      ((s.setState o .completed).exchangeMessageSent taskId true).1 := marked_exchange
  have hp : ∀ state, state = TaskState.failed → state.isFinal = true := by
    rintro _ rfl
    rfl
  rw [responseCallback.eq_def, hget]
  dsimp only
  cases ((s.setState o .completed).exchangeMessageSent taskId true).2 with
  | true => exact hexchanged.final hfiled' hp hcompleted rfl
  | false => exact (hexchanged.trans (marked_emit rfl)).final hfiled' hp hcompleted rfl

theorem invokeAll_completes (hfiled : s.Filed) (hstored : s.stored taskId = some task) {m : M}
    {i : ℕ} (h : Answers w i callbacks) : ∃ task', (s.invokeAll taskId (.message m) w i callbacks).stored taskId = some task' ∧
      task'.status.state.isFinal = true := by
  induction callbacks generalizing s i task with
  | nil =>
    obtain ⟨j, callback, blocking, hj, -⟩ := h
    cases hj
  | cons callback callbacks ih =>
    rw [invokeAll]
    have hmarked : Marked taskId _ s (s.invoke taskId (.message m) callback (w.copies i) (w.throws i) (w.errorCopies i)) :=
      marked_invoke
    obtain ⟨j, callback', blocking, hj, hkind, hcopy⟩ := h
    cases j with
    | zero =>
      -- this callback completes the task, and the others cannot take it out of a final state
      cases hj
      rw [Nat.add_zero] at hcopy
      let heard : Server M P := { s with received := s.received ++ [(callback.id, .message m)] }
      have hheard : heard.Filed := hfiled
      obtain ⟨task', hstored', hfinal⟩ : ∃ task', (heard.responseCallback taskId callback.id blocking (.message m) false
          (w.throws i) (w.errorCopies i)).stored taskId = some task' ∧ task'.status.state.isFinal = true :=
        responseCallback_completes hheard hstored
      have heq : s.invoke taskId (.message m) callback (w.copies i) (w.throws i) (w.errorCopies i) =
          heard.responseCallback taskId callback.id blocking (.message m) false (w.throws i) (w.errorCopies i) := by
        rw [invoke, hkind, hcopy]
      rw [← heq] at hstored'
      exact marked_invokeAll.final (hmarked.filed hfiled) (fun _ => sets_final) hstored' hfinal
    | succ j =>
      have hrest : Answers w (i + 1) callbacks := ⟨j, callback', blocking, hj, hkind, by rw [← hcopy]; congr 1; omega⟩
      rcases hmarked.stored hfiled hstored with hsame | ⟨-, state, -, hset⟩
      · exact ih (hmarked.filed hfiled) hsame hrest
      · exact ih (hmarked.filed hfiled) hset hrest

/-! ## Events -/

variable {merge : String → String → Option String}

/-- The task that an event names. A message names none. -/
def About (taskId : String) : StreamEvent M P → Prop
  | .task task => task.id = taskId
  | .message _ => True
  | .artifactUpdate id _ _ _ _ _ => id = taskId
  | .statusUpdate id _ _ _ => id = taskId

def nextState (event : StreamEvent M P) (state : TaskState) : TaskState :=
  match event with
  | .task task => task.status.state
  | .statusUpdate _ _ status _ => status.state
  | _ => state

/-- What an event that is saved changes. -/
structure Saved (taskId : String) (state : TaskState) (s s' : Server M P) : Prop where
  filed : s'.Filed
  allocated : s.allocated ≤ s'.allocated
  entries : s'.taskExecuteMap = s.taskExecuteMap
  cancels : s'.cancels = s.cancels
  others : ∀ id, id ≠ taskId → s'.stored id = s.stored id
  own : ∃ task, s'.stored taskId = some task ∧ task.status.state = state

theorem Filed.saved (h : s.Filed) (task : Task M P) : Saved task.id task.status.state s (s.save task) where
  filed := h.save task
  allocated := Nat.le_succ _
  entries := rfl
  cancels := rfl
  others id hid := by rw [h.stored_save, if_neg (Ne.symm hid)]
  own := ⟨task, by rw [h.stored_save, if_pos rfl], rfl⟩

theorem mergeMetadata_keeps {task task' : Task M P} {metadata : Option String}
    (h : task.mergeMetadata merge metadata = some task') : task'.id = task.id := by
  unfold Task.mergeMetadata at h
  split at h
  · cases h
    rfl
  · cases h
    rfl
  · obtain ⟨merged, -, rfl⟩ := Option.map_eq_some_iff.mp h
    rfl

theorem saveTaskEvent_saved (hfiled : s.Filed) (hstored : s.stored taskId = some task)
    (habout : About taskId event) (h : s.saveTaskEvent merge event = some s') :
    Saved taskId (nextState event task.status.state) s s' := by
  have hid := hfiled.stored_id hstored
  cases event with
  | task t =>
    cases h
    rw [About] at habout
    rw [← habout]
    exact hfiled.saved t
  | message m =>
    cases h
    exact ⟨hfiled, le_refl _, rfl, rfl, fun _ _ => rfl, task, hstored, rfl⟩
  | artifactUpdate id contextId artifact append lastChunk metadata =>
    have hsame : id = taskId := habout
    subst hsame
    rw [saveTaskEvent, ensureTask, hstored] at h
    cases h
    rw [← hid]
    exact hfiled.saved (task.appendArtifact artifact append)
  | statusUpdate id contextId status metadata =>
    have hsame : id = taskId := habout
    subst hsame
    rw [saveTaskEvent, ensureTask, hstored] at h
    obtain ⟨merged, hmerged, rfl⟩ := Option.map_eq_some_iff.mp h
    have hpush : task.pushStatusMessage.id = task.id := by
      rw [Task.pushStatusMessage]
      split <;> rfl
    have hmergedId : merged.id = id := (mergeMetadata_keeps hmerged).trans (hpush.trans hid)
    rw [← hmergedId]
    exact hfiled.saved { merged with status := status }

theorem Inv.process_touched (h : Inv s) (hreg : s.registered taskId = some info)
    (hstored : s.stored taskId = some task) (habout : About taskId event)
    (hkeep : ok → task.status.state.isFinal = true → nextState event task.status.state = .failed ∧
      ((∃ m, event = .message m) → ¬ Answers w 0 info.eventCb))
    (hleave : ok → event.isFinal = true → (nextState event task.status.state).isFinalOrInterrupted = true ∨
      (∃ m, event = .message m) ∧ Answers w 0 info.eventCb)
    (hstay : event.isFinal = false → (nextState event task.status.state).isFinal = true →
      nextState event task.status.state = .failed) : Touched taskId ok s (s.process merge taskId event w) := by
  have hcontains := contains_of_registered hreg
  rw [process, hreg]
  dsimp only
  cases hsave : s.saveTaskEvent merge event with
  | none =>
    refine ⟨h.filed, h.cancels, fun _ _ => ⟨rfl, rfl, id⟩, fun _ t ht _ => ⟨t, ht, rfl⟩, fun _ _ hout => ?_, h.registered taskId⟩
    rw [hcontains] at hout
    cases hout
  | some s₁ =>
    dsimp only
    obtain ⟨hfiled₁, halloc₁, hentries₁, hcancels₁, hothers₁, task₁, hstored₁, hstate₁⟩ :=
      saveTaskEvent_saved h.filed hstored habout hsave
    have hmarked : Marked taskId (Sets event (Answers w 0 info.eventCb)) s₁ (s₁.invokeAll taskId event w 0 info.eventCb) :=
      marked_invokeAll
    set s₂ := s₁.invokeAll taskId event w 0 info.eventCb with hs₂
    have hfiled₂ := hmarked.filed hfiled₁
    have hcancels₂ : ∀ o ∈ s₂.cancels, o < s₂.allocated := by
      intro o ho
      rw [hmarked.cancels, hcancels₁] at ho
      exact (h.cancels o ho).trans_le (halloc₁.trans hmarked.allocated)
    -- the stored task after the callbacks
    have hown : ∃ task₂, s₂.stored taskId = some task₂ ∧ (task₂.status.state = nextState event task.status.state ∨
        Sets event (Answers w 0 info.eventCb) task₂.status.state) := by
      rcases hmarked.stored hfiled₁ hstored₁ with hsame | ⟨-, state, hset, hmarked₁⟩
      · exact ⟨task₁, hsame, .inl hstate₁⟩
      · exact ⟨_, hmarked₁, .inr hset⟩
    obtain ⟨task₂, hstored₂, hstate₂⟩ := hown
    have hkeeps : ok → ∀ t, s.stored taskId = some t → t.status.state.isFinal = true →
        ∃ t', s₂.stored taskId = some t' ∧ t'.status.state = t.status.state := by
      intro hok t ht hfinal
      obtain rfl : task = t := Option.some.inj (hstored.symm.trans ht)
      obtain ⟨hnext, hquiet⟩ := hkeep hok hfinal
      obtain ⟨-, t', ht', hfailed⟩ := h.registered taskId hcontains
      obtain rfl : task = t' := Option.some.inj (hstored.symm.trans ht')
      refine ⟨task₂, hstored₂, ?_⟩
      rw [hfailed hfinal]
      rcases hstate₂ with heq | hset | ⟨-, hmessage, hanswers⟩
      · rw [heq, hnext]
      · exact hset
      · exact absurd hanswers (hquiet hmessage)
    have hothers : ∀ id, id ≠ taskId → s₂.stored id = s.stored id ∧
        s₂.taskExecuteMap.contains id = s.taskExecuteMap.contains id ∧ (s.registered id ≠ none → s₂.registered id ≠ none) := by
      intro id hid
      refine ⟨(hmarked.stored_of_ne hfiled₁ hid).trans (hothers₁ id hid), ?_, fun hne => hmarked.registered_ne_none id ?_⟩
      · rw [hmarked.contains, hentries₁]
      · rw [Server.registered, hentries₁]
        exact hne
    by_cases hfinal : event.isFinal = true
    · rw [if_pos hfinal]
      refine ⟨hfiled₂, hcancels₂, fun id hid => ?_, hkeeps, fun hok _ _ => ?_, fun hin => ?_⟩
      · obtain ⟨hstored', hcontains', hnull'⟩ := hothers id hid
        refine ⟨hstored', ?_, fun hne => ?_⟩
        · rw [Dict.contains, Dict.lookup_erase, if_neg hid]
          exact hcontains'
        · rw [Server.registered, Dict.lookup_erase, if_neg hid]
          exact hnull' hne
      · rcases hleave hok hfinal with hnext | ⟨⟨m, rfl⟩, hanswers⟩
        · refine ⟨task₂, hstored₂, ?_⟩
          rcases hstate₂ with heq | hset
          · rw [heq]
            exact hnext
          · rw [TaskState.isFinalOrInterrupted, sets_final hset]
            rfl
        · obtain ⟨task', hstored', hdone⟩ := invokeAll_completes hfiled₁ hstored₁ (m := m) hanswers
          refine ⟨task', hstored', ?_⟩
          rw [TaskState.isFinalOrInterrupted, hdone]
          rfl
      · rw [Dict.contains, Dict.lookup_erase, if_pos rfl] at hin
        cases hin
    · rw [if_neg hfinal]
      have hfinal : event.isFinal = false := Bool.not_eq_true _ ▸ hfinal
      refine ⟨hfiled₂, hcancels₂, hothers, hkeeps, fun _ _ hout => ?_, fun _ => ⟨?_, task₂, hstored₂, fun hdone => ?_⟩⟩
      · rw [hmarked.contains, hentries₁, hcontains] at hout
        cases hout
      · refine hmarked.registered_ne_none taskId ?_
        rw [Server.registered, hentries₁]
        intro hnone
        rw [Server.registered, hnone] at hreg
        cases hreg
      · rcases hstate₂ with heq | hset | ⟨-, ⟨m, rfl⟩, -⟩
        · rw [heq] at hdone ⊢
          exact hstay hfinal hdone
        · exact hset
        · cases hfinal

/-! ## Steps that change no task -/

/-- The store is as it was, and so are the entries of the execute map but for what they hold. -/
structure Quiet (s s' : Server M P) : Prop where
  objects : s'.objects = s.objects
  allocated : s'.allocated = s.allocated
  tasks : s'.tasks = s.tasks
  cancels : s'.cancels = s.cancels
  contains : ∀ id, s'.taskExecuteMap.contains id = s.taskExecuteMap.contains id
  registered : ∀ id, s.registered id ≠ none → s'.registered id ≠ none

theorem Quiet.trans (h : Quiet s s') (h' : Quiet s' s'') : Quiet s s'' where
  objects := h'.objects.trans h.objects
  allocated := h'.allocated.trans h.allocated
  tasks := h'.tasks.trans h.tasks
  cancels := h'.cancels.trans h.cancels
  contains id := (h'.contains id).trans (h.contains id)
  registered id hne := h'.registered id (h.registered id hne)

theorem Quiet.stored (h : Quiet s s') (id : String) : s'.stored id = s.stored id := by
  rw [Server.stored, Server.stored, h.tasks, h.objects]

theorem quiet_registerTask {info info' : TaskExecuteInfo} (hreg : s.registered id = some info) :
    Quiet s (s.registerTask id (some info')) := by
  refine ⟨rfl, rfl, rfl, rfl, fun id' => ?_, fun id' hne => ?_⟩
  · show (s.taskExecuteMap.set id _).contains id' = _
    rw [Dict.contains, Dict.lookup_set]
    by_cases hid : id = id'
    · subst hid
      rw [if_pos rfl, contains_of_registered hreg]
      rfl
    · rw [if_neg hid]
      rfl
  · show ((s.taskExecuteMap.set id _).lookup id').join ≠ none
    rw [Dict.lookup_set]
    by_cases hid : id = id'
    · rw [if_pos hid]
      simp
    · rw [if_neg hid]
      exact hne

theorem quiet_exchange : Quiet s (s.exchangeMessageSent id value).1 := by
  rw [exchangeMessageSent]
  cases hreg : s.registered id with
  | none => exact ⟨rfl, rfl, rfl, rfl, fun _ => rfl, fun _ hne => hne⟩
  | some info => exact quiet_registerTask hreg

theorem quiet_addEventCallback {kind : CallbackKind} : Quiet s (s.addEventCallback id kind) := by
  rw [addEventCallback]
  cases hreg : s.registered id with
  | none => exact ⟨rfl, rfl, rfl, rfl, fun _ => rfl, fun _ hne => hne⟩
  | some info =>
    have hreg' : ({ s with callbacks := s.callbacks + 1 } : Server M P).registered id = some info := hreg
    have hquiet : Quiet _ (({ s with callbacks := s.callbacks + 1 } : Server M P).registerTask id
        (some { info with eventCb := info.eventCb ++ [⟨s.callbacks, kind⟩] })) := quiet_registerTask hreg'
    exact ⟨rfl, rfl, rfl, rfl, hquiet.contains, hquiet.registered⟩

theorem quiet_addUpdater : Quiet s (s.addUpdater id) := ⟨rfl, rfl, rfl, rfl, fun _ => rfl, fun _ hne => hne⟩

theorem Inv.touched_refl (h : Inv s) (taskId : String) : Touched taskId ok s s where
  filed := h.filed
  cancels := h.cancels
  others _ _ := ⟨rfl, rfl, fun hne => hne⟩
  keeps _ task hstored _ := ⟨task, hstored, rfl⟩
  leaves _ hin hout := by
    rw [hin] at hout
    cases hout
  stays := h.registered taskId

theorem Touched.quiet (h : Touched taskId ok s s') (hquiet : Quiet s' s'') : Touched taskId ok s s'' where
  filed id o ho := by
    rw [hquiet.allocated, hquiet.objects]
    exact h.filed id o (hquiet.tasks ▸ ho)
  cancels o ho := by
    rw [hquiet.allocated]
    exact h.cancels o (hquiet.cancels ▸ ho)
  others id hid := by
    obtain ⟨hstored, hcontains, hnull⟩ := h.others id hid
    exact ⟨(hquiet.stored id).trans hstored, (hquiet.contains id).trans hcontains, fun hne => hquiet.registered id (hnull hne)⟩
  keeps hok task hstored hfinal := by
    rw [hquiet.stored]
    exact h.keeps hok task hstored hfinal
  leaves hok hin hout := by
    rw [hquiet.stored]
    exact h.leaves hok hin (hquiet.contains taskId ▸ hout)
  stays hin := by
    obtain ⟨hreg, hstored⟩ := h.stays (hquiet.contains taskId ▸ hin)
    rw [hquiet.stored]
    exact ⟨hquiet.registered taskId hreg, hstored⟩

/-! ## Requests -/

theorem Inv.touched_register (h : Inv s) (hstate : task.status.state.isFinal = false)
    (hbefore : ok → ∀ t, s.stored task.id = some t → t.status.state.isFinal = false)
    {s' : Server M P} (hs' : s' = (s.save task).registerTask task.id (some info)) : Touched task.id ok s s' := by
  have hfiled := h.filed.save task
  have hstored : ∀ id, s'.stored id = (s.save task).stored id := fun id => by
    rw [hs']
    rfl
  have hentry : ∀ id, s'.taskExecuteMap.lookup id = if task.id = id then some (some info) else s.taskExecuteMap.lookup id := by
    intro id
    rw [hs']
    exact Dict.lookup_set _ _ _ _
  refine ⟨?_, fun o ho => ?_, fun id hid => ⟨?_, ?_, ?_⟩, fun hok t ht hfinal => ?_, fun _ _ hout => ?_, fun _ => ⟨?_, task, ?_, ?_⟩⟩
  · rw [hs']
    exact hfiled
  · rw [hs'] at ho ⊢
    exact Nat.lt_succ_of_lt (h.cancels o ho)
  · rw [hstored, h.filed.stored_save, if_neg (Ne.symm hid)]
  · rw [Dict.contains, hentry, if_neg (Ne.symm hid)]
    rfl
  · rw [Server.registered, Server.registered, hentry, if_neg (Ne.symm hid)]
    exact fun hne => hne
  · rw [hbefore hok t ht] at hfinal
    cases hfinal
  · rw [Dict.contains, hentry, if_pos rfl] at hout
    cases hout
  · rw [Server.registered, hentry, if_pos rfl]
    simp
  · rw [hstored, h.filed.stored_save, if_pos rfl]
  · rw [hstate]
    exact fun hfinal => by cases hfinal

variable {params : MessageSendParams M}

theorem determineTaskId_stored (h : s.determineTaskId params = .ok (some task)) : ∃ id, s.stored id = some task := by
  rw [determineTaskId] at h
  cases htask : params.taskId with
  | none =>
    rw [htask] at h
    cases h
  | some taskId =>
    rw [htask] at h
    dsimp only at h
    by_cases hempty : taskId = ""
    · rw [if_pos hempty] at h
      cases h
    · rw [if_neg hempty] at h
      cases hstored : s.stored taskId with
      | none =>
        rw [hstored] at h
        cases h
      | some t =>
        rw [hstored] at h
        dsimp only at h
        refine ⟨taskId, ?_⟩
        rw [hstored]
        cases hcontext : params.contextId with
        | none =>
          rw [hcontext] at h
          cases h
          rfl
        | some contextId =>
          rw [hcontext] at h
          dsimp only at h
          by_cases hmismatch : contextId ≠ "" ∧ t.contextId ≠ contextId
          · rw [if_pos hmismatch] at h
            cases h
          · rw [if_neg hmismatch] at h
            cases h
            rfl

theorem Inv.prepareTask_touched (h : Inv s) {found : Option String} (hprepare : s.prepareTask params = (s', found)) :
    ∃ id, Touched id (s.determineTaskId params = .ok none → s.tasks.lookup params.generatedTaskId = none) s s' := by
  rw [prepareTask] at hprepare
  cases hdetermine : s.determineTaskId params with
  | error e =>
    rw [hdetermine] at hprepare
    cases hprepare
    exact ⟨"", h.touched_refl ""⟩
  | ok existing =>
    rw [hdetermine] at hprepare
    cases existing with
    | none =>
      cases hprepare
      let task : Task M P := {
        id := params.generatedTaskId
        contextId := params.contextId.getD params.generatedContextId
        status := { state := .submitted }
        history := some [params.message] }
      have hstate : task.status.state.isFinal = false := rfl
      refine ⟨params.generatedTaskId, h.touched_register hstate ?_ rfl⟩
      intro hfresh t ht
      rw [Server.stored, hfresh rfl] at ht
      cases ht
    | some task =>
      dsimp only at hprepare
      obtain ⟨id, hstored⟩ := determineTaskId_stored hdetermine
      have hid := h.filed.stored_id hstored
      cases hfinal : task.status.state.isFinal with
      | true =>
        rw [hfinal, if_pos rfl] at hprepare
        cases hprepare
        exact ⟨"", h.touched_refl ""⟩
      | false =>
        rw [hfinal, if_neg (by simp)] at hprepare
        cases hprepare
        have hpush : task.pushStatusMessage.id = task.id ∧ task.pushStatusMessage.status.state = task.status.state := by
          rw [Task.pushStatusMessage]
          split <;> exact ⟨rfl, rfl⟩
        refine ⟨task.id, ?_⟩
        rw [← hpush.1]
        let updated : Task M P := { task.pushStatusMessage with
          status := { task.pushStatusMessage.status with message := none }
          history := some (task.pushStatusMessage.history.getD [] ++ [params.message]) }
        have hstate : updated.status.state.isFinal = false := (congrArg TaskState.isFinal hpush.2).trans hfinal
        refine h.touched_register hstate ?_ rfl
        · intro _ t ht
          have ht : s.stored task.pushStatusMessage.id = some t := ht
          rw [hpush.1, hid, hstored] at ht
          cases ht
          exact hfinal

theorem Inv.onSendMessage_touched (h : Inv s) :
    ∃ id, Touched id (s.determineTaskId params = .ok none → s.tasks.lookup params.generatedTaskId = none) s
      (s.onSendMessage params) := by
  rw [onSendMessage.eq_def]
  rcases hprepare : s.prepareTask params with ⟨s₁, found⟩
  obtain ⟨id, htouched⟩ := h.prepareTask_touched hprepare
  cases found with
  | none => exact ⟨id, htouched⟩
  | some taskId =>
    exact ⟨id, htouched.quiet ((quiet_exchange.trans quiet_addUpdater).trans quiet_addEventCallback)⟩

theorem Inv.onSendMessageStreaming_touched (h : Inv s) {throws : Bool} :
    ∃ id, Touched id (s.determineTaskId params = .ok none → s.tasks.lookup params.generatedTaskId = none) s
      (s.onSendMessageStreaming params throws) := by
  rw [onSendMessageStreaming.eq_def]
  rcases hprepare : s.prepareTask params with ⟨s₁, found⟩
  obtain ⟨id, htouched⟩ := h.prepareTask_touched hprepare
  cases found with
  | none => exact ⟨id, htouched⟩
  | some taskId =>
    cases throws with
    | true => exact ⟨id, htouched⟩
    | false => exact ⟨id, htouched.quiet (quiet_addEventCallback.trans quiet_addUpdater)⟩

theorem Inv.onResubscribeToTask_touched (h : Inv s) {throws ok} : Touched taskId ok s (s.onResubscribeToTask taskId throws) := by
  rw [onResubscribeToTask]
  cases hstored : s.stored taskId with
  | none => exact h.touched_refl taskId
  | some task =>
    dsimp only
    by_cases hstops : (throws || task.status.state.isFinalOrInterrupted) = true
    · rw [if_pos hstops]
      exact h.touched_refl taskId
    · rw [if_neg hstops]
      exact (h.touched_refl taskId).quiet quiet_addEventCallback

/-! ## Updaters -/

theorem Inv.update_touched (h : Inv s) {k : ℕ} {call : UpdaterCall M P} :
    ∃ id, Touched id (Orderly s (.update k call w)) s (s.update merge k call w) := by
  rw [update]
  cases hupdater : s.updaters[k]? with
  | none => exact ⟨"", h.touched_refl ""⟩
  | some u =>
    refine ⟨u.taskId, ?_⟩
    have hunregistered : ∀ event, s.registered u.taskId = none → s.process merge u.taskId event w = s := by
      intro event hnone
      rw [process, hnone]
    -- the entry of a registered task, and the task
    have hcase : s.registered u.taskId = none ∨ ∃ info task, s.registered u.taskId = some info ∧ s.stored u.taskId = some task ∧
        (task.status.state.isFinal = true → task.status.state = .failed) := by
      cases hreg : s.registered u.taskId with
      | none => exact .inl rfl
      | some info =>
        obtain ⟨-, task, hstored, hfailed⟩ := h.registered u.taskId (contains_of_registered hreg)
        exact .inr ⟨info, task, rfl, hstored, hfailed⟩
    cases call with
    | updateStatus state message timestamp metadata =>
      dsimp only
      cases hreached : u.terminalStateReached with
      | true => exact h.touched_refl u.taskId
      | false =>
        rw [if_neg (by simp)]
        -- the flag of the updater concerns nothing but the updater
        have hflag : ∀ us, Inv ({ s with updaters := us } : Server M P) := fun us => ⟨h.filed, h.cancels, h.registered⟩
        let event : StreamEvent M P :=
          .statusUpdate u.taskId u.contextId { message := message, state := state, timestamp := some timestamp } metadata
        have hprocess : ∀ us, Touched u.taskId (Orderly s (.update k (.updateStatus state message timestamp metadata) w)) s
            (process merge { s with updaters := us } u.taskId event w) := by
          intro us
          rcases hcase with hnone | ⟨info, task, hreg, hstored, hfailed⟩
          · have hnone' : ({ s with updaters := us } : Server M P).registered u.taskId = none := hnone
            rw [process, hnone']
            exact ⟨h.filed, h.cancels, fun _ _ => ⟨rfl, rfl, fun hne => hne⟩, (h.touched_refl _).keeps, (h.touched_refl _).leaves,
              h.registered _⟩
          · have habout : About u.taskId event := rfl
            have hstay : event.isFinal = false → (nextState event task.status.state).isFinal = true →
                nextState event task.status.state = .failed := by
              intro hfinal hdone
              have hfinal : state.isFinalOrInterrupted = false := hfinal
              have hdone : state.isFinal = true := hdone
              rw [TaskState.isFinalOrInterrupted, hdone] at hfinal
              cases hfinal
            have hkeep : Orderly s (.update k (.updateStatus state message timestamp metadata) w) →
                task.status.state.isFinal = true → nextState event task.status.state = .failed ∧
                  ((∃ m, event = .message m) → ¬ Answers w 0 info.eventCb) := by
              intro horderly hfinal
              refine ⟨horderly u info task hupdater hreg hstored hreached hfinal, ?_⟩
              rintro ⟨_, hm⟩
              simp [event] at hm
            have htouched : Touched u.taskId _ _ (process merge _ u.taskId event w) :=
              (hflag us).process_touched hreg hstored habout hkeep (fun _ hfinal => .inl hfinal) hstay
            exact ⟨htouched.filed, htouched.cancels, htouched.others, htouched.keeps, htouched.leaves, htouched.stays⟩
        cases state.isFinal with
        | true => exact hprocess _
        | false => exact hprocess s.updaters
    | addArtifact artifact append lastChunk =>
      dsimp only
      cases hreached : u.terminalStateReached with
      | true => exact h.touched_refl u.taskId
      | false =>
        rw [if_neg (by simp)]
        rcases hcase with hnone | ⟨info, task, hreg, hstored, hfailed⟩
        · rw [hunregistered _ hnone]
          exact h.touched_refl u.taskId
        · have habout : About u.taskId (.artifactUpdate u.taskId u.contextId artifact (some append) (some lastChunk)
              artifact.metadata : StreamEvent M P) := rfl
          refine h.process_touched hreg hstored habout (fun _ hfinal => ⟨hfailed hfinal, ?_⟩) (fun _ hfinal => by cases hfinal)
            (fun _ => hfailed)
          rintro ⟨_, hm⟩
          cases hm
    | sendResponseMessage m =>
      dsimp only
      have htouched : Touched u.taskId (Orderly s (.update k (.sendResponseMessage m) w)) s
          (s.process merge u.taskId (.message m) w) := by
        rcases hcase with hnone | ⟨info, task, hreg, hstored, hfailed⟩
        · rw [hunregistered _ hnone]
          exact h.touched_refl u.taskId
        · have habout : About u.taskId (.message m : StreamEvent M P) := trivial
          refine h.process_touched hreg hstored habout (fun horderly hfinal => ⟨hfailed hfinal, fun _ => ?_⟩)
            (fun horderly _ => ?_) (fun hfinal => by cases hfinal)
          · exact (horderly u info task hupdater hreg hstored).1 hfinal
          have hanswers := (horderly u info task hupdater hreg hstored).2
          cases hover : task.status.state.isFinalOrInterrupted with
          | true => exact .inl hover
          | false => exact .inr ⟨⟨m, rfl⟩, hanswers hover⟩
      exact ⟨htouched.filed, htouched.cancels, htouched.others, htouched.keeps, htouched.leaves, htouched.stays⟩

/-! ## Cancellation -/

theorem Filed.setState (h : s.Filed) (o : ℕ) (state : TaskState) : (s.setState o state).Filed := by
  intro id o' ho'
  obtain ⟨hlt, hobject⟩ := h id o' ho'
  refine ⟨hlt, ?_⟩
  show (Function.update s.objects o _ o').id = id
  by_cases heq : o' = o
  · subst heq
    rw [Function.update_self]
    exact hobject
  · rw [Function.update_of_ne heq]
    exact hobject

theorem stored_setState (s : Server M P) (o : ℕ) (state : TaskState) (id : String) : (s.setState o state).stored id =
    if s.tasks.lookup id = some o then some ((s.objects o).withState state) else s.stored id := by
  show (s.tasks.lookup id).map (Function.update s.objects o _) = _
  cases hlookup : s.tasks.lookup id with
  | none =>
    rw [if_neg (by simp), stored, hlookup]
    rfl
  | some o' =>
    rw [stored, hlookup]
    by_cases heq : o' = o
    · subst heq
      rw [if_pos rfl, Option.map_some, Function.update_self]
    · rw [if_neg (by simpa using heq), Option.map_some, Option.map_some, Function.update_of_ne heq]

theorem Inv.beginCancel_touched (h : Inv s) : ∃ id, Touched id True s (s.step merge (.beginCancel taskId copy)) := by
  rw [step, beginCancel.eq_def]
  rcases hget : s.get taskId copy with ⟨s₁, fetched⟩
  cases fetched with
  | none => exact ⟨"", h.touched_refl ""⟩
  | some o =>
    dsimp only
    cases hfinal : (s₁.objects o).status.state.isFinal with
    | true => exact ⟨"", h.touched_refl ""⟩
    | false =>
      have hmarked : Marked taskId (fun _ => False) s s₁ := marked_get hget
      have hstored : ∀ id, s₁.stored id = s.stored id := by
        intro id
        cases hs : s.stored id with
        | some task =>
          rcases hmarked.stored h.filed hs with hsame | ⟨-, _, hfalse, -⟩
          · exact hsame
          · exact absurd hfalse not_false
        | none =>
          rw [Server.stored, Option.map_eq_none_iff] at hs ⊢
          rw [hmarked.tasks]
          exact hs
      have hlt : o < s₁.allocated := by
        obtain ⟨o', hlookup, ⟨-, rfl, rfl⟩ | ⟨-, rfl, rfl⟩⟩ := get_cases hget
        · exact (h.filed taskId o hlookup).1
        · exact Nat.lt_succ_self _
      refine ⟨taskId, hmarked.filed h.filed, fun o' ho' => ?_, fun id _ => ⟨hstored id, hmarked.contains id, hmarked.registered_ne_none id⟩,
        fun _ task htask hdone => ⟨task, (hstored taskId).trans htask, rfl⟩, fun _ hin hout => ?_, fun hin => ?_⟩
      · have ho' : o' ∈ s₁.cancels ++ [o] := ho'
        rcases List.mem_append.mp ho' with hold | hnew
        · exact (h.cancels o' (hmarked.cancels ▸ hold)).trans_le hmarked.allocated
        · rw [List.mem_singleton.mp hnew]
          exact hlt
      · have hout : s₁.taskExecuteMap.contains taskId = false := hout
        rw [hmarked.contains, hin] at hout
        cases hout
      · have hin : s₁.taskExecuteMap.contains taskId = true := hin
        rw [hmarked.contains] at hin
        obtain ⟨hreg, task, htask, hfailed⟩ := h.registered taskId hin
        exact ⟨hmarked.registered_ne_none taskId hreg, task, (hstored taskId).trans htask, hfailed⟩

theorem Inv.cancelTask_touched (h : Inv s) (o : ℕ) (w : Choices) :
    Touched (s.objects o).id ((s.objects o).status.state.isFinal = false → s.registered (s.objects o).id ≠ none →
      s.tasks.lookup (s.objects o).id = some o ∨
        ∃ task, s.stored (s.objects o).id = some task ∧ task.status.state.isFinalOrInterrupted = true) s (s.cancelTask o w) := by
  rw [cancelTask]
  set taskId := (s.objects o).id with hid
  cases hfinal : (s.objects o).status.state.isFinal with
  | true => exact h.touched_refl taskId
  | false =>
    dsimp only
    rw [if_neg (by simp)]
    have hfiled := h.filed.setState o .canceled
    -- the object is stored under no other id, and what is stored in a final state is another object
    have hother : ∀ id, id ≠ taskId → (s.setState o .canceled).stored id = s.stored id := by
      intro id hne
      rw [stored_setState, if_neg]
      intro hlookup
      exact hne ((h.filed id o hlookup).2.symm)
    have hkeep : ∀ task, s.stored taskId = some task → task.status.state.isFinal = true →
        (s.setState o .canceled).stored taskId = some task := by
      intro task htask hdone
      rw [stored_setState, if_neg]
      · exact htask
      · intro hlookup
        rw [Server.stored, hlookup] at htask
        cases htask
        rw [hfinal] at hdone
        cases hdone
    cases hreg : s.registered taskId with
    | none =>
      refine ⟨hfiled, h.cancels, fun id hne => ⟨hother id hne, rfl, fun hne' => hne'⟩, fun _ task htask hdone => ⟨task, hkeep task htask hdone, rfl⟩,
        fun _ hin hout => ?_, fun hin => ?_⟩
      · have hout : s.taskExecuteMap.contains taskId = false := hout
        rw [hin] at hout
        cases hout
      · exact absurd hreg (h.registered taskId hin).1
    | some info =>
      dsimp only
      have hcontains := contains_of_registered hreg
      obtain ⟨-, task, htask, hfailed⟩ := h.registered taskId hcontains
      set s₁ := s.setState o .canceled with hs₁
      let event : StreamEvent M P := .statusUpdate taskId (s.objects o).contextId { state := .canceled } none
      have hmarked : Marked taskId (Sets event (Answers w 0 info.eventCb)) s₁ (s₁.invokeAll taskId event w 0 info.eventCb) :=
        marked_invokeAll
      set s₂ := s₁.invokeAll taskId event w 0 info.eventCb
      refine ⟨hmarked.filed hfiled, fun o' ho' => ?_, fun id hne => ⟨?_, ?_, fun hne' => ?_⟩, fun _ t ht hdone => ?_, fun horderly _ _ => ?_, fun hin => ?_⟩
      · have ho' : o' ∈ s₂.cancels := ho'
        rw [hmarked.cancels] at ho'
        exact (h.cancels o' ho').trans_le hmarked.allocated
      · exact (hmarked.stored_of_ne hfiled hne).trans (hother id hne)
      · rw [Dict.contains, Dict.lookup_erase, if_neg hne]
        exact hmarked.contains id
      · rw [Server.registered, Dict.lookup_erase, if_neg hne]
        exact hmarked.registered_ne_none id hne'
      · obtain rfl : task = t := Option.some.inj (htask.symm.trans ht)
        rcases hmarked.stored hfiled (hkeep task ht hdone) with hsame | ⟨-, state, hset, hmarked'⟩
        · exact ⟨task, hsame, rfl⟩
        · refine ⟨_, hmarked', ?_⟩
          rw [hfailed hdone]
          rcases hset with rfl | ⟨-, ⟨m, hm⟩, -⟩
          · rfl
          · simp [event] at hm
      · -- the stored task is canceled, or it was over or interrupted before
        have hstored₁ : ∃ task₁, s₁.stored taskId = some task₁ ∧ task₁.status.state.isFinalOrInterrupted = true := by
          rcases horderly rfl (by simp) with hlookup | ⟨t, ht, hover⟩
          · exact ⟨_, by rw [hs₁, stored_setState, if_pos hlookup], rfl⟩
          · by_cases hlookup : s.tasks.lookup taskId = some o
            · exact ⟨_, by rw [hs₁, stored_setState, if_pos hlookup], rfl⟩
            · exact ⟨t, by rw [hs₁, stored_setState, if_neg hlookup, ht], hover⟩
        obtain ⟨task₁, htask₁, hover⟩ := hstored₁
        rcases hmarked.stored hfiled htask₁ with hsame | ⟨-, state, hset, hmarked'⟩
        · exact ⟨task₁, hsame, hover⟩
        · refine ⟨_, hmarked', ?_⟩
          show state.isFinalOrInterrupted = true
          rw [TaskState.isFinalOrInterrupted, sets_final hset]
          rfl
      · rw [Dict.contains, Dict.lookup_erase, if_pos rfl] at hin
        cases hin

/-! ## Runs -/

theorem Inv.step_touched (h : Inv s) (e : ServerEvent M P) : ∃ id, Touched id (Orderly s e) s (s.step merge e) := by
  cases e with
  | sendMessage params => exact h.onSendMessage_touched
  | sendMessageStreaming params throws => exact h.onSendMessageStreaming_touched
  | resubscribeToTask taskId throws => exact ⟨taskId, h.onResubscribeToTask_touched⟩
  | beginCancel taskId copy => exact h.beginCancel_touched
  | endCancel k w =>
    rw [step]
    cases hcancel : s.cancels[k]? with
    | none => exact ⟨"", h.touched_refl ""⟩
    | some o =>
      have htouched := h.cancelTask_touched o w
      refine ⟨_, htouched.filed, fun o' ho' => ?_, htouched.others, fun horderly => htouched.keeps (horderly o hcancel),
        fun horderly => htouched.leaves (horderly o hcancel), htouched.stays⟩
      have halloc : s.allocated ≤ (s.cancelTask o w).allocated := by
        rw [cancelTask]
        dsimp only
        by_cases hfinal : (s.objects o).status.state.isFinal = true
        · rw [if_pos hfinal]
        · rw [if_neg hfinal]
          cases s.registered (s.objects o).id with
          | none => exact le_refl _
          | some info => exact (marked_invokeAll (s := s.setState o .canceled)).allocated
      exact (h.cancels o' (List.mem_of_mem_eraseIdx ho')).trans_le halloc
  | update k call w => exact h.update_touched

theorem Inv.after (h : Inv s) (e : ServerEvent M P) : Inv (s.step merge e) := by
  obtain ⟨id, htouched⟩ := h.step_touched e
  exact htouched.inv h

theorem Inv.start (tasks : List (Task M P)) : Inv (start tasks) := by
  have hempty : Inv ({} : Server M P) :=
    ⟨fun id o ho => (by cases ho), fun o ho => (by cases ho), fun id hin => by cases hin⟩
  have hsave : ∀ (tasks : List (Task M P)) (s : Server M P), Inv s → s.taskExecuteMap = ∅ → s.cancels = [] →
      Inv (tasks.foldl save s) := by
    intro tasks
    induction tasks with
    | nil => exact fun s hs _ _ => hs
    | cons task tasks ih =>
      intro s hs hmap hcancels
      refine ih (s.save task) ⟨hs.filed.save task, fun o ho => ?_, fun id hin => ?_⟩ hmap hcancels
      · have ho : o ∈ s.cancels := ho
        rw [hcancels] at ho
        cases ho
      · have hin : s.taskExecuteMap.contains id = true := hin
        rw [hmap] at hin
        cases hin
  exact hsave tasks {} hempty rfl rfl

variable {es : List (ServerEvent M P)}

theorem Inv.lawful_along (h : Inv s) (horderly : Along (step merge) Orderly s es) :
    Along (step merge) (fun s e => Lawful s (s.step merge e)) s es := by
  refine horderly.imp h (fun s e hs _ => hs.after e) (fun s e hs he => ?_)
  obtain ⟨id, htouched⟩ := hs.step_touched e
  exact htouched.lawful he

theorem final_stays (h : Along (step merge) (fun s e => Lawful s (s.step merge e)) s es)
    (hstored : s.stored id = some task) (hfinal : task.status.state.isFinal = true) :
    ∃ task', (run (step merge) s es).stored id = some task' ∧ task'.status.state = task.status.state := by
  induction es generalizing s task with
  | nil => exact ⟨task, hstored, rfl⟩
  | cons e es ih =>
    obtain ⟨task', hstored', hstate⟩ := h.1.final id task hstored hfinal
    obtain ⟨task'', hstored'', hstate'⟩ := ih h.2 hstored' (by rw [hstate]; exact hfinal)
    exact ⟨task'', hstored'', hstate'.trans hstate⟩

/-- Over a store with any tasks in it, along every orderly run: a final state that is stored stays as it is, and a task
that leaves the execute map is final or interrupted. -/
theorem lifeCycle_of_orderly (merge : String → String → Option String) (tasks : List (Task M P)) (es : List (ServerEvent M P))
    (horderly : Along (step merge) Orderly (start tasks) es) :
    (∀ pre later, pre ++ later <+: es → ∀ id task, (run (step merge) (start tasks) pre).stored id = some task →
      task.status.state.isFinal = true →
      ∃ task', (run (step merge) (start tasks) (pre ++ later)).stored id = some task' ∧ task'.status.state = task.status.state) ∧
    ∀ pre e, pre ++ [e] <+: es → ∀ id, (run (step merge) (start tasks) pre).taskExecuteMap.contains id = true →
      (run (step merge) (start tasks) (pre ++ [e])).taskExecuteMap.contains id = false →
      ∃ task, (run (step merge) (start tasks) (pre ++ [e])).stored id = some task ∧
        task.status.state.isFinalOrInterrupted = true := by
  have hlawful := (Inv.start tasks).lawful_along horderly
  constructor
  · rintro pre later ⟨rest, rfl⟩ id task hstored hfinal
    rw [List.append_assoc, along_append, along_append] at hlawful
    rw [run_append]
    exact final_stays hlawful.2.1 hstored hfinal
  · rintro pre e ⟨rest, rfl⟩ id hin hout
    rw [List.append_assoc, along_append] at hlawful
    rw [run_append] at hout ⊢
    exact hlawful.2.1.leaves id hin hout

/-- A task that is worked on and completed. -/
theorem worked_and_completed :
    let es : List (ServerEvent String Unit) :=
      [.sendMessage { message := "hi", generatedTaskId := "t", generatedContextId := "c" },
        .update 0 (.updateStatus .working none "1" none) {}, .update 0 (.updateStatus .completed none "2" none) {}]
    let s := run (step fun _ _ => none) (start []) es
    ((s.stored "t").map fun task => task.status.state) = some .completed ∧
    ∀ pre later, pre ++ later <+: es → ∀ id task, (run (step fun _ _ => none) (start []) pre).stored id = some task →
      task.status.state.isFinal = true →
      ∃ task', (run (step fun _ _ => none) (start []) (pre ++ later)).stored id = some task' ∧
        task'.status.state = task.status.state := by
  intro es s
  refine ⟨rfl, (lifeCycle_of_orderly (fun _ _ => none) [] es ⟨fun _ => rfl, ?_, ?_, trivial⟩).1⟩
  · intro u info task hu _ hstored _ hfinal
    cases hu
    cases hstored
    cases hfinal
  · intro u info task hu _ hstored _ hfinal
    cases hu
    cases hstored
    cases hfinal

/-- A streaming request that is answered with a message leaves the execute map as it was submitted, and a task that has
failed because its stream broke is completed afterwards. The store hands out its objects here. -/
theorem streamed_tasks_break :
    let send : ServerEvent String Unit :=
      .sendMessageStreaming { message := "hi", generatedTaskId := "t", generatedContextId := "c" } false
    let answered := [send, .update 0 (.sendResponseMessage "done") {}]
    let broken := [send, .update 0 (.updateStatus .working none "1" none) { throws := fun _ => true },
      .update 0 (.updateStatus .completed none "2" none) {}]
    (¬ ∀ pre e, pre ++ [e] <+: answered → ∀ id,
      (run (step fun _ _ => none) (start []) pre).taskExecuteMap.contains id = true →
      (run (step fun _ _ => none) (start []) (pre ++ [e])).taskExecuteMap.contains id = false →
      ∃ task, (run (step fun _ _ => none) (start []) (pre ++ [e])).stored id = some task ∧
        task.status.state.isFinalOrInterrupted = true) ∧
    ¬ ∀ pre later, pre ++ later <+: broken → ∀ id task, (run (step fun _ _ => none) (start []) pre).stored id = some task →
      task.status.state.isFinal = true →
      ∃ task', (run (step fun _ _ => none) (start []) (pre ++ later)).stored id = some task' ∧
        task'.status.state = task.status.state := by
  intro send answered broken
  refine ⟨fun h => ?_, fun h => ?_⟩
  · obtain ⟨task, hstored, hover⟩ := h [send] (.update 0 (.sendResponseMessage "done") {}) (List.prefix_refl _) "t" rfl rfl
    cases hstored
    cases hover
  · obtain ⟨task, hstored, hstate⟩ := h (broken.take 2) (broken.drop 2) (List.prefix_refl _) "t" _ rfl rfl
    cases hstored
    cases hstate

end Server

end AgentProtocol.A2A
