-- SUMMARY: Cancellation on the A2A server: what the calls of an executor amount to, and exactly when the canceled task is the stored one.
import AgentProtocol.A2A.Deliveries

/-!
# Cancellation

`OnCancelTask` fetches the task, lets the executor make its calls, and then writes to what it has fetched. Whether that
is still the stored task depends on the calls of the executor. `Progress` is an account of them: the task that they
leave in the store, and whether the task is still registered. The server follows it.
-/

namespace AgentProtocol.A2A

open Lib

variable {M P : Type}

namespace Server

/-- `OnGetTask` -/
def onGetTask (s : Server M P) (id : String) (historyLength : Option ℤ) : Option (Task M P) :=
  (s.stored id).map fun task =>
    match historyLength, task.history with
    | some n, some history =>
      if 0 < n ∧ n.toNat < history.length then { task with history := some (history.drop (history.length - n.toNat)) }
      else task
    | _, _ => task

/-- `OnCancelTask`. The executor makes calls of the updater that is created for it. -/
def onCancelTask (merge : String → String → Option String) (s : Server M P) (taskId : String) (copy : Bool)
    (calls : List (UpdaterCall M P × Choices)) (w : Choices) : Server M P × Option (Task M P) :=
  match s.beginCancel taskId copy with
  | (s', none) => (s', none)
  | (s', some o) =>
    let s' := (calls.foldl (fun s' call => s'.update merge s.updaters.length call.1 call.2) s').cancelTask o w
    (s', some (s'.objects o))

/-- What is promised of the task that `OnCancelTask` returns. -/
structure Durable (s s' : Server M P) (taskId : String) (task : Task M P) : Prop where
  final : task.status.state.isFinal = true
  stored : s'.onGetTask taskId none = some task
  unregistered : s'.taskExecuteMap.contains taskId = false
  received : ∀ info, s.registered taskId = some info → ∀ c ∈ info.eventCb, s'.finals c.id = 1

end Server

/-! ## The calls of an executor -/

/-- A callback that sends the task as the answer of its request. -/
def Callback.answers (final : Bool) (callback : Callback) : Bool :=
  match callback.kind with
  | .response blocking => final || !blocking
  | .streaming => false

/-- One of these callbacks sets the stored task to failed, since its emit throws. An answer is sent once. -/
def breaks (w : Choices) (final sent : Bool) : ℕ → List Callback → Bool
  | _, [] => false
  | i, callback :: callbacks =>
    (callback.kind = .streaming || callback.answers final && !sent) && w.throws i && !w.errorCopies i ||
      breaks w final (sent || callback.answers final) (i + 1) callbacks

/-- The task of an executor that makes calls, whether the answer was sent, whether the task has left the execute map,
whether the updater takes no more updates, and whether anything was saved. -/
structure Progress (M P : Type) where
  task : Task M P
  sent : Bool
  closed : Bool
  reached : Bool := false
  saved : Bool := false

namespace Progress

def start (task : Task M P) (info : Option TaskExecuteInfo) : Progress M P :=
  { task := task, sent := (info.map TaskExecuteInfo.messageSent).getD false, closed := info.isNone }

/-- An update is saved, and the callbacks are given it. -/
def save (callbacks : List Callback) (c : Progress M P) (task : Task M P) (final : Bool) (w : Choices) : Progress M P :=
  { c with
    task := if breaks w final c.sent 0 callbacks then task.withState .failed else task
    sent := c.sent || callbacks.any (Callback.answers final)
    closed := final
    saved := true }

def call (merge : String → String → Option String) (callbacks : List Callback) (c : Progress M P) :
    UpdaterCall M P × Choices → Progress M P
  | (.updateStatus state message timestamp metadata, w) =>
    if c.reached then c
    else
      let c := { c with reached := state.isFinal }
      if c.closed then c
      else
        match c.task.pushStatusMessage.mergeMetadata merge metadata with
        | none => c
        | some task =>
          c.save callbacks { task with status := { message := message, state := state, timestamp := some timestamp } }
            state.isFinalOrInterrupted w
  | (.addArtifact artifact append _, w) =>
    if c.reached || c.closed then c else c.save callbacks (c.task.appendArtifact artifact (some append)) false w
  | (.sendResponseMessage _, _) => { c with reached := true, closed := true }

end Progress

namespace Server

/-- What the calls of an executor amount to that is given a fetched task. -/
def progress (merge : String → String → Option String) (s : Server M P) (taskId : String) (fetched : Task M P)
    (calls : List (UpdaterCall M P × Choices)) : Progress M P :=
  calls.foldl (Progress.call merge (((s.registered taskId).map TaskExecuteInfo.eventCb).getD []))
    (Progress.start fetched (s.registered taskId))

variable {s s' : Server M P} {taskId : String} {o : ℕ} {event : StreamEvent M P} {info : TaskExecuteInfo}

/-! ## What callbacks do to a registered task -/

theorem emit_objects (hlookup : s.tasks.lookup taskId = some o) (hlt : o < s.allocated) (n : ℕ) (throws errorCopy : Bool) :
    (s.emit taskId n event throws errorCopy).objects o =
      if throws && !errorCopy then (s.objects o).withState .failed else s.objects o := by
  rw [emit]
  cases throws with
  | false => rfl
  | true =>
    rw [if_pos rfl, get, hlookup]
    cases errorCopy with
    | false =>
      show Function.update s.objects o _ o = _
      rw [Function.update_self]
      rfl
    | true =>
      show Function.update (Function.update s.objects s.allocated _) s.allocated _ o = s.objects o
      rw [Function.update_of_ne hlt.ne, Function.update_of_ne hlt.ne]

theorem registered_emit (n : ℕ) (throws errorCopy : Bool) (id : String) :
    (s.emit taskId n event throws errorCopy).registered id = s.registered id := by
  rw [registered, (emit_frame n throws errorCopy).2, registered]

theorem exchange_spec (hreg : s.registered taskId = some info) : s.exchangeMessageSent taskId true =
      (s.registerTask taskId (some { info with messageSent := true }), info.messageSent) := by
  rw [exchangeMessageSent, hreg]

variable (hlookup : s.tasks.lookup taskId = some o) (hlt : o < s.allocated) (hreg : s.registered taskId = some info) (hevent : ∀ m, event ≠ .message m)
include hlookup hlt hreg hevent

theorem responseCallback_spec (n : ℕ) (blocking copy throws errorCopy : Bool) :
    let answers := event.isFinal || !blocking
    let s' := s.responseCallback taskId n blocking event copy throws errorCopy
    s'.objects o = (if answers && !info.messageSent && throws && !errorCopy then (s.objects o).withState .failed
      else s.objects o) ∧
    s'.registered taskId = some { info with messageSent := info.messageSent || answers } := by
  intro answers s'
  -- fetching changes nothing that is stored
  obtain ⟨s₁, o₁, hget⟩ : ∃ s₁ o₁, s.get taskId copy = (s₁, some o₁) := by
    rw [get, hlookup]
    cases copy with
    | true | false => exact ⟨_, _, rfl⟩
  have hs₁ : s₁.tasks.lookup taskId = some o ∧ o < s₁.allocated ∧ s₁.objects o = s.objects o ∧
      s₁.registered taskId = some info := by
    obtain ⟨o', -, ⟨-, -, rfl⟩ | ⟨-, -, rfl⟩⟩ := get_cases hget
    · exact ⟨hlookup, hlt, rfl, hreg⟩
    · exact ⟨hlookup, Nat.lt_succ_of_lt hlt, Function.update_of_ne hlt.ne _ _, hreg⟩
  obtain ⟨hlookup₁, hlt₁, hobject₁, hreg₁⟩ := hs₁
  have hs' : s' = if answers then
      if info.messageSent then s₁.registerTask taskId (some { info with messageSent := true })
      else (s₁.registerTask taskId (some { info with messageSent := true })).emit taskId n (.task (s₁.objects o₁)) throws errorCopy
      else s₁ := by
    show s.responseCallback taskId n blocking event copy throws errorCopy = _
    rw [responseCallback.eq_def, hget]
    cases event with
    | message m => exact absurd rfl (hevent m)
    | task | artifactUpdate | statusUpdate =>
      dsimp only
      rw [exchange_spec hreg₁]
      rfl
  rw [hs']
  set s₂ := s₁.registerTask taskId (some { info with messageSent := true }) with hs₂
  have hobject₂ : s₂.objects o = s.objects o := hobject₁
  have hreg₂ : s₂.registered taskId = some { info with messageSent := true } := by
    rw [hs₂, registered_registerTask, if_pos rfl]
  cases answers with
  | false => simp [hobject₁, hreg₁]
  | true =>
    cases hsent : info.messageSent with
    | true => simp [hobject₂, hreg₂]
    | false =>
      have hlookup₂ : s₂.tasks.lookup taskId = some o := hlookup₁
      have hlt₂ : o < s₂.allocated := hlt₁
      simp [emit_objects hlookup₂ hlt₂, hobject₂, hreg₂, registered_emit]

theorem invoke_spec (callback : Callback) (copy throws errorCopy : Bool) :
    let s' := s.invoke taskId event callback copy throws errorCopy
    s'.objects o = (if (callback.kind = .streaming || callback.answers event.isFinal && !info.messageSent) && throws &&
      !errorCopy then (s.objects o).withState .failed else s.objects o) ∧
    s'.registered taskId = some { info with messageSent := info.messageSent || callback.answers event.isFinal } := by
  intro s'
  let heard : Server M P := { s with received := s.received ++ [(callback.id, event)] }
  have hlookup' : heard.tasks.lookup taskId = some o := hlookup
  have hlt' : o < heard.allocated := hlt
  have hreg' : heard.registered taskId = some info := hreg
  cases hkind : callback.kind with
  | response blocking =>
    have hs' : s' = heard.responseCallback taskId callback.id blocking event copy throws errorCopy := by
      show s.invoke taskId event callback copy throws errorCopy = _
      rw [invoke, hkind]
    have hanswers : callback.answers event.isFinal = (event.isFinal || !blocking) := by rw [Callback.answers, hkind]
    obtain ⟨hobject, hsent⟩ := responseCallback_spec hlookup' hlt' hreg' hevent callback.id blocking copy throws errorCopy
    rw [hs', hanswers]
    refine ⟨?_, hsent⟩
    rw [hobject]
    simp [heard]
  | streaming =>
    have hs' : s' = heard.emit taskId callback.id event throws errorCopy := by
      show s.invoke taskId event callback copy throws errorCopy = _
      rw [invoke, hkind]
    have hanswers : callback.answers event.isFinal = false := by rw [Callback.answers, hkind]
    rw [hs', hanswers, emit_objects hlookup' hlt', registered_emit, hreg']
    simp [heard]

omit hlookup hlt hreg hevent

theorem invokeAll_spec (hfiled : s.Filed) (hlookup : s.tasks.lookup taskId = some o)
    (hreg : s.registered taskId = some info) (hevent : ∀ m, event ≠ .message m) (w : Choices) (i : ℕ)
    (callbacks : List Callback) :
    let s' := s.invokeAll taskId event w i callbacks
    s'.objects o = (if breaks w event.isFinal info.messageSent i callbacks then (s.objects o).withState .failed
      else s.objects o) ∧
    s'.registered taskId =
      some { info with messageSent := info.messageSent || callbacks.any (Callback.answers event.isFinal) } := by
  induction callbacks generalizing s i info with
  | nil => simp [invokeAll, breaks, hreg]
  | cons callback callbacks ih =>
    obtain ⟨hobject, hreg'⟩ := invoke_spec hlookup (hfiled taskId o hlookup).1 hreg hevent callback (w.copies i) (w.throws i)
      (w.errorCopies i)
    have hmarked : Marked taskId _ s (s.invoke taskId event callback (w.copies i) (w.throws i) (w.errorCopies i)) := marked_invoke
    obtain ⟨hobject', hreg''⟩ := ih (hmarked.filed hfiled) (hmarked.tasks ▸ hlookup) hreg' (i + 1)
    rw [invokeAll]
    refine ⟨?_, ?_⟩
    · rw [hobject', hobject, breaks]
      -- whoever breaks, the task is failed
      generalize ((decide (callback.kind = .streaming) || callback.answers event.isFinal && !info.messageSent) && w.throws i &&
        !w.errorCopies i) = first
      generalize breaks w event.isFinal (info.messageSent || callback.answers event.isFinal) (i + 1) callbacks = later
      cases first <;> cases later <;> rfl
    · rw [hreg'', List.any_cons, Bool.or_assoc]

variable {task : Task M P}

theorem process_spec {merge : String → String → Option String} (hfiled : s.Filed) (hreg : s.registered taskId = some info)
    (hevent : ∀ m, event ≠ .message m) (hid : task.id = taskId)
    (hsave : s.saveTaskEvent merge event = some (s.save task)) (w : Choices) :
    let s' := s.process merge taskId event w
    s'.stored taskId = some (if breaks w event.isFinal info.messageSent 0 info.eventCb then task.withState .failed else task) ∧
    s'.registered taskId = (if event.isFinal then none
      else some { info with messageSent := info.messageSent || info.eventCb.any (Callback.answers event.isFinal) }) ∧
    s'.tasks.lookup taskId = some s.allocated ∧ s'.updaters = s.updaters ∧ s.allocated ≤ s'.allocated ∧
    (∀ o, o < s.allocated → s'.objects o = s.objects o) ∧
    s'.received = s.received ++ info.eventCb.map fun c => (c.id, event) := by
  intro s'
  have hlookup : (s.save task).tasks.lookup taskId = some s.allocated := by
    rw [save, hid, Dict.lookup_set_self]
  have hreg₁ : (s.save task).registered taskId = some info := hreg
  have hmarked : Marked taskId _ (s.save task) ((s.save task).invokeAll taskId event w 0 info.eventCb) := marked_invokeAll
  have hreceived : ((s.save task).invokeAll taskId event w 0 info.eventCb).received =
      s.received ++ info.eventCb.map fun c => (c.id, event) := received_invokeAll w 0 info.eventCb
  obtain ⟨hobject, hreg₂⟩ := invokeAll_spec (hfiled.save task) hlookup hreg₁ hevent w 0 info.eventCb
  have hsaved : (s.save task).objects s.allocated = task := Function.update_self _ _ _
  rw [hsaved] at hobject
  set s₂ := (s.save task).invokeAll taskId event w 0 info.eventCb with hs₂
  have hlookup₂ : s₂.tasks.lookup taskId = some s.allocated := hmarked.tasks ▸ hlookup
  have hstored₂ := stored_eq_some.mpr ⟨_, hlookup₂, hobject⟩
  have hobjects₂ : ∀ o, o < s.allocated → s₂.objects o = s.objects o := by
    intro o ho
    have hold : (s.save task).objects o = s.objects o := Function.update_of_ne ho.ne _ _
    rcases hmarked.objects o (Nat.lt_succ_of_lt ho) with hsame | ⟨hcurrent, -⟩
    · exact hsame.trans hold
    · rw [hlookup] at hcurrent
      exact absurd (Option.some.inj hcurrent) ho.ne'
  have halloc₂ : s.allocated ≤ s₂.allocated := (Nat.le_succ _).trans hmarked.allocated
  have hs' : s' = if event.isFinal then { s₂ with taskExecuteMap := s₂.taskExecuteMap.erase taskId } else s₂ := by
    show s.process merge taskId event w = _
    rw [process, hreg]
    dsimp only
    rw [hsave]
  rw [hs']
  cases hfinal : event.isFinal with
  | true =>
    rw [hfinal] at hstored₂
    refine ⟨hstored₂, ?_, hlookup₂, hmarked.updaters, halloc₂, hobjects₂, hreceived⟩
    rw [if_pos rfl, if_pos rfl, registered_erase, if_pos rfl]
  | false =>
    rw [hfinal] at hstored₂ hreg₂
    exact ⟨hstored₂, hreg₂, hlookup₂, hmarked.updaters, halloc₂, hobjects₂, hreceived⟩

/-! ## The server follows the account -/

/-- The server while an executor makes its calls: `o` is what the handler has fetched, which is the stored object itself
if `direct`, and `k` is the updater. -/
structure Follows (callbacks : List Callback) (taskId : String) (o k : ℕ) (direct : Bool) (fetched : Task M P)
    (c : Progress M P) (s : Server M P) : Prop where
  allocated : o < s.allocated
  updater : ∃ u, s.updaters[k]? = some u ∧ u.taskId = taskId ∧ u.terminalStateReached = c.reached
  opened : c.closed = false → s.registered taskId = some ⟨c.sent, callbacks⟩ ∧ s.stored taskId = some c.task
  closed : c.closed = true → s.registered taskId = none ∧ (∀ cb ∈ callbacks, s.finals cb.id = 1) ∧
    ∃ task, s.stored taskId = some task ∧ (task = c.task ∨ task.status.state ≠ .canceled ∧ c.task.status.state ≠ .canceled)
  unsaved : c.saved = false → c.task = fetched
  kept : direct = true → c.saved = false → s.tasks.lookup taskId = some o
  aside : direct = false ∨ c.saved = true → s.tasks.lookup taskId ≠ some o ∧ s.objects o = fetched

variable {merge : String → String → Option String} {callbacks : List Callback} {k : ℕ} {direct : Bool}
  {fetched : Task M P} {c : Progress M P}

variable (h : Follows callbacks taskId o k direct fetched c s)
include h

theorem Follows.object (hopen : c.closed = false) : s.objects o = fetched := by
  by_cases haside : direct = false ∨ c.saved = true
  · exact (h.aside haside).2
  · rw [not_or, Bool.not_eq_false, Bool.not_eq_true] at haside
    have hlookup := h.kept haside.1 haside.2
    have hstored := (h.opened hopen).2
    rw [Server.stored, hlookup, Option.map_some] at hstored
    exact (Option.some.inj hstored).trans (h.unsaved haside.2)

theorem Follows.flag {u : TaskUpdaterImpl} (hid : u.taskId = taskId) :
    Follows callbacks taskId o k direct fetched { c with reached := true }
      { s with updaters := s.updaters.set k { u with terminalStateReached := true } } where
  allocated := h.allocated
  updater := by
    obtain ⟨u', hu', -⟩ := h.updater
    refine ⟨{ u with terminalStateReached := true }, ?_, hid, rfl⟩
    rw [List.getElem?_set_self (List.getElem?_eq_some_iff.mp hu').1]
  opened := h.opened
  closed := h.closed
  unsaved := h.unsaved
  kept := h.kept
  aside := h.aside

theorem Follows.save (hfiled : s.Filed) (hwaiting : Waiting s)
    (hopen : c.closed = false) (hevent : ∀ m, event ≠ .message m) (hid : task.id = taskId)
    (hsave : s.saveTaskEvent merge event = some (s.save task)) (w : Choices) :
    Follows callbacks taskId o k direct fetched (c.save callbacks task event.isFinal w) (s.process merge taskId event w) := by
  obtain ⟨hreg, -⟩ := h.opened hopen
  obtain ⟨hstored', hreg', hlookup', hupdaters', halloc', hobjects', hreceived'⟩ := process_spec hfiled hreg hevent hid hsave w
  refine ⟨h.allocated.trans_le halloc', ?_, fun hfinal => ⟨?_, hstored'⟩, fun hfinal => ⟨?_, fun cb hcb => ?_, _, hstored', .inl rfl⟩,
    fun hsaved => ?_, fun _ hsaved => ?_, fun _ => ⟨?_, ?_⟩⟩
  · rw [hupdaters']
    exact h.updater
  · have hfinal : event.isFinal = false := hfinal
    rw [hreg', hfinal, if_neg (by simp)]
    rfl
  · have hfinal : event.isFinal = true := hfinal
    rw [hreg', if_pos hfinal]
  · exact hwaiting.finals_one hreg hreceived' hfinal hcb
  · cases hsaved
  · cases hsaved
  · rw [hlookup']
    exact fun heq => h.allocated.ne' (Option.some.inj heq)
  · rw [hobjects' o h.allocated]
    exact h.object hopen

theorem Follows.message (hinv : Inv s) (hwaiting : Waiting s) (hopen : c.closed = false) (m : M) (w : Choices) :
    Follows callbacks taskId o k direct fetched { c with closed := true } (s.process merge taskId (.message m) w) := by
  obtain ⟨hreg, hstored⟩ := h.opened hopen
  have hstate : c.task.status.state ≠ .canceled := by
    obtain ⟨-, task, htask, hfailed⟩ := hinv.registered taskId (contains_of_registered hreg)
    cases hstored.symm.trans htask
    intro hcanceled
    rw [hcanceled] at hfailed
    cases hfailed rfl
  have hmarked : Marked taskId (Sets (.message m : StreamEvent M P) (Answers w 0 callbacks)) s
      (s.invokeAll taskId (.message m) w 0 callbacks) := marked_invokeAll
  have hreceived : (s.invokeAll taskId (.message m) w 0 callbacks).received =
      s.received ++ callbacks.map fun cb => (cb.id, .message m) := received_invokeAll w 0 callbacks
  set s₁ := s.invokeAll taskId (.message m) w 0 callbacks with hs₁
  have hs' : s.process merge taskId (.message m) w = { s₁ with taskExecuteMap := s₁.taskExecuteMap.erase taskId } := by
    rw [process, hreg]
    rfl
  rw [hs']
  refine ⟨h.allocated.trans_le hmarked.allocated, ?_, fun hclosed => (by cases hclosed), fun _ => ⟨?_, fun cb hcb => ?_, ?_⟩, h.unsaved,
    fun hdirect hsaved => ?_, fun haside => ⟨?_, ?_⟩⟩
  · show ∃ u, s₁.updaters[k]? = some u ∧ _
    rw [hmarked.updaters]
    exact h.updater
  · rw [registered_erase, if_pos rfl]
  · exact hwaiting.finals_one hreg hreceived rfl hcb
  · rcases hmarked.stored hinv.filed hstored with hsame | ⟨-, state, hset, hmarked'⟩
    · exact ⟨c.task, hsame, .inl rfl⟩
    · refine ⟨_, hmarked', .inr ⟨?_, hstate⟩⟩
      rcases hset with rfl | ⟨rfl, -⟩
      · exact TaskState.noConfusion
      · exact TaskState.noConfusion
  · exact hmarked.tasks ▸ h.kept hdirect hsaved
  · show s₁.tasks.lookup taskId ≠ some o
    rw [hmarked.tasks]
    exact (h.aside haside).1
  · rcases hmarked.objects o h.allocated with hsame | ⟨hlookup, -⟩
    · exact hsame.trans (h.aside haside).2
    · exact absurd hlookup (h.aside haside).1

theorem Follows.updateStatus (hfiled : s.Filed) (hwaiting : Waiting s)
    (state : TaskState) (message : Option M) (timestamp : String) (metadata : Option String) (contextId : String) (w : Choices) :
    Follows callbacks taskId o k direct fetched
      (if c.closed then c
      else
        match c.task.pushStatusMessage.mergeMetadata merge metadata with
        | none => c
        | some task =>
          c.save callbacks { task with status := { message := message, state := state, timestamp := some timestamp } }
            state.isFinalOrInterrupted w)
      (s.process merge taskId
        (.statusUpdate taskId contextId { message := message, state := state, timestamp := some timestamp } metadata) w) := by
  cases hclosed : c.closed with
  | true =>
    rw [if_pos rfl, process, (h.closed hclosed).1]
    exact h
  | false =>
    rw [if_neg (by simp)]
    obtain ⟨hreg, hstored⟩ := h.opened hclosed
    have hsave : s.saveTaskEvent merge
        (.statusUpdate taskId contextId { message := message, state := state, timestamp := some timestamp } metadata) =
        (c.task.pushStatusMessage.mergeMetadata merge metadata).map fun task =>
          s.save { task with status := { message := message, state := state, timestamp := some timestamp } } := by
      rw [saveTaskEvent, ensureTask, hstored]
    cases hmerge : c.task.pushStatusMessage.mergeMetadata merge metadata with
    | none =>
      rw [hmerge] at hsave
      rw [process, hreg]
      dsimp only
      rw [hsave]
      exact h
    | some task =>
      rw [hmerge, Option.map_some] at hsave
      have hid : ({ task with status := { message := message, state := state, timestamp := some timestamp } } : Task M P).id =
          taskId := by
        have hpush : c.task.pushStatusMessage.id = c.task.id := by
          rw [Task.pushStatusMessage]
          split <;> rfl
        exact (mergeMetadata_keeps hmerge).trans (hpush.trans (hfiled.stored_id hstored))
      have hevent : ∀ m, (.statusUpdate taskId contextId { message := message, state := state, timestamp := some timestamp }
          metadata : StreamEvent M P) ≠ .message m := fun m hm => by cases hm
      exact h.save hfiled hwaiting hclosed hevent hid hsave w

theorem Follows.addArtifact (hfiled : s.Filed) (hwaiting : Waiting s)
    (artifact : Artifact P) (append lastChunk : Option Bool) (metadata : Option String) (contextId : String) (w : Choices) :
    Follows callbacks taskId o k direct fetched
      (if c.closed then c else c.save callbacks (c.task.appendArtifact artifact append) false w)
      (s.process merge taskId (.artifactUpdate taskId contextId artifact append lastChunk metadata) w) := by
  cases hclosed : c.closed with
  | true =>
    rw [if_pos rfl, process, (h.closed hclosed).1]
    exact h
  | false =>
    rw [if_neg (by simp)]
    obtain ⟨hreg, hstored⟩ := h.opened hclosed
    have hsave : s.saveTaskEvent merge (.artifactUpdate taskId contextId artifact append lastChunk metadata) =
        some (s.save (c.task.appendArtifact artifact append)) := by
      rw [saveTaskEvent, ensureTask, hstored]
    have hid : (c.task.appendArtifact artifact append).id = taskId := by
      have hsame : (c.task.appendArtifact artifact append).id = c.task.id := rfl
      exact hsame.trans (hfiled.stored_id hstored)
    have hevent : ∀ m, (.artifactUpdate taskId contextId artifact append lastChunk metadata : StreamEvent M P) ≠ .message m :=
      fun m hm => by cases hm
    exact h.save hfiled hwaiting hclosed hevent hid hsave w

theorem Follows.call (hinv : Inv s) (hwaiting : Waiting s) (call : UpdaterCall M P × Choices) :
    Follows callbacks taskId o k direct fetched (c.call merge callbacks call) (s.update merge k call.1 call.2) := by
  obtain ⟨u, hu, hid, hreached⟩ := h.updater
  obtain ⟨call, w⟩ := call
  rw [update, hu]
  subst hid
  cases call with
  | updateStatus state message timestamp metadata =>
    show Follows _ _ _ _ _ _ (if c.reached then c else _) _
    dsimp only
    rw [hreached]
    cases hstop : c.reached with
    | true => exact h
    | false =>
      rw [if_neg Bool.false_ne_true, if_neg Bool.false_ne_true]
      cases hfinal : state.isFinal with
      | true =>
        have hflag := h.flag (rfl : u.taskId = u.taskId)
        exact hflag.updateStatus hinv.filed ⟨hwaiting.known, hwaiting.waits, hwaiting.once, hwaiting.apart⟩ state message timestamp
          metadata u.contextId w
      | false =>
        have hsame : ({ c with reached := false } : Progress M P) = c := by rw [← hstop]
        have h' : Follows callbacks u.taskId o k direct fetched { c with reached := false } s := hsame.symm ▸ h
        exact h'.updateStatus hinv.filed hwaiting state message timestamp metadata u.contextId w
  | addArtifact artifact append lastChunk =>
    show Follows _ _ _ _ _ _ (if c.reached || c.closed then c else _) _
    dsimp only
    rw [hreached]
    cases hstop : c.reached with
    | true => exact h
    | false =>
      rw [if_neg Bool.false_ne_true, Bool.false_or]
      exact h.addArtifact hinv.filed hwaiting artifact (some append) (some lastChunk) artifact.metadata u.contextId w
  | sendResponseMessage m =>
    have hended : Follows callbacks u.taskId o k direct fetched { c with closed := true } (s.process merge u.taskId (.message m) w) := by
      cases hclosed : c.closed with
      | true =>
        have hsame : ({ c with closed := true } : Progress M P) = c := by rw [← hclosed]
        rw [hsame, process, (h.closed hclosed).1]
        exact h
      | false => exact h.message hinv hwaiting hclosed m w
    exact hended.flag rfl

theorem Follows.calls (hinv : Inv s) (hwaiting : Waiting s) (calls : List (UpdaterCall M P × Choices)) :
    let s' := calls.foldl (fun s call => s.update merge k call.1 call.2) s
    Follows callbacks taskId o k direct fetched (calls.foldl (Progress.call merge callbacks) c) s' ∧ Inv s' ∧ Waiting s' := by
  induction calls generalizing c s with
  | nil => exact ⟨h, hinv, hwaiting⟩
  | cons call calls ih =>
    have hinv' : Inv (s.update merge k call.1 call.2) := hinv.after (.update k call.1 call.2)
    exact ih (h.call hinv hwaiting call) hinv' (hwaiting.update k call.1 call.2)

omit h

/-! ## Cancellation -/

theorem onGetTask_none (id : String) : s.onGetTask id none = s.stored id := by
  rw [onGetTask]
  exact Option.map_id_fun' ▸ rfl

variable {copy : Bool}

theorem beginCancel_cases (h : s.beginCancel taskId copy = (s', some o)) :
    ∃ o', s.tasks.lookup taskId = some o' ∧ (s.objects o').status.state.isFinal = false ∧
      s'.objects o = s.objects o' ∧ s'.updaters = s.updaters ++ [⟨(s.objects o').id, (s.objects o').contextId, false⟩] ∧
      s'.tasks = s.tasks ∧ s'.taskExecuteMap = s.taskExecuteMap ∧ (copy = false → o = o') ∧
      (copy = true → o = s.allocated) ∧ (s.Filed → o < s'.allocated ∧ s'.stored taskId = s.stored taskId) := by
  rw [beginCancel] at h
  rcases hget : s.get taskId copy with ⟨s₁, fetched⟩
  rw [hget] at h
  cases fetched with
  | none => cases h
  | some o₁ =>
    dsimp only at h
    cases hfinal : (s₁.objects o₁).status.state.isFinal with
    | true =>
      rw [hfinal, if_pos rfl] at h
      cases h
    | false =>
      rw [hfinal, if_neg Bool.false_ne_true] at h
      obtain ⟨o', hlookup, ⟨hcopy, rfl, rfl⟩ | ⟨hcopy, rfl, rfl⟩⟩ := get_cases hget
      · cases h
        exact ⟨o, hlookup, hfinal, rfl, rfl, rfl, rfl, fun _ => rfl, fun htrue => by (rw [hcopy] at htrue; cases htrue),
          fun hfiled => ⟨(hfiled taskId o hlookup).1, rfl⟩⟩
      · cases h
        have hobject : Function.update s.objects s.allocated (s.objects o') s.allocated = s.objects o' := Function.update_self _ _ _
        have hfinal : (Function.update s.objects s.allocated (s.objects o') s.allocated).status.state.isFinal = false := hfinal
        rw [hobject] at hfinal
        refine ⟨o', hlookup, hfinal, hobject, ?_, rfl, rfl, fun hfalse => ?_, fun _ => rfl, fun hfiled => ⟨Nat.lt_succ_self _, ?_⟩⟩
        · show s.updaters ++ [⟨(Function.update s.objects s.allocated (s.objects o') s.allocated).id,
            (Function.update s.objects s.allocated (s.objects o') s.allocated).contextId, false⟩] = _
          rw [hobject]
        · rw [hcopy] at hfalse
          cases hfalse
        · show (s.tasks.lookup taskId).map (Function.update s.objects s.allocated _) = _
          rw [Server.stored, hlookup, Option.map_some, Option.map_some, Function.update_of_ne (hfiled taskId o' hlookup).1.ne]

theorem onCancelTask_cases {calls : List (UpdaterCall M P × Choices)} {w : Choices}
    (hinv : Inv s) (hwaiting : Waiting s) (hstored : s.stored taskId = some fetched)
    (hreturn : (s.onCancelTask merge taskId copy calls w).2 = some task) :
    fetched.status.state.isFinal = false ∧ ∃ o s', Inv s' ∧ Waiting s' ∧
      Follows (((s.registered taskId).map TaskExecuteInfo.eventCb).getD []) taskId o s.updaters.length (!copy) fetched
        (s.progress merge taskId fetched calls) s' ∧
      (s.onCancelTask merge taskId copy calls w).1 = s'.cancelTask o w ∧ task = (s'.cancelTask o w).objects o := by
  rw [onCancelTask] at hreturn ⊢
  rcases hbegin : s.beginCancel taskId copy with ⟨s₁, begun⟩
  rw [hbegin] at hreturn
  cases begun with
  | none => cases hreturn
  | some o =>
    obtain ⟨o', hlookup, hfinal, hobject, hupdaters, htasks, hentries, hdirect, hcopied, hfiled⟩ := beginCancel_cases hbegin
    obtain ⟨hlt, hsame⟩ := hfiled hinv.filed
    have hfetched : s.objects o' = fetched := by
      rw [Server.stored, hlookup, Option.map_some] at hstored
      exact Option.some.inj hstored
    rw [hfetched] at hfinal hobject hupdaters
    have hid : fetched.id = taskId := hinv.filed.stored_id hstored
    have hstep : s.step merge (.beginCancel taskId copy) = { s₁ with cancels := s₁.cancels ++ [o] } := by
      rw [step, hbegin]
    have hinv₁ : Inv s₁ := by
      have hafter : Inv (s.step merge (.beginCancel taskId copy)) := hinv.after _
      rw [hstep] at hafter
      exact ⟨hafter.filed, fun o ho => hafter.cancels o (List.mem_append_left _ ho), hafter.registered⟩
    have hwaiting₁ : Waiting s₁ := by
      have hafter : Waiting (s.step merge (.beginCancel taskId copy)) := hwaiting.step _
      rw [hstep] at hafter
      exact ⟨hafter.known, hafter.waits, hafter.once, hafter.apart⟩
    have hreg : s₁.registered taskId = s.registered taskId := by rw [Server.registered, hentries, Server.registered]
    have hstart : Follows (((s.registered taskId).map TaskExecuteInfo.eventCb).getD []) taskId o s.updaters.length (!copy) fetched
        (Progress.start fetched (s.registered taskId)) s₁ := by
      refine ⟨hlt, ?_, fun hopen => ?_, fun hclosed => ?_, fun _ => rfl, fun hnot _ => ?_, fun haside => ?_⟩
      · refine ⟨_, by rw [hupdaters, List.getElem?_concat_length], hid, rfl⟩
      · cases hentry : s.registered taskId with
        | none =>
          rw [hentry] at hopen
          cases hopen
        | some info => exact ⟨by rw [hreg, hentry]; rfl, hsame.trans hstored⟩
      · cases hentry : s.registered taskId with
        | none =>
          refine ⟨hreg.trans hentry, fun cb hcb => (by cases hcb), fetched, hsame.trans hstored, .inl rfl⟩
        | some info =>
          rw [hentry] at hclosed
          cases hclosed
      · cases copy with
        | true => cases hnot
        | false =>
          rw [htasks, hdirect rfl]
          exact hlookup
      · cases copy with
        | false => rcases haside with hnot | hsaved <;> contradiction
        | true =>
          refine ⟨?_, hobject⟩
          rw [htasks, hlookup, hcopied rfl]
          exact fun heq => (hinv.filed taskId o' hlookup).1.ne (Option.some.inj heq)
    obtain ⟨hfollows, hinv', hwaiting'⟩ := hstart.calls hinv₁ hwaiting₁ calls
    exact ⟨hfinal, o, _, hinv', hwaiting', hfollows, rfl, (Option.some.inj hreturn).symm⟩

theorem Inv.not_contains (h : Inv s) (hreg : s.registered taskId = none) : s.taskExecuteMap.contains taskId = false := by
  cases hcontains : s.taskExecuteMap.contains taskId with
  | false => rfl
  | true => exact absurd hreg (h.registered taskId hcontains).1

theorem cancelTask_of_unregistered (hfinal : (s.objects o).status.state.isFinal = false)
    (hreg : s.registered (s.objects o).id = none) (w : Choices) : s.cancelTask o w = s.setState o .canceled := by
  rw [cancelTask]
  dsimp only
  rw [if_neg (by rw [hfinal]; exact Bool.false_ne_true), hreg]

theorem cancelTask_of_registered (hwaiting : Waiting s) (hfinal : (s.objects o).status.state.isFinal = false)
    (hreg : s.registered (s.objects o).id = some info) (w : Choices) :
    ∃ s₂, Marked (s.objects o).id (fun state => state = .failed) (s.setState o .canceled) s₂ ∧
      (∀ cb ∈ info.eventCb, s₂.finals cb.id = 1) ∧
      s.cancelTask o w = { s₂ with taskExecuteMap := s₂.taskExecuteMap.erase (s.objects o).id } := by
  let event : StreamEvent M P := .statusUpdate (s.objects o).id (s.objects o).contextId { state := .canceled } none
  have hmarked : Marked (s.objects o).id (Sets event (Answers w 0 info.eventCb)) (s.setState o .canceled)
      ((s.setState o .canceled).invokeAll (s.objects o).id event w 0 info.eventCb) := marked_invokeAll
  have hfailed : ∀ state, Sets event (Answers w 0 info.eventCb) state → state = .failed := by
    rintro state (rfl | ⟨-, ⟨m, hm⟩, -⟩)
    · rfl
    · simp [event] at hm
  have hset : Waiting (s.setState o .canceled) := ⟨hwaiting.known, hwaiting.waits, hwaiting.once, hwaiting.apart⟩
  have hreg' : (s.setState o .canceled).registered (s.objects o).id = some info := hreg
  refine ⟨_, hmarked.mono hfailed, fun cb hcb => hset.finals_one hreg' (received_invokeAll w 0 info.eventCb) rfl hcb, ?_⟩
  rw [cancelTask]
  dsimp only
  rw [if_neg (by rw [hfinal]; exact Bool.false_ne_true), hreg]

variable {s₀ : Server M P}

theorem Follows.durable (h : Follows callbacks taskId o k true fetched c s) (hsaved : c.saved = false)
    (hinv : Inv s) (hwaiting : Waiting s) (hfinal : fetched.status.state.isFinal = false)
    (hcallbacks : ∀ info, s₀.registered taskId = some info → info.eventCb = callbacks) (w : Choices) :
    Durable s₀ (s.cancelTask o w) taskId ((s.cancelTask o w).objects o) := by
  have hlookup := h.kept rfl hsaved
  have hid : (s.objects o).id = taskId := (hinv.filed taskId o hlookup).2
  have hcanceled : (s.setState o .canceled).objects o = (s.objects o).withState .canceled := Function.update_self _ _ _
  cases hclosed : c.closed with
  | true =>
    obtain ⟨hreg, hreceived, -⟩ := h.closed hclosed
    cases hdone : (s.objects o).status.state.isFinal with
    | true =>
      have hsame : s.cancelTask o w = s := by
        rw [cancelTask]
        dsimp only
        rw [if_pos hdone]
      rw [hsame]
      refine ⟨hdone, ?_, hinv.not_contains hreg, fun info hinfo cb hcb => hreceived cb (hcallbacks info hinfo ▸ hcb)⟩
      rw [onGetTask_none, Server.stored, hlookup, Option.map_some]
    | false =>
      rw [cancelTask_of_unregistered hdone (hid.symm ▸ hreg), hcanceled]
      refine ⟨rfl, ?_, hinv.not_contains hreg, fun info hinfo cb hcb => hreceived cb (hcallbacks info hinfo ▸ hcb)⟩
      rw [onGetTask_none, stored_setState, if_pos hlookup]
  | false =>
    obtain ⟨hreg, -⟩ := h.opened hclosed
    have hopen : (s.objects o).status.state.isFinal = false := by
      rw [h.object hclosed]
      exact hfinal
    obtain ⟨s₂, hmarked, hreceived, hcancel⟩ := cancelTask_of_registered hwaiting hopen (hid.symm ▸ hreg) w
    rw [hcancel]
    refine ⟨?_, ?_, ?_, fun info hinfo cb hcb => hreceived cb (hcallbacks info hinfo ▸ hcb)⟩
    · show (s₂.objects o).status.state.isFinal = true
      rcases hmarked.objects o h.allocated with hsame | ⟨-, state, rfl, hfailed⟩
      · rw [hsame, hcanceled]
        rfl
      · rw [hfailed]
        rfl
    · rw [onGetTask_none]
      show (s₂.tasks.lookup taskId).map s₂.objects = some (s₂.objects o)
      rw [hmarked.tasks]
      show (s.tasks.lookup taskId).map s₂.objects = some (s₂.objects o)
      rw [hlookup, Option.map_some]
    · show Dict.contains (s₂.taskExecuteMap.erase (s.objects o).id) taskId = false
      rw [Dict.contains, Dict.lookup_erase, if_pos hid.symm]
      rfl

theorem Follows.durable_iff (h : Follows callbacks taskId o k direct fetched c s)
    (haside : direct = false ∨ c.saved = true) (hinv : Inv s) (hwaiting : Waiting s)
    (hfinal : fetched.status.state.isFinal = false) (hid : fetched.id = taskId)
    (hcallbacks : ∀ info, s₀.registered taskId = some info → info.eventCb = callbacks) (w : Choices) :
    Durable s₀ (s.cancelTask o w) taskId ((s.cancelTask o w).objects o) ↔ c.task = fetched.withState .canceled := by
  obtain ⟨hlookup, hobject⟩ := h.aside haside
  have hid' : (s.objects o).id = taskId := hobject.symm ▸ hid
  have hopen : (s.objects o).status.state.isFinal = false := hobject.symm ▸ hfinal
  have hcanceled : (s.setState o .canceled).objects o = fetched.withState .canceled := by
    rw [← hobject]
    exact Function.update_self _ _ _
  have hstate : (fetched.withState .canceled).status.state = .canceled := rfl
  cases hclosed : c.closed with
  | true =>
    obtain ⟨hreg, hreceived, task, hstored, htask⟩ := h.closed hclosed
    rw [cancelTask_of_unregistered hopen (hid'.symm ▸ hreg), hcanceled]
    have hsame : task = fetched.withState .canceled ↔ c.task = fetched.withState .canceled := by
      rcases htask with rfl | ⟨hne, hne'⟩
      · exact Iff.rfl
      · constructor
        · rintro rfl
          exact absurd hstate hne
        · intro heq
          rw [heq] at hne'
          exact absurd hstate hne'
    rw [← hsame]
    constructor
    · intro hdurable
      have hget := hdurable.stored
      rw [onGetTask_none, stored_setState, if_neg hlookup, hstored] at hget
      exact Option.some.inj hget
    · rintro rfl
      refine ⟨rfl, ?_, hinv.not_contains hreg, fun info hinfo cb hcb => hreceived cb (hcallbacks info hinfo ▸ hcb)⟩
      rw [onGetTask_none, stored_setState, if_neg hlookup, hstored]
  | false =>
    -- the task is still registered, so it is not stored as canceled, neither before nor after
    obtain ⟨hreg, hstored⟩ := h.opened hclosed
    have hnot : c.task.status.state ≠ .canceled := by
      obtain ⟨-, task, htask, hfailed⟩ := hinv.registered taskId (contains_of_registered hreg)
      cases hstored.symm.trans htask
      intro hcanceled
      rw [hcanceled] at hfailed
      cases hfailed rfl
    obtain ⟨s₂, hmarked, -, hcancel⟩ := cancelTask_of_registered hwaiting hopen (hid'.symm ▸ hreg) w
    rw [hcancel]
    constructor
    · intro hdurable
      have hget := hdurable.stored
      rw [onGetTask_none] at hget
      have hget : s₂.stored taskId = some (s₂.objects o) := hget
      have hreturned : s₂.objects o = fetched.withState .canceled := by
        rcases hmarked.objects o h.allocated with hsame | ⟨hcurrent, -⟩
        · exact hsame.trans hcanceled
        · rw [hid'] at hcurrent
          exact absurd hcurrent hlookup
      rw [hreturned] at hget
      have hstored₁ : (s.setState o .canceled).stored taskId = some c.task := by
        rw [stored_setState, if_neg hlookup, hstored]
      rcases hmarked.stored (hinv.filed.setState o .canceled) hstored₁ with hsame | ⟨-, state, rfl, hfailed⟩
      · exact Option.some.inj (hsame.symm.trans hget)
      · have heq := Option.some.inj (hfailed.symm.trans hget)
        cases congrArg (fun task => task.status.state) heq
    · intro heq
      rw [heq] at hnot
      exact absurd hstate hnot

/-- After any run, a cancellation that returns a task is durable exactly if nothing was saved in between and the store
hands out its objects, or if the executor reports itself just what the cancellation makes of the fetched task. -/
theorem onCancelTask_durable_iff (merge : String → String → Option String) (tasks : List (Task M P))
    (es : List (ServerEvent M P)) (taskId : String) (copy : Bool) (calls : List (UpdaterCall M P × Choices)) (w : Choices)
    (fetched task : Task M P) (hstored : (run (step merge) (start tasks) es).stored taskId = some fetched)
    (hreturn : ((run (step merge) (start tasks) es).onCancelTask merge taskId copy calls w).2 = some task) :
    let s := run (step merge) (start tasks) es
    let c := s.progress merge taskId fetched calls
    Durable s (s.onCancelTask merge taskId copy calls w).1 taskId task ↔
      copy = false ∧ c.saved = false ∨ c.task = fetched.withState .canceled := by
  intro s c
  obtain ⟨hinv, hwaiting⟩ : Inv s ∧ Waiting s := inv_and_waiting tasks es
  obtain ⟨hfinal, o, s', hinv', hwaiting', hfollows, hs', rfl⟩ := onCancelTask_cases hinv hwaiting hstored hreturn
  have hcallbacks : ∀ info, s.registered taskId = some info →
      info.eventCb = ((s.registered taskId).map TaskExecuteInfo.eventCb).getD [] := by
    intro info hreg
    rw [hreg]
    rfl
  rw [hs']
  by_cases hkept : copy = false ∧ c.saved = false
  · obtain ⟨rfl, hsaved⟩ := hkept
    exact ⟨fun _ => .inl ⟨rfl, hsaved⟩, fun _ => hfollows.durable hsaved hinv' hwaiting' hfinal hcallbacks w⟩
  · have haside : (!copy) = false ∨ c.saved = true := by
      cases copy with
      | true => exact .inl rfl
      | false =>
        right
        cases hsaved : c.saved with
        | true => rfl
        | false => exact absurd ⟨rfl, hsaved⟩ hkept
    rw [hfollows.durable_iff haside hinv' hwaiting' hfinal (hinv.filed.stored_id hstored) hcallbacks w]
    exact ⟨.inr, fun h => h.resolve_left hkept⟩

/-- An executor that reports itself that the task is canceled, and then answers: the canceled task is there to be fetched. -/
theorem canceled_by_executor :
    let es : List (ServerEvent String Unit) := [.sendMessage { message := "hi", generatedTaskId := "t", generatedContextId := "c" },
      .update 0 (.updateStatus .working none "1" none) {}]
    let s := run (step fun _ _ => none) (start []) es
    let r := s.onCancelTask (fun _ _ => none) "t" false [(.updateStatus .canceled none "1" none, {}), (.sendResponseMessage "bye", {})] {}
    ∃ task, r.2 = some task ∧ Durable s r.1 "t" task := by
  intro es s r
  exact ⟨_, rfl, (onCancelTask_durable_iff (fun _ _ => none) [] es "t" false _ {} _ _ rfl rfl).mpr (.inr rfl)⟩

/-- An executor that reports once that it is working: the handler returns a canceled task, and the store has a working
one. -/
theorem canceled_but_working :
    let es : List (ServerEvent String Unit) := [.sendMessage { message := "hi", generatedTaskId := "t", generatedContextId := "c" }]
    let s := run (step fun _ _ => none) (start []) es
    let r := s.onCancelTask (fun _ _ => none) "t" false [(.updateStatus .working none "1" none, {})] {}
    (r.2.map fun task => task.status.state) = some .canceled ∧
      ((r.1.onGetTask "t" none).map fun task => task.status.state) = some .working ∧
      ¬ ∀ task, r.2 = some task → Durable s r.1 "t" task := by
  intro es s r
  refine ⟨rfl, rfl, fun h => ?_⟩
  have hget := (h _ rfl).stored
  cases congrArg (Option.map fun task => task.status.state) hget

end Server

end AgentProtocol.A2A
