-- SUMMARY: ClientTaskManager beside the task manager of the server: when the client's copy of a task follows the stored one.
import AgentProtocol.A2A.TaskLife

/-!
# The task of a client

A client that subscribes to a task gets a snapshot of it and then every event that the server has saved. It keeps a copy
of the task, with rules of its own for the history, the metadata and the artifacts. A session is the server beside the
client; each event is saved by the one and then by the other.

The JSON library is a parameter: a text of metadata is parsed to the members of an object, and written again.
-/

namespace AgentProtocol.A2A

open Lib

variable {M P V : Type}

/-! ## JSON metadata -/

abbrev JsonObject (V : Type) := Finmap fun _ : String => V

def mergeJson (parse : String → Option (JsonObject V)) (dump : JsonObject V → String) (old new : String) : Option String := do
  let taskMetadata ← parse old
  let eventMetadata ← parse new
  return dump (eventMetadata ∪ taskMetadata)

/-! ## The client -/

/-- `std::variant<Task, TaskStatusUpdateEvent, TaskArtifactUpdateEvent>` -/
inductive TaskEvent (M P : Type) where
  | task (task : Task M P)
  | statusUpdate (taskId contextId : String) (status : TaskStatus M) (metadata : Option String)
  | artifactUpdate (taskId contextId : String) (artifact : Artifact P) (append lastChunk : Option Bool) (metadata : Option String)

def TaskEvent.toStream : TaskEvent M P → StreamEvent M P
  | .task t => .task t
  | .statusUpdate taskId contextId status metadata => .statusUpdate taskId contextId status metadata
  | .artifactUpdate taskId contextId artifact append lastChunk metadata =>
    .artifactUpdate taskId contextId artifact append lastChunk metadata

/-- A message at the end of a history, if there is one. -/
def pushMessage (history : Option (List M)) (message : Option M) : Option (List M) :=
  match message with
  | some message => some (history.getD [] ++ [message])
  | none => history

structure ClientTaskManager (M P : Type) where
  currentTask : Option (Task M P) := none

namespace ClientTaskManager

def appendArtifact (task : Task M P) (artifact : Artifact P) (append : Option Bool) : Task M P :=
  let list := task.artifacts.getD []
  { task with artifacts := some (
      match list.findIdx? fun a => a.artifactId = artifact.artifactId with
      | some i =>
        if append.getD false then list.modify i fun a => { a with parts := a.parts ++ artifact.parts }
        else list.modify i fun _ => artifact
      | none => list ++ [artifact]) }

def shell : TaskEvent M P → Task M P
  | .task task => task
  | .statusUpdate taskId contextId status _ => { id := taskId, contextId := contextId, status := status }
  | .artifactUpdate taskId contextId _ _ _ _ => { id := taskId, contextId := contextId, status := { state := .unspecified } }

def saveTaskEvent (m : ClientTaskManager M P) (event : TaskEvent M P) : Except String (ClientTaskManager M P) :=
  match event with
  | .task t =>
    if m.currentTask.isSome then .error "Task is already set, create new manager for new tasks."
    else .ok { currentTask := some t }
  | .statusUpdate _ _ status metadata =>
    let task := m.currentTask.getD (shell event)
    .ok { currentTask := some { task with
            history := pushMessage task.history status.message
            metadata := if metadata.isSome && task.metadata.isNone then metadata else task.metadata
            status := status } }
  | .artifactUpdate _ _ artifact append _ _ =>
    .ok { currentTask := some (appendArtifact (m.currentTask.getD (shell event)) artifact append) }

end ClientTaskManager

/-! ## Sessions -/

/-- The requests that open a stream. -/
inductive Subscription (M : Type) where
  | message (params : MessageSendParams M)
  | resubscribe (taskId : String)

structure Session (M P : Type) where
  server : Server M P
  client : ClientTaskManager M P

namespace Session

/-- The server saves an event and emits it, and the client saves what it is given. What the server throws at is not emitted. -/
def step (merge : String → String → Option String) (x : Session M P) (event : TaskEvent M P) : Session M P :=
  match x.server.saveTaskEvent merge event.toStream with
  | none => x
  | some server =>
    match x.client.saveTaskEvent event with
    | .ok client => { server := server, client := client }
    | .error _ => { x with server := server }

/-- The client's task is the stored one, in status, history, artifacts and metadata. -/
def Mirrors (taskId : String) (x : Session M P) : Prop :=
  ∃ task copy, x.server.stored taskId = some task ∧ x.client.currentTask = some copy ∧ copy.status = task.status ∧
    copy.history = task.history ∧ copy.artifacts = task.artifacts ∧ copy.metadata = task.metadata

end Session

/-- The task that a request opens a stream for, and the session that starts with the snapshot that is emitted. A message
for an existing task has the task emitted as it was before the message. -/
def Server.subscribe (s : Server M P) : Subscription M → Option (String × Session M P)
  | .message params =>
    match s.determineTaskId params, s.prepareTask params with
    | .ok existing, (s', some taskId) =>
      some (taskId, {
        server := s.onSendMessageStreaming params false
        client := { currentTask := existing.or (s'.stored taskId) } })
    | _, _ => none
  | .resubscribe taskId =>
    match s.stored taskId with
    | none => none
    | some task =>
      if task.status.state.isFinalOrInterrupted then none
      else some (taskId, { server := s.onResubscribeToTask taskId false, client := { currentTask := some task } })

/-- The task that a message resumes, and the message. -/
def Server.resumed (s : Server M P) : Subscription M → Option (Task M P × M)
  | .message params =>
    match s.determineTaskId params with
    | .ok (some task) => some (task, params.message)
    | _ => none
  | .resubscribe _ => none

section Conditions

variable (parse : String → Option (JsonObject V)) (dump : JsonObject V → String)

def IsObject (metadata : Option String) : Prop := ∀ text, metadata = some text → ∃ object, parse text = some object

/-- The event is an update of the task, and its metadata, if there are any, are a JSON object. -/
def Updates (taskId : String) : TaskEvent M P → Prop
  | .task _ => False
  | .statusUpdate id _ _ metadata => id = taskId ∧ IsObject parse metadata
  | .artifactUpdate id _ _ _ _ _ => id = taskId

/-- The metadata of an event have nothing to change in those of the task: one of the two has none, or the members are all
there, in a text that the library would write. -/
def Kept : Option String → Option String → Prop
  | some old, some new => ∀ taskMetadata eventMetadata, parse old = some taskMetadata → parse new = some eventMetadata →
      dump taskMetadata = old ∧ ∀ key value, eventMetadata.lookup key = some value → taskMetadata.lookup key = some value
  | _, _ => True

/-- The events that both sides save alike. The status message of the event is that of the status before it, the metadata
change nothing, and parts are appended to an artifact that is there. -/
def Meets (task : Task M P) : TaskEvent M P → Prop
  | .task _ => False
  | .statusUpdate _ _ status metadata => status.message = task.status.message ∧ Kept parse dump task.metadata metadata
  | .artifactUpdate _ _ artifact append _ _ =>
    append.getD false = true → ∃ a ∈ task.artifacts.getD [], a.artifactId = artifact.artifactId

/-- The first event of a task that was resumed by a message: a status update that brings the message back. -/
def Echoes (task : Task M P) (message : M) : TaskEvent M P → Prop
  | .statusUpdate _ _ status metadata =>
    task.status.message = none ∧ status.message = some message ∧ Kept parse dump task.metadata metadata
  | .task _ | .artifactUpdate _ _ _ _ _ _ => False

def MeetsAll (taskId : String) (x : Session M P) (es : List (TaskEvent M P)) : Prop :=
  Along (Session.step (mergeJson parse dump))
    (fun x e => ∀ task, x.server.stored taskId = some task → Meets parse dump task e) x es

end Conditions

/-! ## Metadata -/

section Metadata

variable {parse : String → Option (JsonObject V)} {dump : JsonObject V → String}

theorem union_eq_right_iff {o e : JsonObject V} :
    e ∪ o = o ↔ ∀ key value, e.lookup key = some value → o.lookup key = some value := by
  constructor
  · intro h key value hvalue
    rw [← h, Finmap.lookup_union_left (Finmap.lookup_isSome.mp (by simp [hvalue]))]
    exact hvalue
  · intro h
    refine Finmap.ext_lookup fun key => ?_
    cases hvalue : e.lookup key with
    | none => rw [Finmap.lookup_union_right (Finmap.lookup_eq_none.mp hvalue)]
    | some value => rw [Finmap.lookup_union_left (Finmap.lookup_isSome.mp (by simp [hvalue])), hvalue, h key value hvalue]

theorem mergeMetadata_cases (hparse : ∀ object, parse (dump object) = some object) {old new : Option String}
    (hold : IsObject parse old) (hnew : IsObject parse new) :
    ∃ merged, IsObject parse merged ∧ ((if new.isSome && old.isNone then new else old) = merged ↔ Kept parse dump old new) ∧
      ∀ task : Task M P, task.metadata = old →
        task.mergeMetadata (mergeJson parse dump) new = some { task with metadata := merged } := by
  cases old with
  | none =>
    refine ⟨new, hnew, ⟨fun _ => trivial, fun _ => by cases new <;> rfl⟩, fun task htask => ?_⟩
    rw [Task.mergeMetadata.eq_def, htask]
  | some old =>
    cases new with
    | none =>
      refine ⟨some old, hold, ⟨fun _ => trivial, fun _ => rfl⟩, fun task htask => ?_⟩
      rw [Task.mergeMetadata.eq_def, htask]
      dsimp only
      rw [← htask]
    | some new =>
      obtain ⟨o, ho⟩ := hold old rfl
      obtain ⟨e, he⟩ := hnew new rfl
      refine ⟨some (dump (e ∪ o)), fun text htext => ?_, ?_, fun task htask => ?_⟩
      · cases htext
        exact ⟨e ∪ o, hparse _⟩
      · simp only [Option.isNone_some, Bool.and_false, Bool.false_eq_true, if_false, Option.some.injEq, Kept, ho, he]
        constructor
        · rintro hsame _ _ rfl rfl
          have hunion : e ∪ o = o := by
            have hboth := hparse (e ∪ o)
            rw [← hsame, ho] at hboth
            exact (Option.some.inj hboth).symm
          exact ⟨by rw [hsame, hunion], union_eq_right_iff.mp hunion⟩
        · intro h
          obtain ⟨hdump, hmembers⟩ := h o e rfl rfl
          rw [union_eq_right_iff.mpr hmembers, hdump]
      · rw [Task.mergeMetadata.eq_def, htask]
        simp [mergeJson, ho, he]

end Metadata

/-! ## Histories and artifacts -/

theorem pushMessage_inj {history : Option (List M)} {a b : Option M} : pushMessage history a = pushMessage history b ↔ a = b := by
  have hgrows : ∀ m, history ≠ some (history.getD [] ++ [m]) := by
    intro m h
    have hlength := congrArg (fun l => (l.getD []).length) h
    simp at hlength
  constructor
  · intro h
    cases a with
    | none =>
      cases b with
      | none => rfl
      | some m => exact absurd h (hgrows m)
    | some m =>
      cases b with
      | none => exact absurd h.symm (hgrows m)
      | some m' =>
        have hlast := List.append_cancel_left (Option.some.inj h)
        rw [List.singleton_inj] at hlast
        rw [hlast]
  · exact congrArg (pushMessage history)

theorem pushMessage_resumed {history : Option (List M)} {a b : Option M} {m : M} :
    pushMessage history b = some ((pushMessage history a).getD [] ++ [m]) ↔ a = none ∧ b = some m := by
  constructor
  · intro h
    have hlength := congrArg (fun l => (l.getD []).length) h
    cases a with
    | none =>
      cases b with
      | none => simp [pushMessage] at hlength
      | some m' => exact ⟨rfl, pushMessage_inj.mp h⟩
    | some m' => cases b <;> simp [pushMessage] at hlength
  · rintro ⟨rfl, rfl⟩
    rfl

theorem pushStatusMessage_eq (task : Task M P) :
    task.pushStatusMessage = { task with history := pushMessage task.history task.status.message } := by
  rw [Task.pushStatusMessage]
  cases task.status.message <;> rfl

theorem appendArtifact_artifacts {task copy : Task M P} (hsame : copy.artifacts = task.artifacts) (artifact : Artifact P)
    (append : Option Bool) :
    (ClientTaskManager.appendArtifact copy artifact append).artifacts = (task.appendArtifact artifact append).artifacts ↔
      (append.getD false = true → ∃ a ∈ task.artifacts.getD [], a.artifactId = artifact.artifactId) := by
  simp only [ClientTaskManager.appendArtifact, Task.appendArtifact, hsame, Option.some.injEq]
  cases hfind : (task.artifacts.getD []).findIdx? fun a => a.artifactId = artifact.artifactId with
  | none =>
    have hunknown : ¬∃ a ∈ task.artifacts.getD [], a.artifactId = artifact.artifactId := by
      simpa using List.findIdx?_eq_none_iff.mp hfind
    have hany : ((task.artifacts.getD []).any fun a => a.artifactId = artifact.artifactId) = false := by
      rw [← Bool.not_eq_true, List.any_eq_true]
      simpa using hunknown
    cases append.getD false with
    | false => simp [hany]
    | true => simp [hunknown]
  | some i =>
    obtain ⟨hlt, hid, -⟩ := List.findIdx?_eq_some_iff_getElem.mp hfind
    have hknown : ∃ a ∈ task.artifacts.getD [], a.artifactId = artifact.artifactId :=
      ⟨_, List.getElem_mem hlt, by simpa using hid⟩
    have hany : ((task.artifacts.getD []).any fun a => a.artifactId = artifact.artifactId) = true := by
      rw [List.any_eq_true]
      simpa using hknown
    cases append.getD false with
    | false => simp [hany]
    | true => simp [hknown]

/-! ## One event on both sides -/

namespace Session

variable {parse : String → Option (JsonObject V)} {dump : JsonObject V → String} {x : Session M P} {taskId contextId : String}
  {task copy : Task M P}

theorem step_statusUpdate (hparse : ∀ object, parse (dump object) = some object) (hstored : x.server.stored taskId = some task)
    (hcopy : x.client.currentTask = some copy) (htask : IsObject parse task.metadata) {status : TaskStatus M}
    {metadata : Option String} (hmetadata : IsObject parse metadata) : ∃ merged, IsObject parse merged ∧
      ((if metadata.isSome && task.metadata.isNone then metadata else task.metadata) = merged ↔ Kept parse dump task.metadata metadata) ∧
      x.step (mergeJson parse dump) (.statusUpdate taskId contextId status metadata) = {
        server := x.server.save { task with
          history := pushMessage task.history task.status.message
          metadata := merged
          status := status }
        client := { currentTask := some { copy with
          history := pushMessage copy.history status.message
          metadata := if metadata.isSome && copy.metadata.isNone then metadata else copy.metadata
          status := status } } } := by
  obtain ⟨merged, hobject, hsame, hmerge⟩ := mergeMetadata_cases (M := M) (P := P) hparse htask hmetadata
  refine ⟨merged, hobject, hsame, ?_⟩
  have hserver : x.server.saveTaskEvent (mergeJson parse dump) (.statusUpdate taskId contextId status metadata) =
      some (x.server.save { task with
        history := pushMessage task.history task.status.message
        metadata := merged
        status := status }) := by
    rw [Server.saveTaskEvent, Server.ensureTask, hstored]
    dsimp only
    rw [pushStatusMessage_eq, hmerge { task with history := pushMessage task.history task.status.message } rfl]
    rfl
  rw [step, TaskEvent.toStream, hserver]
  simp only [ClientTaskManager.saveTaskEvent, hcopy, Option.getD_some]

theorem step_artifactUpdate (hstored : x.server.stored taskId = some task) (hcopy : x.client.currentTask = some copy)
    {artifact : Artifact P} {append lastChunk : Option Bool} {metadata : Option String} :
    x.step (mergeJson parse dump) (.artifactUpdate taskId contextId artifact append lastChunk metadata) = {
      server := x.server.save (task.appendArtifact artifact append)
      client := { currentTask := some (ClientTaskManager.appendArtifact copy artifact append) } } := by
  have hserver : x.server.saveTaskEvent (mergeJson parse dump)
      (.artifactUpdate taskId contextId artifact append lastChunk metadata) =
      some (x.server.save (task.appendArtifact artifact append)) := by
    rw [Server.saveTaskEvent, Server.ensureTask, hstored]
  rw [step, TaskEvent.toStream, hserver]
  simp only [ClientTaskManager.saveTaskEvent, hcopy, Option.getD_some]

theorem stored_save_self {s : Server M P} (h : s.Filed) (hid : task.id = taskId) : (s.save task).stored taskId = some task := by
  rw [h.stored_save, if_pos hid]

theorem mirrors_save_iff {s : Server M P} (h : s.Filed) (hid : task.id = taskId) :
    Mirrors taskId { server := s.save task, client := { currentTask := some copy } } ↔
      copy.status = task.status ∧ copy.history = task.history ∧ copy.artifacts = task.artifacts ∧ copy.metadata = task.metadata := by
  constructor
  · rintro ⟨t, c, ht, hc, hsame⟩
    cases (stored_save_self h hid).symm.trans ht
    cases hc
    exact hsame
  · exact fun hsame => ⟨task, copy, stored_save_self h hid, rfl, hsame⟩

/-- Both sides have a task, and the metadata of the stored one are a JSON object. -/
structure Open (parse : String → Option (JsonObject V)) (taskId : String) (x : Session M P) : Prop where
  filed : x.server.Filed
  stored : ∃ task, x.server.stored taskId = some task ∧ IsObject parse task.metadata
  copied : ∃ copy, x.client.currentTask = some copy

variable (hparse : ∀ object, parse (dump object) = some object) (h : Open parse taskId x)
include hparse h

theorem Open.step {e : TaskEvent M P} (he : Updates parse taskId e) : Open parse taskId (x.step (mergeJson parse dump) e) := by
  obtain ⟨task, hstored, hobject⟩ := h.stored
  obtain ⟨copy, hcopy⟩ := h.copied
  have hid := h.filed.stored_id hstored
  cases e with
  | task t => cases he
  | statusUpdate id contextId status metadata =>
    obtain ⟨hsame, hmetadata⟩ := he
    subst hsame
    obtain ⟨merged, hmerged, -, hstep⟩ := step_statusUpdate hparse hstored hcopy hobject hmetadata
    rw [hstep]
    exact ⟨h.filed.save _, ⟨_, stored_save_self h.filed hid, hmerged⟩, _, rfl⟩
  | artifactUpdate id contextId artifact append lastChunk metadata =>
    have hsame : id = taskId := he
    subst hsame
    rw [step_artifactUpdate hstored hcopy]
    exact ⟨h.filed.save _, ⟨_, stored_save_self h.filed hid, hobject⟩, _, rfl⟩

theorem mirrors_step_iff (hmirrors : x.Mirrors taskId) {e : TaskEvent M P} (he : Updates parse taskId e) :
    (x.step (mergeJson parse dump) e).Mirrors taskId ↔ ∀ task, x.server.stored taskId = some task → Meets parse dump task e := by
  obtain ⟨task, copy, hstored, hcopy, hstatus, hhistory, hartifacts, hmeta⟩ := hmirrors
  obtain ⟨task', hstored', hobject⟩ := h.stored
  cases hstored.symm.trans hstored'
  have hid := h.filed.stored_id hstored
  have hall : (∀ t, x.server.stored taskId = some t → Meets parse dump t e) ↔ Meets parse dump task e :=
    ⟨fun hmeets => hmeets task hstored, fun hmeets t ht => by cases hstored.symm.trans ht; exact hmeets⟩
  rw [hall]
  cases e with
  | task t => cases he
  | statusUpdate id contextId status metadata =>
    obtain ⟨hsame, hmetadata⟩ := he
    subst hsame
    obtain ⟨merged, -, hmerged, hstep⟩ := step_statusUpdate hparse hstored hcopy hobject hmetadata
    have hsaved : ({ task with
        history := pushMessage task.history task.status.message
        metadata := merged
        status := status } : Task M P).id = id := hid
    rw [hstep, mirrors_save_iff h.filed hsaved, Meets, ← hmerged]
    dsimp only
    rw [hhistory, hmeta, pushMessage_inj]
    constructor
    · exact fun hsame => ⟨hsame.2.1, hsame.2.2.2⟩
    · exact fun hsame => ⟨rfl, hsame.1, hartifacts, hsame.2⟩
  | artifactUpdate id contextId artifact append lastChunk metadata =>
    have hsame : id = taskId := he
    subst hsame
    have hsaved : (task.appendArtifact artifact append).id = id := hid
    rw [step_artifactUpdate hstored hcopy, mirrors_save_iff h.filed hsaved, Meets, ← appendArtifact_artifacts hartifacts artifact append]
    constructor
    · exact fun hsame => hsame.2.2.1
    · exact fun hsame => ⟨hstatus, hhistory, hsame, hmeta⟩

theorem along_mirrors_iff (hmirrors : x.Mirrors taskId) {es : List (TaskEvent M P)} (hes : ∀ e ∈ es, Updates parse taskId e) :
    Along (step (mergeJson parse dump)) (fun x e => (x.step (mergeJson parse dump) e).Mirrors taskId) x es ↔
      MeetsAll parse dump taskId x es := by
  induction es generalizing x with
  | nil => exact Iff.rfl
  | cons e es ih =>
    have he := hes e List.mem_cons_self
    rw [MeetsAll, along_cons, along_cons, mirrors_step_iff hparse h hmirrors he]
    refine and_congr_right fun hmeets => ?_
    exact ih (h.step hparse he) ((mirrors_step_iff hparse h hmirrors he).mpr hmeets)
      fun e' he' => hes e' (List.mem_cons_of_mem _ he')

omit hparse h

end Session

/-! ## The start of a stream -/

def Task.withMessage (task : Task M P) (message : M) : Task M P :=
  { task with
    history := some ((pushMessage task.history task.status.message).getD [] ++ [message])
    status := { task.status with message := none } }

namespace Server

variable {s : Server M P} {sub : Subscription M} {taskId : String} {x : Session M P}

theorem updateWithMessage_eq (s : Server M P) (message : M) (task : Task M P) :
    s.updateWithMessage message task = s.save (task.withMessage message) := by
  rw [updateWithMessage, pushStatusMessage_eq]
  rfl

theorem subscribe_cases (h : s.Inv) (hsub : s.subscribe sub = some (taskId, x)) : x.server.Filed ∧
      match s.resumed sub with
      | none => ∃ task, x.server.stored taskId = some task ∧ x.client.currentTask = some task
      | some (task, message) =>
        x.server.stored taskId = some (task.withMessage message) ∧ x.client.currentTask = some task := by
  cases sub with
  | resubscribe id =>
    rw [subscribe] at hsub
    rw [resumed]
    cases hstored : s.stored id with
    | none =>
      rw [hstored] at hsub
      cases hsub
    | some task =>
      rw [hstored] at hsub
      dsimp only at hsub
      split at hsub
      · cases hsub
      next hgoing =>
        cases hsub
        have hserver : s.onResubscribeToTask taskId false = s.addEventCallback taskId .streaming := by
          rw [onResubscribeToTask, hstored]
          simp [hgoing]
        have hquiet : Quiet s (s.onResubscribeToTask taskId false) := by
          rw [hserver]
          exact quiet_addEventCallback
        exact ⟨(@Inv.after M P s (fun _ _ => none) h (.resubscribeToTask taskId false)).filed, task,
          (hquiet.stored taskId).trans hstored, rfl⟩
  | message params =>
    rw [subscribe] at hsub
    rw [resumed]
    cases hdetermine : s.determineTaskId params with
    | error e =>
      rw [hdetermine] at hsub
      cases hsub
    | ok existing =>
      rcases hprepare : s.prepareTask params with ⟨s', found⟩
      rw [hdetermine, hprepare] at hsub
      cases found with
      | none => cases hsub
      | some id =>
        cases hsub
        have hfiled := (@Inv.after M P s (fun _ _ => none) h (.sendMessageStreaming params false)).filed
        have hserver : s.onSendMessageStreaming params false = (s'.addEventCallback taskId .streaming).addUpdater taskId := by
          rw [onSendMessageStreaming, hprepare]
          rfl
        have hquiet : Quiet s' (s.onSendMessageStreaming params false) := by
          rw [hserver]
          exact quiet_addEventCallback.trans quiet_addUpdater
        refine ⟨hfiled, ?_⟩
        rw [prepareTask, hdetermine] at hprepare
        cases existing with
        | none =>
          cases hprepare
          have hstored : ((s.createNewTask params).registerTask params.generatedTaskId (some {})).stored params.generatedTaskId =
              some _ := (h.filed.stored_save _ _).trans (if_pos rfl)
          exact ⟨_, (hquiet.stored _).trans hstored, hstored⟩
        | some task =>
          dsimp only at hprepare
          split at hprepare
          · cases hprepare
          cases hprepare
          refine ⟨?_, rfl⟩
          rw [hquiet.stored, updateWithMessage_eq]
          have hregistered : (s.registerTask task.id (some {})).Filed := h.filed
          exact (hregistered.stored_save _ _).trans (if_pos rfl)

end Server

namespace Session

variable {parse : String → Option (JsonObject V)} {dump : JsonObject V → String} {x : Session M P} {taskId : String}
  {task : Task M P} {message : M}

theorem mirrors_resumed_iff (hparse : ∀ object, parse (dump object) = some object) (h : Open parse taskId x)
    (hstored : x.server.stored taskId = some (task.withMessage message)) (hcopy : x.client.currentTask = some task)
    {e : TaskEvent M P} (he : Updates parse taskId e) :
    (x.step (mergeJson parse dump) e).Mirrors taskId ↔ Echoes parse dump task message e := by
  obtain ⟨task', hstored', hobject⟩ := h.stored
  cases hstored.symm.trans hstored'
  have hid := h.filed.stored_id hstored
  cases e with
  | task t => cases he
  | statusUpdate id contextId status metadata =>
    obtain ⟨hsame, hmetadata⟩ := he
    subst hsame
    obtain ⟨merged, -, hmerged, hstep⟩ := @step_statusUpdate M P V parse dump x _ contextId _ _ hparse
      hstored hcopy hobject status metadata hmetadata
    have hsaved : ({ task.withMessage message with
        history := pushMessage (task.withMessage message).history (task.withMessage message).status.message
        metadata := merged
        status := status } : Task M P).id = id := hid
    rw [hstep, mirrors_save_iff h.filed hsaved, Echoes]
    have hhistory : pushMessage task.history status.message =
        pushMessage (task.withMessage message).history (task.withMessage message).status.message ↔
        task.status.message = none ∧ status.message = some message := pushMessage_resumed
    have hmeta : (if metadata.isSome && task.metadata.isNone then metadata else task.metadata) = merged ↔
        Kept parse dump task.metadata metadata := hmerged
    dsimp only
    rw [hhistory, hmeta]
    constructor
    · exact fun hsame => ⟨hsame.2.1.1, hsame.2.1.2, hsame.2.2.2⟩
    · exact fun hsame => ⟨rfl, ⟨hsame.1, hsame.2.1⟩, rfl, hsame.2.2⟩
  | artifactUpdate id contextId artifact append lastChunk metadata =>
    have hsame : id = taskId := he
    subst hsame
    have hsaved : ((task.withMessage message).appendArtifact artifact append).id = id := hid
    rw [step_artifactUpdate hstored hcopy, mirrors_save_iff h.filed hsaved, Echoes]
    constructor
    · rintro ⟨-, hhistory, -⟩
      have hhistory : pushMessage task.history none = (task.withMessage message).history := hhistory
      obtain ⟨-, hnone⟩ := pushMessage_resumed.mp hhistory
      cases hnone
    · exact fun hfalse => hfalse.elim

end Session

/-- The condition under which a client follows its task: every event is one that both sides save alike, and where a
message has resumed the task, the first one brings the message back. -/
def Follows (parse : String → Option (JsonObject V)) (dump : JsonObject V → String) (resumed : Option (Task M P × M))
    (taskId : String) (x : Session M P) (es : List (TaskEvent M P)) : Prop :=
  match resumed, es with
  | none, es => MeetsAll parse dump taskId x es
  | some _, [] => True
  | some (task, message), e :: es =>
    Echoes parse dump task message e ∧ MeetsAll parse dump taskId (x.step (mergeJson parse dump) e) es

/-- The client's task is the stored one after every event exactly where the events meet the condition. -/
theorem mirrors_iff {parse : String → Option (JsonObject V)} {dump : JsonObject V → String}
    (hparse : ∀ object, parse (dump object) = some object) (tasks : List (Task M P)) (before : List (ServerEvent M P))
    (sub : Subscription M) {taskId : String} {x : Session M P}
    (hsub : (run (Server.step (mergeJson parse dump)) (Server.start tasks) before).subscribe sub = some (taskId, x))
    (hobject : ∀ task, x.server.stored taskId = some task → IsObject parse task.metadata) (es : List (TaskEvent M P))
    (hes : ∀ e ∈ es, Updates parse taskId e) :
    Along (Session.step (mergeJson parse dump)) (fun x e => (x.step (mergeJson parse dump) e).Mirrors taskId) x es ↔
      Follows parse dump ((run (Server.step (mergeJson parse dump)) (Server.start tasks) before).resumed sub) taskId x es := by
  have hinv : (run (Server.step (mergeJson parse dump)) (Server.start tasks) before).Inv :=
    run_invariant (Server.Inv.start tasks) fun _ e h => h.after e
  obtain ⟨hfiled, hstart⟩ := Server.subscribe_cases hinv hsub
  cases hresumed : (run (Server.step (mergeJson parse dump)) (Server.start tasks) before).resumed sub with
  | none =>
    rw [hresumed] at hstart
    obtain ⟨task, hstored, hcopy⟩ := hstart
    have hopen : Session.Open parse taskId x := ⟨hfiled, ⟨task, hstored, hobject task hstored⟩, task, hcopy⟩
    exact Session.along_mirrors_iff hparse hopen ⟨task, task, hstored, hcopy, rfl, rfl, rfl, rfl⟩ hes
  | some resumed =>
    obtain ⟨task, message⟩ := resumed
    rw [hresumed] at hstart
    obtain ⟨hstored, hcopy⟩ := hstart
    have hopen : Session.Open parse taskId x := ⟨hfiled, ⟨_, hstored, hobject _ hstored⟩, task, hcopy⟩
    cases es with
    | nil => exact Iff.rfl
    | cons e es =>
      have he := hes e List.mem_cons_self
      rw [Follows, along_cons, Session.mirrors_resumed_iff hparse hopen hstored hcopy he]
      refine and_congr_right fun hechoes => ?_
      exact Session.along_mirrors_iff hparse (hopen.step hparse he)
        ((Session.mirrors_resumed_iff hparse hopen hstored hcopy he).mpr hechoes) fun e' he' => hes e' (List.mem_cons_of_mem _ he')

/-- Objects without members. -/
def parseEmpty (text : String) : Option (JsonObject Empty) := if text = "\x7b\x7d" then some ∅ else none

def dumpEmpty (_ : JsonObject Empty) : String := "\x7b\x7d"

/-- A new task that is worked on, with an artifact in two parts. -/
theorem mirrors_new_task :
    let params : MessageSendParams String := { message := "hi", generatedTaskId := "t", generatedContextId := "c" }
    let merge := mergeJson parseEmpty dumpEmpty
    let x : Session String String := {
      server := (Server.start []).onSendMessageStreaming params false
      client := { currentTask := some { id := "t", contextId := "c", status := { state := .submitted }, history := some ["hi"] } } }
    let es : List (TaskEvent String String) :=
      [.statusUpdate "t" "c" { state := .working } (some "\x7b\x7d"),
        .artifactUpdate "t" "c" { artifactId := "a", parts := ["1"] } none none none,
        .artifactUpdate "t" "c" { artifactId := "a", parts := ["2"] } (some true) none none]
    Along (Session.step merge) (fun x e => (x.step merge e).Mirrors "t") x es := by
  intro params merge x es
  have hparse : ∀ object, parseEmpty (dumpEmpty object) = some object := fun object =>
    congrArg some (Finmap.ext_lookup fun key => Subsingleton.elim _ _)
  have hobject : IsObject parseEmpty (some "\x7b\x7d") := fun text htext => by
    cases htext
    exact ⟨∅, rfl⟩
  refine (mirrors_iff hparse [] [] (.message params) rfl (fun task htask => ?_) es fun e he => ?_).mpr ⟨?_, ?_, ?_, trivial⟩
  · cases htask
    exact fun text htext => by cases htext
  · simp only [es, List.mem_cons, List.not_mem_nil, or_false] at he
    rcases he with rfl | rfl | rfl
    · exact ⟨rfl, hobject⟩
    · exact rfl
    · exact rfl
  · intro task htask
    cases htask
    exact ⟨rfl, trivial⟩
  · intro task htask
    cases htask
    exact fun happend => by cases happend
  · intro task htask
    cases htask
    exact fun _ => ⟨_, List.mem_singleton_self _, rfl⟩

/-- A client does not follow a new task whose status comes with a message, or whose first artifact comes as parts to append. -/
theorem not_mirrored :
    let params : MessageSendParams String := { message := "hi", generatedTaskId := "t", generatedContextId := "c" }
    let merge := mergeJson parseEmpty dumpEmpty
    let x : Session String String := {
      server := (Server.start []).onSendMessageStreaming params false
      client := { currentTask := some { id := "t", contextId := "c", status := { state := .submitted }, history := some ["hi"] } } }
    (Server.start []).subscribe (.message params) = some ("t", x) ∧
      ¬(x.step merge (.statusUpdate "t" "c" { message := some "thinking", state := .working } none)).Mirrors "t" ∧
      ¬(x.step merge (.artifactUpdate "t" "c" { artifactId := "a", parts := ["1"] } (some true) none none)).Mirrors "t" := by
  intro params merge x
  refine ⟨rfl, ?_, ?_⟩
  · rintro ⟨task, copy, htask, hcopy, -, hhistory, -⟩
    cases htask
    cases hcopy
    cases hhistory
  · rintro ⟨task, copy, htask, hcopy, -, -, hartifacts, -⟩
    cases htask
    cases hcopy
    cases hartifacts

end AgentProtocol.A2A
