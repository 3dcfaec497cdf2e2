-- SUMMARY: The A2A server: tasks as objects that a store hands out, the task manager, updaters, callbacks, and the request handler.
import AgentProtocol.Lib.Table

/-!
# Tasks of the A2A server

The store keeps a map from ids to task objects. `Save` puts a new object there; `Get` hands out the object itself, or a
copy of it. Most callers only read what they get, or copy it at once. Three of them write to it: the callbacks of
requests, which set a state on the object they have fetched, and `OnCancelTask`, which keeps its pointer while the
executor runs. So objects have addresses here.

What the environment decides is an input of each step: whether a `Get` that is written to hands out a copy, and whether
the transport throws when a callback emits.
-/

namespace AgentProtocol.A2A

open Lib

inductive TaskState where
  | submitted
  | working
  | inputRequired
  | completed
  | canceled
  | failed
  | rejected
  | authRequired
  | unspecified
  deriving DecidableEq

namespace TaskState

def isFinal (state : TaskState) : Bool :=
  state = .completed || state = .canceled || state = .failed || state = .rejected

def isInterrupted (state : TaskState) : Bool := state = .inputRequired || state = .authRequired

def isFinalOrInterrupted (state : TaskState) : Bool := state.isFinal || state.isInterrupted

end TaskState

/-- `M` stands for messages and `P` for the parts of an artifact. -/
structure Artifact (P : Type) where
  artifactId : String
  description : Option String := none
  extensions : Option (List String) := none
  metadata : Option String := none
  name : Option String := none
  parts : List P := []

structure TaskStatus (M : Type) where
  message : Option M := none
  state : TaskState := .unspecified
  timestamp : Option String := none

structure Task (M P : Type) where
  artifacts : Option (List (Artifact P)) := none
  contextId : String := ""
  history : Option (List M) := none
  id : String := ""
  metadata : Option String := none
  status : TaskStatus M := {}

inductive StreamEvent (M P : Type) where
  | task (task : Task M P)
  | message (message : M)
  | artifactUpdate (taskId contextId : String) (artifact : Artifact P) (append lastChunk : Option Bool) (metadata : Option String)
  | statusUpdate (taskId contextId : String) (status : TaskStatus M) (metadata : Option String)

variable {M P : Type}

/-- `IsFinalEvent` -/
def StreamEvent.isFinal : StreamEvent M P → Bool
  | .task t => t.status.state.isFinalOrInterrupted || t.status.state = .unspecified
  | .message _ => true
  | .artifactUpdate _ _ _ _ _ _ => false
  | .statusUpdate _ _ status _ => status.state.isFinalOrInterrupted

namespace Task

/-- The status message moves to the history. -/
def pushStatusMessage (task : Task M P) : Task M P :=
  match task.status.message with
  | some message => { task with history := some (task.history.getD [] ++ [message]) }
  | none => task

def appendArtifact (task : Task M P) (artifact : Artifact P) (append : Option Bool) : Task M P :=
  let list := task.artifacts.getD []
  let known := list.any fun a => a.artifactId = artifact.artifactId
  let change (f : Artifact P → Artifact P) : List (Artifact P) :=
    match list.findIdx? fun a => a.artifactId = artifact.artifactId with
    | some i => list.modify i f
    | none => list
  { task with artifacts := some (
      if append.getD false then change fun a => { a with parts := a.parts ++ artifact.parts }
      else if known then change fun _ => artifact
      else list ++ [artifact]) }

/-- Metadata of an event go over those of the task. The JSON library is `merge`; it fails where it throws. -/
def mergeMetadata (merge : String → String → Option String) (task : Task M P) (metadata : Option String) :
    Option (Task M P) :=
  match task.metadata, metadata with
  | none, _ => some { task with metadata := metadata }
  | some _, none => some task
  | some old, some new => (merge old new).map fun merged => { task with metadata := some merged }

def withState (task : Task M P) (state : TaskState) : Task M P := { task with status := { task.status with state := state } }

end Task

/-! ## The server -/

/-- Which lambda a callback is: that of `OnSendMessage`, or that of streaming requests and resubscriptions. -/
inductive CallbackKind where
  | response (blocking : Bool)
  | streaming
  deriving DecidableEq

structure Callback where
  id : ℕ
  kind : CallbackKind

structure TaskExecuteInfo where
  messageSent : Bool := false
  eventCb : List Callback := []

structure TaskUpdaterImpl where
  taskId : String
  contextId : String
  terminalStateReached : Bool := false

/-- The server: the objects with the map of the store over them, `taskExecuteMap_` with its null entries, updaters,
callbacks by number, the pointers of the cancellations that wait for their executor, the events that callbacks were
given and the events that were emitted. -/
structure Server (M P : Type) where
  objects : ℕ → Task M P := fun _ => {}
  allocated : ℕ := 0
  tasks : Dict String ℕ := ∅
  taskExecuteMap : Dict String (Option TaskExecuteInfo) := ∅
  updaters : List TaskUpdaterImpl := []
  callbacks : ℕ := 0
  cancels : List ℕ := []
  received : List (ℕ × StreamEvent M P) := []
  emitted : List (ℕ × StreamEvent M P) := []

/-- What the environment decides about the callbacks of one step, by their place in the list: whether the task that a
callback fetches is a copy, whether its emit throws, and whether the task that its error handler fetches is a copy. -/
structure Choices where
  copies : ℕ → Bool := fun _ => false
  throws : ℕ → Bool := fun _ => false
  errorCopies : ℕ → Bool := fun _ => false

namespace Server

def save (s : Server M P) (task : Task M P) : Server M P :=
  { s with
    objects := Function.update s.objects s.allocated task
    allocated := s.allocated + 1
    tasks := s.tasks.set task.id s.allocated }

def stored (s : Server M P) (taskId : String) : Option (Task M P) := (s.tasks.lookup taskId).map s.objects

/-- `Get` for a caller that writes to the object. -/
def get (s : Server M P) (taskId : String) (copy : Bool) : Server M P × Option ℕ :=
  match s.tasks.lookup taskId with
  | none => (s, none)
  | some o =>
    if copy then
      ({ s with objects := Function.update s.objects s.allocated (s.objects o), allocated := s.allocated + 1 }, some s.allocated)
    else (s, some o)

/-- `task->status.state = state` -/
def setState (s : Server M P) (o : ℕ) (state : TaskState) : Server M P :=
  { s with objects := Function.update s.objects o ((s.objects o).withState state) }

/-- The entry of `taskExecuteMap_`, if there is one and it is not null. -/
def registered (s : Server M P) (taskId : String) : Option TaskExecuteInfo := (s.taskExecuteMap.lookup taskId).join

def registerTask (s : Server M P) (taskId : String) (info : Option TaskExecuteInfo) : Server M P :=
  { s with taskExecuteMap := s.taskExecuteMap.set taskId info }

def exchangeMessageSent (s : Server M P) (taskId : String) (value : Bool) : Server M P × Bool :=
  match s.registered taskId with
  | some info => (s.registerTask taskId (some { info with messageSent := value }), info.messageSent)
  | none => (s, false)

/-- `AddEventCallback` -/
def addEventCallback (s : Server M P) (taskId : String) (kind : CallbackKind) : Server M P :=
  let s' := { s with callbacks := s.callbacks + 1 }
  match s.registered taskId with
  | some info => s'.registerTask taskId (some { info with eventCb := info.eventCb ++ [⟨s.callbacks, kind⟩] })
  | none => s'

/-! ## Callbacks -/

/-- An emit of a callback. If it throws, the error handler sets the task that it fetches to failed. -/
def emit (s : Server M P) (taskId : String) (id : ℕ) (event : StreamEvent M P) (throws errorCopy : Bool) : Server M P :=
  if throws then
    match s.get taskId errorCopy with
    | (s, some o) => s.setState o .failed
    | (s, none) => s
  else { s with emitted := s.emitted ++ [(id, event)] }

/-- The lambda of `OnSendMessage`. -/
def responseCallback (s : Server M P) (taskId : String) (id : ℕ) (blocking : Bool) (event : StreamEvent M P)
    (copy throws errorCopy : Bool) : Server M P :=
  match s.get taskId copy with
  | (s, none) => s
  | (s, some o) =>
    match event with
    | .message _ =>
      let (s, sent) := (s.setState o .completed).exchangeMessageSent taskId true
      if sent then s else s.emit taskId id event throws errorCopy
    | _ =>
      if event.isFinal || !blocking then
        let (s, sent) := s.exchangeMessageSent taskId true
        if sent then s else s.emit taskId id (.task (s.objects o)) throws errorCopy
      else s

def invoke (s : Server M P) (taskId : String) (event : StreamEvent M P) (callback : Callback)
    (copy throws errorCopy : Bool) : Server M P :=
  let s := { s with received := s.received ++ [(callback.id, event)] }
  match callback.kind with
  | .response blocking => s.responseCallback taskId callback.id blocking event copy throws errorCopy
  | .streaming => s.emit taskId callback.id event throws errorCopy

/-- `for (const auto& callback : info->eventCb)`, from the `i`th place on. -/
def invokeAll (s : Server M P) (taskId : String) (event : StreamEvent M P) (w : Choices) : ℕ → List Callback → Server M P
  | _, [] => s
  | i, callback :: callbacks =>
    (s.invoke taskId event callback (w.copies i) (w.throws i) (w.errorCopies i)).invokeAll taskId event w (i + 1) callbacks

/-! ## Events -/

/-- `EnsureTaskForEvent` -/
def ensureTask (s : Server M P) (taskId contextId : String) : Server M P × Task M P :=
  match s.stored taskId with
  | some task => (s, task)
  | none =>
    let task : Task M P := { id := taskId, contextId := contextId, status := { state := .submitted } }
    ((s.registerTask taskId none).save task, task)

/-- `SaveTaskEvent`. There is no result if it throws, which is before anything is saved. -/
def saveTaskEvent (merge : String → String → Option String) (s : Server M P) : StreamEvent M P → Option (Server M P)
  | .task task => some (s.save task)
  | .message _ => some s
  | .artifactUpdate taskId contextId artifact append _ _ =>
    let (s, task) := s.ensureTask taskId contextId
    some (s.save (task.appendArtifact artifact append))
  | .statusUpdate taskId contextId status metadata =>
    let (s, task) := s.ensureTask taskId contextId
    (task.pushStatusMessage.mergeMetadata merge metadata).map fun task => s.save { task with status := status }

def process (merge : String → String → Option String) (s : Server M P) (taskId : String) (event : StreamEvent M P)
    (w : Choices) : Server M P :=
  match s.registered taskId with
  | none => s
  | some info =>
    match s.saveTaskEvent merge event with
    | none => s
    | some s =>
      let s := s.invokeAll taskId event w 0 info.eventCb
      if event.isFinal then { s with taskExecuteMap := s.taskExecuteMap.erase taskId } else s

end Server

/-- The calls of a `TaskUpdater`. A timestamp that is not given is the current one, and an artifact id that is not given
is generated. -/
inductive UpdaterCall (M P : Type) where
  | updateStatus (state : TaskState) (message : Option M) (timestamp : String) (metadata : Option String)
  | addArtifact (artifact : Artifact P) (append lastChunk : Bool)
  | sendResponseMessage (message : M)

/-- What the handler reads of the parameters of a message, and the ids that it generates if it needs them. -/
structure MessageSendParams (M : Type) where
  message : M
  taskId : Option String := none
  contextId : Option String := none
  returnImmediately : Option Bool := none
  generatedTaskId : String
  generatedContextId : String

namespace Server

variable (merge : String → String → Option String)

def update (s : Server M P) (k : ℕ) (call : UpdaterCall M P) (w : Choices) : Server M P :=
  match s.updaters[k]? with
  | none => s
  | some u =>
    let reached (s : Server M P) : Server M P := { s with updaters := s.updaters.set k { u with terminalStateReached := true } }
    match call with
    | .updateStatus state message timestamp metadata =>
      if u.terminalStateReached then s
      else
        (if state.isFinal then reached s else s).process merge u.taskId
          (.statusUpdate u.taskId u.contextId { message := message, state := state, timestamp := some timestamp } metadata) w
    | .addArtifact artifact append lastChunk =>
      if u.terminalStateReached then s
      else
        s.process merge u.taskId
          (.artifactUpdate u.taskId u.contextId artifact (some append) (some lastChunk) artifact.metadata) w
    | .sendResponseMessage message => reached (s.process merge u.taskId (.message message) w)

/-! ## The request handler -/

/-- `DetermineTaskId`: a new task, an existing one, or an error. -/
def determineTaskId (s : Server M P) (params : MessageSendParams M) : Except String (Option (Task M P)) :=
  match params.taskId with
  | none => .ok none
  | some taskId =>
    if taskId = "" then .ok none
    else
      match s.stored taskId with
      | none => .error "Task id not found"
      | some task =>
        match params.contextId with
        | none => .ok (some task)
        | some contextId =>
          if contextId ≠ "" ∧ task.contextId ≠ contextId then .error "Existing task contextId does not match requested contextId"
          else .ok (some task)

/-- `UpdateWithMessage` -/
def updateWithMessage (s : Server M P) (message : M) (task : Task M P) : Server M P :=
  let task := task.pushStatusMessage
  s.save { task with
    status := { task.status with message := none }
    history := some (task.history.getD [] ++ [message]) }

/-- `CreateNewTask` -/
def createNewTask (s : Server M P) (params : MessageSendParams M) : Server M P :=
  s.save {
    id := params.generatedTaskId
    contextId := params.contextId.getD params.generatedContextId
    status := { state := .submitted }
    history := some [params.message] }

/-- The task of a message is found or created, and registered; the result is its id. -/
def prepareTask (s : Server M P) (params : MessageSendParams M) : Server M P × Option String :=
  match s.determineTaskId params with
  | .error _ => (s, none)
  | .ok none => ((s.createNewTask params).registerTask params.generatedTaskId (some {}), some params.generatedTaskId)
  | .ok (some task) =>
    if task.status.state.isFinal then (s, none)
    else ((s.registerTask task.id (some {})).updateWithMessage params.message task, some task.id)

/-- A new updater for a task; `GetContextId` gives its context. -/
def addUpdater (s : Server M P) (taskId : String) : Server M P :=
  { s with updaters := s.updaters ++ [{ taskId := taskId, contextId := ((s.stored taskId).map Task.contextId).getD "" }] }

/-- `OnSendMessage`, up to the calls that the executor makes. -/
def onSendMessage (s : Server M P) (params : MessageSendParams M) : Server M P :=
  match s.prepareTask params with
  | (s, none) => s
  | (s, some taskId) =>
    ((s.exchangeMessageSent taskId false).1.addUpdater taskId).addEventCallback taskId
      (.response (!params.returnImmediately.getD false))

/-- `OnSendMessageStreaming`, up to the calls that the executor makes. The handler emits the task first. -/
def onSendMessageStreaming (s : Server M P) (params : MessageSendParams M) (throws : Bool) : Server M P :=
  match s.prepareTask params with
  | (s, none) => s
  | (s, some taskId) => if throws then s else (s.addEventCallback taskId .streaming).addUpdater taskId

/-- `OnResubscribeToTask`. The handler emits the task first. -/
def onResubscribeToTask (s : Server M P) (taskId : String) (throws : Bool) : Server M P :=
  match s.stored taskId with
  | none => s
  | some task =>
    if throws || task.status.state.isFinalOrInterrupted then s else s.addEventCallback taskId .streaming

/-- The first part of `OnCancelTask`: the task is fetched, and the executor gets an updater for it. -/
def beginCancel (s : Server M P) (taskId : String) (copy : Bool) : Server M P × Option ℕ :=
  match s.get taskId copy with
  | (_, none) => (s, none)
  | (s', some o) =>
    if (s'.objects o).status.state.isFinal then (s, none)
    else
      ({ s' with updaters := s'.updaters ++ [{ taskId := (s'.objects o).id, contextId := (s'.objects o).contextId }] }, some o)

def cancelTask (s : Server M P) (o : ℕ) (w : Choices) : Server M P :=
  let task := s.objects o
  if task.status.state.isFinal then s
  else
    match s.registered task.id with
    | none => s.setState o .canceled
    | some info =>
      let s := (s.setState o .canceled).invokeAll task.id
        (.statusUpdate task.id task.contextId { state := .canceled } none) w 0 info.eventCb
      { s with taskExecuteMap := s.taskExecuteMap.erase task.id }

end Server

end AgentProtocol.A2A
