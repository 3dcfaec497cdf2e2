-- SUMMARY: The runtime mode of the instances: operations that create and delete instances at the runtime under a lock, beside the record mode.
import AgentProtocol.Lib.Except
import AgentProtocol.Lib.Run
import AgentProtocol.Lib.Text
import AgentProtocol.Tables.Backends
import AgentProtocol.Instance.Service

/-!
# Instances at the runtime

The runtime mode of `InstanceService`, for one service id: an instance is created or deleted at the
runtime first and recorded afterwards. The operations on an id take its lock and hold it while they wait
for the runtime. The operations of the record mode are not kept out by the lock.

An operation runs without interruption from one wait to the next, which is one step. What the runtime
answers is arbitrary, and the writes to the table succeed. The runtime is not told of in the state: a call
is in flight while the operation waits for its answer.
-/

namespace AgentProtocol.Instance

open Lib Tables Text

/-! ## Requests -/

structure RuntimeSpec where
  runtime : String := ""
  /-- `rootfs.imageurl`; there is none if `rootfs` is no object. -/
  imageurl : Option String := none
  deriving DecidableEq

/-- The payload of a creation, except for the name and for what the runtime alone reads. -/
structure CreateRequest where
  version : String := ""
  workspace : String := ""
  runtimeSpec : Option RuntimeSpec := none
  imageName : String := ""
  deriving DecidableEq

/-- Exceptions of the client, with their texts. -/
inductive YuanrongError where
  | value (text : String)
  | timeout (text : String)
  | api (text : String)
  | other (text : String)
  deriving DecidableEq

/-- What an operation raises. -/
inductive RuntimeError where
  | missingField (field : String)
  | workspaceNotAbsolute (workspace : String)
  | notUserAndFramework (name : String)
  | specNotObject
  | noRuntime
  | noImageurl
  | invalid (text : String)
  | notConfigured
  | inProgress (serviceId : String)
  | timeout (text : String)
  | failed (text : String)
  | repo (e : RepoError)
  | client (e : YuanrongError)
  deriving DecidableEq

def splitServiceId (name : String) : Except RuntimeError (String × String) :=
  let (user, framework) := (splitOnce ['+'] name.toList).getD (name.toList, [])
  if stripChars isSpace user = [] ∨ stripChars isSpace framework = [] then .error (.notUserAndFramework name)
  else .ok (String.ofList user, String.ofList framework)

def validateRuntimeSpec : Option RuntimeSpec → Except RuntimeError Unit
  | none => .error .specNotObject
  | some spec =>
    if strip spec.runtime = "" then .error .noRuntime
    else if strip (spec.imageurl.getD "") = "" then .error .noImageurl
    else .ok ()

/-- The checks of a creation; the user and the framework. -/
def checkCreate (name : String) (req : CreateRequest) : Except RuntimeError (String × String) := do
  if name = "" then .error (.missingField "name")
  else if req.version = "" then .error (.missingField "version")
  else if req.workspace = "" then .error (.missingField "workspace")
  else if !startsWith req.workspace "/" then .error (.workspaceNotAbsolute req.workspace)
  else
    let parts ← splitServiceId name
    validateRuntimeSpec req.runtimeSpec
    .ok parts

/-! ## Answers of the runtime -/

/-- An instance as the runtime reports it. -/
structure AgentInstance where
  nodeIp : String := ""
  sandboxIp : String := ""
  /-- 0 if there is none. -/
  port : ℤ := 0
  status : String := ""

def AgentInstance.address (info : AgentInstance) : String :=
  if info.sandboxIp ≠ "" ∧ info.port ≠ 0 then info.sandboxIp ++ ":" ++ toString info.port else info.sandboxIp

/-- `lower`, for a character. The Kelvin sign is the other one that becomes a letter of the names below. -/
def lowerChar (c : Char) : Char := if c = '\u212A' then 'k' else c.toLower

def agentFailedStatuses : List String := ["failed", "error", "deleted", "stopped", "killed"]

def snapshotEntryStatus (info : AgentInstance) (instanceId : String) : Except RuntimeError InstanceStatus :=
  let raw := String.ofList ((stripChars isSpace info.status.toList).map lowerChar)
  if raw = "running" then .ok .running
  else if raw ∈ agentFailedStatuses then
    .error (.failed ("agent instance failed: instance_id=" ++ instanceId ++ ", status=" ++ raw))
  else .ok .stopped

/-- What a call of the client comes to: an exception, or else a sandbox or an instance. -/
structure Answer where
  failure : Option YuanrongError := none
  sandboxId : String := ""
  info : AgentInstance := {}
  /-- The time at which the operation goes on. -/
  now : String := ""

/-- Exceptions of `create_sandbox`. -/
def createError : YuanrongError → RuntimeError
  | .value text => .invalid text
  | .timeout text => .timeout text
  | .api text => .failed text
  | .other text => .client (.other text)

/-- Exceptions of the other calls. -/
def callError : YuanrongError → RuntimeError
  | .timeout text => .timeout text
  | .api text => .failed text
  | e => .client e

/-! ## Operations -/

inductive OpKind where
  | create (req : CreateRequest)
  | delete
  /-- What `delete_all_instances` does for the id. -/
  | deleteAll (withRuntime : Bool)
  deriving DecidableEq

def OpKind.deletes : OpKind → Bool
  | .delete | .deleteAll true => true
  | .create _ | .deleteAll false => false

inductive OpResult where
  | entry (e : InstanceEntry)
  | deletion (deleted : Bool) (runtimeDeleted : Option Bool) (error : Option RuntimeError)
  /-- The id is not among the rows. -/
  | notListed
  deriving DecidableEq

/-- Where an operation is: what it waits for, or how it ended. -/
inductive OpStage where
  /-- For a place among the deletions of a batch that run at a time. -/
  | listed
  /-- For the lock. -/
  | waiting
  /-- For `create_sandbox`. -/
  | creating (req : CreateRequest)
  /-- For `get_agent_info` or `wait_until_running`. -/
  | inspecting (req : CreateRequest) (instanceId : String)
  /-- For `delete_sandbox`. -/
  | deleting (instanceId : String)
  | returned (result : OpResult)
  | raised (e : RuntimeError)
  deriving DecidableEq

/-- It holds the lock. -/
def OpStage.inFlight : OpStage → Bool
  | .creating _ | .inspecting _ _ | .deleting _ => true
  | .listed | .waiting | .returned _ | .raised _ => false

structure Op where
  kind : OpKind
  stage : OpStage
  deriving DecidableEq

structure RuntimeSettings where
  /-- A client has been configured. -/
  configured : Bool := true
  /-- `wait_running_timeout_s` is not positive. -/
  waitDisabled : Bool := false

section Steps

variable {τ : Type} [TableRepo InstanceRow τ] (settings : RuntimeSettings) (sid : String)

/-- The row of the id, as it is searched for. -/
def existing (instances : τ) : Except RepoError (Option InstanceRow) :=
  (TableRepo.query instances [(.column "service_id", .text sid)]).map List.head?

/-- The entry is deleted, which ends an operation. -/
def endByDeleting (instances : τ) (runtimeDeleted : Option Bool) : τ × OpStage :=
  let p := TableRepo.deregister instances sid
  (p.1, .returned (.deletion p.2 runtimeDeleted none))

/-- `_delete_locked` up to the call of the runtime. -/
def deleteLocked (instances : τ) : τ × OpStage :=
  match existing sid instances with
  | .error e => (instances, .raised (.repo e))
  | .ok none => (instances, .returned (.deletion false (some false) none))
  | .ok (some r) =>
    if r.data.instanceId = "" then endByDeleting sid instances (some false)
    else (instances, .deleting r.data.instanceId)

/-- What an operation does once it has the lock. -/
def enter (instances : τ) : OpKind → τ × OpStage
  | .create req => match existing sid instances with
    | .error e => (instances, .raised (.repo e))
    | .ok none => (instances, .creating req)
    | .ok (some r) =>
      if r.data.status = .running then (instances, .returned (.entry (toEntry r))) else (instances, .creating req)
  | .delete => deleteLocked sid instances
  | .deleteAll true =>
    if settings.configured then deleteLocked sid instances
    else (instances, .returned (.deletion false none (some .notConfigured)))
  | .deleteAll false => endByDeleting sid instances none

/-- `_register_with_retry`. -/
def registerEntry (instances : τ) (row : String → InstanceRow) (now : String) : Except RepoError (τ × InstanceRow) := do
  let old ← existing sid instances
  TableRepo.register instances (row ((old.map (·.data.createdAt)).getD now))

/-- The last part of `create_instance_runtime`. -/
def record (instances : τ) (req : CreateRequest) (instanceId : String) (answer : Answer) : τ × OpStage :=
  match (if settings.waitDisabled then snapshotEntryStatus answer.info instanceId else .ok .running) with
  | .error e => (instances, .raised e)
  | .ok status =>
    let (user, framework) := ((checkCreate sid req).toOption).getD ("", "")
    let row (createdAt : String) : InstanceRow :=
      { serviceId := sid, kind := if framework = "jiuwenswarm" then .builtin else .thirdParty
        framework, frameworkVersion := req.version, node := answer.info.nodeIp, user
        data := { address := answer.info.address, instanceId, imageName := req.imageName
                  createdAt, lastActiveAt := answer.now, status } }
    match registerEntry sid instances row answer.now with
    | .error e => (instances, .raised (.repo e))
    | .ok (instances', stored) => (instances', .returned (.entry (toEntry stored)))

/-- What an operation does when the runtime has answered. A batch records some exceptions as its result. -/
def resume (instances : τ) (kind : OpKind) (answer : Answer) : OpStage → τ × OpStage
  | .creating req => match answer.failure with
    | some e => (instances, .raised (createError e))
    | none => (instances, .inspecting req answer.sandboxId)
  | .inspecting req instanceId => match answer.failure with
    | some e => (instances, .raised (callError e))
    | none => record settings sid instances req instanceId answer
  | .deleting _ => match answer.failure with
    | none => endByDeleting sid instances (some true)
    | some e => match kind, e with
      | .deleteAll _, .timeout _ | .deleteAll _, .api _ =>
        (instances, .returned (.deletion false none (some (callError e))))
      | _, _ => (instances, .raised (callError e))
  | stage => (instances, stage)

end Steps

/-! ## The service -/

/-- The service as far as one id is concerned. -/
structure RuntimeState (τ : Type) where
  instances : τ
  /-- The operation that holds the lock. -/
  lock : Option ℕ := none
  /-- Those that wait for it, in the order in which they get it. -/
  queue : List ℕ := []
  ops : List Op := []

inductive RuntimeEvent where
  | register (entry : EntryRequest) (now : String)
  | update (fields : UpdateFields) (now : String)
  | deregister
  | call (kind : OpKind)
  /-- `LOCK_WAIT_S` is over for an operation. -/
  | giveUp (n : ℕ)
  | go (n : ℕ) (answer : Answer)

namespace RuntimeState

variable {τ : Type} [TableRepo InstanceRow τ] (settings : RuntimeSettings) (sid : String) (s : RuntimeState τ)

/-- Where a call begins: at the lock, unless it is refused before. -/
def firstStage : OpKind → OpStage
  | .create req => match checkCreate sid req with
    | .error e => .raised e
    | .ok _ => if settings.configured then .waiting else .raised .notConfigured
  | .delete => if settings.configured then .waiting else .raised .notConfigured
  | .deleteAll _ => match existing sid s.instances with
    | .error e => .raised (.repo e)
    | .ok none => .returned .notListed
    | .ok (some _) => .listed

def call (kind : OpKind) : RuntimeState τ :=
  let stage := s.firstStage settings sid kind
  { s with
    ops := s.ops ++ [{ kind, stage }]
    queue := if stage = .waiting then s.queue ++ [s.ops.length] else s.queue }

def setStage (n : ℕ) (stage : OpStage) : RuntimeState τ :=
  { s with ops := s.ops.modify n fun op => { op with stage } }

/-- An operation of a batch asks for the lock. -/
def ask (n : ℕ) : RuntimeState τ := { s with queue := s.queue ++ [n] }.setStage n .waiting

/-- What an operation says that could not get the lock. -/
def gaveUp : OpKind → OpStage
  | .deleteAll _ => .returned (.deletion false none (some (.inProgress sid)))
  | .create _ | .delete => .raised (.inProgress sid)

def giveUp (n : ℕ) : RuntimeState τ :=
  match s.ops[n]? with
  | some ⟨kind, .waiting⟩ => { s with queue := s.queue.erase n }.setStage n (gaveUp sid kind)
  | _ => s

/-- An operation that has the lock goes on; unless it waits again, it releases the lock. -/
def settle (n : ℕ) (p : τ × OpStage) : RuntimeState τ :=
  { s with instances := p.1, lock := if p.2.inFlight then some n else none }.setStage n p.2

def go (n : ℕ) (answer : Answer) : RuntimeState τ :=
  match s.ops[n]? with
  | none => s
  | some op =>
    if op.stage = .listed then s.ask n
    else if op.stage = .waiting then
      if s.lock = none ∧ s.queue.head? = some n then
        { s with queue := s.queue.tail }.settle n (enter settings sid s.instances op.kind)
      else s
    else if op.stage.inFlight then s.settle n (resume settings sid s.instances op.kind answer op.stage)
    else s

/-- A record-mode call on the id; one that fails changes nothing. -/
def step (s : RuntimeState τ) : RuntimeEvent → RuntimeState τ
  | .register entry now =>
    { s with instances := ((registerInstance s.instances { entry with serviceId := some sid } now).toOption.map Prod.fst).getD s.instances }
  | .update fields now =>
    { s with instances := ((updateInstance s.instances sid fields now).toOption.map Prod.fst).getD s.instances }
  | .deregister => { s with instances := (deregisterInstance s.instances sid).1 }
  | .call kind => s.call settings sid kind
  | .giveUp n => s.giveUp sid n
  | .go n answer => s.go settings sid n answer

/-! ## What is to hold -/

variable {settings sid s}

def stageAt (s : RuntimeState τ) (n : ℕ) : Option OpStage := s.ops[n]?.map Op.stage

/-- The operation holds the lock, and waits for the runtime. -/
def InFlight (s : RuntimeState τ) (n : ℕ) : Prop := ∃ stage, s.stageAt n = some stage ∧ stage.inFlight = true

def Raised (s : RuntimeState τ) (n : ℕ) : Prop := ∃ e, s.stageAt n = some (.raised e)

end RuntimeState

namespace RuntimeEvent

/-- A call of the record mode. -/
def isRecord : RuntimeEvent → Bool
  | .register _ _ | .update _ _ | .deregister => true
  | .call _ | .giveUp _ | .go _ _ => false

def goes (n : ℕ) : RuntimeEvent → Bool
  | .go m _ => m = n
  | _ => false

end RuntimeEvent

/-- The instance id is that which is being deleted, or is empty. -/
def OpStage.suits : OpStage → String → Bool
  | .deleting instanceId, given => given = instanceId || given = ""
  | _, _ => true

section Spec

variable {τ : Type} [TableRepo InstanceRow τ] [LawfulTableRepo InstanceRow τ] (settings : RuntimeSettings) (sid : String)

def RuntimeState.entry (s : RuntimeState τ) : Option InstanceRow := LawfulTableRepo.content s.instances sid

/-- The record mode leaves the entry as it is. -/
def RecordsNothing (s : RuntimeState τ) (ev : RuntimeEvent) : Prop :=
  ev.isRecord = true → (s.step settings sid ev).entry sid = s.entry sid

structure InStep (s : RuntimeState τ) : Prop where
  /-- One operation at most waits for the runtime. -/
  exclusive : ∀ m n, s.InFlight m → s.InFlight n → m = n
  /-- An operation that raises leaves the entry as it found it, unless the record mode changed it. -/
  untouched : ∀ n evs ev, s.InFlight n → Along (RuntimeState.step settings sid) (RecordsNothing settings sid) s evs →
    (run (RuntimeState.step settings sid) s evs).InFlight n →
    ((run (RuntimeState.step settings sid) s evs).step settings sid ev).Raised n →
    ((run (RuntimeState.step settings sid) s evs).step settings sid ev).entry sid = s.entry sid
  /-- So does one that never got the lock. -/
  refused : ∀ n ev, ¬ s.InFlight n → ¬ s.Raised n → (s.step settings sid ev).Raised n → (s.step settings sid ev).entry sid = s.entry sid
  /-- What a runtime deletion removes is what it deleted at the runtime, or has no instance. -/
  removes : ∀ n op r answer, s.ops[n]? = some op → op.kind.deletes = true → s.entry sid = some r →
    (s.step settings sid (.go n answer)).entry sid = none → 
      r.data.instanceId = "" ∨ op.stage = .deleting r.data.instanceId ∧ answer.failure = none
  /-- The lock is held by an operation that waits for the runtime. -/
  held : ∀ n, s.lock = some n → s.InFlight n
  /-- After two answers at most, it has released the lock. -/
  released : ∀ n evs, s.InFlight n → 2 ≤ evs.countP (RuntimeEvent.goes n) →
    (run (RuntimeState.step settings sid) s evs).lock ≠ some n
  /-- Once it is free, the next operation gets it. -/
  admits : ∀ n answer, s.lock = none → s.queue.head? = some n →
    ∃ stage, (s.step settings sid (.go n answer)).stageAt n = some stage ∧ stage ≠ .waiting ∧ ∀ k, stage ≠ .raised (.inProgress k)
  /-- An operation that waits is in the queue. -/
  queued : ∀ n, s.stageAt n = some .waiting → n ∈ s.queue

/-- While an instance is being deleted at the runtime, the record mode gives the entry no other instance. -/
def Timely (s : RuntimeState τ) : RuntimeEvent → Prop
  | .register entry now =>
    (registerInstance s.instances { entry with serviceId := some sid } now).toOption.isSome = true →
      ∀ op ∈ s.ops, op.stage.suits (entry.instanceId.getD "") = true
  | .update fields now =>
    (updateInstance s.instances sid fields now).toOption.isSome = true →
      ∀ given ∈ fields.instanceId, ∀ op ∈ s.ops, op.stage.suits given = true
  | .deregister | .call _ | .giveUp _ | .go _ _ => True

instance Timely.decidable (s : RuntimeState τ) : ∀ ev, Decidable (Timely sid s ev)
  | .register entry now => inferInstanceAs (Decidable (
      (registerInstance s.instances { entry with serviceId := some sid } now).toOption.isSome = true →
        ∀ op ∈ s.ops, op.stage.suits (entry.instanceId.getD "") = true))
  | .update fields now => inferInstanceAs (Decidable (
      (updateInstance s.instances sid fields now).toOption.isSome = true →
        ∀ given ∈ fields.instanceId, ∀ op ∈ s.ops, op.stage.suits given = true))
  | .deregister | .call _ | .giveUp _ | .go _ _ => .isTrue trivial

end Spec

/-! ## What a step can do -/

/-! ### The entry -/

section Entry

variable {τ : Type} [TableRepo InstanceRow τ] [LawfulTableRepo InstanceRow τ]

open LawfulTableRepo

theorem existing_ok (sid : String) (instances : τ) : existing sid instances = .ok (content instances sid) := by
  obtain ⟨l, hl, hnodup, hmem⟩ := query_ok instances (f := [(.column "service_id", .text sid)]) rfl (by simp [Filter.Plain])
  have hsid : ∀ r, r ∈ l ↔ content instances sid = some r := by
    intro r
    rw [hmem]
    simp only [Meets, List.mem_singleton, forall_eq, InstanceRow.cellAt_serviceId, Cell.text.injEq, InstanceRow.serviceId_eq]
    constructor
    · rintro ⟨hr, rfl⟩
      exact hr
    · intro hr
      have hkey : r.serviceId = sid := serviceId_content hr
      exact ⟨hkey ▸ hr, hkey⟩
  rw [existing, hl]
  refine congrArg Except.ok ?_
  rw [eq_toList hnodup hsid]
  cases content instances sid <;> rfl

theorem entry_deregister (sid : String) (instances : τ) : content (TableRepo.deregister instances sid).1 sid = none := by
  rw [deregister_content, Function.update_self]

variable {instances : τ}

theorem register_of_ok {r : InstanceRow} {p : τ × InstanceRow}
    (h : (TableRepo.register instances r).mapError InstanceError.repo = .ok p) :
    content p.1 = Function.update (content instances) r.serviceId (some r) := by
  by_cases hempty : Kind.serviceId r = ""
  · rw [register_missing instances hempty] at h
    cases h
  · obtain ⟨instances', hregister, hcontent⟩ := register_ok instances hempty
    rw [hregister] at h
    cases h
    exact hcontent

theorem registerInstance_ok {sid now : String} {entry : EntryRequest} {p : τ × InstanceEntry}
    (h : registerInstance instances { entry with serviceId := some sid } now = .ok p) :
    ∃ r, content p.1 sid = some r ∧ r.data.instanceId = entry.instanceId.getD "" := by
  unfold registerInstance at h
  obtain ⟨serviceId, hserviceId, h⟩ := bind_eq_ok.mp h
  obtain ⟨kind, -, h⟩ := bind_eq_ok.mp h
  obtain ⟨framework, -, h⟩ := bind_eq_ok.mp h
  obtain ⟨frameworkVersion, -, h⟩ := bind_eq_ok.mp h
  obtain ⟨user, -, h⟩ := bind_eq_ok.mp h
  split at h
  case h_2 => cases h
  obtain ⟨rows, -, h⟩ := bind_eq_ok.mp h
  obtain ⟨⟨instances', stored⟩, hstored, h⟩ := bind_eq_ok.mp h
  cases h
  -- The id is there, or it would be missing.
  have hsid : serviceId = sid := by
    unfold required at hserviceId
    split at hserviceId
    · cases hserviceId
    · cases hserviceId
    · rename_i value _ hvalue
      cases hserviceId
      exact (Option.some.inj hvalue).symm
  subst hsid
  have hcontent := congrFun (register_of_ok hstored) serviceId
  exact ⟨_, hcontent.trans (Function.update_self ..), rfl⟩

theorem rowsOf_ok {sid : String} {rows : List InstanceRow}
    (h : rowsOf instances [(.column "service_id", .text sid)] = .ok rows) : rows.head? = content instances sid := by
  have hexisting := existing_ok sid instances
  unfold existing at hexisting
  unfold rowsOf at h
  cases hquery : TableRepo.query instances [(.column "service_id", .text sid)] with
  | error e =>
    rw [hquery] at h
    cases h
  | ok l =>
    rw [hquery] at h hexisting
    cases h
    exact Except.ok.inj hexisting

theorem patch_of_ok {sid : String} {r : InstanceRow} {patch : InstanceRow.Patch} {p : τ × InstanceRow}
    (hr : content instances sid = some r) (h : (TableRepo.patch instances sid patch).mapError InstanceError.repo = .ok p) :
    content p.1 sid = some (InstanceRow.apply patch r) := by
  cases hempty : Kind.isEmpty (ρ := InstanceRow) patch with
  | true =>
    rw [patch_empty instances sid hempty] at h
    cases h
  | false =>
    obtain ⟨instances', hpatch, hcontent⟩ := patch_ok hr hempty
    rw [hpatch] at h
    cases h
    rw [hcontent, Function.update_self]
    rfl

theorem updateInstance_ok {sid now : String} {fields : UpdateFields} {p : τ × InstanceEntry}
    (h : updateInstance instances sid fields now = .ok p) : ∃ old r, content instances sid = some old ∧ content p.1 sid = some r ∧
      r.data.instanceId = fields.instanceId.getD old.data.instanceId := by
  unfold updateInstance at h
  split at h
  · cases h
  dsimp only at h
  split at h
  on_goal 2 => split at h
  -- What the status is makes no difference.
  all_goals
    obtain ⟨status, hstatus, h⟩ := bind_eq_ok.mp h
    cases hstatus
  all_goals
    obtain ⟨rows, hrows, h⟩ := bind_eq_ok.mp h
    have hhead := rowsOf_ok hrows
    split at h
    · cases h
    rename_i row hrow
    obtain ⟨⟨instances', updated⟩, hupdated, h⟩ := bind_eq_ok.mp h
    cases h
    rw [hrow] at hhead
    refine ⟨row, _, hhead.symm, patch_of_ok hhead.symm hupdated, ?_⟩
    cases hid : fields.instanceId with
    | some given => simp [InstanceRow.apply]
    | none =>
      dsimp only [InstanceRow.apply]
      split
      · rfl
      · rfl

/-- What an operation may come to that gets the lock. -/
inductive Entered (sid : String) (instances : τ) (kind : OpKind) : τ × OpStage → Prop where
  | ended (result : OpResult) : Entered sid instances kind (instances, .returned result)
  | creating (req : CreateRequest) : Entered sid instances kind (instances, .creating req)
  | deleting {r : InstanceRow} (hr : content instances sid = some r) :
      Entered sid instances kind (instances, .deleting r.data.instanceId)
  | removed (runtimeDeleted : Option Bool)
      (h : kind.deletes = true → ∀ r, content instances sid = some r → r.data.instanceId = "") :
      Entered sid instances kind (endByDeleting sid instances runtimeDeleted)

theorem entered_deleteLocked (sid : String) (instances : τ) (kind : OpKind) : Entered sid instances kind (deleteLocked sid instances) := by
  unfold deleteLocked
  rw [existing_ok]
  cases hr : content instances sid with
  | none => exact .ended _
  | some r =>
    dsimp only
    split
    · rename_i hempty
      refine .removed _ fun _ r' hr' => ?_
      rw [hr] at hr'
      cases hr'
      exact hempty
    · exact .deleting hr

variable (settings : RuntimeSettings) (sid : String)

theorem entered_enter (instances : τ) (kind : OpKind) : Entered sid instances kind (enter settings sid instances kind) := by
  unfold enter
  split
  · rw [existing_ok]
    cases content instances sid with
    | none => exact .creating _
    | some r =>
      dsimp only
      split
      · exact .ended _
      · exact .creating _
  · exact entered_deleteLocked sid instances _
  · split
    · exact entered_deleteLocked sid instances _
    · exact .ended _
  · exact .removed _ nofun

/-- What an operation may come to that the runtime has answered. -/
inductive Resumed (sid : String) (instances : τ) (stage : OpStage) (answer : Answer) : τ × OpStage → Prop where
  | failed {e : RuntimeError} (he : ∀ k, e ≠ .inProgress k) : Resumed sid instances stage answer (instances, .raised e)
  | ended (result : OpResult) : Resumed sid instances stage answer (instances, .returned result)
  | inspecting {req : CreateRequest} (hstage : stage = .creating req) (instanceId : String) :
      Resumed sid instances stage answer (instances, .inspecting req instanceId)
  | recorded {instances' : τ} {r : InstanceRow} (hr : content instances' sid = some r) (result : OpResult) :
      Resumed sid instances stage answer (instances', .returned result)
  | removed {instanceId : String} (hstage : stage = .deleting instanceId) (hanswer : answer.failure = none) :
      Resumed sid instances stage answer (endByDeleting sid instances (some true))

theorem createError_ne (e : YuanrongError) (k : String) : createError e ≠ .inProgress k := by
  cases e <;> exact nofun

theorem callError_ne (e : YuanrongError) (k : String) : callError e ≠ .inProgress k := by
  cases e <;> exact nofun

theorem registerEntry_ok {sid : String} {instances instances' : τ} {row : String → InstanceRow} {now : String} {stored : InstanceRow}
    (hsid : ∀ createdAt, (row createdAt).serviceId = sid) (h : registerEntry sid instances row now = .ok (instances', stored)) :
    content instances' sid = some stored := by
  unfold registerEntry at h
  rw [existing_ok] at h
  simp only [bind, Except.bind] at h
  generalize hrow : row (((content instances sid).map (·.data.createdAt)).getD now) = r at h
  have hkey : r.serviceId = sid := hrow ▸ hsid _
  by_cases hempty : Kind.serviceId r = ""
  · rw [register_missing instances hempty] at h
    cases h
  · obtain ⟨s', hregister, hcontent⟩ := register_ok instances hempty
    rw [hregister] at h
    cases h
    rw [hcontent, InstanceRow.serviceId_eq, hkey, Function.update_self]

theorem resumed_record (instances : τ) (req : CreateRequest) (instanceId : String)
    (stage : OpStage) (answer : Answer) : Resumed sid instances stage answer (record settings sid instances req instanceId answer) := by
  unfold record
  split
  · rename_i e he
    refine .failed fun k hk => ?_
    subst hk
    split at he
    · unfold snapshotEntryStatus at he
      dsimp only at he
      split at he
      · cases he
      split at he
      · cases he
      cases he
    · cases he
  · dsimp only
    split
    · exact .failed nofun
    · rename_i hregister
      exact .recorded (registerEntry_ok (by intro _; rfl) hregister) _

theorem resumed_resume (instances : τ) (kind : OpKind) (answer : Answer) {stage : OpStage}
    (hflight : stage.inFlight = true) : Resumed sid instances stage answer (resume settings sid instances kind answer stage) := by
  cases stage with
  | listed | waiting | returned | raised => cases hflight
  | creating req =>
    dsimp only [resume]
    split
    · exact .failed (createError_ne _)
    · exact .inspecting rfl _
  | inspecting req instanceId =>
    dsimp only [resume]
    split
    · exact .failed (callError_ne _)
    · exact resumed_record settings sid instances req instanceId _ answer
  | deleting instanceId =>
    dsimp only [resume]
    split
    · rename_i hanswer
      exact .removed rfl hanswer
    · split
      · exact .ended _
      · exact .ended _
      · exact .failed (callError_ne _)

variable {p : τ × OpStage}

theorem Entered.ne_waiting {sid : String} {kind : OpKind} (h : Entered sid instances kind p) :
    p.2 ≠ .waiting ∧ ∀ k, p.2 ≠ .raised (.inProgress k) := by
  cases h <;> exact ⟨nofun, nofun⟩

theorem Resumed.ne_waiting {sid : String} {stage : OpStage} {answer : Answer}
    (h : Resumed sid instances stage answer p) : p.2 ≠ .waiting := by
  cases h <;> exact nofun

/-- How many answers an operation that has the lock still waits for, at most. -/
def OpStage.left : OpStage → ℕ
  | .creating _ => 2
  | .inspecting _ _ | .deleting _ => 1
  | .listed | .waiting | .returned _ | .raised _ => 0

theorem OpStage.left_pos {stage : OpStage} (h : stage.inFlight = true) : 0 < stage.left := by
  cases stage with
  | creating | inspecting | deleting => exact Nat.succ_pos _
  | listed | waiting | returned | raised => cases h

theorem OpStage.left_le (stage : OpStage) : stage.left ≤ 2 := by
  cases stage with
  | creating => exact Nat.le_refl 2
  | inspecting | deleting => exact Nat.le_succ 1
  | listed | waiting | returned | raised => exact Nat.zero_le 2

/-- The operation does not wait for the lock any more. -/
def OpStage.started : OpStage → Bool
  | .listed | .waiting => false
  | .creating _ | .inspecting _ _ | .deleting _ | .returned _ | .raised _ => true

theorem OpStage.started_of_inFlight {stage : OpStage} (h : stage.inFlight = true) : stage.started = true := by
  cases stage with
  | creating | inspecting | deleting => rfl
  | listed | waiting | returned | raised => cases h

theorem Resumed.left {sid : String} {stage : OpStage} {answer : Answer}
    (h : Resumed sid instances stage answer p) (hflight : stage.inFlight = true) :
    p.2.started = true ∧ p.2.left + 1 ≤ stage.left := by
  have hpos := OpStage.left_pos hflight
  cases h with
  | failed | ended | recorded | removed => exact ⟨rfl, hpos⟩
  | inspecting hstage =>
    subst hstage
    exact ⟨rfl, Nat.le_refl _⟩

theorem OpStage.suits_of_not_inFlight {stage : OpStage} (h : stage.inFlight = false) (given : String) : stage.suits given = true := by
  cases stage with
  | creating | inspecting | deleting => cases h
  | listed | waiting | returned | raised => rfl

end Entry

namespace RuntimeState

section Stages

variable {τ : Type} {s : RuntimeState τ} {n m : ℕ} {op : Op} {stage : OpStage}

theorem stageAt_of_op (hop : s.ops[n]? = some op) : s.stageAt n = some op.stage := congrArg (Option.map Op.stage) hop

theorem stageAt_setStage : (s.setStage n stage).stageAt m = if n = m then (s.stageAt m).map fun _ => stage else s.stageAt m := by
  simp only [stageAt, setStage, List.getElem?_modify, Option.map_eq_map]
  split
  · rw [Option.map_map, Option.map_map]
    rfl
  · rw [Option.map_id']

theorem stageAt_setStage_self (h : s.stageAt n = some stage) (stage' : OpStage) : (s.setStage n stage').stageAt n = some stage' := by
  rw [stageAt_setStage, if_pos rfl, h]
  rfl

theorem stageAt_setStage_ne (hne : n ≠ m) (stage' : OpStage) : (s.setStage n stage').stageAt m = s.stageAt m := by
  rw [stageAt_setStage, if_neg hne]

theorem not_inFlight_of_stage (hstage : s.stageAt n = some stage) (hnot : stage.inFlight = false) : ¬ s.InFlight n := by
  rintro ⟨stage', hstage', hflight⟩
  rw [hstage] at hstage'
  rw [← Option.some.inj hstage', hnot] at hflight
  cases hflight

end Stages

section Moves

variable {τ : Type} [TableRepo InstanceRow τ] [LawfulTableRepo InstanceRow τ]

/-- What it comes to that an operation goes on. -/
inductive Went (settings : RuntimeSettings) (sid : String) (s : RuntimeState τ) (n : ℕ) (answer : Answer) : RuntimeState τ → Prop where
  | idle (hnot : ¬ s.InFlight n) (hturn : s.stageAt n = some .waiting → ¬ (s.lock = none ∧ s.queue.head? = some n)) :
      Went settings sid s n answer s
  | asked (hstage : s.stageAt n = some .listed) : Went settings sid s n answer (s.ask n)
  | entered {op : Op} (hop : s.ops[n]? = some op) (hstage : s.stageAt n = some .waiting) (hlock : s.lock = none)
      (hhead : s.queue.head? = some n) {p : τ × OpStage} (h : Entered sid s.instances op.kind p) :
      Went settings sid s n answer ({ s with queue := s.queue.tail }.settle n p)
  | resumed {stage : OpStage} (hstage : s.stageAt n = some stage) (hflight : stage.inFlight = true) {p : τ × OpStage}
      (h : Resumed sid s.instances stage answer p) : Went settings sid s n answer (s.settle n p)

theorem went_go (settings : RuntimeSettings) (sid : String) (s : RuntimeState τ) (n : ℕ) (answer : Answer) :
    Went settings sid s n answer (s.go settings sid n answer) := by
  unfold go
  cases hop : s.ops[n]? with
  | none =>
    have hnone : s.stageAt n = none := congrArg (Option.map Op.stage) hop
    refine .idle ?_ ?_
    · rintro ⟨stage, hstage, -⟩
      rw [hnone] at hstage
      cases hstage
    · rw [hnone]
      exact nofun
  | some op =>
    have hstage := stageAt_of_op hop
    dsimp only
    split
    · rename_i hlisted
      exact .asked (hlisted ▸ hstage)
    · split
      · rename_i hwaiting
        rw [hwaiting] at hstage
        split
        · rename_i hturn
          exact .entered hop hstage hturn.1 hturn.2 (entered_enter settings sid s.instances op.kind)
        · rename_i hturn
          exact .idle (not_inFlight_of_stage hstage rfl) fun _ => hturn
      · rename_i hwaiting
        split
        · rename_i hflight
          exact .resumed hstage hflight (resumed_resume settings sid s.instances op.kind answer hflight)
        · rename_i hflight
          refine .idle (not_inFlight_of_stage hstage (Bool.eq_false_iff.mpr hflight)) fun h => ?_
          rw [hstage] at h
          exact absurd (Option.some.inj h) hwaiting

end Moves

/-! ## The lock -/

/-- The lock belongs to the operation that waits for the runtime, and the queue to those that wait for it. -/
structure Locked {τ : Type} (s : RuntimeState τ) : Prop where
  held : ∀ n, s.lock = some n ↔ s.InFlight n
  queue : ∀ n, n ∈ s.queue ↔ s.stageAt n = some .waiting
  nodup : s.queue.Nodup

section Locked

variable {τ : Type} [TableRepo InstanceRow τ] [LawfulTableRepo InstanceRow τ] {settings : RuntimeSettings} {sid : String}
  {s s' : RuntimeState τ} {n m : ℕ} {answer : Answer} {stage : OpStage}

omit [TableRepo InstanceRow τ] [LawfulTableRepo InstanceRow τ] in
theorem Locked.congr (h : s.Locked) (hlock : s'.lock = s.lock) (hqueue : s'.queue = s.queue) (hops : s'.ops = s.ops) : s'.Locked := by
  have hstage : ∀ n, s'.stageAt n = s.stageAt n := fun n => congrArg (fun ops : List Op => ops[n]?.map Op.stage) hops
  refine ⟨fun n => ?_, fun n => ?_, hqueue ▸ h.nodup⟩
  · rw [hlock, h.held, InFlight, InFlight, hstage]
  · rw [hqueue, h.queue, hstage]

omit [TableRepo InstanceRow τ] [LawfulTableRepo InstanceRow τ] in
theorem inFlight_setStage (hstage : s.stageAt n = some stage) (hnot : stage.inFlight = false) {stage' : OpStage}
    (hnot' : stage'.inFlight = false) : (s.setStage n stage').InFlight m ↔ s.InFlight m := by
  by_cases hne : n = m
  · subst hne
    have hold := not_inFlight_of_stage hstage hnot
    have hnew := not_inFlight_of_stage (stageAt_setStage_self hstage stage') hnot'
    exact ⟨fun h => absurd h hnew, fun h => absurd h hold⟩
  · rw [InFlight, InFlight, stageAt_setStage_ne hne]

omit [LawfulTableRepo InstanceRow τ] in
theorem firstStage_cases (kind : OpKind) : (s.firstStage settings sid kind).inFlight = false := by
  unfold firstStage
  cases kind with
  | create req =>
    dsimp only
    split
    · rfl
    · split <;> rfl
  | delete | deleteAll =>
    dsimp only
    split <;> rfl

omit [LawfulTableRepo InstanceRow τ] in
theorem stageAt_call (kind : OpKind) : (s.call settings sid kind).stageAt m =
    if m = s.ops.length then some (s.firstStage settings sid kind) else s.stageAt m := by
  simp only [stageAt, call]
  split
  · rename_i hm
    subst hm
    rw [List.getElem?_append_right (Nat.le_refl _), Nat.sub_self]
    rfl
  · rename_i hm
    rcases Nat.lt_or_ge m s.ops.length with hlt | hge
    · rw [List.getElem?_append_left hlt]
    · rw [List.getElem?_eq_none (l := s.ops) hge, List.getElem?_eq_none]
      rw [List.length_append, List.length_singleton]
      omega

omit [LawfulTableRepo InstanceRow τ] in
theorem Locked.call (h : s.Locked) (kind : OpKind) : (s.call settings sid kind).Locked := by
  have hfresh : s.stageAt s.ops.length = none := by
    rw [stageAt, List.getElem?_eq_none (Nat.le_refl _)]
    rfl
  have hout : s.ops.length ∉ s.queue := by
    rw [h.queue, hfresh]
    exact nofun
  refine ⟨fun m => ?_, fun m => ?_, ?_⟩
  · refine (h.held m).trans ?_
    rw [InFlight, InFlight, stageAt_call]
    split
    · rename_i hm
      rw [hm, hfresh]
      refine ⟨nofun, ?_⟩
      rintro ⟨stage, hstage, hflight⟩
      rw [← Option.some.inj hstage, firstStage_cases] at hflight
      cases hflight
    · exact Iff.rfl
  · rw [stageAt_call]
    simp only [RuntimeState.call]
    by_cases hwaiting : s.firstStage settings sid kind = .waiting
    · rw [if_pos hwaiting, List.mem_append, List.mem_singleton, h.queue]
      split
      · rename_i hm
        exact ⟨fun _ => congrArg some hwaiting, fun _ => .inr hm⟩
      · rename_i hm
        exact or_iff_left hm
    · rw [if_neg hwaiting, h.queue]
      split
      · rename_i hm
        rw [hm, hfresh]
        exact ⟨nofun, fun h => absurd (Option.some.inj h) hwaiting⟩
      · exact Iff.rfl
  · simp only [RuntimeState.call]
    split
    · exact List.nodup_append_comm.mp (List.nodup_cons.mpr ⟨hout, h.nodup⟩)
    · exact h.nodup

omit [TableRepo InstanceRow τ] [LawfulTableRepo InstanceRow τ] in
theorem giveUp_cases (sid : String) (s : RuntimeState τ) (n : ℕ) : s.giveUp sid n = s ∨
    ∃ stage, s.stageAt n = some .waiting ∧ stage.inFlight = false ∧ stage ≠ .waiting ∧
      s.giveUp sid n = { s with queue := s.queue.erase n }.setStage n stage := by
  unfold giveUp
  split
  · rename_i kind hop
    refine .inr ⟨gaveUp sid kind, stageAt_of_op hop, ?_, ?_, rfl⟩
    · cases kind <;> rfl
    · cases kind <;> exact nofun
  · exact .inl rfl

omit [TableRepo InstanceRow τ] [LawfulTableRepo InstanceRow τ] in
theorem Locked.giveUp (h : s.Locked) : (s.giveUp sid n).Locked := by
  rcases giveUp_cases sid s n with hsame | ⟨stage, hstage, hnot, hne, heq⟩
  · rw [hsame]
    exact h
  rw [heq]
  refine ⟨fun m => ?_, fun m => ?_, h.nodup.erase n⟩
  · refine (h.held m).trans ?_
    exact (inFlight_setStage (s := { s with queue := s.queue.erase n }) hstage rfl hnot).symm
  · change m ∈ s.queue.erase n ↔ _
    rw [h.nodup.mem_erase_iff, h.queue, stageAt_setStage]
    split
    · rename_i hm
      subst hm
      change _ ↔ (s.stageAt n).map _ = _
      rw [hstage]
      exact ⟨fun hmem => absurd rfl hmem.1, fun hmem => absurd (Option.some.inj hmem) hne⟩
    · rename_i hm
      exact and_iff_right (Ne.symm hm)

omit [TableRepo InstanceRow τ] [LawfulTableRepo InstanceRow τ] in
theorem Locked.ask (h : s.Locked) (hstage : s.stageAt n = some .listed) : (s.ask n).Locked := by
  have hout : n ∉ s.queue := by
    rw [h.queue, hstage]
    exact nofun
  refine ⟨fun m => ?_, fun m => ?_, ?_⟩
  · refine (h.held m).trans ?_
    exact (inFlight_setStage (s := { s with queue := s.queue ++ [n] }) hstage rfl rfl).symm
  · change m ∈ s.queue ++ [n] ↔ _
    rw [List.mem_append, List.mem_singleton, h.queue, RuntimeState.ask, stageAt_setStage]
    split
    · rename_i hm
      subst hm
      refine ⟨fun _ => ?_, fun _ => .inr rfl⟩
      change (s.stageAt n).map _ = _
      rw [hstage]
      rfl
    · rename_i hm
      exact or_iff_left (Ne.symm hm)
  · exact List.nodup_append_comm.mp (List.nodup_cons.mpr ⟨hout, h.nodup⟩)

omit [TableRepo InstanceRow τ] [LawfulTableRepo InstanceRow τ] in
theorem held_settle (h : ∀ m, s.InFlight m → m = n) (hstage : s.stageAt n = some stage) (p : τ × OpStage) :
    (s.settle n p).lock = some m ↔ (s.settle n p).InFlight m := by
  have hnew : (s.settle n p).stageAt n = some p.2 := stageAt_setStage_self (s := { s with instances := p.1, lock := _ }) hstage p.2
  by_cases hm : n = m
  · subst hm
    change (if p.2.inFlight then some n else none) = some n ↔ _
    rw [InFlight, hnew]
    cases hflight : p.2.inFlight with
    | true => exact ⟨fun _ => ⟨p.2, rfl, hflight⟩, fun _ => rfl⟩
    | false =>
      refine ⟨nofun, ?_⟩
      rintro ⟨stage', hstage', hflight'⟩
      rw [← Option.some.inj hstage', hflight] at hflight'
      cases hflight'
  · have hother : (s.settle n p).InFlight m ↔ s.InFlight m := by
      rw [InFlight, InFlight, settle, stageAt_setStage_ne hm]
      rfl
    rw [hother]
    constructor
    · intro hlock
      change (if p.2.inFlight then some n else none) = some m at hlock
      split at hlock
      · exact absurd (Option.some.inj hlock) hm
      cases hlock
    · exact fun hflight => absurd (h m hflight).symm hm

theorem Locked.go (h : s.Locked) : (s.go settings sid n answer).Locked := by
  have hwent := went_go settings sid s n answer
  generalize s.go settings sid n answer = s' at hwent
  cases hwent with
  | idle => exact h
  | asked hstage => exact h.ask hstage
  | @entered op hop hstage hlock hhead p hp =>
    have hnone : ∀ m, ¬ s.InFlight m := by
      intro m hm
      rw [← h.held, hlock] at hm
      cases hm
    have hqueue : s.queue = n :: s.queue.tail := (List.cons_head?_tail hhead).symm
    have hnodup := h.nodup
    rw [hqueue] at hnodup
    refine ⟨fun m => ?_, fun m => ?_, (List.nodup_cons.mp hnodup).2⟩
    · exact held_settle (s := { s with queue := s.queue.tail }) (fun m hm => absurd hm (hnone m)) hstage p
    · change m ∈ s.queue.tail ↔ _
      rw [settle, stageAt_setStage]
      have hmem := h.queue m
      rw [hqueue, List.mem_cons] at hmem
      split
      · rename_i hm
        subst hm
        change _ ↔ (s.stageAt n).map _ = _
        rw [hstage]
        exact ⟨fun hin => absurd hin (List.nodup_cons.mp hnodup).1, fun hin => absurd (Option.some.inj hin) hp.ne_waiting.1⟩
      · rename_i hm
        exact (or_iff_right (Ne.symm hm)).symm.trans hmem
  | @resumed stage hstage hflight p hp =>
    have hlock := (h.held n).mpr ⟨stage, hstage, hflight⟩
    refine ⟨fun m => ?_, fun m => ?_, h.nodup⟩
    · refine held_settle (fun m hm => ?_) hstage p
      rw [← h.held, hlock] at hm
      exact (Option.some.inj hm).symm
    · change m ∈ s.queue ↔ _
      rw [h.queue, settle, stageAt_setStage]
      split
      · rename_i hm
        subst hm
        change _ ↔ (s.stageAt n).map _ = _
        rw [hstage]
        refine ⟨?_, fun hin => absurd (Option.some.inj hin) hp.ne_waiting⟩
        intro hwaiting
        rw [Option.some.inj hwaiting] at hflight
        cases hflight
      · exact Iff.rfl

theorem Locked.step (h : s.Locked) (ev : RuntimeEvent) : (s.step settings sid ev).Locked := by
  cases ev with
  | register | update | deregister => exact h.congr rfl rfl rfl
  | call kind => exact h.call kind
  | giveUp n => exact h.giveUp
  | go n answer => exact h.go

end Locked

/-! ## The entry during a run -/

section Runs

variable {τ : Type} [TableRepo InstanceRow τ] [LawfulTableRepo InstanceRow τ] {settings : RuntimeSettings} {sid : String}
  {s s' : RuntimeState τ} {n m : ℕ} {answer : Answer} {stage : OpStage} {ev : RuntimeEvent}

open LawfulTableRepo

theorem Went.instances (h : Went settings sid s n answer s') :
    s'.instances = s.instances ∨ ∃ result, s'.stageAt n = some (.returned result) := by
  cases h with
  | idle | asked => exact .inl rfl
  | @entered op hop hstage hlock hhead p hp =>
    have hnew := stageAt_setStage_self (s := { s with queue := s.queue.tail, instances := p.1, lock := if p.2.inFlight then some n else none })
      hstage p.2
    cases hp with
    | ended | creating | deleting => exact .inl rfl
    | removed => exact .inr ⟨_, hnew⟩
  | @resumed stage hstage hflight p hp =>
    have hnew := stageAt_setStage_self (s := { s with instances := p.1, lock := if p.2.inFlight then some n else none }) hstage p.2
    cases hp with
    | failed | ended | inspecting => exact .inl rfl
    | recorded | removed => exact .inr ⟨_, hnew⟩

theorem Went.stageAt_ne (h : Went settings sid s n answer s') (hne : n ≠ m) : s'.stageAt m = s.stageAt m := by
  cases h with
  | idle => rfl
  | asked | entered | resumed => exact stageAt_setStage_ne hne _

omit [TableRepo InstanceRow τ] [LawfulTableRepo InstanceRow τ] in
theorem giveUp_instances (sid : String) (s : RuntimeState τ) (n : ℕ) : (s.giveUp sid n).instances = s.instances := by
  rcases giveUp_cases sid s n with hsame | ⟨_, -, -, -, heq⟩
  · rw [hsame]
  · rw [heq]
    rfl

theorem stageAt_step (h : s.stageAt n = some stage) (hne : stage ≠ .waiting) (hgoes : ev.goes n = false) :
    (s.step settings sid ev).stageAt n = some stage := by
  cases ev with
  | register | update | deregister => exact h
  | call kind =>
    change (s.call settings sid kind).stageAt n = _
    rw [stageAt_call, if_neg, h]
    rintro rfl
    rw [stageAt, List.getElem?_eq_none (Nat.le_refl _)] at h
    cases h
  | giveUp m =>
    change (s.giveUp sid m).stageAt n = _
    rcases giveUp_cases sid s m with hsame | ⟨stage', hstage, -, -, heq⟩
    · rw [hsame, h]
    · have hmn : m ≠ n := by
        rintro rfl
        rw [h] at hstage
        exact hne (Option.some.inj hstage)
      rw [heq, stageAt_setStage_ne hmn]
      exact h
  | go m answer =>
    exact ((went_go settings sid s m answer).stageAt_ne (of_decide_eq_false hgoes)).trans h

theorem Locked.entry_step (h : s.Locked) (hn : s.InFlight n) (hrecord : RecordsNothing settings sid s ev)
    (hreturned : ∀ result, (s.step settings sid ev).stageAt n ≠ some (.returned result)) :
    (s.step settings sid ev).entry sid = s.entry sid := by
  have hlock := (h.held n).mpr hn
  cases ev with
  | register | update | deregister => exact hrecord rfl
  | call kind => rfl
  | giveUp m => exact congrArg (content · sid) (giveUp_instances sid s m)
  | go m answer =>
    have hwent := went_go settings sid s m answer
    change (s.go settings sid m answer).entry sid = _
    change ∀ result, (s.go settings sid m answer).stageAt n ≠ _ at hreturned
    generalize s.go settings sid m answer = s' at hwent hreturned
    by_cases hmn : m = n
    · subst hmn
      rcases hwent.instances with hsame | ⟨result, hresult⟩
      · exact congrArg (content · sid) hsame
      · exact absurd hresult (hreturned result)
    · -- Another operation does not have the lock.
      cases hwent with
      | idle | asked => rfl
      | entered hop hstage hfree =>
        rw [hlock] at hfree
        cases hfree
      | resumed hstage hflight =>
        have hother := (h.held m).mpr ⟨_, hstage, hflight⟩
        rw [hlock] at hother
        exact absurd (Option.some.inj hother).symm hmn

theorem left_step (h : s.stageAt n = some stage) (hstarted : stage.started = true) (ev : RuntimeEvent) :
    ∃ stage', (s.step settings sid ev).stageAt n = some stage' ∧ stage'.started = true ∧
      stage'.left ≤ stage.left - if ev.goes n then 1 else 0 := by
  have hne : stage ≠ .waiting := by
    rintro rfl
    cases hstarted
  cases hgoes : ev.goes n with
  | false => exact ⟨stage, stageAt_step h hne hgoes, hstarted, Nat.le_refl _⟩
  | true =>
    cases ev with
    | register | update | deregister | call | giveUp => cases hgoes
    | go m answer =>
      obtain rfl : m = n := of_decide_eq_true hgoes
      have hwent := went_go settings sid s m answer
      change ∃ stage', (s.go settings sid m answer).stageAt m = _ ∧ _
      generalize s.go settings sid m answer = s' at hwent
      cases hwent with
      | idle hnot =>
        refine ⟨stage, h, hstarted, ?_⟩
        have hended : stage.left = 0 := by
          cases stage with
          | creating | inspecting | deleting => exact absurd ⟨_, h, rfl⟩ hnot
          | listed | waiting | returned | raised => rfl
        rw [hended]
        exact Nat.zero_le _
      | asked hstage | entered hop hstage =>
        rw [h] at hstage
        rw [Option.some.inj hstage] at hstarted
        cases hstarted
      | @resumed stage' hstage hflight p hp =>
        rw [h] at hstage
        obtain rfl := Option.some.inj hstage
        obtain ⟨hstarted', hleft⟩ := hp.left hflight
        exact ⟨p.2, stageAt_setStage_self (s := { s with instances := p.1, lock := if p.2.inFlight then some m else none }) h p.2,
          hstarted', Nat.le_sub_one_of_lt hleft⟩

theorem left_run (evs : List RuntimeEvent) : ∀ {s : RuntimeState τ} {stage : OpStage}, s.stageAt n = some stage → stage.started = true →
    ∃ stage', (run (step settings sid) s evs).stageAt n = some stage' ∧ stage'.started = true ∧
      stage'.left ≤ stage.left - evs.countP (RuntimeEvent.goes n) := by
  induction evs with
  | nil => exact fun h hstarted => ⟨_, h, hstarted, Nat.le_refl _⟩
  | cons ev evs ih =>
    intro s stage h hstarted
    obtain ⟨stage₁, h₁, hstarted₁, hleft₁⟩ := (left_step h hstarted ev : ∃ stage₁, (s.step settings sid ev).stageAt n = some stage₁ ∧ _)
    obtain ⟨stage₂, h₂, hstarted₂, hleft₂⟩ := ih h₁ hstarted₁
    refine ⟨stage₂, h₂, hstarted₂, hleft₂.trans ?_⟩
    rw [List.countP_cons]
    omega

/-! ### What is being deleted -/

/-- The entry holds the instance that is being deleted, or none. -/
def Suited (sid : String) (s : RuntimeState τ) : Prop :=
  ∀ n stage r, s.stageAt n = some stage → s.entry sid = some r → stage.suits r.data.instanceId = true

theorem Suited.congr (h : Suited sid s) (hstage : ∀ m stage, s'.stageAt m = some stage → stage.inFlight = true → s.stageAt m = some stage)
    (hentry : ∀ r, s'.entry sid = some r → s.entry sid = some r ∨ ∀ m stage, s.stageAt m = some stage → stage.suits r.data.instanceId = true) :
    Suited sid s' := by
  intro m stage r hm hr
  cases hflight : stage.inFlight with
  | false => exact OpStage.suits_of_not_inFlight hflight _
  | true =>
    have hold := hstage m stage hm hflight
    rcases hentry r hr with hsame | hsuits
    · exact h m stage r hold hsame
    · exact hsuits m stage hold

omit [TableRepo InstanceRow τ] [LawfulTableRepo InstanceRow τ] in
theorem op_of_stageAt (h : s.stageAt n = some stage) : ∃ op ∈ s.ops, op.stage = stage := by
  obtain ⟨op, hop, rfl⟩ := Option.map_eq_some_iff.mp h
  exact ⟨op, List.mem_of_getElem? hop, rfl⟩

theorem toOption_getD {ε α β : Type} (x : Except ε (α × β)) (a : α) :
    (∃ p, x = .ok p ∧ (x.toOption.map Prod.fst).getD a = p.1) ∨ (x.toOption.map Prod.fst).getD a = a := by
  cases x with
  | error e => exact .inr rfl
  | ok p => exact .inl ⟨p, rfl, rfl⟩

theorem Suited.register {entry : EntryRequest} {now : String} (h : Suited sid s) (htimely : Timely sid s (.register entry now)) :
    Suited sid (s.step settings sid (.register entry now)) := by
  refine h.congr (fun _ _ hm _ => hm) fun r hr => ?_
  rcases toOption_getD (registerInstance s.instances { entry with serviceId := some sid } now) s.instances with
    ⟨p, hp, hfst⟩ | hsame
  · obtain ⟨r', hr', hid⟩ := registerInstance_ok hp
    simp only [RuntimeState.entry, RuntimeState.step, hfst, hr'] at hr
    cases hr
    refine .inr fun m stage hm => ?_
    obtain ⟨op, hop, rfl⟩ := op_of_stageAt hm
    rw [hid]
    exact htimely (by rw [hp]; rfl) op hop
  · simp only [RuntimeState.entry, RuntimeState.step, hsame] at hr
    exact .inl hr

theorem Suited.update {fields : UpdateFields} {now : String} (h : Suited sid s) (htimely : Timely sid s (.update fields now)) :
    Suited sid (s.step settings sid (.update fields now)) := by
  refine h.congr (fun _ _ hm _ => hm) fun r hr => ?_
  rcases toOption_getD (updateInstance s.instances sid fields now) s.instances with ⟨p, hp, hfst⟩ | hsame
  · obtain ⟨old, r', hold, hr', hid⟩ := updateInstance_ok hp
    simp only [RuntimeState.entry, RuntimeState.step, hfst, hr'] at hr
    cases hr
    refine .inr fun m stage hm => ?_
    rw [hid]
    cases hgiven : fields.instanceId with
    | none => exact h m stage old hm hold
    | some given =>
      obtain ⟨op, hop, rfl⟩ := op_of_stageAt hm
      exact htimely (by rw [hp]; rfl) given hgiven op hop
  · simp only [RuntimeState.entry, RuntimeState.step, hsame] at hr
    exact .inl hr

theorem Suited.call (h : Suited sid s) (kind : OpKind) : Suited sid (s.call settings sid kind) := by
  refine h.congr (fun m stage hm hflight => ?_) fun r hr => .inl hr
  rw [stageAt_call] at hm
  split at hm
  · rw [← Option.some.inj hm, firstStage_cases] at hflight
    cases hflight
  · exact hm

theorem Suited.giveUp (h : Suited sid s) (n : ℕ) : Suited sid (s.giveUp sid n) := by
  rcases giveUp_cases sid s n with hsame | ⟨stage', hstage, hnot, -, heq⟩
  · rw [hsame]
    exact h
  · rw [heq]
    refine h.congr (fun m stage hm hflight => ?_) fun r hr => .inl hr
    by_cases hnm : n = m
    · subst hnm
      rw [stageAt_setStage_self (s := { s with queue := s.queue.erase n }) hstage] at hm
      rw [← Option.some.inj hm, hnot] at hflight
      cases hflight
    · rwa [stageAt_setStage_ne hnm] at hm

theorem Suited.go (h : Suited sid s) (hlocked : s.Locked) : Suited sid (s.go settings sid n answer) := by
  have hwent := went_go settings sid s n answer
  generalize s.go settings sid n answer = s' at hwent
  intro m stage r hm hr
  by_cases hnm : n = m
  · subst hnm
    cases hwent with
    | idle => exact h n stage r hm hr
    | asked hstage =>
      rw [ask, stageAt_setStage_self (s := { s with queue := s.queue ++ [n] }) hstage] at hm
      rw [← Option.some.inj hm]
      rfl
    | @entered op hop hstage hlock hhead p hp =>
      rw [settle, stageAt_setStage_self (s := { s with queue := s.queue.tail, instances := p.1, lock := if p.2.inFlight then some n else none })
        hstage] at hm
      obtain rfl := Option.some.inj hm
      cases hp with
      | ended | creating | removed => rfl
      | @deleting r' hr' =>
        have hsame : content s.instances sid = some r := hr
        rw [hr'] at hsame
        cases hsame
        simp [OpStage.suits]
    | @resumed stage' hstage hflight p hp =>
      rw [settle, stageAt_setStage_self (s := { s with instances := p.1, lock := if p.2.inFlight then some n else none }) hstage] at hm
      obtain rfl := Option.some.inj hm
      cases hp with
      | failed | ended | recorded | removed | inspecting => rfl
  · rw [hwent.stageAt_ne hnm] at hm
    cases hflight : stage.inFlight with
    | false => exact OpStage.suits_of_not_inFlight hflight _
    | true =>
      have hlock := (hlocked.held m).mpr ⟨stage, hm, hflight⟩
      cases hwent with
      | idle | asked => exact h m stage r hm hr
      | entered hop hstage hfree =>
        rw [hlock] at hfree
        cases hfree
      | resumed hstage hflight' =>
        have hother := (hlocked.held n).mpr ⟨_, hstage, hflight'⟩
        rw [hlock] at hother
        exact absurd (Option.some.inj hother).symm hnm

theorem Suited.step (h : Suited sid s) (hlocked : s.Locked) (htimely : Timely sid s ev) : Suited sid (s.step settings sid ev) := by
  cases ev with
  | register entry now => exact h.register htimely
  | update fields now => exact h.update htimely
  | deregister =>
    refine h.congr (fun _ _ hm _ => hm) fun r hr => ?_
    have hnone : content (TableRepo.deregister s.instances sid).1 sid = some r := hr
    rw [entry_deregister] at hnone
    cases hnone
  | call kind => exact h.call kind
  | giveUp n => exact h.giveUp n
  | go n answer => exact h.go hlocked

/-! ## The law -/

theorem Locked.run (h : s.Locked) (evs : List RuntimeEvent) : (Lib.run (RuntimeState.step settings sid) s evs).Locked :=
  (along_true : Along (RuntimeState.step settings sid) (fun _ _ => True) _ _).invariant h fun _ ev h _ => h.step ev

theorem Locked.untouched (evs : List RuntimeEvent) : ∀ {s : RuntimeState τ}, s.Locked → s.InFlight n →
    Along (RuntimeState.step settings sid) (RecordsNothing settings sid) s evs → (Lib.run (RuntimeState.step settings sid) s evs).InFlight n →
    (Lib.run (RuntimeState.step settings sid) s evs).entry sid = s.entry sid := by
  induction evs with
  | nil => exact fun _ _ _ _ => rfl
  | cons ev evs ih =>
    intro s h hn halong hlater
    obtain ⟨stage, hstage, hflight⟩ := hn
    obtain ⟨stage₁, hstage₁, hstarted₁, -⟩ :=
      (left_step hstage (OpStage.started_of_inFlight hflight) ev : ∃ stage₁, (s.step settings sid ev).stageAt n = some stage₁ ∧ _)
    -- An operation that has ended is not in flight later.
    have hflight₁ : stage₁.inFlight = true := by
      cases hflight₁ : stage₁.inFlight with
      | true => rfl
      | false =>
        obtain ⟨stage₂, hstage₂, -, hleft₂⟩ := (left_run evs hstage₁ hstarted₁ : ∃ stage₂, (Lib.run (RuntimeState.step settings sid) (s.step settings sid ev) evs).stageAt n = some stage₂ ∧ _)
        obtain ⟨stage', hstage', hflight'⟩ := hlater
        rw [run_cons] at hstage'
        rw [hstage₂] at hstage'
        obtain rfl := Option.some.inj hstage'
        have hpos := OpStage.left_pos hflight'
        have hnone : stage₁.left = 0 := by
          cases stage₁ with
          | creating | inspecting | deleting => cases hflight₁
          | listed | waiting | returned | raised => rfl
        omega
    have hsame := h.entry_step ⟨stage, hstage, hflight⟩ halong.1 fun result hresult => by
      rw [hstage₁] at hresult
      rw [Option.some.inj hresult] at hflight₁
      cases hflight₁
    rw [run_cons, ih (h.step ev) ⟨stage₁, hstage₁, hflight₁⟩ halong.2 hlater, hsame]

theorem Locked.inStep (h : s.Locked) (hsuited : Suited sid s) : InStep settings sid s where
  exclusive := by
    intro m n hm hn
    have hlock := (h.held n).mpr hn
    rw [(h.held m).mpr hm] at hlock
    exact Option.some.inj hlock
  untouched := by
    rintro n evs ev hn halong hlater ⟨e, hraised⟩
    rw [← h.untouched evs hn halong hlater]
    refine (h.run evs).entry_step hlater (fun hrecord => ?_) fun result hresult => ?_
    · -- It is not by a call of the record mode that an operation raises.
      obtain ⟨stage, hstage, hflight⟩ := hlater
      have hgoes : ev.goes n = false := by
        cases ev with
        | register | update | deregister => rfl
        | call | giveUp | go => cases hrecord
      have hne : stage ≠ .waiting := by
        rintro rfl
        cases hflight
      rw [stageAt_step hstage hne hgoes] at hraised
      rw [Option.some.inj hraised] at hflight
      cases hflight
    · rw [hraised] at hresult
      cases hresult
  refused := by
    rintro n ev hn hnot ⟨e, hraised⟩
    cases ev with
    | register | update | deregister => exact absurd ⟨e, hraised⟩ hnot
    | call kind => rfl
    | giveUp m => exact congrArg (content · sid) (giveUp_instances sid s m)
    | go m answer =>
      have hwent := went_go settings sid s m answer
      change (s.go settings sid m answer).entry sid = _
      change (s.go settings sid m answer).stageAt n = _ at hraised
      generalize s.go settings sid m answer = s' at hwent hraised
      by_cases hmn : m = n
      · subst hmn
        rcases hwent.instances with hsame | ⟨result, hresult⟩
        · exact congrArg (content · sid) hsame
        · rw [hraised] at hresult
          cases hresult
      · rw [hwent.stageAt_ne hmn] at hraised
        exact absurd ⟨e, hraised⟩ hnot
  removes := by
    intro n op r answer hop hdeletes hr hgone
    have hwent := went_go settings sid s n answer
    change (s.go settings sid n answer).entry sid = none at hgone
    generalize s.go settings sid n answer = s' at hwent hgone
    have hkept : s'.instances = s.instances → False := by
      intro hsame
      have hstill : s'.entry sid = some r := (congrArg (content · sid) hsame).trans hr
      rw [hgone] at hstill
      cases hstill
    cases hwent with
    | idle | asked => exact (hkept rfl).elim
    | @entered op' hop' hstage hlock hhead p hp =>
      rw [hop] at hop'
      obtain rfl := Option.some.inj hop'
      cases hp with
      | ended | creating | deleting => exact (hkept rfl).elim
      | removed _ hempty => exact .inl (hempty hdeletes r hr)
    | @resumed stage hstage hflight p hp =>
      cases hp with
      | failed | ended | inspecting => exact (hkept rfl).elim
      | recorded hr' => exact nomatch hr'.symm.trans hgone
      | removed hdeleting hanswer =>
        subst hdeleting
        have hsuits := hsuited n _ r hstage hr
        have heq : op.stage = .deleting _ := Option.some.inj ((stageAt_of_op hop).symm.trans hstage)
        simp only [OpStage.suits, Bool.or_eq_true, decide_eq_true_eq] at hsuits
        rcases hsuits with hsame | hempty
        · rw [hsame]
          exact .inr ⟨heq, hanswer⟩
        · exact .inl hempty
  held := fun n => (h.held n).mp
  released := by
    rintro n evs ⟨stage, hstage, hflight⟩ hcount hlock
    obtain ⟨stage', hstage', -, hleft⟩ :=
      (left_run evs hstage (OpStage.started_of_inFlight hflight) : ∃ stage', (Lib.run (RuntimeState.step settings sid) _ evs).stageAt n = some stage' ∧ _)
    obtain ⟨stage₂, hstage₂, hflight₂⟩ := ((h.run evs).held n).mp hlock
    rw [hstage'] at hstage₂
    obtain rfl := Option.some.inj hstage₂
    have hpos := OpStage.left_pos hflight₂
    have htwo := stage.left_le
    omega
  admits := by
    intro n answer hlock hhead
    have hwaiting : s.stageAt n = some .waiting := (h.queue n).mp (List.mem_of_mem_head? hhead)
    have hwent := went_go settings sid s n answer
    change ∃ stage, (s.go settings sid n answer).stageAt n = _ ∧ _
    generalize s.go settings sid n answer = s' at hwent
    cases hwent with
    | idle _ hturn => exact absurd ⟨hlock, hhead⟩ (hturn hwaiting)
    | asked hstage =>
      rw [hwaiting] at hstage
      cases hstage
    | @entered op hop hstage _ _ p hp =>
      exact ⟨p.2, stageAt_setStage_self
        (s := { s with queue := s.queue.tail, instances := p.1, lock := if p.2.inFlight then some n else none }) hstage p.2,
        hp.ne_waiting.1, hp.ne_waiting.2⟩
    | resumed hstage hflight =>
      rw [hwaiting] at hstage
      rw [← Option.some.inj hstage] at hflight
      cases hflight
  queued := fun n => (h.queue n).mpr

end Runs

end RuntimeState

/-- Along every run in which the record mode gives no other instance to an entry whose instance is being deleted,
the registry and the runtime stay in step. -/
theorem inStep_of_timely {τ : Type} [TableRepo InstanceRow τ] [LawfulTableRepo InstanceRow τ] (settings : RuntimeSettings) (sid : String)
    (instances : τ) (evs : List RuntimeEvent) (h : Along (RuntimeState.step settings sid) (Timely sid) { instances } evs) :
    InStep settings sid (run (RuntimeState.step settings sid) { instances } evs) := by
  have hstart : RuntimeState.Locked ({ instances } : RuntimeState τ) := by
    refine ⟨fun n => ⟨nofun, ?_⟩, fun n => ⟨nofun, nofun⟩, List.nodup_nil⟩
    rintro ⟨stage, hstage, -⟩
    cases hstage
  have hsuited : RuntimeState.Suited sid ({ instances } : RuntimeState τ) := fun n stage r hstage _ => nomatch hstage
  obtain ⟨hlocked, hsuited⟩ := h.invariant (I := fun s => s.Locked ∧ RuntimeState.Suited sid s) ⟨hstart, hsuited⟩
    fun _ ev hI htimely => ⟨hI.1.step ev, hI.2.step hI.1 htimely⟩
  exact hlocked.inStep hsuited

/-! A user's agent that is created, and then deleted. -/

def sampleCreate : CreateRequest where
  version := "1"
  workspace := "/work"
  runtimeSpec := some { runtime := "python", imageurl := some "agents/demo" }

/-- An update comes while the instance is being deleted, and names that instance. -/
def sampleOperations : List RuntimeEvent :=
  [.call (.create sampleCreate), .go 0 {}, .go 0 { sandboxId := "one" }, .go 0 { info := { sandboxIp := "10.0.0.1" } },
   .call .delete, .go 1 {}, .update { instanceId := some "one" } "noon", .go 1 {}]

theorem inStep_sample :
    Along (RuntimeState.step {} "ann+demo") (Timely "ann+demo") { instances := ({} : EtcdTable InstanceRow) } sampleOperations ∧
    InStep {} "ann+demo" (run (RuntimeState.step {} "ann+demo") { instances := ({} : EtcdTable InstanceRow) } sampleOperations) :=
  have htimely : Along (RuntimeState.step {} "ann+demo") (Timely "ann+demo") { instances := ({} : EtcdTable InstanceRow) }
      sampleOperations := by decide
  ⟨htimely, inStep_of_timely {} "ann+demo" _ sampleOperations htimely⟩

def sampleEntry : EntryRequest where
  kind := some "三方"
  framework := some "demo"
  frameworkVersion := some "1"
  user := some "ann"
  instanceId := some "one"

/-- An update names another instance while the first is being deleted. -/
def sampleReplacement : List RuntimeEvent :=
  [.register sampleEntry "morning", .call .delete, .go 0 {}, .update { instanceId := some "two" } "noon"]

/-- The entry that is removed then is that of the other instance, which is still at the runtime. -/
theorem replacement_removed :
    ¬ InStep {} "ann+demo" (run (RuntimeState.step {} "ann+demo") { instances := ({} : EtcdTable InstanceRow) } sampleReplacement) := by
  intro h
  generalize hs : run (RuntimeState.step {} "ann+demo") { instances := ({} : EtcdTable InstanceRow) } sampleReplacement = s at h
  have hop : s.ops[0]? = some { kind := .delete, stage := .deleting "one" } := by
    rw [← hs]
    decide
  obtain ⟨r, hr, hid⟩ : ∃ r ∈ s.entry "ann+demo", r.data.instanceId = "two" := by
    rw [← hs]
    decide
  have hgone : (s.step {} "ann+demo" (.go 0 {})).entry "ann+demo" = none := by
    rw [← hs]
    decide
  rcases h.removes 0 _ r {} hop rfl hr hgone with hempty | ⟨hsame, -⟩
  · rw [hid] at hempty
    exact absurd hempty (by decide)
  · rw [hid] at hsame
    exact absurd hsame (by decide)

end AgentProtocol.Instance
