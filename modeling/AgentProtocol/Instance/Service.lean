-- SUMMARY: Rows of the instances registry and the operations that record them.
import AgentProtocol.Tables.Repo

/-!
# Instances

The record mode of `InstanceService`: instances are started and stopped by others, and registered,
updated and removed here. An instance refers to an image by the image's name, or, on older rows, by
what the image displays as its framework.
-/

namespace AgentProtocol.Instance

open Lib Tables

/-- `VALID_KINDS`. -/
inductive InstanceKind where
  | thirdParty
  | builtin
  deriving DecidableEq

def InstanceKind.text : InstanceKind → String
  | .thirdParty => "三方"
  | .builtin => "九问"

def InstanceKind.parse (kind : String) : Option InstanceKind := [InstanceKind.thirdParty, .builtin].find? (·.text = kind)

/-- `VALID_STATUSES`. -/
inductive InstanceStatus where
  | running
  | stopped
  | failed
  deriving DecidableEq

def InstanceStatus.text : InstanceStatus → String
  | .running => "运行"
  | .stopped => "停止"
  | .failed => "异常"

def InstanceStatus.parse (status : String) : Option InstanceStatus :=
  [InstanceStatus.running, .stopped, .failed].find? (·.text = status)

/-! ## Rows -/

structure InstanceData where
  address : String := ""
  instanceId : String := ""
  imageName : String := ""
  createdAt : String
  lastActiveAt : String
  status : InstanceStatus := .running
  deriving DecidableEq

structure InstanceRow where
  serviceId : String
  kind : InstanceKind
  framework : String
  frameworkVersion : String
  node : String := ""
  user : String
  data : InstanceData

namespace InstanceRow

def column (r : InstanceRow) : String → Cell
  | "kind" => .text r.kind.text
  | "framework" => .text r.framework
  | "framework_version" => .text r.frameworkVersion
  | "node" => .text r.node
  | "user" => .text r.user
  | _ => .null

def field (r : InstanceRow) : String → Cell
  | "address" => .text r.data.address
  | "instance_id" => .text r.data.instanceId
  | "image_name" => .text r.data.imageName
  | "created_at" => .text r.data.createdAt
  | "last_active_at" => .text r.data.lastActiveAt
  | "status" => .text r.data.status.text
  | _ => .null

structure Patch where
  node : Option String := none
  data : Option InstanceData := none
  deriving DecidableEq

def apply (p : Patch) (r : InstanceRow) : InstanceRow := { r with node := p.node.getD r.node, data := p.data.getD r.data }

instance : Kind InstanceRow where
  serviceId := serviceId
  columns := ["kind", "framework", "framework_version", "node", "user"]
  column := column
  field := field
  Patch := Patch
  isEmpty p := p = {}
  apply := apply
  serviceId_apply _ _ := rfl

variable (r : InstanceRow)

@[simp] theorem serviceId_eq : Kind.serviceId r = r.serviceId := rfl

@[simp] theorem cellAt_serviceId : cellAt r (.column "service_id") = .text r.serviceId := rfl

end InstanceRow

/-! ## Operations -/

inductive InstanceError where
  | missingField (field : String)
  | invalidKind (kind : String)
  | noField
  | invalidStatus (status : String)
  | notFound (serviceId : String)
  | repo (e : RepoError)

/-- An entry as it is sent; `none` for a field that is missing. -/
structure EntryRequest where
  serviceId : Option String := none
  kind : Option String := none
  framework : Option String := none
  frameworkVersion : Option String := none
  user : Option String := none
  node : Option String := none
  address : Option String := none
  instanceId : Option String := none
  imageName : Option String := none

structure UpdateFields where
  node : Option String := none
  address : Option String := none
  instanceId : Option String := none
  status : Option String := none
  deriving DecidableEq

structure InstanceEntry where
  serviceId : String
  kind : InstanceKind
  framework : String
  frameworkVersion : String
  node : String
  address : String
  instanceId : String
  imageName : String
  user : String
  createdAt : String
  lastActiveAt : String
  status : InstanceStatus
  deriving DecidableEq

def toEntry (r : InstanceRow) : InstanceEntry where
  serviceId := r.serviceId
  kind := r.kind
  framework := r.framework
  frameworkVersion := r.frameworkVersion
  node := r.node
  address := r.data.address
  instanceId := r.data.instanceId
  imageName := r.data.imageName
  user := r.user
  createdAt := r.data.createdAt
  lastActiveAt := r.data.lastActiveAt
  status := r.data.status

def required (field : String) : Option String → Except InstanceError String
  | none | some "" => .error (.missingField field)
  | some value => .ok value

section Service

variable {τ : Type} [TableRepo InstanceRow τ]

def rowsOf (instances : τ) (f : Filter) : Except InstanceError (List InstanceRow) :=
  (TableRepo.query instances f).mapError .repo

def registerInstance (instances : τ) (entry : EntryRequest) (now : String) : Except InstanceError (τ × InstanceEntry) := do
  let serviceId ← required "service_id" entry.serviceId
  let kind ← required "kind" entry.kind
  let framework ← required "framework" entry.framework
  let frameworkVersion ← required "framework_version" entry.frameworkVersion
  let user ← required "user" entry.user
  let some kind := InstanceKind.parse kind | .error (.invalidKind kind)
  let existing ← rowsOf instances [(.column "service_id", .text serviceId)]
  let row : InstanceRow :=
    { serviceId, kind, framework, frameworkVersion, node := entry.node.getD "", user
      data := { address := entry.address.getD "", instanceId := entry.instanceId.getD "", imageName := entry.imageName.getD ""
                createdAt := (existing.head?.map (·.data.createdAt)).getD now, lastActiveAt := now } }
  let (instances', stored) ← (TableRepo.register instances row).mapError .repo
  .ok (instances', toEntry stored)

/-- `update_instance`; a new address counts as activity. -/
def updateInstance (instances : τ) (serviceId : String) (fields : UpdateFields) (now : String) :
    Except InstanceError (τ × InstanceEntry) := do
  if fields = {} then .error .noField
  else
    let status ← match fields.status with
      | none => .ok none
      | some text => match InstanceStatus.parse text with
        | none => .error (.invalidStatus text)
        | some status => .ok (some status)
    let existing ← rowsOf instances [(.column "service_id", .text serviceId)]
    match existing.head? with
    | none => .error (.notFound serviceId)
    | some row =>
      let data := { row.data with
        instanceId := fields.instanceId.getD row.data.instanceId, status := status.getD row.data.status
        address := fields.address.getD row.data.address
        lastActiveAt := if fields.address.isSome then now else row.data.lastActiveAt }
      let changed := fields.instanceId.isSome || fields.status.isSome || fields.address.isSome
      let patch : InstanceRow.Patch := { node := fields.node, data := if changed then some data else none }
      let (instances', updated) ← (TableRepo.patch instances serviceId patch).mapError .repo
      .ok (instances', toEntry updated)

/-- `deregister_instance`: removing an instance that does not exist is no error. -/
def deregisterInstance (instances : τ) (serviceId : String) : τ × Bool := TableRepo.deregister instances serviceId

end Service

end AgentProtocol.Instance
