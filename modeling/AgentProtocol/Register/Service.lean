-- SUMMARY: The in-memory registry: entries per dataset, the output cache, and the critical sections of register, update and deregister.
import AgentProtocol.Lib.Table

/-!
# Registry service

The part of `RegistryService` that replication reads and that local writes go
through. Each write is a sequence of critical sections under the registry lock
with file I/O in between, so the sections are separate definitions
(`commitRegister`, `readForUpdate`, `commitUpdate`, `commitDeregister`,
`regenerateOutput`) and the sequential operations are composed of them.

The type-specific part of an entry (`service_data`, `agent_card`, `skill_data`)
is carried as its JSON text: no function modelled here looks inside it, and the
merge that an update performs on it is a parameter of `updateService`.
-/

namespace AgentProtocol

open Lib

/-! ## Callers -/

inductive Role where
  | admin
  | provider
  | user
  deriving DecidableEq

structure AuthContext where
  principalId : String
  role : Role
  /-- `none` means all namespaces; only legal for admins. -/
  namespaces : Option (List String) := none

def AuthContext.isAdmin (ctx : AuthContext) : Bool := ctx.role = .admin

/-- The auth module, as far as its callers see it: a token is either refused or
resolved to a caller. -/
structure AuthStore where
  authenticate : String → Option AuthContext

/-! ## Entries -/

inductive ServiceType where
  | generic
  | a2a
  | skill
  deriving DecidableEq

inductive Source where
  | userConfig
  | apiConfig
  | ephemeral
  | skillFolder
  deriving DecidableEq

structure RegistryEntry where
  serviceId : String
  type : ServiceType
  source : Source
  data : String
  ownerId : Option String := none
  leaseTtl : Option ℤ := none
  deriving DecidableEq

/-- A row of `service.json`. Its name, description and metadata are functions of
`type` and `data`. -/
structure ServiceRow where
  id : String
  type : ServiceType
  data : String
  ownerId : Option String := none
  /-- Set on rows that replicate another registry's record. -/
  originId : Option String := none
  deriving DecidableEq

def entryToOutput (entry : RegistryEntry) : ServiceRow where
  id := entry.serviceId
  type := entry.type
  data := entry.data
  ownerId := entry.ownerId

inductive RegistryError where
  | notFound
  | valueError
  | permissionError

abbrev Entries := Table RegistryEntry.serviceId

structure RegistryService where
  /-- The dataset directories on disk. -/
  datasets : List String := []
  entries : Dict String Entries := ∅
  outputCache : Dict String (List ServiceRow) := ∅
  /-- `auth_config.json` per dataset; absent means not required. -/
  authConfig : Dict String Bool := ∅

namespace RegistryService

variable (reg : RegistryService)

/-! ## Queries -/

def listDatasets : List String := reg.datasets.insertionSort (· ≤ ·)

def entriesOf (dataset : String) : Entries := (reg.entries.lookup dataset).getD ∅

def listEntries (dataset : String) : List RegistryEntry := (reg.entriesOf dataset).rows

def listServices (dataset : String) : List ServiceRow := (reg.outputCache.lookup dataset).getD []

def getEntry (dataset serviceId : String) : Option RegistryEntry :=
  (reg.entriesOf dataset).get? serviceId

def isAuthRequired (dataset : String) : Bool :=
  decide (dataset ∈ reg.datasets) && (reg.authConfig.lookup dataset).getD false

variable {ds : String}

@[simp] theorem mem_listDatasets {reg : RegistryService} : ds ∈ reg.listDatasets ↔ ds ∈ reg.datasets := by
  simp [listDatasets]

theorem mem_listEntries {reg : RegistryService} {e : RegistryEntry} :
    e ∈ reg.listEntries ds ↔ reg.getEntry ds e.serviceId = some e :=
  Table.mem_iff_get?

/-! ## Writes -/

/-- `_assert_owner`: admins may touch everything, unclaimed entries are
admin-only, and otherwise the caller must own the entry. -/
def assertOwner (entry : RegistryEntry) (caller : AuthContext) : Except RegistryError Unit :=
  if caller.isAdmin then .ok ()
  else match entry.ownerId with
    | none => .error .permissionError
    | some owner => if owner = caller.principalId then .ok () else .error .permissionError

/-- The owner check of a mutation; anonymous callers are not checked. -/
def checkOwner (entry : RegistryEntry) : Option AuthContext → Except RegistryError Unit
  | none => .ok ()
  | some caller => assertOwner entry caller

def ensureDatasetInitialized (dataset : String) : RegistryService :=
  if dataset ∈ reg.datasets then reg else { reg with datasets := reg.datasets ++ [dataset] }

def putEntry (dataset : String) (entry : RegistryEntry) : RegistryService :=
  { reg with entries := reg.entries.set dataset ((reg.entriesOf dataset).insert entry) }

/-- The critical section of `_do_register`. -/
def commitRegister (dataset : String) (entry : RegistryEntry) : RegistryService :=
  (reg.ensureDatasetInitialized dataset).putEntry dataset entry

/-- The first critical section of `update_service`. -/
def readForUpdate (dataset serviceId : String) (caller : Option AuthContext) :
    Except RegistryError RegistryEntry :=
  match reg.getEntry dataset serviceId with
  | none => .error .notFound
  | some entry =>
    if entry.source = .userConfig then .error .valueError
    else (checkOwner entry caller).map fun _ => entry

/-- The second critical section of `update_service`: a concurrent deregister
wins over the update. -/
def commitUpdate (dataset : String) (newEntry : RegistryEntry) : Except RegistryError RegistryService :=
  match reg.getEntry dataset newEntry.serviceId with
  | none => .error .notFound
  | some _ => .ok (reg.putEntry dataset newEntry)

/-- The critical section of `deregister`. -/
def commitDeregister (dataset serviceId : String) (caller : Option AuthContext) :
    Except RegistryError RegistryService :=
  match reg.getEntry dataset serviceId with
  | none => .error .notFound
  | some entry =>
    if entry.source = .userConfig then .error .valueError
    else if entry.source = .skillFolder then .error .valueError
    else (checkOwner entry caller).map fun _ =>
      { reg with entries := reg.entries.set dataset ((reg.entriesOf dataset).erase serviceId) }

/-- `_regenerate_output`: rebuild the output cache from the current entries. -/
def regenerateOutput (dataset : String) : RegistryService :=
  { reg with
    outputCache := reg.outputCache.set dataset ((reg.listEntries dataset).map entryToOutput) }

/-- `_do_register`, without the replication hook. -/
def doRegister (dataset : String) (entry : RegistryEntry) : RegistryService :=
  (reg.commitRegister dataset entry).regenerateOutput dataset

/-- `update_service`, without the replication hook. `merge` is the type-specific
merge of the updates into the entry's data, which may refuse them. -/
def updateService (dataset serviceId : String) (merge : String → Except RegistryError String)
    (caller : Option AuthContext) : Except RegistryError RegistryService := do
  let entry ← reg.readForUpdate dataset serviceId caller
  let data ← merge entry.data
  let reg ← reg.commitUpdate dataset { entry with data }
  pure (reg.regenerateOutput dataset)

/-- `deregister`, without the replication hook. -/
def deregister (dataset serviceId : String) (caller : Option AuthContext) :
    Except RegistryError RegistryService := do
  let reg ← reg.commitDeregister dataset serviceId caller
  pure (reg.regenerateOutput dataset)

/-- `delete_dataset`: drop the directory and every cache that belongs to it. -/
def deleteDataset (name : String) : Except RegistryError RegistryService :=
  if name ∈ reg.datasets then
    .ok { reg with
      datasets := reg.datasets.filter (· ≠ name)
      entries := reg.entries.erase name
      outputCache := reg.outputCache.erase name
      authConfig := reg.authConfig.erase name }
  else .error .valueError

/-! ## What the critical sections do to an entry -/

@[simp] theorem getEntry_ensureDatasetInitialized (reg : RegistryService) (dataset ds sid : String) :
    (reg.ensureDatasetInitialized dataset).getEntry ds sid = reg.getEntry ds sid := by
  unfold ensureDatasetInitialized
  split <;> rfl

@[simp] theorem getEntry_regenerateOutput (reg : RegistryService) (dataset ds sid : String) :
    (reg.regenerateOutput dataset).getEntry ds sid = reg.getEntry ds sid := rfl

@[simp] theorem getEntry_putEntry_self (reg : RegistryService) (dataset : String) (entry : RegistryEntry) :
    (reg.putEntry dataset entry).getEntry dataset entry.serviceId = some entry := by
  simp [getEntry, entriesOf, putEntry]

variable {entry : RegistryEntry}

theorem commitUpdate_ok {reg reg' : RegistryService} {dataset : String}
    (h : reg.commitUpdate dataset entry = .ok reg') : reg' = reg.putEntry dataset entry := by
  unfold commitUpdate at h
  split at h
  · cases h
  exact (Except.ok.inj h).symm

variable {caller : Option AuthContext} {dataset sid : String}

theorem getEntry_of_commitDeregister {reg reg' : RegistryService}
    (h : reg.commitDeregister dataset sid caller = .ok reg') : reg'.getEntry dataset sid = none := by
  unfold commitDeregister at h
  split at h
  · cases h
  split at h
  · cases h
  split at h
  · cases h
  rename_i entry _ _ _
  cases hcheck : checkOwner entry caller with
  | error e =>
    rw [hcheck] at h
    cases h
  | ok _ =>
    rw [hcheck] at h
    cases h
    simp [getEntry, entriesOf, Table.get?_erase]

theorem serviceId_of_readForUpdate {reg : RegistryService}
    (h : reg.readForUpdate dataset sid caller = .ok entry) : entry.serviceId = sid := by
  unfold readForUpdate at h
  split at h
  · cases h
  rename_i e he
  split at h
  · cases h
  cases hcheck : checkOwner e caller with
  | error _ =>
    rw [hcheck] at h
    cases h
  | ok _ =>
    rw [hcheck] at h
    cases h
    exact Table.key_of_get? he

end RegistryService

end AgentProtocol
