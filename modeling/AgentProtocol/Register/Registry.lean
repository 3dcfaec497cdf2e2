-- SUMMARY: One dataset of the registry: startup from its files, and the register, update, deregister and taxonomy operations on memory and disk.
import AgentProtocol.Register.Store

/-!
# The registry of one dataset

`Registry` is what `RegistryService` holds for one dataset that `startup` has found, together
with the files of the dataset. Operations may fail after they have written to disk, so each
gives back its result and the registry it leaves, whatever the result.

The critical sections and file writes of an operation are definitions of their own, and the
operations are composed of them.
-/

namespace AgentProtocol.Register

open Lib

inductive TaxonomyState where
  | nonexistent
  | available
  | unavailable
  | stale
  deriving DecidableEq

structure Registry where
  formats : FormatConfig := {}
  store : RegistryStore := {}
  entries : Table Entry.serviceId := ∅
  outputCache : Option (List OutputRow) := none
  taxonomy : TaxonomyState := .nonexistent

/-! ## Requests -/

structure RegisterGenericRequest where
  serviceId : Option String := none
  name : String
  description : String
  inputSchema : Json := .obj .nil
  url : String := ""
  persistent : Bool := true
  leaseTtl : Option ℤ := none

structure RegisterA2ARequest where
  serviceId : Option String := none
  agentCard : Option AgentCard := none
  agentCardUrl : Option String := none
  /-- What fetching the URL gives. -/
  fetched : Option AgentCard := none
  persistent : Bool := true
  leaseTtl : Option ℤ := none

inductive Status where
  | registered
  | updated
  | deleted
  | notFound
  deriving DecidableEq

inductive Response where
  | register (serviceId : String) (status : Status)
  | deregister (serviceId : String)
  | update (serviceId : String) (changedFields : List String) (taxonomyAffected : Bool)
  | skill (name serviceId : String) (status : Status)
  deriving DecidableEq

/-! ## Authorization -/

def assertCanRegister : Option AuthContext → Except Failure Unit
  | none => .ok ()
  | some caller => if caller.isAdmin || caller.role = .provider then .ok () else .error (.roleCannotRegister caller.role)

def assertOwner (entry : Entry) (caller : AuthContext) : Except Failure Unit :=
  if caller.isAdmin then .ok ()
  else match entry.ownerId with
    | none => .error .unclaimed
    | some owner => if owner = caller.principalId then .ok () else .error (.ownedByAnother entry.serviceId)

/-- The owner check of a mutation; anonymous callers are not checked. -/
def checkOwner (entry : Entry) : Option AuthContext → Except Failure Unit
  | none => .ok ()
  | some caller => assertOwner entry caller

/-! ## New entries -/

def sourceOf (persistent : Bool) : Source := if persistent then .apiConfig else .ephemeral

/-- The id in a request, or a generated one. -/
def resolveId (serviceId : Option String) (typePrefix name : String) : String :=
  (serviceId.filter (· ≠ "")).getD (generateServiceId typePrefix name)

def RegisterGenericRequest.entry (req : RegisterGenericRequest) (caller : Option AuthContext) : Entry where
  serviceId := resolveId req.serviceId "generic" req.name
  source := sourceOf req.persistent
  ownerId := caller.map (·.principalId)
  leaseTtl := req.leaseTtl
  payload := .generic { name := req.name, description := req.description, inputSchema := req.inputSchema, url := some req.url }

/-- The card of a request, and the URL that it came from. -/
def RegisterA2ARequest.card (req : RegisterA2ARequest) : Except Failure (AgentCard × Option String) :=
  match req.agentCard with
  | some card => .ok (card, none)
  | none => match req.agentCardUrl.filter (· ≠ "") with
    | none => .error .noCardGiven
    | some url => match req.fetched with
      | none => .error .fetchFailed
      | some card => .ok (card, some url)

def RegisterA2ARequest.entry (req : RegisterA2ARequest) (card : AgentCard) (url : Option String)
    (caller : Option AuthContext) : Entry where
  serviceId := resolveId req.serviceId "agent" card.name
  source := sourceOf req.persistent
  ownerId := caller.map (·.principalId)
  leaseTtl := req.leaseTtl
  payload := .a2a (some card) url

def skillEntry (data : SkillData) (caller : Option AuthContext) : Entry where
  serviceId := generateServiceId "skill" data.name
  source := .skillFolder
  ownerId := caller.map (·.principalId)
  payload := .skill data

/-! ## Updated entries -/

def applyGenericUpdates (d : GenericServiceData) (updates : Updates) : Except Failure (GenericServiceData × List String) :=
  let unknown := (updates.rows.map Prod.fst).filter (· ∉ ["name", "description", "inputSchema", "url"])
  if unknown ≠ [] then .error (.unknownFields unknown)
  else match setAll GenericServiceData.set d updates with
    | none => .error .badField
    | some new => .ok (new, changedKeys d.get? updates)

def applyA2aUpdates (card : Option AgentCard) (updates : Updates) : Except Failure (AgentCard × List String) :=
  match card with
  | none => .error .cardUnresolved
  | some card => match setAll AgentCard.set card updates with
    | none => .error .badField
    | some new => .ok (new, changedKeys card.get? updates)

/-- What `_apply_skill_updates` writes into `SKILL.md`: the fields that change, unless to null. In lists and objects all
characters beyond ASCII are taken to be printable. -/
def skillMdUpdates (d : SkillData) (updates : Updates) : List (String × String) :=
  ["name", "description", "license"].filterMap fun key =>
    match updates.lookup key with
    | none => none
    | some .null => none
    | some value => if d.get? key = some value then none else some (key, value.pyStr fun _ => true)

/-- `_apply_skill_updates`, which writes the folder before it parses the result. -/
def applySkillUpdates (s : RegistryStore) (d : SkillData) (updates : Updates) :
    Except Failure (SkillData × List String) × RegistryStore :=
  let unknown := (updates.rows.map Prod.fst).filter (· ∉ ["name", "description", "license"])
  let mdUpdates := skillMdUpdates d updates
  if unknown ≠ [] then (.error (.unknownFields unknown), s)
  else match (updates.lookup "name").getD (.str d.name) with
    | .str new => match s.renameSkill d.name new with
      | .error e => (.error e, s)
      | .ok s => match if mdUpdates = [] then .ok s else s.updateSkillMd new mdUpdates with
        | .error e => (.error e, s)
        | .ok s => match setAll SkillData.set d updates with
          | none => (.error .badField, s)
          | some d' =>
            (.ok (if new = d.name then d' else { d' with skillPath := "skills/" ++ new }, changedKeys d.get? updates), s)
    | .null => (.error (if mdUpdates = [] then .badField else .typeError), s)
    | _ => (.error .typeError, s)

namespace Registry

/-! ## Sections and file writes -/

def output (r : Registry) : List OutputRow := r.entries.rows.map Entry.toOutput

def put (r : Registry) (entry : Entry) : Registry := { r with entries := r.entries.insert entry }

def delete (r : Registry) (serviceId : String) : Registry := { r with entries := r.entries.erase serviceId }

/-- The critical section of `_regenerate_output`; the flag says whether to write the file. -/
def refreshCache (r : Registry) : Bool × Registry :=
  (r.outputCache ≠ some r.output, { r with outputCache := some r.output })

def regenerateOutput (r : Registry) : Registry :=
  let (changed, r) := r.refreshCache
  if changed then { r with store := r.store.writeServiceJson r.output } else r

def markTaxonomyStale (r : Registry) : Registry :=
  if r.taxonomy = .available then { r with taxonomy := .stale } else r

def saveIfApi (r : Registry) (entry : Entry) : Registry :=
  if entry.source = .apiConfig then { r with store := r.store.saveApiEntry entry } else r

def removeIfApi (r : Registry) (entry : Entry) : Registry :=
  if entry.source = .apiConfig then { r with store := r.store.removeApiEntry entry.serviceId } else r

/-! ## Register -/

/-- `_do_register`. An entry is persistent iff its source is `api_config`. -/
def doRegister (r : Registry) (entry : Entry) : Except Failure Response × Registry :=
  let status := if (r.entries.get? entry.serviceId).isSome then .updated else .registered
  (.ok (.register entry.serviceId status), ((r.put entry).saveIfApi entry).regenerateOutput.markTaxonomyStale)

def registerGeneric (r : Registry) (req : RegisterGenericRequest) (caller : Option AuthContext) :
    Except Failure Response × Registry :=
  match (do assertCanRegister caller; requireValid r.formats (req.entry caller).payload) with
  | .error e => (.error e, r)
  | .ok () => r.doRegister (req.entry caller)

def registerA2a (r : Registry) (req : RegisterA2ARequest) (caller : Option AuthContext) :
    Except Failure Response × Registry :=
  match (do
      assertCanRegister caller
      let (card, url) ← req.card
      requireValid r.formats (.a2a (some card) url)
      pure (card, url)) with
  | .error e => (.error e, r)
  | .ok (card, url) => r.doRegister (req.entry card url caller)

/-- The part of `register_skill` after the archive was saved. -/
def commitSkill (r : Registry) (data : SkillData) (caller : Option AuthContext) : Except Failure Response × Registry :=
  let entry := skillEntry data caller
  match requireValid r.formats entry.payload with
  | .error e => (.error e, r)
  | .ok () =>
    let committed := ((r.put entry).regenerateOutput).markTaxonomyStale
    match r.entries.get? entry.serviceId with
    | none => (.ok (.skill data.name entry.serviceId .registered), committed)
    | some existing => match checkOwner existing caller with
      | .error e => (.error e, r)
      | .ok () => (.ok (.skill data.name entry.serviceId .updated), committed)

def registerSkill (r : Registry) (zip : Zip) (caller : Option AuthContext) : Except Failure Response × Registry :=
  match (do assertCanRegister caller; requireTypeAllowed r.formats .skill) with
  | .error e => (.error e, r)
  | .ok () =>
    let (saved, store) := r.store.saveSkillZip zip
    let r := { r with store }
    match saved with
    | .error e => (.error e, r)
    | .ok data => r.commitSkill data caller

/-! ## Deregister -/

def deregister (r : Registry) (serviceId : String) (caller : Option AuthContext) : Except Failure Response × Registry :=
  match r.entries.get? serviceId with
  | none => (.error (.notFound serviceId), r)
  | some entry =>
    if entry.source = .userConfig then (.error .userConfigEntry, r)
    else if entry.source = .skillFolder then (.error .skillEntry, r)
    else match checkOwner entry caller with
      | .error e => (.error e, r)
      | .ok () =>
        (.ok (.deregister serviceId), ((r.delete serviceId).removeIfApi entry).regenerateOutput.markTaxonomyStale)

def deregisterSkill (r : Registry) (name : String) (caller : Option AuthContext) : Except Failure Response × Registry :=
  let serviceId := generateServiceId "skill" name
  match r.entries.get? serviceId with
  | none => (.ok (.skill name "" .notFound), r)
  | some entry => match checkOwner entry caller with
    | .error e => (.error e, r)
    | .ok () =>
      let r := r.delete serviceId
      (.ok (.skill name serviceId .deleted), ({ r with store := r.store.removeSkill name }).regenerateOutput.markTaxonomyStale)

/-! ## Update -/

/-- The first critical section of `update_service`. -/
def readForUpdate (r : Registry) (serviceId : String) (caller : Option AuthContext) : Except Failure Entry :=
  match r.entries.get? serviceId with
  | none => .error (.notFound serviceId)
  | some entry =>
    if entry.source = .userConfig then .error .userConfigEntry
    else (checkOwner entry caller).map fun _ => entry

/-- The merge of the updates by type, with the disk writes that it makes. -/
def applyUpdates (s : RegistryStore) (entry : Entry) (updates : Updates) :
    Except Failure (Entry × List String) × RegistryStore :=
  match entry.payload with
  | .generic d =>
    ((applyGenericUpdates d updates).map fun p => ({ entry with payload := .generic p.1 }, p.2), s)
  | .a2a card url =>
    ((applyA2aUpdates card updates).map fun p => ({ entry with payload := .a2a (some p.1) url }, p.2), s)
  | .skill d =>
    let (result, s) := applySkillUpdates s d updates
    (result.map fun p => ({ entry with payload := .skill p.1 }, p.2), s)

def taxonomyAffected (changed : List String) : Bool := changed.any fun key => key = "name" || key = "description"

/-- The second critical section of `update_service` and what follows it. -/
def commitUpdate (r : Registry) (new : Entry) (changed : List String) : Except Failure Response × Registry :=
  match r.entries.get? new.serviceId with
  | none => (.error (.notFound new.serviceId), r)
  | some _ =>
    let r := ((r.put new).saveIfApi new).regenerateOutput
    (.ok (.update new.serviceId (changed.insertionSort (· ≤ ·)) (taxonomyAffected changed)),
      if taxonomyAffected changed then r.markTaxonomyStale else r)

def updateService (r : Registry) (serviceId : String) (updates : Updates) (caller : Option AuthContext) :
    Except Failure Response × Registry :=
  match r.readForUpdate serviceId caller with
  | .error e => (.error e, r)
  | .ok entry =>
    let (result, store) := applyUpdates r.store entry updates
    let r := { r with store }
    match result with
    | .error e => (.error e, r)
    | .ok (new, changed) => r.commitUpdate new changed

/-! ## Taxonomy -/

def computeTaxonomyState (r : Registry) : TaxonomyState :=
  match r.store.files.serviceHash with
  | none => .nonexistent
  | some stored =>
    if !r.store.files.taxonomyJson then .nonexistent
    else if computeBuildHash (r.outputCache.getD []) = stored then .available
    else .unavailable

def checkTaxonomyState (r : Registry) : TaxonomyState × Registry :=
  if r.taxonomy = .stale then (r.computeTaxonomyState, { r with taxonomy := r.computeTaxonomyState })
  else (r.taxonomy, r)

/-! ## Startup -/

/-- Config rows override earlier ones; those that fail validation are skipped. -/
def mergeConfig (formats : FormatConfig) (entries : List Entry) : Table Entry.serviceId :=
  (∅ : Table Entry.serviceId).insertAll (entries.filter fun e => validateEntry formats true e.payload)

/-- One round of the loop over the skill folders, which override nothing. -/
def mergeSkill (formats : FormatConfig) (merged : Table Entry.serviceId) (e : Entry) : Table Entry.serviceId :=
  if (merged.get? e.serviceId).isSome then merged
  else if validateEntry formats false e.payload then merged.insert e
  else merged

def cardUrl (e : Entry) : Option String :=
  match e.payload with
  | .a2a _ url => url.filter (· ≠ "")
  | _ => none

/-- The entry with the card that its URL gives, if any. -/
def withFetched (fetch : String → Option AgentCard) (e : Entry) : Entry :=
  match (cardUrl e).bind fetch with
  | none => e
  | some card => { e with payload := .a2a (some card) (cardUrl e) }

/-- The fetched card goes into the entry, unless another one has taken its place. -/
def fetchCard (fetch : String → Option AgentCard) (merged : Table Entry.serviceId) (e : Entry) : Table Entry.serviceId :=
  if merged.get? e.serviceId = some e then merged.insert (withFetched fetch e) else merged

/-- An entry whose card does not pass after the fetch is dropped. -/
def dropInvalid (formats : FormatConfig) (fetch : String → Option AgentCard) (merged : Table Entry.serviceId) (e : Entry) :
    Table Entry.serviceId :=
  match (withFetched fetch e).payload with
  | .a2a (some card) url => if validateEntry formats false (.a2a (some card) url) then merged else merged.erase e.serviceId
  | _ => merged

/-- The entries that the files give: phases 1 and 2. -/
def loadEntries (formats : FormatConfig) (files : Files) (fetch : String → Option AgentCard) : Table Entry.serviceId :=
  let config := files.loadUserConfig ++ files.loadApiConfig
  let urls := config.filter fun e => validateEntry formats true e.payload && (cardUrl e).isSome
  let merged := files.loadSkills.foldl (mergeSkill formats) (mergeConfig formats config)
  urls.foldl (dropInvalid formats fetch) (urls.foldl (fetchCard fetch) merged)

def startup (formats : FormatConfig) (files : Files) (fetch : String → Option AgentCard) : Registry :=
  let entries := loadEntries formats files fetch
  let store : RegistryStore := { files, apiEntries := (∅ : Table Entry.serviceId).insertAll files.loadApiConfig }
  let batch := entries.rows.filter fun e => e.source = .apiConfig
  let store := if batch = [] then store else store.saveApiBatch batch
  let r := regenerateOutput { formats, store, entries }
  { r with taxonomy := r.computeTaxonomyState }

def restart (r : Registry) (fetch : String → Option AgentCard) : Registry := startup r.formats r.store.files fetch

end Registry

/-! ## Calls -/

inductive Op where
  | registerGeneric (req : RegisterGenericRequest)
  | registerA2a (req : RegisterA2ARequest)
  | registerSkill (zip : Zip)
  | updateService (serviceId : String) (updates : Updates)
  | deregister (serviceId : String)
  | deregisterSkill (name : String)

structure Call where
  op : Op
  caller : Option AuthContext := none

namespace Registry

def exec (r : Registry) (c : Call) : Except Failure Response × Registry :=
  match c.op with
  | .registerGeneric req => r.registerGeneric req c.caller
  | .registerA2a req => r.registerA2a req c.caller
  | .registerSkill zip => r.registerSkill zip c.caller
  | .updateService serviceId updates => r.updateService serviceId updates c.caller
  | .deregister serviceId => r.deregister serviceId c.caller
  | .deregisterSkill name => r.deregisterSkill name c.caller

def step (r : Registry) (c : Call) : Registry := (r.exec c).2

/-- The id that a call is about, if it gets as far as having one. -/
def target (c : Call) : Option String :=
  match c.op with
  | .registerGeneric req => some (req.entry c.caller).serviceId
  | .registerA2a req => req.card.toOption.map fun p => (req.entry p.1 p.2 c.caller).serviceId
  | .registerSkill zip => zip.open?.toOption.map fun p => generateServiceId "skill" p.1.name
  | .updateService serviceId _ => some serviceId
  | .deregister serviceId => some serviceId
  | .deregisterSkill name => some (generateServiceId "skill" name)

/-! ## What the sections leave alone -/

variable (r : Registry)

variable (e : Entry)

@[simp] theorem put_store : (r.put e).store = r.store := rfl
@[simp] theorem put_entries : (r.put e).entries = r.entries.insert e := rfl
@[simp] theorem put_formats : (r.put e).formats = r.formats := rfl
@[simp] theorem delete_store (sid : String) : (r.delete sid).store = r.store := rfl
@[simp] theorem delete_entries (sid : String) : (r.delete sid).entries = r.entries.erase sid := rfl

theorem regenerateOutput_eq : r.regenerateOutput = { r with
        outputCache := some r.output
        store := if r.outputCache = some r.output then r.store else r.store.writeServiceJson r.output } := by
  by_cases h : r.outputCache = some r.output
  · simp [regenerateOutput, refreshCache, h]
  · simp only [regenerateOutput, refreshCache, h, ne_eq, not_false_eq_true, decide_true, if_true, if_false]
    rfl

@[simp] theorem regenerateOutput_entries : r.regenerateOutput.entries = r.entries := by
  rw [regenerateOutput_eq]

@[simp] theorem regenerateOutput_formats : r.regenerateOutput.formats = r.formats := by
  rw [regenerateOutput_eq]

@[simp] theorem regenerateOutput_outputCache : r.regenerateOutput.outputCache = some r.output := by
  rw [regenerateOutput_eq]

@[simp] theorem regenerateOutput_apiEntries : r.regenerateOutput.store.apiEntries = r.store.apiEntries := by
  rw [regenerateOutput_eq]
  dsimp only
  split <;> rfl

theorem regenerateOutput_files :
    r.regenerateOutput.store.files = { r.store.files with serviceJson := r.regenerateOutput.store.files.serviceJson } := by
  rw [regenerateOutput_eq]
  dsimp only
  split <;> rfl

@[simp] theorem regenerateOutput_userConfig :
    r.regenerateOutput.store.files.userConfig = r.store.files.userConfig := by rw [regenerateOutput_files]

@[simp] theorem regenerateOutput_apiConfig :
    r.regenerateOutput.store.files.apiConfig = r.store.files.apiConfig := by rw [regenerateOutput_files]

@[simp] theorem regenerateOutput_skills :
    r.regenerateOutput.store.files.skills = r.store.files.skills := by rw [regenerateOutput_files]

theorem markTaxonomyStale_eq : r.markTaxonomyStale = { r with taxonomy := r.markTaxonomyStale.taxonomy } := by
  unfold markTaxonomyStale
  split <;> rfl

@[simp] theorem markTaxonomyStale_entries : r.markTaxonomyStale.entries = r.entries := by
  rw [markTaxonomyStale_eq]

@[simp] theorem markTaxonomyStale_store : r.markTaxonomyStale.store = r.store := by
  rw [markTaxonomyStale_eq]

@[simp] theorem markTaxonomyStale_formats : r.markTaxonomyStale.formats = r.formats := by
  rw [markTaxonomyStale_eq]

@[simp] theorem saveIfApi_entries : (r.saveIfApi e).entries = r.entries := by
  unfold saveIfApi
  split <;> rfl

@[simp] theorem saveIfApi_formats : (r.saveIfApi e).formats = r.formats := by
  unfold saveIfApi
  split <;> rfl

@[simp] theorem removeIfApi_entries : (r.removeIfApi e).entries = r.entries := by
  unfold removeIfApi
  split <;> rfl

@[simp] theorem removeIfApi_formats : (r.removeIfApi e).formats = r.formats := by
  unfold removeIfApi
  split <;> rfl

/-! ## Operations by cases -/

section Exec

variable (r : Registry) (caller : Option AuthContext)

@[simp] theorem exec_registerGeneric (req : RegisterGenericRequest) : r.exec ⟨.registerGeneric req, caller⟩ = r.registerGeneric req caller := rfl
@[simp] theorem exec_registerA2a (req : RegisterA2ARequest) : r.exec ⟨.registerA2a req, caller⟩ = r.registerA2a req caller := rfl
@[simp] theorem exec_registerSkill (zip : Zip) : r.exec ⟨.registerSkill zip, caller⟩ = r.registerSkill zip caller := rfl
@[simp] theorem exec_deregister (sid : String) : r.exec ⟨.deregister sid, caller⟩ = r.deregister sid caller := rfl
@[simp] theorem exec_deregisterSkill (name : String) : r.exec ⟨.deregisterSkill name, caller⟩ = r.deregisterSkill name caller := rfl
@[simp] theorem exec_updateService (sid : String) (updates : Updates) :
    r.exec ⟨.updateService sid updates, caller⟩ = r.updateService sid updates caller := rfl

end Exec

variable (r : Registry)

theorem registerGeneric_cases (req : RegisterGenericRequest) (caller : Option AuthContext) :
    (∃ e, r.registerGeneric req caller = (.error e, r)) ∨
      (assertCanRegister caller = .ok () ∧ requireValid r.formats (req.entry caller).payload = .ok () ∧
        r.registerGeneric req caller = r.doRegister (req.entry caller)) := by
  unfold registerGeneric
  cases hcan : assertCanRegister caller with
  | error e => exact .inl ⟨e, rfl⟩
  | ok =>
    cases hvalid : requireValid r.formats (req.entry caller).payload with
    | error e => exact .inl ⟨e, rfl⟩
    | ok => exact .inr ⟨rfl, rfl, rfl⟩

theorem registerA2a_cases (req : RegisterA2ARequest) (caller : Option AuthContext) :
    (∃ e, r.registerA2a req caller = (.error e, r)) ∨ ∃ card url, assertCanRegister caller = .ok () ∧ req.card = .ok (card, url) ∧
        requireValid r.formats (.a2a (some card) url) = .ok () ∧
        r.registerA2a req caller = r.doRegister (req.entry card url caller) := by
  unfold registerA2a
  cases hcan : assertCanRegister caller with
  | error e => exact .inl ⟨e, rfl⟩
  | ok =>
    cases hcard : req.card with
    | error e => exact .inl ⟨e, rfl⟩
    | ok p =>
      obtain ⟨card, url⟩ := p
      cases hvalid : requireValid r.formats (.a2a (some card) url) with
      | error e =>
        refine .inl ⟨e, ?_⟩
        simp [hvalid, bind, Except.bind]
      | ok =>
        refine .inr ⟨card, url, rfl, rfl, hvalid, ?_⟩
        simp [hvalid, bind, Except.bind, pure, Except.pure]

/-- The registry after an archive was written, or the part of it up to a failure. -/
def withSkill (r : Registry) (name : String) (folder : SkillFolder) : Registry :=
  { r with store := r.store.putSkill name folder }

theorem registerSkill_cases (zip : Zip) (caller : Option AuthContext) : (∃ e, r.registerSkill zip caller = (.error e, r)) ∨
      ∃ skill strip, assertCanRegister caller = .ok () ∧ requireTypeAllowed r.formats .skill = .ok () ∧
        zip.open? = .ok (skill, strip) ∧ ((∃ n, zip.failAfter = some n ∧ r.registerSkill zip caller =
            (.error .fileError, r.withSkill skill.name (Zip.extract (zip.infolist.take n) strip))) ∨
          (zip.failAfter = none ∧ r.registerSkill zip caller =
            (r.withSkill skill.name (Zip.extract zip.infolist strip)).commitSkill
              (skillData skill (Zip.extract zip.infolist strip)) caller)) := by
  unfold registerSkill
  cases hcan : assertCanRegister caller with
  | error e => exact .inl ⟨e, rfl⟩
  | ok =>
    cases hallowed : requireTypeAllowed r.formats .skill with
    | error e => exact .inl ⟨e, rfl⟩
    | ok =>
      cases hopen : zip.open? with
      | error e =>
        refine .inl ⟨e, ?_⟩
        simp [RegistryStore.saveSkillZip, hopen, bind, Except.bind]
      | ok p =>
        obtain ⟨skill, strip⟩ := p
        refine .inr ⟨skill, strip, rfl, rfl, rfl, ?_⟩
        cases hfail : zip.failAfter with
        | some n =>
          refine .inl ⟨n, rfl, ?_⟩
          simp [RegistryStore.saveSkillZip, hopen, hfail, bind, Except.bind, withSkill]
        | none =>
          refine .inr ⟨rfl, ?_⟩
          simp [RegistryStore.saveSkillZip, hopen, hfail, bind, Except.bind, withSkill]

theorem commitSkill_cases (data : SkillData) (caller : Option AuthContext) : (∃ e, r.commitSkill data caller = (.error e, r)) ∨
      ((∀ e, r.entries.get? (skillEntry data caller).serviceId = some e → checkOwner e caller = .ok ()) ∧
        ∃ status, r.commitSkill data caller = (.ok (.skill data.name (skillEntry data caller).serviceId status),
            (r.put (skillEntry data caller)).regenerateOutput.markTaxonomyStale)) := by
  unfold commitSkill
  cases hvalid : requireValid r.formats (skillEntry data caller).payload with
  | error e => exact .inl ⟨e, by simp [hvalid]⟩
  | ok =>
    cases hget : r.entries.get? (skillEntry data caller).serviceId with
    | none => exact .inr ⟨by simp, .registered, by simp [hvalid, hget]⟩
    | some existing =>
      cases howner : checkOwner existing caller with
      | error e => exact .inl ⟨e, by simp [hvalid, hget, howner]⟩
      | ok =>
        refine .inr ⟨?_, .updated, by simp [hvalid, hget, howner]⟩
        rintro e ⟨rfl⟩
        exact howner

theorem deregister_cases (sid : String) (caller : Option AuthContext) : (∃ e, r.deregister sid caller = (.error e, r)) ∨
      ∃ entry, r.entries.get? sid = some entry ∧ entry.source ≠ .userConfig ∧ entry.source ≠ .skillFolder ∧
        checkOwner entry caller = .ok () ∧ r.deregister sid caller =
          (.ok (.deregister sid), ((r.delete sid).removeIfApi entry).regenerateOutput.markTaxonomyStale) := by
  unfold deregister
  cases hget : r.entries.get? sid with
  | none => exact .inl ⟨_, rfl⟩
  | some entry =>
    dsimp only
    split
    · exact .inl ⟨_, rfl⟩
    · rename_i huser
      split
      · exact .inl ⟨_, rfl⟩
      · rename_i hskill
        cases howner : checkOwner entry caller with
        | error e => exact .inl ⟨e, rfl⟩
        | ok => exact .inr ⟨entry, rfl, huser, hskill, howner, rfl⟩

def withoutSkill (r : Registry) (sid name : String) : Registry :=
  { r.delete sid with store := r.store.removeSkill name }

theorem deregisterSkill_cases (name : String) (caller : Option AuthContext) :
    (∃ result, r.deregisterSkill name caller = (result, r)) ∨
      ∃ entry, r.entries.get? (generateServiceId "skill" name) = some entry ∧ checkOwner entry caller = .ok () ∧
        r.deregisterSkill name caller = (.ok (.skill name (generateServiceId "skill" name) .deleted),
            (r.withoutSkill (generateServiceId "skill" name) name).regenerateOutput.markTaxonomyStale) := by
  unfold deregisterSkill
  cases hget : r.entries.get? (generateServiceId "skill" name) with
  | none => exact .inl ⟨.ok (.skill name "" .notFound), by simp [hget]⟩
  | some entry =>
    cases howner : checkOwner entry caller with
    | error e => exact .inl ⟨.error e, by simp [hget, howner]⟩
    | ok => exact .inr ⟨entry, rfl, howner, by simp [hget, howner, withoutSkill]⟩

def withStore (r : Registry) (store : RegistryStore) : Registry := { r with store }

theorem updateService_cases (sid : String) (updates : Updates) (caller : Option AuthContext) :
    (∃ e, r.updateService sid updates caller = (.error e, r)) ∨
      ∃ entry, r.entries.get? sid = some entry ∧ entry.source ≠ .userConfig ∧ checkOwner entry caller = .ok () ∧
        ((∃ e, (applyUpdates r.store entry updates).1 = .error e ∧
            r.updateService sid updates caller = (.error e, r.withStore (applyUpdates r.store entry updates).2)) ∨
          ∃ new changed, (applyUpdates r.store entry updates).1 = .ok (new, changed) ∧ r.updateService sid updates caller =
              (r.withStore (applyUpdates r.store entry updates).2).commitUpdate new changed) := by
  unfold updateService readForUpdate
  cases hget : r.entries.get? sid with
  | none => exact .inl ⟨_, rfl⟩
  | some entry =>
    dsimp only
    by_cases huser : entry.source = .userConfig
    · exact .inl ⟨_, by rw [if_pos huser]⟩
    · rw [if_neg huser]
      cases howner : checkOwner entry caller with
      | error e => exact .inl ⟨e, rfl⟩
      | ok =>
        refine .inr ⟨entry, rfl, huser, howner, ?_⟩
        simp only [Except.map]
        cases happly : (applyUpdates r.store entry updates).1 with
        | error e => exact .inl ⟨e, rfl, rfl⟩
        | ok p => exact .inr ⟨p.1, p.2, rfl, rfl⟩

theorem commitUpdate_cases (new : Entry) (changed : List String) : (∃ e, r.commitUpdate new changed = (.error e, r)) ∨
      ∃ response, r.commitUpdate new changed =
        (.ok response, if taxonomyAffected changed then ((r.put new).saveIfApi new).regenerateOutput.markTaxonomyStale
          else ((r.put new).saveIfApi new).regenerateOutput) := by
  unfold commitUpdate
  cases r.entries.get? new.serviceId with
  | none => exact .inl ⟨_, rfl⟩
  | some _ => exact .inr ⟨_, rfl⟩

theorem applyUpdates_ok {s : RegistryStore} {entry new : Entry} {updates : Updates} {changed : List String}
    (h : (applyUpdates s entry updates).1 = .ok (new, changed)) : ∃ payload, new = { entry with payload } := by
  unfold applyUpdates at h
  cases hpayload : entry.payload with
  | generic d =>
    rw [hpayload] at h
    cases hresult : applyGenericUpdates d updates <;> simp [hresult, Except.map] at h
    exact ⟨_, h.1.symm⟩
  | a2a card url =>
    rw [hpayload] at h
    cases hresult : applyA2aUpdates card updates <;> simp [hresult, Except.map] at h
    exact ⟨_, h.1.symm⟩
  | skill d =>
    rw [hpayload] at h
    cases hresult : (applySkillUpdates s d updates).1 <;> simp [hresult, Except.map] at h
    exact ⟨_, h.1.symm⟩

/-- The name of a skill after the updates, unless they make it something else than a text. -/
def skillName (d : SkillData) (updates : Updates) : Option String := ((updates.lookup "name").getD (.str d.name)).asStr

variable (s : RegistryStore) (d : SkillData) (updates : Updates)

theorem applySkillUpdates_cases : (∃ e, applySkillUpdates s d updates = (.error e, s)) ∨
      ∃ new s₁, skillName d updates = some new ∧ s.renameSkill d.name new = .ok s₁ ∧
        ((∃ e, applySkillUpdates s d updates = (.error e, s₁)) ∨
          ∃ s₂, (s₂ = s₁ ∧ skillMdUpdates d updates = [] ∨ s₁.updateSkillMd new (skillMdUpdates d updates) = .ok s₂) ∧
            ((∃ e, applySkillUpdates s d updates = (.error e, s₂)) ∨ ∃ d₁, setAll SkillData.set d updates = some d₁ ∧
                applySkillUpdates s d updates =
                  (.ok (if new = d.name then d₁ else { d₁ with skillPath := "skills/" ++ new }, changedKeys d.get? updates), s₂))) := by
  unfold applySkillUpdates skillName
  dsimp only
  split
  · exact .inl ⟨_, rfl⟩
  · cases hname : (updates.lookup "name").getD (.str d.name) with
    | str new =>
      dsimp only
      cases hrename : s.renameSkill d.name new with
      | error e => exact .inl ⟨e, rfl⟩
      | ok s₁ =>
        refine .inr ⟨new, s₁, rfl, hrename, ?_⟩
        dsimp only
        cases hmd : (if skillMdUpdates d updates = [] then .ok s₁ else s₁.updateSkillMd new (skillMdUpdates d updates)) with
        | error e => exact .inl ⟨e, rfl⟩
        | ok s₂ =>
          refine .inr ⟨s₂, ?_, ?_⟩
          · split at hmd
            · rename_i hnil
              exact .inl ⟨(Except.ok.inj hmd).symm, hnil⟩
            · exact .inr hmd
          · dsimp only
            cases hset : setAll SkillData.set d updates with
            | none => exact .inl ⟨_, rfl⟩
            | some d₁ => exact .inr ⟨d₁, rfl, rfl⟩
    | null | bool | num | arr | obj => exact .inl ⟨_, rfl⟩

/-- Only the skill folders differ. -/
def SameButSkills (s s' : RegistryStore) : Prop := s' = { s with files := { s.files with skills := s'.files.skills } }

theorem SameButSkills.trans {s₁ s₂ s₃ : RegistryStore} (h₁ : SameButSkills s₁ s₂) (h₂ : SameButSkills s₂ s₃) :
    SameButSkills s₁ s₃ := by
  rw [SameButSkills, h₁] at h₂
  exact h₂

theorem renameSkill_sameButSkills {s s' : RegistryStore} {old new : String} (h : s.renameSkill old new = .ok s') :
    SameButSkills s s' := by
  unfold RegistryStore.renameSkill at h
  split at h
  · exact (Except.ok.inj h) ▸ rfl
  · split at h
    · cases h
    split at h
    · cases h
    exact (Except.ok.inj h) ▸ rfl

theorem updateSkillMd_sameButSkills {s s' : RegistryStore} {name : String} {updates : List (String × String)}
    (h : s.updateSkillMd name updates = .ok s') : SameButSkills s s' := by
  unfold RegistryStore.updateSkillMd at h
  split at h
  · cases h
  split at h
  · cases h
  split at h
  · cases h
  exact (Except.ok.inj h) ▸ rfl

theorem applySkillUpdates_sameButSkills : SameButSkills s (applySkillUpdates s d updates).2 := by
  rcases applySkillUpdates_cases s d updates with ⟨e, he⟩ | ⟨new, s₁, -, hrename, hrest⟩
  · rw [he]
    rfl
  · have h₁ := renameSkill_sameButSkills hrename
    rcases hrest with ⟨e, he⟩ | ⟨s₂, hmd, hrest⟩
    · rw [he]
      exact h₁
    · have h₂ : SameButSkills s s₂ := by
        rcases hmd with ⟨rfl, -⟩ | hmd
        · exact h₁
        · exact h₁.trans (updateSkillMd_sameButSkills hmd)
      rcases hrest with ⟨e, he⟩ | ⟨d₁, -, he⟩
      · rw [he]
        exact h₂
      · rw [he]
        exact h₂

theorem applyUpdates_sameButSkills (s : RegistryStore) (entry : Entry) (updates : Updates) :
    SameButSkills s (applyUpdates s entry updates).2 := by
  unfold applyUpdates
  split
  · rfl
  · rfl
  · exact applySkillUpdates_sameButSkills s _ updates

end Registry

end AgentProtocol.Register
