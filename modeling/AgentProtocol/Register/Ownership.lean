-- SUMMARY: Who may change an entry: calls of other principals, and the ids and skill folders that registrations take without asking.
import AgentProtocol.Register.Steps

/-!
# Ownership

In a dataset that requires authentication every call has a caller, and an entry with an owner is
for its owner and for admins to change. `update_service`, `deregister` and `deregister_skill` look
at the owner before they do anything.

Registrations do not: `register_generic` and `register_a2a` take any id, and `register_skill` has
written the skill folder by the time it looks. Since a renamed skill keeps its id, a skill folder
may also be reached through an id that is not the one of its entry.
-/

namespace AgentProtocol.Register

open Lib

def ConfigRow.serviceId : ConfigRow → Option String
  | .generic serviceId .. => some serviceId
  | .a2a serviceId .. => some serviceId
  | .other => none

def Files.apiRow (f : Files) (sid : String) : Option ConfigRow := f.apiConfig.find? (·.serviceId = some sid)

def Files.outputRow (f : Files) (sid : String) : Option OutputRow := f.serviceJson.bind fun rows => rows.find? (·.id = sid)

def Entry.folder (e : Entry) : Option String :=
  match e.payload with
  | .skill d => some d.name
  | _ => none

namespace Registry

/-- A call in a dataset that requires authentication. -/
def authStep (r : Registry) (p : Op × AuthContext) : Registry := r.step ⟨p.1, some p.2⟩

/-- The entry belongs to another principal, and the caller is not an admin. -/
def Foreign (ctx : AuthContext) (e : Entry) : Prop :=
  ctx.isAdmin = false ∧ e.ownerId ≠ none ∧ e.ownerId ≠ some ctx.principalId

instance (ctx : AuthContext) (e : Entry) : Decidable (Foreign ctx e) := inferInstanceAs (Decidable (_ ∧ _))

/-- The entry is the same, in memory and on disk. -/
structure Unaltered (r r' : Registry) (e : Entry) : Prop where
  memory : r'.entries.get? e.serviceId = some e
  apiRow : e.source = .apiConfig → r'.store.files.apiRow e.serviceId = r.store.files.apiRow e.serviceId
  skills : ∀ name, e.folder = some name → r'.store.files.skills.lookup name = r.store.files.skills.lookup name
  userConfig : r'.store.files.userConfig = r.store.files.userConfig
  outputRow : r'.store.files.outputRow e.serviceId = r.store.files.outputRow e.serviceId

/-- The operation is one that changes the entry, if an admin calls it. -/
def Aims (r : Registry) (op : Op) (e : Entry) : Prop :=
  ∃ admin : AuthContext, admin.isAdmin = true ∧ ¬ Unaltered r (r.authStep (op, admin)) e

/-- A call leaves the entries of others alone. If it is one that changes such an entry, then it
gets a `PermissionError` and changes nothing at all. -/
def Guarded (r : Registry) (p : Op × AuthContext) : Prop :=
  ∀ e ∈ r.entries.rows, Foreign p.2 e →
    Unaltered r (r.authStep p) e ∧
    (Aims r p.1 e →
      ∃ failure, r.exec ⟨p.1, some p.2⟩ = (.error failure, r) ∧ failure.kind = some .permissionError)

/-! ## Ids and folders that a call takes -/

/-- The id that a registration takes without a look at who has it, or after it has written the
skill folder. -/
def takenId (r : Registry) : Op × AuthContext → Option String
  | (.registerGeneric req, ctx) =>
    if (assertCanRegister (some ctx)).isOk && (requireValid r.formats (req.entry (some ctx)).payload).isOk then
      some (req.entry (some ctx)).serviceId
    else none
  | (.registerA2a req, ctx) =>
    match req.card with
    | .error _ => none
    | .ok (card, url) =>
      if (assertCanRegister (some ctx)).isOk && (requireValid r.formats (.a2a (some card) url)).isOk then
        some (req.entry card url (some ctx)).serviceId
      else none
  | (.registerSkill zip, ctx) =>
    match zip.open? with
    | .error _ => none
    | .ok (skill, _) =>
      if (assertCanRegister (some ctx)).isOk && (requireTypeAllowed r.formats .skill).isOk then
        some (generateServiceId "skill" skill.name)
      else none
  | _ => none

/-- The folders that an update of a skill moves or writes; a rename to a folder that is there fails. -/
def updatedFolders (r : Registry) (d : SkillData) (updates : Updates) : List String :=
  d.name :: (skillName d updates).toList.filter fun new => new = "" || !r.store.files.skills.contains new

/-- The skill folders that a call writes, moves or removes, once it gets so far. -/
def takenFolders (r : Registry) : Op × AuthContext → List String
  | (.registerSkill zip, ctx) =>
    match zip.open? with
    | .error _ => []
    | .ok (skill, _) =>
      if (assertCanRegister (some ctx)).isOk && (requireTypeAllowed r.formats .skill).isOk then [skill.name] else []
  | (.updateService sid updates, ctx) =>
    match r.readForUpdate sid (some ctx) with
    | .error _ => []
    | .ok entry =>
      match entry.payload with
      | .skill d => r.updatedFolders d updates
      | _ => []
  | (.deregisterSkill name, ctx) =>
    match r.entries.get? (generateServiceId "skill" name) with
    | none => []
    | some entry => if (checkOwner entry (some ctx)).isOk then [name] else []
  | _ => []

/-- The call takes neither an id nor a skill folder of somebody else, and no folder outside of
the `skills` directory. -/
structure Apart (r : Registry) (p : Op × AuthContext) : Prop where
  plain : ∀ name ∈ r.takenFolders p, isPlain name = true
  ids : ∀ e ∈ r.entries.rows, Foreign p.2 e → r.takenId p ≠ some e.serviceId
  folders : ∀ e ∈ r.entries.rows, Foreign p.2 e → ∀ name ∈ r.takenFolders p, e.folder ≠ some name

instance (r : Registry) (p : Op × AuthContext) : Decidable (r.Apart p) :=
  decidable_of_iff ((∀ name ∈ r.takenFolders p, isPlain name = true) ∧
      (∀ e ∈ r.entries.rows, Foreign p.2 e → r.takenId p ≠ some e.serviceId) ∧
      ∀ e ∈ r.entries.rows, Foreign p.2 e → ∀ name ∈ r.takenFolders p, e.folder ≠ some name)
    ⟨fun h => ⟨h.1, h.2.1, h.2.2⟩, fun h => ⟨h.plain, h.ids, h.folders⟩⟩

/-! ## What a call does not touch -/

/-- The operation may change the entry or its folder, whoever calls it. -/
def Touches (r : Registry) (op : Op) (e : Entry) : Prop :=
  match op with
  | .registerGeneric req => e.serviceId = resolveId req.serviceId "generic" req.name
  | .registerA2a req => ∃ card url, req.card = .ok (card, url) ∧ e.serviceId = resolveId req.serviceId "agent" card.name
  | .registerSkill zip => ∃ skill strip, zip.open? = .ok (skill, strip) ∧
      (e.serviceId = generateServiceId "skill" skill.name ∨ e.folder = some skill.name)
  | .updateService sid updates => e.serviceId = sid ∨
      ∃ x d, r.entries.get? sid = some x ∧ x.payload = .skill d ∧ ∃ name ∈ r.updatedFolders d updates, e.folder = some name
  | .deregister sid => e.serviceId = sid
  | .deregisterSkill name => e.serviceId = generateServiceId "skill" name ∨ e.folder = some name

/-- The entry, its cached row and its skill folder are the same. -/
structure Spares (e : Entry) (r r' : Registry) : Prop where
  entry : r'.entries.get? e.serviceId = r.entries.get? e.serviceId
  cached : r'.store.apiEntries.get? e.serviceId = r.store.apiEntries.get? e.serviceId
  skills : ∀ name, e.folder = some name → r'.store.files.skills.lookup name = r.store.files.skills.lookup name

section Spares

variable {e entry : Entry} {r r₁ r₂ : Registry}

theorem Spares.refl (e : Entry) (r : Registry) : Spares e r r := ⟨rfl, rfl, fun _ _ => rfl⟩

theorem Spares.trans (h : Spares e r r₁) (h' : Spares e r₁ r₂) : Spares e r r₂ :=
  ⟨h'.entry.trans h.entry, h'.cached.trans h.cached, fun name hname => (h'.skills name hname).trans (h.skills name hname)⟩

variable (r : Registry)

theorem spares_put (h : entry.serviceId ≠ e.serviceId) : Spares e r (r.put entry) :=
  ⟨Table.get?_insert_of_ne h, rfl, fun _ _ => rfl⟩

theorem spares_delete {sid : String} (h : e.serviceId ≠ sid) : Spares e r (r.delete sid) :=
  ⟨by simp [Table.get?_erase, h], rfl, fun _ _ => rfl⟩

theorem spares_saveIfApi (h : entry.serviceId ≠ e.serviceId) : Spares e r (r.saveIfApi entry) := by
  unfold saveIfApi
  split
  · exact ⟨rfl, Table.get?_insert_of_ne h, fun _ _ => rfl⟩
  · exact .refl e r

theorem spares_removeIfApi (h : e.serviceId ≠ entry.serviceId) : Spares e r (r.removeIfApi entry) := by
  unfold removeIfApi RegistryStore.removeApiEntry
  split
  · split
    · exact .refl e r
    · exact ⟨rfl, by simp [RegistryStore.flushApiConfig, Table.get?_erase, h], fun _ _ => rfl⟩
  · exact .refl e r

theorem spares_regenerateOutput (e : Entry) (r : Registry) : Spares e r r.regenerateOutput :=
  ⟨by simp, by simp, by simp⟩

theorem spares_markTaxonomyStale (e : Entry) (r : Registry) : Spares e r r.markTaxonomyStale :=
  ⟨by simp, by simp, by simp⟩

theorem spares_shown (e : Entry) (r : Registry) : Spares e r r.regenerateOutput.markTaxonomyStale :=
  (spares_regenerateOutput e r).trans (spares_markTaxonomyStale e _)

theorem spares_withSkill {name : String} (folder : SkillFolder) (h : e.folder ≠ some name) :
    Spares e r (r.withSkill name folder) := by
  refine ⟨rfl, rfl, fun name' hname' => Dict.lookup_set_of_ne ?_⟩
  rintro rfl
  exact h hname'

theorem spares_withoutSkill {sid name : String} (hid : e.serviceId ≠ sid) (h : e.folder ≠ some name) :
    Spares e r (r.withoutSkill sid name) := by
  refine ⟨(spares_delete r hid).entry, ?_, fun name' hname' => ?_⟩
  · unfold withoutSkill RegistryStore.removeSkill
    split <;> rfl
  · unfold withoutSkill RegistryStore.removeSkill
    split
    · rfl
    · have hne : name' ≠ name := by
        rintro rfl
        exact h hname'
      exact (Dict.lookup_erase _ _ _).trans (if_neg hne)

theorem spares_filed (h : entry.serviceId ≠ e.serviceId) : Spares e r ((r.put entry).saveIfApi entry) :=
  (spares_put r h).trans (spares_saveIfApi _ h)

theorem spares_doRegister (h : entry.serviceId ≠ e.serviceId) : Spares e r (r.doRegister entry).2 :=
  (spares_filed r h).trans (spares_shown e _)

theorem spares_commitUpdate (changed : List String) (h : entry.serviceId ≠ e.serviceId) :
    Spares e r (r.commitUpdate entry changed).2 := by
  rcases commitUpdate_cases r entry changed with ⟨_, he⟩ | ⟨response, hcommit⟩
  · rw [he]
    exact .refl e r
  · rw [hcommit]
    dsimp only
    split
    · exact (spares_filed r h).trans (spares_shown e _)
    · exact (spares_filed r h).trans (spares_regenerateOutput e _)

theorem spares_commitSkill (data : SkillData) (caller : Option AuthContext)
    (h : generateServiceId "skill" data.name ≠ e.serviceId) : Spares e r (r.commitSkill data caller).2 := by
  rcases commitSkill_cases r data caller with ⟨_, he⟩ | ⟨-, status, hcommit⟩
  · rw [he]
    exact .refl e r
  · rw [hcommit]
    have hput : Spares e r (r.put (skillEntry data caller)) := spares_put r h
    exact hput.trans (spares_shown e _)

end Spares

section Folders

variable {s s' : RegistryStore} {name : String}

theorem renameSkill_ok {old new : String} (h : s.renameSkill old new = .ok s') : (new = "" ∨ new = old) ∧ s' = s ∨
      ∃ folder, s.files.skills.lookup old = some folder ∧ s.files.skills.contains new = false ∧
        s' = { s with files := { s.files with skills := Dict.set (s.files.skills.erase old) new folder } } := by
  unfold RegistryStore.renameSkill at h
  split at h
  · rename_i hsame
    exact .inl ⟨by simpa using hsame, (Except.ok.inj h).symm⟩
  · split at h
    · cases h
    rename_i folder hfolder
    split at h
    · cases h
    rename_i hfree
    exact .inr ⟨folder, hfolder, by simpa using hfree, (Except.ok.inj h).symm⟩

theorem lookup_renameSkill {old new : String} (h : s.renameSkill old new = .ok s') (hold : name ≠ old) (hnew : name ≠ new) :
    s'.files.skills.lookup name = s.files.skills.lookup name := by
  rcases renameSkill_ok h with ⟨-, rfl⟩ | ⟨folder, -, -, rfl⟩
  · rfl
  · dsimp only
    rw [Dict.lookup_set_of_ne hnew.symm, Dict.lookup_erase, if_neg hold]

theorem lookup_updateSkillMd {new : String} {updates : List (String × String)} (h : s.updateSkillMd new updates = .ok s')
    (hne : name ≠ new) : s'.files.skills.lookup name = s.files.skills.lookup name := by
  unfold RegistryStore.updateSkillMd at h
  split at h
  · cases h
  split at h
  · cases h
  split at h
  · cases h
  rw [← Except.ok.inj h]
  exact Dict.lookup_set_of_ne hne.symm

end Folders

theorem lookup_applySkillUpdates (r : Registry) (d : SkillData) (updates : Updates) {name : String}
    (h : name ∉ r.updatedFolders d updates) :
    (applySkillUpdates r.store d updates).2.files.skills.lookup name = r.store.files.skills.lookup name := by
  simp only [updatedFolders, List.mem_cons, not_or] at h
  obtain ⟨hold, hnew⟩ := h
  rcases applySkillUpdates_cases r.store d updates with ⟨_, he⟩ | ⟨new, s₁, hname, hrename, hrest⟩
  · rw [he]
  · -- the new name is free, or the rename would have failed
    have hne : name ≠ new := by
      rintro rfl
      apply hnew
      rcases renameSkill_ok hrename with ⟨hempty | hsame, -⟩ | ⟨_, -, hfree, -⟩
      · simp [hname, hempty]
      · exact absurd hsame hold
      · simp [hname, hfree]
    have h₁ := lookup_renameSkill hrename hold hne
    rcases hrest with ⟨_, he⟩ | ⟨s₂, hmd, hrest⟩
    · rw [he, h₁]
    · have h₂ : s₂.files.skills.lookup name = r.store.files.skills.lookup name := by
        rcases hmd with ⟨rfl, -⟩ | hmd
        · exact h₁
        · exact (lookup_updateSkillMd hmd hne).trans h₁
      rcases hrest with ⟨_, he⟩ | ⟨d₁, -, he⟩
      · rw [he, h₂]
      · rw [he, h₂]

theorem spares_applyUpdates {e x : Entry} {r : Registry} {updates : Updates}
    (h : ∀ d, x.payload = .skill d → ∀ name ∈ r.updatedFolders d updates, e.folder ≠ some name) :
    Spares e r (r.withStore (applyUpdates r.store x updates).2) := by
  have hsame := applyUpdates_sameButSkills r.store x updates
  refine ⟨rfl, ?_, fun name hname => ?_⟩
  · rw [withStore_store, hsame]
  · rw [withStore_store]
    unfold applyUpdates
    cases hpayload : x.payload with
    | generic | a2a => rfl
    | skill d => exact lookup_applySkillUpdates r d updates fun hmem => h d hpayload name hmem hname

theorem spares_step {e : Entry} {r : Registry} {op : Op} (h : ¬ r.Touches op e) (caller : Option AuthContext) :
    Spares e r (r.step ⟨op, caller⟩) := by
  rw [step]
  cases op with
  | registerGeneric req =>
    rw [exec_registerGeneric]
    rcases registerGeneric_cases r req caller with ⟨_, he⟩ | ⟨-, -, hexec⟩
    · rw [he]
      exact .refl e r
    · rw [hexec]
      exact spares_doRegister r fun hid => h hid.symm
  | registerA2a req =>
    rw [exec_registerA2a]
    rcases registerA2a_cases r req caller with ⟨_, he⟩ | ⟨card, url, -, hcard, -, hexec⟩
    · rw [he]
      exact .refl e r
    · rw [hexec]
      exact spares_doRegister r fun hid => h ⟨card, url, hcard, hid.symm⟩
  | registerSkill zip =>
    rw [exec_registerSkill]
    rcases registerSkill_cases r zip caller with ⟨_, he⟩ | ⟨skill, strip, -, -, hopen, hsaved⟩
    · rw [he]
      exact .refl e r
    · have hwritten : ∀ folder, Spares e r (r.withSkill skill.name folder) :=
        fun folder => spares_withSkill r folder fun hfolder => h ⟨skill, strip, hopen, .inr hfolder⟩
      rcases hsaved with ⟨n, -, hexec⟩ | ⟨-, hexec⟩
      · rw [hexec]
        exact hwritten _
      · rw [hexec]
        exact (hwritten _).trans (spares_commitSkill _ _ _ fun hid => h ⟨skill, strip, hopen, .inl hid.symm⟩)
  | updateService sid updates =>
    rw [exec_updateService]
    rcases updateService_cases r sid updates caller with ⟨_, he⟩ | ⟨x, hget, -, -, hrest⟩
    · rw [he]
      exact .refl e r
    · have happlied : Spares e r (r.withStore (applyUpdates r.store x updates).2) :=
        spares_applyUpdates fun d hd name hname hfolder => h (.inr ⟨x, d, hget, hd, name, hname, hfolder⟩)
      rcases hrest with ⟨_, -, hexec⟩ | ⟨new, changed, hok, hexec⟩
      · rw [hexec]
        exact happlied
      · rw [hexec]
        obtain ⟨payload, rfl⟩ := applyUpdates_ok hok
        have hx : x.serviceId = sid := Table.key_of_get? hget
        exact happlied.trans (spares_commitUpdate _ changed fun hid => h (.inl (hid.symm.trans hx)))
  | deregister sid =>
    rw [exec_deregister]
    rcases deregister_cases r sid caller with ⟨_, he⟩ | ⟨entry, hget, -, -, -, hexec⟩
    · rw [he]
      exact .refl e r
    · obtain ⟨-, rfl⟩ := Table.get?_eq_some.mp hget
      rw [hexec]
      exact ((spares_delete r h).trans (spares_removeIfApi _ h)).trans (spares_shown e _)
  | deregisterSkill name =>
    rw [exec_deregisterSkill]
    rcases deregisterSkill_cases r name caller with ⟨result, he⟩ | ⟨entry, -, -, hexec⟩
    · rw [he]
      exact .refl e r
    · rw [hexec]
      exact (spares_withoutSkill r (fun hid => h (.inl hid)) fun hfolder => h (.inr hfolder)).trans (spares_shown e _)

/-! ## Rows on disk -/

theorem toConfigRow_serviceId {e : Entry} {sid : String} (h : e.toConfigRow.serviceId = some sid) : e.serviceId = sid := by
  unfold Entry.toConfigRow at h
  split at h
  · exact Option.some.inj h
  · exact Option.some.inj h
  · cases h

theorem apiRow_of_written {s : RegistryStore} (h : s.files.apiConfig = s.apiEntries.rows.map Entry.toConfigRow) (sid : String) :
    s.files.apiRow sid = ((s.apiEntries.get? sid).filter fun e => e.toConfigRow.serviceId = some sid).map Entry.toConfigRow := by
  rw [Files.apiRow, h, List.find?_map, ← Table.find?_rows]
  · rfl
  · intro e he
    exact toConfigRow_serviceId (of_decide_eq_true he)

theorem toOutput_id (e : Entry) : e.toOutput.id = e.serviceId := by
  unfold Entry.toOutput
  split <;> rfl

theorem outputRow_of_shown {r : Registry} (h : r.Shown) (sid : String) :
    r.store.files.outputRow sid = (r.entries.get? sid).map Entry.toOutput := by
  rw [Files.outputRow, h.file, Option.bind_some, output, List.find?_map]
  congr 1
  apply List.find?_congr
  intro e _
  simp [toOutput_id]

/-- What is true of the files between calls. -/
structure Settled (r : Registry) : Prop where
  shown : r.Shown
  synced : r.Synced

theorem Settled.step {r : Registry} (h : r.Settled) (c : Call) : (r.step c).Settled := ⟨h.shown.step c, h.synced.step c⟩

theorem startup_settled (formats : FormatConfig) (files : Files) (fetch : String → Option AgentCard) :
    (startup formats files fetch).Settled := ⟨startup_shown formats files fetch, startup_synced formats files fetch⟩

section Unaltered

variable {r r' : Registry} {e : Entry}

theorem Unaltered.refl (he : e ∈ r.entries.rows) : Unaltered r r e :=
  ⟨Table.mem_iff_get?.mp he, fun _ => rfl, fun _ _ => rfl, rfl, rfl⟩

theorem Spares.unaltered (h : Spares e r r') (hr : r.Settled) (hr' : r'.Settled)
    (huser : r'.store.files.userConfig = r.store.files.userConfig) (he : e ∈ r.entries.rows) : Unaltered r r' e := by
  have hmem : r'.entries.get? e.serviceId = some e := h.entry.trans (Table.mem_iff_get?.mp he)
  refine ⟨hmem, fun hsource => ?_, h.skills, huser, ?_⟩
  · have hwritten := hr.synced ⟨e, he, hsource⟩
    have hwritten' := hr'.synced ⟨e, (Table.get?_eq_some.mp hmem).1, hsource⟩
    rw [apiRow_of_written hwritten, apiRow_of_written hwritten', h.cached]
  · rw [outputRow_of_shown hr.shown, outputRow_of_shown hr'.shown, h.entry]

end Unaltered

theorem userConfig_step (r : Registry) (c : Call) : (r.step c).store.files.userConfig = r.store.files.userConfig := by
  have houtcome := outcome r c
  generalize r.step c = r' at houtcome
  cases houtcome with
  | stored store hsame => exact (kept_withStore hsame).userConfig
  | shown r₁ hedit =>
    rw [markTaxonomyStale_store, regenerateOutput_userConfig]
    exact hedit.kept.userConfig
  | quiet entry new updates changed =>
    rw [regenerateOutput_userConfig]
    exact (((kept_withStore (applyUpdates_sameButSkills _ _ _)).trans (kept_put _ new)).trans (kept_saveIfApi _ new)).userConfig

theorem unaltered_step {r : Registry} {op : Op} {e : Entry} (hr : r.Settled) (he : e ∈ r.entries.rows)
    (h : ¬ r.Touches op e) (caller : Option AuthContext) : Unaltered r (r.step ⟨op, caller⟩) e :=
  (spares_step h caller).unaltered hr (hr.step _) (userConfig_step r _) he

/-! ## Verdicts -/

/-- A call is refused for want of permission, and nothing has happened. -/
def Denied (r : Registry) (c : Call) : Prop :=
  ∃ failure, r.exec c = (.error failure, r) ∧ failure.kind = some .permissionError

theorem assertCanRegister_kind {caller : Option AuthContext} {e : Failure} (h : assertCanRegister caller = .error e) :
    e.kind = some .permissionError := by
  unfold assertCanRegister at h
  split at h
  · cases h
  split at h
  · cases h
  exact Except.error.inj h ▸ rfl

theorem checkOwner_kind {entry : Entry} {caller : Option AuthContext} {e : Failure} (h : checkOwner entry caller = .error e) :
    e.kind = some .permissionError := by
  unfold checkOwner assertOwner at h
  split at h
  · cases h
  split at h
  · cases h
  split at h
  · exact Except.error.inj h ▸ rfl
  · split at h
    · cases h
    exact Except.error.inj h ▸ rfl

theorem Foreign.checkOwner_ne {ctx : AuthContext} {e : Entry} (h : Foreign ctx e) : checkOwner e (some ctx) ≠ .ok () := by
  obtain ⟨hadmin, hsome, hother⟩ := h
  unfold checkOwner assertOwner
  cases howner : e.ownerId with
  | none => exact absurd howner hsome
  | some owner =>
    have hne : owner ≠ ctx.principalId := fun hown => hother (howner.trans (congrArg some hown))
    simp [hadmin, hne]

section Verdict

variable {r : Registry} {ctx : AuthContext} {e : Entry}

theorem verdict_registerGeneric {req : RegisterGenericRequest} (hapart : r.Apart (.registerGeneric req, ctx))
    (he : e ∈ r.entries.rows) (hforeign : Foreign ctx e) (h : r.Touches (.registerGeneric req) e) :
    Denied r ⟨.registerGeneric req, some ctx⟩ ∨ ∀ caller, r.step ⟨.registerGeneric req, caller⟩ = r := by
  cases hcan : assertCanRegister (some ctx) with
  | error failure =>
    refine .inl ⟨failure, ?_, assertCanRegister_kind hcan⟩
    simp [registerGeneric, hcan, bind, Except.bind]
  | ok =>
    cases hvalid : requireValid r.formats (req.entry (some ctx)).payload with
    | ok =>
      have htaken : r.takenId (.registerGeneric req, ctx) = some (req.entry (some ctx)).serviceId := by
        simp [takenId, hcan, hvalid, Except.isOk, Except.toBool]
      exact absurd (htaken.trans (congrArg some h.symm)) (hapart.ids e he hforeign)
    | error failure =>
      -- the payload does not depend on the caller
      refine .inr fun caller => ?_
      rcases registerGeneric_cases r req caller with ⟨_, hexec⟩ | ⟨-, hok, -⟩
      · rw [step, exec_registerGeneric, hexec]
      · cases hvalid.symm.trans hok

theorem verdict_registerA2a {req : RegisterA2ARequest} (hapart : r.Apart (.registerA2a req, ctx))
    (he : e ∈ r.entries.rows) (hforeign : Foreign ctx e) (h : r.Touches (.registerA2a req) e) :
    Denied r ⟨.registerA2a req, some ctx⟩ ∨ ∀ caller, r.step ⟨.registerA2a req, caller⟩ = r := by
  obtain ⟨card, url, hcard, hid⟩ := h
  cases hcan : assertCanRegister (some ctx) with
  | error failure =>
    refine .inl ⟨failure, ?_, assertCanRegister_kind hcan⟩
    simp [registerA2a, hcan, bind, Except.bind]
  | ok =>
    cases hvalid : requireValid r.formats (.a2a (some card) url) with
    | ok =>
      have htaken : r.takenId (.registerA2a req, ctx) = some (req.entry card url (some ctx)).serviceId := by
        simp [takenId, hcard, hcan, hvalid, Except.isOk, Except.toBool]
      exact absurd (htaken.trans (congrArg some hid.symm)) (hapart.ids e he hforeign)
    | error failure =>
      refine .inr fun caller => ?_
      rcases registerA2a_cases r req caller with ⟨_, hexec⟩ | ⟨card', url', -, hcard', hok, -⟩
      · rw [step, exec_registerA2a, hexec]
      · obtain ⟨rfl, rfl⟩ := Prod.mk.inj (Except.ok.inj (hcard.symm.trans hcard'))
        cases hvalid.symm.trans hok

theorem verdict_registerSkill {zip : Zip} (hapart : r.Apart (.registerSkill zip, ctx))
    (he : e ∈ r.entries.rows) (hforeign : Foreign ctx e) (h : r.Touches (.registerSkill zip) e) :
    Denied r ⟨.registerSkill zip, some ctx⟩ ∨ ∀ caller, r.step ⟨.registerSkill zip, caller⟩ = r := by
  obtain ⟨skill, strip, hopen, htouch⟩ := h
  cases hcan : assertCanRegister (some ctx) with
  | error failure =>
    refine .inl ⟨failure, ?_, assertCanRegister_kind hcan⟩
    simp [registerSkill, hcan, bind, Except.bind]
  | ok =>
    cases hallowed : requireTypeAllowed r.formats .skill with
    | ok =>
      rcases htouch with hid | hfolder
      · have htaken : r.takenId (.registerSkill zip, ctx) = some (generateServiceId "skill" skill.name) := by
          simp [takenId, hopen, hcan, hallowed, Except.isOk, Except.toBool]
        exact absurd (htaken.trans (congrArg some hid.symm)) (hapart.ids e he hforeign)
      · have htaken : skill.name ∈ r.takenFolders (.registerSkill zip, ctx) := by
          simp [takenFolders, hopen, hcan, hallowed, Except.isOk, Except.toBool]
        exact absurd hfolder (hapart.folders e he hforeign _ htaken)
    | error failure =>
      refine .inr fun caller => ?_
      rcases registerSkill_cases r zip caller with ⟨_, hexec⟩ | ⟨_, _, -, hok, -, -⟩
      · rw [step, exec_registerSkill, hexec]
      · cases hallowed.symm.trans hok

theorem verdict_updateService {sid : String} {updates : Updates} (hapart : r.Apart (.updateService sid updates, ctx))
    (he : e ∈ r.entries.rows) (hforeign : Foreign ctx e) (h : r.Touches (.updateService sid updates) e) :
    Denied r ⟨.updateService sid updates, some ctx⟩ ∨ ∀ caller, r.step ⟨.updateService sid updates, caller⟩ = r := by
  obtain ⟨x, hget⟩ : ∃ x, r.entries.get? sid = some x := by
    rcases h with rfl | ⟨x, -, hget, -⟩
    · exact ⟨e, Table.mem_iff_get?.mp he⟩
    · exact ⟨x, hget⟩
  by_cases huser : x.source = .userConfig
  · refine .inr fun caller => ?_
    simp [step, updateService, readForUpdate, hget, huser]
  · cases howner : checkOwner x (some ctx) with
    | error failure =>
      refine .inl ⟨failure, ?_, checkOwner_kind howner⟩
      simp [updateService, readForUpdate, hget, huser, howner, Except.map]
    | ok =>
      rcases h with rfl | ⟨x', d, hget', hpayload, name, hname, hfolder⟩
      · obtain rfl := Option.some.inj (hget.symm.trans (Table.mem_iff_get?.mp he))
        exact absurd howner hforeign.checkOwner_ne
      · obtain rfl := Option.some.inj (hget.symm.trans hget')
        have htaken : name ∈ r.takenFolders (.updateService sid updates, ctx) := by
          simpa [takenFolders, readForUpdate, hget, huser, howner, Except.map, hpayload] using hname
        exact absurd hfolder (hapart.folders e he hforeign _ htaken)

theorem verdict_deregister {sid : String} (he : e ∈ r.entries.rows) (hforeign : Foreign ctx e)
    (h : r.Touches (.deregister sid) e) :
    Denied r ⟨.deregister sid, some ctx⟩ ∨ ∀ caller, r.step ⟨.deregister sid, caller⟩ = r := by
  obtain rfl : e.serviceId = sid := h
  have hget := Table.mem_iff_get?.mp he
  by_cases huser : e.source = .userConfig
  · refine .inr fun caller => ?_
    simp [step, deregister, hget, huser]
  · by_cases hskill : e.source = .skillFolder
    · refine .inr fun caller => ?_
      simp [step, deregister, hget, hskill]
    · cases howner : checkOwner e (some ctx) with
      | error failure =>
        refine .inl ⟨failure, ?_, checkOwner_kind howner⟩
        simp [deregister, hget, huser, hskill, howner]
      | ok => exact absurd howner hforeign.checkOwner_ne

theorem verdict_deregisterSkill {name : String} (hapart : r.Apart (.deregisterSkill name, ctx))
    (he : e ∈ r.entries.rows) (hforeign : Foreign ctx e) (h : r.Touches (.deregisterSkill name) e) :
    Denied r ⟨.deregisterSkill name, some ctx⟩ ∨ ∀ caller, r.step ⟨.deregisterSkill name, caller⟩ = r := by
  cases hget : r.entries.get? (generateServiceId "skill" name) with
  | none =>
    refine .inr fun caller => ?_
    simp [step, deregisterSkill, hget]
  | some x =>
    cases howner : checkOwner x (some ctx) with
    | error failure =>
      refine .inl ⟨failure, ?_, checkOwner_kind howner⟩
      simp [deregisterSkill, hget, howner]
    | ok =>
      rcases h with hid | hfolder
      · rw [← hid] at hget
        obtain rfl := Option.some.inj (hget.symm.trans (Table.mem_iff_get?.mp he))
        exact absurd howner hforeign.checkOwner_ne
      · have htaken : name ∈ r.takenFolders (.deregisterSkill name, ctx) := by
          simp [takenFolders, hget, howner, Except.isOk, Except.toBool]
        exact absurd hfolder (hapart.folders e he hforeign _ htaken)

theorem verdict {op : Op} (hapart : r.Apart (op, ctx)) (he : e ∈ r.entries.rows) (hforeign : Foreign ctx e)
    (h : r.Touches op e) : Denied r ⟨op, some ctx⟩ ∨ ∀ caller, r.step ⟨op, caller⟩ = r := by
  cases op with
  | registerGeneric req => exact verdict_registerGeneric hapart he hforeign h
  | registerA2a req => exact verdict_registerA2a hapart he hforeign h
  | registerSkill zip => exact verdict_registerSkill hapart he hforeign h
  | updateService sid updates => exact verdict_updateService hapart he hforeign h
  | deregister sid => exact verdict_deregister he hforeign h
  | deregisterSkill name => exact verdict_deregisterSkill hapart he hforeign h

end Verdict

theorem Settled.guarded {r : Registry} {p : Op × AuthContext} (hr : r.Settled) (hapart : r.Apart p) : r.Guarded p := by
  obtain ⟨op, ctx⟩ := p
  intro e he hforeign
  by_cases htouch : r.Touches op e
  · rcases verdict hapart he hforeign htouch with ⟨failure, hexec, hkind⟩ | hnothing
    · refine ⟨?_, fun _ => ⟨failure, hexec, hkind⟩⟩
      rw [authStep, Registry.step, hexec]
      exact .refl he
    · have hsame : ∀ ctx, Unaltered r (r.authStep (op, ctx)) e := fun ctx => by
        rw [authStep, hnothing (some ctx)]
        exact .refl he
      refine ⟨hsame ctx, ?_⟩
      rintro ⟨admin, -, haltered⟩
      exact absurd (hsame admin) haltered
  · refine ⟨unaltered_step hr he htouch (some ctx), ?_⟩
    rintro ⟨admin, -, haltered⟩
    exact absurd (unaltered_step hr he htouch (some admin)) haltered

/-- In every run of a dataset that requires authentication whose calls take no ids or folders of
others, entries are changed by their owners and by admins only, and others get a
`PermissionError`. -/
theorem owned_entries_guarded (formats : FormatConfig) (files : Files) (fetch : String → Option AgentCard)
    (calls : List (Op × AuthContext)) (h : Along authStep Apart (startup formats files fetch) calls) :
    Along authStep Guarded (startup formats files fetch) calls := by
  apply h.imp (startup_settled formats files fetch)
  · exact fun r p hr _ => hr.step _
  · exact fun r p hr hapart => hr.guarded hapart

def provider (name : String) : AuthContext := { principalId := name, role := .provider }

def registerAs (sid name : String) : Op :=
  .registerGeneric { serviceId := some sid, name, description := "a service" }

/-- Two providers register one service each, and one of them fails to remove the other's. -/
theorem owned_entries_guarded_sample :
    Along authStep Guarded (startup {} {} fun _ => none)
        [(registerAs "svc" "first", provider "alice"), (registerAs "other" "second", provider "bob"),
          (.deregister "svc", provider "bob")] ∧
      ((run authStep (startup {} {} fun _ => none)
          [(registerAs "svc" "first", provider "alice"), (registerAs "other" "second", provider "bob"),
            (.deregister "svc", provider "bob")]).entries.get? "svc").map (·.ownerId) = some (some "alice") := by
  refine ⟨owned_entries_guarded {} {} (fun _ => none) _ (by decide +kernel), by decide +kernel⟩

/-- A provider registers under the id of a service of somebody else, which is thereby replaced. -/
theorem registration_replaces_owned :
    ¬ ∀ (formats : FormatConfig) (files : Files) (fetch : String → Option AgentCard) (calls : List (Op × AuthContext)),
      Along authStep Guarded (startup formats files fetch) calls := by
  intro h
  obtain ⟨-, hguarded, -⟩ := h {} {} (fun _ => none)
    [(registerAs "svc" "first", provider "alice"), (registerAs "svc" "second", provider "bob")]
  -- the entry of the first provider
  have hfirst : ∃ e ∈ (authStep (startup {} {} fun _ => none) (registerAs "svc" "first", provider "alice")).entries.rows,
      Foreign (provider "bob") e ∧
        (authStep (authStep (startup {} {} fun _ => none) (registerAs "svc" "first", provider "alice"))
          (registerAs "svc" "second", provider "bob")).entries.get? e.serviceId ≠ some e := by
    decide +kernel
  obtain ⟨e, he, hforeign, hreplaced⟩ := hfirst
  exact hreplaced (hguarded e he hforeign).1.memory

end Registry

end AgentProtocol.Register
