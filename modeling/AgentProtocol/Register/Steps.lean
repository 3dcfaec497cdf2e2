-- SUMMARY: What one call can do to the registry of a dataset, and what every call keeps: the output is shown and the API rows are written.
import AgentProtocol.Lib.Run
import AgentProtocol.Register.Registry

/-!
# What a call does

Whatever the operation, a call ends in one of three ways: it changes skill folders at most, or it
edits the entries and shows the new output, or it is an update that touches neither name nor
description. What every call keeps is derived from these three.
-/

namespace AgentProtocol.Register.Registry

open Lib

/-- The change that a call makes before it shows the new output. -/
inductive Edit (r : Registry) : Registry → Prop where
  /-- An entry takes its place, after skill folders were written. -/
  | filed (store : RegistryStore) (entry : Entry) (h : SameButSkills r.store store) :
      Edit r (((r.withStore store).put entry).saveIfApi entry)
  | removed (entry : Entry) (h : entry ∈ r.entries.rows) : Edit r ((r.delete entry.serviceId).removeIfApi entry)
  | dropped (sid name : String) : Edit r (r.withoutSkill sid name)

/-- What a call leaves. -/
inductive Outcome (r : Registry) : Registry → Prop where
  | stored (store : RegistryStore) (h : SameButSkills r.store store) : Outcome r (r.withStore store)
  | shown (r₁ : Registry) (h : Edit r r₁) : Outcome r r₁.regenerateOutput.markTaxonomyStale
  /-- An update that touches neither name nor description. -/
  | quiet (entry new : Entry) (updates : Updates) (changed : List String) (hentry : entry ∈ r.entries.rows)
      (hnew : (applyUpdates r.store entry updates).1 = .ok (new, changed)) (hquiet : taxonomyAffected changed = false) :
      Outcome r (((r.withStore (applyUpdates r.store entry updates).2).put new).saveIfApi new).regenerateOutput

section Outcome

variable (r : Registry) (caller : Option AuthContext)

theorem Outcome.refused : Outcome r r := .stored r.store rfl

theorem outcome_doRegister (entry : Entry) : Outcome r (r.doRegister entry).2 := .shown _ (.filed r.store entry rfl)

theorem outcome_registerSkill (zip : Zip) : Outcome r (r.registerSkill zip caller).2 := by
  rcases registerSkill_cases r zip caller with ⟨e, he⟩ | ⟨skill, strip, -, -, -, hsaved⟩
  · rw [he]
    exact .refused r
  · rcases hsaved with ⟨n, -, hexec⟩ | ⟨-, hexec⟩
    · rw [hexec]
      exact .stored _ rfl
    · rw [hexec]
      rcases commitSkill_cases (r.withSkill skill.name (Zip.extract zip.infolist strip))
        (skillData skill (Zip.extract zip.infolist strip)) caller with ⟨e, he⟩ | ⟨-, status, hcommit⟩
      · rw [he]
        exact .stored _ rfl
      · rw [hcommit]
        -- a skill is not persistent, so there is nothing to save
        exact .shown _ (.filed _ (skillEntry _ caller) rfl)

theorem outcome_updateService (sid : String) (updates : Updates) : Outcome r (r.updateService sid updates caller).2 := by
  rcases updateService_cases r sid updates caller with ⟨e, he⟩ | ⟨entry, hget, -, -, hrest⟩
  · rw [he]
    exact .refused r
  · have hsame := applyUpdates_sameButSkills r.store entry updates
    rcases hrest with ⟨e, -, hexec⟩ | ⟨new, changed, hok, hexec⟩
    · rw [hexec]
      exact .stored _ hsame
    · rw [hexec]
      rcases commitUpdate_cases (r.withStore (applyUpdates r.store entry updates).2) new changed with
        ⟨e, he⟩ | ⟨response, hcommit⟩
      · rw [he]
        exact .stored _ hsame
      · rw [hcommit]
        cases haffected : taxonomyAffected changed with
        | true => exact .shown _ (.filed _ new hsame)
        | false => exact .quiet entry new updates changed (Table.get?_eq_some.mp hget).1 hok haffected

end Outcome

theorem outcome (r : Registry) (c : Call) : Outcome r (r.step c) := by
  obtain ⟨op, caller⟩ := c
  rw [step]
  cases op with
  | registerGeneric req =>
    rw [exec_registerGeneric]
    rcases registerGeneric_cases r req caller with ⟨e, he⟩ | ⟨-, -, hexec⟩
    · rw [he]
      exact .refused r
    · rw [hexec]
      exact outcome_doRegister r _
  | registerA2a req =>
    rw [exec_registerA2a]
    rcases registerA2a_cases r req caller with ⟨e, he⟩ | ⟨card, url, -, -, -, hexec⟩
    · rw [he]
      exact .refused r
    · rw [hexec]
      exact outcome_doRegister r _
  | registerSkill zip => exact outcome_registerSkill r caller zip
  | updateService sid updates => exact outcome_updateService r caller sid updates
  | deregister sid =>
    rw [exec_deregister]
    rcases deregister_cases r sid caller with ⟨e, he⟩ | ⟨entry, hget, -, -, -, hexec⟩
    · rw [he]
      exact .refused r
    · obtain ⟨hentry, rfl⟩ := Table.get?_eq_some.mp hget
      rw [hexec]
      exact .shown _ (.removed entry hentry)
  | deregisterSkill name =>
    rw [exec_deregisterSkill]
    rcases deregisterSkill_cases r name caller with ⟨result, he⟩ | ⟨entry, -, -, hexec⟩
    · rw [he]
      exact .refused r
    · rw [hexec]
      exact .shown _ (.dropped _ name)

/-! ## Frames of an edit -/

section Edit

variable {r r₁ : Registry}

@[simp] theorem withStore_entries (r : Registry) (store : RegistryStore) : (r.withStore store).entries = r.entries := rfl
@[simp] theorem withStore_store (r : Registry) (store : RegistryStore) : (r.withStore store).store = store := rfl
@[simp] theorem withStore_formats (r : Registry) (store : RegistryStore) : (r.withStore store).formats = r.formats := rfl
@[simp] theorem withStore_outputCache (r : Registry) (store : RegistryStore) : (r.withStore store).outputCache = r.outputCache := rfl

/-- What an edit leaves to the end of the call. -/
structure Kept (r r₁ : Registry) : Prop where
  outputCache : r₁.outputCache = r.outputCache
  taxonomy : r₁.taxonomy = r.taxonomy
  formats : r₁.formats = r.formats
  serviceJson : r₁.store.files.serviceJson = r.store.files.serviceJson
  serviceHash : r₁.store.files.serviceHash = r.store.files.serviceHash
  taxonomyJson : r₁.store.files.taxonomyJson = r.store.files.taxonomyJson
  userConfig : r₁.store.files.userConfig = r.store.files.userConfig

theorem Kept.trans {r₂ : Registry} (h : Kept r r₁) (h' : Kept r₁ r₂) : Kept r r₂ where
  outputCache := h'.outputCache.trans h.outputCache
  taxonomy := h'.taxonomy.trans h.taxonomy
  formats := h'.formats.trans h.formats
  serviceJson := h'.serviceJson.trans h.serviceJson
  serviceHash := h'.serviceHash.trans h.serviceHash
  taxonomyJson := h'.taxonomyJson.trans h.taxonomyJson
  userConfig := h'.userConfig.trans h.userConfig

theorem kept_withStore {store : RegistryStore} (h : SameButSkills r.store store) : Kept r (r.withStore store) := by
  rw [h]
  exact ⟨rfl, rfl, rfl, rfl, rfl, rfl, rfl⟩

theorem kept_put (r : Registry) (entry : Entry) : Kept r (r.put entry) := ⟨rfl, rfl, rfl, rfl, rfl, rfl, rfl⟩

theorem kept_delete (r : Registry) (sid : String) : Kept r (r.delete sid) := ⟨rfl, rfl, rfl, rfl, rfl, rfl, rfl⟩

theorem kept_saveIfApi (r : Registry) (entry : Entry) : Kept r (r.saveIfApi entry) := by
  unfold saveIfApi
  split <;> exact ⟨rfl, rfl, rfl, rfl, rfl, rfl, rfl⟩

theorem kept_removeIfApi (r : Registry) (entry : Entry) : Kept r (r.removeIfApi entry) := by
  unfold removeIfApi RegistryStore.removeApiEntry
  split
  · split <;> exact ⟨rfl, rfl, rfl, rfl, rfl, rfl, rfl⟩
  · exact ⟨rfl, rfl, rfl, rfl, rfl, rfl, rfl⟩

theorem kept_withoutSkill (r : Registry) (sid name : String) : Kept r (r.withoutSkill sid name) := by
  unfold withoutSkill RegistryStore.removeSkill
  split <;> exact ⟨rfl, rfl, rfl, rfl, rfl, rfl, rfl⟩

theorem Edit.kept (h : Edit r r₁) : Kept r r₁ := by
  cases h with
  | filed store entry h => exact ((kept_withStore h).trans (kept_put _ entry)).trans (kept_saveIfApi _ entry)
  | removed entry h => exact (kept_delete r _).trans (kept_removeIfApi _ entry)
  | dropped sid name => exact kept_withoutSkill r sid name

end Edit

/-! ## What is shown -/

/-- The cache and `service.json` are the output of the entries. -/
structure Shown (r : Registry) : Prop where
  cache : r.outputCache = some r.output
  file : r.store.files.serviceJson = some r.output

section Shown

variable {r r₁ : Registry}

theorem shown_regenerateOutput (h : r.store.files.serviceJson = r.outputCache) : r.regenerateOutput.Shown := by
  constructor
  · rw [regenerateOutput_outputCache, output, output, regenerateOutput_entries]
  · rw [output, regenerateOutput_entries, regenerateOutput_eq]
    dsimp only
    split
    · rename_i hcache
      exact h.trans hcache
    · rfl

theorem Shown.mark (h : r.Shown) : r.markTaxonomyStale.Shown := by
  rw [markTaxonomyStale_eq]
  exact ⟨h.cache, h.file⟩

theorem Kept.shown (hkept : Kept r r₁) (h : r.Shown) : r₁.regenerateOutput.Shown := by
  apply shown_regenerateOutput
  rw [hkept.serviceJson, hkept.outputCache, h.cache, h.file]

theorem Shown.step (h : r.Shown) (c : Call) : (r.step c).Shown := by
  have houtcome := outcome r c
  generalize r.step c = r' at houtcome
  cases houtcome with
  | stored store hsame =>
    rw [hsame]
    exact ⟨h.cache, h.file⟩
  | shown r₁ hedit => exact (hedit.kept.shown h).mark
  | quiet entry new updates changed =>
    exact Kept.shown (((kept_withStore (applyUpdates_sameButSkills _ _ _)).trans (kept_put _ new)).trans (kept_saveIfApi _ new)) h

end Shown

/-! ## What is written -/

/-- `api_config.json` is what the cache of the store gives, once an entry came from there. -/
def Synced (r : Registry) : Prop :=
  (∃ e ∈ r.entries.rows, e.source = .apiConfig) → r.store.files.apiConfig = r.store.apiEntries.rows.map Entry.toConfigRow

section Synced

variable {r r₁ : Registry}

theorem Synced.same (h : r.Synced) (hcache : r₁.store.apiEntries = r.store.apiEntries)
    (hfile : r₁.store.files.apiConfig = r.store.files.apiConfig)
    (hentries : ∀ e ∈ r₁.entries.rows, e ∈ r.entries.rows ∨ e.source ≠ .apiConfig) : r₁.Synced := by
  rintro ⟨e, he, hsource⟩
  rw [hcache, hfile]
  exact h ⟨e, (hentries e he).resolve_right (absurd hsource), hsource⟩

theorem Synced.filed (h : r.Synced) {store : RegistryStore} (hsame : SameButSkills r.store store) (entry : Entry) :
    (((r.withStore store).put entry).saveIfApi entry).Synced := by
  by_cases hsource : entry.source = .apiConfig
  · rw [saveIfApi, if_pos hsource]
    exact fun _ => rfl
  · rw [saveIfApi, if_neg hsource, hsame]
    refine h.same rfl rfl fun e he => ?_
    rcases Table.mem_insert.mp he with rfl | ⟨he, -⟩
    · exact .inr hsource
    · exact .inl he

theorem Synced.removed (h : r.Synced) (sid : String) (entry : Entry) : ((r.delete sid).removeIfApi entry).Synced := by
  have hdelete : (r.delete sid).Synced := h.same rfl rfl fun e he => .inl (List.mem_filter.mp he).1
  unfold removeIfApi RegistryStore.removeApiEntry
  split
  · split
    · exact hdelete
    · exact fun _ => rfl
  · exact hdelete

theorem Synced.dropped (h : r.Synced) (sid name : String) : (r.withoutSkill sid name).Synced := by
  refine h.same ?_ ?_ fun e he => .inl (List.mem_filter.mp he).1
  · unfold withoutSkill RegistryStore.removeSkill
    split <;> rfl
  · unfold withoutSkill RegistryStore.removeSkill
    split <;> rfl

theorem Edit.synced (hedit : Edit r r₁) (h : r.Synced) : r₁.Synced := by
  cases hedit with
  | filed store entry hsame => exact h.filed hsame entry
  | removed entry _ => exact h.removed _ entry
  | dropped sid name => exact h.dropped sid name

theorem Synced.regenerateOutput (h : r.Synced) : r.regenerateOutput.Synced :=
  h.same (regenerateOutput_apiEntries r) (regenerateOutput_apiConfig r) fun e he => .inl (by simpa using he)

theorem Synced.mark (h : r.Synced) : r.markTaxonomyStale.Synced :=
  h.same (by simp) (by simp) fun e he => .inl (by simpa using he)

theorem Synced.step (h : r.Synced) (c : Call) : (r.step c).Synced := by
  have houtcome := outcome r c
  generalize r.step c = r' at houtcome
  cases houtcome with
  | stored store hsame =>
    rw [hsame]
    exact h.same rfl rfl fun e he => .inl he
  | shown r₁ hedit => exact (hedit.synced h).regenerateOutput.mark
  | quiet entry new updates changed => exact (h.filed (applyUpdates_sameButSkills _ _ _) new).regenerateOutput

end Synced

/-! ## Startup -/

theorem startup_shown (formats : FormatConfig) (files : Files) (fetch : String → Option AgentCard) :
    (startup formats files fetch).Shown := by
  unfold startup
  refine ⟨?_, ?_⟩
  · simp only [regenerateOutput_outputCache, output, regenerateOutput_entries]
  · simp only [output, regenerateOutput_entries]
    rw [regenerateOutput_eq]
    rfl

theorem startup_synced (formats : FormatConfig) (files : Files) (fetch : String → Option AgentCard) :
    (startup formats files fetch).Synced := by
  unfold startup
  rintro ⟨e, he, hsource⟩
  simp only [regenerateOutput_entries, regenerateOutput_apiConfig, regenerateOutput_apiEntries] at he ⊢
  -- the entry is one of those that are written back
  have hbatch : (loadEntries formats files fetch).rows.filter (fun e => e.source = .apiConfig) ≠ [] :=
    List.ne_nil_of_mem (List.mem_filter.mpr ⟨he, by simpa using hsource⟩)
  rw [if_neg hbatch]
  rfl

end AgentProtocol.Register.Registry
