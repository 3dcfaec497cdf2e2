-- SUMMARY: What a restart brings back: a deregistered service stays away unless `user_config.json` or a skill folder has it.
import AgentProtocol.Lib.Run
import AgentProtocol.Register.Registry

/-!
# Restarts

A dataset is loaded from three sources, of which `api_config.json` has the highest priority and
is the only one that the service API writes. So a service that was deregistered may be in
`user_config.json` or in a skill folder still, and then a restart shows what it had overridden.

Apart from that a deregistered service stays away, in runs in which `api_config.json` lists an
id only as long as its entry is persistent: a non-persistent registration must not take the
place of a persistent one.
-/

namespace AgentProtocol.Register

open Lib

/-! ## Sources -/

def Lists (entries : List Entry) (sid : String) : Prop := ∃ e ∈ entries, e.serviceId = sid

instance (entries : List Entry) (sid : String) : Decidable (Lists entries sid) :=
  inferInstanceAs (Decidable (∃ e ∈ entries, e.serviceId = sid))

namespace Files

def UserListed (f : Files) (sid : String) : Prop := Lists f.loadUserConfig sid

def ApiListed (f : Files) (sid : String) : Prop := Lists f.loadApiConfig sid

def SkillListed (f : Files) (sid : String) : Prop := Lists f.loadSkills sid

instance (f : Files) (sid : String) : Decidable (f.UserListed sid) := inferInstanceAs (Decidable (Lists _ sid))
instance (f : Files) (sid : String) : Decidable (f.ApiListed sid) := inferInstanceAs (Decidable (Lists _ sid))
instance (f : Files) (sid : String) : Decidable (f.SkillListed sid) := inferInstanceAs (Decidable (Lists _ sid))

end Files

theorem generateServiceId_ne_empty (typePrefix name : String) : generateServiceId typePrefix name ≠ "" := by
  intro h
  have hlen := congrArg (fun s : String => s.toList.length) h
  simp [generateServiceId] at hlen

theorem resolveId_ne_empty (serviceId : Option String) (typePrefix name : String) : resolveId serviceId typePrefix name ≠ "" := by
  unfold resolveId
  cases hid : serviceId.filter (· ≠ "") with
  | none => exact generateServiceId_ne_empty _ _
  | some sid =>
    have hne := (Option.filter_eq_some_iff.mp hid).2
    simpa using hne

variable {e : Entry} {source : Source} {row : ConfigRow}

theorem parseServiceEntry_ne_empty (h : parseServiceEntry source row = some e) : e.serviceId ≠ "" := by
  cases row with
  | generic sid =>
    simp only [parseServiceEntry] at h
    split at h
    · cases h
    obtain rfl := Option.some.inj h
    dsimp only
    split
    · exact generateServiceId_ne_empty _ _
    · assumption
  | a2a sid =>
    obtain rfl := Option.some.inj h
    dsimp only
    split
    · exact generateServiceId_ne_empty _ _
    · assumption
  | other => cases h

theorem serviceId_of_toConfigRow {e e' : Entry} (hid : e.serviceId ≠ "")
    (h : parseServiceEntry .apiConfig e.toConfigRow = some e') : e'.serviceId = e.serviceId := by
  unfold Entry.toConfigRow at h
  split at h
  · simp only [parseServiceEntry] at h
    split at h
    · cases h
    obtain rfl := Option.some.inj h
    rfl
  · obtain rfl := Option.some.inj h
    exact if_neg hid
  · cases h

theorem parseServiceEntry_source (h : parseServiceEntry source row = some e) : e.source = source := by
  cases row with
  | generic sid =>
    simp only [parseServiceEntry] at h
    split at h
    · cases h
    exact Option.some.inj h ▸ rfl
  | a2a sid => exact Option.some.inj h ▸ rfl
  | other => cases h

variable {folder : SkillFolder}

theorem loadSkill_eq_some (h : loadSkill folder = some e) :
    ∃ content skill, folder.lookup "SKILL.md" = some content ∧ parseSkillMdContent content = some skill ∧
      e = { serviceId := generateServiceId "skill" skill.name, source := .skillFolder
            payload := .skill (skillData skill folder) } := by
  simp only [loadSkill, Option.bind_eq_bind, Option.bind_eq_some_iff] at h
  obtain ⟨content, hcontent, skill, hskill, he⟩ := h
  exact ⟨content, skill, hcontent, hskill, (Option.some.inj he).symm⟩

theorem loadSkill_source (h : loadSkill folder = some e) : e.source = .skillFolder := by
  obtain ⟨content, skill, -, -, rfl⟩ := loadSkill_eq_some h
  rfl

/-! ## What startup loads -/

namespace Registry

/-- Every entry has an id from the list, and is not ephemeral. -/
def From (ids : String → Prop) (t : Table Entry.serviceId) : Prop :=
  ∀ e ∈ t.rows, ids e.serviceId ∧ e.source ≠ .ephemeral

section From

variable {ids : String → Prop} {t : Table Entry.serviceId}

theorem From.insert (h : From ids t) {e : Entry} (he : ids e.serviceId ∧ e.source ≠ .ephemeral) : From ids (t.insert e) := by
  intro x hx
  rcases Table.mem_insert.mp hx with rfl | ⟨hx, -⟩
  · exact he
  · exact h x hx

theorem From.erase (h : From ids t) (sid : String) : From ids (t.erase sid) :=
  fun x hx => h x (List.mem_filter.mp hx).1

theorem From.foldl {α : Type} {f : Table Entry.serviceId → α → Table Entry.serviceId} {l : List α} (h : From ids t)
    (hf : ∀ a ∈ l, ∀ t, From ids t → From ids (f t a)) : From ids (l.foldl f t) := by
  induction l generalizing t with
  | nil => exact h
  | cons a l ih => exact ih (hf a (by simp) t h) fun b hb => hf b (by simp [hb])

end From

theorem withFetched_serviceId (fetch : String → Option AgentCard) (e : Entry) :
    (withFetched fetch e).serviceId = e.serviceId ∧ (withFetched fetch e).source = e.source := by
  unfold withFetched
  split <;> exact ⟨rfl, rfl⟩

theorem loadEntries_from (formats : FormatConfig) (files : Files) (fetch : String → Option AgentCard) :
    From (fun sid => files.UserListed sid ∨ files.ApiListed sid ∨ files.SkillListed sid)
      (loadEntries formats files fetch) := by
  have hconfig : ∀ e ∈ files.loadUserConfig ++ files.loadApiConfig,
      (files.UserListed e.serviceId ∨ files.ApiListed e.serviceId ∨ files.SkillListed e.serviceId) ∧
        e.source ≠ .ephemeral := by
    intro e he
    rcases List.mem_append.mp he with hmem | hmem
    · obtain ⟨row, -, hrow⟩ := List.mem_filterMap.mp hmem
      exact ⟨.inl ⟨e, hmem, rfl⟩, by simp [parseServiceEntry_source hrow]⟩
    · obtain ⟨row, -, hrow⟩ := List.mem_filterMap.mp hmem
      exact ⟨.inr (.inl ⟨e, hmem, rfl⟩), by simp [parseServiceEntry_source hrow]⟩
  have hskill : ∀ e ∈ files.loadSkills,
      (files.UserListed e.serviceId ∨ files.ApiListed e.serviceId ∨ files.SkillListed e.serviceId) ∧
        e.source ≠ .ephemeral := by
    intro e he
    obtain ⟨p, -, hp⟩ := List.mem_filterMap.mp he
    exact ⟨.inr (.inr ⟨e, he, rfl⟩), by simp [loadSkill_source hp]⟩
  have hmerged : From (fun sid => files.UserListed sid ∨ files.ApiListed sid ∨ files.SkillListed sid)
      (files.loadSkills.foldl (mergeSkill formats) (mergeConfig formats (files.loadUserConfig ++ files.loadApiConfig))) := by
    refine From.foldl ?_ fun e he t ht => ?_
    · refine From.foldl (fun x hx => nomatch hx) fun e he t ht => ?_
      exact ht.insert (hconfig e (List.mem_filter.mp he).1)
    · unfold mergeSkill
      split
      · exact ht
      · split
        · exact ht.insert (hskill e he)
        · exact ht
  refine From.foldl (From.foldl hmerged fun e he t ht => ?_) fun e he t ht => ?_
  · unfold fetchCard
    split
    · obtain ⟨hid, hsource⟩ := withFetched_serviceId fetch e
      refine ht.insert ?_
      rw [hid, hsource]
      exact hconfig e (List.mem_filter.mp he).1
    · exact ht
  · unfold dropInvalid
    split
    · split
      · exact ht
      · exact ht.erase _
    · exact ht

theorem listed_ne_empty {files : Files} {sid : String}
    (h : files.UserListed sid ∨ files.ApiListed sid ∨ files.SkillListed sid) : sid ≠ "" := by
  rcases h with ⟨e, he, rfl⟩ | ⟨e, he, rfl⟩ | ⟨e, he, rfl⟩
  · obtain ⟨row, -, hrow⟩ := List.mem_filterMap.mp he
    exact parseServiceEntry_ne_empty hrow
  · obtain ⟨row, -, hrow⟩ := List.mem_filterMap.mp he
    exact parseServiceEntry_ne_empty hrow
  · obtain ⟨p, -, hp⟩ := List.mem_filterMap.mp he
    obtain ⟨content, skill, -, -, rfl⟩ := loadSkill_eq_some hp
    exact generateServiceId_ne_empty _ _

end Registry

/-! ## The cache of `api_config.json` -/

namespace RegistryStore

/-- The cache has every id that the file lists, and writing it again would list no others. -/
structure Tidy (s : RegistryStore) : Prop where
  named : ∀ e ∈ s.apiEntries.rows, e.serviceId ≠ ""
  cached : ∀ sid, s.files.ApiListed sid → (s.apiEntries.get? sid).isSome
  written : ∀ sid, s.flushApiConfig.files.ApiListed sid → s.files.ApiListed sid

theorem apiListed_flush {s : RegistryStore} (hnamed : ∀ e ∈ s.apiEntries.rows, e.serviceId ≠ "") {sid : String} :
    s.flushApiConfig.files.ApiListed sid ↔
      ∃ e, s.apiEntries.get? sid = some e ∧ (parseServiceEntry .apiConfig e.toConfigRow).isSome := by
  constructor
  · rintro ⟨e', he', rfl⟩
    obtain ⟨row, hrow, hparse⟩ := List.mem_filterMap.mp he'
    obtain ⟨e, he, rfl⟩ := List.mem_map.mp hrow
    refine ⟨e, ?_, by rw [hparse]; rfl⟩
    rw [serviceId_of_toConfigRow (hnamed e he) hparse]
    exact Table.mem_iff_get?.mp he
  · rintro ⟨e, he, hload⟩
    obtain ⟨e', hparse⟩ := Option.isSome_iff_exists.mp hload
    obtain ⟨hmem, rfl⟩ := Table.get?_eq_some.mp he
    refine ⟨e', List.mem_filterMap.mpr ⟨e.toConfigRow, List.mem_map_of_mem hmem, hparse⟩, ?_⟩
    exact serviceId_of_toConfigRow (hnamed e hmem) hparse

theorem tidy_flush {s : RegistryStore} (hnamed : ∀ e ∈ s.apiEntries.rows, e.serviceId ≠ "") : s.flushApiConfig.Tidy where
  named := hnamed
  cached sid h := by
    obtain ⟨e, he, -⟩ := (apiListed_flush hnamed).mp h
    exact Option.isSome_iff_exists.mpr ⟨e, he⟩
  written sid h := h

section Tidy

variable {s : RegistryStore}

variable {entry : Entry}

theorem Tidy.saveApiEntry (h : s.Tidy) (hid : entry.serviceId ≠ "") : (s.saveApiEntry entry).Tidy := by
  apply tidy_flush
  intro e he
  rcases Table.mem_insert.mp he with rfl | ⟨he, -⟩
  · exact hid
  · exact h.named e he

theorem Tidy.apiListed_saveApiEntry (h : s.Tidy) (hid : entry.serviceId ≠ "") {sid : String}
    (hne : entry.serviceId ≠ sid) (hlisted : (s.saveApiEntry entry).files.ApiListed sid) : s.files.ApiListed sid := by
  have hnamed : ∀ e ∈ (s.apiEntries.insert entry).rows, e.serviceId ≠ "" := by
    intro e he
    rcases Table.mem_insert.mp he with rfl | ⟨he, -⟩
    · exact hid
    · exact h.named e he
  obtain ⟨e, he, hload⟩ := (apiListed_flush (s := { s with apiEntries := s.apiEntries.insert entry }) hnamed).mp hlisted
  rw [Table.get?_insert_of_ne hne] at he
  exact h.written sid ((apiListed_flush h.named).mpr ⟨e, he, hload⟩)

theorem Tidy.removeApiEntry (h : s.Tidy) (sid : String) : (s.removeApiEntry sid).Tidy := by
  unfold RegistryStore.removeApiEntry
  split
  · exact h
  · exact tidy_flush fun e he => h.named e (List.mem_filter.mp he).1

theorem Tidy.not_apiListed_removeApiEntry (h : s.Tidy) (sid : String) : ¬ (s.removeApiEntry sid).files.ApiListed sid := by
  unfold RegistryStore.removeApiEntry
  intro hlisted
  split at hlisted
  · rename_i hnone
    have hcached := h.cached sid hlisted
    rw [hnone] at hcached
    cases hcached
  · have hnamed : ∀ e ∈ (s.apiEntries.erase sid).rows, e.serviceId ≠ "" := fun e he => h.named e (List.mem_filter.mp he).1
    obtain ⟨e, he, -⟩ := (apiListed_flush (s := { s with apiEntries := s.apiEntries.erase sid }) hnamed).mp hlisted
    simp [Table.get?_erase] at he

theorem Tidy.apiListed_removeApiEntry (h : s.Tidy) {sid sid' : String}
    (hlisted : (s.removeApiEntry sid).files.ApiListed sid') : s.files.ApiListed sid' := by
  unfold RegistryStore.removeApiEntry at hlisted
  split at hlisted
  · exact hlisted
  · have hnamed : ∀ e ∈ (s.apiEntries.erase sid).rows, e.serviceId ≠ "" := fun e he => h.named e (List.mem_filter.mp he).1
    obtain ⟨e, he, hload⟩ := (apiListed_flush (s := { s with apiEntries := s.apiEntries.erase sid }) hnamed).mp hlisted
    rw [Table.get?_erase] at he
    split at he
    · cases he
    exact h.written sid' ((apiListed_flush h.named).mpr ⟨e, he, hload⟩)

end Tidy

end RegistryStore

/-! ## Runs -/

/-- The config files and the cache are the same. -/
structure SameApi (s s' : RegistryStore) : Prop where
  apiEntries : s'.apiEntries = s.apiEntries
  apiConfig : s'.files.apiConfig = s.files.apiConfig

theorem SameApi.trans {s₁ s₂ s₃ : RegistryStore} (h₁ : SameApi s₁ s₂) (h₂ : SameApi s₂ s₃) : SameApi s₁ s₃ :=
  ⟨h₂.apiEntries.trans h₁.apiEntries, h₂.apiConfig.trans h₁.apiConfig⟩

theorem SameApi.apiListed {s s' : RegistryStore} (h : SameApi s s') {sid : String} :
    s'.files.ApiListed sid ↔ s.files.ApiListed sid := by
  unfold Files.ApiListed Files.loadApiConfig
  rw [h.apiConfig]

theorem SameApi.tidy {s s' : RegistryStore} (h : SameApi s s') (htidy : s.Tidy) : s'.Tidy where
  named := h.apiEntries ▸ htidy.named
  cached sid hlisted := h.apiEntries ▸ htidy.cached sid (h.apiListed.mp hlisted)
  written sid hlisted := by
    have hflush : SameApi s.flushApiConfig s'.flushApiConfig :=
      ⟨h.apiEntries, congrArg (fun t : Table Entry.serviceId => t.rows.map Entry.toConfigRow) h.apiEntries⟩
    exact h.apiListed.mpr (htidy.written sid (hflush.apiListed.mp hlisted))

theorem SameButSkills.sameApi {s s' : RegistryStore} (h : Registry.SameButSkills s s') : SameApi s s' := by
  rw [h]
  exact ⟨rfl, rfl⟩

theorem sameApi_removeSkill (s : RegistryStore) (name : String) : SameApi s (s.removeSkill name) := by
  unfold RegistryStore.removeSkill
  split <;> exact ⟨rfl, rfl⟩

namespace Registry

theorem sameApi_withSkill (r : Registry) (name : String) (folder : SkillFolder) :
    SameApi r.store (r.withSkill name folder).store := ⟨rfl, rfl⟩

theorem sameApi_shown (r : Registry) : SameApi r.store r.regenerateOutput.markTaxonomyStale.store := by
  rw [markTaxonomyStale_store]
  exact ⟨regenerateOutput_apiEntries r, regenerateOutput_apiConfig r⟩

/-- Tidy files, and an entry of the id is not ephemeral while `api_config.json` lists it. -/
structure Tidy (r : Registry) (sid : String) : Prop where
  store : r.store.Tidy
  named : ∀ e ∈ r.entries.rows, e.serviceId ≠ ""
  lasting : ∀ e ∈ r.entries.rows, e.serviceId = sid → r.store.files.ApiListed sid → e.source ≠ .ephemeral

/-- The call registers without persistence. -/
def ephemeral (c : Call) : Bool :=
  match c.op with
  | .registerGeneric req => !req.persistent
  | .registerA2a req => !req.persistent
  | _ => false

/-- The call is not a non-persistent registration of the id while `api_config.json` lists it. -/
def KeepsPersistent (sid : String) (r : Registry) (c : Call) : Prop :=
  ephemeral c = true → target c = some sid → ¬ r.store.files.ApiListed sid

instance (sid : String) (r : Registry) (c : Call) : Decidable (KeepsPersistent sid r c) :=
  inferInstanceAs (Decidable (_ → _ → ¬ _))

/-- The skills that the call files or removes have names that are a single path component. -/
def PlainSkills (r : Registry) (c : Call) : Prop :=
  match c.op with
  | .registerSkill zip => ∀ p ∈ zip.open?.toOption, isPlain p.1.name = true
  | .updateService sid updates => ∀ e ∈ r.entries.get? sid, ∀ d, e.payload = .skill d → ∀ name ∈ skillName d updates, isPlain name = true
  | .deregisterSkill name => isPlain name = true
  | _ => True

/-- What a step may add to `api_config.json`. -/
structure Step (sid : String) (r : Registry) (c : Call) (r' : Registry) (ok : Bool) : Prop where
  tidy : r'.Tidy sid
  listed : ∀ sid', r'.store.files.ApiListed sid' → r.store.files.ApiListed sid' ∨ (target c = some sid' ∧ ok = true)

section Steps

variable {r : Registry} {c : Call} {sid : String}

theorem Tidy.same (h : r.Tidy sid) (c : Call) (r' : Registry) (ok : Bool) (hsame : SameApi r.store r'.store)
    (hentries : ∀ e ∈ r'.entries.rows, e ∈ r.entries.rows ∨ (e.serviceId ≠ "" ∧ e.source ≠ .ephemeral)) : Step sid r c r' ok where
  tidy :=
    { store := hsame.tidy h.store
      named := fun e he => (hentries e he).elim (h.named e) And.left
      lasting := fun e he hid hlisted =>
        (hentries e he).elim (fun hold => h.lasting e hold hid (hsame.apiListed.mp hlisted)) And.right }
  listed _ hlisted := .inl (hsame.apiListed.mp hlisted)

theorem Tidy.filed (h : r.Tidy sid) {entry : Entry} {r' : Registry} (hshown : SameApi ((r.put entry).saveIfApi entry).store r'.store)
    (hentries : r'.entries = r.entries.insert entry) (hid : entry.serviceId ≠ "") (htarget : target c = some entry.serviceId)
    (hkeeps : entry.serviceId = sid → r.store.files.ApiListed sid → entry.source ≠ .ephemeral) : Step sid r c r' true := by
  have hnamed : ∀ e ∈ r'.entries.rows, e.serviceId ≠ "" := by
    intro e he
    rw [hentries] at he
    rcases Table.mem_insert.mp he with rfl | ⟨he, -⟩
    · exact hid
    · exact h.named e he
  by_cases hsource : entry.source = .apiConfig
  · have hstore : ((r.put entry).saveIfApi entry).store = r.store.saveApiEntry entry := by
      rw [saveIfApi, if_pos hsource]
      rfl
    rw [hstore] at hshown
    have hlisted : ∀ sid', entry.serviceId ≠ sid' → r'.store.files.ApiListed sid' → r.store.files.ApiListed sid' :=
      fun sid' hne hsid => h.store.apiListed_saveApiEntry hid hne (hshown.apiListed.mp hsid)
    refine ⟨⟨hshown.tidy (h.store.saveApiEntry hid), hnamed, fun e he heq hsid => ?_⟩, fun sid' hsid => ?_⟩
    · rw [hentries] at he
      rcases Table.mem_insert.mp he with rfl | ⟨he, hne⟩
      · simp [hsource]
      · exact h.lasting e he heq (hlisted _ (heq ▸ Ne.symm hne) hsid)
    · by_cases hne : entry.serviceId = sid'
      · exact .inr ⟨hne ▸ htarget, rfl⟩
      · exact .inl (hlisted sid' hne hsid)
  · have hstore : ((r.put entry).saveIfApi entry).store = r.store := by
      rw [saveIfApi, if_neg hsource]
      rfl
    rw [hstore] at hshown
    refine ⟨⟨hshown.tidy h.store, hnamed, fun e he heq hsid => ?_⟩, fun _ hsid => .inl (hshown.apiListed.mp hsid)⟩
    rw [hentries] at he
    rcases Table.mem_insert.mp he with rfl | ⟨he, -⟩
    · exact hkeeps heq (hshown.apiListed.mp hsid)
    · exact h.lasting e he heq (hshown.apiListed.mp hsid)

theorem Tidy.deleted (h : r.Tidy sid) (c : Call) (entry : Entry) (ok : Bool) :
    Step sid r c ((r.delete entry.serviceId).removeIfApi entry).regenerateOutput.markTaxonomyStale ok := by
  have hshown := sameApi_shown ((r.delete entry.serviceId).removeIfApi entry)
  have hentries : ∀ e ∈ (((r.delete entry.serviceId).removeIfApi entry).regenerateOutput.markTaxonomyStale).entries.rows,
      e ∈ r.entries.rows := by
    intro e he
    simp only [markTaxonomyStale_entries, regenerateOutput_entries, removeIfApi_entries, delete_entries] at he
    exact (List.mem_filter.mp he).1
  by_cases hsource : entry.source = .apiConfig
  · have hstore : ((r.delete entry.serviceId).removeIfApi entry).store = r.store.removeApiEntry entry.serviceId := by
      rw [removeIfApi, if_pos hsource]
      rfl
    rw [hstore] at hshown
    have hlisted : ∀ {sid'}, (((r.delete entry.serviceId).removeIfApi entry).regenerateOutput.markTaxonomyStale).store.files.ApiListed sid' →
        r.store.files.ApiListed sid' := fun hsid => h.store.apiListed_removeApiEntry (hshown.apiListed.mp hsid)
    exact ⟨⟨hshown.tidy (h.store.removeApiEntry _), fun e he => h.named e (hentries e he),
      fun e he heq hsid => h.lasting e (hentries e he) heq (hlisted hsid)⟩, fun _ hsid => .inl (hlisted hsid)⟩
  · have hstore : ((r.delete entry.serviceId).removeIfApi entry).store = r.store := by
      rw [removeIfApi, if_neg hsource]
      rfl
    rw [hstore] at hshown
    exact h.same _ _ _ hshown fun e he => .inl (hentries e he)

theorem Tidy.doRegister (h : r.Tidy sid) {entry : Entry} (hid : entry.serviceId ≠ "") (htarget : target c = some entry.serviceId)
    (hkeeps : entry.serviceId = sid → r.store.files.ApiListed sid → entry.source ≠ .ephemeral) :
    Step sid r c (r.doRegister entry).2 (r.doRegister entry).1.isOk :=
  h.filed (sameApi_shown _) (by simp [Registry.doRegister]) hid htarget hkeeps

theorem Tidy.commitUpdate (h : r.Tidy sid) (new : Entry) (changed : List String) (hid : new.serviceId ≠ "")
    (htarget : target c = some new.serviceId)
    (hkeeps : new.serviceId = sid → r.store.files.ApiListed sid → new.source ≠ .ephemeral) :
    Step sid r c (r.commitUpdate new changed).2 (r.commitUpdate new changed).1.isOk := by
  rcases commitUpdate_cases r new changed with ⟨e, he⟩ | ⟨response, hcommit⟩
  · rw [he]
    exact h.same _ _ _ ⟨rfl, rfl⟩ fun e he => .inl he
  · rw [hcommit]
    dsimp only
    split
    · exact h.filed (sameApi_shown _) (by simp) hid htarget hkeeps
    · exact h.filed ⟨regenerateOutput_apiEntries _, regenerateOutput_apiConfig _⟩ (by simp) hid htarget hkeeps

theorem Tidy.step (h : r.Tidy sid) (hc : KeepsPersistent sid r c) : Step sid r c (r.exec c).2 (r.exec c).1.isOk := by
  have hrefused : ∀ {result : Except Failure Response}, r.exec c = (result, r) →
      Step sid r c (r.exec c).2 (r.exec c).1.isOk := by
    intro result hexec
    rw [hexec]
    exact h.same c r _ ⟨rfl, rfl⟩ fun e he => .inl he
  obtain ⟨op, caller⟩ := c
  cases op with
  | registerGeneric req =>
    rcases registerGeneric_cases r req caller with ⟨e, he⟩ | ⟨-, -, hexec⟩
    · exact hrefused he
    · rw [exec_registerGeneric, hexec]
      refine h.doRegister (resolveId_ne_empty _ _ _) rfl fun heq hlisted hsource => ?_
      have hnot : req.persistent = false := by
        cases hp : req.persistent with
        | false => rfl
        | true => simp [RegisterGenericRequest.entry, sourceOf, hp] at hsource
      exact hc (by simp [ephemeral, hnot]) (congrArg some heq) hlisted
  | registerA2a req =>
    rcases registerA2a_cases r req caller with ⟨e, he⟩ | ⟨card, url, -, hcard, -, hexec⟩
    · exact hrefused he
    · have htarget : target ⟨.registerA2a req, caller⟩ = some (req.entry card url caller).serviceId := by
        simp [target, hcard, Except.toOption]
      rw [exec_registerA2a, hexec]
      refine h.doRegister (resolveId_ne_empty _ _ _) htarget fun heq hlisted hsource => ?_
      have hnot : req.persistent = false := by
        cases hp : req.persistent with
        | false => rfl
        | true => simp [RegisterA2ARequest.entry, sourceOf, hp] at hsource
      exact hc (by simp [ephemeral, hnot]) (htarget.trans (congrArg some heq)) hlisted
  | registerSkill zip =>
    rcases registerSkill_cases r zip caller with ⟨e, he⟩ | ⟨skill, strip, -, -, -, hsaved⟩
    · exact hrefused he
    · have hfailed : ∀ folder ok, Step sid r ⟨.registerSkill zip, caller⟩ (r.withSkill skill.name folder) ok :=
        fun folder ok => h.same _ _ ok (sameApi_withSkill r skill.name folder) fun e he => .inl he
      rcases hsaved with ⟨n, -, hexec⟩ | ⟨-, hexec⟩
      · rw [exec_registerSkill, hexec]
        exact hfailed _ _
      · rw [exec_registerSkill, hexec]
        rcases commitSkill_cases (r.withSkill skill.name (Zip.extract zip.infolist strip))
          (skillData skill (Zip.extract zip.infolist strip)) caller with ⟨e, he⟩ | ⟨-, status, hcommit⟩
        · rw [he]
          exact hfailed _ _
        · rw [hcommit]
          have hput : ∀ folder entry, SameApi r.store ((r.withSkill skill.name folder).put entry).store :=
            fun _ _ => ⟨rfl, rfl⟩
          refine h.same _ _ _ ((hput _ _).trans (sameApi_shown _)) fun e he => ?_
          simp only [markTaxonomyStale_entries, regenerateOutput_entries, put_entries] at he
          rcases Table.mem_insert.mp he with rfl | ⟨he, -⟩
          · exact .inr ⟨generateServiceId_ne_empty _ _, by simp [skillEntry]⟩
          · exact .inl he
  | updateService sid' updates =>
    rcases updateService_cases r sid' updates caller with ⟨e, he⟩ | ⟨entry, hget, -, -, hrest⟩
    · exact hrefused he
    · have hsame := SameButSkills.sameApi (applyUpdates_sameButSkills r.store entry updates)
      have hstored : (r.withStore (applyUpdates r.store entry updates).2).Tidy sid :=
        (h.same ⟨.updateService sid' updates, caller⟩ (r.withStore _) true hsame fun e he => .inl he).tidy
      rcases hrest with ⟨e, -, hexec⟩ | ⟨new, changed, hok, hexec⟩
      · rw [exec_updateService, hexec]
        exact h.same _ _ _ hsame fun e he => .inl he
      · rw [exec_updateService, hexec]
        obtain ⟨hentry, rfl⟩ := Table.get?_eq_some.mp hget
        obtain ⟨payload, rfl⟩ := applyUpdates_ok hok
        have hstep := hstored.commitUpdate (c := ⟨.updateService entry.serviceId updates, caller⟩) { entry with payload } changed
          (h.named entry hentry) rfl fun heq hlisted => h.lasting entry hentry heq (hsame.apiListed.mp hlisted)
        exact ⟨hstep.tidy, fun sid' hsid => (hstep.listed sid' hsid).imp_left hsame.apiListed.mp⟩
  | deregister sid' =>
    rcases deregister_cases r sid' caller with ⟨e, he⟩ | ⟨entry, hget, -, -, -, hexec⟩
    · exact hrefused he
    · obtain ⟨-, rfl⟩ := Table.get?_eq_some.mp hget
      rw [exec_deregister, hexec]
      exact h.deleted _ entry _
  | deregisterSkill name =>
    rcases deregisterSkill_cases r name caller with ⟨result, he⟩ | ⟨entry, -, -, hexec⟩
    · exact hrefused he
    · rw [exec_deregisterSkill, hexec]
      refine h.same _ _ _ ((sameApi_removeSkill r.store name).trans (sameApi_shown (r.withoutSkill _ name))) fun e he => .inl ?_
      simp only [markTaxonomyStale_entries, regenerateOutput_entries, withoutSkill, delete_entries] at he
      exact (List.mem_filter.mp he).1

end Steps

theorem startup_tidy (formats : FormatConfig) (files : Files) (fetch : String → Option AgentCard) (sid : String) :
    (startup formats files fetch).Tidy sid := by
  have hfrom := loadEntries_from formats files fetch
  have hnamed : ∀ e ∈ (loadEntries formats files fetch).rows, e.serviceId ≠ "" := fun e he => listed_ne_empty (hfrom e he).1
  have hcache : RegistryStore.Tidy { files, apiEntries := (∅ : Table Entry.serviceId).insertAll files.loadApiConfig } := by
    have hmem : ∀ e ∈ ((∅ : Table Entry.serviceId).insertAll files.loadApiConfig).rows, e ∈ files.loadApiConfig :=
      fun e he => (Table.mem_of_mem_insertAll he).resolve_left (by rintro ⟨⟩)
    have hids : ∀ e ∈ ((∅ : Table Entry.serviceId).insertAll files.loadApiConfig).rows, e.serviceId ≠ "" :=
      fun e he => listed_ne_empty (.inr (.inl ⟨e, hmem e he, rfl⟩))
    refine ⟨hids, fun sid hlisted => Table.isSome_get?_insertAll (.inr hlisted), fun sid hlisted => ?_⟩
    obtain ⟨e, he, -⟩ := (RegistryStore.apiListed_flush hids).mp hlisted
    obtain ⟨he, hid⟩ := Table.get?_eq_some.mp he
    exact ⟨e, hmem e he, hid⟩
  have hstore : RegistryStore.Tidy (if (loadEntries formats files fetch).rows.filter (fun e => e.source = .apiConfig) = []
      then { files, apiEntries := (∅ : Table Entry.serviceId).insertAll files.loadApiConfig }
      else RegistryStore.saveApiBatch { files, apiEntries := (∅ : Table Entry.serviceId).insertAll files.loadApiConfig }
        ((loadEntries formats files fetch).rows.filter fun e => e.source = .apiConfig)) := by
    split
    · exact hcache
    · refine RegistryStore.tidy_flush fun e he => ?_
      have hbatch := (Table.mem_of_mem_insertAll he).resolve_left (by rintro ⟨⟩)
      exact hnamed e (List.mem_filter.mp hbatch).1
  unfold startup
  refine ⟨SameApi.tidy ⟨regenerateOutput_apiEntries _, regenerateOutput_apiConfig _⟩ hstore, ?_, ?_⟩
  · simpa using hnamed
  · intro e he _ _
    simp only [regenerateOutput_entries] at he
    exact (hfrom e he).2

theorem Tidy.deregistered {r : Registry} {sid : String} (h : r.Tidy sid) {caller : Option AuthContext}
    (hdone : (r.exec ⟨.deregister sid, caller⟩).1 = .ok (.deregister sid)) :
    ¬ (r.step ⟨.deregister sid, caller⟩).store.files.ApiListed sid := by
  rcases deregister_cases r sid caller with ⟨e, he⟩ | ⟨entry, hget, huser, hskill, -, hexec⟩
  · rw [exec_deregister, he] at hdone
    cases hdone
  · obtain ⟨hentry, rfl⟩ := Table.get?_eq_some.mp hget
    rw [Registry.step, exec_deregister, hexec, (sameApi_shown _).apiListed]
    cases hsource : entry.source with
    | userConfig => exact absurd hsource huser
    | skillFolder => exact absurd hsource hskill
    | apiConfig =>
      rw [removeIfApi, if_pos hsource]
      exact h.store.not_apiListed_removeApiEntry entry.serviceId
    | ephemeral =>
      rw [removeIfApi, if_neg (by simp [hsource])]
      exact fun hlisted => h.lasting entry hentry rfl hlisted hsource

/-- The call is not a successful operation on the id. -/
def LeavesAlone (sid : String) (r : Registry) (c : Call) : Prop := target c = some sid → (r.exec c).1.isOk = false

/-- A dataset whose `user_config.json` has one service. -/
def overridden : Files where
  userConfig := [.generic "svc" "old" "from the file" (.obj .nil) none none none]

def override (persistent : Bool) : Call where
  op := .registerGeneric { serviceId := some "svc", name := "new", description := "from the API", persistent }

def fetchNothing : String → Option AgentCard := fun _ => none

end Registry

end AgentProtocol.Register
