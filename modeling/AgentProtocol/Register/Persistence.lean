-- SUMMARY: What a restart preserves: which entries of `api_config.json` come back as they were.
import AgentProtocol.Register.Ownership
import AgentProtocol.Register.Restart

/-!
# Persisted services

An entry goes to `api_config.json` as a row and comes back from it through a parser, which strips
names and descriptions, and through the format check of the dataset. An entry is `Restorable` if
both leave it alone. Updates are not checked, so an update may make an entry that is not.
-/

namespace AgentProtocol.Register

open Lib

/-- Names and descriptions without blanks around them. -/
def Payload.Stripped : Payload → Prop
  | .generic d => Text.strip d.name = d.name ∧ Text.strip d.description = d.description
  | _ => True

instance (payload : Payload) : Decidable payload.Stripped := by
  unfold Payload.Stripped
  split <;> infer_instance

/-- A persistent entry that comes back as it is. -/
structure Entry.Restorable (formats : FormatConfig) (e : Entry) : Prop where
  owner : e.ownerId ≠ some ""
  lease : e.leaseTtl.all (0 < ·) = true
  valid : validateEntry formats true e.payload = true
  stripped : e.payload.Stripped

instance (formats : FormatConfig) (e : Entry) : Decidable (e.Restorable formats) :=
  decidable_of_iff
    (e.ownerId ≠ some "" ∧ e.leaseTtl.all (0 < ·) = true ∧ validateEntry formats true e.payload = true ∧ e.payload.Stripped)
    ⟨fun ⟨howner, hlease, hvalid, hstripped⟩ => ⟨howner, hlease, hvalid, hstripped⟩,
      fun h => ⟨h.owner, h.lease, h.valid, h.stripped⟩⟩

/-- What a restart keeps of an entry. -/
structure SameService (e e' : Entry) : Prop where
  serviceId : e'.serviceId = e.serviceId
  source : e'.source = e.source
  ownerId : e'.ownerId = e.ownerId
  leaseTtl : e'.leaseTtl = e.leaseTtl
  output : e'.toOutput = e.toOutput

section RoundTrip

variable {formats : FormatConfig} {e : Entry}

theorem filter_ne_empty {o : Option String} (h : o ≠ some "") : o.filter (· ≠ "") = o := by
  cases o with
  | none => rfl
  | some s =>
    have hne : s ≠ "" := fun hs => h (congrArg some hs)
    simp [Option.filter, hne]

theorem filter_pos {o : Option ℤ} (h : o.all (0 < ·) = true) : (o.filter (· ≠ 0)).filter (0 < ·) = o := by
  cases o with
  | none => rfl
  | some ttl =>
    have hpos : 0 < ttl := by simpa using h
    have hne : ttl ≠ 0 := by omega
    simp [Option.filter, hpos, hne]

theorem filter_filter_ne_empty (o : Option String) : (o.filter (· ≠ "")).filter (· ≠ "") = o.filter (· ≠ "") := by
  cases o with
  | none => rfl
  | some s => by_cases hs : s = "" <;> simp [Option.filter, hs]

theorem hasText_of_valid {d : GenericServiceData} (h : validateEntry formats true (.generic d) = true) :
    Text.strip d.name ≠ "" ∧ Text.strip d.description ≠ "" := by
  have herrors : checkNameDescription d.name d.description = [] := by
    exact of_decide_eq_true (Bool.and_eq_true_iff.mp h).2
  unfold checkNameDescription required at herrors
  obtain ⟨hname, hdescription⟩ := List.append_eq_nil_iff.mp herrors
  constructor
  · by_contra hempty
    simp [hasText, hempty] at hname
  · by_contra hempty
    simp [hasText, hempty] at hdescription

theorem Entry.Restorable.parse (h : e.Restorable formats) (hid : e.serviceId ≠ "") (hsource : e.source = .apiConfig)
    (hpayload : ∀ d, e.payload ≠ .skill d) :
    ∃ e', parseServiceEntry .apiConfig e.toConfigRow = some e' ∧ SameService e e' ∧ e'.Restorable formats := by
  obtain ⟨serviceId, source, payload, ownerId, leaseTtl⟩ := e
  have howner := filter_ne_empty h.owner
  have hlease := filter_pos h.lease
  cases payload with
  | skill d => exact absurd rfl (hpayload d)
  | generic d =>
    obtain ⟨hname, hdescription⟩ := h.stripped
    obtain ⟨htext, htext'⟩ := hasText_of_valid h.valid
    rw [hname] at htext
    rw [hdescription] at htext'
    refine ⟨{ serviceId, source := .apiConfig, ownerId, leaseTtl
              payload := .generic { d with url := d.url.filter (· ≠ "") } }, ?_, ⟨rfl, hsource.symm, rfl, rfl, ?_⟩, ?_⟩
    · dsimp only [Entry.toConfigRow, parseServiceEntry]
      rw [hname, hdescription, if_neg (by simp [htext, htext']), howner, howner, hlease, if_neg hid]
    · simp only [Entry.toOutput, filter_filter_ne_empty]
    · exact ⟨h.owner, h.lease, h.valid, hname, hdescription⟩
  | a2a card url =>
    refine ⟨{ serviceId, source := .apiConfig, ownerId, leaseTtl, payload := .a2a card (url.filter (· ≠ "")) }, ?_,
      ⟨rfl, hsource.symm, rfl, rfl, ?_⟩, ?_⟩
    · dsimp only [Entry.toConfigRow, parseServiceEntry]
      rw [howner, howner, hlease, if_neg hid]
    · cases card with
      | none => simp only [Entry.toOutput, filter_filter_ne_empty]
      | some card => rfl
    · refine ⟨h.owner, h.lease, ?_, trivial⟩
      have hvalid := h.valid
      cases card with
      | none | some => exact hvalid

theorem restorable_of_parse {source : Source} {row : ConfigRow} (h : parseServiceEntry source row = some e)
    (hvalid : validateEntry formats true e.payload = true) : e.Restorable formats := by
  have hlease : ∀ o : Option ℤ, (o.filter (0 < ·)).all (0 < ·) = true := by
    intro o
    cases o with
    | none => rfl
    | some ttl => by_cases hpos : 0 < ttl <;> simp [Option.filter, hpos]
  have howner : ∀ o : Option String, o.filter (· ≠ "") ≠ some "" := by
    intro o ho
    simpa using (Option.filter_eq_some_iff.mp ho).2
  cases row with
  | generic sid name description inputSchema url owner lease =>
    simp only [parseServiceEntry] at h
    split at h
    · cases h
    obtain rfl := Option.some.inj h
    exact ⟨howner owner, hlease lease, hvalid, Text.strip_idem name, Text.strip_idem description⟩
  | a2a sid card url owner lease =>
    obtain rfl := Option.some.inj h
    exact ⟨howner owner, hlease lease, hvalid, trivial⟩
  | other => cases h

end RoundTrip

/-! ## Loading -/

namespace Registry

/-- The URLs of cards give no other cards than those in the files, if any. -/
def NothingNew (fetch : String → Option AgentCard) (files : Files) : Prop :=
  ∀ e ∈ files.loadUserConfig ++ files.loadApiConfig, withFetched fetch e = e

instance (fetch : String → Option AgentCard) (files : Files) : Decidable (NothingNew fetch files) :=
  inferInstanceAs (Decidable (∀ e ∈ _, _))

section Load

variable {formats : FormatConfig} {files : Files} {fetch : String → Option AgentCard}

variable {t : Table Entry.serviceId}

theorem get?_mergeSkills {skills : List Entry} {sid : String} {e : Entry} (h : t.get? sid = some e) :
    (skills.foldl (mergeSkill formats) t).get? sid = some e := by
  induction skills generalizing t with
  | nil => exact h
  | cons skill skills ih =>
    apply ih
    unfold mergeSkill
    split
    · exact h
    · rename_i hfree
      split
      · have hne : skill.serviceId ≠ sid := by
          rintro rfl
          exact hfree (by simp [h])
        rwa [Table.get?_insert_of_ne hne]
      · exact h

variable {urls : List Entry}

theorem foldl_fetchCard (h : ∀ e ∈ urls, withFetched fetch e = e) : urls.foldl (fetchCard fetch) t = t := by
  induction urls generalizing t with
  | nil => rfl
  | cons e urls ih =>
    have hsame : fetchCard fetch t e = t := by
      unfold fetchCard
      split
      · rename_i hget
        rw [h e (by simp)]
        exact Table.insert_of_get? hget
      · rfl
    rw [List.foldl_cons, hsame]
    exact ih fun e he => h e (by simp [he])

theorem foldl_dropInvalid (h : ∀ e ∈ urls, withFetched fetch e = e)
    (hvalid : ∀ e ∈ urls, validateEntry formats true e.payload = true) : urls.foldl (dropInvalid formats fetch) t = t := by
  induction urls generalizing t with
  | nil => rfl
  | cons e urls ih =>
    have hsame : dropInvalid formats fetch t e = t := by
      unfold dropInvalid
      rw [h e (by simp)]
      split
      · rename_i card url hpayload
        have hcard := hvalid e (by simp)
        rw [hpayload] at hcard
        exact if_pos hcard
      · rfl
    rw [List.foldl_cons, hsame]
    exact ih (fun e he => h e (by simp [he])) fun e he => hvalid e (by simp [he])

theorem get?_loadEntries {e : Entry} (he : e ∈ files.loadApiConfig) (hvalid : validateEntry formats true e.payload = true)
    (honly : ∀ x ∈ files.loadApiConfig, x.serviceId = e.serviceId → x = e) (hfetch : NothingNew fetch files) :
    (loadEntries formats files fetch).get? e.serviceId = some e := by
  have hmerged : (mergeConfig formats (files.loadUserConfig ++ files.loadApiConfig)).get? e.serviceId = some e := by
    rw [mergeConfig, List.filter_append, Table.insertAll, List.foldl_append]
    refine Table.get?_insertAll_of_mem (List.mem_filter.mpr ⟨he, hvalid⟩) fun x hx hid => ?_
    exact honly x (List.mem_filter.mp hx).1 hid
  unfold loadEntries
  dsimp only
  rw [foldl_fetchCard fun x hx => hfetch x (List.mem_filter.mp hx).1, foldl_dropInvalid fun x hx => hfetch x (List.mem_filter.mp hx).1]
  · exact get?_mergeSkills hmerged
  · intro x hx
    exact (Bool.and_eq_true_iff.mp (List.mem_filter.mp hx).2).1

theorem parseServiceEntry_payload {source : Source} {row : ConfigRow} {e : Entry}
    (h : parseServiceEntry source row = some e) : ∀ d, e.payload ≠ .skill d := by
  intro d
  cases row with
  | generic sid =>
    simp only [parseServiceEntry] at h
    split at h
    · cases h
    exact Option.some.inj h ▸ fun hd => by cases hd
  | a2a sid => exact Option.some.inj h ▸ fun hd => by cases hd
  | other => cases h

theorem mem_mergeSkills {skills : List Entry} {e : Entry}
    (h : e ∈ (skills.foldl (mergeSkill formats) t).rows) : e ∈ t.rows ∨ e ∈ skills := by
  induction skills generalizing t with
  | nil => exact .inl h
  | cons skill skills ih =>
    rcases ih h with hmem | hmem
    · unfold mergeSkill at hmem
      split at hmem
      · exact .inl hmem
      · split at hmem
        · rcases Table.mem_insert.mp hmem with rfl | ⟨hmem, -⟩
          · exact .inr (by simp)
          · exact .inl hmem
        · exact .inl hmem
    · exact .inr (by simp [hmem])

theorem mem_fetchCards {e : Entry}
    (h : e ∈ (urls.foldl (fetchCard fetch) t).rows) : e ∈ t.rows ∨ ∃ x ∈ urls, e = withFetched fetch x := by
  induction urls generalizing t with
  | nil => exact .inl h
  | cons x urls ih =>
    rcases ih h with hmem | ⟨y, hy, rfl⟩
    · unfold fetchCard at hmem
      split at hmem
      · rcases Table.mem_insert.mp hmem with rfl | ⟨hmem, -⟩
        · exact .inr ⟨x, by simp, rfl⟩
        · exact .inl hmem
      · exact .inl hmem
    · exact .inr ⟨y, by simp [hy], rfl⟩

theorem mem_dropInvalid {e : Entry} (h : e ∈ (urls.foldl (dropInvalid formats fetch) t).rows) :
    e ∈ t.rows ∧ ∀ x ∈ urls, ∀ card url, (withFetched fetch x).payload = .a2a (some card) url → e.serviceId = x.serviceId →
      validateEntry formats false (.a2a (some card) url) = true := by
  induction urls generalizing t with
  | nil => exact ⟨h, fun x hx => nomatch hx⟩
  | cons x urls ih =>
    obtain ⟨hmem, hrest⟩ := ih h
    have hkept : e ∈ t.rows ∧ ∀ card url, (withFetched fetch x).payload = .a2a (some card) url → e.serviceId = x.serviceId →
        validateEntry formats false (.a2a (some card) url) = true := by
      unfold dropInvalid at hmem
      split at hmem
      · rename_i card url hpayload
        split at hmem
        · rename_i hvalid
          refine ⟨hmem, fun card' url' hpayload' _ => ?_⟩
          rw [← hpayload', hpayload]
          exact hvalid
        · obtain ⟨hmem, hne⟩ := List.mem_filter.mp hmem
          exact ⟨hmem, fun _ _ _ hid => absurd hid (of_decide_eq_true hne)⟩
      · rename_i hother
        exact ⟨hmem, fun card url hpayload _ => absurd hpayload (hother card url)⟩
    refine ⟨hkept.1, fun y hy => ?_⟩
    rcases List.mem_cons.mp hy with rfl | hy
    · exact hkept.2
    · exact hrest y hy

theorem Restorable.fetched {e : Entry} (h : e.Restorable formats)
    (hvalid : ∀ card url, (withFetched fetch e).payload = .a2a (some card) url →
      validateEntry formats false (.a2a (some card) url) = true) : (withFetched fetch e).Restorable formats := by
  unfold withFetched at hvalid ⊢
  cases hcard : (cardUrl e).bind fetch with
  | none => exact h
  | some card =>
    rw [hcard] at hvalid
    exact ⟨h.owner, h.lease, hvalid _ _ rfl, trivial⟩

variable {e : Entry} (he : e ∈ (loadEntries formats files fetch).rows) (hsource : e.source = .apiConfig)
include he hsource

theorem restorable_loadEntries : e.Restorable formats := by
  have hconfig : ∀ x ∈ files.loadUserConfig ++ files.loadApiConfig, validateEntry formats true x.payload = true →
      x.Restorable formats := by
    intro x hx hvalid
    rcases List.mem_append.mp hx with hx | hx
    · obtain ⟨row, -, hrow⟩ := List.mem_filterMap.mp hx
      exact restorable_of_parse hrow hvalid
    · obtain ⟨row, -, hrow⟩ := List.mem_filterMap.mp hx
      exact restorable_of_parse hrow hvalid
  unfold loadEntries at he
  obtain ⟨hfetched, hvalid⟩ := mem_dropInvalid he
  rcases mem_fetchCards hfetched with hmerged | ⟨x, hx, rfl⟩
  · rcases mem_mergeSkills hmerged with hmem | hskill
    · obtain ⟨hmem, hvalid⟩ := List.mem_filter.mp ((Table.mem_of_mem_insertAll hmem).resolve_left (by rintro ⟨⟩))
      exact hconfig e hmem hvalid
    · obtain ⟨p, -, hp⟩ := List.mem_filterMap.mp hskill
      exact nomatch hsource.symm.trans (loadSkill_source hp)
  · obtain ⟨hmem, hurl⟩ := List.mem_filter.mp hx
    refine Restorable.fetched (hconfig x hmem (Bool.and_eq_true_iff.mp hurl).1) fun card url hpayload => ?_
    exact hvalid x hx card url hpayload (withFetched_serviceId fetch x).1

theorem typed_loadEntries : ∀ d, e.payload ≠ .skill d := by
  have hparsed : ∀ x ∈ files.loadUserConfig ++ files.loadApiConfig, ∀ d, x.payload ≠ .skill d := by
    intro x hx
    rcases List.mem_append.mp hx with hx | hx
    · obtain ⟨row, -, hrow⟩ := List.mem_filterMap.mp hx
      exact parseServiceEntry_payload hrow
    · obtain ⟨row, -, hrow⟩ := List.mem_filterMap.mp hx
      exact parseServiceEntry_payload hrow
  unfold loadEntries at he
  rcases mem_fetchCards (mem_dropInvalid he).1 with hmerged | ⟨x, hx, rfl⟩
  · rcases mem_mergeSkills hmerged with hmem | hskill
    · exact hparsed e (List.mem_filter.mp ((Table.mem_of_mem_insertAll hmem).resolve_left (by rintro ⟨⟩))).1
    · obtain ⟨p, -, hp⟩ := List.mem_filterMap.mp hskill
      exact nomatch hsource.symm.trans (loadSkill_source hp)
  · unfold withFetched
    split
    · exact hparsed x (List.mem_filter.mp hx).1
    · exact fun d hd => nomatch hd

omit he hsource

end Load

/-! ## Runs -/

/-- The call registers persistently, or updates. -/
def Persistent (c : Call) : Prop :=
  match c.op with
  | .registerGeneric req => req.persistent = true
  | .registerA2a req => req.persistent = true
  | .updateService .. => True
  | _ => False

/-- The persistent entry that the call commits, if it gets so far, is restorable. -/
def Preserving (r : Registry) (c : Call) : Prop :=
  match c.op with
  | .registerGeneric req => requireValid r.formats (req.entry c.caller).payload = .ok () → (req.entry c.caller).Restorable r.formats
  | .registerA2a req => ∀ p ∈ req.card.toOption, requireValid r.formats (.a2a (some p.1) p.2) = .ok () →
      (req.entry p.1 p.2 c.caller).Restorable r.formats
  | .updateService serviceId updates => ∀ entry ∈ r.entries.get? serviceId, entry.source = .apiConfig →
      ∀ p ∈ (applyUpdates r.store entry updates).1.toOption, p.1.Restorable r.formats
  | _ => True

instance (c : Call) : Decidable (Persistent c) := by
  unfold Persistent
  split <;> infer_instance

instance (r : Registry) (c : Call) : Decidable (Preserving r c) := by
  unfold Preserving
  split <;> infer_instance

/-- Every persistent entry is restorable and is in the cache that is written to the file. -/
structure Persisted (r : Registry) : Prop where
  tidy : ∀ sid, r.Tidy sid
  synced : r.Synced
  restorable : ∀ e ∈ r.entries.rows, e.source = .apiConfig → e.Restorable r.formats
  typed : ∀ e ∈ r.entries.rows, e.source = .apiConfig → ∀ d, e.payload ≠ .skill d
  cached : ∀ e ∈ r.entries.rows, e.source = .apiConfig → r.store.apiEntries.get? e.serviceId = some e

section Persisted

variable {r : Registry}

theorem Persisted.same (h : r.Persisted) {r' : Registry} (htidy : ∀ sid, r'.Tidy sid) (hsynced : r'.Synced)
    (hentries : r'.entries = r.entries) (hformats : r'.formats = r.formats)
    (hcache : r'.store.apiEntries = r.store.apiEntries) : r'.Persisted where
  tidy := htidy
  synced := hsynced
  restorable := by rw [hentries, hformats]; exact h.restorable
  typed := by rw [hentries]; exact h.typed
  cached := by rw [hentries, hcache]; exact h.cached

theorem Persisted.filed (h : r.Persisted) {r' : Registry} (htidy : ∀ sid, r'.Tidy sid) (hsynced : r'.Synced) {entry : Entry}
    (hentries : r'.entries = r.entries.insert entry) (hformats : r'.formats = r.formats)
    (hcache : r'.store.apiEntries = if entry.source = .apiConfig then r.store.apiEntries.insert entry else r.store.apiEntries)
    (hentry : entry.source = .apiConfig → entry.Restorable r.formats ∧ ∀ d, entry.payload ≠ .skill d)  : r'.Persisted := by
  have hcases : ∀ e ∈ r'.entries.rows, e = entry ∨ (e ∈ r.entries.rows ∧ e.serviceId ≠ entry.serviceId) := by
    intro e he
    rw [hentries] at he
    exact Table.mem_insert.mp he
  refine ⟨htidy, hsynced, fun e he hsource => ?_, fun e he hsource => ?_, fun e he hsource => ?_⟩
  · rw [hformats]
    rcases hcases e he with rfl | ⟨he, -⟩
    · exact (hentry hsource).1
    · exact h.restorable e he hsource
  · rcases hcases e he with rfl | ⟨he, -⟩
    · exact (hentry hsource).2
    · exact h.typed e he hsource
  · rw [hcache]
    rcases hcases e he with rfl | ⟨he, hne⟩
    · rw [if_pos hsource, Table.get?_insert_self]
    · split
      · rw [Table.get?_insert_of_ne hne.symm]
        exact h.cached e he hsource
      · exact h.cached e he hsource

theorem apiEntries_saveIfApi (r : Registry) (entry : Entry) :
    (r.saveIfApi entry).store.apiEntries = if entry.source = .apiConfig then r.store.apiEntries.insert entry else r.store.apiEntries := by
  unfold saveIfApi
  split <;> rfl

theorem applyUpdates_payload {s : RegistryStore} {entry new : Entry} {updates : Updates} {changed : List String}
    (h : (applyUpdates s entry updates).1 = .ok (new, changed)) (hpayload : ∀ d, entry.payload ≠ .skill d) :
    ∀ d, new.payload ≠ .skill d := by
  unfold applyUpdates at h
  intro d hd
  cases hentry : entry.payload with
  | skill d' => exact hpayload d' hentry
  | generic d' =>
    rw [hentry] at h
    cases hresult : applyGenericUpdates d' updates <;> simp [hresult, Except.map] at h
    rw [← h.1] at hd
    cases hd
  | a2a card url =>
    rw [hentry] at h
    cases hresult : applyA2aUpdates card updates <;> simp [hresult, Except.map] at h
    rw [← h.1] at hd
    cases hd

theorem Persistent.keeps {c : Call} (h : Persistent c) (sid : String) (r : Registry) : KeepsPersistent sid r c := by
  intro hephemeral
  obtain ⟨op, caller⟩ := c
  cases op with
  | registerGeneric req | registerA2a req => simp [ephemeral, show req.persistent = true from h] at hephemeral
  | _ => simp [ephemeral] at hephemeral

theorem Persisted.step (h : r.Persisted) {c : Call} (hc : Persistent c) (hp : r.Preserving c) : (r.step c).Persisted := by
  have htidy : ∀ sid, (r.step c).Tidy sid := fun sid => ((h.tidy sid).step (hc.keeps sid r)).tidy
  have hsynced : (r.step c).Synced := h.synced.step c
  have hrefused : r.step c = r → (r.step c).Persisted := fun hsame => hsame.symm ▸ h
  obtain ⟨op, caller⟩ := c
  cases op with
  | registerGeneric req =>
    rcases registerGeneric_cases r req caller with ⟨e, he⟩ | ⟨-, hvalid, hexec⟩
    · exact hrefused (by rw [Registry.step, exec_registerGeneric, he])
    · have hstep : r.step ⟨.registerGeneric req, caller⟩ = (r.doRegister (req.entry caller)).2 := by
        rw [Registry.step, exec_registerGeneric, hexec]
      refine h.filed htidy hsynced ?_ ?_ ?_ fun _ => ⟨hp hvalid, fun d hd => by cases hd⟩
      all_goals rw [hstep]
      · simp [doRegister]
      · simp [doRegister]
      · simp [doRegister, apiEntries_saveIfApi]
  | registerA2a req =>
    rcases registerA2a_cases r req caller with ⟨e, he⟩ | ⟨card, url, -, hcard, hvalid, hexec⟩
    · exact hrefused (by rw [Registry.step, exec_registerA2a, he])
    · have hstep : r.step ⟨.registerA2a req, caller⟩ = (r.doRegister (req.entry card url caller)).2 := by
        rw [Registry.step, exec_registerA2a, hexec]
      refine h.filed htidy hsynced ?_ ?_ ?_ fun _ => ⟨hp (card, url) (by simp [hcard, Except.toOption]) hvalid, fun d hd => by cases hd⟩
      all_goals rw [hstep]
      · simp [doRegister]
      · simp [doRegister]
      · simp [doRegister, apiEntries_saveIfApi]
  | updateService sid updates =>
    rcases updateService_cases r sid updates caller with ⟨e, he⟩ | ⟨entry, hget, -, -, hrest⟩
    · exact hrefused (by rw [Registry.step, exec_updateService, he])
    · have hstores : SameButSkills r.store (applyUpdates r.store entry updates).2 := applyUpdates_sameButSkills _ _ _
      have hcache : (applyUpdates r.store entry updates).2.apiEntries = r.store.apiEntries := by rw [hstores]
      -- a failure after the skill folders were written
      have hstored : r.step ⟨.updateService sid updates, caller⟩ = r.withStore (applyUpdates r.store entry updates).2 →
          (r.step ⟨.updateService sid updates, caller⟩).Persisted := by
        intro hstep
        refine h.same htidy hsynced ?_ ?_ ?_
        all_goals rw [hstep]
        · rfl
        · rfl
        · exact hcache
      rcases hrest with ⟨e, -, hexec⟩ | ⟨new, changed, hok, hexec⟩
      · exact hstored (by rw [Registry.step, exec_updateService, hexec])
      · rcases commitUpdate_cases (r.withStore (applyUpdates r.store entry updates).2) new changed with
          ⟨e, he⟩ | ⟨response, hcommit⟩
        · exact hstored (by rw [Registry.step, exec_updateService, hexec, he])
        · obtain ⟨hentry, -⟩ := Table.get?_eq_some.mp hget
          obtain ⟨payload, hnew⟩ := applyUpdates_ok hok
          have hsource : new.source = entry.source := by rw [hnew]
          refine @Persisted.filed r h _ htidy hsynced new ?_ ?_ ?_ fun hpersistent => ⟨?_, ?_⟩
          · rw [Registry.step, exec_updateService, hexec, hcommit]
            dsimp only
            split <;> simp
          · rw [Registry.step, exec_updateService, hexec, hcommit]
            dsimp only
            split <;> simp
          · rw [Registry.step, exec_updateService, hexec, hcommit]
            dsimp only
            split <;> simp [apiEntries_saveIfApi, hcache]
          · exact hp entry hget (hsource ▸ hpersistent) (new, changed) (by simp [hok, Except.toOption])
          · exact applyUpdates_payload hok (h.typed entry hentry (hsource ▸ hpersistent))
  | registerSkill | deregister | deregisterSkill => exact hc.elim

theorem startup_persisted (formats : FormatConfig) (files : Files) (fetch : String → Option AgentCard) :
    (startup formats files fetch).Persisted := by
  have htidy := startup_tidy formats files fetch
  have hsynced := startup_synced formats files fetch
  unfold startup at htidy hsynced ⊢
  refine ⟨htidy, hsynced, fun e he hsource => ?_, fun e he hsource => ?_, fun e he hsource => ?_⟩
  all_goals simp only [regenerateOutput_entries, regenerateOutput_formats, regenerateOutput_apiEntries] at he ⊢
  · exact restorable_loadEntries he hsource
  · exact typed_loadEntries he hsource
  · -- the entry is one of those that are written back
    have hbatch : e ∈ (loadEntries formats files fetch).rows.filter (fun e => e.source = .apiConfig) :=
      List.mem_filter.mpr ⟨he, by simpa using hsource⟩
    rw [if_neg (List.ne_nil_of_mem hbatch)]
    refine Table.get?_insertAll_of_mem hbatch fun x hx hid => ?_
    exact Table.eq_of_key (List.mem_filter.mp hx).1 he hid

end Persisted

/-- A restart brings back every persistent entry, and keeps its row in `api_config.json`. -/
def RestartKeeps (r : Registry) (fetch : String → Option AgentCard) : Prop :=
  ∀ e ∈ r.entries.rows, e.source = .apiConfig →
    ∃ e', (r.restart fetch).entries.get? e.serviceId = some e' ∧ SameService e e' ∧
      (r.restart fetch).store.files.apiRow e.serviceId = some e'.toConfigRow

theorem Persisted.restartKeeps {r : Registry} (h : r.Persisted) {fetch : String → Option AgentCard}
    (hfetch : NothingNew fetch r.store.files) : r.RestartKeeps fetch := by
  intro e he hsource
  have hwritten := h.synced ⟨e, he, hsource⟩
  obtain ⟨hcached, -⟩ := Table.get?_eq_some.mp (h.cached e he hsource)
  obtain ⟨e', hparse, hsame, hrestorable⟩ :=
    (h.restorable e he hsource).parse ((h.tidy e.serviceId).named e he) hsource (h.typed e he hsource)
  have hloaded : e' ∈ r.store.files.loadApiConfig := by
    refine List.mem_filterMap.mpr ⟨e.toConfigRow, ?_, hparse⟩
    rw [hwritten]
    exact List.mem_map_of_mem hcached
  -- no other row of the file is loaded under the id
  have honly : ∀ x ∈ r.store.files.loadApiConfig, x.serviceId = e'.serviceId → x = e' := by
    intro x hx hid
    obtain ⟨row, hrow, hx⟩ := List.mem_filterMap.mp hx
    rw [hwritten] at hrow
    obtain ⟨y, hy, rfl⟩ := List.mem_map.mp hrow
    have hy' := serviceId_of_toConfigRow ((h.tidy e.serviceId).store.named y hy) hx
    have heq : y = e := Table.eq_of_key hy hcached (hy'.symm.trans (hid.trans hsame.serviceId))
    rw [heq, hparse] at hx
    exact (Option.some.inj hx).symm
  have hget : (r.restart fetch).entries.get? e.serviceId = some e' := by
    rw [← hsame.serviceId, restart, startup]
    simp only [regenerateOutput_entries]
    exact get?_loadEntries hloaded hrestorable.valid honly hfetch
  refine ⟨e', hget, hsame, ?_⟩
  have hrestarted : (r.restart fetch).Persisted := startup_persisted _ _ _
  obtain ⟨hmem, -⟩ := Table.get?_eq_some.mp hget
  have hsource' : e'.source = .apiConfig := hsame.source.trans hsource
  rw [apiRow_of_written (hrestarted.synced ⟨e', hmem, hsource'⟩), ← hsame.serviceId, hrestarted.cached e' hmem hsource']
  have hrow : e'.toConfigRow.serviceId = some e'.serviceId := by
    unfold Entry.toConfigRow
    cases hpayload : e'.payload with
    | generic | a2a => rfl
    | skill d => exact absurd hpayload (hrestarted.typed e' hmem hsource' d)
  simp [hrow]

/-- In every run of persistent registrations and updates that commit restorable entries only,
a restart keeps the persistent entries. -/
theorem restart_keeps_persisted (formats : FormatConfig) (files : Files) (fetch : String → Option AgentCard) (calls : List Call)
    (h : Along step (fun r c => Persistent c ∧ r.Preserving c) (startup formats files fetch) calls)
    (fetch' : String → Option AgentCard) (hfetch : NothingNew fetch' (run step (startup formats files fetch) calls).store.files) :
    (run step (startup formats files fetch) calls).RestartKeeps fetch' := by
  have hpersisted : (run step (startup formats files fetch) calls).Persisted :=
    h.invariant (startup_persisted formats files fetch) fun r c hr hc => hr.step hc.1 hc.2
  exact hpersisted.restartKeeps hfetch

/-- A new service whose text field is then set to something else. -/
def renamed (key value : String) : List Call :=
  [⟨registerAs "svc" "first", none⟩, ⟨.updateService "svc" (Dict.ofList [(key, .str value)]), none⟩]

/-- A service that was given another description is there after a restart. -/
theorem restart_keeps_persisted_sample :
    (run step (startup {} {} fun _ => none) (renamed "description" "another service")).RestartKeeps (fun _ => none) ∧
      ((run step (startup {} {} fun _ => none) (renamed "description" "another service")).restart fun _ => none).entries.rows.map
        (·.serviceId) = ["svc"] :=
  ⟨restart_keeps_persisted {} {} (fun _ => none) _ (by decide +kernel) _ (by decide +kernel), by decide +kernel⟩

/-- A service that was given an empty name is not. -/
theorem restart_drops_renamed :
    ¬ ∀ (formats : FormatConfig) (files : Files) (fetch : String → Option AgentCard) (calls : List Call),
      Along step (fun _ c => Persistent c) (startup formats files fetch) calls →
      ∀ fetch', NothingNew fetch' (run step (startup formats files fetch) calls).store.files →
        (run step (startup formats files fetch) calls).RestartKeeps fetch' := by
  intro h
  have hkeeps := h {} {} (fun _ => none) (renamed "name" "") (by decide +kernel) (fun _ => none) (by decide +kernel)
  have hentry : ∃ e ∈ (run step (startup {} {} fun _ => none) (renamed "name" "")).entries.rows, e.source = .apiConfig ∧
      ((run step (startup {} {} fun _ => none) (renamed "name" "")).restart fun _ => none).entries.get? e.serviceId = none := by
    decide +kernel
  obtain ⟨e, he, hsource, hdropped⟩ := hentry
  obtain ⟨e', hget, -⟩ := hkeeps e he hsource
  exact nomatch hdropped.symm.trans hget

end Registry

end AgentProtocol.Register
