-- SUMMARY: What each operation of a cluster store reads and leaves alone: version stamping, the index it answers for, and the envelopes behind it.
import AgentProtocol.Cluster.Store

/-!
# Laws of the cluster store

One law per operation, so that later proofs need not unfold it. An operation that
only stamps versions leaves every other part of the store alone; the index of a
store at a key is the version of the record it could send for that key.
-/

namespace AgentProtocol

open Lib

@[simp] theorem mem_sortedSet {l : List String} {x : String} : x ∈ sortedSet l ↔ x ∈ l := by
  simp [sortedSet]

theorem sortedSet_eq_nil {l : List String} : sortedSet l = [] ↔ l = [] := by
  constructor
  · intro h
    refine List.eq_nil_iff_forall_not_mem.mpr fun x hx => ?_
    simpa [h] using mem_sortedSet.mpr hx
  · intro h
    rw [h]
    rfl

namespace ClusterStore

@[simp] theorem inScope_sortedSet (ns : List String) (ds : String) : inScope (sortedSet ns) ds = inScope ns ds := by
  simp [inScope, sortedSet_eq_nil]

/-! ## Stamping versions -/

/-- The store after a fresh version was given to `k`. -/
def stamped (s : ClusterStore) (now : Now) (k : LocalKey) : ClusterStore :=
  (s.nextTs now).2.setLocalVersion k ⟨(s.nextTs now).1, s.nodeId⟩

theorem ensureVersion_cases (now : Now) (acc : ClusterStore × Bool) (item : String × RegistryEntry) :
    (ensureVersion now acc item = acc ∧ (item.2.source = .ephemeral ∨
        acc.1.state.localVersions.contains (makeKey item.1 item.2.serviceId) = true ∨
        acc.1.state.tombstones.contains (makeKey item.1 item.2.serviceId) = true)) ∨
      (ensureVersion now acc item = (acc.1.stamped now (makeKey item.1 item.2.serviceId), true) ∧
        acc.1.state.localVersions.lookup (makeKey item.1 item.2.serviceId) = none ∧
        acc.1.state.tombstones.lookup (makeKey item.1 item.2.serviceId) = none) := by
  unfold ensureVersion
  dsimp only
  split
  · rename_i h
    exact .inl ⟨rfl, .inl h⟩
  · split
    · rename_i h
      exact .inl ⟨rfl, .inr (by simpa using h)⟩
    · rename_i h
      refine .inr ⟨rfl, ?_⟩
      simpa [Dict.contains] using h

theorem ensureLocalVersions_induct {P : ClusterStore → Prop} (now : Now) {s : ClusterStore}
    (hstamp : ∀ s k, P s → s.state.localVersions.lookup k = none → s.state.tombstones.lookup k = none → P (s.stamped now k))
    (hsave : ∀ s, P s → P (saveState s)) (h : P s) : P (s.ensureLocalVersions now) := by
  have hfold : ∀ (items : List (String × RegistryEntry)) (acc : ClusterStore × Bool), P acc.1 →
      P (items.foldl (ensureVersion now) acc).1 := by
    intro items
    induction items with
    | nil => intro acc hacc; exact hacc
    | cons item items ih =>
      intro acc hacc
      rw [List.foldl_cons]
      rcases ensureVersion_cases now acc item with ⟨he, -⟩ | ⟨he, hver, htomb⟩
      · rw [he]
        exact ih acc hacc
      · rw [he]
        exact ih _ (hstamp _ _ hacc hver htomb)
  unfold ensureLocalVersions
  split
  · exact h
  · dsimp only
    split
    · exact hsave _ (hfold _ _ h)
    · exact hfold _ _ h

section Stamping

variable (now : Now)

theorem ensureLocalVersions_proj {α : Type} (f : ClusterStore → α) (s : ClusterStore)
    (hstamp : ∀ s k, f (s.stamped now k) = f s) (hsave : ∀ s, f (saveState s) = f s) : f (s.ensureLocalVersions now) = f s :=
  ensureLocalVersions_induct (P := fun s' => f s' = f s) now
    (fun s' k h _ _ => (hstamp s' k).trans h) (fun s' h => (hsave s').trans h) rfl

variable (s : ClusterStore)

@[simp] theorem ensureLocalVersions_foreign : (s.ensureLocalVersions now).foreign = s.foreign :=
  ensureLocalVersions_proj now foreign s (fun _ _ => rfl) (fun _ => rfl)

@[simp] theorem ensureLocalVersions_evictedUntil : (s.ensureLocalVersions now).evictedUntil = s.evictedUntil :=
  ensureLocalVersions_proj now evictedUntil s (fun _ _ => rfl) (fun _ => rfl)

@[simp] theorem ensureLocalVersions_sessions : (s.ensureLocalVersions now).sessions = s.sessions :=
  ensureLocalVersions_proj now sessions s (fun _ _ => rfl) (fun _ => rfl)

@[simp] theorem ensureLocalVersions_config : (s.ensureLocalVersions now).config = s.config :=
  ensureLocalVersions_proj now config s (fun _ _ => rfl) (fun _ => rfl)

@[simp] theorem ensureLocalVersions_registry : (s.ensureLocalVersions now).registry = s.registry :=
  ensureLocalVersions_proj now registry s (fun _ _ => rfl) (fun _ => rfl)

@[simp] theorem ensureLocalVersions_authStore : (s.ensureLocalVersions now).authStore = s.authStore :=
  ensureLocalVersions_proj now authStore s (fun _ _ => rfl) (fun _ => rfl)

@[simp] theorem ensureLocalVersions_nodeId : (s.ensureLocalVersions now).nodeId = s.nodeId :=
  ensureLocalVersions_proj now nodeId s (fun _ _ => rfl) (fun _ => rfl)

@[simp] theorem ensureLocalVersions_tombstones : (s.ensureLocalVersions now).state.tombstones = s.state.tombstones :=
  ensureLocalVersions_proj now (·.state.tombstones) s (fun _ _ => rfl) (fun _ => rfl)

end Stamping

/-- What stamping may do to the persisted state: give versions of our own, later
than every stamp so far, to records that have none. -/
structure Stamps (s s' : ClusterStore) : Prop where
  node : s'.nodeId = s.nodeId
  tombs : s'.state.tombstones = s.state.tombstones
  clock : s.state.versionClock ≤ s'.state.versionClock
  keep : ∀ k v, s.state.localVersions.lookup k = some v → s'.state.localVersions.lookup k = some v
  fresh : ∀ k v, s'.state.localVersions.lookup k = some v →
    s.state.localVersions.lookup k = some v ∨
      (v.node = s.nodeId ∧ s.state.versionClock < v.ms ∧ v.ms ≤ s'.state.versionClock ∧
        s.state.tombstones.lookup k = none)

theorem Stamps.refl (s : ClusterStore) : Stamps s s :=
  ⟨rfl, rfl, le_refl _, fun _ _ h => h, fun _ _ h => .inl h⟩

theorem Stamps.trans {s₁ s₂ s₃ : ClusterStore} (h₁ : Stamps s₁ s₂) (h₂ : Stamps s₂ s₃) : Stamps s₁ s₃ := by
  refine ⟨h₂.node.trans h₁.node, h₂.tombs.trans h₁.tombs, h₁.clock.trans h₂.clock,
    fun k v h => h₂.keep k v (h₁.keep k v h), fun k v h => ?_⟩
  rcases h₂.fresh k v h with h' | ⟨hn, hlt, hle, ht⟩
  · rcases h₁.fresh k v h' with h'' | ⟨hn, hlt, hle, ht⟩
    · exact .inl h''
    · exact .inr ⟨hn, hlt, hle.trans h₂.clock, ht⟩
  · exact .inr ⟨hn.trans h₁.node, h₁.clock.trans_lt hlt, hle, h₁.tombs ▸ ht⟩

variable (s : ClusterStore) (now : Now)

theorem lt_nextTs : s.state.versionClock < (s.nextTs now).1 :=
  lt_of_lt_of_le (Int.lt_add_one_of_le (le_refl _)) (le_max_right _ _)

theorem stamps_stamped {s : ClusterStore} (now : Now) {k : LocalKey}
    (hver : s.state.localVersions.lookup k = none) (htomb : s.state.tombstones.lookup k = none) : Stamps s (s.stamped now k) := by
  refine ⟨rfl, rfl, (s.lt_nextTs now).le, fun k' v h => ?_, fun k' v h => ?_⟩
  · have hne : k ≠ k' := by
      intro he
      subst he
      rw [hver] at h
      cases h
    exact (Dict.lookup_set_of_ne hne).trans h
  · simp only [stamped, setLocalVersion, Dict.lookup_set] at h
    split at h
    · rename_i he
      subst he
      cases h
      exact .inr ⟨rfl, s.lt_nextTs now, le_refl _, htomb⟩
    · exact .inl h

theorem stamps_ensureLocalVersions : Stamps s (s.ensureLocalVersions now) :=
  ensureLocalVersions_induct (P := Stamps s) now
    (fun _ _ h hver htomb => h.trans (stamps_stamped now hver htomb))
    (fun _ h => ⟨h.node, h.tombs, h.clock, h.keep, h.fresh⟩) (Stamps.refl s)

/-- The record's slot in the index is taken: it has a version or a tombstone, or it
is a session-level record that gets none. -/
def Settled (s : ClusterStore) (item : String × RegistryEntry) : Prop :=
  item.2.source = .ephemeral ∨
    s.state.localVersions.contains (makeKey item.1 item.2.serviceId) = true ∨
    s.state.tombstones.contains (makeKey item.1 item.2.serviceId) = true

/-- Every local record is settled. -/
def Versioned (s : ClusterStore) : Prop :=
  ∀ reg, s.registry = some reg → ∀ item ∈ allEntries reg, s.Settled item

theorem Settled.mono {s s' : ClusterStore} {item : String × RegistryEntry} (h : s.Settled item)
    (hs : Stamps s s') : s'.Settled item := by
  rcases h with h | h | h
  · exact .inl h
  · obtain ⟨v, hv⟩ := Option.isSome_iff_exists.mp h
    exact .inr (.inl (by simp [Dict.contains, hs.keep _ v hv]))
  · exact .inr (.inr (by rw [hs.tombs]; exact h))

private theorem foldl_ensureVersion (now : Now) (items : List (String × RegistryEntry)) (acc : ClusterStore × Bool) :
    Stamps acc.1 (items.foldl (ensureVersion now) acc).1 ∧
      ∀ item ∈ items, (items.foldl (ensureVersion now) acc).1.Settled item := by
  induction items generalizing acc with
  | nil => exact ⟨Stamps.refl _, by simp⟩
  | cons item items ih =>
    have hstep : Stamps acc.1 (ensureVersion now acc item).1 ∧
        (ensureVersion now acc item).1.Settled item := by
      rcases ensureVersion_cases now acc item with ⟨he, h⟩ | ⟨he, hver, htomb⟩
      · rw [he]
        exact ⟨Stamps.refl _, h⟩
      · rw [he]
        exact ⟨stamps_stamped now hver htomb,
          .inr (.inl (by simp [Dict.contains, stamped, setLocalVersion]))⟩
    obtain ⟨hstamps, hsettled⟩ := ih (ensureVersion now acc item)
    refine ⟨hstep.1.trans hstamps, fun item' hmem => ?_⟩
    rcases List.mem_cons.mp hmem with rfl | hmem
    · exact hstep.2.mono hstamps
    · exact hsettled item' hmem

theorem versioned_ensureLocalVersions : (s.ensureLocalVersions now).Versioned := by
  intro reg hreg item hitem
  rw [ensureLocalVersions_registry] at hreg
  have h := (foldl_ensureVersion now (allEntries reg) (s, false)).2 item hitem
  unfold ensureLocalVersions
  rw [hreg]
  dsimp only
  split
  · exact h
  · exact h

theorem ensureLocalVersions_of_versioned {s : ClusterStore} (h : s.Versioned) (now : Now) : s.ensureLocalVersions now = s := by
  unfold ensureLocalVersions
  split
  · rfl
  · rename_i reg hreg
    have hfold : ∀ items : List (String × RegistryEntry), (∀ item ∈ items, s.Settled item) →
        items.foldl (ensureVersion now) (s, false) = (s, false) := by
      intro items hitems
      induction items with
      | nil => rfl
      | cons item items ih =>
        have hitem : ensureVersion now (s, false) item = (s, false) := by
          rcases ensureVersion_cases now (s, false) item with ⟨he, -⟩ | ⟨-, hver, htomb⟩
          · exact he
          · rcases hitems item (by simp) with he | hv | ht
            · unfold ensureVersion
              simp [he]
            · simp [Dict.contains, hver] at hv
            · simp [Dict.contains, htomb] at ht
        rw [List.foldl_cons, hitem]
        exact ih fun item' hmem => hitems item' (by simp [hmem])
    rw [hfold _ (h reg hreg)]
    rfl

/-! ## Stamping a local write -/

/-- The version that the next stamp will carry. -/
def freshVersion (s : ClusterStore) (now : Now) : Version := ⟨(s.nextTs now).1, s.nodeId⟩

theorem stampMutation_live (ds sid : String) {op : MutationOp} (hop : op ≠ .deregister) (k : LocalKey) :
    (s.stampMutation now ds sid op).state.localVersions.lookup k =
        (if makeKey ds sid = k then some (s.freshVersion now) else s.state.localVersions.lookup k) ∧
      (s.stampMutation now ds sid op).state.tombstones.lookup k =
        (if k = makeKey ds sid then none else s.state.tombstones.lookup k) := by
  cases op with
  | deregister => exact absurd rfl hop
  | register | update => exact ⟨Dict.lookup_set _ _ _ _, Dict.lookup_erase _ _ _⟩

theorem stampMutation_dead (ds sid : String) (k : LocalKey) :
    (s.stampMutation now ds sid .deregister).state.localVersions.lookup k =
        (if k = makeKey ds sid then none else s.state.localVersions.lookup k) ∧
      (s.stampMutation now ds sid .deregister).state.tombstones.lookup k =
        (if makeKey ds sid = k then some ⟨s.freshVersion now, (s.nextTs now).1⟩
          else s.state.tombstones.lookup k) :=
  ⟨Dict.lookup_erase _ _ _, Dict.lookup_set _ _ _ _⟩

@[simp] theorem stampMutation_clock (ds sid : String) (op : MutationOp) :
    (s.stampMutation now ds sid op).state.versionClock = (s.nextTs now).1 := by
  cases op <;> rfl

@[simp] theorem stampMutation_nodeId (ds sid : String) (op : MutationOp) : (s.stampMutation now ds sid op).nodeId = s.nodeId := by
  cases op <;> rfl

/-! ## The index -/

/-- The version under which the store lists a record of its own. -/
def localVersion (s : ClusterStore) (dataset sid : String) : Option Version :=
  match s.registry with
  | none => none
  | some reg =>
    match s.state.tombstones.lookup (makeKey dataset sid) with
    | some tomb => some tomb.version
    | none =>
      match reg.getEntry dataset sid with
      | none => none
      | some entry =>
        if dataset ∈ reg.datasets ∧ entry.source ≠ .ephemeral then
          s.state.localVersions.lookup (makeKey dataset sid)
        else none

/-- The version under which the store lists any record. -/
def indexed (s : ClusterStore) (key : Key) : Option Version :=
  ((s.foreign.get? key).map SyncEnvelope.version).or
    (if key.originId = s.nodeId then s.localVersion key.dataset key.serviceId else none)

variable {key : Key} {v : Version}

variable {s : ClusterStore}

theorem mem_liveRows {reg : RegistryService} {ds : String} :
    (key, v) ∈ s.liveRows reg ds ↔ key.dataset = ds ∧ key.originId = s.nodeId ∧
      ∃ entry, reg.getEntry ds key.serviceId = some entry ∧ entry.source ≠ .ephemeral ∧
        s.state.localVersions.lookup (makeKey ds key.serviceId) = some v := by
  simp only [liveRows, List.mem_filterMap]
  constructor
  · rintro ⟨e, he, hrow⟩
    split at hrow
    · cases hrow
    rename_i hsrc
    obtain ⟨w, hw, hpair⟩ := Option.map_eq_some_iff.mp hrow
    cases hpair
    exact ⟨rfl, rfl, e, RegistryService.mem_listEntries.mp he, hsrc, hw⟩
  · rintro ⟨rfl, horigin, e, he, hsrc, hv⟩
    have hsid : e.serviceId = key.serviceId := Table.key_of_get? he
    refine ⟨e, RegistryService.mem_listEntries.mpr (hsid ▸ he), ?_⟩
    rw [if_neg hsrc, hsid, hv, ← horigin]
    rfl

theorem mem_tombstoneRows {ns : List String} :
    (key, v) ∈ s.tombstoneRows ns ↔ inScope ns key.dataset = true ∧ key.originId = s.nodeId ∧
      ∃ tomb, s.state.tombstones.lookup (makeKey key.dataset key.serviceId) = some tomb ∧ tomb.version = v := by
  simp only [tombstoneRows, List.mem_filterMap, splitKey]
  constructor
  · rintro ⟨⟨k, tomb⟩, hmem, hrow⟩
    obtain ⟨hscope, hrow⟩ := Option.ite_none_right_eq_some.mp hrow
    cases hrow
    exact ⟨hscope, rfl, tomb, Dict.lookup_eq_some.mpr hmem, rfl⟩
  · rintro ⟨hscope, horigin, tomb, hlook, rfl⟩
    refine ⟨(makeKey key.dataset key.serviceId, tomb), Dict.lookup_eq_some.mp hlook, ?_⟩
    simp [makeKey, hscope, ← horigin]

theorem lookup_versionedLocalIndex (s : ClusterStore) (ns : List String) (key : Key) : (s.versionedLocalIndex ns).lookup key =
      if inScope ns key.dataset = true ∧ key.originId = s.nodeId then
        s.localVersion key.dataset key.serviceId else none := by
  unfold versionedLocalIndex localVersion
  cases s.registry with
  | none => simp
  | some reg =>
    dsimp only
    have hlive : ∀ v, (key, v) ∈ (reg.listDatasets.filter (inScope ns)).flatMap (s.liveRows reg) ↔
        inScope ns key.dataset = true ∧ key.originId = s.nodeId ∧ key.dataset ∈ reg.datasets ∧
        ∃ entry, reg.getEntry key.dataset key.serviceId = some entry ∧ entry.source ≠ .ephemeral ∧
          s.state.localVersions.lookup (makeKey key.dataset key.serviceId) = some v := by
      intro v
      simp only [List.mem_flatMap, List.mem_filter, RegistryService.mem_listDatasets, mem_liveRows]
      constructor
      · rintro ⟨ds, ⟨hds, hscope⟩, rfl, ho, he⟩
        exact ⟨hscope, ho, hds, he⟩
      · rintro ⟨hscope, ho, hds, he⟩
        exact ⟨key.dataset, ⟨hds, hscope⟩, rfl, ho, he⟩
    rw [Dict.lookup_ofList_append]
    cases htomb : s.state.tombstones.lookup (makeKey key.dataset key.serviceId) with
    | some tomb =>
      -- A tombstone overrides whatever the live rows say.
      split
      · rename_i hown
        refine Dict.lookup_insertAll_of_mem (mem_tombstoneRows.mpr ⟨hown.1, hown.2, tomb, htomb, rfl⟩) ?_
        intro w hw
        obtain ⟨-, -, tomb', htomb', rfl⟩ := mem_tombstoneRows.mp hw
        rw [htomb] at htomb'
        cases htomb'
        rfl
      · rename_i hother
        rw [Dict.lookup_insertAll_of_notMem fun w hw => hother ?_, Dict.ofList,
          Dict.lookup_insertAll_of_notMem fun w hw => hother ?_, Dict.lookup_empty]
        · obtain ⟨hscope, ho, -⟩ := (hlive w).mp hw
          exact ⟨hscope, ho⟩
        · obtain ⟨hscope, ho, -⟩ := mem_tombstoneRows.mp hw
          exact ⟨hscope, ho⟩
    | none =>
      have hnone : ∀ w, (key, w) ∉ s.tombstoneRows ns := by
        intro w hw
        obtain ⟨-, -, tomb, h, -⟩ := mem_tombstoneRows.mp hw
        rw [htomb] at h
        cases h
      rw [Dict.lookup_insertAll_of_notMem hnone, Dict.ofList]
      by_cases hex : ∃ v, (key, v) ∈ (reg.listDatasets.filter (inScope ns)).flatMap (s.liveRows reg)
      · obtain ⟨v, hv⟩ := hex
        obtain ⟨hscope, ho, hds, entry, he, hsrc, hver⟩ := (hlive v).mp hv
        rw [Dict.lookup_insertAll_of_mem hv, if_pos ⟨hscope, ho⟩]
        · simp [he, hds, hsrc, hver]
        · intro w hw
          obtain ⟨-, -, -, -, -, -, hver'⟩ := (hlive w).mp hw
          rw [hver] at hver'
          exact (Option.some.inj hver').symm
      · rw [not_exists] at hex
        rw [Dict.lookup_insertAll_of_notMem hex, Dict.lookup_empty]
        split
        · rename_i hown
          cases he : reg.getEntry key.dataset key.serviceId with
          | none => rfl
          | some entry =>
            dsimp only
            split
            · rename_i hlisted
              refine (Option.eq_none_iff_forall_ne_some.mpr fun v hv => hex v ?_).symm
              exact (hlive v).mpr ⟨hown.1, hown.2, hlisted.1, entry, he, hlisted.2, hv⟩
            · rfl
        · rfl

theorem lookup_versionedIndex (s : ClusterStore) (ns : List String) (key : Key) : (s.versionedIndex ns).lookup key =
      if inScope ns key.dataset = true then s.indexed key else none := by
  have hmem : ∀ v, (key, v) ∈ (s.foreign.rows.filter fun env => inScope ns env.dataset).map
        (fun env => (env.key, env.version)) ↔
      inScope ns key.dataset = true ∧ (s.foreign.get? key).map SyncEnvelope.version = some v := by
    intro v
    simp only [List.mem_map, List.mem_filter, Option.map_eq_some_iff, Table.get?_eq_some,
      Prod.mk.injEq]
    constructor
    · rintro ⟨env, ⟨henv, hscope⟩, rfl, rfl⟩
      exact ⟨hscope, env, ⟨henv, rfl⟩, rfl⟩
    · rintro ⟨hscope, env, ⟨henv, rfl⟩, rfl⟩
      exact ⟨env, ⟨henv, hscope⟩, rfl, rfl⟩
  unfold versionedIndex indexed
  by_cases hex : ∃ v, inScope ns key.dataset = true ∧ (s.foreign.get? key).map SyncEnvelope.version = some v
  · obtain ⟨v, hscope, hv⟩ := hex
    rw [Dict.lookup_insertAll_of_mem ((hmem v).mpr ⟨hscope, hv⟩), if_pos hscope, hv]
    · rfl
    · intro w hw
      obtain ⟨-, hw⟩ := (hmem w).mp hw
      rw [hv] at hw
      exact (Option.some.inj hw).symm
  · rw [not_exists] at hex
    rw [Dict.lookup_insertAll_of_notMem fun w hw => hex w ((hmem w).mp hw),
      lookup_versionedLocalIndex]
    by_cases hscope : inScope ns key.dataset = true
    · have hnone : (s.foreign.get? key).map SyncEnvelope.version = none :=
        Option.eq_none_iff_forall_ne_some.mpr fun v hv => hex v ⟨hscope, hv⟩
      simp [hscope, hnone]
    · simp [hscope]

/-! ## Envelopes -/

/-- The overlay holds no record of our own. -/
def NoSelf (s : ClusterStore) : Prop := ∀ env ∈ s.foreign.rows, env.originId ≠ s.nodeId

instance (s : ClusterStore) : Decidable s.NoSelf :=
  inferInstanceAs (Decidable (∀ env ∈ s.foreign.rows, env.originId ≠ s.nodeId))

theorem NoSelf.get?_eq_none (h : s.NoSelf) (hkey : key.originId = s.nodeId) : s.foreign.get? key = none := by
  refine Table.get?_eq_none.mpr fun env henv he => h env henv ?_
  rw [← hkey, ← he]
  rfl

theorem indexed_of_foreign (hkey : key.originId ≠ s.nodeId) : s.indexed key = (s.foreign.get? key).map SyncEnvelope.version := by
  simp [indexed, hkey]

theorem indexed_of_own (h : s.NoSelf) (hkey : key.originId = s.nodeId) :
    s.indexed key = s.localVersion key.dataset key.serviceId := by
  simp [indexed, hkey, h.get?_eq_none hkey]

theorem buildLocalEnvelope_key {ds sid : String} {env : SyncEnvelope}
    (h : s.buildLocalEnvelope ds sid = some env) : env.key = ⟨ds, s.nodeId, sid⟩ := by
  unfold buildLocalEnvelope at h
  dsimp only at h
  split at h
  · cases h
    rfl
  · split at h
    · obtain ⟨entry, -, he⟩ := Option.map_eq_some_iff.mp h
      cases he
      rfl
    · cases h

theorem buildLocalEnvelope_of_localVersion {ds sid : String} (h : s.localVersion ds sid = some v) :
    ∃ env, s.buildLocalEnvelope ds sid = some env ∧ env.version = v := by
  unfold localVersion at h
  cases hreg : s.registry with
  | none =>
    rw [hreg] at h
    cases h
  | some reg =>
    rw [hreg] at h
    dsimp only at h
    unfold buildLocalEnvelope
    dsimp only
    cases htomb : s.state.tombstones.lookup (makeKey ds sid) with
    | some tomb =>
      rw [htomb] at h
      cases h
      exact ⟨_, rfl, rfl⟩
    | none =>
      rw [htomb] at h
      dsimp only at h
      split at h
      · cases h
      rename_i entry he
      split at h
      · rw [h, hreg]
        dsimp only
        rw [he]
        exact ⟨_, rfl, rfl⟩
      · cases h

theorem buildEnvelopeForKey_key {env : SyncEnvelope} (h : s.buildEnvelopeForKey key = some env) : env.key = key := by
  unfold buildEnvelopeForKey at h
  split at h
  · rename_i ho
    rw [buildLocalEnvelope_key h, ← ho]
  · exact Table.key_of_get? h

theorem buildEnvelopeForKey_of_indexed (hself : s.NoSelf) (h : s.indexed key = some v) :
    ∃ env, s.buildEnvelopeForKey key = some env ∧ env.key = key ∧ env.version = v := by
  by_cases hkey : key.originId = s.nodeId
  · rw [indexed_of_own hself hkey] at h
    obtain ⟨env, henv, hv⟩ := buildLocalEnvelope_of_localVersion h
    have hbuild : s.buildEnvelopeForKey key = some env := by rw [buildEnvelopeForKey, if_pos hkey, henv]
    exact ⟨env, hbuild, buildEnvelopeForKey_key hbuild, hv⟩
  · rw [indexed_of_foreign hkey] at h
    obtain ⟨env, henv, hv⟩ := Option.map_eq_some_iff.mp h
    exact ⟨env, by rw [buildEnvelopeForKey, if_neg hkey, henv], Table.key_of_get? henv, hv⟩

/-! ## Sessions -/

variable (s : ClusterStore) (now : Now)

variable (node : String)

@[simp] theorem touchPeer_nodeId : (s.touchPeer now node).nodeId = s.nodeId := by
  unfold touchPeer
  split <;> rfl

@[simp] theorem touchPeer_config : (s.touchPeer now node).config = s.config := by
  unfold touchPeer
  split <;> rfl

@[simp] theorem touchPeer_authStore : (s.touchPeer now node).authStore = s.authStore := by
  unfold touchPeer
  split <;> rfl

theorem touchPeer_state : (s.touchPeer now node).state = s.state := by
  unfold touchPeer
  split <;> rfl

@[simp] theorem touchPeer_registry : (s.touchPeer now node).registry = s.registry := by
  unfold touchPeer
  split <;> rfl

theorem get?_touchPeer (node other : String) : (s.touchPeer now node).sessions.get? other =
      (s.sessions.get? other).map fun p => if other = node then { p with lastSeen := now.mono } else p := by
  unfold touchPeer
  cases h : s.sessions.get? node with
  | none =>
    by_cases ho : other = node
    · subst ho
      simp [h]
    · simp [ho]
  | some peer =>
    have hid : peer.nodeId = node := Table.key_of_get? h
    dsimp only
    rw [Table.get?_insert]
    by_cases ho : other = node
    · subst ho
      simp [h, hid]
    · have hne : peer.nodeId ≠ other := by
        rw [hid]
        exact fun he => ho he.symm
      simp [ho, hne]

theorem touchPeer_authed (node fromNode : String) (token : Option String) :
    (s.touchPeer now node).authed fromNode token = s.authed fromNode token := by
  unfold authed
  rw [touchPeer_authStore, get?_touchPeer]
  cases s.sessions.get? fromNode with
  | none => rfl
  | some p =>
    simp only [Option.map_some]
    split
    · rfl
    · split <;> rfl

theorem touchPeer_mayAccept (node fromNode dataset : String) (token : Option String) :
    (s.touchPeer now node).mayAccept fromNode dataset token = s.mayAccept fromNode dataset token := by
  unfold mayAccept
  rw [touchPeer_authStore, touchPeer_authed, touchPeer_registry, get?_touchPeer]
  cases s.sessions.get? fromNode with
  | none => rfl
  | some p =>
    simp only [Option.map_some, Option.any_some]
    by_cases h : fromNode = node <;> simp [h]

end ClusterStore

end AgentProtocol
