-- SUMMARY: The listing of services: local rows and replicas in one list, its pages, and when no row is lost and every id leads back to its row.
import AgentProtocol.Cluster.Store
import AgentProtocol.Lib.Pages

/-!
# Listing services

`list_services` shows the rows of the output cache whose entries pass, and after them the replicas of other
registries, under ids with the origin in front. `get_single_service` takes an id back to its row: local entries go
first, and an id with a colon is split at the first one. Local ids are free text, and so are the names of origins.

The size of a page is checked by the framework to be at least -1, which stands for one page with everything.
-/

namespace AgentProtocol.Listing

open Lib

/-! ## What is read -/

/-- `_entry_filter_dict` as text, `none` without data of the entry's type, and what a brief row has of a row. -/
structure Dumps where
  filterDict : RegistryEntry → Option (Dict String String)
  name : ServiceRow → String
  description : ServiceRow → String

/-- The cache was made of the entries, as they are or as they were before a call that is under way. -/
def Cached (reg : RegistryService) (dataset : String) : Prop :=
  ∃ entries : Entries, reg.listServices dataset = entries.rows.map entryToOutput

/-- The registry, and the cluster store if there is one, as they are for the requests on a dataset. -/
structure Catalogue where
  dataset : String
  reg : RegistryService
  cluster : Option ClusterStore
  isLeased : String → Bool
  isUnhealthy : String → Bool
  made : Cached reg dataset

inductive Fields where
  | brief
  | detail

structure Query where
  fields : Fields := .detail
  filters : Dict String String := ∅
  includeLeased : Bool := false
  includeUnhealthy : Bool := false

/-- `size`, as it is admitted. -/
structure PageSize where
  value : ℤ
  admitted : -1 ≤ value := by decide

def PageSize.all : PageSize := { value := -1 }

/-- A row of a listing; replicas have no source of their own. -/
structure ListedRow where
  row : ServiceRow
  source : Option Source

inductive OutputRow where
  | brief (id name description : String)
  | detail (row : ListedRow)

def OutputRow.id : OutputRow → String
  | .brief id _ _ => id
  | .detail listed => listed.row.id

structure PageHeaders where
  totalCount : ℕ
  page : ℕ
  totalPages : ℤ
  pageSize : ℤ

inductive ListingError where
  /-- A replica has no wrapped row. -/
  | missingWrapped
  | divisionByZero

/-- `a // b`. -/
def floorDiv? (a b : ℤ) : Option ℤ := if b = 0 then none else some (a.fdiv b)

/-! ## Listing -/

/-- `_filter_matches`: a service without a status is online. -/
def filterMatches (filters raw : Dict String String) : Bool :=
  filters.rows.all fun p => (p.1 = "status" && p.2 = "online" && !raw.contains "status") || raw.lookup p.1 = some p.2

namespace Catalogue

variable (c : Catalogue) (d : Dumps) (q : Query)

/-- The part of the pipeline that replicas go through, too. -/
def passes (entry : RegistryEntry) : Bool :=
  match d.filterDict entry with
  | none => false
  | some raw => q.filters.rows.isEmpty || filterMatches q.filters raw

/-- A local entry is shown if it has a row. -/
def shows (entry : RegistryEntry) : Bool :=
  if !q.includeLeased && c.isLeased entry.serviceId then false
  else if !q.includeUnhealthy && c.isUnhealthy entry.serviceId then false
  else passes d q entry

def wrappedById : Dict String ServiceRow := Dict.ofList ((c.reg.listServices c.dataset).map fun row => (row.id, row))

/-- The loop over the entries, sorted by id. -/
def localRows : List (RegistryEntry × ListedRow) :=
  ((c.reg.listEntries c.dataset).insertionSort fun a b => a.serviceId ≤ b.serviceId).filterMap fun entry =>
    if c.shows d q entry then (c.wrappedById.lookup entry.serviceId).map fun row => (entry, { row, source := some entry.source })
    else none

/-- The loop over the replicas; `none` where it raises. -/
def replicaRows : Option (List (RegistryEntry × ListedRow)) :=
  match c.cluster with
  | none => some []
  | some store => (store.foreignRows c.dataset).map fun rows =>
      (rows.filter fun r => passes d q r.1).map fun r => (r.1, { row := r.2, source := none })

def matched : Option (List (RegistryEntry × ListedRow)) := (c.replicaRows d q).map fun replicas => c.localRows d q ++ replicas

def project (listed : ListedRow) : OutputRow :=
  match q.fields with
  | .brief => .brief listed.row.id (d.name listed.row) (d.description listed.row)
  | .detail => .detail listed

def listServices (size : PageSize) (page : ℕ+) : Except ListingError (List OutputRow × Option PageHeaders) :=
  match c.matched d q with
  | none => .error .missingWrapped
  | some matched =>
    let rows := matched.map fun r => project d q r.2
    if size.value = -1 then .ok (rows, none)
    else
      match floorDiv? (rows.length + size.value - 1) size.value with
      | none => .error .divisionByZero
      | some pages =>
        let headers : PageHeaders := { totalCount := rows.length, page, totalPages := max 1 pages, pageSize := size.value }
        .ok (Lib.page rows (((page : ℕ) - 1) * size.value.toNat) size.value.toNat, some headers)

inductive SingleReply where
  | wrapped (row : ServiceRow)
  /-- The folder of a skill as an archive, or that it is missing. -/
  | skillZip (entry : RegistryEntry)
  | null
  | notFound
  | raised

def getSingleService (serviceId : String) : SingleReply :=
  match c.reg.getEntry c.dataset serviceId with
  | none =>
    match c.cluster with
    | none => .notFound
    | some store =>
      match store.foreignEntry c.dataset serviceId with
      | none => .notFound
      | some none => .raised
      | some (some row) => .wrapped row
  | some entry =>
    if entry.type = .skill ∧ (d.filterDict entry).isSome then .skillZip entry
    else
      match ((c.reg.listServices c.dataset).filter fun row => row.id = serviceId).head? with
      | none => .null
      | some row => .wrapped row

/-! ## What a listing promises -/

/-- The rows of a page, and none if the call fails. -/
def rowsAt (size : PageSize) (page : ℕ+) : List OutputRow :=
  match c.listServices d q size page with
  | .ok (rows, _) => rows
  | .error _ => []

/-- `X-Total-Pages`, and one page where there is no such header. -/
def totalPages (size : PageSize) : ℕ :=
  match c.listServices d q size 1 with
  | .ok (_, some headers) => headers.totalPages.toNat
  | _ => 1

/-- The calls return, the pages are the full result, and its ids are apart and lead back to the rows of services that
are no skills. -/
structure Lossless (size : PageSize) : Prop where
  returns : ∀ page, ∃ reply, c.listServices d q size page = .ok reply
  pages : (List.range (c.totalPages d q size)).flatMap (fun i => c.rowsAt d q size i.succPNat) = c.rowsAt d q .all 1
  distinct : ((c.rowsAt d q .all 1).map OutputRow.id).Nodup
  resolves : ∀ rows, c.matched d q = some rows → ∀ r ∈ rows, r.1.type ≠ .skill → c.getSingleService d r.2.row.id = .wrapped r.2.row

/-- The live replicas of the dataset whose entries validate. -/
def replicas : List (SyncEnvelope × Payload) :=
  match c.cluster with
  | none => []
  | some store => (store.liveReplicas c.dataset).filter fun r => r.2.entry.isSome

/-- The id that a replica is shown under. -/
def displayId (r : SyncEnvelope × Payload) : String := r.1.originId ++ ":" ++ r.1.serviceId

def showsReplica (r : SyncEnvelope × Payload) : Bool := r.2.entry.any fun entry => passes d q entry

/-- Replicas are whole, no two services that are shown have one id, and the id of a shown replica that is no skill is not
taken by a local entry and has no colon in its origin. -/
structure Clear : Prop where
  whole : ∀ r ∈ c.replicas, r.2.wrapped.isSome = true
  apart : ((c.replicas.filter fun r => showsReplica d q r).map displayId).Nodup
  free : ∀ r ∈ c.replicas, showsReplica d q r = true → ∀ entry ∈ c.reg.listEntries c.dataset, c.shows d q entry = true →
    entry.serviceId ∈ (c.reg.listServices c.dataset).map ServiceRow.id → entry.serviceId ≠ displayId r
  resolved : ∀ r ∈ c.replicas, ∀ entry ∈ r.2.entry, passes d q entry = true → entry.type ≠ .skill →
    ':' ∉ r.1.originId.toList ∧ c.reg.getEntry c.dataset (displayId r) = none

end Catalogue

/-! ## Lists -/

section Lists

variable {α β κ : Type}

variable {f : α → Option β}

theorem mapM_eq_filterMap {l : List α} (h : ∀ a ∈ l, (f a).isSome = true) : l.mapM f = some (l.filterMap f) := by
  induction l with
  | nil => rfl
  | cons a l ih =>
    obtain ⟨hfirst, hrest⟩ := List.forall_mem_cons.mp h
    obtain ⟨b, hb⟩ := Option.isSome_iff_exists.mp hfirst
    rw [List.mapM_cons, hb, ih hrest, List.filterMap_cons_some hb]
    rfl

theorem isSome_of_mapM {l : List α} {bs : List β} (h : l.mapM f = some bs) : ∀ a ∈ l, (f a).isSome = true := by
  induction l generalizing bs with
  | nil => exact fun a ha => nomatch ha
  | cons a l ih =>
    simp only [List.mapM_cons, Option.bind_eq_bind, Option.bind_eq_some_iff, Option.pure_def] at h
    obtain ⟨b, hb, bs', hbs', -⟩ := h
    exact List.forall_mem_cons.mpr ⟨by rw [hb, Option.isSome_some], ih hbs'⟩

theorem map_filterMap_sublist {g : β → κ} {k : α → κ} (h : ∀ a b, f a = some b → g b = k a) (l : List α) :
    ((l.filterMap f).map g).Sublist (l.map k) := by
  induction l with
  | nil => exact List.Sublist.refl _
  | cons a l ih =>
    cases hf : f a with
    | none =>
      rw [List.filterMap_cons_none hf]
      exact ih.cons _
    | some b =>
      rw [List.filterMap_cons_some hf, List.map_cons, List.map_cons, h a b hf]
      exact ih.cons_cons _

end Lists

/-! ## The registry between calls -/

theorem cached_regenerateOutput (reg : RegistryService) (dataset other : String) (h : Cached reg other) :
    Cached (reg.regenerateOutput dataset) other := by
  unfold Cached RegistryService.listServices RegistryService.regenerateOutput
  rw [Dict.lookup_set]
  split
  · exact ⟨reg.entriesOf dataset, rfl⟩
  · exact h

namespace Catalogue

variable {c : Catalogue} {d : Dumps} {q : Query}

/-! ## Local rows -/

theorem nodup_ids (c : Catalogue) : ((c.reg.listServices c.dataset).map ServiceRow.id).Nodup := by
  obtain ⟨entries, hrows⟩ := c.made
  rw [hrows, List.map_map]
  exact entries.nodup

theorem originId_of_mem {row : ServiceRow} (h : row ∈ c.reg.listServices c.dataset) : row.originId = none := by
  obtain ⟨entries, hrows⟩ := c.made
  rw [hrows] at h
  obtain ⟨entry, -, rfl⟩ := List.mem_map.mp h
  rfl

theorem lookup_wrappedById {sid : String} {row : ServiceRow} :
    c.wrappedById.lookup sid = some row ↔ row ∈ c.reg.listServices c.dataset ∧ row.id = sid := by
  have hrows : c.wrappedById.rows = (c.reg.listServices c.dataset).map fun row => (row.id, row) := by
    unfold wrappedById Dict.ofList
    rw [Table.rows_insertAll]
    · rfl
    · simpa [Function.comp_def] using c.nodup_ids
  rw [Dict.lookup_eq_some, hrows, List.mem_map]
  constructor
  · rintro ⟨row', hmem, heq⟩
    obtain ⟨hid, rfl⟩ := Prod.mk.inj heq
    exact ⟨hmem, hid⟩
  · rintro ⟨hmem, rfl⟩
    exact ⟨row, hmem, rfl⟩

theorem mem_localRows {r : RegistryEntry × ListedRow} :
    r ∈ c.localRows d q ↔ ∃ entry ∈ c.reg.listEntries c.dataset, c.shows d q entry = true ∧
      ∃ row ∈ c.reg.listServices c.dataset, row.id = entry.serviceId ∧ r = (entry, { row, source := some entry.source }) := by
  unfold localRows
  rw [List.mem_filterMap]
  constructor
  · rintro ⟨entry, hentry, hrow⟩
    split at hrow
    · rename_i hshows
      obtain ⟨row, hlookup, rfl⟩ := Option.map_eq_some_iff.mp hrow
      obtain ⟨hmem, hid⟩ := lookup_wrappedById.mp hlookup
      exact ⟨entry, (List.mem_insertionSort _).mp hentry, hshows, row, hmem, hid, rfl⟩
    · cases hrow
  · rintro ⟨entry, hentry, hshows, row, hmem, hid, rfl⟩
    refine ⟨entry, (List.mem_insertionSort _).mpr hentry, ?_⟩
    rw [if_pos hshows, lookup_wrappedById.mpr ⟨hmem, hid⟩, Option.map_some]

theorem nodup_localIds (c : Catalogue) (d : Dumps) (q : Query) : ((c.localRows d q).map fun r => r.2.row.id).Nodup := by
  have hsub : ((c.localRows d q).map fun r => r.2.row.id).Sublist
      (((c.reg.listEntries c.dataset).insertionSort fun a b => a.serviceId ≤ b.serviceId).map RegistryEntry.serviceId) := by
    refine map_filterMap_sublist (fun entry r hr => ?_) _
    split at hr
    · obtain ⟨row, hlookup, rfl⟩ := Option.map_eq_some_iff.mp hr
      exact (lookup_wrappedById.mp hlookup).2
    · cases hr
  refine hsub.nodup (((List.perm_insertionSort _ _).map _).nodup_iff.mpr ?_)
  exact (c.reg.entriesOf c.dataset).nodup

theorem getSingleService_local {r : RegistryEntry × ListedRow} (h : r ∈ c.localRows d q) (hskill : r.1.type ≠ .skill) :
    c.getSingleService d r.2.row.id = .wrapped r.2.row := by
  obtain ⟨entry, hentry, -, row, hmem, hid, rfl⟩ := mem_localRows.mp h
  have hget : c.reg.getEntry c.dataset row.id = some entry := by
    rw [hid]
    exact RegistryService.mem_listEntries.mp hentry
  have hfirst : ((c.reg.listServices c.dataset).filter fun row' => row'.id = row.id).head? = some row := by
    rw [List.head?_filter]
    exact Table.get?_eq_some (t := ⟨c.reg.listServices c.dataset, c.nodup_ids⟩).mpr ⟨hmem, rfl⟩
  unfold getSingleService
  simp only [hget, hfirst]
  rw [if_neg fun hzip => hskill hzip.1]

/-! ## Replicas -/

def replicaRow (r : SyncEnvelope × Payload) : Option (RegistryEntry × ServiceRow) := do
  let entry ← r.2.entry
  let wrapped ← r.2.wrapped
  pure (entry, ClusterStore.namespacedRow r.1.originId (displayId r) wrapped)

variable {r : SyncEnvelope × Payload}

theorem replicaRow_eq_some {p : RegistryEntry × ServiceRow} :
    replicaRow r = some p ↔ ∃ entry wrapped, r.2.entry = some entry ∧ r.2.wrapped = some wrapped ∧
      p = (entry, ClusterStore.namespacedRow r.1.originId (displayId r) wrapped) := by
  simp only [replicaRow, Option.bind_eq_bind, Option.bind_eq_some_iff, Option.pure_def, Option.some.injEq]
  constructor
  · rintro ⟨entry, hentry, wrapped, hwrapped, rfl⟩
    exact ⟨entry, wrapped, hentry, hwrapped, rfl⟩
  · rintro ⟨entry, wrapped, hentry, hwrapped, rfl⟩
    exact ⟨entry, hentry, wrapped, hwrapped, rfl⟩

/-- The replicas that a listing shows, if all are whole. -/
def replicaListing (c : Catalogue) (d : Dumps) (q : Query) : List (RegistryEntry × ListedRow) :=
  ((c.replicas.filterMap replicaRow).filter fun p => passes d q p.1).map fun p => (p.1, { row := p.2, source := none })

theorem isSome_entry (h : r ∈ c.replicas) : r.2.entry.isSome = true := by
  unfold replicas at h
  split at h
  · cases h
  exact (List.mem_filter.mp h).2

theorem matched_of_whole (h : ∀ r ∈ c.replicas, r.2.wrapped.isSome = true) :
    c.matched d q = some (c.localRows d q ++ c.replicaListing d q) := by
  unfold matched replicaRows
  cases hcluster : c.cluster with
  | none => simp [replicaListing, replicas, hcluster]
  | some store =>
    have hreplicas : c.replicas = (store.liveReplicas c.dataset).filter fun r => r.2.entry.isSome := by simp only [replicas, hcluster]
    have hforeign : store.foreignRows c.dataset = some (c.replicas.filterMap replicaRow) := by
      rw [hreplicas]
      refine mapM_eq_filterMap (f := replicaRow) fun r hr => ?_
      obtain ⟨entry, hentry⟩ := Option.isSome_iff_exists.mp (List.mem_filter.mp hr).2
      obtain ⟨wrapped, hwrapped⟩ := Option.isSome_iff_exists.mp (h r (hreplicas ▸ hr))
      exact Option.isSome_iff_exists.mpr ⟨_, replicaRow_eq_some.mpr ⟨entry, wrapped, hentry, hwrapped, rfl⟩⟩
    simp only [hforeign, Option.map_some, replicaListing]

theorem whole_of_matched {rows : List (RegistryEntry × ListedRow)} (h : c.matched d q = some rows) :
    ∀ r ∈ c.replicas, r.2.wrapped.isSome = true := by
  unfold matched replicaRows at h
  intro r hr
  cases hcluster : c.cluster with
  | none => simp [replicas, hcluster] at hr
  | some store =>
    simp only [hcluster, Option.map_map, Option.map_eq_some_iff] at h
    obtain ⟨foreign, hforeign, -⟩ := h
    have hmem : r ∈ (store.liveReplicas c.dataset).filter fun r => r.2.entry.isSome := by simpa only [replicas, hcluster] using hr
    obtain ⟨p, hp⟩ := Option.isSome_iff_exists.mp (isSome_of_mapM (f := replicaRow) hforeign r hmem)
    obtain ⟨entry, wrapped, -, hwrapped, -⟩ := replicaRow_eq_some.mp hp
    rw [hwrapped, Option.isSome_some]

theorem mem_replicaListing {p : RegistryEntry × ListedRow} :
    p ∈ c.replicaListing d q ↔ ∃ r ∈ c.replicas, ∃ entry wrapped, r.2.entry = some entry ∧ r.2.wrapped = some wrapped ∧
      passes d q entry = true ∧ p = (entry, { row := ClusterStore.namespacedRow r.1.originId (displayId r) wrapped, source := none }) := by
  unfold replicaListing
  rw [List.mem_map]
  constructor
  · rintro ⟨p', hp', rfl⟩
    obtain ⟨hmem, hpasses⟩ := List.mem_filter.mp hp'
    obtain ⟨r, hr, hrow⟩ := List.mem_filterMap.mp hmem
    obtain ⟨entry, wrapped, hentry, hwrapped, rfl⟩ := replicaRow_eq_some.mp hrow
    exact ⟨r, hr, entry, wrapped, hentry, hwrapped, hpasses, rfl⟩
  · rintro ⟨r, hr, entry, wrapped, hentry, hwrapped, hpasses, rfl⟩
    refine ⟨_, List.mem_filter.mpr ⟨List.mem_filterMap.mpr ⟨r, hr, replicaRow_eq_some.mpr ⟨entry, wrapped, hentry, hwrapped, rfl⟩⟩, hpasses⟩, rfl⟩

theorem ids_replicaListing (h : ∀ r ∈ c.replicas, r.2.wrapped.isSome = true) :
    ((c.replicaListing d q).map fun p => p.2.row.id) = (c.replicas.filter fun r => showsReplica d q r).map displayId := by
  have hall : ∀ r ∈ c.replicas, r.2.entry.isSome = true ∧ r.2.wrapped.isSome = true := fun r hr => ⟨isSome_entry hr, h r hr⟩
  unfold replicaListing
  generalize c.replicas = rs at hall
  induction rs with
  | nil => rfl
  | cons r rs ih =>
    obtain ⟨⟨hentry, hwrapped⟩, hrest⟩ := List.forall_mem_cons.mp hall
    obtain ⟨entry, hentry⟩ := Option.isSome_iff_exists.mp hentry
    obtain ⟨wrapped, hwrapped⟩ := Option.isSome_iff_exists.mp hwrapped
    have hrow := replicaRow_eq_some.mpr ⟨entry, wrapped, hentry, hwrapped, rfl⟩
    have hshows : showsReplica d q r = passes d q entry := by rw [showsReplica, hentry, Option.any_some]
    rw [List.filterMap_cons_some hrow, List.filter_cons, List.filter_cons, hshows]
    cases hpasses : passes d q entry with
    | false =>
      simp only [Bool.false_eq_true, if_false]
      exact ih hrest
    | true =>
      simp only [if_true, List.map_cons]
      exact congrArg _ (ih hrest)

theorem splitDisplayId_of_not_mem {origin sid : String} (h : ':' ∉ origin.toList) :
    ClusterStore.splitDisplayId (origin ++ ":" ++ sid) = some (origin, sid) := by
  have hspan : (origin ++ ":" ++ sid).toList.span (· ≠ ':') = (origin.toList, ':' :: sid.toList) := by
    have hall : ∀ ch ∈ origin.toList, decide (ch ≠ ':') = true := fun ch hch => decide_eq_true fun heq => h (heq ▸ hch)
    rw [String.toList_append, String.toList_append, List.append_assoc, List.span_eq_takeWhile_dropWhile,
      List.takeWhile_append_of_pos hall, List.dropWhile_append_of_pos hall]
    simp
  simp only [ClusterStore.splitDisplayId, hspan, String.ofList_toList]

theorem not_mem_of_splitDisplayId {id origin sid : String} (h : ClusterStore.splitDisplayId id = some (origin, sid)) :
    ':' ∉ origin.toList := by
  unfold ClusterStore.splitDisplayId at h
  rw [List.span_eq_takeWhile_dropWhile] at h
  split at h
  · cases h
  rename_i before rest heq
  obtain ⟨rfl, -⟩ := Prod.mk.inj (Option.some.inj h)
  obtain ⟨rfl, -⟩ := Prod.mk.inj heq
  intro hmem
  rw [String.toList_ofList] at hmem
  simpa using List.mem_takeWhile_imp hmem

theorem get?_foreign {store : ClusterStore} (hcluster : c.cluster = some store) (h : r ∈ c.replicas) :
    store.foreign.get? ⟨c.dataset, r.1.originId, r.1.serviceId⟩ = some r.1 ∧ r.1.tombstone = false ∧ r.1.payload = some r.2 := by
  simp only [replicas, hcluster] at h
  obtain ⟨env, henv, hr⟩ := List.mem_filterMap.mp (List.mem_of_mem_filter h)
  split at hr
  · cases hr
  rename_i hlive
  obtain ⟨payload, hpayload, rfl⟩ := Option.map_eq_some_iff.mp hr
  obtain ⟨hdataset, htombstone⟩ : env.dataset = c.dataset ∧ env.tombstone = false := by simpa using hlive
  refine ⟨Table.get?_eq_some.mpr ⟨henv, ?_⟩, htombstone, hpayload⟩
  rw [SyncEnvelope.key, hdataset]

theorem getSingleService_replica_iff {wrapped : ServiceRow} (h : r ∈ c.replicas) (hwrapped : r.2.wrapped = some wrapped) :
    c.getSingleService d (displayId r) = .wrapped (ClusterStore.namespacedRow r.1.originId (displayId r) wrapped) ↔
      ':' ∉ r.1.originId.toList ∧ c.reg.getEntry c.dataset (displayId r) = none := by
  obtain ⟨store, hcluster⟩ : ∃ store, c.cluster = some store := by
    cases hcluster : c.cluster with
    | none => simp [replicas, hcluster] at h
    | some store => exact ⟨store, rfl⟩
  unfold getSingleService
  cases hget : c.reg.getEntry c.dataset (displayId r) with
  | some entry =>
    -- a local row has no origin
    refine iff_of_false ?_ fun hall => by cases hall.2
    dsimp only
    split
    · intro heq; cases heq
    · split
      · intro heq; cases heq
      · rename_i row hrow
        intro heq
        have hmem := (List.mem_filter.mp (List.mem_of_mem_head? hrow)).1
        have horigin := originId_of_mem hmem
        rw [SingleReply.wrapped.inj heq] at horigin
        cases horigin
  | none =>
    simp only [hcluster, and_true]
    constructor
    · intro heq hcolon
      cases hsplit : ClusterStore.splitDisplayId (displayId r) with
      | none => simp [ClusterStore.foreignEntry, hsplit] at heq
      | some parts =>
        obtain ⟨origin, sid⟩ := parts
        have hplain := not_mem_of_splitDisplayId hsplit
        simp only [ClusterStore.foreignEntry, hsplit, Option.bind_eq_bind, Option.bind_some] at heq
        split at heq
        · cases heq
        · cases heq
        · rename_i row hrow
          obtain ⟨env, -, hrow⟩ := Option.bind_eq_some_iff.mp hrow
          split at hrow
          · cases hrow
          obtain ⟨payload, -, hrow⟩ := Option.bind_eq_some_iff.mp hrow
          obtain ⟨wrapped', -, hnamed⟩ := Option.map_eq_some_iff.mp (Option.some.inj hrow)
          have hrows := hnamed.trans (SingleReply.wrapped.inj heq)
          have horigin : origin = r.1.originId := Option.some.inj (congrArg ServiceRow.originId hrows)
          exact hplain (horigin ▸ hcolon)
    · intro hplain
      obtain ⟨hforeign, htombstone, hpayload⟩ := get?_foreign hcluster h
      have hentry : store.foreignEntry c.dataset (displayId r) =
          some (some (ClusterStore.namespacedRow r.1.originId (displayId r) wrapped)) := by
        simp [ClusterStore.foreignEntry, displayId, splitDisplayId_of_not_mem hplain, hforeign, htombstone, hpayload, hwrapped]
      rw [hentry]

/-! ## Pages -/

section Pages

variable {rows : List (RegistryEntry × ListedRow)} {size : PageSize}

theorem listServices_of_raised (h : c.matched d q = none) (page : ℕ+) : c.listServices d q size page = .error .missingWrapped := by
  simp only [listServices, h]

variable (h : c.matched d q = some rows)
include h

theorem listServices_all (hsize : size.value = -1) (page : ℕ+) :
    c.listServices d q size page = .ok (rows.map fun r => project d q r.2, none) := by
  simp only [listServices, h]
  rw [if_pos hsize]

theorem listServices_zero (hsize : size.value = 0) (page : ℕ+) : c.listServices d q size page = .error .divisionByZero := by
  have hnot : size.value ≠ -1 := by omega
  simp only [listServices, h]
  rw [if_neg hnot, floorDiv?, if_pos hsize]

omit h in
theorem max_fdiv (total : ℕ) {size : ℤ} (hsize : 0 < size) :
    max 1 (((total : ℤ) + size - 1).fdiv size) = (pageCount total size.toNat : ℤ) := by
  obtain ⟨k, rfl⟩ := Int.eq_ofNat_of_zero_le hsize.le
  have hk : 0 < k := by omega
  have hsum : (total : ℤ) + (k : ℤ) - 1 = ((total + k - 1 : ℕ) : ℤ) := by omega
  rw [hsum, Int.fdiv_eq_ediv_of_nonneg _ (by omega), Int.toNat_natCast, pageCount]
  push_cast
  rfl

theorem listServices_pos (hsize : 0 < size.value) (page : ℕ+) : c.listServices d q size page =
      .ok (Lib.page (rows.map fun r => project d q r.2) (((page : ℕ) - 1) * size.value.toNat) size.value.toNat,
        some { totalCount := rows.length, page, totalPages := pageCount rows.length size.value.toNat, pageSize := size.value }) := by
  have hnot : size.value ≠ -1 := by omega
  have hzero : size.value ≠ 0 := by omega
  simp only [listServices, h, List.length_map]
  rw [if_neg hnot, floorDiv?, if_neg hzero]
  dsimp only
  rw [max_fdiv rows.length hsize]

theorem rowsAt_all : c.rowsAt d q .all 1 = rows.map fun r => project d q r.2 := by
  rw [rowsAt, listServices_all h rfl]

omit h in
theorem id_project (r : ListedRow) : (project d q r).id = r.row.id := by
  unfold project
  cases q.fields with
  | brief | detail => rfl

theorem flatMap_rowsAt (hsize : size.value ≠ 0) :
    (List.range (c.totalPages d q size)).flatMap (fun i => c.rowsAt d q size i.succPNat) = c.rowsAt d q .all 1 := by
  rw [rowsAt_all h]
  rcases lt_or_gt_of_ne hsize with hneg | hpos
  · -- all rows are on one page
    have hall : size.value = -1 := by
      have hadmitted := size.admitted
      omega
    have hpages : c.totalPages d q size = 1 := by rw [totalPages, listServices_all h hall]
    have hfirst : c.rowsAt d q size (Nat.succPNat 0) = rows.map fun r => project d q r.2 := by rw [rowsAt, listServices_all h hall]
    rw [hpages, List.range_one, List.flatMap_singleton, hfirst]
  · have hpages : c.totalPages d q size = pageCount (rows.map fun r => project d q r.2).length size.value.toNat := by
      rw [totalPages, listServices_pos h hpos, List.length_map]
      exact Int.toNat_natCast _
    have hpage : (fun i => c.rowsAt d q size (Nat.succPNat i)) =
        fun i => Lib.page (rows.map fun r => project d q r.2) (i * size.value.toNat) size.value.toNat := by
      funext i
      rw [rowsAt, listServices_pos h hpos, Nat.succPNat_coe, Nat.succ_sub_one]
    rw [hpages, hpage, flatMap_pages _ (by omega)]

omit h

end Pages

/-! ## Nothing is lost -/

section Listing

variable {rows : List (RegistryEntry × ListedRow)}

theorem nodup_ids_iff (h : ∀ r ∈ c.replicas, r.2.wrapped.isSome = true) :
    ((c.localRows d q ++ c.replicaListing d q).map fun r => r.2.row.id).Nodup ↔
      ((c.replicas.filter fun r => showsReplica d q r).map displayId).Nodup ∧
      ∀ r ∈ c.replicas, showsReplica d q r = true → ∀ entry ∈ c.reg.listEntries c.dataset, c.shows d q entry = true →
        entry.serviceId ∈ (c.reg.listServices c.dataset).map ServiceRow.id → entry.serviceId ≠ displayId r := by
  rw [List.map_append, ids_replicaListing h, List.nodup_append]
  constructor
  · rintro ⟨-, hreplicas, hapart⟩
    refine ⟨hreplicas, fun r hr hshown entry hentry hshows hcached => ?_⟩
    obtain ⟨row, hrow, hid⟩ := List.mem_map.mp hcached
    exact hapart _ (List.mem_map.mpr ⟨_, mem_localRows.mpr ⟨entry, hentry, hshows, row, hrow, hid, rfl⟩, hid⟩)
      _ (List.mem_map.mpr ⟨r, List.mem_filter.mpr ⟨hr, hshown⟩, rfl⟩)
  · rintro ⟨hreplicas, hfree⟩
    refine ⟨nodup_localIds c d q, hreplicas, ?_⟩
    intro id hid id' hid' heq
    obtain ⟨p, hp, rfl⟩ := List.mem_map.mp hid
    obtain ⟨r, hr, rfl⟩ := List.mem_map.mp hid'
    obtain ⟨hr, hshown⟩ := List.mem_filter.mp hr
    obtain ⟨entry, hentry, hshows, row, hrow, hrowId, rfl⟩ := mem_localRows.mp hp
    exact hfree r hr hshown entry hentry hshows (List.mem_map.mpr ⟨row, hrow, hrowId⟩) (hrowId.symm.trans heq)

/-- A listing is lossless exactly if the size is not zero and nothing gets in the way of its ids. -/
theorem lossless_iff (c : Catalogue) (d : Dumps) (q : Query) (size : PageSize) : c.Lossless d q size ↔ size.value ≠ 0 ∧ c.Clear d q := by
  constructor
  · intro h
    obtain ⟨reply, hreply⟩ := h.returns 1
    cases hmatched : c.matched d q with
    | none =>
      rw [listServices_of_raised hmatched] at hreply
      cases hreply
    | some rows =>
      have hzero : size.value ≠ 0 := by
        intro hzero
        rw [listServices_zero hmatched hzero] at hreply
        cases hreply
      have hwhole := whole_of_matched hmatched
      obtain rfl := Option.some.inj (hmatched.symm.trans (matched_of_whole hwhole))
      have hids := h.distinct
      rw [rowsAt_all hmatched, List.map_map] at hids
      have hids : ((c.localRows d q ++ c.replicaListing d q).map fun r => r.2.row.id).Nodup := by
        simpa [Function.comp_def, id_project] using hids
      obtain ⟨hapart, hfree⟩ := (nodup_ids_iff hwhole).mp hids
      refine ⟨hzero, hwhole, hapart, hfree, fun r hr entry hentry hpasses hskill => ?_⟩
      obtain ⟨wrapped, hwrapped⟩ := Option.isSome_iff_exists.mp (hwhole r hr)
      have hmem := List.mem_append_right (c.localRows d q)
        (mem_replicaListing.mpr ⟨r, hr, entry, wrapped, hentry, hwrapped, hpasses, rfl⟩)
      exact (getSingleService_replica_iff hr hwrapped).mp (h.resolves _ hmatched _ hmem hskill)
  · rintro ⟨hzero, hclear⟩
    have hmatched : c.matched d q = _ := matched_of_whole hclear.whole
    refine ⟨fun page => ?_, flatMap_rowsAt hmatched hzero, ?_, ?_⟩
    · rcases lt_or_gt_of_ne hzero with hneg | hpos
      · have hadmitted := size.admitted
        exact ⟨_, listServices_all hmatched (by omega) page⟩
      · exact ⟨_, listServices_pos hmatched hpos page⟩
    · rw [rowsAt_all hmatched, List.map_map]
      have hids := (nodup_ids_iff hclear.whole).mpr ⟨hclear.apart, hclear.free⟩
      simpa [Function.comp_def, id_project] using hids
    · intro rows hrows p hp hskill
      obtain rfl := Option.some.inj (hmatched.symm.trans hrows)
      rcases List.mem_append.mp hp with hlocal | hreplica
      · exact getSingleService_local hlocal hskill
      · obtain ⟨r, hr, entry, wrapped, hentry, hwrapped, hpasses, rfl⟩ := mem_replicaListing.mp hreplica
        exact (getSingleService_replica_iff hr hwrapped).mpr (hclear.resolved r hr entry hentry hpasses hskill)

end Listing

/-! ### A local id that is like that of a replica -/

/-- A local service is called like the service `s` of the registry `b`, which is replicated. -/
def likeReplica : Catalogue where
  dataset := "ds"
  reg := ({} : RegistryService).doRegister "ds" { serviceId := "b:s", type := .generic, source := .ephemeral, data := "local" }
  cluster := some
    { state := { nodeId := "a" }
      foreign := (∅ : Table SyncEnvelope.key).insert
        { dataset := "ds", serviceId := "s", originId := "b", version := ⟨1, "b"⟩
          payload := some
            { entry := some { serviceId := "s", type := .generic, source := .ephemeral, data := "remote" }
              wrapped := some { id := "s", type := .generic, data := "remote" } } } }
  isLeased := fun _ => false
  isUnhealthy := fun _ => false
  made := cached_regenerateOutput _ _ _ ⟨∅, rfl⟩

def plainDumps : Dumps where
  filterDict _ := some ∅
  name row := row.id
  description row := row.data

/-- A page of size zero is not answered, and the full list has one id twice. -/
theorem likeReplica_not_lossless :
    ¬ likeReplica.Lossless plainDumps {} { value := 0 } ∧ ¬ likeReplica.Lossless plainDumps {} .all := by
  constructor
  · intro h
    obtain ⟨reply, hreply⟩ := h.returns 1
    cases hreply
  · intro h
    exact absurd h.distinct (by decide)

end Catalogue

end AgentProtocol.Listing
