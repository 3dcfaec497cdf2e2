-- SUMMARY: What a reconciliation pulls and pushes: everything a comparison of complete digests would, whatever the two bucket counts.
import AgentProtocol.Cluster.Operations

/-!
# Anti-entropy

A reconciliation compares two indexes by bucket hashes and then only looks into the
buckets that differ, each side cutting its own index by its own number of buckets.
Under a collision-free hash this selects every key that a comparison of the complete
digests would select, and exactly those if both sides use the same number of buckets.
-/

namespace AgentProtocol

open Lib

namespace ClusterStore

/-! ## The selected keys -/

/-- `toPull` and `toPush` are what a comparison of bucket hashes selects: the keys
that are newer on one side within the differing buckets. -/
structure Selects (here : Index) (nHere : ℕ) (there : Index) (nThere : ℕ) (toPull toPush : List Key) :
    Prop where
  pull : ∀ key, key ∈ toPull ↔ key ∈ Merkle.newerKeys
    (Merkle.inBuckets there nThere
      (Merkle.differingBuckets (Merkle.bucketHashes here nHere) (Merkle.bucketHashes there nThere)))
    (Merkle.inBuckets here nHere
      (Merkle.differingBuckets (Merkle.bucketHashes here nHere) (Merkle.bucketHashes there nThere)))
  push : ∀ key, key ∈ toPush ↔ key ∈ Merkle.newerKeys
    (Merkle.inBuckets here nHere
      (Merkle.differingBuckets (Merkle.bucketHashes here nHere) (Merkle.bucketHashes there nThere)))
    (Merkle.inBuckets there nThere
      (Merkle.differingBuckets (Merkle.bucketHashes here nHere) (Merkle.bucketHashes there nThere)))
  pullNodup : toPull.Nodup
  pushNodup : toPush.Nodup

namespace Selects

variable {here there : Index} {nHere nThere n : ℕ} {toPull toPush : List Key}

theorem lookup_of_pull (h : Selects here nHere there nThere toPull toPush) {key : Key}
    (hkey : key ∈ toPull) : ∃ v, there.lookup key = some v := by
  obtain ⟨v, hv, -⟩ := Merkle.mem_newerKeys.mp ((h.pull key).mp hkey)
  rw [Merkle.lookup_inBuckets] at hv
  exact ⟨v, (Option.ite_none_right_eq_some.mp hv).2⟩

theorem lookup_of_push (h : Selects here nHere there nThere toPull toPush) {key : Key}
    (hkey : key ∈ toPush) : ∃ v, here.lookup key = some v := by
  obtain ⟨v, hv, -⟩ := Merkle.mem_newerKeys.mp ((h.push key).mp hkey)
  rw [Merkle.lookup_inBuckets] at hv
  exact ⟨v, (Option.ite_none_right_eq_some.mp hv).2⟩

section Complete

variable (h : Selects here nHere there nThere toPull toPush)
  (hcf : Merkle.CollisionFree here nHere there nThere)
  (hhere : Merkle.SepFree here) (hthere : Merkle.SepFree there)

include h hcf hhere hthere

theorem pull_of_newer {key : Key} (hkey : key ∈ Merkle.newerKeys there here) : key ∈ toPull :=
  (h.pull key).mpr (Merkle.newerKeys_subset_inBuckets hcf.symm hthere hhere
    (fun _ hi => Merkle.mem_differingBuckets.mpr hi.symm) hkey)

theorem push_of_newer {key : Key} (hkey : key ∈ Merkle.newerKeys here there) : key ∈ toPush :=
  (h.push key).mpr (Merkle.newerKeys_subset_inBuckets hcf hhere hthere
    (fun _ hi => Merkle.mem_differingBuckets.mpr hi) hkey)

end Complete

theorem newer_of_pull (h : Selects here n there n toPull toPush) {key : Key} (hkey : key ∈ toPull) :
    key ∈ Merkle.newerKeys there here :=
  Merkle.newerKeys_inBuckets_subset ((h.pull key).mp hkey)

theorem newer_of_push (h : Selects here n there n toPull toPush) {key : Key} (hkey : key ∈ toPush) :
    key ∈ Merkle.newerKeys here there :=
  Merkle.newerKeys_inBuckets_subset ((h.push key).mp hkey)

end Selects

section Comparison

variable {σ : Type} {t : Transport σ} {s : ClusterStore} {peer : Peer}

def comparedIndex (s : ClusterStore) (now : Now) (peer : Peer) : Index :=
  (s.fullIndex now (sortedSet peer.namespaces)).1

/-- The buckets that differ from those of an index cut into `n` buckets. -/
def differing (s : ClusterStore) (now : Now) (peer : Peer) (there : Index) (n : ℕ) : List ℕ :=
  Merkle.differingBuckets (Merkle.bucketHashes (s.comparedIndex now peer) s.config.merkleBuckets)
    (Merkle.bucketHashes there n)

/-- The far end answers from the index `there`, cut into `n` buckets. -/
structure AnswersFrom (t : Transport σ) (s : ClusterStore) (peer : Peer) (there : Index) (n : ℕ)
    (r r₁ r₂ : σ) : Prop where
  merkle : t.merkle peer.address s.nodeId (sortedSet peer.namespaces) peer.token r =
    (.ok (Merkle.bucketHashes there n), r₁)
  digest : ∀ buckets, t.digest peer.address s.nodeId (sortedSet peer.namespaces) peer.token buckets r₁ =
    (.ok (Merkle.inBuckets there n buckets).rows, r₂)

theorem lookup_ofList_rows (d : Index) (key : Key) : (Dict.ofList d.rows).lookup key = d.lookup key := by
  cases h : d.lookup key with
  | some v =>
    refine Dict.lookup_insertAll_of_mem (Dict.lookup_eq_some.mp h) fun w hw => ?_
    have hw' := Dict.lookup_eq_some.mpr hw
    exact Option.some.inj (hw'.symm.trans h)
  | none => exact Dict.lookup_insertAll_of_notMem (Dict.lookup_eq_none.mp h)

theorem mem_newerKeys_congr {a a' b b' : Index} {key : Key} (ha : a.lookup key = a'.lookup key)
    (hb : b.lookup key = b'.lookup key) : key ∈ Merkle.newerKeys a b ↔ key ∈ Merkle.newerKeys a' b' := by
  simp only [Merkle.mem_newerKeys, ha, hb]

theorem compareWith_of_answers (now : Now) {there : Index} {n : ℕ} {r r₁ r₂ : σ} (h : AnswersFrom t s peer there n r r₁ r₂) :
    ∃ toPull toPush r', compareWith t s now peer r = (.ok (toPull, toPush), s.ensureLocalVersions now, r') ∧
      (r' = if s.differing now peer there n = [] then r₁ else r₂) ∧
      Selects (s.comparedIndex now peer) s.config.merkleBuckets there n toPull toPush := by
  unfold compareWith
  dsimp only [fullIndex]
  rw [ensureLocalVersions_nodeId, ensureLocalVersions_config, h.merkle]
  dsimp only
  change ∃ toPull toPush r', (if s.differing now peer there n = [] then _ else _) = _ ∧ _
  by_cases hdiff : s.differing now peer there n = []
  · refine ⟨[], [], r₁, by rw [if_pos hdiff], by rw [if_pos hdiff], fun key => ?_, fun key => ?_,
      List.nodup_nil, List.nodup_nil⟩
    · unfold differing at hdiff
      simp [Merkle.mem_newerKeys, Merkle.lookup_inBuckets, hdiff]
    · unfold differing at hdiff
      simp [Merkle.mem_newerKeys, Merkle.lookup_inBuckets, hdiff]
  · rw [if_neg hdiff, h.digest]
    have hrows : ∀ key, (Dict.ofList (Merkle.inBuckets there n
        ((s.differing now peer there n).insertionSort (· ≤ ·))).rows).lookup key =
        (Merkle.inBuckets there n (s.differing now peer there n)).lookup key := by
      intro key
      rw [lookup_ofList_rows, Merkle.lookup_inBuckets, Merkle.lookup_inBuckets]
      simp only [List.mem_insertionSort]
    refine ⟨_, _, r₂, rfl, by rw [if_neg hdiff], fun key => ?_, fun key => ?_,
      Merkle.newerKeys_nodup _ _, Merkle.newerKeys_nodup _ _⟩
    · exact mem_newerKeys_congr (hrows key) rfl
    · exact mem_newerKeys_congr rfl (hrows key)

end Comparison

theorem lookup_comparedIndex (s : ClusterStore) (now : Now) (peer : Peer) (key : Key) : (s.comparedIndex now peer).lookup key =
      if inScope peer.namespaces key.dataset = true then (s.ensureLocalVersions now).indexed key
      else none := by
  rw [comparedIndex, fullIndex, lookup_versionedIndex, inScope_sortedSet]

theorem noSelf_ensureLocalVersions {s : ClusterStore} (h : s.NoSelf) (now : Now) : (s.ensureLocalVersions now).NoSelf := by
  unfold NoSelf
  rw [ensureLocalVersions_foreign, ensureLocalVersions_nodeId]
  exact h

theorem reconcile_of_pull {σ : Type} {t : Transport σ} {s s₁ s₂ : ClusterStore} {now : Now} {peer : Peer}
    {toPull toPush : List Key} {r r₁ r₂ : σ} {pulled : ℕ} (hcmp : compareWith t s now peer r = (.ok (toPull, toPush), s₁, r₁))
    (hpull : pullKeys t s₁ now peer toPull r₁ = (.ok pulled, s₂, r₂)) : s.reconcile t now peer r =
      ((pushKeys t s₂ peer toPush r₂).1.map fun pushed => ⟨pulled, pushed⟩, s₂,
        (pushKeys t s₂ peer toPush r₂).2) := by
  unfold reconcile
  rw [hcmp]
  dsimp only
  rw [hpull]
  dsimp only
  cases hpush : pushKeys t s₂ peer toPush r₂ with
  | mk res r₃ => cases res <;> rfl

/-! ## A far end that answers from an index -/

/-- What was asked of the far end. -/
structure CallLog where
  pulled : List Key := []
  pushed : List SyncEnvelope := []

/-- A far end that answers from `there`, cut into `n` buckets, as `serve_merkle` and
`serve_digest` do from the index their caller may see, answers a pull with arbitrary
envelopes and an update with arbitrary counts, and keeps a log. -/
def indexRemote (there : Index) (n : ℕ) (reply : List Key → List SyncEnvelope)
    (counts : List WireEnvelope → UpdateCounts) : Transport CallLog where
  openSession _ _ log := (.error .transportError, log)
  merkle _ _ _ _ log := (.ok (Merkle.bucketHashes there n), log)
  digest _ _ _ _ buckets log := (.ok (Merkle.inBuckets there n buckets).rows, log)
  pull _ _ keys _ log :=
    (.ok ((reply keys).map SyncEnvelope.modelDump), { log with pulled := log.pulled ++ keys })
  updates _ _ envs _ log :=
    (.ok (counts envs), { log with pushed := log.pushed ++ envs.filterMap WireEnvelope.modelValidate })

theorem indexRemote_answers (there : Index) (n : ℕ) (reply : List Key → List SyncEnvelope)
    (counts : List WireEnvelope → UpdateCounts) (s : ClusterStore) (peer : Peer) (log : CallLog) :
    AnswersFrom (indexRemote there n reply counts) s peer there n log log log :=
  ⟨rfl, fun _ => rfl⟩

@[simp] theorem validPrefix_map_modelDump (envs : List SyncEnvelope) : validPrefix (envs.map SyncEnvelope.modelDump) = envs := by
  induction envs with
  | nil => rfl
  | cons env envs ih => simp [validPrefix, ih]

theorem applyPulled_ok (now : Now) (envs : List SyncEnvelope) (s : ClusterStore) (n : ℕ) :
    ∃ m, (applyPulled now (envs.map SyncEnvelope.modelDump) s n).1 = .ok m := by
  induction envs generalizing s n with
  | nil => exact ⟨n, rfl⟩
  | cons env envs ih =>
    simp only [List.map_cons, applyPulled, modelValidate_modelDump]
    exact ih _ _

theorem sendable_of_offers {s s' : ClusterStore} {now : Now} {envs : List SyncEnvelope}
    (hself : s.NoSelf) (honly : OnlyForeign s s') (hoverlay : s'.overlay = s.overlay.actAll s.nodeId now.mono (envs.map .offer))
    {key : Key} {v : Version} (h : s.indexed key = some v) : ∃ env, s'.buildEnvelopeForKey key = some env := by
  by_cases hkey : key.originId = s.nodeId
  · obtain ⟨env, henv, -⟩ := buildEnvelopeForKey_of_indexed hself h
    have hlocal : s'.buildLocalEnvelope = s.buildLocalEnvelope :=
      honly.proj ClusterStore.buildLocalEnvelope fun _ _ => rfl
    refine ⟨env, ?_⟩
    rw [buildEnvelopeForKey, if_pos hkey] at henv
    rw [buildEnvelopeForKey, honly.nodeId, if_pos hkey, hlocal, henv]
  · rw [indexed_of_foreign hkey] at h
    obtain ⟨m, hm, rfl⟩ := Option.map_eq_some_iff.mp h
    have hholds : s'.overlay.Holds key m.version := by
      rw [hoverlay]
      refine Overlay.actAll_induct (P := fun o : Overlay scheme ℚ => o.Holds key m.version)
        (fun o ho a ha => ?_) ⟨m, hm, le_refl _⟩
      obtain ⟨env, -, rfl⟩ := List.mem_map.mp ha
      exact ho.act (fun _ _ he => by cases he) (fun _ he => by cases he)
    obtain ⟨m', hm', -⟩ := hholds
    exact ⟨m', by rw [buildEnvelopeForKey, honly.nodeId, if_neg hkey]; exact hm'⟩

private theorem map_key_filterMap {f : Key → Option SyncEnvelope} {keys : List Key}
    (h : ∀ key ∈ keys, ∃ env, f key = some env ∧ env.key = key) : (keys.filterMap f).map SyncEnvelope.key = keys := by
  induction keys with
  | nil => rfl
  | cons key keys ih =>
    obtain ⟨env, henv, hkey⟩ := h key (by simp)
    simp [henv, hkey, ih fun key' hmem => h key' (by simp [hmem])]

section Log

variable (there : Index) (n : ℕ) (reply : List Key → List SyncEnvelope)
  (counts : List WireEnvelope → UpdateCounts)

theorem pullKeys_indexRemote (s : ClusterStore) (now : Now) (peer : Peer) (keys : List Key) (log : CallLog) :
    ∃ m, (pullKeys (indexRemote there n reply counts) s now peer keys log).1 = .ok m ∧
      (pullKeys (indexRemote there n reply counts) s now peer keys log).2.2 = { log with pulled := log.pulled ++ keys } := by
  unfold pullKeys
  split
  · rename_i hnil
    exact ⟨0, rfl, by simp [hnil]⟩
  · obtain ⟨m, hm⟩ := applyPulled_ok now (reply keys) s 0
    exact ⟨m, hm, rfl⟩

theorem pushKeys_indexRemote (s : ClusterStore) (peer : Peer) (keys : List Key) (log : CallLog) :
    (pushKeys (indexRemote there n reply counts) s peer keys log).2 =
      { log with pushed := log.pushed ++ keys.filterMap s.buildEnvelopeForKey } := by
  have hvalid : (s.pushEnvelopes keys).filterMap WireEnvelope.modelValidate =
      keys.filterMap s.buildEnvelopeForKey := by
    rw [pushEnvelopes, List.filterMap_filterMap]
    refine List.filterMap_congr fun key _ => ?_
    cases s.buildEnvelopeForKey key <;> rfl
  unfold pushKeys
  dsimp only
  split
  · rename_i hnil
    rw [hnil] at hvalid
    simp [← hvalid]
  · simp only [indexRemote]
    rw [hvalid]

/-- The keys that a reconciliation with a far end of this kind asks for, and those
whose records it sends, are those the comparison selects. -/
theorem reconcile_log (s : ClusterStore) (now : Now) (peer : Peer) (hself : s.NoSelf) :
    Selects (s.comparedIndex now peer) s.config.merkleBuckets there n
      (s.reconcile (indexRemote there n reply counts) now peer {}).2.2.pulled
      ((s.reconcile (indexRemote there n reply counts) now peer {}).2.2.pushed.map SyncEnvelope.key) := by
  obtain ⟨toPull, toPush, log, hcmp, hlog, hsel⟩ :=
    compareWith_of_answers now (indexRemote_answers there n reply counts s peer {})
  rw [ite_self] at hlog
  subst hlog
  let s₁ := s.ensureLocalVersions now
  obtain ⟨m, hok, hlog₂⟩ := pullKeys_indexRemote there n reply counts s₁ now peer toPull {}
  have honly := pullKeys_store (indexRemote there n reply counts) s₁ now peer toPull {}
  have hoverlay := overlay_pullKeys (indexRemote there n reply counts) s₁ now peer toPull {}
  let s₂ := (pullKeys (indexRemote there n reply counts) s₁ now peer toPull {}).2.1
  have hlast : (s.reconcile (indexRemote there n reply counts) now peer {}).2.2 =
      { pulled := toPull, pushed := toPush.filterMap s₂.buildEnvelopeForKey } := by
    have hres : pullKeys (indexRemote there n reply counts) s₁ now peer toPull {} =
        (.ok m, s₂, { pulled := toPull }) := Prod.ext hok (Prod.ext rfl hlog₂)
    rw [reconcile_of_pull hcmp hres]
    exact pushKeys_indexRemote there n reply counts s₂ peer toPush { pulled := toPull }
  have hsend : ∀ key ∈ toPush, ∃ env, s₂.buildEnvelopeForKey key = some env ∧ env.key = key := by
    intro key hkey
    obtain ⟨v, hv⟩ := hsel.lookup_of_push hkey
    rw [lookup_comparedIndex] at hv
    obtain ⟨env, henv⟩ := sendable_of_offers (noSelf_ensureLocalVersions hself now) honly hoverlay
      (Option.ite_none_right_eq_some.mp hv).2
    exact ⟨env, henv, buildEnvelopeForKey_key henv⟩
  rw [hlast]
  dsimp only
  rw [map_key_filterMap hsend]
  exact hsel

end Log

/-- Merkle anti-entropy loses nothing compared with complete digests: a
reconciliation fetches every key that is newer there and sends every key that is
newer here, whatever the two numbers of buckets are; it finds no difference only
between equal indexes; and with one number of buckets it fetches and sends exactly
what a comparison of the complete digests would. -/
theorem reconcile_complete (s : ClusterStore) (now : Now) (peer : Peer) (there : Index) (n : ℕ)
    (reply : List Key → List SyncEnvelope) (counts : List WireEnvelope → UpdateCounts) (hself : s.NoSelf)
    (hcf : Merkle.CollisionFree (s.comparedIndex now peer) s.config.merkleBuckets there n)
    (hhere : Merkle.SepFree (s.comparedIndex now peer)) (hthere : Merkle.SepFree there) :
    (∀ key ∈ Merkle.newerKeys there (s.comparedIndex now peer),
      key ∈ (s.reconcile (indexRemote there n reply counts) now peer {}).2.2.pulled) ∧
    (∀ key ∈ Merkle.newerKeys (s.comparedIndex now peer) there,
      key ∈ (s.reconcile (indexRemote there n reply counts) now peer {}).2.2.pushed.map SyncEnvelope.key) ∧
    (s.differing now peer there n = [] → ∀ key, (s.comparedIndex now peer).lookup key = there.lookup key) ∧
    (s.config.merkleBuckets = n → ∀ key, (key ∈ (s.reconcile (indexRemote there n reply counts) now peer {}).2.2.pulled ↔
        key ∈ Merkle.newerKeys there (s.comparedIndex now peer)) ∧
      (key ∈ (s.reconcile (indexRemote there n reply counts) now peer {}).2.2.pushed.map SyncEnvelope.key ↔
        key ∈ Merkle.newerKeys (s.comparedIndex now peer) there)) := by
  have hsel := reconcile_log there n reply counts s now peer hself
  refine ⟨fun key hkey => hsel.pull_of_newer hcf hhere hthere hkey,
    fun key hkey => hsel.push_of_newer hcf hhere hthere hkey,
    fun hnone key => Merkle.lookup_eq_of_no_differing hcf hhere hthere hnone key, ?_⟩
  intro hn key
  subst hn
  exact ⟨⟨hsel.newer_of_pull, hsel.pull_of_newer hcf hhere hthere⟩,
    ⟨hsel.newer_of_push, hsel.push_of_newer hcf hhere hthere⟩⟩

/-- A record known here in an older version than there. -/
def behindStore : ClusterStore where
  state := { nodeId := "A" }
  config := { merkleBuckets := 2 }
  foreign := ⟨[{ dataset := "d", serviceId := "s", originId := "C", version := ⟨100, "C"⟩ }], by decide⟩

def aheadIndex : Index := ⟨[(⟨"d", "C", "s"⟩, ⟨200, "C"⟩)], by decide⟩

def openPeer : Peer := { nodeId := "B", address := "", namespaces := ["d"], lastSeen := 0 }

theorem reconcile_complete_sample : ⟨"d", "C", "s"⟩ ∈ (behindStore.reconcile
      (indexRemote aheadIndex 3 (fun _ => []) fun _ => ⟨0, 0, 0⟩) ⟨0, 0⟩ openPeer {}).2.2.pulled := by
  have hrows : (behindStore.comparedIndex ⟨0, 0⟩ openPeer).rows =
      [(⟨"d", "C", "s"⟩, ⟨100, "C"⟩)] := by decide
  have hcf : Merkle.CollisionFree (behindStore.comparedIndex ⟨0, 0⟩ openPeer) 2 aheadIndex 3 :=
    Merkle.collisionFree_of_singletons hrows rfl 2 3 (by decide +kernel)
  exact (reconcile_complete behindStore ⟨0, 0⟩ openPeer aheadIndex 3 (fun _ => []) (fun _ => ⟨0, 0, 0⟩)
    (by decide) hcf (Merkle.sepFree_of_singleton hrows (by decide))
    (Merkle.sepFree_of_singleton rfl (by decide))).1 _ (by decide)

end ClusterStore

end AgentProtocol
