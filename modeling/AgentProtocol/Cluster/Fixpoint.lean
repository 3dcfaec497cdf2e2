-- SUMMARY: When one reconciliation brings two nodes' indexes together for good: exactly if each still answers for the copies that the other holds.
import AgentProtocol.Cluster.Pair

/-!
# Fixpoints of anti-entropy

A reconciliation levels every record except one that a node holds of the other and
that the other no longer lists: the other refuses it on the way back and has nothing
to send instead. A node lists a record of its own while it is live and persistent, in
a dataset that exists, or while its tombstone is kept. It does not list session-level
records, which are broadcast all the same, nor records of a deleted dataset, nor
deletions whose tombstone it has collected.
-/

namespace AgentProtocol

open Lib

namespace ClusterStore

/-- The store says something about this record of its own: it is live, persistent
and in an existing dataset, or it has a tombstone. -/
def AnswersFor (s : ClusterStore) (ds sid : String) : Prop :=
  ∃ reg, s.registry = some reg ∧
    (s.state.tombstones.contains (makeKey ds sid) = true ∨
      ∃ entry, reg.getEntry ds sid = some entry ∧ ds ∈ reg.datasets ∧ entry.source ≠ .ephemeral)

/-- Every record of `origin` that `holder` has, in the namespaces `ns`, is one that
`origin` answers for. -/
def AnsweredFor (ns : List String) (origin holder : ClusterStore) : Prop :=
  ∀ env ∈ holder.foreign.rows, env.originId = origin.nodeId → env.dataset ∈ ns →
    origin.AnswersFor env.dataset env.serviceId

def Blank (s : ClusterStore) : Prop := s.foreign.rows = [] ∧ ∀ ds sid, ¬ s.AnswersFor ds sid

theorem mem_allEntries {reg : RegistryService} {ds sid : String} {entry : RegistryEntry}
    (he : reg.getEntry ds sid = some entry) (hds : ds ∈ reg.datasets) : (ds, entry) ∈ allEntries reg := by
  have hsid : entry.serviceId = sid := Table.key_of_get? he
  refine List.mem_flatMap.mpr ⟨ds, RegistryService.mem_listDatasets.mpr hds, ?_⟩
  exact List.mem_map.mpr ⟨entry, RegistryService.mem_listEntries.mpr (hsid ▸ he), rfl⟩

variable {s : ClusterStore}

theorem localVersion_ne_none_iff (h : s.Versioned) (ds sid : String) : s.localVersion ds sid ≠ none ↔ s.AnswersFor ds sid := by
  unfold localVersion AnswersFor Dict.contains
  cases hreg : s.registry with
  | none => simp
  | some reg =>
    cases htomb : s.state.tombstones.lookup (makeKey ds sid) with
    | some tomb => simp
    | none =>
      cases he : reg.getEntry ds sid with
      | none => simp [he]
      | some entry =>
        by_cases hlisted : ds ∈ reg.datasets ∧ entry.source ≠ .ephemeral
        · have hsid : entry.serviceId = sid := Table.key_of_get? he
          have hver : s.state.localVersions.contains (makeKey ds sid) = true := by
            rcases h reg hreg _ (mem_allEntries he hlisted.1) with hsrc | hver | htomb'
            · exact absurd hsrc hlisted.2
            · rwa [hsid] at hver
            · simp [Dict.contains, hsid, htomb] at htomb'
          have hsome : s.state.localVersions.lookup (makeKey ds sid) ≠ none := by
            simpa [Dict.contains, Option.isSome_iff_ne_none] using hver
          simp [he, hlisted, hsome]
        · simp [he, hlisted]

theorem answersFor_ensureLocalVersions {now : Now} {ds sid : String} :
    (s.ensureLocalVersions now).AnswersFor ds sid ↔ s.AnswersFor ds sid := by
  unfold AnswersFor
  rw [ensureLocalVersions_registry, ensureLocalVersions_tombstones]

theorem answersFor_touchPeer {now : Now} {node ds sid : String} :
    (s.touchPeer now node).AnswersFor ds sid ↔ s.AnswersFor ds sid := by
  unfold AnswersFor
  rw [touchPeer_registry, touchPeer_state]

theorem versioned_touchPeer (h : s.Versioned) {now : Now} {node : String} : (s.touchPeer now node).Versioned := by
  unfold Versioned Settled
  rw [touchPeer_registry, touchPeer_state]
  exact h

theorem indexed_touchPeer (s : ClusterStore) (now : Now) (node : String) (key : Key) :
    (s.touchPeer now node).indexed key = s.indexed key := by
  have hrows : (s.touchPeer now node).foreign = s.foreign :=
    congrArg Overlay.records (touchPeer_overlay s now node)
  unfold indexed localVersion
  rw [hrows, touchPeer_nodeId, touchPeer_registry, touchPeer_state]

theorem CopyOf.le_localVersion {src : ClusterStore} {env : SyncEnvelope} (h : CopyOf src env) {v : Version}
    (hv : src.localVersion env.dataset env.serviceId = some v) : env.version ≤ v := by
  unfold localVersion at hv
  split at hv
  · cases hv
  split at hv
  · rename_i tomb htomb
    cases hv
    rcases h.dead tomb htomb with hlt | ⟨heq, -⟩
    · exact hlt.le
    · exact heq.le
  · split at hv
    · cases hv
    obtain ⟨-, hver⟩ := Option.ite_none_right_eq_some.mp hv
    exact h.live v hver

/-! ## The second comparison -/

variable {here there : Index}

theorem Selects.eq_nil {nHere nThere : ℕ} {toPull toPush : List Key} (h : Selects here nHere there nThere toPull toPush)
    (hnone : Merkle.differingBuckets (Merkle.bucketHashes here nHere) (Merkle.bucketHashes there nThere) = []) :
    toPull = [] ∧ toPush = [] := by
  refine ⟨List.eq_nil_iff_forall_not_mem.mpr fun key hkey => ?_,
    List.eq_nil_iff_forall_not_mem.mpr fun key hkey => ?_⟩
  · obtain ⟨v, hv, -⟩ := Merkle.mem_newerKeys.mp ((h.pull key).mp hkey)
    simp [Merkle.lookup_inBuckets, hnone] at hv
  · obtain ⟨v, hv, -⟩ := Merkle.mem_newerKeys.mp ((h.push key).mp hkey)
    simp [Merkle.lookup_inBuckets, hnone] at hv

theorem reconcile_of_no_differing {σ : Type} {t : Transport σ} {peer : Peer}
    {there : Index} {n : ℕ} {r r₁ r₂ : σ} (h : AnswersFrom t s peer there n r r₁ r₂) (now : Now)
    (hnone : s.differing now peer there n = []) : (s.reconcile t now peer r).1 = .ok ⟨0, 0⟩ := by
  obtain ⟨toPull, toPush, r', hcmp, -, hsel⟩ := compareWith_of_answers now h
  obtain ⟨rfl, rfl⟩ := hsel.eq_nil hnone
  have hpull : pullKeys t (s.ensureLocalVersions now) now peer [] r' =
      (.ok 0, s.ensureLocalVersions now, r') := rfl
  rw [reconcile_of_pull hcmp hpull]
  rfl

theorem differingBuckets_eq_nil (n : ℕ) (h : ∀ key, here.lookup key = there.lookup key) :
    Merkle.differingBuckets (Merkle.bucketHashes here n) (Merkle.bucketHashes there n) = [] := by
  refine List.eq_nil_iff_forall_not_mem.mpr fun i hi => ?_
  exact Merkle.mem_differingBuckets.mp hi (Merkle.lookup_bucketHashes_congr n h i)

theorem lookup_eq_none_of_differing {nHere nThere : ℕ}
    (hnone : Merkle.differingBuckets (Merkle.bucketHashes here nHere) (Merkle.bucketHashes there nThere) = [])
    (hthere : ∀ key, there.lookup key = none) (key : Key) : here.lookup key = none := by
  refine Option.eq_none_iff_forall_ne_some.mpr fun v hv => ?_
  have hmem : (key, v) ∈ Merkle.bucket here nHere (Merkle.bucketOf key nHere) :=
    Merkle.mem_bucket.mpr ⟨hv, rfl⟩
  have hempty : Merkle.bucket there nThere (Merkle.bucketOf key nHere) = [] := by
    refine List.eq_nil_iff_forall_not_mem.mpr fun q hq => ?_
    have hq' := (Merkle.mem_bucket.mp hq).1
    rw [hthere] at hq'
    cases hq'
  have hin : Merkle.bucketOf key nHere ∈
      Merkle.differingBuckets (Merkle.bucketHashes here nHere) (Merkle.bucketHashes there nThere) := by
    rw [Merkle.mem_differingBuckets, Merkle.lookup_bucketHashes, Merkle.lookup_bucketHashes, if_pos hempty,
      if_neg (List.ne_nil_of_mem hmem)]
    exact Option.some_ne_none _
  rw [hnone] at hin
  cases hin

end ClusterStore

namespace Pair

open ClusterStore

/-- One reconciliation of `a` with `b`, with every call delivered, is enough: the two
indexes over the shared namespaces are equal after it, and a second one finds no
differing bucket and transfers nothing. -/
structure FixpointAfter (ns : List String) (p : Pair) (now now₂ : Now) : Prop where
  equal : ∀ key, key.dataset ∈ ns →
    ((p.act now .reconcile).a.fullIndex now₂ (sortedSet ns)).1.lookup key =
      ((p.act now .reconcile).b.fullIndex now₂ (sortedSet ns)).1.lookup key
  quiet : ∀ peer, (p.act now .reconcile).a.sessions.get? p.b.nodeId = some peer →
    (p.act now .reconcile).a.differing now₂ peer
        ((p.act now .reconcile).b.shownIndex now₂ p.a.nodeId (sortedSet peer.namespaces) peer.token)
        p.b.config.merkleBuckets = [] ∧
      ((p.act now .reconcile).a.reconcile (inProcess now₂ "") now₂ peer (p.act now .reconcile).b).1 =
        .ok ⟨0, 0⟩

theorem Inv.openLink {ns : List String} {p : Pair} (h : p.Inv ns) {peer : Peer}
    (hns : ∀ x, x ∈ peer.namespaces ↔ x ∈ ns) : OpenLink ns peer p.a p.b :=
  ⟨h.halfA.guard, h.halfB.guard, h.halfA.own.self, h.halfB.own.self, h.halfB.link, hns, h.buckets⟩

theorem Half.indexed_le {ns : List String} {origin holder : ClusterStore} {sent : List SyncEnvelope}
    (h : Half ns origin holder sent) {origin' : ClusterStore} (hevo : Evolves origin origin') {key : Key}
    (hkey : key.originId = origin.nodeId) {v w : Version} (hv : origin'.localVersion key.dataset key.serviceId = some v)
    (hw : (holder.foreign.get? key).map SyncEnvelope.version = some w) : w ≤ v := by
  obtain ⟨env, henv, rfl⟩ := Option.map_eq_some_iff.mp hw
  have hk : env.key = key := Table.key_of_get? henv
  subst hk
  exact ((h.copies env (.inr (Table.get?_eq_some.mp henv).1) hkey).mono hevo).le_localVersion hv

/-- A slot of the holder's overlay for a record of `origin` is listed by `origin` too,
exactly if `origin` answers for what the holder has. -/
theorem answeredFor_iff (ns : List String) {origin origin' : ClusterStore} (holder : ClusterStore)
    (hversioned : origin'.Versioned) (hanswers : ∀ ds sid, origin'.AnswersFor ds sid ↔ origin.AnswersFor ds sid) :
    AnsweredFor ns origin holder ↔ ∀ key, key.dataset ∈ ns → key.originId = origin.nodeId →
        (holder.foreign.get? key).map SyncEnvelope.version ≠ none → origin'.localVersion key.dataset key.serviceId ≠ none := by
  have hlisted : ∀ ds sid, origin'.localVersion ds sid ≠ none ↔ origin.AnswersFor ds sid :=
    fun ds sid => (localVersion_ne_none_iff hversioned ds sid).trans (hanswers ds sid)
  refine ⟨fun h key hns hkey hheld => ?_, fun h env henv horigin hns => ?_⟩
  · obtain ⟨w, hw⟩ := Option.ne_none_iff_exists'.mp hheld
    obtain ⟨env, henv, -⟩ := Option.map_eq_some_iff.mp hw
    have hk : env.key = key := Table.key_of_get? henv
    subst hk
    exact (hlisted _ _).mpr (h env (Table.get?_eq_some.mp henv).1 hkey hns)
  · refine (hlisted _ _).mp (h env.key hns horigin ?_)
    have hget : holder.foreign.get? env.key = some env := Table.get?_eq_some.mpr ⟨henv, rfl⟩
    simp [hget]

section Reconciled

variable {ns : List String} {p : Pair} {peer : Peer} {now now₂ : Now} {toPull toPush : List Key}
  {a' b' : ClusterStore}

theorem versionedA (hex : Exchanged p.a p.b now a' b' toPull toPush) : a'.Versioned := by
  have hsame : a'.Versioned = (p.a.ensureLocalVersions now).Versioned :=
    hex.onlyA.proj Versioned fun _ _ => rfl
  rw [hsame]
  exact versioned_ensureLocalVersions p.a now

theorem versionedB (hex : Exchanged p.a p.b now a' b' toPull toPush) : b'.Versioned := by
  have hsame : b'.Versioned = (p.b.answering now p.a.nodeId).Versioned :=
    hex.onlyB.proj Versioned fun _ _ => rfl
  rw [hsame]
  exact versioned_ensureLocalVersions _ now

theorem confB (hex : Exchanged p.a p.b now a' b' toPull toPush) : b'.config = p.b.config :=
  ((keeping_answering p.b now p.a.nodeId).trans hex.onlyB.keeping).conf

variable (hinv : p.Inv ns) (hns : ∀ x, x ∈ peer.namespaces ↔ x ∈ ns)
  (hhash : HashFaithful peer now p.a p.b)
  (hsel : Selects (p.a.comparedIndex now peer) p.a.config.merkleBuckets
    (p.b.shownIndex now p.a.nodeId (sortedSet peer.namespaces) peer.token) p.b.config.merkleBuckets
    toPull toPush)
  (hex : Exchanged p.a p.b now a' b' toPull toPush)

include hinv hns hhash hsel hex

variable {key : Key}

theorem level_third (hkey : key.dataset ∈ ns) (ha : key.originId ≠ p.a.nodeId)
    (hb : key.originId ≠ p.b.nodeId) : a'.indexed key = b'.indexed key := by
  rw [indexedA (hinv.openLink hns) hhash hsel hex hkey, indexedB (hinv.openLink hns) hhash hsel hex hkey,
    if_neg ha, if_neg hb, Lww.latest_comm]

theorem level_ownA (hkey : key.dataset ∈ ns) (ha : key.originId = p.a.nodeId) : a'.indexed key = b'.indexed key ↔
      ((p.b.foreign.get? key).map SyncEnvelope.version ≠ none →
        (p.a.ensureLocalVersions now).localVersion key.dataset key.serviceId ≠ none) := by
  have hb : key.originId ≠ p.b.nodeId := fun h => hinv.distinct (ha.symm.trans h)
  have hx : (p.a.ensureLocalVersions now).indexed key =
      (p.a.ensureLocalVersions now).localVersion key.dataset key.serviceId :=
    indexed_of_own (noSelf_ensureLocalVersions hinv.halfA.own.self now) (by simpa using ha)
  have hrows : (p.b.answering now p.a.nodeId).foreign = p.b.foreign :=
    congrArg Overlay.records (answering_overlay p.b now p.a.nodeId)
  have hy : (p.b.answering now p.a.nodeId).indexed key =
      (p.b.foreign.get? key).map SyncEnvelope.version := by
    rw [indexed_of_foreign (by simpa [answering] using hb), hrows]
  rw [indexedA (hinv.openLink hns) hhash hsel hex hkey, indexedB (hinv.openLink hns) hhash hsel hex hkey,
    if_pos ha, if_neg hb, hx, hy, eq_comm, Lww.latest_comm]
  exact Lww.latest_eq_left_iff_of_le fun v w hv hw =>
    hinv.halfA.indexed_le (evolves_ensureLocalVersions p.a now) ha hv hw

theorem level_ownB (hkey : key.dataset ∈ ns) (hb : key.originId = p.b.nodeId) : a'.indexed key = b'.indexed key ↔
      ((p.a.foreign.get? key).map SyncEnvelope.version ≠ none →
        (p.b.answering now p.a.nodeId).localVersion key.dataset key.serviceId ≠ none) := by
  have ha : key.originId ≠ p.a.nodeId := fun h => hinv.distinct (h.symm.trans hb)
  have hy : (p.b.answering now p.a.nodeId).indexed key =
      (p.b.answering now p.a.nodeId).localVersion key.dataset key.serviceId :=
    indexed_of_own (noSelf_answering hinv.halfB.own.self now p.a.nodeId) (by simpa [answering] using hb)
  have hx : (p.a.ensureLocalVersions now).indexed key =
      (p.a.foreign.get? key).map SyncEnvelope.version := by
    rw [indexed_of_foreign (by simpa using ha), ensureLocalVersions_foreign]
  have hevo : Evolves p.b (p.b.answering now p.a.nodeId) :=
    (Evolves.of_state (touchPeer_state p.b now p.a.nodeId)).trans (evolves_ensureLocalVersions _ now)
  rw [indexedA (hinv.openLink hns) hhash hsel hex hkey, indexedB (hinv.openLink hns) hhash hsel hex hkey,
    if_neg ha, if_pos hb, hx, hy, Lww.latest_comm]
  exact Lww.latest_eq_left_iff_of_le fun v w hv hw => hinv.halfB.indexed_le hevo hb hv hw

theorem level_iff : (∀ key, key.dataset ∈ ns → a'.indexed key = b'.indexed key) ↔
      AnsweredFor ns p.a p.b ∧ AnsweredFor ns p.b p.a := by
  have hA := answeredFor_iff ns p.b (versioned_ensureLocalVersions p.a now)
    fun ds sid => answersFor_ensureLocalVersions
  have hB := answeredFor_iff ns p.a
    (versioned_ensureLocalVersions (p.b.touchPeer now p.a.nodeId) now)
    fun ds sid => answersFor_ensureLocalVersions.trans answersFor_touchPeer
  rw [hA, hB]
  refine ⟨fun h => ⟨fun key hkey ha => ?_, fun key hkey hb => ?_⟩, fun ⟨hansA, hansB⟩ key hkey => ?_⟩
  · exact (level_ownA hinv hns hhash hsel hex hkey ha).mp (h key hkey)
  · exact (level_ownB hinv hns hhash hsel hex hkey hb).mp (h key hkey)
  · by_cases ha : key.originId = p.a.nodeId
    · exact (level_ownA hinv hns hhash hsel hex hkey ha).mpr (hansA key hkey ha)
    · by_cases hb : key.originId = p.b.nodeId
      · exact (level_ownB hinv hns hhash hsel hex hkey hb).mpr (hansB key hkey hb)
      · exact level_third hinv hns hhash hsel hex hkey ha hb

omit hhash hsel

omit hinv hns in
theorem lookup_compared_again (key : Key) : (a'.comparedIndex now₂ peer).lookup key =
      if inScope peer.namespaces key.dataset = true then a'.indexed key else none := by
  rw [lookup_comparedIndex, ensureLocalVersions_of_versioned (versionedA hex)]

theorem lookup_shown_again (key : Key) : (b'.shownIndex now₂ p.a.nodeId (sortedSet peer.namespaces) peer.token).lookup key =
      if key.dataset ∈ ns then b'.indexed key else none := by
  have hafter : Half ns b' a' p.sent := (inv_exchange hinv hex).halfB
  have hlink : b'.Linked ns p.a.nodeId := hex.nodeA ▸ hafter.link
  have hanswering : (b'.answering now₂ p.a.nodeId).indexed key = b'.indexed key := by
    rw [answering, ensureLocalVersions_of_versioned (versioned_touchPeer (versionedB hex)), indexed_touchPeer]
  rw [lookup_shownIndex hafter.guard.auth hlink now₂ (by simpa using hns), hanswering]

theorem differing_of_level (hsome : ns ≠ []) (hlevel : ∀ key, key.dataset ∈ ns → a'.indexed key = b'.indexed key) :
    a'.differing now₂ peer (b'.shownIndex now₂ p.a.nodeId (sortedSet peer.namespaces) peer.token)
      p.b.config.merkleBuckets = [] := by
  have hconf : a'.config.merkleBuckets = p.b.config.merkleBuckets :=
    (inv_exchange hinv hex).buckets.trans (congrArg _ (confB hex))
  unfold differing
  rw [hconf]
  refine differingBuckets_eq_nil _ fun key => ?_
  have hpeer : peer.namespaces ≠ [] := by
    obtain ⟨x, hx⟩ := List.exists_mem_of_ne_nil ns hsome
    exact List.ne_nil_of_mem ((hns x).mpr hx)
  rw [lookup_compared_again hex, lookup_shown_again hinv hns hex]
  by_cases hkey : key.dataset ∈ ns
  · have hscope : inScope peer.namespaces key.dataset = true := by simp [inScope, hns, hkey]
    rw [if_pos hscope, if_pos hkey, hlevel key hkey]
  · have hscope : ¬ inScope peer.namespaces key.dataset = true := by simp [inScope, hpeer, hns, hkey]
    rw [if_neg hscope, if_neg hkey]

include hsel

theorem foreign_of_unshared (hnone : ns = []) : a'.foreign = p.a.foreign := by
  have hpull : toPull = [] := by
    refine List.eq_nil_iff_forall_not_mem.mpr fun key hkey => ?_
    obtain ⟨v, hv⟩ := hsel.lookup_of_pull hkey
    rw [lookup_shownIndex hinv.halfB.guard.auth hinv.halfB.link now (by simpa using hns)] at hv
    simp [hnone] at hv
  have hoverlay := hex.overlayA
  rw [hpull] at hoverlay
  exact congrArg Overlay.records hoverlay

theorem differing_iff_blank (hnone : ns = []) :
    a'.differing now₂ peer (b'.shownIndex now₂ p.a.nodeId (sortedSet peer.namespaces) peer.token)
      p.b.config.merkleBuckets = [] ↔ p.a.Blank := by
  have hforeign := foreign_of_unshared hinv hns hsel hex hnone
  have hpeer : peer.namespaces = [] :=
    List.eq_nil_iff_forall_not_mem.mpr fun x hx => by simpa [hnone] using (hns x).mp hx
  have hhere : ∀ key, (a'.comparedIndex now₂ peer).lookup key = a'.indexed key := by
    intro key
    rw [lookup_compared_again hex, if_pos (by simp [inScope, hpeer])]
  have hthere : ∀ key, (b'.shownIndex now₂ p.a.nodeId (sortedSet peer.namespaces) peer.token).lookup key =
      none := by
    intro key
    rw [lookup_shown_again hinv hns hex, if_neg (by simp [hnone])]
  have hanswers : ∀ ds sid, a'.localVersion ds sid ≠ none ↔ p.a.AnswersFor ds sid := by
    intro ds sid
    rw [hex.onlyA.localVersion]
    exact (localVersion_ne_none_iff (versioned_ensureLocalVersions p.a now) ds sid).trans
      answersFor_ensureLocalVersions
  refine ⟨fun hdiff => ⟨?_, fun ds sid hans => ?_⟩, fun hblank => ?_⟩
  · refine List.eq_nil_iff_forall_not_mem.mpr fun env henv => ?_
    have hindexed := (hhere env.key).symm.trans (lookup_eq_none_of_differing hdiff hthere env.key)
    have hget : a'.foreign.get? env.key = some env := by
      rw [hforeign]
      exact Table.get?_eq_some.mpr ⟨henv, rfl⟩
    simp [indexed, hget] at hindexed
  · have hindexed := (hhere ⟨ds, p.a.nodeId, sid⟩).symm.trans (lookup_eq_none_of_differing hdiff hthere _)
    rw [indexed_of_own (hex.noSelfA hinv.halfA.own.self) hex.nodeA.symm] at hindexed
    exact (hanswers ds sid).mpr hans hindexed
  · have hconf : a'.config.merkleBuckets = p.b.config.merkleBuckets :=
      (inv_exchange hinv hex).buckets.trans (congrArg _ (confB hex))
    unfold differing
    rw [hconf]
    refine differingBuckets_eq_nil _ fun key => ?_
    have hslot : a'.foreign.get? key = none := by
      rw [hforeign]
      exact Table.get?_eq_none.mpr (by simp [hblank.1])
    have hlocal : a'.localVersion key.dataset key.serviceId = none := by
      by_contra hne
      exact hblank.2 _ _ ((hanswers _ _).mp hne)
    rw [hhere, hthere]
    simp [indexed, hslot, hlocal]

end Reconciled

/-- Two nodes of an open cluster that start without versions, tombstones and foreign
records, and then take any steps: one reconciliation is enough exactly if each node
still answers for the copies that the other holds, and `a` has nothing to list if no
namespace is shared. -/
theorem reconcile_fixpoint_iff (ns : List String) (p₀ : Pair) (hinit : p₀.Initial ns) (es : List Event)
    (now now₂ : Now) (hhash : ∀ peer, (run step p₀ es).a.sessions.get? (run step p₀ es).b.nodeId = some peer →
      HashFaithful peer now (run step p₀ es).a (run step p₀ es).b) : (run step p₀ es).FixpointAfter ns now now₂ ↔
      AnsweredFor ns (run step p₀ es).a (run step p₀ es).b ∧ AnsweredFor ns (run step p₀ es).b (run step p₀ es).a ∧
      (ns = [] → (run step p₀ es).a.Blank) := by
  have hinv : (run step p₀ es).Inv ns := inv_run hinit.inv es
  generalize run step p₀ es = p at hhash hinv ⊢
  obtain ⟨peer, hpeer, hns⟩ := hinv.halfA.link
  obtain ⟨toPull, toPush, counts, a', b', hrec, hsel, hex⟩ :=
    reconcile_inProcess hinv.halfB.guard.auth hinv.halfB.link hns now ""
  have hact : p.act now .reconcile = { p with a := a', b := b' } := by
    simp only [Pair.act, hpeer, hrec]
  have hfull : ∀ (s : ClusterStore), s.Versioned → ∀ key, key.dataset ∈ ns →
      (s.fullIndex now₂ (sortedSet ns)).1.lookup key = s.indexed key := by
    intro s hs key hkey
    have hscope : inScope (sortedSet ns) key.dataset = true := by simp [inScope, hkey]
    rw [fullIndex, ensureLocalVersions_of_versioned hs, lookup_versionedIndex, if_pos hscope]
  have hequal : (∀ key, key.dataset ∈ ns → (a'.fullIndex now₂ (sortedSet ns)).1.lookup key =
      (b'.fullIndex now₂ (sortedSet ns)).1.lookup key) ↔
      AnsweredFor ns p.a p.b ∧ AnsweredFor ns p.b p.a := by
    rw [← level_iff hinv hns (hhash peer hpeer) hsel hex]
    refine forall₂_congr fun key hkey => ?_
    rw [hfull a' (versionedA hex) key hkey, hfull b' (versionedB hex) key hkey]
  have hpeer' : a'.sessions.get? p.b.nodeId = some peer := by
    rw [hex.onlyA.proj sessions fun _ _ => rfl, ensureLocalVersions_sessions]
    exact hpeer
  refine ⟨?_, ?_⟩
  · rintro ⟨hindexes, hquiet⟩
    rw [hact] at hindexes hquiet
    obtain ⟨hansA, hansB⟩ := hequal.mp hindexes
    refine ⟨hansA, hansB, fun hnone => ?_⟩
    exact (differing_iff_blank hinv hns hsel hex hnone).mp (hquiet peer hpeer').1
  · rintro ⟨hansA, hansB, hblank⟩
    have hdiff : a'.differing now₂ peer
        (b'.shownIndex now₂ p.a.nodeId (sortedSet peer.namespaces) peer.token)
        p.b.config.merkleBuckets = [] := by
      by_cases hnone : ns = []
      · exact (differing_iff_blank hinv hns hsel hex hnone).mpr (hblank hnone)
      · refine differing_of_level hinv hns hex hnone ?_
        exact (level_iff hinv hns (hhash peer hpeer) hsel hex).mpr ⟨hansA, hansB⟩
    refine ⟨by rw [hact]; exact hequal.mpr ⟨hansA, hansB⟩, ?_⟩
    rw [hact]
    intro peer' hget
    obtain rfl := Option.some.inj (hpeer'.symm.trans hget)
    refine ⟨hdiff, ?_⟩
    have hanswers := inProcess_answers now₂ "" a' b' peer
    rw [hex.nodeA, confB hex] at hanswers
    exact reconcile_of_no_differing hanswers now₂ hdiff

/-- A node without records, with a session for the namespace `"d"`. -/
def blankNode (config : ClusterConfig) (node other : String) : ClusterStore where
  state := { nodeId := node }
  config := config
  sessions := ⟨[{ nodeId := other, address := "", namespaces := ["d"], lastSeen := 0 }], by simp⟩

def blankPair (config : ClusterConfig) : Pair where
  a := blankNode config "A" "B"
  b := blankNode config "B" "A"

theorem start_blankNode (config : ClusterConfig) (node : String) (other : ClusterStore) :
    Start ["d"] (blankNode config node other.nodeId) other := by
  refine ⟨⟨rfl, fun _ => rfl⟩, ?_, rfl, rfl, rfl⟩
  refine ⟨{ nodeId := other.nodeId, address := "", namespaces := ["d"], lastSeen := 0 }, ?_, fun _ => Iff.rfl⟩
  exact Table.get?_eq_some.mpr ⟨List.mem_singleton.mpr rfl, rfl⟩

theorem initial_blankPair (config : ClusterConfig) : (blankPair config).Initial ["d"] where
  startA := start_blankNode config "A" (blankPair config).b
  startB := start_blankNode config "B" (blankPair config).a
  distinct := show "A" ≠ "B" by decide
  buckets := rfl
  sent := rfl

def twoBuckets : ClusterConfig := { merkleBuckets := 2 }

def someEntry (sid : String) : RegistryEntry where
  serviceId := sid
  type := .generic
  source := .apiConfig
  data := ""

/-- Both nodes register a service, and both broadcasts are lost. -/
def lostWrites : List Event :=
  [⟨.a, ⟨0, 100⟩, .write (.register "d" (someEntry "s")) false⟩,
    ⟨.b, ⟨0, 100⟩, .write (.register "d" (someEntry "t")) false⟩]

theorem reconcile_fixpoint_sample : (run step (blankPair twoBuckets) lostWrites).FixpointAfter ["d"] ⟨1, 1100⟩ ⟨2, 2100⟩ := by
  refine (reconcile_fixpoint_iff ["d"] (blankPair twoBuckets) (initial_blankPair twoBuckets) lostWrites _ _ fun peer hpeer => ?_).mpr
    ⟨?_, ?_, fun hnone => by cases hnone⟩
  · obtain rfl : peer = { nodeId := "B", address := "", namespaces := ["d"], lastSeen := 0 } :=
      (Option.some.inj hpeer).symm
    have hhere : ((run step (blankPair twoBuckets) lostWrites).a.comparedIndex ⟨1, 1100⟩
        { nodeId := "B", address := "", namespaces := ["d"], lastSeen := 0 }).rows =
        [(⟨"d", "A", "s"⟩, ⟨100, "A"⟩)] := by decide
    have hthere : ((run step (blankPair twoBuckets) lostWrites).b.shownIndex ⟨1, 1100⟩ "A" (sortedSet ["d"]) none).rows =
        [(⟨"d", "B", "t"⟩, ⟨100, "B"⟩)] := by decide
    exact ⟨Merkle.collisionFree_of_singletons hhere hthere _ _ (by decide +kernel),
      Merkle.sepFree_of_singleton hhere (by decide), Merkle.sepFree_of_singleton hthere (by decide)⟩
  · intro env henv
    cases henv
  · intro env henv
    cases henv

/-- `a` registers a service, which reaches `b`, and then deletes the dataset: `b` keeps
the record, and `a` has nothing left that could replace it. -/
theorem reconcile_not_fixpoint : ¬ ∀ (ns : List String) (p₀ : Pair), p₀.Initial ns → ∀ (es : List Event) (now now₂ : Now),
      (run step p₀ es).FixpointAfter ns now now₂ := by
  intro h
  have hequal := (h ["d"] (blankPair twoBuckets) (initial_blankPair twoBuckets)
    [⟨.a, ⟨0, 100⟩, .write (.register "d" (someEntry "s")) true⟩,
      ⟨.a, ⟨1, 1100⟩, .write (.deleteDataset "d") true⟩] ⟨2, 2100⟩ ⟨3, 3100⟩).equal ⟨"d", "A", "s"⟩ (by decide)
  revert hequal
  decide +kernel

end Pair

end AgentProtocol
