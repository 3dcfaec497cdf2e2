-- SUMMARY: Which records leave for a peer: only those in its namespaces, unless it accepted none, which reconciliation takes as no restriction.
import AgentProtocol.Cluster.AntiEntropy

/-!
# Outbound scoping

A peer is sent the records of the namespaces that its session negotiated. A broadcast looks the
dataset up in them. A reconciliation hands them to the index, where no namespaces mean no
restriction, so a peer that accepted none is sent every record.
-/

namespace AgentProtocol

open Lib

namespace ClusterStore

/-! ## What is sent -/

abbrev Sent := List (String × List WireEnvelope)

/-- The transport with a log of the envelopes that it is handed. -/
def recording {σ : Type} (t : Transport σ) : Transport (σ × Sent) where
  openSession address body r := let (res, r') := t.openSession address body r.1; (res, r', r.2)
  merkle address fromNode ns token r := let (res, r') := t.merkle address fromNode ns token r.1; (res, r', r.2)
  digest address fromNode ns token buckets r :=
    let (res, r') := t.digest address fromNode ns token buckets r.1
    (res, r', r.2)
  pull address fromNode keys token r := let (res, r') := t.pull address fromNode keys token r.1; (res, r', r.2)
  updates address fromNode envs token r :=
    let (res, r') := t.updates address fromNode envs token r.1
    (res, r', r.2 ++ [(address, envs)])

/-- `bucket_of` divides by the number of buckets: without buckets the first key raises. -/
def dividesByZero (s : ClusterStore) (now : Now) (peer : Peer) : Bool :=
  s.config.merkleBuckets = 0 && (s.comparedIndex now peer).rows ≠ []

/-- What `reconcile` sends, against any far end in any state. -/
def reconcileSent {σ : Type} (t : Transport σ) (s : ClusterStore) (now : Now) (peer : Peer) (r : σ) : Sent :=
  if s.dividesByZero now peer then [] else (s.reconcile (recording t) now peer (r, [])).2.2.2

/-- What `_broadcast` sends, with the session that each call is for. -/
def broadcastSent (s : ClusterStore) (env : SyncEnvelope) : List (Peer × WireEnvelope) :=
  (s.broadcastTargets env).map fun p => (p, env.modelDump)

def InNamespaces (peer : Peer) (raw : WireEnvelope) : Prop :=
  ∀ env, raw.modelValidate = some env → env.dataset ∈ peer.namespaces

/-- Whatever the far end answers, the peer is sent nothing outside its namespaces. -/
structure OutboundScoped (s : ClusterStore) (now : Now) (peer : Peer) : Prop where
  reconciled : ∀ {σ : Type} (t : Transport σ) (r : σ) (address : String) (envs : List WireEnvelope) (raw : WireEnvelope),
    (address, envs) ∈ reconcileSent t s now peer r → raw ∈ envs → InNamespaces peer raw
  broadcast : ∀ (env : SyncEnvelope) (raw : WireEnvelope), (peer, raw) ∈ s.broadcastSent env → InNamespaces peer raw

/-- No record of the store can be sent: none that is indexed has an envelope. -/
def NothingToSend (s : ClusterStore) (now : Now) : Prop :=
  ∀ key v, (s.fullIndex now []).1.lookup key = some v → (s.fullIndex now []).2.buildEnvelopeForKey key = none

/-! ## What a reconciliation pushes -/

section Pushed

variable {σ : Type} {t : Transport σ} {s s' : ClusterStore} {now : Now} {peer : Peer} {r r' : σ} {toPull toPush : List Key}

theorem indexed_of_toPush (h : compareWith t s now peer r = (.ok (toPull, toPush), s', r')) {key : Key} (hkey : key ∈ toPush) :
    ∃ v, (s.comparedIndex now peer).lookup key = some v := by
  unfold compareWith at h
  dsimp only at h
  split at h
  · cases (Prod.mk.inj h).1
  split at h
  · obtain ⟨-, rfl⟩ := Prod.mk.inj (Except.ok.inj (Prod.mk.inj h).1)
    cases hkey
  · split at h
    · cases (Prod.mk.inj h).1
    obtain ⟨-, rfl⟩ := Prod.mk.inj (Except.ok.inj (Prod.mk.inj h).1)
    obtain ⟨v, hv, -⟩ := Merkle.mem_newerKeys.mp hkey
    rw [Merkle.lookup_inBuckets] at hv
    exact ⟨v, (Option.ite_none_right_eq_some.mp hv).2⟩

theorem dataset_of_pushEnvelopes {raw : WireEnvelope} {env : SyncEnvelope} (h : raw ∈ s.pushEnvelopes toPush)
    (henv : raw.modelValidate = some env) : ∃ key ∈ toPush, env.dataset = key.dataset := by
  obtain ⟨key, hkey, hraw⟩ := List.mem_filterMap.mp h
  obtain ⟨env', henv', rfl⟩ := Option.map_eq_some_iff.mp hraw
  obtain rfl := Option.some.inj henv
  exact ⟨key, hkey, by rw [← buildEnvelopeForKey_key henv']; rfl⟩

end Pushed

section Log

variable {σ : Type} (t : Transport σ) (s : ClusterStore) (now : Now) (peer : Peer) (r : σ × Sent)

theorem compareWith_log : (compareWith (recording t) s now peer r).2.2.2 = r.2 := by
  unfold compareWith
  dsimp only [recording]
  split
  · rename_i heq
    rw [← (Prod.mk.inj heq).2]
  · rename_i heq
    split
    · rw [← (Prod.mk.inj heq).2]
    · split
      · rename_i heq'
        rw [← (Prod.mk.inj heq').2, ← (Prod.mk.inj heq).2]
      · rename_i heq'
        rw [← (Prod.mk.inj heq').2, ← (Prod.mk.inj heq).2]

theorem pullKeys_log (keys : List Key) : (pullKeys (recording t) s now peer keys r).2.2.2 = r.2 := by
  unfold pullKeys
  dsimp only [recording]
  split
  · rfl
  · split
    · rename_i heq
      rw [← (Prod.mk.inj heq).2]
    · rename_i heq
      rw [← (Prod.mk.inj heq).2]

theorem pushKeys_log (keys : List Key) : (pushKeys (recording t) s peer keys r).2.2 =
      r.2 ++ if s.pushEnvelopes keys = [] then [] else [(peer.address, s.pushEnvelopes keys)] := by
  unfold pushKeys
  dsimp only [recording]
  split
  · exact (List.append_nil r.2).symm
  · split
    · rename_i heq
      rw [← (Prod.mk.inj heq).2]
    · rename_i heq
      rw [← (Prod.mk.inj heq).2]

theorem pushed_of_sent {t : Transport σ} {s : ClusterStore} {now : Now} {peer : Peer} {r : σ × Sent} {address : String}
    {envs : List WireEnvelope} (hempty : r.2 = []) (h : (address, envs) ∈ (s.reconcile (recording t) now peer r).2.2.2) :
    ∃ (toPull toPush : List Key) (s₁ s₂ : ClusterStore) (r₁ : σ × Sent),
      compareWith (recording t) s now peer r = (.ok (toPull, toPush), s₁, r₁) ∧ OnlyForeign (s.ensureLocalVersions now) s₂ ∧
        envs = s₂.pushEnvelopes toPush := by
  have hcompare := compareWith_log t s now peer r
  unfold reconcile at h
  split at h
  · rename_i heq
    rw [heq, hempty] at hcompare
    rw [hcompare] at h
    cases h
  · rename_i toPull toPush s₁ r₁ heq
    rw [heq, hempty] at hcompare
    have hpull := pullKeys_log t s₁ now peer r₁ toPull
    split at h
    · rename_i heq'
      rw [heq', hcompare] at hpull
      rw [hpull] at h
      cases h
    · rename_i pulled s₂ r₂ heq'
      rw [heq', hcompare] at hpull
      have hpush := pushKeys_log t s₂ peer r₂ toPush
      rw [hpull, List.nil_append] at hpush
      have hstore : s₁ = s.ensureLocalVersions now := by
        have hfirst := compareWith_store (recording t) s now peer r
        rwa [heq] at hfirst
      have honly : OnlyForeign (s.ensureLocalVersions now) s₂ := by
        have hsecond := pullKeys_store (recording t) s₁ now peer toPull r₁
        rwa [heq', hstore] at hsecond
      refine ⟨toPull, toPush, s₁, s₂, r₁, heq, honly, ?_⟩
      have hsent : (address, envs) ∈ (pushKeys (recording t) s₂ peer toPush r₂).2.2 := by
        split at h
        · rename_i heq''
          rw [heq'']
          exact h
        · rename_i heq''
          rw [heq'']
          exact h
      rw [hpush] at hsent
      split at hsent
      · cases hsent
      exact (Prod.mk.inj (List.mem_singleton.mp hsent)).2

end Log

/-! ## A far end that knows nothing -/

/-- A far end with an empty index, which accepts every update. -/
def blankRemote : Transport Unit where
  openSession _ _ r := (.error .transportError, r)
  merkle _ _ _ _ r := (.ok ∅, r)
  digest _ _ _ _ _ r := (.ok [], r)
  pull _ _ _ _ r := (.ok [], r)
  updates _ _ envs _ r := (.ok ⟨envs.length, envs.length, 0⟩, r)

variable {env : SyncEnvelope} {v : Version} {key : Key}

theorem sent_to_blank {s : ClusterStore} {now : Now} {peer : Peer} (hbuckets : s.config.merkleBuckets ≠ 0)
    (hkey : (s.comparedIndex now peer).lookup key = some v)
    (henv : (s.ensureLocalVersions now).buildEnvelopeForKey key = some env) :
    ∃ envs, (peer.address, envs) ∈ reconcileSent blankRemote s now peer () ∧ env.modelDump ∈ envs := by
  have hanswers : AnswersFrom (recording blankRemote) s peer ∅ s.config.merkleBuckets ((), []) ((), []) ((), []) :=
    ⟨rfl, fun _ => rfl⟩
  obtain ⟨toPull, toPush, r', hcompare, hr', hselects⟩ := compareWith_of_answers now hanswers
  rw [ite_self] at hr'
  subst hr'
  -- nothing is pulled, since the far end has no key
  have hnone : toPull = [] := by
    refine List.eq_nil_iff_forall_not_mem.mpr fun key' hkey' => ?_
    obtain ⟨v', hv'⟩ := hselects.lookup_of_pull hkey'
    cases hv'
  subst hnone
  have hpull : pullKeys (recording blankRemote) (s.ensureLocalVersions now) now peer [] ((), []) =
      (.ok 0, s.ensureLocalVersions now, ((), [])) := rfl
  have hpushed : key ∈ toPush := by
    rw [hselects.push, Merkle.mem_newerKeys]
    refine ⟨v, ?_, by rw [Merkle.lookup_inBuckets]; simp [versionNewer]⟩
    have hrow : (key, v) ∈ Merkle.bucket (s.comparedIndex now peer) s.config.merkleBuckets
        (Merkle.bucketOf key s.config.merkleBuckets) :=
      Merkle.mem_bucket.mpr ⟨hkey, rfl⟩
    rw [Merkle.lookup_inBuckets, if_pos, hkey]
    rw [Merkle.mem_differingBuckets, Merkle.lookup_bucketHashes, Merkle.lookup_bucketHashes, if_neg (List.ne_nil_of_mem hrow)]
    rintro ⟨⟩
  have hmem : env.modelDump ∈ (s.ensureLocalVersions now).pushEnvelopes toPush :=
    List.mem_filterMap.mpr ⟨key, hpushed, by rw [henv]; rfl⟩
  refine ⟨_, ?_, hmem⟩
  have hdivides : s.dividesByZero now peer = false := by simp [dividesByZero, hbuckets]
  rw [reconcileSent, hdivides, if_neg Bool.false_ne_true, reconcile_of_pull hcompare hpull]
  dsimp only
  rw [pushKeys_log, if_neg (List.ne_nil_of_mem hmem)]
  exact List.mem_singleton.mpr rfl

/-! ## Scoping -/

variable {raw : WireEnvelope} {envs : List WireEnvelope} {address : String}

theorem reconciled_scoped {s : ClusterStore} {now : Now} {peer : Peer} (h : peer.namespaces ≠ []) {σ : Type} (t : Transport σ)
    (r : σ) (hsent : (address, envs) ∈ reconcileSent t s now peer r) (hraw : raw ∈ envs) : InNamespaces peer raw := by
  intro env henv
  unfold reconcileSent at hsent
  split at hsent
  · cases hsent
  obtain ⟨toPull, toPush, s₁, s₂, r₁, hcompare, -, rfl⟩ := pushed_of_sent rfl hsent
  obtain ⟨key, hkey, hdataset⟩ := dataset_of_pushEnvelopes hraw henv
  obtain ⟨v, hv⟩ := indexed_of_toPush hcompare hkey
  rw [lookup_comparedIndex] at hv
  rw [hdataset]
  simpa [inScope, h] using (Option.ite_none_right_eq_some.mp hv).1

theorem broadcast_scoped {s : ClusterStore} {peer : Peer} (h : (peer, raw) ∈ s.broadcastSent env) : InNamespaces peer raw := by
  intro env' henv'
  obtain ⟨p, hp, heq⟩ := List.mem_map.mp h
  obtain ⟨rfl, rfl⟩ := Prod.mk.inj heq
  obtain rfl := Option.some.inj henv'
  simpa using (List.mem_filter.mp hp).2

theorem buildEnvelopeForKey_none {s s' : ClusterStore} (honly : OnlyForeign s s')
    (hkey : s.indexed key = some v) (hnone : s.buildEnvelopeForKey key = none) : s'.buildEnvelopeForKey key = none := by
  -- a replica is its own envelope, so the key is a local one
  have hown : key.originId = s.nodeId := by
    by_contra hforeign
    rw [indexed_of_foreign hforeign] at hkey
    rw [buildEnvelopeForKey, if_neg hforeign] at hnone
    rw [hnone] at hkey
    cases hkey
  have hlocal : s'.buildLocalEnvelope = s.buildLocalEnvelope := honly.proj ClusterStore.buildLocalEnvelope fun _ _ => rfl
  rw [buildEnvelopeForKey, if_pos hown] at hnone
  rw [buildEnvelopeForKey, honly.nodeId, if_pos hown, hlocal, hnone]

theorem reconcileSent_nil {s : ClusterStore} {now : Now} {peer : Peer} (hnone : peer.namespaces = [])
    (h : s.config.merkleBuckets = 0 ∨ s.NothingToSend now) {σ : Type} (t : Transport σ) (r : σ)
    (hsent : (address, envs) ∈ reconcileSent t s now peer r) : raw ∉ envs := by
  intro hraw
  unfold reconcileSent at hsent
  split at hsent
  · cases hsent
  rename_i hdivides
  obtain ⟨toPull, toPush, s₁, s₂, r₁, hcompare, honly, rfl⟩ := pushed_of_sent rfl hsent
  obtain ⟨key, hkey, henv⟩ := List.mem_filterMap.mp hraw
  obtain ⟨v, hv⟩ := indexed_of_toPush hcompare hkey
  rcases h with hbuckets | hsend
  · have hempty : (s.comparedIndex now peer).rows = [] := by simpa [dividesByZero, hbuckets] using hdivides
    have hmem := Dict.lookup_eq_some.mp hv
    rw [hempty] at hmem
    cases hmem
  · have hlookup : (s.fullIndex now []).1.lookup key = some v := by
      rw [comparedIndex, hnone] at hv
      exact hv
    have hindexed : (s.ensureLocalVersions now).indexed key = some v := by
      rw [lookup_comparedIndex] at hv
      exact (Option.ite_none_right_eq_some.mp hv).2
    rw [buildEnvelopeForKey_none honly hindexed (hsend key v hlookup)] at henv
    cases henv

/-- A peer is sent nothing outside its namespaces if and only if it has some, or nothing can be sent. -/
theorem outboundScoped_iff (s : ClusterStore) (now : Now) (peer : Peer) :
    OutboundScoped s now peer ↔ peer.namespaces ≠ [] ∨ s.config.merkleBuckets = 0 ∨ s.NothingToSend now := by
  constructor
  · intro h
    by_contra hnot
    obtain ⟨hnone, hbuckets, hsend⟩ : peer.namespaces = [] ∧ s.config.merkleBuckets ≠ 0 ∧ ¬ s.NothingToSend now := by
      simpa [not_or] using hnot
    unfold NothingToSend at hsend
    push Not at hsend
    obtain ⟨key, v, hkey, henv⟩ := hsend
    obtain ⟨env, henv⟩ := Option.ne_none_iff_exists'.mp henv
    have hindex : (s.comparedIndex now peer).lookup key = some v := by
      rw [comparedIndex, hnone]
      exact hkey
    -- a far end that knows nothing is sent the record, although no namespace is that of its dataset
    obtain ⟨envs, hsent, hraw⟩ := sent_to_blank hbuckets hindex henv
    have hscoped := h.reconciled blankRemote () _ _ _ hsent hraw env rfl
    rw [hnone] at hscoped
    cases hscoped
  · intro h
    refine ⟨?_, fun env raw => broadcast_scoped⟩
    intro σ t r address envs raw hsent hraw
    by_cases hsome : peer.namespaces = []
    · exact absurd hraw (reconcileSent_nil hsome (h.resolve_left (not_not.mpr hsome)) t r hsent)
    exact reconciled_scoped hsome t r hsent hraw

/-- A peer that accepted none of the offered namespaces. -/
def refusingPeer : Peer := { nodeId := "B", address := "b", namespaces := [], lastSeen := 0 }

/-- The peer is sent a replica of a dataset that it did not accept. -/
theorem sent_unaccepted : ¬ OutboundScoped behindStore { wallMs := 0, mono := 0 } refusingPeer := by
  intro h
  have hkey : (behindStore.comparedIndex { wallMs := 0, mono := 0 } refusingPeer).lookup ⟨"d", "C", "s"⟩ = some ⟨100, "C"⟩ := by
    decide +kernel
  have henv : (behindStore.ensureLocalVersions { wallMs := 0, mono := 0 }).buildEnvelopeForKey ⟨"d", "C", "s"⟩ =
      some { dataset := "d", serviceId := "s", originId := "C", version := ⟨100, "C"⟩ } := by decide +kernel
  obtain ⟨envs, hsent, hraw⟩ := sent_to_blank (by decide) hkey henv
  exact nomatch h.reconciled blankRemote () _ _ _ hsent hraw _ rfl

end ClusterStore

end AgentProtocol
