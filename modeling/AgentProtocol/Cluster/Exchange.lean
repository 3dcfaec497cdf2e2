-- SUMMARY: A reconciliation between two stores of an open cluster with every call delivered: what it does to the records and the indexes of both.
import AgentProtocol.Cluster.AntiEntropy

/-!
# Exchanges

One store reconciles with another, both without auth, over sessions for the same
namespaces, and every call reaches the other store's handlers. Each side ends with
the later of the two versions of every shared record, except that neither takes a
record of its own from the other.
-/

namespace AgentProtocol

open Lib

namespace ClusterStore

/-! ## Answers of an open store -/

def Linked (s : ClusterStore) (ns : List String) (node : String) : Prop :=
  ∃ sess, s.sessions.get? node = some sess ∧ ∀ x, x ∈ sess.namespaces ↔ x ∈ ns

/-- No auth, and no origin in a cooldown. -/
structure Unguarded (s : ClusterStore) : Prop where
  auth : s.authStore = none
  cooldowns : ∀ origin, s.evictedUntil.lookup origin = none

variable {s : ClusterStore}

theorem Unguarded.suppressed (h : s.Unguarded) (now : Now) (origin : String) : s.suppressed now origin = false := by
  simp [ClusterStore.suppressed, h.cooldowns]

variable {node : String}

theorem mem_allowedFor {ns : List String} (hauth : s.authStore = none)
    (hlink : s.Linked ns node) (requested : List String) (token : Option String) (x : String) :
    x ∈ s.allowedFor node requested token ↔ x ∈ ns ∧ (requested = [] ∨ x ∈ requested) := by
  obtain ⟨sess, hsess, hns⟩ := hlink
  have hauthed : s.authed node token = true := by simp [authed, hauth]
  unfold allowedFor
  rw [hauthed, hsess]
  dsimp only
  split
  · rename_i hreq
    simp [hreq, hns]
  · rename_i hreq
    simp [hreq, hns]

theorem linked_touchPeer {ns : List String} (h : s.Linked ns node)
    (now : Now) (other : String) : (s.touchPeer now other).Linked ns node := by
  obtain ⟨sess, hsess, hns⟩ := h
  refine ⟨_, by rw [get?_touchPeer, hsess]; rfl, fun x => ?_⟩
  by_cases ho : node = other
  · simp [ho, hns]
  · simp [ho, hns]

theorem linked_ensureLocalVersions {ns : List String}
    (h : s.Linked ns node) (now : Now) : (s.ensureLocalVersions now).Linked ns node := by
  unfold Linked
  rw [ensureLocalVersions_sessions]
  exact h

theorem touchPeer_of_touched {now : Now}
    (h : ∀ p, s.sessions.get? node = some p → p.lastSeen = now.mono) : s.touchPeer now node = s := by
  unfold touchPeer
  cases hp : s.sessions.get? node with
  | none => rfl
  | some p =>
    have hsame : { p with lastSeen := now.mono } = p := by rw [← h p hp]
    dsimp only
    rw [hsame, Table.insert_of_get?]
    rw [Table.key_of_get? hp, hp]

/-- A store after it heard from `node` and stamped its records: the state in which
it answers `node`'s questions about its index. -/
def answering (s : ClusterStore) (now : Now) (node : String) : ClusterStore :=
  (s.touchPeer now node).ensureLocalVersions now

theorem touchPeer_answering (s : ClusterStore) (now : Now) (node : String) :
    (s.answering now node).touchPeer now node = s.answering now node := by
  refine touchPeer_of_touched fun p hp => ?_
  rw [answering, ensureLocalVersions_sessions, get?_touchPeer] at hp
  obtain ⟨q, -, rfl⟩ := Option.map_eq_some_iff.mp hp
  simp

theorem ensureLocalVersions_answering (s : ClusterStore) (now : Now) (node : String) :
    (s.answering now node).ensureLocalVersions now = s.answering now node :=
  ensureLocalVersions_of_versioned (versioned_ensureLocalVersions _ now) now

theorem ensureLocalVersions_allowedFor (s : ClusterStore) (now : Now) : (s.ensureLocalVersions now).allowedFor = s.allowedFor :=
  ensureLocalVersions_proj now allowedFor s (fun _ _ => rfl) (fun _ => rfl)

def shownIndex (s : ClusterStore) (now : Now) (node : String) (requested : List String)
    (token : Option String) : Index :=
  (s.visibleIndex now node requested token).1

theorem visibleIndex_eq (s : ClusterStore) (now : Now) (node : String) (requested : List String)
    (token : Option String) : s.visibleIndex now node requested token =
      (s.shownIndex now node requested token, s.answering now node) := rfl

theorem visibleIndex_answering (s : ClusterStore) (now : Now) (node : String) (requested : List String)
    (token : Option String) : (s.answering now node).visibleIndex now node requested token =
      (s.shownIndex now node requested token, s.answering now node) := by
  have hallowed : (s.answering now node).allowedFor = (s.touchPeer now node).allowedFor :=
    ensureLocalVersions_allowedFor _ now
  unfold visibleIndex fullIndex
  dsimp only
  rw [touchPeer_answering, ensureLocalVersions_answering, hallowed]
  rfl

theorem lookup_shownIndex {ns : List String}
    (hauth : s.authStore = none) (hlink : s.Linked ns node) (now : Now) {requested : List String}
    (hreq : ∀ x, x ∈ requested ↔ x ∈ ns) (token : Option String) (key : Key) :
    (s.shownIndex now node requested token).lookup key =
      if key.dataset ∈ ns then (s.answering now node).indexed key else none := by
  have hmem : ∀ x, x ∈ (s.touchPeer now node).allowedFor node requested token ↔ x ∈ ns := by
    intro x
    rw [mem_allowedFor (by simpa using hauth) (linked_touchPeer hlink now node), hreq]
    exact and_iff_left_of_imp .inr
  unfold shownIndex visibleIndex fullIndex
  dsimp only
  rw [Dict.lookup_filter, lookup_versionedIndex]
  by_cases hns : key.dataset ∈ ns
  · have hallowed := (hmem key.dataset).mpr hns
    have hscope : inScope (sortedSet ((s.touchPeer now node).allowedFor node requested token))
        key.dataset = true := by
      simp [inScope, hallowed]
    rw [if_pos hscope, if_pos hns]
    cases h : (s.answering now node).indexed key with
    | none =>
      unfold answering at h
      rw [h]
      rfl
    | some v =>
      unfold answering at h
      rw [h]
      simp [Option.filter, hallowed]
  · have hallowed : key.dataset ∉ (s.touchPeer now node).allowedFor node requested token :=
      fun h => hns ((hmem _).mp h)
    simp [hns, hallowed]

section InProcess

variable (now : Now) (secret : String)

theorem inProcess_answers (a b : ClusterStore) (peer : Peer) : AnswersFrom (inProcess now secret) a peer
      (b.shownIndex now a.nodeId (sortedSet peer.namespaces) peer.token) b.config.merkleBuckets
      b (b.answering now a.nodeId) (b.answering now a.nodeId) := by
  have hconf : (b.answering now a.nodeId).config = b.config := by simp [answering]
  refine ⟨?_, fun buckets => ?_⟩
  · simp only [inProcess, serveMerkle, visibleIndex_eq, hconf]
  · simp only [inProcess, serveDigest, visibleIndex_answering, hconf]

theorem servePull_answering {b : ClusterStore} {ns : List String} {node : String}
    (hauth : b.authStore = none) (hlink : b.Linked ns node) {keys : List Key}
    (hkeys : ∀ key ∈ keys, key.dataset ∈ ns) (token : Option String) : (b.answering now node).servePull now node keys token =
      ((keys.filterMap (b.answering now node).buildEnvelopeForKey).map SyncEnvelope.modelDump, b.answering now node) := by
  have hlink' : (b.answering now node).Linked ns node :=
    linked_ensureLocalVersions (linked_touchPeer hlink now node) now
  have hall : keys.filter (fun key => decide (key.dataset ∈
      (b.answering now node).allowedFor node [] token)) = keys := by
    refine List.filter_eq_self.mpr fun key hkey => ?_
    have hauth' : (b.answering now node).authStore = none := by simpa [answering] using hauth
    simpa [mem_allowedFor hauth' hlink'] using hkeys key hkey
  unfold servePull
  dsimp only
  rw [touchPeer_answering, hall, List.map_filterMap]

end InProcess

theorem applyUpdates_ok (now : Now) (fromNode : String) (token : Option String)
    (envs : List SyncEnvelope) (s : ClusterStore) (counts : UpdateCounts) :
    ∃ counts', (applyUpdates now fromNode token (envs.map SyncEnvelope.modelDump) s counts).1 = .ok counts' := by
  induction envs generalizing s counts with
  | nil => exact ⟨counts, rfl⟩
  | cons env envs ih =>
    simp only [List.map_cons, applyUpdates, modelValidate_modelDump]
    split
    · exact ih _ _
    · exact ih _ _

theorem updatesInbound_of_unguarded (hauth : s.authStore = none) (fromNode : String)
    (envs : List SyncEnvelope) (token : Option String) :
    s.updatesInbound fromNode (envs.map SyncEnvelope.modelDump) token = envs := by
  have haccept : ∀ ds, s.mayAccept fromNode ds token = true := fun ds => by simp [mayAccept, hauth]
  simp [updatesInbound, haccept]

theorem pushEnvelopes_eq (s : ClusterStore) (keys : List Key) :
    s.pushEnvelopes keys = (keys.filterMap s.buildEnvelopeForKey).map SyncEnvelope.modelDump := by
  rw [pushEnvelopes, List.map_filterMap]

/-- What a delivered reconciliation of `a` with `b` does: `a'` and `b'` differ from
the two stores only by fresh versions, a refreshed timer, and the records that were
offered to them. -/
structure Exchanged (a b : ClusterStore) (now : Now) (a' b' : ClusterStore)
    (toPull toPush : List Key) : Prop where
  onlyA : OnlyForeign (a.ensureLocalVersions now) a'
  onlyB : OnlyForeign (b.answering now a.nodeId) b'
  overlayA : a'.overlay = a.overlay.actAll a.nodeId now.mono
    ((toPull.filterMap (b.answering now a.nodeId).buildEnvelopeForKey).map .offer)
  overlayB : b'.overlay = b.overlay.actAll b.nodeId now.mono
    ((toPush.filterMap a'.buildEnvelopeForKey).map .offer)

theorem answering_overlay (s : ClusterStore) (now : Now) (node : String) : (s.answering now node).overlay = s.overlay := by
  rw [← touchPeer_overlay s now node]
  simp [answering, overlay]

theorem reconcile_inProcess {a b : ClusterStore} {ns : List String} {peer : Peer}
    (hauth : b.authStore = none) (hlink : b.Linked ns a.nodeId)
    (hpeer : ∀ x, x ∈ peer.namespaces ↔ x ∈ ns) (now : Now) (secret : String) :
    ∃ toPull toPush counts a' b', a.reconcile (inProcess now secret) now peer b = (.ok counts, a', b') ∧
      Selects (a.comparedIndex now peer) a.config.merkleBuckets
        (b.shownIndex now a.nodeId (sortedSet peer.namespaces) peer.token) b.config.merkleBuckets toPull toPush ∧
      Exchanged a b now a' b' toPull toPush := by
  obtain ⟨toPull, toPush, b₁, hcmp, hb₁, hsel⟩ :=
    compareWith_of_answers now (inProcess_answers now secret a b peer)
  rw [ite_self] at hb₁
  subst hb₁
  have hpullNs : ∀ key ∈ toPull, key.dataset ∈ ns := by
    intro key hkey
    obtain ⟨v, hv⟩ := hsel.lookup_of_pull hkey
    rw [lookup_shownIndex hauth hlink now (by simpa using hpeer)] at hv
    exact (Option.ite_none_right_eq_some.mp hv).1
  let a₁ := a.ensureLocalVersions now
  let b₁ := b.answering now a.nodeId
  let fetched := toPull.filterMap b₁.buildEnvelopeForKey
  have hauth₁ : b₁.authStore = none := by simpa [b₁, answering] using hauth
  obtain ⟨m, hm⟩ := applyPulled_ok now fetched a₁ 0
  let a' := (applyPulled now (fetched.map SyncEnvelope.modelDump) a₁ 0).2
  have hpull : ∃ m', pullKeys (inProcess now secret) a₁ now peer toPull b₁ = (.ok m', a', b₁) := by
    unfold pullKeys
    split
    · rename_i hnil
      exact ⟨0, by simp [a', fetched, hnil, applyPulled]⟩
    · refine ⟨m, ?_⟩
      simp only [inProcess, a₁, ensureLocalVersions_nodeId, b₁]
      rw [servePull_answering now hauth hlink hpullNs]
      exact Prod.ext hm rfl
  obtain ⟨m', hpull⟩ := hpull
  have honlyA : OnlyForeign a₁ a' := onlyForeign_applyPulled _ _ _ _
  have hoverlayA : a'.overlay = a.overlay.actAll a.nodeId now.mono (fetched.map .offer) := by
    have h := overlay_applyPulled now (fetched.map SyncEnvelope.modelDump) a₁ 0
    rw [validPrefix_map_modelDump] at h
    simpa [a₁, overlay] using h
  let pushed := toPush.filterMap a'.buildEnvelopeForKey
  let counts₀ : UpdateCounts := { accepted := 0, received := (a'.pushEnvelopes toPush).length, rejected := 0 }
  let b' := (applyUpdates now a'.nodeId peer.token (pushed.map SyncEnvelope.modelDump) b₁ counts₀).2
  have honlyB : OnlyForeign b₁ b' := onlyForeign_applyUpdates _ _ _ _ _ _
  have hoverlayB : b'.overlay = b.overlay.actAll b.nodeId now.mono (pushed.map .offer) := by
    have h := overlay_applyUpdates now a'.nodeId peer.token (pushed.map SyncEnvelope.modelDump) b₁ counts₀
    have hnode : b₁.nodeId = b.nodeId := by simp [b₁, answering]
    rw [updatesInbound_of_unguarded hauth₁, answering_overlay, hnode] at h
    exact h
  have hpush : ∃ k, pushKeys (inProcess now secret) a' peer toPush b₁ = (.ok k, b') := by
    unfold pushKeys
    dsimp only
    split
    · rename_i hnil
      have hnone : pushed = [] := by simpa [pushEnvelopes_eq, pushed] using hnil
      exact ⟨0, by simp [b', hnone, applyUpdates]⟩
    · obtain ⟨counts, hcounts⟩ := applyUpdates_ok now a'.nodeId peer.token pushed b₁ counts₀
      refine ⟨counts.accepted, ?_⟩
      have hserve : b₁.serveUpdates now a'.nodeId (a'.pushEnvelopes toPush) peer.token =
          (.ok counts, b') := by
        have htouch : b₁.touchPeer now a'.nodeId = b₁ := by
          rw [honlyA.nodeId, ensureLocalVersions_nodeId]
          exact touchPeer_answering b now a.nodeId
        unfold serveUpdates
        rw [htouch, pushEnvelopes_eq]
        exact Prod.ext (by simpa [pushed, counts₀, pushEnvelopes_eq] using hcounts)
          (by simp [b', pushed, counts₀, pushEnvelopes_eq])
      simp only [inProcess]
      rw [hserve]
  obtain ⟨k, hpush⟩ := hpush
  refine ⟨toPull, toPush, ⟨m', k⟩, a', b', ?_, hsel, honlyA, honlyB, hoverlayA, hoverlayB⟩
  rw [reconcile_of_pull hcmp hpull, hpush]
  rfl

/-! ## Records after an exchange -/

variable {keys : List Key}

theorem offersTo_filterMap {f : Key → Option SyncEnvelope} (hf : ∀ key env, f key = some env → env.key = key)
    (hnodup : keys.Nodup) (key : Key) :
    Overlay.offersTo scheme key ((keys.filterMap f).map (Overlay.Action.offer : _ → OverlayAction)) =
      if key ∈ keys then (f key).toList else [] := by
  have hoffered : ((keys.filterMap f).map (Overlay.Action.offer : _ → OverlayAction)).filterMap
      Overlay.Action.offered = keys.filterMap f := by
    simp [List.filterMap_map, Function.comp_def, Overlay.Action.offered]
  unfold Overlay.offersTo
  rw [hoffered]
  induction keys with
  | nil => rfl
  | cons k keys ih =>
    obtain ⟨hk, hnodup⟩ := List.nodup_cons.mp hnodup
    have hrest := ih hnodup (by simp [List.filterMap_map, Function.comp_def, Overlay.Action.offered])
    cases hfk : f k with
    | none =>
      rw [List.filterMap_cons_none hfk, hrest]
      by_cases heq : key = k
      · subst heq
        simp [hk, hfk]
      · simp [heq]
    | some env =>
      have henv : scheme.key env = k := hf k env hfk
      rw [List.filterMap_cons_some hfk, List.filter_cons, hrest, henv]
      by_cases heq : key = k
      · subst heq
        simp [hk, hfk]
      · simp [heq, Ne.symm heq]

theorem get?_of_offered {s s' : ClusterStore} {now : Now}
    {f : Key → Option SyncEnvelope} (hf : ∀ key env, f key = some env → env.key = key) (hnodup : keys.Nodup)
    (hoverlay : s'.overlay = s.overlay.actAll s.nodeId now.mono ((keys.filterMap f).map .offer))
    {key : Key} (hown : key.originId ≠ s.nodeId) (hsup : s.suppressed now key.originId = false) :
    s'.foreign.get? key = Lww.offerAll SyncEnvelope.version (s.foreign.get? key)
      (if key ∈ keys then (f key).toList else []) := by
  have hget : s'.foreign.get? key =
      (s.overlay.actAll s.nodeId now.mono ((keys.filterMap f).map .offer)).records.get? key := by
    rw [← hoverlay]
    rfl
  have hmem : ∀ env ∈ Overlay.offersTo scheme key
      ((keys.filterMap f).map (Overlay.Action.offer : _ → OverlayAction)), env.originId = key.originId := by
    intro env henv
    have hkey : env.key = key := of_decide_eq_true (List.mem_filter.mp henv).2
    rw [← hkey]
    rfl
  rw [hget, Overlay.get?_actAll, offersTo_filterMap hf hnodup]
  · rfl
  · intro act hact
    obtain ⟨env, -, rfl⟩ := List.mem_map.mp hact
    rfl
  · intro env henv
    rw [scheme_origin, hmem env henv]
    exact hown
  · intro env henv
    rw [scheme_origin, overlay_suppressed, hmem env henv]
    exact hsup

theorem mem_of_offered {s s' : ClusterStore} {now : Now} {envs : List SyncEnvelope}
    (hoverlay : s'.overlay = s.overlay.actAll s.nodeId now.mono (envs.map .offer)) {env : SyncEnvelope}
    (h : env ∈ s'.foreign.rows) : env ∈ s.foreign.rows ∨ (env ∈ envs ∧ env.originId ≠ s.nodeId) := by
  have hrows : env ∈ (s.overlay.actAll s.nodeId now.mono (envs.map .offer)).records.rows := by
    rw [← hoverlay]
    exact h
  refine Overlay.actAll_induct (P := fun o : Overlay scheme ℚ => ∀ r ∈ o.records.rows,
    r ∈ s.foreign.rows ∨ (r ∈ envs ∧ r.originId ≠ s.nodeId)) (fun o ho act hact => ?_)
    (fun r hr => .inl hr) env hrows
  obtain ⟨r₀, hr₀, rfl⟩ := List.mem_map.mp hact
  intro r hr
  rcases Overlay.offer_records s.nodeId now.mono o r₀ with he | ⟨hown, -, he⟩
  · rw [Overlay.act, he] at hr
    exact ho r hr
  · rw [Overlay.act, he, Table.mem_insert] at hr
    rcases hr with rfl | ⟨hr, -⟩
    · exact .inr ⟨hr₀, hown⟩
    · exact ho r hr

namespace Exchanged

variable {a b a' b' : ClusterStore} {now : Now} {toPull toPush : List Key}

variable (h : Exchanged a b now a' b' toPull toPush)
include h

theorem rowsA {env : SyncEnvelope} (henv : env ∈ a'.foreign.rows) : env ∈ a.foreign.rows ∨
      ((b.answering now a.nodeId).buildEnvelopeForKey env.key = some env ∧ env.originId ≠ a.nodeId) := by
  rcases mem_of_offered h.overlayA henv with hmem | ⟨hmem, hown⟩
  · exact .inl hmem
  · obtain ⟨key, -, hbuild⟩ := List.mem_filterMap.mp hmem
    rw [← buildEnvelopeForKey_key hbuild] at hbuild
    exact .inr ⟨hbuild, hown⟩

theorem rowsB {env : SyncEnvelope} (henv : env ∈ b'.foreign.rows) : env ∈ b.foreign.rows ∨
      (a'.buildEnvelopeForKey env.key = some env ∧ env.originId ≠ b.nodeId) := by
  rcases mem_of_offered h.overlayB henv with hmem | ⟨hmem, hown⟩
  · exact .inl hmem
  · obtain ⟨key, -, hbuild⟩ := List.mem_filterMap.mp hmem
    rw [← buildEnvelopeForKey_key hbuild] at hbuild
    exact .inr ⟨hbuild, hown⟩

theorem nodeA : a'.nodeId = a.nodeId := by
  rw [h.onlyA.nodeId, ensureLocalVersions_nodeId]

theorem nodeB : b'.nodeId = b.nodeId := by
  rw [h.onlyB.nodeId, answering, ensureLocalVersions_nodeId, touchPeer_nodeId]

theorem noSelfA (hself : a.NoSelf) : a'.NoSelf := by
  intro env henv
  rw [h.nodeA]
  rcases h.rowsA henv with hmem | ⟨-, hown⟩
  · exact hself env hmem
  · exact hown

theorem noSelfB (hself : b.NoSelf) : b'.NoSelf := by
  intro env henv
  rw [h.nodeB]
  rcases h.rowsB henv with hmem | ⟨-, hown⟩
  · exact hself env hmem
  · exact hown

omit h

end Exchanged

/-! ## Indexes after an exchange -/

theorem OnlyForeign.localVersion {s s' : ClusterStore} (h : OnlyForeign s s') : s'.localVersion = s.localVersion :=
  h.proj ClusterStore.localVersion fun _ _ => rfl

theorem noSelf_answering (h : s.NoSelf) (now : Now) (node : String) : (s.answering now node).NoSelf := by
  have hrows : (s.answering now node).foreign = s.foreign :=
    congrArg Overlay.records (answering_overlay s now node)
  unfold NoSelf
  rw [hrows, answering, ensureLocalVersions_nodeId, touchPeer_nodeId]
  exact h

/-- The index of a store at a key after the records of `keys` were offered to it, if
a key is left out only where its record would not have been newer. -/
theorem indexed_of_offered {s s' src : ClusterStore} {now : Now} {own : String}
    (hnode : s.nodeId = own) (honly : OnlyForeign s s') (hself : s.NoSelf) (hself' : s'.NoSelf)
    (hsup : ∀ origin, s.suppressed now origin = false) (hnodup : keys.Nodup)
    (hoverlay : s'.overlay = s.overlay.actAll s.nodeId now.mono ((keys.filterMap src.buildEnvelopeForKey).map .offer))
    {key : Key} {w : Option Version} (hsent : key ∈ keys → ∃ env, src.buildEnvelopeForKey key = some env ∧ w = some env.version)
    (hleft : key ∉ keys → Lww.latest (s.indexed key) w = s.indexed key) :
    s'.indexed key = if key.originId = own then s.indexed key else Lww.latest (s.indexed key) w := by
  subst hnode
  split
  · rename_i hown
    rw [indexed_of_own hself' (hown.trans honly.nodeId.symm), indexed_of_own hself hown,
      honly.localVersion]
  · rename_i hother
    have hother' : key.originId ≠ s'.nodeId := by
      rw [honly.nodeId]
      exact hother
    have hslot := get?_of_offered (fun _ _ => buildEnvelopeForKey_key) hnodup hoverlay hother
      (hsup key.originId)
    rw [indexed_of_foreign hother', hslot]
    by_cases hmem : key ∈ keys
    · obtain ⟨env, henv, rfl⟩ := hsent hmem
      rw [if_pos hmem, henv, indexed_of_foreign hother, ← Lww.offer_map]
      rfl
    · rw [if_neg hmem, hleft hmem, indexed_of_foreign hother]
      rfl

/-- The two stores are in an open cluster, hold no records of their own in their
overlays, and use one number of buckets; their sessions are for the namespaces `ns`. -/
structure OpenLink (ns : List String) (peer : Peer) (a b : ClusterStore) : Prop where
  guardA : a.Unguarded
  guardB : b.Unguarded
  selfA : a.NoSelf
  selfB : b.NoSelf
  linkB : b.Linked ns a.nodeId
  peerNs : ∀ x, x ∈ peer.namespaces ↔ x ∈ ns
  buckets : a.config.merkleBuckets = b.config.merkleBuckets

/-- The hash distinguishes what the two stores compare, and identifiers do not
contain the separator. -/
structure HashFaithful (peer : Peer) (now : Now) (a b : ClusterStore) : Prop where
  collisionFree : Merkle.CollisionFree (a.comparedIndex now peer) a.config.merkleBuckets
    (b.shownIndex now a.nodeId (sortedSet peer.namespaces) peer.token) b.config.merkleBuckets
  sepHere : Merkle.SepFree (a.comparedIndex now peer)
  sepThere : Merkle.SepFree (b.shownIndex now a.nodeId (sortedSet peer.namespaces) peer.token)

section Indexes

variable {ns : List String} {peer : Peer} {a b a' b' : ClusterStore} {now : Now} {toPull toPush : List Key}
  (hlink : OpenLink ns peer a b) (hhash : HashFaithful peer now a b)
  (hsel : Selects (a.comparedIndex now peer) a.config.merkleBuckets
    (b.shownIndex now a.nodeId (sortedSet peer.namespaces) peer.token) b.config.merkleBuckets toPull toPush)
  (hex : Exchanged a b now a' b' toPull toPush)

variable {key : Key}

theorem lookup_here (hlink : OpenLink ns peer a b) (hns : key.dataset ∈ ns) :
    (a.comparedIndex now peer).lookup key = (a.ensureLocalVersions now).indexed key := by
  have hscope : inScope peer.namespaces key.dataset = true := by
    simp [inScope, hlink.peerNs, hns]
  rw [lookup_comparedIndex, if_pos hscope]

theorem lookup_there (hlink : OpenLink ns peer a b) (hns : key.dataset ∈ ns) :
    (b.shownIndex now a.nodeId (sortedSet peer.namespaces) peer.token).lookup key = (b.answering now a.nodeId).indexed key := by
  rw [lookup_shownIndex hlink.guardB.auth hlink.linkB now (by simpa using hlink.peerNs), if_pos hns]

include hlink hhash hsel

theorem mem_toPull_iff (hns : key.dataset ∈ ns) : key ∈ toPull ↔ ∃ v, (b.answering now a.nodeId).indexed key = some v ∧
      versionNewer v ((a.ensureLocalVersions now).indexed key) = true := by
  rw [← lookup_here hlink hns, ← lookup_there hlink hns, ← Merkle.mem_newerKeys]
  refine ⟨fun h => ?_, hsel.pull_of_newer hhash.collisionFree hhash.sepHere hhash.sepThere⟩
  rw [hlink.buckets] at hsel
  exact hsel.newer_of_pull h

theorem mem_toPush_iff (hns : key.dataset ∈ ns) : key ∈ toPush ↔ ∃ v, (a.ensureLocalVersions now).indexed key = some v ∧
      versionNewer v ((b.answering now a.nodeId).indexed key) = true := by
  rw [← lookup_here hlink hns, ← lookup_there hlink hns, ← Merkle.mem_newerKeys]
  refine ⟨fun h => ?_, hsel.push_of_newer hhash.collisionFree hhash.sepHere hhash.sepThere⟩
  rw [hlink.buckets] at hsel
  exact hsel.newer_of_push h

include hex

theorem indexedA (hns : key.dataset ∈ ns) :
    a'.indexed key = if key.originId = a.nodeId then (a.ensureLocalVersions now).indexed key
      else Lww.latest ((a.ensureLocalVersions now).indexed key) ((b.answering now a.nodeId).indexed key) := by
  have hoverlay : a'.overlay = (a.ensureLocalVersions now).overlay.actAll
      (a.ensureLocalVersions now).nodeId now.mono
      ((toPull.filterMap (b.answering now a.nodeId).buildEnvelopeForKey).map .offer) := by
    rw [ensureLocalVersions_nodeId]
    simpa [overlay] using hex.overlayA
  have hsup : ∀ origin, (a.ensureLocalVersions now).suppressed now origin = false := by
    intro origin
    simpa [suppressed] using hlink.guardA.suppressed now origin
  refine indexed_of_offered (ensureLocalVersions_nodeId now a) hex.onlyA (noSelf_ensureLocalVersions hlink.selfA now)
    (hex.noSelfA hlink.selfA) hsup hsel.pullNodup hoverlay (fun hmem => ?_) (fun hmem => ?_)
  · obtain ⟨v, hv, -⟩ := (mem_toPull_iff hlink hhash hsel hns).mp hmem
    obtain ⟨env, henv, -, hver⟩ :=
      buildEnvelopeForKey_of_indexed (noSelf_answering hlink.selfB now a.nodeId) hv
    exact ⟨env, henv, by rw [hv, hver]⟩
  · refine Lww.latest_eq_left_iff.mpr fun w hw => Bool.eq_false_iff.mpr fun hnew => hmem ?_
    exact (mem_toPull_iff hlink hhash hsel hns).mpr ⟨w, hw, hnew⟩

theorem indexedB (hns : key.dataset ∈ ns) :
    b'.indexed key = if key.originId = b.nodeId then (b.answering now a.nodeId).indexed key
      else Lww.latest ((b.answering now a.nodeId).indexed key) ((a.ensureLocalVersions now).indexed key) := by
  have hnode : (b.answering now a.nodeId).nodeId = b.nodeId := by simp [answering]
  have hoverlay : b'.overlay = (b.answering now a.nodeId).overlay.actAll
      (b.answering now a.nodeId).nodeId now.mono
      ((toPush.filterMap a'.buildEnvelopeForKey).map .offer) := by
    rw [answering_overlay, hnode]
    exact hex.overlayB
  have hsup : ∀ origin, (b.answering now a.nodeId).suppressed now origin = false := by
    intro origin
    rw [← overlay_suppressed, answering_overlay, overlay_suppressed]
    exact hlink.guardB.suppressed now origin
  refine indexed_of_offered hnode hex.onlyB (noSelf_answering hlink.selfB now a.nodeId)
    (hex.noSelfB hlink.selfB) hsup hsel.pushNodup hoverlay (fun hmem => ?_) (fun hmem => ?_)
  · -- What is pushed was newer here, so the pull has not changed it.
    obtain ⟨v, hv, hnew⟩ := (mem_toPush_iff hlink hhash hsel hns).mp hmem
    have hkept : a'.indexed key = some v := by
      rw [indexedA hlink hhash hsel hex hns]
      split
      · exact hv
      · rw [hv, Lww.latest_of_newer hnew]
    obtain ⟨env, henv, -, hver⟩ := buildEnvelopeForKey_of_indexed (hex.noSelfA hlink.selfA) hkept
    exact ⟨env, henv, by rw [hv, hver]⟩
  · refine Lww.latest_eq_left_iff.mpr fun w hw => Bool.eq_false_iff.mpr fun hnew => hmem ?_
    exact (mem_toPush_iff hlink hhash hsel hns).mpr ⟨w, hw, hnew⟩

end Indexes

end ClusterStore

end AgentProtocol
