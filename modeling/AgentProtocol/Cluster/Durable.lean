-- SUMMARY: What the operations of a cluster store write to its state file, and which of the node's own versions they send.
import AgentProtocol.Cluster.Operations

namespace AgentProtocol

open Lib

namespace ClusterStore

/-! ## Saving -/

/-- How an operation may change the persistent part: the clock does not go back, and a
version that was not there before is later than the clock was, and has been saved. -/
structure Saves (s s' : ClusterStore) : Prop where
  node : s'.nodeId = s.nodeId
  clock : s.state.versionClock ≤ s'.state.versionClock
  clusterId : s'.state.clusterId = s.state.clusterId
  lastRoster : s'.state.lastRoster = s.state.lastRoster
  myMembershipVersion : s'.state.myMembershipVersion = s.state.myMembershipVersion
  saved : s'.saved = s'.state ∨ s'.saved = s.saved
  versions : ∀ k v, s'.state.localVersions.lookup k = some v → s.state.localVersions.lookup k = some v ∨
    s'.saved = s'.state ∧ s.state.versionClock < v.ms ∧ v.ms ≤ s'.state.versionClock
  tombs : ∀ k t, s'.state.tombstones.lookup k = some t → s.state.tombstones.lookup k = some t ∨
    s'.saved = s'.state ∧ s.state.versionClock < t.version.ms ∧ t.version.ms ≤ s'.state.versionClock

theorem Saves.of_eq {s s' : ClusterStore} (hstate : s'.state = s.state) (hsaved : s'.saved = s.saved) : Saves s s' where
  node := by rw [nodeId, hstate]; rfl
  clock := by rw [hstate]
  clusterId := by rw [hstate]
  lastRoster := by rw [hstate]
  myMembershipVersion := by rw [hstate]
  saved := .inr hsaved
  versions := fun k v h => .inl (by rwa [hstate] at h)
  tombs := fun k t h => .inl (by rwa [hstate] at h)

theorem Saves.congr {s₁ s₂ s₃ s₄ : ClusterStore} (h : Saves s₂ s₃) (hstate : s₂.state = s₁.state)
    (hsaved : s₂.saved = s₁.saved) (hstate' : s₄.state = s₃.state) (hsaved' : s₄.saved = s₃.saved) : Saves s₁ s₄ where
  node := by
    have hnode := h.node
    rwa [nodeId, nodeId, ← hstate', hstate] at hnode
  clock := by rw [hstate', ← hstate]; exact h.clock
  clusterId := by rw [hstate', ← hstate]; exact h.clusterId
  lastRoster := by rw [hstate', ← hstate]; exact h.lastRoster
  myMembershipVersion := by rw [hstate', ← hstate]; exact h.myMembershipVersion
  saved := by rw [hstate', hsaved', ← hsaved]; exact h.saved
  versions := by rw [hstate', hsaved', ← hstate]; exact h.versions
  tombs := by rw [hstate', hsaved', ← hstate]; exact h.tombs

theorem foldl_ensureVersion_flag (now : Now) (items : List (String × RegistryEntry)) :
    ∀ (acc : ClusterStore × Bool), (items.foldl (ensureVersion now) acc).2 = false →
      items.foldl (ensureVersion now) acc = acc := by
  induction items with
  | nil => exact fun _ _ => rfl
  | cons item items ih =>
    intro acc hflag
    rw [List.foldl_cons] at hflag ⊢
    rcases ensureVersion_cases now acc item with ⟨he, -⟩ | ⟨he, -⟩
    · rw [he] at hflag ⊢
      exact ih acc hflag
    · -- once the flag is up it stays up
      have hup := congrArg Prod.snd (ih _ hflag)
      rw [hflag, he] at hup
      cases hup

variable (s : ClusterStore) (now : Now)

theorem saved_ensureLocalVersions :
    (s.ensureLocalVersions now).saved = (s.ensureLocalVersions now).state ∨ s.ensureLocalVersions now = s := by
  unfold ensureLocalVersions
  split
  · exact .inr rfl
  · dsimp only
    split
    · exact .inl rfl
    · rename_i hflag
      exact .inr (congrArg Prod.fst (foldl_ensureVersion_flag now _ _ (by simpa using hflag)))

theorem saves_ensureLocalVersions : Saves s (s.ensureLocalVersions now) := by
  rcases s.saved_ensureLocalVersions now with hsaved | heq
  · have hstamps := stamps_ensureLocalVersions s now
    refine ⟨hstamps.node, hstamps.clock, ?_, ?_, ?_, .inl hsaved, ?_, ?_⟩
    · exact ensureLocalVersions_proj now (fun s => s.state.clusterId) s (fun _ _ => rfl) fun _ => rfl
    · exact ensureLocalVersions_proj now (fun s => s.state.lastRoster) s (fun _ _ => rfl) fun _ => rfl
    · exact ensureLocalVersions_proj now (fun s => s.state.myMembershipVersion) s (fun _ _ => rfl) fun _ => rfl
    · intro k v hv
      rcases hstamps.fresh k v hv with hold | ⟨-, hlt, hle, -⟩
      · exact .inl hold
      · exact .inr ⟨hsaved, hlt, hle⟩
    · intro k t ht
      rw [hstamps.tombs] at ht
      exact .inl ht
  · rw [heq]
    exact Saves.of_eq rfl rfl

theorem saves_stampMutation (ds sid : String) (op : MutationOp) : Saves s (s.stampMutation now ds sid op) := by
  have hsaved : (s.stampMutation now ds sid op).saved = (s.stampMutation now ds sid op).state := rfl
  have hfresh : s.state.versionClock < (s.freshVersion now).ms ∧
      (s.freshVersion now).ms ≤ (s.stampMutation now ds sid op).state.versionClock := by
    rw [stampMutation_clock]
    exact ⟨s.lt_nextTs now, le_refl _⟩
  refine ⟨stampMutation_nodeId s now ds sid op, ?_, ?_, ?_, ?_, .inl hsaved, ?_, ?_⟩
  · rw [stampMutation_clock]
    exact (s.lt_nextTs now).le
  · cases op <;> rfl
  · cases op <;> rfl
  · cases op <;> rfl
  · intro k v hv
    cases op with
    | deregister =>
      rw [(stampMutation_dead s now ds sid k).1] at hv
      split at hv
      · cases hv
      exact .inl hv
    | register | update =>
      rw [(stampMutation_live s now ds sid (by simp) k).1] at hv
      split at hv
      · obtain rfl := Option.some.inj hv
        exact .inr ⟨hsaved, hfresh⟩
      · exact .inl hv
  · intro k t ht
    cases op with
    | deregister =>
      rw [(stampMutation_dead s now ds sid k).2] at ht
      split at ht
      · obtain rfl := Option.some.inj ht
        exact .inr ⟨hsaved, hfresh⟩
      · exact .inl ht
    | register | update =>
      rw [(stampMutation_live s now ds sid (by simp) k).2] at ht
      split at ht
      · cases ht
      exact .inl ht

theorem saves_gcTombstones : Saves s (s.gcTombstones now).2 := by
  have hkept : ∀ k t, Dict.lookup (s.state.tombstones.filter fun p => !expired s.config now p.2.deletedAtMs) k = some t →
      s.state.tombstones.lookup k = some t := by
    intro k t ht
    rw [Dict.lookup_filter] at ht
    exact (Option.filter_eq_some_iff.mp ht).1
  simp only [gcTombstones]
  split
  · exact ⟨rfl, le_refl _, rfl, rfl, rfl, .inr rfl, fun _ _ h => .inl h, fun k t h => .inl (hkept k t h)⟩
  · exact ⟨rfl, le_refl _, rfl, rfl, rfl, .inl rfl, fun _ _ h => .inl h, fun k t h => .inl (hkept k t h)⟩

theorem touchPeer_saved (node : String) : (s.touchPeer now node).saved = s.saved := by
  unfold touchPeer
  split <;> rfl

theorem OnlyForeign.state {s s' : ClusterStore} (h : OnlyForeign s s') : s'.state = s.state :=
  h.proj ClusterStore.state fun _ _ => rfl

theorem OnlyForeign.saved {s s' : ClusterStore} (h : OnlyForeign s s') : s'.saved = s.saved :=
  h.proj ClusterStore.saved fun _ _ => rfl

theorem saves_visibleIndex (fromNode : String) (requested : List String)
    (token : Option String) : Saves s (s.visibleIndex now fromNode requested token).2 :=
  (saves_ensureLocalVersions (s.touchPeer now fromNode) now).congr (touchPeer_state s now fromNode)
    (touchPeer_saved s now fromNode) rfl rfl

theorem saves_reconcile {σ : Type} (t : Transport σ) (s : ClusterStore) (now : Now) (peer : Peer) (r : σ) :
    Saves s (s.reconcile t now peer r).2.1 :=
  have honly := (reconcile_store t s now peer r).1
  (saves_ensureLocalVersions s now).congr rfl rfl honly.state honly.saved

theorem saves_disconnect (now : Now) (nodes : List String) (s : ClusterStore) :
    (nodes.foldl (fun s node => (s.disconnectPeer now node).2) s).state = s.state ∧
      (nodes.foldl (fun s node => (s.disconnectPeer now node).2) s).saved = s.saved := by
  induction nodes generalizing s with
  | nil => exact ⟨rfl, rfl⟩
  | cons node nodes ih => exact ih _

/-- **Every operation saves what it stamps.** -/
theorem saves_exec (op : Operation) : Saves s (s.exec now op) := by
  cases op with
  | applyInbound env =>
    have honly := onlyForeign_applyInbound s now env
    exact Saves.of_eq honly.state honly.saved
  | serveUpdates fromNode envelopes token =>
    have honly := onlyForeign_applyUpdates now fromNode token envelopes (s.touchPeer now fromNode)
      ⟨0, envelopes.length, 0⟩
    exact Saves.of_eq (honly.state.trans (touchPeer_state s now fromNode))
      (honly.saved.trans (touchPeer_saved s now fromNode))
  | reconcile peer t => exact saves_reconcile t s now peer ()
  | connectPeer address namespaces token t =>
    simp only [exec, connectPeer_store]
    split
    · exact Saves.of_eq rfl rfl
    · rename_i resp _ _
      exact (saves_reconcile t (s.recordSession now address resp).2 now _ _).congr rfl rfl rfl rfl
  | handleKeepalive fromNode token =>
    simp only [exec, handleKeepalive]
    split
    · exact Saves.of_eq rfl rfl
    · exact Saves.of_eq (touchPeer_state s now fromNode) (touchPeer_saved s now fromNode)
  | serveDigest fromNode namespaces token buckets =>
    simp only [exec, serveDigest]
    split <;> exact saves_visibleIndex s now fromNode namespaces token
  | serveMerkle fromNode namespaces token => exact saves_visibleIndex s now fromNode namespaces token
  | servePull fromNode keys token =>
    exact Saves.of_eq (touchPeer_state s now fromNode) (touchPeer_saved s now fromNode)
  | checkHold =>
    have hsame := saves_disconnect now (s.staleSessions now) s
    exact Saves.of_eq hsame.1 hsame.2
  | gcTombstones => exact saves_gcTombstones s now
  | onLocalMutation dataset sid op => exact saves_stampMutation s now dataset sid op
  | handleOpen | disconnectPeer | pruneSuppression | registryWrite => exact Saves.of_eq rfl rfl

/-! ## Sending -/

/-- The versions of this node's own records in what is about to be sent. -/
def ownVersions (s : ClusterStore) (envs : List WireEnvelope) : List Version :=
  ((envs.filterMap WireEnvelope.modelValidate).filter fun env => env.originId = s.nodeId).map (·.version)

def reconcilePushed {σ : Type} (t : Transport σ) (s : ClusterStore) (now : Now) (peer : Peer) (r : σ) :
    List WireEnvelope :=
  match compareWith t s now peer r with
  | (.error _, _, _) => []
  | (.ok (toPull, toPush), s, r) =>
    match pullKeys t s now peer toPull r with
    | (.error _, _, _) => []
    | (.ok _, s, _) => s.pushEnvelopes toPush

/-- The versions of its own records that an operation sends to peers. -/
def emitted (s : ClusterStore) (now : Now) : Operation → List Version
  | .serveDigest fromNode namespaces token buckets =>
    ((s.serveDigest now fromNode namespaces token buckets).1.filter fun p => p.1.originId = s.nodeId).map (·.2)
  | .servePull fromNode keys token => s.ownVersions (s.servePull now fromNode keys token).1
  | .reconcile peer t => s.ownVersions (reconcilePushed t s now peer ())
  | .connectPeer address namespaces token t =>
    match t.openSession address (s.openBody namespaces token) () with
    | (.error _, _) => []
    | (.ok resp, r) =>
      let (peer, s) := s.recordSession now address resp
      s.ownVersions (reconcilePushed t s now peer r)
  | .onLocalMutation dataset sid op =>
    match s.onLocalMutation now dataset sid op with
    | (none, _) => []
    | (some env, s) => if s.broadcastTargets env = [] then [] else [env.version]
  | _ => []

/-- A version that the state has for one of this node's records, live or deleted. -/
def Stamped (s : ClusterStore) (v : Version) : Prop :=
  ∃ k, s.state.localVersions.lookup k = some v ∨ ∃ t, s.state.tombstones.lookup k = some t ∧ t.version = v

variable {s : ClusterStore} {key : Key}

theorem stamped_of_build {env : SyncEnvelope}
    (h : s.buildEnvelopeForKey key = some env) (horigin : env.originId = s.nodeId) : s.Stamped env.version := by
  have hkey : key.originId = s.nodeId := by rw [← buildEnvelopeForKey_key h]; exact horigin
  rw [buildEnvelopeForKey, if_pos hkey, buildLocalEnvelope] at h
  split at h
  · rename_i tomb htomb
    cases h
    exact ⟨_, .inr ⟨tomb, htomb, rfl⟩⟩
  · split at h
    · rename_i v reg hv _
      obtain ⟨entry, -, rfl⟩ := Option.map_eq_some_iff.mp h
      exact ⟨_, .inl hv⟩
    · cases h

variable {v : Version}

theorem stamped_of_indexed (hself : s.NoSelf) (h : s.indexed key = some v) (hkey : key.originId = s.nodeId) : s.Stamped v := by
  obtain ⟨env, henv, hk, rfl⟩ := buildEnvelopeForKey_of_indexed hself h
  exact stamped_of_build henv (by rw [← hkey, ← hk]; rfl)

theorem stamped_of_pushed {keys : List Key} (hv : v ∈ s.ownVersions (s.pushEnvelopes keys)) : s.Stamped v := by
  simp only [ownVersions, pushEnvelopes, List.mem_map, List.mem_filter, List.mem_filterMap, decide_eq_true_eq] at hv
  obtain ⟨env, ⟨⟨raw, ⟨key, -, hraw⟩, hvalid⟩, horigin⟩, rfl⟩ := hv
  obtain ⟨env', henv', rfl⟩ := Option.map_eq_some_iff.mp hraw
  obtain rfl := Option.some.inj ((modelValidate_modelDump env').symm.trans hvalid)
  exact stamped_of_build henv' horigin

theorem stamped_of_reconcile {σ : Type} (t : Transport σ) (s : ClusterStore) (now : Now) (peer : Peer) (r : σ)
    (hv : v ∈ s.ownVersions (reconcilePushed t s now peer r)) : (s.reconcile t now peer r).2.1.Stamped v := by
  have hstore := compareWith_store t s now peer r
  rcases hcmp : compareWith t s now peer r with ⟨_ | ⟨toPull, toPush⟩, s₁, r₁⟩
  · rw [reconcilePushed, hcmp] at hv
    cases hv
  · rw [reconcilePushed, hcmp] at hv
    rw [reconcile, hcmp]
    rw [hcmp] at hstore
    obtain rfl : s₁ = s.ensureLocalVersions now := hstore
    dsimp only at hv ⊢
    have honly := pullKeys_store t (s.ensureLocalVersions now) now peer toPull r₁
    rcases hpull : pullKeys t (s.ensureLocalVersions now) now peer toPull r₁ with ⟨_ | pulled, s₂, r₂⟩
    · rw [hpull] at hv
      cases hv
    · rw [hpull] at hv honly
      dsimp only at hv ⊢
      have hown : v ∈ s₂.ownVersions (s₂.pushEnvelopes toPush) := by
        rwa [ownVersions, honly.nodeId, ensureLocalVersions_nodeId, ← ownVersions]
      split <;> exact stamped_of_pushed hown

theorem stamped_of_digest (hself : s.NoSelf) {now : Now} {fromNode : String}
    {namespaces : List String} {token : Option String} {buckets : Option (List ℕ)}
    (hrow : (key, v) ∈ (s.serveDigest now fromNode namespaces token buckets).1) (hkey : key.originId = s.nodeId) :
    (s.exec now (.serveDigest fromNode namespaces token buckets)).Stamped v := by
  have hindex : (key, v) ∈ (s.visibleIndex now fromNode namespaces token).1.rows := by
    cases buckets with
    | none => exact hrow
    | some bs => exact (List.mem_filter.mp hrow).1
  have hlookup := Dict.lookup_eq_some.mpr (List.mem_filter.mp hindex).1
  rw [lookup_versionedIndex] at hlookup
  obtain ⟨-, hindexed⟩ := Option.ite_none_right_eq_some.mp hlookup
  have hself' : ((s.touchPeer now fromNode).ensureLocalVersions now).NoSelf := by
    have hforeign : (s.touchPeer now fromNode).foreign = s.foreign := congrArg Overlay.records (touchPeer_overlay s now fromNode)
    simpa [NoSelf, hforeign] using hself
  have hstamped := stamped_of_indexed hself' hindexed (by simpa using hkey)
  cases buckets with
  | none | some => exact hstamped

theorem stamped_of_emitted (hself : s.NoSelf) {now : Now} {op : Operation}
    (hv : v ∈ s.emitted now op) : (s.exec now op).Stamped v := by
  cases op with
  | serveDigest fromNode namespaces token buckets =>
    simp only [emitted, List.mem_map, List.mem_filter, decide_eq_true_eq] at hv
    obtain ⟨⟨key, v⟩, ⟨hrow, hkey⟩, rfl⟩ := hv
    exact stamped_of_digest hself hrow hkey
  | servePull fromNode keys token =>
    have hpushed : v ∈ (s.touchPeer now fromNode).ownVersions ((s.touchPeer now fromNode).pushEnvelopes
        (keys.filter (·.dataset ∈ (s.touchPeer now fromNode).allowedFor fromNode [] token))) := by
      rw [ownVersions, touchPeer_nodeId]
      exact hv
    exact stamped_of_pushed hpushed
  | reconcile peer t => exact stamped_of_reconcile t s now peer () hv
  | connectPeer address namespaces token t =>
    simp only [exec, connectPeer_store]
    simp only [emitted] at hv
    split at hv
    · cases hv
    rename_i hopen
    rw [hopen]
    exact stamped_of_reconcile t _ now _ _ hv
  | onLocalMutation dataset sid op =>
    simp only [emitted] at hv
    split at hv
    · cases hv
    rename_i env s' hmut
    split at hv
    · cases hv
    obtain rfl := List.mem_singleton.mp hv
    have hbuild : s'.buildLocalEnvelope dataset sid = some env := by
      obtain ⟨henv, rfl⟩ := Prod.mk.inj hmut
      exact henv
    have hkey := buildLocalEnvelope_key hbuild
    have henv : s'.buildEnvelopeForKey env.key = some env := by
      rw [hkey, buildEnvelopeForKey, if_pos rfl, hbuild]
    have hstamped := stamped_of_build henv (congrArg Key.originId hkey)
    rw [exec, hmut]
    exact hstamped
  | applyInbound | serveUpdates | handleOpen | handleKeepalive | serveMerkle | checkHold | disconnectPeer
  | pruneSuppression | gcTombstones | registryWrite => cases hv

end ClusterStore

end AgentProtocol
