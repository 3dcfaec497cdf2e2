-- SUMMARY: The operations of a cluster store as events, and the overlay actions each of them performs.
import AgentProtocol.Lib.Overlay
import AgentProtocol.Lib.Run
import AgentProtocol.Cluster.StoreLaws

/-!
# Operations

A run of a store is a list of timed operations. What the peers answer to an
operation that calls them is part of the event: each of those calls is made at
most once per operation, so a stateless transport can give any answers.

The overlay of replicated records is an instance of `Lib.Overlay`. `actions` says
which elementary actions an operation performs on it, and `overlay_exec` that it
performs no others.
-/

namespace AgentProtocol

open Lib

/-- How replicated records are filed. -/
def scheme : Scheme SyncEnvelope Key String Version where
  key := SyncEnvelope.key
  origin := SyncEnvelope.originId
  version := SyncEnvelope.version

@[simp] theorem scheme_origin (env : SyncEnvelope) : scheme.origin env = env.originId := rfl

abbrev OverlayAction := Overlay.Action SyncEnvelope String ℚ

inductive Operation where
  | applyInbound (env : SyncEnvelope)
  | serveUpdates (fromNode : String) (envelopes : List WireEnvelope) (token : Option String)
  | reconcile (peer : Peer) (t : Transport Unit)
  | handleOpen (secret : String) (body : OpenRequest)
  | connectPeer (address : String) (namespaces : List String) (token : Option String)
      (t : Transport Unit)
  | handleKeepalive (fromNode : String) (token : Option String)
  | serveDigest (fromNode : String) (namespaces : List String) (token : Option String)
      (buckets : Option (List ℕ))
  | serveMerkle (fromNode : String) (namespaces : List String) (token : Option String)
  | servePull (fromNode : String) (keys : List Key) (token : Option String)
  | checkHold
  | disconnectPeer (node : String)
  | pruneSuppression
  | gcTombstones
  | onLocalMutation (dataset sid : String) (op : ClusterStore.MutationOp)
  /-- The registry was written to by its own callers. -/
  | registryWrite (reg : Option RegistryService)

namespace ClusterStore

def exec (s : ClusterStore) (now : Now) : Operation → ClusterStore
  | .applyInbound env => (s.applyInbound now env).2
  | .serveUpdates fromNode envelopes token => (s.serveUpdates now fromNode envelopes token).2
  | .reconcile peer t => (s.reconcile t now peer ()).2.1
  | .handleOpen secret body => (s.handleOpen now secret body).2
  | .connectPeer address namespaces token t => (s.connectPeer t now address namespaces token ()).2.1
  | .handleKeepalive fromNode token => (s.handleKeepalive now fromNode token).2
  | .serveDigest fromNode namespaces token buckets =>
    (s.serveDigest now fromNode namespaces token buckets).2
  | .serveMerkle fromNode namespaces token => (s.serveMerkle now fromNode namespaces token).2
  | .servePull fromNode keys token => (s.servePull now fromNode keys token).2
  | .checkHold => (s.checkHold now).2
  | .disconnectPeer node => (s.disconnectPeer now node).2
  | .pruneSuppression => s.pruneSuppression now
  | .gcTombstones => (s.gcTombstones now).2
  | .onLocalMutation dataset sid op => (s.onLocalMutation now dataset sid op).2
  | .registryWrite reg => { s with registry := reg }

/-! ## What reaches `apply_inbound` -/

/-- The envelopes before the first one that does not validate. -/
def validPrefix : List WireEnvelope → List SyncEnvelope
  | [] => []
  | raw :: rest =>
    match raw.modelValidate with
    | none => []
    | some env => env :: validPrefix rest

/-- What a pushed batch applies. -/
def updatesInbound (s : ClusterStore) (fromNode : String) (envelopes : List WireEnvelope)
    (token : Option String) : List SyncEnvelope :=
  (validPrefix envelopes).filter fun env => s.mayAccept fromNode env.dataset token

section Calls

variable {σ : Type} (t : Transport σ)

def pullInbound (s : ClusterStore) (peer : Peer) (keys : List Key) (r : σ) : List SyncEnvelope :=
  if keys = [] then []
  else match t.pull peer.address s.nodeId keys peer.token r with
    | (.error _, _) => []
    | (.ok raws, _) => validPrefix raws

/-- What a reconciliation applies here. -/
def reconcileInbound (s : ClusterStore) (now : Now) (peer : Peer) (r : σ) : List SyncEnvelope :=
  match compareWith t s now peer r with
  | (.error _, _, _) => []
  | (.ok (toPull, _), s, r) => pullInbound t s peer toPull r

end Calls

/-- The deadline of an eviction that happens now. -/
def cooldownEnd (s : ClusterStore) (now : Now) : ℚ := now.mono + s.config.tombstoneRetention

def actions (s : ClusterStore) (now : Now) : Operation → List OverlayAction
  | .applyInbound env => [.offer env]
  | .serveUpdates fromNode envelopes token => (s.updatesInbound fromNode envelopes token).map .offer
  | .reconcile peer t => (reconcileInbound t s now peer ()).map .offer
  | .handleOpen _ body => [.lift body.nodeId]
  | .connectPeer address namespaces token t =>
    match t.openSession address (s.openBody namespaces token) () with
    | (.error _, _) => []
    | (.ok resp, _) =>
      let (peer, s) := s.recordSession now address resp
      .lift peer.nodeId :: (reconcileInbound t s now peer ()).map .offer
  | .checkHold => (s.staleSessions now).map fun node => .evict node (s.cooldownEnd now)
  | .disconnectPeer node => [.evict node (s.cooldownEnd now)]
  | .pruneSuppression => [.prune]
  | .gcTombstones => [.collect fun env => env.tombstone && expired s.config now env.version.ms]
  | _ => []

/-- The part of the store that holds other nodes' records. -/
def overlay (s : ClusterStore) : Overlay scheme ℚ where
  records := s.foreign
  deadlines := s.evictedUntil

/-- Evictions are of sessions that are stale or disconnected, up to the end of the retention window. -/
theorem actions_evict {s : ClusterStore} {op : Operation} {now : Now} {node : String} {d : ℚ}
    (h : Overlay.Action.evict node d ∈ s.actions now op) :
    d = s.cooldownEnd now ∧ (op = .checkHold ∧ node ∈ s.staleSessions now ∨ op = .disconnectPeer node) := by
  cases op <;> simp only [actions, List.mem_map, List.mem_singleton, List.not_mem_nil, reduceCtorEq,
    and_false, exists_false, Overlay.Action.evict.injEq] at h
  case connectPeer address namespaces token t =>
    split at h <;> simp at h
  case checkHold =>
    obtain ⟨node', hmem, rfl, rfl⟩ := h
    exact ⟨rfl, .inl ⟨rfl, hmem⟩⟩
  case disconnectPeer node' =>
    obtain ⟨rfl, rfl⟩ := h
    exact ⟨rfl, .inr rfl⟩

/-! ## Operations perform their actions -/

theorem overlay_suppressed (s : ClusterStore) (now : Now) (origin : String) :
    s.overlay.suppressed now.mono origin = s.suppressed now origin := by
  unfold suppressed Overlay.suppressed overlay
  cases s.evictedUntil.lookup origin <;> simp

theorem overlay_applyInbound (s : ClusterStore) (now : Now) (env : SyncEnvelope) :
    (s.applyInbound now env).2.overlay = s.overlay.offer s.nodeId now.mono env := by
  have hsup : s.overlay.suppressed now.mono (scheme.origin env) = s.suppressed now env.originId :=
    s.overlay_suppressed now env.originId
  unfold applyInbound Overlay.offer
  rw [hsup]
  simp only [apply_ite Prod.snd, apply_ite overlay]
  rfl

/-- The second store differs from the first at most in its replicated records. -/
def OnlyForeign (s s' : ClusterStore) : Prop := s' = { s with foreign := s'.foreign }

variable {s₁ s₂ s₃ : ClusterStore}

theorem OnlyForeign.trans (h₁ : OnlyForeign s₁ s₂) (h₂ : OnlyForeign s₂ s₃) : OnlyForeign s₁ s₃ := by
  unfold OnlyForeign at *
  rw [h₂, h₁]

variable {s s' : ClusterStore}

theorem OnlyForeign.proj {α : Type} (h : OnlyForeign s s')
    (f : ClusterStore → α) (hf : ∀ s foreign, f { s with foreign } = f s) : f s' = f s := by
  rw [h, hf]

theorem OnlyForeign.nodeId (h : OnlyForeign s s') : s'.nodeId = s.nodeId :=
  h.proj ClusterStore.nodeId fun _ _ => rfl

theorem OnlyForeign.mayAccept (h : OnlyForeign s s') : s'.mayAccept = s.mayAccept :=
  h.proj ClusterStore.mayAccept fun _ _ => rfl

theorem onlyForeign_applyInbound (s : ClusterStore) (now : Now) (env : SyncEnvelope) :
    OnlyForeign s (s.applyInbound now env).2 := by
  unfold applyInbound OnlyForeign
  repeat' split
  all_goals rfl

theorem onlyForeign_applyPulled (now : Now) (raws : List WireEnvelope) (s : ClusterStore) (n : ℕ) :
    OnlyForeign s (applyPulled now raws s n).2 := by
  induction raws generalizing s n with
  | nil => rfl
  | cons raw rest ih =>
    unfold applyPulled
    split
    · rfl
    · exact (onlyForeign_applyInbound s now _).trans (ih _ _)

variable (now : Now) (fromNode : String) (token : Option String) (raws : List WireEnvelope)

theorem onlyForeign_applyUpdates (s : ClusterStore) (counts : UpdateCounts) :
    OnlyForeign s (applyUpdates now fromNode token raws s counts).2 := by
  induction raws generalizing s counts with
  | nil => rfl
  | cons raw rest ih =>
    unfold applyUpdates
    split
    · rfl
    · split
      · exact ih _ _
      · exact (onlyForeign_applyInbound s now _).trans (ih _ _)

theorem overlay_applyPulled (now : Now) (raws : List WireEnvelope) (s : ClusterStore) (n : ℕ) :
    (applyPulled now raws s n).2.overlay = s.overlay.actAll s.nodeId now.mono ((validPrefix raws).map .offer) := by
  induction raws generalizing s n with
  | nil => rfl
  | cons raw rest ih =>
    unfold applyPulled validPrefix
    cases raw.modelValidate with
    | none => rfl
    | some env =>
      dsimp only
      rw [ih, overlay_applyInbound, (onlyForeign_applyInbound s now env).nodeId]
      rfl

theorem overlay_applyUpdates (s : ClusterStore) (counts : UpdateCounts) :
    (applyUpdates now fromNode token raws s counts).2.overlay =
      s.overlay.actAll s.nodeId now.mono ((s.updatesInbound fromNode raws token).map .offer) := by
  induction raws generalizing s counts with
  | nil => rfl
  | cons raw rest ih =>
    unfold applyUpdates updatesInbound validPrefix
    cases raw.modelValidate with
    | none => rfl
    | some env =>
      dsimp only
      split
      · rename_i hrefused
        have hfalse : s.mayAccept fromNode env.dataset token = false := by simpa using hrefused
        rw [ih, updatesInbound, List.filter_cons, hfalse]
        rfl
      · rename_i haccepted
        have htrue : s.mayAccept fromNode env.dataset token = true := by simpa using haccepted
        have honly := onlyForeign_applyInbound s now env
        rw [ih, overlay_applyInbound, honly.nodeId, updatesInbound, honly.mayAccept, List.filter_cons,
          htrue]
        rfl

/-! ## Frames of the operations that call peers -/

section Calls

variable {σ : Type} (t : Transport σ)

variable (s : ClusterStore) (now : Now) (peer : Peer)

theorem compareWith_store (r : σ) : (compareWith t s now peer r).2.1 = s.ensureLocalVersions now := by
  unfold compareWith fullIndex
  dsimp only
  repeat' split
  all_goals rfl

theorem pullKeys_store (keys : List Key) (r : σ) : OnlyForeign s (pullKeys t s now peer keys r).2.1 := by
  unfold pullKeys
  split
  · rfl
  split
  · rfl
  · exact onlyForeign_applyPulled _ _ _ _

theorem overlay_pullKeys (keys : List Key) (r : σ) : (pullKeys t s now peer keys r).2.1.overlay =
      s.overlay.actAll s.nodeId now.mono ((pullInbound t s peer keys r).map .offer) := by
  unfold pullKeys pullInbound
  split
  · rfl
  · cases h : t.pull peer.address s.nodeId keys peer.token r with
    | mk res r' =>
      cases res with
      | error e => rfl
      | ok raws => exact overlay_applyPulled _ _ _ _

theorem reconcile_store (r : σ) : OnlyForeign (s.ensureLocalVersions now) (s.reconcile t now peer r).2.1 ∧
      (s.reconcile t now peer r).2.1.overlay =
        s.overlay.actAll s.nodeId now.mono ((reconcileInbound t s now peer r).map .offer) := by
  have hstore := compareWith_store t s now peer r
  have hoverlay : (s.ensureLocalVersions now).overlay = s.overlay := by simp [overlay]
  unfold reconcile reconcileInbound
  cases hcmp : compareWith t s now peer r with
  | mk res rest =>
    obtain ⟨s₁, r₁⟩ := rest
    rw [hcmp] at hstore
    dsimp only at hstore
    subst hstore
    cases res with
    | error e => exact ⟨rfl, hoverlay⟩
    | ok keys =>
      have honly := pullKeys_store t (s.ensureLocalVersions now) now peer keys.1 r₁
      have hpull := overlay_pullKeys t (s.ensureLocalVersions now) now peer keys.1 r₁
      rw [hoverlay, ensureLocalVersions_nodeId] at hpull
      dsimp only
      cases hp : pullKeys t (s.ensureLocalVersions now) now peer keys.1 r₁ with
      | mk res₂ rest₂ =>
        obtain ⟨s₂, r₂⟩ := rest₂
        rw [hp] at honly hpull
        cases res₂ with
        | error e => exact ⟨honly, hpull⟩
        | ok pulled =>
          dsimp only
          split
          · exact ⟨honly, hpull⟩
          · exact ⟨honly, hpull⟩

theorem connectPeer_store (s : ClusterStore) (now : Now) (address : String) (namespaces : List String)
    (token : Option String) (r : σ) : (s.connectPeer t now address namespaces token r).2.1 =
      match t.openSession address (s.openBody namespaces token) r with
      | (.error _, _) => s
      | (.ok resp, r) =>
        ((s.recordSession now address resp).2.reconcile t now (s.recordSession now address resp).1 r).2.1 := by
  unfold connectPeer
  cases t.openSession address (s.openBody namespaces token) r with
  | mk res r =>
    cases res with
    | error e => rfl
    | ok resp =>
      dsimp only
      split
      · rename_i h
        rw [h]
      · rename_i h
        rw [h]

end Calls

variable (s : ClusterStore) (now : Now)

@[simp] theorem touchPeer_overlay (node : String) : (s.touchPeer now node).overlay = s.overlay := by
  unfold touchPeer
  split <;> rfl

variable (fromNode : String) (ns : List String) (token : Option String)

theorem visibleIndex_overlay : (s.visibleIndex now fromNode ns token).2.overlay = s.overlay := by
  simp only [visibleIndex, fullIndex]
  rw [← touchPeer_overlay s now fromNode]
  simp only [overlay, ensureLocalVersions_foreign, ensureLocalVersions_evictedUntil]

/-! ## Every operation performs its actions -/

theorem staleSessions_evict (now : Now) (nodes : List String) (s : ClusterStore) :
    (nodes.foldl (fun s node => (s.disconnectPeer now node).2) s).overlay =
      s.overlay.actAll s.nodeId now.mono (nodes.map fun node => .evict node (s.cooldownEnd now)) := by
  induction nodes generalizing s with
  | nil => rfl
  | cons node nodes ih =>
    rw [List.foldl_cons, ih]
    rfl

theorem updatesInbound_touchPeer (node fromNode : String) (raws : List WireEnvelope) (token : Option String) :
    (s.touchPeer now node).updatesInbound fromNode raws token = s.updatesInbound fromNode raws token := by
  simp only [updatesInbound, touchPeer_mayAccept]

theorem gcTombstones_overlay : (s.gcTombstones now).2.overlay = s.overlay.act s.nodeId now.mono
        (.collect fun env => env.tombstone && expired s.config now env.version.ms) := by
  unfold gcTombstones
  dsimp only
  split <;> rfl

theorem overlay_exec (op : Operation) : (s.exec now op).overlay = s.overlay.actAll s.nodeId now.mono (s.actions now op) := by
  cases op with
  | applyInbound env => exact overlay_applyInbound s now env
  | serveUpdates fromNode envelopes token =>
    simp only [exec, serveUpdates, actions]
    rw [overlay_applyUpdates, updatesInbound_touchPeer, touchPeer_overlay, touchPeer_nodeId]
  | reconcile peer t => exact (reconcile_store t s now peer ()).2
  | handleOpen | disconnectPeer | registryWrite => rfl
  | connectPeer address namespaces token t =>
    simp only [exec, connectPeer_store, actions]
    cases t.openSession address (s.openBody namespaces token) () with
    | mk res u =>
      cases res with
      | error e => rfl
      | ok resp => exact (reconcile_store t _ now _ u).2
  | handleKeepalive fromNode token =>
    simp only [exec, handleKeepalive, actions]
    split
    · rfl
    · exact touchPeer_overlay s now fromNode
  | serveDigest fromNode namespaces token buckets =>
    simp only [exec, serveDigest, actions]
    split <;> exact visibleIndex_overlay s now fromNode namespaces token
  | serveMerkle fromNode namespaces token => exact visibleIndex_overlay s now fromNode namespaces token
  | servePull fromNode keys token => exact touchPeer_overlay s now fromNode
  | checkHold => exact staleSessions_evict now (s.staleSessions now) s
  | pruneSuppression =>
    simp [exec, pruneSuppression, actions, overlay, Overlay.act]
  | gcTombstones => exact gcTombstones_overlay s now
  | onLocalMutation dataset sid op => cases op <;> rfl

theorem actions_uniform (op : Operation) :
    (∀ a ∈ s.actions now op, a.drops = false) ∨ (∀ a ∈ s.actions now op, a.offered = none) := by
  have hoffers : ∀ envs : List SyncEnvelope,
      ∀ a ∈ envs.map (Overlay.Action.offer : SyncEnvelope → OverlayAction), a.drops = false := by
    intro envs a ha
    obtain ⟨env, -, rfl⟩ := List.mem_map.mp ha
    rfl
  cases op with
  | applyInbound env => exact .inl (hoffers [env])
  | serveUpdates | reconcile => exact .inl (hoffers _)
  | connectPeer address namespaces token t =>
    left
    simp only [actions]
    split
    · simp
    · intro a ha
      rcases List.mem_cons.mp ha with rfl | ha
      · rfl
      · exact hoffers _ a ha
  | checkHold =>
    right
    intro a ha
    obtain ⟨node, -, rfl⟩ := List.mem_map.mp ha
    rfl
  | handleOpen | disconnectPeer | pruneSuppression | gcTombstones => exact .inr (by simp [actions, Overlay.Action.offered])
  | handleKeepalive | serveDigest | serveMerkle | servePull | onLocalMutation | registryWrite => exact .inr (by simp [actions])

/-! ## What no operation changes -/

/-- Both stores belong to one node with one configuration. -/
structure SameNode (s s' : ClusterStore) : Prop where
  node : s'.nodeId = s.nodeId
  conf : s'.config = s.config
  auth : s'.authStore = s.authStore

theorem SameNode.trans (h₁ : SameNode s₁ s₂) (h₂ : SameNode s₂ s₃) : SameNode s₁ s₃ :=
  ⟨h₂.node.trans h₁.node, h₂.conf.trans h₁.conf, h₂.auth.trans h₁.auth⟩

theorem OnlyForeign.sameNode (h : OnlyForeign s s') : SameNode s s' :=
  ⟨h.nodeId, h.proj config fun _ _ => rfl, h.proj authStore fun _ _ => rfl⟩

theorem sameNode_ensureLocalVersions : SameNode s (s.ensureLocalVersions now) :=
  ⟨by simp, by simp, by simp⟩

theorem sameNode_touchPeer (node : String) : SameNode s (s.touchPeer now node) :=
  ⟨by simp, by simp, by simp⟩

theorem sameNode_reconcile {σ : Type} (t : Transport σ) (s : ClusterStore) (now : Now) (peer : Peer)
    (r : σ) : SameNode s (s.reconcile t now peer r).2.1 :=
  (sameNode_ensureLocalVersions s now).trans (reconcile_store t s now peer r).1.sameNode

theorem sameNode_visibleIndex : SameNode s (s.visibleIndex now fromNode ns token).2 :=
  (sameNode_touchPeer s now fromNode).trans (sameNode_ensureLocalVersions _ now)

theorem sameNode_disconnect (now : Now) (nodes : List String) (s : ClusterStore) :
    SameNode s (nodes.foldl (fun s node => (s.disconnectPeer now node).2) s) := by
  induction nodes generalizing s with
  | nil => exact ⟨rfl, rfl, rfl⟩
  | cons node nodes ih =>
    have hnode : SameNode s (s.disconnectPeer now node).2 := ⟨rfl, rfl, rfl⟩
    exact hnode.trans (ih _)

theorem sameNode_exec (op : Operation) : SameNode s (s.exec now op) := by
  cases op with
  | applyInbound env => exact (onlyForeign_applyInbound s now env).sameNode
  | serveUpdates fromNode envelopes token =>
    exact (sameNode_touchPeer s now fromNode).trans
      (onlyForeign_applyUpdates now fromNode token envelopes _ _).sameNode
  | reconcile peer t => exact sameNode_reconcile t s now peer ()
  | connectPeer address namespaces token t =>
    simp only [exec, connectPeer_store]
    split
    · exact ⟨rfl, rfl, rfl⟩
    · rename_i resp _ _
      have hsession : SameNode s (s.recordSession now address resp).2 := ⟨rfl, rfl, rfl⟩
      exact hsession.trans (sameNode_reconcile t _ now _ _)
  | handleKeepalive fromNode token =>
    simp only [exec, handleKeepalive]
    split
    · exact ⟨rfl, rfl, rfl⟩
    · exact sameNode_touchPeer s now fromNode
  | serveDigest fromNode namespaces token buckets =>
    simp only [exec, serveDigest]
    split <;> exact sameNode_visibleIndex s now fromNode namespaces token
  | serveMerkle fromNode namespaces token => exact sameNode_visibleIndex s now fromNode namespaces token
  | servePull fromNode keys token => exact sameNode_touchPeer s now fromNode
  | checkHold => exact sameNode_disconnect now (s.staleSessions now) s
  | gcTombstones =>
    simp only [exec, gcTombstones]
    split <;> exact ⟨rfl, rfl, rfl⟩
  | onLocalMutation dataset sid op => cases op <;> exact ⟨rfl, rfl, rfl⟩
  | handleOpen | disconnectPeer | pruneSuppression | registryWrite => exact ⟨rfl, rfl, rfl⟩

theorem noSelf_exec {s : ClusterStore} (h : s.NoSelf) (now : Now) (op : Operation) : (s.exec now op).NoSelf := by
  have hrows : ∀ r ∈ (s.exec now op).overlay.records.rows, r.originId ≠ s.nodeId := by
    rw [overlay_exec]
    exact Overlay.actAll_induct
      (P := fun o : Overlay scheme ℚ => ∀ r ∈ o.records.rows, r.originId ≠ s.nodeId)
      (fun _ ho a _ => Overlay.foreign_act ho a) h
  intro env henv
  rw [(sameNode_exec s now op).node]
  exact hrows env henv

/-- One event of a run. -/
def step (s : ClusterStore) (e : Now × Operation) : ClusterStore := s.exec e.1 e.2

theorem sameNode_run (s : ClusterStore) (es : List (Now × Operation)) : SameNode s (run step s es) :=
  run_invariant (I := SameNode s) ⟨rfl, rfl, rfl⟩ fun s' e h => h.trans (sameNode_exec s' e.1 e.2)

end ClusterStore

end AgentProtocol
