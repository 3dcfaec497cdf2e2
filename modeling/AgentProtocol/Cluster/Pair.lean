-- SUMMARY: Two stores of an open cluster with local writes, lossy broadcasts, reconciliation and collection, and the invariant that ties copies to their origin.
import AgentProtocol.Cluster.Exchange

/-!
# A pair of stores

Two nodes of an open cluster, `a` and `b`, with a session in each direction. Local
writes go through the registry and then through the mutation hook; the broadcast
that follows reaches the other node or is lost, and may still reach it later or
again. Records of third nodes arrive at any time.

Every event is performed by one of the two nodes. `act` describes it for `a`, and an
event of `b` is the same on the swapped pair.

The invariant is about copies: a record of `a` that is on its way to `b` or held by
it carries a version that `a` stamped, and none later than what `a` says about that
record now.
-/

namespace AgentProtocol

open Lib

/-! ## Local writes -/

inductive LocalWrite where
  | register (dataset : String) (entry : RegistryEntry)
  | update (dataset sid : String) (merge : String → Except RegistryError String)
      (caller : Option AuthContext)
  | deregister (dataset sid : String) (caller : Option AuthContext)
  | deleteDataset (name : String)

/-- A registry call with the hook that follows it, and the envelope to broadcast.
Deleting a dataset runs no hook. -/
def ClusterStore.write (s : ClusterStore) (now : Now) (w : LocalWrite) :
    Option SyncEnvelope × ClusterStore :=
  match s.registry with
  | none => (none, s)
  | some reg =>
    match w with
    | .register dataset entry =>
      ClusterStore.onLocalMutation { s with registry := some (reg.doRegister dataset entry) } now
        dataset entry.serviceId .register
    | .update dataset sid merge caller =>
      match reg.updateService dataset sid merge caller with
      | .error _ => (none, s)
      | .ok reg => ClusterStore.onLocalMutation { s with registry := some reg } now dataset sid .update
    | .deregister dataset sid caller =>
      match reg.deregister dataset sid caller with
      | .error _ => (none, s)
      | .ok reg =>
        ClusterStore.onLocalMutation { s with registry := some reg } now dataset sid .deregister
    | .deleteDataset name =>
      match reg.deleteDataset name with
      | .error _ => (none, s)
      | .ok reg => (none, { s with registry := some reg })

/-! ## The system -/

structure Pair where
  a : ClusterStore
  b : ClusterStore
  /-- Everything either node has broadcast to the other. -/
  sent : List SyncEnvelope := []

namespace Pair

def swap (p : Pair) : Pair := { a := p.b, b := p.a, sent := p.sent }

inductive Act where
  /-- A local write; its broadcast reaches the other node at once or is lost. -/
  | write (w : LocalWrite) (delivered : Bool)
  /-- An earlier broadcast reaches this node late, or again. -/
  | replay (env : SyncEnvelope)
  /-- A record of a third node reaches this node. -/
  | thirdParty (env : SyncEnvelope)
  | gc
  | reconcile

inductive Side where
  | a
  | b
  deriving DecidableEq

structure Event where
  side : Side
  now : Now
  act : Act

/-- Send what a local write produced, if the session with the other node syncs its
dataset. -/
def broadcast (p : Pair) (now : Now) (env : SyncEnvelope) (delivered : Bool) : Pair :=
  match (p.a.broadcastTargets env).find? (·.nodeId = p.b.nodeId) with
  | none => p
  | some peer =>
    { p with
      b := if delivered then (p.b.serveUpdates now p.a.nodeId [env.modelDump] peer.token).2 else p.b
      sent := p.sent ++ [env] }

/-- An event performed by `a`. -/
def act (p : Pair) (now : Now) : Act → Pair
  | .write w delivered =>
    let (env, a) := p.a.write now w
    match env with
    | none => { p with a }
    | some env => broadcast { p with a } now env delivered
  | .replay env =>
    if env ∈ p.sent then { p with a := (p.a.serveUpdates now p.b.nodeId [env.modelDump] none).2 } else p
  | .thirdParty env =>
    if env.originId = p.a.nodeId ∨ env.originId = p.b.nodeId then p
    else { p with a := (p.a.serveUpdates now env.originId [env.modelDump] none).2 }
  | .gc => { p with a := (p.a.gcTombstones now).2 }
  | .reconcile =>
    match p.a.sessions.get? p.b.nodeId with
    | none => p
    | some peer =>
      let (_, a, b) := p.a.reconcile (ClusterStore.inProcess now "") now peer p.b
      { p with a, b }

def step (p : Pair) (e : Event) : Pair :=
  match e.side with
  | .a => p.act e.now e.act
  | .b => (p.swap.act e.now e.act).swap

end Pair

/-! ## How a store's own records evolve -/

namespace ClusterStore

/-- What any operation may do to the versions and tombstones of a store: drop some,
and add others that are later than every stamp before. -/
structure Evolves (s s' : ClusterStore) : Prop where
  node : s'.nodeId = s.nodeId
  clock : s.state.versionClock ≤ s'.state.versionClock
  versions : ∀ k v, s'.state.localVersions.lookup k = some v →
    s.state.localVersions.lookup k = some v ∨
      (v.node = s.nodeId ∧ s.state.versionClock < v.ms ∧ v.ms ≤ s'.state.versionClock)
  tombs : ∀ k t, s'.state.tombstones.lookup k = some t →
    s.state.tombstones.lookup k = some t ∨
      (t.version.node = s.nodeId ∧ s.state.versionClock < t.version.ms ∧
        t.version.ms ≤ s'.state.versionClock ∧ t.version.ms = t.deletedAtMs)
  apart : (∀ k v, s.state.localVersions.lookup k = some v → s.state.tombstones.lookup k = none) →
    ∀ k v, s'.state.localVersions.lookup k = some v → s'.state.tombstones.lookup k = none

variable {s s' : ClusterStore}

theorem Evolves.of_state (h : s'.state = s.state) : Evolves s s' := by
  refine ⟨by rw [nodeId, nodeId, h], by rw [h], fun k v hv => .inl ?_, fun k t ht => .inl ?_, ?_⟩
  · rwa [h] at hv
  · rwa [h] at ht
  · rw [h]
    exact id

theorem Evolves.trans {s₁ s₂ s₃ : ClusterStore} (h₁ : Evolves s₁ s₂) (h₂ : Evolves s₂ s₃) : Evolves s₁ s₃ := by
  refine ⟨h₂.node.trans h₁.node, h₁.clock.trans h₂.clock, fun k v hv => ?_, fun k t ht => ?_,
    fun hapart => h₂.apart (h₁.apart hapart)⟩
  · rcases h₂.versions k v hv with hv | ⟨hn, hlt, hle⟩
    · rcases h₁.versions k v hv with hv | ⟨hn, hlt, hle⟩
      · exact .inl hv
      · exact .inr ⟨hn, hlt, hle.trans h₂.clock⟩
    · exact .inr ⟨hn.trans h₁.node, h₁.clock.trans_lt hlt, hle⟩
  · rcases h₂.tombs k t ht with ht | ⟨hn, hlt, hle, hd⟩
    · rcases h₁.tombs k t ht with ht | ⟨hn, hlt, hle, hd⟩
      · exact .inl ht
      · exact .inr ⟨hn, hlt, hle.trans h₂.clock, hd⟩
    · exact .inr ⟨hn.trans h₁.node, h₁.clock.trans_lt hlt, hle, hd⟩

theorem evolves_ensureLocalVersions (s : ClusterStore) (now : Now) : Evolves s (s.ensureLocalVersions now) := by
  have h := stamps_ensureLocalVersions s now
  refine ⟨h.node, h.clock, fun k v hv => ?_, fun k t ht => .inl ?_, fun hapart k v hv => ?_⟩
  · rcases h.fresh k v hv with hv | ⟨hn, hlt, hle, -⟩
    · exact .inl hv
    · exact .inr ⟨hn, hlt, hle⟩
  · rwa [h.tombs] at ht
  · rw [h.tombs]
    rcases h.fresh k v hv with hv | ⟨-, -, -, ht⟩
    · exact hapart k v hv
    · exact ht

theorem evolves_stampMutation (s : ClusterStore) (now : Now) (ds sid : String) (op : MutationOp) :
    Evolves s (s.stampMutation now ds sid op) := by
  have hlt := s.lt_nextTs now
  have hnew : (s.freshVersion now).node = s.nodeId ∧ s.state.versionClock < (s.freshVersion now).ms ∧
      (s.freshVersion now).ms ≤ (s.nextTs now).1 := ⟨rfl, hlt, le_refl _⟩
  by_cases hop : op = .deregister
  · subst hop
    have hdead := s.stampMutation_dead now ds sid
    refine ⟨by simp, by simpa using hlt.le, fun k v hv => ?_, fun k t ht => ?_, fun hapart k v hv => ?_⟩
    · rw [(hdead k).1] at hv
      split at hv
      · cases hv
      exact .inl hv
    · rw [(hdead k).2] at ht
      split at ht
      · cases ht
        exact .inr ⟨hnew.1, hnew.2.1, by simpa using hnew.2.2, rfl⟩
      · exact .inl ht
    · rw [(hdead k).1] at hv
      split at hv
      · cases hv
      rename_i hk
      rw [(hdead k).2, if_neg fun h => hk h.symm]
      exact hapart k v hv
  · have hlive := s.stampMutation_live now ds sid hop
    refine ⟨by simp, by simpa using hlt.le, fun k v hv => ?_, fun k t ht => ?_, fun hapart k v hv => ?_⟩
    · rw [(hlive k).1] at hv
      split at hv
      · cases hv
        exact .inr ⟨hnew.1, hnew.2.1, by simpa using hnew.2.2⟩
      · exact .inl hv
    · rw [(hlive k).2] at ht
      split at ht
      · cases ht
      exact .inl ht
    · rw [(hlive k).2]
      split
      · rfl
      · rename_i hk
        rw [(hlive k).1, if_neg fun h => hk h.symm] at hv
        exact hapart k v hv

theorem gcTombstones_state (s : ClusterStore) (now : Now) : (s.gcTombstones now).2.state = { s.state with
        tombstones := s.state.tombstones.filter fun p => !expired s.config now p.2.deletedAtMs } := by
  unfold gcTombstones
  dsimp only
  split <;> rfl

theorem evolves_gcTombstones (s : ClusterStore) (now : Now) : Evolves s (s.gcTombstones now).2 := by
  have hstate := s.gcTombstones_state now
  refine ⟨by rw [nodeId, nodeId, hstate], by rw [hstate], fun k v hv => .inl ?_, fun k t ht => .inl ?_,
    fun hapart k v hv => ?_⟩
  · rwa [hstate] at hv
  · rw [hstate, Dict.lookup_filter] at ht
    exact (Option.filter_eq_some_iff.mp ht).1
  · rw [hstate] at hv ⊢
    rw [Dict.lookup_filter, hapart k v hv]
    rfl

/-! ## Copies -/

/-- The store's own records: stamped by itself, not ahead of its clock, and each
either live or deleted. -/
structure OwnRecords (s : ClusterStore) : Prop where
  self : s.NoSelf
  versions : ∀ k v, s.state.localVersions.lookup k = some v →
    v.node = s.nodeId ∧ v.ms ≤ s.state.versionClock
  tombs : ∀ k t, s.state.tombstones.lookup k = some t →
    t.version.node = s.nodeId ∧ t.version.ms ≤ s.state.versionClock ∧ t.version.ms = t.deletedAtMs
  apart : ∀ k v, s.state.localVersions.lookup k = some v → s.state.tombstones.lookup k = none

theorem OwnRecords.mono (h : s.OwnRecords) (he : Evolves s s') (hself : s'.NoSelf) : s'.OwnRecords := by
  refine ⟨hself, fun k v hv => ?_, fun k t ht => ?_, he.apart h.apart⟩
  · rcases he.versions k v hv with hv | ⟨hn, -, hle⟩
    · exact ⟨(h.versions k v hv).1.trans he.node.symm, (h.versions k v hv).2.trans he.clock⟩
    · exact ⟨hn.trans he.node.symm, hle⟩
  · rcases he.tombs k t ht with ht | ⟨hn, -, hle, hd⟩
    · obtain ⟨hn, hle, hd⟩ := h.tombs k t ht
      exact ⟨hn.trans he.node.symm, hle.trans he.clock, hd⟩
    · exact ⟨hn.trans he.node.symm, hle, hd⟩

/-- `env` is what `src` says about one of its records, or once said. -/
structure CopyOf (src : ClusterStore) (env : SyncEnvelope) : Prop where
  node : env.version.node = src.nodeId
  clock : env.version.ms ≤ src.state.versionClock
  live : ∀ v, src.state.localVersions.lookup (makeKey env.dataset env.serviceId) = some v →
    env.version ≤ v
  dead : ∀ t, src.state.tombstones.lookup (makeKey env.dataset env.serviceId) = some t →
    env.version < t.version ∨ (env.version = t.version ∧ env.tombstone = true)

theorem CopyOf.mono {src src' : ClusterStore} {env : SyncEnvelope} (h : CopyOf src env)
    (he : Evolves src src') : CopyOf src' env := by
  refine ⟨h.node.trans he.node.symm, h.clock.trans he.clock, fun v hv => ?_, fun t ht => ?_⟩
  · rcases he.versions _ v hv with hv | ⟨-, hlt, -⟩
    · exact h.live v hv
    · exact (Version.lt_of_ms_lt (h.clock.trans_lt hlt)).le
  · rcases he.tombs _ t ht with ht | ⟨-, hlt, -⟩
    · exact h.dead t ht
    · exact .inl (Version.lt_of_ms_lt (h.clock.trans_lt hlt))

theorem copyOf_buildLocalEnvelope {s : ClusterStore} (h : s.OwnRecords) {ds sid : String}
    {env : SyncEnvelope} (henv : s.buildLocalEnvelope ds sid = some env) : CopyOf s env := by
  unfold buildLocalEnvelope at henv
  dsimp only at henv
  split at henv
  · rename_i tomb htomb
    cases henv
    obtain ⟨hn, hle, -⟩ := h.tombs _ tomb htomb
    refine ⟨hn, hle, fun v hv => ?_, fun t ht => ?_⟩
    · have hnone := h.apart _ v hv
      rw [htomb] at hnone
      cases hnone
    · rw [htomb] at ht
      cases ht
      exact .inr ⟨rfl, rfl⟩
  · rename_i htomb
    split at henv
    · rename_i v reg hv hreg
      obtain ⟨entry, -, rfl⟩ := Option.map_eq_some_iff.mp henv
      obtain ⟨hn, hle⟩ := h.versions _ v hv
      refine ⟨hn, hle, fun w hw => ?_, fun t ht => ?_⟩
      · rw [hv] at hw
        cases hw
        exact le_refl _
      · rw [htomb] at ht
        cases ht
    · cases henv

/-! ## What stays in place -/

/-- The step changed neither the node's configuration nor its guards nor its
sessions. -/
structure Keeping (s s' : ClusterStore) : Prop extends SameNode s s' where
  cooldowns : s'.evictedUntil = s.evictedUntil
  links : ∀ ns node, s.Linked ns node → s'.Linked ns node

theorem Keeping.refl (s : ClusterStore) : Keeping s s := ⟨⟨rfl, rfl, rfl⟩, rfl, fun _ _ h => h⟩

theorem Keeping.trans {s₁ s₂ s₃ : ClusterStore} (h₁ : Keeping s₁ s₂) (h₂ : Keeping s₂ s₃) : Keeping s₁ s₃ :=
  ⟨h₁.toSameNode.trans h₂.toSameNode, h₂.cooldowns.trans h₁.cooldowns,
    fun ns node h => h₂.links ns node (h₁.links ns node h)⟩

theorem Keeping.unguarded (h : Keeping s s') (hs : s.Unguarded) : s'.Unguarded :=
  ⟨h.auth.trans hs.auth, by rw [h.cooldowns]; exact hs.cooldowns⟩

theorem OnlyForeign.keeping (h : OnlyForeign s s') : Keeping s s' := by
  refine ⟨h.sameNode, h.proj evictedUntil fun _ _ => rfl, fun ns node hl => ?_⟩
  have hsessions : s'.sessions = s.sessions := h.proj sessions fun _ _ => rfl
  unfold Linked
  rw [hsessions]
  exact hl

theorem keeping_touchPeer (s : ClusterStore) (now : Now) (node : String) : Keeping s (s.touchPeer now node) :=
  ⟨sameNode_touchPeer s now node, congrArg Overlay.deadlines (touchPeer_overlay s now node),
    fun _ _ h => linked_touchPeer h now node⟩

theorem keeping_ensureLocalVersions (s : ClusterStore) (now : Now) : Keeping s (s.ensureLocalVersions now) :=
  ⟨sameNode_ensureLocalVersions s now, by simp, fun _ _ h => linked_ensureLocalVersions h now⟩

theorem keeping_answering (s : ClusterStore) (now : Now) (node : String) : Keeping s (s.answering now node) :=
  (keeping_touchPeer s now node).trans (keeping_ensureLocalVersions _ now)

theorem keeping_gcTombstones (s : ClusterStore) (now : Now) : Keeping s (s.gcTombstones now).2 := by
  unfold gcTombstones
  dsimp only
  split <;> exact ⟨⟨rfl, rfl, rfl⟩, rfl, fun _ _ h => h⟩

theorem keeping_onLocalMutation (s : ClusterStore) (reg : Option RegistryService) (now : Now)
    (ds sid : String) (op : MutationOp) :
    Keeping s (ClusterStore.onLocalMutation { s with registry := reg } now ds sid op).2 := by
  cases op <;> exact ⟨⟨rfl, rfl, rfl⟩, rfl, fun _ _ h => h⟩

/-! ## Local writes -/

/-- What a local write does: it moves the store's own records on, leaves the overlay
alone, and broadcasts a copy of what the store now says about a record of its own. -/
structure Written (s s' : ClusterStore) (env : Option SyncEnvelope) : Prop where
  keeping : Keeping s s'
  evolves : Evolves s s'
  foreign : s'.foreign = s.foreign
  copy : ∀ e, env = some e → ∃ ds sid, s'.buildLocalEnvelope ds sid = some e

theorem written_onLocalMutation (s : ClusterStore) (reg : Option RegistryService) (now : Now)
    (ds sid : String) (op : MutationOp) :
    Written s (ClusterStore.onLocalMutation { s with registry := reg } now ds sid op).2
      (ClusterStore.onLocalMutation { s with registry := reg } now ds sid op).1 := by
  refine ⟨keeping_onLocalMutation s reg now ds sid op, ?_, ?_, fun e he => ⟨ds, sid, he⟩⟩
  · have hreg : Evolves s { s with registry := reg } := Evolves.of_state rfl
    exact hreg.trans (evolves_stampMutation _ now ds sid op)
  · cases op <;> rfl

theorem write_cases (s : ClusterStore) (now : Now) (w : LocalWrite) : s.write now w = (none, s) ∨
    (∃ reg, s.write now w = (none, { s with registry := some reg })) ∨
    ∃ reg ds sid op,
      s.write now w = ClusterStore.onLocalMutation { s with registry := some reg } now ds sid op := by
  unfold write
  cases hreg : s.registry with
  | none => exact .inl rfl
  | some reg =>
    cases w with
    | register dataset entry => exact .inr (.inr ⟨_, _, _, _, rfl⟩)
    | update | deregister =>
      dsimp only
      split
      · exact .inl rfl
      · exact .inr (.inr ⟨_, _, _, _, rfl⟩)
    | deleteDataset name =>
      dsimp only
      split
      · exact .inl rfl
      · exact .inr (.inl ⟨_, rfl⟩)

theorem written_write (s : ClusterStore) (now : Now) (w : LocalWrite) : Written s (s.write now w).2 (s.write now w).1 := by
  rcases write_cases s now w with h | ⟨reg, h⟩ | ⟨reg, ds, sid, op, h⟩
  · rw [h]
    exact ⟨Keeping.refl s, Evolves.of_state rfl, rfl, fun e he => by cases he⟩
  · rw [h]
    exact ⟨⟨⟨rfl, rfl, rfl⟩, rfl, fun _ _ h => h⟩, Evolves.of_state rfl, rfl, fun e he => by cases he⟩
  · rw [h]
    exact written_onLocalMutation s _ now _ _ _

theorem Written.noSelf {env : Option SyncEnvelope} (h : Written s s' env) (hself : s.NoSelf) : s'.NoSelf := by
  unfold NoSelf
  rw [h.foreign, h.keeping.node]
  exact hself

theorem received (s : ClusterStore) (now : Now) (fromNode : String) (env : SyncEnvelope) (token : Option String) :
    Keeping s (s.serveUpdates now fromNode [env.modelDump] token).2 ∧
      (s.serveUpdates now fromNode [env.modelDump] token).2.state = s.state ∧
      (s.serveUpdates now fromNode [env.modelDump] token).2.registry = s.registry ∧
      ∀ e ∈ (s.serveUpdates now fromNode [env.modelDump] token).2.foreign.rows,
        e ∈ s.foreign.rows ∨ (e = env ∧ e.originId ≠ s.nodeId) := by
  have honly := onlyForeign_applyUpdates now fromNode token [env.modelDump] (s.touchPeer now fromNode)
    { accepted := 0, received := 1, rejected := 0 }
  have hoverlay := overlay_applyUpdates now fromNode token [env.modelDump] (s.touchPeer now fromNode)
    { accepted := 0, received := 1, rejected := 0 }
  refine ⟨(keeping_touchPeer s now fromNode).trans honly.keeping, ?_, ?_, fun e he => ?_⟩
  · exact (honly.proj state fun _ _ => rfl).trans (touchPeer_state s now fromNode)
  · exact (honly.proj registry fun _ _ => rfl).trans (touchPeer_registry s now fromNode)
  · rcases mem_of_offered hoverlay he with hmem | ⟨hmem, hown⟩
    · have hrows : (s.touchPeer now fromNode).foreign = s.foreign :=
        congrArg Overlay.records (touchPeer_overlay s now fromNode)
      exact .inl (hrows ▸ hmem)
    · rw [touchPeer_nodeId] at hown
      have hsingle : e ∈ validPrefix [env.modelDump] := List.mem_of_mem_filter hmem
      exact .inr ⟨by simpa [validPrefix] using hsingle, hown⟩

end ClusterStore

/-! ## The invariant of the pair -/

namespace Pair

open ClusterStore

/-- One node of the pair, with the other one and what was broadcast. -/
structure Half (ns : List String) (s other : ClusterStore) (sent : List SyncEnvelope) : Prop where
  own : s.OwnRecords
  guard : s.Unguarded
  link : s.Linked ns other.nodeId
  /-- What the other node holds of this one's records, or may still receive. -/
  copies : ∀ env, env ∈ sent ∨ env ∈ other.foreign.rows → env.originId = s.nodeId → CopyOf s env

structure Inv (ns : List String) (p : Pair) : Prop where
  halfA : Half ns p.a p.b p.sent
  halfB : Half ns p.b p.a p.sent
  distinct : p.a.nodeId ≠ p.b.nodeId
  buckets : p.a.config.merkleBuckets = p.b.config.merkleBuckets

variable {ns : List String} {p : Pair}

theorem Inv.swap (h : p.Inv ns) : p.swap.Inv ns :=
  ⟨h.halfB, h.halfA, h.distinct.symm, h.buckets.symm⟩

theorem Half.mono {s s' other other' : ClusterStore} {sent sent' : List SyncEnvelope}
    (h : Half ns s other sent) (hkeep : Keeping s s') (hevo : Evolves s s') (hself : s'.NoSelf)
    (hother : other'.nodeId = other.nodeId) (hnew : ∀ env, env ∈ sent' ∨ env ∈ other'.foreign.rows → env.originId = s.nodeId →
      (env ∈ sent ∨ env ∈ other.foreign.rows) ∨ CopyOf s' env) : Half ns s' other' sent' where
  own := h.own.mono hevo hself
  guard := hkeep.unguarded h.guard
  link := by
    rw [hother]
    exact hkeep.links ns _ h.link
  copies := by
    intro env henv horigin
    rw [hkeep.node] at horigin
    rcases hnew env henv horigin with hold | hcopy
    · exact (h.copies env hold horigin).mono hevo
    · exact hcopy

theorem Inv.mono {p p' : Pair} (h : p.Inv ns) (hkeepA : Keeping p.a p'.a) (hevoA : Evolves p.a p'.a) (hselfA : p'.a.NoSelf)
    (hkeepB : Keeping p.b p'.b) (hevoB : Evolves p.b p'.b) (hselfB : p'.b.NoSelf)
    (hnewB : ∀ env, env ∈ p'.sent ∨ env ∈ p'.b.foreign.rows → env.originId = p.a.nodeId →
      (env ∈ p.sent ∨ env ∈ p.b.foreign.rows) ∨ CopyOf p'.a env)
    (hnewA : ∀ env, env ∈ p'.sent ∨ env ∈ p'.a.foreign.rows → env.originId = p.b.nodeId →
      (env ∈ p.sent ∨ env ∈ p.a.foreign.rows) ∨ CopyOf p'.b env) : p'.Inv ns where
  halfA := h.halfA.mono hkeepA hevoA hselfA hkeepB.node hnewB
  halfB := h.halfB.mono hkeepB hevoB hselfB hkeepA.node hnewA
  distinct := by
    rw [hkeepA.node, hkeepB.node]
    exact h.distinct
  buckets := by
    rw [hkeepA.conf, hkeepB.conf]
    exact h.buckets

theorem noSelf_of_rows {s s' : ClusterStore} (hself : s.NoSelf) (hnode : s'.nodeId = s.nodeId)
    (hrows : ∀ e ∈ s'.foreign.rows, e ∈ s.foreign.rows ∨ e.originId ≠ s.nodeId) : s'.NoSelf := by
  intro e he
  rw [hnode]
  rcases hrows e he with hold | hne
  · exact hself e hold
  · exact hne

theorem inv_receive (h : p.Inv ns) (now : Now) (fromNode : String)
    {env : SyncEnvelope} (token : Option String) (henv : env.originId = p.b.nodeId → env ∈ p.sent) :
    ({ p with a := (p.a.serveUpdates now fromNode [env.modelDump] token).2 } : Pair).Inv ns := by
  obtain ⟨hkeep, hstate, -, hrows⟩ := received p.a now fromNode env token
  refine h.mono hkeep (Evolves.of_state hstate) ?_ (Keeping.refl _) (Evolves.of_state rfl) h.halfB.own.self
    (fun e he _ => .inl he) (fun e he horigin => .inl ?_)
  · exact noSelf_of_rows h.halfA.own.self hkeep.node fun e he => (hrows e he).imp_right And.right
  · rcases he with hsent | hrow
    · exact .inl hsent
    · rcases hrows e hrow with hold | ⟨rfl, -⟩
      · exact .inr hold
      · exact .inl (henv horigin)

theorem inv_write (h : p.Inv ns) (now : Now) (w : LocalWrite) (delivered : Bool) : (p.act now (.write w delivered)).Inv ns := by
  have hw := written_write p.a now w
  have hselfA := hw.noSelf h.halfA.own.self
  have hfirst : ({ p with a := (p.a.write now w).2 } : Pair).Inv ns :=
    h.mono hw.keeping hw.evolves hselfA (Keeping.refl _) (Evolves.of_state rfl) h.halfB.own.self
      (fun e he _ => .inl he) (fun e he _ => .inl (by rwa [hw.foreign] at he))
  simp only [Pair.act]
  cases henv : (p.a.write now w).1 with
  | none => exact hfirst
  | some env =>
    obtain ⟨ds, sid, hbuild⟩ := hw.copy env henv
    have horigin : env.originId = (p.a.write now w).2.nodeId :=
      congrArg Key.originId (buildLocalEnvelope_key hbuild)
    have hcopy : CopyOf (p.a.write now w).2 env := copyOf_buildLocalEnvelope hfirst.halfA.own hbuild
    dsimp only
    unfold broadcast
    split
    · exact hfirst
    · rename_i peer hpeer
      have hnotB : ∀ e, e = env → e.originId ≠ p.b.nodeId := by
        intro e he
        rw [he, horigin]
        exact hfirst.distinct
      cases delivered with
      | false =>
        refine hfirst.mono (Keeping.refl _) (Evolves.of_state rfl) hselfA (Keeping.refl _)
          (Evolves.of_state rfl) h.halfB.own.self (fun e he _ => ?_) (fun e he horigin' => .inl ?_)
        · rcases he with hsent | hrow
          · rcases List.mem_append.mp hsent with hold | hnew
            · exact .inl (.inl hold)
            · exact .inr ((List.mem_singleton.mp hnew) ▸ hcopy)
          · exact .inl (.inr hrow)
        · rcases he with hsent | hrow
          · rcases List.mem_append.mp hsent with hold | hnew
            · exact .inl hold
            · exact absurd horigin' (hnotB e (List.mem_singleton.mp hnew))
          · exact .inr hrow
      | true =>
        obtain ⟨hkeep, hstate, -, hrows⟩ := received p.b now (p.a.write now w).2.nodeId env peer.token
        refine hfirst.mono (Keeping.refl _) (Evolves.of_state rfl) hselfA hkeep (Evolves.of_state hstate) ?_
          (fun e he _ => ?_) (fun e he horigin' => .inl ?_)
        · exact noSelf_of_rows h.halfB.own.self hkeep.node fun e he => (hrows e he).imp_right And.right
        · rcases he with hsent | hrow
          · rcases List.mem_append.mp hsent with hold | hnew
            · exact .inl (.inl hold)
            · exact .inr ((List.mem_singleton.mp hnew) ▸ hcopy)
          · rcases hrows e hrow with hold | ⟨rfl, -⟩
            · exact .inl (.inr hold)
            · exact .inr hcopy
        · rcases he with hsent | hrow
          · rcases List.mem_append.mp hsent with hold | hnew
            · exact .inl hold
            · exact absurd horigin' (hnotB e (List.mem_singleton.mp hnew))
          · exact .inr hrow

theorem inv_exchange (h : p.Inv ns) {now : Now} {a' b' : ClusterStore}
    {toPull toPush : List Key} (hex : Exchanged p.a p.b now a' b' toPull toPush) :
    ({ p with a := a', b := b' } : Pair).Inv ns := by
  have hevoA : Evolves p.a a' :=
    (evolves_ensureLocalVersions p.a now).trans (Evolves.of_state (hex.onlyA.proj state fun _ _ => rfl))
  have hevoB₁ : Evolves p.b (p.b.answering now p.a.nodeId) :=
    (Evolves.of_state (touchPeer_state p.b now p.a.nodeId)).trans (evolves_ensureLocalVersions _ now)
  have hevoB₂ : Evolves (p.b.answering now p.a.nodeId) b' :=
    Evolves.of_state (hex.onlyB.proj state fun _ _ => rfl)
  have hkeepA : Keeping p.a a' := (keeping_ensureLocalVersions p.a now).trans hex.onlyA.keeping
  have hkeepB : Keeping p.b b' := (keeping_answering p.b now p.a.nodeId).trans hex.onlyB.keeping
  have hselfA := hex.noSelfA h.halfA.own.self
  have hselfB := hex.noSelfB h.halfB.own.self
  have hownA : a'.OwnRecords := h.halfA.own.mono hevoA hselfA
  have hownB : (p.b.answering now p.a.nodeId).OwnRecords :=
    h.halfB.own.mono hevoB₁ (noSelf_answering h.halfB.own.self now p.a.nodeId)
  refine h.mono hkeepA hevoA hselfA hkeepB (hevoB₁.trans hevoB₂) hselfB
    (fun e he horigin => ?_) (fun e he horigin => ?_)
  · rcases he with hsent | hrow
    · exact .inl (.inl hsent)
    · rcases hex.rowsB hrow with hold | ⟨hbuild, -⟩
      · exact .inl (.inr hold)
      · rw [buildEnvelopeForKey, hex.nodeA] at hbuild
        rw [if_pos (show e.key.originId = p.a.nodeId from horigin)] at hbuild
        exact .inr (copyOf_buildLocalEnvelope hownA hbuild)
  · rcases he with hsent | hrow
    · exact .inl (.inl hsent)
    · rcases hex.rowsA hrow with hold | ⟨hbuild, -⟩
      · exact .inl (.inr hold)
      · have hnode : e.key.originId = (p.b.answering now p.a.nodeId).nodeId := by
          rw [hevoB₁.node]
          exact horigin
        rw [buildEnvelopeForKey, if_pos hnode] at hbuild
        exact .inr ((copyOf_buildLocalEnvelope hownB hbuild).mono hevoB₂)

theorem inv_act (h : p.Inv ns) (now : Now) (act : Act) : (p.act now act).Inv ns := by
  cases act with
  | write w delivered => exact inv_write h now w delivered
  | replay env =>
    simp only [Pair.act]
    split
    · rename_i hsent
      exact inv_receive h now p.b.nodeId none fun _ => hsent
    · exact h
  | thirdParty env =>
    simp only [Pair.act]
    split
    · exact h
    · rename_i horigin
      exact inv_receive h now env.originId none fun hb => absurd (.inr hb) horigin
  | gc =>
    have hrows : ∀ e ∈ (p.a.gcTombstones now).2.foreign.rows, e ∈ p.a.foreign.rows := by
      intro e he
      have hrecords : (p.a.gcTombstones now).2.foreign = _ :=
        congrArg Overlay.records (gcTombstones_overlay p.a now)
      rw [hrecords] at he
      exact List.mem_of_mem_filter he
    have hkeep := keeping_gcTombstones p.a now
    refine h.mono hkeep (evolves_gcTombstones p.a now) ?_ (Keeping.refl _) (Evolves.of_state rfl)
      h.halfB.own.self (fun e he _ => .inl he) (fun e he _ => .inl (he.imp_right (hrows e)))
    exact noSelf_of_rows h.halfA.own.self hkeep.node fun e he => .inl (hrows e he)
  | reconcile =>
    obtain ⟨sess, hsess, hns⟩ := h.halfA.link
    obtain ⟨toPull, toPush, counts, a', b', hrec, -, hex⟩ :=
      reconcile_inProcess h.halfB.guard.auth h.halfB.link hns now ""
    simp only [Pair.act, hsess, hrec]
    exact inv_exchange h hex

theorem inv_step (h : p.Inv ns) (e : Event) : (p.step e).Inv ns := by
  unfold step
  cases e.side with
  | a => exact inv_act h e.now e.act
  | b => exact (inv_act h.swap e.now e.act).swap

theorem inv_run (h : p.Inv ns) (es : List Event) : (run step p es).Inv ns :=
  run_invariant h fun _ e hp => inv_step hp e

/-! ## Where a run starts -/

/-- A store that has stamped, deleted and received nothing, in an open cluster, with
a session to the other node. -/
structure Start (ns : List String) (s other : ClusterStore) : Prop where
  guard : s.Unguarded
  link : s.Linked ns other.nodeId
  versions : s.state.localVersions.rows = []
  tombs : s.state.tombstones.rows = []
  foreign : s.foreign.rows = []

/-- Two nodes that have just opened a session with each other, over `ns` in both
directions, and use the same number of buckets. Their registries may hold anything. -/
structure Initial (ns : List String) (p : Pair) : Prop where
  startA : Start ns p.a p.b
  startB : Start ns p.b p.a
  distinct : p.a.nodeId ≠ p.b.nodeId
  buckets : p.a.config.merkleBuckets = p.b.config.merkleBuckets
  sent : p.sent = []

theorem Start.half {s other : ClusterStore} (h : Start ns s other) (hother : other.foreign.rows = []) : Half ns s other [] where
  own := by
    have hver : ∀ k, s.state.localVersions.lookup k = none :=
      fun k => Dict.lookup_eq_none.mpr (by simp [h.versions])
    have htomb : ∀ k, s.state.tombstones.lookup k = none :=
      fun k => Dict.lookup_eq_none.mpr (by simp [h.tombs])
    refine ⟨?_, ?_, ?_, ?_⟩
    · simp [NoSelf, h.foreign]
    · simp [hver]
    · simp [htomb]
    · simp [hver]
  guard := h.guard
  link := h.link
  copies := by simp [hother]

theorem Initial.inv (h : p.Initial ns) : p.Inv ns := by
  refine ⟨?_, ?_, h.distinct, h.buckets⟩
  · rw [h.sent]
    exact h.startA.half h.startB.foreign
  · rw [h.sent]
    exact h.startB.half h.startA.foreign

end Pair

end AgentProtocol
