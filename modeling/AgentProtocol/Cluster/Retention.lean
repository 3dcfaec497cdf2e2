-- SUMMARY: How long a stored deletion of another node's record protects against stale copies of it.
import AgentProtocol.Cluster.Operations

/-!
# Retention of foreign tombstones

A stored tombstone refuses every older copy of its record, from whichever node and
however late it comes, until it is collected. Collection ages it by this node's wall
clock against the timestamp its origin stamped it with, so how long it lasts here
depends on the two clocks and on how late it arrived.
-/

namespace AgentProtocol

open Lib

namespace ClusterStore

/-- The origins whose records an operation evicts. -/
def evicts (s : ClusterStore) (now : Now) : Operation → List String
  | .checkHold => s.staleSessions now
  | .disconnectPeer node => [node]
  | _ => []

/-- Does the operation collect the tombstone stored under `key`? That is the case
for a collection that finds it there older than the retention window. -/
def collects (s : ClusterStore) (now : Now) (key : Key) : Operation → Bool
  | .gcTombstones => (s.foreign.get? key).any fun env =>
      env.tombstone && expired s.config now env.version.ms
  | _ => false

/-- No live record under `key` is older than `v`. -/
def NoStale (s : ClusterStore) (key : Key) (v : Version) : Prop :=
  ∀ env, s.foreign.get? key = some env → env.tombstone = false → v ≤ env.version

/-- From `s` on and for the retention window after `start`, by this node's own clock
and as long as the origin is not evicted, no live record under `key` is ever older
than `v`. -/
def RetainedFrom (s : ClusterStore) (start : ℚ) (key : Key) (v : Version) : Prop :=
  ∀ es : List (Now × Operation), (start :: es.map fun e => e.1.mono).Pairwise (· ≤ ·) →
    (∀ e ∈ es, e.1.mono ≤ start + s.config.tombstoneRetention) →
    Along step (fun s e => key.originId ∉ s.evicts e.1 e.2) s es →
    ∀ pre, pre <+: es → (run step s pre).NoStale key v

variable {s : ClusterStore} {op : Operation} {now : Now}

theorem actions_collect {p : SyncEnvelope → Bool} (h : Overlay.Action.collect p ∈ s.actions now op) :
    op = .gcTombstones ∧ p = fun env => env.tombstone && expired s.config now env.version.ms := by
  cases op <;> simp only [actions, List.mem_map, List.mem_singleton, List.not_mem_nil, reduceCtorEq,
    and_false, exists_false, Overlay.Action.collect.injEq] at h
  case connectPeer address namespaces token t =>
    split at h <;> simp at h
  case gcTombstones => exact ⟨rfl, h⟩

variable {key : Key}

theorem originId_of_get? {t : Table SyncEnvelope.key} {env : SyncEnvelope}
    (h : t.get? key = some env) : env.originId = key.originId := by
  rw [← Table.key_of_get? h]
  rfl

theorem holds_exec {v : Version} (h : s.overlay.Holds key v) (hevict : key.originId ∉ s.evicts now op)
    (hcollect : s.collects now key op = false) : (s.exec now op).overlay.Holds key v := by
  have hspared : ∀ o : Overlay scheme ℚ, ∀ a ∈ s.actions now op, ∀ node d, a = .evict node d →
      ∀ m, o.records.get? key = some m → m.originId ≠ node := by
    intro o a ha node d he m hm hnode
    subst he
    rw [originId_of_get? hm] at hnode
    rcases actions_evict ha with ⟨-, ⟨rfl, hmem⟩ | rfl⟩
    · exact hevict (hnode ▸ hmem)
    · exact hevict (hnode ▸ List.mem_singleton_self _)
  rw [overlay_exec]
  by_cases hgc : ∃ p, Overlay.Action.collect p ∈ s.actions now op
  · -- A collection is the only action of its operation, and it finds nothing to drop.
    obtain ⟨p, hp⟩ := hgc
    obtain ⟨rfl, -⟩ := actions_collect hp
    have hacts : s.actions now .gcTombstones =
        [.collect fun env => env.tombstone && expired s.config now env.version.ms] := rfl
    rw [hacts, Overlay.actAll_cons, Overlay.actAll_nil]
    refine h.act (fun node d he => by cases he) (fun p he m hm => ?_)
    cases he
    have hget : s.foreign.get? key = some m := hm
    simpa [collects, hget] using hcollect
  · refine Overlay.actAll_induct (P := fun o : Overlay scheme ℚ => o.Holds key v)
      (fun o ho a ha => ho.act (hspared o a ha) fun p he => ?_) h
    subst he
    exact absurd ⟨p, ha⟩ hgc

theorem stale_stored_of_collects (hcollect : s.collects now key .gcTombstones = true) (hforeign : key.originId ≠ s.nodeId)
    (hsup : s.suppressed now key.originId = false) {env : SyncEnvelope} (hkey : env.key = key) :
    (run step s [(now, .gcTombstones), (now, .applyInbound env)]).foreign.get? key = some env := by
  subst hkey
  have hforgot : (s.exec now .gcTombstones).foreign.get? env.key = none := by
    have hget : (s.exec now .gcTombstones).foreign.get? env.key =
        (s.foreign.get? env.key).filter
          fun e => !(e.tombstone && expired s.config now e.version.ms) := by
      rw [← Table.get?_filter]
      exact congrArg (fun o : Overlay scheme ℚ => o.records.get? env.key) (gcTombstones_overlay s now)
    rw [hget]
    cases he : s.foreign.get? env.key with
    | none => rfl
    | some e =>
      have hexp : (e.tombstone && expired s.config now e.version.ms) = true := by
        simpa [collects, he] using hcollect
      simp [Option.filter, hexp]
  have hnode : env.originId ≠ (s.exec now .gcTombstones).nodeId := by
    rw [(sameNode_exec s now .gcTombstones).node]
    exact hforeign
  have hsup' : (s.exec now .gcTombstones).suppressed now env.originId = false := by
    have hsame : (s.exec now .gcTombstones).evictedUntil = s.evictedUntil :=
      congrArg Overlay.deadlines (gcTombstones_overlay s now)
    unfold suppressed at hsup ⊢
    rw [hsame]
    exact hsup
  change ((s.exec now .gcTombstones).applyInbound now env).2.foreign.get? env.key = some env
  unfold applyInbound
  rw [if_neg hnode, hsup', hforgot]
  exact Table.get?_insert_self _ env

/-- A stored deletion keeps every older copy of its record out in every state of
every run in which no collection finds it past the window; and once a collection
does, the next copy is stored. -/
theorem no_early_resurrection (s : ClusterStore) (key : Key) (tomb : SyncEnvelope)
    (hstored : s.foreign.get? key = some tomb) (hforeign : key.originId ≠ s.nodeId) (es : List (Now × Operation))
    (hevict : Along step (fun s e => key.originId ∉ s.evicts e.1 e.2) s es) :
    (Along step (fun s e => s.collects e.1 key e.2 = false) s es →
      ∀ pre, pre <+: es → (run step s pre).NoStale key tomb.version) ∧
    (∀ pre now, pre <+: es → (run step s pre).collects now key .gcTombstones = true →
      (run step s pre).suppressed now key.originId = false →
      ∀ env, env.key = key → env.tombstone = false → env.version < tomb.version →
        ¬ (run step s (pre ++ [(now, .gcTombstones), (now, .applyInbound env)])).NoStale key tomb.version) := by
  refine ⟨fun hspared pre hpre => ?_, fun pre now hpre hcollect hsup env hkey hlive hold => ?_⟩
  · obtain ⟨post, rfl⟩ := hpre
    have hboth := (along_append.mp hevict).1.and (along_append.mp hspared).1
    have hholds : (run step s pre).overlay.Holds key tomb.version :=
      hboth.invariant (I := fun s => s.overlay.Holds key tomb.version) ⟨tomb, hstored, le_refl _⟩
        fun s e hs he => holds_exec hs he.1 he.2
    obtain ⟨m, hm, hle⟩ := hholds
    intro env henv _
    cases hm.symm.trans henv
    exact hle
  · have hnode : key.originId ≠ (run step s pre).nodeId := by
      rw [(sameNode_run s pre).node]
      exact hforeign
    intro hstale
    rw [run_append] at hstale
    have hle := hstale env (stale_stored_of_collects hcollect hnode hsup hkey) hlive
    exact absurd hle (not_le.mpr hold)

/-- A deletion stamped by `"A"` at 200, and an older copy of the record. -/
def deletion : SyncEnvelope :=
  { dataset := "d", serviceId := "s", originId := "A", version := ⟨200, "A"⟩, tombstone := true }

def staleCopy : SyncEnvelope :=
  { dataset := "d", serviceId := "s", originId := "A", version := ⟨100, "A"⟩ }

/-- A replica that stored the deletion, ten seconds after it was made. -/
def replica : ClusterStore :=
  (ClusterStore.applyInbound { state := { nodeId := "B" } } ⟨10, 10200⟩ deletion).2

theorem no_early_resurrection_sample :
    (run step replica [(⟨20, 20200⟩, .gcTombstones), (⟨21, 21200⟩, .applyInbound staleCopy)]).NoStale
      deletion.key deletion.version :=
  (no_early_resurrection replica deletion.key deletion (by decide) (by decide) _ (by decide)).1
    (by decide +kernel) _ (List.prefix_refl _)

/-- A replica whose clock is a minute ahead forgets the deletion at its next
collection, a second after it stored it. -/
theorem early_resurrection : ¬ ∀ (s : ClusterStore) (now : Now) (tomb : SyncEnvelope), tomb.tombstone = true →
      tomb.originId ≠ s.nodeId → (s.applyInbound now tomb).1 = true →
      RetainedFrom (s.applyInbound now tomb).2 now.mono tomb.key tomb.version := by
  intro h
  have hstale := h { state := { nodeId := "B" } } ⟨0, 60200⟩ deletion rfl (by decide) (by decide)
    [(⟨1, 61200⟩, .gcTombstones), (⟨2, 62200⟩, .applyInbound staleCopy)]
    (by decide +kernel) (by decide +kernel) (by decide) _ (List.prefix_refl _) staleCopy
    (by decide +kernel) rfl
  exact absurd hstale (by decide)

end ClusterStore

end AgentProtocol
