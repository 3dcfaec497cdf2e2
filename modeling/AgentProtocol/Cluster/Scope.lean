-- SUMMARY: Removals that concern another cluster: which of them a node acts upon all the same.
import AgentProtocol.Cluster.Integrity

/-!
# Scope of removals

A removal names the cluster that it is about: the body of `evicted` has a `cluster_id`,
and so has a tombstone. Neither `handle_evicted` nor `merge` reads it, so a removal from
a cluster that a node has left takes it out of the one it is in.
-/

namespace AgentProtocol

open Lib

/-- The body of `evicted`. -/
structure EvictRequest where
  fromNode : String
  clusterId : Option String := none
  token : Option String := none

/-- How a node hears that it was removed. -/
inductive Removal where
  /-- The coordinator says so. -/
  | evicted (body : EvictRequest)
  /-- A tombstone for this node is pushed to it. -/
  | pushed (fromNode : String) (tomb : MembershipRecord) (token : Option String)
  /-- Anti-entropy, or the roster of a `join`, brings the tombstone. -/
  | merged (tomb : MembershipRecord)

namespace Removal

def clusterId : Removal → Option String
  | .evicted body => body.clusterId
  | .pushed _ tomb _ => tomb.clusterId
  | .merged tomb => tomb.clusterId

def About (node : String) : Removal → Prop
  | .evicted _ => True
  | .pushed _ tomb _ => tomb.nodeId = node ∧ tomb.removed = true
  | .merged tomb => tomb.nodeId = node ∧ tomb.removed = true

end Removal

namespace MembershipStore

def receive (m : MembershipStore) (now : Now) : Removal → MembershipStore
  | .evicted body => (m.handleEvicted now body.fromNode body.token).2
  | .pushed fromNode tomb token => (m.serveSetSync now fromNode [tomb.toDict] token).2
  | .merged tomb => (m.merge now [tomb.toDict]).2

/-- The removal gets past the session gate, and a tombstone wins over the node's own
record. -/
def heeds (m : MembershipStore) : Removal → Bool
  | .evicted body => m.store.authed body.fromNode body.token
  | .pushed fromNode tomb token => m.store.authed fromNode token && newer m.roster tomb
  | .merged tomb => newer m.roster tomb

/-- Cluster, roster, sessions and replicated records are the same. -/
structure Unmoved (m m' : MembershipStore) : Prop where
  clusterId : m'.clusterId = m.clusterId
  roster : m'.roster = m.roster
  sessions : m'.store.sessions = m.store.sessions
  foreign : m'.store.foreign = m.store.foreign

theorem Unmoved.refl (m : MembershipStore) : Unmoved m m := ⟨rfl, rfl, rfl, rfl⟩

theorem clusterId_of_roster_empty {m : MembershipStore} (h : m.roster = ∅) : m.clusterId = none := by
  rw [clusterId, h, Table.get?_empty]
  rfl

theorem merge_tombstone {m : MembershipStore} {tomb : MembershipRecord} (hnode : tomb.nodeId = m.nodeId)
    (hremoved : tomb.removed = true) (now : Now) :
    (m.merge now [tomb.toDict]).2 = if newer m.roster tomb then m.becomeStandalone now else m := by
  cases hnewer : newer m.roster tomb with
  | false => simp [merge, mergeLoop, MembershipRecord.toDict, WireRecord.fromDict, hnewer]
  | true => simp [merge, mergeLoop, MembershipRecord.toDict, WireRecord.fromDict, hnewer, hnode, hremoved]

theorem receive_eq {m : MembershipStore} {removal : Removal} (habout : removal.About m.nodeId) (now : Now) :
    m.receive now removal = if m.heeds removal then m.becomeStandalone now else m := by
  cases removal with
  | evicted body =>
    cases hauthed : m.store.authed body.fromNode body.token <;> simp [receive, handleEvicted, heeds, hauthed]
  | pushed fromNode tomb token =>
    have hmerge := merge_tombstone habout.1 habout.2 now
    cases hauthed : m.store.authed fromNode token <;> simp [receive, serveSetSync, heeds, hauthed, hmerge]
  | merged tomb => exact merge_tombstone habout.1 habout.2 now

/-- A removal leaves a node that is in a cluster alone iff the node does not heed it.
Which cluster the removal is about, this one or another, makes no difference. -/
theorem removal_unmoved_iff (m : MembershipStore) (now : Now) (removal : Removal) (current : String)
    (hmember : m.clusterId = some current) (habout : removal.About m.nodeId) :
    Unmoved m (m.receive now removal) ↔ m.heeds removal = false := by
  rw [receive_eq habout]
  cases m.heeds removal with
  | false => exact iff_of_true (Unmoved.refl m) rfl
  | true =>
    refine iff_of_false (fun h => ?_) (by simp)
    have hcid := h.clusterId
    rw [if_pos rfl, clusterId_of_roster_empty rfl, hmember] at hcid
    cases hcid

/-- A member of `new`, which it joined at time 5. -/
def movedStore : MembershipStore where
  store := { state := { nodeId := "M", clusterId := some "new" } }
  roster := ⟨[⟨"M", some "new", "http://m", ⟨5, "M"⟩, false⟩, ⟨"B", some "new", "http://b", ⟨6, "B"⟩, false⟩],
    by decide⟩

/-- The tombstone that the cluster `old`, at a given time of its coordinator's clock,
wrote for this member. -/
def oldTombstone (ms : ℤ) : MembershipRecord := ⟨"M", some "old", "http://m", ⟨ms, "A"⟩, true⟩

theorem removal_unmoved_sample : Unmoved movedStore (movedStore.receive ⟨0, 0⟩ (.merged (oldTombstone 4))) ∧
      ¬ Unmoved movedStore (movedStore.receive ⟨0, 0⟩ (.merged (oldTombstone 9))) := by
  have hiff : ∀ ms, Unmoved movedStore (movedStore.receive ⟨0, 0⟩ (.merged (oldTombstone ms))) ↔ _ := fun ms =>
    removal_unmoved_iff movedStore ⟨0, 0⟩ (.merged (oldTombstone ms)) "new" (by decide) ⟨rfl, rfl⟩
  exact ⟨(hiff 4).mpr (by decide), fun h => absurd ((hiff 9).mp h) (by decide)⟩

/-- The old cluster's coordinator gets through to a node that has moved on. -/
theorem removal_crosses_clusters : ¬ ∀ (m : MembershipStore) (now : Now) (removal : Removal) (current other : String),
      m.clusterId = some current → removal.clusterId = some other → other ≠ current →
      removal.About m.nodeId → Unmoved m (m.receive now removal) := by
  intro h
  have hunmoved := h movedStore ⟨0, 0⟩ (.evicted { fromNode := "A", clusterId := some "old" }) "new" "old"
    (by decide) rfl (by decide) trivial
  exact absurd hunmoved.clusterId (by decide)

end MembershipStore

end AgentProtocol
