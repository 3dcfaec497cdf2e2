-- SUMMARY: Replicas that applied the same envelopes hold the same records, whatever the order, the duplication and the path of delivery.
import AgentProtocol.Cluster.Operations

/-!
# Convergence of replicas

Envelopes reach a store's overlay through `apply_inbound` only: called directly,
for each accepted item of a pushed batch, or for each item of a reconciliation's
pull. As long as a store evicts nothing, the slot of a key holds the greatest
version it was offered, so two stores that applied the same envelopes agree.
-/

namespace AgentProtocol

open Lib

namespace ClusterStore

/-- The envelopes that an operation hands to `apply_inbound`. -/
def applied (s : ClusterStore) (now : Now) (op : Operation) : List SyncEnvelope :=
  (s.actions now op).filterMap Overlay.Action.offered

/-- The envelopes that the events of a run hand to `apply_inbound`, in order. -/
def appliedIn : ClusterStore → List (Now × Operation) → List SyncEnvelope
  | _, [] => []
  | s, e :: es => s.applied e.1 e.2 ++ appliedIn (s.step e) es

/-- The step leaves a record under every key of `S` that had one. -/
def Keeps (S : Set SyncEnvelope) (s : ClusterStore) (e : Now × Operation) : Prop :=
  ∀ env ∈ S, (s.foreign.get? env.key).isSome → ((s.step e).foreign.get? env.key).isSome

/-- No origin of `S` is suppressed when the event happens. -/
def Unsuppressed (S : Set SyncEnvelope) (s : ClusterStore) (e : Now × Operation) : Prop :=
  ∀ env ∈ S, s.suppressed e.1 env.originId = false

/-- `es` delivers the envelopes of `S` to `s`: each at least once, and for their
keys nothing else, to a node that is not their origin, while none of their origins
is suppressed and none of their keys is evicted. -/
structure Delivers (S : Set SyncEnvelope) (s : ClusterStore) (es : List (Now × Operation)) : Prop where
  notOrigin : ∀ env ∈ S, env.originId ≠ s.nodeId
  unsuppressed : Along step (Unsuppressed S) s es
  keeps : Along step (Keeps S) s es
  initial : ∀ env ∈ s.foreign.rows, (∃ env' ∈ S, env'.key = env.key) → env ∈ S
  only : ∀ env ∈ s.appliedIn es, (∃ env' ∈ S, env'.key = env.key) → env ∈ S
  all : ∀ env ∈ S, env ∈ s.appliedIn es

variable {s : ClusterStore}

theorem get?_exec {now : Now} {op : Operation} {key : Key}
    (horigin : key.originId ≠ s.nodeId) (hsup : s.suppressed now key.originId = false)
    (hkeep : (s.foreign.get? key).isSome → ((s.exec now op).foreign.get? key).isSome) :
    (s.exec now op).foreign.get? key = Lww.offerAll SyncEnvelope.version (s.foreign.get? key)
        ((s.applied now op).filter fun env => decide (env.key = key)) := by
  have hexec : (s.exec now op).foreign.get? key =
      (s.overlay.actAll s.nodeId now.mono (s.actions now op)).records.get? key := by
    rw [← overlay_exec]
    rfl
  have hof : ∀ env ∈ Overlay.offersTo scheme key (s.actions now op), env.originId = key.originId := by
    intro env henv
    have hkey : env.key = key := of_decide_eq_true (List.mem_filter.mp henv).2
    rw [← hkey]
    rfl
  rcases actions_uniform s now op with hacts | hacts
  · rw [hexec]
    refine Overlay.get?_actAll hacts (fun env henv => ?_) (fun env henv => ?_)
    · rw [scheme_origin, hof env henv]
      exact horigin
    · rw [scheme_origin, overlay_suppressed, hof env henv]
      exact hsup
  · have hnone : s.applied now op = [] := List.filterMap_eq_nil_iff.mpr hacts
    rw [hnone]
    change _ = s.foreign.get? key
    -- An operation that offers nothing can only empty the slot, and this one does not.
    have hslot : (s.exec now op).foreign.get? key = s.foreign.get? key ∨
        (s.exec now op).foreign.get? key = none := by
      rw [hexec]
      refine Overlay.actAll_induct
        (P := fun o : Overlay scheme ℚ => o.records.get? key = s.foreign.get? key ∨
          o.records.get? key = none) (fun o ho a ha => ?_) (.inl rfl)
      have hact : (o.act s.nodeId now.mono a).records.get? key = o.records.get? key ∨
          (o.act s.nodeId now.mono a).records.get? key = none :=
        Overlay.get?_act_of_not_offer (hacts a ha) key
      rcases hact with h | h
      · rw [h]
        exact ho
      · exact .inr h
    rcases hslot with h | h
    · exact h
    · cases hs : s.foreign.get? key with
      | none => exact h
      | some env =>
        have := hkeep (by simp [hs])
        simp [h] at this

variable {es : List (Now × Operation)}

theorem get?_run {S : Set SyncEnvelope} {env : SyncEnvelope} (henv : env ∈ S) (horigin : env.originId ≠ s.nodeId)
    (hsup : Along step (Unsuppressed S) s es) (hkeep : Along step (Keeps S) s es) :
    (run step s es).foreign.get? env.key = Lww.offerAll SyncEnvelope.version (s.foreign.get? env.key)
        ((s.appliedIn es).filter fun env' => decide (env'.key = env.key)) := by
  induction es generalizing s with
  | nil => rfl
  | cons e es ih =>
    have hnode : env.originId ≠ (s.step e).nodeId := by
      rw [step, (sameNode_exec s e.1 e.2).node]
      exact horigin
    have hstep : (s.step e).foreign.get? env.key = _ :=
      get?_exec (show env.key.originId ≠ s.nodeId from horigin) (hsup.1 env henv) (hkeep.1 env henv)
    rw [run_cons, ih hnode hsup.2 hkeep.2, hstep, appliedIn, List.filter_append, Lww.offerAll,
      Lww.offerAll, Lww.offerAll, List.foldl_append]

theorem Delivers.greatest {S : Set SyncEnvelope} (h : Delivers S s es) {env : SyncEnvelope} (henv : env ∈ S) :
    ∃ m ∈ S, m.key = env.key ∧ (run step s es).foreign.get? env.key = some m ∧
      ∀ env' ∈ S, env'.key = env.key → env'.version ≤ m.version := by
  have hslot : ∀ m, s.foreign.get? env.key = some m → m ∈ { r ∈ S | r.key = env.key } := by
    intro m hm
    obtain ⟨hrow, hkey⟩ := Table.get?_eq_some.mp hm
    exact ⟨h.initial m hrow ⟨env, henv, hkey.symm⟩, hkey⟩
  have hsub : ∀ r ∈ (s.appliedIn es).filter fun env' => decide (env'.key = env.key),
      r ∈ { r ∈ S | r.key = env.key } := by
    intro r hr
    obtain ⟨hmem, hkey⟩ := List.mem_filter.mp hr
    have hkey : r.key = env.key := by simpa using hkey
    exact ⟨h.only r hmem ⟨env, henv, hkey.symm⟩, hkey⟩
  have hall : ∀ r ∈ { r ∈ S | r.key = env.key },
      r ∈ (s.appliedIn es).filter fun env' => decide (env'.key = env.key) := by
    intro r hr
    exact List.mem_filter.mpr ⟨h.all r hr.1, by simpa using hr.2⟩
  obtain ⟨m, hm, hget, hmax⟩ :=
    Lww.offerAll_isGreatest SyncEnvelope.version hslot hsub hall ⟨env, henv, rfl⟩
  rw [← get?_run henv (h.notOrigin env henv) h.unsuppressed h.keeps] at hget
  exact ⟨m, hm.1, hm.2, hget, fun env' henv' hkey => hmax env' ⟨henv', hkey⟩⟩

/-- Two replicas to which the same envelopes were delivered agree on their keys,
and hold the greatest version of each. -/
theorem replicas_converge (S : Set SyncEnvelope)
    (hS : ∀ env ∈ S, ∀ env' ∈ S, env.key = env'.key → env.version = env'.version → env = env')
    (a b : ClusterStore) (as bs : List (Now × Operation)) (ha : Delivers S a as) (hb : Delivers S b bs) :
    ∀ env ∈ S, (run step a as).foreign.get? env.key = (run step b bs).foreign.get? env.key ∧
      ∃ m ∈ S, m.key = env.key ∧ (run step a as).foreign.get? env.key = some m ∧
        ∀ env' ∈ S, env'.key = env.key → env'.version ≤ m.version := by
  intro env henv
  obtain ⟨m, hm, hkey, hget, hmax⟩ := ha.greatest henv
  obtain ⟨m', hm', hkey', hget', hmax'⟩ := hb.greatest henv
  have hver : m.version = m'.version := le_antisymm (hmax' m hm hkey) (hmax m' hm' hkey')
  have hsame : m = m' := hS m hm m' hm' (hkey.trans hkey'.symm) hver
  exact ⟨by rw [hget, hget', hsame], m, hm, hkey, hget, hmax⟩

/-- A registration and the deregistration that follows it, delivered in either order. -/
def sampleEnvelopes : List SyncEnvelope :=
  [{ dataset := "default", serviceId := "s", originId := "C", version := ⟨100, "C"⟩ },
    { dataset := "default", serviceId := "s", originId := "C", version := ⟨200, "C"⟩, tombstone := true }]

/-- The newer one first and directly, then both as a pushed batch. -/
def sampleRun : List (Now × Operation) :=
  [(⟨1, 1000⟩, .applyInbound
      { dataset := "default", serviceId := "s", originId := "C", version := ⟨200, "C"⟩, tombstone := true }),
    (⟨2, 2000⟩, .serveUpdates "D" (sampleEnvelopes.map SyncEnvelope.modelDump) none)]

/-- In the order they were made, one push. -/
def samplePush : List (Now × Operation) :=
  [(⟨5, 9000⟩, .serveUpdates "C" (sampleEnvelopes.map SyncEnvelope.modelDump) none)]

theorem delivers_of_list {l : List SyncEnvelope} (hempty : s.foreign.rows = []) (horigin : ∀ env ∈ l, env.originId ≠ s.nodeId)
    (hsup : Along step (fun s e => ∀ env ∈ l, s.suppressed e.1 env.originId = false) s es)
    (hkeep : Along step (fun s e => ∀ env ∈ l,
      (s.foreign.get? env.key).isSome → ((s.step e).foreign.get? env.key).isSome) s es)
    (hsub : s.appliedIn es ⊆ l) (hall : l ⊆ s.appliedIn es) : Delivers { env | env ∈ l } s es where
  notOrigin := horigin
  unsuppressed := hsup
  keeps := hkeep
  initial := by simp [hempty]
  only := fun env henv _ => hsub henv
  all := fun env henv => hall henv

theorem replicas_converge_sample :
    (run step { state := { nodeId := "A" } } sampleRun).foreign.get? ⟨"default", "C", "s"⟩ =
      (run step { state := { nodeId := "B" } } samplePush).foreign.get? ⟨"default", "C", "s"⟩ := by
  have ha : Delivers { env | env ∈ sampleEnvelopes } { state := { nodeId := "A" } } sampleRun :=
    delivers_of_list rfl (by decide) (by decide) (by decide) (by decide) (by decide)
  have hb : Delivers { env | env ∈ sampleEnvelopes } { state := { nodeId := "B" } } samplePush :=
    delivers_of_list rfl (by decide) (by decide) (by decide) (by decide) (by decide)
  have hfun : ∀ env ∈ sampleEnvelopes, ∀ env' ∈ sampleEnvelopes, env.key = env'.key →
      env.version = env'.version → env = env' := by decide
  exact (replicas_converge _ hfun _ _ _ _ ha hb _ (List.mem_cons_self ..)).1

end ClusterStore

end AgentProtocol
