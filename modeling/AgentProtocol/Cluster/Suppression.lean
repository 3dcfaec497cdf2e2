-- SUMMARY: An evicted origin's records stay unreadable until its cooldown is over or a session with it is opened.
import AgentProtocol.Cluster.Operations

/-!
# Suppression after eviction

Evicting a peer drops its records and refuses new ones until a deadline. Over every
run with a clock that never goes back, a pending deadline means an empty overlay for
that origin: whatever other peers push or offer in a reconciliation, and however
often deadlines are pruned, nothing of it comes back early.
-/

namespace AgentProtocol

open Lib

namespace ClusterStore

/-- A store as it is constructed: no records, no sessions, no cooldowns. -/
structure Fresh (s : ClusterStore) : Prop where
  foreign : s.foreign.rows = []
  sessions : s.sessions.rows = []
  evictedUntil : s.evictedUntil.rows = []

def opensSession (s : ClusterStore) : Operation → Option String
  | .handleOpen _ body => some body.nodeId
  | .connectPeer address namespaces token t =>
    match t.openSession address (s.openBody namespaces token) () with
    | (.error _, _) => none
    | (.ok resp, _) => some resp.nodeId
  | _ => none

/-- No read of the overlay returns a record of `origin`. -/
structure Unreadable (s : ClusterStore) (origin : String) : Prop where
  wrapped : ∀ ds, ∀ row ∈ s.foreignWrapped ds, row.originId ≠ some origin
  rows : ∀ ds rows, s.foreignRows ds = some rows → ∀ r ∈ rows, r.2.originId ≠ some origin
  entry : ∀ ds id row, s.foreignEntry ds id = some (some row) → row.originId ≠ some origin

/-- The clock readings of a run, then `now`, never go back. -/
def ClockOrdered (es : List (Now × Operation)) (now : ℚ) : Prop :=
  (es.map (fun e => e.1.mono) ++ [now]).Pairwise (· ≤ ·)

/-! ## Reads see the overlay only -/

variable {s : ClusterStore}

theorem mem_liveReplicas {ds : String} {r : SyncEnvelope × Payload} (h : r ∈ s.liveReplicas ds) : r.1 ∈ s.foreign.rows := by
  obtain ⟨env, henv, hr⟩ := List.mem_filterMap.mp h
  split at hr
  · cases hr
  obtain ⟨p, -, rfl⟩ := Option.map_eq_some_iff.mp hr
  exact henv

private theorem mem_of_mapM_some {α β : Type} {f : α → Option β} {l : List α} {ys : List β}
    (h : l.mapM f = some ys) {y : β} (hy : y ∈ ys) : ∃ x ∈ l, f x = some y := by
  induction l generalizing ys with
  | nil =>
    cases h
    cases hy
  | cons x l ih =>
    simp only [List.mapM_cons, Option.bind_eq_bind, Option.bind_eq_some_iff, Option.pure_def,
      Option.some.injEq] at h
    obtain ⟨b, hb, bs, hbs, rfl⟩ := h
    rcases List.mem_cons.mp hy with rfl | hy
    · exact ⟨x, by simp, hb⟩
    · obtain ⟨x', hx', hf⟩ := ih hbs hy
      exact ⟨x', by simp [hx'], hf⟩

theorem unreadable_of_foreign {origin : String} (h : ∀ env ∈ s.foreign.rows, env.originId ≠ origin) : s.Unreadable origin where
  wrapped := by
    intro ds row hrow
    obtain ⟨r, hr, hmap⟩ := List.mem_filterMap.mp hrow
    obtain ⟨w, -, rfl⟩ := Option.map_eq_some_iff.mp hmap
    simpa [namespacedRow] using h r.1 (mem_liveReplicas hr)
  rows := by
    intro ds rows hrows row hrow
    obtain ⟨r, hr, hmap⟩ := mem_of_mapM_some hrows hrow
    simp only [Option.bind_eq_bind, Option.bind_eq_some_iff, Option.pure_def, Option.some.injEq] at hmap
    obtain ⟨entry, -, w, -, rfl⟩ := hmap
    simpa [namespacedRow] using h r.1 (mem_liveReplicas (List.mem_of_mem_filter hr))
  entry := by
    intro ds id row hrow
    simp only [foreignEntry, Option.bind_eq_bind, Option.bind_eq_some_iff] at hrow
    obtain ⟨⟨o, sid⟩, -, env, henv, hrow⟩ := hrow
    split at hrow
    · cases hrow
    simp only [Option.bind_eq_some_iff, Option.pure_def, Option.some.injEq,
      Option.map_eq_some_iff] at hrow
    obtain ⟨p, -, w, -, rfl⟩ := hrow
    obtain ⟨hmem, hkey⟩ := Table.get?_eq_some.mp henv
    have ho : env.originId = o := congrArg Key.originId hkey
    simpa [namespacedRow, ← ho] using h env hmem

/-! ## One step -/

variable {node : String} {op : Operation} {now : Now}

theorem actions_lift (h : Overlay.Action.lift node ∈ s.actions now op) : s.opensSession op = some node := by
  cases op <;> simp only [actions, List.mem_map, List.mem_singleton, List.not_mem_nil, reduceCtorEq,
    and_false, exists_false] at h
  case handleOpen secret body =>
    cases h
    rfl
  case connectPeer address namespaces token t =>
    simp only [opensSession]
    rcases hopen : t.openSession address (s.openBody namespaces token) () with ⟨_ | resp, _⟩
    · rw [hopen] at h
      cases h
    · rw [hopen] at h
      rcases List.mem_cons.mp h with h | h
      · cases h
        rfl
      · simp at h

theorem clean_exec {t : ℚ} (h : s.overlay.Clean t) (hle : t ≤ now.mono)
    (op : Operation) : (s.exec now op).overlay.Clean now.mono := by
  rw [overlay_exec]
  exact (h.mono hle).actAll _

theorem suppressedUntil_exec {d : ℚ} (h : s.overlay.SuppressedUntil node d) (hlt : now.mono < d) (hend : d ≤ s.cooldownEnd now)
    (hopen : s.opensSession op ≠ some node) : (s.exec now op).overlay.SuppressedUntil node d := by
  rw [overlay_exec]
  refine Overlay.actAll_induct (P := fun o => o.SuppressedUntil node d) (fun o ho a ha => ?_) h
  refine ho.act hlt (fun o' he ho' => hopen ?_) (fun o' d' he _ => ?_)
  · subst he ho'
    exact actions_lift ha
  · subst he
    exact (actions_evict ha).1.symm ▸ hend

/-! ## Runs -/

theorem clean_run {es : List (Now × Operation)} {t now : ℚ}
    (h : s.overlay.Clean t) (hfirst : ∀ u ∈ es.map (fun e => e.1.mono) ++ [now], t ≤ u)
    (htime : ClockOrdered es now) : (run step s es).overlay.Clean now := by
  induction es generalizing s t with
  | nil => exact h.mono (hfirst now (by simp))
  | cons e es ih =>
    obtain ⟨hnext, htime⟩ := List.pairwise_cons.mp htime
    exact ih (clean_exec h (hfirst _ (by simp)) e.2) hnext htime

theorem suppressedUntil_run {es : List (Now × Operation)}
    {t d now : ℚ} (h : s.overlay.SuppressedUntil node d) (hd : d = t + s.config.tombstoneRetention)
    (hfirst : ∀ u ∈ es.map (fun e => e.1.mono) ++ [now], t ≤ u) (htime : ClockOrdered es now)
    (hlt : now < d) (hopen : Along step (fun s e => s.opensSession e.2 ≠ some node) s es) :
    (run step s es).overlay.SuppressedUntil node d := by
  induction es generalizing s with
  | nil => exact h
  | cons e es ih =>
    obtain ⟨hnext, htime⟩ := List.pairwise_cons.mp htime
    have hconf : (s.step e).config = s.config := (sameNode_exec s e.1 e.2).conf
    have hnow : e.1.mono < d := (hnext now (by simp)).trans_lt hlt
    have hend : d ≤ s.cooldownEnd e.1 := by
      rw [hd, cooldownEnd]
      exact add_le_add_left (hfirst _ (by simp)) _
    exact ih (suppressedUntil_exec h hnow hend hopen.1) (by rw [hconf, hd])
      (fun u hu => hfirst u (List.mem_cons_of_mem _ hu)) htime hopen.2

/-- In every reachable state a pending deadline of an origin means that the overlay
holds none of its records; and after a disconnect nothing of the node is readable
until the retention has elapsed or a session with it is opened. -/
theorem suppression_invariant (s : ClusterStore) (hfresh : s.Fresh) (es : List (Now × Operation)) :
    (∀ now, ClockOrdered es now → ∀ origin deadline, (run step s es).evictedUntil.lookup origin = some deadline → now < deadline →
        ∀ env ∈ (run step s es).foreign.rows, env.originId ≠ origin) ∧
    (∀ (t : Now) node later now, ClockOrdered (es ++ (t, .disconnectPeer node) :: later) now →
      now < t.mono + s.config.tombstoneRetention →
      Along step (fun s e => s.opensSession e.2 ≠ some node)
        (run step s (es ++ [(t, .disconnectPeer node)])) later →
      (run step s (es ++ (t, .disconnectPeer node) :: later)).Unreadable node) := by
  have hstart : ∀ t : ℚ, s.overlay.Clean t := by
    intro t origin d hd
    simp [overlay, Dict.lookup_eq_some, hfresh.evictedUntil] at hd
  have hclean : ∀ es now, ClockOrdered es now → (run step s es).overlay.Clean now := by
    intro es now htime
    -- The first clock reading of the run, or `now` if there is none.
    cases es with
    | nil => exact hstart now
    | cons e es =>
      exact clean_run (hstart e.1.mono)
        (fun u hu => (List.mem_cons.mp hu).elim (fun h => h ▸ le_refl _)
          ((List.pairwise_cons.mp htime).1 u)) htime
  refine ⟨fun now htime origin d hd hlt => hclean es now htime origin d hd hlt, ?_⟩
  intro t node later now htime hlt hopen
  refine unreadable_of_foreign fun env henv => ?_
  have hsplit : es ++ (t, .disconnectPeer node) :: later = (es ++ [(t, .disconnectPeer node)]) ++ later := by
    simp
  have hsuffix : ClockOrdered ((t, .disconnectPeer node) :: later) now := by
    have := htime
    rw [ClockOrdered, List.map_append, List.append_assoc] at this
    exact (List.pairwise_append.mp this).2.1
  obtain ⟨hnext, hlater⟩ := List.pairwise_cons.mp hsuffix
  have hconf : (run step s (es ++ [(t, .disconnectPeer node)])).config = s.config :=
    (sameNode_run s _).conf
  have hsup : (run step s (es ++ [(t, .disconnectPeer node)])).overlay.SuppressedUntil node
      (t.mono + s.config.tombstoneRetention) := by
    refine ⟨t.mono + (run step s es).config.tombstoneRetention, ?_, ?_⟩
    · rw [run_append]
      exact Dict.lookup_set_self _ _ _
    · rw [(sameNode_run s es).conf]
  obtain ⟨d, hd, hle⟩ := suppressedUntil_run hsup (by rw [hconf]) hnext hlater hlt hopen
  rw [← run_append, ← hsplit] at hd
  exact hclean _ now htime node d hd (hlt.trans_le hle) env henv

/-- A session with `"X"`, and a record of it. -/
def evictionRun : List (Now × Operation) :=
  [(⟨0, 0⟩, .handleOpen "" { nodeId := "X" }),
    (⟨1, 1000⟩, .applyInbound
      { dataset := "d", serviceId := "s", originId := "X", version := ⟨100, "X"⟩ })]

theorem suppression_invariant_sample :
    (run step { state := { nodeId := "A" } } (evictionRun ++ (⟨2, 2000⟩, .disconnectPeer "X") ::
      [(⟨3, 3000⟩, .applyInbound
        { dataset := "d", serviceId := "s", originId := "X", version := ⟨100, "X"⟩ })])).Unreadable "X" :=
  (suppression_invariant { state := { nodeId := "A" } } ⟨rfl, rfl, rfl⟩ evictionRun).2 ⟨2, 2000⟩ "X"
    _ 10 (by unfold ClockOrdered; decide +kernel) (by decide +kernel) (by decide)

end ClusterStore

end AgentProtocol
