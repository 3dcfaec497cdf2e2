-- SUMMARY: Collecting a tombstone at its origin: safe for a connected peer if the two exchanged records within the retention window before it.
import AgentProtocol.Cluster.Fixpoint

/-!
# Collection at the origin

Node `a` deletes a record, the broadcast to `b` is lost, and later `a` collects the
tombstone. From then on `a` neither lists the record nor takes it back, so a live copy
that `b` still holds stays for good.

The retention window is measured from the deletion. What carries the proof is the
last exchange before the collection: it has levelled every tombstone that existed
then, and a tombstone that was stamped after it is younger than the window as long as
the exchange is not older than it.
-/

namespace AgentProtocol

open Lib

namespace ClusterStore

/-! ## What an event does to one node's records and their copies -/

/-- A store without a registry has deleted nothing. -/
def Backed (s : ClusterStore) : Prop :=
  ∀ k t, s.state.tombstones.lookup k = some t → s.registry ≠ none

/-- What an event at `now` does to the records of `a` and to the copies of them that
`b` holds: `a`'s tombstones are old or stamped now, and `b`'s copies are old or what
`a` says now. -/
structure Moves (now : Now) (a b a' b' : ClusterStore) : Prop where
  evolves : Evolves a a'
  conf : a'.config = a.config
  stamped : ∀ k t, a'.state.tombstones.lookup k = some t →
    a.state.tombstones.lookup k = some t ∨ now.wallMs ≤ t.deletedAtMs
  backed : a.Backed → a'.Backed
  copies : ∀ env ∈ b'.foreign.rows, env.originId = a.nodeId →
    env ∈ b.foreign.rows ∨ a'.buildLocalEnvelope env.dataset env.serviceId = some env

variable {a b a' b' : ClusterStore} {now : Now}

theorem Moves.of_same (hstate : a'.state = a.state) (hconf : a'.config = a.config) (hreg : a'.registry = a.registry)
    (hcopies : ∀ env ∈ b'.foreign.rows, env.originId = a.nodeId → env ∈ b.foreign.rows) : Moves now a b a' b' where
  evolves := Evolves.of_state hstate
  conf := hconf
  stamped := by
    rw [hstate]
    exact fun k t ht => .inl ht
  backed := by
    unfold Backed
    rw [hstate, hreg]
    exact id
  copies := fun env henv horigin => .inl (hcopies env henv horigin)

variable {ds sid : String} {t : Tombstone}

theorem stamped_stampMutation {s : ClusterStore} {op : MutationOp} {k : LocalKey}
    (ht : (s.stampMutation now ds sid op).state.tombstones.lookup k = some t) :
    s.state.tombstones.lookup k = some t ∨ now.wallMs ≤ t.deletedAtMs := by
  by_cases hop : op = .deregister
  · subst hop
    rw [(s.stampMutation_dead now ds sid k).2] at ht
    split at ht
    · cases ht
      exact .inr (le_max_left _ _)
    · exact .inl ht
  · rw [(s.stampMutation_live now ds sid hop k).2] at ht
    split at ht
    · cases ht
    exact .inl ht

theorem moves_write (a b b' : ClusterStore) (now : Now) (w : LocalWrite)
    (hcopies : ∀ env ∈ b'.foreign.rows, env ∈ b.foreign.rows ∨ (a.write now w).1 = some env) :
    Moves now a b (a.write now w).2 b' := by
  have hw := written_write a now w
  refine ⟨hw.evolves, hw.keeping.conf, ?_, ?_, fun env henv _ => ?_⟩
  · intro k t ht
    rcases write_cases a now w with h | ⟨reg, h⟩ | ⟨reg, ds, sid, op, h⟩
    · rw [h] at ht
      exact .inl ht
    · rw [h] at ht
      exact .inl ht
    · rw [h] at ht
      exact stamped_stampMutation (s := { a with registry := some reg }) ht
  · intro hbacked k t ht
    rcases write_cases a now w with h | ⟨reg, h⟩ | ⟨reg, ds, sid, op, h⟩
    · rw [h] at ht ⊢
      exact hbacked k t ht
    · rw [h]
      exact Option.some_ne_none reg
    · rw [h]
      cases op <;> exact Option.some_ne_none reg
  · refine (hcopies env henv).imp_right fun hsent => ?_
    obtain ⟨ds, sid, hbuild⟩ := hw.copy env hsent
    have hkey := buildLocalEnvelope_key hbuild
    have hds : env.dataset = ds := congrArg Key.dataset hkey
    have hsid : env.serviceId = sid := congrArg Key.serviceId hkey
    rw [hds, hsid]
    exact hbuild

theorem moves_gc (a b : ClusterStore) (now : Now) : Moves now a b (a.gcTombstones now).2 b := by
  have hreg : (a.gcTombstones now).2.registry = a.registry := by
    unfold gcTombstones
    dsimp only
    split <;> rfl
  have hold : ∀ k t, (a.gcTombstones now).2.state.tombstones.lookup k = some t →
      a.state.tombstones.lookup k = some t := by
    intro k t ht
    rw [gcTombstones_state, Dict.lookup_filter] at ht
    exact (Option.filter_eq_some_iff.mp ht).1
  refine ⟨evolves_gcTombstones a now, (keeping_gcTombstones a now).conf, fun k t ht => .inl (hold k t ht),
    fun hbacked k t ht => ?_, fun env henv _ => .inl henv⟩
  rw [hreg]
  exact hbacked k t (hold k t ht)

theorem moves_exchange {toPull toPush : List Key}
    (hex : Exchanged a b now a' b' toPull toPush) : Moves now a b a' b' ∧ Moves now b a b' a' := by
  have htombA : a'.state.tombstones = a.state.tombstones := by
    rw [hex.onlyA.proj state fun _ _ => rfl, ensureLocalVersions_tombstones]
  have hregA : a'.registry = a.registry := by
    rw [hex.onlyA.proj registry fun _ _ => rfl, ensureLocalVersions_registry]
  have htombB : b'.state.tombstones = b.state.tombstones := by
    rw [hex.onlyB.proj state fun _ _ => rfl, answering, ensureLocalVersions_tombstones, touchPeer_state]
  have hregB : b'.registry = b.registry := by
    rw [hex.onlyB.proj registry fun _ _ => rfl, answering, ensureLocalVersions_registry, touchPeer_registry]
  refine ⟨⟨?_, ?_, ?_, ?_, ?_⟩, ⟨?_, ?_, ?_, ?_, ?_⟩⟩
  · exact (evolves_ensureLocalVersions a now).trans (Evolves.of_state (hex.onlyA.proj state fun _ _ => rfl))
  · rw [hex.onlyA.proj config fun _ _ => rfl, ensureLocalVersions_config]
  · rw [htombA]
    exact fun k t ht => .inl ht
  · unfold Backed
    rw [htombA, hregA]
    exact id
  · intro env henv horigin
    refine (hex.rowsB henv).imp_right fun hbuilt => ?_
    have hbuild := hbuilt.1
    rw [buildEnvelopeForKey, hex.nodeA, if_pos (show env.key.originId = a.nodeId from horigin)] at hbuild
    exact hbuild
  · have htouch : Evolves b (b.touchPeer now a.nodeId) := Evolves.of_state (touchPeer_state b now a.nodeId)
    exact (htouch.trans (evolves_ensureLocalVersions _ now)).trans
      (Evolves.of_state (hex.onlyB.proj state fun _ _ => rfl))
  · rw [hex.onlyB.proj config fun _ _ => rfl, answering, ensureLocalVersions_config, touchPeer_config]
  · rw [htombB]
    exact fun k t ht => .inl ht
  · unfold Backed
    rw [htombB, hregB]
    exact id
  · intro env henv horigin
    refine (hex.rowsA henv).imp_right fun hbuilt => ?_
    have hbuild := hbuilt.1
    have hnode : (b.answering now a.nodeId).nodeId = b.nodeId := by simp [answering]
    rw [buildEnvelopeForKey, hnode, if_pos (show env.key.originId = b.nodeId from horigin)] at hbuild
    rw [hex.onlyB.proj buildLocalEnvelope fun _ _ => rfl]
    exact hbuild

/-! ## Live copies of deleted records -/

/-- The store lists a record of `origin` as live, in a version up to `v`. -/
def HoldsLive (s : ClusterStore) (origin ds sid : String) (v : Version) : Prop :=
  ∃ env, s.foreign.get? ⟨ds, origin, sid⟩ = some env ∧ env.tombstone = false ∧ env.version ≤ v

instance (s : ClusterStore) (origin ds sid : String) (v : Version) : Decidable (s.HoldsLive origin ds sid v) :=
  decidable_of_iff ((s.foreign.get? ⟨ds, origin, sid⟩).any fun env => !env.tombstone && env.version ≤ v)
    (by simp [HoldsLive, Option.any_eq_true])

theorem Moves.holdsLive (hm : Moves now a b a' b') {v : Version} (h : b'.HoldsLive a.nodeId ds sid v) :
    b.HoldsLive a.nodeId ds sid v ∨ ∃ w ≤ v, a'.state.tombstones.lookup (makeKey ds sid) = none ∧
      a'.state.localVersions.lookup (makeKey ds sid) = some w := by
  obtain ⟨env, henv, hlive, hle⟩ := h
  obtain ⟨hmem, hkey⟩ := Table.get?_eq_some.mp henv
  have hds : env.dataset = ds := congrArg Key.dataset hkey
  have horigin : env.originId = a.nodeId := congrArg Key.originId hkey
  have hsid : env.serviceId = sid := congrArg Key.serviceId hkey
  rcases hm.copies env hmem horigin with hold | hbuild
  · exact .inl ⟨env, Table.get?_eq_some.mpr ⟨hold, hkey⟩, hlive, hle⟩
  · rw [hds, hsid] at hbuild
    unfold buildLocalEnvelope at hbuild
    dsimp only at hbuild
    split at hbuild
    · cases hbuild
      cases hlive
    · rename_i htomb
      split at hbuild
      · rename_i w reg hw hreg
        obtain ⟨entry, -, rfl⟩ := Option.map_eq_some_iff.mp hbuild
        exact .inr ⟨w, hle, htomb, hw⟩
      · cases hbuild

/-- No deletion that `a` made before `ms` and still remembers has left a live copy
at `b`. -/
def Covered (ns : List String) (ms : ℤ) (a b : ClusterStore) : Prop :=
  ∀ ds sid t, ds ∈ ns → a.state.tombstones.lookup (makeKey ds sid) = some t → t.deletedAtMs < ms →
    ¬ b.HoldsLive a.nodeId ds sid t.version

theorem Covered.moves {ns : List String} {ms : ℤ}
    (h : Covered ns ms a b) (hnow : ms ≤ now.wallMs) (hm : Moves now a b a' b') : Covered ns ms a' b' := by
  intro ds sid t hds ht hdel hlive
  have hold : a.state.tombstones.lookup (makeKey ds sid) = some t := by
    rcases hm.stamped _ t ht with hold | hnew
    · exact hold
    · exact absurd (hdel.trans_le (hnow.trans hnew)) (lt_irrefl _)
  rw [hm.evolves.node] at hlive
  rcases hm.holdsLive hlive with hlive | ⟨w, -, hnone, -⟩
  · exact h ds sid t hds hold hdel hlive
  · rw [ht] at hnone
    cases hnone

/-- `a` has forgotten the deletion in version `v` and `b` has no live copy from
before it; what `a` says about the record by now is later. -/
structure Gone (ds sid : String) (v : Version) (a b : ClusterStore) : Prop where
  clock : v.ms ≤ a.state.versionClock
  versions : ∀ w, a.state.localVersions.lookup (makeKey ds sid) = some w → v < w
  stale : ¬ b.HoldsLive a.nodeId ds sid v

theorem Gone.moves {v : Version} (h : Gone ds sid v a b) (hm : Moves now a b a' b') : Gone ds sid v a' b' := by
  have hversions : ∀ w, a'.state.localVersions.lookup (makeKey ds sid) = some w → v < w := by
    intro w hw
    rcases hm.evolves.versions _ w hw with hold | ⟨-, hlt, -⟩
    · exact h.versions w hold
    · exact Version.lt_of_ms_lt (h.clock.trans_lt hlt)
  refine ⟨h.clock.trans hm.evolves.clock, hversions, fun hlive => ?_⟩
  rw [hm.evolves.node] at hlive
  rcases hm.holdsLive hlive with hlive | ⟨w, hle, -, hw⟩
  · exact h.stale hlive
  · exact absurd (hversions w hw) (not_lt.mpr hle)

theorem not_holdsLive_of_le {src holder : ClusterStore}
    (hcopies : ∀ env ∈ holder.foreign.rows, env.originId = src.nodeId → CopyOf src env)
    (ht : src.state.tombstones.lookup (makeKey ds sid) = some t)
    (hle : ∀ env, holder.foreign.get? ⟨ds, src.nodeId, sid⟩ = some env → t.version ≤ env.version) :
    ¬ holder.HoldsLive src.nodeId ds sid t.version := by
  intro hlive
  obtain ⟨env, henv, hlive, -⟩ := hlive
  obtain ⟨hmem, hkey⟩ := Table.get?_eq_some.mp henv
  have hds : env.dataset = ds := congrArg Key.dataset hkey
  have hsid : env.serviceId = sid := congrArg Key.serviceId hkey
  have hcopy := hcopies env hmem (congrArg Key.originId hkey)
  rcases hcopy.dead t (by rw [hds, hsid]; exact ht) with hlt | ⟨-, htomb⟩
  · exact absurd hlt (not_lt.mpr (hle env henv))
  rw [hlive] at htomb
  cases htomb

theorem localVersion_of_tombstone {s : ClusterStore} (h : s.Backed)
    (ht : s.state.tombstones.lookup (makeKey ds sid) = some t) : s.localVersion ds sid = some t.version := by
  unfold localVersion
  rw [ht]
  split
  · rename_i hreg
    exact absurd hreg (h _ t ht)
  · rfl

end ClusterStore

namespace Pair

open ClusterStore

/-! ## Events -/

def Act.isReplay : Act → Bool
  | .replay _ => true
  | _ => false

def Act.isReconcile : Act → Bool
  | .reconcile => true
  | _ => false

def Act.isGc : Act → Bool
  | .gc => true
  | _ => false

variable {ns : List String} {p : Pair}

theorem moves_act (h : p.Inv ns) (now : Now) {act : Act} (hprompt : act.isReplay = false) :
    Moves now p.a p.b (p.act now act).a (p.act now act).b ∧ Moves now p.b p.a (p.act now act).b (p.act now act).a := by
  have hself : ∀ s s' : ClusterStore, Moves now s s' s s' := fun s s' =>
    Moves.of_same rfl rfl rfl fun env henv _ => henv
  cases act with
  | replay env => cases hprompt
  | write w delivered =>
    have hw := written_write p.a now w
    have hkept : ∀ env ∈ (p.a.write now w).2.foreign.rows, env ∈ p.a.foreign.rows := by
      rw [hw.foreign]
      exact fun env henv => henv
    have hlost : Moves now p.a p.b (p.a.write now w).2 p.b ∧ Moves now p.b p.a p.b (p.a.write now w).2 :=
      ⟨moves_write p.a p.b p.b now w fun env henv => .inl henv,
        Moves.of_same rfl rfl rfl fun env henv _ => hkept env henv⟩
    simp only [Pair.act]
    cases henv : (p.a.write now w).1 with
    | none => exact hlost
    | some env =>
      dsimp only
      unfold broadcast
      split
      · exact hlost
      · rename_i peer hpeer
        cases delivered with
        | false => exact hlost
        | true =>
          obtain ⟨hkeep, hstate, hreg, hrows⟩ := received p.b now (p.a.write now w).2.nodeId env peer.token
          refine ⟨moves_write p.a p.b _ now w fun e he => ?_,
            Moves.of_same hstate hkeep.conf hreg fun e he _ => hkept e he⟩
          exact (hrows e he).imp_right fun heq => by rw [henv, heq.1]
  | thirdParty env =>
    simp only [Pair.act]
    split
    · exact ⟨hself _ _, hself _ _⟩
    · rename_i horigin
      obtain ⟨hkeep, hstate, hreg, hrows⟩ := received p.a now env.originId env none
      refine ⟨Moves.of_same hstate hkeep.conf hreg fun e he _ => he, Moves.of_same rfl rfl rfl ?_⟩
      intro e he hb
      rcases hrows e he with hold | ⟨rfl, -⟩
      · exact hold
      · exact absurd (.inr hb) horigin
  | gc =>
    refine ⟨moves_gc p.a p.b now, Moves.of_same rfl rfl rfl fun env henv _ => ?_⟩
    have hrecords : (p.a.gcTombstones now).2.foreign = _ :=
      congrArg Overlay.records (gcTombstones_overlay p.a now)
    simp only [Pair.act] at henv
    rw [hrecords] at henv
    exact List.mem_of_mem_filter henv
  | reconcile =>
    obtain ⟨sess, hsess, hns⟩ := h.halfA.link
    obtain ⟨toPull, toPush, counts, a', b', hrec, -, hex⟩ :=
      reconcile_inProcess h.halfB.guard.auth h.halfB.link hns now ""
    simp only [Pair.act, hsess, hrec]
    exact moves_exchange hex

variable {e : Event}

theorem moves_step (h : p.Inv ns) (hprompt : e.act.isReplay = false) : Moves e.now p.a p.b (p.step e).a (p.step e).b := by
  unfold step
  cases e.side with
  | a => exact (moves_act h e.now hprompt).1
  | b => exact (moves_act h.swap e.now hprompt).2

variable {es : List Event}

theorem run_moves {I : ClusterStore → ClusterStore → Prop} {T : Now → Prop}
    (hI : ∀ now a b a' b', T now → I a b → Moves now a b a' b' → I a' b') (h : p.Inv ns)
    (hes : ∀ e ∈ es, e.act.isReplay = false ∧ T e.now) (hp : I p.a p.b) : I (run step p es).a (run step p es).b := by
  induction es generalizing p with
  | nil => exact hp
  | cons e es ih =>
    obtain ⟨hprompt, hT⟩ := hes e (by simp)
    exact ih (inv_step h e) (fun e' he' => hes e' (by simp [he']))
      (hI _ _ _ _ _ hT hp (moves_step h hprompt))

/-! ## Exchanges -/

/-- The hash distinguishes what `a` and `b` compare if `a` reconciles now. -/
def FaithfulNow (p : Pair) (now : Now) : Prop :=
  ∀ peer, p.a.sessions.get? p.b.nodeId = some peer → HashFaithful peer now p.a p.b

/-- It does at this event, if the event is a reconciliation. -/
def FaithfulAt (p : Pair) (e : Event) : Prop :=
  e.act.isReconcile = true →
    match e.side with
    | .a => p.FaithfulNow e.now
    | .b => p.swap.FaithfulNow e.now

theorem faithfulAt_of_not_reconcile (h : e.act.isReconcile = false) : p.FaithfulAt e := by
  intro hrec
  rw [h] at hrec
  cases hrec

theorem covered_reconcile (h : p.Inv ns) {now : Now} (hhash : p.FaithfulNow now) (ms : ℤ) :
    (p.a.Backed → Covered ns ms (p.act now .reconcile).a (p.act now .reconcile).b) ∧
      (p.b.Backed → Covered ns ms (p.act now .reconcile).b (p.act now .reconcile).a) := by
  obtain ⟨peer, hpeer, hns⟩ := h.halfA.link
  obtain ⟨toPull, toPush, counts, a', b', hrec, hsel, hex⟩ :=
    reconcile_inProcess h.halfB.guard.auth h.halfB.link hns now ""
  simp only [Pair.act, hpeer, hrec]
  have hafter := inv_exchange h hex
  obtain ⟨hmovesA, hmovesB⟩ := moves_exchange hex
  refine ⟨fun hbacked ds sid t hds ht _ => ?_, fun hbacked ds sid t hds ht _ => ?_⟩
  · refine not_holdsLive_of_le (fun env henv => hafter.halfA.copies env (.inr henv)) ht fun env henv => ?_
    have hnode : a'.nodeId = p.a.nodeId := hex.nodeA
    have hlisted : (p.a.ensureLocalVersions now).indexed ⟨ds, a'.nodeId, sid⟩ = some t.version := by
      rw [indexed_of_own (noSelf_ensureLocalVersions h.halfA.own.self now) (by simpa using hnode),
        ← hex.onlyA.localVersion]
      exact localVersion_of_tombstone (hmovesA.backed hbacked) ht
    have hindex := indexedB (h.openLink hns) (hhash peer hpeer) hsel hex
      (show (⟨ds, a'.nodeId, sid⟩ : Key).dataset ∈ ns from hds)
    have hforeign : (⟨ds, a'.nodeId, sid⟩ : Key).originId ≠ p.b.nodeId := by
      rw [hnode]
      exact h.distinct
    rw [if_neg hforeign, hlisted, indexed_of_foreign (by rw [hex.nodeB]; exact hforeign), henv] at hindex
    exact Lww.le_latest_right hindex.symm
  · refine not_holdsLive_of_le (fun env henv => hafter.halfB.copies env (.inr henv)) ht fun env henv => ?_
    have hnode : b'.nodeId = p.b.nodeId := hex.nodeB
    have hlisted : (p.b.answering now p.a.nodeId).indexed ⟨ds, b'.nodeId, sid⟩ = some t.version := by
      rw [indexed_of_own (noSelf_answering h.halfB.own.self now p.a.nodeId)
        (by simpa [answering] using hnode), ← hex.onlyB.localVersion]
      exact localVersion_of_tombstone (hmovesB.backed hbacked) ht
    have hindex := indexedA (h.openLink hns) (hhash peer hpeer) hsel hex
      (show (⟨ds, b'.nodeId, sid⟩ : Key).dataset ∈ ns from hds)
    have hforeign : (⟨ds, b'.nodeId, sid⟩ : Key).originId ≠ p.a.nodeId := by
      rw [hnode]
      exact h.distinct.symm
    rw [if_neg hforeign, hlisted, indexed_of_foreign (by rw [hex.nodeA]; exact hforeign), henv] at hindex
    exact Lww.le_latest_right hindex.symm

theorem covered_step (h : p.Inv ns) (hrec : e.act.isReconcile = true) (hhash : p.FaithfulAt e) (hbacked : p.a.Backed) (ms : ℤ) :
    Covered ns ms (p.step e).a (p.step e).b := by
  obtain ⟨side, now, act⟩ := e
  have hhash := hhash hrec
  cases act with
  | reconcile =>
    cases side with
    | a => exact (covered_reconcile h hhash ms).1 hbacked
    | b => exact (covered_reconcile h.swap hhash ms).2 hbacked
  | write | replay | thirdParty | gc => cases hrec

/-! ## Collections -/

/-- Wherever `a` collects the tombstone of a record in a shared namespace, `b` does not
list that record as live in a version from before the deletion, then or later. -/
def CollectsSafely (ns : List String) (p₀ : Pair) (es : List Event) : Prop :=
  ∀ pre now mid post, es = pre ++ ⟨.a, now, .gc⟩ :: (mid ++ post) → ∀ ds sid t, ds ∈ ns →
    (run step p₀ pre).a.state.tombstones.lookup (makeKey ds sid) = some t →
    (run step p₀ (pre ++ [⟨.a, now, .gc⟩])).a.state.tombstones.lookup (makeKey ds sid) = none →
    ¬ (run step p₀ (pre ++ ⟨.a, now, .gc⟩ :: mid)).b.HoldsLive p₀.a.nodeId ds sid t.version

/-- Every collection of `a` comes at most its retention window after a reconciliation
of the two nodes. -/
def ExchangesInTime (retentionMs : ℤ) (es : List Event) : Prop :=
  ∀ (i : ℕ) (hi : i < es.length), es[i].side = .a → es[i].act.isGc = true →
    ∃ e ∈ es.take i, e.act.isReconcile = true ∧ es[i].now.wallMs - e.now.wallMs ≤ retentionMs

instance (retentionMs : ℤ) (es : List Event) : Decidable (ExchangesInTime retentionMs es) :=
  inferInstanceAs (Decidable (∀ (i : ℕ) (hi : i < es.length), es[i].side = .a → es[i].act.isGc = true →
    ∃ e ∈ es.take i, e.act.isReconcile = true ∧ es[i].now.wallMs - e.now.wallMs ≤ retentionMs))

theorem ExchangesInTime.before {retentionMs : ℤ} {pre post : List Event} {now : Now}
    (h : ExchangesInTime retentionMs (pre ++ ⟨.a, now, .gc⟩ :: post)) :
    ∃ e ∈ pre, e.act.isReconcile = true ∧ now.wallMs - e.now.wallMs ≤ retentionMs := by
  have hi : pre.length < (pre ++ (⟨.a, now, .gc⟩ : Event) :: post).length := by simp
  simpa [Act.isGc] using h pre.length hi

theorem expired_of_dropped {s : ClusterStore} {now : Now} {k : LocalKey} {t : Tombstone}
    (ht : s.state.tombstones.lookup k = some t) (hdropped : (s.gcTombstones now).2.state.tombstones.lookup k = none) :
    s.config.retentionMs < now.wallMs - t.deletedAtMs := by
  rw [gcTombstones_state, Dict.lookup_filter, ht] at hdropped
  simpa [Option.filter, expired, lt_sub_iff_add_lt] using hdropped

theorem initial_backed (h : p.Initial ns) : p.a.Backed := by
  intro k t ht
  have hnone : p.a.state.tombstones.lookup k = none := Dict.lookup_eq_none.mpr (by simp [h.startA.tombs])
  rw [hnone] at ht
  cases ht

theorem run_same (h : p.Inv ns) (hprompt : ∀ e ∈ es, e.act.isReplay = false) :
    (run step p es).a.nodeId = p.a.nodeId ∧ (run step p es).a.config = p.a.config :=
  run_moves (I := fun a _ => a.nodeId = p.a.nodeId ∧ a.config = p.a.config) (T := fun _ => True)
    (fun _ _ _ _ _ _ hsame hm => ⟨hm.evolves.node.trans hsame.1, hm.conf.trans hsame.2⟩) h
    (fun e he => ⟨hprompt e he, trivial⟩) ⟨rfl, rfl⟩

theorem covered_run (h : p.Inv ns) (hbacked : p.a.Backed) (hrec : e.act.isReconcile = true) (hhash : p.FaithfulAt e)
    (hprompt : ∀ e' ∈ es, e'.act.isReplay = false) (hlater : ∀ e' ∈ es, e.now.wallMs ≤ e'.now.wallMs) :
    Covered ns e.now.wallMs (run step p (e :: es)).a (run step p (e :: es)).b := by
  rw [run_cons]
  exact run_moves (T := fun now => e.now.wallMs ≤ now.wallMs) (fun _ _ _ _ _ hnow hcov hm => hcov.moves hnow hm)
    (inv_step h e) (fun e' he' => ⟨hprompt e' he', hlater e' he'⟩) (covered_step h hrec hhash hbacked _)

theorem gone_gc (h : p.Inv ns) (now : Now) {ds sid : String} {t : Tombstone}
    (ht : p.a.state.tombstones.lookup (makeKey ds sid) = some t)
    (hstale : ¬ p.b.HoldsLive p.a.nodeId ds sid t.version) : Gone ds sid t.version (p.a.gcTombstones now).2 p.b := by
  have hmoves := moves_gc p.a p.b now
  refine ⟨?_, fun w hw => ?_, ?_⟩
  · exact (h.halfA.own.tombs _ t ht).2.1.trans hmoves.evolves.clock
  · have hver : p.a.state.localVersions.lookup (makeKey ds sid) = some w := by
      rw [gcTombstones_state] at hw
      exact hw
    rw [h.halfA.own.apart _ w hver] at ht
    cases ht
  · rw [hmoves.evolves.node]
    exact hstale

/-- With one clock, and broadcasts that arrive at once or never, no collection leaves a
live copy behind as long as the two nodes exchange records in time. -/
theorem collects_safely (ns : List String) (p₀ : Pair) (hinit : p₀.Initial ns) (es : List Event)
    (hclock : es.Pairwise fun e e' => e.now.wallMs ≤ e'.now.wallMs)
    (hprompt : ∀ e ∈ es, e.act.isReplay = false) (hhash : Along step FaithfulAt p₀ es)
    (htime : ExchangesInTime p₀.a.config.retentionMs es) : CollectsSafely ns p₀ es := by
  intro pre now mid post hes ds sid t hds ht hdropped
  subst hes
  obtain ⟨e, he, hrec, hrecent⟩ := htime.before
  obtain ⟨pre₁, pre₂, rfl⟩ := List.append_of_mem he
  have hbacked : (run step p₀ pre₁).a.Backed :=
    run_moves (I := fun a _ => a.Backed) (T := fun _ => True) (fun _ _ _ _ _ _ hb hm => hm.backed hb)
      hinit.inv (fun e' he' => ⟨hprompt e' (by simp [he']), trivial⟩) (initial_backed hinit)
  have hcovered : Covered ns e.now.wallMs (run step p₀ (pre₁ ++ e :: pre₂)).a
      (run step p₀ (pre₁ ++ e :: pre₂)).b := by
    have hpre := (List.pairwise_append.mp (List.pairwise_append.mp hclock).1).2.1
    rw [run_append]
    exact covered_run (inv_run hinit.inv pre₁) hbacked hrec
      ((along_append.mp (along_append.mp hhash).1).2).1 (fun e' he' => hprompt e' (by simp [he']))
      (List.pairwise_cons.mp hpre).1
  have hsame : (run step p₀ (pre₁ ++ e :: pre₂)).a.nodeId = p₀.a.nodeId ∧
      (run step p₀ (pre₁ ++ e :: pre₂)).a.config = p₀.a.config :=
    run_same hinit.inv fun e' he' => hprompt e' (List.mem_append_left _ he')
  have hinv : (run step p₀ (pre₁ ++ e :: pre₂)).Inv ns := inv_run hinit.inv _
  rw [run_append] at hdropped ⊢
  generalize run step p₀ (pre₁ ++ e :: pre₂) = p at ht hdropped hcovered hsame hinv ⊢
  have hexpired : p₀.a.config.retentionMs < now.wallMs - t.deletedAtMs := by
    rw [← hsame.2]
    exact expired_of_dropped ht hdropped
  have hstale : ¬ p.b.HoldsLive p.a.nodeId ds sid t.version := hcovered ds sid t hds ht (by omega)
  have hprompt' : ∀ e' ∈ mid, e'.act.isReplay = false := fun e' he' => hprompt e' (by simp [he'])
  have hgone : Gone ds sid t.version (run step (p.step ⟨.a, now, .gc⟩) mid).a
      (run step (p.step ⟨.a, now, .gc⟩) mid).b :=
    run_moves (T := fun _ => True) (fun _ _ _ _ _ _ hg hm => hg.moves hm) (inv_step hinv _)
      (fun e' he' => ⟨hprompt' e' he', trivial⟩) (gone_gc hinv now ht hstale)
  have hnode : (run step (p.step ⟨.a, now, .gc⟩) mid).a.nodeId = p₀.a.nodeId := by
    have hgc : (p.step ⟨.a, now, .gc⟩).a.nodeId = p.a.nodeId := (moves_gc p.a p.b now).evolves.node
    rw [(run_same (inv_step hinv _) hprompt').1, hgc, hsame.1]
  have hfinal := hgone.stale
  rw [hnode] at hfinal
  exact hfinal

/-- `a` registers and deletes a service, `b` registers one, and no broadcast arrives.
An exchange follows, and then a collection that drops the tombstone. -/
def lostDeletion : List Event :=
  [⟨.a, ⟨0, 100⟩, .write (.register "d" (someEntry "s")) false⟩,
    ⟨.b, ⟨0, 100⟩, .write (.register "d" (someEntry "t")) false⟩,
    ⟨.a, ⟨0, 200⟩, .write (.deregister "d" "s" none) false⟩,
    ⟨.a, ⟨10, 10000⟩, .reconcile⟩,
    ⟨.a, ⟨45, 45000⟩, .gc⟩]

theorem collects_safely_sample : ¬ (run step (blankPair twoBuckets) lostDeletion).b.HoldsLive "A" "d" "s" ⟨200, "A"⟩ := by
  have hfaithful : (run step (blankPair twoBuckets) (lostDeletion.take 3)).FaithfulNow ⟨10, 10000⟩ := by
    intro peer hpeer
    obtain rfl : peer = { nodeId := "B", address := "", namespaces := ["d"], lastSeen := 0 } :=
      (Option.some.inj hpeer).symm
    have hhere : ((run step (blankPair twoBuckets) (lostDeletion.take 3)).a.comparedIndex ⟨10, 10000⟩
        { nodeId := "B", address := "", namespaces := ["d"], lastSeen := 0 }).rows =
        [(⟨"d", "A", "s"⟩, ⟨200, "A"⟩)] := by decide
    have hthere : ((run step (blankPair twoBuckets) (lostDeletion.take 3)).b.shownIndex ⟨10, 10000⟩ "A"
        (sortedSet ["d"]) none).rows = [(⟨"d", "B", "t"⟩, ⟨100, "B"⟩)] := by decide
    exact ⟨Merkle.collisionFree_of_singletons hhere hthere _ _ (by decide +kernel),
      Merkle.sepFree_of_singleton hhere (by decide), Merkle.sepFree_of_singleton hthere (by decide)⟩
  have hhash : Along step FaithfulAt (blankPair twoBuckets) lostDeletion :=
    ⟨faithfulAt_of_not_reconcile rfl, faithfulAt_of_not_reconcile rfl, faithfulAt_of_not_reconcile rfl,
      fun _ => hfaithful, faithfulAt_of_not_reconcile rfl, trivial⟩
  have hsafe : CollectsSafely ["d"] (blankPair twoBuckets) lostDeletion :=
    collects_safely ["d"] (blankPair twoBuckets) (initial_blankPair twoBuckets) lostDeletion (by decide) (by decide) hhash
      (by decide +kernel)
  exact hsafe (lostDeletion.take 4) ⟨45, 45000⟩ [] [] rfl "d" "s" ⟨⟨200, "A"⟩, 200⟩ (by decide)
    (by decide +kernel) (by decide +kernel)

/-! ## Sweepers -/

def Act.isSweep (act : Act) : Bool := act.isReconcile || act.isGc

/-- The events of one sweeper whose ticks start at `t` and then every `interval`: a
reconciliation, and a collection before the next tick. No tick that is due by `last`
is missing. -/
def Ticks (interval last : ℚ) : ℚ → List Event → Prop
  | t, [] => last < t
  | t, [e] => e.act.isReconcile = true ∧ e.now.mono = t ∧ last < t + interval
  | t, e :: e' :: es => e.act.isReconcile = true ∧ e.now.mono = t ∧ e'.act.isGc = true ∧
      e'.now.mono < t + interval ∧ Ticks interval last (t + interval) es

instance Ticks.decidable (interval last : ℚ) :
    (t : ℚ) → (es : List Event) → Decidable (Ticks interval last t es)
  | t, [] => inferInstanceAs (Decidable (last < t))
  | t, [e] => inferInstanceAs (Decidable (e.act.isReconcile = true ∧ e.now.mono = t ∧ last < t + interval))
  | t, e :: e' :: es =>
    have := Ticks.decidable interval last (t + interval) es
    inferInstanceAs (Decidable (e.act.isReconcile = true ∧ e.now.mono = t ∧ e'.act.isGc = true ∧
      e'.now.mono < t + interval ∧ Ticks interval last (t + interval) es))

/-- The sweeper of one side ticks every `interval` from its start, which is at most one
interval away, until `last`. -/
def Sweeping (side : Side) (interval last : ℚ) (es : List Event) : Prop :=
  ∃ start, 0 ≤ start ∧ start < interval ∧
    Ticks interval last start (es.filter fun e => e.side = side && e.act.isSweep)

/-- Positive intervals, as the environment may set them. -/
structure PositiveConfig (config : ClusterConfig) : Prop where
  keepalive : 0 < config.keepaliveInterval
  hold : 0 < config.holdTimeout
  antiEntropy : 0 < config.antiEntropyInterval

/-- The retention window is four seconds. -/
def quickConfig : ClusterConfig := { keepaliveInterval := 1, holdTimeout := 3, merkleBuckets := 2 }

/-- `a` deletes the record between the reconciliation and the collection of one tick
that takes six seconds. -/
def beforeCollection : List Event :=
  [⟨.a, ⟨1, 1000⟩, .write (.register "d" (someEntry "s")) true⟩,
    ⟨.b, ⟨2, 2000⟩, .reconcile⟩,
    ⟨.b, ⟨3, 3000⟩, .gc⟩,
    ⟨.a, ⟨4, 4000⟩, .reconcile⟩,
    ⟨.a, ⟨5, 5000⟩, .write (.deregister "d" "s" none) false⟩]

/-- The next tick of both nodes. -/
def afterCollection : List Event :=
  [⟨.b, ⟨22, 22000⟩, .reconcile⟩,
    ⟨.b, ⟨23, 23000⟩, .gc⟩,
    ⟨.a, ⟨24, 24000⟩, .reconcile⟩,
    ⟨.a, ⟨25, 25000⟩, .gc⟩]

/-- A tick may take longer than the retention window. A record deleted in the middle of
it is collected at its end, before the peer has heard of the deletion, and the peer
still lists it after the next ticks. -/
theorem collection_too_early : ¬ ∀ (ns : List String) (p₀ : Pair), p₀.Initial ns → PositiveConfig p₀.a.config →
      PositiveConfig p₀.b.config → ∀ (es : List Event) (last : ℚ),
      (es.Pairwise fun e e' => e.now.wallMs ≤ e'.now.wallMs) →
      (∀ e ∈ es, e.now.wallMs = ⌊1000 * e.now.mono⌋) → (∀ e ∈ es, e.act.isReplay = false) →
      Sweeping .a p₀.a.config.antiEntropyInterval last es →
      Sweeping .b p₀.b.config.antiEntropyInterval last es → CollectsSafely ns p₀ es := by
  intro h
  have hconfig : PositiveConfig quickConfig := ⟨by decide +kernel, by decide +kernel, by decide +kernel⟩
  have hsafe := h ["d"] (blankPair quickConfig) (initial_blankPair quickConfig) hconfig hconfig
    (beforeCollection ++ ⟨.a, ⟨10, 10000⟩, .gc⟩ :: afterCollection) 25 (by decide) (by decide +kernel)
    (by decide)
    ⟨4, by decide +kernel, by decide +kernel, by decide +kernel⟩
    ⟨2, by decide +kernel, by decide +kernel, by decide +kernel⟩
  obtain ⟨hbefore, hcollected, hlisted⟩ :
      (run step (blankPair quickConfig) beforeCollection).a.state.tombstones.lookup (makeKey "d" "s") = some ⟨⟨5000, "A"⟩, 5000⟩ ∧
      (run step (blankPair quickConfig) (beforeCollection ++ [⟨.a, ⟨10, 10000⟩, .gc⟩])).a.state.tombstones.lookup (makeKey "d" "s") = none ∧
      (run step (blankPair quickConfig) (beforeCollection ++ ⟨.a, ⟨10, 10000⟩, .gc⟩ :: afterCollection)).b.HoldsLive
        (blankPair quickConfig).a.nodeId "d" "s" ⟨5000, "A"⟩ := by decide +kernel
  exact hsafe beforeCollection ⟨10, 10000⟩ afterCollection [] (by simp) "d" "s" ⟨⟨5000, "A"⟩, 5000⟩ (by decide) hbefore hcollected hlisted

end Pair

end AgentProtocol
