-- SUMMARY: A removed member is added again: it takes effect iff the version that the member mints is later than the tombstone, or nobody else keeps the tombstone.
import AgentProtocol.Cluster.Control
import AgentProtocol.Cluster.Integrity

/-!
# Adding a removed member again

A coordinator removes a member and later adds it again, with every call delivered and
nothing else going on. The tombstone has a version by the coordinator's clock, the new
record of the member one by the member's own clock, and the roster that goes along with
the `join` does not show tombstones.

Operations run to their end, and a call runs its handler at the far end before the caller
goes on. That a call is delivered means that it also passes the receiver's session gate, so
handlers are entered behind it.
-/

namespace AgentProtocol

open Lib

abbrev Nodes := String → MembershipStore

/-- What a message does behind the gate. -/
def Host.received {τ : Type} (H : Host τ) (sender : String) : Message → τ → τ
  | .sync _ records _, k => H.merge records k
  | .evict .., k => H.becomeStandalone k
  | .evictSelf .., k => H.atomic (.release sender) fun m now =>
      H.run (.disconnect sender) <| H.run .persist <| H.pushRecords [(m.released now sender).1.toDict] k

def Message.address : Message → String
  | .sync address .. => address
  | .evict address .. => address
  | .evictSelf address _ => address

namespace Nodes

section Direct

variable (inputs : String → Input) (route : String → Option String)

def act (w : Nodes) (node : String) (s : Section) : Nodes := Function.update w node ((w node).act (inputs node) s)

/-- Operations that run to their end, with calls nested at most `depth` deep; an address leads
to the node that `route` gives. -/
def direct : ℕ → String → Host (Nodes → Nodes)
  | 0, node =>
    { atomic := fun s k w => k (w node) (inputs node).now (act inputs w node s)
      join := fun _ _ k => k (.error .transportError)
      tell := fun _ k => k }
  | depth + 1, node =>
    { atomic := fun s k w => k (w node) (inputs node).now (act inputs w node s)
      join := fun address body k => match route address with
        | none => k (.error .transportError)
        | some other => (direct depth other).handleJoin body fun answer => k (.ok answer)
      tell := fun msg k => match route msg.address with
        | none => k
        | some other => (direct depth other).received node msg k }

/-- `set_remove` of one member. Nothing in it nests deeper than a push. -/
def setRemove (coordinator member : String) (w : Nodes) : Nodes :=
  (direct inputs route 3 coordinator).setRemove [{ nodeId := member }] (fun _ => id) w

/-- `set_add` of one member: the member's handler pushes in turn. -/
def setAdd (coordinator address : String) (token : Option String) (newId : String) (w : Nodes) : Nodes :=
  (direct inputs route 3 coordinator).setAdd [{ address }] token newId (fun _ _ => id) w

end Direct

/-- A round of membership anti-entropy: `node` pulls from `other`. -/
structure Round where
  node : String
  other : String
  now : Now

/-- `reconcile_with`, behind the gate: pull what the other node has newer. -/
def reconcileWith (w : Nodes) (round : Round) : Nodes :=
  match (w round.node).clusterId with
  | none => w
  | some _ =>
    let want := (w round.node).wanted (w round.other).versionMap
    if want = [] then w
    else Function.update w round.node ((w round.node).merge round.now ((w round.other).recordsFor want)).2

/-! ## What operations do to rosters -/

/-- Rosters, clocks and the auth of the nodes are the same. -/
structure Quiet (w w' : Nodes) : Prop where
  roster : ∀ i, (w' i).roster = (w i).roster
  nodeId : ∀ i, (w' i).nodeId = (w i).nodeId
  clock : ∀ i, (w' i).store.state.versionClock = (w i).store.state.versionClock
  auth : ∀ i, (w' i).store.authStore = (w i).store.authStore

theorem Quiet.refl (w : Nodes) : Quiet w w := ⟨fun _ => rfl, fun _ => rfl, fun _ => rfl, fun _ => rfl⟩

theorem Quiet.trans {w₁ w₂ w₃ : Nodes} (h₁ : Quiet w₁ w₂) (h₂ : Quiet w₂ w₃) : Quiet w₁ w₃ :=
  ⟨fun i => (h₂.roster i).trans (h₁.roster i), fun i => (h₂.nodeId i).trans (h₁.nodeId i),
    fun i => (h₂.clock i).trans (h₁.clock i), fun i => (h₂.auth i).trans (h₁.auth i)⟩

def file (w : Nodes) (node : String) (roster : Table MembershipRecord.nodeId) : Nodes :=
  Function.update w node { w node with roster }

/-- The roster after merging, if no eviction is among the records. -/
def merged (own : String) (records : List WireRecord) (roster : Table MembershipRecord.nodeId) :
    Table MembershipRecord.nodeId :=
  (MembershipStore.mergeLoop own records roster false false).1

section Direct

variable {inputs : String → Input} {route : String → Option String} {depth : ℕ} {node : String}

theorem direct_atomic (s : Section) (k : MembershipStore → Now → Nodes → Nodes) (w : Nodes) :
    (direct inputs route depth node).atomic s k w = k (w node) (inputs node).now (act inputs w node s) := by
  cases depth <;> rfl

theorem direct_run (s : Section) (k : Nodes → Nodes) (w : Nodes) :
    (direct inputs route depth node).run s k w = k (act inputs w node s) := direct_atomic s _ w

variable {i : String}

@[simp] theorem act_of_ne {w : Nodes} {s : Section} (h : i ≠ node) : act inputs w node s i = w i :=
  Function.update_of_ne h _ _

@[simp] theorem nodeId_act (w : Nodes) (s : Section) (i : String) : (act inputs w node s i).nodeId = (w i).nodeId := by
  simp only [act, Function.update_apply]
  split
  · rename_i hi
    rw [hi, MembershipStore.act_nodeId]
  · rfl

@[simp] theorem file_of_ne {w : Nodes} {roster : Table MembershipRecord.nodeId} (h : i ≠ node) :
    w.file node roster i = w i := Function.update_of_ne h _ _

@[simp] theorem file_self (w : Nodes) (roster : Table MembershipRecord.nodeId) :
    w.file node roster node = { w node with roster } := Function.update_self _ _ _

@[simp] theorem nodeId_file (w : Nodes) (roster : Table MembershipRecord.nodeId) (i : String) :
    (w.file node roster i).nodeId = (w i).nodeId := by
  simp only [file, Function.update_apply]
  split
  · rename_i hi
    rw [hi]
    rfl
  · rfl

theorem quiet_update {w : Nodes} {m : MembershipStore} (hroster : m.roster = (w node).roster)
    (hnode : m.nodeId = (w node).nodeId) (hclock : m.store.state.versionClock = (w node).store.state.versionClock)
    (hauth : m.store.authStore = (w node).store.authStore) : Quiet w (Function.update w node m) := by
  constructor <;> intro i <;> rw [Function.update_apply] <;> split
  all_goals first | rfl | (rename_i hi; subst hi; assumption)

theorem quiet_read (w : Nodes) : act inputs w node .read = w := Function.update_eq_self node w

section Spec

variable (inputs route depth node)

theorem quiet_persist (w : Nodes) : Quiet w (act inputs w node .persist) := quiet_update rfl rfl rfl rfl

theorem quiet_disconnect (w : Nodes) (peer : String) : Quiet w (act inputs w node (.disconnect peer)) :=
  quiet_update rfl rfl rfl rfl

theorem direct_disconnectAll (peers : List String) :
    ∀ w, ∃ w', (∀ k, (direct inputs route depth node).disconnectAll peers k w = k w') ∧ Quiet w w' := by
  induction peers with
  | nil => exact fun w => ⟨w, fun _ => rfl, Quiet.refl w⟩
  | cons peer peers ih =>
    intro w
    obtain ⟨w', hw', hquiet⟩ := ih (act inputs w node (.disconnect peer))
    refine ⟨w', fun k => ?_, (quiet_disconnect inputs node w peer).trans hquiet⟩
    rw [← hw' k]
    exact direct_run _ _ _

theorem direct_becomeStandalone (w : Nodes) :
    ∃ w', (∀ k, (direct inputs route depth node).becomeStandalone k w = k w') ∧ Quiet (w.file node ∅) w' := by
  obtain ⟨w₁, hw₁, hquiet⟩ := direct_disconnectAll inputs route depth node
    (((w node).roster.rows.filter fun r => r.nodeId ≠ (w node).nodeId).map (·.nodeId)) (act inputs w node .clear)
  refine ⟨act inputs w₁ node .persist, fun k => ?_, hquiet.trans (quiet_persist inputs node w₁)⟩
  rw [Host.becomeStandalone, direct_atomic, hw₁, direct_run]

theorem direct_merge (records : List WireRecord) (w : Nodes)
    (hstays : (MembershipStore.mergeLoop (w node).nodeId records (w node).roster false false).2.2 = false) :
    ∃ w', (∀ k, (direct inputs route depth node).merge records k w = k w') ∧
      Quiet (w.file node (merged (w node).nodeId records (w node).roster)) w' := by
  have hmerged : act inputs w node (.merge records) = w.file node (merged (w node).nodeId records (w node).roster) := rfl
  cases hchanged : (MembershipStore.mergeLoop (w node).nodeId records (w node).roster false false).2.1 with
  | true =>
    refine ⟨_, fun k => ?_, quiet_persist inputs node _⟩
    rw [Host.merge, direct_atomic, hmerged]
    dsimp only
    rw [hstays, hchanged]
    exact direct_run _ _ _
  | false =>
    refine ⟨_, fun k => ?_, Quiet.refl _⟩
    rw [Host.merge, direct_atomic, hmerged]
    dsimp only
    rw [hstays, hchanged]
    rfl

end Spec

def Harmless (own : String) (records : List WireRecord) (roster : Table MembershipRecord.nodeId) : Prop :=
  (MembershipStore.mergeLoop own records roster false false).2.2 = false

def mergedAt (w : Nodes) (records : List WireRecord) (targets : List String) : Nodes :=
  fun i => if i ∈ targets then { w i with roster := merged (w i).nodeId records (w i).roster } else w i

theorem Quiet.mergedAt {w w' : Nodes} (h : Quiet w w') (records : List WireRecord) (targets : List String) :
    Quiet (w.mergedAt records targets) (w'.mergedAt records targets) := by
  constructor <;> intro i <;> simp only [Nodes.mergedAt] <;> split
  · rw [h.nodeId, h.roster]
  · exact h.roster i
  · exact h.nodeId i
  · exact h.nodeId i
  · exact h.clock i
  · exact h.clock i
  · exact h.auth i
  · exact h.auth i

theorem mergedAt_cons {w : Nodes} {records : List WireRecord} {target : String} {targets : List String}
    (htarget : target ∉ targets) : (w.file target (merged (w target).nodeId records (w target).roster)).mergedAt records targets =
      w.mergedAt records (target :: targets) := by
  funext i
  by_cases hi : i = target
  · subst hi
    simp [mergedAt, file, htarget]
  · simp [mergedAt, file, hi]

section Spec

variable (inputs)

variable (depth : ℕ) (node : String)

theorem direct_tell_sync {address other : String} (hroute : route address = some other)
    (records : List WireRecord) (token : Option String) (w : Nodes)
    (hharmless : Harmless (w other).nodeId records (w other).roster) :
    ∃ w', (∀ k, (direct inputs route (depth + 1) node).tell (.sync address records token) k w = k w') ∧
      Quiet (w.file other (merged (w other).nodeId records (w other).roster)) w' := by
  have htell : ∀ k, (direct inputs route (depth + 1) node).tell (.sync address records token) k =
      (direct inputs route depth other).merge records k := by
    intro k
    simp only [direct, Message.address, hroute]
    rfl
  obtain ⟨w', hw', hquiet⟩ := direct_merge inputs route depth other records w hharmless
  exact ⟨w', fun k => (congrFun (htell k) w).trans (hw' k), hquiet⟩

theorem direct_push (records : List WireRecord) (targets : List MembershipRecord) :
    ∀ w, (∀ rec ∈ targets, route rec.address = some rec.nodeId) → (targets.map (·.nodeId)).Nodup →
      (∀ rec ∈ targets, Harmless (w rec.nodeId).nodeId records (w rec.nodeId).roster) →
      ∃ w', (∀ k, Host.each targets (fun rec k => (direct inputs route (depth + 1) node).atomic .read fun m _ =>
          (direct inputs route (depth + 1) node).tell (.sync rec.address records (m.peerToken rec.nodeId)) k) k w = k w') ∧
        Quiet (w.mergedAt records (targets.map (·.nodeId))) w' := by
  induction targets with
  | nil => exact fun w _ _ _ => ⟨w, fun _ => rfl, Quiet.refl _⟩
  | cons rec rest ih =>
    intro w hroute hnodup hharmless
    obtain ⟨hrec, hrest⟩ := List.nodup_cons.mp hnodup
    obtain ⟨w₁, hw₁, hquiet₁⟩ := direct_tell_sync inputs depth node (hroute rec (by simp)) records
      ((w node).peerToken rec.nodeId) w (hharmless rec (by simp))
    -- the first target has merged, and the others are as they were
    have hothers : ∀ other ∈ rest, Harmless (w₁ other.nodeId).nodeId records (w₁ other.nodeId).roster := by
      intro other hother
      have hne : other.nodeId ≠ rec.nodeId := fun heq => hrec (List.mem_map.mpr ⟨other, hother, heq⟩)
      rw [hquiet₁.nodeId, hquiet₁.roster, file, Function.update_of_ne hne]
      exact hharmless other (by simp [hother])
    obtain ⟨w₂, hw₂, hquiet₂⟩ := ih w₁ (fun other hother => hroute other (by simp [hother])) hrest hothers
    refine ⟨w₂, fun k => ?_, ?_⟩
    · rw [Host.each, List.foldr_cons, direct_atomic, quiet_read, hw₁]
      exact hw₂ k
    · have hquiet := (hquiet₁.mergedAt records (rest.map (·.nodeId))).trans hquiet₂
      rwa [mergedAt_cons hrec] at hquiet

theorem direct_pushRecords (records : List WireRecord) (w : Nodes)
    (hroute : ∀ rec ∈ (w node).targets (w node).clusterId, route rec.address = some rec.nodeId)
    (hharmless : ∀ rec ∈ (w node).targets (w node).clusterId, Harmless (w rec.nodeId).nodeId records (w rec.nodeId).roster) :
    ∃ w', (∀ k, (direct inputs route (depth + 1) node).pushRecords records k w = k w') ∧
      Quiet (w.mergedAt records (((w node).targets (w node).clusterId).map (·.nodeId))) w' := by
  have hnodup : (((w node).targets (w node).clusterId).map (·.nodeId)).Nodup :=
    (w node).roster.nodup.sublist ((List.filter_sublist.trans List.filter_sublist).map _)
  obtain ⟨w', hw', hquiet⟩ := direct_push inputs depth node records _ w hroute hnodup hharmless
  refine ⟨w', fun k => ?_, hquiet⟩
  rw [Host.pushRecords, direct_atomic, quiet_read, direct_atomic, quiet_read]
  exact hw' k

end Spec

/-- Rosters and ids are the same. -/
structure Kept (w w' : Nodes) : Prop where
  roster : ∀ i, (w' i).roster = (w i).roster
  nodeId : ∀ i, (w' i).nodeId = (w i).nodeId

theorem Kept.refl (w : Nodes) : Kept w w := ⟨fun _ => rfl, fun _ => rfl⟩

theorem Kept.trans {w₁ w₂ w₃ : Nodes} (h₁ : Kept w₁ w₂) (h₂ : Kept w₂ w₃) : Kept w₁ w₃ :=
  ⟨fun i => (h₂.roster i).trans (h₁.roster i), fun i => (h₂.nodeId i).trans (h₁.nodeId i)⟩

theorem Quiet.kept {w w' : Nodes} (h : Quiet w w') : Kept w w' := ⟨h.roster, h.nodeId⟩

theorem kept_connect (w : Nodes) (address : String) : Kept w (act inputs w node (.connect address)) := by
  constructor <;> intro i <;> simp only [act, Function.update_apply] <;> split
  · rename_i hi
    subst hi
    rfl
  · rfl
  · rename_i hi
    subst hi
    exact MembershipStore.act_nodeId _ _ _
  · rfl

theorem direct_each {α : Type} {f : α → (Nodes → Nodes) → Nodes → Nodes} {l : List α}
    (hf : ∀ x ∈ l, ∀ w, ∃ w', (∀ k, f x k w = k w') ∧ Kept w w') : ∀ w, ∃ w', (∀ k, Host.each l f k w = k w') ∧ Kept w w' := by
  induction l with
  | nil => exact fun w => ⟨w, fun _ => rfl, Kept.refl w⟩
  | cons x l ih =>
    intro w
    obtain ⟨w₁, hw₁, hkept₁⟩ := hf x (by simp) w
    obtain ⟨w₂, hw₂, hkept₂⟩ := ih (fun y hy => hf y (by simp [hy])) w₁
    exact ⟨w₂, fun k => (hw₁ _).trans (hw₂ k), hkept₁.trans hkept₂⟩

theorem direct_reconcileConnections (inputs : String → Input) (route : String → Option String) (depth : ℕ) (node : String)
    (w : Nodes) : ∃ w', (∀ k, (direct inputs route depth node).reconcileConnections k w = k w') ∧ Kept w w' := by
  have hconnect : ∀ (p : String × String) (w : Nodes),
      ∃ w', (∀ k, (direct inputs route depth node).run (.connect p.2) k w = k w') ∧ Kept w w' :=
    fun p w => ⟨_, fun k => direct_run (.connect p.2) k w, kept_connect w p.2⟩
  have hdrop : ∀ (n : String) (w : Nodes),
      ∃ w', (∀ k, (direct inputs route depth node).atomic .read (fun m _ =>
        if m.isRemovedOrAbsent n then (direct inputs route depth node).run (.disconnect n) k else k) w = k w') ∧
        Kept w w' := by
    intro n w
    cases habsent : (w node).isRemovedOrAbsent n with
    | true =>
      refine ⟨_, fun k => ?_, (quiet_disconnect inputs node w n).kept⟩
      rw [direct_atomic, quiet_read, habsent]
      exact direct_run _ _ _
    | false =>
      refine ⟨w, fun k => ?_, Kept.refl w⟩
      rw [direct_atomic, quiet_read, habsent]
      rfl
  cases hcid : (w node).clusterId with
  | none =>
    refine ⟨w, fun k => ?_, Kept.refl w⟩
    rw [Host.reconcileConnections, direct_atomic, quiet_read, hcid]
  | some cid =>
    obtain ⟨w₁, hw₁, hkept₁⟩ := direct_each (fun p _ => hconnect p) w
    obtain ⟨w₂, hw₂, hkept₂⟩ := direct_each (fun n _ => hdrop n) w₁
    refine ⟨w₂, fun k => ?_, hkept₁.trans hkept₂⟩
    rw [Host.reconcileConnections, direct_atomic, quiet_read, hcid]
    dsimp only
    rw [direct_atomic, quiet_read, direct_atomic, quiet_read, hw₁]
    exact hw₂ k

end Direct

/-! ## Entries after merging -/

structure LiveAs (c : String) (v : Version) (r : MembershipRecord) : Prop where
  clusterId : r.clusterId = some c
  removed : r.removed = false
  version : r.version = v

theorem merged_own (own : String) (records : List WireRecord) (roster : Table MembershipRecord.nodeId) :
    (merged own records roster).get? own = roster.get? own := MembershipStore.mergeLoop_own own records roster false false

variable {roster : Table MembershipRecord.nodeId}

theorem merged_entry (own : String) (records : List WireRecord) {j : String}
    {r₀ : MembershipRecord} (h : roster.get? j = some r₀) :
    ∃ r, (merged own records roster).get? j = some r ∧ r₀.version ≤ r.version ∧
      (r = r₀ ∨ r ∈ MembershipStore.validRecords records) := by
  obtain ⟨v, hv, hle⟩ := MembershipStore.mergeLoop_notBack own records roster false false j r₀.version (by rw [h]; rfl)
  obtain ⟨r, hr, rfl⟩ := Option.map_eq_some_iff.mp hv
  refine ⟨r, hr, hle, ?_⟩
  rcases MembershipStore.mergeLoop_mem own records roster false false j r hr with hold | hnew
  · exact .inl (Option.some.inj (hold.symm.trans h))
  · exact .inr hnew

variable {records : List WireRecord}

theorem merged_new (own : String) (roster : Table MembershipRecord.nodeId)
    {r₁ : MembershipRecord} (hmem : r₁ ∈ MembershipStore.validRecords records) (hown : r₁.nodeId ≠ own) :
    ∃ r, (merged own records roster).get? r₁.nodeId = some r ∧ r₁.version ≤ r.version := by
  have hloses := MembershipStore.mergeLoop_loses_of_mem own hown records roster false false hmem
  cases hget : (merged own records roster).get? r₁.nodeId with
  | none =>
    rw [MembershipStore.newer, ← merged, hget] at hloses
    cases hloses
  | some r =>
    refine ⟨r, rfl, ?_⟩
    rw [MembershipStore.newer, ← merged, hget] at hloses
    exact not_lt.mp fun hlt => Bool.false_ne_true (hloses.symm.trans (Lww.newer_some.mpr hlt))

theorem merged_mem {own j : String} {r : MembershipRecord} (h : (merged own records roster).get? j = some r) :
    roster.get? j = some r ∨ r ∈ MembershipStore.validRecords records :=
  MembershipStore.mergeLoop_mem own records roster false false j r h

theorem harmless_of {own : String} (h : ∀ r ∈ MembershipStore.validRecords records, r.nodeId = own → r.removed = false) :
    Harmless own records roster := by
  rw [Harmless, MembershipStore.mergeLoop_evicted, Bool.false_or, List.any_eq_false]
  intro r hr
  by_cases hown : r.nodeId = own
  · simp [h r hr hown]
  · simp [hown]

theorem merged_live {own c j : String} {v : Version} (h : ∃ r, roster.get? j = some r ∧ LiveAs c v r)
    (hrecords : ∀ r ∈ MembershipStore.validRecords records, r.nodeId = j → LiveAs c v r) :
    ∃ r, (merged own records roster).get? j = some r ∧ LiveAs c v r := by
  obtain ⟨r₀, hr₀, hlive⟩ := h
  obtain ⟨r, hr, -, rfl | hmem⟩ := merged_entry own records hr₀
  · exact ⟨r, hr, hlive⟩
  · exact ⟨r, hr, hrecords r hmem (Table.get?_eq_some.mp hr).2⟩

@[simp] theorem validRecords_rows (rows : List MembershipRecord) :
    MembershipStore.validRecords (rows.map MembershipRecord.toDict) = rows := by
  rw [MembershipStore.validRecords, List.filterMap_map]
  exact List.filterMap_some

/-! ## Settled clusters -/

/-- In the roster of node `own`, the live members of `c` are `ids`, apart from `own` perhaps:
each under its version and under an address that leads to it. -/
structure Sees (route : String → Option String) (ids : List String) (c : String) (ver : String → Version) (own : String)
    (roster : Table MembershipRecord.nodeId) : Prop where
  rows : ∀ j ∈ ids, ∃ r, roster.get? j = some r ∧ LiveAs c (ver j) r ∧ r.address ≠ "" ∧ route r.address = some j
  strangers : ∀ j ∉ ids, j ≠ own → ∀ r, roster.get? j = some r → r.clusterId = some c → r.removed = true

/-- The members of cluster `c` know each other, under the same versions, and count nobody
else as a member. -/
structure Settled (route : String → Option String) (ids : List String) (c : String) (ver : String → Version)
    (w : Nodes) : Prop where
  nodeId : ∀ i, (w i).nodeId = i
  sees : ∀ i ∈ ids, Sees route ids c ver i (w i).roster

section Settled

variable {route : String → Option String} {ids : List String} {c : String} {ver : String → Version} {w : Nodes}

variable {m : MembershipStore}

theorem Sees.clusterId (h : Sees route ids c ver m.nodeId m.roster) (hi : m.nodeId ∈ ids) : m.clusterId = some c := by
  obtain ⟨r, hr, hlive, -⟩ := h.rows _ hi
  rw [MembershipStore.clusterId, hr]
  exact hlive.clusterId

variable {rec : MembershipRecord}

theorem Sees.mem_targets (h : Sees route ids c ver m.nodeId m.roster)
    (hrec : rec ∈ m.targets (some c)) : rec.nodeId ∈ ids ∧ rec.nodeId ≠ m.nodeId ∧ route rec.address = some rec.nodeId := by
  simp only [MembershipStore.targets, MembershipStore.members, List.mem_filter, Bool.and_eq_true,
    decide_eq_true_eq, Bool.not_eq_true'] at hrec
  obtain ⟨⟨hrow, ⟨hne, hcid⟩, hremoved⟩, -⟩ := hrec
  have hget : m.roster.get? rec.nodeId = some rec := Table.get?_eq_some.mpr ⟨hrow, rfl⟩
  have hmem : rec.nodeId ∈ ids := by
    by_contra hnot
    exact absurd (h.strangers _ hnot hne rec hget hcid) (by simp [hremoved])
  obtain ⟨r, hr, -, -, hroute⟩ := h.rows _ hmem
  obtain rfl := Option.some.inj (hr.symm.trans hget)
  exact ⟨hmem, hne, hroute⟩

theorem Sees.mem_targets_ids (h : Sees route ids c ver m.nodeId m.roster) {j : String} :
    j ∈ (m.targets (some c)).map (·.nodeId) ↔ j ∈ ids ∧ j ≠ m.nodeId := by
  constructor
  · intro hj
    obtain ⟨rec, hrec, rfl⟩ := List.mem_map.mp hj
    obtain ⟨hmem, hne, -⟩ := h.mem_targets hrec
    exact ⟨hmem, hne⟩
  · rintro ⟨hj, hne⟩
    obtain ⟨r, hr, hlive, haddress, -⟩ := h.rows j hj
    obtain ⟨hrow, rfl⟩ := Table.get?_eq_some.mp hr
    refine List.mem_map_of_mem ?_
    simp [MembershipStore.targets, MembershipStore.members, hrow, hlive.clusterId, hlive.removed, haddress, hne]

variable {tomb : MembershipRecord} {own : String}

theorem Sees.bury {roster : Table MembershipRecord.nodeId} (h : Sees route ids c ver own roster)
    (hremoved : tomb.removed = true) : Sees route (ids.filter (· ≠ tomb.nodeId)) c ver own (roster.insert tomb) := by
  refine ⟨fun j hj => ?_, fun j hj hne r hr hcid => ?_⟩
  · obtain ⟨hj, hjm⟩ := List.mem_filter.mp hj
    rw [Table.get?_insert_of_ne (Ne.symm (of_decide_eq_true hjm))]
    exact h.rows j hj
  · rw [Table.get?_insert] at hr
    split at hr
    · obtain rfl := Option.some.inj hr
      exact hremoved
    · rename_i hjm
      exact h.strangers j (fun hmem => hj (List.mem_filter.mpr ⟨hmem, by simp [Ne.symm hjm]⟩)) hne r hr hcid

theorem Sees.regain {roster roster' : Table MembershipRecord.nodeId} {member : String} (hmember : member ∈ ids)
    (h : Sees route (ids.filter (· ≠ member)) c ver own roster) (hget : roster'.get? member = some rec)
    (hlive : LiveAs c rec.version rec) (haddress : rec.address ≠ "") (hroute : route rec.address = some member)
    (hrest : ∀ j, j ≠ member → roster'.get? j = roster.get? j) :
    Sees route ids c (Function.update ver member rec.version) own roster' := by
  refine ⟨fun j hj => ?_, fun j hj hne r hr hcid => ?_⟩
  · by_cases hjm : j = member
    · subst hjm
      exact ⟨rec, hget, by simpa using hlive, haddress, hroute⟩
    · rw [Function.update_of_ne hjm, hrest j hjm]
      exact h.rows j (List.mem_filter.mpr ⟨hj, by simpa using hjm⟩)
  · have hjm : j ≠ member := fun heq => hj (heq ▸ hmember)
    rw [hrest j hjm] at hr
    exact h.strangers j (fun hmem => hj (List.mem_filter.mp hmem).1) hne r hr hcid

/-! ## The removal -/

def tombstone (w : Nodes) (inputs : String → Input) (coordinator member : String) : MembershipRecord :=
  ((w coordinator).buried (inputs coordinator).now member "").1

/-- What a removal leaves: everybody else has filed the tombstone, and the member is on its
own. -/
structure Removed (ids : List String) (member : String) (tomb : MembershipRecord) (w w' : Nodes) : Prop where
  nodeId : ∀ i, (w' i).nodeId = (w i).nodeId
  others : ∀ i ∈ ids, i ≠ member → (w' i).roster = (w i).roster.insert tomb
  alone : (w' member).roster = ∅
  clock : (w' member).store.state.versionClock = (w member).store.state.versionClock
  auth : (w' member).store.authStore = (w member).store.authStore

theorem merged_single {rec cur : MembershipRecord} {roster : Table MembershipRecord.nodeId}
    (hown : rec.nodeId ≠ own) (hcur : roster.get? rec.nodeId = some cur) :
    merged own [rec.toDict] roster = if cur.version < rec.version then roster.insert rec else roster := by
  have hnewer : MembershipStore.newer roster rec = decide (cur.version < rec.version) := by
    rw [MembershipStore.newer, hcur]
    rfl
  by_cases hlt : cur.version < rec.version
  · simp [merged, MembershipStore.mergeLoop, MembershipRecord.toDict, WireRecord.fromDict, hnewer, hown, hlt]
  · simp [merged, MembershipStore.mergeLoop, MembershipRecord.toDict, WireRecord.fromDict, hnewer, hlt]

theorem merged_single_of_ne {own j : String} {roster : Table MembershipRecord.nodeId}
    (hj : j ≠ rec.nodeId) : (merged own [rec.toDict] roster).get? j = roster.get? j := by
  simp only [merged, MembershipStore.mergeLoop, MembershipRecord.toDict, WireRecord.fromDict]
  split
  · rfl
  · split
    · rfl
    · exact Table.get?_insert_of_ne (Ne.symm hj)

variable {coordinator member : String}

theorem tombstone_removed (w : Nodes) (inputs : String → Input) :
    (w.tombstone inputs coordinator member).removed = true := rfl

theorem lt_tombstone (w : Nodes) (inputs : String → Input) {r : MembershipRecord}
    (hrow : (w coordinator).roster.get? member = some r) : r.version < (w.tombstone inputs coordinator member).version := by
  have hms := (w coordinator).store.lt_nextVersionAfter (inputs coordinator).now r.version.ms
  refine Version.lt_of_ms_lt ?_
  simpa [tombstone, MembershipStore.buried, MembershipStore.tombstone, hrow] using hms

theorem setRemove_removed (h : Settled route ids c ver w) (inputs : String → Input) (hcoord : coordinator ∈ ids)
    (hmember : member ∈ ids) (hne : coordinator ≠ member) (hname : member ≠ "") :
    Removed ids member (w.tombstone inputs coordinator member) w (setRemove inputs route coordinator member w) := by
  obtain ⟨row, hrow, hlive, haddress, hroute⟩ := (h.sees coordinator hcoord).rows member hmember
  have htomb : (w.tombstone inputs coordinator member).address = row.address := by
    simp [tombstone, MembershipStore.buried, MembershipStore.tombstone, hrow]
  have hevict : ∀ cid token k, (direct inputs route 3 coordinator).tell
      (.evict (w.tombstone inputs coordinator member).address cid token) k =
      (direct inputs route 2 member).becomeStandalone k := by
    intro cid token k
    simp only [direct, Message.address, htomb, hroute]
    rfl
  -- the coordinator files the tombstone, the member drops out, and the coordinator disconnects it
  simp only [setRemove, Host.setRemove, Host.removeMembers, hname, if_false]
  rw [direct_atomic, direct_atomic, quiet_read, ← tombstone, hevict]
  obtain ⟨w₁, hw₁, hquiet₁⟩ := direct_becomeStandalone inputs route 2 member (act inputs w coordinator (.bury member ""))
  rw [hw₁, direct_run]
  simp only [List.nil_append, List.cons_ne_nil, if_false]
  rw [direct_run]
  set w₂ := act inputs (act inputs w₁ coordinator (.disconnect member)) coordinator .persist with hw₂
  have hquiet₂ : Quiet ((act inputs w coordinator (.bury member "")).file member ∅) w₂ :=
    hquiet₁.trans ((quiet_disconnect inputs coordinator w₁ member).trans (quiet_persist inputs coordinator _))
  -- so far only the coordinator and the member have changed
  have hnode₂ : ∀ i, (w₂ i).nodeId = i := fun i => by rw [hquiet₂.nodeId, nodeId_file, nodeId_act, h.nodeId]
  have hcoord₂ : (w₂ coordinator).roster = (w coordinator).roster.insert (w.tombstone inputs coordinator member) := by
    rw [hquiet₂.roster, file_of_ne hne, act, Function.update_self]
    rfl
  have hothers₂ : ∀ i, i ≠ coordinator → i ≠ member → (w₂ i).roster = (w i).roster := by
    intro i hi hi'
    rw [hquiet₂.roster, file_of_ne hi', act_of_ne hi]
  have hmember₂ : (w₂ member).roster = ∅ := by rw [hquiet₂.roster, file_self]
  have hsees : Sees route (ids.filter (· ≠ member)) c ver (w₂ coordinator).nodeId (w₂ coordinator).roster := by
    rw [hnode₂, hcoord₂]
    exact (h.sees coordinator hcoord).bury (w.tombstone_removed inputs)
  have hcluster : (w₂ coordinator).clusterId = some c :=
    hsees.clusterId (by rw [hnode₂]; exact List.mem_filter.mpr ⟨hcoord, by simpa using hne⟩)
  -- the tombstone goes to all members that are left
  have htargets : ∀ {rec : MembershipRecord}, rec ∈ (w₂ coordinator).targets (w₂ coordinator).clusterId →
      rec.nodeId ≠ member ∧ route rec.address = some rec.nodeId := by
    intro rec hrec
    obtain ⟨hmem, -, hroute⟩ := hsees.mem_targets (hcluster ▸ hrec)
    exact ⟨of_decide_eq_true (List.mem_filter.mp hmem).2, hroute⟩
  obtain ⟨w₃, hw₃, hquiet₃⟩ := direct_pushRecords inputs 2 coordinator [(w.tombstone inputs coordinator member).toDict] w₂
    (fun rec hrec => (htargets hrec).2) (fun rec hrec => by
      refine harmless_of fun r hr hown => absurd ?_ (htargets hrec).1
      obtain rfl := List.mem_singleton.mp ((validRecords_rows [w.tombstone inputs coordinator member]) ▸ hr)
      rw [← hnode₂ rec.nodeId, ← hown]
      rfl)
  rw [hcluster] at hquiet₃
  rw [hw₃]
  have hmerged : ∀ {i : String}, i ∈ ((w₂ coordinator).targets (some c)).map (·.nodeId) ↔
      (i ∈ ids ∧ i ≠ member) ∧ i ≠ coordinator := by
    intro i
    rw [hsees.mem_targets_ids, List.mem_filter, decide_eq_true_eq, hnode₂]
  constructor
  · intro i
    rw [id, hquiet₃.nodeId, h.nodeId]
    simp only [mergedAt]
    split <;> exact hnode₂ i
  · intro i hi him
    rw [id, hquiet₃.roster]
    simp only [mergedAt, hmerged]
    split
    · rename_i htarget
      obtain ⟨r, hr, hri, -⟩ := (h.sees i hi).rows member hmember
      have hlater := w.lt_tombstone inputs hrow
      rw [hlive.version, ← hri.version] at hlater
      rw [hothers₂ i htarget.2 him, hnode₂, merged_single (Ne.symm him) hr, if_pos hlater]
    · rename_i htarget
      obtain rfl : i = coordinator := by
        by_contra hne
        exact htarget ⟨⟨hi, him⟩, hne⟩
      exact hcoord₂
  · rw [id, hquiet₃.roster]
    simp only [mergedAt, hmerged]
    rw [if_neg (by simp)]
    exact hmember₂
  · rw [id, hquiet₃.clock]
    simp only [mergedAt, hmerged]
    rw [if_neg (by simp), hquiet₂.clock, file_self, act_of_ne hne.symm]
  · rw [id, hquiet₃.auth]
    simp only [mergedAt, hmerged]
    rw [if_neg (by simp), hquiet₂.auth, file_self, act_of_ne hne.symm]

/-! ## The addition -/

/-- After a removal: the members that are left know each other and have the tombstone, and
the member is on its own. -/
structure Parted (route : String → Option String) (ids : List String) (c : String) (ver : String → Version)
    (member : String) (tomb : MembershipRecord) (w : Nodes) : Prop where
  nodeId : ∀ i, (w i).nodeId = i
  sees : ∀ i ∈ ids.filter (· ≠ member), Sees route (ids.filter (· ≠ member)) c ver i (w i).roster
  tomb : ∀ i ∈ ids.filter (· ≠ member), (w i).roster.get? member = some tomb
  alone : (w member).roster = ∅

variable {w' : Nodes}

theorem Removed.parted (h : Settled route ids c ver w)
    (hremoved : Removed ids member tomb w w') (htomb : tomb.nodeId = member) (hgone : tomb.removed = true) :
    Parted route ids c ver member tomb w' := by
  constructor
  · exact fun i => (hremoved.nodeId i).trans (h.nodeId i)
  · intro i hi
    obtain ⟨hi, him⟩ := List.mem_filter.mp hi
    rw [hremoved.others i hi (of_decide_eq_true him), ← htomb]
    exact (h.sees i hi).bury hgone
  · intro i hi
    obtain ⟨hi, him⟩ := List.mem_filter.mp hi
    rw [hremoved.others i hi (of_decide_eq_true him), ← htomb, Table.get?_insert_self]
  · exact hremoved.alone

/-- The record that a member files for itself when it joins. -/
def ownRecord (w : Nodes) (inputs : String → Input) (c member : String) : MembershipRecord :=
  { nodeId := member, clusterId := some c, address := (w member).store.advertise
    version := ((w member).store.nextVersion (inputs member).now).1 }

theorem ownRecord_live (w : Nodes) (inputs : String → Input) :
    LiveAs c (w.ownRecord inputs c member).version (w.ownRecord inputs c member) := ⟨rfl, rfl, rfl⟩

theorem Sees.adopted {roster : Table MembershipRecord.nodeId} {rows : List MembershipRecord}
    (h : Sees route (ids.filter (· ≠ member)) c ver own roster) (hown : own ∈ ids) (hne : own ≠ member)
    (hrows : ∀ r, r ∈ rows ↔ roster.get? r.nodeId = some r ∧ r.removed = false) {self : MembershipRecord}
    (hself : self.nodeId = member) :
    Sees route (ids.filter (· ≠ member)) c ver member (merged member (rows.map MembershipRecord.toDict) (Table.insert ∅ self)) := by
  have hget : ∀ {j : String} {r : MembershipRecord}, j ≠ member →
      (merged member (rows.map MembershipRecord.toDict) (Table.insert ∅ self)).get? j = some r →
      roster.get? j = some r ∧ r.removed = false := by
    intro j r hj hr
    have hkey := (Table.get?_eq_some.mp hr).2
    rcases merged_mem hr with hold | hnew
    · rw [Table.get?_insert_of_ne (by rw [hself]; exact Ne.symm hj)] at hold
      cases hold
    · rw [validRecords_rows] at hnew
      exact hkey ▸ (hrows r).mp hnew
  refine ⟨fun j hj => ?_, fun j hj hjm r hr hcid => ?_⟩
  · obtain ⟨r, hr, hlive, haddress, hroute⟩ := h.rows j hj
    have hjm : j ≠ member := of_decide_eq_true (List.mem_filter.mp hj).2
    have hkey : r.nodeId = j := (Table.get?_eq_some.mp hr).2
    have hmem : r ∈ MembershipStore.validRecords (rows.map MembershipRecord.toDict) := by
      rw [validRecords_rows, hrows, hkey]
      exact ⟨hr, hlive.removed⟩
    obtain ⟨r', hr', -⟩ := merged_new member (Table.insert ∅ self) hmem (by rwa [hkey])
    rw [hkey] at hr'
    obtain rfl : r = r' := Option.some.inj (hr.symm.trans (hget hjm hr').1)
    exact ⟨r, hr', hlive, haddress, hroute⟩
  · obtain ⟨hr, hlive⟩ := hget hjm hr
    by_cases hjo : j = own
    · subst hjo
      exact absurd (List.mem_filter.mpr ⟨hown, by simpa using hne⟩) hj
    · exact h.strangers j hj hjo r hr hcid

/-- What a join leaves: the member has taken over the roster that it was sent, and everybody
else was offered its record. -/
structure Joined (ids : List String) (member : String) (own : MembershipRecord) (roster : List WireRecord)
    (w w' : Nodes) : Prop where
  nodeId : ∀ i, (w' i).nodeId = (w i).nodeId
  others : ∀ i ∈ ids.filter (· ≠ member), (w' i).roster = merged i [own.toDict] (w i).roster
  member : (w' member).roster = merged member roster (Table.insert ∅ own)

variable {tomb own : MembershipRecord} {roster : List WireRecord} (hjoined : Joined ids member own roster w w') (h : Parted route ids c ver member tomb w)
include hjoined h

theorem Joined.rows (hown : own.nodeId = member)
    (hsees : Sees route (ids.filter (· ≠ member)) c ver member (merged member roster (Table.insert ∅ own)))
    {i j : String} (hi : i ∈ ids) (hj : j ∈ ids) (hjm : j ≠ member) :
    ∃ r, (w' i).roster.get? j = some r ∧ LiveAs c (ver j) r := by
  have hj : j ∈ ids.filter (· ≠ member) := List.mem_filter.mpr ⟨hj, by simpa using hjm⟩
  by_cases him : i = member
  · subst him
    obtain ⟨r, hr, hlive, -⟩ := hsees.rows j hj
    exact ⟨r, hjoined.member ▸ hr, hlive⟩
  · have hi : i ∈ ids.filter (· ≠ member) := List.mem_filter.mpr ⟨hi, by simpa using him⟩
    obtain ⟨r, hr, hlive, -⟩ := (h.sees i hi).rows j hj
    rw [hjoined.others i hi, merged_single_of_ne (by rwa [hown])]
    exact ⟨r, hr, hlive⟩

theorem Joined.entry (hown : own.nodeId = member) {i : String} (hi : i ∈ ids.filter (· ≠ member)) :
    (w' i).roster.get? member = some (if tomb.version < own.version then own else tomb) := by
  have him : own.nodeId ≠ i := hown ▸ Ne.symm (of_decide_eq_true (List.mem_filter.mp hi).2)
  rw [hjoined.others i hi, merged_single him (hown.symm ▸ h.tomb i hi)]
  split
  · rw [← hown, Table.get?_insert_self]
  · exact h.tomb i hi

omit hjoined h

variable {token : Option String}

theorem handleJoin_joined {rows : List MembershipRecord} (h : Parted route ids c ver member tomb w) (inputs : String → Input)
    (hsees : Sees route (ids.filter (· ≠ member)) c ver member
      (merged member (rows.map MembershipRecord.toDict) (Table.insert ∅ (w.ownRecord inputs c member))))
    (hrows : ∀ r ∈ rows, r.removed = false) (hname : c ≠ "") (hauth : (w member).joinAuthorized token = true) :
    ∃ w', (∀ k, (direct inputs route 2 member).handleJoin ⟨c, rows.map MembershipRecord.toDict, token⟩ k w =
        k (.accepted member c (w.ownRecord inputs c member).version) w') ∧
      Joined ids member (w.ownRecord inputs c member) (rows.map MembershipRecord.toDict) w w' := by
  have halone : (w member).clusterId = none := by
    rw [MembershipStore.clusterId, h.alone]
    rfl
  -- the member files its record, and merges the roster
  set w₁ := act inputs (act inputs w member (.ordain c)) member
    (.assign (w member).nodeId c (w member).store.advertise ((w member).store.nextVersion (inputs member).now).1) with hw₁
  have hroster₁ : (w₁ member).roster = Table.insert ∅ (w.ownRecord inputs c member) := by
    rw [hw₁, act, Function.update_self, act, Function.update_self]
    simp only [MembershipStore.act, h.alone, h.nodeId]
    rfl
  have hnode₁ : ∀ i, (w₁ i).nodeId = i := fun i => by rw [hw₁, nodeId_act, nodeId_act, h.nodeId]
  obtain ⟨w₂, hw₂, hquiet₂⟩ := direct_merge inputs route 2 member (rows.map MembershipRecord.toDict) w₁
    (harmless_of fun r hr _ => hrows r (by rwa [validRecords_rows] at hr))
  obtain ⟨w₃, hw₃, hkept₃⟩ := direct_reconcileConnections inputs route 2 member (act inputs w₂ member .persist)
  have hkept : Kept (w₁.file member (merged member (rows.map MembershipRecord.toDict) (w₁ member).roster)) w₃ := by
    rw [hnode₁] at hquiet₂
    exact (hquiet₂.trans (quiet_persist inputs member w₂)).kept.trans hkept₃
  have hnode₃ : ∀ i, (w₃ i).nodeId = i := fun i => by rw [hkept.nodeId, nodeId_file, hnode₁]
  have hroster₃ : (w₃ member).roster = merged member (rows.map MembershipRecord.toDict)
      (Table.insert ∅ (w.ownRecord inputs c member)) := by rw [hkept.roster, file_self, hroster₁]
  have hothers₃ : ∀ i, i ≠ member → (w₃ i).roster = (w i).roster := by
    intro i hi
    rw [hkept.roster, file_of_ne hi, hw₁, act_of_ne hi, act_of_ne hi]
  have hown₃ : (w₃ member).roster.get? (w₃ member).nodeId = some (w.ownRecord inputs c member) := by
    rw [hroster₃, hnode₃, merged_own]
    exact Table.get?_insert_self _ _
  have hmine : (w₃ member).myRecord (inputs member).now = (w.ownRecord inputs c member, w₃ member) := by
    rw [MembershipStore.myRecord, hown₃]
  have hstays : act inputs w₃ member .own = w₃ := by
    rw [act, MembershipStore.act, hmine]
    exact Function.update_eq_self member w₃
  have hcluster : (w₃ member).clusterId = some c := by
    rw [MembershipStore.clusterId, hown₃]
    rfl
  -- its record goes to all the others
  have hsees₃ : Sees route (ids.filter (· ≠ member)) c ver (w₃ member).nodeId (w₃ member).roster := by
    rwa [hnode₃, hroster₃]
  have hpushed : ∀ {i : String}, i ∈ ((w₃ member).targets (some c)).map (·.nodeId) ↔
      i ∈ ids.filter (· ≠ member) ∧ i ≠ member := by
    intro i
    rw [hsees₃.mem_targets_ids, hnode₃]
  obtain ⟨w₄, hw₄, hquiet₄⟩ := direct_pushRecords inputs 1 member [(w.ownRecord inputs c member).toDict] w₃
    (fun rec hrec => (hsees₃.mem_targets (hcluster ▸ hrec)).2.2) (fun rec hrec => by
      refine harmless_of fun r hr hown => ?_
      obtain rfl := List.mem_singleton.mp ((validRecords_rows [w.ownRecord inputs c member]) ▸ hr)
      rfl)
  rw [hcluster] at hquiet₄
  refine ⟨w₄, fun k => ?_, ?_⟩
  · rw [Host.handleJoin, direct_atomic, quiet_read, hauth]
    simp only [Bool.not_true, Bool.false_eq_true, if_false, hname]
    rw [Host.adopt, direct_atomic, quiet_read, halone]
    dsimp only
    rw [Host.enter, direct_atomic, direct_run, ← hw₁, hw₂, direct_run, hw₃, Host.pushOwn, direct_atomic, hstays, hmine, hw₄]
    rw [h.nodeId]
    rfl
  · constructor
    · intro i
      rw [hquiet₄.nodeId, h.nodeId]
      simp only [mergedAt]
      split <;> exact hnode₃ i
    · intro i hi
      have him : i ≠ member := of_decide_eq_true (List.mem_filter.mp hi).2
      rw [hquiet₄.roster, mergedAt, if_pos (hpushed.mpr ⟨hi, him⟩), hnode₃, hothers₃ i him]
    · rw [hquiet₄.roster, mergedAt, if_neg fun hmem => (hpushed.mp hmem).2 rfl, hroster₃]

/-- What an addition leaves: everybody knows the others as before, and has the member under
its new version, unless it keeps a tombstone that is not earlier. -/
structure Readded (ids : List String) (c : String) (ver : String → Version) (coordinator member : String)
    (tomb : MembershipRecord) (version : Version) (w : Nodes) : Prop where
  nodeId : ∀ i, (w i).nodeId = i
  others : ∀ i ∈ ids, ∀ j ∈ ids, j ≠ member → ∃ r, (w i).roster.get? j = some r ∧ LiveAs c (ver j) r
  live : ∀ i ∈ ids, i = coordinator ∨ i = member ∨ tomb.version < version →
    ∃ r, (w i).roster.get? member = some r ∧ LiveAs c version r
  dead : ∀ i ∈ ids, i ≠ coordinator → i ≠ member → ¬ tomb.version < version → (w i).roster.get? member = some tomb

/-- Before the coordinator's push: it has filed the member's new record over its tombstone,
and the member has offered the record to everybody else. -/
structure Filed (route : String → Option String) (ids : List String) (c : String) (ver : String → Version)
    (coordinator member : String) (tomb own : MembershipRecord) (w : Nodes) : Prop where
  nodeId : ∀ i, (w i).nodeId = i
  sees : Sees route ids c (Function.update ver member own.version) coordinator (w coordinator).roster
  rows : ∀ i ∈ ids, ∀ j ∈ ids, j ≠ member → ∃ r, (w i).roster.get? j = some r ∧ LiveAs c (ver j) r
  self : (w member).roster.get? member = some own
  entry : ∀ i ∈ ids, i ≠ coordinator → i ≠ member →
    (w i).roster.get? member = some (if tomb.version < own.version then own else tomb)

theorem Filed.pushed {tomb own : MembershipRecord} (h : Filed route ids c ver coordinator member tomb own w)
    (inputs : String → Input) (hcoord : coordinator ∈ ids) (hmember : member ∈ ids) (hlive : LiveAs c own.version own)
    (hstamps : tomb.version ≠ own.version) : ∃ w', (∀ k, (direct inputs route 3 coordinator).pushRecords
        ((w coordinator).roster.rows.map MembershipRecord.toDict) k w = k w') ∧
      Readded ids c ver coordinator member tomb own.version w' := by
  have hsees : Sees route ids c (Function.update ver member own.version) (w coordinator).nodeId (w coordinator).roster := by
    rw [h.nodeId]
    exact h.sees
  have hcluster : (w coordinator).clusterId = some c := hsees.clusterId (by rwa [h.nodeId])
  have hrows : ∀ {r : MembershipRecord},
      r ∈ MembershipStore.validRecords ((w coordinator).roster.rows.map MembershipRecord.toDict) → r.nodeId ∈ ids →
      LiveAs c (Function.update ver member own.version r.nodeId) r := by
    intro r hr hj
    rw [validRecords_rows] at hr
    obtain ⟨r', hr', hlive, -⟩ := hsees.rows r.nodeId hj
    rwa [Option.some.inj (hr'.symm.trans (Table.get?_eq_some.mpr ⟨hr, rfl⟩))] at hlive
  have hmine : ∀ {r : MembershipRecord},
      r ∈ MembershipStore.validRecords ((w coordinator).roster.rows.map MembershipRecord.toDict) → r.nodeId = member →
      LiveAs c own.version r := by
    intro r hr hj
    have hlive := hrows hr (hj ▸ hmember)
    rwa [hj, Function.update_self] at hlive
  obtain ⟨w', hw', hquiet⟩ := direct_pushRecords inputs 2 coordinator
    ((w coordinator).roster.rows.map MembershipRecord.toDict) w
    (fun rec hrec => (hsees.mem_targets (hcluster ▸ hrec)).2.2) (fun rec hrec => by
      refine harmless_of fun r hr hown => (hrows hr ?_).removed
      rw [hown, h.nodeId]
      exact (hsees.mem_targets (hcluster ▸ hrec)).1)
  rw [hcluster] at hquiet
  have hreached : ∀ i ∈ ids, i ≠ coordinator → (w' i).roster =
      merged i ((w coordinator).roster.rows.map MembershipRecord.toDict) (w i).roster := by
    intro i hi hic
    rw [hquiet.roster, mergedAt, if_pos (hsees.mem_targets_ids.mpr ⟨hi, by rwa [h.nodeId]⟩), h.nodeId]
  have hpusher : (w' coordinator).roster = (w coordinator).roster := by
    rw [hquiet.roster, mergedAt, if_neg]
    exact fun hmem => (hsees.mem_targets_ids.mp hmem).2 (h.nodeId coordinator).symm
  refine ⟨w', hw', ?_, ?_, ?_, ?_⟩
  · intro i
    rw [hquiet.nodeId, mergedAt]
    split <;> exact h.nodeId i
  · intro i hi j hj hjm
    by_cases hic : i = coordinator
    · rw [hic, hpusher]
      exact h.rows coordinator hcoord j hj hjm
    · rw [hreached i hi hic]
      refine merged_live (h.rows i hi j hj hjm) ?_
      rintro r hr rfl
      have hlive := hrows hr hj
      rwa [Function.update_of_ne hjm] at hlive
  · intro i hi hcase
    by_cases hic : i = coordinator
    · obtain ⟨r, hr, hlive, -⟩ := h.sees.rows member hmember
      rw [Function.update_self] at hlive
      exact ⟨r, by rwa [hic, hpusher], hlive⟩
    · rw [hreached i hi hic]
      refine merged_live ⟨own, ?_, hlive⟩ fun r hr hj => hmine hr hj
      by_cases him : i = member
      · exact him ▸ h.self
      · rw [h.entry i hi hic him, if_pos ((hcase.resolve_left hic).resolve_left him)]
  · intro i hi hic him hearly
    have hentry := h.entry i hi hic him
    rw [if_neg hearly] at hentry
    obtain ⟨r, hr, hle, rfl | hmem⟩ := merged_entry i ((w coordinator).roster.rows.map MembershipRecord.toDict) hentry
    · rw [hreached i hi hic, hr]
    · -- the coordinator's record has the version of the member's, so it does not win either
      have hlive := hmine hmem (Table.get?_eq_some.mp hr).2
      exact absurd (le_antisymm (hlive.version ▸ hle) (not_lt.mp hearly)) hstamps

theorem setAdd_readded (h : Parted route ids c ver member tomb w) (inputs : String → Input)
    (hcoord : coordinator ∈ ids) (hmember : member ∈ ids) (hne : coordinator ≠ member) (hname : c ≠ "") {address : String}
    (haddress : address ≠ "") (hroute : route address = some member)
    (hauth : (w member).joinAuthorized token = true) (hstamp : tomb.version.node = coordinator) (newId : String) :
    Readded ids c ver coordinator member tomb (w.ownRecord inputs c member).version
      (setAdd inputs route coordinator address token newId w) := by
  have hleft : coordinator ∈ ids.filter (· ≠ member) := List.mem_filter.mpr ⟨hcoord, by simpa using hne⟩
  have hcluster : (w coordinator).clusterId = some c := by
    have hsees : Sees route (ids.filter (· ≠ member)) c ver (w coordinator).nodeId (w coordinator).roster := by
      rw [h.nodeId]
      exact h.sees coordinator hleft
    exact hsees.clusterId (by rwa [h.nodeId])
  have hform : (w coordinator).form (inputs coordinator).now newId = w coordinator := by
    rw [MembershipStore.form, hcluster]
  have hstays : act inputs w coordinator (.form newId) = w := by
    rw [act, MembershipStore.act, hform]
    exact Function.update_eq_self coordinator w
  -- the member joins
  have hrows : ∀ r, r ∈ (w coordinator).roster.rows.filter (fun r => !r.removed) ↔
      (w coordinator).roster.get? r.nodeId = some r ∧ r.removed = false := by
    intro r
    simp [Table.get?_eq_some]
  have hadopted := (h.sees coordinator hleft).adopted hcoord hne hrows (rfl : (w.ownRecord inputs c member).nodeId = member)
  obtain ⟨w₁, hw₁, hjoined⟩ := handleJoin_joined h inputs hadopted (fun r hr => ((hrows r).mp hr).2) hname hauth
  have hjoin : ∀ body k, (direct inputs route 3 coordinator).join address body k =
      (direct inputs route 2 member).handleJoin body fun answer => k (.ok answer) := by
    intro body k
    simp only [direct, hroute]
  -- the coordinator files the record over its tombstone
  set w₂ := act inputs w₁ coordinator (.assign member c address (w.ownRecord inputs c member).version) with hw₂
  obtain ⟨w₃, hw₃, hkept⟩ := direct_reconcileConnections inputs route 3 coordinator (act inputs w₂ coordinator .persist)
  replace hkept := (quiet_persist inputs coordinator w₂).kept.trans hkept
  have hothers : ∀ i, i ≠ coordinator → (w₃ i).roster = (w₁ i).roster := by
    intro i hi
    rw [hkept.roster, hw₂, act_of_ne hi]
  have hfiled : Filed route ids c ver coordinator member tomb (w.ownRecord inputs c member) w₃ := by
    constructor
    · intro i
      rw [hkept.nodeId, hw₂, nodeId_act, hjoined.nodeId, h.nodeId]
    · rw [hkept.roster, hw₂, act, Function.update_self, MembershipStore.act, hjoined.others coordinator hleft]
      have hview := (h.sees coordinator hleft).regain hmember (Table.get?_insert_self
        (merged coordinator [(w.ownRecord inputs c member).toDict] (w coordinator).roster)
        (⟨member, some c, address, (w.ownRecord inputs c member).version, false⟩ : MembershipRecord))
        ⟨rfl, rfl, rfl⟩ haddress hroute fun j hj => by
          rw [Table.get?_insert_of_ne (Ne.symm hj), merged_single_of_ne hj]
      exact hview
    · intro i hi j hj hjm
      obtain ⟨r, hr, hlive⟩ := hjoined.rows h rfl hadopted hi hj hjm
      refine ⟨r, ?_, hlive⟩
      by_cases hic : i = coordinator
      · subst hic
        rw [hkept.roster, hw₂, act, Function.update_self]
        exact (Table.get?_insert_of_ne (Ne.symm hjm)).trans hr
      · rw [hothers i hic, hr]
    · rw [hothers member (Ne.symm hne), hjoined.member, merged_own]
      exact Table.get?_insert_self _ _
    · intro i hi hic him
      rw [hothers i hic]
      exact hjoined.entry h rfl (List.mem_filter.mpr ⟨hi, by simpa using him⟩)
  have hstamps : tomb.version ≠ (w.ownRecord inputs c member).version := by
    intro heq
    refine hne (hstamp.symm.trans ?_)
    rw [heq]
    exact h.nodeId member
  obtain ⟨w₄, hw₄, hreadded⟩ := hfiled.pushed inputs hcoord hmember (w.ownRecord_live inputs) hstamps
  have hrun : setAdd inputs route coordinator address token newId w = w₄ := by
    rw [setAdd, Host.setAdd, direct_atomic, hstays, hform, hcluster, Host.addMembers, if_neg haddress, hjoin,
      MembershipStore.snapshot, Option.getD_some, hw₁]
    dsimp only
    rw [direct_run, ← hw₂, Host.addMembers, direct_run, hw₃, direct_atomic, quiet_read, hw₄, direct_atomic, quiet_read]
    rfl
  rwa [hrun]

/-! ## Anti-entropy afterwards -/

/-- The nodes have each other as live members, under the same versions. -/
structure Agreed (ids : List String) (c : String) (ver : String → Version) (w : Nodes) : Prop where
  nodeId : ∀ i, (w i).nodeId = i
  rows : ∀ i ∈ ids, ∀ j ∈ ids, ∃ r, (w i).roster.get? j = some r ∧ LiveAs c (ver j) r

theorem Agreed.not_mem_wanted (h : Agreed ids c ver w) {i other j : String} (hi : i ∈ ids) (hother : other ∈ ids)
    (hj : j ∈ ids) : j ∉ (w i).wanted (w other).versionMap := by
  intro hmem
  obtain ⟨⟨j', v⟩, hp, rfl⟩ := List.mem_map.mp hmem
  obtain ⟨hp, hnewer⟩ := List.mem_filter.mp hp
  obtain ⟨far, hfar, heq⟩ := List.mem_map.mp hp
  obtain ⟨rfl, rfl⟩ := Prod.mk.inj heq
  obtain ⟨r, hr, hlive⟩ := h.rows i hi far.nodeId hj
  obtain ⟨r', hr', hlive'⟩ := h.rows other hother far.nodeId hj
  obtain rfl : r' = far := Option.some.inj (hr'.symm.trans (Table.get?_eq_some.mpr ⟨hfar, rfl⟩))
  dsimp only at hnewer
  rw [hr] at hnewer
  have hlt : r.version < r'.version := Lww.newer_some.mp hnewer
  rw [hlive.version, hlive'.version] at hlt
  exact lt_irrefl _ hlt

theorem merge_harmless {records : List WireRecord} (h : Harmless m.nodeId records m.roster) (now : Now) :
    (m.merge now records).2.roster = merged m.nodeId records m.roster ∧ (m.merge now records).2.nodeId = m.nodeId := by
  rw [Harmless] at h
  simp only [MembershipStore.merge, h]
  split
  · contradiction
  split <;> exact ⟨rfl, rfl⟩

theorem Agreed.reconcileWith (h : Agreed ids c ver w) {round : Round} (hnode : round.node ∈ ids) (hother : round.other ∈ ids) :
    Agreed ids c ver (w.reconcileWith round) := by
  unfold Nodes.reconcileWith
  split
  · exact h
  · dsimp only
    split
    · exact h
    · set records := (w round.other).recordsFor ((w round.node).wanted (w round.other).versionMap) with hrecords
      have hstrange : ∀ r ∈ MembershipStore.validRecords records, r.nodeId ∉ ids := by
        intro r hr hj
        obtain ⟨raw, hraw, hvalid⟩ := List.mem_filterMap.mp hr
        obtain ⟨j, hwanted, hget⟩ := List.mem_filterMap.mp hraw
        obtain ⟨r', hr', rfl⟩ := Option.map_eq_some_iff.mp hget
        obtain rfl : r' = r := Option.some.inj hvalid
        obtain rfl := (Table.get?_eq_some.mp hr').2
        exact h.not_mem_wanted hnode hother hj hwanted
      obtain ⟨hroster, hid⟩ := merge_harmless (harmless_of fun r hr hown =>
        absurd hnode (h.nodeId round.node ▸ hown ▸ hstrange r hr)) round.now
      refine ⟨fun i => ?_, fun i hi j hj => ?_⟩
      · rw [Function.update_apply]
        split
        · rename_i heq
          rw [hid, heq, h.nodeId]
        · exact h.nodeId i
      · rw [Function.update_apply]
        split
        · rename_i heq
          subst heq
          rw [hroster]
          exact merged_live (h.rows _ hi j hj) fun r hr hrj => absurd (hrj ▸ hj) (hstrange r hr)
        · exact h.rows i hi j hj

theorem Agreed.rounds (h : Agreed ids c ver w) {rounds : List Round} (hrounds : ∀ r ∈ rounds, r.node ∈ ids ∧ r.other ∈ ids) :
    Agreed ids c ver (rounds.foldl Nodes.reconcileWith w) := by
  induction rounds generalizing w with
  | nil => exact h
  | cons round rounds ih =>
    obtain ⟨hnode, hother⟩ := hrounds round (by simp)
    exact ih (h.reconcileWith hnode hother) fun r hr => hrounds r (by simp [hr])

variable {version : Version}

theorem Readded.agreed (h : Readded ids c ver coordinator member tomb version w)
    (hwins : ∀ i ∈ ids, i = coordinator ∨ i = member ∨ tomb.version < version) :
    Agreed ids c (Function.update ver member version) w := by
  refine ⟨h.nodeId, fun i hi j hj => ?_⟩
  by_cases hjm : j = member
  · subst hjm
    rw [Function.update_self]
    exact h.live i hi (hwins i hi)
  · rw [Function.update_of_ne hjm]
    exact h.others i hi j hj hjm

/-! ## Removal and addition -/

/-- The member is live in `c`, for all of `ids`, however many rounds of anti-entropy follow. -/
def StaysIn (ids : List String) (c member : String) (w : Nodes) : Prop :=
  ∀ rounds : List Round, (∀ r ∈ rounds, r.node ∈ ids ∧ r.other ∈ ids) → ∀ i ∈ ids,
    ∃ r, ((rounds.foldl Nodes.reconcileWith w) i).roster.get? member = some r ∧ r.clusterId = some c ∧ r.removed = false

theorem Readded.staysIn_iff
    (h : Readded ids c ver coordinator member tomb version w) (hmember : member ∈ ids) (hgone : tomb.removed = true) :
    StaysIn ids c member w ↔ (∀ i ∈ ids, i = coordinator ∨ i = member) ∨ tomb.version < version := by
  constructor
  · intro hstays
    by_contra hnot
    obtain ⟨hother, hlate⟩ := not_or.mp hnot
    push Not at hother
    obtain ⟨i, hi, hic, him⟩ := hother
    -- before any round
    obtain ⟨r, hr, -, hremoved⟩ := hstays [] (by simp) i hi
    obtain rfl := Option.some.inj (hr.symm.trans (h.dead i hi hic him hlate))
    exact absurd (hremoved.symm.trans hgone) Bool.false_ne_true
  · intro hcase rounds hrounds i hi
    have hwins : ∀ i ∈ ids, i = coordinator ∨ i = member ∨ tomb.version < version := fun i hi =>
      hcase.elim (fun hboth => or_assoc.mp (.inl (hboth i hi))) fun hlater => .inr (.inr hlater)
    obtain ⟨r, hr, hlive⟩ := ((h.agreed hwins).rounds hrounds).rows i hi member hmember
    exact ⟨r, hr, hlive.clusterId, hlive.removed⟩

/-- A member that is removed and then added again takes part for good iff there is nobody
but the coordinator to keep its tombstone, or its own clock is then ahead of the clock that
the tombstone was written by. -/
theorem readmitted_iff (h : Settled route ids c ver w) (coordinator member : String) (hcoord : coordinator ∈ ids) (hmember : member ∈ ids)
    (hne : coordinator ≠ member) (hnames : member ≠ "" ∧ c ≠ "") (address : String) (haddress : address ≠ "")
    (hroute : route address = some member) (token : Option String) (hauth : (w member).joinAuthorized token = true)
    (newId : String) (inputs inputs' : String → Input) : StaysIn ids c member
        (setAdd inputs' route coordinator address token newId (setRemove inputs route coordinator member w)) ↔
      (∀ i ∈ ids, i = coordinator ∨ i = member) ∨
        (⟨max (max (inputs coordinator).now.wallMs ((w coordinator).store.state.versionClock + 1)) ((ver member).ms + 1),
            coordinator⟩ : Version) < ⟨max (inputs' member).now.wallMs ((w member).store.state.versionClock + 1), member⟩ := by
  have hremoved := setRemove_removed h inputs hcoord hmember hne hnames.1
  obtain ⟨row, hrow, hlive, -⟩ := (h.sees coordinator hcoord).rows member hmember
  have htomb : (w.tombstone inputs coordinator member).version =
      ⟨max (max (inputs coordinator).now.wallMs ((w coordinator).store.state.versionClock + 1)) ((ver member).ms + 1),
        coordinator⟩ := by
    simp only [tombstone, MembershipStore.buried, MembershipStore.tombstone, hrow, Option.map_some, Option.getD_some,
      hlive.version]
    exact Version.ext rfl (h.nodeId coordinator)
  have hparted := hremoved.parted h rfl (w.tombstone_removed inputs)
  have hauth' : (setRemove inputs route coordinator member w member).joinAuthorized token = true := by
    rwa [MembershipStore.joinAuthorized, hremoved.auth]
  have hreadded := setAdd_readded hparted inputs' hcoord hmember hne hnames.2 haddress hroute hauth' (by rw [htomb]) newId
  have hown : ((setRemove inputs route coordinator member w).ownRecord inputs' c member).version =
      ⟨max (inputs' member).now.wallMs ((w member).store.state.versionClock + 1), member⟩ := by
    rw [← hremoved.clock]
    exact Version.ext rfl (hparted.nodeId member)
  rw [hreadded.staysIn_iff hmember (w.tombstone_removed inputs), htomb, hown]

end Settled

/-- Three members of the cluster `"c"`, each of which is reached under its id. -/
def trio (node : String) : MembershipStore where
  store := { state := { nodeId := node, versionClock := 1 } }
  roster := ⟨["a", "b", "m"].map fun n => ⟨n, some "c", n, ⟨1, n⟩, false⟩, by decide⟩

theorem trio_settled : Settled some ["a", "b", "m"] "c" (fun n => ⟨1, n⟩) trio := by
  have hmem : ∀ {i j : String} {r : MembershipRecord}, (trio i).roster.get? j = some r → j ∈ ["a", "b", "m"] := by
    intro i j r hr
    obtain ⟨hrow, rfl⟩ := Table.get?_eq_some.mp hr
    obtain ⟨n, hn, rfl⟩ := List.mem_map.mp hrow
    exact hn
  refine ⟨fun i => rfl, fun i _ => ⟨fun j hj => ?_, fun j hj _ r hr => absurd (hmem hr) hj⟩⟩
  refine ⟨⟨j, some "c", j, ⟨1, j⟩, false⟩, Table.get?_eq_some.mpr ⟨List.mem_map_of_mem hj, rfl⟩, ⟨rfl, rfl, rfl⟩, ?_, rfl⟩
  rintro rfl
  exact absurd hj (by decide)

/-- All nodes read the same time from their clocks, apart from the member. -/
def clocks (others member : ℤ) (node : String) : Input where
  now := ⟨0, if node = "m" then member else others⟩
  peers := MembershipStore.deafTransport.toTransport

/-- A member whose clock is right stays, one whose clock is an hour late does not. -/
theorem readmitted_sample : StaysIn ["a", "b", "m"] "c" "m"
        (setAdd (clocks 20 20) some "a" "m" none "" (setRemove (clocks 10 10) some "a" "m" trio)) ∧
      ¬ StaysIn ["a", "b", "m"] "c" "m"
        (setAdd (clocks 3600020 20) some "a" "m" none "" (setRemove (clocks 3600010 10) some "a" "m" trio)) := by
  have hiff := fun ins ins' => readmitted_iff trio_settled "a" "m" (by decide) (by decide) (by decide) (by decide) "m"
    (by decide) rfl none rfl "" ins ins'
  exact ⟨(hiff _ _).mpr (by decide), fun h => absurd ((hiff _ _).mp h) (by decide)⟩

/-- The tombstone outlives the addition at a node that took no part in it. -/
theorem readmission_undone :
    ¬ ∀ (route : String → Option String) (ids : List String) (c : String) (ver : String → Version) (w : Nodes)
      (coordinator member address newId : String) (token : Option String) (inputs inputs' : String → Input),
      Settled route ids c ver w → coordinator ∈ ids → member ∈ ids → coordinator ≠ member → member ≠ "" ∧ c ≠ "" →
      address ≠ "" → route address = some member → (w member).joinAuthorized token = true → StaysIn ids c member
        (setAdd inputs' route coordinator address token newId (setRemove inputs route coordinator member w)) := by
  intro h
  have hstays := h some _ "c" _ trio "a" "m" "m" "" none (clocks 3600010 10) (clocks 3600020 20) trio_settled (by decide)
    (by decide) (by decide) (by decide) (by decide) rfl rfl
  have hcoord : "a" ∈ ["a", "b", "m"] := by decide
  have hmember : "m" ∈ ["a", "b", "m"] := by decide
  have hremoved := setRemove_removed trio_settled (clocks 3600010 10) hcoord hmember (by decide) (by decide)
  have hauth : (setRemove (clocks 3600010 10) some "a" "m" trio "m").joinAuthorized none = true := rfl
  have hreadded := setAdd_readded (hremoved.parted trio_settled rfl rfl) (clocks 3600020 20) hcoord hmember (by decide)
    (by decide) (by decide : "m" ≠ "") rfl hauth rfl ""
  obtain ⟨r, hr, -, hlive⟩ := hstays [] (by simp) "b" (by decide)
  have hdead := hreadded.dead "b" (by decide) (by decide) (by decide) (by decide)
  obtain rfl := Option.some.inj (hr.symm.trans hdead)
  exact absurd hlive (by decide)

end Nodes

end AgentProtocol
