-- SUMMARY: What a restart restores of the membership that was saved, and for which records and versions it does.
import AgentProtocol.Cluster.RawRoster

/-!
# Restoring the membership

`_persist` saves the records of the cluster, the version of the node's own record and the clock.
A restart reads them back, moves the clock and drops old removals. Records and versions are what
peers sent, so both comparisons of stamps with numbers may raise, and so may the clock, which
follows the stamps that the node has outdone.

The other part of the saved state, the versions of services, is left out.
-/

namespace AgentProtocol

open Lib

/-! ## The saved state -/

/-- `ClusterState`, for the membership. -/
structure RawState where
  nodeId : Value
  versionClock : Value
  clusterId : Value := .null
  lastRoster : List Value := []
  myMembershipVersion : Option (List Value) := none

def jsonList (items : List Value) : Value := .arr (items.foldr .cons .nil)

@[simp] theorem iterate_jsonList (items : List Value) : (jsonList items).iterate = .ok items := by
  have hitems : ∀ items : List Value, Value.items (items.foldr .cons .nil) = items := by
    intro items
    induction items with
    | nil => rfl
    | cons item items ih => exact congrArg (item :: ·) ih
  exact congrArg Except.ok (hitems items)

def RawRecord.toDict (rec : RawRecord) : Value :=
  .obj (.ofList [("node_id", rec.nodeId), ("cluster_id", rec.clusterId), ("address", rec.address),
    ("version", jsonList rec.version), ("removed", .bool rec.removed)])

namespace RawState

def versionJson : Option (List Value) → Value
  | some (item :: rest) => jsonList (item :: rest)
  | _ => .null

/-- `to_dict`; a version without items is left out. -/
def toDict (s : RawState) : Value :=
  .obj (.ofList [("node_id", s.nodeId), ("version_clock", s.versionClock), ("cluster_id", s.clusterId),
    ("last_roster", jsonList s.lastRoster),
    ("my_membership_version", versionJson s.myMembershipVersion)])

/-- `list(mmv) if mmv else None` -/
def listOrNone (mmv : Value) : Except PyError (Option (List Value)) :=
  if mmv.truthy then mmv.iterate.map some else .ok none

/-- `load`, of a file with the given JSON. -/
def load (raw : Value) : Except PyError RawState := do
  let mmv ← raw.get "my_membership_version"
  let nodeId ← raw.subscript "node_id"
  let versionClock ← (← raw.getD "version_clock" (.int 0)).toInt
  let clusterId ← raw.get "cluster_id"
  let lastRoster ← ((← raw.get "last_roster").orElse (jsonList [])).iterate
  let myMembershipVersion ← listOrNone mmv
  return { nodeId, versionClock := .int versionClock, clusterId, lastRoster, myMembershipVersion }

end RawState

/-! ## The membership store -/

/-- A `MembershipStore`, with what it uses of its `ClusterStore`. -/
structure RawMembership where
  state : RawState
  advertise : String
  config : ClusterConfig := {}
  roster : RawRoster := []

/-- `now_ms - r.version[0] > retention_ms`, of a removal. -/
def stale (config : ClusterConfig) (nowMs : ℤ) (rec : RawRecord) : Except PyError Bool :=
  if !rec.removed then .ok false
  else match rec.version with
    | [] => .error .indexError
    | ms :: _ => do (← Value.sub (.int nowMs) ms).gt (.int config.retentionMs)

/-- `gc_membership`, of a roster. -/
def gcRoster (config : ClusterConfig) (nowMs : ℤ) : RawRoster → Except PyError RawRoster
  | [] => .ok []
  | p :: rest => do
    let old ← stale config nowMs p.2
    let rest ← gcRoster config nowMs rest
    return if old then rest else p :: rest

/-- A record of `last_roster`, or the hint of an older file; anything else is skipped. -/
def remembered (clusterId : Value) (d : Value) : Option RawRecord :=
  match d with
  | .obj fields =>
    if (fields.get? "version").isSome then (RawRecord.fromDict d).toOption
    else
      let nodeId := (fields.get? "node_id").getD .null
      if nodeId.truthy then
        some { nodeId, clusterId, address := (fields.get? "address").getD (.str ""), version := [.int 0, nodeId], removed := false }
      else none
  | _ => none

/-- The loop of `_init_from_state`. -/
def remember (own clusterId : Value) : List Value → RawRoster → Except PyError RawRoster
  | [], roster => .ok roster
  | d :: rest, roster =>
    match remembered clusterId d with
    | none => remember own clusterId rest roster
    | some rec =>
      if rec.nodeId.eq own then remember own clusterId rest roster
      else if !rec.nodeId.hashable then .error .typeError
      else if roster.any fun p => p.1.eq rec.nodeId then remember own clusterId rest roster
      else remember own clusterId rest (roster ++ [(rec.nodeId, rec)])

namespace RawMembership

def own (m : RawMembership) : Option RawRecord := (m.roster.find? fun p => p.1.eq m.state.nodeId).map Prod.snd

def others (m : RawMembership) (clusterId : Value) : List RawRecord :=
  (m.roster.map Prod.snd).filter fun rec => !rec.nodeId.eq m.state.nodeId && rec.clusterId.eq clusterId

/-- `_persist`, before the file is written. -/
def persist (m : RawMembership) : RawMembership :=
  let clusterId := (m.own.map (·.clusterId)).getD .null
  { m with state := { m.state with
      clusterId
      lastRoster := (m.others clusterId).map RawRecord.toDict
      myMembershipVersion := m.own.map (·.version) } }

def clusterId (m : RawMembership) : Value := (m.own.map (·.clusterId)).getD .null

/-- `desired_peers`, in the order of the roster. -/
def desiredPeers (m : RawMembership) : List (Value × Value) :=
  if m.clusterId = .null then []
  else ((m.others m.clusterId).filter fun rec => !rec.removed && rec.address.truthy).map fun rec => (rec.nodeId, rec.address)

/-- The removals of other nodes that the roster has for the cluster. -/
def tombstones (m : RawMembership) : List RawRecord := (m.others m.clusterId).filter (·.removed)

def observeVersion (versionClock ms : Value) : Except PyError Value :=
  (ms.gt versionClock).map fun ahead => if ahead then ms else versionClock

/-- The version of the own record in `_init_from_state`, and the clock after it: the one that was
saved, or `next_version`. -/
def ownVersion (state : RawState) (nowMs clock : ℤ) : Except PyError (List Value × Value) :=
  match state.myMembershipVersion with
  | some (ms :: rest) => (observeVersion state.versionClock ms).map fun versionClock => (ms :: rest, versionClock)
  | _ => .ok ([.int (max nowMs (clock + 1)), state.nodeId], .int (max nowMs (clock + 1)))

/-- `MembershipStore(store)` -/
def new (state : RawState) (advertise : String) (config : ClusterConfig) (nowMs : ℤ) : Except PyError RawMembership :=
  if state.clusterId = .null then .ok { state, advertise, config }
  else do
    let clock ← state.versionClock.toInt
    let (version, versionClock) ← ownVersion state nowMs clock
    let own : RawRecord :=
      { nodeId := state.nodeId, clusterId := state.clusterId, address := .str advertise, version, removed := false }
    let roster ← remember state.nodeId state.clusterId state.lastRoster [(state.nodeId, own)]
    let roster ← gcRoster config nowMs roster
    return { state := { state with versionClock }, advertise, config, roster }

/-- `_persist`, then a restart with the file that it wrote. -/
def restart (m : RawMembership) (nowMs : ℤ) : Except PyError RawMembership := do
  new (← RawState.load m.persist.state.toDict) m.advertise m.config nowMs

end RawMembership

/-! ## What a restart should restore -/

/-- The rosters that the store can have: records are filed under their nodes or dropped. -/
inductive Filed : RawRoster → Prop where
  | empty : Filed []
  | set {roster : RawRoster} (rec : RawRecord) (h : Filed roster) (hkey : rec.nodeId.hashable = true) : Filed (roster.set rec)
  | drop {roster : RawRoster} (keep : Value × RawRecord → Bool) (h : Filed roster) : Filed (roster.filter keep)

namespace RawMembership

/-- The node is in a cluster with a live record, and its roster is one that the store can have. -/
structure InCluster (m : RawMembership) (me : RawRecord) : Prop where
  filed : Filed m.roster
  nodeId : ∃ s, m.state.nodeId = .str s
  own : m.own = some me
  cluster : me.clusterId ≠ .null
  live : me.removed = false

/-- The stamp is a number, and so is the clock, which is not behind it. -/
def ClockReaches (clock : Value) (version : List Value) : Prop :=
  ∃ ms rest x y, version = ms :: rest ∧ ms.num? = some x ∧ clock.num? = some y ∧ Value.numGt x y = false

/-- The restarted store has the cluster, the own version, the peers and the removals that are not too old. -/
def Restores (m : RawMembership) (me : RawRecord) (nowMs : ℤ) : Prop :=
  ∃ m', m.restart nowMs = .ok m' ∧
    m'.clusterId = m.clusterId ∧
    m'.own.map (·.version) = some me.version ∧
    m'.desiredPeers = m.desiredPeers ∧
    m'.tombstones = m.tombstones.filter (fun rec => stale m.config nowMs rec ≠ .ok true) ∧
    ClockReaches m'.state.versionClock me.version

/-- The stamps that the restart computes with are numbers. -/
structure Restorable (m : RawMembership) (me : RawRecord) (nowMs : ℤ) : Prop where
  clock : ∃ n, m.state.versionClock.toInt = .ok n
  version : ∃ ms rest, me.version = ms :: rest ∧ ms.num? ≠ none
  tombstones : ∀ rec ∈ m.tombstones, ∃ old, stale m.config nowMs rec = .ok old

/-! ## Filed rosters -/

end RawMembership

/-- A key is as good as the node of its record, and the nodes are different. -/
structure Keyed (roster : RawRoster) : Prop where
  hashable : ∀ p ∈ roster, p.2.nodeId.hashable = true
  key : ∀ p ∈ roster, ∀ v, p.1.eq v = p.2.nodeId.eq v
  distinct : roster.Pairwise fun p q => p.2.nodeId.eq q.2.nodeId = false

theorem Keyed.set {roster : RawRoster} (h : Keyed roster) {rec : RawRecord} (hrec : rec.nodeId.hashable = true) :
    Keyed (roster.set rec) := by
  unfold RawRoster.set
  split
  · -- the record replaces one of an equal node
    have hkeys : ∀ p ∈ roster, p.1.eq rec.nodeId = true → ∀ v, p.2.nodeId.eq v = rec.nodeId.eq v := by
      intro p hp heq v
      rw [h.key p hp] at heq
      exact Value.eq_congr_of_hashable (h.hashable p hp) heq v
    have hafter : ∀ p ∈ roster, ∀ v, (if p.1.eq rec.nodeId then (p.1, rec) else p).2.nodeId.eq v = p.2.nodeId.eq v := by
      intro p hp v
      split
      · rename_i heq
        exact (hkeys p hp heq v).symm
      · rfl
    refine ⟨fun q hq => ?_, fun q hq v => ?_, ?_⟩
    · obtain ⟨p, hp, rfl⟩ := List.mem_map.mp hq
      split
      · exact hrec
      · exact h.hashable p hp
    · obtain ⟨p, hp, rfl⟩ := List.mem_map.mp hq
      rw [hafter p hp]
      split
      · exact h.key p hp v
      · exact h.key p hp v
    · refine List.pairwise_map.mpr (List.Pairwise.imp_of_mem ?_ h.distinct)
      intro p q hp hq hne
      rw [hafter p hp, Value.eq_comm_of_hashable (h.hashable p hp), hafter q hq, Value.eq_comm_of_hashable (h.hashable q hq)]
      exact hne
  · rename_i hnew
    have hnew : ∀ p ∈ roster, p.1.eq rec.nodeId = false := by simpa using hnew
    refine ⟨?_, ?_, ?_⟩
    · intro p hp
      rcases List.mem_append.mp hp with hold | hlast
      · exact h.hashable p hold
      · rw [List.mem_singleton.mp hlast]
        exact hrec
    · intro p hp v
      rcases List.mem_append.mp hp with hold | hlast
      · exact h.key p hold v
      · rw [List.mem_singleton.mp hlast]
    · refine List.pairwise_append.mpr ⟨h.distinct, List.pairwise_singleton _ _, fun p hp q hq => ?_⟩
      rw [List.mem_singleton.mp hq, ← h.key p hp]
      exact hnew p hp

theorem Filed.keyed {roster : RawRoster} (h : Filed roster) : Keyed roster := by
  induction h with
  | empty => exact ⟨nofun, nofun, List.Pairwise.nil⟩
  | set rec _ hkey ih => exact ih.set hkey
  | drop keep _ ih =>
    exact ⟨fun p hp => ih.hashable p (List.mem_filter.mp hp).1, fun p hp => ih.key p (List.mem_filter.mp hp).1,
      ih.distinct.filter keep⟩

/-! ## Reading back -/

@[simp] theorem fromDict_toDict (rec : RawRecord) : RawRecord.fromDict rec.toDict = .ok rec := by
  obtain ⟨nodeId, clusterId, address, version, removed⟩ := rec
  have hversion := iterate_jsonList version
  simp only [RawRecord.fromDict, RawRecord.toDict, Value.subscript, Value.get, Value.getD, Fields.ofList, List.foldr, Fields.get?]
  simp [bind, Except.bind, pure, Except.pure, hversion, Value.truthy]

theorem remembered_toDict (clusterId : Value) (rec : RawRecord) : remembered clusterId rec.toDict = some rec := by
  have hthere : remembered clusterId rec.toDict = (RawRecord.fromDict rec.toDict).toOption := rfl
  rw [hthere, fromDict_toDict]
  rfl

theorem remember_append {own clusterId : Value} {recs : List RawRecord} :
    ∀ {roster : RawRoster}, (∀ rec ∈ recs, rec.nodeId.eq own = false) → (∀ rec ∈ recs, rec.nodeId.hashable = true) →
      (∀ p ∈ roster, ∀ rec ∈ recs, p.1.eq rec.nodeId = false) → recs.Pairwise (fun a b => a.nodeId.eq b.nodeId = false) →
      remember own clusterId (recs.map RawRecord.toDict) roster = .ok (roster ++ recs.map fun rec => (rec.nodeId, rec)) := by
  induction recs with
  | nil => exact fun {roster} _ _ _ _ => congrArg Except.ok (List.append_nil roster).symm
  | cons rec recs ih =>
    intro roster hown hhash hnew hdistinct
    obtain ⟨hfirst, hrest⟩ := List.pairwise_cons.mp hdistinct
    have hnone : (roster.any fun p => p.1.eq rec.nodeId) = false :=
      List.any_eq_false.mpr fun p hp => by rw [hnew p hp rec List.mem_cons_self]; exact Bool.false_ne_true
    rw [List.map_cons, remember, remembered_toDict]
    dsimp only
    rw [hown rec List.mem_cons_self, hhash rec List.mem_cons_self, hnone]
    simp only [Bool.false_eq_true, if_false, Bool.not_true]
    rw [ih (fun r hr => hown r (List.mem_cons_of_mem _ hr)) (fun r hr => hhash r (List.mem_cons_of_mem _ hr)) ?_ hrest,
      List.append_assoc]
    · rfl
    · intro p hp r hr
      rcases List.mem_append.mp hp with hold | hlast
      · exact hnew p hold r (List.mem_cons_of_mem _ hr)
      · rw [List.mem_singleton.mp hlast]
        exact hfirst r hr

theorem gcRoster_of_ok {config : ClusterConfig} {nowMs : ℤ} : ∀ {roster : RawRoster},
    (∀ p ∈ roster, ∃ old, stale config nowMs p.2 = .ok old) →
      gcRoster config nowMs roster = .ok (roster.filter fun p => stale config nowMs p.2 ≠ .ok true)
  | [], _ => rfl
  | p :: rest, h => by
    obtain ⟨old, hold⟩ := h p List.mem_cons_self
    rw [gcRoster, gcRoster_of_ok fun q hq => h q (List.mem_cons_of_mem _ hq)]
    cases old <;> simp [bind, Except.bind, pure, Except.pure, hold]

theorem stale_of_gcRoster {config : ClusterConfig} {nowMs : ℤ} : ∀ {roster after : RawRoster},
    gcRoster config nowMs roster = .ok after → ∀ p ∈ roster, ∃ old, stale config nowMs p.2 = .ok old
  | [], _, _, _, hp => nomatch hp
  | p :: rest, after, h, q, hq => by
    rw [gcRoster] at h
    cases hold : stale config nowMs p.2 with
    | error e =>
      rw [hold] at h
      cases h
    | ok old =>
      cases hrest : gcRoster config nowMs rest with
      | error e =>
        rw [hold, hrest] at h
        cases h
      | ok kept =>
        rcases List.mem_cons.mp hq with rfl | hq
        · exact ⟨old, hold⟩
        · exact stale_of_gcRoster hrest q hq

namespace RawMembership

variable {m : RawMembership} {me : RawRecord} {nowMs : ℤ}

/-! ## Saving and loading -/

/-- The state as it is loaded again: its clock is an integer, and a version has items. -/
def loaded (state : RawState) (clock : ℤ) : RawState :=
  { state with
    versionClock := .int clock
    myMembershipVersion := match state.myMembershipVersion with
      | some (item :: rest) => some (item :: rest)
      | _ => none }

theorem load_toDict (state : RawState) : RawState.load state.toDict = state.versionClock.toInt.map (loaded state) := by
  have hnode : state.toDict.subscript "node_id" = .ok state.nodeId := rfl
  have hclock : state.toDict.getD "version_clock" (.int 0) = .ok state.versionClock := rfl
  have hcluster : state.toDict.get "cluster_id" = .ok state.clusterId := rfl
  have hlast : state.toDict.get "last_roster" = .ok (jsonList state.lastRoster) := rfl
  have hmmv : state.toDict.get "my_membership_version" = .ok (RawState.versionJson state.myMembershipVersion) := rfl
  have hroster : ((jsonList state.lastRoster).orElse (jsonList [])).iterate = .ok state.lastRoster := by
    cases state.lastRoster with
    | nil => rfl
    | cons d rest => exact iterate_jsonList (d :: rest)
  have hversion : RawState.listOrNone (RawState.versionJson state.myMembershipVersion) =
      .ok (loaded state 0).myMembershipVersion := by
    unfold loaded RawState.listOrNone RawState.versionJson
    split
    · rw [iterate_jsonList]
      rfl
    · rfl
  unfold RawState.load
  simp only [hnode, hclock, hcluster, hlast, hmmv, bind, Except.bind, hroster, hversion]
  cases state.versionClock.toInt <;> rfl

/-- The records of the cluster, as the restarted store files them. -/
def refiled (m : RawMembership) (me : RawRecord) (version : List Value) : RawRoster :=
  (m.state.nodeId, { nodeId := m.state.nodeId, clusterId := me.clusterId, address := .str m.advertise, version, removed := false }) ::
    (m.others me.clusterId).map fun rec => (rec.nodeId, rec)

theorem InCluster.clusterId_eq (h : m.InCluster me) : m.clusterId = me.clusterId := by
  rw [clusterId, h.own]
  rfl

theorem mem_others {clusterId : Value} {rec : RawRecord} :
    rec ∈ m.others clusterId ↔ (∃ k, (k, rec) ∈ m.roster) ∧ rec.nodeId.eq m.state.nodeId = false ∧ rec.clusterId.eq clusterId = true := by
  simp [others]

theorem InCluster.remember_eq (h : m.InCluster me) (version : List Value) :
    remember m.state.nodeId me.clusterId ((m.others me.clusterId).map RawRecord.toDict)
        [(m.state.nodeId, { nodeId := m.state.nodeId, clusterId := me.clusterId, address := .str m.advertise, version
                            removed := false })] =
      .ok (m.refiled me version) := by
  have hkeyed := h.filed.keyed
  have hhash : ∀ rec ∈ m.others me.clusterId, rec.nodeId.hashable = true := by
    intro rec hrec
    obtain ⟨⟨k, hk⟩, -⟩ := mem_others.mp hrec
    exact hkeyed.hashable _ hk
  refine remember_append (fun rec hrec => (mem_others.mp hrec).2.1) hhash ?_ ?_
  · intro p hp rec hrec
    rw [List.mem_singleton.mp hp]
    exact (Value.eq_comm_of_hashable (hhash rec hrec) _).symm.trans (mem_others.mp hrec).2.1
  · exact (List.pairwise_map.mpr hkeyed.distinct).filter _

theorem InCluster.restart_eq (h : m.InCluster me) (nowMs : ℤ) : m.restart nowMs = do
      let clock ← m.state.versionClock.toInt
      let (version, versionClock) ← ownVersion (loaded m.persist.state clock) nowMs clock
      let roster ← gcRoster m.config nowMs (m.refiled me version)
      return { state := { loaded m.persist.state clock with versionClock }, advertise := m.advertise, config := m.config, roster } := by
  have hcluster : m.persist.state.clusterId = me.clusterId := h.clusterId_eq
  have hroster : m.persist.state.lastRoster = (m.others me.clusterId).map RawRecord.toDict := by
    rw [← h.clusterId_eq]
    rfl
  have hclock : m.persist.state.versionClock = m.state.versionClock := rfl
  rw [restart, load_toDict, hclock]
  cases m.state.versionClock.toInt with
  | error e => rfl
  | ok clock =>
    have hnull : ¬ (loaded m.persist.state clock).clusterId = .null := fun hnull => h.cluster (hcluster.symm.trans hnull)
    have hint : (loaded m.persist.state clock).versionClock.toInt = .ok clock := rfl
    simp only [Except.map, bind, Except.bind, new]
    rw [if_neg hnull, hint]
    dsimp only
    cases ownVersion (loaded m.persist.state clock) nowMs clock with
    | error e => rfl
    | ok answer =>
      have hremember := h.remember_eq answer.1
      rw [← hroster, ← hcluster] at hremember
      dsimp only
      have hsame : remember (loaded m.persist.state clock).nodeId (loaded m.persist.state clock).clusterId
          (loaded m.persist.state clock).lastRoster [((loaded m.persist.state clock).nodeId,
            { nodeId := (loaded m.persist.state clock).nodeId, clusterId := (loaded m.persist.state clock).clusterId
              address := .str m.advertise, version := answer.1, removed := false })] = .ok (m.refiled me answer.1) := hremember
      rw [hsame]

/-! ## What is read back -/

theorem ownVersion_of_num (nowMs : ℤ) {state : RawState} {clock : ℤ} {ms : Value} {rest : List Value} {x : Value.Num}
    (hmmv : state.myMembershipVersion = some (ms :: rest)) (hclock : state.versionClock = .int clock) (hnum : ms.num? = some x) :
    ∃ versionClock, ownVersion state nowMs clock = .ok (ms :: rest, versionClock) ∧ ClockReaches versionClock (ms :: rest) := by
  have hgt : observeVersion state.versionClock ms = .ok (if Value.numGt x (.rat clock) then ms else .int clock) := by
    rw [observeVersion, hclock, Value.gt_int_of_num? hnum]
    rfl
  refine ⟨_, by rw [ownVersion, hmmv]; dsimp only; rw [hgt]; rfl, ms, rest, x, ?_⟩
  cases hahead : Value.numGt x (.rat clock) with
  | true => exact ⟨x, rfl, hnum, hnum, Value.numGt_self x⟩
  | false => exact ⟨.rat clock, rfl, hnum, rfl, hahead⟩

/-- The records of the cluster that are not too old. -/
def kept (m : RawMembership) (me : RawRecord) (nowMs : ℤ) : List RawRecord :=
  (m.others me.clusterId).filter fun rec => stale m.config nowMs rec ≠ .ok true

/-- The store that a restart ends with. -/
def restarted (m : RawMembership) (me : RawRecord) (nowMs : ℤ) (state : RawState) (version : List Value) : RawMembership where
  state := state
  advertise := m.advertise
  config := m.config
  roster := (m.refiled me version).filter fun p => stale m.config nowMs p.2 ≠ .ok true

section Restarted

variable {state : RawState} {version : List Value}

theorem roster_restarted : (m.restarted me nowMs state version).roster =
      (m.state.nodeId, { nodeId := m.state.nodeId, clusterId := me.clusterId, address := .str m.advertise, version
                         removed := false }) :: (m.kept me nowMs).map fun rec => (rec.nodeId, rec) := by
  have hlive : stale m.config nowMs { nodeId := m.state.nodeId, clusterId := me.clusterId, address := .str m.advertise, version
                                      removed := false } = .ok false := rfl
  rw [restarted, refiled, List.filter_cons_of_pos (by rw [hlive]; decide), List.filter_map, kept]
  rfl

variable (h : m.InCluster me) (hstate : state.nodeId = m.state.nodeId)
include h hstate

theorem own_restarted : (m.restarted me nowMs state version).own =
      some { nodeId := m.state.nodeId, clusterId := me.clusterId, address := .str m.advertise, version, removed := false } := by
  obtain ⟨s, hs⟩ := h.nodeId
  have hself : m.state.nodeId.eq m.state.nodeId = true := by rw [hs, Value.eq_str_iff]
  have hnode : (m.restarted me nowMs state version).state.nodeId = m.state.nodeId := hstate
  rw [own, roster_restarted, hnode]
  exact congrArg (Option.map Prod.snd) (List.find?_cons_of_pos hself)

theorem clusterId_restarted : (m.restarted me nowMs state version).clusterId = me.clusterId := by
  rw [clusterId, own_restarted h hstate]
  rfl

theorem others_restarted : (m.restarted me nowMs state version).others me.clusterId = m.kept me nowMs := by
  obtain ⟨s, hs⟩ := h.nodeId
  have hself : m.state.nodeId.eq m.state.nodeId = true := by rw [hs, Value.eq_str_iff]
  have hnode : (m.restarted me nowMs state version).state.nodeId = m.state.nodeId := hstate
  have hrecords : (m.kept me nowMs).map (Prod.snd ∘ fun rec => (rec.nodeId, rec)) = m.kept me nowMs := List.map_id _
  rw [others, roster_restarted, hnode, List.map_cons, List.map_map, hrecords, List.filter_cons_of_neg (by simp [hself])]
  refine List.filter_eq_self.mpr fun rec hrec => ?_
  obtain ⟨-, hother, hcluster⟩ := mem_others.mp (List.mem_filter.mp hrec).1
  simp [hother, hcluster]

theorem desiredPeers_restarted : (m.restarted me nowMs state version).desiredPeers = m.desiredPeers := by
  rw [desiredPeers, desiredPeers, clusterId_restarted h hstate, h.clusterId_eq, others_restarted h hstate, kept, List.filter_filter,
    if_neg h.cluster, if_neg h.cluster]
  refine congrArg (List.map _) (List.filter_congr fun rec _ => ?_)
  cases hremoved : rec.removed with
  | true => rfl
  | false =>
    have hlive : stale m.config nowMs rec = .ok false := by
      rw [stale, hremoved]
      rfl
    simp [hlive]

theorem tombstones_restarted : (m.restarted me nowMs state version).tombstones =
      m.tombstones.filter fun rec => stale m.config nowMs rec ≠ .ok true := by
  rw [tombstones, tombstones, clusterId_restarted h hstate, h.clusterId_eq, others_restarted h hstate, kept, List.filter_filter,
    List.filter_filter]
  exact List.filter_congr fun rec _ => Bool.and_comm _ _

omit h hstate

end Restarted

/-! ## When the membership is restored -/

theorem stale_refiled (version : List Value) (h : m.InCluster me) :
    (∀ p ∈ m.refiled me version, ∃ old, stale m.config nowMs p.2 = .ok old) ↔
      ∀ rec ∈ m.tombstones, ∃ old, stale m.config nowMs rec = .ok old := by
  rw [tombstones, h.clusterId_eq]
  constructor
  · intro hall rec hrec
    exact hall (rec.nodeId, rec) (List.mem_cons_of_mem _ (List.mem_map.mpr ⟨rec, (List.mem_filter.mp hrec).1, rfl⟩))
  · intro hall p hp
    rcases List.mem_cons.mp hp with rfl | hp
    · exact ⟨false, rfl⟩
    · obtain ⟨rec, hrec, rfl⟩ := List.mem_map.mp hp
      cases hremoved : rec.removed with
      | true => exact hall rec (List.mem_filter.mpr ⟨hrec, hremoved⟩)
      | false => exact ⟨false, by rw [stale, hremoved]; rfl⟩

/-- A restart restores the membership if and only if the stamps it computes with are numbers. -/
theorem restores_iff (m : RawMembership) (me : RawRecord) (nowMs : ℤ) (h : m.InCluster me) :
    m.Restores me nowMs ↔ m.Restorable me nowMs := by
  constructor
  · rintro ⟨m', hrestart, -, -, -, -, ms, rest, x, y, hversion, hnum, -, -⟩
    rw [h.restart_eq] at hrestart
    cases hclock : m.state.versionClock.toInt with
    | error e =>
      rw [hclock] at hrestart
      cases hrestart
    | ok clock =>
      rw [hclock] at hrestart
      simp only [bind, Except.bind] at hrestart
      split at hrestart
      · cases hrestart
      rename_i answer hanswer
      split at hrestart
      · cases hrestart
      rename_i roster hroster
      exact
        { clock := ⟨clock, hclock⟩
          version := ⟨ms, rest, hversion, by rw [hnum]; exact nofun⟩
          tombstones := (stale_refiled _ h).mp (stale_of_gcRoster hroster) }
  · rintro ⟨⟨clock, hclock⟩, ⟨ms, rest, hversion, hnum⟩, hold⟩
    obtain ⟨x, hx⟩ := Option.ne_none_iff_exists'.mp hnum
    have hmmv : (loaded m.persist.state clock).myMembershipVersion = some (ms :: rest) := by
      have hsaved : m.persist.state.myMembershipVersion = some (ms :: rest) := by
        rw [← hversion]
        exact congrArg (Option.map (·.version)) h.own
      rw [loaded, hsaved]
    obtain ⟨versionClock, hanswer, hreaches⟩ := ownVersion_of_num nowMs hmmv rfl hx
    have hgc := gcRoster_of_ok ((stale_refiled (ms :: rest) h).mpr hold)
    refine ⟨m.restarted me nowMs { loaded m.persist.state clock with versionClock } (ms :: rest), ?_,
      (clusterId_restarted h rfl).trans h.clusterId_eq.symm, ?_, desiredPeers_restarted h rfl, tombstones_restarted h rfl, ?_⟩
    · rw [h.restart_eq, hclock]
      simp only [bind, Except.bind, hanswer, hgc]
      rfl
    · exact (congrArg (Option.map (·.version)) (own_restarted h rfl)).trans (congrArg some hversion.symm)
    · rw [hversion]
      exact hreaches

/-! ## A stamp that is no number -/

def ownOfA : RawRecord :=
  { nodeId := .str "a", clusterId := .str "c", address := .str "", version := [.int 1, .str "a"], removed := false }

def removalOfB (stamp : Value) : RawRecord :=
  { nodeId := .str "b", clusterId := .str "c", address := .str "", version := [stamp, .str "b"], removed := true }

/-- A node in a cluster that was told of the removal of another one. -/
def toldOf (stamp : Value) : RawMembership where
  state := { nodeId := .str "a", versionClock := .int 1 }
  advertise := ""
  roster := RawRoster.set (RawRoster.set [] ownOfA) (removalOfB stamp)

theorem toldOf_inCluster (stamp : Value) : (toldOf stamp).InCluster ownOfA where
  filed := Filed.set (removalOfB stamp) (Filed.set ownOfA Filed.empty rfl) rfl
  nodeId := ⟨"a", rfl⟩
  own := rfl
  cluster := nofun
  live := rfl

theorem restores_sample :
    (toldOf (.int 1)).InCluster ownOfA ∧ ((toldOf (.int 1)).Restores ownOfA 2 ↔ (toldOf (.int 1)).Restorable ownOfA 2) :=
  ⟨toldOf_inCluster _, restores_iff (toldOf (.int 1)) ownOfA 2 (toldOf_inCluster _)⟩

/-- A removal with a string for its stamp keeps the store from starting again. -/
theorem restart_raises : ¬ (toldOf (.str "x")).Restores ownOfA 2 := by
  rintro ⟨m', hrestart, -⟩
  have hfails : ((toldOf (.str "x")).restart 2).toOption.isNone = true := by decide +kernel
  rw [hrestart] at hfails
  cases hfails

end RawMembership

end AgentProtocol
