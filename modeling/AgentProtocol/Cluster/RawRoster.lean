-- SUMMARY: The roster as it is at run time, where records have whatever their JSON had, and what a batch of them does to a roster of checked records.
import AgentProtocol.Cluster.Membership
import AgentProtocol.Lib.PyOrder

/-!
# Unchecked membership records

`MembershipRecord.from_dict` checks no types, so a record in the roster has the fields that a peer
sent. It fails only on what has no `node_id`, or no `version` that can be made a tuple; `merge`
skips these records. A comparison of versions or a lookup of a node raises later, outside of the
`try`.
-/

namespace AgentProtocol

open Lib

/-! ## Records -/

/-- A `MembershipRecord` with the fields of its JSON. -/
structure RawRecord where
  nodeId : Value
  clusterId : Value
  address : Value
  version : List Value
  removed : Bool
  deriving DecidableEq

namespace RawRecord

def fromDict (d : Value) : Except PyError RawRecord := do
  let nodeId ← d.subscript "node_id"
  let clusterId ← d.get "cluster_id"
  let address ← d.getD "address" (.str "")
  let version ← (← d.subscript "version").iterate
  let removed ← d.getD "removed" (.bool false)
  return { nodeId, clusterId, address, version, removed := removed.truthy }

/-- The record, if its fields have the declared types. -/
def typed (rec : RawRecord) : Option MembershipRecord :=
  match rec.nodeId, rec.clusterId, rec.address, rec.version with
  | .str nodeId, .null, .str address, [.int ms, .str node] =>
    some { nodeId, clusterId := none, address, version := ⟨ms, node⟩, removed := rec.removed }
  | .str nodeId, .str clusterId, .str address, [.int ms, .str node] =>
    some { nodeId, clusterId := some clusterId, address, version := ⟨ms, node⟩, removed := rec.removed }
  | _, _, _, _ => none

/-- The record that the JSON is, if it is well-formed. -/
def wellFormed (d : Value) : Option MembershipRecord := (fromDict d).toOption.bind typed

end RawRecord

def Version.tuple (v : Version) : List Value := [.int v.ms, .str v.node]

/-- A checked record among unchecked ones. -/
def MembershipRecord.raw (r : MembershipRecord) : RawRecord where
  nodeId := .str r.nodeId
  clusterId := r.clusterId.elim .null .str
  address := .str r.address
  version := r.version.tuple
  removed := r.removed

/-- What the model of checked records takes the JSON for. -/
def WireRecord.ofJson (d : Value) : WireRecord := (RawRecord.wellFormed d).elim .malformed .record

/-! ## The roster -/

/-- `_roster`, with its keys. -/
abbrev RawRoster := List (Value × RawRecord)

namespace RawRoster

/-- `self._roster.get(node_id)`, which raises for a list or an object. -/
def get (roster : RawRoster) (nodeId : Value) : Except PyError (Option RawRecord) :=
  if nodeId.hashable then .ok ((roster.find? fun p => p.1.eq nodeId).map Prod.snd) else .error .typeError

/-- `self._roster[rec.node_id] = rec`. -/
def set (roster : RawRoster) (rec : RawRecord) : RawRoster :=
  if roster.any fun p => p.1.eq rec.nodeId then roster.map fun p => if p.1.eq rec.nodeId then (p.1, rec) else p
  else roster ++ [(rec.nodeId, rec)]

/-- `version_newer`, against what the roster has for the node. -/
def wins (roster : RawRoster) (rec : RawRecord) : Except PyError Bool := do
  match ← roster.get rec.nodeId with
  | none => return true
  | some cur => Value.tupleGt rec.version cur.version

/-- The loop of `merge`: what it says, or the error, and the roster. -/
def mergeLoop (own : String) : List Value → RawRoster → Bool → Bool → Except PyError (Bool × Bool) × RawRoster
  | [], roster, changed, evicted => (.ok (changed, evicted), roster)
  | d :: records, roster, changed, evicted =>
    match RawRecord.fromDict d with
    | .error _ => mergeLoop own records roster changed evicted
    | .ok rec =>
      match roster.wins rec with
      | .error e => (.error e, roster)
      | .ok false => mergeLoop own records roster changed evicted
      | .ok true =>
        if rec.nodeId.eq (.str own) then mergeLoop own records roster changed (evicted || rec.removed)
        else mergeLoop own records (roster.set rec) true evicted

/-- `merge`, which empties the roster if the node was evicted. -/
def merge (own : String) (roster : RawRoster) (records : List Value) : Except PyError Bool × RawRoster :=
  match mergeLoop own records roster false false with
  | (.error e, roster) => (.error e, roster)
  | (.ok (changed, evicted), roster) => if evicted then (.ok true, []) else (.ok changed, roster)

def ofTable (roster : Table MembershipRecord.nodeId) : RawRoster := roster.rows.map fun r => (.str r.nodeId, r.raw)

end RawRoster

/-! ## Checked and unchecked records -/

@[simp] theorem typed_raw (r : MembershipRecord) : r.raw.typed = some r := by
  obtain ⟨nodeId, clusterId, address, version, removed⟩ := r
  cases clusterId <;> rfl

theorem raw_of_typed {rec : RawRecord} {r : MembershipRecord} (h : rec.typed = some r) : rec = r.raw := by
  obtain ⟨nodeId, clusterId, address, version, removed⟩ := rec
  unfold RawRecord.typed at h
  split at h
  · rename_i hnode hcluster haddress hversion
    obtain rfl := Option.some.inj h
    simp only at hnode hcluster haddress hversion
    subst hnode hcluster haddress hversion
    rfl
  · rename_i hnode hcluster haddress hversion
    obtain rfl := Option.some.inj h
    simp only at hnode hcluster haddress hversion
    subst hnode hcluster haddress hversion
    rfl
  · cases h

theorem tupleGt_version (v w : Version) : Value.tupleGt v.tuple w.tuple = .ok (decide (w < v)) := by
  refine (Value.tupleGt_stamps v.ms w.ms v.node w.node).trans ?_
  simp only [Version.lt_iff, eq_comm]

namespace RawRoster

variable {roster : Table MembershipRecord.nodeId}

theorem find?_ofTable (node : String) :
    (ofTable roster).find? (fun p => p.1.eq (.str node)) = (roster.get? node).map fun r => (.str r.nodeId, r.raw) := by
  rw [ofTable, List.find?_map]
  refine congrArg (Option.map _) (List.find?_congr ?_)
  intro r _
  simp [Value.eq]

theorem get_ofTable (node : String) : (ofTable roster).get (.str node) = .ok ((roster.get? node).map MembershipRecord.raw) := by
  have hhashable : (Value.str node).hashable = true := rfl
  rw [get, if_pos hhashable, find?_ofTable, Option.map_map]
  rfl

theorem find?_ofTable_other {k : Value} (h : ∀ node, k ≠ .str node) : (ofTable roster).find? (fun p => p.1.eq k) = none := by
  refine List.find?_eq_none.mpr fun p hp heq => ?_
  obtain ⟨r, -, rfl⟩ := List.mem_map.mp hp
  exact h r.nodeId (Value.str_eq.mp heq)

theorem set_ofTable (r : MembershipRecord) : (ofTable roster).set r.raw = ofTable (roster.insert r) := by
  have hany : ((ofTable roster).any fun p => p.1.eq r.raw.nodeId) = true ↔ r.nodeId ∈ roster.rows.map (·.nodeId) := by
    simp [ofTable, MembershipRecord.raw, Value.eq]
  unfold set
  split
  · rename_i hthere
    rw [ofTable, ofTable, Table.rows_insert, if_pos (hany.mp hthere), List.map_map, List.map_map]
    refine List.map_congr_left fun r' _ => ?_
    by_cases hnode : r'.nodeId = r.nodeId
    · simp [MembershipRecord.raw, Value.eq, hnode]
    · simp [MembershipRecord.raw, Value.eq, hnode]
  · rename_i hthere
    rw [ofTable, ofTable, Table.rows_insert, if_neg (mt hany.mpr hthere), List.map_append]
    rfl

theorem mem_ofTable {p : Value × RawRecord} : p ∈ ofTable roster ↔ ∃ node r, roster.get? node = some r ∧ p = (.str node, r.raw) := by
  constructor
  · intro h
    obtain ⟨r, hr, rfl⟩ := List.mem_map.mp h
    exact ⟨r.nodeId, r, Table.mem_iff_get?.mp hr, rfl⟩
  · rintro ⟨node, r, hr, rfl⟩
    obtain ⟨hmem, rfl⟩ := Table.get?_eq_some.mp hr
    exact List.mem_map.mpr ⟨r, hmem, rfl⟩

/-! ## Malformed records that do no harm -/

/-- The roster has no use for the record, and comparing says so. -/
def ignores (own : String) (roster : Table MembershipRecord.nodeId) (rec : RawRecord) : Bool :=
  match rec.nodeId with
  | .str node =>
    match roster.get? node with
    | none => node = own && !rec.removed
    | some cur =>
      match Value.tupleGt rec.version cur.version.tuple with
      | .ok newer => !newer || (node = own && !rec.removed)
      | .error _ => false
  | _ => false

/-- The record is well-formed, or `from_dict` fails on it, or the roster ignores it. -/
def harmless (own : String) (roster : Table MembershipRecord.nodeId) (d : Value) : Bool :=
  match RawRecord.fromDict d with
  | .error _ => true
  | .ok rec => rec.typed.isSome || ignores own roster rec

variable {r : MembershipRecord} {own : String} {rec : RawRecord}

theorem ignores_insert (h : ignores own roster rec = true)
    (hnode : r.nodeId ≠ own) (hnewer : MembershipStore.newer roster r = true) : ignores own (roster.insert r) rec = true := by
  unfold ignores at h ⊢
  split at h
  · rename_i node _
    rw [Table.get?_insert]
    split
    · rename_i r' hr'
      split at hr'
      · rename_i hsame
        cases hr'
      · rw [hr'] at h
        exact h
    · rename_i r' hr'
      split at hr'
      · rename_i hsame
        obtain rfl := Option.some.inj hr'
        obtain rfl := hsame
        split at h
        · rename_i hnone
          obtain ⟨hown, -⟩ : r.nodeId = own ∧ rec.removed = false := by simpa using h
          exact absurd hown hnode
        · rename_i cur hcur
          have hlt : cur.version < r.version := by
            rw [MembershipStore.newer, hcur] at hnewer
            exact Lww.newer_some.mp hnewer
          split at h
          · rename_i newer hgt
            have hfalse : newer = false := by simpa [hnode] using h
            rw [hfalse] at hgt
            have hstill : Value.tupleGt rec.version r.version.tuple = .ok false :=
              Value.tupleGt_mono hgt (Version.lt_iff.mp hlt)
            rw [hstill]
            rfl
          · cases h
      · rw [hr'] at h
        exact h
  · cases h

variable {d : Value}

theorem harmless_insert (h : harmless own roster d = true)
    (hnode : r.nodeId ≠ own) (hnewer : MembershipStore.newer roster r = true) : harmless own (roster.insert r) d = true := by
  unfold harmless at h ⊢
  split
  · rfl
  · rename_i rec hrec
    rw [hrec] at h
    rcases (Bool.or_eq_true _ _).mp h with htyped | hignored
    · rw [htyped]
      rfl
    · rw [ignores_insert hignored hnode hnewer, Bool.or_true]

theorem mergeLoop_ignored {records : List Value} {changed evicted : Bool}
    (hrec : RawRecord.fromDict d = .ok rec) (h : ignores own roster rec = true) :
    mergeLoop own (d :: records) (ofTable roster) changed evicted = mergeLoop own records (ofTable roster) changed evicted := by
  rw [mergeLoop, hrec]
  dsimp only
  unfold ignores at h
  split at h
  · rename_i node hnode
    unfold wins
    rw [hnode, get_ofTable]
    split at h
    · rename_i hnone
      rw [hnone]
      obtain ⟨hown, hremoved⟩ : node = own ∧ rec.removed = false := by simpa using h
      subst hown
      simp [bind, Except.bind, pure, Except.pure, Value.eq, hremoved]
    · rename_i cur hcur
      rw [hcur]
      split at h
      · rename_i newer hgt
        simp only [bind, Except.bind, Option.map_some, MembershipRecord.raw, hgt]
        cases newer with
        | false => rfl
        | true =>
          obtain ⟨hown, hremoved⟩ : node = own ∧ rec.removed = false := by simpa using h
          subst hown
          simp [Value.eq, hremoved]
      · cases h
  · cases h

theorem wins_ofTable (r : MembershipRecord) : (ofTable roster).wins r.raw = .ok (MembershipStore.newer roster r) := by
  unfold wins
  have hget : (ofTable roster).get r.raw.nodeId = .ok ((roster.get? r.nodeId).map MembershipRecord.raw) := get_ofTable r.nodeId
  rw [hget, MembershipStore.newer]
  cases roster.get? r.nodeId with
  | none => rfl
  | some cur => exact tupleGt_version r.version cur.version

theorem mergeLoop_ofTable (own : String) (records : List Value) : ∀ (roster : Table MembershipRecord.nodeId) (changed evicted : Bool),
    (∀ d ∈ records, harmless own roster d = true) → mergeLoop own records (ofTable roster) changed evicted =
        (.ok (MembershipStore.mergeLoop own (records.map WireRecord.ofJson) roster changed evicted).2,
          ofTable (MembershipStore.mergeLoop own (records.map WireRecord.ofJson) roster changed evicted).1) := by
  induction records with
  | nil => exact fun _ _ _ _ => rfl
  | cons d records ih =>
    intro roster changed evicted hharmless
    have hrest : ∀ d ∈ records, harmless own roster d = true := fun d' hd' => hharmless d' (List.mem_cons_of_mem _ hd')
    have hd := hharmless d List.mem_cons_self
    unfold harmless at hd
    rw [List.map_cons, MembershipStore.mergeLoop]
    cases hrec : RawRecord.fromDict d with
    | error e =>
      have hmalformed : WireRecord.ofJson d = .malformed := by simp [WireRecord.ofJson, RawRecord.wellFormed, hrec, Except.toOption]
      rw [mergeLoop, hrec, hmalformed]
      exact ih roster changed evicted hrest
    | ok rec =>
      rw [hrec] at hd
      cases htyped : rec.typed with
      | none =>
        have hmalformed : WireRecord.ofJson d = .malformed := by
          simp [WireRecord.ofJson, RawRecord.wellFormed, hrec, Except.toOption, htyped]
        have hignored : ignores own roster rec = true := by simpa [htyped] using hd
        rw [mergeLoop_ignored hrec hignored, hmalformed]
        exact ih roster changed evicted hrest
      | some r =>
        have hrecord : WireRecord.ofJson d = .record r := by
          simp [WireRecord.ofJson, RawRecord.wellFormed, hrec, Except.toOption, htyped]
        obtain rfl := raw_of_typed htyped
        rw [mergeLoop, hrec, hrecord]
        dsimp only [WireRecord.fromDict]
        rw [wins_ofTable]
        cases hnewer : MembershipStore.newer roster r with
        | false => exact ih roster changed evicted hrest
        | true =>
          dsimp only
          by_cases hown : r.nodeId = own
          · have heq : r.raw.nodeId.eq (.str own) = true := Value.eq_str_iff.mpr (congrArg Value.str hown)
            rw [if_pos heq]
            simp only [Bool.not_true, Bool.false_eq_true, if_false, hown, if_true]
            exact ih roster changed (evicted || r.removed) hrest
          · have hne : ¬ r.raw.nodeId.eq (.str own) = true := fun heq => hown (Value.str.inj (Value.eq_str_iff.mp heq))
            rw [if_neg hne, set_ofTable]
            simp only [Bool.not_true, Bool.false_eq_true, if_false, hown]
            exact ih (roster.insert r) true evicted fun d' hd' => harmless_insert (hrest d' hd') hown hnewer

/-! ## What a batch does -/

/-- The records of a batch that win in their turn, up to the first comparison that raises, and whether none does. -/
def winners (own : String) : List Value → RawRoster → List RawRecord × Bool
  | [], _ => ([], true)
  | d :: records, roster =>
    match RawRecord.fromDict d with
    | .error _ => winners own records roster
    | .ok rec =>
      match roster.wins rec with
      | .error _ => ([], false)
      | .ok false => winners own records roster
      | .ok true =>
        let rest := winners own records (if rec.nodeId.eq (.str own) then roster else roster.set rec)
        (rec :: rest.1, rest.2)

/-- The roster as one of checked records, if that is what it is. -/
def toTable? (roster : RawRoster) : Option (Table MembershipRecord.nodeId) :=
  if h : ((roster.filterMap (·.2.typed)).map (·.nodeId)).Nodup then
    if ofTable ⟨_, h⟩ = roster then some ⟨_, h⟩ else none
  else none

/-- There are more records than in `t`, or one that wins over its record there. -/
def Moved (t : Table MembershipRecord.nodeId) (roster : RawRoster) : Prop :=
  t.rows.length < roster.length ∨ ∃ node cur rec, t.get? node = some cur ∧ roster.get (.str node) = .ok (some rec) ∧
    Value.tupleGt rec.version cur.version.tuple = .ok true

variable {roster : RawRoster} {t : Table MembershipRecord.nodeId} {rec : RawRecord}

theorem toTable?_ofTable : (ofTable t).toTable? = some t := by
  have hrows : (ofTable t).filterMap (·.2.typed) = t.rows := by simp [ofTable, List.filterMap_map]
  obtain ⟨rows, hnodup⟩ := t
  unfold toTable?
  simp only [hrows]
  rw [dif_pos hnodup]
  simp

theorem ofTable_of_toTable? (h : roster.toTable? = some t) : roster = ofTable t := by
  unfold toTable? at h
  split at h
  · split at h
    · rename_i heq
      rw [← Option.some.inj h, heq]
    · cases h
  · cases h

theorem get_set_str (rec : RawRecord) (node : String) :
    (roster.set rec).get (.str node) = if rec.nodeId = .str node then .ok (some rec) else roster.get (.str node) := by
  have hhash : (Value.str node).hashable = true := rfl
  unfold get set
  rw [if_pos hhash, if_pos hhash]
  split
  · rename_i hany
    rw [List.find?_map]
    have hkeys : ((fun p : Value × RawRecord => p.1.eq (.str node)) ∘ fun p : Value × RawRecord => if p.1.eq rec.nodeId then (p.1, rec) else p) =
        fun p : Value × RawRecord => p.1.eq (.str node) := by
      funext p
      simp only [Function.comp_apply]
      split <;> rfl
    rw [hkeys]
    split
    · rename_i hnode
      obtain ⟨p, hp, heq⟩ := List.any_eq_true.mp hany
      rw [hnode] at heq ⊢
      have hsome : (roster.find? fun p => p.1.eq (.str node)).isSome := List.find?_isSome.mpr ⟨p, hp, heq⟩
      obtain ⟨q, hq⟩ := Option.isSome_iff_exists.mp hsome
      have hkey : q.1.eq (.str node) = true := List.find?_some (p := fun p : Value × RawRecord => p.1.eq (.str node)) hq
      rw [hq, Option.map_some, if_pos hkey]
      rfl
    · rename_i hnode
      cases hq : roster.find? fun p => p.1.eq (.str node) with
      | none => rfl
      | some q =>
        have hkey : q.1 = .str node :=
          Value.eq_str_iff.mp (List.find?_some (p := fun p : Value × RawRecord => p.1.eq (.str node)) hq)
        have hne : q.1.eq rec.nodeId = false := Bool.eq_false_iff.mpr fun heq => hnode (Value.str_eq.mp (hkey ▸ heq))
        simp [hne]
  · rename_i hany
    rw [List.find?_append]
    split
    · rename_i hnode
      have hnone : roster.find? (fun p => p.1.eq (.str node)) = none := by
        rw [hnode] at hany
        simpa using hany
      rw [hnone]
      simp [hnode, Value.eq]
    · rename_i hnode
      have hne : rec.nodeId.eq (.str node) = false := Bool.eq_false_iff.mpr fun heq => hnode (Value.eq_str_iff.mp heq)
      simp [hne]

theorem length_le_set (rec : RawRecord) : roster.length ≤ (roster.set rec).length := by
  unfold set
  split <;> simp

theorem plain_tuple (v : Version) : ∀ z ∈ v.tuple, z.Plain := by
  simp only [Version.tuple, List.mem_cons, List.not_mem_nil, or_false]
  rintro z (rfl | rfl)
  · exact .inr ⟨_, rfl⟩
  · exact .inl ⟨_, rfl⟩

theorem Moved.ne (h : Moved t roster) : roster ≠ ofTable t := by
  rintro rfl
  rcases h with hlength | ⟨node, cur, rec, hcur, hget, hnewer⟩
  · simp [ofTable] at hlength
  · rw [get_ofTable, hcur] at hget
    obtain rfl : cur.raw = rec := Option.some.inj (Except.ok.inj hget)
    have hlt := hnewer.symm.trans (tupleGt_version cur.version cur.version)
    simp at hlt

theorem Moved.set (h : Moved t roster) (hwins : roster.wins rec = .ok true) : Moved t (roster.set rec) := by
  rcases h with hlength | ⟨node, cur, old, hcur, hget, hnewer⟩
  · exact .inl (hlength.trans_le (length_le_set rec))
  · refine .inr ⟨node, cur, if rec.nodeId = .str node then rec else old, hcur, ?_, ?_⟩
    · rw [get_set_str, hget]
      split <;> rfl
    · split
      · rename_i hnode
        have hmore : Value.tupleGt rec.version old.version = .ok true := by
          unfold wins at hwins
          rw [hnode, hget] at hwins
          exact hwins
        exact Value.tupleGt_trans (plain_tuple _) hmore hnewer
      · exact hnewer

theorem moved_of_wins (hwins : (ofTable t).wins rec = .ok true) : Moved t ((ofTable t).set rec) := by
  by_cases hany : ((ofTable t).any fun p => p.1.eq rec.nodeId) = true
  · obtain ⟨p, hp, heq⟩ := List.any_eq_true.mp hany
    obtain ⟨node, cur, hcur, rfl⟩ := mem_ofTable.mp hp
    have hnode : rec.nodeId = .str node := Value.str_eq.mp heq
    refine .inr ⟨node, cur, rec, hcur, by rw [get_set_str, if_pos hnode], ?_⟩
    unfold wins at hwins
    rw [hnode, get_ofTable, hcur] at hwins
    exact hwins
  · refine .inl ?_
    rw [RawRoster.set, if_neg hany]
    simp [ofTable]

variable {own : String}

theorem Moved.mergeLoop (records : List Value) : ∀ {roster : RawRoster} {changed evicted : Bool}, Moved t roster →
    Moved t (mergeLoop own records roster changed evicted).2 := by
  induction records with
  | nil => exact fun h => h
  | cons d records ih =>
    intro roster changed evicted h
    unfold RawRoster.mergeLoop
    split
    · exact ih h
    · split
      · exact h
      · exact ih h
      · rename_i hwins
        split
        · exact ih h
        · exact ih (h.set hwins)

/-- A batch leaves a roster of checked records as it is exactly if no record of another node wins. -/
theorem mergeLoop_roster (own : String) (t : Table MembershipRecord.nodeId) (records : List Value) (changed evicted : Bool) :
    (((winners own records (ofTable t)).1.any fun rec => !rec.nodeId.eq (.str own)) = true →
      Moved t (mergeLoop own records (ofTable t) changed evicted).2) ∧
    (((winners own records (ofTable t)).1.any fun rec => !rec.nodeId.eq (.str own)) = false →
      (mergeLoop own records (ofTable t) changed evicted).2 = ofTable t) := by
  induction records generalizing changed evicted with
  | nil => exact ⟨fun h => absurd h Bool.false_ne_true, fun _ => rfl⟩
  | cons d records ih =>
    unfold winners mergeLoop
    cases hrec : RawRecord.fromDict d with
    | error e => exact ih changed evicted
    | ok rec =>
      dsimp only
      cases hwins : (ofTable t).wins rec with
      | error e => exact ⟨fun h => absurd h Bool.false_ne_true, fun _ => rfl⟩
      | ok newer =>
        cases newer with
        | false => exact ih changed evicted
        | true =>
          cases hown : rec.nodeId.eq (.str own) with
          | true => simpa [hown] using ih changed (evicted || rec.removed)
          | false => simpa [hown] using (moved_of_wins hwins).mergeLoop records

theorem mergeLoop_evicted (own : String) (records : List Value) : ∀ (roster : RawRoster) (changed evicted : Bool),
    (mergeLoop own records roster changed evicted).1.toOption.any Prod.snd = ((winners own records roster).2 &&
        (evicted || (winners own records roster).1.any fun rec => rec.nodeId.eq (.str own) && rec.removed)) := by
  induction records with
  | nil => simp [mergeLoop, winners, Except.toOption]
  | cons d records ih =>
    intro roster changed evicted
    unfold winners mergeLoop
    cases hrec : RawRecord.fromDict d with
    | error e => exact ih roster changed evicted
    | ok rec =>
      dsimp only
      cases hwins : roster.wins rec with
      | error e => rfl
      | ok newer =>
        cases newer with
        | false => exact ih roster changed evicted
        | true => cases hown : rec.nodeId.eq (.str own) <;> simp [ih, hown, Bool.or_assoc]

end RawRoster

end AgentProtocol
