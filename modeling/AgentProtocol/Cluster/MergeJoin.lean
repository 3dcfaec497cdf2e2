-- SUMMARY: Merging membership records is a join of well-formed records, exactly where malformed ones do no harm.
import AgentProtocol.Cluster.Control
import AgentProtocol.Cluster.RawRoster

/-!
# Merging as a join

Whatever the batches and their order, the roster after merging depends on the well-formed records
alone, provided that no malformed record gets into it. `from_dict` lets records of the wrong types
through: such a record is harmless only if the roster has a record of its node that compares with
it and is not older, and then it stays harmless.
-/

namespace AgentProtocol

open Lib

namespace RawRoster

/-! ## Batches -/

/-- Batches merged one after the other; an error ends this. -/
def mergeAll (own : String) : RawRoster → List (List Value) → Except PyError RawRoster
  | roster, [] => .ok roster
  | roster, records :: batches =>
    match merge own roster records with
    | (.error e, _) => .error e
    | (.ok _, roster) => mergeAll own roster batches

def Drawn (given : Set Value) (batches : List (List Value)) : Prop := ∀ records ∈ batches, ∀ d ∈ records, d ∈ given

def wellFormedOf (batches : List (List Value)) : List MembershipRecord := batches.flatten.filterMap RawRecord.wellFormed

/-- The rosters have the same records under the same keys. -/
def Same (a b : RawRoster) : Prop := ∀ p, p ∈ a ↔ p ∈ b

structure MergeJoins (own : String) (roster : RawRoster) (given : Set Value) : Prop where
  /-- It never raises. -/
  total : ∀ batches, Drawn given batches → ∃ after, mergeAll own roster batches = .ok after
  /-- The order, the number and the division into batches do not matter, nor do malformed records. -/
  agrees : ∀ batches batches' after after', Drawn given batches → Drawn given batches' →
    (∀ r, r ∈ wellFormedOf batches ↔ r ∈ wellFormedOf batches') →
    mergeAll own roster batches = .ok after → mergeAll own roster batches' = .ok after' → Same after after'
  /-- The record of the node itself does not change. -/
  ownRecord : ∀ batches after rec, Drawn given batches → mergeAll own roster batches = .ok after →
    ((.str own, rec) ∈ after ↔ (.str own, rec) ∈ roster)
  /-- A merge returns whether it changed the roster. -/
  unchanged : ∀ batches records before after changed, Drawn given batches → (∀ d ∈ records, d ∈ given) →
    mergeAll own roster batches = .ok before → merge own before records = (.ok changed, after) →
    (changed = false ↔ Same after before)

/-- No record removes the node itself, and a version of a node has one well-formed record. -/
structure Proper (own : String) (given : Set Value) : Prop where
  noSelf : ∀ d ∈ given, ∀ rec, RawRecord.fromDict d = .ok rec → rec.nodeId = .str own → rec.removed = false
  determined : ∀ d ∈ given, ∀ d' ∈ given, ∀ r r', RawRecord.wellFormed d = some r → RawRecord.wellFormed d' = some r' →
    r.nodeId = r'.nodeId → r.version = r'.version → r = r'

/-! ## Merging checked records -/

section Checked

variable {own : String}

theorem validRecords_ofJson (records : List Value) :
    MembershipStore.validRecords (records.map WireRecord.ofJson) = records.filterMap RawRecord.wellFormed := by
  rw [MembershipStore.validRecords, List.filterMap_map]
  refine List.filterMap_congr fun d _ => ?_
  simp only [Function.comp_apply, WireRecord.ofJson]
  cases RawRecord.wellFormed d <;> rfl

theorem get?_mergeLoop {node : String} (hnode : node ≠ own) (records : List WireRecord) :
    ∀ (roster : Table MembershipRecord.nodeId) (changed evicted : Bool),
      (MembershipStore.mergeLoop own records roster changed evicted).1.get? node =
        Lww.offerAll MembershipRecord.version (roster.get? node)
          ((MembershipStore.validRecords records).filter fun r => r.nodeId = node) := by
  induction records with
  | nil => exact fun _ _ _ => rfl
  | cons raw rest ih =>
    intro roster changed evicted
    unfold MembershipStore.mergeLoop
    cases hraw : raw.fromDict with
    | none =>
      have hvalid : MembershipStore.validRecords (raw :: rest) = MembershipStore.validRecords rest := by
        simp [MembershipStore.validRecords, hraw]
      rw [hvalid]
      exact ih roster changed evicted
    | some r =>
      rw [MembershipStore.validRecords_cons hraw]
      dsimp only
      by_cases hr : r.nodeId = node
      · subst hr
        rw [List.filter_cons_of_pos (by simp), Lww.offerAll, List.foldl_cons, ← Lww.offerAll]
        cases hnewer : MembershipStore.newer roster r with
        | false =>
          have hoffer : Lww.offer MembershipRecord.version (roster.get? r.nodeId) r = roster.get? r.nodeId := if_neg (by
            rw [show Lww.newer r.version ((roster.get? r.nodeId).map (·.version)) = false from hnewer]
            exact Bool.false_ne_true)
          rw [hoffer]
          exact ih roster changed evicted
        | true =>
          have hoffer : Lww.offer MembershipRecord.version (roster.get? r.nodeId) r = some r := if_pos hnewer
          simp only [Bool.not_true, Bool.false_eq_true, if_false, hnode]
          rw [ih, hoffer, Table.get?_insert_self]
      · rw [List.filter_cons_of_neg (by simpa using hr)]
        split
        · exact ih roster changed evicted
        · split
          · exact ih roster changed _
          · rw [ih, Table.get?_insert_of_ne hr]

theorem mergeLoop_changed (records : List WireRecord) : ∀ (roster : Table MembershipRecord.nodeId) (changed evicted : Bool),
      (MembershipStore.mergeLoop own records roster changed evicted).2.1 = true ↔
        changed = true ∨ ∃ r ∈ MembershipStore.validRecords records, r.nodeId ≠ own ∧ MembershipStore.newer roster r = true := by
  induction records with
  | nil => simp [MembershipStore.mergeLoop, MembershipStore.validRecords]
  | cons raw rest ih =>
    intro roster changed evicted
    unfold MembershipStore.mergeLoop
    split
    · rename_i hraw
      rw [ih]
      simp [MembershipStore.validRecords, hraw]
    · rename_i r hraw
      rw [MembershipStore.validRecords_cons hraw]
      simp only [List.mem_cons, exists_eq_or_imp]
      split
      · rename_i hloses
        have hloses : MembershipStore.newer roster r = false := by simpa using hloses
        rw [ih, hloses]
        simp
      · rename_i hwins
        have hwins : MembershipStore.newer roster r = true := by simpa using hwins
        split
        · rename_i hown
          rw [ih]
          simp [hown]
        · rename_i hother
          rw [ih]
          simp [hother, hwins]

theorem harmless_mergeLoop {d : Value} (records : List WireRecord) :
    ∀ (roster : Table MembershipRecord.nodeId) (changed evicted : Bool), harmless own roster d = true →
      harmless own (MembershipStore.mergeLoop own records roster changed evicted).1 d = true := by
  induction records with
  | nil => exact fun _ _ _ h => h
  | cons raw rest ih =>
    intro roster changed evicted h
    unfold MembershipStore.mergeLoop
    split
    · exact ih _ _ _ h
    · split
      · exact ih _ _ _ h
      · rename_i hwins
        split
        · exact ih _ _ _ h
        · rename_i hother
          exact ih _ _ _ (harmless_insert h hother (by simpa using hwins))

end Checked

/-! ## Without harm -/

section Harmless

variable {own : String} {given : Set Value} {roster : Table MembershipRecord.nodeId}

theorem merge_ofTable (hproper : Proper own given) (hharmless : ∀ d ∈ given, harmless own roster d = true)
    {records : List Value} (hrecords : ∀ d ∈ records, d ∈ given) : merge own (ofTable roster) records =
      (.ok (MembershipStore.mergeLoop own (records.map WireRecord.ofJson) roster false false).2.1,
        ofTable (MembershipStore.mergeLoop own (records.map WireRecord.ofJson) roster false false).1) := by
  have hevicted : (MembershipStore.mergeLoop own (records.map WireRecord.ofJson) roster false false).2.2 = false := by
    rw [MembershipStore.mergeLoop_evicted, validRecords_ofJson, Bool.false_or, List.any_eq_false]
    intro r hr
    obtain ⟨d, hd, hwell⟩ := List.mem_filterMap.mp hr
    cases hrec : RawRecord.fromDict d with
    | error e =>
      rw [RawRecord.wellFormed, hrec] at hwell
      cases hwell
    | ok rec =>
      rw [RawRecord.wellFormed, hrec] at hwell
      obtain rfl := raw_of_typed hwell
      by_cases hown : r.nodeId = own
      · have hremoved : r.removed = false := hproper.noSelf d (hrecords d hd) r.raw hrec (congrArg Value.str hown)
        simp [hremoved]
      · simp [hown]
  unfold merge
  rw [mergeLoop_ofTable own records roster false false fun d hd => hharmless d (hrecords d hd)]
  dsimp only
  rw [hevicted]
  rfl

theorem mergeAll_ofTable (hproper : Proper own given) {batches : List (List Value)} :
    ∀ {roster : Table MembershipRecord.nodeId}, (∀ d ∈ given, harmless own roster d = true) → Drawn given batches →
      ∃ after : Table MembershipRecord.nodeId, mergeAll own (ofTable roster) batches = .ok (ofTable after) ∧
        (∀ d ∈ given, harmless own after d = true) ∧ after.get? own = roster.get? own ∧ ∀ node, node ≠ own → after.get? node =
          Lww.offerAll MembershipRecord.version (roster.get? node) ((wellFormedOf batches).filter fun r => r.nodeId = node) := by
  induction batches with
  | nil => exact fun {roster} hharmless _ => ⟨roster, rfl, hharmless, rfl, fun _ _ => rfl⟩
  | cons records batches ih =>
    intro roster hharmless hdrawn
    have hrecords : ∀ d ∈ records, d ∈ given := hdrawn records List.mem_cons_self
    obtain ⟨after, hafter, hstill, hown, hothers⟩ :=
      ih (fun d hd => harmless_mergeLoop (records.map WireRecord.ofJson) roster false false (hharmless d hd))
        fun batch hbatch => hdrawn batch (List.mem_cons_of_mem _ hbatch)
    refine ⟨after, ?_, hstill, hown.trans (MembershipStore.mergeLoop_own own _ roster false false), fun node hnode => ?_⟩
    · rw [mergeAll, merge_ofTable hproper hharmless hrecords]
      exact hafter
    · rw [hothers node hnode, get?_mergeLoop hnode, validRecords_ofJson, wellFormedOf, wellFormedOf, List.flatten_cons,
        List.filterMap_append, List.filter_append, Lww.offerAll, Lww.offerAll, Lww.offerAll, List.foldl_append]

theorem same_ofTable {a b : Table MembershipRecord.nodeId} : Same (ofTable a) (ofTable b) ↔ ∀ node, a.get? node = b.get? node := by
  constructor
  · intro h node
    apply Option.ext
    intro r
    have hmem : ∀ {t : Table MembershipRecord.nodeId}, (Value.str node, r.raw) ∈ ofTable t ↔ t.get? node = some r := by
      intro t
      refine mem_ofTable.trans ⟨?_, fun hr => ⟨node, r, hr, rfl⟩⟩
      rintro ⟨node', r', hr', heq⟩
      obtain ⟨hnode, hraw⟩ := Prod.mk.inj heq
      obtain rfl := Value.str.inj hnode
      have hsame : some r = some r' := by rw [← typed_raw r, ← typed_raw r', hraw]
      rw [hsame]
      exact hr'
    rw [← hmem, ← hmem]
    exact h _
  · intro h p
    rw [mem_ofTable, mem_ofTable]
    simp only [h]

theorem mergeJoins_of_harmless (hproper : Proper own given) (hharmless : ∀ d ∈ given, harmless own roster d = true) :
    MergeJoins own (ofTable roster) given where
  total batches hdrawn := by
    obtain ⟨after, hafter, -⟩ := mergeAll_ofTable hproper hharmless hdrawn
    exact ⟨_, hafter⟩
  agrees batches batches' after after' hdrawn hdrawn' hsame hafter hafter' := by
    obtain ⟨t, ht, -, hown, hothers⟩ := mergeAll_ofTable hproper hharmless hdrawn
    obtain ⟨t', ht', -, hown', hothers'⟩ := mergeAll_ofTable hproper hharmless hdrawn'
    obtain rfl := Except.ok.inj (ht.symm.trans hafter)
    obtain rfl := Except.ok.inj (ht'.symm.trans hafter')
    refine same_ofTable.mpr fun node => ?_
    by_cases hnode : node = own
    · rw [hnode, hown, hown']
    · rw [hothers node hnode, hothers' node hnode]
      refine Lww.offerAll_congr _ (fun r => by simp [hsame r]) ?_
      intro r hr r' hr' hversion
      obtain ⟨hmem, hr⟩ := List.mem_filter.mp hr
      obtain ⟨hmem', hr'⟩ := List.mem_filter.mp hr'
      obtain ⟨d, hd, hwell⟩ := List.mem_filterMap.mp hmem
      obtain ⟨d', hd', hwell'⟩ := List.mem_filterMap.mp hmem'
      obtain ⟨records, hrecords, hd⟩ := List.mem_flatten.mp hd
      obtain ⟨records', hrecords', hd'⟩ := List.mem_flatten.mp hd'
      have hnodes : r.nodeId = r'.nodeId := (of_decide_eq_true hr).trans (of_decide_eq_true hr').symm
      exact hproper.determined d (hdrawn _ hrecords _ hd) d' (hdrawn _ hrecords' _ hd') r r' hwell hwell' hnodes hversion
  ownRecord batches after rec hdrawn hafter := by
    obtain ⟨t, ht, -, hown, -⟩ := mergeAll_ofTable hproper hharmless hdrawn
    obtain rfl := Except.ok.inj (ht.symm.trans hafter)
    have hmem : ∀ {t : Table MembershipRecord.nodeId},
        (Value.str own, rec) ∈ ofTable t ↔ ∃ r, t.get? own = some r ∧ rec = r.raw := by
      intro t
      refine mem_ofTable.trans ⟨?_, ?_⟩
      · rintro ⟨node, r, hr, heq⟩
        obtain ⟨hnode, hrec⟩ := Prod.mk.inj heq
        exact ⟨r, Value.str.inj hnode ▸ hr, hrec⟩
      · rintro ⟨r, hr, rfl⟩
        exact ⟨own, r, hr, rfl⟩
    rw [hmem, hmem, hown]
  unchanged batches records before after changed hdrawn hrecords hbefore hmerge := by
    obtain ⟨t, ht, hstill, -, -⟩ := mergeAll_ofTable hproper hharmless hdrawn
    obtain rfl := Except.ok.inj (ht.symm.trans hbefore)
    rw [merge_ofTable hproper hstill hrecords] at hmerge
    obtain ⟨hchanged, rfl⟩ := Prod.mk.inj hmerge
    obtain rfl := Except.ok.inj hchanged
    rw [same_ofTable, Bool.eq_false_iff, Ne, mergeLoop_changed]
    constructor
    · intro hnot node
      have hloses : ∀ r ∈ MembershipStore.validRecords (records.map WireRecord.ofJson), r.nodeId ≠ own →
          MembershipStore.newer t r = false := fun r hr hother =>
        Bool.eq_false_iff.mpr fun hnewer => hnot (.inr ⟨r, hr, hother, hnewer⟩)
      rw [(MembershipStore.mergeLoop_roster_iff own _ t false false).mpr hloses]
    · rintro hsame (hfalse | ⟨r, hr, hother, hnewer⟩)
      · cases hfalse
      · -- what was merged does not win against the roster after the merge, but that is the roster before it
        have hloses := MembershipStore.mergeLoop_loses_of_mem own hother (records.map WireRecord.ofJson) t false false hr
        rw [MembershipStore.newer, hsame r.nodeId] at hloses
        cases hnewer.symm.trans hloses

end Harmless

/-! ## Harm -/

section Harm

variable {own : String} {roster : Table MembershipRecord.nodeId} {rec : RawRecord}

theorem ignores_of_wins {newer : Bool} (h : (ofTable roster).wins rec = .ok newer)
    (hskip : newer = false ∨ (rec.nodeId = .str own ∧ rec.removed = false)) : ignores own roster rec = true := by
  unfold wins at h
  unfold ignores
  split
  · rename_i node hnode
    rw [hnode, get_ofTable] at h
    cases hcur : roster.get? node with
    | none =>
      rw [hcur] at h
      obtain rfl : true = newer := Except.ok.inj h
      obtain ⟨hown, hremoved⟩ := hskip.resolve_left (fun hfalse => nomatch hfalse)
      obtain rfl := Value.str.inj (hnode.symm.trans hown)
      simp [hremoved]
    | some cur =>
      rw [hcur] at h
      have hgt : Value.tupleGt rec.version cur.version.tuple = .ok newer := h
      dsimp only
      rw [hgt]
      rcases hskip with rfl | ⟨hown, hremoved⟩
      · rfl
      · obtain rfl := Value.str.inj (hnode.symm.trans hown)
        simp [hremoved]
  · rename_i hnode
    exfalso
    unfold get at h
    split at h
    · rw [find?_ofTable_other hnode] at h
      obtain rfl : true = newer := Except.ok.inj h
      rcases hskip with hfalse | ⟨hown, -⟩
      · cases hfalse
      exact hnode own hown
    · cases h

theorem mem_set (roster : RawRoster) (rec : RawRecord) : ∃ k, (k, rec) ∈ roster.set rec := by
  unfold set
  split
  · rename_i hany
    obtain ⟨p, hp, heq⟩ := List.any_eq_true.mp hany
    exact ⟨p.1, List.mem_map.mpr ⟨p, hp, if_pos heq⟩⟩
  · exact ⟨rec.nodeId, List.mem_append_right _ (List.mem_singleton.mpr rfl)⟩

theorem harmless_of_mergeJoins {given : Set Value} (hproper : Proper own given) (h : MergeJoins own (ofTable roster) given)
    {d : Value} (hd : d ∈ given) : harmless own roster d = true := by
  have hdrawn : Drawn given [[d]] := by
    intro records hrecords d' hd'
    rw [List.mem_singleton.mp hrecords] at hd'
    rwa [List.mem_singleton.mp hd']
  unfold harmless
  cases hrec : RawRecord.fromDict d with
  | error e => rfl
  | ok rec =>
    change (rec.typed.isSome || ignores own roster rec) = true
    cases htyped : rec.typed with
    | some r => rfl
    | none =>
      change ignores own roster rec = true
      obtain ⟨after, hafter⟩ := h.total [[d]] hdrawn
      rw [mergeAll, merge, mergeLoop, hrec] at hafter
      dsimp only at hafter
      cases hwins : (ofTable roster).wins rec with
      | error e =>
        rw [hwins] at hafter
        cases hafter
      | ok newer =>
        cases newer with
        | false => exact ignores_of_wins hwins (.inl rfl)
        | true =>
          rw [hwins] at hafter
          dsimp only at hafter
          by_cases hown : rec.nodeId.eq (.str own) = true
          · have hnode := Value.eq_str_iff.mp hown
            exact ignores_of_wins hwins (.inr ⟨hnode, hproper.noSelf d hd rec hrec hnode⟩)
          · -- the malformed record is stored, although no well-formed record was merged
            exfalso
            rw [if_neg hown] at hafter
            obtain rfl : (ofTable roster).set rec = after := Except.ok.inj hafter
            have hnone : wellFormedOf [[d]] = wellFormedOf [] := by
              simp [wellFormedOf, RawRecord.wellFormed, hrec, Except.toOption, htyped]
            have hdrawn' : Drawn given [] := fun records hrecords => by cases hrecords
            have hstored : mergeAll own (ofTable roster) [[d]] = .ok ((ofTable roster).set rec) := by
              rw [mergeAll, merge, mergeLoop, hrec]
              dsimp only
              rw [hwins]
              dsimp only
              rw [if_neg hown]
              rfl
            obtain ⟨k, hk⟩ := mem_set (ofTable roster) rec
            have hsame := h.agrees [[d]] [] _ _ hdrawn hdrawn' (fun r => by rw [hnone]) hstored rfl
            obtain ⟨node, r, -, heq⟩ := mem_ofTable.mp ((hsame (k, rec)).mp hk)
            obtain ⟨-, rfl⟩ := Prod.mk.inj heq
            cases (typed_raw r).symm.trans htyped

end Harm

/-- Merging the given records is a join if and only if the malformed ones among them do no harm. -/
theorem mergeJoins_iff (own : String) (roster : Table MembershipRecord.nodeId) (given : Set Value) (hproper : Proper own given) :
    MergeJoins own (ofTable roster) given ↔ ∀ d ∈ given, harmless own roster d = true :=
  ⟨fun h _ hd => harmless_of_mergeJoins hproper h hd, mergeJoins_of_harmless hproper⟩

/-! ## A malformed version -/

/-- `{"node_id": node, "version": version}` -/
def recordOf (node : String) (version : List Value) : Value :=
  .obj (.ofList [("node_id", .str node), ("version", .arr (version.foldr .cons .nil))])

/-- A record with a proper version, and one whose stamp is a string. -/
def stampedOdd : Set Value := { recordOf "b" [.int 1, .str "b"], recordOf "b" [.str "x", .str "b"] }

theorem proper_stampedOdd : Proper "a" stampedOdd := by
  have hfirst : RawRecord.wellFormed (recordOf "b" [.int 1, .str "b"]) =
      some { nodeId := "b", clusterId := none, address := "", version := ⟨1, "b"⟩ } := by decide +kernel
  have hsecond : RawRecord.wellFormed (recordOf "b" [.str "x", .str "b"]) = none := by decide +kernel
  refine ⟨?_, ?_⟩
  · rintro d (rfl | rfl) rec hrec hnode
    · obtain rfl := Except.ok.inj hrec
      simp at hnode
    · obtain rfl := Except.ok.inj hrec
      simp at hnode
  · rintro d (rfl | rfl) d' (rfl | rfl) r r' hr hr' - -
    · exact Option.some.inj (hr.symm.trans hr')
    · exact nomatch hsecond.symm.trans hr'
    · exact nomatch hsecond.symm.trans hr
    · exact nomatch hsecond.symm.trans hr

theorem mergeJoins_sample : Proper "a" stampedOdd ∧
      (MergeJoins "a" (ofTable ∅) stampedOdd ↔ ∀ d ∈ stampedOdd, harmless "a" ∅ d = true) :=
  ⟨proper_stampedOdd, mergeJoins_iff "a" ∅ stampedOdd proper_stampedOdd⟩

/-- The malformed record gets into an empty roster, and then the proper one cannot be compared with it. -/
theorem merge_raises : ¬ MergeJoins "a" (ofTable ∅) stampedOdd := by
  intro h
  have hdrawn : Drawn stampedOdd [[recordOf "b" [.str "x", .str "b"], recordOf "b" [.int 1, .str "b"]]] := by
    intro records hrecords d hd
    rw [List.mem_singleton.mp hrecords] at hd
    rcases List.mem_pair.mp hd with rfl | rfl
    · exact .inr rfl
    · exact .inl rfl
  obtain ⟨after, hafter⟩ := h.total _ hdrawn
  have hraises : mergeAll "a" (ofTable ∅) [[recordOf "b" [.str "x", .str "b"], recordOf "b" [.int 1, .str "b"]]] =
      .error .typeError := by decide +kernel
  exact nomatch hraises.symm.trans hafter

end RawRoster

end AgentProtocol
