-- SUMMARY: A split of a node parts its services by the thresholds: every service is unclassified or in few subcategories that are kept, and each of these is large enough.
import AgentProtocol.A2X.TaxonomyTree

/-!
# Splitting by thresholds

The answers to the last classification are rewritten twice: a service with too many categories loses all of them, and
a subcategory with too few services is deleted. A deletion takes a service out of no other subcategory, so the counts
that it is decided by are those of the result.
-/

namespace AgentProtocol.A2X

open Lib

def Config.withRatio (cfg : Config) (ratio : ℚ) : Config := { cfg with genericLimit := fun n => ⌊n * ratio⌋ }

/-- The subcategories of the last design or refinement, if the design does not fail. -/
def lastDesign (cfg : Config) (llm : Llm) (cached : Option Keywords) (node : NodeInfo) (isRoot : Bool) (services : List Service) :
    Option Subcategories :=
  (designCategories cfg llm cached node isRoot services).1.map fun cats =>
    (classifyRefineLoop cfg llm node services cfg.maxRefineIterations 1 cats ∅).1

/-- No answer of a classification names a category twice. -/
def Llm.NamesOnce (llm : Llm) : Prop :=
  ∀ iteration attempt node cats service ids, llm.classify iteration attempt node cats service = some ids → ids.Nodup

/-- The result parts the services: each has one entry, and is unclassified or in some subcategories that are kept, in
each of them once and in no more than `most`. A subcategory that is kept has more than `least` services. -/
structure NodeSplitResult.Partitions (result : NodeSplitResult) (sids : List String) (most least : ℤ) : Prop where
  listed : (result.assignments.rows.map Prod.fst).Perm sids
  unclassified : ∀ sid ids, result.assignments.lookup sid = some ids → (sid ∈ result.unclassifiedServiceIds ↔ ids = [])
  listedOnce : result.unclassifiedServiceIds.Nodup ∧ ∀ sid ∈ result.unclassifiedServiceIds, sid ∈ sids
  kept : ∀ sid ids, result.assignments.lookup sid = some ids → ids.Nodup ∧ ∀ id ∈ ids, result.subcategories.contains id = true
  few : ∀ sid ids, result.assignments.lookup sid = some ids → (ids.length : ℤ) ≤ most
  large : ∀ id, result.subcategories.contains id = true → least < result.assignments.rows.countP fun p => id ∈ p.2

variable {cfg : Config} {llm : Llm} {node : NodeInfo} {services : List Service}

theorem nodup_classifySingle (honce : llm.NamesOnce) {iteration : ℕ} {cats : Subcategories} {service : Service} :
    ∀ {left attempt : ℕ}, (classifySingle llm iteration node cats service left attempt).Nodup
  | 0, _ => List.nodup_nil
  | left + 1, attempt => by
    rw [classifySingle]
    split
    · exact nodup_classifySingle honce
    · rename_i ids hids
      exact (honce _ _ _ _ _ ids hids).filter _

/-- An assignment has every service once, and no category of a service twice. -/
structure Proper (services : List Service) (assignments : Assignments) : Prop where
  keys : (assignments.rows.map Prod.fst).Perm (services.map (·.id))
  once : ∀ p ∈ assignments.rows, p.2.Nodup

theorem proper_classifyAll (honce : llm.NamesOnce) (hids : (services.map (·.id)).Nodup) (iteration : ℕ) (cats : Subcategories) :
    Proper services (classifyAll cfg llm iteration node cats services) := by
  have hrows : (classifyAll cfg llm iteration node cats services).rows =
      services.map fun s => (s.id, classifySingle llm iteration node cats s (1 + cfg.classificationRetries) 0) := by
    rw [classifyAll, Dict.ofList, Table.rows_insertAll]
    · simp
    · simpa [Function.comp_def] using hids
  constructor
  · rw [hrows, List.map_map]
    exact List.Perm.refl _
  · intro p hp
    rw [hrows] at hp
    obtain ⟨s, -, rfl⟩ := List.mem_map.mp hp
    exact nodup_classifySingle honce

/-! ## The last steps -/

section Finalize

variable {cats : Subcategories} {assignments : Assignments}

theorem proper_clearGeneric (h : Proper services assignments) : Proper services (clearGeneric cfg cats assignments) := by
  constructor
  · simpa [clearGeneric, Dict.mapValues, Function.comp_def] using h.keys
  · intro p hp
    simp only [clearGeneric, Dict.mapValues, List.mem_map] at hp
    obtain ⟨q, hq, rfl⟩ := hp
    dsimp only
    split
    · exact List.nodup_nil
    · exact h.once q hq

theorem count_eq_countP (h : ∀ p ∈ assignments.rows, p.2.Nodup) (id : String) :
    (assignments.rows.map fun p => p.2.count id).sum = assignments.rows.countP fun p => id ∈ p.2 := by
  generalize assignments.rows = rows at h
  induction rows with
  | nil => rfl
  | cons p rows ih =>
    rw [List.map_cons, List.sum_cons, List.countP_cons, ih fun q hq => h q (List.mem_cons_of_mem _ hq), Nat.add_comm]
    by_cases hid : id ∈ p.2
    · rw [List.count_eq_one_of_mem (h p List.mem_cons_self) hid, if_pos (decide_eq_true hid)]
    · rw [List.count_eq_zero_of_not_mem hid, if_neg (by simpa using hid)]

theorem mem_tinyToDelete (h : ∀ p ∈ assignments.rows, p.2.Nodup) {id : String} : id ∈ tinyToDelete cfg cats assignments ↔
      cats.contains id = true ∧ ((assignments.rows.countP fun p => id ∈ p.2 : ℕ) : ℤ) ≤ cfg.deleteThreshold := by
  rw [tinyToDelete, Dict.mem_map_fst_filter, ← count_eq_countP h id]
  simp only [computeStats, Dict.lookup_mapKeyed, Dict.contains]
  cases cats.lookup id <;> simp

theorem partitions_finalizeAssignments (hclassified : Classified services cats assignments) (hproper : Proper services assignments) :
    (finalizeAssignments cfg cats assignments).Partitions (services.map (·.id)) (cfg.genericThreshold cats.rows.length) cfg.deleteThreshold := by
  have hsplits : (finalizeAssignments cfg cats assignments).Splits _ := splits_finalizeAssignments hclassified
  have hcleared : Proper services (clearGeneric cfg cats assignments) := proper_clearGeneric hproper
  -- what a service has in the end are some of the categories that it had
  have hold : ∀ {sid ids}, (finalizeAssignments cfg cats assignments).assignments.lookup sid = some ids →
      ∃ named, (clearGeneric cfg cats assignments).lookup sid = some named ∧
        ids = named.filter (· ∉ tinyToDelete cfg cats (clearGeneric cfg cats assignments)) := by
    intro sid ids hlookup
    rw [finalizeAssignments, Dict.lookup_mapValues] at hlookup
    obtain ⟨named, hnamed, rfl⟩ := Option.map_eq_some_iff.mp hlookup
    exact ⟨named, hnamed, rfl⟩
  refine ⟨?_, ?_, ⟨hsplits.nodup, fun sid hsid => hsplits.of_unclassified hsid⟩, ?_, ?_, ?_⟩
  · simpa [finalizeAssignments, Dict.mapValues, Function.comp_def] using hcleared.keys
  · intro sid ids hlookup
    rw [hsplits.unclassified, hlookup, Option.some_inj]
  · intro sid ids hlookup
    refine ⟨?_, fun id hid => NodeSplitResult.mem_subIds.mp (hsplits.kept sid ids hlookup id hid)⟩
    obtain ⟨named, hnamed, rfl⟩ := hold hlookup
    exact (hcleared.once _ (Dict.lookup_eq_some.mp hnamed)).filter _
  · intro sid ids hlookup
    obtain ⟨named, hnamed, rfl⟩ := hold hlookup
    have hshort : (named.length : ℤ) ≤ cfg.genericThreshold cats.rows.length := by
      rw [clearGeneric, Dict.lookup_mapValues] at hnamed
      obtain ⟨all, -, rfl⟩ := Option.map_eq_some_iff.mp hnamed
      split
      · exact (Int.natCast_nonneg 0).trans ((by decide : ((0 : ℕ) : ℤ) ≤ 1).trans (le_max_left _ _))
      · rename_i hfew
        exact Int.not_lt.mp hfew
    have hle : ((named.filter (· ∉ tinyToDelete cfg cats (clearGeneric cfg cats assignments))).length : ℤ) ≤ named.length :=
      Int.ofNat_le.mpr (List.length_filter_le _ named)
    exact hle.trans hshort
  · intro id hid
    -- a category that is kept is not tiny, and no service loses it
    obtain ⟨hcats, hkept⟩ : cats.contains id = true ∧ id ∉ tinyToDelete cfg cats (clearGeneric cfg cats assignments) := by
      simp only [finalizeAssignments, Dict.contains, Dict.lookup_filter] at hid ⊢
      cases hlookup : cats.lookup id with
      | none =>
        rw [hlookup] at hid
        cases hid
      | some sub =>
        rw [hlookup] at hid
        exact ⟨rfl, by simpa using hid⟩
    have hcount : (finalizeAssignments cfg cats assignments).assignments.rows.countP (fun p => id ∈ p.2) =
        (clearGeneric cfg cats assignments).rows.countP fun p => id ∈ p.2 := by
      simp [finalizeAssignments, Dict.mapValues, List.countP_map, Function.comp_def, hkept]
    rw [hcount]
    exact Int.not_le.mp fun hle => hkept ((mem_tinyToDelete hcleared.once).mpr ⟨hcats, hle⟩)

end Finalize

/-- For every ratio, a split of services with distinct ids parts them by the thresholds, the number of subcategories of
the last design giving how many are too many. -/
theorem splitNode_partitions (cfg : Config) (ratio : ℚ) (hrefine : 1 ≤ cfg.maxRefineIterations) (llm : Llm) (honce : llm.NamesOnce)
    (cached : Option Keywords) (node : NodeInfo) (isRoot : Bool) (services : List Service) (hids : (services.map (·.id)).Nodup) :
    ∀ result, (splitNode (cfg.withRatio ratio) llm cached node isRoot services).1 = some result →
      ∃ cats, lastDesign (cfg.withRatio ratio) llm cached node isRoot services = some cats ∧
        result.Partitions (services.map (·.id)) (max 1 ⌊cats.rows.length * ratio⌋) cfg.deleteThreshold := by
  intro result hresult
  rw [splitNode] at hresult
  obtain ⟨cats, hcats, rfl⟩ := Option.map_eq_some_iff.mp hresult
  refine ⟨_, by rw [lastDesign, hcats, Option.map_some], ?_⟩
  obtain ⟨last, cats', heq⟩ := exists_classifyRefineLoop (cfg.withRatio ratio) llm node services (cfg.withRatio ratio).maxRefineIterations 1 cats ∅ hrefine rfl
  rw [heq]
  exact partitions_finalizeAssignments (classified_classifyAll last cats') (proper_classifyAll honce hids last cats')

open Build (sampleConfig sampleServices designing) in
theorem splitNode_partitions_sample : ∃ result,
    (splitNode (sampleConfig.withRatio (1 / 3)) (designing "cat_1" "cat_2") none { id := "root", info := none } true sampleServices).1 = some result ∧
      ∃ cats, lastDesign (sampleConfig.withRatio (1 / 3)) (designing "cat_1" "cat_2") none { id := "root", info := none } true sampleServices = some cats ∧
        result.Partitions (sampleServices.map (·.id)) (max 1 ⌊cats.rows.length * (1 / 3 : ℚ)⌋) sampleConfig.deleteThreshold := by
  have honce : (designing "cat_1" "cat_2").NamesOnce := by
    intro _ _ _ _ _ ids hids
    obtain rfl := Option.some.inj hids
    exact List.nodup_singleton _
  refine ⟨_, rfl, ?_⟩
  exact splitNode_partitions sampleConfig (1 / 3) (by decide) (designing "cat_1" "cat_2") honce none { id := "root", info := none } true
    sampleServices (by decide) _ rfl

end AgentProtocol.A2X
