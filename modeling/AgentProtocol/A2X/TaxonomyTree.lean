-- SUMMARY: Builds whose splits bring new ids and name no category twice keep the taxonomy a tree that lists every service.
import AgentProtocol.Lib.Run
import AgentProtocol.Lib.RootedTree
import AgentProtocol.A2X.Taxonomy

/-!
# The taxonomy stays a tree

The ids of new categories come from a model, and a split writes them over whatever is under these
ids. So the taxonomy stays a tree as long as they are new, and no category lists a service twice
as long as no classification names a category twice. Everything else holds of whatever the model
answers: a service that is split off a node goes to a subcategory that is kept, or stays.
-/

namespace AgentProtocol.A2X

open Lib

/-! ## Sorted lists -/

variable {l : List String}

@[simp] theorem mem_sorted {s : String} : s ∈ sorted l ↔ s ∈ l := (List.perm_insertionSort _ l).mem_iff

@[simp] theorem nodup_sorted : (sorted l).Nodup ↔ l.Nodup := (List.perm_insertionSort _ l).nodup_iff

/-! ## What a split result says -/

variable {assignments : Assignments}

theorem mem_subServices {id sid : String} :
    sid ∈ subServices assignments id ↔ ∃ ids, assignments.lookup sid = some ids ∧ id ∈ ids := by
  simp only [subServices, List.mem_flatMap, List.mem_map, List.mem_filter, decide_eq_true_eq, Dict.lookup_eq_some]
  constructor
  · rintro ⟨⟨sid, ids⟩, hrow, id', ⟨hid, rfl⟩, rfl⟩
    exact ⟨ids, hrow, hid⟩
  · rintro ⟨ids, hrow, hid⟩
    exact ⟨(sid, ids), hrow, id, ⟨hid, rfl⟩, rfl⟩

theorem nodup_subServices (h : ∀ p ∈ assignments.rows, p.2.Nodup) (id : String) : (subServices assignments id).Nodup := by
  have honce : ∀ p ∈ assignments.rows, ((p.2.filter (· = id)).map fun _ => p.1).Nodup := by
    intro p hp
    rw [List.filter_eq, List.map_replicate, List.nodup_replicate]
    exact List.nodup_iff_count_le_one.mp (h p hp) id
  refine List.nodup_flatMap.mpr ⟨honce, ?_⟩
  have hkeys := List.pairwise_map.mp assignments.nodup
  refine hkeys.imp fun {p q} hne => ?_
  rw [Function.onFun, List.disjoint_left]
  intro sid hp hq
  obtain ⟨-, -, rfl⟩ := List.mem_map.mp hp
  obtain ⟨-, -, heq⟩ := List.mem_map.mp hq
  exact hne heq.symm

namespace NodeSplitResult

variable {result : NodeSplitResult} {id : String}

theorem mem_subIds : id ∈ result.subIds ↔ result.subcategories.contains id = true := by
  rw [subIds, mem_sorted, Dict.contains, Option.isSome_iff_exists]
  simp only [Dict.lookup_eq_some, List.mem_map, Prod.exists, exists_and_right, exists_eq_right]

theorem nodup_subIds (result : NodeSplitResult) : result.subIds.Nodup := nodup_sorted.mpr result.subcategories.nodup

/-- The services that were split are placed in subcategories that are there, or are unclassified. -/
structure Splits (result : NodeSplitResult) (sids : List String) : Prop where
  assigned : ∀ sid, (result.assignments.contains sid = true) ↔ sid ∈ sids
  kept : ∀ sid ids, result.assignments.lookup sid = some ids → ∀ id ∈ ids, id ∈ result.subIds
  unclassified : ∀ sid, sid ∈ result.unclassifiedServiceIds ↔ result.assignments.lookup sid = some []
  nodup : result.unclassifiedServiceIds.Nodup

variable {sids : List String} {sid : String}

theorem Splits.placed (h : result.Splits sids) (hsid : sid ∈ sids) :
    sid ∈ result.unclassifiedServiceIds ∨ ∃ id ∈ result.subIds, sid ∈ subServices result.assignments id := by
  obtain ⟨ids, hids⟩ := Option.isSome_iff_exists.mp ((h.assigned sid).mpr hsid)
  cases ids with
  | nil => exact .inl ((h.unclassified sid).mpr hids)
  | cons id ids => exact .inr ⟨id, h.kept sid _ hids id List.mem_cons_self, mem_subServices.mpr ⟨_, hids, List.mem_cons_self⟩⟩

theorem Splits.of_unclassified (h : result.Splits sids) (hsid : sid ∈ result.unclassifiedServiceIds) : sid ∈ sids :=
  (h.assigned sid).mp (Option.isSome_iff_exists.mpr ⟨[], (h.unclassified sid).mp hsid⟩)

theorem Splits.of_subServices (h : result.Splits sids) (hsid : sid ∈ subServices result.assignments id) : sid ∈ sids := by
  obtain ⟨ids, hids, -⟩ := mem_subServices.mp hsid
  exact (h.assigned sid).mp (Option.isSome_iff_exists.mpr ⟨ids, hids⟩)

end NodeSplitResult

/-! ## What splitting a node gives -/

section Split

variable {cfg : Config} {llm : Llm} {node : NodeInfo} {services : List Service}

theorem mem_classifySingle {iteration : ℕ} {cats : Subcategories} {service : Service} {id : String} : ∀ {left attempt : ℕ},
    id ∈ classifySingle llm iteration node cats service left attempt → cats.contains id = true
  | left + 1, attempt, h => by
    rw [classifySingle] at h
    split at h
    · exact mem_classifySingle h
    · exact (List.mem_filter.mp h).2

/-- Every service is classified, by ids that are there. -/
structure Classified (services : List Service) (cats : Subcategories) (assignments : Assignments) : Prop where
  assigned : ∀ sid, assignments.contains sid = true ↔ sid ∈ services.map (·.id)
  named : ∀ sid ids, assignments.lookup sid = some ids → ∀ id ∈ ids, cats.contains id = true

theorem classified_classifyAll (iteration : ℕ) (cats : Subcategories) :
    Classified services cats (classifyAll cfg llm iteration node cats services) where
  assigned := by
    intro sid
    rw [classifyAll, Dict.contains_ofList, List.map_map]
    exact Iff.rfl
  named := by
    intro sid ids hlookup id hid
    rcases Table.mem_of_mem_insertAll (Dict.lookup_eq_some.mp hlookup) with hrow | hrow
    · cases hrow
    obtain ⟨s, -, heq⟩ := List.mem_map.mp hrow
    obtain ⟨-, rfl⟩ := Prod.mk.inj heq
    exact mem_classifySingle hid

theorem exists_classifyRefineLoop (cfg : Config) (llm : Llm) (node : NodeInfo) (services : List Service) :
    ∀ (left iteration : ℕ) (cats : Subcategories) (assignments : Assignments), 0 < left → left + iteration = cfg.maxRefineIterations + 1 → ∃ last cats',
      classifyRefineLoop cfg llm node services left iteration cats assignments = (cats', classifyAll cfg llm last node cats' services)
  | left + 1, iteration, cats, assignments, _, hsum => by
    rw [classifyRefineLoop]
    split
    · exact ⟨iteration, cats, rfl⟩
    · rename_i hmore
      have hlt : iteration < cfg.maxRefineIterations := by
        rw [shouldTerminate, Bool.or_eq_true, not_or, decide_eq_true_eq] at hmore
        exact Nat.lt_of_not_le hmore.1
      exact exists_classifyRefineLoop cfg llm node services _ _ _ _ (by omega) (by omega)

theorem splits_finalizeAssignments {cats : Subcategories} {assignments : Assignments} (h : Classified services cats assignments) :
    (finalizeAssignments cfg cats assignments).Splits (services.map (·.id)) where
  assigned := by
    intro sid
    rw [← h.assigned sid, finalizeAssignments, Dict.contains_mapValues, clearGeneric, Dict.contains_mapValues]
  kept := by
    intro sid ids hids id hid
    simp only [finalizeAssignments, clearGeneric, Dict.lookup_mapValues, Option.map_map, Option.map_eq_some_iff,
      Function.comp] at hids
    obtain ⟨named, hnamed, rfl⟩ := hids
    obtain ⟨hid, htiny⟩ := List.mem_filter.mp hid
    have hcats : cats.contains id = true := by
      split at hid
      · cases hid
      exact h.named sid named hnamed id hid
    obtain ⟨sub, hsub⟩ := Option.isSome_iff_exists.mp hcats
    rw [NodeSplitResult.mem_subIds]
    simp only [finalizeAssignments, Dict.contains, Dict.lookup_filter, hsub, Option.isSome_filter, Option.any_some]
    exact htiny
  unclassified := by
    intro sid
    simp only [finalizeAssignments, List.map_append, List.mem_append, Dict.mem_map_fst_filter, Dict.lookup_mapValues]
    cases (clearGeneric cfg cats assignments).lookup sid with
    | none => simp
    | some ids =>
      by_cases hids : ids = []
      · simp [hids]
      · simp [hids]
  nodup := by
    simp only [finalizeAssignments, List.map_append]
    refine List.nodup_append'.mpr ⟨?_, ?_, ?_⟩
    · exact (clearGeneric cfg cats assignments).nodup.sublist (List.filter_sublist.map Prod.fst)
    · exact (clearGeneric cfg cats assignments).nodup.sublist (List.filter_sublist.map Prod.fst)
    · intro sid hempty hleft
      obtain ⟨ids, hids, hnil⟩ := Dict.mem_map_fst_filter.mp hempty
      obtain ⟨ids', hids', hsome⟩ := Dict.mem_map_fst_filter.mp hleft
      obtain rfl := Option.some.inj (hids.symm.trans hids')
      simp only [ne_eq, decide_eq_true_eq] at hnil hsome
      exact hsome.1 hnil

theorem splits_splitNode (hrefine : 1 ≤ cfg.maxRefineIterations) {cached : Option Keywords} {isRoot : Bool} {result : NodeSplitResult}
    (h : (splitNode cfg llm cached node isRoot services).1 = some result) : result.Splits (services.map (·.id)) := by
  rw [splitNode] at h
  obtain ⟨cats, -, rfl⟩ := Option.map_eq_some_iff.mp h
  obtain ⟨last, cats', heq⟩ := exists_classifyRefineLoop cfg llm node services _ 1 cats ∅ hrefine rfl
  rw [heq]
  exact splits_finalizeAssignments (classified_classifyAll last cats')

end Split

/-! ## Applying a result -/

theorem lookup_foldl_set {ν : Type} (f : String → ν) (k : String) : ∀ (ids : List String) (d : Dict String ν),
    (ids.foldl (fun d id => d.set id (f id)) d).lookup k = if k ∈ ids then some (f k) else d.lookup k
  | [], _ => by simp
  | id :: ids, d => by
    rw [List.foldl_cons, lookup_foldl_set f k ids, Dict.lookup_set]
    by_cases hmem : k ∈ ids
    · simp [hmem]
    · by_cases hid : id = k
      · simp [hid]
      · simp [hmem, hid, Ne.symm hid]

section Apply

variable (cats : Categories) (nodeId : String) (result : NodeSplitResult) (k : String)

theorem lookup_applySplitResult : (applySplitResult cats nodeId result).lookup k =
      if k ∈ result.subIds then some { services := sorted (subServices result.assignments k) }
      else if k = nodeId then some { children := result.subIds, services := sorted result.unclassifiedServiceIds }
      else cats.lookup k := by
  rw [applySplitResult,
    lookup_foldl_set (fun id => ({ services := sorted (subServices result.assignments id) } : Category)), Dict.lookup_set]
  by_cases hk : k = nodeId
  · simp [hk]
  · simp [hk, Ne.symm hk]

theorem childrenOf_applySplitResult : (applySplitResult cats nodeId result).childrenOf k =
      if k ∈ result.subIds then [] else if k = nodeId then result.subIds else cats.childrenOf k := by
  rw [Categories.childrenOf, lookup_applySplitResult]
  split
  · rfl
  · split <;> rfl

theorem servicesOf_applySplitResult : (applySplitResult cats nodeId result).servicesOf k =
      if k ∈ result.subIds then sorted (subServices result.assignments k)
      else if k = nodeId then sorted result.unclassifiedServiceIds else cats.servicesOf k := by
  rw [Categories.servicesOf, lookup_applySplitResult]
  split
  · rfl
  · split <;> rfl

theorem contains_applySplitResult :
    (applySplitResult cats nodeId result).contains k = true ↔ k ∈ result.subIds ∨ k = nodeId ∨ cats.contains k = true := by
  rw [Dict.contains, lookup_applySplitResult]
  split
  · simp_all
  · split
    · simp_all
    · simp_all [Dict.contains]

end Apply

/-! ## Adding links -/

/-- Services of the index are added to categories, and nothing else changes. -/
structure Linked (index : Dict String Service) (cats cats' : Categories) : Prop where
  keys : ∀ id, cats'.contains id = cats.contains id
  children : ∀ id, cats'.childrenOf id = cats.childrenOf id
  kept : ∀ id, ∀ sid ∈ cats.servicesOf id, sid ∈ cats'.servicesOf id
  listed : ∀ id, ∀ sid ∈ cats'.servicesOf id, sid ∈ cats.servicesOf id ∨ index.contains sid = true
  once : ∀ id, (cats.servicesOf id).Nodup → (cats'.servicesOf id).Nodup

namespace Linked

variable {index : Dict String Service} {cats cats' cats'' : Categories}

theorem refl (index : Dict String Service) (cats : Categories) : Linked index cats cats :=
  ⟨fun _ => rfl, fun _ => rfl, fun _ _ h => h, fun _ _ h => .inl h, fun _ h => h⟩

theorem trans (h : Linked index cats cats') (h' : Linked index cats' cats'') : Linked index cats cats'' where
  keys id := (h'.keys id).trans (h.keys id)
  children id := (h'.children id).trans (h.children id)
  kept id sid hsid := h'.kept id sid (h.kept id sid hsid)
  listed := by
    intro id sid hsid
    rcases h'.listed id sid hsid with hsid | hindex
    · exact h.listed id sid hsid
    · exact .inr hindex
  once id hid := h'.once id (h.once id hid)

theorem addLink (cats : Categories) {link : String × String} (hlink : index.contains link.1 = true) :
    Linked index cats (A2X.addLink cats link) := by
  unfold A2X.addLink
  split
  · exact refl index cats
  · rename_i cat hcat
    split
    · exact refl index cats
    · rename_i hnot
      have hold : cats.servicesOf link.2 = cat.services := by rw [Categories.servicesOf, hcat]; rfl
      have hservices : ∀ id, Categories.servicesOf (cats.set link.2 { cat with services := sorted (cat.services ++ [link.1]) }) id =
          if link.2 = id then sorted (cat.services ++ [link.1]) else cats.servicesOf id := by
        intro id
        rw [Categories.servicesOf, Dict.lookup_set]
        split <;> rfl
      constructor
      · intro id
        rw [Dict.contains_set]
        by_cases hid : link.2 = id
        · subst hid
          simp [Dict.contains, hcat]
        · simp [hid]
      · intro id
        rw [Categories.childrenOf, Categories.childrenOf, Dict.lookup_set]
        by_cases hid : link.2 = id
        · subst hid
          simp [hcat]
        · simp [hid]
      · intro id sid hsid
        rw [hservices]
        split
        · rename_i hid
          rw [← hid, hold] at hsid
          simp [hsid]
        · exact hsid
      · intro id sid hsid
        rw [hservices] at hsid
        split at hsid
        · rename_i hid
          rw [← hid, hold]
          rcases List.mem_append.mp (mem_sorted.mp hsid) with hsid | hsid
          · exact .inl hsid
          · exact .inr (List.mem_singleton.mp hsid ▸ hlink)
        · exact .inl hsid
      · intro id hid
        rw [hservices]
        split
        · rename_i heq
          rw [← heq, hold] at hid
          rw [nodup_sorted, List.nodup_append_comm]
          exact List.nodup_cons.mpr ⟨hnot, hid⟩
        · exact hid

theorem foldl : ∀ {links : List (String × String)} {cats : Categories}, (∀ link ∈ links, index.contains link.1 = true) →
    Linked index cats (links.foldl A2X.addLink cats)
  | [], _, _ => refl _ _
  | link :: _, _, h => (addLink _ (h link List.mem_cons_self)).trans (foldl fun l hl => h l (List.mem_cons_of_mem _ hl))

end Linked

variable {classes : Dict String ClassInfo}

theorem mem_placeCandidates {llm : Llm} {index : Dict String Service} {cats : Categories}
    {candidates : List Candidate} {links : List (String × String)} (h : placeCandidates llm index cats classes candidates = some links) :
    ∀ link ∈ links, index.contains link.1 = true := by
  unfold placeCandidates at h
  generalize (candidates.filter _) = known at h
  have hfold : ∀ (known : List Candidate) (placed : List (String × String)), (∀ link ∈ placed, index.contains link.1 = true) →
      known.foldlM (fun placed c => do
        let leaves ← getLeavesUnder cats c.targetDomainId
        let choice := (index.lookup c.serviceId).bind fun service =>
          llm.place service c.targetDomainId (leaves.map fun leaf => (leaf, classes.lookup leaf))
        pure (placed ++ (choice.filter (· ≠ "")).toList.map fun id => (c.serviceId, id))) placed = some links →
      ∀ link ∈ links, index.contains link.1 = true := by
    intro known
    induction known with
    | nil =>
      intro placed hplaced hlinks
      rwa [← Option.some.inj hlinks]
    | cons c known ih =>
      intro placed hplaced hlinks
      rw [List.foldlM_cons, Option.bind_eq_bind, Option.bind_eq_some_iff] at hlinks
      obtain ⟨next, hnext, hrest⟩ := hlinks
      refine ih next ?_ hrest
      rw [Option.bind_eq_bind, Option.bind_eq_some_iff] at hnext
      obtain ⟨leaves, -, hnext⟩ := hnext
      obtain rfl := Option.some.inj hnext
      intro link hlink
      rcases List.mem_append.mp hlink with hold | hnew
      · exact hplaced link hold
      · -- a choice was made, so the service is known
        obtain ⟨id, hid, rfl⟩ := List.mem_map.mp hnew
        have hchoice := Option.eq_some_of_filter_eq_some (Option.mem_toList.mp hid)
        obtain ⟨service, hservice, -⟩ := Option.bind_eq_some_iff.mp hchoice
        exact Option.isSome_iff_exists.mpr ⟨service, hservice⟩
  exact hfold known [] (fun _ hlink => nomatch hlink) h

theorem linked_applyCrossDomain {llm : Llm} {index : Dict String Service} {cats cats' : Categories}
    (h : applyCrossDomain llm index cats classes = some cats') : Linked index cats cats' := by
  unfold applyCrossDomain at h
  split at h
  · rw [← Option.some.inj h]
    exact .refl index cats
  · obtain ⟨candidates, -, h⟩ := Option.bind_eq_some_iff.mp h
    obtain ⟨links, hlinks, h⟩ := Option.bind_eq_some_iff.mp h
    rw [← Option.some.inj h]
    exact .foldl (mem_placeCandidates hlinks)

theorem map_id_filterMap {index : Dict String Service} (hnamed : ∀ sid service, index.lookup sid = some service → service.id = sid) :
    ∀ {sids : List String}, (∀ sid ∈ sids, index.contains sid = true) → (sids.filterMap index.lookup).map (·.id) = sids
  | [], _ => rfl
  | sid :: sids, hsids => by
    obtain ⟨service, hservice⟩ := Option.isSome_iff_exists.mp (hsids sid List.mem_cons_self)
    rw [List.filterMap_cons_some hservice, List.map_cons, hnamed sid service hservice,
      map_id_filterMap hnamed fun s hs => hsids s (List.mem_cons_of_mem _ hs)]

/-! ## Rounds of a build -/

namespace Build

variable {cfg : Config} {b : Build} {llm : Llm}

/-- The split that the next round applies, and the node. -/
def applied (cfg : Config) (b : Build) (llm : Llm) : Option (String × NodeSplitResult) :=
  match b.phase, b.queue with
  | .bfs, (id, _) :: _ => if b.nodeServices id = [] then none else (b.splitOf cfg llm id).1.map fun result => (id, result)
  | _, _ => none

/-- What the next round does: it applies a split, or leaves the tree alone, or adds links. -/
inductive Round (cfg : Config) (b : Build) (llm : Llm) : Build → Prop where
  | split (id : String) (depth : ℕ) (queue : List (String × ℕ)) (result : NodeSplitResult) (keywords : Option Keywords)
      (hqueue : b.queue = (id, depth) :: queue) (happlied : b.applied cfg llm = some (id, result))
      (hresult : (b.splitOf cfg llm id).1 = some result) :
      Round cfg b llm { b.apply id result with
        keywords, queue := queue ++ oversized cfg (b.apply id result).categories result (depth + 1) }
  | idle (b' : Build) (hnone : b.applied cfg llm = none) (hcategories : b'.categories = b.categories) (hindex : b'.index = b.index)
      (hqueue : b'.queue <:+ b.queue) : Round cfg b llm b'
  | linked (b' : Build) (hnone : b.applied cfg llm = none) (hcategories : Linked b.index b.categories b'.categories)
      (hindex : b'.index = b.index) (hqueue : b'.queue = b.queue) : Round cfg b llm b'

theorem round_splitNext (hphase : b.phase = .bfs) : Round cfg b llm (b.splitNext cfg llm) := by
  unfold splitNext
  cases hqueue : b.queue with
  | nil =>
    have hnone : b.applied cfg llm = none := by simp [applied, hphase, hqueue]
    dsimp only
    exact .idle _ hnone rfl rfl List.nil_suffix
  | cons q queue =>
    obtain ⟨id, depth⟩ := q
    have hsuffix : queue <:+ b.queue := hqueue ▸ List.suffix_cons _ _
    have happlied : b.applied cfg llm =
        if b.nodeServices id = [] then none else (b.splitOf cfg llm id).1.map fun result => (id, result) := by
      simp [applied, hphase, hqueue]
    dsimp only
    split
    · rename_i hempty
      exact .idle _ (happlied.trans (if_pos hempty)) rfl rfl hsuffix
    · rename_i hsome
      have happlied := happlied.trans (if_neg hsome)
      split
      · rename_i keywords hsplit
        have hresult : (b.splitOf cfg llm id).1 = none := congrArg Prod.fst hsplit
        exact .idle _ (by rw [happlied, hresult]; rfl) rfl rfl hsuffix
      · rename_i result keywords hsplit
        have hresult : (b.splitOf cfg llm id).1 = some result := congrArg Prod.fst hsplit
        exact .split id depth queue result keywords hqueue (by rw [happlied, hresult]; rfl) hresult

theorem round_finish (hphase : b.phase = .crossDomain) : Round cfg b llm (b.finish cfg llm) := by
  have hnone : b.applied cfg llm = none := by simp [applied, hphase]
  unfold finish
  split
  · split
    · exact .idle _ hnone rfl rfl List.suffix_rfl
    · rename_i categories hcategories
      exact .linked _ hnone (linked_applyCrossDomain hcategories) rfl rfl
  · exact .idle _ hnone rfl rfl List.suffix_rfl

theorem round_step (cfg : Config) (b : Build) (llm : Llm) : Round cfg b llm (b.step cfg llm) := by
  unfold step
  split
  · rename_i hphase
    exact round_splitNext hphase
  · rename_i hphase
    exact round_finish hphase
  all_goals
    rename_i hphase
    exact .idle b (by simp [applied, hphase]) rfl rfl List.suffix_rfl

/-! ## The law -/

/-- The tree is one, and it lists every service. -/
structure Lawful (b : Build) : Prop where
  parent : ∀ id, b.categories.contains id = true → id ≠ "root" → ∃! p, b.categories.contains p = true ∧ id ∈ b.categories.childrenOf p
  reached : ∀ id, b.categories.contains id = true → Reaches b.categories.childrenOf "root" id
  acyclic : ∀ id, b.categories.contains id = true → ¬ Relation.TransGen (fun p c => c ∈ b.categories.childrenOf p) id id
  covered : ∀ sid, b.index.contains sid = true →
    ∃ id, Reaches b.categories.childrenOf "root" id ∧ sid ∈ b.categories.servicesOf id
  once : ∀ id, (b.categories.servicesOf id).Nodup

/-- The next round takes services from no category but the one that it splits. -/
def KeepsOutside (cfg : Config) (b : Build) (llm : Llm) : Prop :=
  ∀ p ∈ b.applied cfg llm, ∀ id, id ≠ p.1 → ∀ sid ∈ b.categories.servicesOf id, sid ∈ (b.step cfg llm).categories.servicesOf id

/-- The split that the next round applies brings ids that are new, and no answer names a category that is kept twice. -/
def Sound (cfg : Config) (b : Build) (llm : Llm) : Prop :=
  ∀ p ∈ b.applied cfg llm, (∀ id ∈ p.2.subIds, b.categories.contains id = false) ∧ ∀ row ∈ p.2.assignments.rows, row.2.Nodup

instance (cfg : Config) (b : Build) (llm : Llm) : Decidable (b.Sound cfg llm) :=
  inferInstanceAs (Decidable (∀ p ∈ b.applied cfg llm, _))

/-- What the rounds of a build keep. -/
structure Sane (b : Build) : Prop where
  tree : RootedTree "root" (fun id => b.categories.contains id = true) b.categories.childrenOf
  covered : ∀ sid, b.index.contains sid = true →
    ∃ id, Reaches b.categories.childrenOf "root" id ∧ sid ∈ b.categories.servicesOf id
  once : ∀ id, (b.categories.servicesOf id).Nodup
  /-- Only services of the index are listed. -/
  listed : ∀ id, ∀ sid ∈ b.categories.servicesOf id, b.index.contains sid = true
  named : ∀ sid service, b.index.lookup sid = some service → service.id = sid
  /-- A node waits once, and has not been split. -/
  waiting : (b.queue.map Prod.fst).Nodup
  leaves : ∀ q ∈ b.queue, b.categories.contains q.1 = true ∧ b.categories.childrenOf q.1 = []

theorem Sane.lawful (h : b.Sane) : b.Lawful where
  parent _ hid hne := h.tree.parent hid hne
  reached _ hid := h.tree.reached hid
  acyclic _ hid := h.tree.acyclic hid
  covered := h.covered
  once := h.once

theorem Sane.nodeServices (h : b.Sane) (id : String) : (b.nodeServices id).map (·.id) = b.categories.servicesOf id :=
  map_id_filterMap h.named (h.listed id)

variable {b' : Build}

theorem Sane.idle (h : b.Sane) (hcategories : b'.categories = b.categories) (hindex : b'.index = b.index)
    (hqueue : b'.queue <:+ b.queue) : b'.Sane where
  tree := hcategories ▸ h.tree
  covered := by
    rw [hcategories, hindex]
    exact h.covered
  once := hcategories ▸ h.once
  listed := by
    rw [hcategories, hindex]
    exact h.listed
  named := hindex ▸ h.named
  waiting := h.waiting.sublist (hqueue.sublist.map Prod.fst)
  leaves := by
    rw [hcategories]
    exact fun q hq => h.leaves q (hqueue.subset hq)

theorem Sane.linked (h : b.Sane) (hlinked : Linked b.index b.categories b'.categories) (hindex : b'.index = b.index)
    (hqueue : b'.queue = b.queue) : b'.Sane := by
  have hkeys : (fun id => b'.categories.contains id = true) = fun id => b.categories.contains id = true :=
    funext fun id => by rw [hlinked.keys id]
  have hchildren : b'.categories.childrenOf = b.categories.childrenOf := funext hlinked.children
  constructor
  · rw [hkeys, hchildren]
    exact h.tree
  · intro sid hsid
    rw [hindex] at hsid
    obtain ⟨id, hreach, hmem⟩ := h.covered sid hsid
    exact ⟨id, hchildren ▸ hreach, hlinked.kept id sid hmem⟩
  · exact fun id => hlinked.once id (h.once id)
  · intro id sid hsid
    rw [hindex]
    exact (hlinked.listed id sid hsid).elim (h.listed id sid) fun hindexed => hindexed
  · exact hindex ▸ h.named
  · rw [hqueue]
    exact h.waiting
  · intro q hq
    rw [hlinked.keys, hlinked.children]
    exact h.leaves q (hqueue ▸ hq)

section Split

variable {id : String} {depth : ℕ} {queue : List (String × ℕ)} {result : NodeSplitResult}

theorem Sane.grown (h : b.Sane) (hqueue : b.queue = (id, depth) :: queue)
    (hnew : ∀ sub ∈ result.subIds, b.categories.contains sub = false) :
    RootedTree.Grown (fun k => b.categories.contains k = true) (fun k => (b.apply id result).categories.contains k = true)
      b.categories.childrenOf (b.apply id result).categories.childrenOf id result.subIds := by
  obtain ⟨hid, hleaf⟩ := h.leaves (id, depth) (hqueue ▸ List.mem_cons_self)
  have hfresh : ∀ sub ∈ result.subIds, ¬ b.categories.contains sub = true := fun sub hsub => by simp [hnew sub hsub]
  have hnot : id ∉ result.subIds := fun hmem => hfresh id hmem hid
  constructor
  · exact hleaf
  · exact hfresh
  · intro k
    rw [apply, contains_applySplitResult]
    constructor
    · rintro (hk | rfl | hk)
      · exact .inr hk
      · exact .inl hid
      · exact .inl hk
    · rintro (hk | hk)
      · exact .inr (.inr hk)
      · exact .inl hk
  · rw [apply, childrenOf_applySplitResult, if_neg hnot, if_pos rfl]
  · intro c hc
    rw [apply, childrenOf_applySplitResult, if_pos hc]
  · intro k hk hne
    have hold : k ∉ result.subIds := fun hmem => hfresh k hmem hk
    rw [apply, childrenOf_applySplitResult, if_neg hold, if_neg hne]

theorem servicesOf_apply_of_ne (hnew : ∀ sub ∈ result.subIds, b.categories.contains sub = false) {k : String} (hne : k ≠ id)
    (hk : b.categories.contains k = true) : (b.apply id result).categories.servicesOf k = b.categories.servicesOf k := by
  have hold : k ∉ result.subIds := fun hmem => by simp [hnew k hmem] at hk
  rw [apply, servicesOf_applySplitResult, if_neg hold, if_neg hne]

theorem contains_of_mem_servicesOf {cats : Categories} {k sid : String} (h : sid ∈ cats.servicesOf k) : cats.contains k = true := by
  unfold Categories.servicesOf at h
  cases hk : cats.lookup k with
  | none =>
    rw [hk] at h
    cases h
  | some cat => rw [Dict.contains, hk]; rfl

theorem Sane.split (h : b.Sane) (hqueue : b.queue = (id, depth) :: queue) (hsplits : result.Splits (b.categories.servicesOf id))
    (hnew : ∀ sub ∈ result.subIds, b.categories.contains sub = false) (honce : ∀ row ∈ result.assignments.rows, row.2.Nodup)
    (keywords : Option Keywords) :
    Sane { b.apply id result with keywords, queue := queue ++ oversized cfg (b.apply id result).categories result (depth + 1) } := by
  obtain ⟨hid, hleaf⟩ := h.leaves (id, depth) (hqueue ▸ List.mem_cons_self)
  have hgrown := h.grown hqueue hnew
  have hnot : id ∉ result.subIds := fun hmem => hgrown.new id hmem hid
  have hwaiting : (id :: queue.map Prod.fst).Nodup := by
    have hnodup := h.waiting
    rwa [hqueue] at hnodup
  have hqueued : ∀ q ∈ queue, b.categories.contains q.1 = true ∧ b.categories.childrenOf q.1 = [] ∧ q.1 ≠ id := by
    intro q hq
    obtain ⟨hkey, hchildren⟩ := h.leaves q (hqueue ▸ List.mem_cons_of_mem _ hq)
    exact ⟨hkey, hchildren, fun heq => (List.nodup_cons.mp hwaiting).1 (List.mem_map.mpr ⟨q, hq, heq⟩)⟩
  have hover : ∀ q ∈ oversized cfg (b.apply id result).categories result (depth + 1), q.1 ∈ result.subIds := by
    intro q hq
    obtain ⟨sub, hsub, rfl⟩ := List.mem_map.mp hq
    exact (List.mem_filter.mp hsub).1
  constructor
  · exact h.tree.grow hid hgrown
  · intro sid hsid
    obtain ⟨k, hreach, hmem⟩ := h.covered sid hsid
    have hreach' := hgrown.reaches h.tree h.tree.root_mem hreach
    by_cases hk : k = id
    · subst hk
      rcases hsplits.placed hmem with hstay | ⟨sub, hsub, hplaced⟩
      · refine ⟨k, hreach', ?_⟩
        rw [apply, servicesOf_applySplitResult, if_neg hnot, if_pos rfl]
        exact mem_sorted.mpr hstay
      · refine ⟨sub, hreach'.tail (hgrown.at_leaf ▸ hsub), ?_⟩
        rw [apply, servicesOf_applySplitResult, if_pos hsub]
        exact mem_sorted.mpr hplaced
    · refine ⟨k, hreach', ?_⟩
      rw [servicesOf_apply_of_ne hnew hk (contains_of_mem_servicesOf hmem)]
      exact hmem
  · intro k
    rw [apply, servicesOf_applySplitResult]
    split
    · exact nodup_sorted.mpr (nodup_subServices honce k)
    · split
      · exact nodup_sorted.mpr hsplits.nodup
      · exact h.once k
  · intro k sid hsid
    rw [apply, servicesOf_applySplitResult] at hsid
    split at hsid
    · exact h.listed id sid (hsplits.of_subServices (mem_sorted.mp hsid))
    · split at hsid
      · exact h.listed id sid (hsplits.of_unclassified (mem_sorted.mp hsid))
      · exact h.listed k sid hsid
  · exact h.named
  · have hsubs : ((oversized cfg (b.apply id result).categories result (depth + 1)).map Prod.fst).Nodup := by
      rw [oversized, List.map_map]
      exact (result.nodup_subIds.filter _).map fun _ _ heq => heq
    rw [List.map_append, List.nodup_append']
    refine ⟨(List.nodup_cons.mp hwaiting).2, hsubs, ?_⟩
    intro k hold hsub
    obtain ⟨q, hq, rfl⟩ := List.mem_map.mp hold
    obtain ⟨q', hq', heq⟩ := List.mem_map.mp hsub
    exact hgrown.new q'.1 (hover q' hq') (heq ▸ (hqueued q hq).1)
  · intro q hq
    rcases List.mem_append.mp hq with hq | hq
    · obtain ⟨hkey, hchildren, hne⟩ := hqueued q hq
      exact ⟨(hgrown.keys_iff q.1).mpr (.inl hkey), (hgrown.at_old q.1 hkey hne).trans hchildren⟩
    · exact ⟨(hgrown.keys_iff q.1).mpr (.inr (hover q hq)), hgrown.at_new q.1 (hover q hq)⟩

end Split

theorem Sane.splits (h : b.Sane) (hrefine : 1 ≤ cfg.maxRefineIterations) {id : String} {result : NodeSplitResult}
    (hresult : (b.splitOf cfg llm id).1 = some result) : result.Splits (b.categories.servicesOf id) :=
  h.nodeServices id ▸ splits_splitNode hrefine hresult

theorem Sane.step (h : b.Sane) (hrefine : 1 ≤ cfg.maxRefineIterations) (hsound : b.Sound cfg llm) : (b.step cfg llm).Sane := by
  have hround := round_step cfg b llm
  generalize b.step cfg llm = b' at hround
  cases hround with
  | split id depth queue result keywords hqueue happlied hresult =>
    obtain ⟨hnew, honce⟩ := hsound _ happlied
    exact h.split hqueue (h.splits hrefine hresult) hnew honce keywords
  | idle _ _ hcategories hindex hqueue => exact h.idle hcategories hindex hqueue
  | linked _ _ hcategories hindex hqueue => exact h.linked hcategories hindex hqueue

theorem keepsOutside_of_sound (hsound : b.Sound cfg llm) : b.KeepsOutside cfg llm := by
  intro p hp k hne sid hsid
  have hround := round_step cfg b llm
  generalize b.step cfg llm = b' at hround
  cases hround with
  | split id depth queue result keywords hqueue happlied hresult =>
    obtain rfl := Option.some.inj (happlied.symm.trans hp)
    have hsame := servicesOf_apply_of_ne (hsound _ happlied).1 hne (contains_of_mem_servicesOf hsid)
    exact hsame.symm ▸ hsid
  | idle _ hnone | linked _ hnone => exact nomatch hnone.symm.trans hp

section Start

variable {index : Dict String Service}

theorem lookup_initCategories (id : String) : (initCategories index).lookup id =
    if id = "root" then some { services := sorted (index.rows.map Prod.fst) } else none := by
  rw [initCategories, Dict.ofList, Table.insertAll, List.foldl_cons, List.foldl_nil]
  rw [show (Table.insert ∅ ("root", { services := sorted (index.rows.map Prod.fst) }) : Categories) =
    (∅ : Categories).set "root" { services := sorted (index.rows.map Prod.fst) } from rfl, Dict.lookup_set]
  simp [eq_comm]

theorem contains_initCategories {id : String} : (initCategories index).contains id = true ↔ id = "root" := by
  rw [Dict.contains, lookup_initCategories]
  split <;> simp_all

theorem childrenOf_initCategories (id : String) : (initCategories index).childrenOf id = [] := by
  rw [Categories.childrenOf, lookup_initCategories]
  split <;> rfl

theorem servicesOf_initCategories (id : String) :
    (initCategories index).servicesOf id = if id = "root" then sorted (index.rows.map Prod.fst) else [] := by
  rw [Categories.servicesOf, lookup_initCategories]
  split <;> rfl

theorem findPendingNodes_initCategories (cfg : Config) :
    findPendingNodes cfg (initCategories index) = [("root", 0)] ∨ findPendingNodes cfg (initCategories index) = [] := by
  rw [findPendingNodes, scan]
  simp only [childrenOf_initCategories]
  split
  · exact .inl rfl
  · exact .inr rfl

theorem servicesIndex_named (services : List Service) (sid : String) (service : Service)
    (h : (servicesIndex services).lookup sid = some service) : service.id = sid := by
  rcases Table.mem_of_mem_insertAll (Dict.lookup_eq_some.mp h) with hrow | hrow
  · cases hrow
  obtain ⟨s, -, heq⟩ := List.mem_map.mp hrow
  obtain ⟨rfl, rfl⟩ := Prod.mk.inj heq
  rfl

theorem sane_start (cfg : Config) (services : List Service) : (start cfg services).Sane where
  tree := by
    have hkeys : (fun id => (initCategories (servicesIndex services)).contains id = true) = (· = "root") :=
      funext fun id => propext contains_initCategories
    change RootedTree "root" (fun id => (initCategories (servicesIndex services)).contains id = true)
      (initCategories (servicesIndex services)).childrenOf
    rw [hkeys]
    exact .single (childrenOf_initCategories "root")
  covered := by
    intro sid hsid
    refine ⟨"root", .refl, ?_⟩
    rw [start, servicesOf_initCategories, if_pos rfl]
    exact mem_sorted.mpr (Dict.contains_iff_mem_keys.mp hsid)
  once := by
    intro id
    rw [start, servicesOf_initCategories]
    split
    · exact nodup_sorted.mpr (servicesIndex services).nodup
    · exact List.nodup_nil
  listed := by
    intro id sid hsid
    rw [start, servicesOf_initCategories] at hsid
    split at hsid
    · exact Dict.contains_iff_mem_keys.mpr (mem_sorted.mp hsid)
    · cases hsid
  named := servicesIndex_named services
  waiting := by
    rcases @findPendingNodes_initCategories (servicesIndex services) cfg with hq | hq
    · simp [start, hq]
    · simp [start, hq]
  leaves := by
    intro q hq
    have hroot : q.1 = "root" := by
      rcases @findPendingNodes_initCategories (servicesIndex services) cfg with hpending | hpending
      · rw [start, hpending] at hq
        rw [List.mem_singleton.mp hq]
      · rw [start, hpending] at hq
        cases hq
    exact ⟨contains_initCategories.mpr hroot, childrenOf_initCategories q.1⟩

end Start

/-- In a build each split of which brings ids that are new and is based on answers that name no category twice, the
taxonomy stays a tree that lists every service, and no split takes services from elsewhere. -/
theorem tree_along (cfg : Config) (hrefine : 1 ≤ cfg.maxRefineIterations) (services : List Service) (answers : List Llm)
    (hsound : Along (step cfg) (Sound cfg) (start cfg services) answers) :
    (∀ pre, pre <+: answers → (run (step cfg) (start cfg services) pre).Lawful) ∧
      Along (step cfg) (KeepsOutside cfg) (start cfg services) answers := by
  constructor
  · exact hsound.holds (sane_start cfg services) (fun _ h => h.lawful) fun b llm h hs => h.step hrefine hs
  · exact hsound.imp (sane_start cfg services) (fun b llm h hs => h.step hrefine hs) fun b llm _ hs => keepsOutside_of_sound hs

/-! A node is split as soon as it lists two services, and any category is kept. -/

def sampleConfig : Config := { genericLimit := fun n => n, deleteThreshold := 0, maxServiceSize := 1 }

def sampleServices : List Service :=
  [{ id := "maps", name := "Maps", description := "Finds routes" }, { id := "mail", name := "Mail", description := "Sends mail" }]

/-- A model that designs two categories and puts each service into one of them. -/
def designing (first second : String) : Llm where
  extract _ _ := ∅
  designFromKeywords _ _ _ := none
  designFromDescriptions _ _ := some [{ id := some first }, { id := some second }]
  validate _ _ := []
  redesign _ _ _ _ := none
  classify _ _ _ _ service := some [if service.id = "maps" then first else second]
  refine _ _ _ _ _ := none
  identify _ _ _ _ := []
  place _ _ _ := none

theorem tree_sample : (∀ pre, pre <+: [designing "cat_1" "cat_2", designing "cat_1" "cat_2"] →
      (run (step sampleConfig) (start sampleConfig sampleServices) pre).Lawful) ∧
      Along (step sampleConfig) (KeepsOutside sampleConfig) (start sampleConfig sampleServices)
        [designing "cat_1" "cat_2", designing "cat_1" "cat_2"] :=
  tree_along sampleConfig (by decide) sampleServices _ (by decide)

/-- A category that is called as the root takes its place, and the other category is lost with its service. -/
theorem not_tree_root : ¬ (run (step sampleConfig) (start sampleConfig sampleServices) [designing "cat_1" "root"]).Lawful := by
  intro h
  obtain ⟨id, hreach, hmem⟩ := h.covered "maps" (by decide)
  have hroot : id = "root" := by
    rcases Relation.ReflTransGen.cases_head hreach with heq | ⟨child, hchild, -⟩
    · exact heq.symm
    · exact absurd hchild (by
        have hleaf : (run (step sampleConfig) (start sampleConfig sampleServices) [designing "cat_1" "root"]).categories.childrenOf
            "root" = [] := by decide
        rw [hleaf]
        exact List.not_mem_nil)
  subst hroot
  exact absurd hmem (by decide)

end Build

end AgentProtocol.A2X
