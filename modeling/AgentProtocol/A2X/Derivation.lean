-- SUMMARY: Where the categories of a taxonomy come from, and that splits in any order lead to the same taxonomy.
import AgentProtocol.A2X.TaxonomyTree

/-!
# What the splits lead to

What a category is split into depends on what it was made with and on nothing else: on the
services, on how it is described, and on its id. So the categories that a build comes to are
there from the start, and the order of the queue does not matter, as long as no id is used twice.
A build that is partway has some of the categories, and each is as it was made or is split.
-/

namespace AgentProtocol.A2X

open Lib

/-! ## Origins -/

/-- What a category was made with. -/
structure Origin where
  parent : String
  services : List String
  info : Option ClassInfo
  depth : ℕ

namespace Origin

/-- As `_find_pending_nodes` asks. -/
def oversized (cfg : Config) (o : Origin) : Bool := cfg.maxServiceSize < o.services.length && cfg.mayDeepen o.depth

/-- The category is split when its turn comes. -/
def Due (cfg : Config) (o : Origin) : Prop := o.oversized cfg = true ∧ o.services ≠ []

end Origin

/-- The root's origin. It is its own parent here. -/
def rootOrigin (index : Dict String Service) : Origin where
  parent := "root"
  services := sorted (index.rows.map Prod.fst)
  info := initClasses.lookup "root"
  depth := 0

/-- What a subcategory was made with. -/
def NodeSplitResult.origin (result : NodeSplitResult) (id : String) (depth : ℕ) (sub : String) : Origin where
  parent := id
  services := sorted (subServices result.assignments sub)
  info := (result.subcategories.lookup sub).map (·.info)
  depth := depth + 1

def splitOrigin (cfg : Config) (llm : Llm) (index : Dict String Service) (id : String) (o : Origin) : Option NodeSplitResult :=
  (splitNode cfg llm none { id, info := o.info } (id = "root") (o.services.filterMap index.lookup)).1

/-- The categories that splits lead to, with their origins. -/
inductive Derived (cfg : Config) (llm : Llm) (index : Dict String Service) : String → Origin → Prop where
  | root : Derived cfg llm index "root" (rootOrigin index)
  | sub {id : String} {o : Origin} {result : NodeSplitResult} {sub : String} (h : Derived cfg llm index id o) (hdue : o.Due cfg)
      (hresult : splitOrigin cfg llm index id o = some result) (hsub : sub ∈ result.subIds) :
      Derived cfg llm index sub (result.origin id o.depth sub)

/-! ## Splits do not depend on cached keywords -/

section Keywords

variable {cfg : Config} {llm : Llm} {cached : Option Keywords} {node : NodeInfo} {isRoot : Bool} {services : List Service}

/-- Cached keywords of the root do no harm if they are those that the model extracts. -/
def CacheFits (llm : Llm) (cached : Option Keywords) (services : List Service) : Prop :=
  cached = none ∨ cached = some (llm.extract none services)

theorem splitNode_cached (h : isRoot = true → CacheFits llm cached services) :
    (splitNode cfg llm cached node isRoot services).1 = (splitNode cfg llm none node isRoot services).1 := by
  cases isRoot with
  | false =>
    simp only [splitNode, designCategories]
    split <;> rfl
  | true =>
    rcases h rfl with rfl | rfl
    · rfl
    · simp only [splitNode, designCategories]
      split <;> rfl

theorem splitNode_keywords (h : isRoot = true → CacheFits llm cached services) :
    (splitNode cfg llm cached node isRoot services).2 = cached ∨
      isRoot = true ∧ (splitNode cfg llm cached node isRoot services).2 = some (llm.extract none services) := by
  cases isRoot with
  | false =>
    simp only [splitNode, designCategories]
    split <;> exact .inl rfl
  | true =>
    simp only [splitNode, designCategories]
    split
    · rcases h rfl with rfl | rfl
      · exact .inr ⟨trivial, rfl⟩
      · exact .inl rfl
    · exact .inl rfl

end Keywords

/-! ## Facts about origins -/

theorem sorted_sorted (l : List String) : sorted (sorted l) = sorted l :=
  (List.pairwise_insertionSort _ l).insertionSort_eq

theorem sorted_congr {l l' : List String} (h : l.Perm l') : sorted l = sorted l' :=
  List.Perm.eq_of_pairwise' (List.pairwise_insertionSort _ l) (List.pairwise_insertionSort _ l')
    (((List.perm_insertionSort _ l).trans h).trans (List.perm_insertionSort _ l').symm)

def Named (index : Dict String Service) : Prop := ∀ sid service, index.lookup sid = some service → service.id = sid

namespace Derived

variable {cfg : Config} {llm : Llm} {index : Dict String Service} {id : String} {o : Origin} {result : NodeSplitResult}

theorem sorted_services (h : Derived cfg llm index id o) : sorted o.services = o.services := by
  cases h with
  | root | sub => exact sorted_sorted _

variable (hrefine : 1 ≤ cfg.maxRefineIterations) (hnamed : Named index) (h : Derived cfg llm index id o)
include hrefine hnamed h

theorem listed : ∀ sid ∈ o.services, index.contains sid = true := by
  induction h with
  | root =>
    intro sid hsid
    exact Dict.contains_iff_mem_keys.mpr (mem_sorted.mp hsid)
  | @sub id o result sub h hdue hresult hsub ih =>
    intro sid hsid
    have hsplits := splits_splitNode hrefine hresult
    rw [map_id_filterMap hnamed ih] at hsplits
    exact ih sid (hsplits.of_subServices (mem_sorted.mp hsid))

theorem splits (hresult : splitOrigin cfg llm index id o = some result) : result.Splits o.services := by
  have hsplits := splits_splitNode hrefine hresult
  rwa [map_id_filterMap hnamed (h.listed hrefine hnamed)] at hsplits

omit hrefine hnamed h

end Derived

/-! ## Builds that are partway -/

theorem lookup_foldl_classes {result : NodeSplitResult} {k : String} (ids : List String) (classes : Dict String ClassInfo)
    (hids : ∀ id ∈ ids, result.subcategories.contains id = true) :
    (ids.foldl (fun classes id => match result.subcategories.lookup id with
      | none => classes
      | some sub => classes.set id sub.info) classes).lookup k =
      if k ∈ ids then (result.subcategories.lookup k).map (·.info) else classes.lookup k := by
  induction ids generalizing classes with
  | nil => rfl
  | cons id ids ih =>
    obtain ⟨sub, hsub⟩ := Option.isSome_iff_exists.mp (hids id List.mem_cons_self)
    rw [List.foldl_cons, hsub, ih _ fun id hid => hids id (List.mem_cons_of_mem _ hid), Dict.lookup_set]
    by_cases hid : id = k
    · subst hid
      simp [hsub]
    · simp [hid, Ne.symm hid]

theorem lookup_applyClasses (classes : Dict String ClassInfo) (result : NodeSplitResult) (k : String) :
    (applyClasses classes result).lookup k =
      if k ∈ result.subIds then (result.subcategories.lookup k).map (·.info) else classes.lookup k :=
  lookup_foldl_classes result.subIds classes fun _ hid => NodeSplitResult.mem_subIds.mp hid

section Partway

variable (cfg : Config) (llm : Llm) (index : Dict String Service)

/-- The category is split, into categories that were made from it. -/
structure SplitUp (made : String → Option Origin) (categories : Categories) (id : String) (o : Origin) (result : NodeSplitResult) :
    Prop where
  due : o.Due cfg
  gives : splitOrigin cfg llm index id o = some result
  once : ∀ row ∈ result.assignments.rows, row.2.Nodup
  category : categories.lookup id = some { children := result.subIds, services := sorted result.unclassifiedServiceIds }
  subs : ∀ sub ∈ result.subIds, made sub = some (result.origin id o.depth sub)

/-- A build with these services that has made so many categories, with these origins. -/
structure Partway (made : String → Option Origin) (b : Build) : Prop where
  indexed : ∀ sid, b.index.lookup sid = index.lookup sid
  root : made "root" = some (rootOrigin index)
  derived : ∀ {id o}, made id = some o → Derived cfg llm index id o
  keys : ∀ {id}, made id = none → b.categories.lookup id = none
  classes : ∀ id, b.classes.lookup id = (made id).bind (·.info)
  /-- A category is as it was made, and then in the queue if it is due, or it is split. -/
  state : ∀ {id o}, made id = some o →
    (b.categories.lookup id = some { services := o.services } ∧ (o.Due cfg → (id, o.depth) ∈ b.queue)) ∨
      ∃ result, SplitUp cfg llm index made b.categories id o result
  above : ∀ {id o}, made id = some o → id ≠ "root" → id ∈ b.categories.childrenOf o.parent
  queued : ∀ q ∈ b.queue, ∃ o, made q.1 = some o ∧ o.depth = q.2 ∧ o.oversized cfg = true ∧
    b.categories.lookup q.1 = some { services := o.services }
  waiting : (b.queue.map Prod.fst).Nodup
  keywords : CacheFits llm b.keywords ((rootOrigin index).services.filterMap index.lookup)

end Partway

/-- The categories that were made, after a node was split. -/
def madeBy (result : NodeSplitResult) (id : String) (depth : ℕ) (made : String → Option Origin) (k : String) : Option Origin :=
  if k ∈ result.subIds then some (result.origin id depth k) else made k

namespace Partway

variable {cfg : Config} {llm : Llm} {index : Dict String Service} {made : String → Option Origin} {b : Build} {id : String} {o : Origin}

variable (h : Partway cfg llm index made b)
include h

theorem exists_category (hmade : made id = some o) : ∃ cat, b.categories.lookup id = some cat := by
  rcases h.state hmade with ⟨hfresh, -⟩ | ⟨result, hsplit⟩
  · exact ⟨_, hfresh⟩
  · exact ⟨_, hsplit.category⟩

theorem contains_iff : b.categories.contains id = true ↔ ∃ o, made id = some o := by
  constructor
  · intro hcontains
    cases hmade : made id with
    | none => rw [Dict.contains, h.keys hmade] at hcontains; cases hcontains
    | some o => exact ⟨o, rfl⟩
  · rintro ⟨o, hmade⟩
    exact Option.isSome_iff_exists.mpr (h.exists_category hmade)

theorem made_eq_none (hnot : b.categories.contains id = false) : made id = none := by
  cases hmade : made id with
  | none => rfl
  | some o => exact absurd (h.contains_iff.mpr ⟨o, hmade⟩) (by rw [hnot]; exact Bool.false_ne_true)

theorem childrenOf_none (hmade : made id = none) : b.categories.childrenOf id = [] := by
  rw [Categories.childrenOf, h.keys hmade]
  rfl

theorem nodeServices (hcat : b.categories.lookup id = some { services := o.services }) :
    b.nodeServices id = o.services.filterMap index.lookup := by
  rw [Build.nodeServices, Categories.servicesOf, hcat, funext h.indexed]
  rfl

theorem cacheFits (hmade : made id = some o) (hroot : decide (id = "root") = true) :
    CacheFits llm b.keywords (o.services.filterMap index.lookup) := by
  rw [of_decide_eq_true hroot] at hmade
  obtain rfl := Option.some.inj (h.root.symm.trans hmade)
  exact h.keywords

theorem splitOf (hmade : made id = some o)
    (hcat : b.categories.lookup id = some { services := o.services }) : (b.splitOf cfg llm id).1 = splitOrigin cfg llm index id o := by
  have hinfo : b.nodeInfo id = { id, info := o.info } := by rw [Build.nodeInfo, h.classes, hmade]; rfl
  rw [Build.splitOf, h.nodeServices hcat, hinfo, splitNode_cached (h.cacheFits hmade)]
  rfl

theorem keywords_splitOf (hmade : made id = some o)
    (hcat : b.categories.lookup id = some { services := o.services }) :
    CacheFits llm (b.splitOf cfg llm id).2 ((rootOrigin index).services.filterMap index.lookup) := by
  rw [Build.splitOf, h.nodeServices hcat]
  rcases splitNode_keywords (h.cacheFits hmade) with heq | ⟨hroot, heq⟩
  · rw [heq]
    exact h.keywords
  · rw [of_decide_eq_true hroot] at hmade
    obtain rfl := Option.some.inj (h.root.symm.trans hmade)
    exact .inr heq

theorem copy {b' : Build} (hindexed : ∀ sid, b'.index.lookup sid = index.lookup sid)
    (hcategories : b'.categories = b.categories) (hclasses : ∀ id, b'.classes.lookup id = b.classes.lookup id) (hqueue : b'.queue = b.queue)
    (hkeywords : CacheFits llm b'.keywords ((rootOrigin index).services.filterMap index.lookup)) : Partway cfg llm index made b' where
  indexed := hindexed
  root := h.root
  derived := h.derived
  keys := hcategories ▸ h.keys
  classes id := (hclasses id).trans (h.classes id)
  state := by
    rw [hcategories, hqueue]
    exact h.state
  above := hcategories ▸ h.above
  queued := by
    rw [hcategories, hqueue]
    exact h.queued
  waiting := hqueue ▸ h.waiting
  keywords := hkeywords

theorem idle {depth : ℕ} {queue : List (String × ℕ)} (hqueue : b.queue = (id, depth) :: queue)
    (hmade : made id = some o) (hempty : o.services = []) : Partway cfg llm index made { b with queue } := by
  have hsub : ∀ q ∈ queue, q ∈ b.queue := fun q hq => hqueue ▸ List.mem_cons_of_mem _ hq
  refine { h with state := ?_, queued := fun q hq => h.queued q (hsub q hq), waiting := ?_ }
  · intro k ok hk
    rcases h.state hk with ⟨hfresh, hwaits⟩ | hsplit
    · refine .inl ⟨hfresh, fun hdue => ?_⟩
      rcases List.mem_cons.mp (hqueue ▸ hwaits hdue) with heq | hin
      · -- the node itself lists nothing, so it is not due
        obtain ⟨rfl, -⟩ := Prod.mk.inj heq
        obtain rfl := Option.some.inj (hk.symm.trans hmade)
        exact absurd hempty hdue.2
      · exact hin
    · exact .inr hsplit
  · have hnodup := h.waiting
    rw [hqueue] at hnodup
    exact (List.nodup_cons.mp hnodup).2

omit h

section Split

variable {depth : ℕ} {queue : List (String × ℕ)} {result : NodeSplitResult}

theorem split (h : Partway cfg llm index made b) (hqueue : b.queue = (id, depth) :: queue) (hmade : made id = some o)
    (hdepth : o.depth = depth) (hcat : b.categories.lookup id = some { services := o.services }) (hdue : o.Due cfg)
    (hresult : splitOrigin cfg llm index id o = some result) (hnew : ∀ sub ∈ result.subIds, made sub = none)
    (honce : ∀ row ∈ result.assignments.rows, row.2.Nodup) {keywords : Option Keywords}
    (hkeywords : CacheFits llm keywords ((rootOrigin index).services.filterMap index.lookup)) :
    Partway cfg llm index (madeBy result id depth made) { b.apply id result with
      keywords, queue := queue ++ Build.oversized cfg (b.apply id result).categories result (depth + 1) } := by
  subst hdepth
  have hnot : id ∉ result.subIds := fun hmem => by rw [hnew id hmem] at hmade; cases hmade
  have hleaf : b.categories.childrenOf id = [] := by rw [Categories.childrenOf, hcat]; rfl
  -- categories from before keep their origins
  have hold : ∀ {k ok}, made k = some ok → k ∉ result.subIds := fun hk hmem => by rw [hnew _ hmem] at hk; cases hk
  have hkeep : ∀ {k ok}, made k = some ok → madeBy result id o.depth made k = some ok := fun hk => by rw [madeBy, if_neg (hold hk), hk]
  have hcategory : ∀ {k ok}, made k = some ok → k ≠ id → (applySplitResult b.categories id result).lookup k = b.categories.lookup k := by
    intro k ok hk hne
    rw [lookup_applySplitResult, if_neg (hold hk), if_neg hne]
  have hqueued : ∀ q ∈ queue, q ∈ b.queue ∧ q.1 ≠ id := by
    intro q hq
    have hnodup := h.waiting
    rw [hqueue, List.map_cons, List.nodup_cons] at hnodup
    exact ⟨hqueue ▸ List.mem_cons_of_mem _ hq, fun heq => hnodup.1 (List.mem_map.mpr ⟨q, hq, heq⟩)⟩
  have hover : ∀ q, q ∈ Build.oversized cfg (b.apply id result).categories result (o.depth + 1) ↔
      q.1 ∈ result.subIds ∧ q.2 = o.depth + 1 ∧ (result.origin id o.depth q.1).oversized cfg = true := by
    rintro ⟨k, d⟩
    simp only [Build.oversized, List.mem_map, List.mem_filter, Prod.mk.injEq]
    have hservices : ∀ k ∈ result.subIds, (b.apply id result).categories.servicesOf k = sorted (subServices result.assignments k) := by
      intro k hk
      rw [Build.apply, servicesOf_applySplitResult, if_pos hk]
    constructor
    · rintro ⟨k, ⟨hk, hsize⟩, rfl, rfl⟩
      rw [hservices k hk] at hsize
      exact ⟨hk, rfl, hsize⟩
    · rintro ⟨hk, rfl, hsize⟩
      refine ⟨k, ⟨hk, ?_⟩, rfl, rfl⟩
      rw [hservices k hk]
      exact hsize
  constructor
  · exact h.indexed
  · exact hkeep h.root
  · intro k ok hk
    rw [madeBy] at hk
    split at hk
    · rename_i hsub
      obtain rfl := Option.some.inj hk
      exact .sub (h.derived hmade) hdue hresult hsub
    · exact h.derived hk
  · intro k hk
    rw [madeBy] at hk
    split at hk
    · cases hk
    rename_i hsub
    rw [Build.apply, lookup_applySplitResult, if_neg hsub, if_neg (fun heq => by rw [heq, hmade] at hk; cases hk), h.keys hk]
  · intro k
    rw [Build.apply, lookup_applyClasses, madeBy]
    split
    · rfl
    · exact h.classes k
  · intro k ok hk
    rw [madeBy] at hk
    split at hk
    · -- a new category is as it was made
      rename_i hsub
      obtain rfl := Option.some.inj hk
      refine .inl ⟨?_, fun hdue => ?_⟩
      · rw [Build.apply, lookup_applySplitResult, if_pos hsub]
        rfl
      · exact List.mem_append_right _ ((hover _).mpr ⟨hsub, rfl, hdue.1⟩)
    · by_cases hk' : k = id
      · subst hk'
        obtain rfl := Option.some.inj (hk.symm.trans hmade)
        refine .inr ⟨result, hdue, hresult, honce, ?_, fun sub hsub => by rw [madeBy, if_pos hsub]⟩
        rw [Build.apply, lookup_applySplitResult, if_neg hnot, if_pos rfl]
      · rcases h.state hk with ⟨hfresh, hwaits⟩ | ⟨r, hsplit⟩
        · refine .inl ⟨(hcategory hk hk').trans hfresh, fun hdue => List.mem_append_left _ ?_⟩
          rcases List.mem_cons.mp (hqueue ▸ hwaits hdue) with heq | hin
          · exact absurd (Prod.mk.inj heq).1 hk'
          exact hin
        · exact .inr ⟨r, { hsplit with
            category := (hcategory hk hk').trans hsplit.category
            subs := fun sub hsub => hkeep (hsplit.subs sub hsub) }⟩
  · intro k ok hk hne
    rw [madeBy] at hk
    split at hk
    · rename_i hsub
      obtain rfl := Option.some.inj hk
      have hchildren : (b.apply id result).categories.childrenOf id = result.subIds := by
        rw [Build.apply, childrenOf_applySplitResult, if_neg hnot, if_pos rfl]
      exact hchildren.symm ▸ hsub
    · have hbelow := h.above hk hne
      -- the parent has children, so it is neither new nor the node
      have hparent : ok.parent ∉ result.subIds := fun hmem => by
        rw [h.childrenOf_none (hnew _ hmem)] at hbelow
        cases hbelow
      have hother : ok.parent ≠ id := fun heq => by
        rw [heq, hleaf] at hbelow
        cases hbelow
      rw [Build.apply, childrenOf_applySplitResult, if_neg hparent, if_neg hother]
      exact hbelow
  · intro q hq
    rcases List.mem_append.mp hq with hq | hq
    · obtain ⟨hq, hne⟩ := hqueued q hq
      obtain ⟨oq, hq, hdepth, hsize, hfresh⟩ := h.queued q hq
      exact ⟨oq, hkeep hq, hdepth, hsize, (hcategory hq hne).trans hfresh⟩
    · obtain ⟨hsub, hdepth, hsize⟩ := (hover q).mp hq
      refine ⟨_, by rw [madeBy, if_pos hsub], hdepth.symm, hsize, ?_⟩
      rw [Build.apply, lookup_applySplitResult, if_pos hsub]
      rfl
  · have hsubs : ((Build.oversized cfg (b.apply id result).categories result (o.depth + 1)).map Prod.fst).Nodup := by
      rw [Build.oversized, List.map_map]
      exact (result.nodup_subIds.filter _).map fun _ _ heq => heq
    have hnodup := h.waiting
    rw [hqueue, List.map_cons, List.nodup_cons] at hnodup
    rw [List.map_append, List.nodup_append']
    refine ⟨hnodup.2, hsubs, ?_⟩
    intro k hk hsub
    obtain ⟨q, hq, rfl⟩ := List.mem_map.mp hk
    obtain ⟨q', hq', heq⟩ := List.mem_map.mp hsub
    obtain ⟨oq, hq, -⟩ := h.queued q (hqueued q hq).1
    exact hold hq (heq ▸ ((hover q').mp hq').1)
  · exact hkeywords

end Split

/-! ### One round -/

section Round

variable {depth : ℕ} {queue : List (String × ℕ)}

variable (h : Partway cfg llm index made b) (hrefine : 1 ≤ cfg.maxRefineIterations) (hnamed : Named index) (hphase : b.phase = .bfs)
include h hrefine hnamed hphase

theorem splitNext_cases (hqueue : b.queue = (id, depth) :: queue) :
    ∃ o, made id = some o ∧ o.depth = depth ∧ b.categories.lookup id = some { services := o.services } ∧
      ((o.services = [] ∧ b.splitNext cfg llm = { b with queue }) ∨
        (o.Due cfg ∧ splitOrigin cfg llm index id o = none ∧ (b.splitNext cfg llm).phase = .failed) ∨
        (o.Due cfg ∧ ∃ result keywords, splitOrigin cfg llm index id o = some result ∧ b.applied cfg llm = some (id, result) ∧
          CacheFits llm keywords ((rootOrigin index).services.filterMap index.lookup) ∧
          b.splitNext cfg llm = { b.apply id result with
            keywords, queue := queue ++ Build.oversized cfg (b.apply id result).categories result (depth + 1) })) := by
  obtain ⟨o, hmade, hdepth, hsize, hcat⟩ := h.queued (id, depth) (hqueue ▸ List.mem_cons_self)
  refine ⟨o, hmade, hdepth, hcat, ?_⟩
  have hservices : (b.nodeServices id).map (·.id) = o.services := by
    rw [h.nodeServices hcat]
    exact map_id_filterMap hnamed ((h.derived hmade).listed hrefine hnamed)
  have happlied : b.applied cfg llm =
      if b.nodeServices id = [] then none else (b.splitOf cfg llm id).1.map fun result => (id, result) := by
    simp [Build.applied, hphase, hqueue]
  have hkeywords := h.keywords_splitOf hmade hcat
  unfold Build.splitNext
  rw [hqueue]
  dsimp only
  split
  · rename_i hempty
    have hempty : b.nodeServices id = [] := hempty
    rw [hempty] at hservices
    exact .inl ⟨hservices.symm, rfl⟩
  · rename_i hsome
    have hsome : b.nodeServices id ≠ [] := hsome
    have hdue : o.Due cfg := ⟨hsize, fun hnil => hsome (List.map_eq_nil_iff.mp (hservices.trans hnil))⟩
    have hsplitOf : Build.splitOf cfg llm { b with queue } id = b.splitOf cfg llm id := rfl
    rw [if_neg hsome, h.splitOf hmade hcat] at happlied
    split
    · rename_i keywords hsplit
      rw [hsplitOf] at hsplit
      exact .inr (.inl ⟨hdue, by rw [← h.splitOf hmade hcat, hsplit], rfl⟩)
    · rename_i result keywords hsplit
      rw [hsplitOf] at hsplit
      have hresult : splitOrigin cfg llm index id o = some result := by rw [← h.splitOf hmade hcat, hsplit]
      rw [hsplit] at hkeywords
      refine .inr (.inr ⟨hdue, result, keywords, hresult, ?_, hkeywords, rfl⟩)
      rw [happlied, hresult]
      rfl

theorem splitNext (hqueue : b.queue = (id, depth) :: queue)
    (hsound : ∀ o result, made id = some o → b.categories.lookup id = some { services := o.services } → o.Due cfg →
      splitOrigin cfg llm index id o = some result → b.applied cfg llm = some (id, result) →
      (∀ sub ∈ result.subIds, made sub = none) ∧ ∀ row ∈ result.assignments.rows, row.2.Nodup) :
    ((b.splitNext cfg llm).phase = .failed ∧ ∃ o, made id = some o ∧ o.Due cfg ∧ splitOrigin cfg llm index id o = none) ∨
      ((b.splitNext cfg llm).phase = .bfs ∧
      ∃ (made' : String → Option Origin) (new : List String), Partway cfg llm index made' (b.splitNext cfg llm) ∧ new.Nodup ∧
        (∀ k ∈ new, made k = none ∧ made' k ≠ none) ∧ (∀ k o, made k = some o → made' k = some o) ∧
        (b.splitNext cfg llm).queue.length ≤ queue.length + new.length) := by
  obtain ⟨o, hmade, hdepth, hcat, hcases⟩ := h.splitNext_cases hrefine hnamed hphase hqueue
  rcases hcases with ⟨hempty, heq⟩ | ⟨hdue, hnone, hfailed⟩ | ⟨hdue, result, keywords, hresult, happlied, hkeywords, heq⟩
  · rw [heq]
    exact .inr ⟨hphase, made, [], h.idle hqueue hmade hempty, List.nodup_nil, nofun, fun _ _ hk => hk, le_rfl⟩
  · exact .inl ⟨hfailed, o, hmade, hdue, hnone⟩
  · obtain ⟨hnew, honce⟩ := hsound o result hmade hcat hdue hresult happlied
    have hpart := h.split hqueue hmade hdepth hcat hdue hresult hnew honce hkeywords
    rw [heq]
    refine .inr ⟨hphase, _, result.subIds, hpart, result.nodup_subIds, ?_, ?_, ?_⟩
    · intro k hk
      refine ⟨hnew k hk, ?_⟩
      rw [madeBy, if_pos hk]
      exact Option.some_ne_none _
    · intro k ok hk
      rw [madeBy, if_neg fun hmem => by rw [hnew k hmem] at hk; exact nomatch hk]
      exact hk
    · rw [List.length_append, Build.oversized, List.length_map]
      exact Nat.add_le_add_left (List.length_filter_le _ _) _

omit h hrefine hnamed hphase

end Round

/-! ### What a build that splits everything shows -/

theorem made_of_derived (h : Partway cfg llm index made b) (hdone : b.queue = []) (hderived : Derived cfg llm index id o) :
    made id = some o := by
  induction hderived with
  | root => exact h.root
  | @sub id o result sub _ hdue hresult hsub ih =>
    rcases h.state ih with ⟨-, hwaits⟩ | ⟨r, hsplit⟩
    · have hin := hwaits hdue
      rw [hdone] at hin
      cases hin
    · obtain rfl := Option.some.inj (hresult.symm.trans hsplit.gives)
      exact hsplit.subs sub hsub

end Partway

/-- No id is used twice, every split succeeds, and there are finitely many of them. -/
structure Closed (cfg : Config) (llm : Llm) (index : Dict String Service) : Prop where
  unique : ∀ {id o o'}, Derived cfg llm index id o → Derived cfg llm index id o' → o = o'
  splits : ∀ {id o}, Derived cfg llm index id o → o.Due cfg →
    ∃ result, splitOrigin cfg llm index id o = some result ∧ ∀ row ∈ result.assignments.rows, row.2.Nodup
  finite : ∃ ids : Finset String, ∀ {id o}, Derived cfg llm index id o → id ∈ ids

theorem Partway.closed {cfg : Config} {llm : Llm} {index : Dict String Service} {made : String → Option Origin} {b : Build}
    (h : Partway cfg llm index made b) (hdone : b.queue = []) : Closed cfg llm index where
  unique := by
    intro id o o' ho ho'
    exact Option.some.inj ((h.made_of_derived hdone ho).symm.trans (h.made_of_derived hdone ho'))
  splits := by
    intro id o ho hdue
    rcases h.state (h.made_of_derived hdone ho) with ⟨-, hwaits⟩ | ⟨result, hsplit⟩
    · have hin := hwaits hdue
      rw [hdone] at hin
      cases hin
    · exact ⟨result, hsplit.gives, hsplit.once⟩
  finite := by
    refine ⟨(b.categories.rows.map Prod.fst).toFinset, fun {id o} ho => ?_⟩
    rw [List.mem_toFinset, ← Dict.contains_iff_mem_keys]
    exact h.contains_iff.mpr ⟨o, h.made_of_derived hdone ho⟩

namespace Partway

variable {cfg : Config} {llm : Llm} {index : Dict String Service} {made made' : String → Option Origin} {b b' : Build}

/-! ### The end of the splitting -/

variable (h : Partway cfg llm index made b) (hdone : b.queue = []) (h' : Partway cfg llm index made' b') (hdone' : b'.queue = [])
include h hdone h' hdone'

theorem made_eq : made = made' := by
  funext id
  cases hmade : made id with
  | none =>
    cases hmade' : made' id with
    | none => rfl
    | some o => exact absurd (h.made_of_derived hdone (h'.derived hmade')) (by rw [hmade]; exact nofun)
  | some o => exact (h'.made_of_derived hdone' (h.derived hmade)).symm

omit h hdone h' hdone' in
theorem state_of_done (h : Partway cfg llm index made b) (hdone : b.queue = []) {id : String} {o : Origin} (hmade : made id = some o) :
    (¬ o.Due cfg ∧ b.categories.lookup id = some { services := o.services }) ∨
      ∃ result, SplitUp cfg llm index made b.categories id o result := by
  rcases h.state hmade with ⟨hfresh, hwaits⟩ | hsplit
  · refine .inl ⟨fun hdue => ?_, hfresh⟩
    have hin := hwaits hdue
    rw [hdone] at hin
    cases hin
  · exact .inr hsplit

theorem lookup_congr (id : String) : b.categories.lookup id = b'.categories.lookup id := by
  obtain rfl := h.made_eq hdone h' hdone'
  cases hmade : made id with
  | none => rw [h.keys hmade, h'.keys hmade]
  | some o =>
    rcases h.state_of_done hdone hmade with ⟨hnot, hfresh⟩ | ⟨result, hsplit⟩
    · rcases h'.state_of_done hdone' hmade with ⟨-, hfresh'⟩ | ⟨result', hsplit'⟩
      · rw [hfresh, hfresh']
      · exact absurd hsplit'.due hnot
    · rcases h'.state_of_done hdone' hmade with ⟨hnot, -⟩ | ⟨result', hsplit'⟩
      · exact absurd hsplit.due hnot
      obtain rfl := Option.some.inj (hsplit.gives.symm.trans hsplit'.gives)
      rw [hsplit.category, hsplit'.category]

theorem classes_congr (id : String) : b.classes.lookup id = b'.classes.lookup id := by
  rw [h.classes, h'.classes, h.made_eq hdone h' hdone']

omit h hdone h' hdone'

theorem new_subs (h : Partway cfg llm index made b) (hclosed : Closed cfg llm index) {id : String} {o : Origin} (hmade : made id = some o)
    (hcat : b.categories.lookup id = some { services := o.services }) (hdue : o.Due cfg) {result : NodeSplitResult}
    (hresult : splitOrigin cfg llm index id o = some result) : ∀ sub ∈ result.subIds, made sub = none := by
  intro sub hsub
  cases hsome : made sub with
  | none => rfl
  | some o' =>
    have hsame := hclosed.unique (h.derived hsome) (.sub (h.derived hmade) hdue hresult hsub)
    have hne : sub ≠ "root" := by
      rintro rfl
      have hdepth := congrArg Origin.depth ((Option.some.inj (h.root.symm.trans hsome)).trans hsame)
      cases hdepth
    -- it would be a child of the node, which has none
    have habove := h.above hsome hne
    rw [hsame] at habove
    have hleaf : b.categories.childrenOf id = [] := by rw [Categories.childrenOf, hcat]; rfl
    rw [show (result.origin id o.depth sub).parent = id from rfl, hleaf] at habove
    cases habove

theorem step (h : Partway cfg llm index made b) (hclosed : Closed cfg llm index) (hrefine : 1 ≤ cfg.maxRefineIterations)
    (hnamed : Named index) (hphase : b.phase = .bfs) {q : String × ℕ} {queue : List (String × ℕ)} (hqueue : b.queue = q :: queue) :
    (b.step cfg llm).phase = .bfs ∧ ∃ (made' : String → Option Origin) (new : List String), Partway cfg llm index made' (b.step cfg llm) ∧
      new.Nodup ∧ (∀ k ∈ new, made k = none ∧ made' k ≠ none) ∧ (∀ k o, made k = some o → made' k = some o) ∧
        (b.step cfg llm).queue.length ≤ queue.length + new.length := by
  obtain ⟨id, depth⟩ := q
  rw [Build.step, hphase]
  have hnext := h.splitNext hrefine hnamed hphase hqueue fun o result hmade hcat hdue hresult _ => by
    obtain ⟨r, hgives, honce⟩ := hclosed.splits (h.derived hmade) hdue
    obtain rfl := Option.some.inj (hresult.symm.trans hgives)
    exact ⟨h.new_subs hclosed hmade hcat hdue hresult, honce⟩
  rcases hnext with ⟨-, o, hmade, hdue, hnone⟩ | hnext
  · obtain ⟨result, hgives, -⟩ := hclosed.splits (h.derived hmade) hdue
    cases hnone.symm.trans hgives
  · exact hnext

theorem card_unmarked {ids : Finset String} {new : List String} (hnodup : new.Nodup) (hin : ∀ k ∈ new, k ∈ ids)
    (hnew : ∀ k ∈ new, made k = none ∧ made' k ≠ none) (hkeep : ∀ k o, made k = some o → made' k = some o) :
    (ids.filter fun k => made' k = none).card + new.length ≤ (ids.filter fun k => made k = none).card := by
  have hdisjoint : Disjoint (ids.filter fun k => made' k = none) new.toFinset := by
    rw [Finset.disjoint_left]
    intro k hk hknew
    exact (hnew k (List.mem_toFinset.mp hknew)).2 (Finset.mem_filter.mp hk).2
  rw [← List.toFinset_card_of_nodup hnodup, ← Finset.card_union_of_disjoint hdisjoint]
  refine Finset.card_le_card fun k hk => ?_
  rcases Finset.mem_union.mp hk with hk | hk
  · obtain ⟨hids, hnone⟩ := Finset.mem_filter.mp hk
    refine Finset.mem_filter.mpr ⟨hids, ?_⟩
    cases hmade : made k with
    | none => rfl
    | some o => exact nomatch hnone.symm.trans (hkeep k o hmade)
  · have hk := List.mem_toFinset.mp hk
    exact Finset.mem_filter.mpr ⟨hin k hk, (hnew k hk).1⟩

theorem ended (h : Partway cfg llm index made b) (hphase : b.phase = .bfs) (hqueue : b.queue = []) :
    Partway cfg llm index made (b.step cfg llm) ∧ (b.step cfg llm).phase = .crossDomain ∧ (b.step cfg llm).queue = [] := by
  have hstep : b.step cfg llm = { b with phase := .crossDomain } := by rw [Build.step, hphase, Build.splitNext, hqueue]
  rw [hstep]
  exact ⟨{ h with }, rfl, hqueue⟩

theorem completes (hclosed : Closed cfg llm index) (hrefine : 1 ≤ cfg.maxRefineIterations) (hnamed : Named index) {ids : Finset String}
    (hids : ∀ {id o}, Derived cfg llm index id o → id ∈ ids) : ∀ (n : ℕ) {made : String → Option Origin} {b : Build},
      Partway cfg llm index made b → b.phase = .bfs → (ids.filter fun k => made k = none).card + b.queue.length ≤ n →
      ∃ rounds made', Partway cfg llm index made' (run (Build.step cfg) b (List.replicate rounds llm)) ∧
        (run (Build.step cfg) b (List.replicate rounds llm)).phase = .crossDomain ∧
        (run (Build.step cfg) b (List.replicate rounds llm)).queue = [] := by
  intro n
  induction n with
  | zero =>
    intro made b h hphase hle
    exact ⟨1, made, h.ended hphase (List.length_eq_zero_iff.mp (by omega))⟩
  | succ n ih =>
    intro made b h hphase hle
    cases hqueue : b.queue with
    | nil => exact ⟨1, made, h.ended hphase hqueue⟩
    | cons q queue =>
      obtain ⟨hphase', made', new, h', hnodup, hnew, hkeep, hlength⟩ := h.step hclosed hrefine hnamed hphase hqueue
      have hin : ∀ k ∈ new, k ∈ ids := by
        intro k hk
        obtain ⟨o, hmade⟩ := Option.ne_none_iff_exists'.mp (hnew k hk).2
        exact hids (h'.derived hmade)
      have hcard := card_unmarked hnodup hin hnew hkeep
      rw [hqueue, List.length_cons] at hle
      obtain ⟨rounds, made'', hend⟩ := ih h' hphase' (by omega)
      exact ⟨rounds + 1, made'', hend⟩

end Partway

end AgentProtocol.A2X
