-- SUMMARY: The scan of the tree finds what the queue of the first build had still to split, so the splitting may go on from it.
import AgentProtocol.A2X.Derivation

/-!
# Going on from the tree

`_find_pending_nodes` looks for the leaves that are too big, from the root down. In the tree of
a build that is partway it finds each category that is due and not yet split, once, at its own
depth. It also finds those again that a split left as they were, and they are split to no effect.
-/

namespace AgentProtocol.A2X

open Lib

namespace Partway

variable {cfg : Config} {llm : Llm} {index : Dict String Service} {made : String → Option Origin} {b : Build} {id : String} {o : Origin}

/-! ## The tree -/

variable (h : Partway cfg llm index made b)
include h

variable (hmade : made id = some o) {sub : String} (hsub : sub ∈ b.categories.childrenOf id)
include hmade hsub

theorem splitUp_of_mem :
    ∃ result, SplitUp cfg llm index made b.categories id o result ∧ b.categories.childrenOf id = result.subIds := by
  rcases h.state hmade with ⟨hfresh, -⟩ | ⟨result, hsplit⟩
  · rw [Categories.childrenOf, hfresh] at hsub
    cases hsub
  · refine ⟨result, hsplit, ?_⟩
    rw [Categories.childrenOf, hsplit.category]
    rfl

theorem made_child : ∃ result : NodeSplitResult, made sub = some (result.origin id o.depth sub) := by
  obtain ⟨result, hsplit, hchildren⟩ := h.splitUp_of_mem hmade hsub
  exact ⟨result, hsplit.subs sub (hchildren ▸ hsub)⟩

omit hmade hsub

theorem made_of_mem {sub : String} (hsub : sub ∈ b.categories.childrenOf id) : ∃ o, made id = some o := by
  cases hmade : made id with
  | none =>
    rw [h.childrenOf_none hmade] at hsub
    cases hsub
  | some o => exact ⟨o, rfl⟩

theorem exists_parent (hmade : made id = some o) (hne : id ≠ "root") :
    ∃ op, made o.parent = some op ∧ id ∈ b.categories.childrenOf o.parent ∧ o.depth = op.depth + 1 := by
  have habove := h.above hmade hne
  obtain ⟨op, hop⟩ := h.made_of_mem habove
  obtain ⟨result, hchild⟩ := h.made_child hop habove
  refine ⟨op, hop, habove, ?_⟩
  rw [Option.some.inj (hmade.symm.trans hchild)]
  rfl

theorem reached : ∀ (n : ℕ) {id : String} {o : Origin}, made id = some o → o.depth = n →
    Reaches b.categories.childrenOf "root" id := by
  intro n
  induction n with
  | zero =>
    intro id o hmade hdepth
    by_cases hroot : id = "root"
    · exact hroot ▸ .refl
    · obtain ⟨op, -, -, hup⟩ := h.exists_parent hmade hroot
      rw [hdepth] at hup
      cases hup
  | succ n ih =>
    intro id o hmade hdepth
    by_cases hroot : id = "root"
    · exact hroot ▸ .refl
    · obtain ⟨op, hop, hchild, hup⟩ := h.exists_parent hmade hroot
      exact (ih hop (by omega)).tail hchild

theorem tree :
    RootedTree "root" (fun id => b.categories.contains id = true) b.categories.childrenOf where
  root_mem := h.contains_iff.mpr ⟨_, h.root⟩
  child_mem := by
    intro p c hp hc
    obtain ⟨o, hmade⟩ := h.contains_iff.mp hp
    obtain ⟨result, hchild⟩ := h.made_child hmade hc
    exact h.contains_iff.mpr ⟨_, hchild⟩
  root_top := by
    intro p hp hroot
    obtain ⟨o, hmade⟩ := h.contains_iff.mp hp
    obtain ⟨result, hchild⟩ := h.made_child hmade hroot
    -- the root would be below something
    have hdepth := congrArg Origin.depth (Option.some.inj (h.root.symm.trans hchild))
    cases hdepth
  parent := by
    intro c hc hne
    obtain ⟨o, hmade⟩ := h.contains_iff.mp hc
    obtain ⟨op, hop, hchild, -⟩ := h.exists_parent hmade hne
    refine ⟨o.parent, ⟨h.contains_iff.mpr ⟨op, hop⟩, hchild⟩, ?_⟩
    rintro p ⟨hp, hpc⟩
    obtain ⟨o', hp⟩ := h.contains_iff.mp hp
    obtain ⟨result, hfrom⟩ := h.made_child hp hpc
    rw [Option.some.inj (hmade.symm.trans hfrom)]
    rfl
  reached := by
    intro c hc
    obtain ⟨o, hmade⟩ := h.contains_iff.mp hc
    exact h.reached o.depth hmade rfl

theorem exists_path : ∀ (n : ℕ) {id : String} {o : Origin}, made id = some o → o.depth = n →
    ∃ path : List String, path.Nodup ∧ path.length = n + 1 ∧ ∀ k ∈ path, ∃ ok, made k = some ok ∧ ok.depth ≤ n := by
  intro n
  induction n with
  | zero =>
    intro id o hmade hdepth
    refine ⟨[id], List.nodup_singleton id, rfl, ?_⟩
    intro k hk
    rw [List.mem_singleton.mp hk]
    exact ⟨o, hmade, hdepth.le⟩
  | succ n ih =>
    intro id o hmade hdepth
    have hne : id ≠ "root" := by
      rintro rfl
      rw [← Option.some.inj (h.root.symm.trans hmade)] at hdepth
      cases hdepth
    obtain ⟨op, hop, -, hup⟩ := h.exists_parent hmade hne
    obtain ⟨path, hnodup, hlength, hpath⟩ := ih hop (by omega)
    refine ⟨id :: path, List.nodup_cons.mpr ⟨?_, hnodup⟩, by rw [List.length_cons, hlength], ?_⟩
    · intro hmem
      obtain ⟨ok, hk, hle⟩ := hpath id hmem
      rw [← Option.some.inj (hmade.symm.trans hk), hdepth] at hle
      omega
    · intro k hk
      rcases List.mem_cons.mp hk with rfl | hk
      · exact ⟨o, hmade, hdepth.le⟩
      · obtain ⟨ok, hk, hle⟩ := hpath k hk
        exact ⟨ok, hk, by omega⟩

theorem depth_lt (hmade : made id = some o) : o.depth < b.categories.rows.length := by
  obtain ⟨path, hnodup, hlength, hpath⟩ := h.exists_path o.depth hmade rfl
  have hsub : path ⊆ b.categories.rows.map Prod.fst := by
    intro k hk
    obtain ⟨ok, hk, -⟩ := hpath k hk
    exact Dict.contains_iff_mem_keys.mp (h.contains_iff.mpr ⟨ok, hk⟩)
  have hle := (hnodup.subperm hsub).length_le
  rw [hlength, List.length_map] at hle
  omega

omit h

end Partway

/-! ## The scan -/

namespace Closed

variable {cfg : Config} {llm : Llm} {index : Dict String Service} {id : String} {o : Origin}

theorem nodup_services (h : Closed cfg llm index) (hderived : Derived cfg llm index id o) : o.services.Nodup := by
  cases hderived with
  | root => exact nodup_sorted.mpr index.nodup
  | sub hparent hdue hresult hsub =>
    obtain ⟨result, hgives, honce⟩ := h.splits hparent hdue
    obtain rfl := Option.some.inj (hresult.symm.trans hgives)
    exact nodup_sorted.mpr (nodup_subServices honce _)

theorem sorted_unclassified (h : Closed cfg llm index) (hrefine : 1 ≤ cfg.maxRefineIterations) (hnamed : Named index)
    (hderived : Derived cfg llm index id o) {result : NodeSplitResult} (hresult : splitOrigin cfg llm index id o = some result)
    (hnone : result.subIds = []) : sorted result.unclassifiedServiceIds = o.services := by
  have hsplits := hderived.splits hrefine hnamed hresult
  have hperm : result.unclassifiedServiceIds.Perm o.services := by
    refine (List.perm_ext_iff_of_nodup hsplits.nodup (h.nodup_services hderived)).mpr fun sid => ?_
    constructor
    · exact hsplits.of_unclassified
    · intro hsid
      rcases hsplits.placed hsid with hstay | ⟨sub, hsub, -⟩
      · exact hstay
      · rw [hnone] at hsub
        cases hsub
  rw [sorted_congr hperm]
  exact hderived.sorted_services

end Closed

namespace Partway

variable {cfg : Config} {llm : Llm} {index : Dict String Service} {made : String → Option Origin} {b : Build}

variable (h : Partway cfg llm index made b) (hclosed : Closed cfg llm index) (hrefine : 1 ≤ cfg.maxRefineIterations) (hnamed : Named index)
include h hclosed hrefine hnamed

theorem leaf {id : String} {o : Origin} (hmade : made id = some o) (hleaf : b.categories.childrenOf id = []) :
    b.categories.lookup id = some { services := o.services } := by
  rcases h.state hmade with ⟨hfresh, -⟩ | ⟨result, hsplit⟩
  · exact hfresh
  · have hnone : result.subIds = [] := by
      rw [Categories.childrenOf, hsplit.category] at hleaf
      exact hleaf
    rw [hsplit.category, hnone, hclosed.sorted_unclassified hrefine hnamed (h.derived hmade) hsplit.gives hnone]

theorem of_mem_scan : ∀ (fuel : ℕ) {id : String} {o : Origin}, made id = some o → ∀ q ∈ scan cfg b.categories fuel id o.depth,
      Reaches b.categories.childrenOf id q.1 ∧ ∃ oq, made q.1 = some oq ∧ oq.depth = q.2 ∧ oq.oversized cfg = true ∧
        b.categories.lookup q.1 = some { services := oq.services } := by
  intro fuel
  induction fuel with
  | zero => intro _ _ _ _ hq; cases hq
  | succ fuel ih =>
    intro id o hmade q hq
    rw [scan] at hq
    split at hq
    · rename_i hleaf
      have hcat := h.leaf hclosed hrefine hnamed hmade hleaf
      split at hq
      · rename_i hsize
        obtain rfl := List.mem_singleton.mp hq
        rw [Categories.servicesOf, hcat] at hsize
        exact ⟨.refl, o, hmade, rfl, hsize, hcat⟩
      · cases hq
    · obtain ⟨child, hchild, hq⟩ := List.mem_flatMap.mp hq
      obtain ⟨result, hmadechild⟩ := h.made_child hmade hchild
      obtain ⟨hreach, hfound⟩ := ih hmadechild q hq
      exact ⟨.head hchild hreach, hfound⟩

omit h hclosed hrefine hnamed in
theorem depth_le (h : Partway cfg llm index made b) {id k : String} (hreach : Reaches b.categories.childrenOf id k) :
    ∀ {o ok : Origin}, made id = some o → made k = some ok → o.depth ≤ ok.depth := by
  induction hreach using Relation.ReflTransGen.head_induction_on with
  | refl =>
    intro o ok hmade hk
    rw [Option.some.inj (hmade.symm.trans hk)]
  | head hchild hreach ih =>
    intro o ok hmade hk
    obtain ⟨result, hmadechild⟩ := h.made_child hmade hchild
    exact (Nat.le_succ _).trans (ih hmadechild hk)

omit h hclosed hrefine hnamed in
theorem mem_scan (h : Partway cfg llm index made b) {id k : String} (hreach : Reaches b.categories.childrenOf id k) :
    ∀ (fuel : ℕ) {o ok : Origin}, made id = some o → made k = some ok → ok.depth < fuel + o.depth → ok.oversized cfg = true →
      b.categories.lookup k = some { services := ok.services } → (k, ok.depth) ∈ scan cfg b.categories fuel id o.depth := by
  induction hreach using Relation.ReflTransGen.head_induction_on with
  | refl =>
    intro fuel o ok hmade hk hfuel hsize hcat
    obtain rfl := Option.some.inj (hmade.symm.trans hk)
    obtain ⟨fuel, rfl⟩ : ∃ n, fuel = n + 1 := ⟨fuel - 1, by omega⟩
    have hleaf : b.categories.childrenOf k = [] := by rw [Categories.childrenOf, hcat]; rfl
    have hservices : b.categories.servicesOf k = o.services := by rw [Categories.servicesOf, hcat]; rfl
    rw [scan, hleaf, hservices]
    have hsize : (decide (cfg.maxServiceSize < o.services.length) && cfg.mayDeepen o.depth) = true := hsize
    dsimp only
    rw [if_pos hsize]
    exact List.mem_singleton_self _
  | @head id child hchild hreach ih =>
    intro fuel o ok hmade hk hfuel hsize hcat
    obtain ⟨result, hmadechild⟩ := h.made_child hmade hchild
    have hdepth : (result.origin id o.depth child).depth = o.depth + 1 := rfl
    have hlow := h.depth_le hreach hmadechild hk
    obtain ⟨fuel, rfl⟩ : ∃ n, fuel = n + 1 := ⟨fuel - 1, by omega⟩
    have hfound := ih fuel hmadechild hk (by omega) hsize hcat
    rw [scan]
    split
    · rename_i hleaf
      rw [hleaf] at hchild
      cases hchild
    · exact List.mem_flatMap.mpr ⟨child, hchild, hfound⟩

theorem nodup_scan : ∀ (fuel : ℕ) {id : String} {o : Origin}, made id = some o →
      ((scan cfg b.categories fuel id o.depth).map Prod.fst).Nodup := by
  intro fuel
  induction fuel with
  | zero => exact fun _ => List.nodup_nil
  | succ fuel ih =>
    intro id o hmade
    rw [scan]
    split
    · split
      · exact List.nodup_singleton _
      · exact List.nodup_nil
    · rename_i hsome
      rw [List.map_flatMap]
      have hnodup : (b.categories.childrenOf id).Nodup := by
        obtain ⟨child, hchild⟩ := List.exists_mem_of_ne_nil _ hsome
        obtain ⟨result, -, hchildren⟩ := h.splitUp_of_mem hmade hchild
        exact hchildren ▸ result.nodup_subIds
      refine List.nodup_flatMap.mpr ⟨?_, ?_⟩
      · intro child hchild
        obtain ⟨result, hmadechild⟩ := h.made_child hmade hchild
        exact ih hmadechild
      · refine List.Pairwise.imp_of_mem ?_ hnodup
        intro c c' hc hc' hne
        rw [Function.onFun, List.disjoint_left]
        intro k hk hk'
        obtain ⟨q, hq, rfl⟩ := List.mem_map.mp hk
        obtain ⟨q', hq', heq⟩ := List.mem_map.mp hk'
        obtain ⟨result, hmadec⟩ := h.made_child hmade hc
        obtain ⟨result', hmadec'⟩ := h.made_child hmade hc'
        have hreach := (h.of_mem_scan hclosed hrefine hnamed fuel hmadec q hq).1
        have hreach' := (h.of_mem_scan hclosed hrefine hnamed fuel hmadec' q' hq').1
        exact hne (h.tree.eq_of_common (h.contains_iff.mpr ⟨o, hmade⟩) hc hc' hreach (heq ▸ hreach'))

theorem load {b' : Build} (hindexed : ∀ sid, b'.index.lookup sid = index.lookup sid)
    (hcategories : b'.categories = b.categories) (hclasses : ∀ id, b'.classes.lookup id = b.classes.lookup id)
    (hqueue : b'.queue = findPendingNodes cfg b.categories)
    (hkeywords : CacheFits llm b'.keywords ((rootOrigin index).services.filterMap index.lookup)) :
    Partway cfg llm index made b' where
  indexed := hindexed
  root := h.root
  derived := h.derived
  keys := by
    rw [hcategories]
    exact h.keys
  classes id := (hclasses id).trans (h.classes id)
  state := by
    intro id o hmade
    rw [hcategories, hqueue]
    rcases h.state hmade with ⟨hfresh, -⟩ | hsplit
    · refine .inl ⟨hfresh, fun hdue => ?_⟩
      have hlow := h.depth_lt hmade
      have hreach := h.tree.reached (h.contains_iff.mpr ⟨o, hmade⟩)
      exact h.mem_scan hreach (b.categories.rows.length + 1) h.root hmade (by omega) hdue.1 hfresh
    · exact .inr hsplit
  above := by
    rw [hcategories]
    exact h.above
  queued := by
    rw [hcategories, hqueue]
    exact fun q hq => (h.of_mem_scan hclosed hrefine hnamed _ h.root q hq).2
  waiting := by
    rw [hqueue]
    exact h.nodup_scan hclosed hrefine hnamed _ h.root
  keywords := hkeywords

omit h hclosed hrefine hnamed

end Partway

end AgentProtocol.A2X
