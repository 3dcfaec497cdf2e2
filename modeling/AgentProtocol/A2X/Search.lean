-- SUMMARY: The search engine: navigation from the root of a taxonomy, grouping and selection of services, all of which are listed in a reachable category.
import AgentProtocol.Lib.RootedTree
import AgentProtocol.A2X.Taxonomy

/-!
# The search engine

An engine holds what the taxonomy and the service list were when it was made. A search goes down
from the root to the categories that a model selects, collects the services that they list, and
has the model select among these. Calls run side by side, so in what order they end is part of
what is given. A prompt for categories is given by the way from the root, and one for services by
the services that it shows.
-/

namespace AgentProtocol.A2X

open Lib

/-- `VALID_MODES`. -/
inductive Mode where
  | getAll
  | getOne
  | getImportant
  deriving DecidableEq

def Mode.ofString? : String → Option Mode
  | "get_all" => some .getAll
  | "get_one" => some .getOne
  | "get_important" => some .getImportant
  | _ => none

structure SearchResult where
  id : String
  name : String
  description : String
  deriving DecidableEq

structure TerminalNode where
  categoryId : String
  serviceIds : List String

/-- A group of services, with the way from the root to each of its categories. -/
structure ServiceGroup where
  serviceIds : List String
  paths : Dict String (List String)

/-- What the model answers in a search, as the numbers in its replies; a call that fails has none. -/
structure Answers where
  categories : Mode → List String → Option (List ℤ)
  /-- The order in which the navigations into the selected categories end; one that fails is left out. -/
  navigated : Mode → List String → List ℕ
  services : Mode → List String → Option (List ℤ)
  /-- The order in which the selections end. -/
  selected : Mode → List ℕ

structure Engine where
  mode : Mode
  categories : Categories
  services : Dict String Service

/-- The elements at the given places, each at most once. -/
def arranged {α : Type} (order : List ℕ) (l : List α) : List α := order.dedup.filterMap (l[·]?)

/-- `parse_selection`, from the numbers of a reply: places that count from zero. -/
def parseSelection (numbers : List ℤ) (max : ℕ) (mode : Mode) : List ℕ :=
  let indices := (numbers.filter fun n : ℤ => 1 ≤ n ∧ n ≤ max).map fun n => n.toNat - 1
  if mode = .getOne then indices.take 1 else indices

namespace Engine

/-! ## Navigation -/

def selectCategories (answers : Answers) (mode : Mode) (trail children : List String) : List String :=
  match answers.categories mode trail with
  | none => []
  | some numbers => (children.zipIdx.filter fun p => p.2 ∈ parseSelection numbers children.length mode).map Prod.fst

/-- `navigate`, with the recursion depth that is left. -/
def navigate (e : Engine) (answers : Answers) (mode : Mode) : ℕ → List String → String → List TerminalNode
  | 0, _, _ => []
  | depth + 1, trail, id =>
    let trail := trail ++ [id]
    let own := match e.categories.servicesOf id with
      | [] => []
      | serviceIds => [{ categoryId := id, serviceIds }]
    match e.categories.childrenOf id with
    | [] => own
    | children =>
      let chosen := selectCategories answers mode trail children
      (arranged (answers.navigated mode trail) (chosen.map (navigate e answers mode depth trail))).flatten ++ own

/-! ## Grouping -/

/-- `deduplicate`, after the services in `seen`. -/
def deduplicate : List String → List TerminalNode → List TerminalNode
  | _, [] => []
  | seen, node :: nodes =>
    match node.serviceIds.filter (· ∉ seen) with
    | [] => deduplicate seen nodes
    | unique => { node with serviceIds := unique } :: deduplicate (seen ++ unique) nodes

def parentMap (e : Engine) : Dict String String :=
  Dict.ofList (e.categories.rows.flatMap fun p => p.2.children.map fun child => (child, p.1))

/-- The loop of `_get_ancestors`, which ends in so many rounds when there are no cycles. -/
def ancestorsLoop (parents : Dict String String) : ℕ → String → List String
  | 0, _ => []
  | fuel + 1, id => if id = "" then [] else ((parents.lookup id).elim [] (ancestorsLoop parents fuel)) ++ [id]

def getAncestors (e : Engine) (id : String) : List String := ancestorsLoop e.parentMap (e.categories.rows.length + 1) id

def lcaDepth (a b : List String) : ℤ := ((a.zip b).takeWhile fun p => p.1 = p.2).length - 1

def minGroupSize : ℕ := 30

/-- The place of the smallest group below the minimal size. -/
def smallest (groups : List ServiceGroup) : Option ℕ :=
  (groups.zipIdx.foldl (fun (best : Option (ℕ × ℕ)) p =>
    let size := p.1.serviceIds.length
    if size < minGroupSize && best.elim true (size < ·.1) then some (size, p.2) else best) none).map Prod.snd

/-- The depth of the lowest common ancestor of two groups. -/
def groupLca (a b : ServiceGroup) : Option ℤ :=
  (a.paths.rows.flatMap fun p => b.paths.rows.map fun q => lcaDepth p.2 q.2).max?

/-- The place of the group that is closest to the one at `small`. -/
def nearest (groups : List ServiceGroup) (small : ℕ) (source : ServiceGroup) : Option ℕ :=
  (groups.zipIdx.foldl (fun (best : Option ℕ × ℤ) p =>
    if p.2 = small then best
    else match groupLca source p.1 with
      | none => best
      | some lca => if best.2 < lca then (some p.2, lca) else best) (none, -1)).1

def mergeInto (target source : ServiceGroup) : ServiceGroup where
  serviceIds := source.serviceIds.foldl (fun ids sid => if sid ∈ ids then ids else ids ++ [sid]) target.serviceIds
  paths := target.paths.insertAll source.paths.rows

/-- One round of the loop of `merge_small_groups`, unless there is nothing to merge. -/
def mergeOnce (groups : List ServiceGroup) : Option (List ServiceGroup) := do
  let small ← smallest groups
  let source ← groups[small]?
  let best ← nearest groups small source
  let target ← groups[best]?
  pure ((groups.set best (mergeInto target source)).eraseIdx small)

/-- The loop; each round leaves one group less. -/
def mergeLoop : ℕ → List ServiceGroup → List ServiceGroup
  | 0, groups => groups
  | fuel + 1, groups =>
    if groups.length ≤ 1 then groups else (mergeOnce groups).elim groups (mergeLoop fuel)

def mergeSmallGroups (e : Engine) (nodes : List TerminalNode) : List ServiceGroup :=
  mergeLoop nodes.length (nodes.map fun node =>
    { serviceIds := node.serviceIds, paths := Dict.ofList [(node.categoryId, e.getAncestors node.categoryId)] })

/-! ## Selection -/

/-- The result for a service, by what `_get_service_info` gives. -/
def result (e : Engine) (sid : String) : SearchResult :=
  match e.services.lookup sid with
  | some service => { id := sid, name := service.name, description := service.description }
  | none => { id := sid, name := sid, description := "" }

def selectForGroup (e : Engine) (answers : Answers) (mode : Mode) (group : ServiceGroup) : List SearchResult :=
  match answers.services mode group.serviceIds with
  | none => []
  | some numbers => (parseSelection numbers group.serviceIds.length mode).filterMap fun i => (group.serviceIds[i]?).map e.result

/-- The first result for each service. -/
def uniqueResults (results : List SearchResult) : List SearchResult :=
  results.foldl (fun unique r => if unique.any (·.id = r.id) then unique else unique ++ [r]) []

/-- `_search_internal` in a mode, except for the fallback. -/
def searchIn (e : Engine) (answers : Answers) (mode : Mode) : List SearchResult :=
  let nodes := e.navigate answers mode (e.categories.rows.length + 1) [] "root"
  let groups := e.mergeSmallGroups (deduplicate [] nodes)
  uniqueResults (arranged (answers.selected mode) (groups.map (e.selectForGroup answers mode))).flatten

/-- `search`: if nothing is found to be the one service, the first important one is taken. -/
def search (e : Engine) (answers : Answers) : List SearchResult :=
  let results := e.searchIn answers e.mode
  if e.mode = .getOne ∧ results = [] then (e.searchIn answers .getImportant).take 1 else results

/-! ## Where results come from -/

def Listed (categories : Categories) (sid : String) : Prop :=
  ∃ id, Reaches categories.childrenOf "root" id ∧ sid ∈ categories.servicesOf id

section Results

variable {e : Engine} {answers : Answers} {mode : Mode}

theorem mem_of_mem_arranged {α : Type} {order : List ℕ} {l : List α} {a : α} (h : a ∈ arranged order l) : a ∈ l := by
  obtain ⟨i, -, hi⟩ := List.mem_filterMap.mp h
  exact List.mem_of_getElem? hi

theorem mem_selectCategories {trail children : List String} {id : String} (h : id ∈ selectCategories answers mode trail children) :
    id ∈ children := by
  unfold selectCategories at h
  split at h
  · cases h
  obtain ⟨p, hp, rfl⟩ := List.mem_map.mp h
  exact List.fst_mem_of_mem_zipIdx (List.mem_filter.mp hp).1

theorem mem_navigate : ∀ {depth : ℕ} {trail : List String} {id : String} {node : TerminalNode},
    node ∈ e.navigate answers mode depth trail id →
    Reaches e.categories.childrenOf id node.categoryId ∧ node.serviceIds = e.categories.servicesOf node.categoryId
  | 0, _, _, _, h => nomatch h
  | depth + 1, trail, id, node, h => by
    rw [navigate] at h
    have hown : ∀ node ∈ (match e.categories.servicesOf id with
        | [] => []
        | serviceIds => [({ categoryId := id, serviceIds } : TerminalNode)]),
        Reaches e.categories.childrenOf id node.categoryId ∧ node.serviceIds = e.categories.servicesOf node.categoryId := by
      intro node hnode
      split at hnode
      · cases hnode
      obtain rfl := List.mem_singleton.mp hnode
      exact ⟨.refl, rfl⟩
    dsimp only at h
    split at h
    · exact hown node h
    · rcases List.mem_append.mp h with hbelow | hnode
      · -- one of the selected children was navigated
        obtain ⟨nodes, hnodes, hmem⟩ := List.mem_flatten.mp hbelow
        obtain ⟨child, hchild, rfl⟩ := List.mem_map.mp (mem_of_mem_arranged hnodes)
        obtain ⟨hreach, hsame⟩ := mem_navigate hmem
        exact ⟨.head (mem_selectCategories hchild) hreach, hsame⟩
      · exact hown node hnode

theorem mem_deduplicate : ∀ {nodes : List TerminalNode} {seen : List String} {node : TerminalNode}, node ∈ deduplicate seen nodes →
    ∃ node' ∈ nodes, ∀ sid ∈ node.serviceIds, sid ∈ node'.serviceIds
  | first :: nodes, seen, node, h => by
    rw [deduplicate] at h
    split at h
    · obtain ⟨node', hnode', hsub⟩ := mem_deduplicate h
      exact ⟨node', List.mem_cons_of_mem _ hnode', hsub⟩
    · rcases List.mem_cons.mp h with rfl | h
      · exact ⟨first, List.mem_cons_self, fun sid hsid => (List.mem_filter.mp hsid).1⟩
      · obtain ⟨node', hnode', hsub⟩ := mem_deduplicate h
        exact ⟨node', List.mem_cons_of_mem _ hnode', hsub⟩

theorem mem_foldl_append {α : Type} {p : List α → α → Prop} [∀ l a, Decidable (p l a)] {x : α} : ∀ {more l : List α},
    x ∈ more.foldl (fun l a => if p l a then l else l ++ [a]) l → x ∈ l ∨ x ∈ more
  | [], _, h => .inl h
  | a :: more, l, h => by
    rw [List.foldl_cons] at h
    rcases mem_foldl_append h with hl | hmore
    · split at hl
      · exact .inl hl
      · rcases List.mem_append.mp hl with hl | ha
        · exact .inl hl
        · exact .inr (List.mem_singleton.mp ha ▸ List.mem_cons_self)
    · exact .inr (List.mem_cons_of_mem _ hmore)

theorem mem_mergeInto {target source : ServiceGroup} {sid : String} (h : sid ∈ (mergeInto target source).serviceIds) :
    sid ∈ target.serviceIds ∨ sid ∈ source.serviceIds := mem_foldl_append h

theorem mem_mergeOnce {groups groups' : List ServiceGroup} (h : mergeOnce groups = some groups') {group : ServiceGroup}
    (hgroup : group ∈ groups') {sid : String} (hsid : sid ∈ group.serviceIds) : ∃ old ∈ groups, sid ∈ old.serviceIds := by
  unfold mergeOnce at h
  simp only [Option.bind_eq_bind, Option.bind_eq_some_iff] at h
  obtain ⟨small, -, source, hsource, best, -, target, htarget, h⟩ := h
  obtain rfl := Option.some.inj h
  rcases List.mem_or_eq_of_mem_set (List.mem_of_mem_eraseIdx hgroup) with hold | rfl
  · exact ⟨group, hold, hsid⟩
  · rcases mem_mergeInto hsid with ht | hs
    · exact ⟨target, List.mem_of_getElem? htarget, ht⟩
    · exact ⟨source, List.mem_of_getElem? hsource, hs⟩

theorem mem_mergeLoop : ∀ {fuel : ℕ} {groups : List ServiceGroup} {group : ServiceGroup}, group ∈ mergeLoop fuel groups →
    ∀ sid ∈ group.serviceIds, ∃ old ∈ groups, sid ∈ old.serviceIds
  | 0, _, group, h, sid, hsid => ⟨group, h, hsid⟩
  | fuel + 1, groups, group, h, sid, hsid => by
    rw [mergeLoop] at h
    split at h
    · exact ⟨group, h, hsid⟩
    · cases hmerge : mergeOnce groups with
      | none =>
        rw [hmerge] at h
        exact ⟨group, h, hsid⟩
      | some groups' =>
        rw [hmerge] at h
        obtain ⟨between, hbetween, hmem⟩ := mem_mergeLoop h sid hsid
        exact mem_mergeOnce hmerge hbetween hmem

theorem mem_uniqueResults {results : List SearchResult} {r : SearchResult} (h : r ∈ uniqueResults results) : r ∈ results :=
  (mem_foldl_append h).resolve_left List.not_mem_nil

theorem mem_searchIn {r : SearchResult} (h : r ∈ e.searchIn answers mode) : Listed e.categories r.id ∧ r = e.result r.id := by
  obtain ⟨selection, hselection, hr⟩ := List.mem_flatten.mp (mem_uniqueResults h)
  obtain ⟨group, hgroup, rfl⟩ := List.mem_map.mp (mem_of_mem_arranged hselection)
  unfold selectForGroup at hr
  split at hr
  · cases hr
  obtain ⟨i, -, hi⟩ := List.mem_filterMap.mp hr
  obtain ⟨sid, hsid, rfl⟩ := Option.map_eq_some_iff.mp hi
  have hid : (e.result sid).id = sid := by
    unfold result
    split <;> rfl
  obtain ⟨old, hold, hmem⟩ := mem_mergeLoop hgroup sid (List.mem_of_getElem? hsid)
  obtain ⟨node, hnode, rfl⟩ := List.mem_map.mp hold
  obtain ⟨origin, horigin, hsub⟩ := mem_deduplicate hnode
  obtain ⟨hreach, hservices⟩ := mem_navigate horigin
  rw [hid]
  exact ⟨⟨origin.categoryId, hreach, hservices ▸ hsub sid hmem⟩, rfl⟩

theorem mem_search {r : SearchResult} (h : r ∈ e.search answers) : Listed e.categories r.id ∧ r = e.result r.id := by
  unfold search at h
  dsimp only at h
  split at h
  · exact mem_searchIn (List.mem_of_mem_take h)
  · exact mem_searchIn h

end Results

end Engine

end AgentProtocol.A2X
