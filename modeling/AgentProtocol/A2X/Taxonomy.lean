-- SUMMARY: The taxonomy builder: design, classification and refinement of one node, the breadth-first splitting of the tree, and the cross-domain phase.
import AgentProtocol.Lib.Table

/-!
# The taxonomy builder

`TaxonomyBuilder` splits the nodes of a tree of categories, beginning with a root that lists all
services. A model designs the subcategories of a node and says to which of them each service
belongs; what it answers is a parameter here, in the parsed form that the code goes on with. An
answer is missing if the call fails or what it gives cannot be parsed. The prompts are given by
what they are made from.
-/

namespace AgentProtocol.A2X

open Lib

/-! ## Data -/

structure Service where
  id : String
  name : String
  description : String

structure Category where
  children : List String := []
  services : List String := []
  deriving DecidableEq

/-- `taxonomy['categories']`. -/
abbrev Categories := Dict String Category

/-- An entry of `class_data['categories']`. A missing boundary or rule is empty. -/
structure ClassInfo where
  name : String
  description : String
  boundary : String := ""
  decisionRule : String := ""

/-- What `_get_node_info` gives: nothing but the id if the class is not known. -/
structure NodeInfo where
  id : String
  info : Option ClassInfo

structure Subcategory where
  info : ClassInfo
  associatedKeywords : List String := []

abbrev Subcategories := Dict String Subcategory

/-- The `category_ids` of each service. -/
abbrev Assignments := Dict String (List String)

abbrev Keywords := Dict String ℕ

/-- A category as the model describes it. -/
structure CategoryItem where
  id : Option String := none
  name : Option String := none
  description : Option String := none
  boundary : Option String := none
  decisionRule : Option String := none
  associatedKeywords : List String := []

/-- One of the `cross_assignments`. -/
structure Candidate where
  serviceId : String
  targetDomainId : String

structure Config where
  keywordThreshold : ℤ := 500
  /-- `int(n * generic_ratio)`. -/
  genericLimit : ℕ → ℤ
  deleteThreshold : ℤ := 2
  classificationRetries : ℕ := 2
  maxRefineIterations : ℕ := 3
  maxServiceSize : ℤ := 40
  maxDepth : Option ℤ := some 3
  enableCrossDomain : Bool := true

/-- The answers of the model, by what the prompts are made from. The first number is that of the
round, so that one prompt may be answered differently later on. -/
structure Llm where
  extract : Option NodeInfo → List Service → Keywords
  designFromKeywords : Keywords → ℕ → Option NodeInfo → Option (List CategoryItem)
  designFromDescriptions : List Service → Option NodeInfo → Option (List CategoryItem)
  /-- The ids that are reported not to be valid. -/
  validate : ℕ → Subcategories → List String
  redesign : ℕ → Subcategories → List String → Keywords → Option (List CategoryItem)
  /-- The second number is that of the attempt. -/
  classify : ℕ → ℕ → NodeInfo → Subcategories → Service → Option (List String)
  refine : ℕ → NodeInfo → Subcategories → Assignments → List Service → Option (List CategoryItem)
  identify : String → Option ClassInfo → List Service → List (String × Option ClassInfo) → List Candidate
  /-- The category, unless the confidence is low. -/
  place : Service → String → List (String × Option ClassInfo) → Option String

def sorted (l : List String) : List String := l.insertionSort (· ≤ ·)

/-! ## Category design -/

def CategoryItem.subcategory (item : CategoryItem) : Subcategory where
  info :=
    { name := item.name.getD "Unknown", description := item.description.getD ""
      boundary := item.boundary.getD "", decisionRule := item.decisionRule.getD "" }
  associatedKeywords := item.associatedKeywords

/-- One round of the loop that puts the categories under their ids. -/
def addItem (cats : Subcategories) (item : CategoryItem) : Subcategories :=
  cats.set (item.id.getD ("cat_" ++ toString (cats.rows.length + 1))) item.subcategory

def parseCategories (items : List CategoryItem) : Option Subcategories :=
  if items = [] then none else some (items.foldl addItem ∅)

/-- The keywords to be distributed anew: those of the violated categories, or else those of no other category. -/
def violatedKeywords (cats : Subcategories) (violated : List String) (keywords : Keywords) : Keywords :=
  let own := (cats.rows.filter fun p => p.1 ∈ violated).flatMap fun p => p.2.associatedKeywords
  let found := keywords.filter fun p => p.1 ∈ own
  if found.rows ≠ [] then found
  else
    let valid := (cats.rows.filter fun p => p.1 ∉ violated).flatMap fun p => p.2.associatedKeywords
    keywords.filter fun p => p.1 ∉ valid

def redesignViolated (llm : Llm) (attempt : ℕ) (cats : Subcategories) (violated : List String) (keywords : Keywords) : Subcategories :=
  match (llm.redesign attempt cats violated (violatedKeywords cats violated keywords)).bind parseCategories with
  | none => cats
  | some new => if new.rows.length < 3 then cats else new

/-- `_validate_and_fix_root_categories`, with the number of attempts that are left. -/
def validateAndFix (llm : Llm) (keywords : Keywords) : ℕ → ℕ → Subcategories → Subcategories
  | 0, _, cats => cats
  | left + 1, attempt, cats =>
    let violated := (llm.validate attempt cats).filter fun id => cats.contains id
    if violated = [] then cats
    else validateAndFix llm keywords left (attempt + 1) (redesignViolated llm attempt cats violated keywords)

/-- `design_categories`, and what is in `keywords.json` afterwards. The file is for the root only. -/
def designCategories (cfg : Config) (llm : Llm) (cached : Option Keywords) (node : NodeInfo) (isRoot : Bool)
    (services : List Service) : Option Subcategories × Option Keywords :=
  let context := if isRoot then none else some node
  if cfg.keywordThreshold < services.length then
    let keywords := if isRoot then cached.getD (llm.extract none services) else llm.extract context services
    let cats := (llm.designFromKeywords keywords services.length context).bind parseCategories
    if isRoot then (cats.map (validateAndFix llm keywords 2 0), some keywords) else (cats, cached)
  else ((llm.designFromDescriptions services context).bind parseCategories, cached)

/-- `refine_categories`: without an answer the categories stay. -/
def refineCategories (llm : Llm) (iteration : ℕ) (node : NodeInfo) (cats : Subcategories) (assignments : Assignments)
    (services : List Service) : Subcategories :=
  match llm.refine iteration node cats assignments services with
  | none | some [] => cats
  | some items => items.foldl (fun cats item => addItem cats { item with associatedKeywords := [] }) ∅

/-! ## Classification -/

/-- `_classify_single`, with the number of attempts that are left. Ids that are no category are dropped. -/
def classifySingle (llm : Llm) (iteration : ℕ) (node : NodeInfo) (cats : Subcategories) (service : Service) : ℕ → ℕ → List String
  | 0, _ => []
  | left + 1, attempt => match llm.classify iteration attempt node cats service with
    | none => classifySingle llm iteration node cats service left (attempt + 1)
    | some ids => ids.filter fun id => cats.contains id

def classifyAll (cfg : Config) (llm : Llm) (iteration : ℕ) (node : NodeInfo) (cats : Subcategories) (services : List Service) :
    Assignments :=
  Dict.ofList (services.map fun s => (s.id, classifySingle llm iteration node cats s (1 + cfg.classificationRetries) 0))

structure Stats where
  nNormal : ℕ
  nGeneric : ℕ
  nUnclassified : ℕ
  catCounts : Dict String ℕ

/-- More ids than this make a service a generic one. -/
def Config.genericThreshold (cfg : Config) (n : ℕ) : ℤ := max 1 (cfg.genericLimit n)

def computeStats (cfg : Config) (assignments : Assignments) (cats : Subcategories) : Stats :=
  let threshold := cfg.genericThreshold cats.rows.length
  { nNormal := assignments.rows.countP fun p => p.2 ≠ [] ∧ ¬ threshold < p.2.length
    nGeneric := assignments.rows.countP fun p => p.2 ≠ [] ∧ threshold < p.2.length
    nUnclassified := assignments.rows.countP fun p => p.2 = []
    catCounts := cats.mapKeyed fun id _ => (assignments.rows.map fun p => p.2.count id).sum }

def shouldTerminate (stats : Stats) (iteration maxRefine : ℕ) : Bool :=
  maxRefine ≤ iteration || (stats.nGeneric = 0 && stats.nUnclassified = 0)

/-- `_classify_refine_loop` from an iteration on, with the number of iterations that are left. -/
def classifyRefineLoop (cfg : Config) (llm : Llm) (node : NodeInfo) (services : List Service) :
    ℕ → ℕ → Subcategories → Assignments → Subcategories × Assignments
  | 0, _, cats, assignments => (cats, assignments)
  | left + 1, iteration, cats, _ =>
    let assignments := classifyAll cfg llm iteration node cats services
    if shouldTerminate (computeStats cfg assignments cats) iteration cfg.maxRefineIterations then (cats, assignments)
    else
      let cats := if iteration < cfg.maxRefineIterations then refineCategories llm iteration node cats assignments services else cats
      classifyRefineLoop cfg llm node services left (iteration + 1) cats assignments

/-! ## Splitting one node -/

structure NodeSplitResult where
  subcategories : Subcategories
  assignments : Assignments
  unclassifiedServiceIds : List String

/-- The generic services lose their categories. -/
def clearGeneric (cfg : Config) (cats : Subcategories) (assignments : Assignments) : Assignments :=
  assignments.mapValues fun ids => if cfg.genericThreshold cats.rows.length < ids.length then [] else ids

def tinyToDelete (cfg : Config) (cats : Subcategories) (assignments : Assignments) : List String :=
  ((computeStats cfg assignments cats).catCounts.rows.filter fun p => (p.2 : ℤ) ≤ cfg.deleteThreshold).map Prod.fst

/-- `_finalize_assignments`. The services that a deletion leaves without a category are not in the
order in which the code finds them; the list is sorted later on. -/
def finalizeAssignments (cfg : Config) (cats : Subcategories) (assignments : Assignments) : NodeSplitResult :=
  let cleared := clearGeneric cfg cats assignments
  let tiny := tinyToDelete cfg cats cleared
  let without := fun ids : List String => ids.filter (· ∉ tiny)
  let unclassified := cleared.rows.filter fun p => p.2 = []
  let orphaned := cleared.rows.filter fun p => p.2 ≠ [] ∧ without p.2 = []
  { subcategories := cats.filter fun p => p.1 ∉ tiny
    assignments := cleared.mapValues without
    unclassifiedServiceIds := (unclassified ++ orphaned).map Prod.fst }

/-- `split_node`: nothing if the design fails, which is an error. The second part is `keywords.json`. -/
def splitNode (cfg : Config) (llm : Llm) (cached : Option Keywords) (node : NodeInfo) (isRoot : Bool) (services : List Service) :
    Option NodeSplitResult × Option Keywords :=
  let (designed, keywords) := designCategories cfg llm cached node isRoot services
  (designed.map fun cats =>
    let (cats, assignments) := classifyRefineLoop cfg llm node services cfg.maxRefineIterations 1 cats ∅
    finalizeAssignments cfg cats assignments, keywords)

/-! ## The tree -/

namespace Categories

def childrenOf (cats : Categories) (id : String) : List String := ((cats.lookup id).getD {}).children

def servicesOf (cats : Categories) (id : String) : List String := ((cats.lookup id).getD {}).services

end Categories

/-- The services with an id among the `category_ids`, as often as it is there. -/
def subServices (assignments : Assignments) (id : String) : List String :=
  assignments.rows.flatMap fun p => (p.2.filter (· = id)).map fun _ => p.1

def NodeSplitResult.subIds (result : NodeSplitResult) : List String := sorted (result.subcategories.rows.map Prod.fst)

/-- `_apply_split_result` on the categories. A subcategory takes the place of what is under its id. -/
def applySplitResult (cats : Categories) (nodeId : String) (result : NodeSplitResult) : Categories :=
  result.subIds.foldl (fun cats id => cats.set id { services := sorted (subServices result.assignments id) })
    (cats.set nodeId { children := result.subIds, services := sorted result.unclassifiedServiceIds })

def applyClasses (classes : Dict String ClassInfo) (result : NodeSplitResult) : Dict String ClassInfo :=
  result.subIds.foldl (fun classes id => match result.subcategories.lookup id with
    | none => classes
    | some sub => classes.set id sub.info) classes

def Config.mayDeepen (cfg : Config) (depth : ℕ) : Bool := cfg.maxDepth.elim true fun max => (depth : ℤ) < max

/-- The scan of `_find_pending_nodes` below a node. Python gives up below a recursion depth that no
tree of so many categories reaches. -/
def scan (cfg : Config) (cats : Categories) : ℕ → String → ℕ → List (String × ℕ)
  | 0, _, _ => []
  | fuel + 1, id, depth =>
    match cats.childrenOf id with
    | [] => if cfg.maxServiceSize < (cats.servicesOf id).length && cfg.mayDeepen depth then [(id, depth)] else []
    | children => children.flatMap fun child => scan cfg cats fuel child (depth + 1)

def findPendingNodes (cfg : Config) (cats : Categories) : List (String × ℕ) := scan cfg cats (cats.rows.length + 1) "root" 0

/-! ## Cross-domain assignment -/

/-- The loop of `_get_leaves_under` over its stack, last first; `none` if it does not end in so many rounds. -/
def leavesLoop (cats : Categories) : ℕ → List String → List String → Option (List String)
  | _, [], leaves => some leaves
  | 0, _ :: _, _ => none
  | fuel + 1, id :: stack, leaves => match cats.childrenOf id with
    | [] => leavesLoop cats fuel stack (leaves ++ [id])
    | children => leavesLoop cats fuel (children.reverse ++ stack) leaves

def getLeavesUnder (cats : Categories) (id : String) : Option (List String) :=
  match cats.childrenOf id with
  | [] => some [id]
  | children => leavesLoop cats cats.rows.length children.reverse []

/-- `_phase1_identify`. -/
def identifyCandidates (llm : Llm) (index : Dict String Service) (cats : Categories) (classes : Dict String ClassInfo) :
    Option (List Candidate) :=
  let domains := cats.childrenOf "root"
  (sorted domains).foldlM (fun found domain => do
    let leaves ← getLeavesUnder cats domain
    let others := (domains.filter (· ≠ domain)).map fun d => (d, classes.lookup d)
    pure (found ++ leaves.flatMap fun leaf =>
      match (cats.servicesOf leaf).filterMap index.lookup with
      | [] => []
      | services => llm.identify leaf (classes.lookup leaf) services others)) []

/-- `_phase2_place`: one more category for each candidate that gets one. -/
def placeCandidates (llm : Llm) (index : Dict String Service) (cats : Categories) (classes : Dict String ClassInfo)
    (candidates : List Candidate) : Option (List (String × String)) :=
  let known := candidates.filter fun c => c.targetDomainId ≠ "" ∧ c.targetDomainId ∈ cats.childrenOf "root"
  known.foldlM (fun placed c => do
    let leaves ← getLeavesUnder cats c.targetDomainId
    let choice := (index.lookup c.serviceId).bind fun service =>
      llm.place service c.targetDomainId (leaves.map fun leaf => (leaf, classes.lookup leaf))
    pure (placed ++ (choice.filter (· ≠ "")).toList.map fun id => (c.serviceId, id))) []

/-- One addition of `_apply_cross_domain`. -/
def addLink (cats : Categories) (link : String × String) : Categories :=
  match cats.lookup link.2 with
  | none => cats
  | some cat => if link.1 ∈ cat.services then cats else cats.set link.2 { cat with services := sorted (cat.services ++ [link.1]) }

def applyCrossDomain (llm : Llm) (index : Dict String Service) (cats : Categories) (classes : Dict String ClassInfo) :
    Option Categories :=
  if (cats.childrenOf "root").length < 2 then some cats
  else do
    let candidates ← identifyCandidates llm index cats classes
    let links ← placeCandidates llm index cats classes candidates
    pure (links.foldl addLink cats)

/-! ## The build -/

inductive Phase where
  | bfs
  | crossDomain
  | complete
  /-- The build ended with an error. -/
  | failed
  deriving DecidableEq

/-- A running build: what `TaxonomyBuilder` holds, the queue, and `keywords.json`. -/
structure Build where
  index : Dict String Service
  categories : Categories
  classes : Dict String ClassInfo
  assignments : Assignments := ∅
  keywords : Option Keywords := none
  queue : List (String × ℕ) := []
  phase : Phase := .bfs

def servicesIndex (services : List Service) : Dict String Service := Dict.ofList (services.map fun s => (s.id, s))

def initCategories (index : Dict String Service) : Categories :=
  Dict.ofList [("root", { services := sorted (index.rows.map Prod.fst) })]

def initClasses : Dict String ClassInfo :=
  Dict.ofList [("root",
    { name := "All API Services", description := "Root node containing all API services across all functional domains" })]

namespace Build

/-- A fresh build with its first queue. -/
def start (cfg : Config) (services : List Service) : Build :=
  let index := servicesIndex services
  { index, categories := initCategories index, classes := initClasses, queue := findPendingNodes cfg (initCategories index) }

def nodeInfo (b : Build) (id : String) : NodeInfo := { id, info := b.classes.lookup id }

def nodeServices (b : Build) (id : String) : List Service := (b.categories.servicesOf id).filterMap b.index.lookup

/-- What splitting a node gives. -/
def splitOf (cfg : Config) (llm : Llm) (b : Build) (id : String) : Option NodeSplitResult × Option Keywords :=
  splitNode cfg llm b.keywords (b.nodeInfo id) (id = "root") (b.nodeServices id)

/-- The children that are to be split in turn. -/
def oversized (cfg : Config) (cats : Categories) (result : NodeSplitResult) (depth : ℕ) : List (String × ℕ) :=
  (result.subIds.filter fun id => cfg.maxServiceSize < (cats.servicesOf id).length && cfg.mayDeepen depth).map fun id => (id, depth)

/-- The build after a result was applied, except for the queue. -/
def apply (b : Build) (id : String) (result : NodeSplitResult) : Build :=
  { b with
    categories := applySplitResult b.categories id result
    classes := applyClasses b.classes result
    assignments := b.assignments.insertAll result.assignments.rows }

/-- One round of `_run_bfs`. -/
def splitNext (cfg : Config) (llm : Llm) (b : Build) : Build :=
  match b.queue with
  | [] => { b with phase := .crossDomain }
  | (id, depth) :: queue =>
    let b := { b with queue }
    if b.nodeServices id = [] then b
    else match b.splitOf cfg llm id with
      | (none, keywords) => { b with keywords, phase := .failed }
      | (some result, keywords) =>
        let b := { b.apply id result with keywords }
        { b with queue := b.queue ++ oversized cfg b.categories result (depth + 1) }

/-- The cross-domain phase; if it does not end, nor does the build. -/
def finish (cfg : Config) (llm : Llm) (b : Build) : Build :=
  if cfg.enableCrossDomain then
    match applyCrossDomain llm b.index b.categories b.classes with
    | none => { b with phase := .failed }
    | some categories => { b with categories, phase := .complete }
  else { b with phase := .complete }

/-- The next round of a build, with the answers that the model gives in it. -/
def step (cfg : Config) (b : Build) (llm : Llm) : Build :=
  match b.phase with
  | .bfs => b.splitNext cfg llm
  | .crossDomain => b.finish cfg llm
  | .complete | .failed => b

end Build

end AgentProtocol.A2X
