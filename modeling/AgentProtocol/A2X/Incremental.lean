-- SUMMARY: The incremental builder: services are added to a taxonomy where a model's answers place them and removed from it, in any interleaving of the calls.
import AgentProtocol.A2X.TaxonomyTree
import AgentProtocol.Lib.PyOrder

/-!
# The incremental builder

`IncrementalBuilder` changes the taxonomy and the services index of a build. An addition
publishes the service in the index, asks the model for the domains of the service and for a
category in each of them, and files the service there. The lock is held for the first and
for the last of these only, so other calls may run in between. A removal is one section.

The model's answers are arbitrary, in the parsed form that the code goes on with. The prompts,
which the class data and the leaves below a domain are for, are left out: what an answer names
is looked up in the whole taxonomy. A batch starts one addition for each of its services.
-/

namespace AgentProtocol.A2X

open Lib

/-! ## Answers -/

/-- A service as it is handed to `add_service`. -/
structure NewService where
  id : Option String := none
  name : Option String := none
  description : Option String := none

/-- `service.get('id', service.get('name', ''))` -/
def NewService.serviceId (service : NewService) : String := service.id.getD (service.name.getD "")

/-- `_parse_selection`, from the numbers in the answer; what is not a number is skipped. -/
def Incremental.parseSelection (numbers : List ℤ) (maxIndex : ℕ) : List ℕ :=
  numbers.filterMap fun num : ℤ => if 1 ≤ num ∧ num ≤ maxIndex then some (num - 1).toNat else none

namespace Categories

/-- The ids that `_select_domains` numbers. -/
def domainIds (cats : Categories) : List String := sorted (cats.childrenOf "root").dedup

/-- `_select_domains`; there are no numbers if the call fails. -/
def selectDomains (cats : Categories) (numbers : List ℤ) : List String :=
  (Incremental.parseSelection numbers cats.domainIds.length).filterMap fun idx => cats.domainIds[idx]?

/-- What an answer names, once its confidence has been checked. -/
def targetOf (cats : Categories) (domain : String) (target confidence : Value) : Except PyError String := do
  let unsure ← Value.gt (.int 40) confidence
  if unsure || !target.truthy then .ok domain
  else if !target.hashable then .error .typeError
  else match target with
    | .str id => .ok (if cats.contains id then id else domain)
    | _ => .ok domain

/-- `_place_in_domain` with the parsed answer, which is missing if the call fails or nothing can
be parsed. -/
def placeInDomain (cats : Categories) (domain : String) (answer : Option Value) : Except PyError (Option String) :=
  match answer with
  | none => .ok none
  | some reply =>
    if !reply.truthy then .ok none
    else do
      let target ← reply.getD "target_category_id" (.str "")
      let confidence ← reply.getD "confidence" (.int 0)
      let id ← cats.targetOf domain target confidence
      .ok (some id)

/-- The categories after a service was filed under each of the ids; an id that is no category is passed over. -/
def assign (cats : Categories) (serviceId : String) (ids : List String) : Categories :=
  ids.foldl (fun cats id => addLink cats (serviceId, id)) cats

/-- The categories after `remove_service`, which drops the first mention in each. -/
def drop (cats : Categories) (serviceId : String) : Categories :=
  cats.mapValues fun cat => { cat with services := cat.services.erase serviceId }

end Categories

/-! ## Calls -/

/-- How far an addition has got. -/
inductive Addition where
  | queued (service : NewService)
  /-- Published, and waiting for the domains. -/
  | selecting (serviceId : String)
  /-- The domains whose answers are outstanding, and the categories so far. -/
  | placing (serviceId : String) (selected waiting assigned : List String)
  | writing (serviceId : String) (selected assigned : List String)
  | returned (serviceId : String) (selected categories : List String)
  /-- It has raised. -/
  | failed (serviceId : String)
  /-- The service has neither id nor name. -/
  | skipped

structure Incremental where
  categories : Categories
  servicesIndex : Dict String NewService
  additions : List Addition := []

/-- What the model answers: numbers for the domains, or, for one of the domains that are waited for,
a parsed answer. -/
structure Turn where
  numbers : List ℤ := []
  which : ℕ := 0
  answer : Option Value := none

inductive IncrementalEvent where
  /-- `add_service`, or `add_services_batch`. -/
  | add (services : List NewService)
  | remove (serviceId : String)
  | go (addition : ℕ) (turn : Turn)

namespace Incremental

variable (b : Incremental)

/-- One domain has been answered: the next phase, with the answers still outstanding and the categories. -/
def placed (serviceId : String) (selected waiting assigned : List String) : Addition :=
  if waiting = [] then .writing serviceId selected assigned else .placing serviceId selected waiting assigned

/-- An error is raised if there is one domain, and logged if there are more. -/
def settle (serviceId : String) (selected waiting assigned : List String) : Except PyError (Option String) → Addition
  | .ok found => placed serviceId selected waiting (assigned ++ (found.filter (· ≠ "")).toList)
  | .error _ => if selected.length = 1 then .failed serviceId else placed serviceId selected waiting assigned

/-- The last section of `add_service`: with no category, the service goes under the root, which has to be there. -/
def write (serviceId : String) (selected assigned : List String) : Addition × Categories :=
  if assigned = [] then
    if b.categories.contains "root" then
      (.returned serviceId selected ["root"], b.categories.assign serviceId ["root"])
    else (.failed serviceId, b.categories)
  else (.returned serviceId selected assigned, b.categories.assign serviceId assigned)

/-- What comes after publication. -/
def published (serviceId : String) : Addition :=
  if b.categories.childrenOf "root" = [] then .writing serviceId [] [] else .selecting serviceId

/-- What comes after the selection of domains. -/
def selected (serviceId : String) (numbers : List ℤ) : Addition :=
  let domains := b.categories.selectDomains numbers
  placed serviceId domains domains []

/-- The next step of an addition. -/
def advance (turn : Turn) : Addition → Addition × Categories × Dict String NewService
  | .queued service =>
    if service.serviceId = "" then (.skipped, b.categories, b.servicesIndex)
    else (b.published service.serviceId, b.categories, b.servicesIndex.set service.serviceId service)
  | .selecting serviceId => (b.selected serviceId turn.numbers, b.categories, b.servicesIndex)
  | .placing serviceId selected waiting assigned =>
    match waiting[turn.which]? with
    | none => (.placing serviceId selected waiting assigned, b.categories, b.servicesIndex)
    | some domain => (settle serviceId selected (waiting.eraseIdx turn.which) assigned
        (b.categories.placeInDomain domain turn.answer), b.categories, b.servicesIndex)
  | .writing serviceId selected assigned =>
    ((b.write serviceId selected assigned).1, (b.write serviceId selected assigned).2, b.servicesIndex)
  | addition => (addition, b.categories, b.servicesIndex)

def removeService (serviceId : String) : Bool × Incremental :=
  (b.categories.rows.any fun p => serviceId ∈ p.2.services,
    { b with categories := b.categories.drop serviceId, servicesIndex := b.servicesIndex.erase serviceId })

def step : IncrementalEvent → Incremental
  | .add services => { b with additions := b.additions ++ services.map .queued }
  | .remove serviceId => (b.removeService serviceId).2
  | .go i turn =>
    match b.additions[i]? with
    | none => b
    | some addition =>
      let (addition, categories, servicesIndex) := b.advance turn addition
      { categories, servicesIndex, additions := b.additions.set i addition }

end Incremental

/-! ## What the operations change -/

section Categories

variable {cats : Categories} {serviceId sid c : String}

theorem childrenOf_addLink (cats : Categories) (link : String × String) (c : String) :
    (addLink cats link).childrenOf c = cats.childrenOf c := by
  unfold addLink
  split
  · rfl
  · rename_i cat hcat
    split
    · rfl
    · rw [Categories.childrenOf, Categories.childrenOf, Dict.lookup_set]
      split
      · rename_i heq
        rw [← heq, hcat]
        rfl
      · rfl

theorem contains_addLink (cats : Categories) (link : String × String) (c : String) :
    (addLink cats link).contains c = cats.contains c := by
  unfold addLink
  split
  · rfl
  · rename_i cat hcat
    split
    · rfl
    · rw [Dict.contains_set]
      by_cases heq : link.2 = c
      · rw [← heq, Dict.contains, hcat]
        simp
      · simp [heq]

theorem mem_servicesOf_addLink : sid ∈ (addLink cats (serviceId, c)).servicesOf c ↔
    sid ∈ cats.servicesOf c ∨ sid = serviceId ∧ cats.contains c = true := by
  unfold addLink Dict.contains
  cases hcat : cats.lookup c with
  | none => simp [Categories.servicesOf, hcat]
  | some cat =>
    dsimp only
    split
    · rename_i hmem
      simp only [Categories.servicesOf, hcat, Option.getD_some, Option.isSome_some, and_true]
      constructor
      · exact .inl
      · rintro (h | rfl)
        · exact h
        · exact hmem
    · simp [Categories.servicesOf, hcat]

theorem servicesOf_addLink_of_ne {c' : String} (h : c' ≠ c) :
    (addLink cats (serviceId, c')).servicesOf c = cats.servicesOf c := by
  unfold addLink
  split
  · rfl
  · split
    · rfl
    · rw [Categories.servicesOf, Categories.servicesOf, Dict.lookup_set, if_neg h]

theorem childrenOf_assign (serviceId c : String) (ids : List String) : ∀ cats : Categories,
    (cats.assign serviceId ids).childrenOf c = cats.childrenOf c := by
  induction ids with
  | nil => exact fun _ => rfl
  | cons id ids ih => exact fun cats => (ih _).trans (childrenOf_addLink cats _ c)

theorem mem_servicesOf_assign {ids : List String} : ∀ {cats : Categories}, sid ∈ (cats.assign serviceId ids).servicesOf c ↔
      sid ∈ cats.servicesOf c ∨ sid = serviceId ∧ c ∈ ids ∧ cats.contains c = true := by
  induction ids with
  | nil => simp [Categories.assign]
  | cons id ids ih =>
    intro cats
    have hrest : cats.assign serviceId (id :: ids) = (addLink cats (serviceId, id)).assign serviceId ids := rfl
    rw [hrest, ih, contains_addLink]
    by_cases heq : id = c
    · subst heq
      rw [mem_servicesOf_addLink]
      simp only [List.mem_cons, true_or, true_and]
      tauto
    · rw [servicesOf_addLink_of_ne heq]
      simp only [List.mem_cons, Ne.symm heq, false_or]

theorem childrenOf_drop (cats : Categories) (serviceId c : String) : (cats.drop serviceId).childrenOf c = cats.childrenOf c := by
  rw [Categories.childrenOf, Categories.drop, Dict.lookup_mapValues, Categories.childrenOf]
  cases cats.lookup c <;> rfl

theorem servicesOf_drop (cats : Categories) (serviceId c : String) :
    (cats.drop serviceId).servicesOf c = (cats.servicesOf c).erase serviceId := by
  rw [Categories.servicesOf, Categories.drop, Dict.lookup_mapValues, Categories.servicesOf]
  cases cats.lookup c <;> rfl

theorem mem_selectDomains {numbers : List ℤ} (h : c ∈ cats.selectDomains numbers) : c ∈ cats.childrenOf "root" := by
  obtain ⟨idx, -, hidx⟩ := List.mem_filterMap.mp h
  exact List.mem_dedup.mp (mem_sorted.mp (List.mem_of_getElem? hidx))

end Categories

/-! ## What is claimed -/

/-- The service of an addition that has published it and not returned. -/
def Addition.pending : Addition → Option String
  | .selecting serviceId => some serviceId
  | .placing serviceId _ _ _ => some serviceId
  | .writing serviceId _ _ => some serviceId
  | _ => none

/-- The addition has returned or raised. -/
def Addition.ended : Addition → Bool
  | .returned _ _ _ => true
  | .failed _ => true
  | .skipped => true
  | _ => false

theorem Addition.pending_of_ended {a : Addition} (h : a.ended = true) : a.pending = none := by
  cases a <;> simp_all [ended, pending]

/-- The service that an addition has yet to publish. -/
def Addition.unpublished : Addition → Option String
  | .queued service => some service.serviceId
  | _ => none

namespace Incremental

/-- The service is listed in a category that is reached from the root. -/
def Listed (b : Incremental) (sid : String) : Prop :=
  ∃ c, Reaches b.categories.childrenOf "root" c ∧ sid ∈ b.categories.servicesOf c

def Consistent (b : Incremental) : Prop := ∀ sid, b.Listed sid ↔ b.servicesIndex.contains sid = true

/-- All calls have returned. -/
def Idle (b : Incremental) : Prop := ∀ a ∈ b.additions, a.ended = true

instance (b : Incremental) : Decidable b.Idle := inferInstanceAs (Decidable (∀ a ∈ b.additions, a.ended = true))

/-- In this step an addition of `sid` returns `categories`, having selected these domains. -/
def Returns (b : Incremental) (ev : IncrementalEvent) (sid : String) (selected categories : List String) : Prop :=
  ∃ i turn assigned, ev = .go i turn ∧ b.additions[i]? = some (.writing sid selected assigned) ∧
    (b.step ev).additions[i]? = some (.returned sid selected categories)

/-- What an addition returns are the categories that list the service, each of them the root or within a
domain that was selected. -/
def Exact (b : Incremental) (ev : IncrementalEvent) : Prop :=
  ∀ sid selected categories, b.Returns ev sid selected categories →
    (∀ c, c ∈ categories ↔ sid ∈ (b.step ev).categories.servicesOf c) ∧
    ∀ c ∈ categories, c = "root" ∨ ∃ d ∈ selected, Reaches (b.step ev).categories.childrenOf d c

/-! ## When it holds -/

/-- Where an addition files the service. -/
def targets (assigned : List String) : List String := if assigned = [] then ["root"] else assigned

/-- What a step must meet.

An answer names a category at the domain or below it, and is not one that makes the only placement raise,
unless that leaves the index as it is with what is listed. When an addition files the service, no removal
has come in between, the ids are categories, and they are all that list the service. A removal finds no
category that mentions the service twice. -/
def Proper (b : Incremental) : IncrementalEvent → Prop
  | .add _ => True
  | .remove sid => ∀ c, (b.categories.servicesOf c).count sid ≤ 1
  | .go i turn => match b.additions[i]? with
    | some (.placing sid selected waiting _) => ∀ domain, waiting[turn.which]? = some domain →
        match b.categories.placeInDomain domain turn.answer with
        | .ok found => ∀ id, found = some id → Reaches b.categories.childrenOf domain id
        | .error _ => selected.length = 1 → b.servicesIndex.contains sid = true → b.Listed sid
    | some (.writing sid _ assigned) => b.servicesIndex.contains sid = true ∧
        (∀ c ∈ targets assigned, b.categories.contains c = true) ∧
        ∀ c, sid ∈ b.categories.servicesOf c → c ∈ targets assigned
    | _ => True

/-! ## The invariant -/

/-- The categories of an addition lie within the domains that were selected. -/
def Within (children : String → List String) : Addition → Prop
  | .placing _ selected waiting assigned => selected ⊆ children "root" ∧ waiting ⊆ selected ∧
      ∀ c ∈ assigned, ∃ d ∈ selected, Reaches children d c
  | .writing _ selected assigned => selected ⊆ children "root" ∧ ∀ c ∈ assigned, ∃ d ∈ selected, Reaches children d c
  | _ => True

/-- What is listed is in the index, and what is in the index is listed or being added. -/
structure Kept (b : Incremental) : Prop where
  indexed : ∀ sid, b.Listed sid → b.servicesIndex.contains sid = true
  listed : ∀ sid, b.servicesIndex.contains sid = true → b.Listed sid ∨ ∃ a ∈ b.additions, a.pending = some sid
  within : ∀ a ∈ b.additions, Within b.categories.childrenOf a

theorem Kept.start {b : Incremental} (h : b.Consistent) (hadditions : b.additions = []) : b.Kept where
  indexed := fun sid => (h sid).mp
  listed := fun sid hsid => .inl ((h sid).mpr hsid)
  within := by simp [hadditions]

theorem Kept.consistent {b : Incremental} (h : b.Kept) (hidle : b.Idle) : b.Consistent := by
  refine fun sid => ⟨h.indexed sid, fun hsid => (h.listed sid hsid).resolve_right ?_⟩
  rintro ⟨a, ha, hpending⟩
  rw [Addition.pending_of_ended (hidle a ha)] at hpending
  cases hpending

theorem within_placed {children : String → List String} {sid : String} {selected waiting assigned : List String}
    (hselected : selected ⊆ children "root") (hwaiting : waiting ⊆ selected)
    (hassigned : ∀ c ∈ assigned, ∃ d ∈ selected, Reaches children d c) :
    Within children (placed sid selected waiting assigned) := by
  unfold placed
  split
  · exact ⟨hselected, hassigned⟩
  · exact ⟨hselected, hwaiting, hassigned⟩

theorem pending_placed (sid : String) (selected waiting assigned : List String) :
    (placed sid selected waiting assigned).pending = some sid := by
  unfold placed
  split <;> rfl

/-! ## Steps -/

section Steps

variable {b : Incremental} {i : ℕ} {turn : Turn} {a : Addition}

theorem step_go (ha : b.additions[i]? = some a) : b.step (.go i turn) =
    { categories := (b.advance turn a).2.1, servicesIndex := (b.advance turn a).2.2
      additions := b.additions.set i (b.advance turn a).1 } := by
  simp only [step, ha]

theorem step_go_none (hnone : b.additions[i]? = none) : b.step (.go i turn) = b := by
  simp only [step, hnone]

theorem childrenOf_step (b : Incremental) (ev : IncrementalEvent) (c : String) :
    (b.step ev).categories.childrenOf c = b.categories.childrenOf c := by
  cases ev with
  | add services => rfl
  | remove sid => exact childrenOf_drop b.categories sid c
  | go i turn =>
    cases ha : b.additions[i]? with
    | none => rw [step_go_none ha]
    | some a =>
      rw [step_go ha]
      cases a with
      | queued | placing =>
        simp only [advance]
        split <;> rfl
      | writing sid selected assigned =>
        simp only [advance, write]
        split
        · split
          · exact childrenOf_assign sid c _ b.categories
          · rfl
        · exact childrenOf_assign sid c _ b.categories
      | selecting | returned | failed | skipped => rfl

theorem children_step (b : Incremental) (ev : IncrementalEvent) :
    (b.step ev).categories.childrenOf = b.categories.childrenOf := funext (b.childrenOf_step ev)

theorem pending_set {sid : String} (hpending : ∃ a₀ ∈ b.additions, a₀.pending = some sid) (ha : b.additions[i]? = some a)
    (a' : Addition) : a.pending = some sid ∨ ∃ a₀ ∈ b.additions.set i a', a₀.pending = some sid := by
  obtain ⟨a₀, ha₀, hsid⟩ := hpending
  obtain ⟨j, hj⟩ := List.mem_iff_getElem?.mp ha₀
  rcases eq_or_ne i j with rfl | hne
  · obtain rfl := Option.some.inj (hj.symm.trans ha)
    exact .inl hsid
  · exact .inr ⟨a₀, List.mem_of_getElem? ((List.getElem?_set_ne hne).trans hj), hsid⟩

variable (h : b.Kept)
include h

theorem Kept.within_set {a' : Addition} (ha' : Within b.categories.childrenOf a') :
    ∀ a₀ ∈ b.additions.set i a', Within b.categories.childrenOf a₀ := by
  intro a₀ ha₀
  rcases List.mem_or_eq_of_mem_set ha₀ with ha₀ | rfl
  · exact h.within a₀ ha₀
  · exact ha'

theorem Kept.quiet (ha : b.additions[i]? = some a) (a' : Addition)
    (hstep : b.step (.go i turn) = { b with additions := b.additions.set i a' })
    (hwithin : Within b.categories.childrenOf a')
    (hpending : ∀ sid, a.pending = some sid → b.servicesIndex.contains sid = true → a'.pending = some sid ∨ b.Listed sid) :
    (b.step (.go i turn)).Kept := by
  rw [hstep]
  have hlt : i < b.additions.length := (List.getElem?_eq_some_iff.mp ha).1
  refine ⟨h.indexed, fun sid hsid => ?_, h.within_set hwithin⟩
  rcases h.listed sid hsid with hlisted | hadded
  · exact .inl hlisted
  · rcases pending_set hadded ha a' with hsid₀ | hother
    · rcases hpending sid hsid₀ hsid with hnext | hlisted
      · exact .inr ⟨a', List.mem_set hlt a', hnext⟩
      · exact .inl hlisted
    · exact .inr hother

theorem Kept.still (ha : b.additions[i]? = some a)
    (hstep : b.advance turn a = (a, b.categories, b.servicesIndex)) : (b.step (.go i turn)).Kept := by
  apply h.quiet ha a
  · rw [step_go ha, hstep]
  · exact h.within a (List.mem_of_getElem? ha)
  · exact fun sid hsid _ => .inl hsid

theorem Kept.add (services : List NewService) : (b.step (.add services)).Kept where
  indexed := h.indexed
  listed := by
    intro sid hsid
    rcases h.listed sid hsid with hlisted | ⟨a, ha, hpending⟩
    · exact .inl hlisted
    · exact .inr ⟨a, List.mem_append_left _ ha, hpending⟩
  within := by
    intro a ha
    rcases List.mem_append.mp ha with ha | ha
    · exact h.within a ha
    · obtain ⟨service, -, rfl⟩ := List.mem_map.mp ha
      trivial

omit h in
theorem not_mem_step_remove {sid : String} (hproper : b.Proper (.remove sid)) (c : String) :
    sid ∉ (b.step (.remove sid)).categories.servicesOf c := by
  have hservices : (b.step (.remove sid)).categories.servicesOf c = (b.categories.servicesOf c).erase sid :=
    servicesOf_drop b.categories sid c
  rw [hservices, ← List.count_eq_zero, List.count_erase_self]
  have hcount := hproper c
  omega

theorem Kept.remove {sid : String} (hproper : b.Proper (.remove sid)) : (b.step (.remove sid)).Kept := by
  have hservices : ∀ c, (b.step (.remove sid)).categories.servicesOf c = (b.categories.servicesOf c).erase sid :=
    servicesOf_drop b.categories sid
  have hindex : ∀ s, (b.step (.remove sid)).servicesIndex.contains s = (decide (s ≠ sid) && b.servicesIndex.contains s) :=
    fun s => Dict.contains_erase b.servicesIndex sid s
  refine ⟨fun s hlisted => ?_, fun s hs => ?_, fun a ha => ?_⟩
  · obtain ⟨c, hreach, hmem⟩ := hlisted
    rw [children_step] at hreach
    have hne : s ≠ sid := by
      rintro rfl
      exact not_mem_step_remove hproper c hmem
    rw [hservices, List.mem_erase_of_ne hne] at hmem
    rw [hindex, h.indexed s ⟨c, hreach, hmem⟩]
    simpa using hne
  · rw [hindex, Bool.and_eq_true, decide_eq_true_eq] at hs
    rcases h.listed s hs.2 with ⟨c, hreach, hmem⟩ | hpending
    · refine .inl ⟨c, ?_, ?_⟩
      · rwa [children_step]
      · rwa [hservices, List.mem_erase_of_ne hs.1]
    · exact .inr hpending
  · rw [children_step]
    exact h.within a ha

theorem Kept.publish {service : NewService} (ha : b.additions[i]? = some (.queued service)) : (b.step (.go i turn)).Kept := by
  by_cases hempty : service.serviceId = ""
  · apply h.quiet ha .skipped
    · rw [step_go ha]
      simp only [advance, hempty, if_true]
    · trivial
    · exact fun sid hsid _ => by cases hsid
  · have hstep : b.step (.go i turn) =
        { b with servicesIndex := b.servicesIndex.set service.serviceId service
                 additions := b.additions.set i (b.published service.serviceId) } := by
      rw [step_go ha]
      simp only [advance, hempty, if_false]
    have hpending : (b.published service.serviceId).pending = some service.serviceId := by
      unfold published
      split <;> rfl
    have hlt : i < b.additions.length := (List.getElem?_eq_some_iff.mp ha).1
    rw [hstep]
    refine ⟨fun s hlisted => ?_, fun s hs => ?_, h.within_set ?_⟩
    · have hold := h.indexed s hlisted
      simp only [Dict.contains_set, hold, Bool.or_true]
    · rw [Dict.contains_set, Bool.or_eq_true, decide_eq_true_eq] at hs
      rcases hs with rfl | hs
      · exact .inr ⟨_, List.mem_set hlt _, hpending⟩
      · exact (h.listed s hs).imp_right fun hadded => (pending_set hadded ha _).resolve_left (by rintro ⟨⟩)
    · unfold published
      split
      · exact ⟨List.nil_subset _, fun _ hd => absurd hd List.not_mem_nil⟩
      · trivial

theorem Kept.select {sid : String} (ha : b.additions[i]? = some (.selecting sid)) : (b.step (.go i turn)).Kept := by
  apply h.quiet ha (b.selected sid turn.numbers)
  · rw [step_go ha]
    rfl
  · exact within_placed (fun _ hd => mem_selectDomains hd) (List.Subset.refl _) nofun
  · intro s hs _
    exact .inl ((pending_placed sid _ _ _).trans hs)

theorem Kept.place {sid : String} {selected waiting assigned : List String}
    (ha : b.additions[i]? = some (.placing sid selected waiting assigned)) (hproper : b.Proper (.go i turn)) :
    (b.step (.go i turn)).Kept := by
  simp only [Proper, ha] at hproper
  cases hdomain : waiting[turn.which]? with
  | none => exact h.still ha (by simp only [advance, hdomain])
  | some domain =>
    have hanswer := hproper domain hdomain
    obtain ⟨hselected, hwaiting, hassigned⟩ := h.within _ (List.mem_of_getElem? ha)
    have hrest : waiting.eraseIdx turn.which ⊆ selected := fun d hd => hwaiting (List.mem_of_mem_eraseIdx hd)
    have hpending : ∀ s, (Addition.placing sid selected waiting assigned).pending = some s → ∀ assigned',
        (placed sid selected (waiting.eraseIdx turn.which) assigned').pending = some s :=
      fun s hs assigned' => (pending_placed sid _ _ _).trans hs
    cases hplace : b.categories.placeInDomain domain turn.answer with
    | ok found =>
      rw [hplace] at hanswer
      apply h.quiet ha (placed sid selected (waiting.eraseIdx turn.which) (assigned ++ (found.filter (· ≠ "")).toList))
      · rw [step_go ha]
        simp only [advance, hdomain, hplace, settle]
      · refine within_placed hselected hrest fun c hc => ?_
        rcases List.mem_append.mp hc with hc | hc
        · exact hassigned c hc
        · have hfound := (Option.filter_eq_some_iff.mp (Option.mem_toList.mp hc)).1
          exact ⟨domain, hwaiting (List.mem_of_getElem? hdomain), hanswer c hfound⟩
      · exact fun s hs _ => .inl (hpending s hs _)
    | error err =>
      rw [hplace] at hanswer
      by_cases hsingle : selected.length = 1
      · apply h.quiet ha (.failed sid)
        · rw [step_go ha]
          simp only [advance, hdomain, hplace, settle, hsingle, if_true]
        · trivial
        · intro s hs hcontains
          obtain rfl := Option.some.inj hs
          exact .inr (hanswer hsingle hcontains)
      · apply h.quiet ha (placed sid selected (waiting.eraseIdx turn.which) assigned)
        · rw [step_go ha]
          simp only [advance, hdomain, hplace, settle, hsingle, if_false]
        · exact within_placed hselected hrest hassigned
        · exact fun s hs _ => .inl (hpending s hs _)

omit h

variable {selected assigned : List String}

theorem reaches_targets {children : String → List String} {sid : String}
    (h : Within children (.writing sid selected assigned)) {c : String} (hc : c ∈ targets assigned) :
    Reaches children "root" c ∧ (c = "root" ∨ ∃ d ∈ selected, Reaches children d c) := by
  unfold targets at hc
  split at hc
  · obtain rfl := List.mem_singleton.mp hc
    exact ⟨.refl, .inl rfl⟩
  · obtain ⟨d, hd, hreach⟩ := h.2 c hc
    exact ⟨.head (h.1 hd) hreach, .inr ⟨d, hd, hreach⟩⟩

theorem targets_ne_nil (assigned : List String) : targets assigned ≠ [] := by
  unfold targets
  split
  · exact List.cons_ne_nil _ _
  · assumption

theorem step_writing {sid : String} (ha : b.additions[i]? = some (.writing sid selected assigned))
    (hcategories : ∀ c ∈ targets assigned, b.categories.contains c = true) : b.step (.go i turn) = { b with
      categories := b.categories.assign sid (targets assigned)
      additions := b.additions.set i (.returned sid selected (targets assigned)) } := by
  rw [step_go ha]
  by_cases hnone : assigned = []
  · have hroot : b.categories.contains "root" = true := hcategories "root" (by simp [targets, hnone])
    simp only [advance, write, targets, hnone, if_true, hroot]
  · simp only [advance, write, targets, hnone, if_false]

theorem Kept.write (h : b.Kept) {sid : String}
    (ha : b.additions[i]? = some (.writing sid selected assigned)) (hproper : b.Proper (.go i turn)) :
    (b.step (.go i turn)).Kept := by
  simp only [Proper, ha] at hproper
  obtain ⟨hindexed, hcategories, -⟩ := hproper
  have hwithin := h.within _ (List.mem_of_getElem? ha)
  have hchildren := children_step b (.go i turn)
  rw [step_writing ha hcategories] at hchildren ⊢
  have hmem : ∀ s c, s ∈ (b.categories.assign sid (targets assigned)).servicesOf c ↔
      s ∈ b.categories.servicesOf c ∨ s = sid ∧ c ∈ targets assigned ∧ b.categories.contains c = true :=
    fun _ _ => mem_servicesOf_assign
  refine ⟨fun s hlisted => ?_, fun s hs => ?_, fun a ha' => ?_⟩
  · obtain ⟨c, hreach, hc⟩ := hlisted
    rw [hchildren] at hreach
    rcases (hmem s c).mp hc with hold | ⟨rfl, -⟩
    · exact h.indexed s ⟨c, hreach, hold⟩
    · exact hindexed
  · have hstill : b.Listed s → Listed { b with
        categories := b.categories.assign sid (targets assigned)
        additions := b.additions.set i (.returned sid selected (targets assigned)) } s := by
      rintro ⟨c, hreach, hc⟩
      exact ⟨c, hchildren ▸ hreach, (hmem s c).mpr (.inl hc)⟩
    rcases h.listed s hs with hlisted | hadded
    · exact .inl (hstill hlisted)
    · rcases pending_set hadded ha (.returned sid selected (targets assigned)) with hsid | hother
      · -- this is the addition that the service was waiting for
        obtain rfl := Option.some.inj hsid
        obtain ⟨c, hc⟩ := List.exists_mem_of_ne_nil _ (targets_ne_nil assigned)
        exact .inl ⟨c, hchildren ▸ (reaches_targets hwithin hc).1, (hmem sid c).mpr (.inr ⟨rfl, hc, hcategories c hc⟩)⟩
      · exact .inr hother
  · rw [hchildren]
    rcases List.mem_or_eq_of_mem_set ha' with ha' | rfl
    · exact h.within a ha'
    · trivial

/-- **One step keeps the invariant.** -/
theorem Kept.step (h : b.Kept) {ev : IncrementalEvent} (hproper : b.Proper ev) : (b.step ev).Kept := by
  cases ev with
  | add services => exact h.add services
  | remove sid => exact h.remove hproper
  | go i turn =>
    cases ha : b.additions[i]? with
    | none => exact (step_go_none ha).symm ▸ h
    | some a =>
      cases a with
      | queued service => exact h.publish ha
      | selecting sid => exact h.select ha
      | placing sid selected waiting assigned => exact h.place ha hproper
      | writing sid selected assigned => exact h.write ha hproper
      | returned | failed | skipped => exact h.still ha rfl

theorem Kept.exact (h : b.Kept) {ev : IncrementalEvent} (hproper : b.Proper ev) : b.Exact ev := by
  rintro sid selected categories ⟨i, turn, assigned, rfl, ha, hreturned⟩
  simp only [Proper, ha] at hproper
  obtain ⟨-, hcategories, hothers⟩ := hproper
  have hwithin := h.within _ (List.mem_of_getElem? ha)
  have hchildren := children_step b (.go i turn)
  have hlt : i < b.additions.length := (List.getElem?_eq_some_iff.mp ha).1
  rw [step_writing ha hcategories] at hreturned hchildren ⊢
  simp only [List.getElem?_set_self hlt, Option.some.injEq, Addition.returned.injEq, true_and] at hreturned
  subst hreturned
  refine ⟨fun c => ?_, fun c hc => ?_⟩
  · rw [mem_servicesOf_assign]
    constructor
    · exact fun hc => .inr ⟨rfl, hc, hcategories c hc⟩
    · rintro (hold | ⟨-, hc, -⟩)
      · exact hothers c hold
      · exact hc
  · rw [hchildren]
    exact (reaches_targets hwithin hc).2

end Steps

/-! ## After a removal -/

/-- No addition of the service begins in what follows, and none that has begun has yet to publish it. -/
def NoLaterAdd (b : Incremental) (sid : String) (events : List IncrementalEvent) : Prop :=
  (∀ a ∈ b.additions, a.unpublished ≠ some sid) ∧
    ∀ services, .add services ∈ events → ∀ service ∈ services, service.serviceId ≠ sid

/-- The service is nowhere, and nobody is about to publish it. -/
structure Gone (b : Incremental) (sid : String) : Prop where
  unlisted : ∀ c, sid ∉ b.categories.servicesOf c
  unindexed : b.servicesIndex.contains sid = false
  unpublished : ∀ a ∈ b.additions, a.unpublished ≠ some sid

theorem gone_remove {b : Incremental} {sid : String} (hproper : b.Proper (.remove sid))
    (hunpublished : ∀ a ∈ b.additions, a.unpublished ≠ some sid) : (b.step (.remove sid)).Gone sid where
  unlisted := not_mem_step_remove hproper
  unindexed := by
    have hindex : (b.step (.remove sid)).servicesIndex.contains sid = (decide (sid ≠ sid) && b.servicesIndex.contains sid) :=
      Dict.contains_erase b.servicesIndex sid sid
    simpa using hindex
  unpublished := hunpublished

section Gone

variable {b : Incremental} {sid : String} {i : ℕ} {turn : Turn} {a a' : Addition}

theorem Gone.quiet (h : b.Gone sid) (a' : Addition) (hstep : b.step (.go i turn) = { b with additions := b.additions.set i a' })
    (ha' : a'.unpublished ≠ some sid) : (b.step (.go i turn)).Gone sid := by
  rw [hstep]
  refine ⟨h.unlisted, h.unindexed, fun a ha => ?_⟩
  rcases List.mem_or_eq_of_mem_set ha with ha | rfl
  · exact h.unpublished a ha
  · exact ha'

theorem unpublished_placed (s : String) (selected waiting assigned : List String) :
    (placed s selected waiting assigned).unpublished ≠ some sid := by
  unfold placed
  split <;> exact nofun

theorem unpublished_settle (s : String) (selected waiting assigned : List String) (found : Except PyError (Option String)) :
    (settle s selected waiting assigned found).unpublished ≠ some sid := by
  unfold settle
  split
  · exact unpublished_placed _ _ _ _
  · split
    · exact nofun
    · exact unpublished_placed _ _ _ _

theorem Gone.step (h : b.Gone sid) {ev : IncrementalEvent} (hproper : b.Proper ev)
    (hadd : ∀ services, ev = .add services → ∀ service ∈ services, service.serviceId ≠ sid) : (b.step ev).Gone sid := by
  cases ev with
  | add services =>
    refine ⟨h.unlisted, h.unindexed, fun a ha => ?_⟩
    rcases List.mem_append.mp ha with ha | ha
    · exact h.unpublished a ha
    · obtain ⟨service, hservice, rfl⟩ := List.mem_map.mp ha
      exact fun heq => hadd services rfl service hservice (Option.some.inj heq)
  | remove s =>
    refine ⟨fun c hmem => ?_, ?_, h.unpublished⟩
    · have hservices : (b.step (.remove s)).categories.servicesOf c = (b.categories.servicesOf c).erase s :=
        servicesOf_drop b.categories s c
      rw [hservices] at hmem
      exact h.unlisted c (List.mem_of_mem_erase hmem)
    · have hindex : (b.step (.remove s)).servicesIndex.contains sid = (decide (sid ≠ s) && b.servicesIndex.contains sid) :=
        Dict.contains_erase b.servicesIndex s sid
      rw [hindex, h.unindexed, Bool.and_false]
  | go i turn =>
    cases ha : b.additions[i]? with
    | none => exact (step_go_none ha).symm ▸ h
    | some a =>
      have hold := h.unpublished a (List.mem_of_getElem? ha)
      cases a with
      | queued service =>
        by_cases hempty : service.serviceId = ""
        · apply h.quiet .skipped _ (by rintro ⟨⟩)
          rw [step_go ha]
          simp only [advance, hempty, if_true]
        · have hne : service.serviceId ≠ sid := fun heq => hold (congrArg some heq)
          rw [step_go ha]
          simp only [advance, hempty, if_false]
          refine ⟨h.unlisted, ?_, fun a ha' => ?_⟩
          · simpa only [Dict.contains_set, hne, decide_false, Bool.false_or] using h.unindexed
          · rcases List.mem_or_eq_of_mem_set ha' with ha' | rfl
            · exact h.unpublished a ha'
            · unfold published
              split <;> rintro ⟨⟩
      | selecting s =>
        apply h.quiet (b.selected s turn.numbers) _ (unpublished_placed _ _ _ _)
        rw [step_go ha]
        rfl
      | placing s selected waiting assigned =>
        cases hdomain : waiting[turn.which]? with
        | none =>
          apply h.quiet (.placing s selected waiting assigned) _ (by rintro ⟨⟩)
          rw [step_go ha]
          simp only [advance, hdomain]
        | some domain =>
          apply h.quiet (settle s selected (waiting.eraseIdx turn.which) assigned
            (b.categories.placeInDomain domain turn.answer)) _ (unpublished_settle _ _ _ _ _)
          rw [step_go ha]
          simp only [advance, hdomain]
      | writing s selected assigned =>
        simp only [Proper, ha] at hproper
        obtain ⟨hindexed, hcategories, -⟩ := hproper
        -- what is filed is in the index
        have hne : sid ≠ s := by
          rintro rfl
          rw [h.unindexed] at hindexed
          cases hindexed
        rw [step_writing ha hcategories]
        refine ⟨fun c hmem => ?_, h.unindexed, fun a ha' => ?_⟩
        · rcases mem_servicesOf_assign.mp hmem with hmem | ⟨heq, -⟩
          · exact h.unlisted c hmem
          · exact hne heq
        · rcases List.mem_or_eq_of_mem_set ha' with ha' | rfl
          · exact h.unpublished a ha'
          · rintro ⟨⟩
      | returned | failed | skipped =>
        apply h.quiet _ _ hold
        rw [step_go ha]
        rfl

theorem Gone.run (events : List IncrementalEvent) : ∀ {b : Incremental}, b.Gone sid → Along Incremental.step Proper b events →
    (∀ services, .add services ∈ events → ∀ service ∈ services, service.serviceId ≠ sid) →
    (Lib.run Incremental.step b events).Gone sid := by
  induction events with
  | nil => exact fun h _ _ => h
  | cons ev events ih =>
    intro b h halong hadd
    refine ih (h.step halong.1 fun services heq => hadd services (heq ▸ List.mem_cons_self)) halong.2 ?_
    exact fun services hmem => hadd services (List.mem_cons_of_mem _ hmem)

end Gone

/-- **Incremental updates keep taxonomy and index consistent**, in every run whose steps are proper: once all
calls have returned, what is listed is what is in the index; what an addition returns are the categories that
list the service, within the domains selected for it; and a service that was removed and not added again is
listed nowhere. -/
theorem updates_consistent {b : Incremental} (hstart : b.Consistent) (hadditions : b.additions = [])
    {events : List IncrementalEvent} (h : Along step Proper b events) :
    ((Lib.run step b events).Idle → (Lib.run step b events).Consistent) ∧ Along step Exact b events ∧
      ∀ pre sid post, events = pre ++ .remove sid :: post → (Lib.run step b pre).NoLaterAdd sid post →
        ∀ c, sid ∉ (Lib.run step b events).categories.servicesOf c := by
  have hkept : b.Kept := Kept.start hstart hadditions
  refine ⟨fun hidle => ?_, ?_, ?_⟩
  · exact (h.invariant hkept fun _ _ hk hp => hk.step hp).consistent hidle
  · exact h.imp hkept (fun _ _ hk hp => hk.step hp) fun _ _ hk hp => hk.exact hp
  · rintro pre sid post rfl hlater c
    obtain ⟨-, hremove, hpost⟩ := along_append.mp h
    rw [run_append, run_cons]
    exact ((gone_remove hremove hlater.1).run post hpost hlater.2).unlisted c

/-! ### Samples -/

/-- A taxonomy with one domain that has one category, and no services. -/
def sample : Incremental where
  categories := Dict.ofList [("root", { children := ["d"] }), ("d", { children := ["leaf"] }), ("leaf", {})]
  servicesIndex := ∅

theorem forall_servicesOf {cats : Categories} {P : List String → Prop} (hrows : ∀ p ∈ cats.rows, P p.2.services) (hnone : P [])
    (c : String) : P (cats.servicesOf c) := by
  rw [Categories.servicesOf]
  cases hc : cats.lookup c with
  | none => exact hnone
  | some cat => exact hrows (c, cat) (Dict.lookup_eq_some.mp hc)

theorem sample_consistent : sample.Consistent := by
  intro sid
  constructor
  · rintro ⟨c, -, hmem⟩
    exact absurd hmem (forall_servicesOf (P := fun l => sid ∉ l) (by simp [sample, Dict.ofList, Table.insertAll, Table.insert]) (by simp) c)
  · rintro ⟨⟩

def naming (id : String) : Value := .obj (.ofList [("target_category_id", .str id), ("confidence", .int 90)])

/-- A service is added and removed again. -/
theorem updates_sample :
    (Lib.run step sample [.add [{ id := some "s" }], .go 0 {}, .go 0 { numbers := [1] }, .go 0 { answer := some (naming "leaf") },
      .go 0 {}]).categories.servicesOf "leaf" = ["s"] ∧
    (Lib.run step sample [.add [{ id := some "s" }], .go 0 {}, .go 0 { numbers := [1] }, .go 0 { answer := some (naming "leaf") },
      .go 0 {}, .remove "s"]).Consistent := by
  have h : Along step Proper sample [.add [{ id := some "s" }], .go 0 {}, .go 0 { numbers := [1] },
      .go 0 { answer := some (naming "leaf") }, .go 0 {}, .remove "s"] := by
    refine ⟨trivial, trivial, trivial, fun domain hdomain => ?_, ⟨by decide, by decide, ?_⟩, ?_, trivial⟩
    · obtain rfl : "d" = domain := Option.some.inj hdomain
      intro id heq
      obtain rfl : "leaf" = id := Option.some.inj heq
      exact .single (by decide)
    · exact fun c hmem => absurd hmem (forall_servicesOf (P := fun l => "s" ∉ l) (by decide) (by decide) c)
    · exact forall_servicesOf (P := fun l => l.count "s" ≤ 1) (by decide) (by decide)
  exact ⟨by decide, (updates_consistent sample_consistent rfl h).1 (by decide)⟩

/-- A service is removed while its addition waits for the model. The addition files it all the same, so it is
listed without being in the index. -/
theorem removed_while_placed : sample.Consistent ∧
      (Lib.run step sample [.add [{ id := some "s" }], .go 0 {}, .go 0 { numbers := [1] }, .remove "s",
        .go 0 { answer := some (naming "leaf") }, .go 0 {}]).Idle ∧
      ¬ (Lib.run step sample [.add [{ id := some "s" }], .go 0 {}, .go 0 { numbers := [1] }, .remove "s",
        .go 0 { answer := some (naming "leaf") }, .go 0 {}]).Consistent := by
  refine ⟨sample_consistent, by decide, fun h => ?_⟩
  have hreach : Reaches (Lib.run step sample [.add [{ id := some "s" }], .go 0 {}, .go 0 { numbers := [1] }, .remove "s",
      .go 0 { answer := some (naming "leaf") }, .go 0 {}]).categories.childrenOf "root" "leaf" :=
    .head (b := "d") (by decide) (.single (by decide))
  exact absurd ((h "s").mp ⟨"leaf", hreach, by decide⟩) (by decide)

end Incremental

end AgentProtocol.A2X
