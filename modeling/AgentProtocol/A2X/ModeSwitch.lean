-- SUMMARY: Searches for one service that share an engine: the fallback switches the mode of the engine, and searches that keep out of each other's fallbacks find the mode they expect.
import AgentProtocol.A2X.Search
import AgentProtocol.Lib.Run

/-!
# Switching the mode

A search for one service that finds nothing is run again for important ones: it sets the mode of
the engine, of its navigator and of its selector, searches, and sets them back to what the mode of
the engine was. All searches on the engine use these three attributes, and nothing keeps them apart.

Each read and each write of an attribute is one step here. Navigation into several categories and
selection from several groups run side by side, so a search is a tree of calls, each of which reads
the mode for its prompt and once more for the answer. What the model answers is arbitrary.
-/

namespace AgentProtocol.A2X

open Lib

/-! ## The attributes -/

/-- What holds a mode. `_set_mode` writes them in this order. -/
inductive Attribute where
  | engine
  | navigator
  | selector
  deriving DecidableEq

def Attribute.next : Attribute → Option Attribute
  | .engine => some .navigator
  | .navigator => some .selector
  | .selector => none

def Attribute.before : Attribute → Attribute → Bool
  | .engine, .navigator => true
  | .engine, .selector => true
  | .navigator, .selector => true
  | _, _ => false

structure Modes where
  engine : Mode
  navigator : Mode
  selector : Mode
  deriving DecidableEq

namespace Modes

def get (m : Modes) : Attribute → Mode
  | .engine => m.engine
  | .navigator => m.navigator
  | .selector => m.selector

def set (m : Modes) (mode : Mode) : Attribute → Modes
  | .engine => { m with engine := mode }
  | .navigator => { m with navigator := mode }
  | .selector => { m with selector := mode }

end Modes

/-! ## Calls -/

/-- How far a `navigate` has got. -/
inductive Navigation where
  /-- About to build the prompt. -/
  | prompting (id : String)
  | waiting (id : String)
  /-- The navigations into the selected categories that are still out, and what the others have found. -/
  | descending (id : String) (out : List Navigation) (found : List TerminalNode)
  | ended (nodes : List TerminalNode)

/-- How far a `_select_for_group` has got. -/
inductive Selection where
  | prompting (serviceIds : List String)
  | waiting (serviceIds : List String)
  | ended (results : List SearchResult)

/-- The categories that an answer selects; there are no numbers if the call fails. -/
def chosen (numbers : Option (List ℤ)) (mode : Mode) (children : List String) : List String :=
  match numbers with
  | none => []
  | some numbers => (children.zipIdx.filter fun p => p.2 ∈ parseSelection numbers children.length mode).map Prod.fst

namespace Engine

variable (e : Engine)

/-- The services that a category lists itself. -/
def own (id : String) : List TerminalNode :=
  match e.categories.servicesOf id with
  | [] => []
  | serviceIds => [{ categoryId := id, serviceIds }]

/-- `navigate` up to its first prompt. -/
def enter (id : String) : Navigation :=
  if e.categories.childrenOf id = [] then .ended (e.own id) else .prompting id

/-- `navigate` after the answer. -/
def descend (id : String) (numbers : Option (List ℤ)) (mode : Mode) : Navigation :=
  match chosen numbers mode (e.categories.childrenOf id) with
  | [] => .ended (e.own id)
  | ids => .descending id (ids.map e.enter) []

def picked (serviceIds : List String) (numbers : Option (List ℤ)) (mode : Mode) : List SearchResult :=
  match numbers with
  | none => []
  | some numbers => (parseSelection numbers serviceIds.length mode).filterMap fun i => (serviceIds[i]?).map e.result

end Engine

namespace Navigation

/-- The call at a place. -/
def sub : List ℕ → Navigation → Option Navigation
  | [], nav => some nav
  | i :: path, .descending _ out _ => (out[i]?).bind (sub path)
  | _ :: _, _ => none

/-- Change the call at a place. -/
def modify (f : Navigation → Navigation) : List ℕ → Navigation → Navigation
  | [], nav => f nav
  | i :: path, .descending id out found => .descending id (out.modify i (modify f path)) found
  | _ :: _, nav => nav

/-- The next step of one call. -/
def advance (e : Engine) (numbers : Option (List ℤ)) (mode : Mode) : Navigation → Navigation
  | .prompting id => .waiting id
  | .waiting id => e.descend id numbers mode
  | nav => nav

/-- One of the calls below has ended, and its nodes are taken over. -/
def collect (e : Engine) (i : ℕ) : Navigation → Navigation
  | .descending id out found => match out[i]? with
    | some (.ended nodes) =>
      if out.eraseIdx i = [] then .ended (found ++ nodes ++ e.own id) else .descending id (out.eraseIdx i) (found ++ nodes)
    | _ => .descending id out found
  | nav => nav

/-- Whether the next step reads the mode: for a prompt, or for an answer that there is. -/
def reads (numbers : Option (List ℤ)) : Navigation → Bool
  | .prompting _ => true
  | .waiting _ => numbers.isSome
  | _ => false

end Navigation

namespace Selection

/-- `_select_for_group` up to its prompt. -/
def start (group : ServiceGroup) : Selection :=
  if group.serviceIds = [] then .ended [] else .prompting group.serviceIds

def advance (e : Engine) (numbers : Option (List ℤ)) (mode : Mode) : Selection → Selection
  | .prompting serviceIds => .waiting serviceIds
  | .waiting serviceIds => .ended (e.picked serviceIds numbers mode)
  | call => call

def reads (numbers : Option (List ℤ)) : Selection → Bool
  | .prompting _ => true
  | .waiting _ => numbers.isSome
  | _ => false

/-- What a call has found. -/
def results : Selection → List SearchResult
  | .ended results => results
  | _ => []

end Selection

/-! ## Searches -/

/-- How far `_search_internal` has got. -/
inductive Stage where
  | navigating (nav : Navigation)
  | selecting (calls : List Selection) (results : List SearchResult)
  /-- About to test the mode of the engine. -/
  | testing (results : List SearchResult)
  /-- About to keep the mode of the engine. -/
  | saving
  /-- About to set an attribute for the fallback. -/
  | setting (x : Attribute)
  /-- About to set an attribute back; these are the results of the fallback. -/
  | restoring (x : Attribute) (results : List SearchResult)
  | returned (results : List SearchResult)

/-- A search, with a record of what its passes found, and of the modes that its prompts and answers
were for; the flag says whether that was in its fallback. -/
structure SearchRun where
  stage : Stage
  /-- The modes to be restored, innermost fallback first. -/
  originals : List Mode := []
  passes : List (List SearchResult) := []
  uses : List (Bool × Mode) := []

/-- What a search does next. -/
inductive Move where
  /-- The thread of the search goes on. -/
  | main
  | navigate (path : List ℕ) (numbers : Option (List ℤ))
  | collectNodes (path : List ℕ) (i : ℕ)
  | select (i : ℕ) (numbers : Option (List ℤ))
  | collectResults (i : ℕ)

namespace SearchRun

variable (e : Engine) (s : SearchRun)

def start : SearchRun := { stage := .navigating (e.enter "root") }

/-- The attribute that a step reads or writes. -/
def access : Move → Option Attribute
  | .main => match s.stage with
    | .testing _ => some .engine
    | .saving => some .engine
    | .setting x => some x
    | .restoring x _ => some x
    | _ => none
  | .navigate path numbers => match s.stage with
    | .navigating nav => if (nav.sub path).any (Navigation.reads numbers) then some .navigator else none
    | _ => none
  | .select i numbers => match s.stage with
    | .selecting calls _ => if (calls[i]?).any (Selection.reads numbers) then some .selector else none
    | _ => none
  | .collectNodes _ _ => none
  | .collectResults _ => none

/-- The results of a pass are there: a fallback sets the modes back, and the search itself returns. -/
def finish (results : List SearchResult) : SearchRun :=
  if s.originals = [] then { s with stage := .returned results } else { s with stage := .restoring .engine results }

/-- All modes are set back: the first result of the fallback is the one that is taken. -/
def leave (results : List SearchResult) : SearchRun :=
  ({ s with originals := s.originals.tail } : SearchRun).finish (results.take 1)

/-- A prompt is built, or an answer is parsed, in this mode. -/
def use (mode : Mode) : SearchRun := { s with uses := s.uses ++ [(!s.originals.isEmpty, mode)] }

/-- The thread of the search goes on; `mode` is the mode of the engine. -/
def main (mode : Mode) : SearchRun :=
  match s.stage with
  | .navigating (.ended nodes) =>
    { s with stage := .selecting ((e.mergeSmallGroups (Engine.deduplicate [] nodes)).map Selection.start) [] }
  | .selecting [] results =>
    { s with stage := .testing (Engine.uniqueResults results), passes := s.passes ++ [Engine.uniqueResults results] }
  | .testing results => if mode = .getOne ∧ results = [] then { s with stage := .saving } else s.finish results
  | .saving => { s with stage := .setting .engine, originals := mode :: s.originals }
  | .setting x => match x.next with
    | some y => { s with stage := .setting y }
    | none => { s with stage := .navigating (e.enter "root") }
  | .restoring x results => match x.next with
    | some y => { s with stage := .restoring y results }
    | none => s.leave results
  | _ => s

/-- A step of the search, given the modes. -/
def step (modes : Modes) (move : Move) : SearchRun :=
  match move with
  | .main => s.main e modes.engine
  | .navigate path numbers => match s.stage with
    | .navigating nav =>
      let s' : SearchRun := { s with stage := .navigating (nav.modify (Navigation.advance e numbers modes.navigator) path) }
      if s.access move = some .navigator then s'.use modes.navigator else s'
    | _ => s
  | .collectNodes path i => match s.stage with
    | .navigating nav => { s with stage := .navigating (nav.modify (Navigation.collect e i) path) }
    | _ => s
  | .select i numbers => match s.stage with
    | .selecting calls results =>
      let s' : SearchRun := { s with stage := .selecting (calls.modify i (Selection.advance e numbers modes.selector)) results }
      if s.access move = some .selector then s'.use modes.selector else s'
    | _ => s
  | .collectResults i => match s.stage with
    | .selecting calls results => match calls[i]? with
      | some (.ended found) => { s with stage := .selecting (calls.eraseIdx i) (results ++ found) }
      | _ => s
    | _ => s

/-- What a step writes. -/
def written (move : Move) : Option (Attribute × Mode) :=
  match move, s.stage with
  | .main, .setting x => some (x, .getImportant)
  | .main, .restoring x _ => s.originals.head?.map fun original => (x, original)
  | _, _ => none

/-- The attribute is what the search has set it to for its fallback. -/
def holds (x : Attribute) : Bool :=
  match s.originals with
  | [] => false
  | [_] => match s.stage with
    | .setting y => x.before y
    | .restoring y _ => !x.before y
    | .returned _ => false
    | _ => true
  | _ :: _ :: _ => true

end SearchRun

structure Searching where
  modes : Modes
  searches : List SearchRun := []

inductive SearchEvent where
  | search
  | go (i : ℕ) (move : Move)

namespace Searching

variable (e : Engine)

def init : Searching := { modes := ⟨.getOne, .getOne, .getOne⟩ }

def step (w : Searching) : SearchEvent → Searching
  | .search => { w with searches := w.searches ++ [SearchRun.start e] }
  | .go i move => match w.searches[i]? with
    | none => w
    | some s =>
      { modes := (s.written move).elim w.modes fun p => w.modes.set p.2 p.1
        searches := w.searches.set i (s.step e w.modes move) }

end Searching

/-! ## What is claimed -/

/-- The modes of the prompts and answers: that of the fallback in the fallback, and `get_one` elsewhere. -/
def SearchRun.WellUsed (s : SearchRun) : Prop := ∀ u ∈ s.uses, u.2 = if u.1 then .getImportant else .getOne

/-- What a search has returned: at most one result, from its only pass if that found something, and else the first
one of its only fallback. -/
def SearchRun.Answered (s : SearchRun) (results : List SearchResult) : Prop :=
  results.length ≤ 1 ∧
    (s.passes = [results] ∧ results ≠ [] ∨ ∃ found, s.passes = [[], found] ∧ results = found.take 1)

/-- The claim about a state. -/
structure Searching.Undisturbed (w : Searching) : Prop where
  uses : ∀ s ∈ w.searches, s.WellUsed
  results : ∀ s ∈ w.searches, ∀ results, s.stage = .returned results → s.Answered results
  modes : (∀ s ∈ w.searches, ∃ results, s.stage = .returned results) → w.modes = ⟨.getOne, .getOne, .getOne⟩

/-! ## When it holds -/

def foundSoFar (calls : List Selection) (results : List SearchResult) : List SearchResult :=
  results ++ calls.flatMap Selection.results

/-- The answers of a first pass pick a service from one group at most. -/
def SearchRun.PicksOnce (s : SearchRun) : Move → Prop
  | .select i (some numbers) => match s.stage with
    | .selecting calls results => ∀ serviceIds, s.originals = [] → calls[i]? = some (.waiting serviceIds) →
        parseSelection numbers serviceIds.length .getOne ≠ [] → foundSoFar calls results = []
    | _ => True
  | _ => True

/-- What a step must meet: an attribute is read or written while no other search has set it for its fallback, and a
first pass picks from one group at most. -/
def Searching.Apart (w : Searching) : SearchEvent → Prop
  | .search => True
  | .go i move => ∀ s, w.searches[i]? = some s →
      (∀ x, s.access move = some x → ∀ j s', j ≠ i → w.searches[j]? = some s' → s'.holds x = false) ∧ s.PicksOnce move

/-- The services that an answer is awaited for. -/
def Selection.awaited : Selection → Option (List String)
  | .waiting serviceIds => some serviceIds
  | _ => none

theorem Selection.awaited_iff {call : Selection} {serviceIds : List String} :
    call.awaited = some serviceIds ↔ call = .waiting serviceIds := by
  cases call <;> simp [awaited]

instance SearchRun.decidablePicksOnce (s : SearchRun) : (move : Move) → Decidable (s.PicksOnce move)
  | .select i (some numbers) => match hstage : s.stage with
    | .selecting calls results => decidable_of_iff
        (∀ serviceIds ∈ (calls[i]?).bind Selection.awaited, s.originals = [] →
          parseSelection numbers serviceIds.length .getOne ≠ [] → foundSoFar calls results = [])
        (by simp only [PicksOnce, hstage, Option.mem_def, Option.bind_eq_some_iff, Selection.awaited_iff]; grind)
    | .navigating _ | .testing _ | .saving | .setting _ | .restoring _ _ | .returned _ =>
      .isTrue (by simp only [PicksOnce, hstage])
  | .main | .navigate _ _ | .collectNodes _ _ | .select _ none | .collectResults _ => .isTrue trivial

instance Searching.decidableApart (w : Searching) : (ev : SearchEvent) → Decidable (w.Apart ev)
  | .search => .isTrue trivial
  | .go i move => decidable_of_iff
      (∀ s ∈ w.searches[i]?,
        (∀ x ∈ s.access move, ∀ p ∈ w.searches.zipIdx, p.2 ≠ i → p.1.holds x = false) ∧ s.PicksOnce move)
      (by
        simp only [Apart, Option.mem_def, List.mem_zipIdx_iff_getElem?, Prod.forall]
        grind)

/-! ## The invariant -/

/-- Where a search is, and what its passes have found until there. -/
def SearchRun.OnTrack (s : SearchRun) : Prop :=
  match s.originals, s.stage with
  | [], .navigating _ => s.passes = []
  | [], .selecting calls results => s.passes = [] ∧ (foundSoFar calls results).length ≤ 1
  | [], .testing results => s.passes = [results] ∧ results.length ≤ 1
  | [], .saving => s.passes = [[]]
  | [], .returned results => s.Answered results
  | [.getOne], .setting _ => s.passes = [[]]
  | [.getOne], .navigating _ => s.passes = [[]]
  | [.getOne], .selecting _ _ => s.passes = [[]]
  | [.getOne], .testing results => s.passes = [[], results]
  | [.getOne], .restoring _ results => s.passes = [[], results]
  | _, _ => False

/-- Every search is on its way, an attribute is set by one of them at most, and is `get_one` unless it is set. -/
structure Searching.Orderly (w : Searching) : Prop where
  uses : ∀ s ∈ w.searches, s.WellUsed
  track : ∀ s ∈ w.searches, s.OnTrack
  once : ∀ (x : Attribute) (i j : ℕ) (s s' : SearchRun), w.searches[i]? = some s → w.searches[j]? = some s' → s.holds x = true → s'.holds x = true → i = j
  held : ∀ x, ∀ s ∈ w.searches, s.holds x = true → w.modes.get x = .getImportant
  free : ∀ x, (∀ s ∈ w.searches, s.holds x = false) → w.modes.get x = .getOne

namespace Searching

theorem orderly_init : init.Orderly where
  uses := nofun
  track := nofun
  once := fun _ _ _ _ _ h => nomatch h
  held := nofun
  free := fun x _ => by cases x <;> rfl

theorem holds_of_returned {s : SearchRun} (h : s.OnTrack) {results : List SearchResult} (hstage : s.stage = .returned results)
    (x : Attribute) : s.originals = [] ∧ s.holds x = false := by
  have hnone : s.originals = [] := by
    unfold SearchRun.OnTrack at h
    rw [hstage] at h
    split at h <;> simp_all
  exact ⟨hnone, by rw [SearchRun.holds, hnone]⟩

theorem Orderly.undisturbed {w : Searching} (h : w.Orderly) : w.Undisturbed where
  uses := h.uses
  results := by
    intro s hs results hstage
    have htrack := h.track s hs
    have hnone := (holds_of_returned htrack hstage .engine).1
    simpa only [SearchRun.OnTrack, hnone, hstage] using htrack
  modes := by
    intro hall
    have hfree : ∀ x, w.modes.get x = .getOne := by
      intro x
      refine h.free x fun s hs => ?_
      obtain ⟨results, hstage⟩ := hall s hs
      exact (holds_of_returned (h.track s hs) hstage x).2
    have hengine := hfree .engine
    have hnavigator := hfree .navigator
    have hselector := hfree .selector
    cases hmodes : w.modes
    simp_all [Modes.get]

/-! ## Steps -/

section Change

variable {w : Searching} {i : ℕ} {s s' : SearchRun} {modes : Modes}

theorem getElem?_set_cases {l : List SearchRun} {j : ℕ} {t : SearchRun} (h : (l.set i s')[j]? = some t) :
    (j = i ∧ t = s') ∨ (j ≠ i ∧ l[j]? = some t) := by
  rcases eq_or_ne i j with rfl | hne
  · rw [List.getElem?_set_self'] at h
    obtain ⟨-, -, rfl⟩ := Option.map_eq_some_iff.mp h
    exact .inl ⟨rfl, rfl⟩
  · rw [List.getElem?_set_ne hne] at h
    exact .inr ⟨hne.symm, h⟩

theorem Orderly.get_of_alone (h : w.Orderly) (hs : w.searches[i]? = some s) {x : Attribute}
    (halone : ∀ j s', j ≠ i → w.searches[j]? = some s' → s'.holds x = false) :
    w.modes.get x = if s.holds x then .getImportant else .getOne := by
  split
  · rename_i hholds
    exact h.held x s (List.mem_of_getElem? hs) hholds
  · rename_i hholds
    refine h.free x fun t ht => ?_
    obtain ⟨j, hj⟩ := List.mem_iff_getElem?.mp ht
    rcases eq_or_ne j i with rfl | hne
    · obtain rfl := Option.some.inj (hj.symm.trans hs)
      simpa using hholds
    · exact halone j t hne hj

theorem Orderly.change (h : w.Orderly) (hs : w.searches[i]? = some s) (huses : s'.WellUsed) (htrack : s'.OnTrack)
    (hchange : ∀ x, modes.get x = w.modes.get x ∧ s'.holds x = s.holds x ∨
      (∀ j t, j ≠ i → w.searches[j]? = some t → t.holds x = false) ∧
        modes.get x = if s'.holds x then .getImportant else .getOne) :
    Orderly { modes, searches := w.searches.set i s' } where
  uses := by
    intro t ht
    rcases List.mem_or_eq_of_mem_set ht with ht | rfl
    · exact h.uses t ht
    · exact huses
  track := by
    intro t ht
    rcases List.mem_or_eq_of_mem_set ht with ht | rfl
    · exact h.track t ht
    · exact htrack
  once := by
    intro x j k t u ht hu htx hux
    rcases getElem?_set_cases ht with ⟨rfl, rfl⟩ | ⟨hj, hold⟩
    · rcases getElem?_set_cases hu with ⟨rfl, rfl⟩ | ⟨hk, hold'⟩
      · rfl
      · rcases hchange x with ⟨-, hsame⟩ | ⟨halone, -⟩
        · exact h.once x _ _ s u hs hold' (hsame ▸ htx) hux
        · exact absurd (halone k u hk hold') (by simp [hux])
    · rcases getElem?_set_cases hu with ⟨rfl, rfl⟩ | ⟨hk, hold'⟩
      · rcases hchange x with ⟨-, hsame⟩ | ⟨halone, -⟩
        · exact h.once x _ _ t s hold hs htx (hsame ▸ hux)
        · exact absurd (halone j t hj hold) (by simp [htx])
      · exact h.once x j k t u hold hold' htx hux
  held := by
    intro x t ht htx
    obtain ⟨j, hj⟩ := List.mem_iff_getElem?.mp ht
    rcases getElem?_set_cases hj with ⟨rfl, rfl⟩ | ⟨hne, hj⟩
    · rcases hchange x with ⟨hget, hsame⟩ | ⟨-, hget⟩
      · exact hget.trans (h.held x s (List.mem_of_getElem? hs) (hsame ▸ htx))
      · rw [hget, if_pos htx]
    · rcases hchange x with ⟨hget, -⟩ | ⟨halone, -⟩
      · exact hget.trans (h.held x t (List.mem_of_getElem? hj) htx)
      · exact absurd (halone j t hne hj) (by simp [htx])
  free := by
    intro x hnone
    have hlt : i < w.searches.length := (List.getElem?_eq_some_iff.mp hs).1
    have hs' : s'.holds x = false := hnone s' (List.mem_set hlt s')
    rcases hchange x with ⟨hget, hsame⟩ | ⟨-, hget⟩
    · refine hget.trans (h.free x fun t ht => ?_)
      obtain ⟨j, hj⟩ := List.mem_iff_getElem?.mp ht
      rcases eq_or_ne i j with rfl | hne
      · obtain rfl := Option.some.inj (hj.symm.trans hs)
        exact hsame ▸ hs'
      · exact hnone t (List.mem_of_getElem? ((List.getElem?_set_ne hne).trans hj))
    · rw [hget, hs']
      rfl

end Change

end Searching

/-! ### One search -/

section Found

variable {calls : List Selection} {results : List SearchResult} {i : ℕ} {c : Selection}

theorem flatMap_results_split (hlt : i < calls.length) : calls.flatMap Selection.results =
    (calls.take i).flatMap Selection.results ++ (calls[i].results ++ (calls.drop (i + 1)).flatMap Selection.results) := by
  have hlist : calls = calls.take i ++ calls[i] :: calls.drop (i + 1) := by
    rw [← List.drop_eq_getElem_cons hlt, List.take_append_drop]
  refine (congrArg (List.flatMap Selection.results) hlist).trans ?_
  rw [List.flatMap_append, List.flatMap_cons]

theorem length_foundSoFar_modify (hc : calls[i]? = some c) (results : List SearchResult) (f : Selection → Selection) :
    (foundSoFar (calls.modify i f) results).length + c.results.length = (foundSoFar calls results).length + (f c).results.length := by
  obtain ⟨hlt, rfl⟩ := List.getElem?_eq_some_iff.mp hc
  rw [foundSoFar, foundSoFar, List.modify_eq_take_cons_drop hlt, flatMap_results_split hlt]
  simp only [List.flatMap_append, List.flatMap_cons, List.length_append]
  omega

theorem length_foundSoFar_collect {found : List SearchResult} (hc : calls[i]? = some (.ended found)) :
    (foundSoFar (calls.eraseIdx i) (results ++ found)).length = (foundSoFar calls results).length := by
  obtain ⟨hlt, hget⟩ := List.getElem?_eq_some_iff.mp hc
  have hfound : calls[i].results = found := by rw [hget, Selection.results]
  rw [foundSoFar, foundSoFar, List.eraseIdx_eq_take_drop_succ, flatMap_results_split hlt, hfound]
  simp only [List.flatMap_append, List.length_append]
  omega

theorem length_picked (e : Engine) (serviceIds : List String) (numbers : Option (List ℤ)) :
    (e.picked serviceIds numbers .getOne).length ≤ 1 := by
  unfold Engine.picked
  cases numbers with
  | none => exact Nat.zero_le 1
  | some numbers =>
    refine (List.length_filterMap_le _ _).trans ?_
    simp [parseSelection]

theorem length_uniqueResults_le (results : List SearchResult) : (Engine.uniqueResults results).length ≤ results.length := by
  have hfold : ∀ (more unique : List SearchResult),
      (more.foldl (fun unique r => if unique.any (·.id = r.id) then unique else unique ++ [r]) unique).length ≤
        unique.length + more.length := by
    intro more
    induction more with
    | nil => exact fun _ => le_refl _
    | cons r more ih =>
      intro unique
      refine (ih _).trans ?_
      dsimp only
      split
      · simp
      · simp
        omega
  have hall := hfold results []
  rwa [List.length_nil, Nat.zero_add] at hall

end Found

/-- Within a pass, or between the first pass and its fallback. -/
def Stage.passing : Stage → Bool
  | .setting _ => false
  | .restoring _ _ => false
  | .returned _ => false
  | _ => true

namespace SearchRun

variable {e : Engine} {s : SearchRun} {modes : Modes} {move : Move}

theorem OnTrack.originals (h : s.OnTrack) : s.originals = [] ∨ s.originals = [.getOne] := by
  unfold OnTrack at h
  split at h <;> simp_all

theorem holds_of_passing (h : s.originals = [] ∨ s.originals = [.getOne]) (hstage : Stage.passing s.stage = true) (x : Attribute) :
    s.holds x = !s.originals.isEmpty := by
  rcases h with ho | ho
  · simp [holds, ho]
  · simp only [holds, ho]
    cases hs : s.stage <;> simp_all [Stage.passing]

theorem WellUsed.use (h : s.WellUsed) {mode : Mode} (hmode : mode = if !s.originals.isEmpty then .getImportant else .getOne) :
    (s.use mode).WellUsed := by
  intro u hu
  rcases List.mem_append.mp hu with hu | hu
  · exact h u hu
  · obtain rfl := List.mem_singleton.mp hu
    exact hmode

structure Stays (s s' : SearchRun) (modes modes' : Modes) (accessed : Option Attribute) : Prop where
  uses : s'.WellUsed
  track : s'.OnTrack
  attributes : ∀ x, modes'.get x = modes.get x ∧ s'.holds x = s.holds x ∨
    accessed = some x ∧ modes'.get x = if s'.holds x then .getImportant else .getOne

theorem stays_passing {s' : SearchRun} {accessed : Option Attribute} (h : s.OnTrack) (huses : s'.WellUsed) (htrack : s'.OnTrack)
    (horiginals : s'.originals = s.originals) (hs : s.stage.passing = true) (hs' : s'.stage.passing = true) :
    Stays s s' modes modes accessed := by
  refine ⟨huses, htrack, fun x => .inl ⟨rfl, ?_⟩⟩
  rw [holds_of_passing h.originals hs, holds_of_passing (horiginals ▸ h.originals) hs', horiginals]

variable {x : Attribute}

theorem stays_use {stage : Stage} (h : s.OnTrack) (hu : s.WellUsed) (hs : s.stage.passing = true)
    (hstage : stage.passing = true) (htrack : OnTrack { s with stage })
    (hmodes : s.access move = some x → modes.get x = if s.holds x then .getImportant else .getOne) :
    Stays s (if s.access move = some x then SearchRun.use { s with stage } (modes.get x) else { s with stage }) modes modes
      (s.access move) := by
  split
  · rename_i haccess
    refine stays_passing h (WellUsed.use hu ?_) htrack rfl hs hstage
    rw [hmodes haccess, holds_of_passing h.originals hs]
  · exact stays_passing h hu htrack rfl hs hstage

variable {numbers : Option (List ℤ)}

variable (h : s.OnTrack) (hu : s.WellUsed)
include h hu

theorem stays_self {accessed : Option Attribute} : Stays s s modes modes accessed := ⟨hu, h, fun _ => .inl ⟨rfl, rfl⟩⟩

theorem stays_navigate {path : List ℕ}
    (hmodes : ∀ x, s.access (.navigate path numbers) = some x → modes.get x = if s.holds x then .getImportant else .getOne) :
    Stays s (s.step e modes (.navigate path numbers)) modes modes (s.access (.navigate path numbers)) := by
  cases hstage : s.stage with
  | navigating nav =>
    simp only [step, hstage]
    refine stays_use h hu (by rw [hstage]; rfl) rfl ?_ (hmodes .navigator)
    rcases h.originals with ho | ho
    · simpa only [OnTrack, ho, hstage] using h
    · simpa only [OnTrack, ho, hstage] using h
  | selecting | testing | saving | setting | restoring | returned =>
    simp only [step, hstage]
    exact stays_self h hu

theorem stays_collectNodes (path : List ℕ) (i : ℕ) : Stays s (s.step e modes (.collectNodes path i)) modes modes none := by
  cases hstage : s.stage with
  | navigating nav =>
    simp only [step, hstage]
    refine stays_passing h hu ?_ rfl (by rw [hstage]; rfl) rfl
    rcases h.originals with ho | ho
    · simpa only [OnTrack, ho, hstage] using h
    · simpa only [OnTrack, ho, hstage] using h
  | selecting | testing | saving | setting | restoring | returned =>
    simp only [step, hstage]
    exact stays_self h hu

omit h hu in
theorem length_found_select {calls : List Selection} {results : List SearchResult} {i : ℕ} {mode : Mode}
    (hlength : (foundSoFar calls results).length ≤ 1) (hmode : (calls[i]?).any (Selection.reads numbers) = true → mode = .getOne)
    (hpicks : ∀ ns, numbers = some ns → ∀ serviceIds, calls[i]? = some (.waiting serviceIds) →
      parseSelection ns serviceIds.length .getOne ≠ [] → foundSoFar calls results = []) :
    (foundSoFar (calls.modify i (Selection.advance e numbers mode)) results).length ≤ 1 := by
  cases hc : calls[i]? with
  | none =>
    rw [List.modify_eq_self (List.getElem?_eq_none_iff.mp hc)]
    exact hlength
  | some c =>
    have hmodify := length_foundSoFar_modify hc results (Selection.advance e numbers mode)
    cases c with
    | prompting serviceIds =>
      simp only [Selection.advance, Selection.results, List.length_nil] at hmodify
      omega
    | ended found =>
      simp only [Selection.advance, Selection.results] at hmodify
      omega
    | waiting serviceIds =>
      simp only [Selection.advance, Selection.results, List.length_nil] at hmodify
      cases hnumbers : numbers with
      | none =>
        subst hnumbers
        simp only [Engine.picked, List.length_nil] at hmodify
        omega
      | some ns =>
        subst hnumbers
        have hone : mode = .getOne := hmode (by rw [hc]; rfl)
        subst hone
        have hpicked := length_picked e serviceIds (some ns)
        by_cases hempty : parseSelection ns serviceIds.length .getOne = []
        · simp only [Engine.picked, hempty, List.filterMap_nil, List.length_nil] at hmodify
          omega
        · rw [hpicks ns rfl serviceIds hc hempty, List.length_nil] at hmodify
          omega

theorem stays_select {i : ℕ} (hpicks : s.PicksOnce (.select i numbers))
    (hmodes : ∀ x, s.access (.select i numbers) = some x → modes.get x = if s.holds x then .getImportant else .getOne) :
    Stays s (s.step e modes (.select i numbers)) modes modes (s.access (.select i numbers)) := by
  cases hstage : s.stage with
  | selecting calls results =>
    simp only [step, hstage]
    have hpassing : Stage.passing s.stage = true := by rw [hstage]; rfl
    refine stays_use h hu hpassing rfl ?_ (hmodes .selector)
    rcases h.originals with ho | ho
    · simp only [OnTrack, ho, hstage] at h ⊢
      refine ⟨h.1, length_found_select h.2 (fun hread => ?_) ?_⟩
      · have haccess : s.access (.select i numbers) = some .selector := by simp only [access, hstage, hread, if_true]
        have hmode := hmodes .selector haccess
        rwa [holds_of_passing (.inl ho) hpassing, ho] at hmode
      · rintro ns rfl serviceIds hc hsome
        simp only [PicksOnce, hstage] at hpicks
        exact hpicks serviceIds ho hc hsome
    · simpa only [OnTrack, ho, hstage] using h
  | navigating | testing | saving | setting | restoring | returned =>
    simp only [step, hstage]
    exact stays_self h hu

theorem stays_collectResults (i : ℕ) : Stays s (s.step e modes (.collectResults i)) modes modes none := by
  cases hstage : s.stage with
  | selecting calls results =>
    simp only [step, hstage]
    split
    · rename_i found hc
      refine stays_passing h hu ?_ rfl (by rw [hstage]; rfl) rfl
      rcases h.originals with ho | ho
      · simp only [OnTrack, ho, hstage] at h ⊢
        rw [length_foundSoFar_collect hc]
        exact h
      · simpa only [OnTrack, ho, hstage] using h
    · exact stays_self h hu
  | navigating | testing | saving | setting | restoring | returned =>
    simp only [step, hstage]
    exact stays_self h hu

theorem stays_main_pass (hstage : (∃ nav, s.stage = .navigating nav) ∨ ∃ calls results,
    s.stage = .selecting calls results) : Stays s (s.main e modes.engine) modes modes none := by
  rcases hstage with ⟨nav, hstage⟩ | ⟨calls, results, hstage⟩
  · have hpassing : Stage.passing s.stage = true := by rw [hstage]; rfl
    cases nav with
    | ended nodes =>
      simp only [main, hstage]
      refine stays_passing h hu ?_ rfl hpassing rfl
      have hnone : ∀ groups : List ServiceGroup, foundSoFar (groups.map Selection.start) [] = [] := by
        intro groups
        rw [foundSoFar, List.nil_append, List.flatMap_eq_nil_iff]
        intro call hcall
        obtain ⟨group, -, rfl⟩ := List.mem_map.mp hcall
        unfold Selection.start
        split <;> rfl
      rcases h.originals with ho | ho
      · simp only [OnTrack, ho, hstage] at h ⊢
        exact ⟨h, by rw [hnone]; exact Nat.zero_le 1⟩
      · simpa only [OnTrack, ho, hstage] using h
    | prompting | waiting | descending =>
      simp only [main, hstage]
      exact stays_self h hu
  · have hpassing : Stage.passing s.stage = true := by rw [hstage]; rfl
    cases calls with
    | nil =>
      simp only [main, hstage]
      refine stays_passing h hu ?_ rfl hpassing rfl
      rcases h.originals with ho | ho
      · simp only [OnTrack, ho, hstage] at h ⊢
        obtain ⟨hpasses, hlength⟩ := h
        refine ⟨by rw [hpasses]; rfl, (length_uniqueResults_le results).trans ?_⟩
        simpa [foundSoFar] using hlength
      · simp only [OnTrack, ho, hstage] at h ⊢
        rw [h]
        rfl
    | cons call calls =>
      simp only [main, hstage]
      exact stays_self h hu

theorem stays_main_testing {results : List SearchResult} (hstage : s.stage = .testing results)
    (hmode : modes.get .engine = if s.holds .engine then .getImportant else .getOne) :
    Stays s (s.main e modes.engine) modes modes (some .engine) := by
  have hpassing : Stage.passing s.stage = true := by rw [hstage]; rfl
  have hheld := holds_of_passing h.originals hpassing
  rw [hheld] at hmode
  rcases h.originals with ho | ho
  · have hone : modes.engine = .getOne := by simpa [Modes.get, ho] using hmode
    have htrack := h
    simp only [OnTrack, ho, hstage] at htrack
    obtain ⟨hpasses, hlength⟩ := htrack
    by_cases hempty : results = []
    · subst hempty
      simp only [main, hstage, hone, and_self, if_true]
      refine stays_passing h hu ?_ rfl hpassing rfl
      simpa only [OnTrack, ho] using hpasses
    · simp only [main, hstage, hempty, and_false, if_false, finish, ho, if_true]
      refine ⟨hu, ?_, fun x => .inl ⟨rfl, ?_⟩⟩
      · simp only [OnTrack]
        exact ⟨hlength, .inl ⟨hpasses, hempty⟩⟩
      · rw [hheld, holds, ho]
        rfl
  · have himportant : modes.engine = .getImportant := by simpa [Modes.get, ho] using hmode
    simp only [OnTrack, ho, hstage] at h
    simp only [main, hstage, himportant, reduceCtorEq, false_and, if_false, finish, ho]
    refine ⟨hu, ?_, fun x => .inl ⟨rfl, ?_⟩⟩
    · simpa only [OnTrack, ho] using h
    · rw [hheld]
      simp only [holds, ho]
      cases x <;> rfl

theorem stays_main_saving (hstage : s.stage = .saving)
    (hmode : modes.get .engine = if s.holds .engine then .getImportant else .getOne) :
    Stays s (s.main e modes.engine) modes modes (some .engine) := by
  have hheld := holds_of_passing (s := s) h.originals (by rw [hstage]; rfl)
  rw [hheld] at hmode
  rcases h.originals with ho | ho
  · have hone : modes.engine = .getOne := by simpa [Modes.get, ho] using hmode
    simp only [OnTrack, ho, hstage] at h
    simp only [main, hstage, hone, ho]
    refine ⟨hu, ?_, fun x => .inl ⟨rfl, ?_⟩⟩
    · simpa only [OnTrack] using h
    · rw [hheld, ho]
      simp only [holds]
      cases x <;> rfl
  · simp only [OnTrack, ho, hstage] at h

theorem stays_main_setting (hstage : s.stage = .setting x) :
    Stays s (s.main e modes.engine) modes (modes.set .getImportant x) (some x) := by
  rcases h.originals with ho | ho
  · simp only [OnTrack, ho, hstage] at h
  · simp only [OnTrack, ho, hstage] at h
    cases x with
    | engine | navigator | selector =>
      simp only [main, hstage, Attribute.next]
      refine ⟨hu, by simpa only [OnTrack, ho] using h, fun y => ?_⟩
      simp only [holds, ho, hstage]
      cases y <;> simp [Modes.get, Modes.set, Attribute.before]

theorem stays_main_restoring {results : List SearchResult} (hstage : s.stage = .restoring x results) :
    s.originals = [.getOne] ∧ Stays s (s.main e modes.engine) modes (modes.set .getOne x) (some x) := by
  rcases h.originals with ho | ho
  · simp only [OnTrack, ho, hstage] at h
  · refine ⟨ho, ?_⟩
    simp only [OnTrack, ho, hstage] at h
    cases x with
    | engine | navigator =>
      simp only [main, hstage, Attribute.next]
      refine ⟨hu, by simpa only [OnTrack, ho] using h, fun y => ?_⟩
      simp only [holds, ho, hstage]
      cases y <;> simp [Modes.get, Modes.set, Attribute.before]
    | selector =>
      simp only [main, hstage, Attribute.next, leave, finish, ho, List.tail_cons, if_true]
      refine ⟨hu, ?_, fun y => ?_⟩
      · simp only [OnTrack]
        refine ⟨?_, .inr ⟨results, h, rfl⟩⟩
        simp
      · simp only [holds, ho, hstage]
        cases y <;> simp [Modes.get, Modes.set, Attribute.before]

/-- **One step keeps a search on its track**, when the attribute that it uses is as the search has left it. -/
theorem stays_step (hpicks : s.PicksOnce move)
    (hmodes : ∀ x, s.access move = some x → modes.get x = if s.holds x then .getImportant else .getOne) :
    Stays s (s.step e modes move) modes ((s.written move).elim modes fun p => modes.set p.2 p.1) (s.access move) := by
  cases move with
  | navigate path numbers => exact stays_navigate h hu hmodes
  | collectNodes path i => exact stays_collectNodes h hu path i
  | select i numbers => exact stays_select h hu hpicks hmodes
  | collectResults i => exact stays_collectResults h hu i
  | main =>
    simp only [step]
    cases hstage : s.stage with
    | navigating nav =>
      simp only [written, access, hstage]
      exact stays_main_pass h hu (.inl ⟨nav, hstage⟩)
    | selecting calls results =>
      simp only [written, access, hstage]
      exact stays_main_pass h hu (.inr ⟨calls, results, hstage⟩)
    | testing results =>
      simp only [written, access, hstage]
      exact stays_main_testing h hu hstage (hmodes .engine (by simp only [access, hstage]))
    | saving =>
      simp only [written, access, hstage]
      exact stays_main_saving h hu hstage (hmodes .engine (by simp only [access, hstage]))
    | setting x =>
      simp only [written, access, hstage]
      exact stays_main_setting h hu hstage
    | restoring x results =>
      have hstaying : s.originals = [.getOne] ∧ Stays s (s.main e modes.engine) modes (modes.set .getOne x) (some x) :=
        stays_main_restoring h hu hstage
      obtain ⟨ho, hstays⟩ := hstaying
      simp only [written, access, hstage, ho]
      exact hstays
    | returned results =>
      simp only [written, access, main, hstage]
      exact stays_self h hu

omit h hu

end SearchRun

namespace Searching

variable {e : Engine} {w : Searching}

theorem orderly_search (h : w.Orderly) : (w.step e .search).Orderly := by
  have hmem : ∀ {j : ℕ} {t : SearchRun}, (w.searches ++ [SearchRun.start e])[j]? = some t →
      w.searches[j]? = some t ∨ ∀ x, t.holds x = false := by
    intro j t hj
    rcases Nat.lt_or_ge j w.searches.length with hlt | hge
    · rw [List.getElem?_append_left hlt] at hj
      exact .inl hj
    · have hmem := List.mem_of_getElem? ((List.getElem?_append_right hge).symm.trans hj)
      obtain rfl := List.mem_singleton.mp hmem
      exact .inr fun _ => rfl
  refine ⟨fun s hs => ?_, fun s hs => ?_, fun x i j s s' hi hj hx hx' => ?_, fun x s hs hx => ?_, fun x hnone => ?_⟩
  · rcases List.mem_append.mp hs with hs | hs
    · exact h.uses s hs
    · obtain rfl := List.mem_singleton.mp hs
      exact nofun
  · rcases List.mem_append.mp hs with hs | hs
    · exact h.track s hs
    · obtain rfl := List.mem_singleton.mp hs
      exact rfl
  · rcases hmem hi with hi | hfree
    · rcases hmem hj with hj | hfree
      · exact h.once x i j s s' hi hj hx hx'
      · exact absurd (hfree x) (by simp [hx'])
    · exact absurd (hfree x) (by simp [hx])
  · rcases List.mem_append.mp hs with hs | hs
    · exact h.held x s hs hx
    · obtain rfl := List.mem_singleton.mp hs
      cases hx
  · exact h.free x fun s hs => hnone s (List.mem_append_left _ hs)

/-- **One step keeps the invariant.** -/
theorem Orderly.step (h : w.Orderly) {ev : SearchEvent} (hapart : w.Apart ev) : (w.step e ev).Orderly := by
  cases ev with
  | search => exact orderly_search h
  | go i move =>
    cases hs : w.searches[i]? with
    | none =>
      simp only [Searching.step, hs]
      exact h
    | some s =>
      simp only [Searching.step, hs]
      obtain ⟨halone, hpicks⟩ := hapart s hs
      have hmem := List.mem_of_getElem? hs
      have hstays := SearchRun.stays_step (e := e) (h.track s hmem) (h.uses s hmem) hpicks
        fun x hx => h.get_of_alone hs (halone x hx)
      refine h.change hs hstays.uses hstays.track fun x => (hstays.attributes x).imp_right ?_
      rintro ⟨haccess, hget⟩
      exact ⟨halone x haccess, hget⟩

/-- **Searches for one service do not disturb each other**, in every run in which each attribute is used while no other
search has set it for its fallback, and first passes pick from one group at most. -/
theorem undisturbed_of_apart (e : Engine) {events : List SearchEvent} (h : Along (step e) Apart init events) :
    (run (step e) init events).Undisturbed :=
  (h.invariant (I := Orderly) orderly_init fun _ _ hw hev => hw.step hev).undisturbed

/-! ### Samples -/

/-- An engine with three services in two categories. -/
def travelEngine : Engine where
  mode := .getOne
  categories := Dict.ofList [("root", { children := ["weather", "travel"] }), ("weather", { services := ["forecast"] }),
    ("travel", { services := ["flights", "hotels"] })]
  services := Dict.ofList [("forecast", ⟨"forecast", "Forecast", "The weather of today"⟩),
    ("flights", ⟨"flights", "Flights", "Times and fares"⟩), ("hotels", ⟨"hotels", "Hotels", "Rooms"⟩)]

def emptyEngine : Engine := { mode := .getOne, categories := Dict.ofList [("root", {})], services := ∅ }

/-- Two searches side by side. The first one finds nothing in the travel category, and two services in its fallback. The
second one selects its category while the mode of the engine is that of the fallback and the mode of the navigator is not
yet, and goes on when all of them are set back. -/
def twoSearches : List SearchEvent :=
  [.search, .search, .go 0 (.navigate [] none), .go 1 (.navigate [] none), .go 0 (.navigate [] (some [2])),
    .go 0 (.collectNodes [] 0), .go 0 .main, .go 0 (.select 0 none), .go 0 (.select 0 (some [])), .go 0 (.collectResults 0),
    .go 0 .main, .go 0 .main, .go 0 .main, .go 0 .main, .go 1 (.navigate [] (some [1])), .go 1 (.collectNodes [] 0),
    .go 1 .main, .go 0 .main, .go 0 .main, .go 0 (.navigate [] none), .go 0 (.navigate [] (some [1, 2])),
    .go 0 (.collectNodes [] 0), .go 0 (.collectNodes [] 0), .go 0 .main, .go 0 (.select 0 none),
    .go 0 (.select 0 (some [3, 1])), .go 0 (.collectResults 0), .go 0 .main, .go 0 .main, .go 0 .main, .go 0 .main,
    .go 0 .main, .go 1 (.select 0 none), .go 1 (.select 0 (some [1])), .go 1 (.collectResults 0), .go 1 .main, .go 1 .main]

theorem undisturbed_sample :
    (run (step travelEngine) init twoSearches).searches.map (fun s => s.passes.map fun found => found.map (·.id)) =
        [[[], ["forecast", "flights"]], [["forecast"]]] ∧ (run (step travelEngine) init twoSearches).Undisturbed :=
  ⟨by decide +kernel, undisturbed_of_apart travelEngine (by decide +kernel)⟩

/-- Two searches have found nothing. The second one keeps the mode that the first one has set for its fallback, and sets
the engine to that in the end. -/
theorem mode_left_behind :
    (run (step emptyEngine) init ([SearchEvent.search, .search] ++ List.replicate 3 (SearchEvent.go 0 .main) ++
        List.replicate 3 (SearchEvent.go 1 .main) ++ List.replicate 2 (SearchEvent.go 0 .main) ++
        List.replicate 1 (SearchEvent.go 1 .main) ++ List.replicate 8 (SearchEvent.go 0 .main) ++
        List.replicate 9 (SearchEvent.go 1 .main))).modes = ⟨.getImportant, .getImportant, .getImportant⟩ ∧
      ¬ (run (step emptyEngine) init ([SearchEvent.search, .search] ++ List.replicate 3 (SearchEvent.go 0 .main) ++
        List.replicate 3 (SearchEvent.go 1 .main) ++ List.replicate 2 (SearchEvent.go 0 .main) ++
        List.replicate 1 (SearchEvent.go 1 .main) ++ List.replicate 8 (SearchEvent.go 0 .main) ++
        List.replicate 9 (SearchEvent.go 1 .main))).Undisturbed := by
  generalize hw : run (step emptyEngine) init ([SearchEvent.search, .search] ++ List.replicate 3 (SearchEvent.go 0 .main) ++
    List.replicate 3 (SearchEvent.go 1 .main) ++ List.replicate 2 (SearchEvent.go 0 .main) ++
    List.replicate 1 (SearchEvent.go 1 .main) ++ List.replicate 8 (SearchEvent.go 0 .main) ++
    List.replicate 9 (SearchEvent.go 1 .main)) = w
  have hmodes : w.modes = ⟨.getImportant, .getImportant, .getImportant⟩ := by
    rw [← hw]
    decide +kernel
  have hall : w.searches.all (fun s => s.stage matches .returned _) = true := by
    rw [← hw]
    decide +kernel
  refine ⟨hmodes, fun h => ?_⟩
  have hreturned : ∀ s ∈ w.searches, ∃ results, s.stage = .returned results := by
    intro s hs
    have hstage := List.all_eq_true.mp hall s hs
    cases heq : s.stage with
    | returned results => exact ⟨results, rfl⟩
    | _ =>
      rw [heq] at hstage
      cases hstage
  have hinit := h.modes hreturned
  rw [hmodes] at hinit
  exact absurd hinit (by decide)

end Searching

end AgentProtocol.A2X
