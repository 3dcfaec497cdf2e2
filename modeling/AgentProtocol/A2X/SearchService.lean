-- SUMMARY: Cached search engines over the registry's datasets, and when a search in an available taxonomy shows the services that are registered.
import AgentProtocol.Register.Ownership
import AgentProtocol.A2X.Search

/-!
# The search service

`SearchService` keeps an engine for each dataset and mode, made from the files of the dataset when
the mode is first asked for. What the registry says about the taxonomy is about the files as they
are now. So a search shows the services that are registered as long as an engine that was kept
is the one that would be made again, and the taxonomy was built from services with the ids that
are registered: the hash that the registry compares does not cover ids.
-/

namespace AgentProtocol.A2X

open Lib Register

/-! ## State -/

/-- A dataset: what the registry holds, and `taxonomy.json`. -/
structure Dataset where
  registry : Registry
  /-- The registry has a taxonomy state for it, as startup gives it. -/
  managed : Bool := false
  taxonomy : Option Categories := none
  /-- The ids of the services that the taxonomy was built from. No file has them. -/
  builtFrom : List String := []

structure World where
  /-- The vector extra is installed. -/
  vector : Bool
  datasets : Dict String Dataset := ∅
  /-- `_a2x_instances`. -/
  engines : Dict String Engine := ∅

/-- A row of `service.json`, as the engine reads it. -/
def ofRow (row : OutputRow) : Service := { id := row.id, name := row.name, description := row.description }

/-- `str.replace` of a text by nothing; each round takes at least one character off. -/
def removeAll (sub : List Char) : ℕ → List Char → List Char
  | 0, l => l
  | fuel + 1, l => match l with
    | [] => []
    | c :: rest => if sub.isPrefixOf l then removeAll sub fuel (l.drop sub.length) else c :: removeAll sub fuel rest

def modeOf (method : String) : String := String.ofList (removeAll "a2x_".toList method.length method.toList)

def engineKey (dataset mode : String) : String := dataset ++ "_" ++ mode

namespace World

variable (w : World) (dataset : String)

/-! ## Datasets -/

/-- `create_dataset`, which refuses a dataset that exists. -/
def create (formats : FormatConfig) : World :=
  if w.datasets.contains dataset then w
  else { w with datasets := w.datasets.set dataset { registry := { formats } } }

def purgeDataset : World :=
  if w.vector then { w with engines := w.engines.filter fun p => !Text.startsWith p.1 (dataset ++ "_") } else w

/-- The endpoint that deletes a dataset. -/
def delete : World :=
  let w := w.purgeDataset dataset
  { w with datasets := w.datasets.erase dataset }

/-- The call gets as far as to initialize a dataset that does not exist. -/
def initializes (c : Register.Call) : Bool :=
  match c.op with
  | .registerGeneric _ | .registerA2a _ => (({} : Registry).exec c).1.isOk
  | .registerSkill _ => (assertCanRegister c.caller).isOk
  | _ => false

def call (c : Register.Call) : World :=
  match w.datasets.lookup dataset with
  | some ds => { w with datasets := w.datasets.set dataset { ds with registry := ds.registry.step c } }
  | none => if initializes c then { w with datasets := w.datasets.set dataset { registry := ({} : Registry).step c } } else w

/-- A registry whose dataset has a taxonomy with the hash of some services. -/
def stamped (r : Registry) (services : List OutputRow) : Registry :=
  { r with store := { r.store with files :=
      { r.store.files with serviceHash := some (computeBuildHash services), taxonomyJson := true } } }

def build (categories : Categories) : World :=
  match w.datasets.lookup dataset with
  | none => w
  | some ds => match ds.registry.store.files.serviceJson with
    | none => w
    | some services =>
      let built := { ds with registry := stamped ds.registry services, taxonomy := some categories, builtFrom := services.map (·.id) }
      { w with datasets := w.datasets.set dataset built }

/-- The process starts again. -/
def restart (fetch : String → Option AgentCard) : World where
  vector := w.vector
  datasets := w.datasets.mapValues fun ds => { ds with registry := ds.registry.restart fetch, managed := true }

/-! ## Searches -/

/-- `check_taxonomy_state`: nothing for a dataset that is not managed. -/
def checkTaxonomyState : Option TaxonomyState × World :=
  match w.datasets.lookup dataset with
  | none => (none, w)
  | some ds =>
    if ds.managed then
      (some ds.registry.checkTaxonomyState.1,
        { w with datasets := w.datasets.set dataset { ds with registry := ds.registry.checkTaxonomyState.2 } })
    else (none, w)

/-- `A2XSearch.__init__` on the files of the dataset; it fails if the mode is not valid or a file is not there. -/
def makeEngine (mode : String) : Option Engine := do
  let mode ← Mode.ofString? mode
  let ds ← w.datasets.lookup dataset
  let categories ← ds.taxonomy
  let services ← ds.registry.store.files.serviceJson
  some { mode, categories, services := servicesIndex (services.map ofRow) }

def getA2x (mode : String) : Option Engine × World :=
  match w.engines.lookup (engineKey dataset mode) with
  | some e => (some e, w)
  | none => match w.makeEngine dataset mode with
    | none => (none, w)
    | some e => (some e, { w with engines := w.engines.set (engineKey dataset mode) e })

/-- What a search gives: the state that the check found, the engine, and the results. -/
structure Reply where
  state : Option TaxonomyState
  engine : Engine
  results : List SearchResult

/-- `search` and `search_stream`, for the methods of this engine. -/
def search (method : String) (answers : Answers) : Option Reply × World :=
  if Text.startsWith method "a2x" then
    let (state, w) := w.checkTaxonomyState dataset
    -- `_check_taxonomy`
    if state = some .unavailable ∨ state = some .nonexistent then (none, w)
    else match w.getA2x dataset (modeOf method) with
      | (none, w) => (none, w)
      | (some engine, w) => (some { state, engine, results := engine.search answers }, w)
  else (none, w)

end World

inductive Event where
  | create (dataset : String) (formats : FormatConfig)
  | delete (dataset : String)
  | call (dataset : String) (c : Register.Call)
  | build (dataset : String) (categories : Categories)
  | restart (fetch : String → Option AgentCard)
  /-- An engine is made at startup. -/
  | warm (dataset mode : String)
  | search (dataset method : String) (answers : Answers)

namespace World

def step (w : World) : Event → World
  | .create dataset formats => w.create dataset formats
  | .delete dataset => w.delete dataset
  | .call dataset c => w.call dataset c
  | .build dataset categories => w.build dataset categories
  | .restart fetch => w.restart fetch
  | .warm dataset mode => (w.getA2x dataset mode).2
  | .search dataset method answers => (w.search dataset method answers).2

/-! ## What a search is to show -/

/-- The results are registered, with their names and descriptions, and what is registered can be found. -/
structure Shows (registry : Registry) (reply : Reply) : Prop where
  registered : ∀ result ∈ reply.results,
    ∃ row ∈ registry.output, row.id = result.id ∧ row.name = result.name ∧ row.description = result.description
  found : ∀ e ∈ registry.entries.rows, Engine.Listed reply.engine.categories e.serviceId

/-- The law, for one event: a search that finds the taxonomy available shows what is registered. -/
def Lawful (w : World) : Event → Prop
  | .search dataset method answers => ∀ reply ∈ (w.search dataset method answers).1, reply.state = some .available →
      ∃ ds ∈ w.datasets.lookup dataset, Shows ds.registry reply
  | _ => True

/-- The taxonomy lists the services with these ids. -/
def Complete (categories : Categories) (ids : List String) : Prop := ∀ sid, sid ∈ ids ↔ Engine.Listed categories sid

/-- A build lists the services that it read. In an available taxonomy, a search finds no engine but the one that would
be made now, and the taxonomy was built from services with the ids that are registered. -/
def Sound (w : World) : Event → Prop
  | .build dataset categories => ∀ ds ∈ w.datasets.lookup dataset, ∀ services ∈ ds.registry.store.files.serviceJson,
      Complete categories (services.map (·.id))
  | .search dataset method _ => (w.checkTaxonomyState dataset).1 = some .available →
      (∀ e ∈ w.engines.lookup (engineKey dataset (modeOf method)), w.makeEngine dataset (modeOf method) = some e) ∧
        ∀ ds ∈ w.datasets.lookup dataset, ∀ sid, sid ∈ ds.builtFrom ↔ ∃ e ∈ ds.registry.entries.rows, e.serviceId = sid
  | _ => True

end World

/-! ## The files of a dataset -/

/-- `service.json` is what the cache is, and the cache is what the entries give. -/
structure Mirrored (r : Registry) : Prop where
  file : r.store.files.serviceJson = r.outputCache
  cache : r.output = r.outputCache.getD []

section Mirrored

variable {r r₁ : Registry}

theorem Mirrored.of_shown (h : r.Shown) : Mirrored r := ⟨h.file.trans h.cache.symm, by rw [h.cache]; rfl⟩

theorem mirrored_new (formats : FormatConfig) : Mirrored { formats } := ⟨rfl, rfl⟩

theorem Mirrored.regenerate (h : Mirrored r) (hkept : Registry.Kept r r₁) : r₁.regenerateOutput.Shown := by
  apply Registry.shown_regenerateOutput
  rw [hkept.serviceJson, hkept.outputCache, h.file]

theorem Mirrored.step (h : Mirrored r) (c : Register.Call) : Mirrored (r.step c) := by
  have houtcome := Registry.outcome r c
  generalize r.step c = r' at houtcome
  cases houtcome with
  | stored store hsame =>
    rw [hsame]
    exact ⟨h.file, h.cache⟩
  | shown r₁ hedit => exact .of_shown (h.regenerate hedit.kept).mark
  | quiet entry new updates changed =>
    have hstored := Registry.kept_withStore (Registry.applyUpdates_sameButSkills r.store entry updates)
    exact .of_shown (h.regenerate ((hstored.trans (Registry.kept_put _ new)).trans (Registry.kept_saveIfApi _ new)))

theorem checkTaxonomyState_eq (r : Registry) : r.checkTaxonomyState.2 = { r with taxonomy := r.checkTaxonomyState.2.taxonomy } := by
  unfold Registry.checkTaxonomyState
  split <;> rfl

theorem Mirrored.check (h : Mirrored r) : Mirrored r.checkTaxonomyState.2 := by
  rw [checkTaxonomyState_eq]
  exact ⟨h.file, h.cache⟩

end Mirrored

/-! ## What every run keeps -/

/-- The files have the services, and the taxonomy lists what it was built from. -/
structure Dataset.Settled (ds : Dataset) : Prop where
  mirrored : Mirrored ds.registry
  complete : ∀ categories ∈ ds.taxonomy, World.Complete categories ds.builtFrom

namespace World

def Settled (w : World) : Prop := ∀ dataset, ∀ ds ∈ w.datasets.lookup dataset, ds.Settled

section Settled

variable {w : World} {dataset : String} {ds : Dataset}

variable (h : w.Settled)
include h

theorem Settled.set (hds : ds.Settled) : Settled { w with datasets := w.datasets.set dataset ds } := by
  intro name ds' hlookup
  dsimp only at hlookup
  rw [Dict.lookup_set] at hlookup
  split at hlookup
  · rwa [← Option.some.inj hlookup]
  · exact h name ds' hlookup

theorem Settled.engines {w' : World} (hsame : w'.datasets = w.datasets) : w'.Settled := by
  unfold Settled
  rw [hsame]
  exact h

theorem Settled.purgeDataset : (w.purgeDataset dataset).Settled := by
  unfold World.purgeDataset
  split
  · exact h.engines rfl
  · exact h

theorem Settled.delete : (w.delete dataset).Settled := by
  intro name ds' hlookup
  rw [World.delete] at hlookup
  dsimp only at hlookup
  rw [Dict.lookup_erase] at hlookup
  split at hlookup
  · cases hlookup
  exact h.purgeDataset name ds' hlookup

theorem Settled.call (c : Register.Call) : (w.call dataset c).Settled := by
  unfold World.call
  split
  · rename_i ds hds
    have hold := h dataset ds hds
    exact h.set ⟨hold.mirrored.step c, hold.complete⟩
  · split
    · exact h.set ⟨(mirrored_new {}).step c, nofun⟩
    · exact h

theorem Settled.build {categories : Categories} (hsound : w.Sound (.build dataset categories)) :
    (w.build dataset categories).Settled := by
  unfold World.build
  split
  · exact h
  · rename_i ds hds
    split
    · exact h
    · rename_i services hservices
      have hold := h dataset ds hds
      refine h.set ⟨⟨hold.mirrored.file, hold.mirrored.cache⟩, ?_⟩
      intro categories' heq
      obtain rfl := Option.some.inj heq
      exact hsound ds hds services hservices

theorem Settled.restart (fetch : String → Option AgentCard) : (w.restart fetch).Settled := by
  intro name ds' hlookup
  rw [World.restart] at hlookup
  dsimp only at hlookup
  rw [Dict.lookup_mapValues] at hlookup
  obtain ⟨ds, hds, rfl⟩ := Option.map_eq_some_iff.mp hlookup
  exact ⟨.of_shown (Registry.startup_shown _ _ _), (h name ds hds).complete⟩

theorem Settled.checkTaxonomyState : (w.checkTaxonomyState dataset).2.Settled := by
  unfold World.checkTaxonomyState
  split
  · exact h
  · rename_i ds hds
    split
    · have hold := h dataset ds hds
      exact h.set ⟨hold.mirrored.check, hold.complete⟩
    · exact h

theorem Settled.getA2x (mode : String) : (w.getA2x dataset mode).2.Settled := by
  unfold World.getA2x
  split
  · exact h
  · split
    · exact h
    · exact h.engines rfl

theorem Settled.search (method : String) (answers : Answers) : (w.search dataset method answers).2.Settled := by
  unfold World.search
  split
  · dsimp only
    split
    · exact h.checkTaxonomyState
    · split
      · rename_i w' hget
        exact congrArg Prod.snd hget ▸ h.checkTaxonomyState.getA2x (modeOf method)
      · rename_i engine w' hget
        exact congrArg Prod.snd hget ▸ h.checkTaxonomyState.getA2x (modeOf method)
  · exact h

theorem Settled.step {e : Event} (hsound : w.Sound e) : (w.step e).Settled := by
  cases e with
  | create dataset formats =>
    unfold World.step World.create
    dsimp only
    split
    · exact h
    · exact h.set ⟨mirrored_new formats, by rintro _ ⟨⟩⟩
  | delete dataset => exact h.delete
  | call dataset c => exact h.call c
  | build dataset categories => exact h.build hsound
  | restart fetch => exact h.restart fetch
  | warm dataset mode => exact h.getA2x mode
  | search dataset method answers => exact h.search method answers

omit h

end Settled

/-! ## What a search shows -/

section Search

variable {w : World} {dataset mode method : String} {e : Engine} {answers : Answers} {reply : Reply}

theorem makeEngine_checkTaxonomyState : (w.checkTaxonomyState dataset).2.makeEngine dataset mode = w.makeEngine dataset mode := by
  unfold checkTaxonomyState
  split
  · rfl
  · rename_i ds hds
    split
    · simp only [makeEngine, Dict.lookup_set_self, hds]
      rw [checkTaxonomyState_eq]
      rfl
    · rfl

@[simp] theorem engines_checkTaxonomyState : (w.checkTaxonomyState dataset).2.engines = w.engines := by
  unfold checkTaxonomyState
  split
  · rfl
  · split <;> rfl

theorem search_eq_some (h : (w.search dataset method answers).1 = some reply) : reply.state = (w.checkTaxonomyState dataset).1 ∧
      ((w.checkTaxonomyState dataset).2.getA2x dataset (modeOf method)).1 = some reply.engine ∧
      reply.results = reply.engine.search answers := by
  unfold search at h
  split at h
  · dsimp only at h
    split at h
    · cases h
    split at h
    · cases h
    rename_i engine w' hget
    obtain rfl := Option.some.inj h
    exact ⟨rfl, congrArg Prod.fst hget, rfl⟩
  · cases h

theorem getA2x_eq_makeEngine (hkept : ∀ e ∈ w.engines.lookup (engineKey dataset mode), w.makeEngine dataset mode = some e)
    (h : (w.getA2x dataset mode).1 = some e) : w.makeEngine dataset mode = some e := by
  unfold getA2x at h
  split at h
  · rename_i e' hlookup
    obtain rfl := Option.some.inj h
    exact hkept e' hlookup
  · split at h
    · cases h
    rename_i e' hmake
    obtain rfl := Option.some.inj h
    exact hmake

theorem makeEngine_eq_some (h : w.makeEngine dataset mode = some e) :
    ∃ ds ∈ w.datasets.lookup dataset, ds.taxonomy = some e.categories ∧
      ∃ services, ds.registry.store.files.serviceJson = some services ∧ e.services = servicesIndex (services.map ofRow) := by
  simp only [makeEngine, Option.bind_eq_bind, Option.bind_eq_some_iff] at h
  obtain ⟨mode', -, ds, hds, categories, hcategories, services, hservices, h⟩ := h
  obtain rfl := Option.some.inj h
  exact ⟨ds, hds, hcategories, services, hservices, rfl⟩

theorem result_of_mem {services : List OutputRow} (hservices : e.services = servicesIndex (services.map ofRow)) {sid : String}
    (hsid : sid ∈ services.map (·.id)) :
    ∃ row ∈ services, row.id = (e.result sid).id ∧ row.name = (e.result sid).name ∧ row.description = (e.result sid).description := by
  have hcontains : (servicesIndex (services.map ofRow)).contains sid = true := by
    rw [servicesIndex, Dict.contains_ofList, List.map_map, List.map_map]
    exact hsid
  obtain ⟨service, hservice⟩ := Option.isSome_iff_exists.mp hcontains
  have hresult : e.result sid = { id := sid, name := service.name, description := service.description } := by
    rw [Engine.result, hservices, hservice]
  rcases Table.mem_of_mem_insertAll (Dict.lookup_eq_some.mp hservice) with hrow | hrow
  · cases hrow
  obtain ⟨s, hs, heq⟩ := List.mem_map.mp hrow
  obtain ⟨rfl, rfl⟩ := Prod.mk.inj heq
  obtain ⟨row, hmem, rfl⟩ := List.mem_map.mp hs
  rw [hresult]
  exact ⟨row, hmem, rfl, rfl, rfl⟩

theorem Settled.shows (h : w.Settled) (hmake : w.makeEngine dataset mode = some reply.engine)
    (hresults : reply.results = reply.engine.search answers)
    (hids : ∀ ds ∈ w.datasets.lookup dataset, ∀ sid, sid ∈ ds.builtFrom ↔ ∃ e ∈ ds.registry.entries.rows, e.serviceId = sid) :
    ∃ ds ∈ w.datasets.lookup dataset, Shows ds.registry reply := by
  obtain ⟨ds, hds, hcategories, services, hservices, hindex⟩ := makeEngine_eq_some hmake
  have hsettled := h dataset ds hds
  have houtput : ds.registry.output = services := by
    rw [hsettled.mirrored.cache, ← hsettled.mirrored.file, hservices]
    rfl
  have hcomplete := hsettled.complete _ hcategories
  refine ⟨ds, hds, ?_, ?_⟩
  · intro result hresult
    rw [hresults] at hresult
    obtain ⟨hlisted, hsame⟩ := Engine.mem_search hresult
    obtain ⟨entry, hentry, hid⟩ := (hids ds hds _).mp ((hcomplete _).mpr hlisted)
    have hsid : result.id ∈ services.map (·.id) := by
      rw [← houtput, Registry.output, List.map_map]
      exact List.mem_map.mpr ⟨entry, hentry, (Registry.toOutput_id entry).trans hid⟩
    rw [houtput, hsame]
    have hself : (reply.engine.result result.id).id = result.id := congrArg SearchResult.id hsame.symm
    obtain ⟨row, hrow, hfields⟩ := result_of_mem hindex hsid
    exact ⟨row, hrow, by simpa only [hself] using hfields⟩
  · intro entry hentry
    exact (hcomplete _).mp ((hids ds hds _).mpr ⟨entry, hentry, rfl⟩)

theorem Settled.lawful (h : w.Settled) {e : Event} (hsound : w.Sound e) : w.Lawful e := by
  cases e with
  | search dataset method answers =>
    intro reply hreply havailable
    obtain ⟨hstate, hget, hresults⟩ := search_eq_some hreply
    obtain ⟨hkept, hids⟩ := hsound (hstate ▸ havailable)
    have hmake := getA2x_eq_makeEngine (by simpa only [engines_checkTaxonomyState, makeEngine_checkTaxonomyState] using hkept) hget
    rw [makeEngine_checkTaxonomyState] at hmake
    exact h.shows hmake hresults hids
  | create | delete | call | build | restart | warm => trivial

end Search

/-- In a run whose builds list the services that they read, and whose searches in an available taxonomy find no outdated
engine and a taxonomy of the registered ids, each such search shows the services that are registered. -/
theorem shows_along (vector : Bool) (es : List Event) (hsound : Along step Sound { vector } es) : Along step Lawful { vector } es :=
  hsound.imp (I := Settled) (fun _ _ hds => nomatch hds) (fun _ _ h hs => h.step hs) fun _ _ h hs => h.lawful hs

/-! One dataset, in which services are registered under given ids. -/

def registering (id name : String) : Event :=
  .call "tools" ⟨.registerGeneric { serviceId := some id, name, description := "A tool" }, none⟩

def fetchNothing : String → Option AgentCard := fun _ => none

/-- A tree of the root alone. -/
def rootOnly (ids : List String) : Categories := Dict.ofList [("root", { services := ids })]

/-- A model that selects the first of what it is shown. -/
def choosingFirst : Answers where
  categories _ _ := some [1]
  navigated _ _ := [0]
  services _ _ := some [1]
  selected _ := [0]

theorem complete_rootOnly (ids : List String) : Complete (rootOnly ids) ids := by
  have hlookup : ∀ id, (rootOnly ids).lookup id = if id = "root" then some { services := ids } else none := by
    intro id
    rw [show rootOnly ids = (∅ : Categories).set "root" { services := ids } from rfl, Dict.lookup_set]
    simp [eq_comm]
  have hservices : ∀ id, (rootOnly ids).servicesOf id = if id = "root" then ids else [] := by
    intro id
    rw [Categories.servicesOf, hlookup]
    split <;> rfl
  intro sid
  constructor
  · intro hsid
    refine ⟨"root", .refl, ?_⟩
    rw [hservices, if_pos rfl]
    exact hsid
  · rintro ⟨id, -, hsid⟩
    rw [hservices] at hsid
    split at hsid
    · exact hsid
    · cases hsid

/-- A service is registered, the taxonomy is built, and the process starts again. -/
def prepared : List Event :=
  [.create "tools" {}, registering "maps" "Maps", .build "tools" (rootOnly ["maps"]), .restart fetchNothing]

theorem shows_prepared : Along step Lawful { vector := false } (prepared ++ [.search "tools" "a2x_get_all" choosingFirst]) := by
  refine shows_along false _ ⟨trivial, trivial, ?_, trivial, ?_, trivial⟩
  · intro ds hds services hservices
    have hids : ((run step { vector := false } (prepared.take 2)).datasets.lookup "tools").bind
        (fun ds => ds.registry.store.files.serviceJson.map fun services => services.map (·.id)) = some ["maps"] := by decide +kernel
    have hrun : (run step { vector := false } (prepared.take 2)).datasets.lookup "tools" = some ds := hds
    rw [hrun, Option.bind_some, hservices, Option.map_some] at hids
    rw [Option.some.inj hids]
    exact complete_rootOnly _
  · intro _
    refine ⟨?_, ?_⟩
    · intro e he
      have hnone : ((run step { vector := false } prepared).engines.lookup (engineKey "tools" (modeOf "a2x_get_all"))).isNone := by
        decide +kernel
      exact absurd (Option.isNone_iff_eq_none.mp hnone ▸ he) nofun
    · intro ds hds sid
      have hids : ((run step { vector := false } prepared).datasets.lookup "tools").map
          (fun ds => (ds.builtFrom, ds.registry.entries.rows.map (·.serviceId))) = some (["maps"], ["maps"]) := by decide +kernel
      have hrun : (run step { vector := false } prepared).datasets.lookup "tools" = some ds := hds
      rw [hrun, Option.map_some] at hids
      obtain ⟨hbuilt, hentries⟩ := Prod.mk.inj (Option.some.inj hids)
      rw [hbuilt, ← hentries]
      exact List.mem_map

/-- After a first search the service gives way to another one, and the taxonomy is built again. -/
def rebuilt : List Event :=
  prepared ++ [.search "tools" "a2x_get_all" choosingFirst, .call "tools" ⟨.deregister "maps", none⟩, registering "mail" "Mail",
    .build "tools" (rootOnly ["mail"])]

/-- The engine of the first search is kept, and goes on showing the service that is gone. -/
theorem not_shows_rebuilt : ¬ (run step { vector := true } rebuilt).Lawful (.search "tools" "a2x_get_all" choosingFirst) := by
  intro h
  have hreply : ((run step { vector := true } rebuilt).search "tools" "a2x_get_all" choosingFirst).1.map
      (fun reply => (reply.state, reply.results)) =
      some (some .available, [{ id := "maps", name := "Maps", description := "A tool" }]) := by decide +kernel
  obtain ⟨reply, hsearch, heq⟩ := Option.map_eq_some_iff.mp hreply
  obtain ⟨hstate, hresults⟩ := Prod.mk.inj heq
  obtain ⟨ds, hds, hshows⟩ := h reply hsearch hstate
  obtain ⟨row, hrow, hid, -, -⟩ := hshows.registered _ (hresults ▸ List.mem_cons_self)
  have hids : ((run step { vector := true } rebuilt).datasets.lookup "tools").map (fun ds => ds.registry.output.map (·.id)) =
      some ["mail"] := by decide +kernel
  rw [hds, Option.map_some] at hids
  have hmem : row.id ∈ ds.registry.output.map (·.id) := List.mem_map.mpr ⟨row, hrow, rfl⟩
  rw [Option.some.inj hids, hid] at hmem
  exact absurd hmem (by decide)

end World

end AgentProtocol.A2X
