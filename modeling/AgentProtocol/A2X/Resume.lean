-- SUMMARY: A build that goes on from a checkpoint ends with the taxonomy of a fresh one, as long as the services stay and no checkpoint is torn.
import AgentProtocol.A2X.Checkpoint
import AgentProtocol.A2X.Pending

/-!
# Resumed builds

A build that goes on from a checkpoint splits what the first build had still to split. That leads
to the taxonomy of a fresh build if the services are the same. But the list of services is loaded
again, and the taxonomy is not: a service that is new since then is in no category, and one that
was removed stays, while the hash that is stamped is that of the new list. A checkpoint may also be torn,
since `class.json` is written after `taxonomy.json`.
-/

namespace AgentProtocol.A2X

open Lib

/-! ## The cross-domain phase depends on the content alone -/

section Congr

variable {cfg : Config} {llm : Llm} {index index' : Dict String Service} {cats cats' : Categories} {classes classes' : Dict String ClassInfo}

theorem childrenOf_congr (h : ∀ id, cats.lookup id = cats'.lookup id) : cats.childrenOf = cats'.childrenOf := by
  funext id
  rw [Categories.childrenOf, Categories.childrenOf, h id]

theorem servicesOf_congr (h : ∀ id, cats.lookup id = cats'.lookup id) : cats.servicesOf = cats'.servicesOf := by
  funext id
  rw [Categories.servicesOf, Categories.servicesOf, h id]

theorem leavesLoop_congr (h : ∀ id, cats.lookup id = cats'.lookup id) : ∀ (fuel : ℕ) (stack leaves : List String),
    leavesLoop cats fuel stack leaves = leavesLoop cats' fuel stack leaves
  | 0, [], _ => rfl
  | 0, _ :: _, _ => rfl
  | _ + 1, [], _ => rfl
  | fuel + 1, id :: stack, leaves => by
    rw [leavesLoop, leavesLoop, childrenOf_congr h]
    split
    · exact leavesLoop_congr h fuel stack _
    · exact leavesLoop_congr h fuel _ leaves

theorem getLeavesUnder_congr (h : ∀ id, cats.lookup id = cats'.lookup id) : getLeavesUnder cats = getLeavesUnder cats' := by
  funext id
  rw [getLeavesUnder, getLeavesUnder, childrenOf_congr h, Dict.length_rows_congr h]
  split
  · rfl
  · exact leavesLoop_congr h _ _ _

theorem lookup_addLink_congr (h : ∀ id, cats.lookup id = cats'.lookup id) (link : String × String) (id : String) :
    (addLink cats link).lookup id = (addLink cats' link).lookup id := by
  unfold addLink
  rw [h link.2]
  split
  · exact h id
  · split
    · exact h id
    · rw [Dict.lookup_set, Dict.lookup_set, h id]

theorem lookup_foldl_addLink_congr : ∀ (links : List (String × String)) {cats cats' : Categories},
    (∀ id, cats.lookup id = cats'.lookup id) → ∀ id, (links.foldl addLink cats).lookup id = (links.foldl addLink cats').lookup id
  | [], _, _, h => h
  | link :: links, _, _, h => lookup_foldl_addLink_congr links (lookup_addLink_congr h link)

theorem applyCrossDomain_congr (hindex : ∀ sid, index.lookup sid = index'.lookup sid) (hcats : ∀ id, cats.lookup id = cats'.lookup id)
    (hclasses : ∀ id, classes.lookup id = classes'.lookup id) {result : Categories}
    (h : applyCrossDomain llm index cats classes = some result) :
    ∃ result', applyCrossDomain llm index' cats' classes' = some result' ∧ ∀ id, result.lookup id = result'.lookup id := by
  have hindex := funext hindex
  have hclasses := funext hclasses
  have hidentify : identifyCandidates llm index cats classes = identifyCandidates llm index' cats' classes' := by
    simp only [identifyCandidates, childrenOf_congr hcats, servicesOf_congr hcats, getLeavesUnder_congr hcats, hindex, hclasses]
  have hplace : placeCandidates llm index cats classes = placeCandidates llm index' cats' classes' := by
    funext candidates
    simp only [placeCandidates, childrenOf_congr hcats, getLeavesUnder_congr hcats, hindex, hclasses]
  unfold applyCrossDomain at h ⊢
  rw [childrenOf_congr hcats] at h
  split at h
  · rename_i hfew
    obtain rfl := Option.some.inj h
    exact ⟨cats', if_pos hfew, hcats⟩
  · rename_i hmany
    rw [hidentify, hplace] at h
    obtain ⟨candidates, hcandidates, h⟩ := Option.bind_eq_some_iff.mp h
    obtain ⟨links, hlinks, h⟩ := Option.bind_eq_some_iff.mp h
    obtain rfl := Option.some.inj h
    refine ⟨links.foldl addLink cats', ?_, lookup_foldl_addLink_congr links hcats⟩
    rw [if_neg hmany]
    exact Option.bind_eq_some_iff.mpr ⟨candidates, hcandidates, Option.bind_eq_some_iff.mpr ⟨links, hlinks, rfl⟩⟩

theorem finish_congr {b b' : Build} (hindex : ∀ sid, b.index.lookup sid = b'.index.lookup sid)
    (hcats : ∀ id, b.categories.lookup id = b'.categories.lookup id) (hclasses : ∀ id, b.classes.lookup id = b'.classes.lookup id)
    (h : (b.finish cfg llm).phase = .complete) : (b'.finish cfg llm).phase = .complete ∧
      (∀ id, (b.finish cfg llm).categories.lookup id = (b'.finish cfg llm).categories.lookup id) ∧
      ∀ id, (b.finish cfg llm).classes.lookup id = (b'.finish cfg llm).classes.lookup id := by
  unfold Build.finish at h ⊢
  split
  · rename_i henabled
    rw [if_pos henabled] at h
    split at h
    · cases h
    rename_i result hresult
    obtain ⟨result', hresult', hsame⟩ := applyCrossDomain_congr hindex hcats hclasses hresult
    rw [hresult']
    exact ⟨rfl, hsame, hclasses⟩
  · exact ⟨rfl, hcats, hclasses⟩

end Congr

/-! ## What the files say of a build -/

section Saved

variable {cfg : Config} {llm : Llm} {b : Build} {files : Files}

/-- The `build_status` that is saved last. -/
def Phase.status : Phase → BuildStatus
  | .bfs => .bfs
  | .crossDomain => .crossDomain
  | .complete | .failed => .complete

/-- The files say what the build has, between two of its rounds. -/
structure Saved (files : Files) (b : Build) : Prop where
  taxonomy : b.phase ≠ .failed → files.taxonomy = some (b.categories, b.phase.status)
  classes : b.phase ≠ .failed → files.classes = some b.classes
  keywords : files.keywords = b.keywords
  stamped : files.serviceHash.isSome = true
  /-- A build that is complete has stamped the hash of its own services. -/
  serviceHash : b.phase = .complete → files.serviceHash = some (computeServiceHash b.index)

theorem writeAll_append (files : Files) (ws ws' : List FileWrite) : files.writeAll (ws ++ ws') = (files.writeAll ws).writeAll ws' :=
  List.foldl_append

theorem writeAll_saveOutput (files : Files) (b : Build) (status : BuildStatus) :
    files.writeAll (b.saveOutput status) = { files with
      taxonomy := some (b.categories, status), classes := some b.classes, serviceHash := some (computeServiceHash b.index)
      assignments := if b.assignments.rows = [] then files.assignments else some b.assignments } := by
  rw [Build.saveOutput]
  split <;> rfl

theorem keywords_saveKeywords (hkeywords : files.keywords = b.keywords) {keywords : Option Keywords}
    (hkeep : ∀ k, b.keywords = some k → keywords = some k) :
    files.writeAll (b.saveKeywords keywords) = { files with keywords := keywords } := by
  cases hcached : b.keywords with
  | some k =>
    rw [hkeep k hcached, Build.saveKeywords, if_neg (by rw [hcached]; exact nofun)]
    rw [← hcached, ← hkeywords]
    rfl
  | none =>
    cases keywords with
    | none =>
      have hnone : files.keywords = none := hkeywords.trans hcached
      change files = _
      rw [← hnone]
    | some k =>
      rw [Build.saveKeywords, if_pos hcached]
      rfl

theorem splitNode_keywords_some (node : NodeInfo) (isRoot : Bool) (services : List Service) (k : Keywords) :
    (splitNode cfg llm (some k) node isRoot services).2 = some k := by
  simp only [splitNode, designCategories]
  cases isRoot with
  | false | true => split <;> rfl

theorem splitOf_keywords_some (id : String) (k : Keywords) (hk : b.keywords = some k) : (b.splitOf cfg llm id).2 = some k := by
  rw [Build.splitOf, hk]
  exact splitNode_keywords_some _ _ _ k

/-- What a round writes, and the build after it. -/
inductive Written (cfg : Config) (llm : Llm) (b : Build) : List FileWrite → Build → Prop where
  | ended (hphase : b.phase = .bfs) (hqueue : b.queue = []) :
      Written cfg llm b (b.saveOutput .crossDomain) { b with phase := .crossDomain, queue := [] }
  | idle (hphase : b.phase = .bfs) {q : String × ℕ} {queue : List (String × ℕ)} (hqueue : b.queue = q :: queue) :
      Written cfg llm b [] { b with queue }
  | failed (hphase : b.phase = .bfs) {id : String} {depth : ℕ} {queue : List (String × ℕ)} (hqueue : b.queue = (id, depth) :: queue) :
      Written cfg llm b (b.saveKeywords (b.splitOf cfg llm id).2)
        { b with queue, keywords := (b.splitOf cfg llm id).2, phase := .failed }
  | split (hphase : b.phase = .bfs) {id : String} {depth : ℕ} {queue : List (String × ℕ)} {result : NodeSplitResult}
      (hqueue : b.queue = (id, depth) :: queue) (hresult : (b.splitOf cfg llm id).1 = some result) :
      Written cfg llm b (b.saveKeywords (b.splitOf cfg llm id).2 ++ (b.apply id result).saveOutput .bfs)
        { b.apply id result with
          keywords := (b.splitOf cfg llm id).2
          queue := queue ++ Build.oversized cfg (b.apply id result).categories result (depth + 1) }
  | finished (hphase : b.phase = .crossDomain) (hdone : (b.finish cfg llm).phase = .complete) :
      Written cfg llm b ((b.finish cfg llm).saveOutput .complete) (b.finish cfg llm)
  | unfinished (hphase : b.phase = .crossDomain) : Written cfg llm b [] { b with phase := .failed }
  | stopped (hphase : b.phase = .complete ∨ b.phase = .failed) : Written cfg llm b [] b

theorem written_bfs (hphase : b.phase = .bfs) : Written cfg llm b (b.roundWrites cfg llm) (b.step cfg llm) := by
  rw [Build.roundWrites, Build.step, hphase]
  dsimp only
  rw [Build.splitNext]
  cases hqueue : b.queue with
  | nil => exact .ended hphase hqueue
  | cons q queue =>
    obtain ⟨id, depth⟩ := q
    dsimp only
    split
    · rename_i hempty
      rw [if_pos (show Build.nodeServices { b with queue } id = [] from hempty)]
      exact .idle hphase hqueue
    · rename_i hsome
      rw [if_neg (show ¬ Build.nodeServices { b with queue } id = [] from hsome)]
      have hsplitOf : Build.splitOf cfg llm { b with queue } id = b.splitOf cfg llm id := rfl
      rw [hsplitOf]
      have hsplit : b.splitOf cfg llm id = ((b.splitOf cfg llm id).1, (b.splitOf cfg llm id).2) := rfl
      cases hresult : (b.splitOf cfg llm id).1 with
      | none =>
        rw [hresult] at hsplit
        rw [hsplit, Option.elim_none, List.append_nil]
        exact .failed hphase hqueue
      | some result =>
        rw [hresult] at hsplit
        rw [hsplit, Option.elim_some]
        exact .split hphase hqueue hresult

theorem written_finish (hphase : b.phase = .crossDomain) : Written cfg llm b (b.roundWrites cfg llm) (b.step cfg llm) := by
  rw [Build.roundWrites, Build.step, hphase]
  dsimp only
  split
  · rename_i hdone
    exact .finished hphase hdone
  · rename_i hnot
    have hfinish : b.finish cfg llm = { b with phase := .failed } := by
      unfold Build.finish at hnot ⊢
      split
      · rename_i henabled
        rw [if_pos henabled] at hnot
        split
        · rfl
        · rename_i categories hcategories
          rw [hcategories] at hnot
          exact absurd rfl hnot
      · rename_i hdisabled
        rw [if_neg hdisabled] at hnot
        exact absurd rfl hnot
    rw [hfinish]
    exact .unfinished hphase

theorem written_step (cfg : Config) (llm : Llm) (b : Build) : Written cfg llm b (b.roundWrites cfg llm) (b.step cfg llm) := by
  cases hphase : b.phase with
  | bfs => exact written_bfs hphase
  | crossDomain => exact written_finish hphase
  | complete =>
    rw [Build.roundWrites, Build.step, hphase]
    exact .stopped (.inl hphase)
  | failed =>
    rw [Build.roundWrites, Build.step, hphase]
    exact .stopped (.inr hphase)

theorem keywords_finish (cfg : Config) (llm : Llm) (b : Build) : (b.finish cfg llm).keywords = b.keywords := by
  unfold Build.finish
  split
  · split <;> rfl
  · rfl

theorem phase_finish (cfg : Config) (llm : Llm) (b : Build) :
    (b.finish cfg llm).phase = .complete ∨ (b.finish cfg llm).phase = .failed := by
  unfold Build.finish
  split
  · split
    · exact .inr rfl
    · exact .inl rfl
  · exact .inl rfl

theorem Saved.round (h : Saved files b) : Saved (files.writeAll (b.roundWrites cfg llm)) (b.step cfg llm) := by
  have hround := written_step cfg llm b
  generalize b.roundWrites cfg llm = ws, b.step cfg llm = b' at hround
  cases hround with
  | ended hphase hqueue =>
    rw [writeAll_saveOutput]
    exact ⟨fun _ => rfl, fun _ => rfl, h.keywords, rfl, fun _ => rfl⟩
  | idle hphase hqueue =>
    exact ⟨h.taxonomy, h.classes, h.keywords, h.stamped, h.serviceHash⟩
  | failed hphase hqueue =>
    rw [keywords_saveKeywords h.keywords (splitOf_keywords_some _)]
    exact ⟨fun hlive => absurd rfl hlive, fun hlive => absurd rfl hlive, rfl, h.stamped, nofun⟩
  | split hphase hqueue hresult =>
    rw [writeAll_append, keywords_saveKeywords h.keywords (splitOf_keywords_some _), writeAll_saveOutput]
    refine ⟨fun _ => ?_, fun _ => rfl, rfl, rfl, fun _ => rfl⟩
    rw [show (b.apply _ _).phase = .bfs from hphase]
    rfl
  | finished hphase hdone =>
    rw [writeAll_saveOutput]
    refine ⟨fun _ => ?_, fun _ => rfl, ?_, rfl, fun _ => rfl⟩
    · rw [hdone]
      rfl
    · rw [keywords_finish]
      exact h.keywords
  | unfinished hphase =>
    exact ⟨fun hlive => absurd rfl hlive, fun hlive => absurd rfl hlive, h.keywords, h.stamped, nofun⟩
  | stopped hphase => exact h

end Saved

/-! ## Where a build begins, and where it ends -/

section Ends

variable {cfg : Config} {llm : Llm} {mode : Resume} {services : List Service} {files files' : Files} {b : Build} {rounds : ℕ}

theorem Saved.run (h : Saved files b) : ∀ (rounds : ℕ), Saved (files.writeAll (b.writes cfg llm rounds))
    (Lib.run (Build.step cfg) b (List.replicate rounds llm)) := by
  intro rounds
  induction rounds generalizing files b with
  | zero => exact h
  | succ rounds ih =>
    rw [Build.writes, writeAll_append, List.replicate_succ, run_cons]
    exact ih h.round

theorem saved_rebuild (files : Files) : Saved ((Build.rebuild cfg services files).1.writeAll (Build.rebuild cfg services files).2.firstWrites)
    (Build.rebuild cfg services files).2 := by
  have hphase : (Build.rebuild cfg services files).2.phase = .bfs := rfl
  rw [Build.firstWrites, if_pos hphase, writeAll_saveOutput]
  exact ⟨fun _ => rfl, fun _ => rfl, rfl, rfl, nofun⟩

theorem load_cases (h : Build.load cfg services files = some b) : ∃ categories status classes,
    files.taxonomy = some (categories, status) ∧ files.classes = some classes ∧ b.index = servicesIndex services ∧
      b.categories = categories ∧ b.classes = classes ∧ b.keywords = files.keywords ∧
      ((status = .bfs ∧ b.phase = .bfs ∧ b.queue = findPendingNodes cfg categories) ∨
        (status ≠ .bfs ∧ b.phase = .crossDomain ∧ b.queue = [])) := by
  unfold Build.load at h
  split at h
  · rename_i categories status classes htaxonomy hclasses
    refine ⟨categories, status, classes, htaxonomy, hclasses, ?_⟩
    dsimp only at h
    split at h
    · rename_i hbfs
      obtain rfl := Option.some.inj h
      exact ⟨rfl, rfl, rfl, rfl, .inl ⟨hbfs, rfl, rfl⟩⟩
    · rename_i hnot
      obtain rfl := Option.some.inj h
      exact ⟨rfl, rfl, rfl, rfl, .inr ⟨hnot, rfl, rfl⟩⟩
  · cases h

theorem evaluateResume_eq_resume (h : evaluateResume files = .resume) : ∃ categories status, files.taxonomy = some (categories, status) ∧
    status ≠ .complete ∧ files.serviceHash.isSome = true := by
  unfold evaluateResume at h
  split at h
  · rename_i categories status hash htaxonomy hhash
    split at h
    · cases h
    rename_i hnot
    exact ⟨categories, status, htaxonomy, hnot, by rw [hhash]; rfl⟩
  · cases h

theorem saved_load (hresume : evaluateResume files = .resume) (h : Build.load cfg services files = some b) :
    Saved (files.writeAll b.firstWrites) b := by
  obtain ⟨categories, status, classes, htaxonomy, hclasses, hindex, rfl, rfl, hkeywords, hphase⟩ := load_cases h
  obtain ⟨categories', status', htaxonomy', hlive, hstamped⟩ := evaluateResume_eq_resume hresume
  obtain ⟨-, rfl⟩ := Prod.mk.inj (Option.some.inj (htaxonomy.symm.trans htaxonomy'))
  rcases hphase with ⟨-, hphase, -⟩ | ⟨hnot, hphase, -⟩
  · rw [Build.firstWrites, if_pos hphase, writeAll_saveOutput]
    refine ⟨fun _ => ?_, fun _ => rfl, hkeywords.symm, rfl, fun _ => rfl⟩
    rw [hphase]
    rfl
  · rw [Build.firstWrites, if_neg (by rw [hphase]; exact nofun)]
    refine ⟨fun _ => ?_, fun _ => hclasses, hkeywords.symm, hstamped, fun hcomplete => ?_⟩
    · rw [hphase]
      cases status with
      | bfs => exact absurd rfl hnot
      | crossDomain => exact htaxonomy
      | complete => exact absurd rfl hlive
    · rw [hphase] at hcomplete
      cases hcomplete

theorem saved_opening (h : opening cfg mode services files = some (files', b)) : Saved (files'.writeAll b.firstWrites) b := by
  have hrebuild : ∀ {files}, Build.rebuild cfg services files = (files', b) → Saved (files'.writeAll b.firstWrites) b := by
    intro files heq
    have hsaved := @saved_rebuild cfg services files
    rwa [heq] at hsaved
  unfold opening at h
  cases mode with
  | no | keyword => exact hrebuild (Option.some.inj h)
  | yes =>
    dsimp only at h
    split at h
    · cases h
    · rename_i hresume
      obtain ⟨b', hload, heq⟩ := Option.map_eq_some_iff.mp h
      obtain ⟨rfl, rfl⟩ := Prod.mk.inj heq
      exact saved_load hresume hload
    · exact hrebuild (Option.some.inj h)

theorem saved_build (h : opening cfg mode services files = some (files', b)) :
    Saved (build cfg llm mode services rounds files) (run (Build.step cfg) b (List.replicate rounds llm)) := by
  rw [build, h]
  dsimp only
  rw [Build.allWrites, writeAll_append]
  exact (saved_opening h).run rounds

end Ends

/-! ## What is left when a build breaks off -/

/-- `class.json` has every category of `taxonomy.json`. -/
def Files.InStep (files : Files) : Prop :=
  ∀ p ∈ files.taxonomy, ∀ classes ∈ files.classes, ∀ row ∈ p.1.rows, classes.contains row.1 = true

instance (files : Files) : Decidable files.InStep := inferInstanceAs (Decidable (∀ p ∈ files.taxonomy, _))

def SameServices (services services' : List Service) : Prop :=
  ∀ sid, (servicesIndex services).lookup sid = (servicesIndex services').lookup sid

/-- A directory from which a build with these services may go on. -/
structure Left (cfg : Config) (llm : Llm) (index : Dict String Service) (files : Files) : Prop where
  keywords : CacheFits llm files.keywords ((rootOrigin index).services.filterMap index.lookup)
  partway : evaluateResume files = .resume → files.InStep → ∃ made b status classes, Partway cfg llm index made b ∧
    files.taxonomy = some (b.categories, status) ∧ files.classes = some classes ∧ (∀ id, classes.lookup id = b.classes.lookup id) ∧
      (status ≠ .bfs → b.queue = [])

/-- A build and its directory, between two rounds. -/
structure Going (cfg : Config) (llm : Llm) (index : Dict String Service) (files : Files) (b : Build) : Prop where
  saved : Saved files b
  left : Left cfg llm index files
  partway : b.phase = .bfs ∨ b.phase = .crossDomain → ∃ made, Partway cfg llm index made b
  done : b.phase = .crossDomain → b.queue = []

section Left

variable {cfg : Config} {llm : Llm} {index : Dict String Service} {made made' : String → Option Origin} {b b' : Build} {files : Files}

/-- No write leaves a directory from which a build may not go on. -/
abbrev KeepsLeft (cfg : Config) (llm : Llm) (index : Dict String Service) (files : Files) (ws : List FileWrite) : Prop :=
  Along Files.write (fun files w => Left cfg llm index (files.write w)) files ws

theorem Left.of_saved {status : BuildStatus} (hkeywords : CacheFits llm files.keywords ((rootOrigin index).services.filterMap index.lookup))
    (htaxonomy : files.taxonomy = some (b.categories, status))
    (hstatus : status ≠ .complete → (∃ made, Partway cfg llm index made b) ∧ (status ≠ .bfs → b.queue = []))
    (hclasses : files.serviceHash = none ∨ ∃ classes, files.classes = some classes ∧
      ((∀ row ∈ b.categories.rows, classes.contains row.1 = true) → ∀ id, classes.lookup id = b.classes.lookup id)) :
    Left cfg llm index files where
  keywords := hkeywords
  partway := by
    intro hresume hstep
    obtain ⟨categories, status', htaxonomy', hlive, hstamped⟩ := evaluateResume_eq_resume hresume
    obtain ⟨-, rfl⟩ := Prod.mk.inj (Option.some.inj (htaxonomy.symm.trans htaxonomy'))
    obtain ⟨⟨made, hpart⟩, hdone⟩ := hstatus hlive
    rcases hclasses with hnone | ⟨classes, hclasses, hsame⟩
    · rw [hnone] at hstamped
      cases hstamped
    · exact ⟨made, b, status, classes, hpart, htaxonomy, hclasses, hsame (hstep _ htaxonomy classes hclasses), hdone⟩

theorem left_saveOutput {status : BuildStatus} (hleft : Left cfg llm index files)
    (hstatus : status ≠ .complete → (∃ made, Partway cfg llm index made b) ∧ (status ≠ .bfs → b.queue = []))
    (hclasses : files.serviceHash = none ∨ ∃ classes, files.classes = some classes ∧
      ((∀ row ∈ b.categories.rows, classes.contains row.1 = true) → ∀ id, classes.lookup id = b.classes.lookup id)) :
    KeepsLeft cfg llm index files (b.saveOutput status) := by
  have hown : ∃ classes, some b.classes = some classes ∧
      ((∀ row ∈ b.categories.rows, classes.contains row.1 = true) → ∀ id, classes.lookup id = b.classes.lookup id) :=
    ⟨b.classes, rfl, fun _ _ => rfl⟩
  rw [Build.saveOutput]
  split
  · refine ⟨?_, ?_, ?_, trivial⟩
    · exact .of_saved hleft.keywords rfl hstatus hclasses
    · exact .of_saved hleft.keywords rfl hstatus (.inr hown)
    · exact .of_saved hleft.keywords rfl hstatus (.inr hown)
  · refine ⟨?_, ?_, ?_, ?_, trivial⟩
    · exact .of_saved hleft.keywords rfl hstatus hclasses
    · exact .of_saved hleft.keywords rfl hstatus (.inr hown)
    · exact .of_saved hleft.keywords rfl hstatus (.inr hown)
    · exact .of_saved hleft.keywords rfl hstatus (.inr hown)

theorem classes_of_inStep (h : Partway cfg llm index made b) (h' : Partway cfg llm index made' b')
    (hkeep : ∀ k o, made k = some o → made' k = some o) (hall : ∀ row ∈ b'.categories.rows, b.classes.contains row.1 = true) (id : String) :
    b.classes.lookup id = b'.classes.lookup id := by
  rw [h.classes, h'.classes]
  cases hmade : made id with
  | some o => rw [hkeep id o hmade]
  | none =>
    cases hmade' : made' id with
    | none => rfl
    | some o =>
      obtain ⟨cat, hcat⟩ := h'.exists_category hmade'
      have hcontains := hall _ (Dict.lookup_eq_some.mp hcat)
      rw [Dict.contains, h.classes, hmade] at hcontains
      cases hcontains

theorem left_saveKeywords {keywords : Option Keywords} (h : ∀ k, keywords = some k → Left cfg llm index { files with keywords := some k }) :
    KeepsLeft cfg llm index files (b.saveKeywords keywords) := by
  cases keywords with
  | none => exact along_nil
  | some k =>
    rw [Build.saveKeywords]
    split
    · exact ⟨h k rfl, trivial⟩
    · exact along_nil

theorem KeepsLeft.left {ws : List FileWrite} (h : KeepsLeft cfg llm index files ws) (hleft : Left cfg llm index files) :
    ∀ pre, pre <+: ws → Left cfg llm index (files.writeAll pre) :=
  h.holds hleft (fun _ hleft => hleft) fun _ _ _ hnext => hnext

variable (hclosed : Closed cfg llm index) (hrefine : 1 ≤ cfg.maxRefineIterations) (hnamed : Named index)
include hclosed hrefine hnamed

theorem Going.keepsLeft (h : Going cfg llm index files b) : KeepsLeft cfg llm index files (b.roundWrites cfg llm) := by
  -- the next build has the categories of this one, and those that are new
  have hstep : b.phase = .bfs → ∀ {q queue}, b.queue = q :: queue → (b.step cfg llm).phase = .bfs ∧
      ∃ made made', Partway cfg llm index made b ∧ Partway cfg llm index made' (b.step cfg llm) ∧
        ∀ k o, made k = some o → made' k = some o := by
    intro hphase q queue hqueue
    obtain ⟨made, hpart⟩ := h.partway (.inl hphase)
    obtain ⟨hphase', made', new, hpart', -, -, hkeep, -⟩ := hpart.step hclosed hrefine hnamed hphase hqueue
    exact ⟨hphase', made, made', hpart, hpart', hkeep⟩
  have hround := written_step cfg llm b
  generalize b.roundWrites cfg llm = ws, b.step cfg llm = b' at hround hstep
  cases hround with
  | ended hphase hqueue =>
    refine left_saveOutput h.left (fun _ => ⟨h.partway (.inl hphase), fun _ => hqueue⟩) (.inr ⟨b.classes, ?_, fun _ _ => rfl⟩)
    exact h.saved.classes (by rw [hphase]; exact nofun)
  | idle hphase hqueue => exact along_nil
  | failed hphase hqueue => exact nomatch (hstep hphase hqueue).1
  | @split hphase id depth queue result hqueue hresult =>
    obtain ⟨hphase', made, made', hpart, hpart', hkeep⟩ := hstep hphase hqueue
    have hlive : b.phase ≠ .failed := by rw [hphase]; exact nofun
    have hfits : CacheFits llm (b.splitOf cfg llm id).2 ((rootOrigin index).services.filterMap index.lookup) := hpart'.keywords
    have hkeywords : ∀ k, (b.splitOf cfg llm id).2 = k → Left cfg llm index { files with keywords := k } := by
      rintro k rfl
      refine .of_saved (b := b) hfits (h.saved.taxonomy hlive) (fun _ => ⟨⟨made, hpart⟩, fun hnot => ?_⟩)
        (.inr ⟨b.classes, h.saved.classes hlive, fun _ _ => rfl⟩)
      rw [hphase] at hnot
      exact absurd rfl hnot
    refine along_append.mpr ⟨left_saveKeywords fun k hk => hkeywords _ hk, ?_⟩
    have hwritten : run Files.write files (b.saveKeywords (b.splitOf cfg llm id).2) =
        { files with keywords := (b.splitOf cfg llm id).2 } := keywords_saveKeywords h.saved.keywords (splitOf_keywords_some id)
    rw [hwritten]
    -- what is saved is what the next build has
    refine left_saveOutput (b := { b.apply id result with
      keywords := (b.splitOf cfg llm id).2
      queue := queue ++ Build.oversized cfg (b.apply id result).categories result (depth + 1) })
      (hkeywords _ rfl) (fun _ => ⟨⟨made', hpart'⟩, fun hnot => absurd rfl hnot⟩) (.inr ⟨b.classes, h.saved.classes hlive, ?_⟩)
    exact classes_of_inStep hpart hpart' hkeep
  | finished hphase hdone =>
    refine left_saveOutput h.left (fun hnot => absurd rfl hnot) (.inr ⟨b.classes, h.saved.classes (by rw [hphase]; exact nofun), ?_⟩)
    intro _ id
    rw [Build.finish]
    split
    · split <;> rfl
    · rfl
  | unfinished | stopped => exact along_nil

theorem Going.round
    (h : Going cfg llm index files b) : Going cfg llm index (files.writeAll (b.roundWrites cfg llm)) (b.step cfg llm) := by
  have hleft := (h.keepsLeft hclosed hrefine hnamed).left h.left _ List.prefix_rfl
  have hover : ∀ {b' : Build}, b'.phase ≠ .bfs → b'.phase ≠ .crossDomain → Saved (files.writeAll (b.roundWrites cfg llm)) b' →
      Going cfg llm index (files.writeAll (b.roundWrites cfg llm)) b' := by
    intro b' hbfs hcross hsaved
    exact ⟨hsaved, hleft, fun hphase => (hphase.elim hbfs hcross).elim, fun hphase => absurd hphase hcross⟩
  cases hphase : b.phase with
  | bfs =>
    obtain ⟨made, hpart⟩ := h.partway (.inl hphase)
    cases hqueue : b.queue with
    | nil =>
      obtain ⟨hpart', -, hdone⟩ := hpart.ended hphase hqueue
      exact ⟨h.saved.round, hleft, fun _ => ⟨made, hpart'⟩, fun _ => hdone⟩
    | cons q queue =>
      obtain ⟨hphase', made', -, hpart', -⟩ := hpart.step hclosed hrefine hnamed hphase hqueue
      exact ⟨h.saved.round, hleft, fun _ => ⟨made', hpart'⟩, fun hcross => by cases hphase'.symm.trans hcross⟩
  | crossDomain =>
    have hfinish : (b.step cfg llm).phase = .complete ∨ (b.step cfg llm).phase = .failed := by
      rw [Build.step, hphase]
      exact phase_finish cfg llm b
    refine hover ?_ ?_ h.saved.round
    · rcases hfinish with heq | heq
      · rw [heq]; rintro ⟨⟩
      · rw [heq]; rintro ⟨⟩
    · rcases hfinish with heq | heq
      · rw [heq]; rintro ⟨⟩
      · rw [heq]; rintro ⟨⟩
  | complete | failed =>
    have hstep : b.step cfg llm = b := by rw [Build.step, hphase]
    have hsaved : Saved (files.writeAll (b.roundWrites cfg llm)) (b.step cfg llm) := h.saved.round
    rw [hstep] at hsaved ⊢
    exact hover (by rw [hphase]; rintro ⟨⟩) (by rw [hphase]; rintro ⟨⟩) hsaved

theorem Going.writes :
    ∀ (rounds : ℕ) {files : Files} {b : Build}, Going cfg llm index files b → KeepsLeft cfg llm index files (b.writes cfg llm rounds) := by
  intro rounds
  induction rounds with
  | zero => exact fun _ => along_nil
  | succ rounds ih =>
    intro files b h
    exact along_append.mpr ⟨h.keepsLeft hclosed hrefine hnamed, ih (h.round hclosed hrefine hnamed)⟩

omit hclosed hrefine hnamed

/-! ### How a build begins in a directory that was left -/

def onlyRoot (index : Dict String Service) (id : String) : Option Origin := if id = "root" then some (rootOrigin index) else none

theorem findPendingNodes_root (cfg : Config) (index : Dict String Service) :
    findPendingNodes cfg (initCategories index) = if (rootOrigin index).oversized cfg = true then [("root", 0)] else [] := by
  rw [findPendingNodes, scan, Build.childrenOf_initCategories, Build.servicesOf_initCategories, if_pos rfl]
  rfl

theorem partway_start (hindex : ∀ sid, b.index.lookup sid = index.lookup sid) (hcategories : b.categories = initCategories b.index)
    (hclasses : b.classes = initClasses) (hqueue : b.queue = findPendingNodes cfg (initCategories b.index))
    (hkeywords : CacheFits llm b.keywords ((rootOrigin index).services.filterMap index.lookup)) :
    Partway cfg llm index (onlyRoot index) b := by
  have hroot : ∀ {id o}, onlyRoot index id = some o → id = "root" ∧ o = rootOrigin index := by
    intro id o hmade
    unfold onlyRoot at hmade
    split at hmade
    · exact ⟨‹_›, (Option.some.inj hmade).symm⟩
    · cases hmade
  have horigin : rootOrigin b.index = rootOrigin index := by
    rw [rootOrigin, rootOrigin, sorted_congr (Dict.perm_keys hindex)]
  have hcat : b.categories.lookup "root" = some { services := (rootOrigin index).services } := by
    rw [← horigin, hcategories, Build.lookup_initCategories, if_pos rfl]
    rfl
  have hpending : b.queue = if (rootOrigin index).oversized cfg = true then [("root", 0)] else [] := by
    rw [← horigin, hqueue, findPendingNodes_root]
  constructor
  · exact hindex
  · exact if_pos rfl
  · intro id o hmade
    obtain ⟨rfl, rfl⟩ := hroot hmade
    exact .root
  · intro id hmade
    have hne : id ≠ "root" := by
      rintro rfl
      cases hmade
    rw [hcategories, Build.lookup_initCategories, if_neg hne]
  · intro id
    rw [hclasses, onlyRoot]
    split
    · rename_i heq
      rw [heq]
      rfl
    · rename_i hne
      rw [initClasses, Dict.ofList, Dict.lookup_insertAll_of_notMem]
      · rfl
      · intro info hmem
        exact hne (Prod.mk.inj (List.mem_singleton.mp hmem)).1
  · intro id o hmade
    obtain ⟨rfl, rfl⟩ := hroot hmade
    refine .inl ⟨hcat, fun hdue => ?_⟩
    rw [hpending, if_pos hdue.1]
    exact List.mem_singleton_self _
  · intro id o hmade hne
    exact absurd (hroot hmade).1 hne
  · intro q hq
    rw [hpending] at hq
    split at hq
    · rename_i hsize
      rw [List.mem_singleton.mp hq]
      exact ⟨rootOrigin index, if_pos rfl, rfl, hsize, hcat⟩
    · cases hq
  · rw [hpending]
    split
    · exact List.nodup_singleton _
    · exact List.nodup_nil
  · exact hkeywords

theorem going_rebuild {services services' : List Service} (hsame : SameServices services' services)
    (hkeywords : CacheFits llm files.keywords ((rootOrigin (servicesIndex services)).services.filterMap (servicesIndex services).lookup))
    (hnone : evaluateResume files = .rebuild) (hstamp : files.serviceHash = none) : Left cfg llm (servicesIndex services) files ∧
      KeepsLeft cfg llm (servicesIndex services) files (Build.rebuild cfg services' files).2.firstWrites ∧
      Going cfg llm (servicesIndex services) (files.writeAll (Build.rebuild cfg services' files).2.firstWrites)
        (Build.rebuild cfg services' files).2 := by
  have hpart : Partway cfg llm (servicesIndex services) (onlyRoot (servicesIndex services)) (Build.rebuild cfg services' files).2 :=
    partway_start hsame rfl rfl rfl hkeywords
  have hleft : Left cfg llm (servicesIndex services) files := ⟨hkeywords, fun hresume => nomatch hnone.symm.trans hresume⟩
  have hphase : (Build.rebuild cfg services' files).2.phase = .bfs := rfl
  have hkeeps : KeepsLeft cfg llm (servicesIndex services) files (Build.rebuild cfg services' files).2.firstWrites := by
    rw [Build.firstWrites, if_pos hphase]
    exact left_saveOutput hleft (fun _ => ⟨⟨_, hpart⟩, fun hnot => absurd rfl hnot⟩) (.inl hstamp)
  refine ⟨hleft, hkeeps, saved_rebuild files, hkeeps.left hleft _ List.prefix_rfl, fun _ => ⟨_, hpart⟩, fun hcross => ?_⟩
  rw [hphase] at hcross
  cases hcross

theorem going_load {services services' : List Service} (hclosed : Closed cfg llm (servicesIndex services))
    (hrefine : 1 ≤ cfg.maxRefineIterations) (hsame : SameServices services' services)
    (hleft : Left cfg llm (servicesIndex services) files) (hresume : evaluateResume files = .resume) (hstep : files.InStep)
    (hload : Build.load cfg services' files = some b) : KeepsLeft cfg llm (servicesIndex services) files b.firstWrites ∧
      Going cfg llm (servicesIndex services) (files.writeAll b.firstWrites) b := by
  have hsaved := saved_load hresume hload
  obtain ⟨made, b₀, status, classes, hpart, htaxonomy, hclasses, hinfo, hdone⟩ := hleft.partway hresume hstep
  obtain ⟨categories, status', classes', htaxonomy', hclasses', hindex, rfl, rfl, hkeywords, hphase⟩ := load_cases hload
  obtain ⟨hcategories, rfl⟩ := Prod.mk.inj (Option.some.inj (htaxonomy'.symm.trans htaxonomy))
  obtain rfl := Option.some.inj (hclasses'.symm.trans hclasses)
  have hindexed : ∀ sid, b.index.lookup sid = (servicesIndex services).lookup sid := by
    rw [hindex]
    exact hsame
  have hfits : CacheFits llm b.keywords ((rootOrigin (servicesIndex services)).services.filterMap (servicesIndex services).lookup) :=
    hkeywords ▸ hleft.keywords
  rcases hphase with ⟨rfl, hphase, hqueue⟩ | ⟨hnot, hphase, hqueue⟩
  · have hpart' := hpart.load hclosed hrefine (Build.servicesIndex_named services) hindexed hcategories hinfo (hcategories ▸ hqueue) hfits
    have hkeeps : KeepsLeft cfg llm (servicesIndex services) files b.firstWrites := by
      rw [Build.firstWrites, if_pos hphase]
      exact left_saveOutput hleft (fun _ => ⟨⟨_, hpart'⟩, fun hnot => absurd rfl hnot⟩) (.inr ⟨b.classes, hclasses, fun _ _ => rfl⟩)
    exact ⟨hkeeps, hsaved, hkeeps.left hleft _ List.prefix_rfl, fun _ => ⟨_, hpart'⟩, fun hcross => nomatch hphase.symm.trans hcross⟩
  · have hpart' := hpart.copy hindexed hcategories hinfo (hqueue.trans (hdone hnot).symm) hfits
    have hfirst : b.firstWrites = [] := by rw [Build.firstWrites, if_neg (by rw [hphase]; exact nofun)]
    rw [hfirst] at hsaved ⊢
    exact ⟨along_nil, hsaved, hleft, fun _ => ⟨_, hpart'⟩, fun _ => hqueue⟩

theorem going_opening {mode : Resume} {services services' : List Service} {files' : Files} (hclosed : Closed cfg llm (servicesIndex services))
    (hrefine : 1 ≤ cfg.maxRefineIterations) (hsame : SameServices services' services)
    (hleft : Left cfg llm (servicesIndex services) files) (hstep : mode = .yes → evaluateResume files = .resume → files.InStep)
    (hopening : opening cfg mode services' files = some (files', b)) :
    Left cfg llm (servicesIndex services) files' ∧ KeepsLeft cfg llm (servicesIndex services) files' b.firstWrites ∧
      Going cfg llm (servicesIndex services) (files'.writeAll b.firstWrites) b := by
  have hclean : ∀ preserve, Build.rebuild cfg services' (files.clean preserve) = (files', b) →
      Left cfg llm (servicesIndex services) files' ∧ KeepsLeft cfg llm (servicesIndex services) files' b.firstWrites ∧
        Going cfg llm (servicesIndex services) (files'.writeAll b.firstWrites) b := by
    intro preserve heq
    obtain ⟨rfl, rfl⟩ := Prod.mk.inj heq
    refine going_rebuild hsame ?_ rfl rfl
    cases preserve with
    | false => exact .inl rfl
    | true => exact hleft.keywords
  unfold opening at hopening
  cases mode with
  | no => exact hclean false (Option.some.inj hopening)
  | keyword => exact hclean true (Option.some.inj hopening)
  | yes =>
    dsimp only at hopening
    split at hopening
    · cases hopening
    · rename_i hresume
      obtain ⟨b', hload, heq⟩ := Option.map_eq_some_iff.mp hopening
      obtain ⟨rfl, rfl⟩ := Prod.mk.inj heq
      exact ⟨hleft, going_load hclosed hrefine hsame hleft hresume (hstep rfl hresume) hload⟩
    · exact hclean false (Option.some.inj hopening)

end Left

/-! ## Sessions -/

namespace Session

/-- The services are those of the list, and what the build goes on from is in step. -/
def Kept (services : List Service) (files : Files) (s : Session) : Prop :=
  SameServices s.services services ∧ (s.mode = .yes → evaluateResume files = .resume → files.InStep)

end Session

section Sessions

variable {cfg : Config} {llm : Llm} {services : List Service} {files : Files}

theorem left_empty (cfg : Config) (llm : Llm) (index : Dict String Service) : Left cfg llm index {} :=
  ⟨.inl rfl, nofun⟩

theorem Left.leave (hleft : Left cfg llm (servicesIndex services) files) (hclosed : Closed cfg llm (servicesIndex services))
    (hrefine : 1 ≤ cfg.maxRefineIterations) {s : Session} (hkept : s.Kept services files) :
    Left cfg llm (servicesIndex services) (s.leave cfg llm files) := by
  unfold Session.leave
  split
  · exact hleft
  · rename_i files' b hopening
    obtain ⟨hleft', hfirst, hgoing⟩ := going_opening hclosed hrefine hkept.1 hleft hkept.2 hopening
    have hall : KeepsLeft cfg llm (servicesIndex services) files' (b.allWrites cfg llm s.rounds) :=
      along_append.mpr ⟨hfirst, hgoing.writes hclosed hrefine (Build.servicesIndex_named services) s.rounds⟩
    exact hall.left hleft' _ (List.take_prefix _ _)

end Sessions

/-! ## The fresh build -/

section Fresh

variable {cfg : Config} {llm : Llm} {index : Dict String Service} {b : Build}

/-- What an uninterrupted build has in each phase. -/
structure Steady (cfg : Config) (llm : Llm) (index : Dict String Service) (b : Build) : Prop where
  bfs : b.phase = .bfs → ∃ made, Partway cfg llm index made b
  crossDomain : b.phase = .crossDomain → (∃ made, Partway cfg llm index made b) ∧ b.queue = []
  complete : b.phase = .complete → ∃ b₀, (∃ made, Partway cfg llm index made b₀) ∧ b₀.queue = [] ∧ b = b₀.finish cfg llm

theorem Steady.of_bfs (hphase : b.phase = .bfs) (h : ∃ made, Partway cfg llm index made b) : Steady cfg llm index b :=
  ⟨fun _ => h, by rw [hphase]; exact nofun, by rw [hphase]; exact nofun⟩

theorem Steady.of_crossDomain (hphase : b.phase = .crossDomain) (h : (∃ made, Partway cfg llm index made b) ∧ b.queue = []) :
    Steady cfg llm index b :=
  ⟨by rw [hphase]; exact nofun, fun _ => h, by rw [hphase]; exact nofun⟩

theorem Steady.of_failed (hphase : b.phase = .failed) : Steady cfg llm index b :=
  ⟨by rw [hphase]; exact nofun, by rw [hphase]; exact nofun, by rw [hphase]; exact nofun⟩

theorem Steady.step (h : Steady cfg llm index b) (hrefine : 1 ≤ cfg.maxRefineIterations) (hnamed : Named index)
    (hsound : b.Sound cfg llm) : Steady cfg llm index (b.step cfg llm) := by
  cases hphase : b.phase with
  | bfs =>
    obtain ⟨made, hpart⟩ := h.bfs hphase
    cases hqueue : b.queue with
    | nil =>
      obtain ⟨hpart', hphase', hdone⟩ := hpart.ended hphase hqueue
      exact .of_crossDomain hphase' ⟨⟨made, hpart'⟩, hdone⟩
    | cons q queue =>
      obtain ⟨id, depth⟩ := q
      have hnext := hpart.splitNext hrefine hnamed hphase hqueue fun o result hmade hcat hdue hresult happlied => by
        obtain ⟨hnew, honce⟩ := hsound _ happlied
        exact ⟨fun sub hsub => hpart.made_eq_none (hnew sub hsub), honce⟩
      have hstep : b.step cfg llm = b.splitNext cfg llm := by rw [Build.step, hphase]
      rw [hstep]
      rcases hnext with ⟨hfailed, -⟩ | ⟨hphase', made', -, hpart', -⟩
      · exact .of_failed hfailed
      · exact .of_bfs hphase' ⟨made', hpart'⟩
  | crossDomain =>
    obtain ⟨hpart, hdone⟩ := h.crossDomain hphase
    have hstep : b.step cfg llm = b.finish cfg llm := by rw [Build.step, hphase]
    rw [hstep]
    rcases phase_finish cfg llm b with heq | heq
    · exact ⟨by rw [heq]; rintro ⟨⟩, by rw [heq]; rintro ⟨⟩, fun _ => ⟨b, hpart, hdone, rfl⟩⟩
    · exact .of_failed heq
  | complete | failed =>
    rw [Build.step, hphase]
    exact h

variable {services : List Service} {n : ℕ}

theorem Build.index_run (cfg : Config) (b : Build) (llms : List Llm) : (run (Build.step cfg) b llms).index = b.index := by
  have hstep : ∀ (b' : Build) (llm : Llm), b'.index = b.index → (Build.step cfg b' llm).index = b.index := by
    intro b' llm heq
    have hround := Build.round_step cfg b' llm
    generalize Build.step cfg b' llm = b'' at hround
    cases hround with
    | split => exact heq
    | idle _ _ _ hindex | linked _ _ _ hindex => exact hindex.trans heq
  exact run_invariant (I := fun b' : Build => b'.index = b.index) rfl hstep

theorem fresh_complete (hrefine : 1 ≤ cfg.maxRefineIterations)
    (hsound : Along (Build.step cfg) (Build.Sound cfg) (Build.start cfg services) (List.replicate n llm))
    (hcomplete : (run (Build.step cfg) (Build.start cfg services) (List.replicate n llm)).phase = .complete) :
    (∃ made b, Partway cfg llm (servicesIndex services) made b ∧ b.queue = [] ∧
      run (Build.step cfg) (Build.start cfg services) (List.replicate n llm) = b.finish cfg llm) ∧
      ∀ sid, (servicesIndex services).contains sid = true ↔
        ∃ id, sid ∈ (run (Build.step cfg) (Build.start cfg services) (List.replicate n llm)).categories.servicesOf id := by
  constructor
  · have hsame : Along (Build.step cfg) (fun _ e => e = llm) (Build.start cfg services) (List.replicate n llm) :=
      along_of_forall fun e he => List.eq_of_mem_replicate he
    have hstart : Steady cfg llm (servicesIndex services) (Build.start cfg services) :=
      ⟨fun _ => ⟨_, partway_start (fun _ => rfl) rfl rfl rfl (.inl rfl)⟩, nofun, nofun⟩
    have hsteady := (hsound.and hsame).invariant hstart fun b e h hstep => by
      obtain ⟨hsound, heq⟩ := hstep
      rw [heq] at hsound ⊢
      exact h.step hrefine (Build.servicesIndex_named services) hsound
    obtain ⟨b, ⟨made, hpart⟩, hdone, heq⟩ := hsteady.complete hcomplete
    exact ⟨made, b, hpart, hdone, heq⟩
  · have hsane := hsound.invariant (Build.sane_start cfg services) fun b e h hs => h.step hrefine hs
    have hindex : (run (Build.step cfg) (Build.start cfg services) (List.replicate n llm)).index = servicesIndex services :=
      Build.index_run cfg _ _
    intro sid
    rw [← hindex]
    constructor
    · intro hsid
      obtain ⟨id, -, hmem⟩ := hsane.covered sid hsid
      exact ⟨id, hmem⟩
    · rintro ⟨id, hmem⟩
      exact hsane.listed id sid hmem

end Fresh

/-! ## Resumed builds -/

def Files.Lists (files : Files) (sid : String) : Prop := ∃ id cat, files.category id = some cat ∧ sid ∈ cat.services

theorem Files.lists_iff {files : Files} {cats : Categories} (h : ∀ id, files.category id = cats.lookup id) {sid : String} :
    files.Lists sid ↔ ∃ id, sid ∈ cats.servicesOf id := by
  constructor
  · rintro ⟨id, cat, hcat, hmem⟩
    refine ⟨id, ?_⟩
    rw [Categories.servicesOf, ← h id, hcat]
    exact hmem
  · rintro ⟨id, hmem⟩
    obtain ⟨cat, hcat⟩ := Option.isSome_iff_exists.mp (Build.contains_of_mem_servicesOf hmem)
    rw [Categories.servicesOf, hcat] at hmem
    exact ⟨id, cat, (h id).trans hcat, hmem⟩

section Resumed

variable {cfg : Config} {llm : Llm} {services : List Service} {files : Files}

theorem exists_opening (hleft : Left cfg llm (servicesIndex services) files) (hstep : evaluateResume files = .resume → files.InStep)
    (hskip : evaluateResume files ≠ .skip) : ∃ files' b, opening cfg .yes services files = some (files', b) ∧ b.index = servicesIndex services := by
  unfold opening
  cases haction : evaluateResume files with
  | skip => exact absurd haction hskip
  | rebuild => exact ⟨_, _, rfl, rfl⟩
  | resume =>
    obtain ⟨made, b, status, classes, -, htaxonomy, hclasses, -⟩ := hleft.partway haction (hstep haction)
    have hload : ∃ b, Build.load cfg services files = some b := by
      unfold Build.load
      rw [htaxonomy, hclasses]
      dsimp only
      split
      · exact ⟨_, rfl⟩
      · exact ⟨_, rfl⟩
    obtain ⟨b, hload⟩ := hload
    obtain ⟨-, -, -, -, -, hindex, -⟩ := load_cases hload
    exact ⟨files, b, by rw [hload]; rfl, hindex⟩

theorem Going.completes {b : Build} (h : Going cfg llm (servicesIndex services) files b)
    (hclosed : Closed cfg llm (servicesIndex services)) (hrefine : 1 ≤ cfg.maxRefineIterations) (hlive : b.phase = .bfs ∨ b.phase = .crossDomain) :
    ∃ rounds made, Partway cfg llm (servicesIndex services) made (run (Build.step cfg) b (List.replicate rounds llm)) ∧
      (run (Build.step cfg) b (List.replicate rounds llm)).phase = .crossDomain ∧
      (run (Build.step cfg) b (List.replicate rounds llm)).queue = [] := by
  obtain ⟨made, hpart⟩ := h.partway hlive
  rcases hlive with hphase | hphase
  · obtain ⟨ids, hids⟩ := hclosed.finite
    exact hpart.completes hclosed hrefine (Build.servicesIndex_named services) hids _ hphase le_rfl
  · exact ⟨0, made, hpart, hphase, h.done hphase⟩

end Resumed

theorem phase_opening {cfg : Config} {mode : Resume} {services : List Service} {files files' : Files} {b : Build}
    (h : opening cfg mode services files = some (files', b)) : b.phase = .bfs ∨ b.phase = .crossDomain := by
  have hrebuild : ∀ {files}, Build.rebuild cfg services files = (files', b) → b.phase = .bfs := by
    intro files heq
    obtain ⟨-, rfl⟩ := Prod.mk.inj heq
    rfl
  unfold opening at h
  cases mode with
  | no | keyword => exact .inl (hrebuild (Option.some.inj h))
  | yes =>
    dsimp only at h
    split at h
    · cases h
    · obtain ⟨b', hload, heq⟩ := Option.map_eq_some_iff.mp h
      obtain ⟨-, rfl⟩ := Prod.mk.inj heq
      obtain ⟨-, -, -, -, -, -, -, -, -, ⟨-, hphase, -⟩ | ⟨-, hphase, -⟩⟩ := load_cases hload
      · exact .inl hphase
      · exact .inr hphase
    · exact .inl (hrebuild (Option.some.inj h))

theorem Saved.complete {files : Files} {b : Build} (h : Saved files b) (hphase : b.phase = .complete) :
    files.status = some .complete ∧ (∀ id, files.category id = b.categories.lookup id) ∧
      (∀ id, files.classInfo id = b.classes.lookup id) ∧ files.serviceHash = some (computeServiceHash b.index) := by
  have hlive : b.phase ≠ .failed := by rw [hphase]; exact nofun
  have htaxonomy := h.taxonomy hlive
  rw [hphase] at htaxonomy
  refine ⟨?_, fun id => ?_, fun id => ?_, h.serviceHash hphase⟩
  · rw [Files.status, htaxonomy]
    rfl
  · rw [Files.category, htaxonomy]
    rfl
  · rw [Files.classInfo, h.classes hlive]
    rfl

/-- As long as every earlier build in the directory, broken off or complete, had the services that are there now, and what is
gone on from is in step, a resumed build ends with the taxonomy and the classes of a fresh one, if the fresh one splits with
new ids. -/
theorem resumed_same (cfg : Config) (hrefine : 1 ≤ cfg.maxRefineIterations) (llm : Llm) (services : List Service) (n : ℕ)
    (hsound : Along (Build.step cfg) (Build.Sound cfg) (Build.start cfg services) (List.replicate n llm))
    (hcomplete : (run (Build.step cfg) (Build.start cfg services) (List.replicate n llm)).phase = .complete) (sessions : List Session)
    (hkept : Along (Session.leave cfg llm) (fun files s => s.Kept services files) {} sessions)
    (hstep : evaluateResume (run (Session.leave cfg llm) {} sessions) = .resume → (run (Session.leave cfg llm) {} sessions).InStep)
    (hskip : evaluateResume (run (Session.leave cfg llm) {} sessions) ≠ .skip) :
    ∃ rounds, let resumed := build cfg llm .yes services rounds (run (Session.leave cfg llm) {} sessions)
      resumed.status = some .complete ∧
        (∀ id, resumed.category id = (build cfg llm .no services n {}).category id) ∧
        (∀ id, resumed.classInfo id = (build cfg llm .no services n {}).classInfo id) ∧
        resumed.serviceHash = some (computeServiceHash (servicesIndex services)) ∧
        ∀ sid, (servicesIndex services).contains sid = true ↔ resumed.Lists sid := by
  obtain ⟨⟨made₀, b₀, hpart₀, hdone₀, hfresh⟩, hlists⟩ := fresh_complete hrefine hsound hcomplete
  have hclosed := hpart₀.closed hdone₀
  have hleft := hkept.invariant (left_empty cfg llm (servicesIndex services)) fun files s h hk => h.leave hclosed hrefine hk
  obtain ⟨files', b, hopening, hindex⟩ := exists_opening hleft hstep hskip
  obtain ⟨-, -, hgoing⟩ := going_opening hclosed hrefine (fun _ => rfl) hleft (fun _ => hstep) hopening
  obtain ⟨rounds, made, hpart, hphase, hdone⟩ := hgoing.completes hclosed hrefine (phase_opening hopening)
  -- one more round finishes both builds
  have hlast : run (Build.step cfg) b (List.replicate (rounds + 1) llm) =
      (run (Build.step cfg) b (List.replicate rounds llm)).finish cfg llm := by
    rw [List.replicate_succ', run_append, run_cons, run_nil, Build.step, hphase]
  rw [hfresh] at hcomplete hlists
  obtain ⟨hphase', hcategories, hclasses⟩ := finish_congr (fun sid => (hpart₀.indexed sid).trans (hpart.indexed sid).symm)
    (hpart₀.lookup_congr hdone₀ hpart hdone) (hpart₀.classes_congr hdone₀ hpart hdone) hcomplete
  have hresumed : Saved (build cfg llm .yes services (rounds + 1) (run (Session.leave cfg llm) {} sessions))
      (run (Build.step cfg) b (List.replicate (rounds + 1) llm)) := saved_build hopening
  have hstart : Saved (build cfg llm .no services n {}) (run (Build.step cfg) (Build.start cfg services) (List.replicate n llm)) :=
    saved_build rfl
  rw [hfresh] at hstart
  rw [hlast] at hresumed
  obtain ⟨hstatus, hcategory, hinfo, hhash⟩ := hresumed.complete hphase'
  obtain ⟨-, hcategory₀, hinfo₀, -⟩ := hstart.complete hcomplete
  have hend := Build.index_run cfg b (List.replicate (rounds + 1) llm)
  rw [hlast, hindex] at hend
  refine ⟨rounds + 1, hstatus, fun id => ?_, fun id => ?_, ?_, fun sid => ?_⟩
  · rw [hcategory, hcategory₀, hcategories]
  · rw [hinfo, hinfo₀, hclasses]
  · rw [hhash, hend]
  · rw [hlists sid, servicesOf_congr hcategories, Files.lists_iff hcategory]

open Build (designing sampleConfig sampleServices)

/-- The first build broke off when the root was saved, the one that went on from there when a split was. -/
def brokenOff : List Session := [⟨.no, sampleServices, 3, 3⟩, ⟨.yes, sampleServices, 3, 5⟩]

theorem resumed_same_sample : ∃ rounds,
      let resumed := build sampleConfig (designing "cat_1" "cat_2") .yes sampleServices rounds
        (run (Session.leave sampleConfig (designing "cat_1" "cat_2")) {} brokenOff)
      resumed.status = some .complete ∧
        (∀ id, resumed.category id = (build sampleConfig (designing "cat_1" "cat_2") .no sampleServices 3 {}).category id) ∧
        (∀ id, resumed.classInfo id = (build sampleConfig (designing "cat_1" "cat_2") .no sampleServices 3 {}).classInfo id) ∧
        resumed.serviceHash = some (computeServiceHash (servicesIndex sampleServices)) ∧
        ∀ sid, (servicesIndex sampleServices).contains sid = true ↔ resumed.Lists sid :=
  resumed_same sampleConfig (by decide) (designing "cat_1" "cat_2") sampleServices 3 (by decide) (by decide) brokenOff
    ⟨⟨fun _ => rfl, nofun⟩, ⟨fun _ => rfl, fun _ _ => by decide⟩, trivial⟩ (by decide) (by decide)

/-- After the first save the services are replaced by another one. The old ones stay in the root, and the hash is that of the new one. -/
theorem not_resumed_changed :
    let weather : List Service := [{ id := "weather", name := "Weather", description := "Forecasts" }]
    let left := run (Session.leave sampleConfig (designing "cat_1" "cat_2")) {} [⟨.no, sampleServices, 3, 3⟩]
    let resumed := build sampleConfig (designing "cat_1" "cat_2") .yes weather 3 left
    let fresh := build sampleConfig (designing "cat_1" "cat_2") .no weather 2 {}
    evaluateResume left = .resume ∧ resumed.status = some .complete ∧ fresh.status = some .complete ∧
      ¬ (∀ id, resumed.category id = fresh.category id) ∧
      resumed.Lists "maps" ∧ ¬ resumed.Lists "weather" ∧ resumed.serviceHash = some (computeServiceHash (servicesIndex weather)) := by
  intro weather left resumed fresh
  have hnowhere : ∀ p ∈ resumed.taxonomy, ∀ row ∈ p.1.rows, "weather" ∉ row.2.services := by decide
  refine ⟨by decide, by decide, by decide, fun hsame => absurd (hsame "root") (by decide), ⟨"root", _, rfl, by decide⟩, ?_, rfl⟩
  rintro ⟨id, cat, hcat, hmem⟩
  obtain ⟨p, hp, hlookup⟩ := Option.bind_eq_some_iff.mp hcat
  exact hnowhere p hp _ (Dict.lookup_eq_some.mp hlookup) hmem

end AgentProtocol.A2X
