-- SUMMARY: The files that a taxonomy build writes one after the other, how the next build goes on from them, and builds that break off.
import AgentProtocol.Register.Model
import AgentProtocol.A2X.Taxonomy

/-!
# Checkpoints of a build

A build saves what it has after each split: `taxonomy.json`, `class.json`, `assignments.json` and
`build_config.json`, one file after the other. If it breaks off, the next build may go on from
what the files say. The services are loaded again then, but the taxonomy is not made again.
All builds in a directory are under one configuration.
-/

namespace AgentProtocol.A2X

open Lib

/-! ## Files -/

inductive BuildStatus where
  | bfs
  | crossDomain
  | complete
  deriving DecidableEq

/-- The output directory. -/
structure Files where
  taxonomy : Option (Categories × BuildStatus) := none
  classes : Option (Dict String ClassInfo) := none
  assignments : Option Assignments := none
  /-- The `service_hash` of `build_config.json`. The rest of the file is the configuration. -/
  serviceHash : Option String := none
  keywords : Option Keywords := none

inductive FileWrite where
  | taxonomy (categories : Categories) (status : BuildStatus)
  | classes (classes : Dict String ClassInfo)
  | assignments (assignments : Assignments)
  | buildConfig (serviceHash : String)
  | keywords (keywords : Keywords)

namespace Files

def write (files : Files) : FileWrite → Files
  | .taxonomy categories status => { files with taxonomy := some (categories, status) }
  | .classes classes => { files with classes := some classes }
  | .assignments assignments => { files with assignments := some assignments }
  | .buildConfig serviceHash => { files with serviceHash := some serviceHash }
  | .keywords keywords => { files with keywords := some keywords }

def writeAll (files : Files) (writes : List FileWrite) : Files := writes.foldl write files

def status (files : Files) : Option BuildStatus := files.taxonomy.map Prod.snd

def category (files : Files) (id : String) : Option Category := files.taxonomy.bind fun p => p.1.lookup id

def classInfo (files : Files) (id : String) : Option ClassInfo := files.classes.bind fun classes => classes.lookup id

/-- `_clean_output`. -/
def clean (files : Files) (preserveKeywords : Bool) : Files := { keywords := if preserveKeywords then files.keywords else none }

end Files

/-! ## How a build begins -/

/-- The argument of `build`. -/
inductive Resume where
  | no
  | keyword
  | yes

inductive Action where
  | skip
  | resume
  | rebuild
  deriving DecidableEq

/-- `_evaluate_resume`. The saved configuration is the same, since all builds are under one. -/
def evaluateResume (files : Files) : Action :=
  match files.taxonomy, files.serviceHash with
  | some (_, status), some _ => if status = .complete then .skip else .resume
  | _, _ => .rebuild

/-- `_load_existing_output` and what follows: nothing if `class.json` is missing, which is an error. -/
def Build.load (cfg : Config) (services : List Service) (files : Files) : Option Build :=
  match files.taxonomy, files.classes with
  | some (categories, status), some classes =>
    let index := servicesIndex services
    let assignments := files.assignments.getD ∅
    if status = .bfs then
      some { index, categories, classes, assignments, keywords := files.keywords, queue := findPendingNodes cfg categories }
    else some { index, categories, classes, assignments, keywords := files.keywords, phase := .crossDomain }
  | _, _ => none

/-- A build from scratch in a directory that was cleaned. -/
def Build.rebuild (cfg : Config) (services : List Service) (files : Files) : Files × Build :=
  (files, { Build.start cfg services with keywords := files.keywords })

/-- The directory and the build when its rounds begin, unless it is skipped or fails. -/
def opening (cfg : Config) (mode : Resume) (services : List Service) (files : Files) : Option (Files × Build) :=
  match mode with
  | .no => some (Build.rebuild cfg services (files.clean false))
  | .keyword => some (Build.rebuild cfg services (files.clean true))
  | .yes => match evaluateResume files with
    | .skip => none
    | .resume => (Build.load cfg services files).map fun b => (files, b)
    | .rebuild => some (Build.rebuild cfg services (files.clean false))

/-! ## What a build writes -/

/-- `_compute_service_hash`: over names and descriptions only, in sorted order. -/
def computeServiceHash (index : Dict String Service) : String :=
  let pairs := (index.rows.map fun p => (p.2.name, p.2.description)).insertionSort Register.pairLE
  String.ofList (Register.hexdigest (Json.dumps (.list (pairs.map fun p => .strs [p.1, p.2]))))

namespace Build

def saveOutput (b : Build) (status : BuildStatus) : List FileWrite :=
  [.taxonomy b.categories status, .classes b.classes] ++ (if b.assignments.rows = [] then [] else [.assignments b.assignments]) ++
    [.buildConfig (computeServiceHash b.index)]

/-- `_save_keywords`, for keywords that were not there before. -/
def saveKeywords (b : Build) : Option Keywords → List FileWrite
  | some keywords => if b.keywords = none then [.keywords keywords] else []
  | none => []

def roundWrites (cfg : Config) (llm : Llm) (b : Build) : List FileWrite :=
  match b.phase with
  | .bfs => match b.queue with
    | [] => b.saveOutput .crossDomain
    | (id, _) :: _ =>
      if b.nodeServices id = [] then []
      else
        let split := b.splitOf cfg llm id
        b.saveKeywords split.2 ++ (split.1.elim [] fun result => (b.apply id result).saveOutput .bfs)
  | .crossDomain => if (b.finish cfg llm).phase = .complete then (b.finish cfg llm).saveOutput .complete else []
  | .complete | .failed => []

/-- What so many rounds write. -/
def writes (cfg : Config) (llm : Llm) : ℕ → Build → List FileWrite
  | 0, _ => []
  | rounds + 1, b => b.roundWrites cfg llm ++ writes cfg llm rounds (b.step cfg llm)

/-- The first save. There is none if the splitting is over. -/
def firstWrites (b : Build) : List FileWrite := if b.phase = .bfs then b.saveOutput .bfs else []

def allWrites (cfg : Config) (llm : Llm) (rounds : ℕ) (b : Build) : List FileWrite := b.firstWrites ++ writes cfg llm rounds b

end Build

/-- The directory after a build of so many rounds. -/
def build (cfg : Config) (llm : Llm) (mode : Resume) (services : List Service) (rounds : ℕ) (files : Files) : Files :=
  match opening cfg mode services files with
  | none => files
  | some (files, b) => files.writeAll (b.allWrites cfg llm rounds)

/-! ## Builds that break off -/

/-- A build that breaks off after so many writes. -/
structure Session where
  mode : Resume
  services : List Service
  rounds : ℕ
  writes : ℕ

/-- The directory that is left. -/
def Session.leave (cfg : Config) (llm : Llm) (files : Files) (s : Session) : Files :=
  match opening cfg s.mode s.services files with
  | none => files
  | some (files, b) => files.writeAll ((b.allWrites cfg llm s.rounds).take s.writes)

end AgentProtocol.A2X
